import ZooKeeperServer.Server.Conversation
import ZooKeeperServer.SessionStore.Invariants

namespace ZooKeeperServer.SessionStore

/-! What a session remembers is a conversation: trimming drops whole turns from the
front and leaves the system message, unless the limit is the largest of all. -/

section Trimming

variable {initial : List ChatMessage} {turns : List Turn} {limit : Nat}

theorem systemOffset_turns (fresh : Initial initial)
    (fromUsers : ∀ turn ∈ turns, turn.user.role = .user) :
    systemOffset (initial ++ turnMessages turns) = initial.length := by
  cases turns with
  | nil =>
      rcases fresh with rfl | ⟨prompt, rfl⟩
      · rfl
      · rfl
  | cons turn turns =>
      exact systemOffset_initial_append fresh (fromUsers turn (by simp))

theorem drop_scanToUser {messages rest : List ChatMessage} {start : Nat}
    (from_ : messages.drop start = rest) :
    messages.drop (scanToUser rest start) =
      rest.dropWhile fun message => message.role ≠ .user := by
  induction rest generalizing start with
  | nil => exact from_
  | cons message rest ih =>
      by_cases fromUser : message.role = .user
      · simpa [scanToUser, fromUser] using from_
      · have following : messages.drop (start + 1) = rest := by
          rw [← List.tail_drop, from_, List.tail_cons]
        simpa [scanToUser, fromUser] using ih following

/-- From anywhere in a list of turns, the next user message begins a turn. -/
theorem dropWhile_turns (fromUsers : ∀ turn ∈ turns, turn.user.role = .user)
    (count : Nat) :
    ∃ kept, ((turnMessages turns).drop count).dropWhile
        (fun message => message.role ≠ .user) =
      turnMessages (turns.drop kept) := by
  induction turns generalizing count with
  | nil => exact ⟨0, by simp⟩
  | cons turn turns ih =>
      have rest := ih fun previous member =>
        fromUsers previous (List.mem_cons_of_mem _ member)
      match count with
      | 0 => exact ⟨0, by simp [fromUsers turn]⟩
      | 1 =>
          obtain ⟨kept, found⟩ := rest 0
          exact ⟨kept + 1, by simpa using found⟩
      | count + 2 =>
          obtain ⟨kept, found⟩ := rest count
          exact ⟨kept + 1, by simpa using found⟩

theorem trimRange_eq_some {messages : List ChatMessage} {first last : Nat}
    (range : trimRange messages limit = some (first, last)) :
    first = systemOffset messages ∧ ∃ clamped, systemOffset messages ≤ clamped ∧
      last = scanToUser (messages.drop clamped) clamped := by
  simp only [trimRange] at range
  split at range
  · contradiction
  generalize clamping : (if _ < systemOffset messages then
    systemOffset messages else _) = clamped at range
  split at range
  · contradiction
  · cases Option.some.inj range
    refine ⟨rfl, clamped, ?_, rfl⟩
    split at clamping
    · exact clamping.le
    · omega

theorem scanToUser_le (rest : List ChatMessage) (start : Nat) :
    start ≤ scanToUser rest start ∧
      scanToUser rest start ≤ start + rest.length := by
  induction rest generalizing start with
  | nil => simp [scanToUser]
  | cons message rest ih =>
      have further := ih (start + 1)
      simp only [scanToUser, List.length_cons]
      split
      · omega
      · omega

/-- Where the sum of the offset and the limit does not wrap, the range is inside
the list. -/
theorem trimRange_inside {messages : List ChatMessage} {first last : Nat}
    (fits : systemOffset messages + limit < sizeLimit)
    (range : trimRange messages limit = some (first, last)) :
    first ≤ last ∧ last ≤ messages.length := by
  simp only [trimRange, Nat.mod_eq_of_lt fits] at range
  split at range
  · contradiction
  rename_i long
  have bounded : (messages.length + sizeLimit - limit) % sizeLimit ≤
      messages.length := by
    by_cases small : messages.length < sizeLimit
    · rw [show messages.length + sizeLimit - limit =
        messages.length - limit + sizeLimit by omega, Nat.add_mod_right]
      exact (Nat.mod_le _ _).trans (Nat.sub_le _ _)
    · have within := Nat.mod_lt (messages.length + sizeLimit - limit)
        (show 0 < sizeLimit by decide)
      omega
  generalize clamping : (if _ < systemOffset messages then
    systemOffset messages else _) = clamped at range
  have within : clamped ≤ messages.length := by
    split at clamping
    · omega
    · omega
  have scan := scanToUser_le (messages.drop clamped) clamped
  rw [List.length_drop] at scan
  split at range
  · contradiction
  · cases Option.some.inj range
    omega

/-- Trimming drops whole turns, the oldest first. -/
theorem trim_turns (fresh : Initial initial)
    (fromUsers : ∀ turn ∈ turns, turn.user.role = .user)
    (fits : initial.length + limit < sizeLimit) :
    ∃ kept, trimHistoryToFit (initial ++ turnMessages turns) limit =
      initial ++ turnMessages (turns.drop kept) := by
  cases range : trimRange (initial ++ turnMessages turns) limit with
  | none => exact ⟨0, by simp [trimHistoryToFit, range]⟩
  | some erased =>
      obtain ⟨first, last⟩ := erased
      have inside := trimRange_inside
        ((systemOffset_turns fresh fromUsers).symm ▸ fits) range
      obtain ⟨rfl, clamped, beyond, rfl⟩ := trimRange_eq_some range
      rw [systemOffset_turns fresh fromUsers] at range beyond inside
      obtain ⟨kept, found⟩ :=
        dropWhile_turns fromUsers (clamped - initial.length)
      have dropped : (initial ++ turnMessages turns).drop clamped =
          (turnMessages turns).drop (clamped - initial.length) := by
        rw [List.drop_append, List.drop_eq_nil_of_le beyond, List.nil_append]
      refine ⟨kept, ?_⟩
      rw [trimHistoryToFit, range]
      simp only
      rw [eraseRange_inside inside.1 inside.2, List.take_left, drop_scanToUser rfl,
        dropped, found]

end Trimming

/-- A session's history is its system message, if it has one, and turns. -/
def Conversing (heap : List SessionState) (log : List Event) : Prop :=
  ∀ (ptr : SessionPtr) session, heap[ptr]? = some session →
    ∃ basePrompt requestPrompt turns,
      .created ptr basePrompt requestPrompt ∈ log ∧
        (∀ turn ∈ turns, turn.user.role = .user) ∧
        session.history =
          makeInitialHistory basePrompt requestPrompt ++ turnMessages turns

/-- Where a turn has been committed, the system message and the limit are not more
than a `size_t` counts. -/
def Fits (settings : Settings) (log : List Event) : Prop :=
  ∀ ptr basePrompt requestPrompt requestId turn,
    .created ptr basePrompt requestPrompt ∈ log →
    .committed ptr requestId turn ∈ log →
    (makeInitialHistory basePrompt requestPrompt).length +
      settings.maxHistoryMessages < sizeLimit

theorem Initial.length_le {messages : List ChatMessage} (fresh : Initial messages) :
    messages.length ≤ 1 := by
  rcases fresh with rfl | ⟨prompt, rfl⟩
  · exact Nat.zero_le 1
  · exact Nat.le_refl 1

theorem fits_of_bounded {settings : Settings}
    (bounded : settings.maxHistoryMessages + 1 < sizeLimit) (log : List Event) :
    Fits settings log := by
  intro ptr basePrompt requestPrompt requestId turn created committed
  have short := (makeInitialHistory_initial basePrompt requestPrompt).length_le
  omega

theorem Fits.earlier {settings : Settings} {log later : List Event}
    (fits : Fits settings later) (kept : log ⊆ later) : Fits settings log :=
  fun ptr basePrompt requestPrompt requestId turn created committed =>
    fits ptr basePrompt requestPrompt requestId turn (kept created)
      (kept committed)

section Sessions

variable {settings : Settings} {store next : Store} {current : Section}
  {progress : Progress} {events log : List Event}

/-- A section keeps the histories in shape, if only user messages are committed. -/
theorem Effect.conversing (conversing : Conversing store.heap log)
    (effect : Effect settings store current next progress events)
    (fits : Fits settings (log ++ events))
    (users : ∀ ptr requestId turn, .committed ptr requestId turn ∈ events →
      turn.user.role = .user) : Conversing next.heap (log ++ events) := by
  intro ptr updated after
  rcases effect.origin after with ⟨session, before, change⟩ | ⟨rfl, creates⟩
  · obtain ⟨basePrompt, requestPrompt, turns, created, fromUsers, history⟩ :=
      conversing ptr session before
    have member := List.mem_append_left events created
    cases change with
    | @commit requestId user reply now opened active =>
        have fromUser : user.role = .user :=
          users ptr requestId ⟨user, reply⟩ (List.mem_singleton_self _)
        have all : ∀ turn ∈ turns ++ [⟨user, reply⟩],
            turn.user.role = .user := by
          intro turn member
          rcases List.mem_append.mp member with earlier | last
          · exact fromUsers turn earlier
          · exact List.mem_singleton.mp last ▸ fromUser
        have fresh := makeInitialHistory_initial basePrompt requestPrompt
        have room := fits ptr basePrompt requestPrompt requestId ⟨user, reply⟩ member
          (List.mem_append_right log (List.mem_singleton_self _))
        obtain ⟨kept, trimmed⟩ := trim_turns fresh all room
        refine ⟨basePrompt, requestPrompt, List.drop kept (turns ++ [⟨user, reply⟩]),
          member, fun turn held => all turn (List.mem_of_mem_drop held), ?_⟩
        simpa [touchSession, history, Turn.messages] using trimmed
    | _ => exact ⟨basePrompt, requestPrompt, turns, member, fromUsers, history⟩
  · obtain ⟨now, request, rfl, rfl⟩ := creates.shape
    exact ⟨store.baseSystemPrompt, request.systemPrompt, [],
      List.mem_append_right _ (List.mem_singleton_self _), by simp,
      by simp [freshSession]⟩

end Sessions

section Rule

variable {history : List ChatMessage} {turns : List Turn}

theorem turns_continue (fromUsers : ∀ turn ∈ turns, turn.user.role = .user)
    (admitted : Admits history .user) :
    Continues history (turnMessages turns) ∧
      Admits (history ++ turnMessages turns) .user := by
  induction turns generalizing history with
  | nil => simpa using admitted
  | cons turn turns ih =>
      have fromUser := fromUsers turn List.mem_cons_self
      have answered : Admits (history ++ [turn.user]) .assistant := by
        simp [fromUser]
      have asked : Admits (history ++ [turn.user] ++ [.assistant turn.text])
          .user := by
        rw [admits_concat]
        exact .inr (by simp [ChatMessage.assistant])
      obtain ⟨continues, next⟩ := ih
        (fun previous member => fromUsers previous (List.mem_cons_of_mem _ member))
        asked
      rw [turnMessages_cons, continues_cons, continues_cons, fromUser]
      exact ⟨⟨admitted, answered, continues⟩, by simpa using next⟩

theorem Initial.wellOrdered (fresh : Initial history) :
    WellOrdered history ∧ Admits history .user := by
  rcases fresh with rfl | ⟨prompt, rfl⟩
  · simp
  · constructor
    · rw [wellOrdered_iff_chain]
      simp [ChatMessage.system]
    · simp [Admits, ChatMessage.system]

/-- With one more user message behind it, the history of a session keeps the
rule. -/
theorem conversation_wellOrdered {message : ChatMessage}
    (fresh : Initial history)
    (fromUsers : ∀ turn ∈ turns, turn.user.role = .user)
    (fromUser : message.role = .user) :
    WellOrdered (history ++ turnMessages turns ++ [message]) := by
  obtain ⟨ordered, admitted⟩ := fresh.wellOrdered
  obtain ⟨continues, next⟩ := turns_continue fromUsers admitted
  rw [wellOrdered_concat, wellOrdered_append, fromUser]
  exact ⟨⟨ordered, continues⟩, next⟩

end Rule

def Asks (messages : List ChatMessage) (user : ChatMessage) : Prop :=
  messages = [user] ∧ user.role = .user

def Section.Carries (messages : List ChatMessage) : Section → Prop
  | .enter (.beginRequest request _) => request.messages = messages
  | .reaping _ _ (.begin _ user _) => Asks messages user
  | .begin _ _ user _ => Asks messages user
  | _ => False

def Progress.Carries (messages : List ChatMessage) : Progress → Prop
  | .suspended next => next.Carries messages
  | .returned (.begun (.ok result)) => Asks messages result.userMessage
  | .returned _ => True

section Carrying

variable {settings : Settings} {readings : Readings} {store : Store}
  {outcome : Outcome} {current : Section} {messages : List ChatMessage}

theorem Progress.Carries.failed {output : Output}
    (failed : ¬ output.Succeeds) :
    (Progress.returned output).Carries messages := by
  cases output with
  | begun result =>
      cases result with
      | error error => trivial
      | ok result => exact absurd trivial failed
  | _ => trivial

theorem exec_carries (carries : current.Carries messages)
    (executed : current.exec settings readings store = some outcome) :
    outcome.progress.Carries messages := by
  cases current with
  | enter call =>
      cases enterCall_entered executed with
      | returns failed setsNothing => exact .failed failed
      | reaps free reaps running =>
          cases reaps with
          | @begin request _ _ _ accepted =>
              obtain rfl : request.messages = messages := carries
              obtain ⟨_, single, fromUser⟩ := validateBegin_ok accepted
              exact ⟨single, fromUser⟩
          | _ => exact carries.elim
      | finds free found works =>
          cases works with
          | _ => exact carries.elim
      | _ => exact carries.elim
  | reaping now rest after =>
      cases after with
      | begin sessionId user requestId =>
          cases rest with
          | nil =>
              have left : Left settings now store
                  (.begin sessionId user requestId) outcome :=
                leaveReaping_left executed
              cases left with
              | returns failed => exact .failed failed
              | begins found => exact carries
          | cons entry rest =>
              obtain ⟨session, found, rfl⟩ := Option.map_eq_some_iff.mp executed
              exact carries
      | _ => exact carries.elim
  | begin ptr sessionId user requestId =>
      obtain ⟨session, found, rfl⟩ := Option.map_eq_some_iff.mp executed
      simp only [beginLocked]
      split
      · trivial
      split
      · trivial
      · exact carries
  | _ => exact carries.elim

end Carrying

end ZooKeeperServer.SessionStore
