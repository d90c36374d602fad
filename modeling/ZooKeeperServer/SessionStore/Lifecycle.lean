import ZooKeeperServer.SessionStore.Sections

namespace ZooKeeperServer.SessionStore

/-! The life of one session, apart from the map that holds it and from the
threads that work on it. -/

def Event.changes : Event → Option SessionPtr
  | .created ptr _ _ => some ptr
  | .expired ptr => some ptr
  | .deleted _ => none
  | .stopped => none
  | .began ptr _ _ => some ptr
  | .committed ptr _ _ => some ptr
  | .released ptr _ => some ptr

inductive Change (settings : Settings) (ptr : SessionPtr) :
    SessionState → SessionState → List Event → Prop
  | stay {session : SessionState} {events : List Event}
      (elsewhere : ∀ event ∈ events, event.changes ≠ some ptr) :
      Change settings ptr session session events
  | expire {session : SessionState} {now : Int}
      (idle : shouldExpire now session) :
      Change settings ptr session (closeSession session) [.expired ptr]
  | close {session : SessionState} :
      Change settings ptr session (closeSession session) []
  | begin {session : SessionState} {requestId : RequestId}
      {user : ChatMessage} {startedAt now : Int}
      (opened : session.closed = false)
      (idle : session.activeRequest = none) :
      Change settings ptr session
        (touchSession settings now
          { session with activeRequest := some requestId })
        [.began ptr requestId ⟨session.history ++ [user], startedAt, user⟩]
  | commit {session : SessionState} {requestId : RequestId}
      {user : ChatMessage} {reply : StdString} {now : Int}
      (opened : session.closed = false)
      (active : session.activeRequest = some requestId) :
      Change settings ptr session
        (touchSession settings now
          { session with
            history := trimHistoryToFit
              (session.history ++ [user, .assistant reply])
              settings.maxHistoryMessages
            activeRequest := none })
        [.committed ptr requestId ⟨user, reply⟩]
  | release {session : SessionState} {requestId : RequestId} {now : Int}
      (active : session.activeRequest = some requestId) :
      Change settings ptr session
        (touchSession settings now { session with activeRequest := none })
        [.released ptr requestId]

/-- The turns committed on a session, in commit order. -/
def turnsOf (ptr : SessionPtr) (log : List Event) : List Turn :=
  log.filterMap fun event =>
    match event with
    | .committed other _ turn => if other = ptr then some turn else none
    | _ => none

def Finished (log : List Event) (ptr : SessionPtr) (requestId : RequestId) :
    Prop :=
  (∃ turn, .committed ptr requestId turn ∈ log) ∨ .released ptr requestId ∈ log

@[simp] theorem turnsOf_append (ptr : SessionPtr) (first second : List Event) :
    turnsOf ptr (first ++ second) = turnsOf ptr first ++ turnsOf ptr second :=
  List.filterMap_append

theorem turnsOf_elsewhere {ptr : SessionPtr} {events : List Event}
    (elsewhere : ∀ event ∈ events, event.changes ≠ some ptr) :
    turnsOf ptr events = [] := by
  rw [turnsOf, List.filterMap_eq_nil_iff]
  intro event member
  have other := elsewhere event member
  cases event with
  | committed subject requestId turn =>
      simp only [Event.changes, ne_eq, Option.some.injEq] at other
      simp [other]
  | _ => rfl

theorem finished_append {log events : List Event} {ptr : SessionPtr}
    {requestId : RequestId} :
    Finished (log ++ events) ptr requestId ↔
      Finished log ptr requestId ∨ Finished events ptr requestId := by
  simp only [Finished, List.mem_append, exists_or]
  tauto

theorem Finished.changes {events : List Event} {ptr : SessionPtr}
    {requestId : RequestId} (finished : Finished events ptr requestId) :
    ∃ event ∈ events, event.changes = some ptr := by
  rcases finished with ⟨turn, member⟩ | member
  · exact ⟨_, member, rfl⟩
  · exact ⟨_, member, rfl⟩

/-- What a session remembers, and who keeps it busy. -/
structure SessionInvariant (settings : Settings)
    (userOf : RequestId → ChatMessage) (log : List Event) (ptr : SessionPtr)
    (session : SessionState) : Prop where
  active : ∀ requestId, session.activeRequest = some requestId →
    ¬ Finished log ptr requestId ∧ ∃ result,
      .began ptr requestId result ∈ log ∧
        result.messages = session.history ++ [userOf requestId] ∧
        (userOf requestId).role = .user
  unfinished : ∀ requestId result, .began ptr requestId result ∈ log →
    Finished log ptr requestId ∨ session.activeRequest = some requestId
  begun : ∀ requestId, Finished log ptr requestId →
    ∃ result, .began ptr requestId result ∈ log
  reaped : .expired ptr ∈ log →
    session.closed = true ∧ session.activeRequest = none
  users : ∀ turn ∈ turnsOf ptr log, turn.user.role = .user
  remembers : settings.maxHistoryMessages + 1 < sizeLimit →
    ∀ basePrompt requestPrompt,
      .created ptr basePrompt requestPrompt ∈ log →
      session.history = makeInitialHistory basePrompt requestPrompt ++
        turnMessages
          ((turnsOf ptr log).rtake (settings.maxHistoryMessages / 2))

structure FreshBegin (userOf : RequestId → ChatMessage) (log : List Event)
    (requestId : RequestId) (user : ChatMessage) : Prop where
  message : user = userOf requestId
  fromUser : user.role = .user
  unused : ∀ ptr result, .began ptr requestId result ∉ log

section Preservation

variable {settings : Settings} {userOf : RequestId → ChatMessage}
  {log : List Event} {ptr : SessionPtr} {session : SessionState}

theorem SessionInvariant.fresh {basePrompt : StdString}
    {requestPrompt : Option StdString}
    (unseen : ∀ event ∈ log, event.changes ≠ some ptr)
    (idle : session.activeRequest = none)
    (history : session.history = makeInitialHistory basePrompt requestPrompt) :
    SessionInvariant settings userOf
      (log ++ [.created ptr basePrompt requestPrompt]) ptr session := by
  have unfinished (requestId : RequestId) :
      ¬ Finished (log ++ [.created ptr basePrompt requestPrompt]) ptr
        requestId := by
    rw [finished_append]
    rintro (finished | finished)
    · obtain ⟨event, member, changes⟩ := finished.changes
      exact unseen event member changes
    · simp [Finished] at finished
  have turns :
      turnsOf ptr (log ++ [.created ptr basePrompt requestPrompt]) = [] := by
    rw [turnsOf_append, turnsOf_elsewhere unseen]
    rfl
  refine
    { active := by simp [idle]
      unfinished := fun requestId result member => ?_
      begun := fun requestId finished => absurd finished (unfinished requestId)
      reaped := fun member => ?_
      users := ?_
      remembers := fun bounded base prompt member => ?_ }
  · simp only [List.mem_append, List.mem_singleton, reduceCtorEq, or_false]
      at member
    exact absurd rfl (unseen _ member)
  · simp only [List.mem_append, List.mem_singleton, reduceCtorEq, or_false]
      at member
    exact absurd rfl (unseen _ member)
  · simp [turns]
  · have same : .created ptr base prompt =
        Event.created ptr basePrompt requestPrompt := by
      rcases List.mem_append.mp member with earlier | last
      · exact absurd rfl (unseen _ earlier)
      · exact List.mem_singleton.mp last
    cases same
    simp [history, turns, List.rtake]

theorem SessionInvariant.stay {events : List Event}
    (holds : SessionInvariant settings userOf log ptr session)
    (elsewhere : ∀ event ∈ events, event.changes ≠ some ptr) :
    SessionInvariant settings userOf (log ++ events) ptr session := by
  have earlier {event : Event} (subject : event.changes = some ptr)
      (member : event ∈ log ++ events) : event ∈ log := by
    rcases List.mem_append.mp member with earlier | later
    · exact earlier
    · exact absurd subject (elsewhere event later)
  have finished (requestId : RequestId) :
      Finished (log ++ events) ptr requestId ↔ Finished log ptr requestId := by
    rw [finished_append, or_iff_left]
    intro later
    obtain ⟨event, member, changes⟩ := later.changes
    exact elsewhere event member changes
  have turns : turnsOf ptr (log ++ events) = turnsOf ptr log := by
    rw [turnsOf_append, turnsOf_elsewhere elsewhere, List.append_nil]
  constructor
  · intro requestId active
    obtain ⟨open_, result, member, messages, fromUser⟩ :=
      holds.active requestId active
    exact ⟨mt (finished requestId).mp open_, result,
      List.mem_append_left _ member, messages, fromUser⟩
  · intro requestId result member
    rw [finished]
    exact holds.unfinished requestId result (earlier rfl member)
  · intro requestId done
    obtain ⟨result, member⟩ := holds.begun requestId ((finished _).mp done)
    exact ⟨result, List.mem_append_left _ member⟩
  · exact fun member => holds.reaped (earlier rfl member)
  · rw [turns]
    exact holds.users
  · intro bounded basePrompt requestPrompt member
    rw [turns]
    exact holds.remembers bounded basePrompt requestPrompt (earlier rfl member)

theorem SessionInvariant.closed
    (holds : SessionInvariant settings userOf log ptr session) :
    SessionInvariant settings userOf log ptr (closeSession session) :=
  { holds with reaped := fun member => ⟨rfl, (holds.reaped member).2⟩ }

theorem SessionInvariant.expired {now : Int}
    (holds : SessionInvariant settings userOf log ptr session)
    (idle : shouldExpire now session) :
    SessionInvariant settings userOf (log ++ [.expired ptr]) ptr
      (closeSession session) := by
  have inactive : session.activeRequest = none := by
    simp only [shouldExpire, Bool.and_eq_true, Option.isNone_iff_eq_none]
      at idle
    exact idle.1.2
  have finished (requestId : RequestId) :
      Finished (log ++ [.expired ptr]) ptr requestId ↔
        Finished log ptr requestId := by
    simp [Finished]
  have turns : turnsOf ptr (log ++ [.expired ptr]) = turnsOf ptr log := by
    simp [turnsOf]
  constructor
  · intro requestId active
    exact absurd (inactive.symm.trans active) (by simp)
  · intro requestId result member
    rw [finished]
    exact holds.unfinished requestId result (by simpa using member)
  · intro requestId done
    obtain ⟨result, member⟩ := holds.begun requestId ((finished _).mp done)
    exact ⟨result, List.mem_append_left _ member⟩
  · exact fun _ => ⟨rfl, inactive⟩
  · rw [turns]
    exact holds.users
  · intro bounded basePrompt requestPrompt member
    rw [turns]
    exact holds.remembers bounded basePrompt requestPrompt (by simpa using member)

theorem SessionInvariant.begins {requestId : RequestId} {user : ChatMessage}
    {startedAt now : Int}
    (holds : SessionInvariant settings userOf log ptr session)
    (opened : session.closed = false) (idle : session.activeRequest = none)
    (fresh : FreshBegin userOf log requestId user) :
    SessionInvariant settings userOf
      (log ++ [.began ptr requestId
        ⟨session.history ++ [user], startedAt, user⟩]) ptr
      (touchSession settings now
        { session with activeRequest := some requestId }) := by
  have finished (other : RequestId) :
      Finished (log ++ [.began ptr requestId
        ⟨session.history ++ [user], startedAt, user⟩]) ptr other ↔
        Finished log ptr other := by
    simp [Finished]
  have turns : turnsOf ptr (log ++ [.began ptr requestId
      ⟨session.history ++ [user], startedAt, user⟩]) = turnsOf ptr log := by
    simp [turnsOf]
  have notReaped : .expired ptr ∉ log := fun member =>
    absurd (opened.symm.trans (holds.reaped member).1) (by simp)
  constructor
  · intro other active
    obtain rfl : requestId = other := Option.some.inj active
    rw [finished]
    refine ⟨fun done => ?_, _, List.mem_append_right _ (List.mem_singleton_self _),
      congrArg (session.history ++ [·]) fresh.message, ?_⟩
    · obtain ⟨result, member⟩ := holds.begun requestId done
      exact fresh.unused ptr result member
    · exact fresh.message ▸ fresh.fromUser
  · intro other result member
    rw [finished]
    rcases List.mem_append.mp member with earlier | last
    · rcases holds.unfinished other result earlier with done | active
      · exact .inl done
      · exact absurd (idle.symm.trans active) (by simp)
    · cases List.mem_singleton.mp last
      exact .inr rfl
  · intro other done
    obtain ⟨result, member⟩ := holds.begun other ((finished _).mp done)
    exact ⟨result, List.mem_append_left _ member⟩
  · exact fun member => absurd (by simpa using member) notReaped
  · rw [turns]
    exact holds.users
  · intro bounded basePrompt requestPrompt member
    rw [turns]
    exact holds.remembers bounded basePrompt requestPrompt (by simpa using member)

theorem SessionInvariant.ends {requestId : RequestId} {event : Event}
    {history : List ChatMessage} {now : Int}
    (holds : SessionInvariant settings userOf log ptr session)
    (active : session.activeRequest = some requestId)
    (ending : event = .released ptr requestId ∨
      ∃ turn, event = .committed ptr requestId turn)
    (users : ∀ turn ∈ turnsOf ptr [event], turn.user.role = .user)
    (remembers : settings.maxHistoryMessages + 1 < sizeLimit →
      ∀ basePrompt requestPrompt,
        .created ptr basePrompt requestPrompt ∈ log →
        history = makeInitialHistory basePrompt requestPrompt ++
          turnMessages
            ((turnsOf ptr (log ++ [event])).rtake
              (settings.maxHistoryMessages / 2))) :
    SessionInvariant settings userOf (log ++ [event]) ptr
      (touchSession settings now
        { session with history, activeRequest := none }) := by
  have finished (other : RequestId) :
      Finished (log ++ [event]) ptr other ↔
        Finished log ptr other ∨ other = requestId := by
    rw [finished_append]
    rcases ending with rfl | ⟨turn, rfl⟩
    · simp [Finished]
    · simp [Finished]
  have earlier {other : Event}
      (different : (∃ id result, other = .began ptr id result) ∨
        other = .expired ptr ∨ ∃ base prompt, other = .created ptr base prompt)
      (member : other ∈ log ++ [event]) : other ∈ log := by
    rcases List.mem_append.mp member with earlier | last
    · exact earlier
    · cases List.mem_singleton.mp last
      rcases ending with rfl | ⟨turn, rfl⟩
      · simp at different
      · simp at different
  constructor
  · intro other busy
    exact absurd busy (by simp [touchSession])
  · intro other result member
    rw [finished]
    have began := earlier (.inl ⟨other, result, rfl⟩) member
    rcases holds.unfinished other result began with done | busy
    · exact .inl (.inl done)
    · exact .inl (.inr (Option.some.inj (busy.symm.trans active)))
  · intro other done
    rcases (finished other).mp done with done | rfl
    · obtain ⟨result, member⟩ := holds.begun other done
      exact ⟨result, List.mem_append_left _ member⟩
    · obtain ⟨_, result, member, _⟩ := holds.active other active
      exact ⟨result, List.mem_append_left _ member⟩
  · intro member
    exact ⟨(holds.reaped (earlier (.inr (.inl rfl)) member)).1, rfl⟩
  · intro turn member
    rw [turnsOf_append] at member
    rcases List.mem_append.mp member with before | last
    · exact holds.users turn before
    · exact users turn last
  · intro bounded basePrompt requestPrompt member
    exact remembers bounded basePrompt requestPrompt
      (earlier (.inr (.inr ⟨_, _, rfl⟩)) member)

/-- A change that begins requests only afresh, and commits them with their own
message, keeps what holds of the session. -/
theorem Change.invariant {updated : SessionState} {events : List Event}
    (change : Change settings ptr session updated events)
    (holds : SessionInvariant settings userOf log ptr session)
    (begins : ∀ requestId result, .began ptr requestId result ∈ events →
      FreshBegin userOf log requestId result.userMessage)
    (commits : ∀ requestId turn, .committed ptr requestId turn ∈ events →
      turn.user = userOf requestId) :
    SessionInvariant settings userOf (log ++ events) ptr updated := by
  cases change with
  | stay elsewhere => exact holds.stay elsewhere
  | expire idle => exact holds.expired idle
  | close => simpa using holds.closed
  | begin opened idle =>
      exact holds.begins opened idle (begins _ _ (List.mem_singleton_self _))
  | @commit requestId user reply now opened active =>
      have fromUser : user.role = .user := by
        obtain ⟨_, _, _, _, role⟩ := holds.active requestId active
        have own : user = userOf requestId :=
          commits _ _ (List.mem_singleton_self _)
        exact own ▸ role
      have turn : turnsOf ptr [.committed ptr requestId ⟨user, reply⟩] =
          [⟨user, reply⟩] := by
        simp [turnsOf]
      have fromUsers : ∀ turn ∈ turnsOf ptr [.committed ptr requestId
          ⟨user, reply⟩], turn.user.role = .user := by
        simp [turn, fromUser]
      refine holds.ends active (.inr ⟨_, rfl⟩) fromUsers ?_
      intro bounded basePrompt requestPrompt member
      rw [holds.remembers bounded _ _ member, turnsOf_append, turn]
      rw [turn] at fromUsers
      exact trim_commit (makeInitialHistory_initial _ _) holds.users
        (fromUsers _ (List.mem_singleton_self _)) bounded
  | release active =>
      refine holds.ends active (.inl rfl) (by simp [turnsOf]) ?_
      intro bounded basePrompt requestPrompt member
      simpa [turnsOf] using holds.remembers bounded _ _ member

end Preservation

end ZooKeeperServer.SessionStore
