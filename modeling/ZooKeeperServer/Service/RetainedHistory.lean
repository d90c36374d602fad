import ZooKeeperServer.Service.Reachability

namespace ZooKeeperServer.Service

open SessionStore Transition

/-! The history that the shared agent retains.  A chat copies it in one section and
adds its turn to it in another, and the two do not know of each other. -/

def Actor.commits : Actor → Input → Option (ChatMessage × StdString)
  | .request call, .consume copy (.proceed _) =>
      match call.phase with
      | .pending object =>
          match object.copies[copy]? with
          | some ⟨_, .appendTurn user reply :: _⟩ => some (user, reply)
          | _ => none
      | _ => none
  | _, _ => none

/-- What a turn writes to the history, if it writes it. -/
def Actor.writes (config : Configuration) (core : Core) (actor : Actor)
    (input : Input) : Option (List ChatMessage) :=
  match actor, input with
  | .history (.entered .clear), .run _ =>
      some (resetAgentHistoryToSystemPrompt core.requestSystemPrompt)
  | .history (.entered (.replace messages)), .run _ => some messages
  | .history (.entered (.swap messages)), .run _ => some messages
  | .history (.entered (.append message)), .run _ =>
      match validateMessageSequence config.rule core.agentHistory
        message.role with
      | .error _ => none
      | .ok () => some (core.agentHistory ++ [message])
  | .prompt (.updating text), .run _ =>
      some (updateSystemPromptState text core.agentHistory)
  | actor, input => (actor.commits input).map fun (user, reply) =>
      core.agentHistory ++ [user, .assistant reply]

structure Rewritten (core after : Core) (messages : List ChatMessage) : Prop where
  history : after.agentHistory = messages
  changes : after.historyChanges = (core.setHistory messages).historyChanges

/-- While the count stands still so does the history. -/
def Counts (core after : Core) : Prop :=
  core.historyChanges ≤ after.historyChanges ∧
    (after.historyChanges = core.historyChanges →
      after.agentHistory = core.agentHistory)

section Writing

variable {config : Configuration} {readings : Readings} {core after : Core}
  {actor updated : Actor} {input : Input} {messages : List ChatMessage}

theorem Rewritten.set (messages : List ChatMessage) :
    Rewritten core (core.setHistory messages) messages :=
  ⟨rfl, rfl⟩

theorem Rewritten.idle (history : after.agentHistory = core.agentHistory)
    (changes : after.historyChanges = core.historyChanges) :
    Rewritten core after core.agentHistory where
  history := history
  changes := by simp [Core.setHistory, changes]

theorem execute_history_idle {current : Section} {progress : Progress}
    (executed : core.execute config readings current = some (after, progress)) :
    Rewritten core after core.agentHistory := by
  obtain ⟨outcome, -, rfl, -⟩ := execute_outcome executed
  exact .idle rfl rfl

theorem Turn.writes (turn : Turn config core actor input after updated) :
    Rewritten core after
      ((actor.writes config core input).getD core.agentHistory) := by
  cases turn with
  | advance advanced =>
      cases advanced with
      | beginRequest at_ session executed proceeds =>
          exact execute_history_idle executed
      | _ => exact .idle rfl rfl
  | consume at_ drew consumed =>
      cases consumed with
      | proceed copyAt operated =>
          cases operated with
          | storeProceeds executed =>
              simpa [Actor.writes, Actor.commits, at_, copyAt] using
                execute_history_idle executed
          | storeReturns executed =>
              simpa [Actor.writes, Actor.commits, at_, copyAt] using
                execute_history_idle executed
          | appendTurn =>
              simpa [Actor.writes, Actor.commits, at_, copyAt] using
                Rewritten.set _
          | _ =>
              simp only [Actor.writes, Actor.commits, at_, copyAt,
                Option.map_none, Option.getD_none]
              exact .idle rfl rfl
      | _ => exact .idle rfl rfl
  | deletion deleting =>
      cases deleting with
      | proceeds executed => exact execute_history_idle executed
      | fails executed => exact execute_history_idle executed
      | removed executed => exact execute_history_idle executed
      | _ => exact .idle rfl rfl
  | cancellation stepped =>
      rcases cancellation_calls stepped with rfl | ⟨zooRequestId, rfl⟩
      · exact .idle rfl rfl
      · exact .idle rfl rfl
  | @history readings call updated after stepped =>
      cases call with
      | entered request =>
          cases request with
          | append message =>
              simp only [HistoryCall.step] at stepped
              split at stepped
              · rename_i refused
                cases Option.some.inj stepped
                simpa [Actor.writes, refused] using Rewritten.idle rfl rfl
              · rename_i validated
                cases Option.some.inj stepped
                simpa [Actor.writes, validated] using Rewritten.set _
          | get =>
              cases Option.some.inj stepped
              exact .idle rfl rfl
          | _ =>
              cases Option.some.inj stepped
              exact .set _
      | reading =>
          cases Option.some.inj stepped
          exact .idle rfl rfl
      | returned result => cases stepped
  | @prompt readings call updated after stepped =>
      cases call with
      | updating prompt =>
          cases Option.some.inj stepped
          exact ⟨rfl, rfl⟩
      | givingAgent prompt update =>
          cases Option.some.inj stepped
          exact .idle rfl rfl
      | givingStore prompt update =>
          obtain ⟨⟨middle, progress⟩, executed, same⟩ :=
            Option.map_eq_some_iff.mp stepped
          cases same
          obtain ⟨history, changes⟩ := execute_history_idle executed
          exact ⟨history, changes⟩
      | returned prompt => cases stepped
  | caller executed => exact execute_history_idle executed

theorem Turn.counts (turn : Turn config core actor input after updated) :
    Counts core after := by
  obtain ⟨history, changes⟩ := turn.writes
  unfold Counts
  rw [changes, history]
  unfold Core.setHistory
  split
  · rename_i same
    exact ⟨le_rfl, fun _ => same⟩
  · exact ⟨Nat.le_succ _, fun still => absurd still (Nat.succ_ne_self _)⟩

theorem commits_iff {user : ChatMessage} {reply : StdString} :
    actor.commits input = some (user, reply) ↔
      ∃ request pending copy readings alive rest, actor = .request request ∧
        input = .consume copy (.proceed readings) ∧
        request.phase = .pending pending ∧ pending.copies[copy]? =
          some ⟨alive, .appendTurn user reply :: rest⟩ := by
  constructor
  · intro commits
    unfold Actor.commits at commits
    split at commits
    · rename_i request copy readings
      split at commits
      · rename_i pending at_
        split at commits
        · rename_i alive held text rest copyAt
          cases commits
          exact ⟨request, pending, copy, readings, alive, rest, rfl, rfl, at_,
            copyAt⟩
        · contradiction
      · contradiction
    · contradiction
  · rintro ⟨request, pending, copy, readings, alive, rest, rfl, rfl, at_, copyAt⟩
    simp [Actor.commits, at_, copyAt]

end Writing

def Target.message : Target → Option ChatMessage
  | .retained message => some message
  | _ => none

def Phase.message : Phase → Option ChatMessage
  | .prepared target _ => target.message
  | .submitted target _ => target.message
  | .wrapped target _ => target.message
  | .registering target _ _ => target.message
  | .pending object => object.target.message
  | _ => none

def Request.sent (request : Request) : Option (List ChatMessage) :=
  match request.phase with
  | .prepared _ messages => some messages
  | _ => request.submission.map Submission.messages

/-- What was sent is the history as it was at the snapshot, and the message. -/
def Request.Informed (core : Core) (request : Request) (message : ChatMessage) :
    Prop :=
  ∃ context, request.sent = some (context ++ [message]) ∧
    request.snapshot ≤ core.historyChanges ∧
    (core.historyChanges = request.snapshot → core.agentHistory = context)

structure Chatting (core : Core) (request : Request) : Prop where
  informed : ∀ message, request.phase.message = some message →
    request.Informed core message
  commits : ∀ pending, request.phase = .pending pending →
    ∀ copy ∈ pending.copies, ∀ user reply,
      .appendTurn user reply ∈ copy.operations →
      pending.target.message = some user

def Retains (core : Core) : Actor → Prop
  | .request call => Chatting core call
  | _ => True

section Chats

variable {config : Configuration} {userOf : RequestId → ChatMessage}
  {core after : Core} {actor updated : Actor} {input : Input}
  {request : Request} {message : ChatMessage}

theorem Request.Informed.mono (informed : request.Informed core message)
    (counts : Counts core after) : request.Informed after message := by
  obtain ⟨context, sent, known, fresh⟩ := informed
  obtain ⟨grows, same⟩ := counts
  refine ⟨context, sent, known.trans grows, fun still => ?_⟩
  have stood : core.historyChanges = request.snapshot := by omega
  exact (same (still.trans stood.symm)).trans (fresh stood)

theorem Chatting.mono (chatting : Chatting core request)
    (counts : Counts core after) : Chatting after request where
  informed := fun message found =>
    (chatting.informed message found).mono counts
  commits := chatting.commits

theorem Chatting.quiet (silent : request.phase.message = none)
    (starting : ∀ pending, request.phase ≠ .pending pending) :
    Chatting core request where
  informed := by simp [silent]
  commits := fun pending at_ => absurd at_ (starting pending)

theorem Chatting.keeps {moved : Request} (chatting : Chatting core request)
    (message : moved.phase.message = request.phase.message)
    (sent : moved.sent = request.sent)
    (snapshot : moved.snapshot = request.snapshot)
    (commits : ∀ pending, moved.phase = .pending pending →
      ∀ copy ∈ pending.copies, ∀ user reply,
        .appendTurn user reply ∈ copy.operations →
        pending.target.message = some user) :
    Chatting core moved where
  informed := by
    intro text found
    obtain ⟨context, given, known, fresh⟩ :=
      chatting.informed text (message ▸ found)
    exact ⟨context, sent.trans given, snapshot ▸ known, snapshot ▸ fresh⟩
  commits := commits

theorem Advanced.chatting {moved : Request} {advance : Advance}
    (chatting : Chatting core request)
    (advanced : Advanced config core request advance after moved) :
    Chatting core moved := by
  cases advanced with
  | beginRequest at_ session executed proceeds =>
      rcases beginPhase_cases proceeds with
        ⟨next, -, rfl⟩ | ⟨error, -, rfl⟩ | ⟨result, -, rfl⟩
      · exact .quiet rfl (by simp)
      · exact .quiet rfl (by simp)
      · exact .quiet rfl (by simp)
  | prepare at_ =>
      cases start : request.start with
      | agentChat chat =>
          simp only [Service.prepare]
          split
          · exact .quiet rfl (by simp)
          · refine ⟨?_, by simp⟩
            rintro message ⟨⟩
            exact ⟨core.agentHistory, rfl, le_rfl, fun _ => rfl⟩
      | _ => exact .quiet rfl (by simp [Service.prepare])
  | complete at_ =>
      refine chatting.keeps ?_ ?_ rfl (by simp)
      · simp [Phase.message, at_]
      · simp [Request.sent, at_, StartRequest.submission_messages]
  | spawn at_ =>
      refine chatting.keeps ?_ ?_ rfl (by simp)
      · simp [Phase.message, at_]
      · simp [Request.sent, at_]
  | raise at_ => exact .quiet rfl (by simp)
  | track at_ =>
      refine chatting.keeps ?_ ?_ rfl (by simp)
      · simp [Phase.message, at_]
      · simp [Request.sent, at_]
  | number at_ sessionless =>
      refine chatting.keeps ?_ ?_ rfl (by simp)
      · simp [Phase.message, at_]
      · simp [Request.sent, at_]
  | register at_ drew =>
      refine chatting.keeps ?_ ?_ rfl ?_
      · simp [Phase.message, at_, makePending]
      · simp [Request.sent, at_]
      · rintro pending ⟨⟩ copy member user reply called
        obtain rfl := List.mem_singleton.mp member
        cases called

theorem onResult_appendTurn {target : Target} {trackingId : RequestId}
    {result : Result} {user : ChatMessage} {reply : StdString}
    (called : .appendTurn user reply ∈ target.onResult trackingId result) :
    target.message = some user := by
  cases target with
  | stateless => cases called
  | session sessionId begin => simp [Target.onResult] at called
  | retained message =>
      simp only [Target.onResult] at called
      split at called
      · simp only [List.mem_singleton, Operation.appendTurn.injEq] at called
        exact congrArg some called.1.symm
      · cases called

theorem innerRelease_appendTurn {target : Target} {user : ChatMessage}
    {reply : StdString} : .appendTurn user reply ∉ target.innerRelease := by
  cases target with
  | session sessionId begin => simp [Target.innerRelease]
  | _ => simp [Target.innerRelease]

theorem Operated.turns {readings : Readings} {trackingId : RequestId}
    {pending moved : Pending} {operation : Operation} {called : List Operation}
    (operated : Operated config readings core trackingId pending operation
      after moved called) :
    moved.target = pending.target ∧ moved.copies = pending.copies ∧
      ∀ user reply, .appendTurn user reply ∉ called := by
  cases operated with
  | releaseOuter fresh =>
      refine ⟨rfl, rfl, fun user reply => ?_⟩
      simp [innerRelease_appendTurn]
  | _ => exact ⟨rfl, rfl, by simp⟩

theorem Consumed.turns {trackingId : RequestId} {start : StartRequest}
    {pending moved : Pending} {index : Nat} {action : Action}
    (own : ∀ copy ∈ pending.copies, ∀ user reply,
      .appendTurn user reply ∈ copy.operations →
      pending.target.message = some user)
    (consumed : Consumed config core trackingId start pending index action
      after moved) :
    moved.target = pending.target ∧
      ∀ copy ∈ moved.copies, ∀ user reply,
        .appendTurn user reply ∈ copy.operations →
        pending.target.message = some user := by
  have sets {held : Copy} (others : ∀ user reply,
      .appendTurn user reply ∈ held.operations →
      pending.target.message = some user) :
      ∀ copy ∈ pending.copies.set index held, ∀ user reply,
        .appendTurn user reply ∈ copy.operations →
        pending.target.message = some user := by
    intro copy member
    rcases List.mem_or_eq_of_mem_set member with before | rfl
    · exact own copy before
    · exact others
  cases consumed with
  | copy at_ =>
      refine ⟨rfl, fun copy member => ?_⟩
      rcases List.mem_append.mp member with before | new
      · exact own copy before
      · obtain rfl := List.mem_singleton.mp new
        simp
  | @finalize result at_ answers =>
      refine ⟨rfl, sets fun user reply called => ?_⟩
      have turned : .appendTurn user reply ∈
          pending.target.onResult trackingId result := by
        simpa using called
      exact onResult_appendTurn turned
  | release at_ => exact ⟨rfl, sets (by simp)⟩
  | destroyLast at_ last =>
      exact ⟨rfl, sets (by simp [innerRelease_appendTurn])⟩
  | destroy at_ others => exact ⟨rfl, sets (by simp)⟩
  | @proceed readings alive operation rest called _ updated at_ operated =>
      obtain ⟨target, copies, fresh⟩ := operated.turns
      refine ⟨target, ?_⟩
      change ∀ copy ∈ updated.copies.set index _, _
      rw [copies]
      refine sets fun user reply member => ?_
      rcases List.mem_append.mp member with new | earlier
      · exact absurd new (fresh user reply)
      · exact own _ (List.mem_of_getElem? at_) user reply
          (List.mem_cons_of_mem _ earlier)

theorem Turn.chatting (retains : Retains core actor)
    (turn : Turn config core actor input after updated) :
    Retains after updated := by
  have counts := turn.counts
  cases turn with
  | advance advanced => exact (advanced.chatting retains).mono counts
  | @consume request pending moved trackingId copy action _ at_ drew consumed =>
      obtain ⟨target, turns⟩ := consumed.turns (retains.commits pending at_)
      refine Chatting.mono (Chatting.keeps retains ?_ ?_ rfl ?_) counts
      · simp [Phase.message, at_, target]
      · simp [Request.sent, at_]
      · rintro _ ⟨⟩
        exact target ▸ turns
  | deletion deleting => trivial
  | cancellation stepped => trivial
  | history stepped => trivial
  | prompt stepped => trivial
  | caller executed => trivial

theorem Calm.counts (calm : Calm core after) : Counts core after := by
  obtain ⟨counter, turnedAway, -, rfl⟩ := calm
  exact ⟨le_rfl, fun _ => rfl⟩

theorem Retains.mono (retains : Retains core actor)
    (counts : Counts core after) : Retains after actor := by
  cases actor with
  | request request => exact Chatting.mono retains counts
  | _ => trivial

variable (config) in
theorem startCall_silent (trackingId : RequestId) (start : StartRequest) :
    (startCall config trackingId start).phase.message = none ∧
      ∀ pending, (startCall config trackingId start).phase ≠
        .pending pending := by
  obtain ⟨phase, drawn, same, cases⟩ := startCall_cases config trackingId start
  rw [same]
  rcases cases with ⟨current, rfl⟩ | rfl | ⟨error, rfl⟩
  · exact ⟨rfl, by simp⟩
  · exact ⟨rfl, by simp⟩
  · exact ⟨rfl, by simp⟩

theorem retains_disciplined :
    Discipline config .none (fun _ => True) Retains where
  own := fun _ _ _ retains _ turn => ⟨trivial, turn.chatting retains⟩
  others := fun _ _ _ _ _ _ retains _ turn => retains.mono turn.counts
  calm := fun calm => ⟨fun _ => trivial, fun _ retains =>
    retains.mono calm.counts⟩
  starts := by
    intro userOf core start _ _
    obtain ⟨silent, starting⟩ :=
      startCall_silent config core.nextCompletionId start
    exact .quiet silent starting
  joins := by
    intro core actor arriving
    cases arriving with
    | _ => trivial

end Chats

/-- A turn is added to the history that its reply was generated from, if the history
has not been changed since it was copied. -/
theorem replies_follow_context {config : Configuration} {prompt : StdString}
    {service : ChatService} {index : Nat} {request : Request} {input : Input}
    {user : ChatMessage} {reply : StdString}
    (reached : Reachable (step config) (initialService prompt) service)
    (found : service.actors[index]? = some (.request request))
    (commits : (Actor.request request).commits input = some (user, reply))
    (unchanged : service.shared.historyChanges = request.snapshot) :
    request.submission.map Submission.messages =
      some (service.shared.agentHistory ++ [user]) := by
  have obeyed := retains_disciplined.reachable trivial reached
  have chatting : Chatting service.shared request := obeyed.2 index _ found
  obtain ⟨_, pending, copy, readings, alive, rest, ⟨⟩, rfl, at_, copyAt⟩ :=
    commits_iff.mp commits
  have own := chatting.commits pending at_ _ (List.mem_of_getElem? copyAt) user
    reply List.mem_cons_self
  have message : request.phase.message = some user := by
    rw [at_]
    exact own
  obtain ⟨context, sent, -, fresh⟩ := chatting.informed user message
  rw [fresh unchanged]
  simpa [Request.sent, at_] using sent

/-! Two chats, the second of which copies the history before or after the first has
added its turn. -/

def sampleChat (content : StdString) : StartRequest :=
  .agentChat { model := literal "m", message := .user content }

def chatReturning (index : Nat) (zooRequestId : ZooRequestId) : List Label :=
  [.act index (.advance (.complete zooRequestId)),
    .act index (.advance .spawn), .act index (.advance (.track 2)),
    .act index (.advance .register)]

def replying (index : Nat) (reply : StdString) : List Label :=
  [.act index (.consume 0 (.finalize (.completion (.ok { text := reply }))))]

def committing (index : Nat) : Label :=
  .act index (.consume 0 (.proceed ⟨3, 3, []⟩))

def sampleChats (between : List Label) : List Label :=
  [.start true (sampleChat (literal "a")),
      .start true (sampleChat (literal "b")),
      .act 0 (.advance .prepare)] ++ chatReturning 0 7 ++
    replying 0 (literal "x") ++ between

/-- The second chat is prepared once the first has added its turn. -/
def sampleSuccessiveChats : List Label :=
  sampleChats ([committing 0, .act 1 (.advance .prepare)] ++ chatReturning 1 8 ++
    replying 1 (literal "y"))

theorem replies_follow_context_sample :
    ∃ request : Request,
      requestAt (sampleRun sampleSuccessiveChats) 1 = some request ∧
        request.submission.map Submission.messages =
          some ((sampleRun sampleSuccessiveChats).shared.agentHistory ++
            [.user (literal "b")]) := by
  have ran : run (step sampleConfig) (initialService []) sampleSuccessiveChats =
      some (sampleRun sampleSuccessiveChats) := sampleRun_ran (by decide +kernel)
  obtain ⟨request, found, commits, unchanged⟩ : ∃ request : Request,
      requestAt (sampleRun sampleSuccessiveChats) 1 = some request ∧
        (Actor.request request).commits (.consume 0 (.proceed ⟨3, 3, []⟩)) =
          some (.user (literal "b"), literal "y") ∧
        (sampleRun sampleSuccessiveChats).shared.historyChanges =
          request.snapshot :=
    ⟨_, rfl, rfl, rfl⟩
  exact ⟨request, found, replies_follow_context ⟨_, ran⟩
    (requestAt_eq_some found) commits unchanged⟩

/-- The second chat is prepared before that. -/
def sampleOverlappingChats : List Label :=
  sampleChats ([.act 1 (.advance .prepare), committing 0] ++
    chatReturning 1 8 ++ replying 1 (literal "y"))

theorem reply_out_of_context :
    ¬ ∀ (config : Configuration) (prompt : StdString) (service : ChatService)
      (index : Nat) (request : Request) (input : Input) (user : ChatMessage)
      (reply : StdString),
      Reachable (step config) (initialService prompt) service →
      service.actors[index]? = some (.request request) →
      (Actor.request request).commits input = some (user, reply) →
      request.submission.map Submission.messages =
        some (service.shared.agentHistory ++ [user]) := by
  intro claim
  have ran : run (step sampleConfig) (initialService [])
      sampleOverlappingChats = some (sampleRun sampleOverlappingChats) :=
    sampleRun_ran (by decide +kernel)
  obtain ⟨request, found, commits, sent⟩ : ∃ request : Request,
      requestAt (sampleRun sampleOverlappingChats) 1 = some request ∧
        (Actor.request request).commits (.consume 0 (.proceed ⟨3, 3, []⟩)) =
          some (.user (literal "b"), literal "y") ∧
        request.submission.map Submission.messages =
          some [.user (literal "b")] :=
    ⟨_, rfl, rfl, rfl⟩
  have held : (sampleRun sampleOverlappingChats).shared.agentHistory =
      [.user (literal "a"), .assistant (literal "x")] := by
    decide +kernel
  have followed := claim sampleConfig [] _ 1 request _ _ _ ⟨_, ran⟩
    (requestAt_eq_some found) commits
  rw [sent, held] at followed
  exact absurd followed (by decide +kernel)

end ZooKeeperServer.Service
