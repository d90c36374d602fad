import ZooKeeperServer.Service.Conversations
import ZooKeeperServer.Service.RetainedHistory
import ZooKeeperServer.Service.StoreRefinement
import ZooKeeperServer.Service.SystemPrompt
import ZooKeeperServer.SessionStore.Turns

namespace ZooKeeperServer.SessionStore

def Section.turn : Section → Option Turn
  | .enter (.commitResult _ _ user (.ok reply)) => some ⟨user, reply.text⟩
  | .enter (.commitResponseText _ _ user (.ok text)) => some ⟨user, text⟩
  | .commit _ _ user (.ok text) => some ⟨user, text⟩
  | _ => none

def Section.creation : Section → Option SessionCreateRequest
  | .enter (.createSession request) => some request
  | .reaping _ _ (.create request) => some request
  | _ => none

/-- Whose turn an event adds to a session's memory. -/
def Event.commits : Event → Option RequestId
  | .committed _ requestId _ => some requestId
  | _ => none

section Execution

variable {settings : Settings} {readings : Readings} {store after : Store}
  {current next : Section} {progress : Progress} {outcome : Outcome}
  {events : List Event}

theorem exec_carries_on
    (executed : current.exec settings readings store = some outcome)
    (suspended : outcome.progress = .suspended next) :
    (∀ turn ∈ next.turn, turn ∈ current.turn) ∧
      ∀ request ∈ next.creation, request ∈ current.creation := by
  cases current with
  | enter call =>
      cases enterCall_entered executed with
      | reaps free reaps running =>
          obtain rfl := Progress.suspended.inj suspended
          cases reaps with
          | _ => simp [Section.turn, Section.creation]
      | finds free found works =>
          obtain rfl := Progress.suspended.inj suspended
          cases works with
          | @commitResult _ _ _ result =>
              cases result with
              | error error => simp [Section.turn, Section.creation, Except.map]
              | ok reply => simp [Section.turn, Section.creation, Except.map]
          | @commitResponseText _ _ _ result =>
              cases result with
              | error error => simp [Section.turn, Section.creation]
              | ok text => simp [Section.turn, Section.creation]
          | release => simp [Section.turn, Section.creation]
      | erases free found =>
          obtain rfl := Progress.suspended.inj suspended
          simp [Section.turn, Section.creation]
      | stops free running =>
          obtain rfl := Progress.suspended.inj suspended
          simp [Section.turn, Section.creation]
      | _ => cases suspended
  | reaping now rest afterReap =>
      cases rest with
      | nil =>
          have left : Left settings now store afterReap outcome :=
            leaveReaping_left executed
          cases left with
          | returns failed => cases suspended
          | _ =>
              obtain rfl := Progress.suspended.inj suspended
              simp [Section.turn, Section.creation]
      | cons entry rest =>
          obtain ⟨session, found, rfl⟩ := Option.map_eq_some_iff.mp executed
          obtain rfl := Progress.suspended.inj suspended
          cases afterReap with
          | _ => simp [Section.turn, Section.creation]
  | closeStopped rest =>
      cases rest with
      | nil =>
          cases Option.some.inj executed
          cases suspended
      | cons ptr rest =>
          obtain ⟨session, found, rfl⟩ := Option.map_eq_some_iff.mp executed
          obtain rfl := Progress.suspended.inj suspended
          simp [Section.turn, Section.creation]
  | _ =>
      obtain ⟨session, found, rfl⟩ := Option.map_eq_some_iff.mp executed
      cases suspended

theorem commits_eq_some {event : Event} {requestId : RequestId} :
    event.commits = some requestId ↔
      ∃ ptr turn, event = .committed ptr requestId turn := by
  constructor
  · intro commits
    cases event with
    | committed ptr other turn =>
        obtain rfl := Option.some.inj commits
        exact ⟨ptr, turn, rfl⟩
    | _ => cases commits
  · rintro ⟨ptr, turn, rfl⟩
    rfl

theorem Effect.committed_turn {ptr : SessionPtr} {requestId : RequestId}
    {turn : Turn} (effect : Effect settings store current after progress events)
    (committed : .committed ptr requestId turn ∈ events) :
    turn ∈ current.turn ∧ current.ends = some requestId := by
  obtain rfl := effect.committed_section committed
  exact ⟨rfl, rfl⟩

theorem Effect.committed_active {ptr : SessionPtr} {requestId : RequestId}
    {turn : Turn} (effect : Effect settings store current after progress events)
    (committed : .committed ptr requestId turn ∈ events) :
    events = [.committed ptr requestId turn] ∧ ∃ session,
      store.heap[ptr]? = some session ∧
        session.activeRequest = some requestId := by
  cases effect with
  | commit found opened active =>
      cases List.mem_singleton.mp committed
      exact ⟨rfl, _, found, active⟩
  | _ => simp at committed

theorem Effect.created_section {ptr : SessionPtr} {basePrompt : StdString}
    {requestPrompt : Option StdString}
    (effect : Effect settings store current after progress events)
    (created : .created ptr basePrompt requestPrompt ∈ events) :
    basePrompt = store.baseSystemPrompt ∧
      ∃ request ∈ current.creation, request.systemPrompt = requestPrompt := by
  cases effect with
  | create shape heap sessions counter =>
      cases List.mem_singleton.mp created
      exact ⟨rfl, _, rfl, rfl⟩
  | _ => simp at created

theorem creation_of_ends {requestId : RequestId}
    (ends : current.ends = some requestId) : current.creation = none := by
  cases current with
  | enter call =>
      cases call with
      | createSession request => cases ends
      | _ => rfl
  | reaping now rest afterReap => cases ends
  | _ => rfl

theorem creation_of_on {sessionId : StdString} {heap : List SessionState}
    (on : current.On sessionId heap) : current.creation = none := by
  cases current with
  | enter call =>
      cases call with
      | createSession request => cases on
      | _ => rfl
  | reaping now rest afterReap =>
      cases afterReap with
      | create request => exact on.elim
      | _ => rfl
  | _ => rfl

end Execution

end ZooKeeperServer.SessionStore

namespace ZooKeeperServer.Service

open SessionStore Transition

/-! Where the words of the conversations come from: a client has sent them, the
agent has generated them in answer to a request, or they are a system prompt. -/

def Result.text : Result → Option StdString
  | .completion (.ok reply) => some reply.text
  | .extraction (.ok reply) => some reply.text
  | _ => none

def HistoryRequest.messages : HistoryRequest → List ChatMessage
  | .replace messages => messages
  | .swap messages => messages
  | .append message => [message]
  | _ => []

section Schedules

variable (prompt : StdString) (schedule : List Label)

def Prompts (text : StdString) : Prop :=
  text = prompt ∨ .setSystemPrompt text ∈ schedule

/-- Somebody finalizes the request of this actor with this reply. -/
def Replied (index : Nat) (text : StdString) : Prop :=
  ∃ copy result, .act index (.consume copy (.finalize result)) ∈ schedule ∧
    result.text = some text

def Uploaded (message : ChatMessage) : Prop :=
  ∃ request, .agentHistory true request ∈ schedule ∧ message ∈ request.messages

inductive Sourced (service : ChatService) : ChatMessage → Prop
  | prompted {text : StdString} (given : Prompts prompt schedule text) :
      Sourced service (.system text)
  | uploaded {message : ChatMessage} (uploaded : Uploaded schedule message) :
      Sourced service message
  /-- An update of the prompt rewrites a leading system message in place. -/
  | rewritten {message : ChatMessage} {text : StdString}
      (sourced : Sourced service message) (system : message.role = .system)
      (given : Prompts prompt schedule text) :
      Sourced service { message with content := text }
  | asked {index : Nat} {request : Request} {call : AgentChatRequest}
      {text : StdString}
      (found : service.actors[index]? = some (.request request))
      (start : request.start = .agentChat call)
      (replied : Replied schedule index text) : Sourced service call.message
  | answered {index : Nat} {request : Request} {call : AgentChatRequest}
      {text : StdString}
      (found : service.actors[index]? = some (.request request))
      (start : request.start = .agentChat call)
      (replied : Replied schedule index text) :
      Sourced service (.assistant text)

/-- A turn in the memory of a session: the message of a request on that session, and
the reply that this very request has got. -/
def Exchanged (service : ChatService) (sessionId : StdString)
    (requestId : RequestId) (turn : SessionStore.Turn) : Prop :=
  ∃ (index : Nat) (request : Request) (handed : ChatCompletionRequest),
    service.actors[index]? = some (.request request) ∧
      request.trackingId = some requestId ∧
      request.start.session = some (sessionId, handed) ∧
      request.start.messages = [turn.user] ∧ Replied schedule index turn.text

end Schedules

/-- What the closures of a pending object hold of its start call. -/
def Target.Of (start : StartRequest) : Target → Prop
  | .stateless => True
  | .session _ begin => Asks start.messages begin.userMessage
  | .retained message => ∃ call, start = .agentChat call ∧ call.message = message

def Phase.target : Phase → Option Target
  | .prepared target _ => some target
  | .submitted target _ => some target
  | .wrapped target _ => some target
  | .registering target _ _ => some target
  | .pending object => some object.target
  | _ => none

/-- What is still to be written on behalf of a request is its own message and a
reply to it. -/
def Operation.Writes (start : StartRequest) (replied : StdString → Prop) :
    Operation → Prop
  | .store current => ∀ turn ∈ current.turn,
      start.messages = [turn.user] ∧ replied turn.text
  | .appendTurn user text =>
      (∃ call, start = .agentChat call ∧ call.message = user) ∧ replied text
  | _ => True

structure Request.Carries (replied : StdString → Prop) (request : Request) :
    Prop where
  target : ∀ target ∈ request.phase.target, target.Of request.start
  operations : ∀ held ∈ (Actor.request request).copies,
    ∀ operation ∈ held.operations, operation.Writes request.start replied

/-- What an actor brings along has come in with a label. -/
def Actor.Brings (schedule : List Label) (index : Nat) : Actor → Prop
  | .request call => .start true call.start ∈ schedule ∧
      call.Carries (Replied schedule index)
  | .history (.entered entered) => .agentHistory true entered ∈ schedule
  | .prompt (.updating text) => .setSystemPrompt text ∈ schedule
  | .prompt (.givingAgent text _) => .setSystemPrompt text ∈ schedule
  | .prompt (.givingStore text _) => .setSystemPrompt text ∈ schedule
  | .caller (.suspended current) => ∀ request ∈ current.creation,
      .call (.createSession request) ∈ schedule
  | _ => True

section Carrying

variable {config : Configuration} {userOf : RequestId → ChatMessage}
  {schedule : List Label} {core after : Core} {request moved : Request}
  {actor updated : Actor} {input : Input} {index : Nat}
  {replied : StdString → Prop}

theorem Request.Carries.starting (none_ : request.phase.target = none) :
    request.Carries replied where
  target := by simp [none_]
  operations := by
    obtain ⟨start, phase, drawn, submission, snapshot⟩ := request
    cases phase with
    | pending pending => cases none_
    | _ => simp [Actor.copies]

theorem Request.Carries.moves (carries : request.Carries replied)
    (start : moved.start = request.start)
    (target : moved.phase.target = request.phase.target)
    (operations : ∀ held ∈ (Actor.request moved).copies, held.operations = []) :
    moved.Carries replied where
  target := by
    rw [start, target]
    exact carries.target
  operations := fun held member operation due => by
    rw [operations held member] at due
    cases due

theorem Advanced.start {advance : Advance}
    (advanced : Advanced config core request advance after moved) :
    moved.start = request.start := by
  cases advanced with
  | _ => rfl

theorem Advanced.carries {advance : Advance}
    (carries : request.Carries replied)
    (carrying : Carrying core (.request request))
    (advanced : Advanced config core request advance after moved) :
    moved.Carries replied := by
  cases advanced with
  | beginRequest at_ session executed proceeds =>
      have carried := execute_carries executed (carrying _ _ rfl at_)
      rcases beginPhase_cases proceeds with ⟨next, rfl, rfl⟩ |
        ⟨error, _, rfl⟩ | ⟨result, rfl, rfl⟩
      · exact .starting rfl
      · exact .starting rfl
      · refine ⟨fun target member => ?_, by simp [Actor.copies]⟩
        obtain rfl := Option.some.inj member
        exact carried
  | prepare at_ =>
      rcases prepare_cases config core request.start with ⟨error, refused⟩ |
        ⟨target, messages, prepared, -⟩
      · rw [refused]
        exact .starting rfl
      · rw [prepared]
        refine ⟨fun other member => ?_, by simp [Actor.copies]⟩
        obtain rfl := Option.some.inj member
        cases start : request.start with
        | agentChat call =>
            simp only [start, Service.prepare] at prepared
            split at prepared
            · cases prepared
            · obtain ⟨rfl, -⟩ := Phase.prepared.inj prepared
              exact ⟨call, rfl, rfl⟩
        | _ =>
            simp only [start, Service.prepare] at prepared
            obtain ⟨rfl, -⟩ := Phase.prepared.inj prepared
            trivial
  | complete at_ => exact carries.moves rfl (by rw [at_]; rfl) (by simp [Actor.copies])
  | spawn at_ => exact carries.moves rfl (by rw [at_]; rfl) (by simp [Actor.copies])
  | raise at_ => exact .starting rfl
  | track at_ => exact carries.moves rfl (by rw [at_]; rfl) (by simp [Actor.copies])
  | number at_ sessionless =>
      exact carries.moves rfl (by rw [at_]; rfl) (by simp [Actor.copies])
  | register at_ drew =>
      exact carries.moves rfl (by rw [at_]; rfl)
        (by simp [Actor.copies, makePending])

theorem commitCall_turn (sessionId : StdString) (trackingId : RequestId)
    (user : ChatMessage) (result : Result) :
    (Section.enter (commitCall sessionId trackingId user result)).turn =
      result.text.map fun text => ⟨user, text⟩ := by
  rcases result with (error | reply) | (error | reply)
  · rfl
  · rfl
  · rfl
  · rfl

theorem onResult_writes {trackingId : RequestId} {result : Result}
    {target : Target} {start : StartRequest} (of_ : target.Of start)
    (given : ∀ text ∈ result.text, replied text) :
    ∀ operation ∈ target.onResult trackingId result ++ [.releaseOuter],
      operation.Writes start replied := by
  intro operation member
  cases target with
  | stateless =>
      obtain rfl := List.mem_singleton.mp member
      trivial
  | session sessionId begin =>
      simp only [Target.onResult, List.cons_append, List.nil_append,
        List.mem_cons, List.not_mem_nil, or_false] at member
      rcases member with rfl | rfl | rfl
      · trivial
      · intro turn carried
        rw [commitCall_turn] at carried
        obtain ⟨text, replies, rfl⟩ := Option.map_eq_some_iff.mp carried
        exact ⟨of_.1, given text replies⟩
      · trivial
  | retained message =>
      rcases List.mem_append.mp member with called | released
      · rcases result with (error | reply) | result
        · cases called
        · obtain rfl := List.mem_singleton.mp called
          exact ⟨of_, given _ rfl⟩
        · cases called
      · obtain rfl := List.mem_singleton.mp released
        trivial

theorem innerRelease_writes (target : Target) (start : StartRequest) :
    ∀ operation ∈ target.innerRelease, operation.Writes start replied := by
  intro operation member
  cases target with
  | session sessionId begin =>
      obtain rfl := List.mem_singleton.mp member
      trivial
  | stateless => cases member
  | retained message => cases member

theorem Operated.writes {readings : Readings} {trackingId : RequestId}
    {pending changed : Pending} {operation : Operation}
    {called : List Operation} {start : StartRequest}
    (writes : operation.Writes start replied)
    (operated : Operated config readings core trackingId pending operation
      after changed called) :
    ∀ next ∈ called, next.Writes start replied := by
  cases operated with
  | storeProceeds executed =>
      intro next member
      obtain rfl := List.mem_singleton.mp member
      intro turn carried
      obtain ⟨outcome, ran, -, suspended⟩ := execute_outcome executed
      exact writes turn ((exec_carries_on ran suspended.symm).1 turn carried)
  | releaseOuter fresh =>
      intro next member
      rcases List.mem_cons.mp member with rfl | member
      · trivial
      rcases List.mem_append.mp member with inner | last
      · exact innerRelease_writes _ start next inner
      · obtain rfl := List.mem_singleton.mp last
        trivial
  | releaseInner target fresh =>
      intro next member
      simp only [List.mem_cons, List.not_mem_nil, or_false] at member
      rcases member with rfl | rfl | rfl
      · trivial
      · intro turn carried
        cases carried
      · trivial
  | _ => simp

theorem Consumed.carries {trackingId : RequestId} {pending changed : Pending}
    {copy : Nat} {action : Action} (carries : request.Carries replied)
    (at_ : request.phase = .pending pending)
    (given : ∀ result, action = .finalize result →
      ∀ text ∈ result.text, replied text)
    (consumed : Consumed config core trackingId request.start pending copy action
      after changed) :
    ({ request with phase := .pending changed } : Request).Carries replied := by
  have of_ : pending.target.Of request.start :=
    carries.target _ (by rw [at_]; rfl)
  have writes : ∀ held ∈ pending.copies, ∀ operation ∈ held.operations,
      operation.Writes request.start replied := by
    have held := carries.operations
    obtain ⟨start, phase, drawn, submission, snapshot⟩ := request
    obtain rfl : phase = .pending pending := at_
    exact held
  have sets {held : Copy}
      (own : ∀ operation ∈ held.operations, operation.Writes request.start replied) :
      ∀ other ∈ pending.copies.set copy held, ∀ operation ∈ other.operations,
        operation.Writes request.start replied := by
    intro other member
    rcases List.mem_or_eq_of_mem_set member with before | rfl
    · exact writes other before
    · exact own
  suffices kept : changed.target = pending.target ∧
      ∀ held ∈ changed.copies, ∀ operation ∈ held.operations,
        operation.Writes request.start replied by
    refine ⟨fun target member => ?_, kept.2⟩
    obtain rfl := Option.some.inj member
    exact kept.1 ▸ of_
  cases consumed with
  | copy at_ =>
      refine ⟨rfl, fun held member => ?_⟩
      rcases List.mem_append.mp member with before | new
      · exact writes held before
      · obtain rfl := List.mem_singleton.mp new
        simp
  | finalize at_ answers =>
      exact ⟨rfl, sets (onResult_writes of_ (given _ rfl))⟩
  | release at_ =>
      refine ⟨rfl, sets fun operation member => ?_⟩
      obtain rfl := List.mem_singleton.mp member
      trivial
  | destroyLast at_ last =>
      refine ⟨rfl, sets fun operation member => ?_⟩
      rcases List.mem_cons.mp member with rfl | inner
      · trivial
      · exact innerRelease_writes _ _ operation inner
  | destroy at_ others => exact ⟨rfl, sets (by simp)⟩
  | @proceed readings alive operation rest called _ updated at_ operated =>
      obtain ⟨target, copies, -⟩ := operated.turns
      have held := writes _ (List.mem_of_getElem? at_)
      refine ⟨target, ?_⟩
      change ∀ held ∈ updated.copies.set copy _, _
      rw [copies]
      refine sets fun next member => ?_
      rcases List.mem_append.mp member with new | earlier
      · exact operated.writes (held operation List.mem_cons_self) next new
      · exact held next (List.mem_cons_of_mem _ earlier)

theorem Turn.brings (carrying : Carrying core actor)
    (brings : actor.Brings schedule index)
    (member : .act index input ∈ schedule)
    (turn : Turn config core actor input after updated) :
    updated.Brings schedule index := by
  cases turn with
  | advance advanced =>
      exact ⟨advanced.start ▸ brings.1, advanced.carries brings.2 carrying⟩
  | consume at_ drew consumed =>
      refine ⟨brings.1, consumed.carries brings.2 at_ ?_⟩
      rintro result rfl text replies
      exact ⟨_, result, member, replies⟩
  | @history readings call changed _ stepped =>
      cases call with
      | entered request =>
          cases request with
          | append message =>
              simp only [HistoryCall.step] at stepped
              split at stepped
              · cases Option.some.inj stepped
                trivial
              · cases Option.some.inj stepped
                trivial
          | _ =>
              cases Option.some.inj stepped
              trivial
      | reading =>
          cases Option.some.inj stepped
          trivial
      | returned result => cases stepped
  | @prompt readings call changed _ stepped =>
      cases call with
      | updating text =>
          cases Option.some.inj stepped
          exact brings
      | givingAgent text update =>
          cases Option.some.inj stepped
          exact brings
      | givingStore text update =>
          obtain ⟨⟨middle, progress⟩, executed, same⟩ :=
            Option.map_eq_some_iff.mp stepped
          cases same
          trivial
      | returned text => cases stepped
  | @caller readings current _ progress executed =>
      cases progress with
      | returned output => trivial
      | suspended next =>
          obtain ⟨outcome, ran, -, suspended⟩ := execute_outcome executed
          exact fun request created => brings request
            ((exec_carries_on ran suspended.symm).2 request created)
  | _ => trivial

theorem Actor.Sound.own_section {current : Section}
    (sound : actor.Sound userOf core)
    (stood : actor.standing = some (.suspended current)) :
    current.ends = none ∧
      (current.creation = none ∨ actor = .caller (.suspended current)) := by
  cases actor with
  | request request =>
      obtain ⟨start, phase, trackingId, submission, snapshot⟩ := request
      simp only [Actor.standing] at stood
      split at stood
      · cases phase with
        | beginning section_ =>
            obtain rfl := Progress.suspended.inj (Option.some.inj stood)
            obtain ⟨trackingId, sessionId, opening⟩ := sound.2
            exact ⟨opening.ends, .inl (creation_of_on opening.on)⟩
        | prepared target messages => cases target <;> cases stood
        | submitted target zooRequestId => cases target <;> cases stood
        | wrapped target zooRequestId => cases target <;> cases stood
        | registering target zooRequestId created => cases target <;> cases stood
        | pending pending =>
            obtain ⟨id, created, model, zooRequestId, target, rest⟩ := pending
            cases target <;> cases stood
        | _ => cases stood
      · cases stood
  | deletion call =>
      cases call with
      | removing sessionId section_ =>
          obtain rfl := Progress.suspended.inj (Option.some.inj stood)
          exact ⟨sound.2.1.2, .inl (creation_of_on sound.2.2)⟩
      | _ => cases stood
  | cancellation call => cases stood
  | history call => cases stood
  | prompt call =>
      cases call with
      | returned text => cases stood
      | _ =>
          cases Progress.suspended.inj (Option.some.inj stood)
          exact ⟨rfl, .inl rfl⟩
  | caller progress =>
      obtain rfl := Option.some.inj stood
      exact ⟨sound.2.2, .inr rfl⟩

def Created (schedule : List Label) (basePrompt : StdString)
    (requestPrompt : Option StdString) (base : StdString) : Prop :=
  basePrompt = base ∧ ∃ request, .call (.createSession request) ∈ schedule ∧
    request.systemPrompt = requestPrompt

structure Logs (schedule : List Label) (index : Nat) (actor : Actor) (core : Core)
    (events : List Event) : Prop where
  created : ∀ ptr basePrompt requestPrompt,
    .created ptr basePrompt requestPrompt ∈ events →
      Created schedule basePrompt requestPrompt core.store.baseSystemPrompt
  committed : ∀ ptr requestId turn, .committed ptr requestId turn ∈ events →
    ∃ sessionId request handed, actor = .request request ∧
      Refers core.store.heap sessionId ptr ∧
      request.trackingId = some requestId ∧
      request.start.session = some (sessionId, handed) ∧
      request.start.messages = [turn.user] ∧ Replied schedule index turn.text
  once : ∀ ptr requestId turn, .committed ptr requestId turn ∈ events →
    events = [.committed ptr requestId turn] ∧
      ∀ other again, .committed other requestId again ∉ core.log

/-- A turn commits for one request at most, and never again for the same. -/
theorem Logs.commits {events : List Event}
    (logs : Logs schedule index actor core events) :
    (events.filterMap Event.commits).Nodup ∧
      ∀ requestId ∈ events.filterMap Event.commits,
        requestId ∉ core.log.filterMap Event.commits := by
  have fresh (requestId : RequestId)
      (member : requestId ∈ events.filterMap Event.commits) :
      events.filterMap Event.commits = [requestId] ∧
        requestId ∉ core.log.filterMap Event.commits := by
    obtain ⟨event, committed, commits⟩ := List.mem_filterMap.mp member
    obtain ⟨ptr, turn, rfl⟩ := commits_eq_some.mp commits
    obtain ⟨alone, never⟩ := logs.once ptr requestId turn committed
    refine ⟨by rw [alone]; rfl, fun earlier => ?_⟩
    obtain ⟨event, committed, commits⟩ := List.mem_filterMap.mp earlier
    obtain ⟨other, again, rfl⟩ := commits_eq_some.mp commits
    exact never other again committed
  refine ⟨?_, fun requestId member => (fresh requestId member).2⟩
  cases shape : events.filterMap Event.commits with
  | nil => exact List.nodup_nil
  | cons requestId rest =>
      have member : requestId ∈ events.filterMap Event.commits :=
        shape ▸ List.mem_cons_self
      rw [← shape, (fresh requestId member).1]
      exact List.nodup_singleton requestId

theorem Turn.logs (sane : Sane userOf core config.sessions)
    (sound : actor.Sound userOf core) (brings : actor.Brings schedule index)
    (turn : Turn config core actor input after updated) :
    ∃ events, after.log = core.log ++ events ∧
      Logs schedule index actor core events := by
  have once {current : Section} {outcome : Outcome} {readings : Readings}
      (ran : current.exec config.sessions readings core.store = some outcome)
      (ptr : SessionPtr) (requestId : RequestId) (turn : SessionStore.Turn)
      (committed : .committed ptr requestId turn ∈ outcome.events) :
      outcome.events = [.committed ptr requestId turn] ∧
        ∀ other again, .committed other requestId again ∉ core.log := by
    obtain ⟨alone, session, found, active⟩ :=
      (exec_effect ran).committed_active committed
    obtain ⟨unfinished, result, began, -⟩ :=
      (sane.consistent.invariant _ _ found).active _ active
    refine ⟨alone, fun other again earlier => ?_⟩
    have bound := sane.consistent.changed _ earlier other rfl
    obtain ⟨second, beganThere⟩ :=
      (sane.consistent.invariant other _ (List.getElem?_eq_getElem bound)).begun
        requestId (.inl ⟨again, earlier⟩)
    obtain ⟨rfl, -⟩ := sane.consistent.once _ _ _ _ _ began beganThere
    exact unfinished (.inl ⟨again, earlier⟩)
  cases turn.executes sound with
  | idle executes store log standing copies =>
      exact ⟨[], by simp [log], by simp, by simp, by simp⟩
  | own seat executes executed store log stood standing copies =>
      obtain ⟨outcome, ran, rfl, -⟩ := execute_outcome executed
      have effect := exec_effect ran
      obtain ⟨ends, creates⟩ := sound.own_section stood
      refine ⟨outcome.events, log, fun ptr basePrompt requestPrompt created => ?_,
        fun ptr requestId turn committed => ?_, once ran⟩
      · obtain ⟨base, request, creating, asked⟩ := effect.created_section created
        rcases creates with none_ | rfl
        · rw [none_] at creating
          cases creating
        · exact ⟨base, request, brings request creating, asked⟩
      · exact absurd (ends.symm.trans (effect.committed_turn committed).2) (by simp)
  | @copy copy held current rest readings _ progress seat executes executed store
      log standing found operations copies =>
      obtain ⟨outcome, ran, rfl, -⟩ := execute_outcome executed
      have effect := exec_effect ran
      have due : Operation.store current ∈ held.operations :=
        operations ▸ List.mem_cons_self
      obtain ⟨trackingId, sessionId, ⟨request, handed, rfl, drew, session⟩, ending⟩ :=
        sound.ending found due
      refine ⟨outcome.events, log, fun ptr basePrompt requestPrompt created => ?_,
        fun ptr requestId turn committed => ?_, once ran⟩
      · obtain ⟨-, request, creating, -⟩ := effect.created_section created
        rw [creation_of_ends ending.ends] at creating
        cases creating
      · obtain ⟨carried, ends⟩ := effect.committed_turn committed
        obtain rfl := Option.some.inj (ending.ends.symm.trans ends)
        have writes := brings.2.operations held
          (List.mem_of_getElem? found) _ due turn carried
        obtain rfl := effect.committed_section committed
        exact ⟨sessionId, request, handed, rfl, ending.on, drew, session, writes⟩

end Carrying

end ZooKeeperServer.Service
