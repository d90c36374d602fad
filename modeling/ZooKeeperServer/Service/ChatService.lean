import ZooKeeperServer.Server.ApiJson
import ZooKeeperServer.Service.RetainedAgent
import ZooKeeperServer.SessionStore.Interleaving
import ZooKeeperServer.Transition.Crew

namespace ZooKeeperServer.Service

open SessionStore

/-! The chat service under any number of concurrent callers, cut at its critical
sections: the start calls, the pending objects they return, and the calls around
them. -/

/-- The members of `ZooChatService` that no operation writes. -/
structure Configuration where
  sessions : Settings
  contextSize : Int
  rule : RoleRule

abbrev ZooRequestId := Nat

inductive StartRequest
  | completion (request : ChatCompletionRequest)
  | extraction (request : ExtractionRequest)
  | agentChat (request : AgentChatRequest)

inductive Submission
  | complete (messages : List ChatMessage)
  | extract (schema : Json) (messages : List ChatMessage)

def Submission.messages : Submission → List ChatMessage
  | .complete messages => messages
  | .extract _ messages => messages

namespace StartRequest

/-- The session a start call dispatches on, and what it hands to
`SessionStore::begin_request`. -/
def session : StartRequest → Option (StdString × ChatCompletionRequest)
  | .completion request => request.sessionId.map fun sessionId =>
      (sessionId, request)
  | .extraction request => request.sessionId.map fun sessionId =>
      (sessionId,
        { model := request.model
          messages := request.messages
          sessionId := request.sessionId })
  | .agentChat _ => none

def model : StartRequest → StdString
  | .completion request => request.model
  | .extraction request => request.model
  | .agentChat request => request.model

def submission (messages : List ChatMessage) : StartRequest → Submission
  | .completion _ => .complete messages
  | .extraction request => .extract request.schema messages
  | .agentChat _ => .complete messages

theorem submission_messages (start : StartRequest)
    (messages : List ChatMessage) :
    (start.submission messages).messages = messages := by
  cases start with
  | _ => rfl

def publicId (trackingId : RequestId) : StartRequest → StdString
  | .completion _ => literal "chatcmpl-" ++ stdToString trackingId
  | .extraction _ => literal "extract-" ++ stdToString trackingId
  | .agentChat _ => literal "chatcmpl-" ++ stdToString trackingId

end StartRequest

inductive Result
  | completion (result : RuntimeResult CompletionResult)
  | extraction (result : RuntimeResult ExtractionResult)

def Result.answers : Result → StartRequest → Bool
  | .completion _, .completion _ => true
  | .extraction _, .extraction _ => true
  | .completion _, .agentChat _ => true
  | _, _ => false

def commitCall (sessionId : StdString) (trackingId : RequestId)
    (user : ChatMessage) : Result → Call
  | .completion result => .commitResult sessionId trackingId user result
  | .extraction (.error error) =>
      .commitResponseText sessionId trackingId user (.error error)
  | .extraction (.ok result) =>
      .commitResponseText sessionId trackingId user (.ok result.text)

def notReadyError (code : StdString) : ApiError :=
  serviceUnavailableError (literal "Server runtime is not ready") code

def sequenceError (message : StdString) : ApiError :=
  invalidRequestError message (literal "message")
    (literal "invalid_message_sequence")

def unknownRequestError (requestId : StdString) : ApiError :=
  notFoundError (literal "Unknown request: " ++ requestId)
    (literal "request_not_found")

inductive Once
  | fresh
  | running
  | done
  deriving DecidableEq

/-- What a thread that uses a pending object has still to do. -/
inductive Operation
  | untrackSessionRequest
  | store (current : Section)
  | appendTurn (user : ChatMessage) (reply : StdString)
  | unregisterPublicRequest
  | releaseOuter
  | outerDone
  | releaseInner
  | innerDone

/-- A copy of the pending object, and the calls under way on it.  The last copy
stays here while its destructors run. -/
structure Copy where
  alive : Bool := true
  operations : List Operation := []

inductive Target
  | stateless
  | session (sessionId : StdString) (begin : BeginRequestResult)
  | retained (message : ChatMessage)

structure Pending where
  id : StdString
  created : Int
  model : StdString
  zooRequestId : ZooRequestId
  target : Target
  /-- The lease of the pending object, and the one its cleanup releases. -/
  outer : Once := .fresh
  inner : Once := .fresh
  copies : List Copy := [{}]
  /-- Someone has finalized, released or destroyed the object. -/
  consumed : Bool := false

def Pending.setCopy (pending : Pending) (index : Nat) (copy : Copy) : Pending :=
  { pending with copies := pending.copies.set index copy }

def Pending.lastCopy (pending : Pending) (index : Nat) : Bool :=
  (pending.copies.eraseIdx index).all fun copy => !copy.alive

inductive Phase
  | beginning (current : Section)
  | preparing
  | refused (error : ApiError)
  | prepared (target : Target) (messages : List ChatMessage)
  | submitted (target : Target) (zooRequestId : ZooRequestId)
  | wrapped (target : Target) (zooRequestId : ZooRequestId)
  | registering (target : Target) (zooRequestId : ZooRequestId) (created : Int)
  | raised
  | pending (pending : Pending)

structure Request where
  start : StartRequest
  phase : Phase
  trackingId : Option RequestId := none
  /-- What the agent was given. -/
  submission : Option Submission := none
  /-- How often the retained history had changed when it was copied. -/
  snapshot : Nat := 0

inductive Deletion
  | removing (sessionId : StdString) (current : Section)
  | erasing (sessionId : StdString)
  | cancelling (sessionId : StdString) (zooRequestId : ZooRequestId)
  | returned (sessionId : StdString) (result : ApiResult Unit)

inductive Cancellation
  | looking (requestId : StdString)
  | cancelling (requestId : StdString) (zooRequestId : ZooRequestId)
  | returned (requestId : StdString) (result : ApiResult Unit)

inductive HistoryRequest
  | get
  | clear
  | replace (messages : List ChatMessage)
  | swap (messages : List ChatMessage)
  | append (message : ChatMessage)

inductive HistoryCall
  | entered (request : HistoryRequest)
  | reading
  | returned (result : ApiResult (Option AgentHistorySnapshot))

/-- A call of `set_system_prompt`, after its state update with the number of that
update. -/
inductive PromptCall
  | updating (prompt : StdString)
  | givingAgent (prompt : StdString) (update : Nat)
  | givingStore (prompt : StdString) (update : Nat)
  | returned (prompt : StdString)

inductive Actor
  | request (request : Request)
  | deletion (deletion : Deletion)
  | cancellation (cancellation : Cancellation)
  | history (call : HistoryCall)
  | prompt (call : PromptCall)
  | caller (progress : Progress)

structure Core where
  store : Store
  requestSystemPrompt : StdString
  agentHistory : List ChatMessage
  /-- The prompt last given to the agent. -/
  agentPrompt : StdString
  /-- A 64-bit counter, which has not wrapped: fewer than 2^64 requests have been made. -/
  nextCompletionId : Nat := 1
  activeSessionRequests : AList (fun _ : StdString => ZooRequestId) := ∅
  /-- A canceller is known by the request it cancels. -/
  publicRequestCancellers : AList (fun _ : StdString => ZooRequestId) := ∅
  /-- The calls of `agent_->cancel`. -/
  cancelled : List ZooRequestId := []
  /-- The errors of calls that found the server not ready. -/
  turnedAway : List ApiError := []
  -- From here on only the proofs look.
  log : List Event := []
  /-- Whose release action has been started. -/
  releaseActions : List RequestId := []
  historyChanges : Nat := 0
  promptUpdates : Nat := 0
  /-- The update last written to each of the other copies of the prompt. -/
  agentPromptUpdate : Nat := 0
  storePromptUpdate : Nat := 0

abbrev ChatService := Transition.Crew Core Actor

/-- What a start call does next; the agent and `std::async` decide between
`complete`, `spawn` and `raise`. -/
inductive Advance
  | beginRequest (readings : Readings)
  | prepare
  | complete (zooRequestId : ZooRequestId)
  | spawn
  | raise
  | track (now : Int)
  | register

inductive Action
  | copy
  | finalize (result : Result)
  | release
  | destroy
  | proceed (readings : Readings)

inductive Input
  | run (readings : Readings)
  | advance (input : Advance)
  | consume (copy : Nat) (action : Action)

inductive Label
  | start (ready : Bool) (request : StartRequest)
  | deleteSession (sessionId : StdString)
  | cancelRequest (requestId : StdString)
  | agentHistory (ready : Bool) (request : HistoryRequest)
  | setSystemPrompt (prompt : StdString)
  | call (call : Call)
  | act (actor : Nat) (input : Input)

def housekeeping : Call → Bool
  | .reapExpiredSessions => true
  | .createSession _ => true
  | .getSession _ => true
  | .stop => true
  | _ => false

section Steps

variable (config : Configuration)

def Core.execute (readings : Readings) (core : Core) (current : Section) :
    Option (Core × Progress) :=
  (current.exec config.sessions readings core.store).map fun outcome =>
    ({ core with store := outcome.store, log := core.log ++ outcome.events },
      outcome.progress)

def Core.setHistory (core : Core) (messages : List ChatMessage) : Core :=
  { core with
    agentHistory := messages
    historyChanges :=
      if messages = core.agentHistory then core.historyChanges
      else core.historyChanges + 1 }

/-- `begin_request` goes on, fails, or succeeds. -/
def beginPhase (sessionId : StdString) : Progress → Option Phase
  | .suspended next => some (.beginning next)
  | .returned (.begun (.error error)) => some (.refused error)
  | .returned (.begun (.ok result)) =>
      some (.prepared (.session sessionId result) result.messages)
  | .returned _ => none

def prepare (core : Core) : StartRequest → Phase
  | .completion request =>
      .prepared .stateless
        (prepareMessages core.requestSystemPrompt request.messages)
  | .extraction request =>
      .prepared .stateless
        (prepareMessages core.requestSystemPrompt request.messages)
  | .agentChat request =>
      match validateMessageSequence config.rule core.agentHistory
        request.message.role with
      | .error error => .refused (sequenceError error)
      | .ok () =>
          .prepared (.retained request.message)
            (core.agentHistory ++ [request.message])

def makePending (request : Request) (trackingId : RequestId) (target : Target)
    (zooRequestId : ZooRequestId) (created : Int) : Pending :=
  { id := request.start.publicId trackingId
    created
    model := config.sessions.modelId
    zooRequestId
    target }

def advance (core : Core) (request : Request) :
    Advance → Option (Core × Request)
  | .beginRequest readings =>
      match request.phase, request.start.session with
      | .beginning current, some (sessionId, _) =>
          (core.execute config readings current).bind fun (core, progress) =>
            (beginPhase sessionId progress).map fun phase =>
              (core, { request with phase })
      | _, _ => none
  | .prepare =>
      match request.phase with
      | .preparing =>
          some (core,
            { request with
              phase := prepare config core request.start
              snapshot := core.historyChanges })
      | _ => none
  | .complete zooRequestId =>
      match request.phase with
      | .prepared target messages =>
          some (core,
            { request with
              phase := .submitted target zooRequestId
              submission := some (request.start.submission messages) })
      | _ => none
  | .spawn =>
      match request.phase with
      | .submitted target zooRequestId =>
          some (core, { request with phase := .wrapped target zooRequestId })
      | _ => none
  | .raise =>
      match request.phase with
      | .prepared _ _ => some (core, { request with phase := .raised })
      | .submitted _ _ => some (core, { request with phase := .raised })
      | _ => none
  | .track now =>
      match request.phase with
      | .wrapped (.session sessionId begin) zooRequestId =>
          some
            ({ core with
                activeSessionRequests :=
                  core.activeSessionRequests.insert sessionId zooRequestId },
              { request with
                phase := .registering (.session sessionId begin) zooRequestId
                  begin.startedAt })
      | .wrapped target zooRequestId =>
          some
            ({ core with nextCompletionId := core.nextCompletionId + 1 },
              { request with
                phase := .registering target zooRequestId now
                trackingId := some core.nextCompletionId })
      | _ => none
  | .register =>
      match request.phase, request.trackingId with
      | .registering target zooRequestId created, some trackingId =>
          some
            ({ core with
                publicRequestCancellers :=
                  core.publicRequestCancellers.insert
                    (request.start.publicId trackingId) zooRequestId },
              { request with
                phase := .pending (makePending config request trackingId target
                  zooRequestId created) })
      | _, _ => none

/-- What the cleanup of the outer lease calls after it has unregistered the
request. -/
def Target.innerRelease : Target → List Operation
  | .session _ _ => [.releaseInner]
  | _ => []

def Target.onResult (trackingId : RequestId) (result : Result) :
    Target → List Operation
  | .stateless => []
  | .session sessionId begin =>
      [.untrackSessionRequest,
        .store (.enter (commitCall sessionId trackingId begin.userMessage
          result))]
  | .retained message =>
      match result with
      | .completion (.ok reply) => [.appendTurn message reply.text]
      | _ => []

/-- Execute one operation; the last component is what it calls. -/
def Operation.exec (readings : Readings) (trackingId : RequestId) (core : Core)
    (pending : Pending) : Operation → Option (Core × Pending × List Operation)
  | .untrackSessionRequest =>
      match pending.target with
      | .session sessionId _ =>
          some
            ({ core with
                activeSessionRequests :=
                  core.activeSessionRequests.erase sessionId },
              pending, [])
      | _ => none
  | .store current =>
      (core.execute config readings current).map fun (core, progress) =>
        match progress with
        | .suspended next => (core, pending, [.store next])
        | .returned _ => (core, pending, [])
  | .appendTurn user reply =>
      some
        (core.setHistory (core.agentHistory ++ [user, .assistant reply]),
          pending, [])
  | .unregisterPublicRequest =>
      some
        ({ core with
            publicRequestCancellers :=
              core.publicRequestCancellers.erase pending.id },
          pending, [])
  | .releaseOuter =>
      match pending.outer with
      | .fresh =>
          some (core, { pending with outer := .running },
            .unregisterPublicRequest ::
              (pending.target.innerRelease ++ [.outerDone]))
      | .running => none
      | .done => some (core, pending, [])
  | .outerDone => some (core, { pending with outer := .done }, [])
  | .releaseInner =>
      match pending.target, pending.inner with
      | .session sessionId _, .fresh =>
          some
            ({ core with releaseActions := core.releaseActions ++ [trackingId] },
              { pending with inner := .running },
              [.untrackSessionRequest,
                .store (.enter (.releaseRequest sessionId trackingId)),
                .innerDone])
      | _, .done => some (core, pending, [])
      | _, _ => none
  | .innerDone => some (core, { pending with inner := .done }, [])

def consume (trackingId : RequestId) (core : Core) (start : StartRequest)
    (pending : Pending) (index : Nat) :
    Action → Option (Core × Pending)
  | .copy =>
      match pending.copies[index]? with
      | some ⟨true, _⟩ =>
          some (core, { pending with copies := pending.copies ++ [{}] })
      | _ => none
  | .finalize result =>
      match pending.copies[index]? with
      | some ⟨true, []⟩ =>
          if result.answers start then
            some (core,
              { pending.setCopy index
                  { operations :=
                      pending.target.onResult trackingId result ++
                        [.releaseOuter] } with
                consumed := true })
          else none
      | _ => none
  | .release =>
      match pending.copies[index]? with
      | some ⟨true, []⟩ =>
          some (core,
            { pending.setCopy index { operations := [.releaseOuter] } with
              consumed := true })
      | _ => none
  | .destroy =>
      match pending.copies[index]? with
      | some ⟨true, []⟩ =>
          if pending.lastCopy index then
            some (core,
              { pending.setCopy index
                  { alive := false
                    operations :=
                      .releaseOuter :: pending.target.innerRelease } with
                consumed := true })
          else some (core, pending.setCopy index { alive := false })
      | _ => none
  | .proceed readings =>
      match pending.copies[index]? with
      | some ⟨alive, operation :: rest⟩ =>
          (operation.exec config readings trackingId core pending).map
            fun (core, pending, called) =>
              (core, pending.setCopy index ⟨alive, called ++ rest⟩)
      | _ => none

def Deletion.step (readings : Readings) (core : Core) :
    Deletion → Option (Core × Deletion)
  | .removing sessionId current =>
      (core.execute config readings current).bind fun (core, progress) =>
        match progress with
        | .suspended next => some (core, .removing sessionId next)
        | .returned (.deleted (.error error)) =>
            some (core, .returned sessionId (.error error))
        | .returned (.deleted (.ok ())) => some (core, .erasing sessionId)
        | .returned _ => none
  | .erasing sessionId =>
      match core.activeSessionRequests.lookup sessionId with
      | none => some (core, .returned sessionId (.ok ()))
      | some zooRequestId =>
          some
            ({ core with
                activeSessionRequests :=
                  core.activeSessionRequests.erase sessionId },
              if zooRequestId ≠ 0 then .cancelling sessionId zooRequestId
              else .returned sessionId (.ok ()))
  | .cancelling sessionId zooRequestId =>
      some ({ core with cancelled := core.cancelled ++ [zooRequestId] },
        .returned sessionId (.ok ()))
  | .returned _ _ => none

def Cancellation.step (core : Core) :
    Cancellation → Option (Core × Cancellation)
  | .looking requestId =>
      match core.publicRequestCancellers.lookup requestId with
      | none =>
          some (core,
            .returned requestId (.error (unknownRequestError requestId)))
      | some zooRequestId => some (core, .cancelling requestId zooRequestId)
  | .cancelling requestId zooRequestId =>
      some ({ core with cancelled := core.cancelled ++ [zooRequestId] },
        .returned requestId (.ok ()))
  | .returned _ _ => none

def HistoryCall.step (core : Core) : HistoryCall → Option (Core × HistoryCall)
  | .entered .get => some (core, read core)
  | .entered .clear =>
      some
        (core.setHistory
          (resetAgentHistoryToSystemPrompt core.requestSystemPrompt),
          .returned (.ok none))
  | .entered (.replace messages) => some (core.setHistory messages, .reading)
  | .entered (.swap messages) => some (core.setHistory messages, read core)
  | .entered (.append message) =>
      match validateMessageSequence config.rule core.agentHistory
        message.role with
      | .error error => some (core, .returned (.error (sequenceError error)))
      | .ok () =>
          some (core.setHistory (core.agentHistory ++ [message]), .reading)
  | .reading => some (core, read core)
  | .returned _ => none
where
  read (core : Core) : HistoryCall :=
    .returned (.ok (some
      (makeAgentHistorySnapshot config.contextSize core.agentHistory)))

def PromptCall.step (readings : Readings) (core : Core) :
    PromptCall → Option (Core × PromptCall)
  | .updating prompt =>
      some
        ({ core.setHistory
            (updateSystemPromptState prompt core.agentHistory) with
            requestSystemPrompt := prompt
            promptUpdates := core.promptUpdates + 1 },
          .givingAgent prompt (core.promptUpdates + 1))
  | .givingAgent prompt update =>
      some
        ({ core with agentPrompt := prompt, agentPromptUpdate := update },
          .givingStore prompt update)
  | .givingStore prompt update =>
      (core.execute config readings (.enter (.setBaseSystemPrompt prompt))).map
        fun (core, _) =>
          ({ core with storePromptUpdate := update }, .returned prompt)
  | .returned _ => none

def act (core : Core) : Actor → Input → Option (Core × Actor)
  | .request request, .advance input =>
      (advance config core request input).map fun (core, request) =>
        (core, .request request)
  | .request request, .consume copy action =>
      match request.phase, request.trackingId with
      | .pending pending, some trackingId =>
          (consume config trackingId core request.start pending copy action).map
            fun (core, pending) =>
              (core, .request { request with phase := .pending pending })
      | _, _ => none
  | .deletion deletion, .run readings =>
      (deletion.step config readings core).map fun (core, deletion) =>
        (core, .deletion deletion)
  | .cancellation cancellation, .run _ =>
      (cancellation.step core).map fun (core, cancellation) =>
        (core, .cancellation cancellation)
  | .history call, .run _ =>
      (call.step config core).map fun (core, call) => (core, .history call)
  | .prompt call, .run readings =>
      (call.step config readings core).map fun (core, call) =>
        (core, .prompt call)
  | .caller (.suspended current), .run readings =>
      (core.execute config readings current).map fun (core, progress) =>
        (core, .caller progress)
  | _, _ => none

/-- A start call past the checks that come before its first critical section. -/
def startCall (trackingId : RequestId) (start : StartRequest) : Request :=
  match start.session with
  | some (_, request) =>
      { start
        phase := .beginning (.enter (.beginRequest request trackingId))
        trackingId := some trackingId }
  | none =>
      if start.model ≠ config.sessions.modelId then
        { start, phase := .refused (unknownModelError start.model) }
      else { start, phase := .preparing }

/-- A start call with a session draws its tracking id at once. -/
def Core.draw (core : Core) (start : StartRequest) : Core :=
  if start.session.isSome then
    { core with nextCompletionId := core.nextCompletionId + 1 }
  else core

def Core.turnAway (core : Core) (error : ApiError) : Core :=
  { core with turnedAway := core.turnedAway ++ [error] }

def step (service : ChatService) : Label → Option ChatService
  | .start true start =>
      some (service.join (service.shared.draw start)
        (.request (startCall config service.shared.nextCompletionId start)))
  | .start false _ =>
      some { service with
        shared := service.shared.turnAway (notReadyError (literal "not_ready")) }
  | .deleteSession sessionId =>
      some (service.join service.shared
        (.deletion (.removing sessionId (.enter (.deleteSession sessionId)))))
  | .cancelRequest requestId =>
      some (service.join service.shared (.cancellation (.looking requestId)))
  | .agentHistory true request =>
      some (service.join service.shared (.history (.entered request)))
  | .agentHistory false _ =>
      some { service with
        shared :=
          service.shared.turnAway (notReadyError (literal "agent_not_ready")) }
  | .setSystemPrompt prompt =>
      some (service.join service.shared (.prompt (.updating prompt)))
  | .call call =>
      if housekeeping call then
        some (service.join service.shared (.caller (.suspended (.enter call))))
      else none
  | .act actor input => service.turn (act config) actor input

end Steps

/-- The state after `ZooChatService::create`: the prompt of the configuration is
in all its places. -/
def initialService (prompt : StdString) : ChatService where
  shared :=
    { store := initialStore prompt
      requestSystemPrompt := prompt
      agentHistory := resetAgentHistoryToSystemPrompt prompt
      agentPrompt := prompt }
  actors := []

end ZooKeeperServer.Service
