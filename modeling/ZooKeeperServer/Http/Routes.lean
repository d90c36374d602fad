import ZooKeeperServer.Http.Starts
import ZooKeeperServer.Server.Auth
import ZooKeeperServer.Server.RoundTrip
import ZooKeeperServer.Service.ChatService

namespace ZooKeeperServer.Routes

open SessionStore Service

/-! The routes over the chat service.  A handler checks the key, parses the body and
makes one call of the service; the exchange ends with what that call has returned. -/

structure ServerSettings where
  apiKey : Option StdString
  service : Configuration
  json : JsonLibrary

inductive Route
  | createSession
  | getSession (sessionId : StdString)
  | deleteSession (sessionId : StdString)
  | chatCompletions
  | extractions
  | agentChat
  | cancelRequest (requestId : StdString)
  | getAgentHistory
  | replaceAgentHistory
  | clearAgentHistory
  | swapAgentHistory
  | appendAgentHistoryMessage
  | getSystemPrompt
  | setSystemPrompt

/-- A header that is missing reads as an empty one. -/
structure HttpRequest where
  route : Route
  authorization : StdString := []
  body : StdString := []

inductive ServiceCall
  | createSession (request : SessionCreateRequest)
  | getSession (sessionId : StdString)
  | deleteSession (sessionId : StdString)
  | start (streamed : Bool) (request : StartRequest)
  | cancelRequest (requestId : StdString)
  | agentHistory (request : HistoryRequest)
  | getSystemPrompt
  | setSystemPrompt (prompt : StdString)

/-- What the client gets; the rest of a stream follows. -/
inductive Answer
  | http (response : HttpResponse)
  | noContent
  | stream

/-- What becomes of a request that was started: its result is awaited or there at
once, a stream is handed over before there is one, the continuation is rejected, or
the result or the stream throws out of the handler. -/
inductive Course
  | settled
  | submitted
  | saturated
  | raised (error : StdException)
  deriving DecidableEq

structure Exchange where
  request : HttpRequest
  call : Option ServiceCall := none
  /-- The actor that the call is. -/
  actor : Option Nat := none
  /-- What the pending object was finalized with. -/
  result : Option Result := none
  /-- An exception goes to the framework instead. -/
  answer : Option (Except StdException Answer) := none

structure Server where
  service : ChatService
  exchanges : Nat → Option Exchange

inductive Label
  /-- `alive` says that the runtime is still there, `ready` what `is_ready` is. -/
  | receive (number : Nat) (alive ready : Bool) (request : HttpRequest)
  | act (actor : Nat) (input : Input)
  | reapSessions
  | stop
  | respond (number : Nat) (course : Course)

section Handlers

variable (settings : ServerSettings)

def parseRoute (body : StdString) : Route → ApiResult ServiceCall
  | .createSession =>
      (parseSessionCreateRequest settings.json body).map .createSession
  | .getSession sessionId => .ok (.getSession sessionId)
  | .deleteSession sessionId => .ok (.deleteSession sessionId)
  | .chatCompletions =>
      (parseChatCompletionRequest settings.service.rule settings.json body).map
        fun request => .start request.stream (.completion request)
  | .extractions =>
      (parseExtractionRequest settings.service.rule settings.json body).map
        fun request => .start request.stream (.extraction request)
  | .agentChat =>
      (parseAgentChatRequest settings.service.rule settings.json body).map
        fun request => .start false (.agentChat request)
  | .cancelRequest requestId => .ok (.cancelRequest requestId)
  | .getAgentHistory => .ok (.agentHistory .get)
  | .replaceAgentHistory =>
      (parseAgentHistoryRequest settings.service.rule settings.json body).map
        fun request => .agentHistory (.replace request.messages)
  | .clearAgentHistory => .ok (.agentHistory .clear)
  | .swapAgentHistory =>
      (parseAgentHistoryRequest settings.service.rule settings.json body).map
        fun request => .agentHistory (.swap request.messages)
  | .appendAgentHistoryMessage =>
      (parseAgentHistoryMessageRequest settings.service.rule settings.json
        body).map fun request => .agentHistory (.append request)
  | .getSystemPrompt => .ok .getSystemPrompt
  | .setSystemPrompt =>
      (parseSystemPromptRequest settings.json body).map fun request =>
        .setSystemPrompt request.systemPrompt

/-- The check that `weak_runtime` is there, the check of the key and the parser.  The
result is `none` where the check of the key reads outside of a string. -/
def admission (alive : Bool) (request : HttpRequest) :
    Option (ApiResult ServiceCall) :=
  if alive then
    (Auth.checkAuth request.authorization settings.apiKey).map fun
      | some error => .error error
      | none => parseRoute settings request.body request.route
  else some (.error (notReadyError (literal "not_ready")))

/-- The calls that look at `is_ready`, with the code of their error. -/
def ServiceCall.refusal (ready : Bool) : ServiceCall → Option ApiError
  | .start _ _ => if ready then none else some (notReadyError (literal "not_ready"))
  | .createSession _ =>
      if ready then none else some (notReadyError (literal "agent_not_ready"))
  | .agentHistory _ =>
      if ready then none else some (notReadyError (literal "agent_not_ready"))
  | _ => none

def ServiceCall.label (ready : Bool) : ServiceCall → Option Service.Label
  | .createSession request =>
      if ready then some (.call (.createSession request)) else none
  | .getSession sessionId => some (.call (.getSession sessionId))
  | .deleteSession sessionId => some (.deleteSession sessionId)
  | .start _ request => some (.start ready request)
  | .cancelRequest requestId => some (.cancelRequest requestId)
  | .agentHistory request => some (.agentHistory ready request)
  | .getSystemPrompt => none
  | .setSystemPrompt prompt => some (.setSystemPrompt prompt)

def jsonAnswer (body : Json) (status : Nat) : Except StdException Answer :=
  (makeJsonResponse settings.json body status).map .http

def errorAnswer (error : ApiError) : Except StdException Answer :=
  (makeErrorResponse settings.json error).map .http

def sessionAnswer (status : Nat) :
    ApiResult SessionSummary → Except StdException Answer
  | .error error => errorAnswer settings error
  | .ok summary => (makeSessionResponse settings.json summary status).map .http

def emptyAnswer : ApiResult Unit → Except StdException Answer
  | .error error => errorAnswer settings error
  | .ok () => .ok .noContent

def cancelAnswer (requestId : StdString) :
    ApiResult Unit → Except StdException Answer
  | .error error => errorAnswer settings error
  | .ok () =>
      jsonAnswer settings
        (Json.objectOf [(literal "id", .string requestId),
          (literal "cancelled", .boolean true)]) 202

def historyAnswer : ApiResult (Option AgentHistorySnapshot) →
    Except StdException Answer
  | .error error => errorAnswer settings error
  | .ok none => .ok .noContent
  | .ok (some history) => jsonAnswer settings (makeAgentHistoryBody history) 200

def promptAnswer (prompt : StdString) : Except StdException Answer :=
  jsonAnswer settings
    (Json.objectOf [(literal "system_prompt", .string prompt)]) 200

def resultAnswer (streamed : Bool) (pending : Pending) :
    Result → Except StdException Answer
  | .completion (.error error) =>
      errorAnswer settings (mapRuntimeErrorToApiError error)
  | .extraction (.error error) =>
      errorAnswer settings (mapRuntimeErrorToApiError error)
  | .completion (.ok reply) =>
      if streamed then .ok .stream
      else
        (makeChatCompletionResponse settings.json pending.id pending.created
          pending.model reply).map .http
  | .extraction (.ok reply) =>
      if streamed then .ok .stream
      else
        (makeExtractionResponse settings.json pending.id pending.created
          pending.model reply).map .http

def idle (pending : Pending) : Bool :=
  pending.copies.all fun copy => copy.operations.isEmpty

/-- An exception leaves the handler before there is an answer, and the object goes
with it. -/
def thrownAnswer (pending : Pending) (result : Option Result)
    (error : StdException) : Option (Except StdException Answer) :=
  if pending.consumed && idle pending && result.isNone then some (.error error)
  else none

/-- A continuation that is rejected has taken the object along, and the handler calls
the empty `cancel` that is left. -/
def pendingAnswer (streamed : Bool) (pending : Pending) (result : Option Result) :
    Course → Option (Except StdException Answer)
  | .settled =>
      if idle pending then result.map (resultAnswer settings streamed pending)
      else none
  | .submitted => if streamed then some (.ok .stream) else none
  | .saturated => thrownAnswer pending result badFunctionCall
  | .raised error => thrownAnswer pending result error

def startAnswer (streamed : Bool) (request : Request) (result : Option Result)
    (course : Course) : Option (Except StdException Answer) :=
  match request.phase with
  | .refused error =>
      if course = .settled then some (errorAnswer settings error) else none
  | .pending pending => pendingAnswer settings streamed pending result course
  | _ => none

def ServiceCall.answer (result : Option Result) (course : Course) :
    ServiceCall → Actor → Option (Except StdException Answer)
  | .createSession _, .caller (.returned (.summary summary)) =>
      some (sessionAnswer settings 201 summary)
  | .getSession _, .caller (.returned (.summary summary)) =>
      some (sessionAnswer settings 200 summary)
  | .deleteSession _, .deletion (.returned _ deleted) =>
      some (emptyAnswer settings deleted)
  | .start streamed _, .request request =>
      startAnswer settings streamed request result course
  | .cancelRequest requestId, .cancellation (.returned _ cancelled) =>
      some (cancelAnswer settings requestId cancelled)
  | .agentHistory _, .history (.returned reported) =>
      some (historyAnswer settings reported)
  | .setSystemPrompt _, .prompt (.returned prompt) =>
      some (promptAnswer settings prompt)
  | _, _ => none

/-- `get_system_prompt` reads the prompt in the handler itself. -/
def Exchange.reply (service : ChatService) (course : Course)
    (exchange : Exchange) : Option (Except StdException Answer) :=
  match exchange.call with
  | none => none
  | some .getSystemPrompt =>
      some (promptAnswer settings service.shared.requestSystemPrompt)
  | some call =>
      (exchange.actor.bind fun actor => service.actors[actor]?).bind fun actor =>
        call.answer settings exchange.result course actor

def Server.put (server : Server) (number : Nat) (exchange : Exchange) : Server :=
  { server with
    exchanges := Function.update server.exchanges number (some exchange) }

def Exchange.note (actor : Nat) (input : Input) (exchange : Exchange) : Exchange :=
  match input with
  | .consume _ (.finalize result) =>
      if exchange.actor = some actor then { exchange with result := some result }
      else exchange
  | _ => exchange

def opened (service : ChatService) (ready : Bool) (request : HttpRequest)
    (call : ServiceCall) : Exchange :=
  match call.refusal ready with
  | some error =>
      { request, call := some call, answer := some (errorAnswer settings error) }
  | none =>
      { request, call := some call
        actor := (call.label ready).map fun _ => service.actors.length }

def Server.serve (server : Server) (label : Option Service.Label) :
    Option Server :=
  match label with
  | none => some server
  | some label =>
      (Service.step settings.service server.service label).map fun service =>
        { server with service }

def step (server : Server) : Label → Option Server
  | .receive number alive ready request =>
      if (server.exchanges number).isSome then none
      else
        (admission settings alive request).bind fun
          | .error error =>
              some (server.put number
                { request, answer := some (errorAnswer settings error) })
          | .ok call =>
              (server.serve settings (call.label ready)).map fun after =>
                after.put number
                  (opened settings server.service ready request call)
  | .act actor input =>
      (server.serve settings (some (.act actor input))).map fun after =>
        { after with
          exchanges := fun number =>
            (after.exchanges number).map (Exchange.note actor input) }
  | .reapSessions => server.serve settings (some (.call .reapExpiredSessions))
  | .stop => server.serve settings (some (.call .stop))
  | .respond number course =>
      (server.exchanges number).bind fun exchange =>
        if exchange.answer.isSome then none
        else
          (exchange.reply settings server.service course).map fun answer =>
            server.put number { exchange with answer := some answer }

def Label.command : Label → Option Service.Label
  | .receive _ alive ready request =>
      match admission settings alive request with
      | some (.ok call) => call.label ready
      | _ => none
  | .act actor input => some (.act actor input)
  | .reapSessions => some (.call .reapExpiredSessions)
  | .stop => some (.call .stop)
  | .respond _ _ => none

end Handlers

def initialServer (prompt : StdString) : Server where
  service := initialService prompt
  exchanges := fun _ => none

end ZooKeeperServer.Routes
