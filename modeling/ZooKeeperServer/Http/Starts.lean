import ZooKeeperServer.Http.Handler

namespace ZooKeeperServer.Http

open Streaming

/-! The five handlers that start a request: `start_non_stream_completion`,
`start_stream_completion`, `start_non_stream_extraction`,
`start_stream_extraction` and `start_agent_chat`.  Those that do not stream
differ in the body of the answer only, those that stream in the streaming
session. -/

structure Environment (Reply : Type) where
  /-- The service's start call. -/
  start : Except StdException (ApiResult (Pending Reply))
  /-- The tokens the agent passes before the start call returns. -/
  early : List StdString := []
  /-- `submit_background` accepts the continuation. -/
  accepts : Bool
  /-- An accepted continuation runs before the handler goes on. -/
  eager : Bool := false
  /-- The request's connection is there when it is to be watched. -/
  connected : Bool := true
  /-- It still is when it is to be forgotten. -/
  stillConnected : Bool := true

/-- What tells the handlers of one reply type apart. -/
structure Family (Reply : Type) where
  body : StdString → Int → StdString → Reply → Json
  invocations : Reply → List ToolInvocationRecord
  format : Format Reply

def completionFamily (json : JsonLibrary) : Family CompletionResult where
  body := makeChatCompletionBody json
  invocations := CompletionResult.toolInvocations
  format := streamingFormat json

def extractionFamily (json : JsonLibrary) : Family ExtractionResult where
  body := makeExtractionBody json
  invocations := ExtractionResult.toolInvocations
  format := extractionFormat json

def serverBusy : ApiError :=
  serviceUnavailableError (literal "Server continuation executor is saturated")
    (some (literal "server_busy"))

section Handlers

variable {Reply : Type} (json : JsonLibrary) (family : Family Reply)
  (environment : Environment Reply)

def errorResponse (error : ApiError) : Except StdException Response :=
  (makeErrorResponse json error).map .http

def replyResponse (pending : Pending Reply) (reply : Reply) :
    Except StdException Response :=
  (makeJsonResponse json
    (family.body pending.id pending.created pending.model reply) 200).map .http

def rejectStart (error : ApiError) : Handler Reply Unit := do
  if error.code = some (literal "queue_full") then count [.queueRejected]
  let world ← fun world => (.ok world, world)
  respond world.callback (errorResponse json error)

/-- What a handler that does not stream does with a result, itself or in its
continuation. -/
def answer (callback : StdFunction) (pending : Pending Reply) :
    Handler Reply Unit := do
  let result ← evaluate pending.handle.result
  match result with
  | .error error => do
      incrementRuntimeErrorMetrics error
      finalizePending pending result
      respond callback (errorResponse json (mapRuntimeErrorToApiError error))
  | .ok reply => do
      incrementToolMetrics (family.invocations reply)
      finalizePending pending result
      respond callback (replyResponse json family pending reply)

/-- One locked section of the streaming session, and what the call goes on to
do after it. -/
def exec (action : Action Reply) : Handler Reply (List (Action Reply)) := do
  let world ← fun world => (.ok world, world)
  let (next, session) ← evaluate
    (action.exec family.format (fun _ => true) world.session)
  modify fun world => { world with session }
  pure next

/-- Steps none of which goes on to anything else: no stream is attached before
the response is handed over, so a push only buffers its frame. -/
def perform : List (Action Reply) → Handler Reply Unit
  | [] => pure ()
  | action :: rest => do
      let _ ← exec family action
      perform rest

def callSession (action : Action Reply) : Handler Reply Unit := do
  let next ← exec family action
  perform family next

def clearWatch (watched : Bool) : Handler Reply Unit :=
  if watched && environment.stillConnected then
    modify fun world => { world with watched := false }
  else pure ()

def conclude (task : Task Reply) : Handler Reply Unit := do
  let result ← evaluate task.pending.handle.result
  clearWatch environment task.watched
  match result with
  | .error error => do
      incrementRuntimeErrorMetrics error
      callSession family (.finishError (mapRuntimeErrorToApiError error))
      finalizePending task.pending result
  | .ok reply => do
      incrementToolMetrics (family.invocations reply)
      callSession family (.finishSuccess reply)
      finalizePending task.pending result

def taskBody (task : Task Reply) : Handler Reply Unit :=
  if task.streamed then conclude family environment task
  else answer json family task.callback task.pending

/-- A worker swallows what a task throws; the task's captures go with it. -/
def runTask (task : Task Reply) (world : World Reply) : World Reply :=
  releaseLease task.pending.lease
    (taskBody json family environment task world).2

/-- `submit_background`: a task that is turned down is destroyed there. -/
def submitBackground (task : Task Reply) : Handler Reply Bool := fun world =>
  let world := { world with submission := some environment.accepts }
  if environment.accepts then
    (.ok true,
      if environment.eager then runTask json family environment task world
      else { world with queue := world.queue ++ [task] })
  else (.ok false, releaseLease task.pending.lease world)

def cancelPending (pending : Pending Reply) : Handler Reply Unit :=
  pending.cancel.call fun world => { world with cancels := world.cancels + 1 }

def movePending (pending : Pending Reply) : Handler Reply (Pending Reply) :=
  fun world => (.ok pending, { world with pending := some pending.moved })

def startNonStream : Handler Reply Unit := do
  let started ← evaluate environment.start
  let world ← fun world => (.ok world, world)
  match started with
  | .error error => rejectStart json error
  | .ok pending => do
      modify fun world => { world with pending := some pending }
      if pending.handle.ready then answer json family world.callback pending
      else do
        let captured ← movePending pending
        modify fun world => { world with callback := .moved }
        let submitted ← submitBackground json family environment
          { callback := world.callback, pending := captured, streamed := false,
            watched := false }
        if !submitted then do
          cancelPending pending.moved
          releasePending pending.moved
          respond .moved (errorResponse json serverBusy)

def answerStream (callback : StdFunction) (pending : Pending Reply) :
    Handler Reply Unit := do
  let result ← evaluate pending.handle.result
  match result with
  | .error error => do
      incrementRuntimeErrorMetrics error
      finalizePending pending result
      respond callback
        (errorResponse json (mapRuntimeErrorToApiError error))
  | .ok reply => do
      incrementToolMetrics (family.invocations reply)
      callSession family (.finishSuccess reply)
      finalizePending pending result
      respond callback (.ok .stream)

def submitStream (callback : StdFunction) (pending : Pending Reply) :
    Handler Reply Unit := do
  if environment.connected then
    modify fun world => { world with watched := true }
  let captured ← movePending pending
  let submitted ← submitBackground json family environment
    { callback := .moved, pending := captured, streamed := true,
      watched := environment.connected }
  if !submitted then do
    clearWatch environment environment.connected
    cancelPending pending.moved
    releasePending pending.moved
    respond callback (errorResponse json serverBusy)
  else respond callback (.ok .stream)

def startStream : Handler Reply Unit := do
  perform family (environment.early.map .pushToken)
  let started ← evaluate environment.start
  let world ← fun world => (.ok world, world)
  match started with
  | .error error => rejectStart json error
  | .ok pending => do
      modify fun world => { world with pending := some pending }
      callSession family
        (.setMetadata pending.id pending.created pending.model)
      callSession family .setCancelCallback
      if pending.handle.ready then
        answerStream json family world.callback pending
      else submitStream json family environment world.callback pending

def runQueue (world : World Reply) : World Reply :=
  world.queue.foldl
    (fun world task => runTask json family environment task world)
    { world with queue := [] }

/-- The handler, and then the continuation if it has still to run. -/
def serve (handler : Handler Reply Unit) : World Reply :=
  runQueue json family environment (scope handler {})

end Handlers

def startNonStreamCompletion (json : JsonLibrary) :
    Environment CompletionResult → Handler CompletionResult Unit :=
  startNonStream json (completionFamily json)

def startStreamCompletion (json : JsonLibrary) :
    Environment CompletionResult → Handler CompletionResult Unit :=
  startStream json (completionFamily json)

def startNonStreamExtraction (json : JsonLibrary) :
    Environment ExtractionResult → Handler ExtractionResult Unit :=
  startNonStream json (extractionFamily json)

def startStreamExtraction (json : JsonLibrary) :
    Environment ExtractionResult → Handler ExtractionResult Unit :=
  startStream json (extractionFamily json)

/-- `start_non_stream_completion` but for the call that starts it. -/
def startAgentChat (json : JsonLibrary) :
    Environment CompletionResult → Handler CompletionResult Unit :=
  startNonStream json (completionFamily json)

end ZooKeeperServer.Http
