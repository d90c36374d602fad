import ZooKeeperServer.Streaming.Session

namespace ZooKeeperServer.Http

open Streaming

/-! What the request handlers work with.  A handler runs on the event loop, its
continuation on a worker; both may be left by an exception, and an object that
goes out of scope then is destroyed all the same. -/

/-- A `std::function`, which is empty once it has been moved from. -/
structure StdFunction where
  engaged : Bool := true
  deriving DecidableEq

def StdFunction.moved : StdFunction := ⟨false⟩

/-- `CompletionHandle` and `ExtractionHandle`: whether the result is ready when
the handler asks, and what `get` returns or throws. -/
structure Handle (Reply : Type) where
  ready : Bool
  result : Except StdException (RuntimeResult Reply)

/-- `PendingChatCompletion` and `PendingExtraction`. -/
structure Pending (Reply : Type) where
  id : StdString
  created : Int
  model : StdString
  handle : Handle Reply
  onResult : StdFunction
  cancel : StdFunction
  /-- `lease` is not null; nothing else owns it. -/
  lease : Bool

/-- What a move leaves behind; the handle is not used again. -/
def Pending.moved {Reply : Type} (pending : Pending Reply) : Pending Reply :=
  { pending with
    id := []
    model := []
    onResult := .moved
    cancel := .moved
    lease := false }

inductive Response
  | http (response : HttpResponse)
  | stream

inductive Metric
  | queueRejected
  | cancelled
  | toolInvocations
  | toolFailures
  | toolTimeouts
  deriving DecidableEq

structure Task (Reply : Type) where
  callback : StdFunction
  pending : Pending Reply
  streamed : Bool
  /-- `callback_id` holds an entry of the disconnect registry. -/
  watched : Bool

/-- The locals of a handler and everything it has brought about. -/
structure World (Reply : Type) where
  callback : StdFunction := {}
  pending : Option (Pending Reply) := none
  session : Core := {}
  responses : List Response := []
  cancels : Nat := 0
  results : List (RuntimeResult Reply) := []
  leaseReleased : Bool := false
  metrics : List Metric := []
  watched : Bool := false
  /-- Whether the continuation was accepted, once it has been submitted. -/
  submission : Option Bool := none
  queue : List (Task Reply) := []

abbrev Handler (Reply : Type) (Value : Type) : Type :=
  World Reply → Except StdException Value × World Reply

section Steps

variable {Reply : Type} {Value : Type}

instance : Monad (Handler Reply) where
  pure value := fun world => (.ok value, world)
  bind first next := fun world =>
    match first world with
    | (.ok value, world) => next value world
    | (.error error, world) => (.error error, world)

def evaluate (result : Except StdException Value) : Handler Reply Value :=
  fun world => (result, world)

def modify (change : World Reply → World Reply) : Handler Reply Unit :=
  fun world => (.ok (), change world)

def count (metrics : List Metric) : Handler Reply Unit :=
  modify fun world => { world with metrics := world.metrics ++ metrics }

/-- Calling a `std::function`: an empty one throws. -/
def StdFunction.call (function : StdFunction)
    (effect : World Reply → World Reply) : Handler Reply Unit :=
  if function.engaged then modify effect
  else evaluate (.error badFunctionCall)

/-- `callback(...)`; the argument is evaluated first. -/
def respond (callback : StdFunction) (response : Except StdException Response) :
    Handler Reply Unit := do
  let response ← evaluate response
  callback.call fun world =>
    { world with responses := world.responses ++ [response] }

/-- `CompletionLease::release` through a pointer that may be null: what it runs,
it runs once. -/
def releaseLease (lease : Bool) (world : World Reply) : World Reply :=
  if lease then { world with leaseReleased := true } else world

def releasePending (pending : Pending Reply) : Handler Reply Unit :=
  modify (releaseLease pending.lease)

def finalizePending (pending : Pending Reply) (result : RuntimeResult Reply) :
    Handler Reply Unit := do
  if pending.onResult.engaged then
    pending.onResult.call fun world =>
      { world with results := world.results ++ [result] }
  releasePending pending

def RuntimeError.metrics (error : RuntimeError) : List Metric :=
  if error.code = .requestCancelled then [.cancelled]
  else if error.code = .queueFull then [.queueRejected]
  else []

def incrementRuntimeErrorMetrics (error : RuntimeError) : Handler Reply Unit :=
  count (RuntimeError.metrics error)

def ToolInvocationRecord.metrics (invocation : ToolInvocationRecord) :
    List Metric :=
  match invocation.status with
  | .succeeded => [.toolInvocations]
  | .failed _ =>
      [.toolInvocations, .toolFailures] ++
        match invocation.error with
        | some error =>
            if error.context = some (literal "timeout") then [.toolTimeouts]
            else []
        | none => []

def incrementToolMetrics (invocations : List ToolInvocationRecord) :
    Handler Reply Unit :=
  count (invocations.flatMap ToolInvocationRecord.metrics)

def World.destroyLocals (world : World Reply) : World Reply :=
  match world.pending with
  | some pending => releaseLease pending.lease { world with pending := none }
  | none => world

/-- The locals go out of scope however the handler ends. -/
def scope (body : Handler Reply Unit) (world : World Reply) : World Reply :=
  (body world).2.destroyLocals

end Steps

end ZooKeeperServer.Http
