import Mathlib.Data.List.Sort
import ZooKeeperServer.SessionStore.Store

namespace ZooKeeperServer.SessionStore

/-! The store's operations cut at their critical sections.  A thread is
suspended between two of them, so that any interleaving of sections is a run. -/

inductive Call
  | reapExpiredSessions
  | createSession (request : SessionCreateRequest)
  | getSession (sessionId : StdString)
  | deleteSession (sessionId : StdString)
  | setBaseSystemPrompt (prompt : StdString)
  | beginRequest (request : ChatCompletionRequest) (requestId : RequestId)
  | commitResult (sessionId : StdString) (requestId : RequestId)
      (user : ChatMessage) (result : RuntimeResult CompletionResult)
  | commitResponseText (sessionId : StdString) (requestId : RequestId)
      (user : ChatMessage) (result : RuntimeResult StdString)
  | releaseRequest (sessionId : StdString) (requestId : RequestId)
  | stop

/-- What a call still does under `mutex_` once the reaping loop is over. -/
inductive AfterReap
  | finish
  | create (request : SessionCreateRequest)
  | get (sessionId : StdString)
  | begin (sessionId : StdString) (user : ChatMessage) (requestId : RequestId)

/-- The section a suspended thread runs next. -/
inductive Section
  | enter (call : Call)
  | reaping (now : Int) (rest : List SessionEntry) (after : AfterReap)
  | begin (ptr : SessionPtr) (sessionId : StdString) (user : ChatMessage)
      (requestId : RequestId)
  | commit (ptr : SessionPtr) (requestId : RequestId) (user : ChatMessage)
      (text : RuntimeResult StdString)
  | release (ptr : SessionPtr) (requestId : RequestId)
  | closeDeleted (ptr : SessionPtr)
  | closeStopped (rest : List SessionPtr)
  | snapshot (ptr : SessionPtr)

inductive Output
  | done
  | summary (result : ApiResult SessionSummary)
  | deleted (result : ApiResult Unit)
  | begun (result : ApiResult BeginRequestResult)

inductive Progress
  | suspended (next : Section)
  | returned (output : Output)

inductive Event
  | created (ptr : SessionPtr) (basePrompt : StdString)
      (requestPrompt : Option StdString)
  | expired (ptr : SessionPtr)
  | deleted (ptr : SessionPtr)
  | stopped
  | began (ptr : SessionPtr) (requestId : RequestId)
      (result : BeginRequestResult)
  | committed (ptr : SessionPtr) (requestId : RequestId) (turn : Turn)
  | released (ptr : SessionPtr) (requestId : RequestId)
  deriving DecidableEq

/-- The values of successive `clock_()` calls within one section, and the order in
which it finds the sessions in the `unordered_map`. -/
structure Readings where
  first : Int
  second : Int
  order : List StdString

/-- The sessions as a loop over the map finds them, those that are not named last. -/
def SessionMap.inOrder (sessions : SessionMap) (order : List StdString) :
    List SessionEntry :=
  sessions.entries.insertionSort fun one other =>
    order.idxOf one.1 ≤ order.idxOf other.1

theorem SessionMap.inOrder_perm (sessions : SessionMap) (order : List StdString) :
    (sessions.inOrder order).Perm sessions.entries :=
  List.perm_insertionSort _ _

theorem SessionMap.inOrder_nil (sessions : SessionMap) :
    sessions.inOrder [] = sessions.entries :=
  (List.pairwise_of_forall fun _ _ => Nat.le_refl 0).insertionSort_eq

structure Outcome where
  store : Store
  progress : Progress
  events : List Event := []

def returns (store : Store) (output : Output) : Option Outcome :=
  some { store, progress := .returned output }

def suspends (store : Store) (next : Section) : Option Outcome :=
  some { store, progress := .suspended next }

/-- Take `mutex_`, read the clock and start the reaping loop. -/
def startReaping (readings : Readings) (store : Store) (after : AfterReap) :
    Option Outcome :=
  if store.locked then none
  else
    suspends { store with locked := true }
      (.reaping readings.first (store.sessions.inOrder readings.order) after)

def lookupSession (store : Store) (sessionId : StdString)
    (next : SessionPtr → Section) : Option Outcome :=
  if store.locked then none
  else
    match store.sessions.lookup sessionId with
    | none => returns store .done
    | some ptr => suspends store (next ptr)

def enterCall (settings : Settings) (readings : Readings) (store : Store) :
    Call → Option Outcome
  | .reapExpiredSessions =>
      if store.stopping && !store.locked then returns store .done
      else startReaping readings store .finish
  | .createSession request =>
      match validateCreate settings request with
      | .error error => returns store (.summary (.error error))
      | .ok () =>
          if store.stopping && !store.locked then
            returns store (.summary (.error stoppingError))
          else startReaping readings store (.create request)
  | .getSession sessionId =>
      if !settings.config.enabled then
        returns store (.summary (.error disabledError))
      else startReaping readings store (.get sessionId)
  | .deleteSession sessionId =>
      if !settings.config.enabled then
        returns store (.deleted (.error disabledError))
      else if store.locked then none
      else
        match store.sessions.lookup sessionId with
        | none =>
            returns store (.deleted (.error (unknownSessionError sessionId)))
        | some ptr =>
            some
              { store :=
                  { store with sessions := store.sessions.erase sessionId }
                progress := .suspended (.closeDeleted ptr)
                events := [.deleted ptr] }
  | .setBaseSystemPrompt prompt =>
      if store.locked then none
      else returns { store with baseSystemPrompt := prompt } .done
  | .beginRequest request requestId =>
      match validateBegin settings request with
      | .error error => returns store (.begun (.error error))
      | .ok (sessionId, user) =>
          startReaping readings store (.begin sessionId user requestId)
  | .commitResult sessionId requestId user result =>
      lookupSession store sessionId fun ptr =>
        .commit ptr requestId user (result.map CompletionResult.text)
  | .commitResponseText sessionId requestId user result =>
      lookupSession store sessionId fun ptr => .commit ptr requestId user result
  | .releaseRequest sessionId requestId =>
      lookupSession store sessionId fun ptr => .release ptr requestId
  | .stop =>
      if store.locked then none
      else if store.stopping then returns store .done
      else
        some
          { store := { store with stopping := true, sessions := ∅ }
            progress :=
              .suspended
                (.closeStopped ((store.sessions.inOrder readings.order).map Sigma.snd))
            events := [.stopped] }

/-- The rest of the section under `mutex_`, which it then releases. -/
def leaveReaping (settings : Settings) (now : Int) (store : Store) :
    AfterReap → Option Outcome
  | .finish => returns { store with locked := false } .done
  | .create request =>
      let unlocked := { store with locked := false }
      if capacityReached settings unlocked then
        returns unlocked (.summary (.error capacityError))
      else
        some
          { store := emplaceSession settings now request unlocked
            progress := .suspended (.snapshot store.heap.length)
            events :=
              [.created store.heap.length store.baseSystemPrompt
                request.systemPrompt] }
  | .get sessionId =>
      let unlocked := { store with locked := false }
      match store.sessions.lookup sessionId with
      | none => returns unlocked (.summary (.error (unknownSessionError sessionId)))
      | some ptr => suspends unlocked (.snapshot ptr)
  | .begin sessionId user requestId =>
      let unlocked := { store with locked := false }
      match store.sessions.lookup sessionId with
      | none => returns unlocked (.begun (.error (unknownSessionError sessionId)))
      | some ptr => suspends unlocked (.begin ptr sessionId user requestId)

/-- Events of a commit section: nothing when the id is not the active one, and a
new turn only when the reply is successful and the session open. -/
def commitEvents (ptr : SessionPtr) (requestId : RequestId)
    (user : ChatMessage) (text : RuntimeResult StdString)
    (session : SessionState) : List Event :=
  if session.activeRequest ≠ some requestId then []
  else
    match text with
    | .ok reply =>
        if session.closed then [.released ptr requestId]
        else [.committed ptr requestId ⟨user, reply⟩]
    | .error _ => [.released ptr requestId]

/-- Execute one section.  `none` means that the thread has to wait. -/
def Section.exec (settings : Settings) (readings : Readings) (store : Store) :
    Section → Option Outcome
  | .enter call => enterCall settings readings store call
  | .reaping now [] after => leaveReaping settings now store after
  | .reaping now (entry :: rest) after =>
      store.heap[entry.2]?.map fun session =>
        { store := reapEntry now store entry
          progress := .suspended (.reaping now rest after)
          events := if shouldExpire now session then [.expired entry.2] else [] }
  | .begin ptr sessionId user requestId =>
      store.heap[ptr]?.map fun session =>
        let (updated, result) := beginLocked settings readings.first
          readings.second sessionId user requestId session
        { store := store.put ptr updated
          progress := .returned (.begun result)
          events :=
            match result with
            | .ok result => [.began ptr requestId result]
            | .error _ => [] }
  | .commit ptr requestId user text =>
      store.heap[ptr]?.map fun session =>
        { store := store.put ptr
            (commitLocked settings readings.first requestId user text session)
          progress := .returned .done
          events := commitEvents ptr requestId user text session }
  | .release ptr requestId =>
      store.heap[ptr]?.map fun session =>
        { store := store.put ptr
            (releaseLocked settings readings.first requestId session)
          progress := .returned .done
          events :=
            if session.activeRequest = some requestId then
              [.released ptr requestId]
            else [] }
  | .closeDeleted ptr =>
      store.heap[ptr]?.map fun session =>
        { store := store.put ptr (closeSession session)
          progress := .returned (.deleted (.ok ())) }
  | .closeStopped [] => returns store .done
  | .closeStopped (ptr :: rest) =>
      store.heap[ptr]?.map fun session =>
        { store := store.put ptr (closeSession session)
          progress := .suspended (.closeStopped rest) }
  | .snapshot ptr =>
      store.heap[ptr]?.map fun session =>
        { store, progress := .returned (.summary (.ok (snapshotSession session))) }

end ZooKeeperServer.SessionStore
