import Mathlib.Data.List.AList
import ZooKeeperServer.SessionStore.History

namespace ZooKeeperServer.SessionStore

/-! The session store and the pieces of code that run inside one critical
section.  A session is reached through a pointer, so that a thread may still
hold one the store has already dropped. -/

structure SessionConfig where
  maxSessions : Nat
  idleTtlSeconds : Nat
  deriving DecidableEq, Repr

def SessionConfig.enabled (config : SessionConfig) : Bool :=
  0 < config.maxSessions

/-- The members of `SessionStore` that no operation writes. -/
structure Settings where
  modelId : StdString
  config : SessionConfig
  maxHistoryMessages : Nat
  deriving DecidableEq, Repr

abbrev RequestId := Nat

structure SessionState where
  id : StdString
  model : StdString
  created : Int
  lastUsed : Int
  expiresAt : Int
  history : List ChatMessage
  activeRequest : Option RequestId := none
  closed : Bool := false
  deriving DecidableEq, Repr

/-- A `shared_ptr<SessionState>`: an index into the list of all sessions ever
made. -/
abbrev SessionPtr := Nat

abbrev SessionMap := AList fun _ : StdString => SessionPtr

abbrev SessionEntry := Σ _ : StdString, SessionPtr

structure Store where
  baseSystemPrompt : StdString
  /-- A 64-bit counter, which has not wrapped: fewer than 2^64 sessions have been
  created. -/
  nextSessionId : Nat := 1
  sessions : SessionMap := ∅
  heap : List SessionState := []
  stopping : Bool := false
  /-- `mutex_` is held by a thread inside the reaping loop. -/
  locked : Bool := false

structure BeginRequestResult where
  messages : List ChatMessage
  startedAt : Int
  userMessage : ChatMessage
  deriving DecidableEq, Repr

def sessionName (counter : Nat) : StdString :=
  literal "sess-" ++ stdToString counter

def disabledError : ApiError :=
  invalidRequestError (literal "Sessions are disabled for this server")
    (literal "session_id") (literal "sessions_disabled")

def unknownModelError (model : StdString) : ApiError :=
  invalidRequestError (literal "Unknown model: " ++ model) (literal "model")
    (literal "invalid_model")

def unknownSessionError (sessionId : StdString) : ApiError :=
  notFoundError (literal "Unknown session: " ++ sessionId)
    (literal "session_not_found")

def stoppingError : ApiError :=
  serviceUnavailableError (literal "Server runtime is stopping")
    (literal "agent_not_ready")

def capacityError : ApiError :=
  serviceUnavailableError (literal "Session capacity reached")
    (literal "session_capacity_reached")

def sessionBusyError : ApiError :=
  conflictError (literal "Session already has an active request")
    (literal "session_busy")

def snapshotSession (session : SessionState) : SessionSummary :=
  { id := session.id, model := session.model, created := session.created,
    lastUsed := session.lastUsed, expiresAt := session.expiresAt }

def touchSession (settings : Settings) (now : Int) (session : SessionState) :
    SessionState :=
  { session with
    lastUsed := now
    expiresAt := now + settings.config.idleTtlSeconds }

def Store.put (store : Store) (ptr : SessionPtr) (session : SessionState) :
    Store :=
  { store with heap := store.heap.set ptr session }

def shouldExpire (now : Int) (session : SessionState) : Bool :=
  !session.closed && session.activeRequest.isNone &&
    decide (session.expiresAt ≤ now)

def closeSession (session : SessionState) : SessionState :=
  { session with closed := true }

/-- One iteration of the reaping loop. -/
def reapEntry (now : Int) (store : Store) (entry : SessionEntry) : Store :=
  match store.heap[entry.2]? with
  | none => store
  | some session =>
      if shouldExpire now session then
        { store.put entry.2 (closeSession session) with
          sessions := store.sessions.erase entry.1 }
      else store

def reapExpiredSessionsLocked (now : Int) (store : Store) : Store :=
  store.sessions.entries.foldl (reapEntry now) store

def validateCreate (settings : Settings) (request : SessionCreateRequest) :
    ApiResult Unit :=
  if !settings.config.enabled then .error disabledError
  else if request.model ≠ settings.modelId then
    .error (unknownModelError request.model)
  else .ok ()

def freshSession (settings : Settings) (now : Int)
    (request : SessionCreateRequest) (store : Store) : SessionState :=
  { id := sessionName store.nextSessionId
    model := settings.modelId
    created := now
    lastUsed := now
    expiresAt := now + settings.config.idleTtlSeconds
    history := makeInitialHistory store.baseSystemPrompt request.systemPrompt }

/-- `sessions_.emplace` of a new session: an existing entry is kept. -/
def emplaceSession (settings : Settings) (now : Int)
    (request : SessionCreateRequest) (store : Store) : Store :=
  let session := freshSession settings now request store
  { store with
    nextSessionId := store.nextSessionId + 1
    heap := store.heap ++ [session]
    sessions :=
      if session.id ∈ store.sessions then store.sessions
      else store.sessions.insert session.id store.heap.length }

def capacityReached (settings : Settings) (store : Store) : Bool :=
  settings.config.maxSessions ≤ store.sessions.entries.length

/-- The checks before `begin_request` takes a lock: the session id and the
user message of an acceptable request. -/
def validateBegin (settings : Settings) (request : ChatCompletionRequest) :
    ApiResult (StdString × ChatMessage) :=
  if !settings.config.enabled then .error disabledError
  else
    match request.sessionId with
    | none =>
        .error (invalidRequestError (literal "session_id is required")
          (literal "session_id") none)
    | some sessionId =>
        if request.model ≠ settings.modelId then
          .error (unknownModelError request.model)
        else
          match request.messages with
          | [message] =>
              if message.role = .user then .ok (sessionId, message)
              else .error sequenceError
          | _ => .error sequenceError
where
  sequenceError : ApiError :=
    invalidRequestError
      (literal "Session chat requests must contain exactly one user message")
      (literal "messages") (literal "invalid_message_sequence")

/-- The session-locked section of `begin_request`. -/
def beginLocked (settings : Settings) (startedAt now : Int)
    (sessionId : StdString) (user : ChatMessage) (requestId : RequestId)
    (session : SessionState) : SessionState × ApiResult BeginRequestResult :=
  if session.closed then (session, .error (unknownSessionError sessionId))
  else if session.activeRequest.isSome then (session, .error sessionBusyError)
  else
    (touchSession settings now { session with activeRequest := some requestId },
      .ok { messages := session.history ++ [user], startedAt, userMessage := user })

/-- The session-locked section that `commit_result` and `commit_response_text`
share; `text` is what the reply contributes to the history. -/
def commitLocked (settings : Settings) (now : Int) (requestId : RequestId)
    (user : ChatMessage) (text : RuntimeResult StdString)
    (session : SessionState) : SessionState :=
  if session.activeRequest ≠ some requestId then session
  else
    let history :=
      match text with
      | .ok reply =>
          if session.closed then session.history
          else
            trimHistoryToFit (session.history ++ [user, .assistant reply])
              settings.maxHistoryMessages
      | .error _ => session.history
    touchSession settings now { session with history, activeRequest := none }

def releaseLocked (settings : Settings) (now : Int) (requestId : RequestId)
    (session : SessionState) : SessionState :=
  if session.activeRequest ≠ some requestId then session
  else touchSession settings now { session with activeRequest := none }

section Stale

variable {settings : Settings} {now : Int} {requestId : RequestId}
  {session : SessionState}

theorem commitLocked_stale {user : ChatMessage}
    {text : RuntimeResult StdString}
    (stale : session.activeRequest ≠ some requestId) :
    commitLocked settings now requestId user text session = session :=
  if_pos stale

theorem releaseLocked_stale
    (stale : session.activeRequest ≠ some requestId) :
    releaseLocked settings now requestId session = session :=
  if_pos stale

end Stale

end ZooKeeperServer.SessionStore
