import ZooKeeperServer.SessionStore.Sections
import ZooKeeperServer.Transition.Machine

namespace ZooKeeperServer.SessionStore

/-! The store under any number of concurrent callers. -/

structure Thread where
  call : Call
  progress : Progress

structure System where
  store : Store
  threads : List Thread := []
  log : List Event := []

inductive Label
  | call (call : Call)
  | run (thread : Nat) (readings : Readings)

def Call.begins : Call → Option RequestId
  | .beginRequest _ requestId => some requestId
  | _ => none

section Steps

/-! The callers keep their request ids apart, and they commit a request with the
user message it was begun with: `on_result` captures `begin->user_message`.
`userOf` is that message for every id. -/

variable (settings : Settings) (userOf : RequestId → ChatMessage)

def Admissible (threads : List Thread) : Call → Prop
  | .beginRequest request requestId =>
      (∀ thread ∈ threads, thread.call.begins ≠ some requestId) ∧
        ∀ message ∈ request.messages.head?, message = userOf requestId
  | .commitResult _ requestId user _ => user = userOf requestId
  | .commitResponseText _ requestId user _ => user = userOf requestId
  | _ => True

instance decidableAdmissible (threads : List Thread) :
    (call : Call) → Decidable (Admissible userOf threads call)
  | .beginRequest _ _ => inferInstanceAs (Decidable (_ ∧ _))
  | .commitResult _ requestId user _ =>
      inferInstanceAs (Decidable (user = userOf requestId))
  | .commitResponseText _ requestId user _ =>
      inferInstanceAs (Decidable (user = userOf requestId))
  | .reapExpiredSessions => isTrue trivial
  | .createSession _ => isTrue trivial
  | .getSession _ => isTrue trivial
  | .deleteSession _ => isTrue trivial
  | .setBaseSystemPrompt _ => isTrue trivial
  | .releaseRequest _ _ => isTrue trivial
  | .stop => isTrue trivial

def step (system : System) : Label → Option System
  | .call call =>
      if Admissible userOf system.threads call then
        some { system with
          threads := system.threads ++ [⟨call, .suspended (.enter call)⟩] }
      else none
  | .run index readings =>
      match system.threads[index]? with
      | some ⟨call, .suspended current⟩ =>
          (current.exec settings readings system.store).map fun outcome =>
            { store := outcome.store
              threads := system.threads.set index ⟨call, outcome.progress⟩
              log := system.log ++ outcome.events }
      | _ => none

end Steps

/-- The state after the constructor of `SessionStore`. -/
def initialStore (baseSystemPrompt : StdString) : Store := { baseSystemPrompt }

def initialSystem (baseSystemPrompt : StdString) : System :=
  { store := initialStore baseSystemPrompt }

def Output.Succeeds : Output → Prop
  | .summary (.ok _) => True
  | .deleted (.ok _) => True
  | .begun (.ok _) => True
  | _ => False

inductive Reaps (settings : Settings) : Call → AfterReap → Prop
  | reap : Reaps settings .reapExpiredSessions .finish
  | create {request : SessionCreateRequest} :
      Reaps settings (.createSession request) (.create request)
  | get {sessionId : StdString} :
      Reaps settings (.getSession sessionId) (.get sessionId)
  | begin {request : ChatCompletionRequest} {requestId : RequestId}
      {sessionId : StdString} {user : ChatMessage}
      (accepted : validateBegin settings request = .ok (sessionId, user)) :
      Reaps settings (.beginRequest request requestId)
        (.begin sessionId user requestId)

inductive WorksOn (ptr : SessionPtr) : Call → StdString → Section → Prop
  | commitResult {sessionId : StdString} {requestId : RequestId}
      {user : ChatMessage} {result : RuntimeResult CompletionResult} :
      WorksOn ptr (.commitResult sessionId requestId user result) sessionId
        (.commit ptr requestId user (result.map CompletionResult.text))
  | commitResponseText {sessionId : StdString} {requestId : RequestId}
      {user : ChatMessage} {result : RuntimeResult StdString} :
      WorksOn ptr (.commitResponseText sessionId requestId user result)
        sessionId (.commit ptr requestId user result)
  | release {sessionId : StdString} {requestId : RequestId} :
      WorksOn ptr (.releaseRequest sessionId requestId) sessionId
        (.release ptr requestId)

inductive Entered (settings : Settings) (readings : Readings) (store : Store) :
    Call → Outcome → Prop
  | returns {call : Call} {output : Output} (failed : ¬ output.Succeeds)
      (setsNothing : ∀ prompt, call ≠ .setBaseSystemPrompt prompt) :
      Entered settings readings store call
        { store, progress := .returned output }
  | reaps {call : Call} {after : AfterReap} (free : store.locked = false)
      (reaps : Reaps settings call after)
      (running : ∀ request, after = .create request → store.stopping = false)
      {entries : List SessionEntry} (all : entries.Perm store.sessions.entries) :
      Entered settings readings store call
        { store := { store with locked := true }
          progress := .suspended (.reaping readings.first entries after) }
  | finds {call : Call} {sessionId : StdString} {ptr : SessionPtr}
      {next : Section} (free : store.locked = false)
      (found : store.sessions.lookup sessionId = some ptr)
      (works : WorksOn ptr call sessionId next) :
      Entered settings readings store call
        { store, progress := .suspended next }
  | erases {sessionId : StdString} {ptr : SessionPtr}
      (free : store.locked = false)
      (found : store.sessions.lookup sessionId = some ptr) :
      Entered settings readings store (.deleteSession sessionId)
        { store := { store with sessions := store.sessions.erase sessionId }
          progress := .suspended (.closeDeleted ptr)
          events := [.deleted ptr] }
  | prompts {prompt : StdString} (free : store.locked = false) :
      Entered settings readings store (.setBaseSystemPrompt prompt)
        { store := { store with baseSystemPrompt := prompt }
          progress := .returned .done }
  | stops (free : store.locked = false) (running : store.stopping = false)
      {entries : List SessionEntry} (all : entries.Perm store.sessions.entries) :
      Entered settings readings store .stop
        { store := { store with stopping := true, sessions := ∅ }
          progress := .suspended (.closeStopped (entries.map Sigma.snd))
          events := [.stopped] }

inductive Left (settings : Settings) (now : Int) (store : Store) :
    AfterReap → Outcome → Prop
  | returns {after : AfterReap} {output : Output}
      (failed : ¬ output.Succeeds) :
      Left settings now store after
        { store := { store with locked := false }
          progress := .returned output }
  | creates {request : SessionCreateRequest}
      (room : capacityReached settings store = false) :
      Left settings now store (.create request)
        { store := emplaceSession settings now request
            { store with locked := false }
          progress := .suspended (.snapshot store.heap.length)
          events :=
            [.created store.heap.length store.baseSystemPrompt
              request.systemPrompt] }
  | gets {sessionId : StdString} {ptr : SessionPtr}
      (found : store.sessions.lookup sessionId = some ptr) :
      Left settings now store (.get sessionId)
        { store := { store with locked := false }
          progress := .suspended (.snapshot ptr) }
  | begins {sessionId : StdString} {user : ChatMessage} {requestId : RequestId}
      {ptr : SessionPtr}
      (found : store.sessions.lookup sessionId = some ptr) :
      Left settings now store (.begin sessionId user requestId)
        { store := { store with locked := false }
          progress := .suspended (.begin ptr sessionId user requestId) }

section Entries

variable {settings : Settings} {readings : Readings} {store : Store}
  {outcome : Outcome}

theorem returns_entered {call : Call} {output : Output}
    (executed : returns store output = some outcome)
    (failed : ¬ output.Succeeds)
    (setsNothing : ∀ prompt, call ≠ .setBaseSystemPrompt prompt) :
    Entered settings readings store call outcome := by
  cases Option.some.inj executed
  exact .returns failed setsNothing

theorem startReaping_entered {call : Call} {after : AfterReap}
    (executed : startReaping readings store after = some outcome)
    (reaps : Reaps settings call after)
    (running : ∀ request, after = .create request →
      store.locked = false → store.stopping = false) :
    Entered settings readings store call outcome := by
  unfold startReaping at executed
  split at executed
  · contradiction
  · rename_i locked
    have free := Bool.eq_false_iff.mpr locked
    cases Option.some.inj executed
    exact .reaps free reaps (fun request same => running request same free)
      (store.sessions.inOrder_perm _)

theorem lookupSession_entered {call : Call} {sessionId : StdString}
    {following : SessionPtr → Section}
    (executed : lookupSession store sessionId following = some outcome)
    (works : ∀ ptr, WorksOn ptr call sessionId (following ptr))
    (setsNothing : ∀ prompt, call ≠ .setBaseSystemPrompt prompt) :
    Entered settings readings store call outcome := by
  unfold lookupSession at executed
  split at executed
  · contradiction
  rename_i locked
  split at executed
  · exact returns_entered executed id setsNothing
  · rename_i ptr found
    cases Option.some.inj executed
    exact .finds (Bool.eq_false_iff.mpr locked) found (works ptr)

theorem enterCall_entered {call : Call}
    (executed : enterCall settings readings store call = some outcome) :
    Entered settings readings store call outcome := by
  cases call with
  | reapExpiredSessions =>
      simp only [enterCall] at executed
      split at executed
      · exact returns_entered executed id (by simp)
      · exact startReaping_entered executed .reap (by simp)
  | createSession request =>
      simp only [enterCall] at executed
      split at executed
      · exact returns_entered executed id (by simp)
      split at executed
      · exact returns_entered executed id (by simp)
      · rename_i running
        refine startReaping_entered executed .create fun _ _ free => ?_
        simpa [free] using running
  | getSession sessionId =>
      simp only [enterCall] at executed
      split at executed
      · exact returns_entered executed id (by simp)
      · exact startReaping_entered executed .get (by simp)
  | deleteSession sessionId =>
      simp only [enterCall] at executed
      split at executed
      · exact returns_entered executed id (by simp)
      split at executed
      · contradiction
      rename_i locked
      split at executed
      · exact returns_entered executed id (by simp)
      · rename_i ptr found
        cases Option.some.inj executed
        exact .erases (Bool.eq_false_iff.mpr locked) found
  | setBaseSystemPrompt prompt =>
      simp only [enterCall] at executed
      split at executed
      · contradiction
      · rename_i locked
        cases Option.some.inj executed
        exact .prompts (Bool.eq_false_iff.mpr locked)
  | beginRequest request requestId =>
      simp only [enterCall] at executed
      split at executed
      · exact returns_entered executed id (by simp)
      · rename_i sessionId user accepted
        exact startReaping_entered executed (.begin accepted) (by simp)
  | commitResult sessionId requestId user result =>
      exact lookupSession_entered executed (fun _ => .commitResult) (by simp)
  | commitResponseText sessionId requestId user result =>
      exact lookupSession_entered executed (fun _ => .commitResponseText)
        (by simp)
  | releaseRequest sessionId requestId =>
      exact lookupSession_entered executed (fun _ => .release) (by simp)
  | stop =>
      simp only [enterCall] at executed
      split at executed
      · contradiction
      rename_i locked
      split at executed
      · exact returns_entered executed id (by simp)
      · rename_i stopping
        cases Option.some.inj executed
        exact .stops (Bool.eq_false_iff.mpr locked)
          (Bool.eq_false_iff.mpr stopping) (store.sessions.inOrder_perm _)

theorem leaveReaping_left {now : Int} {after : AfterReap}
    (executed : leaveReaping settings now store after = some outcome) :
    Left settings now store after outcome := by
  cases after with
  | finish =>
      cases Option.some.inj executed
      exact .returns id
  | create request =>
      simp only [leaveReaping] at executed
      split at executed
      · cases Option.some.inj executed
        exact .returns id
      · rename_i full
        cases Option.some.inj executed
        exact .creates (Bool.eq_false_iff.mpr full)
  | get sessionId =>
      simp only [leaveReaping] at executed
      split at executed
      · cases Option.some.inj executed
        exact .returns id
      · rename_i ptr found
        cases Option.some.inj executed
        exact .gets found
  | begin sessionId user requestId =>
      simp only [leaveReaping] at executed
      split at executed
      · cases Option.some.inj executed
        exact .returns id
      · rename_i ptr found
        cases Option.some.inj executed
        exact .begins found

end Entries

@[simp] theorem Store.put_heap (store : Store) (ptr : SessionPtr)
    (session : SessionState) :
    (store.put ptr session).heap = store.heap.set ptr session := rfl

@[simp] theorem Store.put_sessions (store : Store) (ptr : SessionPtr)
    (session : SessionState) :
    (store.put ptr session).sessions = store.sessions := rfl

@[simp] theorem Store.put_nextSessionId (store : Store) (ptr : SessionPtr)
    (session : SessionState) :
    (store.put ptr session).nextSessionId = store.nextSessionId := rfl

theorem Store.put_self {store : Store} {ptr : SessionPtr}
    {session : SessionState} (found : store.heap[ptr]? = some session) :
    store.put ptr session = store := by
  obtain ⟨bound, rfl⟩ := List.getElem?_eq_some_iff.mp found
  simp [Store.put]

theorem Store.put_heap_same {store : Store} {ptr : SessionPtr}
    {session : SessionState} (updated : SessionState)
    (found : store.heap[ptr]? = some session) :
    (store.put ptr updated).heap[ptr]? = some updated := by
  obtain ⟨bound, _⟩ := List.getElem?_eq_some_iff.mp found
  simp [bound]

theorem Store.put_heap_other (store : Store) {ptr other : SessionPtr}
    (updated : SessionState) (different : ptr ≠ other) :
    (store.put ptr updated).heap[other]? = store.heap[other]? := by
  simp [different]

inductive Effect (settings : Settings) (store : Store) :
    Section → Store → Progress → List Event → Prop
  | silent {current : Section} {next : Store} {progress : Progress}
      (heap : next.heap = store.heap)
      (sessions : next.sessions = store.sessions)
      (counter : next.nextSessionId = store.nextSessionId) :
      Effect settings store current next progress []
  | create {now : Int} {request : SessionCreateRequest} {next : Store}
      {session : SessionState}
      (shape : session = freshSession settings now request store)
      (heap : next.heap = store.heap ++ [session])
      (sessions : next.sessions =
        if session.id ∈ store.sessions then store.sessions
        else store.sessions.insert session.id store.heap.length)
      (counter : next.nextSessionId = store.nextSessionId + 1) :
      Effect settings store (.reaping now [] (.create request)) next
        (.suspended (.snapshot store.heap.length))
        [.created store.heap.length store.baseSystemPrompt
          request.systemPrompt]
  | expire {now : Int} {entry : SessionEntry} {rest : List SessionEntry}
      {after : AfterReap} {session : SessionState} {next : Store}
      (found : store.heap[entry.2]? = some session)
      (idle : shouldExpire now session)
      (heap : next.heap = store.heap.set entry.2 (closeSession session))
      (sessions : next.sessions = store.sessions.erase entry.1)
      (counter : next.nextSessionId = store.nextSessionId) :
      Effect settings store (.reaping now (entry :: rest) after) next
        (.suspended (.reaping now rest after)) [.expired entry.2]
  | erase {sessionId : StdString} {ptr : SessionPtr} {next : Store}
      (found : store.sessions.lookup sessionId = some ptr)
      (heap : next.heap = store.heap)
      (sessions : next.sessions = store.sessions.erase sessionId)
      (counter : next.nextSessionId = store.nextSessionId) :
      Effect settings store (.enter (.deleteSession sessionId)) next
        (.suspended (.closeDeleted ptr)) [.deleted ptr]
  | dropAll {next : Store} {rest : List SessionPtr}
      (dropped : rest.Perm (store.sessions.entries.map Sigma.snd))
      (heap : next.heap = store.heap)
      (sessions : next.sessions = ∅)
      (counter : next.nextSessionId = store.nextSessionId) :
      Effect settings store (.enter .stop) next
        (.suspended (.closeStopped rest)) [.stopped]
  | close {current : Section} {ptr : SessionPtr} {progress : Progress}
      {session : SessionState}
      (closing : current = .closeDeleted ptr ∨
        ∃ rest, current = .closeStopped (ptr :: rest))
      (found : store.heap[ptr]? = some session) :
      Effect settings store current (store.put ptr (closeSession session))
        progress []
  | begin {ptr : SessionPtr} {sessionId : StdString} {user : ChatMessage}
      {requestId : RequestId} {startedAt now : Int} {session : SessionState}
      (found : store.heap[ptr]? = some session)
      (opened : session.closed = false)
      (idle : session.activeRequest = none) :
      Effect settings store (.begin ptr sessionId user requestId)
        (store.put ptr (touchSession settings now
          { session with activeRequest := some requestId }))
        (.returned (.begun (.ok ⟨session.history ++ [user], startedAt, user⟩)))
        [.began ptr requestId ⟨session.history ++ [user], startedAt, user⟩]
  | commit {ptr : SessionPtr} {requestId : RequestId} {user : ChatMessage}
      {reply : StdString} {now : Int} {session : SessionState}
      (found : store.heap[ptr]? = some session)
      (opened : session.closed = false)
      (active : session.activeRequest = some requestId) :
      Effect settings store (.commit ptr requestId user (.ok reply))
        (store.put ptr (touchSession settings now
          { session with
            history := trimHistoryToFit
              (session.history ++ [user, .assistant reply])
              settings.maxHistoryMessages
            activeRequest := none }))
        (.returned .done) [.committed ptr requestId ⟨user, reply⟩]
  | release {current : Section} {ptr : SessionPtr} {requestId : RequestId}
      {now : Int} {session : SessionState}
      (releasing : current = .release ptr requestId ∨
        ∃ user text, current = .commit ptr requestId user text ∧
          (session.closed ∨ ∃ error, text = .error error))
      (found : store.heap[ptr]? = some session)
      (active : session.activeRequest = some requestId) :
      Effect settings store current
        (store.put ptr (touchSession settings now
          { session with activeRequest := none }))
        (.returned .done) [.released ptr requestId]

section Effects

variable {settings : Settings} {readings : Readings} {store : Store}
  {outcome : Outcome}

theorem returns_effect {next : Store} {output : Output} {current : Section}
    (executed : returns next output = some outcome)
    (heap : next.heap = store.heap) (sessions : next.sessions = store.sessions)
    (counter : next.nextSessionId = store.nextSessionId) :
    Effect settings store current outcome.store outcome.progress
      outcome.events := by
  cases Option.some.inj executed
  exact .silent heap sessions counter

theorem enterCall_effect {call : Call}
    (executed : enterCall settings readings store call = some outcome) :
    Effect settings store (.enter call) outcome.store outcome.progress
      outcome.events := by
  cases enterCall_entered executed with
  | returns failed setsNothing => exact .silent rfl rfl rfl
  | reaps free reaps running => exact .silent rfl rfl rfl
  | finds free found works => exact .silent rfl rfl rfl
  | erases free found => exact .erase found rfl rfl rfl
  | prompts free => exact .silent rfl rfl rfl
  | stops free running all => exact .dropAll (all.map _) rfl rfl rfl

theorem leaveReaping_effect {now : Int} {after : AfterReap}
    (executed : leaveReaping settings now store after = some outcome) :
    Effect settings store (.reaping now [] after) outcome.store
      outcome.progress outcome.events := by
  cases leaveReaping_left executed with
  | returns failed => exact .silent rfl rfl rfl
  | creates room => exact .create rfl rfl rfl rfl
  | gets found => exact .silent rfl rfl rfl
  | begins found => exact .silent rfl rfl rfl

theorem commit_effect {ptr : SessionPtr} {requestId : RequestId}
    {user : ChatMessage} {text : RuntimeResult StdString}
    {session : SessionState} (found : store.heap[ptr]? = some session) :
    Effect settings store (.commit ptr requestId user text)
      (store.put ptr
        (commitLocked settings readings.first requestId user text session))
      (.returned .done) (commitEvents ptr requestId user text session) := by
  by_cases active : session.activeRequest = some requestId
  · simp only [commitLocked, commitEvents, active, ne_eq, not_true_eq_false,
      if_false]
    cases text with
    | error error =>
        exact .release (.inr ⟨user, _, rfl, .inr ⟨error, rfl⟩⟩) found active
    | ok reply =>
        by_cases closed : session.closed = true
        · simp only [if_pos closed]
          exact .release (.inr ⟨user, _, rfl, .inl closed⟩) found active
        · simp only [if_neg closed]
          exact .commit found (Bool.eq_false_iff.mpr closed) active
  · simp only [commitLocked, commitEvents, active, ne_eq, not_false_eq_true,
      if_true, Store.put_self found]
    exact .silent rfl rfl rfl

theorem release_effect {ptr : SessionPtr} {requestId : RequestId}
    {session : SessionState} (found : store.heap[ptr]? = some session) :
    Effect settings store (.release ptr requestId)
      (store.put ptr (releaseLocked settings readings.first requestId session))
      (.returned .done)
      (if session.activeRequest = some requestId then
        [.released ptr requestId] else []) := by
  by_cases active : session.activeRequest = some requestId
  · simp only [releaseLocked, active, ne_eq, not_true_eq_false, if_false,
      if_true]
    exact .release (.inl rfl) found active
  · simp only [releaseLocked, active, ne_eq, not_false_eq_true, if_true,
      if_false, Store.put_self found]
    exact .silent rfl rfl rfl

/-- Every section does one of the nine things `Effect` lists. -/
theorem exec_effect {current : Section}
    (executed : current.exec settings readings store = some outcome) :
    Effect settings store current outcome.store outcome.progress
      outcome.events := by
  cases current with
  | enter call => exact enterCall_effect executed
  | reaping now rest after =>
      cases rest with
      | nil => exact leaveReaping_effect executed
      | cons entry rest =>
          obtain ⟨session, found, rfl⟩ := Option.map_eq_some_iff.mp executed
          cases idle : shouldExpire now session with
          | false =>
              simp only [reapEntry, found, idle, Bool.false_eq_true, if_false]
              exact .silent rfl rfl rfl
          | true =>
              simp only [reapEntry, found, idle, if_true]
              exact .expire found idle rfl rfl rfl
  | begin ptr sessionId user requestId =>
      obtain ⟨session, found, rfl⟩ := Option.map_eq_some_iff.mp executed
      cases closed : session.closed with
      | true =>
          simp only [beginLocked, closed, if_true, Store.put_self found]
          exact .silent rfl rfl rfl
      | false =>
          cases active : session.activeRequest with
          | some other =>
              simp only [beginLocked, closed, active, Option.isSome_some,
                Bool.false_eq_true, if_false, if_true, Store.put_self found]
              exact .silent rfl rfl rfl
          | none =>
              unfold beginLocked
              rw [if_neg (by simp [closed]), if_neg (by simp [active])]
              exact .begin found closed active
  | commit ptr requestId user text =>
      obtain ⟨session, found, rfl⟩ := Option.map_eq_some_iff.mp executed
      exact commit_effect found
  | release ptr requestId =>
      obtain ⟨session, found, rfl⟩ := Option.map_eq_some_iff.mp executed
      exact release_effect found
  | closeDeleted ptr =>
      obtain ⟨session, found, rfl⟩ := Option.map_eq_some_iff.mp executed
      exact .close (.inl rfl) found
  | closeStopped rest =>
      cases rest with
      | nil => exact returns_effect executed rfl rfl rfl
      | cons ptr rest =>
          obtain ⟨session, found, rfl⟩ := Option.map_eq_some_iff.mp executed
          exact .close (.inr ⟨rest, rfl⟩) found
  | snapshot ptr =>
      obtain ⟨session, found, rfl⟩ := Option.map_eq_some_iff.mp executed
      exact .silent rfl rfl rfl

end Effects

end ZooKeeperServer.SessionStore
