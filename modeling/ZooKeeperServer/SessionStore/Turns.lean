import ZooKeeperServer.SessionStore.Interleaving

namespace ZooKeeperServer.SessionStore

open Transition

/-! What a caller may rely on for one turn, whatever the other callers do. -/

variable {settings : Settings} {userOf : RequestId → ChatMessage}
  {basePrompt : StdString} {system next : System}

inductive Section.Finishes (ptr : SessionPtr) (requestId : RequestId) :
    Section → Prop
  | commit (user : ChatMessage) (text : RuntimeResult StdString) :
      Finishes ptr requestId (.commit ptr requestId user text)
  | release : Finishes ptr requestId (.release ptr requestId)

inductive Call.Finishes (requestId : RequestId) : Call → Prop
  | commitResult (sessionId : StdString) (user : ChatMessage)
      (result : RuntimeResult CompletionResult) :
      Finishes requestId (.commitResult sessionId requestId user result)
  | commitResponseText (sessionId : StdString) (user : ChatMessage)
      (result : RuntimeResult StdString) :
      Finishes requestId (.commitResponseText sessionId requestId user result)
  | releaseRequest (sessionId : StdString) :
      Finishes requestId (.releaseRequest sessionId requestId)

theorem commitLocked_ok_history {now : Int} {requestId : RequestId}
    {user : ChatMessage} {reply : StdString} {session : SessionState}
    (active : session.activeRequest = some requestId)
    (opened : session.closed = false) :
    (commitLocked settings now requestId user (.ok reply) session).history =
      trimHistoryToFit (session.history ++ [user, .assistant reply])
        settings.maxHistoryMessages := by
  simp [commitLocked, active, opened, touchSession]

theorem commitLocked_error_history {now : Int} {requestId : RequestId}
    {user : ChatMessage} {error : RuntimeError} {session : SessionState} :
    (commitLocked settings now requestId user (.error error) session).history =
      session.history := by
  unfold commitLocked
  split
  · rfl
  · rfl

theorem step_commit {index : Nat} {readings : Readings} {call : Call}
    {ptr : SessionPtr} {requestId : RequestId} {user : ChatMessage}
    {text : RuntimeResult StdString} {session : SessionState}
    (waiting : system.threads[index]? =
      some ⟨call, .suspended (.commit ptr requestId user text)⟩)
    (found : system.store.heap[ptr]? = some session)
    (stepped : step settings userOf system (.run index readings) = some next) :
    next.store = system.store.put ptr
      (commitLocked settings readings.first requestId user text session) := by
  simp only [step, waiting, Section.exec, found, Option.map_some,
    Option.some.injEq] at stepped
  exact stepped ▸ rfl

theorem step_release {index : Nat} {readings : Readings} {call : Call}
    {ptr : SessionPtr} {requestId : RequestId} {session : SessionState}
    (waiting : system.threads[index]? =
      some ⟨call, .suspended (.release ptr requestId)⟩)
    (found : system.store.heap[ptr]? = some session)
    (stepped : step settings userOf system (.run index readings) = some next) :
    next.store = system.store.put ptr
      (releaseLocked settings readings.first requestId session) := by
  simp only [step, waiting, Section.exec, found, Option.map_some,
    Option.some.injEq] at stepped
  exact stepped ▸ rfl

theorem lookupSession_store {store : Store} {sessionId : StdString}
    {following : SessionPtr → Section} {outcome : Outcome}
    (executed : lookupSession store sessionId following = some outcome) :
    outcome.store = store := by
  unfold lookupSession at executed
  split at executed
  · contradiction
  split at executed
  · exact Option.some.inj executed ▸ rfl
  · exact Option.some.inj executed ▸ rfl

/-- A busy session's history only changes in its own request's commit. -/
theorem Change.keeps_history {ptr : SessionPtr} {session updated : SessionState}
    {events : List Event} {requestId : RequestId}
    (change : Change settings ptr session updated events)
    (active : session.activeRequest = some requestId)
    (uncommitted : ∀ turn, .committed ptr requestId turn ∉ events) :
    updated.history = session.history := by
  cases change with
  | @commit other user reply now opened busy =>
      obtain rfl : other = requestId :=
        Option.some.inj (busy.symm.trans active)
      exact absurd (List.mem_singleton_self _) (uncommitted ⟨user, reply⟩)
  | _ => rfl

theorem Effect.committed_section {store after : Store} {current : Section}
    {progress : Progress} {events : List Event} {ptr : SessionPtr}
    {requestId : RequestId} {turn : Turn}
    (effect : Effect settings store current after progress events)
    (committed : .committed ptr requestId turn ∈ events) :
    current = .commit ptr requestId turn.user (.ok turn.text) := by
  cases effect with
  | commit found opened active =>
      cases List.mem_singleton.mp committed
      rfl
  | _ => simp at committed

theorem Effect.begins_open {store after : Store} {current : Section}
    {progress : Progress} {events : List Event} {ptr : SessionPtr}
    {requestId : RequestId} {result : BeginRequestResult}
    {session : SessionState}
    (effect : Effect settings store current after progress events)
    (began : .began ptr requestId result ∈ events)
    (found : store.heap[ptr]? = some session) : session.closed = false := by
  cases effect with
  | begin at_ opened idle =>
      cases List.mem_singleton.mp began
      exact Option.some.inj (at_.symm.trans found) ▸ opened
  | _ => simp at began

/-- What `begin_request` handed out is what the commit finds, and nothing else
touches the history in between. -/
structure TurnIsolated (settings : Settings) (userOf : RequestId → ChatMessage)
    (system : System) : Prop where
  commits : ∀ (index other : Nat) (readings : Readings) (call : Call)
    (request : ChatCompletionRequest) (ptr : SessionPtr)
    (requestId : RequestId) (user : ChatMessage) (reply : StdString)
    (result : BeginRequestResult) (session : SessionState) (next : System),
    system.threads[other]? =
      some ⟨.beginRequest request requestId, .returned (.begun (.ok result))⟩ →
    system.threads[index]? =
      some ⟨call, .suspended (.commit ptr requestId user (.ok reply))⟩ →
    system.store.heap[ptr]? = some session →
    session.activeRequest = some requestId → session.closed = false →
    step settings userOf system (.run index readings) = some next →
    session.history = result.messages.dropLast ∧
      ∃ updated, next.store.heap[ptr]? = some updated ∧
        updated.history =
          trimHistoryToFit (result.messages ++ [.assistant reply])
            settings.maxHistoryMessages
  undisturbed : ∀ (label : Label) (ptr : SessionPtr) (requestId : RequestId)
    (session : SessionState) (next : System),
    system.store.heap[ptr]? = some session →
    session.activeRequest = some requestId →
    (∀ index readings call user text, label = .run index readings →
      system.threads[index]? ≠
        some ⟨call, .suspended (.commit ptr requestId user text)⟩) →
    step settings userOf system label = some next →
    ∃ updated, next.store.heap[ptr]? = some updated ∧
      updated.history = session.history
  lookup : ∀ (index : Nat) (readings : Readings) (call entered : Call)
    (requestId : RequestId) (next : System),
    system.threads[index]? = some ⟨call, .suspended (.enter entered)⟩ →
    entered.Finishes requestId →
    step settings userOf system (.run index readings) = some next →
    next.store = system.store
  stale : ∀ (index : Nat) (readings : Readings) (call : Call)
    (current : Section) (ptr : SessionPtr) (requestId : RequestId)
    (session : SessionState) (next : System),
    system.threads[index]? = some ⟨call, .suspended current⟩ →
    current.Finishes ptr requestId →
    system.store.heap[ptr]? = some session →
    session.activeRequest ≠ some requestId →
    step settings userOf system (.run index readings) = some next →
    next.store = system.store
  failed : ∀ (index : Nat) (readings : Readings) (call : Call)
    (ptr other : SessionPtr) (requestId : RequestId) (user : ChatMessage)
    (error : RuntimeError) (session : SessionState) (next : System),
    system.threads[index]? =
      some ⟨call, .suspended (.commit other requestId user (.error error))⟩ →
    system.store.heap[ptr]? = some session →
    step settings userOf system (.run index readings) = some next →
    ∃ updated, next.store.heap[ptr]? = some updated ∧
      updated.history = session.history

theorem Invariant.begun_history {index : Nat} {request : ChatCompletionRequest}
    {ptr : SessionPtr} {requestId : RequestId} {result : BeginRequestResult}
    {session : SessionState} (holds : Invariant settings userOf system)
    (returned : system.threads[index]? =
      some ⟨.beginRequest request requestId, .returned (.begun (.ok result))⟩)
    (found : system.store.heap[ptr]? = some session)
    (active : session.activeRequest = some requestId) :
    result.messages = session.history ++ [userOf requestId] := by
  obtain ⟨other, same, identified, began⟩ := holds.sound index _ returned
  obtain rfl : requestId = same := Option.some.inj identified
  obtain ⟨_, live, liveBegan, messages, _⟩ :=
    (holds.consistent.invariant ptr session found).active requestId active
  obtain ⟨_, rfl⟩ := holds.consistent.once _ _ _ _ _ began liveBegan
  exact messages

theorem Invariant.turn_commits {index other : Nat} {readings : Readings}
    {call : Call} {request : ChatCompletionRequest} {ptr : SessionPtr}
    {requestId : RequestId} {user : ChatMessage} {reply : StdString}
    {result : BeginRequestResult} {session : SessionState}
    (holds : Invariant settings userOf system)
    (returned : system.threads[other]? =
      some ⟨.beginRequest request requestId, .returned (.begun (.ok result))⟩)
    (waiting : system.threads[index]? =
      some ⟨call, .suspended (.commit ptr requestId user (.ok reply))⟩)
    (found : system.store.heap[ptr]? = some session)
    (active : session.activeRequest = some requestId)
    (opened : session.closed = false)
    (stepped : step settings userOf system (.run index readings) = some next) :
    session.history = result.messages.dropLast ∧
      ∃ updated, next.store.heap[ptr]? = some updated ∧
        updated.history =
          trimHistoryToFit (result.messages ++ [.assistant reply])
            settings.maxHistoryMessages := by
  have messages := holds.begun_history returned found active
  have own : user = userOf requestId := holds.sound index _ waiting
  rw [step_commit waiting found stepped]
  refine ⟨by rw [messages, List.dropLast_concat], _,
    Store.put_heap_same _ found, ?_⟩
  rw [commitLocked_ok_history active opened, messages, own]
  simp

theorem step_keeps_history {label : Label} {ptr : SessionPtr}
    {requestId : RequestId} {session : SessionState}
    (found : system.store.heap[ptr]? = some session)
    (active : session.activeRequest = some requestId)
    (elsewhere : ∀ index readings call user text, label = .run index readings →
      system.threads[index]? ≠
        some ⟨call, .suspended (.commit ptr requestId user text)⟩)
    (stepped : step settings userOf system label = some next) :
    ∃ updated, next.store.heap[ptr]? = some updated ∧
      updated.history = session.history := by
  cases label with
  | call call =>
      obtain ⟨_, rfl⟩ := step_call stepped
      exact ⟨session, found, rfl⟩
  | run index readings =>
      obtain ⟨call, current, outcome, waiting, executed, rfl⟩ := step_run stepped
      have effect := exec_effect executed
      obtain ⟨updated, updatedAt, change⟩ := effect.change found
      refine ⟨updated, updatedAt, change.keeps_history active ?_⟩
      intro turn committed
      have here := effect.committed_section committed
      exact elsewhere index readings call turn.user (.ok turn.text) rfl
        (here ▸ waiting)

theorem turns_isolated
    (reached : Reachable (step settings userOf) (initialSystem basePrompt)
      system) :
    TurnIsolated settings userOf system := by
  have holds := reachable_invariant reached
  constructor
  · intro index other readings call request ptr requestId user reply result
      session next returned waiting found active opened stepped
    exact holds.turn_commits returned waiting found active opened stepped
  · intro label ptr requestId session next found active elsewhere stepped
    exact step_keeps_history found active elsewhere stepped
  · intro index readings call entered requestId next waiting finishes stepped
    obtain ⟨_, _, outcome, found, executed, rfl⟩ := step_run stepped
    cases waiting.symm.trans found
    cases finishes with
    | commitResult => exact lookupSession_store executed
    | commitResponseText => exact lookupSession_store executed
    | releaseRequest => exact lookupSession_store executed
  · intro index readings call current ptr requestId session next waiting
      finishes found stale stepped
    cases finishes with
    | commit user text =>
        rw [step_commit waiting found stepped, commitLocked_stale stale,
          Store.put_self found]
    | release =>
        rw [step_release waiting found stepped, releaseLocked_stale stale,
          Store.put_self found]
  · intro index readings call ptr other requestId user error session next
      waiting found stepped
    obtain ⟨_, _, outcome, at_, executed, _⟩ := step_run stepped
    cases waiting.symm.trans at_
    obtain ⟨held, heldAt, _⟩ := Option.map_eq_some_iff.mp executed
    rw [step_commit waiting heldAt stepped]
    by_cases same : other = ptr
    · subst same
      obtain rfl := Option.some.inj (heldAt.symm.trans found)
      exact ⟨_, Store.put_heap_same _ found, commitLocked_error_history⟩
    · exact ⟨session, by rw [Store.put_heap_other _ _ same, found], rfl⟩

/-! A session is created, a request begins on it, and its commit is about to
run. -/

def sampleSettings : Settings :=
  { modelId := literal "m", config := ⟨1, 60⟩, maxHistoryMessages := 2 }

def sampleUser (_ : RequestId) : ChatMessage := .user (literal "hi")

def sampleRequest : ChatCompletionRequest :=
  { model := literal "m", messages := [sampleUser 7]
    sessionId := some (literal "sess-1") }

def sampleSchedule : List Label :=
  [.call (.createSession ⟨literal "m", none⟩),
    .run 0 ⟨0, 0, []⟩, .run 0 ⟨0, 0, []⟩,
    .call (.beginRequest sampleRequest 7),
    .run 1 ⟨1, 1, []⟩, .run 1 ⟨1, 1, []⟩, .run 1 ⟨1, 1, []⟩, .run 1 ⟨1, 1, []⟩,
    .call (.commitResponseText (literal "sess-1") 7 (sampleUser 7)
      (.ok (literal "yo"))),
    .run 2 ⟨2, 2, []⟩]

def sampleRun (schedule : List Label) : System :=
  (run (step sampleSettings sampleUser) (initialSystem []) schedule).getD
    (initialSystem [])

theorem turns_isolated_sample :
    TurnIsolated sampleSettings sampleUser (sampleRun sampleSchedule) ∧
      (sampleRun sampleSchedule).store.heap.map (·.activeRequest) = [some 7] :=
  ⟨turns_isolated ⟨sampleSchedule, rfl⟩, rfl⟩

theorem session_memory {ptr : SessionPtr} {session : SessionState}
    (bounded : settings.maxHistoryMessages + 1 < sizeLimit)
    (reached : Reachable (step settings userOf) (initialSystem basePrompt)
      system)
    (found : system.store.heap[ptr]? = some session) :
    ∃ base prompt, .created ptr base prompt ∈ system.log ∧
      session.history = makeInitialHistory base prompt ++
        turnMessages
          ((turnsOf ptr system.log).rtake (settings.maxHistoryMessages / 2)) := by
  have consistent := (reachable_invariant reached).consistent
  obtain ⟨bound, _⟩ := List.getElem?_eq_some_iff.mp found
  obtain ⟨base, prompt, created⟩ := consistent.created ptr bound
  exact ⟨base, prompt, created,
    (consistent.invariant ptr session found).remembers bounded base prompt
      created⟩

def sampleCommitted : System :=
  sampleRun (sampleSchedule ++ [.run 2 ⟨2, 2, []⟩])

theorem session_memory_sample :
    ∃ base prompt, .created 0 base prompt ∈ sampleCommitted.log ∧
      [sampleUser 7, .assistant (literal "yo")] =
        makeInitialHistory base prompt ++
          turnMessages ((turnsOf 0 sampleCommitted.log).rtake 1) := by
  have reached : Reachable (step sampleSettings sampleUser) (initialSystem [])
      sampleCommitted :=
    ⟨sampleSchedule ++ [.run 2 ⟨2, 2, []⟩], rfl⟩
  have bounded : sampleSettings.maxHistoryMessages + 1 < sizeLimit := by decide
  obtain ⟨session, found, history⟩ :
      ∃ session, sampleCommitted.store.heap[0]? = some session ∧
        session.history = [sampleUser 7, .assistant (literal "yo")] :=
    ⟨_, rfl, rfl⟩
  exact history ▸ session_memory bounded reached found

/-- The request that keeps a session busy has its session still, and its commit
will take effect. -/
structure TurnKept (settings : Settings) (userOf : RequestId → ChatMessage)
    (system : System) (ptr : SessionPtr) (requestId : RequestId)
    (session : SessionState) : Prop where
  found : system.store.heap[ptr]? = some session
  stored : Stored system.store ptr session
  active : session.activeRequest = some requestId
  lookup : ∀ (index : Nat) (readings : Readings) (call : Call)
    (user : ChatMessage) (text : RuntimeResult StdString) (next : System),
    (system.threads[index]? = some ⟨call, .suspended (.enter
        (.commitResponseText session.id requestId user text))⟩ ∨
      ∃ result, text = result.map CompletionResult.text ∧
        system.threads[index]? = some ⟨call, .suspended (.enter
          (.commitResult session.id requestId user result))⟩) →
    step settings userOf system (.run index readings) = some next →
    next.threads[index]? =
      some ⟨call, .suspended (.commit ptr requestId user text)⟩
  commit : ∀ (index : Nat) (readings : Readings) (call : Call)
    (user : ChatMessage) (reply : StdString),
    system.threads[index]? =
      some ⟨call, .suspended (.commit ptr requestId user (.ok reply))⟩ →
    ∃ next updated,
      step settings userOf system (.run index readings) = some next ∧
        next.store.heap[ptr]? = some updated ∧
        updated.history =
          trimHistoryToFit (session.history ++ [user, .assistant reply])
            settings.maxHistoryMessages ∧
        updated.activeRequest = none

theorem lookupSession_found {store : Store} {sessionId : StdString}
    {ptr : SessionPtr} {following : SessionPtr → Section} {outcome : Outcome}
    (executed : lookupSession store sessionId following = some outcome)
    (entry : store.sessions.lookup sessionId = some ptr) :
    outcome.progress = .suspended (following ptr) := by
  unfold lookupSession at executed
  split at executed
  · contradiction
  simp only [entry] at executed
  exact Option.some.inj executed ▸ rfl

theorem turn_kept {ptr : SessionPtr} {requestId : RequestId}
    {session : SessionState} (found : system.store.heap[ptr]? = some session)
    (stored : Stored system.store ptr session)
    (active : session.activeRequest = some requestId) :
    TurnKept settings userOf system ptr requestId session where
  found := found
  stored := stored
  active := active
  lookup := by
    intro index readings call user text next waiting stepped
    obtain ⟨_, _, outcome, at_, executed, rfl⟩ := step_run stepped
    obtain ⟨bound, _⟩ := List.getElem?_eq_some_iff.mp at_
    rcases waiting with waiting | ⟨result, rfl, waiting⟩
    · cases waiting.symm.trans at_
      simp [bound, lookupSession_found executed stored.1]
    · cases waiting.symm.trans at_
      simp [bound, lookupSession_found executed stored.1]
  commit := by
    intro index readings call user reply waiting
    simp only [step, waiting, Section.exec, found, Option.map_some,
      Option.some.injEq]
    refine ⟨_, _, rfl, Store.put_heap_same _ found,
      commitLocked_ok_history active stored.2, ?_⟩
    simp [commitLocked, active, touchSession]

/-- A session that is busy is neither reaped nor closed, and a reaped one never
becomes busy again. -/
theorem expiry_keeps_turns
    (reached : Reachable (step settings userOf) (initialSystem basePrompt)
      system) :
    (∀ ptr requestId result, .began ptr requestId result ∈ system.log →
      .deleted ptr ∉ system.log → .stopped ∉ system.log →
      ¬ Finished system.log ptr requestId →
      ∃ session, TurnKept settings userOf system ptr requestId session) ∧
    ∀ ptr, .expired ptr ∈ system.log → ∀ label next,
      step settings userOf system label = some next →
      ∀ requestId result, .began ptr requestId result ∈ next.log →
        .began ptr requestId result ∈ system.log := by
  have consistent := (reachable_invariant reached).consistent
  have exists_ {event : Event} {ptr : SessionPtr} (member : event ∈ system.log)
      (changes : event.changes = some ptr) :
      ∃ session, system.store.heap[ptr]? = some session :=
    ⟨_, List.getElem?_eq_getElem (consistent.changed event member ptr changes)⟩
  constructor
  · intro ptr requestId result began notDeleted notStopped unfinished
    obtain ⟨session, found⟩ := exists_ began rfl
    have invariant := consistent.invariant ptr session found
    have active : session.activeRequest = some requestId :=
      (invariant.unfinished requestId result began).resolve_left unfinished
    have stored : Stored system.store ptr session := by
      rcases consistent.stored ptr session found with stored | dropped
      · exact stored
      · rcases dropped with expired | deleted | stopped
        · exact absurd ((invariant.reaped expired).2.symm.trans active) (by simp)
        · exact absurd deleted notDeleted
        · exact absurd stopped notStopped
    exact ⟨session, turn_kept found stored active⟩
  · intro ptr expired label next stepped requestId result began
    cases label with
    | call call =>
        obtain ⟨_, rfl⟩ := step_call stepped
        exact began
    | run index readings =>
        obtain ⟨_, _, outcome, _, executed, rfl⟩ := step_run stepped
        rcases List.mem_append.mp began with earlier | later
        · exact earlier
        · obtain ⟨session, found⟩ := exists_ expired rfl
          have reaped := (consistent.invariant ptr session found).reaped expired
          have opened := (exec_effect executed).begins_open later found
          exact absurd (reaped.1.symm.trans opened) (by simp)

theorem expiry_keeps_turns_sample :
    ∃ session,
      TurnKept sampleSettings sampleUser (sampleRun sampleSchedule) 0 7
        session := by
  have reached : Reachable (step sampleSettings sampleUser) (initialSystem [])
      (sampleRun sampleSchedule) :=
    ⟨sampleSchedule, rfl⟩
  have log : (sampleRun sampleSchedule).log =
      [.created 0 [] none, .began 0 7 ⟨[sampleUser 7], 1, sampleUser 7⟩] := rfl
  refine (expiry_keeps_turns reached).1 0 7
    ⟨[sampleUser 7], 1, sampleUser 7⟩ ?_ ?_ ?_ ?_
  · rw [log]
    decide
  · rw [log]
    decide
  · rw [log]
    decide
  · simp [log, Finished]

end ZooKeeperServer.SessionStore
