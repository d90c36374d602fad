import ZooKeeperServer.SessionStore.Invariants

namespace ZooKeeperServer.SessionStore

/-! The store's operations executed one at a time. -/

/-- The clock readings of one call, in the order it takes them. -/
structure Clock where
  first : Int
  second : Int
  third : Int
  deriving DecidableEq

/-- `sessions_.find`, followed to the session. -/
def Store.find (store : Store) (sessionId : StdString) :
    Option (SessionPtr × SessionState) :=
  (store.sessions.lookup sessionId).bind fun ptr =>
    store.heap[ptr]?.map fun session => (ptr, session)

def reapExpiredSessions (clock : Clock) (store : Store) : Store :=
  if store.stopping then store
  else reapExpiredSessionsLocked clock.first store

def createSession (settings : Settings) (clock : Clock)
    (request : SessionCreateRequest) (store : Store) :
    Store × ApiResult SessionSummary :=
  match validateCreate settings request with
  | .error error => (store, .error error)
  | .ok () =>
      if store.stopping then (store, .error stoppingError)
      else
        let reaped := reapExpiredSessionsLocked clock.first store
        if capacityReached settings reaped then (reaped, .error capacityError)
        else
          (emplaceSession settings clock.first request reaped,
            .ok (snapshotSession
              (freshSession settings clock.first request reaped)))

def getSession (settings : Settings) (clock : Clock) (sessionId : StdString)
    (store : Store) : Store × ApiResult SessionSummary :=
  if !settings.config.enabled then (store, .error disabledError)
  else
    let reaped := reapExpiredSessionsLocked clock.first store
    match reaped.find sessionId with
    | none => (reaped, .error (unknownSessionError sessionId))
    | some (_, session) => (reaped, .ok (snapshotSession session))

def deleteSession (settings : Settings) (sessionId : StdString)
    (store : Store) : Store × ApiResult Unit :=
  if !settings.config.enabled then (store, .error disabledError)
  else
    match store.find sessionId with
    | none => (store, .error (unknownSessionError sessionId))
    | some (ptr, session) =>
        ({ store.put ptr (closeSession session) with
            sessions := store.sessions.erase sessionId }, .ok ())

def setBaseSystemPrompt (prompt : StdString) (store : Store) : Store :=
  { store with baseSystemPrompt := prompt }

def beginRequest (settings : Settings) (clock : Clock)
    (request : ChatCompletionRequest) (requestId : RequestId) (store : Store) :
    Store × ApiResult BeginRequestResult :=
  match validateBegin settings request with
  | .error error => (store, .error error)
  | .ok (sessionId, user) =>
      let reaped := reapExpiredSessionsLocked clock.first store
      match reaped.find sessionId with
      | none => (reaped, .error (unknownSessionError sessionId))
      | some (ptr, session) =>
          let (updated, result) := beginLocked settings clock.second
            clock.third sessionId user requestId session
          (reaped.put ptr updated, result)

def commitResponseText (settings : Settings) (clock : Clock)
    (sessionId : StdString) (requestId : RequestId) (user : ChatMessage)
    (result : RuntimeResult StdString) (store : Store) : Store :=
  match store.find sessionId with
  | none => store
  | some (ptr, session) =>
      store.put ptr
        (commitLocked settings clock.first requestId user result session)

def commitResult (settings : Settings) (clock : Clock) (sessionId : StdString)
    (requestId : RequestId) (user : ChatMessage)
    (result : RuntimeResult CompletionResult) (store : Store) : Store :=
  commitResponseText settings clock sessionId requestId user
    (result.map CompletionResult.text) store

def releaseRequest (settings : Settings) (clock : Clock)
    (sessionId : StdString) (requestId : RequestId) (store : Store) : Store :=
  match store.find sessionId with
  | none => store
  | some (ptr, session) =>
      store.put ptr (releaseLocked settings clock.first requestId session)

def closePtr (store : Store) (ptr : SessionPtr) : Store :=
  match store.heap[ptr]? with
  | none => store
  | some session => store.put ptr (closeSession session)

def stop (store : Store) : Store :=
  if store.stopping then store
  else
    (store.sessions.entries.map Sigma.snd).foldl closePtr
      { store with stopping := true, sessions := ∅ }

def perform (settings : Settings) (clock : Clock) (store : Store) :
    Call → Store × Output
  | .reapExpiredSessions => (reapExpiredSessions clock store, .done)
  | .createSession request =>
      (createSession settings clock request store).map id .summary
  | .getSession sessionId =>
      (getSession settings clock sessionId store).map id .summary
  | .deleteSession sessionId =>
      (deleteSession settings sessionId store).map id .deleted
  | .setBaseSystemPrompt prompt => (setBaseSystemPrompt prompt store, .done)
  | .beginRequest request requestId =>
      (beginRequest settings clock request requestId store).map id .begun
  | .commitResult sessionId requestId user result =>
      (commitResult settings clock sessionId requestId user result store, .done)
  | .commitResponseText sessionId requestId user result =>
      (commitResponseText settings clock sessionId requestId user result store,
        .done)
  | .releaseRequest sessionId requestId =>
      (releaseRequest settings clock sessionId requestId store, .done)
  | .stop => (stop store, .done)

section Find

variable {store : Store} {sessionId : StdString} {ptr : SessionPtr}
  {session : SessionState}

theorem find_eq_some :
    store.find sessionId = some (ptr, session) ↔
      store.sessions.lookup sessionId = some ptr ∧
        store.heap[ptr]? = some session := by
  simp only [Store.find, Option.bind_eq_some_iff, Option.map_eq_some_iff,
    Prod.mk.injEq]
  constructor
  · rintro ⟨other, entry, held, found, rfl, rfl⟩
    exact ⟨entry, found⟩
  · rintro ⟨entry, found⟩
    exact ⟨ptr, entry, session, found, rfl, rfl⟩

theorem WellFormed.lookup_find (formed : WellFormed store) :
    store.sessions.lookup sessionId = (store.find sessionId).map Prod.fst := by
  cases entry : store.sessions.lookup sessionId with
  | none => simp [Store.find, entry]
  | some ptr =>
      obtain ⟨session, found, _⟩ := formed.mapped _ _ entry
      simp [Store.find, entry, found]

theorem WellFormed.find_eq_none (formed : WellFormed store) :
    store.find sessionId = none ↔ store.sessions.lookup sessionId = none := by
  rw [formed.lookup_find, Option.map_eq_none_iff]

theorem WellFormed.find_id (formed : WellFormed store)
    (found : store.find sessionId = some (ptr, session)) :
    session.id = sessionId := by
  obtain ⟨entry, at_⟩ := find_eq_some.mp found
  obtain ⟨held, heldAt, id⟩ := formed.mapped _ _ entry
  exact Option.some.inj (at_.symm.trans heldAt) ▸ id

/-- Two names never lead to the same session. -/
theorem WellFormed.find_injective {other : StdString} {held : SessionState}
    (formed : WellFormed store)
    (found : store.find sessionId = some (ptr, session))
    (again : store.find other = some (ptr, held)) : other = sessionId := by
  have same : held = session :=
    Option.some.inj ((find_eq_some.mp again).2.symm.trans
      (find_eq_some.mp found).2)
  rw [← formed.find_id found, ← formed.find_id again, same]

theorem find_put (updated : SessionState) (sessionId : StdString)
    (found : store.heap[ptr]? = some session) :
    (store.put ptr updated).find sessionId =
      (store.find sessionId).map fun entry =>
        if entry.1 = ptr then (ptr, updated) else entry := by
  cases entry : store.sessions.lookup sessionId with
  | none => simp [Store.find, entry]
  | some other =>
      by_cases same : ptr = other
      · subst same
        simp [Store.find, entry, found, Store.put_heap_same updated found,
          -Store.put_heap]
      · have different : ¬ other = ptr := fun equal => same equal.symm
        simp only [Store.find, Store.put_sessions, entry, Option.bind_some,
          Store.put_heap_other _ _ same, Option.map_map]
        congr 1
        funext held
        simp [different]

theorem find_erase {removed : StdString} :
    ({ store with sessions := store.sessions.erase removed } : Store).find
        sessionId =
      if sessionId = removed then none else store.find sessionId := by
  by_cases same : sessionId = removed
  · subst same
    simp [Store.find]
  · simp [Store.find, same]

end Find

section Reaping

variable {now : Int} {store : Store}

theorem reapEntry_frame (now : Int) (store : Store) (entry : SessionEntry) :
    ∃ heap sessions, heap.length = store.heap.length ∧
      ∀ flag, reapEntry now { store with locked := flag } entry =
        { store with heap, sessions, locked := flag } := by
  cases found : store.heap[entry.2]? with
  | none =>
      exact ⟨store.heap, store.sessions, rfl, by simp [reapEntry, found]⟩
  | some session =>
      by_cases expired : shouldExpire now session = true
      · exact ⟨store.heap.set entry.2 (closeSession session),
          store.sessions.erase entry.1, by simp,
          by simp [reapEntry, found, expired, Store.put]⟩
      · exact ⟨store.heap, store.sessions, rfl,
          by simp [reapEntry, found, expired]⟩

theorem reap_frame (now : Int) (rest : List SessionEntry) (store : Store) :
    ∃ heap sessions, heap.length = store.heap.length ∧
      ∀ flag, rest.foldl (reapEntry now) { store with locked := flag } =
        { store with heap, sessions, locked := flag } := by
  induction rest generalizing store with
  | nil => exact ⟨store.heap, store.sessions, rfl, fun _ => rfl⟩
  | cons entry rest ih =>
      obtain ⟨heap, sessions, length, reaped⟩ := reapEntry_frame now store entry
      obtain ⟨after, kept, afterLength, finished⟩ :=
        ih { store with heap, sessions }
      refine ⟨after, kept, afterLength.trans length, fun flag => ?_⟩
      rw [List.foldl_cons, reaped]
      exact finished flag

theorem reapEntry_find (now : Int) {entry : SessionEntry}
    {session : SessionState} (found : store.find entry.1 = some (entry.2, session))
    (formed : WellFormed store) (sessionId : StdString) :
    (reapEntry now store entry).find sessionId =
      if sessionId = entry.1 then
        (store.find sessionId).filter fun held => !shouldExpire now held.2
      else store.find sessionId := by
  have at_ := (find_eq_some.mp found).2
  by_cases expired : shouldExpire now session = true
  · have reaped : reapEntry now store entry =
        { store.put entry.2 (closeSession session) with
          sessions := (store.put entry.2 (closeSession session)).sessions.erase
            entry.1 } := by
      simp [reapEntry, at_, expired]
    rw [reaped, find_erase, find_put _ _ at_]
    by_cases same : sessionId = entry.1
    · rw [if_pos same, if_pos same, same, found, Option.filter_some,
        expired]
      rfl
    · rw [if_neg same, if_neg same]
      cases held : store.find sessionId with
      | none => rfl
      | some other =>
          obtain ⟨ptr, otherSession⟩ := other
          have different : ptr ≠ entry.2 := by
            rintro rfl
            exact same (formed.find_injective found held)
          simp [different]
  · have reaped : reapEntry now store entry = store := by
      simp [reapEntry, at_, expired]
    rw [reaped]
    split
    · rename_i same
      rw [same, found, Option.filter_some]
      simp [expired]
    · rfl

theorem reapEntry_wellFormed {entry : SessionEntry} {session : SessionState}
    (settings : Settings)
    (found : store.heap[entry.2]? = some session)
    (formed : WellFormed store) : WellFormed (reapEntry now store entry) := by
  have executed : (Section.reaping now [entry] .finish).exec settings ⟨0, 0, []⟩
      store = some
        { store := reapEntry now store entry
          progress := .suspended (.reaping now [] .finish)
          events := if shouldExpire now session then [.expired entry.2]
            else [] } := by
    simp [Section.exec, found]
  exact (exec_effect executed).wellFormed formed

theorem reap_find (settings : Settings) (now : Int)
    {rest : List SessionEntry} (nodup : (rest.map Sigma.fst).Nodup)
    (entries : ∀ entry ∈ rest, ∃ session,
      store.find entry.1 = some (entry.2, session))
    (formed : WellFormed store) (sessionId : StdString) :
    WellFormed (rest.foldl (reapEntry now) store) ∧
      (rest.foldl (reapEntry now) store).find sessionId =
        if sessionId ∈ rest.map Sigma.fst then
          (store.find sessionId).filter fun held => !shouldExpire now held.2
        else store.find sessionId := by
  induction rest generalizing store with
  | nil => simp [formed]
  | cons entry rest ih =>
      obtain ⟨session, found⟩ := entries entry (by simp)
      have first := reapEntry_find now found formed
      rw [List.map_cons, List.nodup_cons] at nodup
      have others : ∀ other ∈ rest, ∃ session,
          (reapEntry now store entry).find other.1 =
            some (other.2, session) := by
        intro other member
        obtain ⟨held, heldAt⟩ := entries other (by simp [member])
        have different : other.1 ≠ entry.1 := fun same =>
          nodup.1 (same ▸ List.mem_map_of_mem member)
        exact ⟨held, by rw [first, if_neg different, heldAt]⟩
      obtain ⟨kept, finds⟩ := ih nodup.2 others
        (reapEntry_wellFormed settings (find_eq_some.mp found).2 formed)
      refine ⟨kept, ?_⟩
      rw [List.foldl_cons, finds, first]
      by_cases here : sessionId = entry.1
      · have absent : sessionId ∉ rest.map Sigma.fst := here ▸ nodup.1
        rw [if_neg absent, if_pos here, if_pos (by simp [here])]
      · simp only [List.map_cons, List.mem_cons, here, false_or, if_false]

theorem WellFormed.entry_find (formed : WellFormed store) :
    ∀ entry ∈ store.sessions.entries, ∃ session,
      store.find entry.1 = some (entry.2, session) := by
  intro entry member
  have found := AList.mem_lookup_iff.mpr member
  obtain ⟨session, at_, _⟩ := formed.mapped entry.1 entry.2 found
  exact ⟨session, find_eq_some.mpr ⟨found, at_⟩⟩

theorem WellFormed.reaps (settings : Settings) (now : Int)
    (formed : WellFormed store) :
    WellFormed (reapExpiredSessionsLocked now store) := by
  have reaped := reap_find settings now store.sessions.nodupKeys
    formed.entry_find formed []
  exact reaped.1

/-- Reaping takes out exactly the sessions that should expire. -/
theorem WellFormed.reaped_find (settings : Settings) (now : Int)
    (formed : WellFormed store) (sessionId : StdString) :
    (reapExpiredSessionsLocked now store).find sessionId =
      (store.find sessionId).filter fun held => !shouldExpire now held.2 := by
  have reaped := reap_find settings now store.sessions.nodupKeys
    formed.entry_find formed sessionId
  refine reaped.2.trans ?_
  split
  · rfl
  · rename_i absent
    have missing : store.find sessionId = none := by
      rw [formed.find_eq_none, AList.lookup_eq_none]
      exact absent
    simp [missing]

end Reaping

theorem reapExpiredSessionsLocked_frame (now : Int) (store : Store) :
    ∃ heap sessions, heap.length = store.heap.length ∧
      reapExpiredSessionsLocked now store = { store with heap, sessions } := by
  obtain ⟨heap, sessions, length, reaped⟩ :=
    reap_frame now store.sessions.entries store
  exact ⟨heap, sessions, length, reaped store.locked⟩

theorem unlock_reaped {store : Store} (now : Int)
    (unlocked : store.locked = false) :
    { reapExpiredSessionsLocked now store with locked := false } =
      reapExpiredSessionsLocked now store := by
  obtain ⟨heap, sessions, _, reaped⟩ :=
    reapExpiredSessionsLocked_frame now store
  rw [reaped, ← unlocked]

/-- The sections of one call, run to the end with nothing in between. -/
inductive RunsAlone (settings : Settings) :
    Store → Progress → Store → Output → Prop
  | returned (store : Store) (output : Output) :
      RunsAlone settings store (.returned output) store output
  | critical {store final : Store} {current : Section} {outcome : Outcome}
      {output : Output} (readings : Readings)
      (executed : current.exec settings readings store = some outcome)
      (rest : RunsAlone settings outcome.store outcome.progress final output) :
      RunsAlone settings store (.suspended current) final output

section Alone

variable {settings : Settings} {clock : Clock} {store final : Store}
  {progress : Progress} {output : Output}

theorem RunsAlone.wellFormed
    (alone : RunsAlone settings store progress final output)
    (formed : WellFormed store) : WellFormed final := by
  induction alone with
  | returned store output => exact formed
  | critical readings executed rest ih =>
      exact ih ((exec_effect executed).wellFormed formed)

theorem RunsAlone.finishes {current : Section} (readings : Readings)
    (executed : current.exec settings readings store = returns final output) :
    RunsAlone settings store (.suspended current) final output :=
  .critical readings executed (.returned _ _)

theorem RunsAlone.proceeds {current following : Section} {next : Store}
    (readings : Readings)
    (executed : current.exec settings readings store = suspends next following)
    (rest : RunsAlone settings next (.suspended following) final output) :
    RunsAlone settings store (.suspended current) final output :=
  .critical readings executed rest

theorem runs_reaping {now : Int} {rest : List SessionEntry} {after : AfterReap}
    (good : ∀ entry ∈ rest, entry.2 < store.heap.length)
    (continues : RunsAlone settings (rest.foldl (reapEntry now) store)
      (.suspended (.reaping now [] after)) final output) :
    RunsAlone settings store (.suspended (.reaping now rest after)) final
      output := by
  induction rest generalizing store with
  | nil => exact continues
  | cons entry rest ih =>
      have bound := good entry (by simp)
      obtain ⟨heap, sessions, length, reaped⟩ := reapEntry_frame now store entry
      have reads : store.heap[entry.2]? = some store.heap[entry.2] :=
        List.getElem?_eq_getElem bound
      refine .critical ⟨0, 0, []⟩ (Option.map_eq_some_iff.mpr ⟨_, reads, rfl⟩)
        (ih ?_ continues)
      intro other member
      have frame := reaped store.locked
      rw [frame, length]
      exact good other (by simp [member])

theorem runs_startReaping {current : Section} (clock : Clock)
    (after : AfterReap) (formed : WellFormed store) (unlocked : store.locked = false)
    (enters : ∀ readings, current.exec settings readings store =
      startReaping readings store after)
    (continues : RunsAlone settings
      { reapExpiredSessionsLocked clock.first store with locked := true }
      (.suspended (.reaping clock.first [] after)) final output) :
    RunsAlone settings store (.suspended current) final output := by
  obtain ⟨heap, sessions, _, reaped⟩ :=
    reap_frame clock.first store.sessions.entries store
  have loop : store.sessions.entries.foldl (reapEntry clock.first)
      { store with locked := true } =
      { reapExpiredSessionsLocked clock.first store with locked := true } := by
    have free := reaped store.locked
    rw [reaped true, reapExpiredSessionsLocked, free]
  have good : ∀ entry ∈ store.sessions.entries,
      entry.2 < store.heap.length := by
    intro entry member
    obtain ⟨session, found⟩ := formed.entry_find entry member
    exact (List.getElem?_eq_some_iff.mp (find_eq_some.mp found).2).1
  have looping : RunsAlone settings { store with locked := true }
      (.suspended (.reaping clock.first store.sessions.entries after)) final
      output :=
    runs_reaping good (loop ▸ continues)
  have entered : current.exec settings ⟨clock.first, 0, []⟩ store =
      suspends { store with locked := true }
        (.reaping clock.first store.sessions.entries after) := by
    rw [enters, startReaping, if_neg (by simp [unlocked]), SessionMap.inOrder_nil]
  exact .proceeds _ entered looping

theorem runs_lookupSession {current : Section} {sessionId : StdString}
    {following : SessionPtr → Section} (unlocked : store.locked = false)
    (enters : ∀ readings, current.exec settings readings store =
      lookupSession store sessionId following)
    (absent : store.sessions.lookup sessionId = none →
      final = store ∧ output = .done)
    (present : ∀ ptr, store.sessions.lookup sessionId = some ptr →
      RunsAlone settings store (.suspended (following ptr)) final output) :
    RunsAlone settings store (.suspended current) final output := by
  cases entry : store.sessions.lookup sessionId with
  | none =>
      obtain ⟨rfl, rfl⟩ := absent entry
      have entered : current.exec settings ⟨0, 0, []⟩ final = returns final .done := by
        rw [enters, lookupSession, if_neg (by simp [unlocked]), entry]
      exact .finishes _ entered
  | some ptr =>
      have entered : current.exec settings ⟨0, 0, []⟩ store =
          suspends store (following ptr) := by
        rw [enters, lookupSession, if_neg (by simp [unlocked]), entry]
      exact .proceeds _ entered (present ptr entry)

theorem runs_commit {current : Section} {sessionId : StdString}
    {requestId : RequestId} {user : ChatMessage}
    {text : RuntimeResult StdString} (formed : WellFormed store)
    (unlocked : store.locked = false)
    (enters : ∀ readings, current.exec settings readings store =
      lookupSession store sessionId (.commit · requestId user text)) :
    RunsAlone settings store (.suspended current)
      (commitResponseText settings clock sessionId requestId user text store)
      .done := by
  refine runs_lookupSession unlocked enters ?_ ?_
  · intro absent
    rw [commitResponseText, formed.find_eq_none.mpr absent]
    exact ⟨rfl, rfl⟩
  · intro ptr entry
    obtain ⟨session, found, _⟩ := formed.mapped _ _ entry
    rw [commitResponseText, find_eq_some.mpr ⟨entry, found⟩]
    exact .critical ⟨clock.first, 0, []⟩
      (Option.map_eq_some_iff.mpr ⟨session, found, rfl⟩) (.returned _ _)

theorem runs_closeStopped {rest : List SessionPtr}
    (good : ∀ ptr ∈ rest, ptr < store.heap.length) :
    RunsAlone settings store (.suspended (.closeStopped rest))
      (rest.foldl closePtr store) .done := by
  induction rest generalizing store with
  | nil => exact .finishes ⟨0, 0, []⟩ rfl
  | cons ptr rest ih =>
      have bound : ptr < store.heap.length := good ptr (by simp)
      have found : store.heap[ptr]? = some store.heap[ptr] :=
        List.getElem?_eq_getElem bound
      have closed : closePtr store ptr =
          store.put ptr (closeSession store.heap[ptr]) := by
        simp only [closePtr, found]
      refine .critical ⟨0, 0, []⟩ (Option.map_eq_some_iff.mpr ⟨_, found, rfl⟩) ?_
      rw [List.foldl_cons, closed]
      exact ih fun other member => by simpa using good other (by simp [member])

theorem createSession_runsAlone {request : SessionCreateRequest}
    (formed : WellFormed store) (unlocked : store.locked = false) :
    RunsAlone settings store (.suspended (.enter (.createSession request)))
      (createSession settings clock request store).1
      (.summary (createSession settings clock request store).2) := by
  cases valid : validateCreate settings request with
  | error error =>
      have result : createSession settings clock request store =
          (store, .error error) := by
        simp only [createSession, valid]
      rw [result]
      refine .finishes ⟨0, 0, []⟩ ?_
      simp only [Section.exec, enterCall, valid]
  | ok accepted =>
      cases stopping : store.stopping with
      | true =>
          have result : createSession settings clock request store =
              (store, .error stoppingError) := by
            simp only [createSession, valid, stopping, if_true]
          rw [result]
          refine .finishes ⟨0, 0, []⟩ ?_
          simp [Section.exec, enterCall, valid, stopping, unlocked]
      | false =>
          refine runs_startReaping clock (.create request) formed unlocked
            (fun readings => by simp [Section.exec, enterCall, valid, stopping])
            ?_
          have same := unlock_reaped clock.first unlocked
          by_cases full : capacityReached settings
              (reapExpiredSessionsLocked clock.first store) = true
          · have result : createSession settings clock request store =
                (reapExpiredSessionsLocked clock.first store,
                  .error capacityError) := by
              simp [createSession, valid, stopping, full]
            rw [result]
            refine .finishes ⟨0, 0, []⟩ ?_
            simp only [Section.exec, leaveReaping, same, full, if_true]
          · have result : createSession settings clock request store =
                (emplaceSession settings clock.first request
                    (reapExpiredSessionsLocked clock.first store),
                  .ok (snapshotSession (freshSession settings clock.first
                    request (reapExpiredSessionsLocked clock.first store)))) := by
              simp [createSession, valid, stopping, full]
            rw [result]
            refine .critical ⟨0, 0, []⟩
              (by simp only [Section.exec, leaveReaping, same, full, if_false,
                Bool.false_eq_true]; rfl) ?_
            refine .finishes ⟨0, 0, []⟩ ?_
            simp [Section.exec, emplaceSession, returns]

theorem getSession_runsAlone {sessionId : StdString}
    (formed : WellFormed store) (unlocked : store.locked = false) :
    RunsAlone settings store (.suspended (.enter (.getSession sessionId)))
      (getSession settings clock sessionId store).1
      (.summary (getSession settings clock sessionId store).2) := by
  cases enabled : settings.config.enabled with
  | false =>
      have result : getSession settings clock sessionId store =
          (store, .error disabledError) := by
        simp [getSession, enabled]
      rw [result]
      refine .finishes ⟨0, 0, []⟩ ?_
      simp [Section.exec, enterCall, enabled]
  | true =>
      refine runs_startReaping clock (.get sessionId) formed unlocked
        (fun readings => by simp [Section.exec, enterCall, enabled]) ?_
      have same := unlock_reaped clock.first unlocked
      have reaped := formed.reaps settings clock.first
      cases found : (reapExpiredSessionsLocked clock.first store).find
          sessionId with
      | none =>
          have result : getSession settings clock sessionId store =
              (reapExpiredSessionsLocked clock.first store,
                .error (unknownSessionError sessionId)) := by
            simp [getSession, enabled, found]
          rw [result]
          refine .finishes ⟨0, 0, []⟩ ?_
          simp only [Section.exec, leaveReaping, same,
            reaped.find_eq_none.mp found]
      | some entry =>
          obtain ⟨ptr, session⟩ := entry
          have result : getSession settings clock sessionId store =
              (reapExpiredSessionsLocked clock.first store,
                .ok (snapshotSession session)) := by
            simp [getSession, enabled, found]
          obtain ⟨entry, at_⟩ := find_eq_some.mp found
          rw [result]
          refine .proceeds ⟨0, 0, []⟩
            (by simp only [Section.exec, leaveReaping, same, entry]; rfl) ?_
          refine .finishes ⟨0, 0, []⟩ ?_
          simp [Section.exec, at_, returns]

theorem deleteSession_runsAlone {sessionId : StdString}
    (formed : WellFormed store) (unlocked : store.locked = false) :
    RunsAlone settings store (.suspended (.enter (.deleteSession sessionId)))
      (deleteSession settings sessionId store).1
      (.deleted (deleteSession settings sessionId store).2) := by
  cases enabled : settings.config.enabled with
  | false =>
      have result : deleteSession settings sessionId store =
          (store, .error disabledError) := by
        simp [deleteSession, enabled]
      rw [result]
      refine .finishes ⟨0, 0, []⟩ ?_
      simp [Section.exec, enterCall, enabled]
  | true =>
      cases found : store.find sessionId with
      | none =>
          have result : deleteSession settings sessionId store =
              (store, .error (unknownSessionError sessionId)) := by
            simp [deleteSession, enabled, found]
          rw [result]
          refine .finishes ⟨0, 0, []⟩ ?_
          simp [Section.exec, enterCall, enabled, unlocked,
            formed.find_eq_none.mp found]
      | some entry =>
          obtain ⟨ptr, session⟩ := entry
          obtain ⟨entry, at_⟩ := find_eq_some.mp found
          have result : deleteSession settings sessionId store =
              ({ store.put ptr (closeSession session) with
                sessions := store.sessions.erase sessionId }, .ok ()) := by
            simp [deleteSession, enabled, found]
          rw [result]
          refine .critical ⟨0, 0, []⟩
            (by simp [Section.exec, enterCall, enabled, unlocked, entry]; rfl) ?_
          refine .finishes ⟨0, 0, []⟩ ?_
          simp [Section.exec, at_, returns, Store.put, unlocked]

theorem beginRequest_runsAlone {request : ChatCompletionRequest}
    {requestId : RequestId} (formed : WellFormed store)
    (unlocked : store.locked = false) :
    RunsAlone settings store
      (.suspended (.enter (.beginRequest request requestId)))
      (beginRequest settings clock request requestId store).1
      (.begun (beginRequest settings clock request requestId store).2) := by
  cases valid : validateBegin settings request with
  | error error =>
      have result : beginRequest settings clock request requestId store =
          (store, .error error) := by
        simp only [beginRequest, valid]
      rw [result]
      refine .finishes ⟨0, 0, []⟩ ?_
      simp only [Section.exec, enterCall, valid]
  | ok accepted =>
      obtain ⟨sessionId, user⟩ := accepted
      refine runs_startReaping clock (.begin sessionId user requestId) formed
        unlocked (fun readings => by simp [Section.exec, enterCall, valid]) ?_
      have same := unlock_reaped clock.first unlocked
      have reaped := formed.reaps settings clock.first
      cases found : (reapExpiredSessionsLocked clock.first store).find
          sessionId with
      | none =>
          have result : beginRequest settings clock request requestId store =
              (reapExpiredSessionsLocked clock.first store,
                .error (unknownSessionError sessionId)) := by
            simp [beginRequest, valid, found]
          rw [result]
          refine .finishes ⟨0, 0, []⟩ ?_
          simp only [Section.exec, leaveReaping, same,
            reaped.find_eq_none.mp found]
      | some entry =>
          obtain ⟨ptr, session⟩ := entry
          obtain ⟨entry, at_⟩ := find_eq_some.mp found
          have result : beginRequest settings clock request requestId store =
              ((reapExpiredSessionsLocked clock.first store).put ptr
                  (beginLocked settings clock.second clock.third sessionId user
                    requestId session).1,
                (beginLocked settings clock.second clock.third sessionId user
                  requestId session).2) := by
            simp [beginRequest, valid, found]
          rw [result]
          refine .proceeds ⟨0, 0, []⟩
            (by simp only [Section.exec, leaveReaping, same, entry]; rfl) ?_
          exact .critical ⟨clock.second, clock.third, []⟩
            (Option.map_eq_some_iff.mpr ⟨session, at_, rfl⟩) (.returned _ _)

theorem releaseRequest_runsAlone {sessionId : StdString}
    {requestId : RequestId} (formed : WellFormed store)
    (unlocked : store.locked = false) :
    RunsAlone settings store
      (.suspended (.enter (.releaseRequest sessionId requestId)))
      (releaseRequest settings clock sessionId requestId store) .done := by
  refine runs_lookupSession unlocked (fun readings => rfl) ?_ ?_
  · intro absent
    rw [releaseRequest, formed.find_eq_none.mpr absent]
    exact ⟨rfl, rfl⟩
  · intro ptr entry
    obtain ⟨session, found, _⟩ := formed.mapped _ _ entry
    rw [releaseRequest, find_eq_some.mpr ⟨entry, found⟩]
    exact .critical ⟨clock.first, 0, []⟩
      (Option.map_eq_some_iff.mpr ⟨session, found, rfl⟩) (.returned _ _)

theorem stop_runsAlone (formed : WellFormed store)
    (unlocked : store.locked = false) :
    RunsAlone settings store (.suspended (.enter .stop)) (stop store) .done := by
  cases stopping : store.stopping with
  | true =>
      have result : stop store = store := by simp [stop, stopping]
      rw [result]
      refine .finishes ⟨0, 0, []⟩ ?_
      simp [Section.exec, enterCall, unlocked, stopping]
  | false =>
      have good : ∀ ptr ∈ store.sessions.entries.map Sigma.snd,
          ptr < store.heap.length := by
        intro ptr member
        obtain ⟨entry, entryMember, rfl⟩ := List.mem_map.mp member
        obtain ⟨session, found⟩ := formed.entry_find entry entryMember
        exact (List.getElem?_eq_some_iff.mp (find_eq_some.mp found).2).1
      have result : stop store =
          (store.sessions.entries.map Sigma.snd).foldl closePtr
            { store with stopping := true, sessions := ∅ } := by
        simp [stop, stopping]
      have looping : RunsAlone settings
          { store with stopping := true, sessions := ∅ }
          (.suspended (.closeStopped (store.sessions.entries.map Sigma.snd)))
          (stop store) .done :=
        result ▸ runs_closeStopped good
      have entered : (Section.enter .stop).exec settings ⟨0, 0, []⟩ store = some
          { store := { store with stopping := true, sessions := ∅ }
            progress := .suspended
              (.closeStopped (store.sessions.entries.map Sigma.snd))
            events := [.stopped] } := by
        rw [Section.exec, enterCall, if_neg (by simp [unlocked]),
          if_neg (by simp [stopping]), SessionMap.inOrder_nil]
      exact .critical _ entered looping

/-- Executing a call at one go is one way of interleaving its sections. -/
theorem perform_runsAlone (settings : Settings) (clock : Clock)
    (formed : WellFormed store) (unlocked : store.locked = false)
    (call : Call) :
    RunsAlone settings store (.suspended (.enter call))
      (perform settings clock store call).1
      (perform settings clock store call).2 := by
  cases call with
  | reapExpiredSessions =>
      cases stopping : store.stopping with
      | true =>
          have result : reapExpiredSessions clock store = store := by
            simp [reapExpiredSessions, stopping]
          simp only [perform, result]
          refine .finishes ⟨0, 0, []⟩ ?_
          simp [Section.exec, enterCall, stopping, unlocked]
      | false =>
          have result : reapExpiredSessions clock store =
              reapExpiredSessionsLocked clock.first store := by
            simp [reapExpiredSessions, stopping]
          simp only [perform, result]
          refine runs_startReaping clock .finish formed unlocked
            (fun readings => by simp [Section.exec, enterCall, stopping]) ?_
          refine .finishes ⟨0, 0, []⟩ ?_
          simp only [Section.exec, leaveReaping,
            unlock_reaped clock.first unlocked]
  | createSession request => exact createSession_runsAlone formed unlocked
  | getSession sessionId => exact getSession_runsAlone formed unlocked
  | deleteSession sessionId => exact deleteSession_runsAlone formed unlocked
  | setBaseSystemPrompt prompt =>
      refine .finishes ⟨0, 0, []⟩ ?_
      simp [Section.exec, enterCall, unlocked, perform, setBaseSystemPrompt]
  | beginRequest request requestId => exact beginRequest_runsAlone formed unlocked
  | commitResult sessionId requestId user result =>
      exact runs_commit formed unlocked fun readings => rfl
  | commitResponseText sessionId requestId user result =>
      exact runs_commit formed unlocked fun readings => rfl
  | releaseRequest sessionId requestId =>
      exact releaseRequest_runsAlone formed unlocked
  | stop => exact stop_runsAlone formed unlocked

theorem closePtr_frame (rest : List SessionPtr) (store : Store) :
    ∃ heap, heap.length = store.heap.length ∧
      rest.foldl closePtr store = { store with heap } := by
  induction rest generalizing store with
  | nil => exact ⟨store.heap, rfl, rfl⟩
  | cons ptr rest ih =>
      obtain ⟨heap, length, closed⟩ : ∃ heap, heap.length = store.heap.length ∧
          closePtr store ptr = { store with heap } := by
        unfold closePtr
        split
        · exact ⟨store.heap, rfl, rfl⟩
        · exact ⟨_, List.length_set, rfl⟩
      obtain ⟨after, afterLength, finished⟩ := ih { store with heap }
      refine ⟨after, afterLength.trans length, ?_⟩
      rw [List.foldl_cons, closed, finished]

theorem perform_locked (settings : Settings) (clock : Clock) (store : Store)
    (call : Call) : (perform settings clock store call).1.locked = store.locked := by
  have reaped : (reapExpiredSessionsLocked clock.first store).locked =
      store.locked := by
    obtain ⟨heap, sessions, _, same⟩ :=
      reapExpiredSessionsLocked_frame clock.first store
    rw [same]
  have committed (sessionId : StdString) (requestId : RequestId)
      (user : ChatMessage) (text : RuntimeResult StdString) :
      (commitResponseText settings clock sessionId requestId user text
        store).locked = store.locked := by
    unfold commitResponseText
    split
    · rfl
    · rfl
  cases call with
  | reapExpiredSessions =>
      simp only [perform, reapExpiredSessions]
      split
      · rfl
      · exact reaped
  | createSession request =>
      simp only [perform, createSession, Prod.map_fst, id]
      split
      · rfl
      split
      · rfl
      split
      · exact reaped
      · exact reaped
  | getSession sessionId =>
      simp only [perform, getSession, Prod.map_fst, id]
      split
      · rfl
      split
      · exact reaped
      · exact reaped
  | deleteSession sessionId =>
      simp only [perform, deleteSession, Prod.map_fst, id]
      split
      · rfl
      split
      · rfl
      · rfl
  | setBaseSystemPrompt prompt => rfl
  | beginRequest request requestId =>
      simp only [perform, beginRequest, Prod.map_fst, id]
      split
      · rfl
      split
      · exact reaped
      · exact reaped
  | commitResult sessionId requestId user result =>
      exact committed _ _ _ _
  | commitResponseText sessionId requestId user result =>
      exact committed _ _ _ _
  | releaseRequest sessionId requestId =>
      simp only [perform, releaseRequest]
      split
      · rfl
      · rfl
  | stop =>
      simp only [perform, stop]
      split
      · rfl
      · obtain ⟨heap, _, closed⟩ := closePtr_frame
          (store.sessions.entries.map Sigma.snd)
          { store with stopping := true, sessions := ∅ }
        rw [closed]

end Alone

end ZooKeeperServer.SessionStore
