import ZooKeeperServer.SessionStore.Sequential

namespace ZooKeeperServer.SessionStore

/-! Two stores run the same operations, one of them with additional reaping.
They differ in the sessions that have expired meanwhile, and in nothing a caller
can see. -/

structure TimedCall where
  clock : Clock
  call : Call

/-- The readings never go back, within a call and from one call to the next. -/
def NonDecreasing : Int → List TimedCall → Prop
  | _, [] => True
  | now, timed :: rest =>
      now ≤ timed.clock.first ∧ timed.clock.first ≤ timed.clock.second ∧
        timed.clock.second ≤ timed.clock.third ∧
        NonDecreasing timed.clock.third rest

/-- What a call shows: its result, and for a commit the history it leaves to the
session whose active request it ends. -/
inductive Observation
  | summary (result : ApiResult SessionSummary)
  | begun (result : ApiResult BeginRequestResult)
  | committed (history : Option (List ChatMessage))

def committedHistory (sessionId : StdString) (requestId : RequestId)
    (before after : Store) : Option (List ChatMessage) :=
  (before.find sessionId).bind fun entry =>
    if entry.2.activeRequest = some requestId then
      (after.find sessionId).map fun updated => updated.2.history
    else none

def observe (settings : Settings) (clock : Clock) (store : Store) :
    Call → Option Observation
  | .createSession request =>
      some (.summary (createSession settings clock request store).2)
  | .getSession sessionId =>
      some (.summary (getSession settings clock sessionId store).2)
  | .beginRequest request requestId =>
      some (.begun (beginRequest settings clock request requestId store).2)
  | .commitResult sessionId requestId user result =>
      some (.committed (committedHistory sessionId requestId store
        (commitResult settings clock sessionId requestId user result store)))
  | .commitResponseText sessionId requestId user result =>
      some (.committed (committedHistory sessionId requestId store
        (commitResponseText settings clock sessionId requestId user result
          store)))
  | _ => none

def transcript (settings : Settings) :
    Store → List TimedCall → List Observation
  | _, [] => []
  | store, timed :: rest =>
      (observe settings timed.clock store timed.call).toList ++
        transcript settings
          (perform settings timed.clock store timed.call).1 rest

def Call.isReap : Call → Bool
  | .reapExpiredSessions => true
  | _ => false

theorem isReap_eq_true {call : Call} (reaps : call.isReap = true) :
    call = .reapExpiredSessions := by
  cases call with
  | reapExpiredSessions => rfl
  | _ => contradiction

structure Agree (full reaped : Store) : Prop where
  prompt : full.baseSystemPrompt = reaped.baseSystemPrompt
  counter : full.nextSessionId = reaped.nextSessionId
  length : full.heap.length = reaped.heap.length
  stopping : full.stopping = reaped.stopping
  find : ∀ sessionId, full.find sessionId = reaped.find sessionId

/-- The first store may hold further sessions, all of which have expired. -/
structure Behind (now : Int) (full reaped : Store) : Prop where
  prompt : full.baseSystemPrompt = reaped.baseSystemPrompt
  counter : full.nextSessionId = reaped.nextSessionId
  length : full.heap.length = reaped.heap.length
  stopping : full.stopping = reaped.stopping
  kept : ∀ sessionId entry, reaped.find sessionId = some entry →
    full.find sessionId = some entry
  expired : ∀ sessionId entry, full.find sessionId = some entry →
    reaped.find sessionId = none → shouldExpire now entry.2

section Simulation

variable {settings : Settings} {clock : Clock} {now : Int}
  {full reaped : Store}

theorem shouldExpire_mono {later : Int} {session : SessionState}
    (expired : shouldExpire now session) (order : now ≤ later) :
    shouldExpire later session := by
  simp only [shouldExpire, Bool.and_eq_true, decide_eq_true_eq] at expired ⊢
  exact ⟨expired.1, expired.2.trans order⟩

theorem shouldExpire_idle {session : SessionState}
    (expired : shouldExpire now session) : session.activeRequest = none := by
  simp only [shouldExpire, Bool.and_eq_true, Option.isNone_iff_eq_none]
    at expired
  exact expired.1.2

theorem Behind.mono {later : Int} (behind : Behind now full reaped)
    (order : now ≤ later) : Behind later full reaped :=
  { behind with
    expired := fun sessionId entry found absent =>
      shouldExpire_mono (behind.expired sessionId entry found absent) order }

theorem Agree.behind (agree : Agree full reaped) : Behind now full reaped :=
  { agree with
    kept := fun sessionId entry found => by rw [agree.find, found]
    expired := fun sessionId entry found absent => by
      rw [agree.find, absent] at found
      contradiction }

theorem reaped_fields (now : Int) (store : Store) :
    (reapExpiredSessionsLocked now store).baseSystemPrompt =
        store.baseSystemPrompt ∧
      (reapExpiredSessionsLocked now store).nextSessionId =
        store.nextSessionId ∧
      (reapExpiredSessionsLocked now store).heap.length = store.heap.length ∧
      (reapExpiredSessionsLocked now store).stopping = store.stopping := by
  obtain ⟨heap, sessions, length, same⟩ :=
    reapExpiredSessionsLocked_frame now store
  rw [same]
  exact ⟨rfl, rfl, length, rfl⟩

theorem Behind.reap_more (behind : Behind now full reaped)
    (settings : Settings) (formed : WellFormed reaped) :
    Behind now full (reapExpiredSessionsLocked now reaped) := by
  obtain ⟨prompt, counter, length, stopping⟩ := reaped_fields now reaped
  have finds := formed.reaped_find settings now
  refine
    { prompt := behind.prompt.trans prompt.symm
      counter := behind.counter.trans counter.symm
      length := behind.length.trans length.symm
      stopping := behind.stopping.trans stopping.symm
      kept := fun sessionId entry found => ?_
      expired := fun sessionId entry found absent => ?_ }
  · rw [finds, Option.filter_eq_some_iff] at found
    exact behind.kept sessionId entry found.1
  · cases held : reaped.find sessionId with
    | none => exact behind.expired sessionId entry found held
    | some other =>
        have same : entry = other :=
          Option.some.inj (found.symm.trans (behind.kept sessionId other held))
        rw [finds, held, Option.filter_eq_none_iff] at absent
        simpa [same] using absent other rfl

/-- Once both stores reap, the difference is gone. -/
theorem Behind.reap_both (behind : Behind now full reaped)
    (settings : Settings) (formedFull : WellFormed full)
    (formedReaped : WellFormed reaped) :
    Agree (reapExpiredSessionsLocked now full)
      (reapExpiredSessionsLocked now reaped) := by
  obtain ⟨prompt, counter, length, stopping⟩ := reaped_fields now full
  obtain ⟨promptR, counterR, lengthR, stoppingR⟩ := reaped_fields now reaped
  refine
    { prompt := by rw [prompt, promptR, behind.prompt]
      counter := by rw [counter, counterR, behind.counter]
      length := by rw [length, lengthR, behind.length]
      stopping := by rw [stopping, stoppingR, behind.stopping]
      find := fun sessionId => ?_ }
  rw [formedFull.reaped_find settings, formedReaped.reaped_find settings]
  cases held : reaped.find sessionId with
  | some entry => rw [behind.kept sessionId entry held]
  | none =>
      cases found : full.find sessionId with
      | none => rfl
      | some entry =>
          have gone := behind.expired sessionId entry found held
          simp [gone]

theorem Agree.size (agree : Agree full reaped) (formedFull : WellFormed full)
    (formedReaped : WellFormed reaped) :
    full.sessions.entries.length = reaped.sessions.entries.length := by
  have lookups (sessionId : StdString) :
      full.sessions.lookup sessionId = reaped.sessions.lookup sessionId := by
    rw [formedFull.lookup_find, formedReaped.lookup_find, agree.find]
  refine (List.lookup_ext full.sessions.nodupKeys reaped.sessions.nodupKeys
    fun sessionId ptr => ?_).length_eq
  exact iff_of_eq (congrArg (ptr ∈ ·) (lookups sessionId))

theorem Agree.fresh (agree : Agree full reaped)
    (request : SessionCreateRequest) :
    freshSession settings now request full =
      freshSession settings now request reaped := by
  simp only [freshSession, agree.prompt, agree.counter]

theorem emplace_find {store : Store} {request : SessionCreateRequest}
    (formed : WellFormed store) (sessionId : StdString) :
    (emplaceSession settings now request store).find sessionId =
      if sessionId = (freshSession settings now request store).id then
        some (store.heap.length, freshSession settings now request store)
      else store.find sessionId := by
  have free : (freshSession settings now request store).id ∉ store.sessions :=
    formed.fresh_name
  simp only [emplaceSession, Store.find, if_neg free]
  by_cases same : sessionId = (freshSession settings now request store).id
  · rw [if_pos same, same, AList.lookup_insert]
    simp
  · rw [if_neg same, AList.lookup_insert_ne same]
    cases entry : store.sessions.lookup sessionId with
    | none => rfl
    | some ptr =>
        obtain ⟨session, found, _⟩ := formed.mapped _ _ entry
        obtain ⟨bound, _⟩ := List.getElem?_eq_some_iff.mp found
        simp [List.getElem?_append_left bound]

theorem Agree.emplace (agree : Agree full reaped)
    (request : SessionCreateRequest) (formedFull : WellFormed full)
    (formedReaped : WellFormed reaped) :
    Agree (emplaceSession settings now request full)
      (emplaceSession settings now request reaped) where
  prompt := agree.prompt
  counter := by simp only [emplaceSession, agree.counter]
  length := by
    simp only [emplaceSession, List.length_append, List.length_singleton,
      agree.length]
  stopping := agree.stopping
  find := by
    intro sessionId
    rw [emplace_find formedFull, emplace_find formedReaped, agree.fresh,
      agree.find, agree.length]

theorem Behind.put {sessionId : StdString} {ptr : SessionPtr}
    {session : SessionState} (behind : Behind now full reaped)
    (formed : WellFormed full) (updated : SessionState)
    (held : reaped.find sessionId = some (ptr, session)) :
    Behind now (full.put ptr updated) (reaped.put ptr updated) := by
  have shared := behind.kept _ _ held
  have findsFull := fun other =>
    find_put updated other (find_eq_some.mp shared).2
  have findsReaped := fun other =>
    find_put updated other (find_eq_some.mp held).2
  refine
    { prompt := behind.prompt
      counter := behind.counter
      length := by simp [behind.length]
      stopping := behind.stopping
      kept := fun other entry found => ?_
      expired := fun other entry found absent => ?_ }
  · rw [findsReaped, Option.map_eq_some_iff] at found
    obtain ⟨before, beforeAt, rfl⟩ := found
    rw [findsFull, behind.kept other before beforeAt, Option.map_some]
  · rw [findsReaped, Option.map_eq_none_iff] at absent
    rw [findsFull, Option.map_eq_some_iff] at found
    obtain ⟨⟨target, before⟩, beforeAt, rfl⟩ := found
    have different : target ≠ ptr := by
      rintro rfl
      rw [formed.find_injective shared beforeAt, held] at absent
      contradiction
    simpa [different] using behind.expired other _ beforeAt absent

theorem Behind.erase (behind : Behind now full reaped)
    (removed : StdString) :
    Behind now { full with sessions := full.sessions.erase removed }
      { reaped with sessions := reaped.sessions.erase removed } := by
  refine
    { behind with
      kept := fun sessionId entry found => ?_
      expired := fun sessionId entry found absent => ?_ }
  · rw [find_erase] at found ⊢
    split
    · rename_i same
      rw [if_pos same] at found
      contradiction
    · rename_i different
      rw [if_neg different] at found
      exact behind.kept sessionId entry found
  · rw [find_erase] at found absent
    by_cases same : sessionId = removed
    · rw [if_pos same] at found
      contradiction
    · rw [if_neg same] at found absent
      exact behind.expired sessionId entry found absent

theorem Behind.drop {sessionId : StdString} {ptr : SessionPtr}
    {session : SessionState} (behind : Behind now full reaped)
    (formed : WellFormed full) (updated : SessionState)
    (found : full.find sessionId = some (ptr, session))
    (absent : reaped.find sessionId = none) :
    Behind now { full.put ptr updated with
      sessions := full.sessions.erase sessionId } reaped := by
  have finds (other : StdString) :
      ({ full.put ptr updated with
          sessions := full.sessions.erase sessionId } : Store).find other =
        if other = sessionId then none else full.find other := by
    refine find_erase.trans ?_
    rw [find_put updated other (find_eq_some.mp found).2]
    by_cases same : other = sessionId
    · rw [if_pos same, if_pos same]
    · rw [if_neg same, if_neg same]
      cases held : full.find other with
      | none => rfl
      | some entry =>
          obtain ⟨target, before⟩ := entry
          have different : target ≠ ptr := by
            rintro rfl
            exact same (formed.find_injective found held)
          simp [different]
  refine
    { behind with
      length := by simp [behind.length]
      kept := fun other entry held => ?_
      expired := fun other entry held gone => ?_ }
  · have different : other ≠ sessionId := by
      rintro rfl
      rw [absent] at held
      contradiction
    rw [finds, if_neg different]
    exact behind.kept other entry held
  · rw [finds] at held
    split at held
    · contradiction
    · exact behind.expired other entry held gone

theorem Agree.put {sessionId : StdString} {ptr : SessionPtr}
    {session : SessionState} (agree : Agree full reaped)
    (updated : SessionState)
    (held : reaped.find sessionId = some (ptr, session)) :
    Agree (full.put ptr updated) (reaped.put ptr updated) := by
  have shared := (agree.find sessionId).trans held
  refine
    { agree with
      length := by simp [agree.length]
      find := fun other => ?_ }
  rw [find_put updated other (find_eq_some.mp shared).2,
    find_put updated other (find_eq_some.mp held).2, agree.find]

theorem createSession_simulated (settings : Settings)
    (request : SessionCreateRequest) (behind : Behind clock.first full reaped)
    (formedFull : WellFormed full) (formedReaped : WellFormed reaped) :
    (createSession settings clock request full).2 =
        (createSession settings clock request reaped).2 ∧
      Behind clock.first (createSession settings clock request full).1
        (createSession settings clock request reaped).1 := by
  unfold createSession
  cases validateCreate settings request with
  | error error => exact ⟨rfl, behind⟩
  | ok accepted =>
      simp only [behind.stopping]
      cases reaped.stopping with
      | true => exact ⟨rfl, behind⟩
      | false =>
          have agree := behind.reap_both settings formedFull formedReaped
          have reapedFull := formedFull.reaps settings clock.first
          have reapedReaped := formedReaped.reaps settings clock.first
          have capacity : capacityReached settings
                (reapExpiredSessionsLocked clock.first full) =
              capacityReached settings
                (reapExpiredSessionsLocked clock.first reaped) := by
            simp only [capacityReached, agree.size reapedFull reapedReaped]
          simp only [Bool.false_eq_true, if_false, capacity, agree.fresh]
          cases capacityReached settings
              (reapExpiredSessionsLocked clock.first reaped) with
          | true => exact ⟨rfl, agree.behind⟩
          | false =>
              exact ⟨rfl, (agree.emplace request reapedFull reapedReaped).behind⟩

theorem getSession_simulated (settings : Settings) (sessionId : StdString)
    (behind : Behind clock.first full reaped) (formedFull : WellFormed full)
    (formedReaped : WellFormed reaped) :
    (getSession settings clock sessionId full).2 =
        (getSession settings clock sessionId reaped).2 ∧
      Behind clock.first (getSession settings clock sessionId full).1
        (getSession settings clock sessionId reaped).1 := by
  have agree := behind.reap_both settings formedFull formedReaped
  unfold getSession
  split
  · exact ⟨rfl, behind⟩
  · simp only [agree.find]
    split
    · exact ⟨rfl, agree.behind⟩
    · exact ⟨rfl, agree.behind⟩

theorem beginRequest_simulated (settings : Settings)
    (request : ChatCompletionRequest) (requestId : RequestId)
    (behind : Behind clock.first full reaped) (formedFull : WellFormed full)
    (formedReaped : WellFormed reaped) :
    (beginRequest settings clock request requestId full).2 =
        (beginRequest settings clock request requestId reaped).2 ∧
      Behind clock.first (beginRequest settings clock request requestId full).1
        (beginRequest settings clock request requestId reaped).1 := by
  have agree := behind.reap_both settings formedFull formedReaped
  unfold beginRequest
  cases validateBegin settings request with
  | error error => exact ⟨rfl, behind⟩
  | ok accepted =>
      simp only [agree.find]
      split
      · exact ⟨rfl, agree.behind⟩
      · rename_i held
        exact ⟨rfl, (agree.put _ held).behind⟩

theorem deleteSession_simulated {sessionId : StdString}
    (behind : Behind now full reaped) (formed : WellFormed full) :
    Behind now (deleteSession settings sessionId full).1
      (deleteSession settings sessionId reaped).1 := by
  unfold deleteSession
  split
  · exact behind
  · cases held : reaped.find sessionId with
    | some entry =>
        obtain ⟨ptr, session⟩ := entry
        simp only [behind.kept _ _ held]
        exact (behind.put formed _ held).erase sessionId
    | none =>
        cases found : full.find sessionId with
        | none => exact behind
        | some entry =>
            obtain ⟨ptr, session⟩ := entry
            exact behind.drop formed _ found held

theorem commitResponseText_simulated {sessionId : StdString}
    {requestId : RequestId} {user : ChatMessage}
    {text : RuntimeResult StdString} (behind : Behind now full reaped)
    (formed : WellFormed full) :
    committedHistory sessionId requestId full
        (commitResponseText settings clock sessionId requestId user text full) =
      committedHistory sessionId requestId reaped
        (commitResponseText settings clock sessionId requestId user text
          reaped) ∧
    Behind now
      (commitResponseText settings clock sessionId requestId user text full)
      (commitResponseText settings clock sessionId requestId user text
        reaped) := by
  unfold commitResponseText committedHistory
  cases held : reaped.find sessionId with
  | some entry =>
      obtain ⟨ptr, session⟩ := entry
      have shared := behind.kept _ _ held
      refine ⟨?_, ?_⟩
      · simp only [shared, Option.bind_some,
          find_put _ _ (find_eq_some.mp shared).2,
          find_put _ _ (find_eq_some.mp held).2, held]
      · simp only [shared]
        exact behind.put formed _ held
  | none =>
      cases found : full.find sessionId with
      | none => exact ⟨rfl, behind⟩
      | some entry =>
          obtain ⟨ptr, session⟩ := entry
          have idle : session.activeRequest = none :=
            shouldExpire_idle (behind.expired _ _ found held)
          have unchanged : commitLocked settings clock.first requestId user text
              session = session :=
            commitLocked_stale (by simp [idle])
          refine ⟨by simp [idle], ?_⟩
          simp only [unchanged, Store.put_self (find_eq_some.mp found).2]
          exact behind

theorem releaseRequest_simulated {sessionId : StdString}
    {requestId : RequestId} (behind : Behind now full reaped)
    (formed : WellFormed full) :
    Behind now (releaseRequest settings clock sessionId requestId full)
      (releaseRequest settings clock sessionId requestId reaped) := by
  unfold releaseRequest
  cases held : reaped.find sessionId with
  | some entry =>
      obtain ⟨ptr, session⟩ := entry
      simp only [behind.kept _ _ held]
      exact behind.put formed _ held
  | none =>
      cases found : full.find sessionId with
      | none => exact behind
      | some entry =>
          obtain ⟨ptr, session⟩ := entry
          have idle : session.activeRequest = none :=
            shouldExpire_idle (behind.expired _ _ found held)
          have unchanged : releaseLocked settings clock.first requestId session =
              session :=
            releaseLocked_stale (by simp [idle])
          simp only [unchanged, Store.put_self (find_eq_some.mp found).2]
          exact behind

theorem stop_simulated (behind : Behind now full reaped) :
    Behind now (stop full) (stop reaped) := by
  unfold stop
  rw [behind.stopping]
  split
  · exact behind
  · obtain ⟨heap, length, same⟩ := closePtr_frame
      (full.sessions.entries.map Sigma.snd)
      { full with stopping := true, sessions := ∅ }
    obtain ⟨heapR, lengthR, sameR⟩ := closePtr_frame
      (reaped.sessions.entries.map Sigma.snd)
      { reaped with stopping := true, sessions := ∅ }
    rw [same, sameR]
    exact
      { prompt := behind.prompt
        counter := behind.counter
        length := by simp only [length, lengthR, behind.length]
        stopping := rfl
        kept := fun sessionId entry found => by simp [Store.find] at found
        expired := fun sessionId entry found => by simp [Store.find] at found }

theorem reapExpiredSessions_simulated
    (behind : Behind clock.first full reaped) (settings : Settings)
    (formed : WellFormed reaped) :
    Behind clock.first full (reapExpiredSessions clock reaped) := by
  unfold reapExpiredSessions
  split
  · exact behind
  · exact behind.reap_more settings formed

/-- A call other than the reaper's shows the same in both stores. -/
theorem call_simulated (settings : Settings) {call : Call}
    (behind : Behind clock.first full reaped)
    (formedFull : WellFormed full) (formedReaped : WellFormed reaped)
    (visible : call.isReap = false) :
    observe settings clock full call = observe settings clock reaped call ∧
      Behind clock.first (perform settings clock full call).1
        (perform settings clock reaped call).1 := by
  cases call with
  | reapExpiredSessions => contradiction
  | createSession request =>
      obtain ⟨result, after⟩ := createSession_simulated settings request behind
        formedFull formedReaped
      exact ⟨by rw [observe, observe, result], after⟩
  | getSession sessionId =>
      obtain ⟨result, after⟩ := getSession_simulated settings sessionId behind
        formedFull formedReaped
      exact ⟨by rw [observe, observe, result], after⟩
  | deleteSession sessionId =>
      exact ⟨rfl, deleteSession_simulated behind formedFull⟩
  | setBaseSystemPrompt prompt => exact ⟨rfl, { behind with prompt := rfl }⟩
  | beginRequest request requestId =>
      obtain ⟨result, after⟩ := beginRequest_simulated settings request requestId
        behind formedFull formedReaped
      exact ⟨by rw [observe, observe, result], after⟩
  | commitResult sessionId requestId user result =>
      obtain ⟨history, after⟩ := commitResponseText_simulated behind formedFull
      exact ⟨congrArg (some ∘ Observation.committed) history, after⟩
  | commitResponseText sessionId requestId user result =>
      obtain ⟨history, after⟩ := commitResponseText_simulated behind formedFull
      exact ⟨congrArg (some ∘ Observation.committed) history, after⟩
  | releaseRequest sessionId requestId =>
      exact ⟨rfl, releaseRequest_simulated behind formedFull⟩
  | stop => exact ⟨rfl, stop_simulated behind⟩

theorem perform_wellFormed (settings : Settings) (clock : Clock)
    {store : Store} (call : Call) (formed : WellFormed store)
    (unlocked : store.locked = false) :
    WellFormed (perform settings clock store call).1 ∧
      (perform settings clock store call).1.locked = false :=
  ⟨(perform_runsAlone settings clock formed unlocked call).wellFormed formed,
    (perform_locked settings clock store call).trans unlocked⟩

/-- The run with the additional reaping keeps pace with the run without. -/
theorem transcript_simulated {operations : List TimedCall}
    (ordered : NonDecreasing now operations)
    (behind : Behind now full reaped)
    (formedFull : WellFormed full) (unlockedFull : full.locked = false)
    (formedReaped : WellFormed reaped)
    (unlockedReaped : reaped.locked = false) :
    transcript settings reaped operations =
      transcript settings full
        (operations.filter fun timed => !timed.call.isReap) := by
  induction operations generalizing now full reaped with
  | nil => rfl
  | cons timed rest ih =>
      obtain ⟨start, second, third, restOrdered⟩ := ordered
      have entering := behind.mono start
      have finish : timed.clock.first ≤ timed.clock.third := second.trans third
      obtain ⟨nextReaped, nextUnlockedReaped⟩ :=
        perform_wellFormed settings timed.clock timed.call formedReaped
          unlockedReaped
      cases reaps : timed.call.isReap with
      | true =>
          have reaper := isReap_eq_true reaps
          have after : Behind timed.clock.first full
              (perform settings timed.clock reaped timed.call).1 := by
            rw [reaper]
            exact reapExpiredSessions_simulated entering settings formedReaped
          have silent :
              observe settings timed.clock reaped timed.call = none := by
            rw [reaper]
            rfl
          rw [List.filter_cons_of_neg (by simp [reaps]), transcript, silent]
          exact ih restOrdered (after.mono finish) formedFull unlockedFull
            nextReaped nextUnlockedReaped
      | false =>
          obtain ⟨nextFull, nextUnlockedFull⟩ :=
            perform_wellFormed settings timed.clock timed.call formedFull
              unlockedFull
          obtain ⟨shown, after⟩ :=
            call_simulated settings entering formedFull formedReaped reaps
          rw [List.filter_cons_of_pos (by simp [reaps]), transcript, transcript,
            shown, ih restOrdered (after.mono finish) nextFull nextUnlockedFull
              nextReaped nextUnlockedReaped]

end Simulation

/-- Whatever additional reaping is inserted, the callers see the same. -/
theorem results_independent_of_reaper (settings : Settings)
    (basePrompt : StdString) {start : Int} {operations : List TimedCall}
    (ordered : NonDecreasing start operations) :
    transcript settings (initialStore basePrompt) operations =
      transcript settings (initialStore basePrompt)
        (operations.filter fun timed => !timed.call.isReap) := by
  have agree : Agree (initialStore basePrompt) (initialStore basePrompt) :=
    ⟨rfl, rfl, rfl, rfl, fun _ => rfl⟩
  have formed := initialStore_wellFormed basePrompt
  exact transcript_simulated ordered agree.behind formed rfl formed rfl

/-- A session of one second is looked for again after two, with and without a
reaping in between. -/
theorem results_independent_of_reaper_sample :
    let settings : Settings := ⟨literal "m", ⟨1, 1⟩, 2⟩
    let created : TimedCall := ⟨⟨0, 0, 0⟩, .createSession ⟨literal "m", none⟩⟩
    let sought : TimedCall := ⟨⟨2, 2, 2⟩, .getSession (literal "sess-1")⟩
    transcript settings (initialStore [])
        [created, ⟨⟨1, 1, 1⟩, .reapExpiredSessions⟩, sought] =
      transcript settings (initialStore []) [created, sought] := by
  intro settings created sought
  have ordered : NonDecreasing 0
      [created, ⟨⟨1, 1, 1⟩, .reapExpiredSessions⟩, sought] := by
    simp [NonDecreasing, created, sought]
  exact results_independent_of_reaper settings [] ordered

end ZooKeeperServer.SessionStore
