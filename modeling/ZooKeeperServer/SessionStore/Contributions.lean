import ZooKeeperServer.SessionStore.Settling

namespace ZooKeeperServer.SessionStore

open Transition

/-! What each section of a call adds to the order of the directory's operations. -/

/-- An open session that somebody has taken out of the map. -/
structure Stray (store : Store) (ptr : SessionPtr) (session : SessionState) :
    Prop where
  found : store.heap[ptr]? = some session
  opened : session.closed = false
  unmapped : Unmapped store ptr

inductive Adds (settings : Settings) (store : Store) (call : Call) :
    Section → Outcome → Prop
  | nothing {current : Section} {outcome : Outcome}
      (stays : current.expiring store = none)
      (same : outcome.progress.settled outcome.store.heap =
        current.settled store.heap)
      (similar : Similar store outcome.store)
      (strays : ∀ ptr session, Stray outcome.store ptr session →
        Stray store ptr session) :
      Adds settings store call current outcome
  | expiry {current : Section} {outcome : Outcome} {sessionId : StdString}
      {ptr : SessionPtr} {session : SessionState}
      (expires : current.expiring store = some sessionId)
      (found : store.find sessionId = some (ptr, session))
      (idle : session.activeRequest = none)
      (same : outcome.progress.settled outcome.store.heap =
        current.settled store.heap)
      (represents : ∀ directory, Represents store directory →
        Represents outcome.store
          { directory with
            conversations := directory.conversations.erase sessionId })
      (strays : ∀ ptr session, Stray outcome.store ptr session →
        Stray store ptr session) :
      Adds settings store call current outcome
  | answer {current : Section} {outcome : Outcome}
      (stays : current.expiring store = none)
      (unsettled : current.settled store.heap = none)
      (found : current.strayed store = none)
      (answers : ∀ directory, Represents store directory →
        Represents outcome.store (directory.perform settings (.call call)).1 ∧
          outcome.progress.settled outcome.store.heap =
            some (directory.perform settings (.call call)).2)
      (strays : ∀ ptr session, Stray outcome.store ptr session →
        Stray store ptr session ∨
          (ptr ∈ outcome.progress.closing ∧
            store.find session.id = some (ptr, session) ∧
            ∀ directory, Represents store directory →
              Clears settings session.id directory (.call call))) :
      Adds settings store call current outcome
  | late {current : Section} {outcome : Outcome} {ptr : SessionPtr}
      {session updated : SessionState} {output : Output}
      (stays : current.expiring store = none)
      (unsettled : current.settled store.heap = none)
      (pursues : Pursues settings call session.id ptr current)
      (strayed : current.strayed store = some ptr)
      (stray : Stray store ptr session)
      (written : outcome.store = store.put ptr updated)
      (returned : outcome.progress = .returned output)
      (acted : Acted settings current session updated output) :
      Adds settings store call current outcome

section Adding

variable {settings : Settings} {readings : Readings} {store next : Store}
  {call : Call} {current : Section} {outcome : Outcome} {ptr : SessionPtr}
  {session : SessionState} {sessionId : StdString}

theorem Stray.same (stray : Stray next ptr session)
    (heap : next.heap = store.heap) (sessions : next.sessions = store.sessions) :
    Stray store ptr session where
  found := heap ▸ stray.found
  opened := stray.opened
  unmapped := by
    intro sessionId
    rw [← sessions]
    exact stray.unmapped sessionId

theorem adds_waiting (stays : current.expiring store = none)
    (same : outcome.progress.settled outcome.store.heap =
      current.settled store.heap)
    (flag : ∃ locked, outcome.store = { store with locked }) :
    Adds settings store call current outcome := by
  obtain ⟨locked, kept⟩ := flag
  refine .nothing stays same ?_ fun ptr session stray => ?_
  · rw [kept]
    exact ⟨rfl, rfl, rfl, fun _ => rfl⟩
  · exact stray.same (by rw [kept]) (by rw [kept])

theorem adds_returned {output : Output} (stays : current.expiring store = none)
    (unsettled : current.settled store.heap = none)
    (found : current.strayed store = none)
    (flag : ∃ locked, outcome.store = { store with locked })
    (returned : outcome.progress = .returned output)
    (answers : ∀ directory, Represents store directory →
      directory.perform settings (.call call) = (directory, output.timeless)) :
    Adds settings store call current outcome := by
  obtain ⟨locked, kept⟩ := flag
  refine .answer stays unsettled found (fun directory represents => ?_)
    fun ptr session stray => .inl (stray.same (by rw [kept]) (by rw [kept]))
  rw [answers directory represents, kept, returned]
  exact ⟨⟨represents.basePrompt, represents.nextNumber, represents.stopping,
    represents.conversations⟩, rfl⟩

theorem returns_adds {output : Output}
    (executed : returns store output = some outcome)
    (answers : ∀ directory, Represents store directory →
      directory.perform settings (.call call) = (directory, output.timeless)) :
    Adds settings store call (.enter call) outcome := by
  cases Option.some.inj executed
  exact adds_returned rfl rfl rfl ⟨_, rfl⟩ rfl answers

theorem startReaping_adds {after : AfterReap}
    (executed : startReaping readings store after = some outcome) :
    Adds settings store call (.enter call) outcome := by
  unfold startReaping at executed
  split at executed
  · contradiction
  · cases Option.some.inj executed
    exact adds_waiting rfl rfl ⟨true, rfl⟩

theorem lookupSession_adds {following : SessionPtr → Section}
    {act : Conversation → Conversation × Reply} (formed : WellFormed store)
    (executed : lookupSession store sessionId following = some outcome)
    (unsettled : ∀ ptr, (following ptr).settled store.heap = none)
    (performs : ∀ directory : Directory,
      directory.perform settings (.call call) =
        directory.update sessionId act .done) :
    Adds settings store call (.enter call) outcome := by
  unfold lookupSession at executed
  split at executed
  · contradiction
  split at executed
  · rename_i missing
    refine returns_adds executed fun directory represents => ?_
    have absent := represents.missing (formed.find_eq_none.mpr missing)
    rw [performs, Directory.update, absent]
    rfl
  · rename_i ptr found
    cases Option.some.inj executed
    exact adds_waiting rfl (unsettled ptr) ⟨_, rfl⟩

theorem deleteSession_adds (formed : WellFormed store)
    (enabled : settings.config.enabled = true)
    (entry : store.sessions.lookup sessionId = some ptr) :
    Adds settings store (.deleteSession sessionId)
      (.enter (.deleteSession sessionId))
      { store := { store with sessions := store.sessions.erase sessionId }
        progress := .suspended (.closeDeleted ptr)
        events := [.deleted ptr] } := by
  obtain ⟨held, heldAt, named⟩ := formed.mapped _ _ entry
  have at_ : store.find sessionId = some (ptr, held) :=
    find_eq_some.mpr ⟨entry, heldAt⟩
  refine .answer rfl rfl rfl (fun directory represents => ?_)
    fun target session stray => ?_
  · have present : sessionId ∈ directory.conversations :=
      represents.mem.mpr (by rw [at_]; rfl)
    have performed : directory.perform settings
        (.call (.deleteSession sessionId)) =
        ({ directory with
            conversations := directory.conversations.erase sessionId },
          .deleted (.ok ())) := by
      simp [Directory.perform, Directory.delete, enabled, present]
    rw [performed]
    exact ⟨represents.erase sessionId, rfl⟩
  · by_cases same : target = ptr
    · subst same
      obtain rfl := Option.some.inj (heldAt.symm.trans stray.found)
      subst named
      exact .inr ⟨List.mem_singleton_self _, at_, fun _ _ => ⟨rfl, enabled⟩⟩
    · refine .inl ⟨stray.found, stray.opened, fun other found => ?_⟩
      refine stray.unmapped other ?_
      rw [AList.lookup_erase_ne, found]
      rintro rfl
      exact same (Option.some.inj (found.symm.trans entry))

theorem stop_adds {entries : List SessionEntry} (formed : WellFormed store)
    (running : store.stopping = false)
    (all : entries.Perm store.sessions.entries) :
    Adds settings store .stop (.enter .stop)
      { store := { store with stopping := true, sessions := ∅ }
        progress := .suspended (.closeStopped (entries.map Sigma.snd))
        events := [.stopped] } := by
  refine .answer rfl rfl rfl (fun directory represents => ?_)
    fun ptr session stray => ?_
  · have still : directory.stopping = false := represents.stopping.trans running
    have performed : directory.perform settings (.call .stop) =
        ({ directory with stopping := true, conversations := ∅ }, .done) := by
      simp [Directory.perform, Directory.stop, still]
    rw [performed]
    exact ⟨⟨represents.basePrompt, represents.nextNumber, rfl, fun _ => rfl⟩,
      rfl⟩
  · by_cases entry : store.sessions.lookup session.id = some ptr
    · refine .inr ⟨?_, find_eq_some.mpr ⟨entry, stray.found⟩,
        fun directory represents => represents.stopping.trans running⟩
      exact List.mem_map.mpr ⟨⟨session.id, ptr⟩,
        all.mem_iff.mpr (AList.mem_lookup_iff.mp entry), rfl⟩
    · refine .inl ⟨stray.found, stray.opened, fun other found => entry ?_⟩
      obtain ⟨held, heldAt, named⟩ := formed.mapped _ _ found
      have here : store.heap[ptr]? = some session := stray.found
      obtain rfl := Option.some.inj (heldAt.symm.trans here)
      exact named ▸ found

theorem enterCall_adds (formed : WellFormed store)
    (executed : enterCall settings readings store call = some outcome) :
    Adds settings store call (.enter call) outcome := by
  cases call with
  | reapExpiredSessions =>
      simp only [enterCall] at executed
      split at executed
      · exact returns_adds executed fun _ _ => rfl
      · exact startReaping_adds executed
  | createSession request =>
      simp only [enterCall] at executed
      split at executed
      · rename_i error refused
        refine returns_adds executed fun directory _ => ?_
        simp only [Directory.perform, Directory.create, refused]
        rfl
      · rename_i accepted
        split at executed
        · rename_i stopping
          refine returns_adds executed fun directory represents => ?_
          have stopped : directory.stopping = true := by
            rw [represents.stopping]
            exact (Bool.and_eq_true_iff.mp stopping).1
          simp only [Directory.perform, Directory.create, accepted, stopped,
            if_true]
          rfl
        · exact startReaping_adds executed
  | getSession sessionId =>
      simp only [enterCall] at executed
      split at executed
      · rename_i disabled
        refine returns_adds executed fun directory _ => ?_
        simp only [Directory.perform, Directory.get, if_pos disabled]
        rfl
      · exact startReaping_adds executed
  | deleteSession sessionId =>
      simp only [enterCall] at executed
      split at executed
      · rename_i disabled
        refine returns_adds executed fun directory _ => ?_
        simp only [Directory.perform, Directory.delete, if_pos disabled]
        rfl
      rename_i enabled
      split at executed
      · contradiction
      split at executed
      · rename_i missing
        refine returns_adds executed fun directory represents => ?_
        have absent : sessionId ∉ directory.conversations := by
          rw [represents.mem, formed.find_eq_none.mpr missing]
          simp
        simp only [Directory.perform, Directory.delete, if_neg enabled,
          if_neg absent]
        rfl
      · rename_i ptr found
        cases Option.some.inj executed
        exact deleteSession_adds formed (by simpa using enabled) found
  | setBaseSystemPrompt prompt =>
      simp only [enterCall] at executed
      split at executed
      · contradiction
      · cases Option.some.inj executed
        refine .answer rfl rfl rfl (fun directory represents => ?_)
          fun ptr session stray => .inl (stray.same rfl rfl)
        exact ⟨⟨rfl, represents.nextNumber, represents.stopping,
          represents.conversations⟩, rfl⟩
  | beginRequest request requestId =>
      simp only [enterCall] at executed
      split at executed
      · rename_i error refused
        refine returns_adds executed fun directory _ => ?_
        simp only [Directory.perform, Directory.begin, refused]
        rfl
      · exact startReaping_adds executed
  | commitResult sessionId requestId user result =>
      exact lookupSession_adds formed executed (fun _ => rfl) fun _ => rfl
  | commitResponseText sessionId requestId user result =>
      exact lookupSession_adds formed executed (fun _ => rfl) fun _ => rfl
  | releaseRequest sessionId requestId =>
      exact lookupSession_adds formed executed (fun _ => rfl) fun _ => rfl
  | stop =>
      simp only [enterCall] at executed
      split at executed
      · contradiction
      split at executed
      · rename_i stopping
        refine returns_adds executed fun directory represents => ?_
        have stopped : directory.stopping = true :=
          represents.stopping.trans stopping
        simp only [Directory.perform, Directory.stop, stopped, if_true]
        rfl
      · rename_i running
        cases Option.some.inj executed
        exact stop_adds formed (Bool.eq_false_iff.mpr running)
          (store.sessions.inOrder_perm _)

abbrev Store.unlocked (store : Store) : Store := { store with locked := false }

section Creating

variable {now : Int} {request : SessionCreateRequest}

theorem WellFormed.emplaced (formed : WellFormed store) :
    (emplaceSession settings now request store.unlocked).sessions =
      store.sessions.insert (sessionName store.nextSessionId)
        store.heap.length := by
  have fresh : (freshSession settings now request store).id ∉ store.sessions :=
    formed.fresh_name
  exact if_neg fresh

theorem emplaceSession_find (formed : WellFormed store)
    (other : StdString) :
    (emplaceSession settings now request store.unlocked).find other =
      if other = sessionName store.nextSessionId then
        some (store.heap.length, freshSession settings now request store)
      else store.find other := by
  have heap : (emplaceSession settings now request store.unlocked).heap =
      store.heap ++ [freshSession settings now request store] := rfl
  rw [Store.find, formed.emplaced, heap]
  by_cases same : other = sessionName store.nextSessionId
  · subst same
    rw [AList.lookup_insert, if_pos rfl]
    simp
  · rw [AList.lookup_insert_ne same, if_neg same, Store.find]
    cases entry : store.sessions.lookup other with
    | none => rfl
    | some ptr =>
        have bound := (formed.mapped _ _ entry).bound
        simp [List.getElem?_append_left bound]

theorem emplaceSession_represents {directory : Directory}
    (formed : WellFormed store) (represents : Represents store directory) :
    Represents (emplaceSession settings now request store.unlocked)
      { directory with
        nextNumber := directory.nextNumber + 1
        conversations :=
          directory.conversations.insert (sessionName directory.nextNumber)
            { history :=
                makeInitialHistory directory.basePrompt
                  request.systemPrompt } } where
  basePrompt := represents.basePrompt
  nextNumber := congrArg Nat.succ represents.nextNumber
  stopping := represents.stopping
  conversations := by
    intro other
    rw [emplaceSession_find formed, represents.nextNumber, represents.basePrompt]
    by_cases same : other = sessionName store.nextSessionId
    · subst same
      rw [Finmap.lookup_insert, if_pos rfl]
      rfl
    · rw [Finmap.lookup_insert_of_ne _ same, if_neg same,
        represents.conversations]

theorem emplaceSession_strays (formed : WellFormed store)
    (stray : Stray (emplaceSession settings now request store.unlocked) ptr
      session) : Stray store ptr session := by
  have unmapped := stray.unmapped
  rw [Unmapped, formed.emplaced] at unmapped
  have found : (store.heap ++ [freshSession settings now request store])[ptr]? =
      some session := stray.found
  have old : ptr ≠ store.heap.length := by
    rintro rfl
    exact unmapped _ (AList.lookup_insert _)
  obtain ⟨bound, _⟩ := List.getElem?_eq_some_iff.mp found
  rw [List.length_append, List.length_singleton] at bound
  rw [List.getElem?_append_left
    (Nat.lt_of_le_of_ne (Nat.le_of_lt_succ bound) old)] at found
  refine ⟨found, stray.opened, fun other entry => unmapped other ?_⟩
  rw [AList.lookup_insert_ne, entry]
  rintro rfl
  have fresh : (freshSession settings now request store).id ∉ store.sessions :=
    formed.fresh_name
  exact fresh (AList.lookup_isSome.mp (Option.isSome_of_mem entry))

end Creating

theorem createSession_adds {now : Int} {request : SessionCreateRequest}
    (formed : WellFormed store) (running : store.stopping = false)
    (accepted : validateCreate settings request = .ok ())
    (executed : leaveReaping settings now store (.create request) =
      some outcome) :
    Adds settings store (.createSession request)
      (.reaping now [] (.create request)) outcome := by
  have still {directory : Directory} (represents : Represents store directory) :
      ¬ directory.stopping = true := by
    simp [represents.stopping, running]
  simp only [leaveReaping] at executed
  split at executed
  · rename_i full
    cases Option.some.inj executed
    refine adds_returned rfl rfl rfl ⟨false, rfl⟩ rfl
      fun directory represents => ?_
    have reached : settings.config.maxSessions ≤
        directory.conversations.keys.card := by
      rw [represents.card formed]
      exact of_decide_eq_true full
    simp only [Directory.perform, Directory.create, accepted]
    rw [if_neg (still represents), if_pos reached]
    rfl
  · rename_i room
    cases Option.some.inj executed
    refine .answer rfl rfl rfl (fun directory represents => ?_)
      fun ptr session stray => .inl (emplaceSession_strays formed stray)
    have below : ¬ settings.config.maxSessions ≤
        directory.conversations.keys.card := by
      rw [represents.card formed]
      exact fun full => room (decide_eq_true full)
    simp only [Directory.perform, Directory.create, accepted]
    rw [if_neg (still represents), if_neg below]
    refine ⟨emplaceSession_represents formed represents, ?_⟩
    simp [Progress.settled, Section.settled, emplaceSession, freshSession,
      represents.nextNumber]

theorem leaveReaping_adds {now : Int} {after : AfterReap}
    (formed : WellFormed store)
    (modelled : ∀ (ptr : SessionPtr) session,
      store.heap[ptr]? = some session → session.model = settings.modelId)
    (running : ∀ request, after = .create request → store.stopping = false)
    (reaps : Reaps settings call after) (admitted : after.Admitted settings)
    (executed : leaveReaping settings now store after = some outcome) :
    Adds settings store call (.reaping now [] after) outcome := by
  cases reaps with
  | reap =>
      cases Option.some.inj executed
      exact adds_returned rfl rfl rfl ⟨false, rfl⟩ rfl fun _ _ => rfl
  | create => exact createSession_adds formed (running _ rfl) admitted executed
  | @get sessionId =>
      have allowed : settings.config.enabled = true := admitted
      have enabled : ¬ (!settings.config.enabled) = true := by
        simp [allowed]
      simp only [leaveReaping] at executed
      split at executed
      · rename_i missing
        cases Option.some.inj executed
        refine adds_returned rfl rfl rfl ⟨false, rfl⟩ rfl
          fun directory represents => ?_
        have absent : sessionId ∉ directory.conversations := by
          rw [represents.mem, formed.find_eq_none.mpr missing]
          simp
        simp only [Directory.perform, Directory.get, if_neg enabled,
          if_neg absent]
        rfl
      · rename_i ptr entry
        cases Option.some.inj executed
        obtain ⟨session, found, named⟩ := formed.mapped _ _ entry
        refine .answer rfl rfl rfl (fun directory represents => ?_)
          fun ptr session stray => .inl (stray.same rfl rfl)
        have present : sessionId ∈ directory.conversations := by
          rw [represents.mem, find_eq_some.mpr ⟨entry, found⟩]
          rfl
        simp only [Directory.perform, Directory.get, if_neg enabled,
          if_pos present]
        refine ⟨⟨represents.basePrompt, represents.nextNumber,
          represents.stopping, represents.conversations⟩, ?_⟩
        simp [Progress.settled, Section.settled, found, named,
          modelled ptr session found]
  | @begin request requestId sessionId user accepted =>
      simp only [leaveReaping] at executed
      split at executed
      · rename_i missing
        cases Option.some.inj executed
        refine adds_returned rfl rfl rfl ⟨false, rfl⟩ rfl
          fun directory represents => ?_
        have absent := represents.missing (formed.find_eq_none.mpr missing)
        simp only [Directory.perform, Directory.begin, accepted,
          Directory.update, absent]
        rfl
      · cases Option.some.inj executed
        exact adds_waiting rfl rfl ⟨false, rfl⟩

theorem Stray.written {updated : SessionState} {target : SessionPtr}
    (stray : Stray (store.put target updated) ptr session)
    (different : target ≠ ptr) : Stray store ptr session where
  found := (store.put_heap_other updated different).symm.trans stray.found
  opened := stray.opened
  unmapped := stray.unmapped

theorem close_adds {reply : Reply} (aside : Aside store ptr)
    (stays : current.expiring store = none)
    (settled : current.settled store.heap = some reply)
    (found : store.heap[ptr]? = some session)
    (written : outcome.store = store.put ptr (closeSession session))
    (same : outcome.progress.settled outcome.store.heap = some reply) :
    Adds settings store call current outcome := by
  refine .nothing stays (same.trans settled.symm) ?_ fun target held stray => ?_
  · rw [written]
    exact aside.2.similar found _
  · rw [written] at stray
    refine stray.written ?_
    rintro rfl
    have at_ : (store.put ptr (closeSession session)).heap[ptr]? = some held :=
      stray.found
    rw [Store.put_heap_same _ found] at at_
    cases Option.some.inj at_
    exact absurd stray.opened (by simp [closeSession])

theorem Pursues.strayed (pursues : Pursues settings call sessionId ptr current) :
    current.strayed store = Section.strayed.stray store ptr := by
  cases pursues with
  | begins mine accepted => rfl
  | finishes works =>
      cases works with
      | _ => rfl

theorem Pursues.waiting (pursues : Pursues settings call sessionId ptr current) :
    current.expiring store = none ∧ current.settled store.heap = none := by
  cases pursues with
  | begins mine accepted => exact ⟨rfl, rfl⟩
  | finishes works =>
      cases works with
      | _ => exact ⟨rfl, rfl⟩

theorem pursue_adds (formed : WellFormed store)
    (opened : ∀ other target held,
      store.find other = some (target, held) → held.closed = false)
    (underway : Underway settings store call ptr current)
    (executed : current.exec settings readings store = some outcome) :
    Adds settings store call current outcome := by
  obtain ⟨sessionId, pursues, refers⟩ := underway
  obtain ⟨session, updated, output, found, written, returned, acted⟩ :=
    pursues.exec executed
  obtain ⟨held, heldAt, rfl⟩ := refers
  obtain rfl := Option.some.inj (found.symm.trans heldAt)
  obtain ⟨stays, unsettled⟩ : current.expiring store = none ∧
      current.settled store.heap = none := pursues.waiting
  have performs (directory : Directory) :
      directory.perform settings (.call call) =
        directory.update session.id (current.act settings) current.missing :=
    pursues.perform
  have strayed : current.strayed store = Section.strayed.stray store ptr :=
    pursues.strayed
  simp only [Section.strayed.stray, found] at strayed
  by_cases entry : store.sessions.lookup session.id = some ptr
  · -- The session is where the call has found it.
    have at_ := find_eq_some.mpr ⟨entry, found⟩
    have open_ := opened _ _ _ at_
    refine .answer stays unsettled (by simp [strayed, entry])
      (fun directory represents => ?_) fun target held stray => .inl ?_
    · rw [performs, update_found (represents.found at_), ← acted.opened open_,
        written, returned]
      exact ⟨represents.write formed at_ updated, rfl⟩
    · rw [written] at stray
      refine stray.written ?_
      rintro rfl
      exact stray.unmapped _ entry
  have unmapped : Unmapped store ptr := by
    intro other again
    obtain ⟨held, heldAt, named⟩ := formed.mapped _ _ again
    obtain rfl := Option.some.inj (found.symm.trans heldAt)
    exact entry (named ▸ again)
  by_cases closed : session.closed = true
  · -- Nobody finds it any more, and the section finds it closed.
    refine .answer stays unsettled (by simp [strayed, closed])
      (fun directory represents => ?_) fun target held stray => .inl ?_
    · have missing : store.find session.id = none := by
        rw [formed.find_eq_none, Option.eq_none_iff_forall_ne_some]
        intro other again
        obtain ⟨held, heldAt, named⟩ := formed.mapped _ _ again
        exact entry (formed.unique found heldAt named ▸ again)
      have absent := represents.missing missing
      rw [performs, Directory.update, absent, written, returned]
      exact ⟨represents.similar (unmapped.similar found updated),
        congrArg some (acted.shut closed)⟩
    · rw [written] at stray
      refine stray.written ?_
      rintro rfl
      have at_ : (store.put ptr updated).heap[ptr]? = some held := stray.found
      rw [Store.put_heap_same _ found] at at_
      cases Option.some.inj at_
      exact absurd ((acted.closed.trans closed).symm.trans stray.opened) (by simp)
  · have open_ := Bool.eq_false_iff.mpr closed
    exact .late stays unsettled pursues (by simp [strayed, open_, entry])
      ⟨found, open_, unmapped⟩ written returned acted

theorem reapEntry_adds {now : Int} {entry : SessionEntry}
    {rest : List SessionEntry} {after : AfterReap} {events : List Event}
    (formed : WellFormed store) (refers : Refers store.heap entry.1 entry.2) :
    Adds settings store call (.reaping now (entry :: rest) after)
      { store := reapEntry now store entry
        progress := .suspended (.reaping now rest after)
        events } := by
  obtain ⟨session, found, named⟩ := refers
  by_cases expired : shouldExpire now session = true
  · have reaped : reapEntry now store entry =
        { store.put entry.2 (closeSession session) with
          sessions := store.sessions.erase entry.1 } := by
      simp [reapEntry, found, expired]
    have strays (ptr : SessionPtr) (held : SessionState)
        (stray : Stray (reapEntry now store entry) ptr held) :
        Stray store ptr held := by
      rw [reaped] at stray
      have different : entry.2 ≠ ptr := by
        rintro rfl
        have at_ : (store.put entry.2 (closeSession session)).heap[entry.2]? =
            some held := stray.found
        rw [Store.put_heap_same _ found] at at_
        cases Option.some.inj at_
        exact absurd stray.opened (by simp [closeSession])
      have at_ : store.heap[ptr]? = some held :=
        (store.put_heap_other _ different).symm.trans stray.found
      refine ⟨at_, stray.opened, fun other again => ?_⟩
      refine stray.unmapped other ?_
      rw [AList.lookup_erase_ne, again]
      rintro rfl
      obtain ⟨target, targetAt, same⟩ := formed.mapped _ _ again
      exact different (formed.unique targetAt found (named.trans same.symm))
    cases entryAt : store.find entry.1 with
    | none =>
        have absent := formed.find_eq_none.mp entryAt
        have unmapped : Unmapped store entry.2 := by
          intro other again
          obtain ⟨held, heldAt, same⟩ := formed.mapped _ _ again
          obtain rfl := Option.some.inj (found.symm.trans heldAt)
          obtain rfl : other = entry.1 := same.symm.trans named
          exact absurd (absent.symm.trans again) (by simp)
        refine .nothing (by simp [Section.expiring, entryAt]) rfl ?_ strays
        rw [reaped]
        have similar := unmapped.similar found (closeSession session)
        refine ⟨rfl, rfl, rfl, fun other => ?_⟩
        have erased :
            ({ store.put entry.2 (closeSession session) with
              sessions := store.sessions.erase entry.1 } : Store).find other =
            if other = entry.1 then none
            else (store.put entry.2 (closeSession session)).find other :=
          find_erase
        rw [erased]
        by_cases same : other = entry.1
        · subst same
          rw [if_pos rfl, entryAt]
        · rw [if_neg same]
          exact similar.conversations other
    | some held =>
        obtain ⟨ptr, held⟩ := held
        obtain ⟨lookedUp, heldAt⟩ := find_eq_some.mp entryAt
        obtain rfl : ptr = entry.2 :=
          formed.unique found heldAt
            ((formed.find_id entryAt).trans named.symm)
        obtain rfl := Option.some.inj (found.symm.trans heldAt)
        have idle : session.activeRequest = none := by
          simp only [shouldExpire, Bool.and_eq_true,
            Option.isNone_iff_eq_none] at expired
          exact expired.1.2
        refine .expiry (by simp [Section.expiring, entryAt, expired]) entryAt idle
          rfl (fun directory represents => ?_) strays
        rw [reaped]
        have aside := formed.erased lookedUp
        exact (represents.erase entry.1).similar (aside.2.similar found _)
  · have reaped : reapEntry now store entry = store := by
      simp [reapEntry, found, expired]
    rw [reaped]
    refine .nothing ?_ rfl (.refl store) fun ptr held stray => stray
    cases entryAt : store.find entry.1 with
    | none => simp [Section.expiring, entryAt]
    | some held =>
        obtain ⟨ptr, held⟩ := held
        obtain ⟨_, heldAt⟩ := find_eq_some.mp entryAt
        by_cases same : ptr = entry.2
        · subst same
          obtain rfl := Option.some.inj (found.symm.trans heldAt)
          simp [Section.expiring, entryAt, expired]
        · simp [Section.expiring, entryAt, same]

end Adding

structure Kept (settings : Settings) (store : Store) : Prop where
  modelled : ∀ (ptr : SessionPtr) session,
    store.heap[ptr]? = some session → session.model = settings.modelId
  opened : ∀ sessionId ptr session,
    store.find sessionId = some (ptr, session) → session.closed = false

theorem exec_adds {settings : Settings} {readings : Readings} {store : Store}
    {call : Call} {current : Section} {outcome : Outcome}
    (formed : WellFormed store) (kept : Kept settings store)
    (serves : Serves settings store.heap call (.suspended current))
    (prepared : Prepared settings store call (.suspended current))
    (running : ∀ request,
      (Progress.suspended current).inside = some (.create request) →
        store.stopping = false)
    (executed : current.exec settings readings store = some outcome) :
    Adds settings store call current outcome := by
  cases current with
  | enter other =>
      obtain rfl : other = call := serves
      exact enterCall_adds formed executed
  | reaping now rest after =>
      obtain ⟨reaps, refers⟩ := serves
      cases rest with
      | nil =>
          refine leaveReaping_adds formed kept.modelled (fun request same => ?_)
            reaps prepared executed
          exact running request (congrArg some same)
      | cons entry rest =>
          obtain ⟨session, found, rfl⟩ := Option.map_eq_some_iff.mp executed
          exact reapEntry_adds formed (refers entry List.mem_cons_self)
  | begin ptr sessionId user requestId =>
      exact pursue_adds formed kept.opened prepared executed
  | commit ptr requestId user text =>
      exact pursue_adds formed kept.opened prepared executed
  | release ptr requestId =>
      exact pursue_adds formed kept.opened prepared executed
  | closeDeleted ptr =>
      obtain ⟨session, found, rfl⟩ := Option.map_eq_some_iff.mp executed
      exact close_adds prepared rfl rfl found rfl rfl
  | closeStopped rest =>
      cases rest with
      | nil =>
          cases Option.some.inj executed
          exact adds_waiting rfl rfl ⟨_, rfl⟩
      | cons ptr rest =>
          obtain ⟨session, found, rfl⟩ := Option.map_eq_some_iff.mp executed
          exact close_adds (prepared ptr List.mem_cons_self) rfl rfl found rfl rfl
  | snapshot ptr =>
      obtain ⟨session, found, rfl⟩ := Option.map_eq_some_iff.mp executed
      refine adds_waiting rfl ?_ ⟨_, rfl⟩
      simp only [Section.settled, found]
      rfl

end ZooKeeperServer.SessionStore
