import ZooKeeperServer.SessionStore.Contributions

namespace ZooKeeperServer.SessionStore

open Transition

/-! Every run of the store comes to the directory's operations in some order, which
respects the order of the calls in time. -/

section Keeping

variable {settings : Settings} {store next : Store} {call : Call}
  {current : Section} {progress : Progress} {events : List Event}

theorem Change.same_model {ptr : SessionPtr} {session updated : SessionState}
    (change : Change settings ptr session updated events) :
    updated.model = session.model := by
  cases change with
  | _ => rfl

theorem Effect.modelled
    (modelled : ∀ (ptr : SessionPtr) session,
      store.heap[ptr]? = some session → session.model = settings.modelId)
    (effect : Effect settings store current next progress events)
    (ptr : SessionPtr) (updated : SessionState)
    (found : next.heap[ptr]? = some updated) :
    updated.model = settings.modelId := by
  rcases effect.origin found with ⟨session, before, change⟩ | ⟨_, creates⟩
  · exact change.same_model.trans (modelled ptr session before)
  · obtain ⟨now, request, rfl, _⟩ := creates.shape
    rfl

theorem Effect.opened (formed : WellFormed store)
    (opened : ∀ sessionId ptr session,
      store.find sessionId = some (ptr, session) → session.closed = false)
    (serves : Serves settings store.heap call (.suspended current))
    (prepared : Prepared settings store call (.suspended current))
    (effect : Effect settings store current next progress events)
    (sessionId : StdString) (ptr : SessionPtr) (updated : SessionState)
    (looked : next.find sessionId = some (ptr, updated)) :
    updated.closed = false := by
  obtain ⟨entry, at_⟩ := find_eq_some.mp looked
  clear looked
  have before {session : SessionState}
      (entry : store.sessions.lookup sessionId = some ptr)
      (at_ : store.heap[ptr]? = some session) : session.closed = false :=
    opened sessionId ptr session (find_eq_some.mpr ⟨entry, at_⟩)
  have written {target : SessionPtr} {session held : SessionState}
      (entry : store.sessions.lookup sessionId = some ptr)
      (targetAt : store.heap[target]? = some held)
      (at_ : (store.put target session).heap[ptr]? = some updated)
      (same : session.closed = held.closed) :
      updated.closed = false := by
    by_cases here : target = ptr
    · subst here
      rw [Store.put_heap_same _ targetAt] at at_
      obtain rfl := Option.some.inj at_
      exact same.trans (before entry targetAt)
    · rw [Store.put_heap_other _ _ here] at at_
      exact before entry at_
  cases effect with
  | silent heap sessions => exact before (sessions ▸ entry) (heap ▸ at_)
  | @create now request _ session shape heap sessions =>
      by_cases last : ptr = store.heap.length
      · subst last
        rw [heap, List.getElem?_concat_length] at at_
        obtain rfl := Option.some.inj at_
        rw [shape]
        rfl
      · have old : store.sessions.lookup sessionId = some ptr := by
          rw [sessions] at entry
          split at entry
          · exact entry
          · by_cases same : sessionId = session.id
            · subst same
              rw [AList.lookup_insert] at entry
              exact absurd (Option.some.inj entry).symm last
            · rwa [AList.lookup_insert_ne same] at entry
        refine before old ?_
        rwa [heap, List.getElem?_append_left (formed.mapped _ _ old).bound]
          at at_
  | @expire now removed rest after session _ found idle heap sessions =>
      obtain ⟨different, old⟩ := lookup_erase_some (sessions ▸ entry)
      obtain ⟨held, heldAt, named⟩ := serves.2 removed List.mem_cons_self
      obtain ⟨other, otherAt, same⟩ := formed.mapped _ _ old
      have elsewhere : removed.2 ≠ ptr := by
        intro here
        rw [here] at heldAt
        obtain rfl := Option.some.inj (heldAt.symm.trans otherAt)
        exact different (same.symm.trans named)
      rw [heap, List.getElem?_set_ne elsewhere] at at_
      exact before old at_
  | erase at_' heap sessions =>
      exact before (lookup_erase_some (sessions ▸ entry)).2 (heap ▸ at_)
  | dropAll dropped heap sessions => simp [sessions] at entry
  | @close _ target _ session closing found =>
      have unmapped : Unmapped store target := by
        rcases closing with rfl | ⟨rest, rfl⟩
        · exact (show Aside store target from prepared).2
        · exact (prepared target List.mem_cons_self).2
      have elsewhere : target ≠ ptr := by
        rintro rfl
        exact unmapped sessionId entry
      rw [Store.put_heap_other _ _ elsewhere] at at_
      exact before entry at_
  | begin found opened idle => exact written entry found at_ rfl
  | commit found opened active => exact written entry found at_ rfl
  | release releasing found active => exact written entry found at_ rfl

end Keeping

/-- The store between two steps, as far as the order of the calls depends on it. -/
structure Steady (settings : Settings) (system : System) : Prop where
  orderly : Orderly settings system
  kept : Kept settings system.store
  prepared : ∀ (index : Nat) thread, system.threads[index]? = some thread →
    Prepared settings system.store thread.call thread.progress

section Steadiness

variable {settings : Settings} {system next : System} {label : Label}

theorem Steady.step (steady : Steady settings system)
    (stepped : freeStep settings system label = some next) :
    Steady settings next := by
  refine ⟨steady.orderly.step stepped, ?_, ?_⟩
  · cases freeStep_moved stepped with
    | calls => exact steady.kept
    | runs found executed =>
        have effect := exec_effect executed
        exact ⟨effect.modelled steady.kept.modelled,
          effect.opened steady.orderly.formed steady.kept.opened
            (steady.orderly.serves _ _ found) (steady.prepared _ _ found)⟩
  · intro other thread otherAt
    cases freeStep_moved stepped with
    | calls =>
        rcases Crew.getElem?_join_origin otherAt with before | ⟨_, rfl⟩
        · exact steady.prepared other thread before
        · trivial
    | runs found executed =>
        rcases Crew.getElem?_set_origin otherAt with ⟨_, rfl⟩ | ⟨_, before⟩
        · exact exec_prepared steady.orderly.formed
            (steady.orderly.serves _ _ found) (steady.prepared _ _ found)
            executed
        · exact (steady.prepared other thread before).mono
            (exec_effect executed)

theorem initialSystem_steady (basePrompt : StdString) :
    Steady settings (initialSystem basePrompt) where
  orderly := initialSystem_orderly basePrompt
  kept := ⟨by simp [initialSystem, initialStore],
    by simp [initialSystem, initialStore, Store.find]⟩
  prepared := by simp [initialSystem]

/-- What a thread is to return does not change under the other ones. -/
theorem Prepared.settled_mono {store after : Store} {call : Call}
    {progress done : Progress} {acting : Section} {events : List Event}
    (prepared : Prepared settings store call progress)
    (effect : Effect settings store acting after done events) :
    progress.settled after.heap = progress.settled store.heap := by
  cases progress with
  | returned output => rfl
  | suspended current =>
      cases current with
      | snapshot ptr =>
          have bound : ptr < store.heap.length := prepared
          have found := List.getElem?_eq_getElem bound
          obtain ⟨updated, updatedAt, change⟩ := effect.change found
          simp [Progress.settled, Section.settled, found, updatedAt,
            change.same_id, change.same_model]
      | _ => rfl

theorem Steady.adds {index : Nat} {readings : Readings} {call : Call}
    {current : Section} {outcome : Outcome} (steady : Steady settings system)
    (found : system.threads[index]? = some ⟨call, .suspended current⟩)
    (executed : current.exec settings readings system.store = some outcome) :
    Adds settings system.store call current outcome := by
  have orderly := steady.orderly
  refine exec_adds orderly.formed steady.kept (orderly.serves _ _ found)
    (steady.prepared _ _ found) (fun request inside => ?_) executed
  by_contra stopping
  exact orderly.halted.quiet (by simpa using stopping) index _ request found
    inside

end Steadiness

def callsOf (index : Nat) (order : List (Nat × Operation)) : List Call :=
  order.filterMap fun entry =>
    match entry.2 with
    | .call call => if entry.1 = index then some call else none
    | .expire _ => none

section Answers

variable (settings : Settings) (basePrompt : StdString)

/-- The directory after all operations that have their place. -/
abbrev standing (trace : List Placing) : Directory :=
  replay (Directory.perform settings) (initialDirectory basePrompt)
    (lineUp trace)

abbrev answered (trace : List Placing) : List ((Nat × Operation) × Reply) :=
  replies (Directory.perform settings) (initialDirectory basePrompt)
    (lineUp trace)

/-- The call has its place exactly when it is settled what it returns, and returns
what the directory does. -/
def Answered (trace : List Placing) (index : Nat) (call : Call) :
    Option Reply → Prop
  | none => callsOf index (lineUp trace) = []
  | some reply =>
      callsOf index (lineUp trace) = [call] ∧
        ((index, .call call), reply) ∈ answered settings basePrompt trace

end Answers

/-- The session is as the directory has it just before it goes. -/
structure Departs (settings : Settings) (session : SessionState)
    (directory : Directory) (last : Operation) : Prop where
  present : directory.conversations.lookup session.id =
    some session.conversation
  clears : Clears settings session.id directory last

structure Linearized (settings : Settings) (basePrompt : StdString)
    (system : System) (trace : List Placing) : Prop where
  represents : Represents system.store (standing settings basePrompt trace)
  threads : ∀ (index : Nat) thread, system.threads[index]? = some thread →
    Answered settings basePrompt trace index thread.call
      (thread.progress.settled system.store.heap)
  clients : ∀ entry ∈ lineUp trace, entry.1 < system.threads.length
  expiries : ∀ entry ∈ answered settings basePrompt trace, ∀ sessionId,
    entry.1.2 = .expire sessionId → entry.2 = .expired
  dropped : ∀ slot ∈ trace, ∀ ptr ∈ slot.drops, Aside system.store ptr
  strays : ∀ ptr session, Stray system.store ptr session →
    Taken (Directory.perform settings) ptr (Departs settings session)
      (initialDirectory basePrompt) trace

section Ordering

variable {settings : Settings} {basePrompt : StdString} {system : System}
  {trace after : List Placing} {index : Nat} {readings : Readings} {call : Call}
  {current : Section} {outcome : Outcome}

theorem callsOf_append (first second : List (Nat × Operation)) :
    callsOf index (first ++ second) =
      callsOf index first ++ callsOf index second :=
  List.filterMap_append

theorem callsOf_other {client : Nat} (different : client ≠ index)
    (operation : Operation) : callsOf index [(client, operation)] = [] := by
  cases operation with
  | call call => simp [callsOf, different]
  | expire sessionId => rfl

theorem callsOf_own (index : Nat) (call : Call) :
    callsOf index [(index, .call call)] = [call] := by
  simp [callsOf]

theorem callsOf_perm {first second : List (Nat × Operation)}
    (same : first.Perm second) :
    (callsOf index first).Perm (callsOf index second) :=
  same.filterMap _

theorem callsOf_unknown (order : List (Nat × Operation))
    (unknown : ∀ entry ∈ order, entry.1 ≠ index) : callsOf index order = [] := by
  rw [callsOf, List.filterMap_eq_nil_iff]
  intro entry member
  split
  · exact if_neg (unknown entry member)
  · rfl

theorem Answered.mono {settled : Option Reply}
    (before : Answered settings basePrompt trace index call settled)
    (same : (callsOf index (lineUp after)).Perm (callsOf index (lineUp trace)))
    (more : answered settings basePrompt trace ⊆
      answered settings basePrompt after) :
    Answered settings basePrompt after index call settled := by
  cases settled with
  | none =>
      have none : callsOf index (lineUp trace) = [] := before
      rw [none] at same
      exact List.perm_nil.mp same
  | some reply =>
      obtain ⟨one, replied⟩ := before
      rw [one] at same
      exact ⟨List.perm_singleton.mp same, more replied⟩

theorem answered_concat (client : Nat × Operation) (drops : List SessionPtr) :
    answered settings basePrompt (trace ++ [{ entry := client, drops }]) =
      answered settings basePrompt trace ++
        [(client, ((standing settings basePrompt trace).perform settings
          client.2).2)] := by
  have order : lineUp (trace ++ [{ entry := client, drops }]) =
      lineUp trace ++ [client] := lineUp_concat
  rw [answered, order, replies_concat]

theorem Linearized.runs (steady : Steady settings system)
    (linearized : Linearized settings basePrompt system trace)
    (found : system.threads[index]? = some ⟨call, .suspended current⟩)
    (executed : current.exec settings readings system.store = some outcome)
    (represents : Represents outcome.store (standing settings basePrompt after))
    (own : Answered settings basePrompt after index call
      (outcome.progress.settled outcome.store.heap))
    (others : ∀ other, index ≠ other →
      (callsOf other (lineUp after)).Perm (callsOf other (lineUp trace)))
    (more : answered settings basePrompt trace ⊆
      answered settings basePrompt after)
    (clients : ∀ entry ∈ lineUp after, entry ∈ lineUp trace ∨ entry.1 = index)
    (expiries : ∀ entry ∈ answered settings basePrompt after,
      entry ∈ answered settings basePrompt trace ∨
        ∀ sessionId, entry.1.2 = .expire sessionId → entry.2 = .expired)
    (dropped : ∀ slot ∈ after, ∀ ptr ∈ slot.drops,
      (∃ earlier ∈ trace, ptr ∈ earlier.drops) ∨
        ptr ∈ outcome.progress.closing)
    (strays : ∀ ptr session, Stray outcome.store ptr session →
      Taken (Directory.perform settings) ptr (Departs settings session)
        (initialDirectory basePrompt) after) (log : List Event) :
    Linearized settings basePrompt
      { store := outcome.store
        threads := system.threads.set index ⟨call, outcome.progress⟩
        log } after where
  represents := represents
  threads := by
    intro other thread otherAt
    rcases Crew.getElem?_set_origin otherAt with ⟨rfl, rfl⟩ | ⟨different, before⟩
    · exact own
    · have prepared := steady.prepared other thread before
      rw [prepared.settled_mono (exec_effect executed)]
      exact (linearized.threads other thread before).mono
        (others other different) more
  clients := by
    intro entry member
    rw [List.length_set]
    rcases clients entry member with before | rfl
    · exact linearized.clients entry before
    · exact (List.getElem?_eq_some_iff.mp found).1
  expiries := by
    intro entry member
    rcases expiries entry member with before | expired
    · exact linearized.expiries entry before
    · exact expired
  dropped := by
    intro slot member ptr dropsIt
    rcases dropped slot member ptr dropsIt with ⟨earlier, among, before⟩ | closing
    · exact (linearized.dropped earlier among ptr before).mono
        (exec_effect executed)
    · exact (exec_prepared steady.orderly.formed
        (steady.orderly.serves _ _ found) (steady.prepared _ _ found)
        executed).closes ptr closing
  strays := strays

theorem Linearized.concat {operation : Operation} {drops : List SessionPtr}
    (steady : Steady settings system)
    (linearized : Linearized settings basePrompt system trace)
    (found : system.threads[index]? = some ⟨call, .suspended current⟩)
    (executed : current.exec settings readings system.store = some outcome)
    (represents : Represents outcome.store
      ((standing settings basePrompt trace).perform settings operation).1)
    (own : Answered settings basePrompt
      (trace ++ [{ entry := (index, operation), drops }]) index call
      (outcome.progress.settled outcome.store.heap))
    (expired : ∀ sessionId, operation = .expire sessionId →
      ((standing settings basePrompt trace).perform settings operation).2 =
        .expired)
    (dropped : drops ⊆ outcome.progress.closing)
    (strays : ∀ ptr session, Stray outcome.store ptr session →
      Stray system.store ptr session ∨
        (ptr ∈ drops ∧
          system.store.find session.id = some (ptr, session) ∧
          ∀ directory, Represents system.store directory →
            Clears settings session.id directory operation))
    (log : List Event) :
    Linearized settings basePrompt
      { store := outcome.store
        threads := system.threads.set index ⟨call, outcome.progress⟩
        log } (trace ++ [{ entry := (index, operation), drops }]) := by
  have order : lineUp (trace ++ [{ entry := (index, operation), drops }]) =
      lineUp trace ++ [(index, operation)] := lineUp_concat
  refine linearized.runs steady found executed ?_ own ?_ ?_ ?_ ?_ ?_ ?_ log
  · rw [standing, order, replay_concat]
    exact represents
  · intro other different
    rw [order, callsOf_append, callsOf_other different, List.append_nil]
  · rw [answered_concat]
    exact List.subset_append_left _ _
  · intro entry member
    rw [order] at member
    rcases List.mem_append.mp member with before | last
    · exact .inl before
    · exact .inr (congrArg Prod.fst (List.mem_singleton.mp last))
  · intro entry member
    rw [answered_concat] at member
    rcases List.mem_append.mp member with before | last
    · exact .inl before
    · obtain rfl := List.mem_singleton.mp last
      exact .inr expired
  · intro slot member ptr dropsIt
    rcases List.mem_append.mp member with before | last
    · exact .inl ⟨slot, before, dropsIt⟩
    · obtain rfl := List.mem_singleton.mp last
      exact .inr (dropped dropsIt)
  · intro ptr session stray
    rcases strays ptr session stray with before | ⟨dropsIt, held, clears⟩
    · exact (linearized.strays ptr session before).append
    · refine taken_concat (fun slot member earlier => ?_) dropsIt ?_
      · exact (linearized.dropped slot member ptr earlier).2 _
          (find_eq_some.mp held).1
      · exact ⟨linearized.represents.found held,
          clears _ linearized.represents⟩

/-- A call on a session that has left the map comes before the call that has taken it
out. -/
theorem Linearized.late {ptr : SessionPtr} {session updated : SessionState}
    {output : Output} (steady : Steady settings system)
    (linearized : Linearized settings basePrompt system trace)
    (found : system.threads[index]? = some ⟨call, .suspended current⟩)
    (executed : current.exec settings readings system.store = some outcome)
    (unsettled : current.settled system.store.heap = none)
    (pursues : Pursues settings call session.id ptr current)
    (stray : Stray system.store ptr session)
    (written : outcome.store = system.store.put ptr updated)
    (returned : outcome.progress = .returned output)
    (acted : Acted settings current session updated output)
    (log : List Event) :
    Linearized settings basePrompt
      { store := outcome.store
        threads := system.threads.set index ⟨call, outcome.progress⟩
        log } (insertLate ptr (index, .call call) trace) := by
  have updates (directory : Directory) :
      directory.perform settings (.call call) =
        directory.update session.id (current.act settings) current.missing :=
    pursues.perform
  have taken := linearized.strays ptr session stray
  have absorbed : Taken (Directory.perform settings) ptr
      (Absorbed (Directory.perform settings) (.call call))
      (initialDirectory basePrompt) trace :=
    taken.mono fun directory last departs => departs.clears.absorbs
      (Finmap.mem_iff.mpr ⟨_, departs.present⟩) (updates directory)
  have acts {directory : Directory} {last : Operation}
      (departs : Departs settings session directory last) :
      directory.perform settings (.call call) =
        ({ directory with
            conversations :=
              directory.conversations.insert session.id updated.conversation },
          output.timeless) := by
    rw [updates, update_found departs.present, ← acted.opened stray.opened]
  have replied : (answered settings basePrompt
        (insertLate ptr (index, .call call) trace)).Perm
      (((index, .call call), output.timeless) ::
        answered settings basePrompt trace) := by
    refine replies_insertLate (taken.mono fun directory last departs => ?_)
    refine ⟨departs.clears.absorbs
      (Finmap.mem_iff.mpr ⟨_, departs.present⟩) (updates directory), ?_⟩
    rw [acts departs]
  have order : (lineUp (insertLate ptr (index, .call call) trace)).Perm
      ((index, .call call) :: lineUp trace) := by
    have entries := replied.map Prod.fst
    rwa [List.map_cons, replies_entries, replies_entries] at entries
  have before : callsOf index (lineUp trace) = [] := by
    have answered := linearized.threads index _ found
    rwa [Progress.settled, unsettled] at answered
  refine linearized.runs steady found executed ?_ ?_ ?_ ?_ ?_ ?_ ?_ ?_ log
  · rw [standing, replay_insertLate absorbed, written]
    exact linearized.represents.similar (stray.unmapped.similar stray.found _)
  · rw [returned]
    refine ⟨?_, replied.symm.subset List.mem_cons_self⟩
    have own : (callsOf index _).Perm (callsOf index _) := callsOf_perm order
    rw [← List.singleton_append, callsOf_append, callsOf_own, before,
      List.append_nil] at own
    exact List.perm_singleton.mp own
  · intro other different
    have own : (callsOf other _).Perm (callsOf other _) := callsOf_perm order
    rwa [← List.singleton_append, callsOf_append, callsOf_other different] at own
  · exact fun entry member => replied.symm.subset (List.mem_cons_of_mem _ member)
  · intro entry member
    rcases List.mem_cons.mp (order.subset member) with rfl | before
    · exact .inr rfl
    · exact .inl before
  · intro entry member
    rcases List.mem_cons.mp (replied.subset member) with rfl | before
    · exact .inr fun sessionId same => by cases same
    · exact .inl before
  · intro slot member target dropsIt
    have drops : slot.drops ∈ trace.map Slot.drops := by
      rw [← insertLate_drops]
      exact List.mem_map_of_mem member
    obtain ⟨earlier, among, same⟩ := List.mem_map.mp drops
    exact .inl ⟨earlier, among, same ▸ dropsIt⟩
  · intro target held strayed
    rw [written] at strayed
    by_cases same : ptr = target
    · subst same
      have at_ : (system.store.put ptr updated).heap[ptr]? = some held :=
        strayed.found
      rw [Store.put_heap_same _ stray.found] at at_
      obtain rfl := Option.some.inj at_
      refine Taken.insertLate_same (taken.mono fun directory last departs => ?_)
      constructor
      · rw [acts departs, acted.id]
        exact Finmap.lookup_insert _
      · rw [updates, acted.id]
        exact departs.clears.update
    · have held_ := strayed.written same
      refine Taken.insertLate_other absorbed (fun directory last departs => ?_)
        (linearized.strays target held held_)
      have different : held.id ≠ session.id := fun equal =>
        same (steady.orderly.formed.unique held_.found stray.found equal.symm)
      rw [updates]
      exact ⟨(update_lookup _ different).trans departs.present,
        departs.clears.update⟩

end Ordering

/-- The places of the calls after a step. -/
def linearize (settings : Settings) (system : System) :
    Label → List Placing → List Placing
  | .call _, trace => trace
  | .run index readings, trace =>
      match system.threads[index]? with
      | some ⟨call, .suspended current⟩ =>
          match current.exec settings readings system.store with
          | some outcome => place system.store index call current outcome trace
          | none => trace
      | _ => trace

section Steps

variable {settings : Settings} {basePrompt : StdString} {system next : System}
  {trace : List Placing} {label : Label}

theorem Linearized.calls
    (linearized : Linearized settings basePrompt system trace) (call : Call) :
    Linearized settings basePrompt
      { system with
        threads := system.threads ++ [⟨call, .suspended (.enter call)⟩] }
      trace where
  represents := linearized.represents
  threads := by
    intro index thread found
    rcases Crew.getElem?_join_origin found with before | ⟨rfl, rfl⟩
    · exact linearized.threads index thread before
    · exact callsOf_unknown _ fun entry member =>
        (linearized.clients entry member).ne
  clients := by
    intro entry member
    rw [List.length_append]
    exact (linearized.clients entry member).trans_le (Nat.le_add_right _ _)
  expiries := linearized.expiries
  dropped := linearized.dropped
  strays := linearized.strays

theorem Linearized.places {index : Nat} {readings : Readings} {call : Call}
    {current : Section} {outcome : Outcome} (steady : Steady settings system)
    (linearized : Linearized settings basePrompt system trace)
    (found : system.threads[index]? = some ⟨call, .suspended current⟩)
    (executed : current.exec settings readings system.store = some outcome)
    (log : List Event) :
    Linearized settings basePrompt
      { store := outcome.store
        threads := system.threads.set index ⟨call, outcome.progress⟩
        log } (place system.store index call current outcome trace) := by
  have before : Answered settings basePrompt trace index call
      (current.settled system.store.heap) := linearized.threads index _ found
  cases steady.adds found executed with
  | nothing stays same similar strays =>
      have kept : place system.store index call current outcome trace =
          trace := by
        unfold place
        rw [stays]
        refine if_pos ?_
        rw [same]
        cases current.settled system.store.heap with
        | none => exact .inr rfl
        | some reply => exact .inl rfl
      rw [kept]
      exact linearized.runs steady found executed
        (linearized.represents.similar similar) (same.symm ▸ before)
        (fun other _ => .refl _) (List.Subset.refl _)
        (fun entry member => .inl member) (fun entry member => .inl member)
        (fun slot member ptr dropsIt => .inl ⟨slot, member, dropsIt⟩)
        (fun ptr session stray =>
          linearized.strays ptr session (strays ptr session stray)) log
  | @expiry sessionId ptr session expires held idle same represents strays =>
      have placed : place system.store index call current outcome trace =
          trace ++ [{ entry := (index, .expire sessionId) }] := by
        unfold place
        rw [expires]
      have performed : (standing settings basePrompt trace).perform settings
          (.expire sessionId) =
          ({ standing settings basePrompt trace with
              conversations := (standing settings basePrompt
                trace).conversations.erase sessionId }, .expired) := by
        simp only [Directory.perform, Directory.expire,
          linearized.represents.found held, SessionState.conversation, idle]
      rw [placed]
      refine linearized.concat steady found executed ?_ ?_ (fun _ _ => ?_)
        (List.nil_subset _)
        (fun ptr session stray => .inl (strays ptr session stray)) log
      · rw [performed]
        exact represents _ linearized.represents
      · rw [same]
        refine before.mono ?_ ?_
        · have none : callsOf index (lineUp trace ++ [(index, .expire sessionId)]) =
              callsOf index (lineUp trace) := by
            rw [callsOf_append]
            exact List.append_nil _
          rw [lineUp_concat]
          exact none ▸ .refl _
        · rw [answered_concat]
          exact List.subset_append_left _ _
      · rw [performed]
  | answer stays unsettled strayed answers strays =>
      obtain ⟨represents, settles⟩ := answers _ linearized.represents
      have placed : place system.store index call current outcome trace =
          trace ++
            [{ entry := (index, .call call)
               drops := outcome.progress.closing }] := by
        unfold place
        rw [stays, strayed]
        exact if_neg (by simp [unsettled, settles])
      rw [unsettled] at before
      have none : callsOf index (lineUp trace) = [] := before
      rw [placed]
      refine linearized.concat steady found executed represents ?_
        (fun _ same => by cases same) (List.Subset.refl _) strays log
      rw [settles]
      constructor
      · rw [lineUp_concat, callsOf_append, none]
        exact callsOf_own index call
      · rw [answered_concat]
        exact List.mem_append_right _ (List.mem_singleton_self _)
  | @late ptr session updated output stays unsettled pursues strayed stray
      written returned acted =>
      have placed : place system.store index call current outcome trace =
          insertLate ptr (index, .call call) trace := by
        unfold place
        rw [stays, strayed]
        exact if_neg (by simp [unsettled, returned, Progress.settled])
      rw [placed]
      exact linearized.late steady found executed unsettled pursues stray written
        returned acted log

theorem Linearized.step (steady : Steady settings system)
    (linearized : Linearized settings basePrompt system trace)
    (stepped : freeStep settings system label = some next) :
    Linearized settings basePrompt next
      (linearize settings system label trace) := by
  cases freeStep_moved stepped with
  | calls => exact linearized.calls _
  | runs found executed =>
      simp only [linearize, found, executed]
      exact linearized.places steady found executed _

theorem initialSystem_linearized (settings : Settings)
    (basePrompt : StdString) :
    Linearized settings basePrompt (initialSystem basePrompt) [] where
  represents := initialStore_represents basePrompt
  threads := by simp [initialSystem]
  clients := by simp
  expiries := by
    intro entry member
    cases member
  dropped := by simp
  strays := by
    intro ptr session stray
    have found := stray.found
    simp [initialSystem, initialStore] at found

end Steps

def Section.pursued : Section → Option SessionPtr
  | .begin ptr _ _ _ => some ptr
  | .commit ptr _ _ _ => some ptr
  | .release ptr _ => some ptr
  | _ => none

/-- What has come about since there were `count` threads and `slots` places: those
places have been joined by none but these threads. -/
structure Since (count slots : Nat) (kept : List (Nat × Operation))
    (system : System) (trace : List Placing) : Prop where
  long : slots ≤ trace.length
  early : ∀ entry ∈ lineUp (trace.take slots), entry.1 < count
  keeps : kept ⊆ lineUp (trace.take slots)
  recent : ∀ (index : Nat) call current ptr, count ≤ index →
    system.threads[index]? = some ⟨call, .suspended current⟩ →
    current.pursued = some ptr → ∀ slot ∈ trace.take slots, ptr ∉ slot.drops

section Timing

variable {settings : Settings} {basePrompt : StdString} {system next : System}
  {trace : List Placing} {label : Label} {count slots : Nat}
  {kept : List (Nat × Operation)}

theorem Section.strayed_pursued {store : Store} {current : Section}
    {ptr : SessionPtr} (strayed : current.strayed store = some ptr) :
    current.pursued = some ptr := by
  have stray {target : SessionPtr}
      (strayed : Section.strayed.stray store target = some ptr) :
      target = ptr := by
    unfold Section.strayed.stray at strayed
    split at strayed
    · split at strayed
      · exact Option.some.inj strayed
      · contradiction
    · contradiction
  cases current with
  | begin target sessionId user requestId => exact congrArg some (stray strayed)
  | commit target requestId user text => exact congrArg some (stray strayed)
  | release target requestId => exact congrArg some (stray strayed)
  | _ => cases strayed

theorem exec_pursued {readings : Readings} {store : Store}
    {current following : Section} {outcome : Outcome} {ptr : SessionPtr}
    (executed : current.exec settings readings store = some outcome)
    (suspended : outcome.progress = .suspended following)
    (pursued : following.pursued = some ptr) : ¬ Unmapped store ptr := by
  cases current with
  | enter call =>
      cases enterCall_entered executed with
      | finds free found works =>
          cases suspended
          cases works with
          | _ =>
              obtain rfl := Option.some.inj pursued
              exact fun unmapped => unmapped _ found
      | returns failed setsNothing => cases suspended
      | prompts free => cases suspended
      | _ =>
          cases suspended
          cases pursued
  | reaping now rest after =>
      cases rest with
      | nil =>
          cases leaveReaping_left executed with
          | begins found =>
              cases suspended
              obtain rfl := Option.some.inj pursued
              exact fun unmapped => unmapped _ found
          | returns failed => cases suspended
          | _ =>
              cases suspended
              cases pursued
      | cons entry rest =>
          obtain ⟨session, found, rfl⟩ := Option.map_eq_some_iff.mp executed
          cases suspended
          cases pursued
  | closeStopped rest =>
      cases rest with
      | nil =>
          cases Option.some.inj executed
          cases suspended
      | cons target rest =>
          obtain ⟨session, found, rfl⟩ := Option.map_eq_some_iff.mp executed
          cases suspended
          cases pursued
  | _ =>
      obtain ⟨session, found, rfl⟩ := Option.map_eq_some_iff.mp executed
      cases suspended

theorem place_take (store : Store) (index : Nat) (call : Call)
    (current : Section) (outcome : Outcome) (long : slots ≤ trace.length) :
    (place store index call current outcome trace).take slots =
        trace.take slots ∨
      ∃ ptr, current.strayed store = some ptr ∧
        (place store index call current outcome trace).take slots =
          insertLate ptr (index, .call call) (trace.take slots) := by
  unfold place
  split
  · exact .inl (List.take_append_of_le_length long)
  · split
    · exact .inl rfl
    · split
      · rename_i ptr strayed
        exact .inr ⟨ptr, strayed, take_insertLate slots⟩
      · exact .inl (List.take_append_of_le_length long)

theorem place_length (store : Store) (index : Nat) (call : Call)
    (current : Section) (outcome : Outcome) :
    trace.length ≤ (place store index call current outcome trace).length := by
  unfold place
  split
  · simp
  · split
    · exact le_rfl
    · split
      · exact insertLate_length.ge
      · simp

theorem Since.step (dropped : ∀ slot ∈ trace, ∀ ptr ∈ slot.drops,
      Aside system.store ptr) (since : Since count slots kept system trace)
    (stepped : freeStep settings system label = some next) :
    Since count slots kept next (linearize settings system label trace) := by
  cases freeStep_moved stepped with
  | @calls call =>
      refine ⟨since.long, since.early, since.keeps, ?_⟩
      intro index other current ptr recent found pursued
      rcases Crew.getElem?_join_origin found with before | ⟨_, same⟩
      · exact since.recent index other current ptr recent before pursued
      · cases same
        cases pursued
  | @runs index readings call current outcome found executed =>
      simp only [linearize, found, executed]
      have placed := place_take system.store index call current outcome
        since.long
      have drops : ((place system.store index call current outcome
          trace).take slots).map Slot.drops =
          (trace.take slots).map Slot.drops := by
        rcases placed with same | ⟨ptr, _, same⟩
        · rw [same]
        · rw [same, insertLate_drops]
      constructor
      · exact since.long.trans (place_length _ _ _ _ _)
      · rcases placed with same | ⟨ptr, strayed, same⟩
        · rw [same]
          exact since.early
        · rw [same]
          intro entry member
          rcases mem_lineUp_insertLate member with before | ⟨rfl, slot, among, taken⟩
          · exact since.early entry before
          · by_contra late
            exact since.recent index call current ptr (Nat.le_of_not_lt late)
              found (Section.strayed_pursued strayed) slot among taken
      · rcases placed with same | ⟨ptr, _, same⟩
        · rw [same]
          exact since.keeps
        · rw [same]
          exact fun entry member => lineUp_subset_insertLate (since.keeps member)
      · intro other caller following ptr recent otherAt pursued slot member taken
        have before : slot.drops ∈ (trace.take slots).map Slot.drops :=
          drops ▸ List.mem_map_of_mem member
        obtain ⟨earlier, among, same⟩ := List.mem_map.mp before
        have old : ptr ∈ earlier.drops := same ▸ taken
        rcases Crew.getElem?_set_origin otherAt with ⟨rfl, here⟩ | ⟨_, before⟩
        · have suspended := congrArg Thread.progress here
          exact exec_pursued executed suspended pursued
            (dropped earlier (List.mem_of_mem_take among) ptr old).2
        · exact since.recent other caller following ptr recent before pursued
            earlier among old

end Timing

def linearOrder (settings : Settings) (basePrompt : StdString)
    (schedule : List Label) : List (Nat × Operation) :=
  match run (noting (freeStep settings) (linearize settings))
      (initialSystem basePrompt, []) schedule with
  | some (_, trace) => lineUp trace
  | none => []

/-- The directory, performing the operations in this order, comes to the same state
and gives every caller the same answer, and a call that has returned before another
one is made comes before it. -/
structure Linearizes (settings : Settings) (basePrompt : StdString)
    (schedule : List Label) (system : System)
    (order : List (Nat × Operation)) : Prop where
  represents : Represents system.store
    (replay (Directory.perform settings) (initialDirectory basePrompt) order)
  returned : ∀ (index : Nat) call output,
    system.threads[index]? = some ⟨call, .returned output⟩ →
    callsOf index order = [call] ∧
      ((index, .call call), output.timeless) ∈
        replies (Directory.perform settings) (initialDirectory basePrompt) order
  pending : ∀ (index : Nat) call current,
    system.threads[index]? = some ⟨call, .suspended current⟩ →
    callsOf index order = [] ∨ callsOf index order = [call]
  clients : ∀ entry ∈ order, entry.1 < system.threads.length
  expiries : ∀ entry ∈ replies (Directory.perform settings)
      (initialDirectory basePrompt) order, ∀ sessionId,
    entry.1.2 = .expire sessionId → entry.2 = .expired
  inTime : ∀ earlier middle, earlier <+: schedule →
    run (freeStep settings) (initialSystem basePrompt) earlier = some middle →
    ∃ first last, order = first ++ last ∧
      (∀ (index : Nat) call output,
        middle.threads[index]? = some ⟨call, .returned output⟩ →
        (index, .call call) ∈ first) ∧
      ∀ entry ∈ first, entry.1 < middle.threads.length

section Runs

variable {settings : Settings} {basePrompt : StdString}
  {system middle : System} {trace before : List Placing}
  {schedule : List Label}

theorem run_linearized
    (ran : run (noting (freeStep settings) (linearize settings))
      (initialSystem basePrompt, []) schedule = some (system, trace)) :
    Steady settings system ∧ Linearized settings basePrompt system trace := by
  let Holds (noted : System × List Placing) : Prop :=
    Steady settings noted.1 ∧ Linearized settings basePrompt noted.1 noted.2
  have preserved {noted next : System × List Placing} {label : Label}
      (holds : Holds noted)
      (stepped : noting (freeStep settings) (linearize settings) noted label =
        some next) : Holds next := by
    obtain ⟨system, trace⟩ := noted
    obtain ⟨after, places⟩ := next
    obtain ⟨advanced, rfl⟩ := noting_eq_some.mp stepped
    exact ⟨holds.1.step advanced, holds.2.step holds.1 advanced⟩
  have initially : Holds (initialSystem basePrompt, []) :=
    ⟨initialSystem_steady basePrompt,
      initialSystem_linearized settings basePrompt⟩
  exact run_invariant preserved initially ran

theorem run_since (steady : Steady settings middle)
    (linearized : Linearized settings basePrompt middle before)
    (ran : run (noting (freeStep settings) (linearize settings))
      (middle, before) schedule = some (system, trace)) :
    Since middle.threads.length before.length (lineUp before) system trace := by
  let Holds (noted : System × List Placing) : Prop :=
    (Steady settings noted.1 ∧ Linearized settings basePrompt noted.1 noted.2) ∧
      Since middle.threads.length before.length (lineUp before) noted.1 noted.2
  have preserved {noted next : System × List Placing} {label : Label}
      (holds : Holds noted)
      (stepped : noting (freeStep settings) (linearize settings) noted label =
        some next) : Holds next := by
    obtain ⟨system, trace⟩ := noted
    obtain ⟨after, places⟩ := next
    obtain ⟨advanced, rfl⟩ := noting_eq_some.mp stepped
    obtain ⟨⟨steady, linearized⟩, since⟩ := holds
    exact ⟨⟨steady.step advanced, linearized.step steady advanced⟩,
      since.step linearized.dropped advanced⟩
  have initially : Holds (middle, before) := by
    refine ⟨⟨steady, linearized⟩, le_rfl, ?_, ?_, ?_⟩
    · rw [List.take_length]
      exact linearized.clients
    · rw [List.take_length]
      exact List.Subset.refl _
    · intro index call current ptr recent found
      exact absurd (List.getElem?_eq_some_iff.mp found).1 (Nat.not_lt.mpr recent)
  exact (run_invariant preserved initially ran).2

theorem run_linearize (schedule : List Label) :
    (run (noting (freeStep settings) (linearize settings))
      (initialSystem basePrompt, []) schedule).map Prod.fst =
      run (freeStep settings) (initialSystem basePrompt) schedule :=
  run_noting _ _ _

theorem run_linearizes
    (ran : run (freeStep settings) (initialSystem basePrompt) schedule =
      some system) :
    Linearizes settings basePrompt schedule system
      (linearOrder settings basePrompt schedule) := by
  rw [← run_linearize] at ran
  obtain ⟨⟨_, trace⟩, noted, rfl⟩ := Option.map_eq_some_iff.mp ran
  have order : linearOrder settings basePrompt schedule = lineUp trace := by
    rw [linearOrder, noted]
  rw [order]
  obtain ⟨steady, linearized⟩ := run_linearized noted
  refine
    { represents := linearized.represents
      returned := fun index call output found =>
        linearized.threads index _ found
      pending := fun index call current found => ?_
      clients := linearized.clients
      expiries := linearized.expiries
      inTime := fun earlier middle before reached => ?_ }
  · have answered := linearized.threads index _ found
    cases settled : Progress.settled _ _ with
    | none =>
        rw [settled] at answered
        exact .inl answered
    | some reply =>
        rw [settled] at answered
        exact .inr answered.1
  · obtain ⟨later, rfl⟩ := before
    obtain ⟨⟨other, places⟩, first, second⟩ := run_append.mp noted
    have same : run (freeStep settings) (initialSystem basePrompt) earlier =
        some other := by
      rw [← run_linearize, first]
      rfl
    obtain rfl := Option.some.inj (reached.symm.trans same)
    obtain ⟨was, placed⟩ := run_linearized first
    have since := run_since was placed second
    refine ⟨lineUp (trace.take places.length), lineUp (trace.drop places.length),
      ?_, fun index call output found => ?_, since.early⟩
    · rw [← lineUp_append, List.take_append_drop]
    · obtain ⟨-, replied⟩ := placed.threads index _ found
      have entries := List.mem_map_of_mem (f := Prod.fst) replied
      rw [replies_entries] at entries
      exact since.keeps entries

/-- Some order of atomic operations has the calls' answers, in every run with fewer
than 2^64 creations. -/
theorem store_linearizable
    (ran : run (freeStep settings) (initialSystem basePrompt) schedule =
      some system) :
    ∃ order, Linearizes settings basePrompt schedule system order :=
  ⟨_, run_linearizes ran⟩

end Runs

theorem store_linearizable_sample :
    ∃ system, run (freeStep sampleSettings) (initialSystem []) sampleDeparture =
        some system ∧
      ∃ order, Linearizes sampleSettings [] sampleDeparture system order := by
  obtain ⟨system, ran⟩ : ∃ system, run (freeStep sampleSettings)
      (initialSystem []) sampleDeparture = some system := ⟨_, rfl⟩
  exact ⟨system, ran, store_linearizable ran⟩

/-! The request of `sampleDeparture` begins after its session has been deleted.  Its
place is before the deletion. -/

example : (linearOrder sampleSettings [] sampleDeparture).map Prod.fst = [0, 1, 2] := by
  decide +kernel

end ZooKeeperServer.SessionStore
