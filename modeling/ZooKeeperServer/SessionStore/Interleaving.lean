import ZooKeeperServer.SessionStore.Invariants

namespace ZooKeeperServer.SessionStore

/-! The store's invariant together with that of its callers, over every
interleaving of their sections. -/

structure Invariant (settings : Settings) (userOf : RequestId → ChatMessage)
    (system : System) : Prop where
  consistent : Consistent settings userOf system.store system.log
  sound : ∀ (index : Nat) (thread : Thread), system.threads[index]? = some thread →
    thread.progress.Sound userOf thread.call.begins system.store.heap system.log
  distinct : ∀ (index other : Nat) (first second : Thread) requestId,
    system.threads[index]? = some first → system.threads[other]? = some second →
    first.call.begins = some requestId → second.call.begins = some requestId →
    index = other
  beginner : ∀ ptr requestId result, .began ptr requestId result ∈ system.log →
    ∃ (index : Nat) (call : Call) (output : Output),
      system.threads[index]? = some ⟨call, .returned output⟩ ∧
        call.begins = some requestId

section Steps

variable {settings : Settings} {userOf : RequestId → ChatMessage}
  {system next : System}

theorem step_call {call : Call}
    (stepped : step settings userOf system (.call call) = some next) :
    Admissible userOf system.threads call ∧ next = { system with
      threads := system.threads ++ [⟨call, .suspended (.enter call)⟩] } := by
  simp only [step] at stepped
  split at stepped
  · rename_i admissible
    exact ⟨admissible, (Option.some.inj stepped).symm⟩
  · contradiction

theorem step_run {index : Nat} {readings : Readings}
    (stepped : step settings userOf system (.run index readings) = some next) :
    ∃ call current outcome,
      system.threads[index]? = some ⟨call, .suspended current⟩ ∧
        current.exec settings readings system.store = some outcome ∧
        next =
          { store := outcome.store
            threads := system.threads.set index ⟨call, outcome.progress⟩
            log := system.log ++ outcome.events } := by
  simp only [step] at stepped
  split at stepped
  · rename_i call current found
    obtain ⟨outcome, executed, rfl⟩ := Option.map_eq_some_iff.mp stepped
    exact ⟨call, current, outcome, found, executed, rfl⟩
  · contradiction

theorem Admissible.honest {threads : List Thread} {call : Call}
    (admissible : Admissible userOf threads call) : call.Honest userOf := by
  cases call with
  | beginRequest request requestId => exact admissible.2
  | commitResult sessionId requestId user result => exact admissible
  | commitResponseText sessionId requestId user result => exact admissible
  | _ => trivial

theorem Admissible.unused {threads : List Thread} {call : Call}
    {requestId : RequestId} (admissible : Admissible userOf threads call)
    (begins : call.begins = some requestId) :
    ∀ thread ∈ threads, thread.call.begins ≠ some requestId := by
  cases call with
  | beginRequest request other =>
      cases begins
      exact admissible.1
  | _ => cases begins

theorem Invariant.call {call : Call}
    (holds : Invariant settings userOf system)
    (admissible : Admissible userOf system.threads call) :
    Invariant settings userOf { system with
      threads := system.threads ++ [⟨call, .suspended (.enter call)⟩] } := by
  have origin {index : Nat} {thread : Thread}
      (found : (system.threads ++ [⟨call, .suspended (.enter call)⟩])[index]? =
        some thread) :
      system.threads[index]? = some thread ∨
        index = system.threads.length ∧
          thread = ⟨call, .suspended (.enter call)⟩ := by
    rw [List.getElem?_append] at found
    split at found
    · exact .inl found
    · rename_i beyond
      obtain ⟨last, rfl⟩ : index - system.threads.length = 0 ∧
          thread = ⟨call, .suspended (.enter call)⟩ := by
        simpa [List.getElem?_singleton, eq_comm] using found
      exact .inr ⟨by omega, rfl⟩
  have fresh {index : Nat} {thread : Thread} {requestId : RequestId}
      (found : system.threads[index]? = some thread)
      (begins : thread.call.begins = some requestId) :
      call.begins ≠ some requestId := fun same =>
    admissible.unused same thread (List.mem_of_getElem? found) begins
  constructor
  · exact holds.consistent
  · intro index thread found
    rcases origin found with before | ⟨_, rfl⟩
    · exact holds.sound index thread before
    · exact ⟨admissible.honest, rfl⟩
  · intro index other first second requestId firstAt secondAt one two
    rcases origin firstAt with before | ⟨rfl, rfl⟩
    · rcases origin secondAt with after | ⟨rfl, rfl⟩
      · exact holds.distinct index other first second requestId before after
          one two
      · exact absurd two (fresh before one)
    · rcases origin secondAt with after | ⟨rfl, rfl⟩
      · exact absurd one (fresh after two)
      · rfl
  · intro ptr requestId result began
    obtain ⟨index, caller, output, found, begins⟩ :=
      holds.beginner ptr requestId result began
    obtain ⟨bound, _⟩ := List.getElem?_eq_some_iff.mp found
    exact ⟨index, caller, output,
      by rw [List.getElem?_append_left bound, found], begins⟩

theorem Invariant.unbegun {index : Nat} {call : Call} {current : Section}
    {requestId : RequestId} (holds : Invariant settings userOf system)
    (found : system.threads[index]? = some ⟨call, .suspended current⟩)
    (begins : call.begins = some requestId) (ptr : SessionPtr)
    (result : BeginRequestResult) :
    .began ptr requestId result ∉ system.log := by
  intro began
  obtain ⟨other, caller, output, otherAt, same⟩ :=
    holds.beginner ptr requestId result began
  obtain rfl := holds.distinct index other _ _ requestId found otherAt begins same
  simp [found] at otherAt

theorem Effect.begin_returns {store next : Store} {current : Section}
    {progress : Progress} {events : List Event} {begins : Option RequestId}
    {log : List Event} {ptr : SessionPtr} {requestId : RequestId}
    {result : BeginRequestResult}
    (effect : Effect settings store current next progress events)
    (sound : current.Sound userOf begins store.heap log)
    (began : .began ptr requestId result ∈ events) :
    begins = some requestId ∧ progress = .returned (.begun (.ok result)) := by
  cases effect with
  | begin found opened idle =>
      cases List.mem_singleton.mp began
      exact ⟨sound.identified, rfl⟩
  | _ => simp at began

theorem Invariant.run {index : Nat} {call : Call} {current : Section}
    {readings : Readings} {outcome : Outcome}
    (holds : Invariant settings userOf system)
    (found : system.threads[index]? = some ⟨call, .suspended current⟩)
    (executed : current.exec settings readings system.store = some outcome) :
    Invariant settings userOf
      { store := outcome.store
        threads := system.threads.set index ⟨call, outcome.progress⟩
        log := system.log ++ outcome.events } := by
  have effect := exec_effect executed
  have sound : current.Sound userOf call.begins system.store.heap system.log :=
    holds.sound index _ found
  obtain ⟨bound, _⟩ := List.getElem?_eq_some_iff.mp found
  have here : (system.threads.set index ⟨call, outcome.progress⟩)[index]? =
      some ⟨call, outcome.progress⟩ := by
    simp [bound]
  have origin {other : Nat} {thread : Thread}
      (foundAfter : (system.threads.set index ⟨call, outcome.progress⟩)[other]? =
        some thread) :
      other = index ∧ thread = ⟨call, outcome.progress⟩ ∨
        system.threads[other]? = some thread := by
    by_cases same : index = other
    · subst same
      exact .inl ⟨rfl, Option.some.inj (foundAfter.symm.trans here)⟩
    · rw [List.getElem?_set_ne same] at foundAfter
      exact .inr foundAfter
  have caller {other : Nat} {thread : Thread}
      (foundAfter : (system.threads.set index ⟨call, outcome.progress⟩)[other]? =
        some thread) :
      ∃ before, system.threads[other]? = some before ∧
        before.call = thread.call := by
    rcases origin foundAfter with ⟨rfl, rfl⟩ | before
    · exact ⟨_, found, rfl⟩
    · exact ⟨thread, before, rfl⟩
  constructor
  · exact effect.consistent holds.consistent sound
      fun requestId begins => holds.unbegun found begins
  · intro other thread foundAfter
    rcases origin foundAfter with ⟨rfl, rfl⟩ | before
    · exact exec_sound holds.consistent.mapped sound executed
    · exact (holds.sound other thread before).mono effect.preserves
  · intro one two first second requestId firstAt secondAt firstId secondId
    obtain ⟨before, beforeAt, beforeCall⟩ := caller firstAt
    obtain ⟨after, afterAt, afterCall⟩ := caller secondAt
    exact holds.distinct one two before after requestId beforeAt afterAt
      (beforeCall ▸ firstId) (afterCall ▸ secondId)
  · intro ptr requestId result began
    rcases List.mem_append.mp began with earlier | later
    · obtain ⟨other, caller, output, otherAt, begins⟩ :=
        holds.beginner ptr requestId result earlier
      have different : index ≠ other := by
        rintro rfl
        simp [found] at otherAt
      exact ⟨other, caller, output,
        by rw [List.getElem?_set_ne different, otherAt], begins⟩
    · obtain ⟨begins, progress⟩ := effect.begin_returns sound later
      exact ⟨index, call, _, by rw [here, progress], begins⟩

theorem Invariant.preserved {label : Label}
    (holds : Invariant settings userOf system)
    (stepped : step settings userOf system label = some next) :
    Invariant settings userOf next := by
  cases label with
  | call call =>
      obtain ⟨admissible, rfl⟩ := step_call stepped
      exact holds.call admissible
  | run index readings =>
      obtain ⟨call, current, outcome, found, executed, rfl⟩ := step_run stepped
      exact holds.run found executed

theorem initialSystem_invariant (basePrompt : StdString) :
    Invariant settings userOf (initialSystem basePrompt) where
  consistent := initialStore_consistent basePrompt
  sound := by simp [initialSystem]
  distinct := by simp [initialSystem]
  beginner := by simp [initialSystem]

theorem reachable_invariant {basePrompt : StdString}
    (reached : Transition.Reachable (step settings userOf)
      (initialSystem basePrompt) system) :
    Invariant settings userOf system := by
  obtain ⟨schedule, executed⟩ := reached
  exact Transition.run_invariant Invariant.preserved
    (initialSystem_invariant basePrompt) executed

end Steps

end ZooKeeperServer.SessionStore
