import ZooKeeperServer.SessionStore.Removal
import ZooKeeperServer.Transition.Crew

namespace ZooKeeperServer.SessionStore

open Transition

/-! The store under callers that promise nothing: any calls, in any interleaving of
their sections. -/

section Steps

variable (settings : Settings)

def freeStep (system : System) : Label → Option System
  | .call call =>
      some { system with
        threads := system.threads ++ [⟨call, .suspended (.enter call)⟩] }
  | .run index readings =>
      match system.threads[index]? with
      | some ⟨call, .suspended current⟩ =>
          (current.exec settings readings system.store).map fun outcome =>
            { store := outcome.store
              threads := system.threads.set index ⟨call, outcome.progress⟩
              log := system.log ++ outcome.events }
      | _ => none

inductive Moved (system : System) : Label → System → Prop
  | calls {call : Call} :
      Moved system (.call call) { system with
        threads := system.threads ++ [⟨call, .suspended (.enter call)⟩] }
  | runs {index : Nat} {readings : Readings} {call : Call} {current : Section}
      {outcome : Outcome}
      (found : system.threads[index]? = some ⟨call, .suspended current⟩)
      (executed : current.exec settings readings system.store = some outcome) :
      Moved system (.run index readings)
        { store := outcome.store
          threads := system.threads.set index ⟨call, outcome.progress⟩
          log := system.log ++ outcome.events }

variable {settings} {userOf : RequestId → ChatMessage} {system next : System}
  {label : Label}

theorem freeStep_moved (stepped : freeStep settings system label = some next) :
    Moved settings system label next := by
  cases label with
  | call call =>
      cases Option.some.inj stepped
      exact .calls
  | run index readings =>
      simp only [freeStep] at stepped
      split at stepped
      · rename_i call current found
        obtain ⟨outcome, executed, rfl⟩ := Option.map_eq_some_iff.mp stepped
        exact .runs found executed
      · contradiction

theorem step_freeStep (stepped : step settings userOf system label = some next) :
    freeStep settings system label = some next := by
  cases label with
  | call call =>
      obtain ⟨_, rfl⟩ := step_call stepped
      rfl
  | run index readings => exact stepped

end Steps

def Call.looksUp : Call → Option StdString
  | .getSession sessionId => some sessionId
  | .beginRequest request _ => request.sessionId
  | _ => none

def Call.finishes : Call → Option StdString
  | .commitResult sessionId _ _ _ => some sessionId
  | .commitResponseText sessionId _ _ _ => some sessionId
  | .releaseRequest sessionId _ => some sessionId
  | _ => none

/-- The thread does what its call asks for, and what it is about to reap or to end
a request on is the session it takes it for. -/
def Serves (settings : Settings) (heap : List SessionState) (call : Call) :
    Progress → Prop
  | .suspended (.enter other) => other = call
  | .suspended (.reaping _ rest after) =>
      Reaps settings call after ∧
        ∀ entry ∈ rest, Refers heap entry.1 entry.2
  | .suspended (.commit ptr _ _ _) =>
      ∃ sessionId, call.finishes = some sessionId ∧ Refers heap sessionId ptr
  | .suspended (.release ptr _) =>
      ∃ sessionId, call.finishes = some sessionId ∧ Refers heap sessionId ptr
  | .suspended _ => call.finishes = none
  | .returned _ => True

section Serving

variable {settings : Settings} {readings : Readings} {store : Store}
  {call : Call} {current : Section} {progress : Progress} {outcome : Outcome}
  {heap after : List SessionState}

theorem Serves.mono (serves : Serves settings heap call progress)
    (preserved : Preserves heap after) :
    Serves settings after call progress := by
  cases progress with
  | returned output => trivial
  | suspended current =>
      cases current with
      | reaping now rest afterReap =>
          exact ⟨serves.1, fun entry member =>
            preserved _ _ (serves.2 entry member)⟩
      | commit ptr requestId user text =>
          obtain ⟨sessionId, finishes, refers⟩ := serves
          exact ⟨sessionId, finishes, preserved _ _ refers⟩
      | release ptr requestId =>
          obtain ⟨sessionId, finishes, refers⟩ := serves
          exact ⟨sessionId, finishes, preserved _ _ refers⟩
      | _ => exact serves

theorem Reaps.finishes {afterReap : AfterReap}
    (reaps : Reaps settings call afterReap) : call.finishes = none := by
  cases reaps with
  | _ => rfl

theorem exec_serves (mapped : Mapped store)
    (serves : Serves settings store.heap call (.suspended current))
    (executed : current.exec settings readings store = some outcome) :
    Serves settings outcome.store.heap call outcome.progress := by
  have preserved := (exec_effect executed).preserves
  cases current with
  | enter other =>
      obtain rfl : other = call := serves
      cases enterCall_entered executed with
      | returns failed setsNothing => trivial
      | reaps free reaps running all =>
          exact ⟨reaps, fun entry among =>
            mapped.entries entry (all.mem_iff.mp among)⟩
      | finds free found works =>
          cases works with
          | commitResult => exact ⟨_, rfl, mapped _ _ found⟩
          | commitResponseText => exact ⟨_, rfl, mapped _ _ found⟩
          | release => exact ⟨_, rfl, mapped _ _ found⟩
      | erases free found => rfl
      | prompts free => trivial
      | stops free running => rfl
  | reaping now rest afterReap =>
      obtain ⟨reaps, refers⟩ := serves
      cases rest with
      | nil =>
          cases leaveReaping_left executed with
          | returns failed => trivial
          | creates room => exact reaps.finishes
          | gets found => exact reaps.finishes
          | begins found => exact reaps.finishes
      | cons entry rest =>
          obtain ⟨session, found, rfl⟩ := Option.map_eq_some_iff.mp executed
          exact ⟨reaps, fun other member =>
            preserved _ _ (refers other (List.mem_cons_of_mem _ member))⟩
  | closeStopped rest =>
      cases rest with
      | nil =>
          cases Option.some.inj executed
          trivial
      | cons ptr rest =>
          obtain ⟨session, found, rfl⟩ := Option.map_eq_some_iff.mp executed
          exact serves
  | _ =>
      obtain ⟨session, found, rfl⟩ := Option.map_eq_some_iff.mp executed
      trivial

end Serving

/-- What is still to be done under the store's lock, if the thread holds it between
two steps. -/
def Progress.inside : Progress → Option AfterReap
  | .suspended (.reaping _ _ after) => some after
  | _ => none

inductive Guards (store : Store) : Section → Outcome → Prop
  | takes {call : Call} {after : AfterReap} {outcome : Outcome}
      (free : store.locked = false) (taken : outcome.store.locked = true)
      (stopping : outcome.store.stopping = store.stopping)
      (inside : outcome.progress.inside = some after)
      (running : ∀ request, after = .create request →
        store.stopping = false) :
      Guards store (.enter call) outcome
  | keeps {now : Int} {entry : SessionEntry} {rest : List SessionEntry}
      {after : AfterReap} {outcome : Outcome}
      (locked : outcome.store.locked = store.locked)
      (stopping : outcome.store.stopping = store.stopping)
      (inside : outcome.progress.inside = some after) :
      Guards store (.reaping now (entry :: rest) after) outcome
  | gives {now : Int} {after : AfterReap} {outcome : Outcome}
      (given : outcome.store.locked = false)
      (stopping : outcome.store.stopping = store.stopping)
      (outside : outcome.progress.inside = none) :
      Guards store (.reaping now [] after) outcome
  | stops {outcome : Outcome} (free : store.locked = false)
      (locked : outcome.store.locked = false)
      (stopping : outcome.store.stopping = true)
      (empty : outcome.store.sessions = ∅)
      (outside : outcome.progress.inside = none) :
      Guards store (.enter .stop) outcome
  | passes {current : Section} {outcome : Outcome}
      (before : (Progress.suspended current).inside = none)
      (locked : outcome.store.locked = store.locked)
      (stopping : outcome.store.stopping = store.stopping)
      (outside : outcome.progress.inside = none) :
      Guards store current outcome

section Guarding

variable {settings : Settings} {readings : Readings} {store : Store}
  {current : Section} {outcome : Outcome}

theorem reapEntry_flags (now : Int) (store : Store) (entry : SessionEntry) :
    (reapEntry now store entry).locked = store.locked ∧
      (reapEntry now store entry).stopping = store.stopping := by
  unfold reapEntry
  split
  · exact ⟨rfl, rfl⟩
  · split
    · exact ⟨rfl, rfl⟩
    · exact ⟨rfl, rfl⟩

theorem exec_guards
    (executed : current.exec settings readings store = some outcome) :
    Guards store current outcome := by
  cases current with
  | enter call =>
      cases enterCall_entered executed with
      | returns failed setsNothing => exact .passes rfl rfl rfl rfl
      | reaps free reaps running => exact .takes free rfl rfl rfl running
      | finds free found works =>
          cases works with
          | _ => exact .passes rfl rfl rfl rfl
      | erases free found => exact .passes rfl rfl rfl rfl
      | prompts free => exact .passes rfl rfl rfl rfl
      | stops free running => exact .stops free free rfl rfl rfl
  | reaping now rest after =>
      cases rest with
      | nil =>
          cases leaveReaping_left executed with
          | _ => exact .gives rfl rfl rfl
      | cons entry rest =>
          obtain ⟨session, found, rfl⟩ := Option.map_eq_some_iff.mp executed
          obtain ⟨locked, stopping⟩ := reapEntry_flags now store entry
          exact .keeps locked stopping rfl
  | closeStopped rest =>
      cases rest with
      | nil =>
          cases Option.some.inj executed
          exact .passes rfl rfl rfl rfl
      | cons ptr rest =>
          obtain ⟨session, found, rfl⟩ := Option.map_eq_some_iff.mp executed
          exact .passes rfl rfl rfl rfl
  | _ =>
      obtain ⟨session, found, rfl⟩ := Option.map_eq_some_iff.mp executed
      exact .passes rfl rfl rfl rfl

theorem Effect.stopped {next : Store} {progress : Progress}
    {events : List Event}
    (effect : Effect settings store current next progress events)
    (stopped : .stopped ∈ events) : current = .enter .stop := by
  cases effect with
  | dropAll dropped => rfl
  | _ => simp at stopped

theorem exec_stopped
    (executed : current.exec settings readings store = some outcome)
    (stopped : .stopped ∈ outcome.events) :
    outcome.store.stopping = true := by
  obtain rfl := (exec_effect executed).stopped stopped
  have entered : Entered settings readings store .stop outcome :=
    enterCall_entered executed
  cases entered with
  | returns failed setsNothing => cases stopped
  | reaps free reaps running => cases reaps
  | finds free found works => cases works
  | stops free running => rfl

end Guarding

/-- At most one thread is inside the store's lock, and no other one takes it. -/
structure Exclusive (system : System) : Prop where
  locked : ∀ (index : Nat) thread after,
    system.threads[index]? = some thread →
    thread.progress.inside = some after → system.store.locked = true
  alone : ∀ (index other : Nat) first second, index ≠ other →
    system.threads[index]? = some first →
    system.threads[other]? = some second →
    first.progress.inside = none ∨ second.progress.inside = none

section Excluding

variable {settings : Settings} {system : System} {index : Nat} {call : Call}
  {current : Section} {outcome : Outcome}

theorem Exclusive.free (exclusive : Exclusive system)
    (free : system.store.locked = false) {other : Nat} {thread : Thread}
    (found : system.threads[other]? = some thread) :
    thread.progress.inside = none := by
  cases inside : thread.progress.inside with
  | none => rfl
  | some after =>
      have held := exclusive.locked other thread after found inside
      exact absurd (held.symm.trans free) (by simp)

theorem Exclusive.calls (exclusive : Exclusive system) (call : Call) :
    Exclusive { system with
      threads := system.threads ++ [⟨call, .suspended (.enter call)⟩] } where
  locked := by
    intro index thread after found inside
    rcases Crew.getElem?_join_origin found with before | ⟨_, rfl⟩
    · exact exclusive.locked index thread after before inside
    · cases inside
  alone := by
    refine Crew.between_join (fun _ _ _ => .inl rfl) (fun _ _ _ => .inr rfl) ?_
    exact exclusive.alone

/-- The thread inside the lock keeps the others out. -/
theorem Guards.others (exclusive : Exclusive system)
    (guards : Guards system.store current outcome)
    (found : system.threads[index]? = some ⟨call, .suspended current⟩)
    (matters : outcome.store.locked ≠ system.store.locked ∨
      outcome.progress.inside ≠ none)
    {other : Nat} {thread : Thread} (different : index ≠ other)
    (otherAt : system.threads[other]? = some thread) :
    thread.progress.inside = none := by
  have alone {after : AfterReap}
      (inside : (Progress.suspended current).inside = some after) :
      thread.progress.inside = none := by
    rcases exclusive.alone index other _ _ different found otherAt with
      outside | outside
    · exact absurd (inside.symm.trans outside) (by simp)
    · exact outside
  cases guards with
  | takes free => exact exclusive.free free otherAt
  | keeps => exact alone rfl
  | gives => exact alone rfl
  | stops free => exact exclusive.free free otherAt
  | passes before locked stopping outside =>
      rcases matters with changed | inside
      · exact absurd locked changed
      · exact absurd outside inside

theorem Guards.holds (exclusive : Exclusive system)
    (guards : Guards system.store current outcome)
    (found : system.threads[index]? = some ⟨call, .suspended current⟩)
    (inside : outcome.progress.inside ≠ none) :
    outcome.store.locked = true := by
  cases guards with
  | takes free taken => exact taken
  | keeps locked =>
      exact locked.trans (exclusive.locked index _ _ found rfl)
  | gives given stopping outside => exact absurd outside inside
  | stops free locked stopping empty outside => exact absurd outside inside
  | passes before locked stopping outside => exact absurd outside inside

theorem Exclusive.runs (exclusive : Exclusive system)
    (guards : Guards system.store current outcome)
    (found : system.threads[index]? = some ⟨call, .suspended current⟩)
    (log : List Event) :
    Exclusive
      { store := outcome.store
        threads := system.threads.set index ⟨call, outcome.progress⟩
        log } where
  locked := by
    intro other thread after otherAt inside
    rcases Crew.getElem?_set_origin otherAt with ⟨_, rfl⟩ | ⟨different, before⟩
    · exact guards.holds exclusive found (by simp [inside])
    · by_cases same : outcome.store.locked = system.store.locked
      · exact same.trans (exclusive.locked other thread after before inside)
      · have outside := guards.others exclusive found (.inl same) different before
        exact absurd (inside.symm.trans outside) (by simp)
  alone := by
    have apart {other : Nat} {thread : Thread} (different : index ≠ other)
        (otherAt : system.threads[other]? = some thread) :
        outcome.progress.inside = none ∨ thread.progress.inside = none := by
      by_cases outside : outcome.progress.inside = none
      · exact .inl outside
      · exact .inr (guards.others exclusive found (.inr outside) different otherAt)
    refine Crew.between_set ?_ ?_ ?_
    · intro other second different secondAt
      exact apart different.symm secondAt
    · intro other first different firstAt
      exact (apart different.symm firstAt).symm
    · intro one two first second _ _ different firstAt secondAt
      exact exclusive.alone one two first second different firstAt secondAt

end Excluding

/-- Once the store is stopping it holds no session and gets none. -/
structure Halted (system : System) : Prop where
  flagged : .stopped ∈ system.log → system.store.stopping = true
  empty : system.store.stopping = true →
    ∀ sessionId, system.store.sessions.lookup sessionId = none
  quiet : system.store.stopping = true → ∀ (index : Nat) thread request,
    system.threads[index]? = some thread →
    thread.progress.inside ≠ some (.create request)

section Halting

variable {settings : Settings} {readings : Readings} {system : System}
  {index : Nat} {call : Call} {current : Section} {outcome : Outcome}

theorem Effect.keeps_empty {store next : Store} {progress : Progress}
    {events : List Event}
    (effect : Effect settings store current next progress events)
    (creating : ∀ request,
      (Progress.suspended current).inside ≠ some (.create request))
    (empty : ∀ sessionId, store.sessions.lookup sessionId = none)
    (sessionId : StdString) : next.sessions.lookup sessionId = none := by
  cases effect with
  | silent heap sessions => rw [sessions, empty]
  | create shape => exact absurd rfl (creating _)
  | expire found idle heap sessions =>
      rw [sessions]
      exact lookup_erase_none (empty sessionId) _
  | erase found heap sessions =>
      rw [sessions]
      exact lookup_erase_none (empty sessionId) _
  | dropAll dropped heap sessions =>
      rw [sessions]
      rfl
  | _ => exact empty sessionId

theorem Guards.stopping_before {store : Store}
    (guards : Guards store current outcome)
    (stopping : outcome.store.stopping = true) :
    store.stopping = true ∨ store.locked = false ∧
      outcome.store.sessions = ∅ ∧ outcome.progress.inside = none := by
  cases guards with
  | stops free locked _ empty outside => exact .inr ⟨free, empty, outside⟩
  | takes free taken same => exact .inl (same ▸ stopping)
  | keeps locked same => exact .inl (same ▸ stopping)
  | gives given same => exact .inl (same ▸ stopping)
  | passes before locked same => exact .inl (same ▸ stopping)

/-- The lock is not taken to create a session while the store is stopping. -/
theorem Guards.creating {store : Store} {request : SessionCreateRequest}
    (guards : Guards store current outcome)
    (creating : outcome.progress.inside = some (.create request)) :
    store.stopping = false ∨
      (Progress.suspended current).inside = some (.create request) := by
  cases guards with
  | takes free taken stopping inside running =>
      rw [inside] at creating
      exact .inl (running request (Option.some.inj creating))
  | keeps locked stopping inside =>
      exact .inr (inside.symm.trans creating)
  | gives given stopping outside =>
      exact absurd (outside.symm.trans creating) (by simp)
  | stops free locked stopping empty outside =>
      exact absurd (outside.symm.trans creating) (by simp)
  | passes before locked stopping outside =>
      exact absurd (outside.symm.trans creating) (by simp)

theorem Halted.calls (halted : Halted system) (call : Call) :
    Halted { system with
      threads := system.threads ++ [⟨call, .suspended (.enter call)⟩] } where
  flagged := halted.flagged
  empty := halted.empty
  quiet := by
    intro stopping index thread request found
    rcases Crew.getElem?_join_origin found with before | ⟨_, rfl⟩
    · exact halted.quiet stopping index thread request before
    · simp [Progress.inside]

theorem Halted.runs (halted : Halted system) (exclusive : Exclusive system)
    (found : system.threads[index]? = some ⟨call, .suspended current⟩)
    (executed : current.exec settings readings system.store = some outcome) :
    Halted
      { store := outcome.store
        threads := system.threads.set index ⟨call, outcome.progress⟩
        log := system.log ++ outcome.events } where
  flagged := by
    intro stopped
    rcases List.mem_append.mp stopped with earlier | later
    · have stopping := halted.flagged earlier
      cases exec_guards executed with
      | stops free locked flag => exact flag
      | takes free taken same => exact same.trans stopping
      | keeps locked same => exact same.trans stopping
      | gives given same => exact same.trans stopping
      | passes before locked same => exact same.trans stopping
    · exact exec_stopped executed later
  empty := by
    intro stopping sessionId
    rcases (exec_guards executed).stopping_before stopping with
      before | ⟨_, empty, _⟩
    · exact (exec_effect executed).keeps_empty
        (fun request => halted.quiet before index _ request found)
        (halted.empty before) sessionId
    · change outcome.store.sessions.lookup sessionId = none
      rw [empty]
      rfl
  quiet := by
    intro stopping other thread request otherAt creating
    have guards := exec_guards executed
    rcases guards.stopping_before stopping with before | ⟨free, _, outside⟩
    · rcases Crew.getElem?_set_origin otherAt with ⟨_, rfl⟩ | ⟨_, at_⟩
      · rcases guards.creating creating with running | inside
        · exact absurd (running.symm.trans before) (by simp)
        · exact halted.quiet before index _ request found inside
      · exact halted.quiet before other thread request at_ creating
    · rcases Crew.getElem?_set_origin otherAt with ⟨_, rfl⟩ | ⟨_, at_⟩
      · exact absurd (outside.symm.trans creating) (by simp)
      · exact absurd ((exclusive.free free at_).symm.trans creating) (by simp)

end Halting

def Removes (store : Store) (log : List Event) : Prop :=
  ∀ ptr, .expired ptr ∈ log ∨ .deleted ptr ∈ log →
    ∃ sessionId, Refers store.heap sessionId ptr ∧
      store.sessions.lookup sessionId = none

theorem Effect.removes {settings : Settings} {store next : Store}
    {current : Section} {call : Call} {progress : Progress}
    {log events : List Event}
    (effect : Effect settings store current next progress events)
    (formed : WellFormed store)
    (serves : Serves settings store.heap call (.suspended current))
    (removes : Removes store log) : Removes next (log ++ events) := by
  intro ptr gone
  have before (earlier : .expired ptr ∈ log ∨ .deleted ptr ∈ log) :
      ∃ sessionId, Refers next.heap sessionId ptr ∧
        next.sessions.lookup sessionId = none := by
    obtain ⟨sessionId, refers, absent⟩ := removes ptr earlier
    have retired : Retired sessionId store := ⟨⟨ptr, refers⟩, absent⟩
    exact ⟨sessionId, effect.preserves _ _ refers,
      (retired.mono formed effect).2⟩
  have now (later : .expired ptr ∈ events ∨ .deleted ptr ∈ events) :
      ∃ sessionId, Refers next.heap sessionId ptr ∧
        next.sessions.lookup sessionId = none := by
    have preserved := effect.preserves
    cases effect with
    | @expire now entry rest after session next found idle heap sessions =>
        obtain rfl : ptr = entry.2 := by simpa using later
        refine ⟨entry.1, preserved _ _ (serves.2 entry List.mem_cons_self), ?_⟩
        rw [sessions]
        exact AList.lookup_erase _ _
    | @erase sessionId other next found heap sessions =>
        obtain rfl : ptr = other := by simpa using later
        refine ⟨sessionId, preserved _ _ (formed.mapped _ _ found), ?_⟩
        rw [sessions]
        exact AList.lookup_erase _ _
    | _ => simp at later
  simp only [List.mem_append] at gone
  tauto

end ZooKeeperServer.SessionStore
