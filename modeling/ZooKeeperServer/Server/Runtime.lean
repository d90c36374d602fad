import ZooKeeperServer.Server.Executor
import ZooKeeperServer.Transition.Counters
import ZooKeeperServer.Transition.Crew
import ZooKeeperServer.Transition.Ranked

namespace ZooKeeperServer.Runtime

open Transition Executor

/-! The server's own threads: the reaper, the pool of the continuations, and any
number of threads that submit to it or stop the server. -/

universe u

def continuationWorkerCount (hardwareThreads : Nat) : Nat :=
  if hardwareThreads = 0 then 2 else min 4 (max 2 hardwareThreads)

def continuationQueueDepth (requestQueueCapacity : Nat) : Nat :=
  max 32 (max 1 requestQueueCapacity * 2 % 2 ^ 64)

inductive Reaper
  | waiting
  | reaping
  | exited
  deriving DecidableEq

/-- Where a call of `ServerRuntime::stop` is; `inExecutor` is inside the pool's own
`stop`. -/
inductive StopCall
  | entered
  | joiningReaper
  | stoppingExecutor
  | inExecutor (call : Nat)
  | stoppingService
  | returnedEarly
  | returned
  deriving DecidableEq

inductive Event (Task : Type u)
  | ran (task : Task)
  | reaped
  | serviceStopped
  deriving DecidableEq

structure ServerRuntime (Task : Type u) where
  /-- No thread where the sessions are disabled. -/
  reaper : Option Reaper
  executor : BoundedExecutor Task
  stopping : Bool := false
  stops : List StopCall := []
  submitted : List (Task × Except StdString Unit) := []
  log : List (Event Task) := []

inductive Label (Task : Type u)
  | submitBackground (task : Task)
  | stop
  | stopSection (call : Nat)
  | reaper
  | take (worker : Nat)
  | finish (worker : Nat) (ending : TaskEnd)

namespace ServerRuntime

variable {Task : Type u}

def make (sessionsEnabled : Bool) (hardwareThreads requestQueueCapacity : Nat) :
    ServerRuntime Task where
  reaper := if sessionsEnabled then some .waiting else none
  executor := BoundedExecutor.make (continuationWorkerCount hardwareThreads)
    (continuationQueueDepth requestQueueCapacity)

/-- Under `tasks_mutex_`, which `stop` takes to set `stopping_`. -/
def submitBackground (runtime : ServerRuntime Task) (task : Task) :
    ServerRuntime Task × Except StdString Unit :=
  if runtime.stopping then
    (runtime, .error (literal "Server runtime is stopping"))
  else
    let (executor, result) := runtime.executor.submit task
    ({ runtime with
        executor := { executor with
          submitted := executor.submitted ++ [(task, result)] } },
      result)

/-- The next section of a `stop`.  It joins the reaper, then stops the pool, which
joins the workers, then the service. -/
def stopSection (runtime : ServerRuntime Task) :
    StopCall → Option (ServerRuntime Task × StopCall)
  | .entered =>
      if runtime.stopping then some (runtime, .returnedEarly)
      else some ({ runtime with stopping := true }, .joiningReaper)
  | .joiningReaper =>
      match runtime.reaper with
      | none => some (runtime, .stoppingExecutor)
      | some .exited => some (runtime, .stoppingExecutor)
      | some _ => none
  | .stoppingExecutor =>
      (Executor.step runtime.executor .stop).map fun executor =>
        ({ runtime with executor },
          .inExecutor runtime.executor.stops.length)
  | .inExecutor call =>
      match runtime.executor.stops[call]? with
      | some .returnedEarly => some (runtime, .stoppingService)
      | some .joinedAll => some (runtime, .stoppingService)
      | _ =>
          (Executor.step runtime.executor (.stopSection call)).map
            fun executor => ({ runtime with executor }, .inExecutor call)
  | .stoppingService =>
      some ({ runtime with log := runtime.log ++ [.serviceStopped] }, .returned)
  | .returnedEarly => none
  | .returned => none

/-- The next section of `run_session_reaper`.  Its wait may end at any time. -/
def reap (runtime : ServerRuntime Task) : Option (ServerRuntime Task) :=
  match runtime.reaper with
  | some .waiting =>
      some { runtime with
        reaper := some (if runtime.stopping then .exited else .reaping) }
  | some .reaping =>
      some { runtime with
        reaper := some .waiting
        log := runtime.log ++ [.reaped] }
  | _ => none

def accepted (runtime : ServerRuntime Task) : List Task :=
  runtime.submitted.filterMap fun (task, result) =>
    match result with
    | .ok () => some task
    | .error _ => none

end ServerRuntime

def Event.task? {Task : Type u} : Event Task → Option Task
  | .ran task => some task
  | _ => none

section Steps

variable {Task : Type u}

def finishes (executor : BoundedExecutor Task) (worker : Nat) :
    List (Event Task) :=
  match executor.workers[worker]? with
  | some (.running task) => [.ran task]
  | _ => []

def step (runtime : ServerRuntime Task) :
    Label Task → Option (ServerRuntime Task)
  | .submitBackground task =>
      let (after, result) := runtime.submitBackground task
      some { after with submitted := after.submitted ++ [(task, result)] }
  | .stop => some { runtime with stops := runtime.stops ++ [.entered] }
  | .stopSection call =>
      match runtime.stops[call]? with
      | none => none
      | some stop =>
          (runtime.stopSection stop).map fun (after, stop) =>
            { after with stops := after.stops.set call stop }
  | .reaper => runtime.reap
  | .take worker =>
      (Executor.step runtime.executor (.take worker)).map fun executor =>
        { runtime with executor }
  | .finish worker ending =>
      (Executor.step runtime.executor (.finish worker ending)).map
        fun executor =>
          { runtime with
            executor
            log := runtime.log ++ finishes runtime.executor worker }

end Steps

section Shutdown

variable {Task : Type u}

/-- The call has set `stopping_`, and shuts the server down. -/
def StopCall.Leads : StopCall → Prop
  | .entered => False
  | .returnedEarly => False
  | _ => True

def ServerRuntime.Unattended (runtime : ServerRuntime Task) : Prop :=
  runtime.reaper = none ∨ runtime.reaper = some .exited

def Achieved (runtime : ServerRuntime Task) : StopCall → Prop
  | .entered => True
  | .returnedEarly => True
  | .joiningReaper =>
      runtime.executor.stops = [] ∧ .serviceStopped ∉ runtime.log
  | .stoppingExecutor =>
      runtime.Unattended ∧ runtime.executor.stops = [] ∧
        .serviceStopped ∉ runtime.log
  | .inExecutor call =>
      runtime.Unattended ∧ .serviceStopped ∉ runtime.log ∧
        call = 0 ∧ ∃ inner, runtime.executor.stops = [inner] ∧
          inner ≠ .returnedEarly ∧
          (inner = .entered → runtime.executor.stopping = false)
  | .stoppingService =>
      runtime.Unattended ∧ .serviceStopped ∉ runtime.log ∧
        .joinedAll ∈ runtime.executor.stops
  | .returned =>
      runtime.Unattended ∧ .joinedAll ∈ runtime.executor.stops ∧
        ∃ before, runtime.log = before ++ [.serviceStopped] ∧
          .serviceStopped ∉ before

structure Governed (limit : Nat) (runtime : ServerRuntime Task) : Prop where
  accounts : Accounts limit runtime.executor
  accepted : runtime.accepted = runtime.executor.accepted
  ran : runtime.log.filterMap Event.task? = runtime.executor.finished
  achieved : ∀ stop ∈ runtime.stops, Achieved runtime stop
  begun : ∀ stop ∈ runtime.stops, stop ≠ .entered → runtime.stopping = true
  alone : ∀ (one other : Nat) first second,
    runtime.stops[one]? = some first → runtime.stops[other]? = some second →
    first.Leads → second.Leads → one = other
  led : runtime.stopping = true → ∃ stop ∈ runtime.stops, stop.Leads
  quiet : runtime.stopping = false →
    runtime.executor.stops = [] ∧ .serviceStopped ∉ runtime.log
  unstopped : runtime.executor.stops = [] → runtime.executor.stopping = false
  service : .serviceStopped ∈ runtime.log → .returned ∈ runtime.stops

variable {runtime next : ServerRuntime Task} {limit : Nat}

theorem Governed.leads (governed : Governed limit runtime) (stop : StopCall)
    (member : stop ∈ runtime.stops) (leads : stop.Leads) :
    runtime.stopping = true := by
  refine governed.begun stop member ?_
  rintro rfl
  exact leads

theorem no_take {executor : BoundedExecutor Task}
    (accounts : Accounts limit executor) (joined : .joinedAll ∈ executor.stops)
    (worker : Nat) : executor.take worker = none := by
  have gone := accounts.joinedAll joined
  unfold BoundedExecutor.take
  cases found : executor.workers[worker]? with
  | none => rfl
  | some held => rw [gone held (List.mem_of_getElem? found)]

theorem no_finish {executor : BoundedExecutor Task}
    (accounts : Accounts limit executor) (joined : .joinedAll ∈ executor.stops)
    (worker : Nat) (ending : TaskEnd) :
    executor.finish worker ending = none := by
  have gone := accounts.joinedAll joined
  unfold BoundedExecutor.finish
  cases found : executor.workers[worker]? with
  | none => rfl
  | some held => rw [gone held (List.mem_of_getElem? found)]

theorem Achieved.mono {after : ServerRuntime Task} {stop : StopCall}
    {more : List (Event Task)} (achieved : Achieved runtime stop)
    (reaper : runtime.Unattended → after.reaper = runtime.reaper)
    (stops : after.executor.stops = runtime.executor.stops)
    (stopping : after.executor.stopping = runtime.executor.stopping)
    (log : after.log = runtime.log ++ more)
    (others : .serviceStopped ∉ more)
    (idle : runtime.Unattended → .joinedAll ∈ runtime.executor.stops →
      more = []) : Achieved after stop := by
  have unattended (before : runtime.Unattended) : after.Unattended := by
    unfold ServerRuntime.Unattended
    rwa [reaper before]
  have running (before : .serviceStopped ∉ runtime.log) :
      .serviceStopped ∉ after.log := by
    rw [log, List.mem_append]
    exact not_or.mpr ⟨before, others⟩
  cases stop with
  | entered => trivial
  | returnedEarly => trivial
  | joiningReaper => exact ⟨stops.trans achieved.1, running achieved.2⟩
  | stoppingExecutor =>
      exact ⟨unattended achieved.1, stops.trans achieved.2.1,
        running achieved.2.2⟩
  | inExecutor call =>
      obtain ⟨left, here, first, inner, only, late, fresh⟩ := achieved
      exact ⟨unattended left, running here, first, inner, stops.trans only, late,
        fun entered => stopping.trans (fresh entered)⟩
  | stoppingService =>
      exact ⟨unattended achieved.1, running achieved.2.1,
        stops ▸ achieved.2.2⟩
  | returned =>
      obtain ⟨left, joined, before, ended, once⟩ := achieved
      refine ⟨unattended left, stops ▸ joined, before, ?_, once⟩
      rw [log, idle left joined, List.append_nil, ended]

theorem Governed.other {after : ServerRuntime Task} {more : List (Event Task)}
    (governed : Governed limit runtime) (accounts : Accounts limit after.executor)
    (accepted : after.accepted = after.executor.accepted)
    (ran : after.log.filterMap Event.task? = after.executor.finished)
    (same : after.stopping = runtime.stopping)
    (calls : after.stops = runtime.stops)
    (reaper : runtime.Unattended → after.reaper = runtime.reaper)
    (stops : after.executor.stops = runtime.executor.stops)
    (stopping : after.executor.stopping = runtime.executor.stopping)
    (log : after.log = runtime.log ++ more)
    (others : .serviceStopped ∉ more)
    (idle : runtime.Unattended → .joinedAll ∈ runtime.executor.stops →
      more = []) : Governed limit after where
  accounts := accounts
  accepted := accepted
  ran := ran
  achieved stop member :=
    (governed.achieved stop (calls ▸ member)).mono reaper stops stopping log
      others idle
  begun stop member begun :=
    same.trans (governed.begun stop (calls ▸ member) begun)
  alone := by
    rw [calls]
    exact governed.alone
  led stopped := calls ▸ governed.led (same ▸ stopped)
  quiet running := by
    obtain ⟨none, before⟩ := governed.quiet (same ▸ running)
    refine ⟨stops.trans none, ?_⟩
    rw [log, List.mem_append]
    exact not_or.mpr ⟨before, others⟩
  unstopped none := stopping.trans (governed.unstopped (stops ▸ none))
  service member := by
    rw [log] at member
    rw [calls]
    rcases List.mem_append.mp member with before | later
    · exact governed.service before
    · exact absurd later others

theorem accepted_record {submitted : List (Task × Except StdString Unit)}
    {task : Task} {result : Except StdString Unit} :
    ({ runtime with submitted := submitted ++ [(task, result)] } :
        ServerRuntime Task).accepted =
      ({ runtime with submitted } : ServerRuntime Task).accepted ++
        match result with
        | .ok () => [task]
        | .error _ => [] := by
  simp only [ServerRuntime.accepted, List.filterMap_append]
  cases result with
  | _ => rfl

theorem submit_frame (executor : BoundedExecutor Task) (task : Task) :
    (executor.submit task).1.stops = executor.stops ∧
      (executor.submit task).1.stopping = executor.stopping ∧
      (executor.submit task).1.finished = executor.finished ∧
      (executor.submit task).1.submitted = executor.submitted := by
  unfold BoundedExecutor.submit
  split
  · exact ⟨rfl, rfl, rfl, rfl⟩
  · split
    · exact ⟨rfl, rfl, rfl, rfl⟩
    · exact ⟨rfl, rfl, rfl, rfl⟩

theorem Governed.submits (governed : Governed limit runtime) (task : Task) :
    Governed limit
      { (runtime.submitBackground task).1 with
        submitted := (runtime.submitBackground task).1.submitted ++
          [(task, (runtime.submitBackground task).2)] } := by
  by_cases stopping : runtime.stopping = true
  · have refused : runtime.submitBackground task =
        (runtime, .error (literal "Server runtime is stopping")) :=
      if_pos stopping
    rw [refused]
    refine governed.other governed.accounts ?_ governed.ran rfl rfl
      (fun _ => rfl) rfl rfl (List.append_nil _).symm List.not_mem_nil
      fun _ _ => rfl
    rw [accepted_record, List.append_nil]
    exact governed.accepted
  · have taken : runtime.submitBackground task =
        ({ runtime with
            executor := { (runtime.executor.submit task).1 with
              submitted := (runtime.executor.submit task).1.submitted ++
                [(task, (runtime.executor.submit task).2)] } },
          (runtime.executor.submit task).2) := if_neg stopping
    obtain ⟨stops, flag, finished, submitted⟩ :=
      submit_frame runtime.executor task
    rw [taken]
    refine governed.other (governed.accounts.submits task) ?_ ?_ rfl rfl
      (fun _ => rfl) stops flag (List.append_nil _).symm List.not_mem_nil
      fun _ _ => rfl
    · rw [accepted_record, accepted_append]
      have same : ({ (runtime.executor.submit task).1 with
          submitted := (runtime.executor.submit task).1.submitted } :
            BoundedExecutor Task).accepted = runtime.executor.accepted := by
        simp only [BoundedExecutor.accepted, submitted]
      rw [same, ← governed.accepted]
      rfl
    · exact governed.ran.trans finished.symm

theorem Governed.stops (governed : Governed limit runtime) :
    Governed limit { runtime with stops := runtime.stops ++ [.entered] } where
  accounts := governed.accounts
  accepted := governed.accepted
  ran := governed.ran
  achieved stop member := by
    rcases List.mem_append.mp member with before | last
    · have achieved := governed.achieved stop before
      cases stop with
      | _ => exact achieved
    · obtain rfl := List.mem_singleton.mp last
      trivial
  begun stop member begun := by
    rcases List.mem_append.mp member with before | last
    · exact governed.begun stop before begun
    · exact absurd (List.mem_singleton.mp last) begun
  alone := by
    intro one other first second firstAt secondAt firstLeads secondLeads
    rcases Crew.getElem?_join_origin firstAt with before | ⟨_, rfl⟩
    · rcases Crew.getElem?_join_origin secondAt with again | ⟨_, rfl⟩
      · exact governed.alone one other first second before again firstLeads
          secondLeads
      · exact secondLeads.elim
    · exact firstLeads.elim
  led stopping := by
    obtain ⟨stop, member, leads⟩ := governed.led stopping
    exact ⟨stop, List.mem_append_left _ member, leads⟩
  quiet := governed.quiet
  unstopped := governed.unstopped
  service member := List.mem_append_left _ (governed.service member)

theorem take_frame {executor after : BoundedExecutor Task} {worker : Nat}
    (taken : executor.take worker = some after) :
    after.stops = executor.stops ∧ after.stopping = executor.stopping ∧
      after.finished = executor.finished ∧
      after.submitted = executor.submitted := by
  unfold BoundedExecutor.take at taken
  split at taken
  · split at taken
    · split at taken
      · obtain rfl := Option.some.inj taken
        exact ⟨rfl, rfl, rfl, rfl⟩
      · contradiction
    · obtain rfl := Option.some.inj taken
      exact ⟨rfl, rfl, rfl, rfl⟩
  · contradiction

theorem finish_frame {executor after : BoundedExecutor Task} {worker : Nat}
    {ending : TaskEnd} (finished : executor.finish worker ending = some after) :
    ∃ task, finishes executor worker = [.ran task] ∧
      after.stops = executor.stops ∧ after.stopping = executor.stopping ∧
      after.finished = executor.finished ++ [task] ∧
      after.submitted = executor.submitted := by
  unfold BoundedExecutor.finish at finished
  split at finished
  · rename_i task found
    obtain rfl := Option.some.inj finished
    exact ⟨task, by rw [finishes, found], rfl, rfl, rfl, rfl⟩
  · contradiction

theorem Governed.takes {executor : BoundedExecutor Task} {worker : Nat}
    (governed : Governed limit runtime)
    (taken : runtime.executor.take worker = some executor) :
    Governed limit { runtime with executor } := by
  obtain ⟨stops, flag, finished, submitted⟩ := take_frame taken
  refine governed.other (governed.accounts.takes taken) ?_ ?_ rfl rfl
    (fun _ => rfl) stops flag (List.append_nil _).symm List.not_mem_nil
    fun _ _ => rfl
  · refine governed.accepted.trans ?_
    simp only [BoundedExecutor.accepted, submitted]
  · exact governed.ran.trans finished.symm

theorem Governed.finishes {executor : BoundedExecutor Task} {worker : Nat}
    {ending : TaskEnd} (governed : Governed limit runtime)
    (finished : runtime.executor.finish worker ending = some executor) :
    Governed limit
      { runtime with
        executor
        log := runtime.log ++ Runtime.finishes runtime.executor worker } := by
  obtain ⟨task, done, stops, flag, more, submitted⟩ := finish_frame finished
  refine governed.other (governed.accounts.finishes finished) ?_ ?_ rfl rfl
    (fun _ => rfl) stops flag rfl ?_ fun _ joined => ?_
  · refine governed.accepted.trans ?_
    simp only [BoundedExecutor.accepted, submitted]
  · have before := governed.ran
    simp only [done, List.filterMap_append, more, before]
    rfl
  · simp [done]
  · rw [no_finish governed.accounts joined] at finished
    cases finished

theorem Governed.reaps (governed : Governed limit runtime)
    (reaped : runtime.reap = some next) : Governed limit next := by
  unfold ServerRuntime.reap at reaped
  split at reaped
  · rename_i waiting
    obtain rfl := Option.some.inj reaped
    refine governed.other governed.accounts governed.accepted governed.ran rfl rfl
      (fun gone => ?_) rfl rfl (List.append_nil _).symm List.not_mem_nil
      fun _ _ => rfl
    rcases gone with none | exited
    · exact nomatch waiting.symm.trans none
    · exact nomatch waiting.symm.trans exited
  · rename_i reaping
    obtain rfl := Option.some.inj reaped
    have busy (gone : runtime.Unattended) : False := by
      rcases gone with none | exited
      · exact nomatch reaping.symm.trans none
      · exact nomatch reaping.symm.trans exited
    refine governed.other governed.accounts governed.accepted ?_ rfl rfl
      (fun gone => (busy gone).elim) rfl rfl rfl (by simp)
      fun gone => (busy gone).elim
    rw [List.filterMap_append, governed.ran]
    exact List.append_nil _
  · contradiction

theorem governed_advance (after : ServerRuntime Task) {call : Nat}
    {stop following : StopCall}
    (found : runtime.stops[call]? = some stop)
    (others : ∀ (other : Nat) second, runtime.stops[other]? = some second →
      second.Leads → other = call)
    (accounts : Accounts limit after.executor)
    (accepted : after.accepted = after.executor.accepted)
    (ran : after.log.filterMap Event.task? = after.executor.finished)
    (stopping : after.stopping = true) (calls : after.stops = runtime.stops)
    (achieved : Achieved after following) (leads : following.Leads)
    (unstopped : after.executor.stops = [] → after.executor.stopping = false)
    (service : .serviceStopped ∈ after.log → following = .returned) :
    Governed limit { after with stops := after.stops.set call following } := by
  have bound : call < runtime.stops.length :=
    (List.getElem?_eq_some_iff.mp found).1
  have here : (runtime.stops.set call following)[call]? = some following := by
    simp [bound]
  rw [calls]
  refine
    { accounts, accepted, ran, unstopped
      achieved := fun other member => ?_
      begun := fun _ _ _ => stopping
      alone := fun one other first second firstAt secondAt firstLeads
        secondLeads => ?_
      led := fun _ => ⟨following, List.mem_of_getElem? here, leads⟩
      quiet := fun running => nomatch stopping.symm.trans running
      service := fun member => service member ▸ List.mem_of_getElem? here }
  · have still {stop : StopCall} (achieved : Achieved after stop) :
        Achieved { after with stops := runtime.stops.set call following }
          stop := by
      cases stop with
      | _ => exact achieved
    obtain ⟨index, at_⟩ := List.mem_iff_getElem?.mp member
    rcases Crew.getElem?_set_origin at_ with ⟨_, rfl⟩ | ⟨different, before⟩
    · exact still achieved
    · cases other with
      | entered => trivial
      | returnedEarly => trivial
      | _ => exact absurd (others index _ before trivial).symm different
  · have mine {index : Nat} {held : StopCall}
        (at_ : (runtime.stops.set call following)[index]? = some held)
        (leads : held.Leads) : index = call := by
      rcases Crew.getElem?_set_origin at_ with ⟨same, _⟩ | ⟨_, before⟩
      · exact same.symm
      · exact others index held before leads
    exact (mine firstAt firstLeads).trans (mine secondAt secondLeads).symm

theorem executor_frame {executor after : BoundedExecutor Task}
    {stop following : Executor.StopCall}
    (executed : executor.stopSection stop = some (after, following)) :
    after.stops = executor.stops ∧ after.finished = executor.finished ∧
      after.submitted = executor.submitted ∧ following ≠ .entered ∧
      (following = .returnedEarly → stop = .entered ∧ executor.stopping = true) := by
  cases stop with
  | entered =>
      simp only [BoundedExecutor.stopSection] at executed
      split at executed
      · rename_i stopping
        cases executed
        exact ⟨rfl, rfl, rfl, by simp, fun _ => ⟨rfl, stopping⟩⟩
      · cases executed
        exact ⟨rfl, rfl, rfl, by simp, by simp⟩
  | joining joined =>
      simp only [BoundedExecutor.stopSection] at executed
      split at executed
      · cases executed
        exact ⟨rfl, rfl, rfl, by simp, by simp⟩
      · contradiction
      · cases executed
        exact ⟨rfl, rfl, rfl, by simp, by simp⟩
  | returnedEarly => cases executed
  | joinedAll => cases executed

theorem Governed.inExecutor {executor : BoundedExecutor Task} {call : Nat}
    (governed : Governed limit runtime)
    (found : runtime.stops[call]? = some (.inExecutor 0))
    (stepped : Executor.step runtime.executor (.stopSection 0) =
      some executor) :
    Governed limit
      { runtime with
        executor
        stops := runtime.stops.set call (.inExecutor 0) } := by
  have member := List.mem_of_getElem? found
  obtain ⟨left, running, -, inner, only, late, fresh⟩ :=
    governed.achieved _ member
  have accounts := governed.accounts.step stepped
  simp only [Executor.step, only, List.getElem?_cons_zero] at stepped
  obtain ⟨⟨after, following⟩, executed, rfl⟩ := Option.map_eq_some_iff.mp stepped
  obtain ⟨stops, finished, submitted, begun, early⟩ := executor_frame executed
  have set : after.stops.set 0 following = [following] := by
    rw [stops, only]
    rfl
  refine governed_advance
    { runtime with
      executor := { after with stops := after.stops.set 0 following } } found
    (fun other second at_ leads =>
      governed.alone other call second _ at_ found leads trivial)
    accounts ?_ ?_ (governed.leads _ member trivial) rfl ?_ trivial ?_ ?_
  · refine governed.accepted.trans ?_
    simp only [BoundedExecutor.accepted, submitted]
  · exact governed.ran.trans finished.symm
  · refine ⟨left, running, rfl, following, set, fun same => ?_,
      fun same => absurd same begun⟩
    obtain ⟨entered, stopping⟩ := early same
    cases (fresh entered).symm.trans stopping
  · intro none
    rw [set] at none
    cases none
  · exact fun member => absurd member running

theorem Governed.turnsAway {call : Nat} (governed : Governed limit runtime)
    (found : runtime.stops[call]? = some .entered)
    (stopping : runtime.stopping = true) :
    Governed limit
      { runtime with stops := runtime.stops.set call .returnedEarly } := by
  have before {stop : StopCall}
      (member : stop ∈ runtime.stops.set call .returnedEarly) :
      stop = .returnedEarly ∨ stop ∈ runtime.stops :=
    (List.mem_or_eq_of_mem_set member).symm
  have after {stop : StopCall} (member : stop ∈ runtime.stops)
      (different : stop ≠ .entered) :
      stop ∈ runtime.stops.set call .returnedEarly := by
    obtain ⟨index, at_⟩ := List.mem_iff_getElem?.mp member
    refine List.mem_of_getElem? (i := index) ?_
    rw [List.getElem?_set_ne, at_]
    rintro rfl
    exact different (Option.some.inj (at_.symm.trans found))
  refine { governed with
    achieved := fun stop member => ?_
    begun := fun _ _ _ => stopping
    alone := fun one other first second firstAt secondAt firstLeads
      secondLeads => ?_
    led := fun stopping => ?_
    service := fun member => after (governed.service member) (by simp) }
  · have still (achieved : Achieved runtime stop) :
        Achieved { runtime with stops := runtime.stops.set call .returnedEarly }
          stop := by
      cases stop with
      | _ => exact achieved
    rcases before member with rfl | earlier
    · trivial
    · exact still (governed.achieved stop earlier)
  · rcases Crew.getElem?_set_origin firstAt with ⟨_, rfl⟩ | ⟨_, firstBefore⟩
    · exact firstLeads.elim
    · rcases Crew.getElem?_set_origin secondAt with ⟨_, rfl⟩ | ⟨_, secondBefore⟩
      · exact secondLeads.elim
      · exact governed.alone one other first second firstBefore secondBefore
          firstLeads secondLeads
  · obtain ⟨stop, member, leads⟩ := governed.led stopping
    refine ⟨stop, after member ?_, leads⟩
    rintro rfl
    exact leads

theorem Governed.sections {call : Nat} {stop following : StopCall}
    {after : ServerRuntime Task} (governed : Governed limit runtime)
    (found : runtime.stops[call]? = some stop)
    (executed : runtime.stopSection stop = some (after, following)) :
    Governed limit { after with stops := after.stops.set call following } := by
  have member := List.mem_of_getElem? found
  have achieved := governed.achieved stop member
  have others (leads : stop.Leads) (other : Nat) (second : StopCall)
      (at_ : runtime.stops[other]? = some second) (again : second.Leads) :
      other = call := governed.alone other call second stop at_ found again leads
  cases stop with
  | entered =>
      simp only [ServerRuntime.stopSection] at executed
      split at executed
      · rename_i stopping
        cases executed
        exact governed.turnsAway found stopping
      · rename_i running
        have unled := Bool.eq_false_iff.mpr running
        cases executed
        obtain ⟨none, before⟩ := governed.quiet unled
        refine governed_advance { runtime with stopping := true } found
          (fun other second at_ leads => ?_) governed.accounts governed.accepted
          governed.ran rfl rfl ⟨none, before⟩ trivial governed.unstopped
          fun stopped => absurd stopped before
        have stopping := governed.leads second (List.mem_of_getElem? at_) leads
        exact absurd stopping running
  | joiningReaper =>
      have stopping := governed.leads _ member trivial
      simp only [ServerRuntime.stopSection] at executed
      split at executed
      · rename_i gone
        cases executed
        exact governed_advance runtime found (others trivial) governed.accounts
          governed.accepted governed.ran stopping rfl ⟨.inl gone, achieved⟩
          trivial governed.unstopped fun stopped => absurd stopped achieved.2
      · rename_i gone
        cases executed
        exact governed_advance runtime found (others trivial) governed.accounts
          governed.accepted governed.ran stopping rfl ⟨.inr gone, achieved⟩
          trivial governed.unstopped fun stopped => absurd stopped achieved.2
      · contradiction
  | stoppingExecutor =>
      have stopping := governed.leads _ member trivial
      obtain ⟨left, none, running⟩ := achieved
      have fresh := governed.unstopped none
      have accounts := governed.accounts
      simp only [ServerRuntime.stopSection] at executed
      obtain ⟨executor, stepped, same⟩ := Option.map_eq_some_iff.mp executed
      replace accounts := accounts.step stepped
      cases same
      cases stepped
      rw [none] at accounts
      simp only [none, List.nil_append, List.length_nil]
      refine governed_advance
        { runtime with
          executor := { runtime.executor with stops := [.entered] } } found
        (others trivial) accounts governed.accepted governed.ran stopping rfl
        ⟨left, running, rfl, .entered, rfl, by simp, fun _ => fresh⟩ trivial ?_
        fun stopped => absurd stopped running
      exact fun none => nomatch none
  | inExecutor index =>
      have stopping := governed.leads _ member trivial
      obtain ⟨left, running, rfl, inner, only, late, fresh⟩ := achieved
      have first : runtime.executor.stops[0]? = some inner := by
        rw [only]
        rfl
      simp only [ServerRuntime.stopSection, first] at executed
      split at executed
      · rename_i early
        exact absurd (Option.some.inj early) late
      · rename_i joined
        obtain rfl := Option.some.inj joined
        cases executed
        refine governed_advance runtime found (others trivial) governed.accounts
          governed.accepted governed.ran stopping rfl
          ⟨left, running, by simp [only]⟩ trivial governed.unstopped
          fun stopped => absurd stopped running
      · obtain ⟨executor, stepped, same⟩ := Option.map_eq_some_iff.mp executed
        cases same
        exact governed.inExecutor found stepped
  | stoppingService =>
      have stopping := governed.leads _ member trivial
      obtain ⟨left, running, joined⟩ := achieved
      cases executed
      refine governed_advance
        { runtime with log := runtime.log ++ [.serviceStopped] } found
        (others trivial) governed.accounts governed.accepted ?_ stopping rfl
        ⟨left, joined, runtime.log, rfl, running⟩ trivial governed.unstopped
        fun _ => rfl
      rw [List.filterMap_append, governed.ran]
      exact List.append_nil _
  | returnedEarly => cases executed
  | returned => cases executed

theorem Governed.step {label : Label Task} (governed : Governed limit runtime)
    (stepped : step runtime label = some next) : Governed limit next := by
  cases label with
  | submitBackground task =>
      obtain rfl := Option.some.inj stepped
      exact governed.submits task
  | stop =>
      obtain rfl := Option.some.inj stepped
      exact governed.stops
  | stopSection call =>
      simp only [Runtime.step] at stepped
      split at stepped
      · contradiction
      · rename_i stop found
        obtain ⟨⟨after, following⟩, executed, rfl⟩ :=
          Option.map_eq_some_iff.mp stepped
        exact governed.sections found executed
  | reaper => exact governed.reaps stepped
  | take worker =>
      obtain ⟨executor, taken, rfl⟩ := Option.map_eq_some_iff.mp stepped
      exact governed.takes taken
  | finish worker ending =>
      obtain ⟨executor, finished, rfl⟩ := Option.map_eq_some_iff.mp stepped
      exact governed.finishes finished

theorem Governed.leader (governed : Governed limit runtime) :
    ∃ leader, ∀ (call : Nat) (stop : StopCall), runtime.stops[call]? = some stop →
      call ≠ leader → stop = .entered ∨ stop = .returnedEarly := by
  have others {stop : StopCall} (follows : ¬ stop.Leads) :
      stop = .entered ∨ stop = .returnedEarly := by
    cases stop with
    | entered => exact .inl rfl
    | returnedEarly => exact .inr rfl
    | _ => exact absurd trivial follows
  by_cases led : ∃ (call : Nat) (stop : StopCall),
      runtime.stops[call]? = some stop ∧ stop.Leads
  · obtain ⟨leader, first, found, leads⟩ := led
    refine ⟨leader, fun call stop held other => others fun also => ?_⟩
    exact other (governed.alone call leader stop first held found also leads)
  · exact ⟨0, fun call stop held _ => others fun leads =>
      led ⟨call, stop, held, leads⟩⟩

theorem make_governed (sessionsEnabled : Bool)
    (hardwareThreads requestQueueCapacity : Nat) :
    Governed (max 1 (continuationQueueDepth requestQueueCapacity))
      (ServerRuntime.make sessionsEnabled hardwareThreads requestQueueCapacity :
        ServerRuntime Task) where
  accounts := make_accounts _ _
  accepted := rfl
  ran := rfl
  achieved := by simp [ServerRuntime.make]
  begun := by simp [ServerRuntime.make]
  alone := by simp [ServerRuntime.make]
  led := by simp [ServerRuntime.make]
  quiet := by simp [ServerRuntime.make, BoundedExecutor.make]
  unstopped := by simp [ServerRuntime.make, BoundedExecutor.make]
  service := by simp [ServerRuntime.make]

theorem run_governed {sessionsEnabled : Bool}
    {hardwareThreads requestQueueCapacity : Nat} {schedule : List (Label Task)}
    (ran : run step (ServerRuntime.make sessionsEnabled hardwareThreads
      requestQueueCapacity) schedule = some runtime) :
    Governed (max 1 (continuationQueueDepth requestQueueCapacity)) runtime :=
  run_invariant Governed.step (make_governed _ _ _) ran

end Shutdown

/-- What holds once somebody stops the server.  The service goes last, after every
task that has been accepted has run once, and after it nothing runs. -/
structure ShutsDown {Task : Type u} (runtime : ServerRuntime Task) : Prop where
  refuses : ∀ stop ∈ runtime.stops, stop ≠ .entered → ∀ task,
    runtime.submitBackground task =
      (runtime, .error (literal "Server runtime is stopping"))
  alone : ∃ leader, ∀ (call : Nat) (stop : StopCall), runtime.stops[call]? = some stop →
    call ≠ leader → stop = .entered ∨ stop = .returnedEarly
  early : ∀ stop ∈ runtime.stops, stop ≠ .entered →
    runtime.stopSection .entered = some (runtime, .returnedEarly)
  returned : .returned ∈ runtime.stops → .serviceStopped ∈ runtime.log
  last : .serviceStopped ∈ runtime.log →
    ∃ before, runtime.log = before ++ [.serviceStopped] ∧
      .serviceStopped ∉ before ∧
      (before.filterMap Event.task?).Perm runtime.accepted
  idle : .serviceStopped ∈ runtime.log →
    runtime.reap = none ∧ ∀ worker, runtime.executor.take worker = none ∧
      ∀ ending, runtime.executor.finish worker ending = none

theorem shutdown_ordered {Task : Type u} {sessionsEnabled : Bool}
    {hardwareThreads requestQueueCapacity : Nat} {schedule : List (Label Task)}
    {runtime : ServerRuntime Task}
    (ran : run step (ServerRuntime.make sessionsEnabled hardwareThreads
      requestQueueCapacity) schedule = some runtime) : ShutsDown runtime := by
  have governed := run_governed ran
  have accounts := governed.accounts
  constructor
  · intro stop member begun task
    exact if_pos (governed.begun stop member begun)
  · exact governed.leader
  · intro stop member begun
    exact if_pos (governed.begun stop member begun)
  · intro member
    obtain ⟨-, -, before, ended, -⟩ := governed.achieved _ member
    simp [ended]
  · intro stopped
    obtain ⟨-, joined, before, ended, once⟩ :=
      governed.achieved _ (governed.service stopped)
    refine ⟨before, ended, once, ?_⟩
    have finished := governed.ran
    rw [ended, List.filterMap_append] at finished
    obtain ⟨tasks, running⟩ := accounts.drained joined
    have conserved := accounts.conserved
    rw [running, List.append_nil] at conserved
    have ordered := accounts.ordered
    rw [tasks, List.append_nil] at ordered
    rw [governed.accepted, ordered]
    refine .trans ?_ conserved.symm
    rw [← finished]
    exact .of_eq (List.append_nil _).symm
  · intro stopped
    obtain ⟨left, joined, -⟩ := governed.achieved _ (governed.service stopped)
    refine ⟨?_, fun worker => ⟨no_take accounts joined worker,
      no_finish accounts joined worker⟩⟩
    unfold ServerRuntime.reap
    rcases left with none | exited
    · rw [none]
    · rw [exited]

section Ending

variable {Task : Type u}

/-- The label is a section of one of the threads that are there. -/
def Label.own : Label Task → Bool
  | .stopSection _ => true
  | .reaper => true
  | .take _ => true
  | _ => false

/-- A task comes to its end, which is up to the task. -/
def Label.ends : Label Task → Bool
  | .finish _ _ => true
  | _ => false

def Label.arrives : Label Task → Bool
  | .stop => true
  | _ => false

def Worker.weight : Worker Task → Nat
  | .waiting => 1
  | .running _ => 2
  | .exited => 0

/-- What a `stop` of a pool with so many workers has left to do. -/
def joinWeight (workers : Nat) : Executor.StopCall → Nat
  | .entered => workers + 2
  | .joining joined => workers - joined + 1
  | _ => 0

def poolRank (executor : BoundedExecutor Task) : Nat :=
  2 * executor.tasks.length + (executor.workers.map Worker.weight).sum +
    (executor.stops.map (joinWeight executor.workers.length)).sum

def Reaper.weight : Reaper → Nat
  | .waiting => 1
  | .reaping => 2
  | .exited => 0

def StopCall.weight (workers : Nat) : StopCall → Nat
  | .entered => 1
  | .joiningReaper => workers + 6
  | .stoppingExecutor => workers + 5
  | .inExecutor _ => 2
  | .stoppingService => 1
  | _ => 0

def rank (runtime : ServerRuntime Task) : Nat :=
  poolRank runtime.executor + (runtime.reaper.elim 0 Reaper.weight) +
    (runtime.stops.map (StopCall.weight runtime.executor.workers.length)).sum

variable {executor after : BoundedExecutor Task} {worker : Nat}

theorem take_rank (taken : executor.take worker = some after) :
    poolRank after + 1 ≤ poolRank executor ∧
      after.workers.length = executor.workers.length := by
  unfold BoundedExecutor.take at taken
  split at taken
  · rename_i found
    split at taken
    · split at taken
      · obtain rfl := Option.some.inj taken
        have weights := Counting.sum_map_set Worker.weight .exited found
        simp only [Worker.weight] at weights
        refine ⟨?_, List.length_set⟩
        simp only [poolRank, List.length_set]
        omega
      · contradiction
    · rename_i task rest queue
      obtain rfl := Option.some.inj taken
      have weights := Counting.sum_map_set Worker.weight (.running task) found
      simp only [Worker.weight] at weights
      refine ⟨?_, List.length_set⟩
      simp only [poolRank, List.length_set, queue, List.length_cons]
      omega
  · contradiction

theorem finish_rank {ending : TaskEnd}
    (finished : executor.finish worker ending = some after) :
    poolRank after + 1 ≤ poolRank executor ∧
      after.workers.length = executor.workers.length := by
  unfold BoundedExecutor.finish at finished
  split at finished
  · rename_i task found
    obtain rfl := Option.some.inj finished
    have weights := Counting.sum_map_set Worker.weight .waiting found
    simp only [Worker.weight] at weights
    refine ⟨?_, List.length_set⟩
    simp only [poolRank, List.length_set]
    omega
  · contradiction

theorem join_rank {call : Nat}
    (stepped : Executor.step executor (.stopSection call) = some after) :
    poolRank after + 1 ≤ poolRank executor ∧
      after.workers.length = executor.workers.length := by
  simp only [Executor.step] at stepped
  split at stepped
  · contradiction
  rename_i stop found
  obtain ⟨⟨middle, following⟩, executed, rfl⟩ := Option.map_eq_some_iff.mp stepped
  have weights := Counting.sum_map_set (joinWeight executor.workers.length)
    following found
  cases stop with
  | entered =>
      simp only [BoundedExecutor.stopSection] at executed
      split at executed
      · cases executed
        simp only [joinWeight] at weights
        refine ⟨?_, rfl⟩
        simp only [poolRank]
        omega
      · cases executed
        simp only [joinWeight] at weights
        refine ⟨?_, rfl⟩
        simp only [poolRank]
        omega
  | joining joined =>
      simp only [BoundedExecutor.stopSection] at executed
      split at executed
      · rename_i gone
        cases executed
        have bound := (List.getElem?_eq_some_iff.mp gone).1
        simp only [joinWeight] at weights
        refine ⟨?_, rfl⟩
        simp only [poolRank]
        omega
      · contradiction
      · cases executed
        simp only [joinWeight] at weights
        refine ⟨?_, rfl⟩
        simp only [poolRank]
        omega
  | returnedEarly => cases executed
  | joinedAll => cases executed

variable {runtime next : ServerRuntime Task} {limit : Nat}

theorem reap_rank (stopping : runtime.stopping = true)
    (reaped : runtime.reap = some next) : rank next + 1 ≤ rank runtime := by
  unfold ServerRuntime.reap at reaped
  split at reaped
  · rename_i waiting
    obtain rfl := Option.some.inj reaped
    simp only [rank, waiting, stopping, if_true, Option.elim, Reaper.weight]
    omega
  · rename_i reaping
    obtain rfl := Option.some.inj reaped
    simp only [rank, reaping, Option.elim, Reaper.weight]
    omega
  · contradiction

theorem stop_rank {call : Nat} {stop following : StopCall}
    {after : ServerRuntime Task} (stopping : runtime.stopping = true)
    (found : runtime.stops[call]? = some stop)
    (executed : runtime.stopSection stop = some (after, following)) :
    rank { after with stops := after.stops.set call following } + 1 ≤
      rank runtime := by
  have weights := Counting.sum_map_set
    (StopCall.weight runtime.executor.workers.length) following found
  cases stop with
  | entered =>
      simp only [ServerRuntime.stopSection, stopping, if_true] at executed
      cases executed
      simp only [StopCall.weight] at weights
      simp only [rank]
      omega
  | joiningReaper =>
      simp only [ServerRuntime.stopSection] at executed
      split at executed
      · cases executed
        simp only [StopCall.weight] at weights
        simp only [rank]
        omega
      · cases executed
        simp only [StopCall.weight] at weights
        simp only [rank]
        omega
      · contradiction
  | stoppingExecutor =>
      simp only [ServerRuntime.stopSection] at executed
      obtain ⟨executor, stepped, same⟩ := Option.map_eq_some_iff.mp executed
      cases same
      cases stepped
      simp only [StopCall.weight] at weights
      simp only [rank, poolRank, List.map_append, List.sum_append, List.map_cons,
        List.map_nil, List.sum_cons, List.sum_nil, joinWeight]
      omega
  | inExecutor index =>
      simp only [ServerRuntime.stopSection] at executed
      split at executed
      · cases executed
        simp only [StopCall.weight] at weights
        simp only [rank]
        omega
      · cases executed
        simp only [StopCall.weight] at weights
        simp only [rank]
        omega
      · obtain ⟨executor, stepped, same⟩ := Option.map_eq_some_iff.mp executed
        cases same
        obtain ⟨less, workers⟩ := join_rank stepped
        simp only [StopCall.weight] at weights
        simp only [rank, workers]
        omega
  | stoppingService =>
      cases executed
      simp only [StopCall.weight] at weights
      simp only [rank]
      omega
  | returnedEarly => cases executed
  | returned => cases executed

theorem step_refused (stopping : runtime.stopping = true) (task : Task) :
    step runtime (.submitBackground task) =
      some { runtime with
        submitted := runtime.submitted ++
          [(task, .error (literal "Server runtime is stopping"))] } := by
  simp only [step, ServerRuntime.submitBackground, stopping, if_true]

theorem step_rank {label : Label Task} (stopping : runtime.stopping = true)
    (stepped : step runtime label = some next) :
    rank next + (if label.own || label.ends then 1 else 0) ≤
      rank runtime + (if label.arrives then 1 else 0) := by
  cases label with
  | submitBackground task =>
      rw [step_refused stopping] at stepped
      obtain rfl := Option.some.inj stepped
      exact le_rfl
  | stop =>
      obtain rfl := Option.some.inj stepped
      simp [rank, StopCall.weight, Label.own, Label.ends, Label.arrives,
        Nat.add_assoc]
  | stopSection call =>
      simp only [step] at stepped
      split at stepped
      · contradiction
      · rename_i stop found
        obtain ⟨⟨after, following⟩, executed, rfl⟩ :=
          Option.map_eq_some_iff.mp stepped
        exact stop_rank stopping found executed
  | reaper => exact reap_rank stopping stepped
  | take worker =>
      obtain ⟨executor, taken, rfl⟩ := Option.map_eq_some_iff.mp stepped
      obtain ⟨less, workers⟩ := take_rank taken
      change rank _ + 1 ≤ rank runtime
      simp only [rank, workers]
      omega
  | finish worker ending =>
      obtain ⟨executor, finished, rfl⟩ := Option.map_eq_some_iff.mp stepped
      obtain ⟨less, workers⟩ := finish_rank finished
      change rank _ + 1 ≤ rank runtime
      simp only [rank, workers]
      omega

theorem stopSection_stopping {stop following : StopCall}
    {after : ServerRuntime Task} (stopping : runtime.stopping = true)
    (executed : runtime.stopSection stop = some (after, following)) :
    after.stopping = true := by
  unfold ServerRuntime.stopSection at executed
  split at executed
  · rw [if_pos stopping] at executed
    cases executed
    exact stopping
  · split at executed
    · cases executed
      exact stopping
    · cases executed
      exact stopping
    · contradiction
  · obtain ⟨executor, -, same⟩ := Option.map_eq_some_iff.mp executed
    cases same
    exact stopping
  · split at executed
    · cases executed
      exact stopping
    · cases executed
      exact stopping
    · obtain ⟨executor, -, same⟩ := Option.map_eq_some_iff.mp executed
      cases same
      exact stopping
  · cases executed
    exact stopping
  · contradiction
  · contradiction

theorem step_stopping {label : Label Task} (stopping : runtime.stopping = true)
    (stepped : step runtime label = some next) : next.stopping = true := by
  cases label with
  | submitBackground task =>
      rw [step_refused stopping] at stepped
      obtain rfl := Option.some.inj stepped
      exact stopping
  | stop =>
      obtain rfl := Option.some.inj stepped
      exact stopping
  | stopSection call =>
      simp only [step] at stepped
      split at stepped
      · contradiction
      · rename_i stop found
        obtain ⟨⟨after, following⟩, executed, rfl⟩ :=
          Option.map_eq_some_iff.mp stepped
        have still : after.stopping = true :=
          stopSection_stopping stopping executed
        exact still
  | reaper =>
      simp only [step, ServerRuntime.reap] at stepped
      split at stepped
      · obtain rfl := Option.some.inj stepped
        exact stopping
      · obtain rfl := Option.some.inj stepped
        exact stopping
      · contradiction
  | take worker =>
      obtain ⟨executor, taken, rfl⟩ := Option.map_eq_some_iff.mp stepped
      exact stopping
  | finish worker ending =>
      obtain ⟨executor, finished, rfl⟩ := Option.map_eq_some_iff.mp stepped
      exact stopping

def ServerRuntime.Busy (runtime : ServerRuntime Task) : Prop :=
  ∃ (worker : Nat) (task : Task),
    runtime.executor.workers[worker]? = some (.running task)

theorem section_moves {call : Nat} {stop : StopCall}
    (found : runtime.stops[call]? = some stop)
    (goes : (runtime.stopSection stop).isSome = true) :
    ∃ label : Label Task, label.own = true ∧
      (step runtime label).isSome = true := by
  refine ⟨.stopSection call, rfl, ?_⟩
  simpa only [step, found, Option.isSome_map] using goes

/-- The pool joins its workers one after the other, and one that waits is on its way
out. -/
theorem joining_moves {call joined : Nat}
    (found : runtime.stops[call]? = some (.inExecutor 0))
    (only : runtime.executor.stops = [.joining joined])
    (stopping : runtime.executor.stopping = true) (idle : ¬ runtime.Busy) :
    ∃ label : Label Task, label.own = true ∧
      (step runtime label).isSome = true := by
  cases worker : runtime.executor.workers[joined]? with
  | none =>
      apply section_moves found
      simp [ServerRuntime.stopSection, only, Executor.step,
        BoundedExecutor.stopSection, worker]
  | some held =>
      cases held with
      | exited =>
          apply section_moves found
          simp [ServerRuntime.stopSection, only, Executor.step,
            BoundedExecutor.stopSection, worker]
      | waiting =>
          refine ⟨.take joined, rfl, ?_⟩
          simp only [step, Executor.step, Option.isSome_map,
            BoundedExecutor.take, worker]
          split
          · rw [if_pos stopping]
            rfl
          · rfl
      | running task => exact absurd ⟨joined, task, worker⟩ idle

/-- A call of `stop` that has not ended goes on, has a thread to wait for that does,
or waits for a task. -/
theorem stop_moves {call : Nat} {stop : StopCall}
    (governed : Governed limit runtime)
    (found : runtime.stops[call]? = some stop)
    (waits : stop ≠ .returnedEarly ∧ stop ≠ .returned) (idle : ¬ runtime.Busy) :
    ∃ label : Label Task, label.own = true ∧
      (step runtime label).isSome = true := by
  have achieved := governed.achieved stop (List.mem_of_getElem? found)
  cases stop with
  | entered =>
      apply section_moves found
      simp only [ServerRuntime.stopSection]
      split
      · rfl
      · rfl
  | joiningReaper =>
      cases thread : runtime.reaper with
      | none =>
          apply section_moves found
          simp [ServerRuntime.stopSection, thread]
      | some reaper =>
          cases reaper with
          | exited =>
              apply section_moves found
              simp [ServerRuntime.stopSection, thread]
          | waiting =>
              exact ⟨.reaper, rfl, by simp [step, ServerRuntime.reap, thread]⟩
          | reaping =>
              exact ⟨.reaper, rfl, by simp [step, ServerRuntime.reap, thread]⟩
  | stoppingExecutor => exact section_moves found rfl
  | inExecutor index =>
      obtain ⟨-, -, rfl, inner, only, late, -⟩ := achieved
      cases inner with
      | returnedEarly => exact absurd rfl late
      | joinedAll =>
          apply section_moves found
          simp [ServerRuntime.stopSection, only]
      | entered =>
          apply section_moves found
          simp only [ServerRuntime.stopSection, only, List.getElem?_cons_zero,
            Option.isSome_map, Executor.step, BoundedExecutor.stopSection]
          split
          · rfl
          · rfl
      | joining joined =>
          have stopping : runtime.executor.stopping = true :=
            (governed.accounts.begun (.joining joined) (by simp [only])).resolve_left
              (by simp)
          exact joining_moves found only stopping idle
  | stoppingService => exact section_moves found rfl
  | returnedEarly => exact absurd rfl waits.1
  | returned => exact absurd rfl waits.2

theorem join_workers {call : Nat}
    (stepped : Executor.step executor (.stopSection call) = some after) :
    after.workers = executor.workers := by
  simp only [Executor.step] at stepped
  split at stepped
  · contradiction
  rename_i stop found
  obtain ⟨⟨middle, following⟩, executed, rfl⟩ := Option.map_eq_some_iff.mp stepped
  cases stop with
  | entered =>
      simp only [BoundedExecutor.stopSection] at executed
      split at executed
      · cases executed
        rfl
      · cases executed
        rfl
  | joining joined =>
      simp only [BoundedExecutor.stopSection] at executed
      split at executed
      · cases executed
        rfl
      · contradiction
      · cases executed
        rfl
  | returnedEarly => cases executed
  | joinedAll => cases executed

theorem submitBackground_workers (runtime : ServerRuntime Task) (task : Task) :
    (runtime.submitBackground task).1.executor.workers =
      runtime.executor.workers := by
  unfold ServerRuntime.submitBackground
  split
  · rfl
  · simp only [BoundedExecutor.submit]
    split
    · rfl
    · split
      · rfl
      · rfl

theorem stopSection_workers {stop following : StopCall}
    {after : ServerRuntime Task}
    (executed : runtime.stopSection stop = some (after, following)) :
    after.executor.workers = runtime.executor.workers := by
  cases stop with
  | entered =>
      simp only [ServerRuntime.stopSection] at executed
      split at executed
      · cases executed
        rfl
      · cases executed
        rfl
  | joiningReaper =>
      simp only [ServerRuntime.stopSection] at executed
      split at executed
      · cases executed
        rfl
      · cases executed
        rfl
      · contradiction
  | stoppingExecutor =>
      simp only [ServerRuntime.stopSection] at executed
      obtain ⟨executor, stepped, same⟩ := Option.map_eq_some_iff.mp executed
      cases same
      cases stepped
      rfl
  | inExecutor index =>
      simp only [ServerRuntime.stopSection] at executed
      split at executed
      · cases executed
        rfl
      · cases executed
        rfl
      · obtain ⟨executor, stepped, same⟩ := Option.map_eq_some_iff.mp executed
        cases same
        exact join_workers stepped
  | stoppingService =>
      cases executed
      rfl
  | returnedEarly => cases executed
  | returned => cases executed

theorem take_running {other : Nat} {task : Task}
    (taken : executor.take other = some after)
    (running : executor.workers[worker]? = some (.running task)) :
    after.workers[worker]? = some (.running task) := by
  unfold BoundedExecutor.take at taken
  split at taken
  · rename_i waiting
    have different : other ≠ worker := by
      rintro rfl
      rw [waiting] at running
      cases running
    split at taken
    · split at taken
      · obtain rfl := Option.some.inj taken
        exact (List.getElem?_set_ne different).trans running
      · contradiction
    · obtain rfl := Option.some.inj taken
      exact (List.getElem?_set_ne different).trans running
  · contradiction

theorem finish_running {other : Nat} {ending : TaskEnd} {task : Task}
    (finished : executor.finish other ending = some after)
    (different : other ≠ worker)
    (running : executor.workers[worker]? = some (.running task)) :
    after.workers[worker]? = some (.running task) := by
  unfold BoundedExecutor.finish at finished
  split at finished
  · obtain rfl := Option.some.inj finished
    exact (List.getElem?_set_ne different).trans running
  · contradiction

theorem step_running {label : Label Task} {worker : Nat} {task : Task}
    (stepped : step runtime label = some next)
    (running : runtime.executor.workers[worker]? = some (.running task))
    (others : ∀ ending, label ≠ .finish worker ending) :
    next.executor.workers[worker]? = some (.running task) := by
  cases label with
  | submitBackground task =>
      obtain rfl := Option.some.inj stepped
      exact (congrArg (·[worker]?) (submitBackground_workers runtime task)).trans
        running
  | stop =>
      obtain rfl := Option.some.inj stepped
      exact running
  | stopSection call =>
      simp only [step] at stepped
      split at stepped
      · contradiction
      · obtain ⟨⟨after, following⟩, executed, rfl⟩ :=
          Option.map_eq_some_iff.mp stepped
        rw [← stopSection_workers executed] at running
        exact running
  | reaper =>
      simp only [step, ServerRuntime.reap] at stepped
      split at stepped
      · obtain rfl := Option.some.inj stepped
        exact running
      · obtain rfl := Option.some.inj stepped
        exact running
      · contradiction
  | take other =>
      obtain ⟨executor, taken, rfl⟩ := Option.map_eq_some_iff.mp stepped
      exact take_running taken running
  | finish other ending =>
      obtain ⟨executor, finished, rfl⟩ := Option.map_eq_some_iff.mp stepped
      refine finish_running finished ?_ running
      rintro rfl
      exact others ending rfl

theorem run_running {later : List (Label Task)} {worker : Nat} {task : Task}
    (ran : run step runtime later = some next)
    (running : runtime.executor.workers[worker]? = some (.running task))
    (others : ∀ ending, .finish worker ending ∉ later) :
    next.executor.workers[worker]? = some (.running task) := by
  induction later generalizing runtime with
  | nil =>
      obtain rfl := Option.some.inj ran
      exact running
  | cons label rest ih =>
      obtain ⟨middle, stepped, continued⟩ := run_cons.mp ran
      have still := step_running stepped running fun ending same =>
        others ending (same ▸ List.mem_cons_self)
      exact ih continued still fun ending member =>
        others ending (List.mem_cons_of_mem label member)

theorem Governed.joins (governed : Governed limit runtime) (busy : runtime.Busy) :
    .serviceStopped ∉ runtime.log ∧ .returned ∉ runtime.stops := by
  obtain ⟨worker, task, running⟩ := busy
  have stays : .returned ∉ runtime.stops := by
    intro member
    obtain ⟨-, joined, -⟩ := governed.achieved _ member
    cases governed.accounts.joinedAll joined _ (List.mem_of_getElem? running)
  exact ⟨fun stopped => stays (governed.service stopped), stays⟩

end Ending

/-- The shutdown comes to its end if the tasks do: the threads have only so many
sections left, and when none of them can go on and no task is running, every call of
`stop` has returned and the service is stopped.  A task that does not return holds it
up. -/
structure WindsUp {Task : Type u} (runtime : ServerRuntime Task) : Prop where
  bounded : ∃ bound, ∀ later final, run step runtime later = some final →
    later.countP (fun label => label.own || label.ends) ≤
      bound + later.countP Label.arrives
  ends : ∀ later final, run step runtime later = some final →
    (∀ label : Label Task, label.own = true → step final label = none) →
    ¬ final.Busy →
    (∀ stop ∈ final.stops, stop = .returnedEarly ∨ stop = .returned) ∧
      .serviceStopped ∈ final.log
  heldUp : ∀ later final, run step runtime later = some final →
    ∀ (worker : Nat) task,
      runtime.executor.workers[worker]? = some (.running task) →
      (∀ ending, .finish worker ending ∉ later) →
      .serviceStopped ∉ final.log ∧ .returned ∉ final.stops

theorem shutdown_winds_up {Task : Type u} {sessionsEnabled : Bool}
    {hardwareThreads requestQueueCapacity : Nat} {schedule : List (Label Task)}
    {runtime : ServerRuntime Task}
    (ran : run step (ServerRuntime.make sessionsEnabled hardwareThreads
      requestQueueCapacity) schedule = some runtime)
    (stopping : runtime.stopping = true) : WindsUp runtime := by
  let Holds (runtime : ServerRuntime Task) : Prop :=
    Governed (max 1 (continuationQueueDepth requestQueueCapacity)) runtime ∧
      runtime.stopping = true
  have ranked : Ranked step Holds rank (fun label => label.own || label.ends)
      Label.arrives :=
    ⟨fun holds stepped =>
        ⟨holds.1.step stepped, step_stopping holds.2 stepped⟩,
      fun holds stepped => step_rank holds.2 stepped⟩
  have holds : Holds runtime := ⟨run_governed ran, stopping⟩
  constructor
  · refine ⟨rank runtime, fun later final continued => ?_⟩
    have spent := ranked.spent holds continued
    omega
  · intro later final continued stuck idle
    obtain ⟨governed, stopped⟩ := run_invariant ranked.kept holds continued
    have ended (stop : StopCall) (member : stop ∈ final.stops) :
        stop = .returnedEarly ∨ stop = .returned := by
      by_contra waits
      obtain ⟨call, found⟩ := List.mem_iff_getElem?.mp member
      obtain ⟨label, own, goes⟩ := stop_moves governed found (not_or.mp waits) idle
      rw [stuck label own] at goes
      cases goes
    refine ⟨ended, ?_⟩
    obtain ⟨stop, member, leads⟩ := governed.led stopped
    rcases ended stop member with rfl | rfl
    · exact leads.elim
    · obtain ⟨-, -, before, same, -⟩ := governed.achieved _ member
      simp [same]
  · intro later final continued worker task running others
    exact (run_invariant ranked.kept holds continued).1.joins
      ⟨worker, task, run_running continued running others⟩

/-! Two threads stop a server that still has a task to run: one shuts it down, the
other one returns at once. -/

def sampleShutdown : List (Label Nat) :=
  [.submitBackground 1, .stop, .stop, .stopSection 0, .stopSection 1,
    .submitBackground 2, .reaper, .stopSection 0, .stopSection 0, .take 0,
    .stopSection 0, .take 1, .finish 0 .returned, .take 0, .stopSection 0,
    .stopSection 0, .stopSection 0, .stopSection 0, .stopSection 0]

def sampleServer (schedule : List (Label Nat)) : ServerRuntime Nat :=
  (run step (ServerRuntime.make true 1 4) schedule).getD
    (ServerRuntime.make true 1 4)

theorem shutdown_ordered_sample :
    (sampleServer sampleShutdown).log = [.ran 1, .serviceStopped] ∧
      (sampleServer sampleShutdown).stops = [.returned, .returnedEarly] ∧
      ShutsDown (sampleServer sampleShutdown) := by
  have ran : run step (ServerRuntime.make true 1 4) sampleShutdown =
      some (sampleServer sampleShutdown) := rfl
  exact ⟨by decide +kernel, by decide +kernel, shutdown_ordered ran⟩

theorem shutdown_winds_up_sample :
    (sampleServer (sampleShutdown.take 4)).stops = [.joiningReaper, .entered] ∧
      WindsUp (sampleServer (sampleShutdown.take 4)) := by
  have ran : run step (ServerRuntime.make true 1 4) (sampleShutdown.take 4) =
      some (sampleServer (sampleShutdown.take 4)) := rfl
  exact ⟨by decide +kernel, shutdown_winds_up ran rfl⟩

end ZooKeeperServer.Runtime
