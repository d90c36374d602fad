import ZooKeeperServer.Server.ApiTypes
import ZooKeeperServer.Transition.Machine

namespace ZooKeeperServer.Executor

open Transition

/-! The pool that runs continuations: a bounded queue, workers that take from its
front, and a shutdown that drains it. -/

universe u

inductive TaskEnd
  | returned
  | threw (what : StdString)
  | threwUnknown
  deriving DecidableEq

inductive Worker (Task : Type u)
  | waiting
  | running (task : Task)
  | exited
  deriving DecidableEq

/-- A call of `stop`; `joining` counts the workers it has joined. -/
inductive StopCall
  | entered
  | joining (joined : Nat)
  | returnedEarly
  | joinedAll
  deriving DecidableEq

structure BoundedExecutor (Task : Type u) where
  maxPendingTasks : Nat
  tasks : List Task := []
  workers : List (Worker Task)
  stopping : Bool := false
  stops : List StopCall := []
  /-- What `worker_loop` has written to `std::cerr`. -/
  reported : List StdString := []
  -- From here on only the proofs look.
  submitted : List (Task × Except StdString Unit) := []
  started : List Task := []
  finished : List Task := []

namespace BoundedExecutor

variable {Task : Type u}

def make (workerCount maxPendingTasks : Nat) : BoundedExecutor Task where
  maxPendingTasks := if maxPendingTasks = 0 then 1 else maxPendingTasks
  workers := List.replicate (if workerCount = 0 then 1 else workerCount) .waiting

def submit (executor : BoundedExecutor Task) (task : Task) :
    BoundedExecutor Task × Except StdString Unit :=
  if executor.stopping then (executor, .error (literal "Executor is stopping"))
  else if executor.maxPendingTasks ≤ executor.tasks.length then
    (executor, .error (literal "Executor queue is full"))
  else ({ executor with tasks := executor.tasks ++ [task] }, .ok ())

/-- The next section of a `stop`: under the lock, or the join of one worker, which
waits for that worker's end. -/
def stopSection (executor : BoundedExecutor Task) :
    StopCall → Option (BoundedExecutor Task × StopCall)
  | .entered =>
      if executor.stopping then some (executor, .returnedEarly)
      else some ({ executor with stopping := true }, .joining 0)
  | .joining joined =>
      match executor.workers[joined]? with
      | some .exited => some (executor, .joining (joined + 1))
      | some _ => none
      | none => some (executor, .joinedAll)
  | .returnedEarly => none
  | .joinedAll => none

/-- The section of `worker_loop` under the lock.  A wait may end at any time, but
goes on while its condition does not hold. -/
def take (executor : BoundedExecutor Task) (worker : Nat) :
    Option (BoundedExecutor Task) :=
  match executor.workers[worker]? with
  | some .waiting =>
      match executor.tasks with
      | [] =>
          if executor.stopping then
            some { executor with workers := executor.workers.set worker .exited }
          else none
      | task :: rest =>
          some { executor with
            tasks := rest
            workers := executor.workers.set worker (.running task)
            started := executor.started ++ [task] }
  | _ => none

def report : TaskEnd → List StdString
  | .returned => []
  | .threw what => [literal "Background task failed: " ++ what]
  | .threwUnknown => [literal "Background task failed with an unknown exception"]

def finish (executor : BoundedExecutor Task) (worker : Nat) (ending : TaskEnd) :
    Option (BoundedExecutor Task) :=
  match executor.workers[worker]? with
  | some (.running task) =>
      some { executor with
        workers := executor.workers.set worker .waiting
        reported := executor.reported ++ report ending
        finished := executor.finished ++ [task] }
  | _ => none

end BoundedExecutor

inductive Label (Task : Type u)
  | submit (task : Task)
  | stop
  | stopSection (call : Nat)
  | take (worker : Nat)
  | finish (worker : Nat) (ending : TaskEnd)

section Steps

variable {Task : Type u}

def step (executor : BoundedExecutor Task) :
    Label Task → Option (BoundedExecutor Task)
  | .submit task =>
      let (after, result) := executor.submit task
      some { after with submitted := after.submitted ++ [(task, result)] }
  | .stop => some { executor with stops := executor.stops ++ [.entered] }
  | .stopSection call =>
      match executor.stops[call]? with
      | none => none
      | some stop =>
          (executor.stopSection stop).map fun (after, stop) =>
            { after with stops := after.stops.set call stop }
  | .take worker => executor.take worker
  | .finish worker ending => executor.finish worker ending

end Steps

section Accounting

variable {Task : Type u}

def Worker.task? : Worker Task → Option Task
  | .running task => some task
  | _ => none

namespace BoundedExecutor

def accepted (executor : BoundedExecutor Task) : List Task :=
  executor.submitted.filterMap fun (task, result) =>
    match result with
    | .ok () => some task
    | .error _ => none

def running (executor : BoundedExecutor Task) : List Task :=
  executor.workers.filterMap Worker.task?

end BoundedExecutor

/-- Every accepted task is in one place, and a worker only leaves an empty queue
behind that nothing enters any more. -/
structure Accounts (limit : Nat) (executor : BoundedExecutor Task) : Prop where
  limited : executor.maxPendingTasks = limit
  ordered : executor.accepted = executor.started ++ executor.tasks
  conserved : executor.started.Perm (executor.finished ++ executor.running)
  bounded : executor.tasks.length ≤ executor.maxPendingTasks
  staffed : executor.workers ≠ []
  exits : .exited ∈ executor.workers →
    executor.stopping = true ∧ executor.tasks = []
  begun : ∀ call ∈ executor.stops, call = .entered ∨ executor.stopping = true
  joins : ∀ joined, .joining joined ∈ executor.stops →
    ∀ index < joined, executor.workers[index]? = some .exited
  joinedAll : .joinedAll ∈ executor.stops →
    ∀ worker ∈ executor.workers, worker = .exited

variable {executor next : BoundedExecutor Task} {limit worker : Nat} {task : Task}

theorem tasks_cons (first : Worker Task) (rest : List (Worker Task)) :
    (first :: rest).filterMap Worker.task? =
      first.task?.toList ++ rest.filterMap Worker.task? := by
  cases first with
  | _ => rfl

theorem running_set {workers : List (Worker Task)} {index : Nat}
    {old : Worker Task} (found : workers[index]? = some old) :
    ∃ before after, ∀ new : Worker Task,
      (workers.set index new).filterMap Worker.task? =
        before ++ new.task?.toList ++ after := by
  induction workers generalizing index with
  | nil => simp at found
  | cons first rest ih =>
      cases index with
      | zero => exact ⟨[], rest.filterMap Worker.task?, fun new => tasks_cons new rest⟩
      | succ index =>
          obtain ⟨before, after, changed⟩ := ih (by simpa using found)
          refine ⟨first.task?.toList ++ before, after, fun new => ?_⟩
          rw [List.set_cons_succ, tasks_cons, changed]
          simp

theorem running_before {workers : List (Worker Task)} {index : Nat}
    {old : Worker Task} (found : workers[index]? = some old) :
    workers.set index old = workers := by
  obtain ⟨bound, rfl⟩ := List.getElem?_eq_some_iff.mp found
  exact List.set_getElem_self bound

theorem make_accounts (workerCount maxPendingTasks : Nat) :
    Accounts (max 1 maxPendingTasks)
      (BoundedExecutor.make workerCount maxPendingTasks :
        BoundedExecutor Task) where
  limited := by
    simp only [BoundedExecutor.make]
    split <;> omega
  ordered := rfl
  conserved := by
    simp [BoundedExecutor.running, BoundedExecutor.make, Worker.task?]
  bounded := Nat.zero_le _
  staffed := by
    simp only [BoundedExecutor.make]
    split <;> simp [*]
  exits := by simp [BoundedExecutor.make, List.mem_replicate]
  begun := by simp [BoundedExecutor.make]
  joins := by simp [BoundedExecutor.make]
  joinedAll := by simp [BoundedExecutor.make]

theorem accepted_append {submitted : List (Task × Except StdString Unit)}
    {result : Except StdString Unit} :
    ({ executor with submitted := submitted ++ [(task, result)] } :
        BoundedExecutor Task).accepted =
      ({ executor with submitted } : BoundedExecutor Task).accepted ++
        match result with
        | .ok () => [task]
        | .error _ => [] := by
  simp only [BoundedExecutor.accepted, List.filterMap_append]
  cases result with
  | _ => rfl

theorem Accounts.submits (accounts : Accounts limit executor) (task : Task) :
    let (after, result) := executor.submit task
    Accounts limit { after with submitted := after.submitted ++ [(task, result)] } := by
  simp only [BoundedExecutor.submit]
  split
  · refine { accounts with ordered := ?_ }
    rw [accepted_append]
    simpa using accounts.ordered
  split
  · refine { accounts with ordered := ?_ }
    rw [accepted_append]
    simpa using accounts.ordered
  · rename_i running room
    refine { accounts with ordered := ?_, bounded := ?_, exits := ?_ }
    · have before : executor.accepted = executor.started ++ executor.tasks :=
        accounts.ordered
      rw [accepted_append]
      simpa [BoundedExecutor.accepted] using congrArg (· ++ [task]) before
    · simp only [List.length_append, List.length_singleton]
      omega
    · exact fun exited => absurd (accounts.exits exited).1 running

theorem Accounts.unjoined {old : Worker Task} (accounts : Accounts limit executor)
    (found : executor.workers[worker]? = some old) (here : old ≠ .exited)
    (new : Worker Task) :
    executor.workers.set worker new ≠ [] ∧
      (∀ joined, .joining joined ∈ executor.stops → ∀ index < joined,
        (executor.workers.set worker new)[index]? = some .exited) ∧
      (.joinedAll ∈ executor.stops →
        ∀ other ∈ executor.workers.set worker new, other = .exited) := by
  refine ⟨?_, fun joined member index before => ?_, fun member => ?_⟩
  · simpa using accounts.staffed
  · have gone := accounts.joins joined member
    have other : worker ≠ index := by
      rintro rfl
      exact here (Option.some.inj (found.symm.trans (gone worker before)))
    rw [List.getElem?_set_ne other]
    exact gone index before
  · exact absurd (accounts.joinedAll member _ (List.mem_of_getElem? found)) here

theorem Accounts.takes (accounts : Accounts limit executor)
    (taken : executor.take worker = some next) : Accounts limit next := by
  unfold BoundedExecutor.take at taken
  split at taken
  · rename_i found
    obtain ⟨before, after, changed⟩ := running_set found
    have idle := changed .waiting
    rw [running_before found] at idle
    have conserved : executor.started.Perm
        (executor.finished ++ (before ++ after)) := by
      simpa [BoundedExecutor.running, idle, Worker.task?] using
        accounts.conserved
    split at taken
    · rename_i empty
      split at taken
      · rename_i stopping
        obtain rfl := Option.some.inj taken
        obtain ⟨staffed, joins, joinedAll⟩ :=
          accounts.unjoined found (by simp) .exited
        refine { accounts with
          conserved := ?_, staffed, joins, joinedAll
          exits := fun _ => ⟨stopping, empty⟩ }
        simpa [BoundedExecutor.running, changed, Worker.task?] using conserved
      · contradiction
    · rename_i task rest queue
      obtain rfl := Option.some.inj taken
      obtain ⟨staffed, joins, joinedAll⟩ :=
        accounts.unjoined found (by simp) (.running task)
      refine { accounts with
        ordered := ?_, conserved := ?_, bounded := ?_, staffed, joins, joinedAll
        exits := fun exited => ?_ }
      · have ordered := accounts.ordered
        rw [queue] at ordered
        simpa [BoundedExecutor.accepted] using ordered
      · have more := conserved.append_right [task]
        refine more.trans ?_
        simp only [BoundedExecutor.running, changed, Worker.task?,
          Option.toList_some, List.append_assoc]
        refine List.Perm.append_left _ (List.Perm.append_left _ ?_)
        exact List.perm_append_comm
      · have bounded := accounts.bounded
        rw [queue, List.length_cons] at bounded
        exact Nat.le_of_succ_le bounded
      · rcases List.mem_or_eq_of_mem_set exited with earlier | same
        · have empty := (accounts.exits earlier).2
          rw [queue] at empty
          cases empty
        · cases same
  · contradiction

theorem Accounts.finishes {ending : TaskEnd} (accounts : Accounts limit executor)
    (finished : executor.finish worker ending = some next) : Accounts limit next := by
  unfold BoundedExecutor.finish at finished
  split at finished
  · rename_i task found
    obtain rfl := Option.some.inj finished
    obtain ⟨before, after, changed⟩ := running_set found
    have busy := changed (.running task)
    rw [running_before found] at busy
    have conserved : executor.started.Perm
        (executor.finished ++ (before ++ [task] ++ after)) := by
      simpa [BoundedExecutor.running, busy, Worker.task?] using
        accounts.conserved
    obtain ⟨staffed, joins, joinedAll⟩ :=
      accounts.unjoined found (by simp) .waiting
    refine { accounts with
      conserved := ?_, staffed, joins, joinedAll, exits := fun exited => ?_ }
    · refine conserved.trans ?_
      simp only [BoundedExecutor.running, changed, Worker.task?,
        Option.toList_none, List.append_assoc]
      refine List.Perm.append_left _ ?_
      exact List.perm_middle
    · rcases List.mem_or_eq_of_mem_set exited with earlier | same
      · exact accounts.exits earlier
      · cases same
  · contradiction

theorem Accounts.stops {call : Nat} {stop after : StopCall}
    (accounts : Accounts limit executor) (at_ : executor.stops[call]? = some stop)
    (executed : executor.stopSection stop = some (next, after)) :
    Accounts limit { next with stops := next.stops.set call after } := by
  have member := List.mem_of_getElem? at_
  cases stop with
  | entered =>
      simp only [BoundedExecutor.stopSection] at executed
      split at executed
      · rename_i stopping
        cases Option.some.inj executed
        refine { accounts with
          begun := fun _ _ => .inr stopping
          joins := fun joined later => accounts.joins joined ?_
          joinedAll := fun later => accounts.joinedAll ?_ }
        · exact (List.mem_or_eq_of_mem_set later).resolve_right (by simp)
        · exact (List.mem_or_eq_of_mem_set later).resolve_right (by simp)
      · cases Option.some.inj executed
        refine { accounts with
          exits := fun exited => ⟨rfl, (accounts.exits exited).2⟩
          begun := fun _ _ => .inr rfl
          joins := fun joined later index before => ?_
          joinedAll := fun later => accounts.joinedAll ?_ }
        · rcases List.mem_or_eq_of_mem_set later with earlier | same
          · exact accounts.joins joined earlier index before
          · cases same
            exact absurd before (Nat.not_lt_zero index)
        · exact (List.mem_or_eq_of_mem_set later).resolve_right (by simp)
  | joining joined =>
      have stopping : executor.stopping = true :=
        (accounts.begun _ member).resolve_left (by simp)
      simp only [BoundedExecutor.stopSection] at executed
      split at executed
      · rename_i found
        cases Option.some.inj executed
        refine { accounts with
          begun := fun _ _ => .inr stopping
          joins := fun other later index before => ?_
          joinedAll := fun later => accounts.joinedAll ?_ }
        · rcases List.mem_or_eq_of_mem_set later with earlier | same
          · exact accounts.joins other earlier index before
          · cases same
            rcases Nat.lt_succ_iff_lt_or_eq.mp before with earlier | rfl
            · exact accounts.joins joined member index earlier
            · exact found
        · exact (List.mem_or_eq_of_mem_set later).resolve_right (by simp)
      · contradiction
      · rename_i none
        cases Option.some.inj executed
        have length := List.getElem?_eq_none_iff.mp none
        refine { accounts with
          begun := fun _ _ => .inr stopping
          joins := fun other later => accounts.joins other ?_
          joinedAll := fun _ worker held => ?_ }
        · exact (List.mem_or_eq_of_mem_set later).resolve_right (by simp)
        · obtain ⟨index, found⟩ := List.mem_iff_getElem?.mp held
          obtain ⟨bound, _⟩ := List.getElem?_eq_some_iff.mp found
          have gone := accounts.joins joined member index (bound.trans_le length)
          exact Option.some.inj (found.symm.trans gone)
  | returnedEarly => cases executed
  | joinedAll => cases executed

theorem Accounts.step {label : Label Task} (accounts : Accounts limit executor)
    (stepped : step executor label = some next) : Accounts limit next := by
  cases label with
  | submit task =>
      obtain rfl := Option.some.inj stepped
      exact accounts.submits task
  | stop =>
      obtain rfl := Option.some.inj stepped
      refine { accounts with
        begun := fun call member => ?_
        joins := fun joined member => accounts.joins joined ?_
        joinedAll := fun member => accounts.joinedAll ?_ }
      · rcases List.mem_append.mp member with earlier | last
        · exact accounts.begun call earlier
        · exact .inl (List.mem_singleton.mp last)
      · simpa using member
      · simpa using member
  | stopSection call =>
      simp only [Executor.step] at stepped
      split at stepped
      · contradiction
      · rename_i stop at_
        obtain ⟨⟨middle, after⟩, executed, rfl⟩ :=
          Option.map_eq_some_iff.mp stepped
        exact accounts.stops at_ executed
  | take worker => exact accounts.takes stepped
  | finish worker ending => exact accounts.finishes stepped

theorem run_accounts {workerCount maxPendingTasks : Nat}
    {schedule : List (Label Task)}
    (ran : run step (BoundedExecutor.make workerCount maxPendingTasks) schedule =
      some executor) : Accounts (max 1 maxPendingTasks) executor :=
  run_invariant Accounts.step (make_accounts workerCount maxPendingTasks) ran

theorem Accounts.drained (accounts : Accounts limit executor)
    (joined : .joinedAll ∈ executor.stops) :
    executor.tasks = [] ∧ executor.running = [] := by
  have gone := accounts.joinedAll joined
  obtain ⟨first, rest, same⟩ := List.exists_cons_of_ne_nil accounts.staffed
  have left : .exited ∈ executor.workers := by
    have member : first ∈ executor.workers := by simp [same]
    exact gone first member ▸ member
  refine ⟨(accounts.exits left).2, List.filterMap_eq_nil_iff.mpr ?_⟩
  intro worker member
  rw [gone worker member]
  rfl

end Accounting

structure Delivers {Task : Type u} (maxPendingTasks : Nat)
    (executor : BoundedExecutor Task) : Prop where
  conserved : executor.accepted.Perm
    (executor.finished ++ executor.running ++ executor.tasks)
  ordered : executor.accepted = executor.started ++ executor.tasks
  bounded : executor.tasks.length ≤ max 1 maxPendingTasks
  refused : ∀ call ∈ executor.stops, call ≠ .entered → ∀ task,
    executor.submit task =
      (executor, .error (literal "Executor is stopping"))
  drained : .joinedAll ∈ executor.stops →
    executor.started = executor.accepted ∧
      executor.accepted.Perm executor.finished
  idle : .joinedAll ∈ executor.stops → ∀ worker,
    executor.take worker = none ∧ ∀ ending, executor.finish worker ending = none

/-- No accepted task is lost, duplicated or run after the shutdown. -/
theorem tasks_delivered {Task : Type u} {workerCount maxPendingTasks : Nat}
    {schedule : List (Label Task)} {executor : BoundedExecutor Task}
    (ran : run step (BoundedExecutor.make workerCount maxPendingTasks) schedule =
      some executor) : Delivers maxPendingTasks executor := by
  have accounts := run_accounts ran
  have conserved : executor.accepted.Perm
      (executor.finished ++ executor.running ++ executor.tasks) := by
    rw [accounts.ordered]
    exact accounts.conserved.append_right _
  refine
    { conserved
      ordered := accounts.ordered
      bounded := accounts.bounded.trans_eq accounts.limited
      refused := fun call member begun task => ?_
      drained := fun joined => ?_
      idle := fun joined worker => ?_ }
  · have stopping := (accounts.begun call member).resolve_left begun
    simp [BoundedExecutor.submit, stopping]
  · obtain ⟨tasks, running⟩ := accounts.drained joined
    have ordered := accounts.ordered
    rw [tasks, List.append_nil] at ordered
    rw [tasks, running, List.append_nil, List.append_nil] at conserved
    exact ⟨ordered.symm, conserved⟩
  · have gone := accounts.joinedAll joined
    unfold BoundedExecutor.take BoundedExecutor.finish
    cases found : executor.workers[worker]? with
    | none => exact ⟨rfl, fun _ => rfl⟩
    | some held =>
        rw [gone held (List.mem_of_getElem? found)]
        exact ⟨rfl, fun _ => rfl⟩

/-! Two workers and room for one task: a task throws, another runs on while the
pool stops, a third is refused. -/

def sampleTasks : List (Label Nat) :=
  [.submit 1, .take 0, .submit 2, .take 1, .finish 0 (.threw (literal "no")),
    .stop, .stopSection 0, .submit 3, .take 0, .stopSection 0,
    .finish 1 .returned, .take 1, .stopSection 0, .stopSection 0]

theorem tasks_delivered_sample :
    ∃ executor : BoundedExecutor Nat,
      run step (BoundedExecutor.make 2 0) sampleTasks = some executor ∧
        executor.finished = [1, 2] ∧ .joinedAll ∈ executor.stops ∧
        Delivers 0 executor := by
  have ran : run step (BoundedExecutor.make 2 0) sampleTasks =
      some ((run step (BoundedExecutor.make 2 0) sampleTasks).getD
        (BoundedExecutor.make 2 0)) := rfl
  exact ⟨_, ran, by decide +kernel, by decide +kernel, tasks_delivered ran⟩

end ZooKeeperServer.Executor
