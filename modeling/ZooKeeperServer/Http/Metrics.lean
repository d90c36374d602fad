import ZooKeeperServer.Http.Handler
import ZooKeeperServer.Transition.Counters

namespace ZooKeeperServer.Http

open Transition Counting

/-! The counters of `ServerMetrics`, incremented by any number of responses and tool
calls while snapshots of them are taken. -/

inductive MetricsCounter
  | requestsTotal
  | requestsErrors
  | requestsCancelledTotal
  | requestsQueueRejectedTotal
  | streamDisconnectsTotal
  | toolInvocationsTotal
  | toolFailuresTotal
  | toolTimeoutsTotal
  deriving DecidableEq, Repr

open MetricsCounter

def Metric.counter : Metric → MetricsCounter
  | .queueRejected => requestsQueueRejectedTotal
  | .cancelled => requestsCancelledTotal
  | .toolInvocations => toolInvocationsTotal
  | .toolFailures => toolFailuresTotal
  | .toolTimeouts => toolTimeoutsTotal

/-- The increments of the callback that `with_metrics` makes. -/
def withMetrics (statusCode : Int) : List MetricsCounter :=
  requestsTotal :: if 400 ≤ statusCode then [requestsErrors] else []

def populateSnapshot : List MetricsCounter :=
  [requestsTotal, requestsErrors, requestsCancelledTotal,
    requestsQueueRejectedTotal, streamDisconnectsTotal, toolInvocationsTotal,
    toolFailuresTotal, toolTimeoutsTotal]

inductive MetricsCall
  | respond (statusCode : Int)
  | incrementToolMetrics (invocations : List ToolInvocationRecord)
  | incrementRuntimeErrorMetrics (error : RuntimeError)
  | incrementStreamDisconnects
  | populateSnapshot

def MetricsCall.program : MetricsCall → Program MetricsCounter
  | .respond statusCode => .increments (withMetrics statusCode)
  | .incrementToolMetrics invocations =>
      .increments (invocations.flatMap fun invocation =>
        (ToolInvocationRecord.metrics invocation).map Metric.counter)
  | .incrementRuntimeErrorMetrics error =>
      .increments ((RuntimeError.metrics error).map Metric.counter)
  | .incrementStreamDisconnects => .increments [streamDisconnectsTotal]
  | .populateSnapshot => .loads Http.populateSnapshot

/-- The first counter should be at least the second. -/
inductive Covers : MetricsCounter → MetricsCounter → Prop
  | errors : Covers requestsTotal requestsErrors
  | failures : Covers toolInvocationsTotal toolFailuresTotal
  | timeouts : Covers toolFailuresTotal toolTimeoutsTotal

section Order

variable {first second : MetricsCounter}

theorem leads_of_covers {counters : List MetricsCounter}
    (ordered : Leads requestsTotal requestsErrors counters ∧
      Leads toolInvocationsTotal toolFailuresTotal counters ∧
      Leads toolFailuresTotal toolTimeoutsTotal counters)
    (covers : Covers first second) : Leads first second counters := by
  cases covers with
  | errors => exact ordered.1
  | failures => exact ordered.2.1
  | timeouts => exact ordered.2.2

theorem withMetrics_leads (covers : Covers first second) (statusCode : Int) :
    Leads first second (withMetrics statusCode) := by
  unfold withMetrics
  split
  · exact leads_of_covers (by decide) covers
  · exact leads_of_covers (by decide) covers

/-- A failure is counted after its invocation, and a timeout after its failure. -/
theorem toolMetrics_leads (covers : Covers first second)
    (invocation : ToolInvocationRecord) :
    Leads first second
      ((ToolInvocationRecord.metrics invocation).map Metric.counter) := by
  unfold ToolInvocationRecord.metrics
  split
  · exact leads_of_covers (by decide) covers
  split
  · split
    · exact leads_of_covers (by decide) covers
    · exact leads_of_covers (by decide) covers
  · exact leads_of_covers (by decide) covers

theorem runtimeErrorMetrics_leads (covers : Covers first second)
    (error : RuntimeError) :
    Leads first second ((RuntimeError.metrics error).map Metric.counter) := by
  unfold RuntimeError.metrics
  split
  · exact leads_of_covers (by decide) covers
  split
  · exact leads_of_covers (by decide) covers
  · exact leads_of_covers (by decide) covers

theorem program_leads (covers : Covers first second) (call : MetricsCall)
    (counters : List MetricsCounter)
    (increments : call.program = .increments counters) :
    Leads first second counters := by
  cases call with
  | respond statusCode =>
      cases increments
      exact withMetrics_leads covers statusCode
  | incrementToolMetrics invocations =>
      cases increments
      exact leads_flatMap (toolMetrics_leads covers) invocations
  | incrementRuntimeErrorMetrics error =>
      cases increments
      exact runtimeErrorMetrics_leads covers error
  | incrementStreamDisconnects =>
      cases increments
      exact leads_of_covers (by decide) covers
  | populateSnapshot => cases increments

/-- At every instant the counters are in order, and a snapshot is off by no more than
the increments that it misses between its two loads. -/
theorem snapshots_off_by_missed (covers : Covers first second)
    {schedule : List (Label MetricsCall)} {final : State MetricsCounter}
    {missed : Nat → Nat}
    (ran : run (noting (step MetricsCall.program) (missing first second))
      (initial, fun _ => 0) schedule = some (final, missed))
    (few : increments final first < 2 ^ 64) :
    final.shared second ≤ final.shared first ∧
      ∀ (index : Nat) snapshot pending leading following,
        final.actors[index]? = some (.loading snapshot pending) →
          (first, leading) ∈ snapshot → (second, following) ∈ snapshot →
            following.toNat ≤ leading.toNat + missed index ∧
              (missed index = 0 → following ≤ leading) := by
  obtain ⟨ordered, reads⟩ := counts_consistent (program_leads covers) ran few
  refine ⟨ordered, fun index snapshot pending leading following found one two => ?_⟩
  have bound := reads.both index snapshot pending leading following found one two
  refine ⟨bound, fun undisturbed => ?_⟩
  rw [UInt64.le_iff_toNat_le]
  omega

end Order

def disturbedSnapshot : List (Label MetricsCall) :=
  [.start .populateSnapshot, .act 0, .start (.respond 500), .act 1, .act 1,
    .act 0, .act 0, .act 0, .act 0, .act 0, .act 0, .act 0]

theorem snapshot_contradicts_itself :
    ∃ final snapshot,
      run (step MetricsCall.program) initial disturbedSnapshot = some final ∧
        final.actors[0]? = some (.loading snapshot []) ∧
        (requestsTotal, 0) ∈ snapshot ∧ (requestsErrors, 1) ∈ snapshot :=
  ⟨_, _, rfl, rfl, by decide, by decide⟩

def responses : Nat → Nat → List (Label MetricsCall)
  | _, 0 => []
  | index, count + 1 =>
      .start (.respond 200) :: .act index :: responses (index + 1) count

theorem run_responses (state : State MetricsCounter) (count : Nat) :
    ∃ final, run (step MetricsCall.program) state
        (responses state.actors.length count) = some final ∧
      final.actors.length = state.actors.length + count ∧
      final.shared requestsTotal =
        state.shared requestsTotal + UInt64.ofNat count ∧
      final.shared requestsErrors = state.shared requestsErrors := by
  induction count generalizing state with
  | zero => exact ⟨state, rfl, rfl, by simp, rfl⟩
  | succ count ih =>
      let answered : State MetricsCounter :=
        ⟨increment state.shared requestsTotal,
          state.actors ++ [.incrementing [requestsTotal] []]⟩
      have responded : run (step MetricsCall.program) state
          [.start (.respond 200), .act state.actors.length] =
            some answered := by
        simp [run, step, Crew.join, Crew.turn, MetricsCall.program, withMetrics,
          Program.thread, Thread.act, answered]
      have longer : answered.actors.length = state.actors.length + 1 := by
        simp [answered]
      obtain ⟨final, ran, length, total, errors⟩ := ih answered
      rw [longer] at ran length
      refine ⟨final, run_append.mpr ⟨answered, responded, ran⟩, by omega, ?_, ?_⟩
      · rw [total]
        simp only [answered, increment, Function.update_self, UInt64.ofNat_add]
        rw [UInt64.add_assoc, UInt64.add_comm 1]
        rfl
      · rw [errors]
        simp [answered, increment]

theorem snapshot_after_responses (count : Nat) :
    ∃ before index final snapshot,
      run (step MetricsCall.program) initial
        (before ++ .start .populateSnapshot :: List.replicate 8 (.act index)) =
          some final ∧
        final.actors[index]? = some (.loading snapshot []) ∧
        (requestsTotal, 1 + UInt64.ofNat count) ∈ snapshot ∧
        (requestsErrors, 1) ∈ snapshot := by
  obtain ⟨failed, ran, length, total, errors⟩ :
      ∃ failed, run (step MetricsCall.program) initial
          [.start (.respond 500), .act 0, .act 0] = some failed ∧
        failed.actors.length = 1 ∧ failed.shared requestsTotal = 1 ∧
        failed.shared requestsErrors = 1 := ⟨_, rfl, rfl, rfl, rfl⟩
  obtain ⟨quiet, continued, -, grown, same⟩ := run_responses failed count
  have started : step MetricsCall.program quiet (.start .populateSnapshot) =
      some (quiet.join quiet.shared (.loading [] populateSnapshot)) := rfl
  have found : (quiet.join quiet.shared
      (.loading [] populateSnapshot)).actors[quiet.actors.length]? =
        some (.loading [] populateSnapshot) := by
    simp [Crew.join]
  obtain ⟨final, finished, taken⟩ :=
    @run_loads _ _ _ MetricsCall.program _ _ _ _ found
  refine ⟨_, quiet.actors.length, final, _, run_append.mpr ⟨quiet,
    run_append.mpr ⟨failed, ran, continued⟩, run_cons.mpr ⟨_, started, finished⟩⟩,
    taken, ?_, ?_⟩
  · simp [Crew.join, populateSnapshot, grown, total]
  · simp [Crew.join, populateSnapshot, same, errors]

/-- After 2^64 responses the total has wrapped around. -/
theorem wrapped_snapshot_contradicts_itself :
    ∃ before index final snapshot,
      run (step MetricsCall.program) initial
        (before ++ .start .populateSnapshot :: List.replicate 8 (.act index)) =
          some final ∧
        final.actors[index]? = some (.loading snapshot []) ∧
        (requestsTotal, 0) ∈ snapshot ∧ (requestsErrors, 1) ∈ snapshot := by
  have wrapped : 1 + UInt64.ofNat (2 ^ 64 - 1) = 0 := by decide
  have answered := snapshot_after_responses (2 ^ 64 - 1)
  rwa [wrapped] at answered

theorem snapshots_off_by_missed_sample :
    ∃ final missed, run (noting (step MetricsCall.program)
        (missing requestsTotal requestsErrors)) (initial, fun _ => 0)
        disturbedSnapshot = some (final, missed) ∧
      final.shared requestsErrors ≤ final.shared requestsTotal ∧
      missed 0 = 1 :=
  ⟨_, _, rfl,
    (@snapshots_off_by_missed _ _ .errors disturbedSnapshot _ _ rfl
      (by decide)).1, rfl⟩

end ZooKeeperServer.Http
