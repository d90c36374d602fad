import Mathlib.Tactic.IntervalCases
import ZooKeeperServer.Server.Streaming
import ZooKeeperServer.Server.ToolSteps
import ZooKeeperServer.Transition.Progress

namespace ZooKeeperServer.CommandTools

open Transition

/-! When a call of a command tool returns.  Its loop is left once the tool has been
reaped and both of its output pipes are at their end; the deadline sees to the first
of the three alone. -/

section Runs

variable {tool : Invocation} {environment : Environment}
  {pipes : Stream → Writers} {n : Nat}

/-- A read end that is closed has met the end of the file, with everything read that
was ever written. -/
theorem closed_drained (permitted : Permitted tool environment pipes)
    {stream : Stream}
    (closed : ((run tool environment n).output stream).readEnd = false) :
    ∃ m ≤ n, (pipes stream).holders m = 0 ∧
      ((run tool environment n).output stream).received =
        (pipes stream).written m := by
  induction n with
  | zero => simp [run] at closed
  | succ n ih =>
      by_cases running : (run tool environment n).Running
      · have outcome := @step_outcome tool environment n _ running
        rw [← run] at outcome
        generalize run tool environment (n + 1) = next at closed outcome ⊢
        have kept (same : next.output stream =
            (run tool environment n).output stream) :
            ∃ m ≤ n + 1, (pipes stream).holders m = 0 ∧
              (next.output stream).received = (pipes stream).written m := by
          rw [same] at closed ⊢
          obtain ⟨m, order, drained⟩ := ih closed
          exact ⟨m, Nat.le_succ_of_le order, drained⟩
        cases outcome with
        | leadsOn leads => exact kept (congrFun leads.output stream)
        | fails _ output => exact kept (congrFun output stream)
        | ends other revents control answer leads =>
            by_cases same : stream = other
            · subst same
              rw [leads.output]
              simp only [Loop.setOutput, Function.update_self, OutputPipe.close]
              exact ⟨n, Nat.le_succ n,
                permitted.endOfFile n stream revents control answer⟩
            · apply kept
              rw [leads.output]
              exact Function.update_of_ne same _ _
        | receives other revents chunk control answer leads =>
            by_cases same : stream = other
            · subst same
              rw [leads.output] at closed ⊢
              simp only [Loop.setOutput, Function.update_self,
                OutputPipe.append] at closed ⊢
              obtain ⟨m, order, none, drained⟩ := ih closed
              -- Nothing is left in a pipe that is at its end.
              have empty : chunk = [] := by
                by_contra some
                have fits := (permitted.chunk n stream revents chunk control
                  answer some).2.length_le
                rw [(Writers.released_from order none).2, ← drained,
                  List.length_append] at fits
                have bytes := List.length_pos_iff.mpr some
                omega
              rw [empty, List.append_nil]
              exact ⟨m, Nat.le_succ_of_le order, none, drained⟩
            · apply kept
              rw [leads.output]
              exact Function.update_of_ne same _ _
      · simp only [run, step_output running] at closed ⊢
        obtain ⟨m, order, drained⟩ := ih closed
        exact ⟨m, Nat.le_succ_of_le order, drained⟩

/-- A run that has left its loop out of order has met an error. -/
theorem run_orderly :
    (run tool environment n).Orderly ∨
      ∃ m, Fails environment m (run tool environment m) := by
  induction n with
  | zero => exact Or.inl trivial
  | succ n ih =>
      obtain orderly | failed := ih
      · by_cases running : (run tool environment n).Running
        · cases @step_outcome tool environment n _ running with
          | leadsOn leads => exact Or.inl leads.orderly
          | fails failed _ => exact Or.inr ⟨n, failed⟩
          | ends _ _ _ _ leads => exact Or.inl leads.orderly
          | receives _ _ _ _ _ leads => exact Or.inl leads.orderly
        · obtain ⟨error, control⟩ | ⟨result, control⟩ :=
            Loop.stopped_cases running
          · simp only [Loop.Orderly, control] at orderly
          · apply Or.inl
            simpa only [run, step_returned control] using orderly
      · exact Or.inr failed

theorem returned_explained (permitted : Permitted tool environment pipes)
    {result : CommandToolRunResult}
    (returned : (run tool environment n).control = .returned result) :
    (∃ m, Fails environment m (run tool environment m)) ∨
      ∀ stream, ∃ m, (pipes stream).holders m = 0 := by
  obtain orderly | failed := @run_orderly tool environment n
  · simp only [Loop.Orderly, returned] at orderly
    right
    intro stream
    obtain ⟨m, _, none, _⟩ := closed_drained permitted (orderly stream)
    exact ⟨m, none⟩
  · exact Or.inl failed

/-- From some call on the loop is interrupted at every call. -/
def InterruptedForever (tool : Invocation) (environment : Environment) : Prop :=
  ∃ first, ∀ n, first ≤ n →
    Interrupted environment n (run tool environment n)

theorem returns_uninterrupted (returns : Returns tool environment) :
    ¬ InterruptedForever tool environment := by
  rintro ⟨first, interrupted⟩
  obtain ⟨n, result, returned⟩ := returns
  have last := interrupted (max first n) (le_max_left _ _)
  rw [run_returned returned (le_max_right _ _)] at last
  simp only [Interrupted, returned] at last

end Runs

namespace Loop

variable {tool : Invocation} {loop : Loop} {revents : Revents}

/-- What is yet to be written to the tool and read from it, when it has written
`finals` in all. -/
def left (tool : Invocation) (finals : Stream → StdString) (loop : Loop) : Nat :=
  (tool.stdinPayload.length - loop.offset) +
    ((finals .stdout).length - (loop.output .stdout).received.length) +
    ((finals .stderr).length - (loop.output .stderr).received.length)

/-- The pipe is closed, or is read in this turn of the loop. -/
def answered (loop : Loop) (revents : Revents) (stream : Stream) : Bool :=
  !(loop.output stream).readEnd || (revents.output stream).readable

/-- The turns that may come before the last one: the wait for the tool is between
those in which it runs and those after it has been reaped. -/
def turns (loop : Loop) (covered : Bool) : Nat :=
  if loop.waited then (if covered then 0 else 1) else 3

def rank (tool : Invocation) (finals : Stream → StdString) (loop : Loop) : Nat :=
  match loop.control with
  | .timing => 6 * loop.turns true + 5 + loop.left tool finals
  | .polling _ => 6 * loop.turns true + 4 + loop.left tool finals
  | .writing revents =>
      6 * loop.turns (loop.answered revents .stdout &&
        loop.answered revents .stderr) + 3 + loop.left tool finals
  | .reading .stdout revents =>
      6 * loop.turns (loop.answered revents .stderr) + 2 + loop.left tool finals
  | .reading .stderr _ =>
      6 * loop.turns (!(loop.output .stdout).readEnd) + 1 + loop.left tool finals
  | .waiting => 14 + loop.left tool finals
  | .checking => 13 + loop.left tool finals
  | .reaping => 12 + loop.left tool finals
  | .failing _ => 0
  | .returned _ => 0

variable {finals : Stream → StdString}

theorem answered_unread {stream : Stream}
    (answered : loop.answered revents stream = true)
    (unread : ¬ ((loop.output stream).readEnd &&
      (revents.output stream).readable) = true) :
    (loop.output stream).readEnd = false := by
  cases readEnd : (loop.output stream).readEnd with
  | false => rfl
  | true =>
      simp only [Loop.answered, readEnd, Bool.not_true, Bool.false_or] at answered
      simp only [readEnd, answered, Bool.and_self, not_true_eq_false] at unread

theorem turns_le {covered more : Bool} (order : more = true → covered = true) :
    loop.turns covered ≤ loop.turns more := by
  unfold turns
  split
  · split
    · exact Nat.zero_le _
    · rename_i uncovered
      rw [if_neg fun holds => uncovered (order holds)]
  · exact le_refl _

theorem left_close (stream : Stream) :
    (loop.setOutput stream (loop.output stream).close).left tool finals =
      loop.left tool finals := by
  cases stream with
  | stdout => simp [left, setOutput, OutputPipe.close]
  | stderr => simp [left, setOutput, OutputPipe.close]

theorem left_append {stream : Stream} {chunk : StdString} {maxBytes : Nat}
    (some : chunk ≠ [])
    (fits : (loop.output stream).received ++ chunk <+: finals stream) :
    (loop.setOutput stream
      ((loop.output stream).append chunk maxBytes)).left tool finals <
      loop.left tool finals := by
  have bytes := List.length_pos_iff.mpr some
  have bound := fits.length_le
  rw [List.length_append] at bound
  cases stream with
  | stdout =>
      simp only [left, setOutput, OutputPipe.append, Function.update_self,
        Function.update_of_ne (by decide : Stream.stderr ≠ .stdout),
        List.length_append]
      omega
  | stderr =>
      simp only [left, setOutput, OutputPipe.append, Function.update_self,
        Function.update_of_ne (by decide : Stream.stdout ≠ .stderr),
        List.length_append]
      omega

theorem rank_fail {message : StdString} :
    (loop.fail message).rank tool finals = 0 := by
  unfold fail
  split
  · rfl
  · rfl

theorem rank_afterWait (waited : loop.waited = true) :
    (loop.afterWait tool).rank tool finals ≤ 4 + loop.left tool finals := by
  unfold afterWait
  split
  · exact Nat.zero_le _
  · rename_i unfinished
    rw [waited, Bool.true_and] at unfinished
    simp [unfinished, waited, rank, turns, left]

theorem rank_afterWait_drained (waited : loop.waited = true)
    (drained : loop.drained = true) :
    (loop.afterWait tool).rank tool finals = 0 := by
  simp only [afterWait, waited, drained, Bool.and_self, if_true, rank]

theorem rank_again :
    (loop.again tool).rank tool finals ≤
      (if loop.waited then 4 else 14) + loop.left tool finals := by
  unfold again
  split
  · rename_i waited
    exact rank_afterWait waited
  · exact le_refl _

/-- The turn after one that answers every open pipe ends the loop. -/
theorem rank_again_covered {covered : Bool}
    (drains : covered = true → loop.drained = true) :
    (loop.again tool).rank tool finals ≤
      6 * loop.turns covered + loop.left tool finals := by
  by_cases finished : loop.waited = true ∧ loop.drained = true
  · rw [again, if_pos finished.1,
      rank_afterWait_drained finished.1 finished.2]
    exact Nat.zero_le _
  · have bound := @rank_again tool loop finals
    cases waited : loop.waited with
    | true =>
        have uncovered : covered = false := by
          simpa using fun holds => finished ⟨waited, drains holds⟩
        simp only [waited, if_true] at bound
        simp only [turns, waited, uncovered, if_true, Bool.false_eq_true,
          if_false]
        omega
    | false =>
        simp only [waited, Bool.false_eq_true, if_false] at bound
        simp only [turns, waited, Bool.false_eq_true, if_false]
        omega

theorem rank_afterStdout :
    (loop.afterStdout tool revents).rank tool finals ≤
      6 * loop.turns (!(loop.output .stdout).readEnd &&
        loop.answered revents .stderr) + 1 + loop.left tool finals := by
  unfold afterStdout
  split
  · have order := @turns_le loop (!(loop.output .stdout).readEnd)
      (!(loop.output .stdout).readEnd && loop.answered revents .stderr)
      (fun covered => (Bool.and_eq_true_iff.mp covered).1)
    change 6 * loop.turns (!(loop.output .stdout).readEnd) + 1 +
      loop.left tool finals ≤ _
    omega
  · rename_i unread
    have bound := @rank_again_covered tool loop finals
      (!(loop.output .stdout).readEnd && loop.answered revents .stderr) (by
        intro covered
        rw [Bool.and_eq_true] at covered
        rw [drained, covered.1, answered_unread covered.2 unread]
        rfl)
    omega

theorem rank_afterStdin :
    (loop.afterStdin tool revents).rank tool finals ≤
      6 * loop.turns (loop.answered revents .stdout &&
        loop.answered revents .stderr) + 2 + loop.left tool finals := by
  unfold afterStdin
  split
  · have order := @turns_le loop (loop.answered revents .stderr)
      (loop.answered revents .stdout && loop.answered revents .stderr)
      (fun covered => (Bool.and_eq_true_iff.mp covered).2)
    change 6 * loop.turns (loop.answered revents .stderr) + 2 +
      loop.left tool finals ≤ _
    omega
  · rename_i unread
    have bound := @rank_afterStdout tool loop revents finals
    have order := @turns_le loop
      (!(loop.output .stdout).readEnd && loop.answered revents .stderr)
      (loop.answered revents .stdout && loop.answered revents .stderr) (by
        intro covered
        rw [Bool.and_eq_true] at covered
        rw [answered_unread covered.1 unread, covered.2]
        rfl)
    omega

theorem rank_afterPoll :
    (loop.afterPoll tool revents).rank tool finals ≤
      6 * loop.turns (loop.answered revents .stdout &&
        loop.answered revents .stderr) + 3 + loop.left tool finals := by
  have skipped := @rank_afterStdin tool loop revents finals
  unfold afterPoll
  split
  · split
    · exact le_trans
        (@rank_afterStdin tool { loop with writeEnd := false } revents finals)
        (Nat.add_le_add_right (Nat.le_succ _) _)
    · split
      · exact le_refl _
      · omega
  · omega

end Loop

section Descent

variable {tool : Invocation} {environment : Environment} {n : Nat}
  {loop next : Loop} {finals : Stream → StdString}

/-- The rank does not grow, and only an interrupt leaves it as it is. -/
structure Lowers (tool : Invocation) (finals : Stream → StdString)
    (environment : Environment) (n : Nat) (loop next : Loop) : Prop where
  holds : next.rank tool finals ≤ loop.rank tool finals
  falls : ¬ Interrupted environment n loop →
    next.rank tool finals < loop.rank tool finals

theorem lowers_of_lt (lower : next.rank tool finals < loop.rank tool finals) :
    Lowers tool finals environment n loop next :=
  ⟨le_of_lt lower, fun _ => lower⟩

theorem lowers_interrupted (interrupted : Interrupted environment n loop)
    (bound : next.rank tool finals ≤ loop.rank tool finals) :
    Lowers tool finals environment n loop next :=
  ⟨bound, fun uninterrupted => absurd interrupted uninterrupted⟩

theorem waiting_lowers (control : loop.control = .waiting) :
    Lowers tool finals environment n loop
      (loop.tryWait tool (environment.waitpidNoHang n)) := by
  have current : loop.rank tool finals = 14 + loop.left tool finals := by
    simp only [Loop.rank, control]
  cases answer : environment.waitpidNoHang n with
  | ok status =>
      apply lowers_of_lt
      rw [current]
      cases status with
      | some status =>
          have bound := @Loop.rank_afterWait tool
            { loop with waited := true, status } finals rfl
          change _ < 14 + Loop.left tool finals
            { loop with waited := true, status }
          simp only [Loop.tryWait]
          omega
      | none =>
          change 13 + loop.left tool finals < _
          omega
  | error error =>
      cases error with
      | eintr =>
          apply lowers_interrupted
          · simp only [Interrupted, control, answer]
          · exact le_refl _
      | _ =>
          apply lowers_of_lt
          simp only [Loop.tryWait]
          rw [Loop.rank_fail, current]
          omega

theorem checking_lowers {now : Nat} (control : loop.control = .checking)
    (passed : tool.deadline ≤ now) :
    Lowers tool finals environment n loop (loop.check tool now) := by
  apply lowers_of_lt
  rw [Loop.check, if_pos passed]
  simp only [Loop.rank, control]
  change 12 + loop.left tool finals < _
  omega

theorem reaping_lowers (control : loop.control = .reaping) :
    Lowers tool finals environment n loop
      (loop.killAndWait (Loop.afterWait tool) (environment.waitpid n)) := by
  have current : loop.rank tool finals = 12 + loop.left tool finals := by
    simp only [Loop.rank, control]
  have reaped (status : WaitStatus) :
      ({ loop with waited := true, status }.afterWait tool).rank tool finals <
        loop.rank tool finals := by
    have bound := @Loop.rank_afterWait tool
      { loop with waited := true, status } finals rfl
    change _ ≤ 4 + loop.left tool finals at bound
    omega
  cases answer : environment.waitpid n with
  | ok status => exact lowers_of_lt (reaped status)
  | error error =>
      cases error with
      | eintr =>
          apply lowers_interrupted
          · simp only [Interrupted, control, answer]
          · exact le_refl _
      | _ => exact lowers_of_lt (reaped loop.status)

theorem timing_lowers {now : Nat} (control : loop.control = .timing) :
    Lowers tool finals environment n loop (loop.time tool now) := by
  apply lowers_of_lt
  simp only [Loop.rank, control]
  change 6 * loop.turns true + 4 + loop.left tool finals < _
  omega

theorem polling_lowers {timeoutMs : Nat}
    (control : loop.control = .polling timeoutMs)
    (reported : ∀ answer stream, environment.poll n = .ok answer →
      (loop.output stream).readEnd = true →
      ∃ revents, answer = some revents ∧
        (revents.output stream).readable = true) :
    Lowers tool finals environment n loop
      (loop.poll tool (environment.poll n)) := by
  have current : loop.rank tool finals =
      6 * loop.turns true + 4 + loop.left tool finals := by
    simp only [Loop.rank, control]
  cases answer : environment.poll n with
  | ok found =>
      apply lowers_of_lt
      rw [current]
      cases found with
      | some revents =>
          have answered (stream : Stream) :
              loop.answered revents stream = true := by
            cases readEnd : (loop.output stream).readEnd with
            | false => simp only [Loop.answered, readEnd, Bool.not_false,
                Bool.true_or]
            | true =>
                obtain ⟨_, same, readable⟩ :=
                  reported (some revents) stream answer readEnd
                cases same
                simp only [Loop.answered, readable, Bool.or_true]
          have bound := @Loop.rank_afterPoll tool loop revents finals
          rw [answered .stdout, answered .stderr, Bool.and_self] at bound
          simp only [Loop.poll]
          omega
      | none =>
          -- With no open pipe there is nothing left but to wait for the tool.
          have drained : loop.drained = true := by
            rw [Loop.drained_iff]
            intro stream
            cases readEnd : (loop.output stream).readEnd with
            | false => rfl
            | true =>
                obtain ⟨_, same, _⟩ := reported none stream answer readEnd
                cases same
          have bound := @Loop.rank_again_covered tool loop finals true
            fun _ => drained
          simp only [Loop.poll]
          omega
  | error error =>
      cases error with
      | eintr =>
          apply lowers_interrupted
          · simp only [Interrupted, control, answer]
          · have bound := @Loop.rank_again tool loop finals
            rw [current]
            simp only [Loop.poll, Loop.turns]
            cases waited : loop.waited with
            | true =>
                simp only [waited, if_true] at bound ⊢
                omega
            | false =>
                simp only [waited, Bool.false_eq_true, if_false] at bound ⊢
                omega
      | _ =>
          apply lowers_of_lt
          simp only [Loop.poll]
          rw [Loop.rank_fail, current]
          omega

theorem writing_lowers {revents : Revents}
    (control : loop.control = .writing revents)
    (taken : ∀ count, environment.write n = .ok count →
      0 < count ∧ loop.offset + count ≤ tool.stdinPayload.length) :
    Lowers tool finals environment n loop
      (loop.write tool revents (environment.write n)) := by
  have current : loop.rank tool finals =
      6 * loop.turns (loop.answered revents .stdout &&
        loop.answered revents .stderr) + 3 + loop.left tool finals := by
    simp only [Loop.rank, control]
  have skipped := @Loop.rank_afterStdin tool loop revents finals
  cases answer : environment.write n with
  | ok count =>
      obtain ⟨some, fits⟩ := taken count answer
      apply lowers_of_lt
      rw [current]
      simp only [Loop.write]
      split
      · simp only [Loop.rank, control]
        change 6 * loop.turns (loop.answered revents .stdout &&
          loop.answered revents .stderr) + 3 + Loop.left tool finals
            { loop with offset := loop.offset + count } < _
        simp only [Loop.left]
        omega
      · have bound := @Loop.rank_afterStdin tool
          { loop with
            writeEnd := false
            offset := loop.offset + count
            delivered := loop.delivered ++
              (tool.stdinPayload.drop loop.offset).take count } revents finals
        change _ ≤ 6 * loop.turns (loop.answered revents .stdout &&
          loop.answered revents .stderr) + 2 + Loop.left tool finals
            { loop with offset := loop.offset + count } at bound
        simp only [Loop.left] at bound ⊢
        omega
  | error error =>
      cases error with
      | eintr =>
          apply lowers_interrupted
          · simp only [Interrupted, control, answer]
          · exact le_refl _
      | other code =>
          apply lowers_of_lt
          simp only [Loop.write]
          rw [Loop.rank_fail, current]
          omega
      | _ =>
          apply lowers_of_lt
          rw [current]
          simp only [Loop.write]
          omega

/-- After the end of the file a pipe is closed, so the rest of the turn, or the next
one, has one pipe less to answer. -/
theorem ended_lowers {stream : Stream} {revents : Revents}
    (control : loop.control = .reading stream revents) :
    ((loop.setOutput stream (loop.output stream).close).afterRead tool stream
      revents).rank tool finals < loop.rank tool finals := by
  have same := @Loop.left_close tool loop finals stream
  cases stream with
  | stdout =>
      have bound := @Loop.rank_afterStdout tool
        (loop.setOutput .stdout (loop.output .stdout).close) revents finals
      rw [same] at bound
      simp only [Loop.rank, control]
      change _ ≤ 6 * loop.turns (loop.answered revents .stderr) + 1 +
        loop.left tool finals at bound
      exact Nat.lt_of_le_of_lt bound (by omega)
  | stderr =>
      have bound := @Loop.rank_again_covered tool
        (loop.setOutput .stderr (loop.output .stderr).close) finals
        (!(loop.output .stdout).readEnd) (by
          intro covered
          simp only [Loop.drained, Loop.setOutput, Function.update_self,
            Function.update_of_ne (by decide : Stream.stdout ≠ .stderr), covered,
            OutputPipe.close, Bool.not_false, Bool.and_self])
      rw [same] at bound
      simp only [Loop.rank, control]
      change _ ≤ 6 * loop.turns (!(loop.output .stdout).readEnd) +
        loop.left tool finals at bound
      exact Nat.lt_of_le_of_lt bound (by omega)

theorem received_lowers {stream : Stream} {revents : Revents}
    {bytes : StdString} {maxBytes : Nat}
    (control : loop.control = .reading stream revents) (some : bytes ≠ [])
    (fits : (loop.output stream).received ++ bytes <+: finals stream) :
    (loop.setOutput stream ((loop.output stream).append bytes maxBytes)).rank
      tool finals < loop.rank tool finals := by
  have lower := @Loop.left_append tool loop finals stream bytes maxBytes some fits
  cases stream with
  | stdout =>
      simp only [Loop.rank, Loop.setOutput, control]
      exact Nat.add_lt_add_left lower _
  | stderr =>
      simp only [Loop.rank, Loop.setOutput, control]
      exact Nat.add_lt_add_left lower _

theorem reading_lowers {stream : Stream} {revents : Revents}
    (control : loop.control = .reading stream revents)
    (chunk : ∀ bytes, environment.read stream n = .ok bytes → bytes ≠ [] →
      (loop.output stream).received ++ bytes <+: finals stream)
    (answers : ¬ (environment.read stream n = .error .eagain ∨
      environment.read stream n = .error .ewouldblock)) :
    Lowers tool finals environment n loop
      (loop.read tool stream revents (environment.read stream n)) := by
  have positive : 0 < loop.rank tool finals :=
    Nat.lt_of_le_of_lt (Nat.zero_le _) (ended_lowers control)
  cases answer : environment.read stream n with
  | ok bytes =>
      apply lowers_of_lt
      cases bytes with
      | nil => exact ended_lowers control
      | cons first rest =>
          exact received_lowers control (List.cons_ne_nil _ _)
            (chunk _ answer (List.cons_ne_nil _ _))
  | error error =>
      cases error with
      | eintr =>
          apply lowers_interrupted
          · simp only [Interrupted, control, answer]
          · exact le_refl _
      | eagain => exact absurd (Or.inl answer) answers
      | ewouldblock => exact absurd (Or.inr answer) answers
      | _ =>
          apply lowers_of_lt
          simp only [Loop.read]
          rw [Loop.rank_fail]
          exact positive

end Descent

section Returning

variable {tool : Invocation} {environment : Environment}
  {pipes : Stream → Writers} {first n : Nat}

/-- The deadline has passed, and nobody holds the tool's pipes any more. -/
structure Settled (tool : Invocation) (environment : Environment)
    (pipes : Stream → Writers) (first : Nat) : Prop where
  passed : tool.deadline ≤ environment.now first
  released : ∀ stream, (pipes stream).holders first = 0

theorem settled_exists (permitted : Permitted tool environment pipes)
    (passes : ∃ n, tool.deadline ≤ environment.now n)
    (released : ∀ stream, ∃ n, (pipes stream).holders n = 0) :
    ∃ first, Settled tool environment pipes first := by
  obtain ⟨late, passed⟩ := passes
  obtain ⟨stdout, outNone⟩ := released .stdout
  obtain ⟨stderr, errNone⟩ := released .stderr
  refine ⟨max late (max stdout stderr), ?_, ?_⟩
  · exact le_trans passed (permitted.steady (le_max_left _ _))
  · intro stream
    cases stream with
    | stdout => exact (Writers.released_from (by omega) outNone).1
    | stderr => exact (Writers.released_from (by omega) errNone).1

theorem step_lowers (permitted : Permitted tool environment pipes)
    (settled : Settled tool environment pipes first) (later : first ≤ n)
    (running : (run tool environment n).Running) :
    Lowers tool (fun stream => (pipes stream).written first) environment n
      (run tool environment n) (run tool environment (n + 1)) := by
  have released (stream : Stream) :=
    Writers.released_from later (settled.released stream)
  rw [run, step]
  cases control : (run tool environment n).control with
  | waiting => exact waiting_lowers control
  | checking =>
      exact checking_lowers control
        (le_trans settled.passed (permitted.steady later))
  | reaping => exact reaping_lowers control
  | timing => exact timing_lowers control
  | polling timeoutMs =>
      apply polling_lowers control
      intro answer stream polled readEnd
      exact permitted.reported n timeoutMs answer stream control polled readEnd
        (Or.inl (released stream).1)
  | writing revents =>
      exact writing_lowers control fun count =>
        permitted.taken n revents count control
  | reading stream revents =>
      apply reading_lowers control
      · intro bytes answer some
        have fits := (permitted.chunk n stream revents bytes control answer
          some).2
        rw [(released stream).2] at fits
        exact fits
      · intro empty
        exact (permitted.wouldBlock n stream revents control empty).1
          (released stream).1
  | failing error => simp only [Loop.Running, control] at running
  | returned result => simp only [Loop.Running, control] at running

theorem failing_step {loop : Loop} {error : CommandToolRunError}
    (control : loop.control = .failing error) :
    (Interrupted environment n loop ∧ step tool environment n loop = loop) ∨
      (step tool environment n loop).control = .returned (.error error) := by
  simp only [Interrupted, step, control]
  cases environment.waitpid n with
  | ok status => exact Or.inr rfl
  | error answer =>
      cases answer with
      | eintr => exact Or.inl ⟨rfl, rfl⟩
      | _ => exact Or.inr rfl

/-- The way out of an error ends with the first answer that is not an interrupt. -/
theorem failing_returns {error : CommandToolRunError}
    (control : (run tool environment n).control = .failing error)
    (uninterrupted : ¬ InterruptedForever tool environment) :
    Returns tool environment := by
  by_contra never
  have stays : ∀ m, (run tool environment m).control = .failing error →
      Interrupted environment m (run tool environment m) ∧
        run tool environment (m + 1) = run tool environment m := by
    intro m failing
    obtain stuck | returned :=
      @failing_step tool environment m _ error failing
    · exact stuck
    · exact absurd ⟨m + 1, _, returned⟩ never
  have still : ∀ m, n ≤ m →
      (run tool environment m).control = .failing error := by
    intro m order
    induction m, order using Nat.le_induction with
    | base => exact control
    | succ m order ih =>
        rw [(stays m ih).2]
        exact ih
  exact uninterrupted ⟨n, fun m order => (stays m (still m order)).1⟩

theorem stopped_returns (stopped : ¬ (run tool environment n).Running)
    (uninterrupted : ¬ InterruptedForever tool environment) :
    Returns tool environment := by
  obtain ⟨error, control⟩ | ⟨result, control⟩ := Loop.stopped_cases stopped
  · exact failing_returns control uninterrupted
  · exact ⟨n, result, control⟩

theorem fail_stops {loop : Loop} {message : StdString} :
    ¬ (loop.fail message).Running := by
  unfold Loop.fail
  split
  · exact not_false
  · exact not_false

theorem fails_stops {loop : Loop} (failed : Fails environment n loop) :
    ¬ (step tool environment n loop).Running := by
  unfold Fails at failed
  unfold step
  cases control : loop.control with
  | waiting =>
      rw [control] at failed
      obtain ⟨error, answer, given⟩ := failed
      simp only [answer]
      cases error with
      | eintr => exact absurd rfl given
      | _ => exact fail_stops
  | polling timeoutMs =>
      rw [control] at failed
      obtain ⟨error, answer, given⟩ := failed
      simp only [answer]
      cases error with
      | eintr => exact absurd rfl given
      | _ => exact fail_stops
  | writing revents =>
      rw [control] at failed
      obtain ⟨error, answer, given⟩ := failed
      simp only [answer]
      cases error with
      | other code => exact fail_stops
      | _ => simp at given
  | reading stream revents =>
      rw [control] at failed
      obtain ⟨error, answer, given⟩ := failed
      simp only [answer]
      cases error with
      | epipe => exact fail_stops
      | other code => exact fail_stops
      | _ => simp at given
  | _ =>
      rw [control] at failed
      exact failed.elim

theorem released_stops (permitted : Permitted tool environment pipes)
    (settled : Settled tool environment pipes first)
    (uninterrupted : ¬ InterruptedForever tool environment) :
    ∃ n, ¬ (run tool environment n).Running := by
  have descends : Descends (fun n => (run tool environment n).Running)
      (fun n => Interrupted environment n (run tool environment n))
      (fun n => (run tool environment n).rank tool
        fun stream => (pipes stream).written first) first := by
    constructor
    · intro n later running
      exact (step_lowers permitted settled later running).holds
    · intro n later running
      exact (step_lowers permitted settled later running).falls
  have moves : ∀ n, ∃ m, n ≤ m ∧
      ¬ Interrupted environment m (run tool environment m) := by
    intro n
    by_contra stuck
    apply uninterrupted
    refine ⟨n, fun m order => ?_⟩
    by_contra moving
    exact stuck ⟨m, order, moving⟩
  obtain ⟨n, _, stopped⟩ := descends.leaves moves
  exact ⟨n, stopped⟩

end Returning

/-- Once its timeout has passed, a call returns exactly when its calls are not
interrupted for ever and either one of them fails or every process that holds an
output pipe of the tool lets go of it. -/
theorem call_returns_iff (tool : Invocation) (environment : Environment)
    (pipes : Stream → Writers) (permitted : Permitted tool environment pipes)
    (passes : ∃ n, tool.deadline ≤ environment.now n) :
    Returns tool environment ↔
      ¬ InterruptedForever tool environment ∧
        ((∃ n, Fails environment n (run tool environment n)) ∨
          ∀ stream, ∃ n, (pipes stream).holders n = 0) := by
  constructor
  · intro returns
    refine ⟨returns_uninterrupted returns, ?_⟩
    obtain ⟨n, result, returned⟩ := returns
    exact returned_explained permitted returned
  · rintro ⟨uninterrupted, ⟨n, failed⟩ | released⟩
    · exact @stopped_returns tool environment (n + 1) (fails_stops failed)
        uninterrupted
    · obtain ⟨first, settled⟩ := settled_exists permitted passes released
      obtain ⟨n, stopped⟩ := released_stops permitted settled uninterrupted
      exact stopped_returns stopped uninterrupted

/-! A tool that hangs is killed at its deadline, but what it has started in the
background keeps its standard output open. -/

def sampleTool : Invocation where
  json := asciiJson
  strerror _ := literal "Unknown error"
  timeoutMs := 10
  arguments := literal "\x7b\x7d"
  started := 0

def lingeringEnvironment : Environment where
  waitpidNoHang _ := .ok none
  waitpid _ := .ok (.signaled 9)
  now _ := 10000000
  poll _ := .ok none
  write _ := .error .eagain
  read _ _ := .error .eagain

def lingeringWriters : Stream → Writers := fun _ =>
  { holders := fun _ => 1
    written := fun _ => []
    grows := fun _ => List.prefix_rfl
    released := fun _ none => absurd none Nat.one_ne_zero }

/-- The rest of the run: the tool has been reaped, so that the loop waits for the
pipes and looks at its deadline no more. -/
theorem lingering_run (n : Nat) :
    run sampleTool lingeringEnvironment (n + 3) =
      { control := .polling 10, waited := true, status := .signaled 9,
        timedOut := true, writeEnd := false } := by
  induction n with
  | zero => rfl
  | succ n ih =>
      rw [run, ih]
      rfl

theorem lingering_permitted :
    Permitted sampleTool lingeringEnvironment lingeringWriters := by
  have polls (n : Nat) :
      (run sampleTool lingeringEnvironment n).control = .waiting ∨
      (run sampleTool lingeringEnvironment n).control = .checking ∨
      (run sampleTool lingeringEnvironment n).control = .reaping ∨
      (run sampleTool lingeringEnvironment n).control = .polling 10 := by
    match n with
    | 0 => exact Or.inl rfl
    | 1 => exact Or.inr (Or.inl rfl)
    | 2 => exact Or.inr (Or.inr (Or.inl rfl))
    | n + 3 =>
        rw [lingering_run]
        exact Or.inr (Or.inr (Or.inr rfl))
  have unread (n : Nat) (stream : Stream) :
      ((run sampleTool lingeringEnvironment n).output stream).received = [] := by
    match n with
    | 0 => rfl
    | 1 => rfl
    | 2 => rfl
    | n + 3 => rw [lingering_run]
  constructor
  · exact monotone_const
  · intro n revents count control
    rcases polls n with other | other | other | other
    all_goals
      rw [other] at control
      cases control
  · intro n stream revents bytes _ answer
    cases answer
  · intro n stream revents _ answer
    cases answer
  · intro n stream revents control
    rcases polls n with other | other | other | other
    all_goals
      rw [other] at control
      cases control
  · intro n timeoutMs answer stream _ _ _ ready
    rcases ready with none | data
    · cases none
    · exact absurd (unread n stream) data

theorem lingering_call_hangs :
    Permitted sampleTool lingeringEnvironment lingeringWriters ∧
      (∃ n, sampleTool.deadline ≤ lingeringEnvironment.now n) ∧
      ¬ Returns sampleTool lingeringEnvironment := by
  refine ⟨lingering_permitted, ⟨0, by decide⟩, ?_⟩
  rintro ⟨n, result, returned⟩
  have last := run_returned returned (Nat.le_add_right n 3)
  rw [lingering_run] at last
  rw [← last] at returned
  cases returned

/-! A tool that prints something and hangs.  Its deadline passes, it is killed, and
nobody else has its pipes. -/

def killedEnvironment : Environment where
  waitpidNoHang _ := .ok none
  waitpid _ := .ok (.signaled 9)
  now n := if n < 6 then 0 else 10000000
  poll n :=
    if n < 6 then
      .ok (some { output := fun stream => { pollin := stream = .stdout } })
    else .ok (some { output := fun _ => { pollhup := true } })
  write _ := .error .eagain
  read _ n :=
    if n = 4 then .ok (literal "tick")
    else if n < 6 then .error .eagain
    else .ok []

def killedWriters (stream : Stream) : Writers where
  holders n := if n < 6 then 1 else 0
  written _ := if stream = .stdout then literal "tick" else []
  grows _ := List.prefix_rfl
  released n none := by
    have late : ¬ n < 6 := fun early => by simp [early] at none
    exact ⟨if_neg (by omega), rfl⟩

theorem killed_late {n : Nat} (late : 12 ≤ n) :
    run sampleTool killedEnvironment n = run sampleTool killedEnvironment 12 :=
  run_returned rfl late

theorem killed_early {n : Nat} {control : Control}
    (made : (run sampleTool killedEnvironment n).control = control)
    (running : ∀ result, control ≠ .returned result) : n < 12 := by
  by_contra late
  rw [killed_late (Nat.not_lt.mp late)] at made
  exact running _ made.symm

theorem killed_polling {n timeoutMs : Nat}
    (control : (run sampleTool killedEnvironment n).control = .polling timeoutMs) :
    n = 3 ∨ n = 9 := by
  by_contra other
  have early := killed_early control (by simp)
  interval_cases n
  all_goals first | omega | cases control

theorem killed_reading {n : Nat} {stream : Stream} {revents : Revents}
    (control : (run sampleTool killedEnvironment n).control =
      .reading stream revents) :
    stream = .stdout ∧ (n = 4 ∨ n = 5 ∨ n = 10) ∨ stream = .stderr ∧ n = 11 := by
  have early := killed_early control (by simp)
  interval_cases n
  all_goals cases control
  all_goals simp

theorem killed_unwritten {n : Nat} {revents : Revents} :
    (run sampleTool killedEnvironment n).control ≠ .writing revents := by
  intro control
  have early := killed_early control (by simp)
  interval_cases n
  all_goals cases control

theorem killed_permitted :
    Permitted sampleTool killedEnvironment killedWriters := by
  constructor
  · intro early late order
    simp only [killedEnvironment]
    split
    · exact Nat.zero_le _
    · rw [if_neg (by omega)]
  · intro n revents count control _
    exact absurd control killed_unwritten
  · intro n stream revents bytes control answer some
    rcases killed_reading control with ⟨rfl, rfl | rfl | rfl⟩ | ⟨rfl, rfl⟩
    · cases answer
      exact ⟨by decide, List.prefix_rfl⟩
    · cases answer
    · cases answer
      exact absurd rfl some
    · cases answer
      exact absurd rfl some
  · intro n stream revents control answer
    rcases killed_reading control with ⟨rfl, rfl | rfl | rfl⟩ | ⟨rfl, rfl⟩
    · cases answer
    · cases answer
    · exact ⟨rfl, rfl⟩
    · exact ⟨rfl, rfl⟩
  · intro n stream revents control empty
    rcases killed_reading control with ⟨rfl, rfl | rfl | rfl⟩ | ⟨rfl, rfl⟩
    · rcases empty with answer | answer
      all_goals cases answer
    · exact ⟨Nat.one_ne_zero, rfl⟩
    · rcases empty with answer | answer
      all_goals cases answer
    · rcases empty with answer | answer
      all_goals cases answer
  · intro n timeoutMs answer stream control polled _ ready
    rcases killed_polling control with rfl | rfl
    · cases polled
      cases stream with
      | stdout => exact ⟨_, rfl, rfl⟩
      | stderr =>
          rcases ready with none | data
          · cases none
          · exact absurd rfl data
    · cases polled
      exact ⟨_, rfl, rfl⟩

theorem call_returns_sample : Returns sampleTool killedEnvironment := by
  apply (call_returns_iff sampleTool killedEnvironment killedWriters
    killed_permitted ⟨6, by decide⟩).mpr
  constructor
  · rintro ⟨first, interrupted⟩
    have last := interrupted (max first 12) (le_max_left _ _)
    rw [killed_late (le_max_right _ _)] at last
    exact last
  · exact .inr fun stream => ⟨6, rfl⟩

end ZooKeeperServer.CommandTools
