import ZooKeeperServer.Server.CommandTools

namespace ZooKeeperServer.CommandTools

/-! What the system may answer to the calls of the loop, and what each of them can
do to its state. -/

/-- The processes at the other end of an output pipe, at each call of the loop: the
tool and whatever it has started.  The pipe is at its end when none holds it open. -/
structure Writers where
  holders : Nat → Nat
  written : Nat → StdString
  grows : ∀ n, written n <+: written (n + 1)
  released : ∀ n, holders n = 0 →
    holders (n + 1) = 0 ∧ written (n + 1) = written n

namespace Writers

theorem released_from {writers : Writers} {early late : Nat}
    (order : early ≤ late) (none : writers.holders early = 0) :
    writers.holders late = 0 ∧ writers.written late = writers.written early := by
  induction late, order using Nat.le_induction with
  | base => exact ⟨none, rfl⟩
  | succ late _ ih =>
      obtain ⟨holders, written⟩ := writers.released late ih.1
      exact ⟨holders, written.trans ih.2⟩

end Writers

/-- POSIX on the calls the loop makes; what it says of the descriptors is said of
those the loop still has open. -/
structure Permitted (tool : Invocation) (environment : Environment)
    (pipes : Stream → Writers) : Prop where
  steady : Monotone environment.now
  taken : ∀ n revents count,
    (run tool environment n).control = .writing revents →
    environment.write n = .ok count →
    0 < count ∧
      (run tool environment n).offset + count ≤ tool.stdinPayload.length
  chunk : ∀ n stream revents bytes,
    (run tool environment n).control = .reading stream revents →
    environment.read stream n = .ok bytes → bytes ≠ [] →
    bytes.length ≤ 4096 ∧
      ((run tool environment n).output stream).received ++ bytes <+:
        (pipes stream).written n
  endOfFile : ∀ n stream revents,
    (run tool environment n).control = .reading stream revents →
    environment.read stream n = .ok [] →
    (pipes stream).holders n = 0 ∧
      ((run tool environment n).output stream).received =
        (pipes stream).written n
  wouldBlock : ∀ n stream revents,
    (run tool environment n).control = .reading stream revents →
    environment.read stream n = .error .eagain ∨
      environment.read stream n = .error .ewouldblock →
    (pipes stream).holders n ≠ 0 ∧
      ((run tool environment n).output stream).received =
        (pipes stream).written n
  reported : ∀ n timeoutMs answer stream,
    (run tool environment n).control = .polling timeoutMs →
    environment.poll n = .ok answer →
    ((run tool environment n).output stream).readEnd = true →
    (pipes stream).holders n = 0 ∨
      ((run tool environment n).output stream).received ≠
        (pipes stream).written n →
    ∃ revents, answer = some revents ∧
      (revents.output stream).readable = true

/-- The call the loop makes is interrupted by a signal. -/
def Interrupted (environment : Environment) (n : Nat) (loop : Loop) : Prop :=
  match loop.control with
  | .waiting => environment.waitpidNoHang n = .error .eintr
  | .reaping => environment.waitpid n = .error .eintr
  | .polling _ => environment.poll n = .error .eintr
  | .writing _ => environment.write n = .error .eintr
  | .reading stream _ => environment.read stream n = .error .eintr
  | .failing _ => environment.waitpid n = .error .eintr
  | _ => False

/-- The call the loop makes has an error that the loop gives up on. -/
def Fails (environment : Environment) (n : Nat) (loop : Loop) : Prop :=
  match loop.control with
  | .waiting => ∃ error, environment.waitpidNoHang n = .error error ∧
      error ≠ .eintr
  | .polling _ => ∃ error, environment.poll n = .error error ∧ error ≠ .eintr
  | .writing _ => ∃ error, environment.write n = .error error ∧
      error ∉ [.eintr, .eagain, .ewouldblock, .epipe]
  | .reading stream _ => ∃ error, environment.read stream n = .error error ∧
      error ∉ [.eintr, .eagain, .ewouldblock]
  | _ => False

namespace Loop

variable {tool : Invocation} {loop : Loop} {revents : Revents} {stream : Stream}

/-- The loop has not met an error, and has ended only with both pipes closed. -/
def Orderly (loop : Loop) : Prop :=
  match loop.control with
  | .failing _ => False
  | .returned _ => ∀ stream, (loop.output stream).readEnd = false
  | _ => True

theorem drained_iff :
    loop.drained = true ↔ ∀ stream, (loop.output stream).readEnd = false := by
  simp only [drained, Bool.and_eq_true, Bool.not_eq_true']
  constructor
  · rintro ⟨stdout, stderr⟩ stream
    cases stream with
    | stdout => exact stdout
    | stderr => exact stderr
  · intro closed
    exact ⟨closed .stdout, closed .stderr⟩

/-- The body of the loop leads on without an error, and leaves the output pipes as
they are. -/
structure LeadsOn (loop next : Loop) : Prop where
  orderly : next.Orderly
  output : next.output = loop.output

def Running (loop : Loop) : Prop :=
  match loop.control with
  | .failing _ => False
  | .returned _ => False
  | _ => True

theorem stopped_cases (stopped : ¬ loop.Running) :
    (∃ error, loop.control = .failing error) ∨
      ∃ result, loop.control = .returned result := by
  unfold Running at stopped
  split at stopped
  · rename_i error control
    exact Or.inl ⟨error, control⟩
  · rename_i result control
    exact Or.inr ⟨result, control⟩
  · exact absurd trivial stopped

theorem fail_output {message : StdString} :
    (loop.fail message).output = loop.output := by
  unfold fail
  split
  · rfl
  · rfl

/-- The control leads on without an error; a result it returns is that of the loop,
which is then over. -/
def Onward (tool : Invocation) (loop : Loop) : Prop :=
  match loop.control with
  | .reaping => False
  | .failing _ => False
  | .returned result =>
      result = loop.result tool ∧ loop.waited = true ∧ loop.drained = true
  | _ => True

/-- The body of the loop goes on to its next call, and does nothing else but, at
times, close the tool's standard input. -/
structure Turns (tool : Invocation) (loop next : Loop) : Prop where
  onward : next.Onward tool
  frame : ∃ control writeEnd, next = { loop with control, writeEnd }

theorem Turns.closing {next : Loop}
    (turned : { loop with writeEnd := false }.Turns tool next) :
    loop.Turns tool next := by
  obtain ⟨onward, control, writeEnd, frame⟩ := turned
  exact ⟨onward, control, writeEnd, frame⟩

theorem afterWait_turns : loop.Turns tool (loop.afterWait tool) := by
  unfold afterWait
  split
  · rename_i finished
    rw [Bool.and_eq_true] at finished
    exact ⟨⟨rfl, finished⟩, _, _, rfl⟩
  · split
    · exact ⟨trivial, _, _, rfl⟩
    · split
      · exact ⟨trivial, _, _, rfl⟩
      · exact ⟨trivial, _, _, rfl⟩

theorem again_turns : loop.Turns tool (loop.again tool) := by
  unfold again
  split
  · exact afterWait_turns
  · exact ⟨trivial, _, _, rfl⟩

theorem afterStdout_turns : loop.Turns tool (loop.afterStdout tool revents) := by
  unfold afterStdout
  split
  · exact ⟨trivial, _, _, rfl⟩
  · exact again_turns

theorem afterStdin_turns : loop.Turns tool (loop.afterStdin tool revents) := by
  unfold afterStdin
  split
  · exact ⟨trivial, _, _, rfl⟩
  · exact afterStdout_turns

theorem afterRead_turns :
    loop.Turns tool (loop.afterRead tool stream revents) := by
  cases stream with
  | stdout => exact afterStdout_turns
  | stderr => exact again_turns

theorem afterPoll_turns : loop.Turns tool (loop.afterPoll tool revents) := by
  unfold afterPoll
  split
  · split
    · exact afterStdin_turns.closing
    · split
      · exact ⟨trivial, _, _, rfl⟩
      · exact afterStdin_turns
  · exact afterStdin_turns

theorem Turns.leadsOn {next : Loop} (turned : loop.Turns tool next) :
    loop.LeadsOn next := by
  obtain ⟨onward, control, writeEnd, rfl⟩ := turned
  refine ⟨?_, rfl⟩
  unfold Onward at onward
  unfold Orderly
  cases control with
  | failing error => exact onward
  | returned result => exact drained_iff.mp onward.2.2
  | _ => trivial

end Loop

section Steps

variable {tool : Invocation} {environment : Environment} {n : Nat} {loop : Loop}

def Loop.feed (tool : Invocation) (loop : Loop) (count : Nat) : Loop :=
  { loop with
    offset := loop.offset + count
    delivered :=
      loop.delivered ++ (tool.stdinPayload.drop loop.offset).take count }

inductive Effect (tool : Invocation) (environment : Environment) (n : Nat)
    (loop next : Loop) : Prop
  | repeats (same : next = loop)
  | turns (turned : loop.Turns tool next)
  | fails (failed : Fails environment n loop) (message : StdString)
      (same : next = loop.fail message)
  | reaps (control : loop.control = .waiting) (status : WaitStatus)
      (answer : environment.waitpidNoHang n = .ok (some status))
      (turned : { loop with waited := true, status }.Turns tool next)
  | expires (same : next =
      { loop with timedOut := true, writeEnd := false, control := .reaping })
  | kills (control : loop.control = .reaping) (status : WaitStatus)
      (turned : { loop with waited := true, status }.Turns tool next)
  | writes (count : Nat) (revents : Revents)
      (control : loop.control = .writing revents)
      (answer : environment.write n = .ok count)
      (turned : (loop.feed tool count).Turns tool next)
  | ends (stream : Stream) (revents : Revents)
      (control : loop.control = .reading stream revents)
      (answer : environment.read stream n = .ok [])
      (turned :
        (loop.setOutput stream (loop.output stream).close).Turns tool next)
  | receives (stream : Stream) (revents : Revents) (chunk : StdString)
      (control : loop.control = .reading stream revents)
      (answer : environment.read stream n = .ok chunk) (some : chunk ≠ [])
      (turned : (loop.setOutput stream
        ((loop.output stream).append chunk stream.maxBytes)).Turns tool next)

theorem waiting_effect (control : loop.control = .waiting) :
    Effect tool environment n loop
      (loop.tryWait tool (environment.waitpidNoHang n)) := by
  cases answer : environment.waitpidNoHang n with
  | ok status =>
      cases status with
      | some status => exact .reaps control status answer Loop.afterWait_turns
      | none => exact .turns ⟨trivial, .checking, loop.writeEnd, rfl⟩
  | error error =>
      cases error with
      | eintr => exact .repeats rfl
      | _ =>
          apply Effect.fails _ _ rfl
          simp only [Fails, control, answer]
          exact ⟨_, rfl, by simp⟩

theorem checking_effect {now : Nat} :
    Effect tool environment n loop (loop.check tool now) := by
  unfold Loop.check
  split
  · exact .expires rfl
  · exact .turns Loop.afterWait_turns

theorem reaping_effect (control : loop.control = .reaping) :
    Effect tool environment n loop
      (loop.killAndWait (Loop.afterWait tool) (environment.waitpid n)) := by
  cases environment.waitpid n with
  | ok status => exact .kills control status Loop.afterWait_turns
  | error error =>
      cases error with
      | eintr => exact .repeats rfl
      | _ => exact .kills control loop.status Loop.afterWait_turns

theorem polling_effect {timeoutMs : Nat}
    (control : loop.control = .polling timeoutMs) :
    Effect tool environment n loop (loop.poll tool (environment.poll n)) := by
  cases answer : environment.poll n with
  | ok revents =>
      cases revents with
      | some revents => exact .turns Loop.afterPoll_turns
      | none => exact .turns Loop.again_turns
  | error error =>
      cases error with
      | eintr => exact .turns Loop.again_turns
      | _ =>
          apply Effect.fails _ _ rfl
          simp only [Fails, control, answer]
          exact ⟨_, rfl, by simp⟩

theorem writing_effect {revents : Revents}
    (control : loop.control = .writing revents) :
    Effect tool environment n loop
      (loop.write tool revents (environment.write n)) := by
  cases answer : environment.write n with
  | ok count =>
      apply Effect.writes count revents control answer
      change (loop.feed tool count).Turns tool
        (if (loop.feed tool count).offset < tool.stdinPayload.length then
          loop.feed tool count
        else { loop.feed tool count with writeEnd := false }.afterStdin tool revents)
      split
      · refine ⟨?_, _, _, rfl⟩
        simp only [Loop.Onward, Loop.feed, control]
      · exact Loop.afterStdin_turns.closing
  | error error =>
      cases error with
      | eintr => exact .repeats rfl
      | other code =>
          apply Effect.fails _ _ rfl
          simp only [Fails, control, answer]
          exact ⟨_, rfl, by simp⟩
      | _ => exact .turns Loop.afterStdin_turns

theorem reading_effect {stream : Stream} {revents : Revents}
    (control : loop.control = .reading stream revents) :
    Effect tool environment n loop
      (loop.read tool stream revents (environment.read stream n)) := by
  cases answer : environment.read stream n with
  | ok chunk =>
      cases chunk with
      | nil => exact .ends stream revents control answer Loop.afterRead_turns
      | cons first rest =>
          apply Effect.receives stream revents (first :: rest) control answer
            (List.cons_ne_nil _ _)
          refine ⟨?_, _, _, rfl⟩
          simp only [Loop.read, Loop.Onward, Loop.setOutput, control]
  | error error =>
      cases error with
      | eintr => exact .repeats rfl
      | eagain => exact .turns Loop.afterRead_turns
      | ewouldblock => exact .turns Loop.afterRead_turns
      | _ =>
          apply Effect.fails _ _ rfl
          simp only [Fails, control, answer]
          exact ⟨_, rfl, by simp⟩

theorem step_effect (running : loop.Running) :
    Effect tool environment n loop (step tool environment n loop) := by
  unfold step
  cases control : loop.control with
  | waiting => exact waiting_effect control
  | checking => exact checking_effect
  | reaping => exact reaping_effect control
  | timing => exact .turns ⟨trivial, _, _, rfl⟩
  | polling timeoutMs => exact polling_effect control
  | writing revents => exact writing_effect control
  | reading stream revents => exact reading_effect control
  | failing error => simp only [Loop.Running, control] at running
  | returned result => simp only [Loop.Running, control] at running

inductive Outcome (environment : Environment) (n : Nat) (loop next : Loop) : Prop
  | leadsOn (leads : loop.LeadsOn next)
  | fails (failed : Fails environment n loop) (output : next.output = loop.output)
  | ends (stream : Stream) (revents : Revents)
      (control : loop.control = .reading stream revents)
      (answer : environment.read stream n = .ok [])
      (leads : (loop.setOutput stream (loop.output stream).close).LeadsOn next)
  | receives (stream : Stream) (revents : Revents) (chunk : StdString)
      (control : loop.control = .reading stream revents)
      (answer : environment.read stream n = .ok chunk)
      (leads : (loop.setOutput stream
        ((loop.output stream).append chunk stream.maxBytes)).LeadsOn next)

theorem step_outcome (running : loop.Running) :
    Outcome environment n loop (step tool environment n loop) := by
  cases @step_effect tool environment n loop running with
  | repeats same =>
      rw [same]
      refine .leadsOn ⟨?_, rfl⟩
      unfold Loop.Running at running
      unfold Loop.Orderly
      cases control : loop.control with
      | failing error => simp only [control] at running
      | returned result => simp only [control] at running
      | _ => trivial
  | turns turned => exact .leadsOn turned.leadsOn
  | fails failed message same =>
      rw [same]
      exact .fails failed Loop.fail_output
  | reaps _ status _ turned =>
      obtain ⟨orderly, output⟩ := turned.leadsOn
      exact .leadsOn ⟨orderly, output⟩
  | expires same =>
      rw [same]
      exact .leadsOn ⟨trivial, rfl⟩
  | kills _ status turned =>
      obtain ⟨orderly, output⟩ := turned.leadsOn
      exact .leadsOn ⟨orderly, output⟩
  | writes count _ _ _ turned =>
      obtain ⟨orderly, output⟩ := turned.leadsOn
      exact .leadsOn ⟨orderly, output⟩
  | ends stream revents control answer turned =>
      exact .ends stream revents control answer turned.leadsOn
  | receives stream revents chunk control answer _ turned =>
      exact .receives stream revents chunk control answer turned.leadsOn

end Steps

section Stopping

variable {tool : Invocation} {environment : Environment} {n : Nat}

theorem step_returned {loop : Loop} {result : CommandToolRunResult}
    (control : loop.control = .returned result) :
    step tool environment n loop = loop := by
  simp only [step, control]

theorem step_stopped {loop : Loop} (stopped : ¬ loop.Running) :
    ∃ control waited status, step tool environment n loop =
      { loop with control, waited, status } := by
  obtain ⟨error, control⟩ | ⟨result, control⟩ := Loop.stopped_cases stopped
  · simp only [step, control, Loop.killAndWait]
    split
    · exact ⟨_, _, _, rfl⟩
    · exact ⟨loop.control, loop.waited, loop.status, rfl⟩
    · exact ⟨_, true, loop.status, rfl⟩
  · rw [step_returned control]
    exact ⟨loop.control, loop.waited, loop.status, rfl⟩

theorem step_output {loop : Loop} (stopped : ¬ loop.Running) :
    (step tool environment n loop).output = loop.output := by
  obtain ⟨control, waited, status, same⟩ := @step_stopped tool environment n _ stopped
  rw [same]

theorem run_returned {result : CommandToolRunResult} {late : Nat}
    (returned : (run tool environment n).control = .returned result)
    (order : n ≤ late) : run tool environment late = run tool environment n := by
  induction late, order using Nat.le_induction with
  | base => rfl
  | succ late order ih =>
      rw [run, ih]
      exact step_returned returned

end Stopping

end ZooKeeperServer.CommandTools
