import ZooKeeperServer.Server.ToolTermination
import ZooKeeperServer.Transition.Crew

namespace ZooKeeperServer.CommandTools

open Transition

/-! What the calls of the tools take from the system and give back: the descriptors of
the server, which all of its threads share, and its child processes. -/

inductive Pipe
  | stdin
  | stdout
  | stderr
  deriving DecidableEq

inductive Side
  | read
  | write
  deriving DecidableEq

abbrev PipeEnd := Pipe × Side

namespace Pipe

def next? : Pipe → Option Pipe
  | .stdin => some .stdout
  | .stdout => some .stderr
  | .stderr => none

def childSide : Pipe → Side
  | .stdin => .read
  | .stdout => .write
  | .stderr => .write

def serverSide : Pipe → Side
  | .stdin => .write
  | .stdout => .read
  | .stderr => .read

/-- `STDIN_FILENO`, `STDOUT_FILENO` and `STDERR_FILENO`. -/
def fileno : Pipe → Nat
  | .stdin => 0
  | .stdout => 1
  | .stderr => 2

end Pipe

/-- The ends in the order of their destructors. -/
def pipeEnds : List PipeEnd :=
  [(.stderr, .write), (.stderr, .read), (.stdout, .write), (.stdout, .read),
    (.stdin, .write), (.stdin, .read)]

theorem mem_pipeEnds (pipeEnd : PipeEnd) : pipeEnd ∈ pipeEnds := by
  obtain ⟨pipe, side⟩ := pipeEnd
  cases pipe
  all_goals cases side
  all_goals decide

/-- What a descriptor stands for: an end of a pipe of a call, or something that other
threads have opened. -/
inductive File
  | pipe (call : Nat) (pipeEnd : PipeEnd)
  | other
  deriving DecidableEq

abbrev Descriptors := Nat → Option File

inductive FileAction
  | dup2 (descriptor newDescriptor : Nat)
  | close (descriptor : Nat)

def FileAction.perform (descriptors : Descriptors) : FileAction → Descriptors
  | .dup2 descriptor newDescriptor =>
      Function.update descriptors newDescriptor (descriptors descriptor)
  | .close descriptor => Function.update descriptors descriptor none

structure Child where
  call : Nat
  descriptors : Descriptors
  /-- What it has ended with. -/
  status : Option WaitStatus := none

structure Kernel where
  descriptors : Descriptors := fun _ => none
  children : Nat → Option Child := fun _ => none

inductive Phase
  | opening (pipe : Pipe)
  /-- The file actions and the attributes of the spawn. -/
  | preparing
  | spawning
  /-- The tool's ends of the pipes are closed. -/
  | handingOver (pipe : Pipe)
  | unblocking (pipe : Pipe)
  | looping (loop : Loop)
  /-- The destructor of the child. -/
  | killing
  /-- The destructors of the pipes. -/
  | releasing
  | returned

structure ToolCall where
  call : Nat
  tool : Invocation
  phase : Phase := .opening .stdin
  fds : PipeEnd → Option Nat := fun _ => none
  pid : Nat := 0

inductive Answer
  | done
  | fails
  | pipe (read write : Nat)
  | pid (pid : Nat)
  | loop (environment : Environment)
  | wait (status : Except Errno WaitStatus)

/-- The lowest descriptor that is free, `taken` apart. -/
def Kernel.Lowest (kernel : Kernel) (descriptor : Nat) (taken : List Nat) : Prop :=
  (kernel.descriptors descriptor = none ∧ descriptor ∉ taken) ∧
    ∀ lower < descriptor, kernel.descriptors lower ≠ none ∨ lower ∈ taken

instance (kernel : Kernel) (descriptor : Nat) (taken : List Nat) :
    Decidable (kernel.Lowest descriptor taken) :=
  inferInstanceAs (Decidable (_ ∧ _))

/-- What the blocking `waitpid` may return: the status of a child that has ended, an
interrupt, or any error if there is no such child. -/
def Kernel.waits (kernel : Kernel) (pid : Nat) : Except Errno WaitStatus → Bool
  | .ok status => (kernel.children pid).any fun child => child.status = some status
  | .error error => error = .eintr || (kernel.children pid).isNone

def Kernel.waitsNoHang (kernel : Kernel) (pid : Nat) :
    Except Errno (Option WaitStatus) → Bool
  | .ok none => (kernel.children pid).any fun child => child.status = none
  | .ok (some status) => kernel.waits pid (.ok status)
  | .error error => kernel.waits pid (.error error)

def Kernel.reap (kernel : Kernel) (pid : Nat) : Kernel :=
  { kernel with children := Function.update kernel.children pid none }

namespace ToolCall

def close (call : ToolCall) (keep : PipeEnd → Bool) (kernel : Kernel) :
    Kernel × ToolCall :=
  ({ kernel with
      descriptors := fun descriptor =>
        if pipeEnds.any fun pipeEnd =>
          !keep pipeEnd && call.fds pipeEnd = some descriptor then none
        else kernel.descriptors descriptor },
    { call with
      fds := fun pipeEnd => if keep pipeEnd then call.fds pipeEnd else none })

def take (call : ToolCall) (pipeEnd : PipeEnd) (descriptor : Nat)
    (kernel : Kernel) : Kernel × ToolCall :=
  ({ kernel with
      descriptors := Function.update kernel.descriptors descriptor
        (some (.pipe call.call pipeEnd)) },
    { call with fds := Function.update call.fds pipeEnd (some descriptor) })

def open_ (call : ToolCall) (pipe : Pipe) (read write : Nat) (kernel : Kernel) :
    Kernel × ToolCall :=
  let (kernel, call) := call.take (pipe, .read) read kernel
  call.take (pipe, .write) write kernel

/-- The file actions of the spawn, in the order in which they are added. -/
def fileActions (call : ToolCall) : Option (List FileAction) := do
  let stdinRead ← call.fds (.stdin, .read)
  let stdinWrite ← call.fds (.stdin, .write)
  let stdoutRead ← call.fds (.stdout, .read)
  let stdoutWrite ← call.fds (.stdout, .write)
  let stderrRead ← call.fds (.stderr, .read)
  let stderrWrite ← call.fds (.stderr, .write)
  return [.dup2 stdinRead Pipe.stdin.fileno, .dup2 stdoutWrite Pipe.stdout.fileno,
    .dup2 stderrWrite Pipe.stderr.fileno, .close stdinWrite, .close stdoutRead,
    .close stderrRead]

def kept (loop : Loop) : PipeEnd → Bool
  | (.stdin, .write) => loop.writeEnd
  | (.stdout, .read) => (loop.output .stdout).readEnd
  | (.stderr, .read) => (loop.output .stderr).readEnd
  | _ => true

/-- Whether the system may answer so to the next call of the loop. -/
def permits (call : ToolCall) (kernel : Kernel) (environment : Environment)
    (loop : Loop) : Bool :=
  match loop.control with
  | .waiting => kernel.waitsNoHang call.pid (environment.waitpidNoHang 0)
  | .reaping => kernel.waits call.pid (environment.waitpid 0)
  | .failing _ => kernel.waits call.pid (environment.waitpid 0)
  | _ => true

/-- One call of the loop, with what it closes and whom it reaps. -/
def turn (call : ToolCall) (kernel : Kernel) (environment : Environment)
    (loop : Loop) : Kernel × ToolCall :=
  let after := step call.tool environment 0 loop
  let reaped :=
    if !loop.waited && after.waited then kernel.reap call.pid else kernel
  { call with
    phase := match after.control with
      | .returned _ => .releasing
      | _ => .looping after }.close (kept after) reaped

def advance (kernel : Kernel) (call : ToolCall) (answer : Answer) :
    Option (Kernel × ToolCall) :=
  match call.phase, answer with
  | .opening pipe, .pipe read write =>
      if kernel.Lowest read [] ∧ kernel.Lowest write [read] then
        some ({ call with phase := pipe.next?.elim .preparing .opening }.open_ pipe
          read write kernel)
      else none
  | .opening _, .fails => some (kernel, { call with phase := .releasing })
  | .preparing, .done => some (kernel, { call with phase := .spawning })
  | .preparing, .fails => some (kernel, { call with phase := .releasing })
  | .spawning, .pid pid =>
      if (kernel.children pid).isNone then
        call.fileActions.map fun actions =>
          ({ kernel with
              children := Function.update kernel.children pid (some
                { call := call.call
                  descriptors :=
                    actions.foldl FileAction.perform kernel.descriptors }) },
            { call with phase := .handingOver .stdin, pid })
      else none
  | .spawning, .fails => some (kernel, { call with phase := .releasing })
  | .handingOver pipe, .done =>
      some ({ call with
        phase := pipe.next?.elim (.unblocking .stdin) .handingOver }.close
          (· ≠ (pipe, pipe.childSide)) kernel)
  | .unblocking pipe, .done =>
      some (kernel, { call with
        phase := pipe.next?.elim (.looping {}) .unblocking })
  | .unblocking _, .fails => some (kernel, { call with phase := .killing })
  | .looping loop, .loop environment =>
      if call.permits kernel environment loop then
        some (call.turn kernel environment loop)
      else none
  | .killing, .wait status =>
      if kernel.waits call.pid status then
        match status with
        | .error .eintr => some (kernel, call)
        | _ => some (kernel.reap call.pid, { call with phase := .releasing })
      else none
  | .releasing, .done =>
      match pipeEnds.find? fun pipeEnd => (call.fds pipeEnd).isSome with
      | none => some (kernel, { call with phase := .returned })
      | some last => some (call.close (· ≠ last) kernel)
  | _, _ => none

end ToolCall

abbrev ToolServer := Crew Kernel ToolCall

inductive ToolLabel
  | call (tool : Invocation)
  | advance (call : Nat) (answer : Answer)
  | exit (pid : Nat) (status : WaitStatus)
  /-- Other threads of the server, which close what they have opened. -/
  | open_ (descriptor : Nat)
  | close (descriptor : Nat)

namespace ToolServer

def step (server : ToolServer) : ToolLabel → Option ToolServer
  | .call tool =>
      some (server.join server.shared { call := server.actors.length, tool })
  | .advance call answer => server.turn ToolCall.advance call answer
  | .exit pid status =>
      match server.shared.children pid with
      | some child =>
          if child.status.isNone then
            some { server with shared := { server.shared with
              children := Function.update server.shared.children pid
                (some { child with status := some status }) } }
          else none
      | none => none
  | .open_ descriptor =>
      if server.shared.Lowest descriptor [] then
        some { server with shared := { server.shared with
          descriptors :=
            Function.update server.shared.descriptors descriptor (some .other) } }
      else none
  | .close descriptor =>
      if server.shared.descriptors descriptor = some .other then
        some { server with shared := { server.shared with
          descriptors :=
            Function.update server.shared.descriptors descriptor none } }
      else none

end ToolServer

/-- The loop goes to the child only until it has reaped it, and ends once it has. -/
def Loop.Tidy (loop : Loop) : Prop :=
  match loop.control with
  | .waiting => loop.waited = false
  | .checking => loop.waited = false
  | .reaping => loop.waited = false
  | .failing _ => loop.waited = false
  | .returned _ => loop.waited = true
  | _ => True

section Loops

variable {tool : Invocation} {environment : Environment} {loop : Loop}
  {revents : Revents} {stream : Stream} {message : StdString}

theorem Loop.tidy_afterWait : (loop.afterWait tool).Tidy := by
  unfold Loop.afterWait
  split
  · rename_i ended
    exact (Bool.and_eq_true _ _ ▸ ended).1
  · rename_i going
    split
    · rename_i drained
      have drained := (Bool.and_eq_true _ _ ▸ drained).2
      simpa [Loop.Tidy, drained] using going
    · split
      · trivial
      · trivial

theorem Loop.tidy_again : (loop.again tool).Tidy := by
  unfold Loop.again
  split
  · exact Loop.tidy_afterWait
  · rename_i alive
    simpa [Loop.Tidy] using alive

theorem Loop.tidy_afterStdout : (loop.afterStdout tool revents).Tidy := by
  unfold Loop.afterStdout
  split
  · trivial
  · exact Loop.tidy_again

theorem Loop.tidy_afterStdin : (loop.afterStdin tool revents).Tidy := by
  unfold Loop.afterStdin
  split
  · trivial
  · exact Loop.tidy_afterStdout

theorem Loop.tidy_afterRead : (loop.afterRead tool stream revents).Tidy := by
  cases stream with
  | stdout => exact Loop.tidy_afterStdout
  | stderr => exact Loop.tidy_again

theorem Loop.tidy_afterPoll : (loop.afterPoll tool revents).Tidy := by
  unfold Loop.afterPoll
  split
  · split
    · exact Loop.tidy_afterStdin
    · split
      · trivial
      · exact Loop.tidy_afterStdin
  · exact Loop.tidy_afterStdin

theorem Loop.tidy_fail : (loop.fail message).Tidy := by
  unfold Loop.fail
  split
  · assumption
  · rename_i alive
    simpa [Loop.Tidy] using alive

theorem Loop.Tidy.step (tidy : loop.Tidy) :
    (step tool environment 0 loop).Tidy := by
  unfold CommandTools.step
  have tidy_ := tidy
  unfold Loop.Tidy at tidy
  cases control : loop.control with
  | waiting =>
      rw [control] at tidy
      dsimp only
      unfold Loop.tryWait
      split
      · exact Loop.tidy_afterWait
      · exact tidy
      · exact tidy_
      · exact Loop.tidy_fail
  | checking =>
      rw [control] at tidy
      dsimp only
      unfold Loop.check
      split
      · exact tidy
      · exact Loop.tidy_afterWait
  | reaping =>
      dsimp only
      unfold Loop.killAndWait
      split
      · exact Loop.tidy_afterWait
      · exact tidy_
      · exact Loop.tidy_afterWait
  | timing => trivial
  | polling timeoutMs =>
      dsimp only
      unfold Loop.poll
      split
      · exact Loop.tidy_afterPoll
      · exact Loop.tidy_again
      · exact Loop.tidy_again
      · exact Loop.tidy_fail
  | writing revents =>
      dsimp only
      unfold Loop.write
      split
      · dsimp only
        split
        · simp only [Loop.Tidy, control]
        · exact Loop.tidy_afterStdin
      · exact tidy_
      · exact Loop.tidy_afterStdin
      · exact Loop.tidy_afterStdin
      · exact Loop.tidy_afterStdin
      · exact Loop.tidy_fail
  | reading stream revents =>
      dsimp only
      unfold Loop.read
      split
      · exact Loop.tidy_afterRead
      · simp only [Loop.Tidy, Loop.setOutput, control]
      · exact tidy_
      · exact Loop.tidy_afterRead
      · exact Loop.tidy_afterRead
      · exact Loop.tidy_fail
  | failing error =>
      dsimp only
      unfold Loop.killAndWait
      split
      · exact (rfl : true = true)
      · exact tidy_
      · exact (rfl : true = true)
  | returned result => exact tidy_

theorem Loop.Turns.waited {next : Loop} (turned : loop.Turns tool next) :
    next.waited = loop.waited := by
  obtain ⟨_, _, _, rfl⟩ := turned
  rfl

/-- A child that has been reaped stays reaped. -/
theorem step_waited {n : Nat} (waited : loop.waited = true) :
    (step tool environment n loop).waited = true := by
  by_cases running : loop.Running
  · cases @step_effect tool environment n loop running with
    | repeats same => rwa [same]
    | turns turned => rwa [turned.waited]
    | fails failed message same =>
        rw [same, Loop.fail, if_pos waited]
        exact waited
    | reaps control status answer turned => exact turned.waited
    | expires same => rwa [same]
    | kills control status turned => exact turned.waited
    | writes count revents control answer turned => rwa [turned.waited]
    | ends stream revents control answer turned => rwa [turned.waited]
    | receives stream revents chunk control answer filled turned =>
        rwa [turned.waited]
  · rcases Loop.stopped_cases running with ⟨error, control⟩ | ⟨result, control⟩
    · simp only [step, control, Loop.killAndWait]
      split
      · rfl
      · exact waited
      · rfl
    · rwa [step_returned control]

end Loops

namespace ToolCall

def awaits (call : ToolCall) : Bool :=
  match call.phase with
  | .handingOver _ => true
  | .unblocking _ => true
  | .looping loop => !loop.waited
  | .killing => true
  | _ => false

def Tidy (call : ToolCall) : Prop :=
  match call.phase with
  | .opening pipe => ∀ later side, pipe.fileno ≤ later.fileno →
      call.fds (later, side) = none
  | .looping loop => loop.Tidy
  | .returned => ∀ pipeEnd, call.fds pipeEnd = none
  | _ => True

/-- The descriptors that the system holds for a call are those the call has. -/
def Matches (kernel : Kernel) (call : ToolCall) : Prop :=
  ∀ descriptor pipeEnd,
    kernel.descriptors descriptor = some (.pipe call.call pipeEnd) ↔
      call.fds pipeEnd = some descriptor

/-- The system holds the call's own descriptors, and the child that it has not reaped is
its only one. -/
structure Owns (kernel : Kernel) (call : ToolCall) : Prop where
  descriptors : call.Matches kernel
  child : ∀ pid child, kernel.children pid = some child →
    child.call = call.call → pid = call.pid ∧ call.awaits = true
  awaited : call.awaits = true → ∃ child,
    kernel.children call.pid = some child ∧ child.call = call.call
  tidy : call.Tidy

end ToolCall

structure Spares (call : Nat) (before after : Kernel) : Prop where
  descriptors : ∀ descriptor file, (∀ pipeEnd, file ≠ .pipe call pipeEnd) →
    (after.descriptors descriptor = some file ↔
      before.descriptors descriptor = some file)
  children : ∀ pid child, child.call ≠ call →
    (after.children pid = some child ↔ before.children pid = some child)

section Ownership

variable {kernel after : Kernel} {call updated : ToolCall} {name : Nat}

theorem Spares.refl (name : Nat) (kernel : Kernel) : Spares name kernel kernel :=
  ⟨fun _ _ _ => Iff.rfl, fun _ _ _ => Iff.rfl⟩

theorem Spares.trans {middle : Kernel} (first : Spares name kernel middle)
    (second : Spares name middle after) : Spares name kernel after where
  descriptors descriptor file other :=
    (second.descriptors descriptor file other).trans
      (first.descriptors descriptor file other)
  children pid child other :=
    (second.children pid child other).trans (first.children pid child other)

theorem ToolCall.Owns.spared (owns : call.Owns kernel)
    (spares : Spares name kernel after) (other : name ≠ call.call) :
    call.Owns after where
  descriptors := by
    intro descriptor pipeEnd
    rw [spares.descriptors]
    · exact owns.descriptors descriptor pipeEnd
    · intro _ same
      cases same
      exact other rfl
  child := by
    intro pid child held mine
    refine owns.child pid child ((spares.children pid child ?_).mp held) mine
    exact fun same => other (same.symm.trans mine)
  awaited := by
    intro waits
    obtain ⟨child, held, mine⟩ := owns.awaited waits
    refine ⟨child, (spares.children call.pid child ?_).mpr held, mine⟩
    exact fun same => other (same.symm.trans mine)
  tidy := owns.tidy

theorem ToolCall.closed_iff {keep : PipeEnd → Bool} {descriptor : Nat} :
    (pipeEnds.any fun pipeEnd =>
        !keep pipeEnd && call.fds pipeEnd = some descriptor) = true ↔
      ∃ pipeEnd, keep pipeEnd = false ∧ call.fds pipeEnd = some descriptor := by
  simp only [List.any_eq_true, Bool.and_eq_true, Bool.not_eq_true',
    decide_eq_true_eq]
  constructor
  · rintro ⟨pipeEnd, _, closed⟩
    exact ⟨pipeEnd, closed⟩
  · rintro ⟨pipeEnd, closed⟩
    exact ⟨pipeEnd, mem_pipeEnds pipeEnd, closed⟩

theorem ToolCall.Matches.close (matches_ : call.Matches kernel)
    (keep : PipeEnd → Bool) :
    (call.close keep kernel).2.Matches (call.close keep kernel).1 ∧
      Spares call.call kernel (call.close keep kernel).1 := by
  constructor
  · intro descriptor pipeEnd
    simp only [ToolCall.close]
    split
    · rename_i closed
      obtain ⟨other, dropped, same⟩ := ToolCall.closed_iff.mp closed
      simp only [reduceCtorEq, false_iff]
      intro held
      split at held
      · rename_i kept
        have ours := (matches_ descriptor pipeEnd).mpr held
        rw [(matches_ descriptor other).mpr same] at ours
        cases ours
        rw [dropped] at kept
        cases kept
      · cases held
    · rename_i left
      rw [matches_ descriptor pipeEnd]
      cases kept : keep pipeEnd with
      | true => simp
      | false =>
          simp only [Bool.false_eq_true, if_false, reduceCtorEq, iff_false]
          exact fun held => left (ToolCall.closed_iff.mpr ⟨pipeEnd, kept, held⟩)
  · constructor
    · intro descriptor file other
      simp only [ToolCall.close]
      split
      · rename_i closed
        obtain ⟨pipeEnd, _, same⟩ := ToolCall.closed_iff.mp closed
        rw [(matches_ descriptor pipeEnd).mpr same]
        simp only [reduceCtorEq, false_iff, Option.some.injEq]
        exact fun ours => other pipeEnd ours.symm
      · exact Iff.rfl
    · exact fun _ _ _ => Iff.rfl

theorem ToolCall.Matches.take (matches_ : call.Matches kernel) {pipeEnd : PipeEnd}
    {descriptor : Nat} (free : kernel.descriptors descriptor = none)
    (fresh : call.fds pipeEnd = none) :
    (call.take pipeEnd descriptor kernel).2.Matches
        (call.take pipeEnd descriptor kernel).1 ∧
      Spares call.call kernel (call.take pipeEnd descriptor kernel).1 := by
  constructor
  · intro at_ held
    simp only [ToolCall.take]
    by_cases here : at_ = descriptor
    · subst here
      rw [Function.update_self, Option.some.injEq, File.pipe.injEq]
      by_cases own : held = pipeEnd
      · subst own
        simp
      · rw [Function.update_of_ne own, ← matches_ at_ held, free]
        simp [Ne.symm own]
    · rw [Function.update_of_ne here, matches_ at_ held]
      by_cases own : held = pipeEnd
      · subst own
        rw [Function.update_self, fresh]
        simp [Ne.symm here]
      · rw [Function.update_of_ne own]
  · constructor
    · intro at_ file other
      simp only [ToolCall.take]
      by_cases here : at_ = descriptor
      · subst here
        rw [Function.update_self, free, Option.some.injEq]
        simp only [reduceCtorEq, iff_false]
        exact fun ours => other _ ours.symm
      · rw [Function.update_of_ne here]
    · exact fun _ _ _ => Iff.rfl

theorem ToolCall.Matches.open_ (matches_ : call.Matches kernel) {pipe : Pipe}
    {read write : Nat} (readFree : kernel.descriptors read = none)
    (writeFree : kernel.descriptors write = none) (apart : write ≠ read)
    (fresh : ∀ side, call.fds (pipe, side) = none) :
    (call.open_ pipe read write kernel).2.Matches
        (call.open_ pipe read write kernel).1 ∧
      Spares call.call kernel (call.open_ pipe read write kernel).1 := by
  obtain ⟨first, spared⟩ := matches_.take readFree (fresh .read)
  have stillFree :
      (call.take (pipe, .read) read kernel).1.descriptors write = none :=
    (Function.update_of_ne apart _ _).trans writeFree
  have stillFresh :
      (call.take (pipe, .read) read kernel).2.fds (pipe, .write) = none :=
    (Function.update_of_ne (by simp) _ _).trans (fresh .write)
  obtain ⟨second, spares⟩ := first.take stillFree stillFresh
  exact ⟨second, spared.trans spares⟩

theorem ToolCall.Owns.alter (owns : call.Owns kernel)
    (matches_ : updated.Matches after) (same : updated.call = call.call)
    (children : after.children = kernel.children) (pid : updated.pid = call.pid)
    (awaits : updated.awaits = call.awaits) (tidy : updated.Tidy) :
    updated.Owns after where
  descriptors := matches_
  child := by
    rw [same, children, pid, awaits]
    exact owns.child
  awaited := by
    rw [same, children, pid, awaits]
    exact owns.awaited
  tidy := tidy

theorem ToolCall.Owns.reap (owns : call.Owns kernel)
    (matches_ : updated.Matches after) (same : updated.call = call.call)
    (children : after.children = (kernel.reap call.pid).children)
    (reaped : updated.awaits = false) (tidy : updated.Tidy) :
    updated.Owns after where
  descriptors := matches_
  child := by
    intro pid child held mine
    rw [children] at held
    simp only [Kernel.reap, Function.update_apply] at held
    split at held
    · cases held
    · rename_i other
      exact absurd (owns.child pid child held (mine.trans same)).1 other
  awaited := by
    rw [reaped]
    exact fun waits => absurd waits Bool.false_ne_true
  tidy := tidy

theorem ToolCall.Owns.spares_reap (owns : call.Owns kernel)
    (waits : call.awaits = true) :
    Spares call.call kernel (kernel.reap call.pid) where
  descriptors := fun _ _ _ => Iff.rfl
  children := by
    intro pid child other
    simp only [Kernel.reap, Function.update_apply]
    split
    · rename_i here
      subst here
      obtain ⟨own, held, mine⟩ := owns.awaited waits
      rw [held]
      simp only [reduceCtorEq, Option.some.injEq, false_iff]
      exact fun same => other (same ▸ mine)
    · exact Iff.rfl

/-- A call of the loop closes and reaps what is the call's own. -/
theorem ToolCall.Owns.turn {loop : Loop} {environment : Environment}
    (owns : call.Owns kernel) (phase : call.phase = .looping loop) :
    (call.turn kernel environment loop).2.Owns
        (call.turn kernel environment loop).1 ∧
      Spares call.call kernel (call.turn kernel environment loop).1 := by
  have tidy := owns.tidy
  simp only [ToolCall.Tidy, phase] at tidy
  have after : (CommandTools.step call.tool environment 0 loop).Tidy := tidy.step
  have awaits : call.awaits = !loop.waited := by simp [ToolCall.awaits, phase]
  generalize result : CommandTools.step call.tool environment 0 loop = next at after
  have awaits_ : (call.turn kernel environment loop).2.awaits = !next.waited := by
    simp only [ToolCall.turn, ToolCall.close, ToolCall.awaits, result]
    unfold Loop.Tidy at after
    cases control : next.control with
    | returned outcome =>
        rw [control] at after
        simp [show next.waited = true from after]
    | _ => rfl
  have tidy_ : (call.turn kernel environment loop).2.Tidy := by
    simp only [ToolCall.turn, ToolCall.close, ToolCall.Tidy, result]
    cases control : next.control with
    | returned outcome => trivial
    | _ => exact after
  have closed (middle : Kernel) (same : middle.descriptors = kernel.descriptors) :
      (call.close (ToolCall.kept next) middle).2.Matches
          (call.close (ToolCall.kept next) middle).1 ∧
        Spares call.call middle (call.close (ToolCall.kept next) middle).1 := by
    refine ToolCall.Matches.close ?_ _
    intro descriptor pipeEnd
    rw [same]
    exact owns.descriptors descriptor pipeEnd
  cases waited : !loop.waited && next.waited with
  | true =>
      obtain ⟨alive, ended⟩ := Bool.and_eq_true _ _ ▸ waited
      have reaped : (call.turn kernel environment loop).1 =
          (call.close (ToolCall.kept next) (kernel.reap call.pid)).1 := by
        simp only [ToolCall.turn, result, waited, if_true]
        rfl
      obtain ⟨matched, spares⟩ := closed (kernel.reap call.pid) rfl
      refine ⟨owns.reap ?_ rfl ?_ ?_ tidy_, ?_⟩
      · rw [reaped]
        simp only [ToolCall.turn, result]
        exact matched
      · rw [reaped]
        rfl
      · rw [awaits_, ended]
        rfl
      · rw [reaped]
        exact (owns.spares_reap (awaits.trans alive)).trans spares
  | false =>
      have same : (call.turn kernel environment loop).1 =
          (call.close (ToolCall.kept next) kernel).1 := by
        simp only [ToolCall.turn, result, waited, Bool.false_eq_true, if_false]
        rfl
      obtain ⟨matched, spares⟩ := closed kernel rfl
      refine ⟨owns.alter ?_ rfl ?_ rfl ?_ tidy_, ?_⟩
      · rw [same]
        simp only [ToolCall.turn, result]
        exact matched
      · rw [same]
        rfl
      · rw [awaits_, awaits]
        cases before : loop.waited with
        | false =>
            rw [before] at waited
            simpa using waited
        | true =>
            have stays :
                (CommandTools.step call.tool environment 0 loop).waited = true :=
              step_waited before
            rw [← result, stays]
      · rw [same]
        exact spares

theorem ToolCall.Owns.move (owns : call.Owns kernel) {phase : Phase}
    (awaits : ({ call with phase } : ToolCall).awaits = call.awaits)
    (tidy : ({ call with phase } : ToolCall).Tidy) :
    ({ call with phase } : ToolCall).Owns kernel :=
  owns.alter owns.descriptors rfl rfl rfl awaits tidy

theorem ToolCall.Owns.close (owns : call.Owns kernel) (phase : Phase)
    {keep : PipeEnd → Bool}
    (awaits : ({ call with phase } : ToolCall).awaits = call.awaits)
    (tidy : (({ call with phase } : ToolCall).close keep kernel).2.Tidy) :
    (({ call with phase } : ToolCall).close keep kernel).2.Owns
        (({ call with phase } : ToolCall).close keep kernel).1 ∧
      Spares call.call kernel
        (({ call with phase } : ToolCall).close keep kernel).1 := by
  have matches_ : ({ call with phase } : ToolCall).Matches kernel :=
    owns.descriptors
  obtain ⟨matched, spares⟩ := matches_.close keep
  exact ⟨owns.alter matched rfl rfl rfl awaits tidy, spares⟩

theorem ToolCall.Owns.spawn (owns : call.Owns kernel)
    (unawaited : call.awaits = false) {pid : Nat} {child : Child}
    (unused : kernel.children pid = none) (mine : child.call = call.call) :
    ({ call with phase := .handingOver .stdin, pid } : ToolCall).Owns
        { kernel with
          children := Function.update kernel.children pid (some child) } ∧
      Spares call.call kernel { kernel with
        children := Function.update kernel.children pid (some child) } := by
  constructor
  · constructor
    · exact owns.descriptors
    · intro other held found same
      simp only [Function.update_apply] at found
      split at found
      · rename_i here
        exact ⟨here, rfl⟩
      · have waits := (owns.child other held found same).2
        rw [unawaited] at waits
        cases waits
    · exact fun _ => ⟨child, Function.update_self _ _ _, mine⟩
    · trivial
  · constructor
    · exact fun _ _ _ => Iff.rfl
    · intro other held different
      simp only [Function.update_apply]
      split
      · rename_i here
        subst here
        rw [unused]
        simp only [Option.some.injEq, reduceCtorEq, iff_false]
        exact fun same => different (same ▸ mine)
      · exact Iff.rfl

theorem ToolCall.tidy_open (kernel : Kernel) {pipe : Pipe} {read write : Nat}
    (tidy : ∀ later side, pipe.fileno ≤ later.fileno →
      call.fds (later, side) = none) :
    ({ call with phase := pipe.next?.elim .preparing .opening }.open_ pipe read write
      kernel).2.Tidy := by
  have other {later : Pipe} {side : Side} (beyond : pipe.fileno < later.fileno) :
      (call.open_ pipe read write kernel).2.fds (later, side) = none := by
    have apart : later ≠ pipe := by
      rintro rfl
      exact lt_irrefl _ beyond
    simp only [ToolCall.open_, ToolCall.take]
    rw [Function.update_of_ne (by simp [apart]),
      Function.update_of_ne (by simp [apart])]
    exact tidy later side beyond.le
  cases pipe with
  | stdin => exact fun later side beyond => other beyond
  | stdout => exact fun later side beyond => other beyond
  | stderr => trivial

theorem ToolCall.advance_owns {answer : Answer} (owns : call.Owns kernel)
    (advanced : ToolCall.advance kernel call answer = some (after, updated)) :
    (updated.Owns after ∧ Spares call.call kernel after) ∧
      updated.call = call.call := by
  have tidy := owns.tidy
  unfold ToolCall.Tidy at tidy
  unfold ToolCall.advance at advanced
  split at advanced
  · rename_i pipe read write phase
    rw [phase] at tidy
    split at advanced
    · rename_i lowest
      obtain ⟨⟨⟨readFree, -⟩, -⟩, ⟨writeFree, apart⟩, -⟩ := lowest
      have matches_ : ({ call with
          phase := pipe.next?.elim .preparing .opening } : ToolCall).Matches
            kernel := owns.descriptors
      obtain ⟨matched, spares⟩ := matches_.open_ readFree writeFree
        (by simpa using apart) fun side => tidy pipe side le_rfl
      cases advanced
      refine ⟨⟨owns.alter matched rfl rfl rfl ?_
        (ToolCall.tidy_open kernel tidy), spares⟩, rfl⟩
      simp only [ToolCall.awaits, phase]
      cases pipe with
      | _ => rfl
    · cases advanced
  · rename_i pipe phase
    cases advanced
    exact ⟨⟨owns.move (by simp [ToolCall.awaits, phase]) trivial, .refl _ _⟩, rfl⟩
  · rename_i phase
    cases advanced
    exact ⟨⟨owns.move (by simp [ToolCall.awaits, phase]) trivial, .refl _ _⟩, rfl⟩
  · rename_i phase
    cases advanced
    exact ⟨⟨owns.move (by simp [ToolCall.awaits, phase]) trivial, .refl _ _⟩, rfl⟩
  · rename_i pid phase
    split at advanced
    · rename_i unused
      obtain ⟨actions, _, made⟩ := Option.map_eq_some_iff.mp advanced
      cases made
      have unawaited : call.awaits = false := by simp [ToolCall.awaits, phase]
      exact ⟨owns.spawn unawaited (by simpa using unused) rfl, rfl⟩
    · cases advanced
  · rename_i phase
    cases advanced
    exact ⟨⟨owns.move (by simp [ToolCall.awaits, phase]) trivial, .refl _ _⟩, rfl⟩
  · rename_i pipe phase
    cases advanced
    refine ⟨owns.close _ ?_ ?_, rfl⟩
    · simp only [ToolCall.awaits, phase]
      cases pipe with
      | _ => rfl
    · cases pipe with
      | _ => trivial
  · rename_i pipe phase
    cases advanced
    refine ⟨⟨owns.move ?_ ?_, .refl _ _⟩, rfl⟩
    · simp only [ToolCall.awaits, phase]
      cases pipe with
      | _ => rfl
    · cases pipe with
      | stdin => trivial
      | stdout => trivial
      | stderr => exact (rfl : ({} : Loop).waited = false)
  · rename_i pipe phase
    cases advanced
    exact ⟨⟨owns.move (by simp [ToolCall.awaits, phase]) trivial, .refl _ _⟩, rfl⟩
  · rename_i loop environment phase
    split at advanced
    · cases advanced
      exact ⟨owns.turn phase, rfl⟩
    · cases advanced
  · rename_i status phase
    have waits : call.awaits = true := by simp [ToolCall.awaits, phase]
    split at advanced
    · split at advanced
      · cases advanced
        exact ⟨⟨owns, .refl _ _⟩, rfl⟩
      · cases advanced
        exact ⟨⟨owns.reap owns.descriptors rfl rfl rfl trivial,
          owns.spares_reap waits⟩, rfl⟩
    · cases advanced
  · rename_i phase
    split at advanced
    · rename_i nothing
      cases advanced
      refine ⟨⟨owns.move (by simp [ToolCall.awaits, phase]) ?_, .refl _ _⟩, rfl⟩
      intro pipeEnd
      have none_ := List.find?_eq_none.mp nothing pipeEnd (mem_pipeEnds pipeEnd)
      simpa using none_
    · rename_i last found
      cases advanced
      refine ⟨owns.close call.phase rfl ?_, rfl⟩
      simp only [ToolCall.Tidy, ToolCall.close, phase]
  · cases advanced

theorem ToolCall.Owns.exit (owns : call.Owns kernel) {pid : Nat} {child ended : Child}
    (held : kernel.children pid = some child) (same : ended.call = child.call) :
    call.Owns { kernel with
      children := Function.update kernel.children pid (some ended) } where
  descriptors := owns.descriptors
  child := by
    intro other found at_ mine
    simp only [Function.update_apply] at at_
    split at at_
    · rename_i here
      subst here
      cases at_
      exact owns.child other child held (same.symm.trans mine)
    · exact owns.child other found at_ mine
  awaited := by
    intro waits
    obtain ⟨own, at_, mine⟩ := owns.awaited waits
    by_cases here : call.pid = pid
    · rw [here] at at_ ⊢
      cases held.symm.trans at_
      exact ⟨ended, Function.update_self _ _ _, same.trans mine⟩
    · exact ⟨own, (Function.update_of_ne here _ _).trans at_, mine⟩
  tidy := owns.tidy

theorem ToolCall.Owns.foreign (owns : call.Owns kernel) {descriptor : Nat}
    {file : Option File}
    (before : ∀ pipeEnd,
      kernel.descriptors descriptor ≠ some (.pipe call.call pipeEnd))
    (now : ∀ pipeEnd, file ≠ some (.pipe call.call pipeEnd)) :
    call.Owns { kernel with
      descriptors := Function.update kernel.descriptors descriptor file } where
  descriptors := by
    intro at_ pipeEnd
    rw [← owns.descriptors at_ pipeEnd]
    simp only [Function.update_apply]
    split
    · rename_i here
      subst here
      exact iff_of_false (now pipeEnd) (before pipeEnd)
    · exact Iff.rfl
  child := owns.child
  awaited := owns.awaited
  tidy := owns.tidy

end Ownership

/-- Everything the system holds for the calls is some call's. -/
structure Contained (server : ToolServer) : Prop where
  owns : ∀ (index : Nat) call, server.actors[index]? = some call →
    call.call = index ∧ call.Owns server.shared
  descriptors : ∀ descriptor call pipeEnd,
    server.shared.descriptors descriptor = some (.pipe call pipeEnd) →
      call < server.actors.length
  children : ∀ pid child, server.shared.children pid = some child →
    child.call < server.actors.length

section Runs

variable {server next : ToolServer} {label : ToolLabel}

theorem Contained.join (contained : Contained server) (tool : Invocation) :
    Contained (server.join server.shared { call := server.actors.length, tool }) where
  owns := by
    intro index call at_
    rcases Crew.getElem?_join_origin at_ with before | ⟨rfl, rfl⟩
    · exact contained.owns index call before
    · refine ⟨rfl, ?_, ?_, ?_, ?_⟩
      · intro descriptor pipeEnd
        refine iff_of_false (fun held => ?_) (by simp)
        exact lt_irrefl _ (contained.descriptors _ _ _ held)
      · intro pid child held mine
        exact absurd (mine ▸ contained.children pid child held) (lt_irrefl _)
      · exact fun waits => absurd waits Bool.false_ne_true
      · exact fun _ _ _ => rfl
  descriptors := by
    intro descriptor call pipeEnd held
    have bound := contained.descriptors descriptor call pipeEnd held
    simp only [Crew.join, List.length_append, List.length_singleton]
    omega
  children := by
    intro pid child held
    have bound := contained.children pid child held
    simp only [Crew.join, List.length_append, List.length_singleton]
    omega

theorem Contained.advance (contained : Contained server) {index : Nat}
    {answer : Answer}
    (turned : server.turn ToolCall.advance index answer = some next) :
    Contained next ∧ Spares index server.shared next.shared := by
  obtain ⟨call, shared, updated, found, advanced, rfl⟩ := Crew.turn_eq_some turned
  obtain ⟨named, owns⟩ := contained.owns index call found
  obtain ⟨⟨ownsAfter, spares⟩, same⟩ := ToolCall.advance_owns owns advanced
  rw [named] at spares
  have inside := (List.getElem?_eq_some_iff.mp found).1
  refine ⟨⟨?_, ?_, ?_⟩, spares⟩
  · intro other second at_
    rcases Crew.getElem?_set_origin at_ with ⟨rfl, rfl⟩ | ⟨different, before⟩
    · exact ⟨same.trans named, ownsAfter⟩
    · obtain ⟨theirs, owned⟩ := contained.owns other second before
      exact ⟨theirs, owned.spared spares (theirs ▸ different)⟩
  · intro descriptor other pipeEnd held
    rw [List.length_set]
    by_cases own : other = index
    · exact own ▸ inside
    · refine contained.descriptors descriptor other pipeEnd
        ((spares.descriptors descriptor _ fun _ same => ?_).mp held)
      exact own (File.pipe.inj same).1
  · intro pid child held
    rw [List.length_set]
    by_cases own : child.call = index
    · exact own ▸ inside
    · exact contained.children pid child ((spares.children pid child own).mp held)

theorem Contained.foreign (contained : Contained server) {descriptor : Nat}
    {file : Option File}
    (before : ∀ call pipeEnd,
      server.shared.descriptors descriptor ≠ some (.pipe call pipeEnd))
    (now : ∀ call pipeEnd, file ≠ some (.pipe call pipeEnd)) :
    Contained { server with shared := { server.shared with
      descriptors :=
        Function.update server.shared.descriptors descriptor file } } where
  owns := by
    intro index call found
    obtain ⟨named, owns⟩ := contained.owns index call found
    exact ⟨named, owns.foreign (before call.call) (now call.call)⟩
  descriptors := by
    intro other call pipeEnd held
    simp only [Function.update_apply] at held
    split at held
    · exact absurd held (now call pipeEnd)
    · exact contained.descriptors other call pipeEnd held
  children := contained.children

theorem Contained.step (contained : Contained server)
    (stepped : server.step label = some next) : Contained next := by
  cases label with
  | call tool =>
      exact Option.some.inj stepped ▸ contained.join tool
  | advance index answer => exact (contained.advance stepped).1
  | exit pid status =>
      simp only [ToolServer.step] at stepped
      split at stepped
      · rename_i child held
        split at stepped
        · cases stepped
          refine ⟨fun index call found => ?_, contained.descriptors, ?_⟩
          · obtain ⟨named, owns⟩ := contained.owns index call found
            exact ⟨named, owns.exit held rfl⟩
          · intro other found at_
            simp only [Function.update_apply] at at_
            split at at_
            · cases at_
              exact contained.children pid child held
            · exact contained.children other found at_
        · cases stepped
      · cases stepped
  | open_ descriptor =>
      simp only [ToolServer.step] at stepped
      split at stepped
      · rename_i lowest
        cases stepped
        exact contained.foreign (by simp [lowest.1.1]) (by simp)
      · cases stepped
  | close descriptor =>
      simp only [ToolServer.step] at stepped
      split at stepped
      · rename_i other
        cases stepped
        exact contained.foreign (by simp [other]) (by simp)
      · cases stepped

/-- The loop reaps its child where `waitpid` has returned its status, or has failed on
the way out. -/
theorem step_reaps {tool : Invocation} {environment : Environment} {loop : Loop}
    (alive : loop.waited = false)
    (reaped : (CommandTools.step tool environment 0 loop).waited = true) :
    (loop.control = .waiting ∧
        ∃ status, environment.waitpidNoHang 0 = .ok (some status)) ∨
      ((loop.control = .reaping ∨ ∃ error, loop.control = .failing error) ∧
        environment.waitpid 0 ≠ .error .eintr) := by
  by_cases running : loop.Running
  · cases @step_effect tool environment 0 loop running with
    | repeats same => rw [same, alive] at reaped; cases reaped
    | turns turned => rw [turned.waited, alive] at reaped; cases reaped
    | fails failed message same =>
        rw [same, Loop.fail, if_neg (by simp [alive])] at reaped
        exact absurd (alive.symm.trans reaped) Bool.false_ne_true
    | reaps control status answer turned => exact .inl ⟨control, status, answer⟩
    | expires same =>
        rw [same] at reaped
        exact absurd (alive.symm.trans reaped) Bool.false_ne_true
    | kills control status turned =>
        refine .inr ⟨.inl control, fun interrupted => ?_⟩
        simp only [CommandTools.step, control, Loop.killAndWait, interrupted,
          alive] at reaped
        cases reaped
    | writes count revents control answer turned =>
        rw [turned.waited] at reaped
        exact absurd (alive.symm.trans reaped) Bool.false_ne_true
    | ends stream revents control answer turned =>
        rw [turned.waited] at reaped
        exact absurd (alive.symm.trans reaped) Bool.false_ne_true
    | receives stream revents chunk control answer filled turned =>
        rw [turned.waited] at reaped
        exact absurd (alive.symm.trans reaped) Bool.false_ne_true
  · rcases Loop.stopped_cases running with ⟨error, control⟩ | ⟨result, control⟩
    · refine .inr ⟨.inr ⟨error, control⟩, fun interrupted => ?_⟩
      simp only [CommandTools.step, control, Loop.killAndWait, interrupted,
        alive] at reaped
      cases reaped
    · rw [step_returned control, alive] at reaped
      cases reaped

theorem ToolCall.advance_reaps {kernel after : Kernel} {call updated : ToolCall}
    {answer : Answer} {pid : Nat} {child : Child}
    (advanced : ToolCall.advance kernel call answer = some (after, updated))
    (held : kernel.children pid = some child)
    (gone : after.children pid = none) : child.status ≠ none := by
  have unchanged {kernel' : Kernel} (same : kernel'.children = kernel.children)
      (none_ : kernel'.children pid = none) : False := by
    rw [same, held] at none_
    cases none_
  have waited {status : Except Errno WaitStatus}
      (permitted : kernel.waits call.pid status = true)
      (answered : status ≠ .error .eintr)
      (none_ : (kernel.reap call.pid).children pid = none) :
      child.status ≠ none := by
    simp only [Kernel.reap, Function.update_apply] at none_
    split at none_
    · rename_i here
      subst here
      cases status with
      | error error =>
          simp only [Kernel.waits, held, Option.isNone_some, Bool.or_false,
            decide_eq_true_eq] at permitted
          exact absurd (congrArg Except.error permitted) answered
      | ok status =>
          simp only [Kernel.waits, held, Option.any_some, decide_eq_true_eq]
            at permitted
          rw [permitted]
          exact Option.some_ne_none status
    · exact (unchanged rfl none_).elim
  unfold ToolCall.advance at advanced
  split at advanced
  · split at advanced
    · cases advanced
      exact (unchanged rfl gone).elim
    · cases advanced
  · cases advanced
    exact (unchanged rfl gone).elim
  · cases advanced
    exact (unchanged rfl gone).elim
  · cases advanced
    exact (unchanged rfl gone).elim
  · split at advanced
    · obtain ⟨actions, _, made⟩ := Option.map_eq_some_iff.mp advanced
      cases made
      simp only [Function.update_apply] at gone
      split at gone
      · cases gone
      · exact (unchanged rfl gone).elim
    · cases advanced
  · cases advanced
    exact (unchanged rfl gone).elim
  · cases advanced
    exact (unchanged rfl gone).elim
  · cases advanced
    exact (unchanged rfl gone).elim
  · cases advanced
    exact (unchanged rfl gone).elim
  · rename_i loop environment phase
    split at advanced
    · rename_i permitted
      cases advanced
      dsimp only [ToolCall.turn, ToolCall.close] at gone
      split at gone
      · rename_i reaped
        obtain ⟨alive, ended⟩ := Bool.and_eq_true _ _ ▸ reaped
        have shape := step_reaps (by simpa using alive) ended
        unfold ToolCall.permits at permitted
        rcases shape with ⟨control, status, answered⟩ | ⟨control, answered⟩
        · simp only [control, answered, Kernel.waitsNoHang] at permitted
          exact waited permitted (by simp) gone
        · refine @waited (environment.waitpid 0) ?_ answered gone
          rcases control with control | ⟨error, control⟩
          · simpa only [control] using permitted
          · simpa only [control] using permitted
      · exact (unchanged rfl gone).elim
    · cases advanced
  · rename_i status phase
    split at advanced
    · rename_i permitted
      split at advanced
      · cases advanced
        exact (unchanged rfl gone).elim
      · rename_i answered
        cases advanced
        exact waited permitted (fun same => answered same) gone
    · cases advanced
  · split at advanced
    · cases advanced
      exact (unchanged rfl gone).elim
    · cases advanced
      exact (unchanged rfl gone).elim
  · cases advanced

end Runs

def ToolCall.kills (call : ToolCall) : Prop :=
  match call.phase with
  | .killing => True
  | .looping loop =>
      loop.control = .reaping ∨ ∃ error, loop.control = .failing error
  | _ => False

theorem ToolCall.Owns.awaits_of_kills {kernel : Kernel} {call : ToolCall}
    (owns : call.Owns kernel) (kills : call.kills) : call.awaits = true := by
  have tidy := owns.tidy
  unfold ToolCall.kills at kills
  unfold ToolCall.Tidy at tidy
  unfold ToolCall.awaits
  split at kills
  · rename_i phase
    rw [phase]
  · rename_i loop phase
    rw [phase] at tidy ⊢
    simp only [Loop.Tidy] at tidy
    have alive : loop.waited = false := by
      rcases kills with control | ⟨error, control⟩
      · simpa only [control] using tidy
      · simpa only [control] using tidy
    simp [alive]
  · exact kills.elim

/-- What the calls of the tools have of the system, and leave to it. -/
structure Contains (server : ToolServer) : Prop where
  /-- An end of a pipe is open for the call that holds it and nobody else. -/
  open_ : ∀ descriptor index pipeEnd,
    server.shared.descriptors descriptor = some (.pipe index pipeEnd) ↔
      ∃ call, server.actors[index]? = some call ∧
        call.fds pipeEnd = some descriptor
  /-- A call closes only its own descriptors, and reaps only its own child. -/
  spares : ∀ index answer next,
    server.step (.advance index answer) = some next →
      Spares index server.shared next.shared
  /-- A child is the one that its call knows and has not reaped. -/
  children : ∀ pid child, server.shared.children pid = some child →
    ∃ call, server.actors[child.call]? = some call ∧ call.pid = pid ∧
      call.awaits = true
  /-- A signal goes to the call's own child, which has not been reaped. -/
  kills : ∀ index call, server.actors[index]? = some call → call.kills →
    ∃ child, server.shared.children call.pid = some child ∧ child.call = index
  reaps : ∀ index answer next pid child,
    server.step (.advance index answer) = some next →
      server.shared.children pid = some child →
        next.shared.children pid = none → child.status ≠ none
  /-- A call that has returned has left nothing behind. -/
  returned : ∀ index call, server.actors[index]? = some call →
    call.phase = .returned →
      (∀ descriptor pipeEnd,
        server.shared.descriptors descriptor ≠ some (.pipe index pipeEnd)) ∧
      ∀ pid child, server.shared.children pid = some child → child.call ≠ index
  idle : (∀ call ∈ server.actors, call.phase = .returned) →
    (∀ descriptor, server.shared.descriptors descriptor = none ∨
      server.shared.descriptors descriptor = some .other) ∧
    ∀ pid, server.shared.children pid = none

section Contents

variable {server : ToolServer}

theorem Contained.child (contained : Contained server) {pid : Nat} {child : Child}
    (held : server.shared.children pid = some child) :
    ∃ call, server.actors[child.call]? = some call ∧ call.pid = pid ∧
      call.awaits = true := by
  have inside := contained.children pid child held
  have found := List.getElem?_eq_getElem inside
  obtain ⟨named, owns⟩ := contained.owns child.call _ found
  obtain ⟨same, waits⟩ := owns.child pid child held named.symm
  exact ⟨_, found, same.symm, waits⟩

theorem Contained.open_ (contained : Contained server) {descriptor index : Nat}
    {pipeEnd : PipeEnd} :
    server.shared.descriptors descriptor = some (.pipe index pipeEnd) ↔
      ∃ call, server.actors[index]? = some call ∧
        call.fds pipeEnd = some descriptor := by
  constructor
  · intro held
    have inside := contained.descriptors descriptor index pipeEnd held
    have found := List.getElem?_eq_getElem inside
    obtain ⟨named, owns⟩ := contained.owns index _ found
    exact ⟨_, found, (owns.descriptors descriptor pipeEnd).mp (named.symm ▸ held)⟩
  · rintro ⟨call, found, held⟩
    obtain ⟨rfl, owns⟩ := contained.owns index call found
    exact (owns.descriptors descriptor pipeEnd).mpr held

theorem Contained.contains (contained : Contained server) : Contains server where
  open_ := fun _ _ _ => contained.open_
  spares := fun _ _ _ stepped => (contained.advance stepped).2
  children := fun _ _ held => contained.child held
  kills := by
    intro index call found kills
    obtain ⟨named, owns⟩ := contained.owns index call found
    obtain ⟨child, held, mine⟩ := owns.awaited (owns.awaits_of_kills kills)
    exact ⟨child, held, mine.trans named⟩
  reaps := by
    intro index answer next pid child stepped held gone
    obtain ⟨call, shared, updated, _, advanced, rfl⟩ := Crew.turn_eq_some stepped
    exact ToolCall.advance_reaps advanced held gone
  returned := by
    intro index call found phase
    have tidy := (contained.owns index call found).2.tidy
    simp only [ToolCall.Tidy, phase] at tidy
    constructor
    · intro descriptor pipeEnd held
      obtain ⟨holder, at_, holds⟩ := contained.open_.mp held
      cases found.symm.trans at_
      rw [tidy pipeEnd] at holds
      cases holds
    · rintro pid child held rfl
      obtain ⟨holder, at_, _, waits⟩ := contained.child held
      cases found.symm.trans at_
      simp [ToolCall.awaits, phase] at waits
  idle := by
    intro ended
    constructor
    · intro descriptor
      cases held : server.shared.descriptors descriptor with
      | none => exact .inl rfl
      | some file =>
          cases file with
          | other => exact .inr rfl
          | pipe index pipeEnd =>
              obtain ⟨call, found, holds⟩ := contained.open_.mp held
              have tidy := (contained.owns index call found).2.tidy
              simp only [ToolCall.Tidy, ended call (List.mem_of_getElem? found)]
                at tidy
              rw [tidy pipeEnd] at holds
              cases holds
    · intro pid
      rw [Option.eq_none_iff_forall_ne_some]
      intro child held
      obtain ⟨call, found, _, waits⟩ := contained.child held
      simp [ToolCall.awaits, ended call (List.mem_of_getElem? found)] at waits

/-- A server in which no tool has been called; some descriptors are in use. -/
def ToolServer.start (used : Nat → Bool) : ToolServer :=
  ⟨{ descriptors := fun descriptor =>
      if used descriptor then some .other else none }, []⟩

theorem Contained.initially (used : Nat → Bool) :
    Contained (ToolServer.start used) where
  owns := by simp [ToolServer.start]
  descriptors := by
    intro descriptor call pipeEnd held
    simp only [ToolServer.start] at held
    split at held
    · cases held
    · cases held
  children := by simp [ToolServer.start]

/-- However the calls of tools interleave with each other and with whatever else the
server does, and wherever they fail: a call closes what it has opened and nothing else,
signals and reaps its own child and no other process, and leaves no descriptor and no
child behind.  A child can still inherit what other calls have open. -/
theorem tools_contained {used : Nat → Bool} {schedule : List ToolLabel}
    (ran : Transition.run ToolServer.step (.start used) schedule = some server) :
    Contains server := by
  have contained : Contained server :=
    run_invariant Contained.step (.initially used) ran
  exact contained.contains

end Contents

/-- The tool finds its ends of the pipes at the standard descriptors. -/
def Wired (descriptors : Descriptors) (call : Nat) : Prop :=
  ∀ pipe : Pipe, descriptors pipe.fileno = some (.pipe call (pipe, pipe.childSide))

/-- None of the server's ends has a standard descriptor, and none of the tool's ends has
that of an earlier pipe. -/
structure ToolCall.Clear (call : ToolCall) : Prop where
  server : ∀ pipe other : Pipe,
    call.fds (pipe, pipe.serverSide) ≠ some other.fileno
  tool : ∀ pipe earlier : Pipe, earlier.fileno < pipe.fileno →
    call.fds (pipe, pipe.childSide) ≠ some earlier.fileno

section Wiring

variable {kernel : Kernel} {call : ToolCall} {actions : List FileAction}

theorem wired_iff (matches_ : call.Matches kernel)
    (added : call.fileActions = some actions) :
    Wired (actions.foldl FileAction.perform kernel.descriptors) call.call ↔
      call.Clear := by
  obtain ⟨stdinRead, atStdinRead, rest⟩ := Option.bind_eq_some_iff.mp added
  obtain ⟨stdinWrite, atStdinWrite, rest⟩ := Option.bind_eq_some_iff.mp rest
  obtain ⟨stdoutRead, atStdoutRead, rest⟩ := Option.bind_eq_some_iff.mp rest
  obtain ⟨stdoutWrite, atStdoutWrite, rest⟩ := Option.bind_eq_some_iff.mp rest
  obtain ⟨stderrRead, atStderrRead, rest⟩ := Option.bind_eq_some_iff.mp rest
  obtain ⟨stderrWrite, atStderrWrite, rest⟩ := Option.bind_eq_some_iff.mp rest
  cases rest
  have stdin := (matches_ stdinRead _).mpr atStdinRead
  have stdout := (matches_ stdoutWrite _).mpr atStdoutWrite
  have stderr := (matches_ stderrWrite _).mpr atStderrWrite
  simp only [List.foldl_cons, List.foldl_nil, FileAction.perform]
  constructor
  · intro wired
    have first := wired .stdin
    have second := wired .stdout
    have third := wired .stderr
    simp only [Pipe.fileno, Pipe.childSide, Function.update_apply] at first second third
    constructor
    · intro pipe other held
      cases pipe
      all_goals cases other
      all_goals simp_all [Pipe.serverSide, Pipe.fileno]
    · intro pipe earlier below held
      cases pipe
      all_goals cases earlier
      all_goals simp_all [Pipe.childSide, Pipe.fileno]
  · intro clear pipe
    have away {held : Option Nat} {descriptor : Nat} (at_ : held = some descriptor)
        (other : Pipe) (apart : held ≠ some other.fileno) :
        other.fileno ≠ descriptor := by
      rintro rfl
      exact apart at_
    rw [Function.update_of_ne (away atStderrRead pipe (clear.server .stderr pipe)),
      Function.update_of_ne (away atStdoutRead pipe (clear.server .stdout pipe)),
      Function.update_of_ne (away atStdinWrite pipe (clear.server .stdin pipe))]
    have first := away atStdoutWrite .stdin (clear.tool .stdout .stdin (by decide))
    have second := away atStderrWrite .stdin (clear.tool .stderr .stdin (by decide))
    have third := away atStderrWrite .stdout (clear.tool .stderr .stdout (by decide))
    cases pipe with
    | stdin =>
        rw [Function.update_of_ne (by decide), Function.update_of_ne (by decide),
          Function.update_self]
        exact stdin
    | stdout =>
        rw [Function.update_of_ne (by decide), Function.update_self,
          Function.update_of_ne first.symm]
        exact stdout
    | stderr =>
        rw [Function.update_self, Function.update_of_ne third.symm,
          Function.update_of_ne second.symm]
        exact stderr

theorem ToolCall.Matches.clear (matches_ : call.Matches kernel)
    (standard : ∀ pipe : Pipe, kernel.descriptors pipe.fileno = some .other) :
    call.Clear := by
  have apart (pipeEnd : PipeEnd) (pipe : Pipe) :
      call.fds pipeEnd ≠ some pipe.fileno := by
    intro held
    have ours := (matches_ pipe.fileno pipeEnd).mpr held
    rw [standard pipe] at ours
    cases ours
  exact ⟨fun pipe other => apart _ other, fun pipe earlier _ => apart _ earlier⟩

variable {server next : ToolServer}

/-- The standard descriptors of the server stay as long as nobody closes them. -/
theorem step_standard {label : ToolLabel} (contained : Contained server)
    (stepped : server.step label = some next) {descriptor : Nat}
    (held : server.shared.descriptors descriptor = some .other)
    (kept : ∀ closed, label = .close closed → closed ≠ descriptor) :
    next.shared.descriptors descriptor = some .other := by
  cases label with
  | call tool => exact Option.some.inj stepped ▸ held
  | advance index answer =>
      have spares := (contained.advance stepped).2
      exact (spares.descriptors descriptor .other (by simp)).mpr held
  | exit pid status =>
      simp only [ToolServer.step] at stepped
      split at stepped
      · split at stepped
        · cases stepped
          exact held
        · cases stepped
      · cases stepped
  | open_ opened =>
      simp only [ToolServer.step] at stepped
      split at stepped
      · rename_i lowest
        cases stepped
        refine (Function.update_of_ne ?_ _ _).trans held
        rintro rfl
        rw [lowest.1.1] at held
        cases held
      · cases stepped
  | close closed =>
      simp only [ToolServer.step] at stepped
      split at stepped
      · cases stepped
        exact (Function.update_of_ne (kept closed rfl).symm _ _).trans held
      · cases stepped

theorem run_standard {schedule : List ToolLabel} {start : ToolServer}
    (contained : Contained start) {descriptor : Nat}
    (held : start.shared.descriptors descriptor = some .other)
    (kept : .close descriptor ∉ schedule)
    (ran : Transition.run ToolServer.step start schedule = some server) :
    server.shared.descriptors descriptor = some .other := by
  induction schedule generalizing start with
  | nil => exact Option.some.inj ran ▸ held
  | cons label rest ih =>
      obtain ⟨middle, stepped, finished⟩ := run_cons.mp ran
      obtain ⟨here, later⟩ := List.ne_and_not_mem_of_not_mem_cons kept
      refine ih (contained.step stepped) (step_standard contained stepped held ?_)
        later finished
      rintro closed rfl rfl
      exact here rfl

/-- What a spawn hands to the tool. -/
theorem Contained.spawn (contained : Contained server) {index pid : Nat}
    (stepped : server.step (.advance index (.pid pid)) = some next) :
    ∃ call child, server.actors[index]? = some call ∧
      next.shared.children pid = some child ∧ child.call = index ∧
        (Wired child.descriptors index ↔ call.Clear) := by
  obtain ⟨call, shared, updated, found, advanced, rfl⟩ := Crew.turn_eq_some stepped
  obtain ⟨rfl, owns⟩ := contained.owns index call found
  unfold ToolCall.advance at advanced
  cases phase : call.phase with
  | spawning =>
      simp only [phase] at advanced
      split at advanced
      · obtain ⟨actions, added, made⟩ := Option.map_eq_some_iff.mp advanced
        cases made
        exact ⟨call, _, found, Function.update_self _ _ _, rfl,
          wired_iff owns.descriptors added⟩
      · cases advanced
  | _ =>
      simp only [phase] at advanced
      cases advanced

/-- A tool finds its pipes at its standard descriptors exactly if they and the server's
ends are clear of those; in particular where the server has its own standard descriptors
in use and does not close them. -/
theorem tools_wired {used : Nat → Bool} {schedule : List ToolLabel}
    {index pid : Nat}
    (ran : Transition.run ToolServer.step (.start used) schedule = some server)
    (spawned : server.step (.advance index (.pid pid)) = some next) :
    ∃ call child, server.actors[index]? = some call ∧
      next.shared.children pid = some child ∧ child.call = index ∧
        (Wired child.descriptors index ↔ call.Clear) ∧
        ((∀ pipe : Pipe, used pipe.fileno = true ∧
            .close pipe.fileno ∉ schedule) → Wired child.descriptors index) := by
  have contained : Contained server :=
    run_invariant Contained.step (.initially used) ran
  obtain ⟨call, child, found, held, named, wired⟩ := contained.spawn spawned
  refine ⟨call, child, found, held, named, wired, fun kept => wired.mpr ?_⟩
  refine (contained.owns index call found).2.descriptors.clear fun pipe => ?_
  refine run_standard (.initially used) ?_ (kept pipe).2 ran
  simp [ToolServer.start, (kept pipe).1]

end Wiring

def hangingEnvironment : Environment where
  waitpidNoHang _ := .ok none
  waitpid _ := .ok (.signaled 9)
  now _ := sampleTool.deadline
  poll _ := .ok (some { output := fun _ => { pollhup := true } })
  write _ := .error .eagain
  read _ _ := .ok []

/-- Two tools are called at once.  The first call fails when its second pipe is opened,
and the second comes to its spawn. -/
def toolSample : List ToolLabel :=
  [.call sampleTool, .call sampleTool, .advance 0 (.pipe 3 4),
    .advance 1 (.pipe 5 6), .advance 0 .fails, .advance 0 .done,
    .advance 1 (.pipe 4 7), .advance 0 .done, .advance 0 .done,
    .advance 1 (.pipe 3 8), .advance 1 .done]

def sampleServer : Option ToolServer :=
  Transition.run ToolServer.step (.start (· < 3)) toolSample

/-- The tool of the second call hangs until its deadline has passed. -/
def killingSample : List ToolLabel :=
  toolSample ++ .advance 1 (.pid 7) :: List.replicate 6 (.advance 1 .done) ++
    List.replicate 2 (.advance 1 (.loop hangingEnvironment))

def reapingSample : List ToolLabel :=
  .exit 7 (.signaled 9) :: List.replicate 4 (.advance 1 (.loop hangingEnvironment)) ++
    [.advance 1 .done]

def sampleKilling : ToolServer :=
  (Transition.run ToolServer.step (.start (· < 3)) killingSample).getD (.start (· < 3))

def sampleReaped : ToolServer :=
  (Transition.run ToolServer.step sampleKilling reapingSample).getD sampleKilling

theorem tools_contained_sample :
    (∃ child call, sampleKilling.shared.children 7 = some child ∧
      sampleKilling.actors[1]? = some call ∧ call.kills) ∧
    Contains sampleKilling ∧ sampleReaped.shared.children 7 = none ∧
    Contains sampleReaped := by
  have killing : Transition.run ToolServer.step (.start (· < 3)) killingSample =
      some sampleKilling :=
    run_eq_getD (by decide +kernel)
  have reaped : Transition.run ToolServer.step sampleKilling reapingSample =
      some sampleReaped :=
    run_eq_getD (by decide +kernel)
  have gone : (sampleReaped.shared.children 7).isNone = true := by decide +kernel
  exact ⟨⟨_, _, rfl, rfl, .inl rfl⟩, tools_contained killing,
    Option.isNone_iff_eq_none.mp gone,
    tools_contained (run_append.mpr ⟨_, killing, reaped⟩)⟩

theorem tools_wired_sample :
    ∃ server next, sampleServer = some server ∧
      server.step (.advance 1 (.pid 7)) = some next ∧
      ∃ child, next.shared.children 7 = some child ∧
        Wired child.descriptors 1 := by
  have reached : (sampleServer.bind fun server =>
      server.step (.advance 1 (.pid 7))).isSome = true := by decide +kernel
  obtain ⟨next, stepped⟩ := Option.isSome_iff_exists.mp reached
  obtain ⟨server, ran, spawned⟩ := Option.bind_eq_some_iff.mp stepped
  obtain ⟨call, child, _, held, _, _, wired⟩ := tools_wired ran spawned
  refine ⟨server, next, ran, spawned, child, held, wired fun pipe => ?_⟩
  cases pipe with
  | _ => exact ⟨rfl, by simp [toolSample, Pipe.fileno]⟩

end ZooKeeperServer.CommandTools

