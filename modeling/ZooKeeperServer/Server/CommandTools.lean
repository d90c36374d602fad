import ZooKeeperServer.Server.Json

namespace ZooKeeperServer.CommandTools

/-! A call of a command tool from its spawn to its result: the loop that feeds the
tool, drains its two output pipes and waits for it, one system call at a step. -/

def maxStdoutBytes : Nat := 64 * 1024
def maxCapturedStderrBytes : Nat := 8 * 1024

inductive Errno
  | eintr
  | eagain
  | ewouldblock
  | epipe
  | other (code : Nat)
  deriving DecidableEq, Repr

inductive WaitStatus
  | exited (code : Nat)
  | signaled (signal : Nat)
  | other
  deriving DecidableEq, Repr

structure PollEvents where
  pollin : Bool := false
  pollout : Bool := false
  pollerr : Bool := false
  pollhup : Bool := false
  deriving DecidableEq, Repr

inductive Stream
  | stdout
  | stderr
  deriving DecidableEq, Repr

/-- The `revents` of a `poll` that found something; the loop only looks at those
of the descriptors it polled. -/
structure Revents where
  stdin : PollEvents := {}
  output : Stream → PollEvents := fun _ => {}

structure CapturedStream where
  data : StdString := []
  truncated : Bool := false
  deriving DecidableEq, Repr

structure CommandToolRunError where
  message : StdString
  timedOut : Bool := false
  deriving DecidableEq, Repr

abbrev CommandToolRunResult := Except CommandToolRunError Json

/-- What a call of the tool works with.  Instants are nanoseconds of the steady
clock; `started` is its reading before the loop. -/
structure Invocation where
  json : JsonLibrary
  strerror : Errno → StdString
  timeoutMs : Nat
  arguments : StdString
  started : Nat

namespace Invocation

def stdinPayload (tool : Invocation) : StdString :=
  tool.arguments ++ [10]

def deadline (tool : Invocation) : Nat :=
  tool.started + tool.timeoutMs * 1000000

end Invocation

def makeTimeoutError (timeoutMs : Nat) : CommandToolRunError where
  message := literal "Tool command timed out after " ++ stdToString timeoutMs ++
    literal " ms"
  timedOut := true

def makeRuntimeError (message : StdString) : CommandToolRunError where
  message := message
  timedOut := false

def formatStderr (text : StdString) (truncated : Bool) : StdString :=
  if text = [] then []
  else literal " | stderr: " ++
    (if truncated then text ++ literal "... [truncated]" else text)

structure OutputPipe where
  readEnd : Bool := true
  capture : CapturedStream := {}
  -- All that has been read, which only the proofs look at.
  received : StdString := []
  deriving DecidableEq, Repr

/-- The system call that is made next.  The first three belong to the wait for the
tool; `failing` kills and reaps it on the way out of an error. -/
inductive Control
  | waiting
  | checking
  | reaping
  | timing
  | polling (timeoutMs : Nat)
  | writing (revents : Revents)
  | reading (stream : Stream) (revents : Revents)
  | failing (error : CommandToolRunError)
  | returned (result : CommandToolRunResult)

structure Loop where
  control : Control := .waiting
  waited : Bool := false
  status : WaitStatus := .exited 0
  timedOut : Bool := false
  /-- The write end of the tool's standard input. -/
  writeEnd : Bool := true
  offset : Nat := 0
  output : Stream → OutputPipe := fun _ => {}
  -- The bytes `write` has taken, which only the proofs look at.
  delivered : StdString := []

namespace CapturedStream

def append (captured : CapturedStream) (chunk : StdString) (maxBytes : Nat) :
    CapturedStream where
  data :=
    if captured.data.length < maxBytes then
      captured.data ++ chunk.take (maxBytes - captured.data.length)
    else captured.data
  truncated :=
    captured.truncated || decide (maxBytes < captured.data.length + chunk.length)

end CapturedStream

namespace OutputPipe

def append (pipe : OutputPipe) (chunk : StdString) (maxBytes : Nat) : OutputPipe :=
  { pipe with
    capture := pipe.capture.append chunk maxBytes
    received := pipe.received ++ chunk }

def close (pipe : OutputPipe) : OutputPipe :=
  { pipe with readEnd := false }

end OutputPipe

namespace PollEvents

/-- The bits the loop reads a pipe for. -/
def readable (revents : PollEvents) : Bool :=
  revents.pollin || revents.pollhup || revents.pollerr

end PollEvents

namespace Stream

def maxBytes : Stream → Nat
  | .stdout => maxStdoutBytes
  | .stderr => maxCapturedStderrBytes

def name : Stream → StdString
  | .stdout => literal "stdout"
  | .stderr => literal "stderr"

end Stream

namespace Loop

def feeds (tool : Invocation) (loop : Loop) : Bool :=
  loop.writeEnd && decide (loop.offset < tool.stdinPayload.length)

def setOutput (loop : Loop) (stream : Stream) (pipe : OutputPipe) : Loop :=
  { loop with output := Function.update loop.output stream pipe }

def result (tool : Invocation) (loop : Loop) : CommandToolRunResult :=
  let stdout := (loop.output .stdout).capture
  let stderr := (loop.output .stderr).capture
  if loop.timedOut then .error (makeTimeoutError tool.timeoutMs)
  else if stdout.truncated then
    .error (makeRuntimeError (literal "Tool command stdout exceeded " ++
      stdToString maxStdoutBytes ++ literal " bytes"))
  else
    match loop.status with
    | .signaled signal =>
        .error (makeRuntimeError (literal "Tool command terminated by signal " ++
          stdToString signal ++ formatStderr stderr.data stderr.truncated))
    | .other =>
        .error (makeRuntimeError (literal "Tool command ended unexpectedly" ++
          formatStderr stderr.data stderr.truncated))
    | .exited (code + 1) =>
        .error (makeRuntimeError (literal "Tool command exited with status " ++
          stdToString (code + 1) ++ formatStderr stderr.data stderr.truncated))
    | .exited 0 =>
        match tool.json.parse stdout.data with
        | .error error =>
            .error (makeRuntimeError
              (literal "Tool command stdout was not valid JSON: " ++ error.what))
        | .ok (.object members) => .ok (.object members)
        | .ok _ =>
            .error (makeRuntimeError
              (literal "Tool command stdout must be a JSON object"))

/-- Return an error.  The destructor of the child kills and reaps it unless that has
been done. -/
def fail (loop : Loop) (message : StdString) : Loop :=
  let error := makeRuntimeError message
  if loop.waited then { loop with control := .returned (.error error) }
  else { loop with control := .failing error }

def drained (loop : Loop) : Bool :=
  !(loop.output .stdout).readEnd && !(loop.output .stderr).readEnd

/-- From the test for the end to the next call: the clock for the timeout of `poll`,
`poll` itself, or the wait again when there is nothing to poll. -/
def afterWait (tool : Invocation) (loop : Loop) : Loop :=
  if loop.waited && loop.drained then
    { loop with control := .returned (loop.result tool) }
  else if !loop.feeds tool && loop.drained then
    { loop with control := .waiting }
  else if loop.waited then { loop with control := .polling 10 }
  else { loop with control := .timing }

/-- The top of the loop: `try_wait` makes no call once the child has been reaped. -/
def again (tool : Invocation) (loop : Loop) : Loop :=
  if loop.waited then loop.afterWait tool else { loop with control := .waiting }

def afterStdout (tool : Invocation) (loop : Loop) (revents : Revents) : Loop :=
  if (loop.output .stderr).readEnd && (revents.output .stderr).readable then
    { loop with control := .reading .stderr revents }
  else loop.again tool

def afterStdin (tool : Invocation) (loop : Loop) (revents : Revents) : Loop :=
  if (loop.output .stdout).readEnd && (revents.output .stdout).readable then
    { loop with control := .reading .stdout revents }
  else loop.afterStdout tool revents

def afterRead (tool : Invocation) (loop : Loop) (stream : Stream)
    (revents : Revents) : Loop :=
  match stream with
  | .stdout => loop.afterStdout tool revents
  | .stderr => loop.again tool

def afterPoll (tool : Invocation) (loop : Loop) (revents : Revents) : Loop :=
  if loop.feeds tool then
    if revents.stdin.pollerr || revents.stdin.pollhup then
      { loop with writeEnd := false }.afterStdin tool revents
    else if revents.stdin.pollout then { loop with control := .writing revents }
    else loop.afterStdin tool revents
  else loop.afterStdin tool revents

def tryWait (tool : Invocation) (loop : Loop) :
    Except Errno (Option WaitStatus) → Loop
  | .ok (some status) => { loop with waited := true, status }.afterWait tool
  | .ok none => { loop with control := .checking }
  | .error .eintr => loop
  | .error error => loop.fail
      (literal "Failed while waiting on tool process: " ++ tool.strerror error)

def check (tool : Invocation) (loop : Loop) (now : Nat) : Loop :=
  if tool.deadline ≤ now then
    { loop with timedOut := true, writeEnd := false, control := .reaping }
  else loop.afterWait tool

/-- The blocking `waitpid` of `kill_and_wait`, which gives up on every error but an
interrupt.  `kill` comes before its first call, and its result is not looked at. -/
def killAndWait (loop : Loop) (reaped : Loop → Loop) :
    Except Errno WaitStatus → Loop
  | .ok status => reaped { loop with waited := true, status }
  | .error .eintr => loop
  | .error _ => reaped { loop with waited := true }

/-- The clock for the timeout of `poll`. -/
def time (tool : Invocation) (loop : Loop) (now : Nat) : Loop :=
  { loop with control := .polling (min ((tool.deadline - now) / 1000000) 10) }

def poll (tool : Invocation) (loop : Loop) : Except Errno (Option Revents) → Loop
  | .ok (some revents) => loop.afterPoll tool revents
  | .ok none => loop.again tool
  | .error .eintr => loop.again tool
  | .error error => loop.fail
      (literal "Failed while polling tool pipes: " ++ tool.strerror error)

def write (tool : Invocation) (loop : Loop) (revents : Revents) :
    Except Errno Nat → Loop
  | .ok written =>
      let fed := { loop with
        offset := loop.offset + written
        delivered :=
          loop.delivered ++ (tool.stdinPayload.drop loop.offset).take written }
      if fed.offset < tool.stdinPayload.length then fed
      else { fed with writeEnd := false }.afterStdin tool revents
  | .error .eintr => loop
  | .error .eagain => loop.afterStdin tool revents
  | .error .ewouldblock => loop.afterStdin tool revents
  | .error .epipe => loop.afterStdin tool revents
  | .error error => loop.fail
      (literal "Failed to write tool stdin: " ++ tool.strerror error)

/-- A `read` of `read_available`, which reads on until the pipe has nothing more; no
bytes are the end of the file. -/
def read (tool : Invocation) (loop : Loop) (stream : Stream) (revents : Revents) :
    Except Errno StdString → Loop
  | .ok [] =>
      (loop.setOutput stream (loop.output stream).close).afterRead tool stream
        revents
  | .ok chunk =>
      loop.setOutput stream ((loop.output stream).append chunk stream.maxBytes)
  | .error .eintr => loop
  | .error .eagain => loop.afterRead tool stream revents
  | .error .ewouldblock => loop.afterRead tool stream revents
  | .error error => loop.fail (literal "Failed to read tool " ++ stream.name ++
      literal ": " ++ literal "read failed: " ++ tool.strerror error)

end Loop

/-- What the system answers to the `n`-th call of the loop, for each call this may
be. -/
structure Environment where
  waitpidNoHang : Nat → Except Errno (Option WaitStatus)
  waitpid : Nat → Except Errno WaitStatus
  now : Nat → Nat
  poll : Nat → Except Errno (Option Revents)
  write : Nat → Except Errno Nat
  read : Stream → Nat → Except Errno StdString

def step (tool : Invocation) (environment : Environment) (n : Nat)
    (loop : Loop) : Loop :=
  match loop.control with
  | .waiting => loop.tryWait tool (environment.waitpidNoHang n)
  | .checking => loop.check tool (environment.now n)
  | .reaping => loop.killAndWait (Loop.afterWait tool) (environment.waitpid n)
  | .timing => loop.time tool (environment.now n)
  | .polling _ => loop.poll tool (environment.poll n)
  | .writing revents => loop.write tool revents (environment.write n)
  | .reading stream revents =>
      loop.read tool stream revents (environment.read stream n)
  | .failing error =>
      loop.killAndWait (fun reaped =>
        { reaped with control := .returned (.error error) })
        (environment.waitpid n)
  | .returned _ => loop

def run (tool : Invocation) (environment : Environment) : Nat → Loop
  | 0 => {}
  | n + 1 => step tool environment n (run tool environment n)

def Returns (tool : Invocation) (environment : Environment) : Prop :=
  ∃ n result, (run tool environment n).control = .returned result

end ZooKeeperServer.CommandTools
