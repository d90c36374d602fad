import ZooKeeperServer.Server.ToolTermination

namespace ZooKeeperServer.CommandTools

/-! What a call of a command tool passes on: the payload to the tool, and what the
tool writes back to its caller, in whatever pieces the pipes carry either. -/

namespace CapturedStream

/-- The captured part of what has been received, under a limit. -/
structure Captures (limit : Nat) (received : StdString)
    (captured : CapturedStream) : Prop where
  data : captured.data = received.take limit
  truncated : captured.truncated = true ↔ limit < received.length

theorem captures_empty (limit : Nat) :
    Captures limit [] ({} : CapturedStream) := by
  constructor
  · exact List.take_nil.symm
  · simp

theorem Captures.append {limit : Nat} {received chunk : StdString}
    {captured : CapturedStream} (captures : Captures limit received captured) :
    Captures limit (received ++ chunk) (captured.append chunk limit) := by
  obtain ⟨data, truncated⟩ := captures
  have size : captured.data.length = min limit received.length := by
    rw [data, List.length_take]
  constructor
  · simp only [CapturedStream.append, size]
    split
    · rename_i open'
      have whole : min limit received.length = received.length := by omega
      have all : received.take limit = received :=
        List.take_of_length_le (by omega)
      rw [whole, data, all, List.take_append, all]
    · rename_i full
      have short : limit - received.length = 0 := by omega
      rw [data, List.take_append, short, List.take_zero, List.append_nil]
  · simp only [CapturedStream.append, Bool.or_eq_true, truncated,
      decide_eq_true_eq, size, List.length_append]
    omega

end CapturedStream

section Runs

variable {tool : Invocation} {environment : Environment}
  {pipes : Stream → Writers} {n : Nat}

/-- The bytes written to the tool are the payload up to the offset, and each stream
has captured what its limit leaves of what has been read. -/
structure Conveys (tool : Invocation) (loop : Loop) : Prop where
  delivered : loop.delivered = tool.stdinPayload.take loop.offset
  captured : ∀ stream, CapturedStream.Captures stream.maxBytes
    (loop.output stream).received (loop.output stream).capture

theorem conveys_start : Conveys tool {} := by
  constructor
  · exact List.take_zero.symm
  · intro stream
    exact CapturedStream.captures_empty stream.maxBytes

theorem Conveys.of_eq {loop next : Loop} (conveys : Conveys tool loop)
    (delivered : next.delivered = loop.delivered)
    (offset : next.offset = loop.offset) (output : next.output = loop.output) :
    Conveys tool next := by
  constructor
  · rw [delivered, offset]
    exact conveys.delivered
  · rw [output]
    exact conveys.captured

theorem Conveys.turns {loop next : Loop} (conveys : Conveys tool loop)
    (turned : loop.Turns tool next) : Conveys tool next := by
  obtain ⟨_, control, writeEnd, rfl⟩ := turned
  exact conveys.of_eq rfl rfl rfl

theorem Conveys.feed {loop : Loop} (conveys : Conveys tool loop) (count : Nat) :
    Conveys tool (loop.feed tool count) := by
  constructor
  · change loop.delivered ++ _ = tool.stdinPayload.take (loop.offset + count)
    rw [conveys.delivered, List.take_add]
  · exact conveys.captured

theorem Conveys.setOutput {loop : Loop} (conveys : Conveys tool loop)
    {stream : Stream} {pipe : OutputPipe}
    (captures : CapturedStream.Captures stream.maxBytes pipe.received
      pipe.capture) :
    Conveys tool (loop.setOutput stream pipe) := by
  constructor
  · exact conveys.delivered
  · intro other
    by_cases same : other = stream
    · subst same
      simpa only [Loop.setOutput, Function.update_self] using captures
    · simpa only [Loop.setOutput, Function.update_of_ne same] using
        conveys.captured other

theorem Conveys.effect {loop next : Loop} (conveys : Conveys tool loop)
    (effect : Effect tool environment n loop next) : Conveys tool next := by
  cases effect with
  | repeats same =>
      rw [same]
      exact conveys
  | turns turned => exact conveys.turns turned
  | fails _ message same =>
      subst same
      unfold Loop.fail
      split
      · exact conveys.of_eq rfl rfl rfl
      · exact conveys.of_eq rfl rfl rfl
  | reaps _ status _ turned =>
      apply Conveys.turns _ turned
      exact conveys.of_eq rfl rfl rfl
  | expires same =>
      subst same
      exact conveys.of_eq rfl rfl rfl
  | kills _ status turned =>
      apply Conveys.turns _ turned
      exact conveys.of_eq rfl rfl rfl
  | writes count _ _ _ turned => exact (conveys.feed count).turns turned
  | ends stream _ _ _ turned =>
      apply Conveys.turns _ turned
      exact conveys.setOutput (conveys.captured stream)
  | receives stream _ chunk _ _ _ turned =>
      apply Conveys.turns _ turned
      exact conveys.setOutput (conveys.captured stream).append

theorem run_conveys : Conveys tool (run tool environment n) := by
  induction n with
  | zero => exact conveys_start
  | succ n ih =>
      rw [run]
      by_cases running : (run tool environment n).Running
      · exact ih.effect (step_effect running)
      · obtain ⟨control, waited, status, same⟩ :=
          @step_stopped tool environment n _ running
        rw [same]
        exact ih.of_eq rfl rfl rfl

/-- `waitpid` reports no status of the tool but this one. -/
def Exits (tool : Invocation) (environment : Environment) (status : WaitStatus) :
    Prop :=
  ∀ n reported, (run tool environment n).control = .waiting →
    environment.waitpidNoHang n = .ok (some reported) → reported = status

/-- What holds in a run that meets no error: the status that counts is the one
reported, and a result is that of the loop. -/
structure Regular (tool : Invocation) (status : WaitStatus) (loop : Loop) :
    Prop where
  reaped : loop.waited = true → loop.timedOut = false → loop.status = status
  expired : loop.control = .reaping → loop.timedOut = true
  unfailing : ∀ error, loop.control ≠ .failing error
  returned : ∀ result, loop.control = .returned result →
    result = loop.result tool ∧ loop.waited = true ∧ loop.drained = true

theorem regular_start {status : WaitStatus} : Regular tool status {} := by
  constructor
  · intro waited
    cases waited
  · intro control
    cases control
  · intro error control
    cases control
  · intro result control
    cases control

theorem Loop.Turns.regular {status : WaitStatus} {loop next : Loop}
    (turned : loop.Turns tool next)
    (reaped : loop.waited = true → loop.timedOut = false → loop.status = status) :
    Regular tool status next := by
  obtain ⟨onward, control, writeEnd, rfl⟩ := turned
  constructor
  · exact reaped
  · rintro rfl
    exact onward.elim
  · rintro error rfl
    exact onward
  · rintro result rfl
    exact onward

theorem Regular.effect {status : WaitStatus} {loop next : Loop}
    (regular : Regular tool status loop)
    (effect : Effect tool environment n loop next)
    (unfailing : ¬ Fails environment n loop)
    (exits : ∀ reported, loop.control = .waiting →
      environment.waitpidNoHang n = .ok (some reported) → reported = status) :
    Regular tool status next := by
  cases effect with
  | repeats same =>
      rw [same]
      exact regular
  | turns turned => exact turned.regular regular.reaped
  | fails failed => exact absurd failed unfailing
  | reaps control reported answer turned =>
      exact turned.regular fun _ _ => exits reported control answer
  | expires same =>
      subst same
      constructor
      · intro _ timely
        cases timely
      · intro _
        rfl
      · intro error control
        cases control
      · intro result control
        cases control
  | kills control reported turned =>
      apply turned.regular
      intro _ timely
      rw [regular.expired control] at timely
      cases timely
  | writes count _ _ _ turned => exact turned.regular regular.reaped
  | ends stream _ _ _ turned => exact turned.regular regular.reaped
  | receives stream _ chunk _ _ _ turned => exact turned.regular regular.reaped

theorem run_regular {status : WaitStatus} (exits : Exits tool environment status)
    (unfailing : ∀ n, ¬ Fails environment n (run tool environment n)) :
    Regular tool status (run tool environment n) := by
  induction n with
  | zero => exact regular_start
  | succ n ih =>
      rw [run]
      by_cases running : (run tool environment n).Running
      · exact ih.effect (step_effect running) (unfailing n) (exits n)
      · obtain ⟨error, control⟩ | ⟨result, control⟩ := Loop.stopped_cases running
        · exact absurd control (ih.unfailing error)
        · rw [step_returned control]
          exact ih

end Runs

structure Execution where
  tool : Invocation
  environment : Environment
  pipes : Stream → Writers
  permitted : Permitted tool environment pipes

namespace Execution

def loop (execution : Execution) (n : Nat) : Loop :=
  run execution.tool execution.environment n

/-- The call ends in this state of its loop without a timeout or an I/O error; the
tool writes these bytes in all to its streams and ends with this status. -/
structure Completes (execution : Execution) (totals : Stream → StdString)
    (status : WaitStatus) (ended : Loop) (result : CommandToolRunResult) :
    Prop where
  reached : ∃ n, execution.loop n = ended
  returned : ended.control = .returned result
  timely : ended.timedOut = false
  unfailing : ∀ n, ¬ Fails execution.environment n (execution.loop n)
  writes : ∀ stream, ∃ n, (execution.pipes stream).holders n = 0 ∧
    (execution.pipes stream).written n = totals stream
  exits : Exits execution.tool execution.environment status

variable {execution : Execution} {totals : Stream → StdString}
  {status : WaitStatus} {ended : Loop} {result : CommandToolRunResult}

theorem Completes.regular
    (completes : execution.Completes totals status ended result) :
    Regular execution.tool status ended := by
  obtain ⟨n, reached⟩ := completes.reached
  rw [← reached]
  exact run_regular completes.exits completes.unfailing

theorem Completes.received
    (completes : execution.Completes totals status ended result)
    (stream : Stream) : (ended.output stream).received = totals stream := by
  obtain ⟨-, -, drained⟩ := completes.regular.returned result completes.returned
  obtain ⟨n, reached⟩ := completes.reached
  have closed := Loop.drained_iff.mp drained stream
  rw [← reached] at closed ⊢
  obtain ⟨early, -, none, whole⟩ := closed_drained execution.permitted closed
  obtain ⟨late, gone, written⟩ := completes.writes stream
  rw [← written]
  refine whole.trans ?_
  rcases le_total early late with order | order
  · exact (Writers.released_from order none).2.symm
  · exact (Writers.released_from order gone).2

theorem Completes.captures
    (completes : execution.Completes totals status ended result)
    (stream : Stream) :
    CapturedStream.Captures stream.maxBytes (totals stream)
      (ended.output stream).capture := by
  have received := completes.received stream
  obtain ⟨n, reached⟩ := completes.reached
  subst reached
  have conveys : Conveys execution.tool (execution.loop n) := run_conveys
  rw [← received]
  exact conveys.captured stream

end Execution

theorem CapturedStream.Captures.unique {limit : Nat} {received : StdString}
    {captured other : CapturedStream} (captures : Captures limit received captured)
    (otherwise : Captures limit received other) : captured = other := by
  obtain ⟨data, truncated⟩ := captured
  obtain ⟨otherData, otherTruncated⟩ := other
  have sameData : data = otherData := captures.data.trans otherwise.data.symm
  have sameFlag : truncated = otherTruncated := by
    rw [Bool.eq_iff_iff]
    exact captures.truncated.trans otherwise.truncated.symm
  rw [sameData, sameFlag]

/-- The result depends on the captured streams and the status, and on nothing else
that the two calls differ in. -/
theorem Loop.result_congr {tool other : Invocation} {loop next : Loop}
    (library : tool.json = other.json) (timely : loop.timedOut = false)
    (nextTimely : next.timedOut = false) (status : loop.status = next.status)
    (captured : ∀ stream,
      (loop.output stream).capture = (next.output stream).capture) :
    loop.result tool = next.result other := by
  simp only [Loop.result, library, timely, nextTimely, status, captured,
    Bool.false_eq_true, if_false]

/-- The result of a call depends on the bytes that the tool writes and on its
status alone, what is captured of a stream is as much as its limit allows, and in
any call whatsoever the tool is sent a prefix of the payload. -/
theorem calls_agree :
    (∀ (first second : Execution) (totals : Stream → StdString)
        (status : WaitStatus) (ended endedSecond : Loop)
        (result resultSecond : CommandToolRunResult),
        first.tool.json = second.tool.json →
        first.Completes totals status ended result →
        second.Completes totals status endedSecond resultSecond →
        result = resultSecond) ∧
      (∀ (execution : Execution) (totals : Stream → StdString)
        (status : WaitStatus) (ended : Loop) (result : CommandToolRunResult),
        execution.Completes totals status ended result →
        ∀ stream,
          (ended.output stream).capture.data =
            (totals stream).take (min stream.maxBytes (totals stream).length) ∧
          ((ended.output stream).capture.truncated = true ↔
            stream.maxBytes < (totals stream).length)) ∧
      ∀ (execution : Execution) (n : Nat),
        (execution.loop n).delivered <+: execution.tool.stdinPayload := by
  refine ⟨?_, ?_, ?_⟩
  · intro first second totals status ended endedSecond result resultSecond library
      completes completesSecond
    obtain ⟨own, waited, -⟩ :=
      completes.regular.returned result completes.returned
    obtain ⟨ownSecond, waitedSecond, -⟩ :=
      completesSecond.regular.returned resultSecond completesSecond.returned
    rw [own, ownSecond]
    apply Loop.result_congr library completes.timely completesSecond.timely
    · rw [completes.regular.reaped waited completes.timely,
        completesSecond.regular.reaped waitedSecond completesSecond.timely]
    · intro stream
      exact (completes.captures stream).unique (completesSecond.captures stream)
  · intro execution totals status ended result completes stream
    have captures := completes.captures stream
    refine ⟨?_, captures.truncated⟩
    rw [captures.data, ← List.take_eq_take_min]
  · intro execution n
    have conveys : Conveys execution.tool (execution.loop n) := run_conveys
    rw [conveys.delivered]
    exact List.take_prefix _ _

/-! A tool that answers with an empty object, once in one piece and once in two with
interrupts and full pipes between them. -/

def objectTool : Invocation :=
  { sampleTool with
    json := { asciiJson with
      parse := fun text =>
        if text = literal "\x7b\x7d" then .ok (.object [])
        else asciiJson.parse text } }

def objectOutput : Stream → StdString
  | .stdout => literal "\x7b\x7d"
  | .stderr => []

/-- The tool writes the first byte of its answer by one call of the loop and the rest
by another, and then holds its pipes no more. -/
def objectWriters (first whole : Nat) (stream : Stream) : Writers where
  holders n := if n < whole then 1 else 0
  written n :=
    match stream with
    | .stdout =>
        if n < whole then (if n < first then [] else literal "\x7b")
        else literal "\x7b\x7d"
    | .stderr => []
  grows n := by
    cases stream with
    | stdout =>
        by_cases before : n < whole
        · by_cases unwritten : n < first
          · simp [before, unwritten]
          · have later : ¬ n + 1 < first := by omega
            simp only [before, unwritten, later, if_true, if_false]
            split
            · exact List.prefix_rfl
            · decide
        · have later : ¬ n + 1 < whole := by omega
          simp [before, later]
    | stderr => exact List.prefix_rfl
  released n none := by
    have late : ¬ n < whole := by
      intro before
      simp [before] at none
    have later : ¬ n + 1 < whole := by omega
    cases stream with
    | stdout => simp [late, later]
    | stderr => simp [later]

def atOnceEnvironment : Environment where
  waitpidNoHang n := if n < 8 then .ok none else .ok (some (.exited 0))
  waitpid _ := .ok (.exited 0)
  now _ := 0
  poll
    | 3 => .ok (some { stdin := { pollout := true },
                       output := fun _ => { pollin := true } })
    | _ => .error .eintr
  write
    | 4 => .ok 3
    | _ => .error .eagain
  read
    | .stdout, 5 => .ok (literal "\x7b\x7d")
    | .stdout, 6 => .ok []
    | .stderr, 7 => .ok []
    | _, _ => .error .eintr

def inPiecesEnvironment : Environment where
  waitpidNoHang n := if n < 17 then .ok none else .ok (some (.exited 0))
  waitpid _ := .ok (.exited 0)
  now _ := 0
  poll
    | 3 => .ok (some { stdin := { pollout := true },
                       output := fun
                         | .stdout => { pollin := true }
                         | .stderr => {} })
    | 12 => .ok (some { stdin := { pollout := true },
                        output := fun _ => { pollhup := true } })
    | _ => .error .eintr
  write
    | 4 => .ok 1
    | 13 => .ok 2
    | _ => .error .eagain
  read
    | .stdout, 6 => .ok (literal "\x7b")
    | .stdout, 8 => .error .eagain
    | .stdout, 14 => .ok (literal "\x7d")
    | .stdout, 15 => .ok []
    | .stderr, 16 => .ok []
    | _, _ => .error .eintr

theorem atOnce_permitted :
    Permitted objectTool atOnceEnvironment (objectWriters 5 5) := by
  constructor
  · exact monotone_const
  · intro n revents count _ answer
    simp only [atOnceEnvironment] at answer
    split at answer
    · cases answer
      decide
    · cases answer
  · intro n stream revents bytes _ answer some
    simp only [atOnceEnvironment] at answer
    split at answer
    · cases answer
      decide
    · cases answer
      exact absurd rfl some
    · cases answer
      exact absurd rfl some
    · cases answer
  · intro n stream revents _ answer
    simp only [atOnceEnvironment] at answer
    split at answer
    · cases answer
    · exact ⟨rfl, rfl⟩
    · exact ⟨rfl, rfl⟩
    · cases answer
  · intro n stream revents _ empty
    simp only [atOnceEnvironment] at empty
    split at empty
    all_goals simp at empty
  · intro n timeoutMs answer stream _ polled _ _
    simp only [atOnceEnvironment] at polled
    split at polled
    · cases polled
      exact ⟨_, rfl, rfl⟩
    · cases polled

theorem inPieces_permitted :
    Permitted objectTool inPiecesEnvironment (objectWriters 6 13) := by
  constructor
  · exact monotone_const
  · intro n revents count _ answer
    simp only [inPiecesEnvironment] at answer
    split at answer
    · cases answer
      decide
    · cases answer
      decide
    · cases answer
  · intro n stream revents bytes _ answer some
    simp only [inPiecesEnvironment] at answer
    split at answer
    · cases answer
      decide
    · cases answer
    · cases answer
      decide
    · cases answer
      exact absurd rfl some
    · cases answer
      exact absurd rfl some
    · cases answer
  · intro n stream revents _ answer
    simp only [inPiecesEnvironment] at answer
    split at answer
    · cases answer
    · cases answer
    · cases answer
    · exact ⟨rfl, rfl⟩
    · exact ⟨rfl, rfl⟩
    · cases answer
  · intro n stream revents _ empty
    simp only [inPiecesEnvironment] at empty
    split at empty
    · simp at empty
    · exact ⟨Nat.one_ne_zero, rfl⟩
    all_goals simp at empty
  · intro n timeoutMs answer stream _ polled _ ready
    simp only [inPiecesEnvironment] at polled
    split at polled
    · cases polled
      cases stream with
      | stdout => exact ⟨_, rfl, rfl⟩
      | stderr =>
          rcases ready with gone | unread
          · cases gone
          · exact absurd rfl unread
    · cases polled
      exact ⟨_, rfl, rfl⟩
    · cases polled

def atOnce : Execution := ⟨_, _, _, atOnce_permitted⟩

def inPieces : Execution := ⟨_, _, _, inPieces_permitted⟩

theorem transient_unfailing {environment : Environment} {n : Nat} {loop : Loop}
    (waits : ∀ error, environment.waitpidNoHang n ≠ .error error)
    (polls : ∀ error, environment.poll n = .error error → error = .eintr)
    (writes : ∀ error, environment.write n = .error error → error = .eagain)
    (reads : ∀ stream error, environment.read stream n = .error error →
      error = .eintr ∨ error = .eagain) :
    ¬ Fails environment n loop := by
  intro failed
  unfold Fails at failed
  split at failed
  · obtain ⟨error, answer, _⟩ := failed
    exact waits error answer
  · obtain ⟨error, answer, interrupted⟩ := failed
    exact interrupted (polls error answer)
  · obtain ⟨error, answer, lasting⟩ := failed
    rw [writes error answer] at lasting
    exact lasting (by decide)
  · obtain ⟨error, answer, lasting⟩ := failed
    rcases reads _ error answer with rfl | rfl
    · exact lasting (by decide)
    · exact lasting (by decide)
  · exact failed

theorem atOnce_completes :
    atOnce.Completes objectOutput (.exited 0) (atOnce.loop 9)
      (.ok (.object [])) := by
  constructor
  · exact ⟨9, rfl⟩
  · rfl
  · rfl
  · intro n
    apply transient_unfailing
    · intro error
      change (if n < 8 then _ else _) ≠ _
      split
      all_goals
        intro answer
        cases answer
    · intro error
      simp only [atOnce, atOnceEnvironment]
      split
      all_goals
        intro answer
        cases answer
      rfl
    · intro error
      simp only [atOnce, atOnceEnvironment]
      split
      all_goals
        intro answer
        cases answer
      rfl
    · intro stream error
      simp only [atOnce, atOnceEnvironment]
      split
      all_goals
        intro answer
        cases answer
      exact .inl rfl
  · intro stream
    cases stream with
    | stdout => exact ⟨5, rfl, rfl⟩
    | stderr => exact ⟨5, rfl, rfl⟩
  · intro n reported _ answer
    change (if n < 8 then _ else _) = _ at answer
    split at answer
    · cases answer
    · cases answer
      rfl

theorem inPieces_completes :
    inPieces.Completes objectOutput (.exited 0) (inPieces.loop 18)
      (.ok (.object [])) := by
  constructor
  · exact ⟨18, rfl⟩
  · rfl
  · rfl
  · intro n
    apply transient_unfailing
    · intro error
      change (if n < 17 then _ else _) ≠ _
      split
      all_goals
        intro answer
        cases answer
    · intro error
      simp only [inPieces, inPiecesEnvironment]
      split
      all_goals
        intro answer
        cases answer
      rfl
    · intro error
      simp only [inPieces, inPiecesEnvironment]
      split
      all_goals
        intro answer
        cases answer
      rfl
    · intro stream error
      simp only [inPieces, inPiecesEnvironment]
      split
      all_goals
        intro answer
        cases answer
      · exact .inr rfl
      · exact .inl rfl
  · intro stream
    cases stream with
    | stdout => exact ⟨13, rfl, rfl⟩
    | stderr => exact ⟨13, rfl, rfl⟩
  · intro n reported _ answer
    change (if n < 17 then _ else _) = _ at answer
    split at answer
    · cases answer
    · cases answer
      rfl

theorem calls_agree_sample :
    (atOnce.Completes objectOutput (.exited 0) (atOnce.loop 9)
        (.ok (.object [])) ∧
      inPieces.Completes objectOutput (.exited 0) (inPieces.loop 18)
        (.ok (.object []))) ∧
      (Except.ok (.object []) : CommandToolRunResult) = .ok (.object []) ∧
      ((inPieces.loop 18).output .stdout).capture.data =
        (objectOutput .stdout).take
          (min maxStdoutBytes (objectOutput .stdout).length) ∧
      (inPieces.loop 5).delivered <+: objectTool.stdinPayload :=
  ⟨⟨atOnce_completes, inPieces_completes⟩,
    calls_agree.1 atOnce inPieces objectOutput (.exited 0) _ _ _ _ rfl
      atOnce_completes inPieces_completes,
    (calls_agree.2.1 inPieces objectOutput (.exited 0) _ _ inPieces_completes
      .stdout).1,
    calls_agree.2.2 inPieces 5⟩

end ZooKeeperServer.CommandTools
