import ZooKeeperServer.Http.Starts
import ZooKeeperServer.Streaming.Order

namespace ZooKeeperServer.Http

open Streaming

/-! How often a request is answered, whatever becomes of it. -/

section Contract

variable {Reply : Type} (json : JsonLibrary) (family : Family Reply)
  (environment : Environment Reply)

/-- One response; and if the continuation was turned down, the request has been
cancelled, its lease released, and the response says so. -/
def Contract (world : World Reply) : Prop :=
  world.responses.length = 1 ∧
    (world.submission = some false →
      0 < world.cancels ∧ world.leaseReleased = true ∧
        ∃ response, errorResponse json serverBusy = .ok response ∧
          world.responses = [response])

def dumps (body : Json) : Bool := (json.dump body).isOk

def answerable (pending : Pending Reply) : Bool :=
  match pending.handle.result with
  | .error _ => false
  | .ok (.error error) =>
      dumps json (makeErrorBody (mapRuntimeErrorToApiError error))
  | .ok (.ok reply) =>
      dumps json (family.body pending.id pending.created pending.model reply)

def nonStreamAnswers : Bool :=
  match environment.start with
  | .error _ => false
  | .ok (.error error) => dumps json (makeErrorBody error)
  | .ok (.ok pending) =>
      (pending.handle.ready || environment.accepts) &&
        answerable json family pending

def Pending.header (pending : Pending Reply) : Header :=
  { completionId := pending.id
    created := pending.created
    modelId := pending.model }

def streamable (pending : Pending Reply) : Bool :=
  match family.format.tokens pending.header
      (environment.early.filter fun token => !token.isEmpty) with
  | .error _ => false
  | .ok (header, _) =>
      if pending.handle.ready then
        match pending.handle.result with
        | .error _ => false
        | .ok (.error error) =>
            dumps json (makeErrorBody (mapRuntimeErrorToApiError error))
        | .ok (.ok reply) => (family.format.success header reply).isOk
      else environment.accepts

def streamAnswers : Bool :=
  match environment.start with
  | .error _ => false
  | .ok (.error error) => dumps json (makeErrorBody error)
  | .ok (.ok pending) => streamable json family environment pending

end Contract

section Parts

variable {Reply : Type} {Value Other : Type} {json : JsonLibrary}
  {family : Family Reply} {environment : Environment Reply}
  {pending : Pending Reply} {world : World Reply}

theorem bind_ok {first : Handler Reply Value} {next : Value → Handler Reply Other}
    {value : Value} {after : World Reply}
    (executed : first world = (.ok value, after)) :
    (first >>= next) world = next value after := by
  simp only [bind, executed]

theorem bind_error {first : Handler Reply Value}
    {next : Value → Handler Reply Other} {error : StdException}
    {after : World Reply} (executed : first world = (.error error, after)) :
    (first >>= next) world = (.error error, after) := by
  simp only [bind, executed]

theorem bind_nested (first : Handler Reply Value)
    (second : Value → Handler Reply Other) {Last : Type}
    (next : Other → Handler Reply Last) (world : World Reply) :
    (first >>= fun value => second value >>= next) world =
      ((first >>= second) >>= next) world := by
  rcases executed : first world with ⟨result, after⟩
  cases result with
  | error error =>
      rw [bind_error executed, bind_error (bind_error executed)]
  | ok value =>
      simp only [bind, executed]

/-- Nothing but what is counted, observed or released is different. -/
structure Quiet (world after : World Reply) : Prop where
  callback : after.callback = world.callback
  pending : after.pending = world.pending
  responses : after.responses = world.responses
  cancels : after.cancels = world.cancels
  submission : after.submission = world.submission
  queue : after.queue = world.queue

theorem Quiet.refl (world : World Reply) : Quiet world world :=
  ⟨rfl, rfl, rfl, rfl, rfl, rfl⟩

theorem Quiet.trans {middle last : World Reply} (first : Quiet world middle)
    (second : Quiet middle last) : Quiet world last where
  callback := second.callback.trans first.callback
  pending := second.pending.trans first.pending
  responses := second.responses.trans first.responses
  cancels := second.cancels.trans first.cancels
  submission := second.submission.trans first.submission
  queue := second.queue.trans first.queue

theorem count_quiet (metrics : List Metric) (world : World Reply) :
    ∃ after, count metrics world = (.ok (), after) ∧ Quiet world after :=
  ⟨_, rfl, rfl, rfl, rfl, rfl, rfl, rfl⟩

theorem releaseLease_quiet (lease : Bool) (world : World Reply) :
    Quiet world (releaseLease lease world) := by
  cases lease with
  | false => exact .refl world
  | true => exact ⟨rfl, rfl, rfl, rfl, rfl, rfl⟩

theorem finalizePending_quiet (pending : Pending Reply)
    (result : RuntimeResult Reply) (world : World Reply) :
    ∃ after, finalizePending pending result world = (.ok (), after) ∧
      Quiet world after := by
  obtain ⟨id, created, model, handle, ⟨engaged⟩, cancel, lease⟩ := pending
  cases engaged with
  | false => exact ⟨_, rfl, releaseLease_quiet lease world⟩
  | true =>
      refine ⟨_, rfl, ?_⟩
      exact Quiet.trans (show Quiet world { world with
        results := world.results ++ [result] } from
          ⟨rfl, rfl, rfl, rfl, rfl, rfl⟩) (releaseLease_quiet lease _)

def answerText (json : JsonLibrary) (family : Family Reply)
    (pending : Pending Reply) : Except StdException Response :=
  match pending.handle.result with
  | .error error => .error error
  | .ok (.error error) => errorResponse json (mapRuntimeErrorToApiError error)
  | .ok (.ok reply) => replyResponse json family pending reply

variable (json family) in
theorem answer_responds (callback : StdFunction) (pending : Pending Reply)
    (world : World Reply) :
    ∃ after, Quiet world after ∧
      answer json family callback pending world =
        respond callback (answerText json family pending) after := by
  unfold answer answerText
  cases pending.handle.result with
  | error error => exact ⟨world, .refl world, rfl⟩
  | ok result =>
      cases result with
      | error error =>
          obtain ⟨counted, counting, first⟩ :=
            count_quiet (RuntimeError.metrics error) world
          obtain ⟨finalized, finalizing, second⟩ :=
            finalizePending_quiet pending (.error error) counted
          refine ⟨finalized, first.trans second, ?_⟩
          exact (bind_ok rfl).trans
            ((bind_ok counting).trans (bind_ok finalizing))
      | ok reply =>
          obtain ⟨counted, counting, first⟩ := count_quiet
            ((family.invocations reply).flatMap ToolInvocationRecord.metrics)
            world
          obtain ⟨finalized, finalizing, second⟩ :=
            finalizePending_quiet pending (.ok reply) counted
          refine ⟨finalized, first.trans second, ?_⟩
          exact (bind_ok rfl).trans
            ((bind_ok counting).trans (bind_ok finalizing))

variable (json) in
theorem rejectStart_responds (error : ApiError) (world : World Reply) :
    ∃ after, Quiet world after ∧
      rejectStart json error world =
        respond world.callback (errorResponse json error) after := by
  unfold rejectStart
  split
  · exact ⟨{ world with metrics := world.metrics ++ [.queueRejected] },
      ⟨rfl, rfl, rfl, rfl, rfl, rfl⟩, rfl⟩
  · exact ⟨world, .refl world, rfl⟩

theorem isOk_map {Before After : Type} (change : Before → After)
    (result : Except StdException Before) :
    (result.map change).isOk = result.isOk := by
  cases result <;> rfl

theorem errorResponse_isOk (error : ApiError) :
    (errorResponse json error).isOk = dumps json (makeErrorBody error) := by
  simp only [errorResponse, makeErrorResponse, makeJsonResponse, isOk_map, dumps]

theorem answerText_isOk (pending : Pending Reply) :
    (answerText json family pending).isOk = answerable json family pending := by
  unfold answerText answerable
  cases pending.handle.result with
  | error error => rfl
  | ok result =>
      cases result with
      | error error => exact errorResponse_isOk _
      | ok reply =>
          simp only [replyResponse, makeJsonResponse, isOk_map, dumps]

theorem contract_of_response (text : Except StdException Response)
    {after final : World Reply} (silent : after.responses = [])
    (responses : final.responses = (respond {} text after).2.responses)
    (submission : final.submission ≠ some false) :
    Contract json final ↔ text.isOk = true := by
  unfold Contract
  rw [responses]
  cases text with
  | error error =>
      have none : (respond {} (.error error) after).2.responses = [] := silent
      simp [none, Except.isOk, Except.toBool]
  | ok response =>
      have one : (respond {} (.ok response) after).2.responses =
          [response] := by
        show after.responses ++ [response] = [response]
        rw [silent]
        rfl
      simp [one, submission, Except.isOk, Except.toBool]

theorem not_contract_of_silence {final : World Reply}
    (silent : final.responses = []) : ¬ Contract json final := by
  rintro ⟨answered, _⟩
  rw [silent] at answered
  contradiction

end Parts

section NonStream

variable {Reply : Type} {json : JsonLibrary} {family : Family Reply}
  {environment : Environment Reply}

theorem respond_keeps (callback : StdFunction)
    (text : Except StdException Response) (world : World Reply) :
    (respond callback text world).2.submission = world.submission ∧
      (respond callback text world).2.queue = world.queue := by
  obtain ⟨engaged⟩ := callback
  cases text <;> cases engaged <;> exact ⟨rfl, rfl⟩

theorem destroyLocals_keeps (world : World Reply) :
    world.destroyLocals.responses = world.responses ∧
      world.destroyLocals.submission = world.submission ∧
      world.destroyLocals.queue = world.queue := by
  unfold World.destroyLocals
  split
  · rename_i pending _
    have quiet := releaseLease_quiet pending.lease { world with pending := none }
    exact ⟨quiet.responses, quiet.submission, quiet.queue⟩
  · exact ⟨rfl, rfl, rfl⟩

variable (json family environment) in
theorem serve_direct {body : Handler Reply Unit}
    (queue : (body {}).2.queue = []) :
    (serve json family environment body).responses = (body {}).2.responses ∧
      (serve json family environment body).submission =
        (body {}).2.submission := by
  obtain ⟨responses, submission, waiting⟩ := destroyLocals_keeps (body {}).2
  unfold serve runQueue scope
  rw [waiting, queue]
  exact ⟨responses, submission⟩

variable (json family environment) in
theorem serve_queued {body : Handler Reply Unit} {task : Task Reply}
    (queue : (body {}).2.queue = [task]) :
    ∃ world : World Reply,
      world.responses = (body {}).2.responses ∧
        world.submission = (body {}).2.submission ∧
        serve json family environment body =
          runTask json family environment task world := by
  obtain ⟨responses, submission, waiting⟩ := destroyLocals_keeps (body {}).2
  refine ⟨{ (body {}).2.destroyLocals with queue := [] }, responses, submission,
    ?_⟩
  unfold serve runQueue scope
  rw [waiting, queue]
  rfl

variable (json family environment) in
theorem runTask_answers (task : Task Reply) (streamed : task.streamed = false)
    (world : World Reply) :
    ∃ after, Quiet world after ∧
      (runTask json family environment task world).responses =
        (respond task.callback (answerText json family task.pending)
          after).2.responses ∧
      (runTask json family environment task world).submission =
        world.submission ∧
      (runTask json family environment task world).queue = world.queue := by
  obtain ⟨after, quiet, answers⟩ :=
    answer_responds json family task.callback task.pending world
  have released := releaseLease_quiet task.pending.lease
    (respond task.callback (answerText json family task.pending) after).2
  obtain ⟨submission, queue⟩ := respond_keeps task.callback
    (answerText json family task.pending) after
  have body : taskBody json family environment task world =
      respond task.callback (answerText json family task.pending) after := by
    unfold taskBody
    rw [streamed, if_neg (by decide), answers]
  unfold runTask
  rw [body]
  exact ⟨after, quiet, released.responses,
    released.submission.trans (submission.trans quiet.submission),
    released.queue.trans (queue.trans quiet.queue)⟩

theorem contract_of_direct {body : Handler Reply Unit}
    {text : Except StdException Response} {after : World Reply}
    (executed : body {} = respond {} text after)
    (silent : after.responses = []) (queue : after.queue = [])
    (submission : after.submission ≠ some false) :
    Contract json (serve json family environment body) ↔ text.isOk = true := by
  obtain ⟨submitted, queued⟩ := respond_keeps {} text after
  have ends (queue : (body {}).2.queue = []) :=
    serve_direct json family environment queue
  rw [executed, queued, submitted] at ends
  obtain ⟨responses, submitted⟩ := ends queue
  exact contract_of_response text silent responses (submitted ▸ submission)

theorem not_contract_of_raise {body : Handler Reply Unit}
    {error : StdException} {after : World Reply}
    (executed : body {} = (.error error, after))
    (silent : after.responses = []) (queue : after.queue = []) :
    ¬ Contract json (serve json family environment body) := by
  have ends (queue : (body {}).2.queue = []) :=
    (serve_direct json family environment queue).1
  rw [executed] at ends
  exact not_contract_of_silence ((ends queue).trans silent)

def answeringTask (pending : Pending Reply) : Task Reply :=
  { callback := {}, pending, streamed := false, watched := false }

def movedOut (pending : Pending Reply) : World Reply :=
  { callback := .moved, pending := some pending.moved }

section Submission

variable (json family) (task : Task Reply) (world : World Reply)

theorem submit_rejected (rejects : environment.accepts = false) :
    submitBackground json family environment task world =
      (.ok false,
        releaseLease task.pending.lease
          { world with submission := some false }) := by
  simp [submitBackground, rejects]

theorem submit_eager (accepts : environment.accepts = true)
    (eager : environment.eager = true) :
    submitBackground json family environment task world =
      (.ok true, runTask json family environment task
        { world with submission := some true }) := by
  simp [submitBackground, accepts, eager]

theorem submit_queued (accepts : environment.accepts = true)
    (later : environment.eager = false) :
    submitBackground json family environment task world =
      (.ok true, { world with
        submission := some true
        queue := world.queue ++ [task] }) := by
  simp [submitBackground, accepts, later]

end Submission

theorem startNonStream_submits {pending : Pending Reply}
    (start : environment.start = .ok (.ok pending))
    (unready : pending.handle.ready = false) :
    startNonStream json family environment {} =
      (submitBackground json family environment (answeringTask pending) >>=
        fun submitted =>
          if !submitted then do
            cancelPending pending.moved
            releasePending pending.moved
            respond .moved (errorResponse json serverBusy)
          else pure ()) (movedOut pending) := by
  unfold startNonStream
  rw [start]
  refine (bind_ok rfl).trans ((bind_ok rfl).trans ((bind_ok rfl).trans ?_))
  rw [if_neg (by rw [unready]; decide)]
  exact (bind_ok rfl).trans (bind_ok rfl)

theorem startNonStream_contract :
    Contract json (serve json family environment
      (startNonStream json family environment)) ↔
        nonStreamAnswers json family environment = true := by
  unfold nonStreamAnswers
  cases start : environment.start with
  | error error =>
      have ends : startNonStream json family environment {} =
          (.error error, {}) := by
        unfold startNonStream
        rw [start]
        rfl
      simpa using not_contract_of_raise ends rfl rfl
  | ok started =>
      cases started with
      | error error =>
          obtain ⟨after, quiet, rejects⟩ :=
            rejectStart_responds json error ({} : World Reply)
          have ends : startNonStream json family environment {} =
              respond {} (errorResponse json error) after := by
            unfold startNonStream
            rw [start]
            exact rejects
          rw [contract_of_direct ends quiet.responses quiet.queue
            (by rw [quiet.submission]; nofun), errorResponse_isOk]
      | ok pending =>
          cases ready : pending.handle.ready with
          | true =>
              obtain ⟨after, quiet, answers⟩ := answer_responds json family {}
                pending { pending := some pending }
              have ends : startNonStream json family environment {} =
                  respond {} (answerText json family pending) after := by
                unfold startNonStream
                rw [start]
                refine (bind_ok rfl).trans ((bind_ok rfl).trans
                  ((bind_ok rfl).trans ?_))
                rw [if_pos ready]
                exact answers
              rw [contract_of_direct ends quiet.responses quiet.queue
                (by rw [quiet.submission]; nofun), answerText_isOk]
              simp [ready]
          | false =>
              have ends : startNonStream json family environment {} = _ :=
                startNonStream_submits start ready
              dsimp only
              rw [ready, Bool.false_or]
              cases accepts : environment.accepts with
              | false =>
                  rw [bind_ok (submit_rejected json family _ _ accepts)] at ends
                  have thrown : startNonStream json family environment {} =
                      (.error badFunctionCall, releaseLease pending.lease
                        { movedOut pending with submission := some false }) :=
                    ends
                  have quiet := releaseLease_quiet pending.lease
                    { movedOut pending with submission := some false }
                  simpa using
                    not_contract_of_raise thrown quiet.responses quiet.queue
              | true =>
                  cases eager : environment.eager with
                  | false =>
                      rw [bind_ok (submit_queued json family _ _ accepts eager)]
                        at ends
                      obtain ⟨world, responses, submission, served⟩ :=
                        serve_queued json family environment
                          (show (startNonStream json family environment {}).2.queue
                            = [answeringTask pending] by rw [ends]; rfl)
                      rw [ends] at responses submission
                      obtain ⟨after, quiet, answers, submitted, _⟩ :=
                        runTask_answers json family environment
                          (answeringTask pending) rfl world
                      rw [served, contract_of_response _
                        (quiet.responses.trans responses) answers
                        (by rw [submitted, submission]; nofun), answerText_isOk]
                      simp [answeringTask]
                  | true =>
                      rw [bind_ok (submit_eager json family _ _ accepts eager)]
                        at ends
                      obtain ⟨after, quiet, answers, submitted, queue⟩ :=
                        runTask_answers json family environment
                          (answeringTask pending) rfl
                          { movedOut pending with submission := some true }
                      have ended : startNonStream json family environment {} =
                          (.ok (), runTask json family environment
                            (answeringTask pending)
                            { movedOut pending with submission := some true }) :=
                        ends
                      obtain ⟨responses, submission⟩ :=
                        serve_direct json family environment
                          (show (startNonStream json family environment {}).2.queue
                            = [] by rw [ended]; exact queue)
                      rw [ended] at responses submission
                      rw [contract_of_response _ quiet.responses
                        (responses.trans answers)
                        (by rw [submission, submitted]; nofun), answerText_isOk]
                      simp [answeringTask]

end NonStream

section Session

variable {Reply : Type} {Value Other : Type} {json : JsonLibrary}
  {family : Family Reply} {environment : Environment Reply}
  {world : World Reply}

/-- A program that answers nothing, cancels nothing and submits nothing. -/
def Quietly (program : Handler Reply Value) : Prop :=
  ∀ world, Quiet world (program world).2

theorem Quietly.bind {first : Handler Reply Value}
    {next : Value → Handler Reply Other} (quiet : Quietly first)
    (others : ∀ value, Quietly (next value)) : Quietly (first >>= next) := by
  intro world
  rcases executed : first world with ⟨result, after⟩
  have here := quiet world
  rw [executed] at here
  cases result with
  | error error =>
      rw [bind_error executed]
      exact here
  | ok value =>
      rw [bind_ok executed]
      exact here.trans (others value after)

theorem Quietly.evaluate (result : Except StdException Value) :
    Quietly (evaluate result : Handler Reply Value) :=
  fun world => .refl world

theorem exec_quietly (action : Action Reply) : Quietly (exec family action) := by
  refine Quietly.bind (fun world => .refl world) fun _ => ?_
  refine Quietly.bind (.evaluate _) fun result => ?_
  obtain ⟨next, session⟩ := result
  exact Quietly.bind (fun world => ⟨rfl, rfl, rfl, rfl, rfl, rfl⟩)
    fun _ world => .refl world

theorem perform_quietly (actions : List (Action Reply)) :
    Quietly (perform family actions) := by
  induction actions with
  | nil => exact fun world => .refl world
  | cons action rest ih => exact (exec_quietly action).bind fun _ => ih

variable (family) in
theorem callSession_quietly (action : Action Reply) :
    Quietly (callSession family action) :=
  (exec_quietly action).bind fun next => perform_quietly next

theorem finalizePending_quietly (pending : Pending Reply)
    (result : RuntimeResult Reply) : Quietly (finalizePending pending result) := by
  intro world
  obtain ⟨after, executed, quiet⟩ := finalizePending_quiet pending result world
  rw [executed]
  exact quiet

theorem count_quietly (metrics : List Metric) :
    Quietly (count metrics : Handler Reply Unit) :=
  fun _ => ⟨rfl, rfl, rfl, rfl, rfl, rfl⟩

variable (environment) in
theorem clearWatch_quietly (watched : Bool) :
    Quietly (clearWatch environment watched) := by
  intro world
  unfold clearWatch
  split
  · exact ⟨rfl, rfl, rfl, rfl, rfl, rfl⟩
  · exact .refl world

theorem conclude_quietly (task : Task Reply) :
    Quietly (conclude family environment task) := by
  refine Quietly.bind (.evaluate _) fun result => ?_
  refine (clearWatch_quietly environment task.watched).bind fun _ => ?_
  cases result with
  | error error =>
      exact (count_quietly _).bind fun _ =>
        (callSession_quietly family _).bind fun _ => finalizePending_quietly _ _
  | ok reply =>
      exact (count_quietly _).bind fun _ =>
        (callSession_quietly family _).bind fun _ => finalizePending_quietly _ _

variable (json family environment) in
theorem runTask_quiet (task : Task Reply) (streamed : task.streamed = true)
    (world : World Reply) :
    Quiet world (runTask json family environment task world) := by
  have body : taskBody json family environment task =
      conclude family environment task := by
    unfold taskBody
    rw [if_pos streamed]
  unfold runTask
  rw [body]
  exact (conclude_quietly task world).trans (releaseLease_quiet _ _)

variable (family) in
theorem exec_result (action : Action Reply) (world : World Reply) :
    exec family action world =
      match action.exec family.format (fun _ => true) world.session with
      | .ok (next, session) => (.ok next, { world with session })
      | .error error => (.error error, world) := by
  unfold exec
  refine (bind_ok rfl).trans ?_
  cases action.exec family.format (fun _ => true) world.session with
  | error error => rfl
  | ok result => rfl

theorem perform_cons {action : Action Reply} {rest next : List (Action Reply)}
    {session : Core}
    (executed : action.exec family.format (fun _ => true) world.session =
      .ok (next, session)) :
    perform family (action :: rest) world =
      perform family rest { world with session } := by
  have ran := exec_result family action world
  rw [executed] at ran
  exact bind_ok ran

theorem perform_cons_error {action : Action Reply} {rest : List (Action Reply)}
    {error : StdException}
    (failed : action.exec family.format (fun _ => true) world.session =
      .error error) :
    perform family (action :: rest) world = (.error error, world) := by
  have ran := exec_result family action world
  rw [failed] at ran
  exact bind_error ran

variable (family) in
theorem perform_tails {actions : List (Action Reply)}
    (tails : ∀ action ∈ actions, action.isTail = true) (world : World Reply) :
    ∃ after, perform family actions world = (.ok (), after) := by
  induction actions generalizing world with
  | nil => exact ⟨world, rfl⟩
  | cons action rest ih =>
      have tail := tails action (by simp)
      cases executed :
          action.exec family.format (fun _ => true) world.session with
      | error error =>
          rcases exec_error executed with ⟨token, rfl, _⟩ | ⟨outcome, rfl, _⟩
          · contradiction
          · cases outcome <;> contradiction
      | ok result =>
          obtain ⟨next, session⟩ := result
          rw [perform_cons executed]
          exact ih (fun other member => tails other (by simp [member])) _

def waitFor (tokens : List StdString) (core : Core) : Core :=
  { core with session := { core.session with
    pendingTokens := core.session.pendingTokens ++
      tokens.filter fun token => !token.isEmpty } }

variable (family) in
theorem perform_early (tokens : List StdString) (world : World Reply)
    (closed : world.session.session.metadataReady = false) :
    perform family (tokens.map .pushToken) world =
      (.ok (), { world with session := waitFor tokens world.session }) := by
  induction tokens generalizing world with
  | nil => simp [perform, waitFor, pure]
  | cons token rest ih =>
      have executed : (Action.pushToken token).exec family.format
          (fun _ => true) world.session =
            .ok ([], waitFor [token] world.session) := by
        show pushTokenLocked family.format (fun _ => true) token
              world.session = _
        cases empty : token.isEmpty with
        | true => simp [pushTokenLocked, empty, waitFor]
        | false => simp [pushTokenLocked, empty, closed, waitFor]
      rw [List.map_cons, perform_cons executed,
        ih { world with session := waitFor [token] world.session } closed]
      cases empty : token.isEmpty with
      | true => simp [waitFor, empty]
      | false => simp [waitFor, empty]

variable (family) in
theorem perform_replay (tokens : List StdString) (world : World Reply)
    (opened : world.session.session.metadataReady = true)
    (nonempty : ∀ token ∈ tokens, token.isEmpty = false) :
    match family.format.tokens world.session.session.header tokens with
    | .ok (header, _) => ∃ after,
        perform family (tokens.map .pushToken) world = (.ok (), after) ∧
          after.session.session.header = header
    | .error error => ∃ after,
        perform family (tokens.map .pushToken) world = (.error error, after) := by
  induction tokens generalizing world with
  | nil => exact ⟨world, rfl, rfl⟩
  | cons token rest ih =>
      have others := fun other member =>
        nonempty other (List.mem_cons_of_mem _ member)
      have here := nonempty token (List.mem_cons_self ..)
      simp only [Format.tokens, List.map_cons]
      cases executed : (Action.pushToken token).exec family.format
          (fun _ => true) world.session with
      | error error =>
          rcases exec_error executed with ⟨other, same, _, _, raised⟩ |
            ⟨outcome, same, _⟩
          · obtain rfl := Action.pushToken.inj same
            rw [raised]
            exact ⟨world, perform_cons_error executed⟩
          · cases outcome <;> contradiction
      | ok result =>
          obtain ⟨next, session⟩ := result
          obtain ⟨frame, made, ready, _⟩ :=
            pushToken_produces executed here opened
          rw [made, perform_cons executed]
          have rest := ih { world with session } (ready.trans opened) others
          dsimp only at rest ⊢
          cases produced : family.format.tokens session.session.header _ with
          | error error =>
              rw [produced] at rest
              exact rest
          | ok result =>
              rw [produced] at rest
              exact rest

variable (family) in
theorem opening_result (pending : Pending Reply) (tokens : List StdString)
    (world : World Reply)
    (fresh : world.session = waitFor tokens {}) :
    match family.format.tokens pending.header
        (tokens.filter fun token => !token.isEmpty) with
    | .ok (header, _) => ∃ after,
        (callSession family
            (.setMetadata pending.id pending.created pending.model) >>=
          fun _ => callSession family .setCancelCallback) world =
            (.ok (), after) ∧
          after.session.session.header = header
    | .error error => ∃ after,
        (callSession family
            (.setMetadata pending.id pending.created pending.model) >>=
          fun _ => callSession family .setCancelCallback) world =
            (.error error, after) := by
  have opens := exec_result family
    (.setMetadata pending.id pending.created pending.model) world
  rw [fresh] at opens
  have replayed := perform_replay family
    (tokens.filter fun token => !token.isEmpty)
    { world with session := { ({} : Core) with
      session := { ({} : Session) with
        header := pending.header
        metadataReady := true } } }
    rfl (by simp)
  have calls : callSession family
      (.setMetadata pending.id pending.created pending.model) world =
        perform family ((tokens.filter fun token => !token.isEmpty).map
          .pushToken)
          { world with session := { ({} : Core) with
            session := { ({} : Session) with
              header := pending.header
              metadataReady := true } } } := bind_ok opens
  dsimp only at replayed
  cases produced : family.format.tokens pending.header
      (tokens.filter fun token => !token.isEmpty) with
  | error error =>
      rw [produced] at replayed
      obtain ⟨after, failed⟩ := replayed
      exact ⟨after, bind_error (calls.trans failed)⟩
  | ok result =>
      rw [produced] at replayed
      obtain ⟨after, succeeded, header⟩ := replayed
      exact ⟨_, bind_ok (calls.trans succeeded), header⟩

variable (family) in
theorem finishSuccess_result (reply : Reply) (world : World Reply) :
    match family.format.success world.session.session.header reply with
    | .ok _ => ∃ after,
        callSession family (.finishSuccess reply) world = (.ok (), after)
    | .error error =>
        callSession family (.finishSuccess reply) world =
          (.error error, world) := by
  have ran := exec_result family (.finishSuccess reply) world
  cases executed : (Action.finishSuccess reply).exec family.format
      (fun _ => true) world.session with
  | error error =>
      have raised : family.format.success world.session.session.header reply =
          .error error := finish_fails (.success reply) executed
      rw [raised]
      rw [executed] at ran
      exact bind_error ran
  | ok result =>
      obtain ⟨next, session⟩ := result
      obtain ⟨frames, made, _, _, _, _, tails⟩ :=
        finish_concludes
          (show (Outcome.success reply).action.exec _ _ _ = _ from executed)
      have made : family.format.success world.session.session.header reply =
          .ok (session.session.header, frames) := made
      rw [made]
      rw [executed] at ran
      obtain ⟨after, performed⟩ :=
        perform_tails family tails { world with session }
      exact ⟨after, (bind_ok ran).trans performed⟩

end Session

section Stream

variable {Reply : Type} {json : JsonLibrary} {family : Family Reply}
  {environment : Environment Reply}

def streamText (json : JsonLibrary) (family : Family Reply) (header : Header)
    (pending : Pending Reply) : Except StdException Response :=
  match pending.handle.result with
  | .error error => .error error
  | .ok (.error error) => errorResponse json (mapRuntimeErrorToApiError error)
  | .ok (.ok reply) =>
      (family.format.success header reply).map fun _ => .stream

variable (json family) in
theorem answerStream_responds (callback : StdFunction) (pending : Pending Reply)
    (world : World Reply) :
    ∃ after, Quiet world after ∧
      answerStream json family callback pending world =
        respond callback
          (streamText json family world.session.session.header pending)
          after := by
  unfold answerStream streamText
  cases pending.handle.result with
  | error error => exact ⟨world, .refl world, rfl⟩
  | ok result =>
      cases result with
      | error error =>
          obtain ⟨counted, counting, first⟩ :=
            count_quiet (RuntimeError.metrics error) world
          obtain ⟨finalized, finalizing, second⟩ :=
            finalizePending_quiet pending (.error error) counted
          refine ⟨finalized, first.trans second, ?_⟩
          exact (bind_ok rfl).trans
            ((bind_ok counting).trans (bind_ok finalizing))
      | ok reply =>
          let counted : World Reply := { world with
            metrics := world.metrics ++
              (family.invocations reply).flatMap ToolInvocationRecord.metrics }
          have first : Quiet world counted := ⟨rfl, rfl, rfl, rfl, rfl, rfl⟩
          have finished := finishSuccess_result family reply counted
          have session := callSession_quietly family
            (.finishSuccess reply) counted
          dsimp only at finished ⊢
          cases made : family.format.success world.session.session.header
              reply with
          | error error =>
              rw [show counted.session = world.session from rfl, made]
                at finished
              exact ⟨counted, first,
                (bind_ok rfl).trans ((bind_ok rfl).trans (bind_error finished))⟩
          | ok tail =>
              rw [show counted.session = world.session from rfl, made]
                at finished
              obtain ⟨sent, sending⟩ := finished
              rw [sending] at session
              obtain ⟨finalized, finalizing, third⟩ :=
                finalizePending_quiet pending (.ok reply) sent
              refine ⟨finalized, first.trans (session.trans third), ?_⟩
              exact (bind_ok rfl).trans ((bind_ok rfl).trans
                ((bind_ok sending).trans (bind_ok finalizing)))

theorem streamText_isOk (header : Header) (pending : Pending Reply) :
    (streamText json family header pending).isOk =
      match pending.handle.result with
      | .error _ => false
      | .ok (.error error) =>
          dumps json (makeErrorBody (mapRuntimeErrorToApiError error))
      | .ok (.ok reply) => (family.format.success header reply).isOk := by
  unfold streamText
  cases pending.handle.result with
  | error error => rfl
  | ok result =>
      cases result with
      | error error => exact errorResponse_isOk _
      | ok reply => exact isOk_map _ _

def streamingTask (environment : Environment Reply) (pending : Pending Reply) :
    Task Reply :=
  { callback := .moved, pending, streamed := true,
    watched := environment.connected }

def watching (environment : Environment Reply) (pending : Pending Reply)
    (world : World Reply) : World Reply :=
  { world with
    watched := environment.connected || world.watched
    pending := some pending.moved }

theorem submitStream_submits (callback : StdFunction) (pending : Pending Reply)
    (world : World Reply) :
    submitStream json family environment callback pending world =
      (submitBackground json family environment
          (streamingTask environment pending) >>=
        fun submitted =>
          if !submitted then do
            clearWatch environment environment.connected
            cancelPending pending.moved
            releasePending pending.moved
            respond callback (errorResponse json serverBusy)
          else respond callback (.ok .stream))
        (watching environment pending world) := by
  unfold submitStream watching streamingTask
  cases environment.connected with
  | false => exact bind_ok rfl
  | true => exact (bind_ok rfl).trans (bind_ok rfl)

variable (json family) in
/-- A continuation turned down: the handler throws. -/
theorem submitStream_rejected (rejects : environment.accepts = false)
    (callback : StdFunction) (pending : Pending Reply) (world : World Reply) :
    ∃ after,
      submitStream json family environment callback pending world =
          (.error badFunctionCall, after) ∧
        after.responses = world.responses ∧ after.queue = world.queue := by
  let released := releaseLease pending.lease
    { watching environment pending world with submission := some false }
  have quiet := releaseLease_quiet pending.lease
    { watching environment pending world with submission := some false }
  have cleared := clearWatch_quietly environment
    environment.connected released
  rcases clearing : clearWatch environment environment.connected released with
    ⟨result, after⟩
  have succeeds : result = .ok () := by
    unfold clearWatch at clearing
    split at clearing
    · exact (congrArg Prod.fst clearing).symm
    · exact (congrArg Prod.fst clearing).symm
  subst succeeds
  rw [clearing] at cleared
  refine ⟨after, ?_, cleared.responses.trans quiet.responses,
    cleared.queue.trans quiet.queue⟩
  rw [submitStream_submits,
    bind_ok (submit_rejected json family _ _ rejects)]
  exact (bind_ok clearing).trans (bind_error rfl)

variable (json family) in
theorem submitStream_accepted (accepts : environment.accepts = true)
    (callback : StdFunction) (pending : Pending Reply) (world : World Reply) :
    ∃ after,
      submitStream json family environment callback pending world =
          respond callback (.ok .stream) after ∧
        after.responses = world.responses ∧ after.submission = some true ∧
        (after.queue = world.queue ∨
          after.queue = world.queue ++ [streamingTask environment pending]) := by
  cases eager : environment.eager with
  | true =>
      have quiet := runTask_quiet json family environment
        (streamingTask environment pending) rfl
        { watching environment pending world with submission := some true }
      refine ⟨_, ?_, quiet.responses, quiet.submission, .inl quiet.queue⟩
      rw [submitStream_submits,
        bind_ok (submit_eager json family _ _ accepts eager)]
      rfl
  | false =>
      refine ⟨{ watching environment pending world with
        submission := some true
        queue := world.queue ++ [streamingTask environment pending] }, ?_, rfl,
        rfl, .inr rfl⟩
      rw [submitStream_submits,
        bind_ok (submit_queued json family _ _ accepts eager)]
      rfl

theorem contract_of_stream {body : Handler Reply Unit} {after : World Reply}
    {pending : Pending Reply}
    (executed : body {} = respond {} (.ok .stream) after)
    (silent : after.responses = []) (submission : after.submission = some true)
    (queue : after.queue = [] ∨
      after.queue = [streamingTask environment pending]) :
    Contract json (serve json family environment body) := by
  obtain ⟨submitted, queued⟩ := respond_keeps {} (.ok .stream) after
  rcases queue with empty | waiting
  · exact (contract_of_direct executed silent empty
      (by rw [submission]; nofun)).mpr rfl
  · obtain ⟨world, responses, submission', served⟩ :=
      serve_queued json family environment
        (show (body {}).2.queue = _ by rw [executed, queued, waiting])
    rw [executed] at responses submission'
    have quiet := runTask_quiet json family environment
      (streamingTask environment pending) rfl world
    rw [served]
    refine (contract_of_response (.ok .stream) silent
      (quiet.responses.trans responses) ?_).mpr rfl
    rw [quiet.submission, submission', submitted, submission]
    nofun

theorem startStream_contract :
    Contract json (serve json family environment
      (startStream json family environment)) ↔
        streamAnswers json family environment = true := by
  have early := perform_early family environment.early ({} : World Reply) rfl
  unfold streamAnswers
  cases start : environment.start with
  | error error =>
      have ends : startStream json family environment {} =
          (.error error, { session := waitFor environment.early {} }) := by
        unfold startStream
        rw [start]
        exact bind_ok early
      simpa using not_contract_of_raise ends rfl rfl
  | ok started =>
      cases started with
      | error error =>
          obtain ⟨after, quiet, rejects⟩ := rejectStart_responds json error
            ({ session := waitFor environment.early {} } : World Reply)
          have ends : startStream json family environment {} =
              respond {} (errorResponse json error) after := by
            unfold startStream
            rw [start]
            exact (bind_ok early).trans rejects
          rw [contract_of_direct ends quiet.responses quiet.queue
            (by rw [quiet.submission]; nofun), errorResponse_isOk]
      | ok pending =>
          have ends : startStream json family environment {} =
              ((callSession family
                  (.setMetadata pending.id pending.created pending.model) >>=
                fun _ => callSession family .setCancelCallback) >>=
                fun _ =>
                  if pending.handle.ready then
                    answerStream json family {} pending
                  else submitStream json family environment {} pending)
                { session := waitFor environment.early {}
                  pending := some pending } := by
            unfold startStream
            rw [start]
            refine (bind_ok early).trans ((bind_ok rfl).trans ((bind_ok rfl).trans
              ((bind_ok rfl).trans ?_)))
            exact bind_nested _ _ _ _
          have quiet := ((callSession_quietly family
            (.setMetadata pending.id pending.created pending.model)).bind
              fun _ => callSession_quietly family .setCancelCallback)
            ({ session := waitFor environment.early {}
               pending := some pending } : World Reply)
          have opened := opening_result family pending
            environment.early
            { session := waitFor environment.early {}, pending := some pending }
            rfl
          dsimp only
          unfold streamable
          cases produced : family.format.tokens pending.header
              (environment.early.filter fun token => !token.isEmpty) with
          | error error =>
              rw [produced] at opened
              obtain ⟨after, failed⟩ := opened
              rw [failed] at quiet
              rw [bind_error failed] at ends
              simpa using
                not_contract_of_raise ends quiet.responses quiet.queue
          | ok result =>
              obtain ⟨header, frames⟩ := result
              rw [produced] at opened
              obtain ⟨after, succeeded, reached⟩ := opened
              rw [succeeded] at quiet
              rw [bind_ok succeeded] at ends
              dsimp only
              cases ready : pending.handle.ready with
              | true =>
                  rw [if_pos ready] at ends
                  obtain ⟨answered, others, answers⟩ :=
                    answerStream_responds json family {}
                      pending after
                  rw [reached] at answers
                  rw [contract_of_direct (ends.trans answers)
                    (others.responses.trans quiet.responses)
                    (others.queue.trans quiet.queue)
                    (by rw [others.submission, quiet.submission]; nofun),
                    streamText_isOk, if_pos rfl]
              | false =>
                  rw [if_neg (by rw [ready]; decide)] at ends
                  rw [if_neg (by decide)]
                  cases accepts : environment.accepts with
                  | false =>
                      obtain ⟨last, thrown, responses, queue⟩ :=
                        submitStream_rejected json family
                          accepts {} pending after
                      rw [thrown] at ends
                      simpa using not_contract_of_raise ends
                        (responses.trans quiet.responses)
                        (queue.trans quiet.queue)
                  | true =>
                      obtain ⟨last, streamed, responses, submission, queue⟩ :=
                        submitStream_accepted json family
                          accepts {} pending after
                      rw [quiet.queue] at queue
                      simpa using contract_of_stream (ends.trans streamed)
                        (responses.trans quiet.responses) submission queue

end Stream

/-- The requests that are answered once, and, their continuation turned down,
cancelled, released and told so: a continuation turned down is none of them. -/
theorem requests_answered (json : JsonLibrary) :
    (∀ environment,
      Contract json (serve json (completionFamily json) environment
        (startNonStreamCompletion json environment)) ↔
      nonStreamAnswers json (completionFamily json) environment = true) ∧
    (∀ environment,
      Contract json (serve json (completionFamily json) environment
        (startStreamCompletion json environment)) ↔
      streamAnswers json (completionFamily json) environment = true) ∧
    (∀ environment,
      Contract json (serve json (extractionFamily json) environment
        (startNonStreamExtraction json environment)) ↔
      nonStreamAnswers json (extractionFamily json) environment = true) ∧
    (∀ environment,
      Contract json (serve json (extractionFamily json) environment
        (startStreamExtraction json environment)) ↔
      streamAnswers json (extractionFamily json) environment = true) ∧
    ∀ environment,
      Contract json (serve json (completionFamily json) environment
        (startAgentChat json environment)) ↔
      nonStreamAnswers json (completionFamily json) environment = true :=
  ⟨fun _ => startNonStream_contract, fun _ => startStream_contract,
    fun _ => startNonStream_contract, fun _ => startStream_contract,
    fun _ => startNonStream_contract⟩

def samplePending : Pending CompletionResult where
  id := literal "chatcmpl-1"
  created := 0
  model := literal "m"
  handle := ⟨false, .ok (.ok { text := literal "hi" })⟩
  onResult := {}
  cancel := {}
  lease := true

/-- A request under way whose continuation is turned down. -/
def saturated : Environment CompletionResult where
  start := .ok (.ok samplePending)
  accepts := false

theorem saturated_unanswered :
    ¬ ((∀ environment,
        Contract asciiJson (serve asciiJson (completionFamily asciiJson)
          environment (startNonStreamCompletion asciiJson environment))) ∧
      (∀ environment,
        Contract asciiJson (serve asciiJson (completionFamily asciiJson)
          environment (startStreamCompletion asciiJson environment))) ∧
      (∀ environment,
        Contract asciiJson (serve asciiJson (extractionFamily asciiJson)
          environment (startNonStreamExtraction asciiJson environment))) ∧
      (∀ environment,
        Contract asciiJson (serve asciiJson (extractionFamily asciiJson)
          environment (startStreamExtraction asciiJson environment))) ∧
      ∀ environment,
        Contract asciiJson (serve asciiJson (completionFamily asciiJson)
          environment (startAgentChat asciiJson environment))) := by
  rintro ⟨claimed, _⟩
  exact absurd (claimed saturated).1 (by decide)

end ZooKeeperServer.Http
