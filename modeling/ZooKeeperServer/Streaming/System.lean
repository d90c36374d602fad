import ZooKeeperServer.Streaming.Session
import ZooKeeperServer.Transition.Machine

namespace ZooKeeperServer.Streaming

/-! One streamed request: the agent that passes tokens, the handler that sets the
metadata and finishes, the transport that attaches its stream, and a disconnect.
Each of them is a thread with the steps it still has to take. -/

inductive Outcome (Reply : Type)
  | success (response : Reply)
  | failure (error : ApiError)

def Outcome.action {Reply : Type} : Outcome Reply → Action Reply
  | .success response => .finishSuccess response
  | .failure error => .finishError error

structure Metadata where
  completionId : StdString
  created : Int
  modelId : StdString

def Metadata.header (metadata : Metadata) : Header :=
  { completionId := metadata.completionId
    created := metadata.created
    modelId := metadata.modelId }

structure System (Reply : Type) where
  core : Core := {}
  agent : List (Action Reply) := []
  handler : List (Action Reply)
  transport : List (Action Reply) := []
  disconnect : List (Action Reply) := []
  /-- The non-empty tokens the agent has passed so far, in order. -/
  pushed : List StdString := []
  /-- What the request ended with, once `finish_*` is called. -/
  outcome : Option (Outcome Reply) := none
  streamGiven : Bool := false
  disconnected : Bool := false
  /-- An exception has left the handler's calls. -/
  aborted : Bool := false

inductive Party
  | agent
  | handler
  | transport
  | disconnect
  deriving DecidableEq

inductive Label (Reply : Type)
  | token (token : StdString)
  | finish (outcome : Outcome Reply)
  | attach
  | disconnect
  | run (party : Party)

section Steps

variable {Reply : Type} (format : Format Reply) (accepts : Nat → Bool)

def System.stack (system : System Reply) : Party → List (Action Reply)
  | .agent => system.agent
  | .handler => system.handler
  | .transport => system.transport
  | .disconnect => system.disconnect

def System.setStack (system : System Reply) (party : Party)
    (stack : List (Action Reply)) : System Reply :=
  match party with
  | .agent => { system with agent := stack }
  | .handler => { system with handler := stack }
  | .transport => { system with transport := stack }
  | .disconnect => { system with disconnect := stack }

/-- An exception unwinds the calls of its thread. -/
def System.abort (system : System Reply) (party : Party) : System Reply :=
  match party with
  | .handler => { system with handler := [], aborted := true }
  | party => system.setStack party []

/-- The agent calls back one token at a time and not once its result is
available, which is when a finish is called. -/
def step (system : System Reply) : Label Reply → Option (System Reply)
  | .token token =>
      if system.agent.isEmpty && system.outcome.isNone then
        some { system with
          agent := [.pushToken token]
          pushed := system.pushed ++ (if token.isEmpty then [] else [token]) }
      else none
  | .finish outcome =>
      if system.handler.isEmpty && system.agent.isEmpty &&
          system.outcome.isNone && !system.aborted then
        some { system with handler := [outcome.action], outcome := some outcome }
      else none
  | .attach =>
      if system.streamGiven then none
      else some { system with transport := [.attachStream], streamGiven := true }
  | .disconnect =>
      if system.disconnected then none
      else some { system with disconnect := [.close], disconnected := true }
  | .run party =>
      match system.stack party with
      | [] => none
      | action :: rest =>
          match action.exec format accepts system.core with
          | .ok (next, core) =>
              some { system.setStack party (next ++ rest) with core }
          | .error _ => some (system.abort party)

def initial (metadata : Metadata) : System Reply :=
  { handler :=
      [.setMetadata metadata.completionId metadata.created metadata.modelId,
        .setCancelCallback] }

def System.replaying (system : System Reply) : Bool :=
  system.handler.any fun action =>
    match action with
    | .pushToken _ => true
    | _ => false

def System.pushesLive (system : System Reply) : Bool :=
  system.core.session.metadataReady &&
    match system.agent with
    | .pushToken token :: _ => !token.isEmpty
    | _ => false

/-- The token that a thread is about to push past the gate can be serialised. -/
def System.serialisesToken (system : System Reply) (party : Party) : Bool :=
  match system.stack party with
  | .pushToken token :: _ =>
      token.isEmpty || !system.core.session.metadataReady ||
        (format.token system.core.session.header token).isOk
  | _ => true

/-- The condition on a step: no live token overtakes the replay, and the token
pushed can be serialised. -/
def TokenCalm (system : System Reply) : Label Reply → Prop
  | .run party =>
      (party = .agent → system.pushesLive = true →
        system.replaying = false) ∧
      system.serialisesToken format party = true
  | _ => True

instance (system : System Reply) :
    (label : Label Reply) → Decidable (TokenCalm format system label)
  | .run _ => inferInstanceAs (Decidable (_ ∧ _))
  | .token _ => .isTrue trivial
  | .finish _ => .isTrue trivial
  | .attach => .isTrue trivial
  | .disconnect => .isTrue trivial

end Steps

section Results

variable {Reply : Type} {format : Format Reply} {accepts : Nat → Bool}
  {core after : Core} {next : List (Action Reply)}

theorem pushToken_empty {token : StdString}
    (executed : (Action.pushToken token).exec format accepts core =
      .ok (next, after))
    (empty : token.isEmpty = true) : next = [] ∧ after = core := by
  simp only [Action.exec, pushTokenLocked, empty, if_true] at executed
  cases executed
  exact ⟨rfl, rfl⟩

theorem pushToken_closed {token : StdString}
    (executed : (Action.pushToken token).exec format accepts core =
      .ok (next, after))
    (nonempty : token.isEmpty = false)
    (closed : core.session.metadataReady = false) :
    next = [] ∧ after = { core with session := { core.session with
      pendingTokens := core.session.pendingTokens ++ [token] } } := by
  have locked : pushTokenLocked format accepts token core = .ok (next, after) :=
    executed
  rw [pushTokenLocked, if_neg (Bool.eq_false_iff.mp nonempty),
    if_pos (by rw [closed]; rfl)] at locked
  cases locked
  exact ⟨rfl, rfl⟩

theorem pushToken_open {token : StdString}
    (executed : (Action.pushToken token).exec format accepts core =
      .ok (next, after))
    (nonempty : token.isEmpty = false)
    (opened : core.session.metadataReady = true) :
    ∃ header frame,
      format.token core.session.header token = .ok (header, frame) ∧
      next =
        executeDeferred
            (pushFrameLocked accepts frame (core.recordToken header frame)).1 ++
          (if (pushFrameLocked accepts frame
              (core.recordToken header frame)).1.shouldClose
            then [.close] else []) ∧
      after =
        (pushFrameLocked accepts frame (core.recordToken header frame)).2 := by
  have locked : pushTokenLocked format accepts token core = .ok (next, after) :=
    executed
  rw [pushTokenLocked, if_neg (Bool.eq_false_iff.mp nonempty),
    if_neg (by rw [opened]; decide)] at locked
  cases made : format.token core.session.header token with
  | error error =>
      rw [made] at locked
      contradiction
  | ok result =>
      obtain ⟨header, frame⟩ := result
      rw [made] at locked
      let pushed :=
        pushFrameLocked accepts frame (core.recordToken header frame)
      have result : (executeDeferred pushed.1 ++
          (if pushed.1.shouldClose then [.close] else []), pushed.2) =
          (next, after) := Except.ok.inj locked
      obtain ⟨rfl, rfl⟩ := Prod.mk.inj result
      exact ⟨header, frame, rfl, rfl, rfl⟩

def Format.conclusion (format : Format Reply) (header : Header) :
    Outcome Reply → Except StdException (Header × List StdString)
  | .success response => format.success header response
  | .failure error => format.failure header error

theorem Outcome.action_exec (outcome : Outcome Reply) :
    outcome.action.exec format accepts core =
      finishLocked accepts core
        (format.conclusion core.session.header outcome) := by
  cases outcome with
  | success response => rfl
  | failure error => rfl

theorem finish_result {outcome : Outcome Reply}
    (executed : outcome.action.exec format accepts core = .ok (next, after)) :
    ∃ header frames,
      format.conclusion core.session.header outcome = .ok (header, frames) ∧
      next =
        (pushFramesLocked accepts frames (core.setHeader header)).1.flatMap
            executeDeferred ++ [.close] ∧
      after =
        (pushFramesLocked accepts frames (core.setHeader header)).2 := by
  rw [outcome.action_exec] at executed
  cases made : format.conclusion core.session.header outcome with
  | error error =>
      rw [made] at executed
      contradiction
  | ok result =>
      obtain ⟨header, frames⟩ := result
      rw [made] at executed
      let pushed := pushFramesLocked accepts frames (core.setHeader header)
      have result : (pushed.1.flatMap executeDeferred ++ [.close], pushed.2) =
          (next, after) := Except.ok.inj executed
      obtain ⟨rfl, rfl⟩ := Prod.mk.inj result
      exact ⟨header, frames, rfl, rfl, rfl⟩

theorem finish_fails (outcome : Outcome Reply) {error : StdException}
    (failed : outcome.action.exec format accepts core = .error error) :
    format.conclusion core.session.header outcome = .error error := by
  rw [outcome.action_exec] at failed
  cases made : format.conclusion core.session.header outcome with
  | error other =>
      rw [made] at failed
      exact congrArg Except.error (Except.error.inj failed)
  | ok result =>
      rw [made] at failed
      contradiction

/-- Only the frames of a token or of a finish can raise an exception. -/
theorem exec_error {action : Action Reply} {error : StdException}
    (failed : action.exec format accepts core = .error error) :
    (∃ token, action = .pushToken token ∧ token.isEmpty = false ∧
        core.session.metadataReady = true ∧
        format.token core.session.header token = .error error) ∨
      ∃ outcome : Outcome Reply, action = outcome.action ∧
        format.conclusion core.session.header outcome = .error error := by
  cases action with
  | finishSuccess response =>
      exact .inr ⟨.success response, rfl, finish_fails (.success response) failed⟩
  | finishError reported =>
      exact .inr ⟨.failure reported, rfl, finish_fails (.failure reported) failed⟩
  | pushToken token =>
      have locked : pushTokenLocked format accepts token core = .error error :=
        failed
      unfold pushTokenLocked at locked
      split at locked
      · contradiction
      · rename_i nonempty
        split at locked
        · contradiction
        · rename_i opened
          refine .inl ⟨token, rfl, by simpa using nonempty,
            by simpa using opened, ?_⟩
          cases made : format.token core.session.header token with
          | error other =>
              rw [made] at locked
              exact congrArg Except.error (Except.error.inj locked)
          | ok result =>
              rw [made] at locked
              contradiction
  | _ => contradiction

def System.proceed (system : System Reply) (party : Party)
    (stack : List (Action Reply)) (core : Core) : System Reply :=
  { system.setStack party stack with core }

section After

variable (system : System Reply) (party : Party) (stack : List (Action Reply))
  (core : Core)

@[simp] theorem System.proceed_core : (system.proceed party stack core).core = core :=
  rfl

@[simp] theorem System.proceed_outcome :
    (system.proceed party stack core).outcome = system.outcome := by
  cases party <;> rfl

@[simp] theorem System.proceed_pushed :
    (system.proceed party stack core).pushed = system.pushed := by
  cases party <;> rfl

@[simp] theorem System.proceed_streamGiven :
    (system.proceed party stack core).streamGiven = system.streamGiven := by
  cases party <;> rfl

@[simp] theorem System.proceed_disconnected :
    (system.proceed party stack core).disconnected = system.disconnected := by
  cases party <;> rfl

@[simp] theorem System.proceed_aborted :
    (system.proceed party stack core).aborted = system.aborted := by
  cases party <;> rfl

@[simp] theorem System.proceed_stack (other : Party) :
    (system.proceed party stack core).stack other =
      if other = party then stack else system.stack other := by
  cases party <;> cases other <;> rfl

end After

inductive Stepped (format : Format Reply) (accepts : Nat → Bool)
    (system : System Reply) : Label Reply → System Reply → Prop
  | token (token : StdString) (idle : system.agent = [])
      (unfinished : system.outcome = none) :
      Stepped format accepts system (.token token) { system with
        agent := [.pushToken token]
        pushed := system.pushed ++ (if token.isEmpty then [] else [token]) }
  | finish (outcome : Outcome Reply) (stopped : system.handler = [])
      (idle : system.agent = []) (unfinished : system.outcome = none)
      (going : system.aborted = false) :
      Stepped format accepts system (.finish outcome) { system with
        handler := [outcome.action]
        outcome := some outcome }
  | attach (first : system.streamGiven = false) :
      Stepped format accepts system .attach { system with
        transport := [.attachStream]
        streamGiven := true }
  | disconnect (first : system.disconnected = false) :
      Stepped format accepts system .disconnect { system with
        disconnect := [.close]
        disconnected := true }
  | run (party : Party) {action : Action Reply}
      {rest following : List (Action Reply)} {core : Core}
      (stack : system.stack party = action :: rest)
      (executed : action.exec format accepts system.core =
        .ok (following, core)) :
      Stepped format accepts system (.run party)
        (system.proceed party (following ++ rest) core)
  | abort (party : Party) {action : Action Reply} {rest : List (Action Reply)}
      {error : StdException}
      (stack : system.stack party = action :: rest)
      (failed : action.exec format accepts system.core = .error error) :
      Stepped format accepts system (.run party) (system.abort party)

theorem step_stepped {system final : System Reply} {label : Label Reply}
    (stepped : step format accepts system label = some final) :
    Stepped format accepts system label final := by
  cases label with
  | token token =>
      simp only [step] at stepped
      split at stepped
      · rename_i enabled
        simp only [Bool.and_eq_true, List.isEmpty_iff,
          Option.isNone_iff_eq_none] at enabled
        cases stepped
        exact .token token enabled.1 enabled.2
      · contradiction
  | finish outcome =>
      simp only [step] at stepped
      split at stepped
      · rename_i enabled
        simp only [Bool.and_eq_true, List.isEmpty_iff,
          Option.isNone_iff_eq_none, Bool.not_eq_true'] at enabled
        obtain ⟨⟨⟨stopped, idle⟩, unfinished⟩, going⟩ := enabled
        cases stepped
        exact .finish outcome stopped idle unfinished going
      · contradiction
  | attach =>
      simp only [step] at stepped
      split at stepped
      · contradiction
      · rename_i first
        cases stepped
        exact .attach (by simpa using first)
  | disconnect =>
      simp only [step] at stepped
      split at stepped
      · contradiction
      · rename_i first
        cases stepped
        exact .disconnect (by simpa using first)
  | run party =>
      simp only [step] at stepped
      split at stepped
      · contradiction
      · rename_i action rest stack
        split at stepped
        · rename_i executed
          cases stepped
          exact .run party stack executed
        · rename_i failed
          cases stepped
          exact .abort party stack failed

end Results

end ZooKeeperServer.Streaming
