import ZooKeeperServer.Containers.Weave
import ZooKeeperServer.Streaming.ReadBack

namespace ZooKeeperServer.Streaming

open Transition Containers

/-! What a live token can do that overtakes the replay of `set_metadata`: the tokens
are not in the order they were passed in, but nothing else goes wrong. -/

section Condition

variable {Reply : Type} (format : Format Reply)

/-- The condition on a step: whatever is pushed can be serialised. -/
def Serialises (system : System Reply) : Label Reply → Prop
  | .run party =>
      system.serialisesToken format party = true ∧
        (party = .handler → system.serialisesFinish format = true)
  | _ => True

instance (system : System Reply) :
    (label : Label Reply) → Decidable (Serialises format system label)
  | .run _ => inferInstanceAs (Decidable (_ ∧ _))
  | .token _ => .isTrue trivial
  | .finish _ => .isTrue trivial
  | .attach => .isTrue trivial
  | .disconnect => .isTrue trivial

theorem Serialises.calm {format : Format Reply} {system : System Reply}
    {label : Label Reply} (serialises : Serialises format system label)
    (behind : label = .run .agent → system.pushesLive = true →
      system.replaying = false) : Calm format system label := by
  cases label with
  | run party =>
      refine ⟨⟨fun same => behind (congrArg Label.run same), serialises.1⟩, ?_⟩
      cases party with
      | handler => exact serialises.2 rfl
      | _ => trivial
  | _ => exact ⟨trivial, trivial⟩

end Condition

section Tokens

variable {Reply : Type} {format : Format Reply} {metadata : Metadata}
  {accepts : Nat → Bool} {core after : Core}
  {agent handler next rest : List (Action Reply)} {action : Action Reply}
  {order : List StdString} {aborted : Bool} {outcome : Option (Outcome Reply)}

def early (core : Core) (handler : List (Action Reply)) : List StdString :=
  core.session.pendingTokens ++ inFlight handler

/-- What a step that opens no gate and pushes no live token does to the tokens on
their way. -/
inductive Moves (core : Core) (agent handler : List (Action Reply)) (after : Core)
    (nextAgent nextHandler : List (Action Reply)) : Prop
  | still (gate : after.session.metadataReady = core.session.metadataReady)
      (behind : early after nextHandler = early core handler)
      (passing : inFlight nextAgent = inFlight agent)
  | buffered (token : StdString)
      (closed : core.session.metadataReady = false)
      (gate : after.session.metadataReady = core.session.metadataReady)
      (behind : early after nextHandler = early core handler ++ [token])
      (passing : inFlight agent = token :: inFlight nextAgent)
  | replayed (token : StdString)
      (opened : core.session.metadataReady = true)
      (gate : after.session.metadataReady = core.session.metadataReady)
      (behind : early core handler = token :: early after nextHandler)
      (passing : inFlight nextAgent = inFlight agent)

theorem Progress.drained
    (progress : Progress format metadata core agent handler order aborted outcome)
    (opened : core.session.metadataReady = true) :
    core.session.pendingTokens = [] := by
  cases progress with
  | opening closed =>
      rw [closed] at opened
      cases opened
  | streaming produced streamed => exact streamed.drained
  | finishing outcome streamed => exact streamed.drained
  | concluded outcome header frames drained => exact drained
  | failed outcome error streamed => exact streamed.drained

/-- While the gate is closed and the agent runs, the handler has not begun. -/
theorem Progress.unopened
    (progress : Progress format metadata core (action :: rest) handler order aborted
      outcome)
    (closed : core.session.metadataReady = false) : inFlight handler = [] := by
  cases progress with
  | opening _ fresh frames tokenFrames nonempty calls opens =>
      rw [opens]
      rfl
  | streaming produced streamed =>
      rw [streamed.opened] at closed
      cases closed
  | finishing outcome streamed idle => contradiction
  | concluded outcome header frames drained idle => contradiction
  | failed outcome error streamed idle => contradiction

theorem Progress.movesAgent
    (progress : Progress format metadata core (action :: rest) handler order aborted
      outcome)
    (executed : action.exec format accepts core = .ok (next, after))
    (behind : ∀ token, action = .pushToken token → token.isEmpty = false →
      core.session.metadataReady = false) :
    Moves core (action :: rest) handler after (next ++ rest) handler := by
  rcases action.quiet_cases (progress.agentQuiet action (by simp)) with
    ⟨token, rfl⟩ | neutral
  · cases empty : token.isEmpty with
    | true =>
        obtain ⟨rfl, rfl⟩ := pushToken_empty executed empty
        exact .still rfl rfl (inFlight_push_empty rest empty).symm
    | false =>
        have closed := behind token rfl empty
        obtain ⟨rfl, rfl⟩ := pushToken_closed executed empty closed
        refine .buffered token closed rfl ?_ (inFlight_push rest empty)
        simp [early, progress.unopened closed]
  · obtain ⟨same, _, tails⟩ := exec_neutral executed neutral
    refine .still same.ready (by rw [early, same.pending, early]) ?_
    rw [inFlight_append, inFlight_tails tails, List.nil_append,
      inFlight_neutral rest neutral]

theorem Progress.movesHandler
    (progress : Progress format metadata core agent (action :: rest) order aborted
      outcome)
    (executed : action.exec format accepts core = .ok (next, after))
    (later : ∀ completionId created modelId,
      action ≠ .setMetadata completionId created modelId) :
    Moves core agent (action :: rest) after agent (next ++ rest) := by
  have skipped (neutral : action.isNeutral = true) :
      Moves core agent (action :: rest) after agent (next ++ rest) := by
    obtain ⟨same, _, tails⟩ := exec_neutral executed neutral
    refine .still same.ready ?_ rfl
    rw [early, early, same.pending, inFlight_append, inFlight_tails tails,
      List.nil_append, inFlight_neutral rest neutral]
  cases progress with
  | opening closed fresh frames tokenFrames nonempty calls opens =>
      exact absurd (List.cons.inj opens).1 (later _ _ _)
  | streaming produced streamed calls replays =>
      rcases action.quiet_cases (replays action (by simp)) with
        ⟨token, rfl⟩ | neutral
      · cases empty : token.isEmpty with
        | true =>
            obtain ⟨rfl, rfl⟩ := pushToken_empty executed empty
            refine .still rfl ?_ rfl
            rw [early, early, inFlight_push_empty rest empty]
            rfl
        | false =>
            obtain ⟨frame, _, ready, pending, _, _, tails⟩ :=
              pushToken_produces executed empty streamed.opened
            refine .replayed token streamed.opened ready ?_ rfl
            rw [early, early, pending, streamed.drained, inFlight_append,
              inFlight_tails tails, inFlight_push rest empty]
            rfl
      · exact skipped neutral
  | finishing finished streamed idle finishes =>
      obtain ⟨rfl, rfl⟩ := List.cons.inj finishes
      obtain ⟨frames, _, ready, pending, _, _, tails⟩ := finish_concludes executed
      refine .still ready ?_ rfl
      have finishing : inFlight [finished.action] = [] := by
        cases finished <;> rfl
      rw [early, early, pending, finishing, List.append_nil, inFlight_tails tails]
  | concluded finished header frames drained idle tails =>
      exact skipped (action.neutral_of_tail (tails action (by simp)))
  | failed finished error streamed idle stopped => contradiction

theorem Progress.opens {completionId modelId : StdString} {created : Int}
    (progress : Progress format metadata core agent
      (.setMetadata completionId created modelId :: rest) order aborted outcome)
    (executed : (Action.setMetadata completionId created modelId).exec format accepts
      core = .ok (next, after)) :
    core.session.metadataReady = false ∧ after.session.metadataReady = true ∧
      early core (.setMetadata completionId created modelId :: rest) =
        core.session.pendingTokens ∧
      early after (next ++ rest) = core.session.pendingTokens := by
  cases progress with
  | opening closed fresh frames tokenFrames nonempty calls opens =>
      obtain ⟨same, rfl⟩ := List.cons.inj opens
      cases same
      cases executed
      refine ⟨closed, rfl, List.append_nil _, ?_⟩
      show inFlight (core.session.pendingTokens.map Action.pushToken ++
        [(Action.setCancelCallback : Action Reply)]) = core.session.pendingTokens
      rw [inFlight_append, inFlight_pushes nonempty]
      exact List.append_nil _
  | streaming produced streamed calls replays =>
      cases replays _ List.mem_cons_self
  | finishing finished streamed idle finishes =>
      cases finished with
      | _ => cases (List.cons.inj finishes).1
  | concluded finished header frames drained idle tails =>
      cases tails _ List.mem_cons_self
  | failed finished error streamed idle stopped => contradiction

/-- A live token becomes a frame, ahead of the tokens that are still to be
replayed. -/
theorem Progress.overtake {token : StdString} {produced : List StdString}
    (progress : Progress format metadata core (.pushToken token :: rest) handler
      (produced ++ early core handler ++ inFlight (.pushToken token :: rest)) aborted
      outcome)
    (nonempty : token.isEmpty = false)
    (opened : core.session.metadataReady = true)
    (executed : (Action.pushToken token).exec format accepts core =
      .ok (next, after)) :
    early after handler = early core handler ∧
      inFlight (next ++ rest) = inFlight rest ∧
      Progress format metadata after (next ++ rest) handler
        (produced ++ [token] ++ early core handler ++ inFlight rest) aborted
        outcome := by
  obtain ⟨frame, _, _, pending, _, _, tails⟩ :=
    pushToken_produces executed nonempty opened
  have passing : inFlight (next ++ rest) = inFlight rest := by
    rw [inFlight_append, inFlight_tails tails, List.nil_append]
  refine ⟨by rw [early, early, pending], passing, ?_⟩
  have drained := progress.drained opened
  cases progress with
  | opening closed =>
      rw [closed] at opened
      cases opened
  | finishing outcome streamed idle => contradiction
  | concluded outcome header frames drained idle => contradiction
  | failed outcome error streamed idle => contradiction
  | streaming made streamed calls replays order =>
      rw [early, drained, List.nil_append] at order ⊢
      have same : produced = made :=
        List.append_cancel_right (List.append_cancel_right order)
      subst same
      obtain ⟨streamed, tails⟩ := streamed.push executed nonempty
      have others : ∀ following ∈ rest, following.isQuiet = true :=
        fun following member => calls following (List.mem_cons_of_mem _ member)
      exact .streaming (produced ++ [token]) streamed (quiet_of_tails tails others)
        replays (by rw [passing])

end Tokens

section Runs

variable {Reply : Type} {format : Format Reply} {accepts : Nat → Bool}
  {metadata : Metadata} {system next : System Reply} {label : Label Reply}
  {swapped : Option (List StdString)} {replayed live produced : List StdString}

/-- The tokens that became frames, then those behind the gate, then those the agent
is about to push. -/
def System.order (system : System Reply) (produced : List StdString) :
    List StdString :=
  produced ++ early system.core system.handler ++ inFlight system.agent

/-- The tokens that `set_metadata` has swapped out, once it has. -/
def System.swaps (system : System Reply) (label : Label Reply)
    (swapped : Option (List StdString)) : Option (List StdString) :=
  match label, system.handler with
  | .run .handler, .setMetadata _ _ _ :: _ =>
      some system.core.session.pendingTokens
  | _, _ => swapped

/-- The frames are those of replayed and of live tokens, woven together; in the order
of the frames the request has gone as it would have without overtaking. -/
structure Woven (format : Format Reply) (metadata : Metadata)
    (swapped : Option (List StdString)) (replayed live produced : List StdString)
    (system : System Reply) : Prop where
  weave : Weave replayed live produced
  pushed : system.pushed =
    replayed ++ early system.core system.handler ++ live ++ inFlight system.agent
  waits : swapped = none → system.core.session.metadataReady = false ∧
    replayed = [] ∧ live = []
  replays : ∀ tokens, swapped = some tokens →
    system.core.session.metadataReady = true ∧
      tokens = replayed ++ early system.core system.handler
  delivery : Delivery format metadata (system.relayed (system.order produced))

theorem Woven.atStart (format : Format Reply) (metadata : Metadata) :
    Woven format metadata none [] [] [] (initial metadata) where
  weave := .done
  pushed := rfl
  waits _ := ⟨rfl, rfl, rfl⟩
  replays _ swapped := by cases swapped
  delivery := Delivery.atStart format metadata

/-- A step does not look at the tokens that have been passed. -/
theorem step_relayed (order : List StdString)
    (stepped : step format accepts system label = some next)
    (other : ∀ token, label ≠ .token token) :
    step format accepts (system.relayed order) label = some (next.relayed order) := by
  cases label with
  | token token => exact absurd rfl (other token)
  | finish outcome =>
      simp only [step] at stepped ⊢
      split at stepped
      · rename_i enabled
        cases stepped
        exact if_pos enabled
      · cases stepped
  | attach =>
      simp only [step] at stepped ⊢
      split at stepped
      · cases stepped
      · rename_i first
        cases stepped
        exact if_neg first
  | disconnect =>
      simp only [step] at stepped ⊢
      split at stepped
      · cases stepped
      · rename_i first
        cases stepped
        exact if_neg first
  | run party =>
      simp only [step, System.relayed_stack, System.relayed_core] at stepped ⊢
      cases stack : system.stack party with
      | nil =>
          rw [stack] at stepped
          cases stepped
      | cons action rest =>
          rw [stack] at stepped
          cases executed : action.exec format accepts system.core with
          | ok result =>
              simp only [executed, Option.some.injEq] at stepped ⊢
              subst stepped
              cases party <;> rfl
          | error raised =>
              simp only [executed, Option.some.injEq] at stepped ⊢
              subst stepped
              cases party <;> rfl

theorem exec_opened {action : Action Reply} {core after : Core}
    {following : List (Action Reply)}
    (executed : action.exec format accepts core = .ok (following, after))
    (opened : core.session.metadataReady = true) :
    after.session.metadataReady = true := by
  have finished {outcome : Outcome Reply}
      (executed : outcome.action.exec format accepts core = .ok (following, after)) :
      after.session.metadataReady = true := by
    obtain ⟨_, _, ready, _⟩ := finish_concludes executed
    exact ready.trans opened
  cases action with
  | setMetadata completionId created modelId =>
      cases executed
      rfl
  | pushToken token =>
      cases empty : token.isEmpty with
      | true =>
          obtain ⟨_, rfl⟩ := pushToken_empty executed empty
          exact opened
      | false =>
          obtain ⟨_, _, ready, _⟩ := pushToken_produces executed empty opened
          exact ready.trans opened
  | finishSuccess response =>
      have executed : (Outcome.success response).action.exec format accepts core =
        .ok (following, after) := executed
      exact finished executed
  | finishError error =>
      have executed : (Outcome.failure error).action.exec format accepts core =
        .ok (following, after) := executed
      exact finished executed
  | _ =>
      obtain ⟨same, _⟩ := exec_neutral executed rfl
      exact same.ready.trans opened

theorem Woven.closed
    (woven : Woven format metadata swapped replayed live produced system)
    (closed : system.core.session.metadataReady = false) :
    swapped = none ∧ replayed = [] ∧ live = [] := by
  cases swapped with
  | none => exact ⟨rfl, (woven.waits rfl).2⟩
  | some tokens =>
      rw [(woven.replays tokens rfl).1] at closed
      cases closed

theorem Woven.moves
    (woven : Woven format metadata swapped replayed live produced system)
    (moves : Moves system.core system.agent system.handler next.core next.agent
      next.handler)
    (pushed : next.pushed = system.pushed)
    (delivery : Delivery format metadata
      (next.relayed (system.order produced))) :
    ∃ replayed live produced,
      Woven format metadata swapped replayed live produced next := by
  cases moves with
  | still gate behind passing =>
      refine ⟨replayed, live, produced, woven.weave, ?_, ?_, ?_, ?_⟩
      · rw [pushed, woven.pushed, behind, passing]
      · rw [gate]
        exact woven.waits
      · rw [gate, behind]
        exact woven.replays
      · rwa [System.order, behind, passing]
  | buffered token shut gate behind passing =>
      obtain ⟨rfl, rfl, rfl⟩ := woven.closed shut
      refine ⟨[], [], produced, woven.weave, ?_, ?_, by simp, ?_⟩
      · rw [pushed, woven.pushed, behind, passing]
        simp
      · rw [gate]
        exact woven.waits
      · have same : next.order produced = system.order produced := by
          simp [System.order, behind, passing]
        rwa [same]
  | replayed token opened gate behind passing =>
      refine ⟨replayed ++ [token], live, produced ++ [token], ?_, ?_, ?_, ?_, ?_⟩
      · simpa using woven.weave.append (.left_only [token])
      · rw [pushed, woven.pushed, behind, passing]
        simp
      · intro unswapped
        rw [(woven.waits unswapped).1] at opened
        cases opened
      · intro tokens swapped
        obtain ⟨-, rfl⟩ := woven.replays tokens swapped
        exact ⟨gate.trans opened, by simp [behind]⟩
      · have same : next.order (produced ++ [token]) = system.order produced := by
          simp [System.order, behind, passing]
        rwa [same]

theorem Woven.opens
    (woven : Woven format metadata swapped replayed live produced system)
    {completionId modelId : StdString} {created : Int}
    {rest following : List (Action Reply)} {core : Core}
    (stack : system.handler = .setMetadata completionId created modelId :: rest)
    (executed : (Action.setMetadata completionId created modelId).exec format accepts
      system.core = .ok (following, core))
    (delivery : Delivery format metadata
      ((system.proceed .handler (following ++ rest) core).relayed
        (system.order produced))) :
    Woven format metadata (some system.core.session.pendingTokens) replayed live
      produced (system.proceed .handler (following ++ rest) core) := by
  have progress := woven.delivery.ordered.progress
  simp only [System.relayed, stack] at progress
  obtain ⟨closed, opened, before, after⟩ := progress.opens executed
  obtain ⟨-, rfl, rfl⟩ := woven.closed closed
  have behind : early core (following ++ rest) =
      early system.core system.handler := by
    rw [stack, before, after]
  refine ⟨woven.weave, ?_, by simp, ?_, ?_⟩
  · show system.pushed = [] ++ early core (following ++ rest) ++ [] ++
      inFlight system.agent
    rw [behind]
    exact woven.pushed
  · intro tokens swapped
    obtain rfl := Option.some.inj swapped
    exact ⟨opened, after.symm⟩
  · show Delivery format metadata
      ((system.proceed .handler (following ++ rest) core).relayed
        (produced ++ early core (following ++ rest) ++ inFlight system.agent))
    rw [behind]
    exact delivery

theorem Woven.overtake (woven : Woven format metadata swapped replayed live produced system)
    {token : StdString} {rest following : List (Action Reply)} {core : Core}
    (stack : system.agent = .pushToken token :: rest)
    (nonempty : token.isEmpty = false)
    (opened : system.core.session.metadataReady = true)
    (executed : (Action.pushToken token).exec format accepts system.core =
      .ok (following, core)) :
    Woven format metadata swapped replayed (live ++ [token]) (produced ++ [token])
      (system.proceed .agent (following ++ rest) core) := by
  obtain ⟨progress, transport, disconnect⟩ := woven.delivery.ordered
  have here : system.agent = _ := stack
  simp only [System.relayed, System.order, here] at progress
  obtain ⟨behind, passing, progress⟩ := progress.overtake nonempty opened executed
  have order : (system.proceed .agent (following ++ rest) core).order
      (produced ++ [token]) =
        produced ++ [token] ++ early system.core system.handler ++ inFlight rest := by
    show produced ++ [token] ++ early core system.handler ++
      inFlight (following ++ rest) = _
    rw [behind, passing]
  have still : core.session.metadataReady = true := exec_opened executed opened
  refine ⟨?_, ?_, ?_, ?_, ?_⟩
  · simpa using woven.weave.append (.right_only [token])
  · show system.pushed = replayed ++ early core system.handler ++ (live ++ [token]) ++
      inFlight (following ++ rest)
    rw [woven.pushed, behind, passing, here, inFlight_push rest nonempty]
    simp
  · intro unswapped
    rw [(woven.waits unswapped).1] at opened
    cases opened
  · intro tokens taken
    refine ⟨still, ?_⟩
    show tokens = replayed ++ early core system.handler
    rw [behind]
    exact (woven.replays tokens taken).2
  · rw [order]
    have ordered : Ordered format metadata
        (((system.relayed (system.order produced)).proceed .agent (following ++ rest)
          core).relayed
          (produced ++ [token] ++ early system.core system.handler ++
            inFlight rest)) := ⟨progress, transport, disconnect⟩
    exact woven.delivery.runRelayed ordered stack executed

theorem System.pushesLive_iff : system.pushesLive = true ↔
    system.core.session.metadataReady = true ∧
      ∃ token rest, system.agent = .pushToken token :: rest ∧
        token.isEmpty = false := by
  unfold System.pushesLive
  rw [Bool.and_eq_true]
  refine and_congr_right fun _ => ?_
  constructor
  · intro pushes
    split at pushes
    · rename_i token rest stack
      exact ⟨token, rest, stack, by simpa using pushes⟩
    · cases pushes
  · rintro ⟨token, rest, stack, nonempty⟩
    rw [stack]
    simp [nonempty]

theorem System.swaps_of_other {action : Action Reply} {rest : List (Action Reply)}
    (here : system.handler = action :: rest)
    (later : ∀ completionId created modelId,
      action ≠ .setMetadata completionId created modelId) :
    system.swaps (.run .handler) swapped = swapped := by
  unfold System.swaps
  rw [here]
  cases action with
  | setMetadata completionId created modelId => exact absurd rfl (later _ _ _)
  | _ => rfl

theorem Woven.runHandler
    (woven : Woven format metadata swapped replayed live produced system)
    {action : Action Reply} {rest following : List (Action Reply)} {core : Core}
    (here : system.handler = action :: rest)
    (executed : action.exec format accepts system.core = .ok (following, core))
    (delivery : Delivery format metadata
      ((system.proceed .handler (following ++ rest) core).relayed
        (system.order produced))) :
    ∃ replayed live produced,
      Woven format metadata (system.swaps (.run .handler) swapped) replayed live
        produced (system.proceed .handler (following ++ rest) core) := by
  obtain ⟨progress, -, -⟩ := woven.delivery.ordered
  by_cases swaps : ∃ completionId created modelId,
      action = .setMetadata completionId created modelId
  · obtain ⟨completionId, created, modelId, rfl⟩ := swaps
    refine ⟨replayed, live, produced, ?_⟩
    unfold System.swaps
    rw [here]
    exact woven.opens here executed delivery
  · have later : ∀ completionId created modelId,
        action ≠ .setMetadata completionId created modelId :=
      fun completionId created modelId same =>
        swaps ⟨completionId, created, modelId, same⟩
    rw [System.swaps_of_other here later]
    refine woven.moves ?_ rfl delivery
    simp only [System.relayed, here] at progress
    rw [here]
    exact progress.movesHandler executed later

theorem Woven.run (woven : Woven format metadata swapped replayed live produced system)
    {party : Party} {action : Action Reply} {rest following : List (Action Reply)}
    {core : Core} (serialises : Serialises format system (.run party))
    (stack : system.stack party = action :: rest)
    (executed : action.exec format accepts system.core = .ok (following, core))
    (stepped : step format accepts system (.run party) =
      some (system.proceed party (following ++ rest) core)) :
    ∃ replayed live produced,
      Woven format metadata (system.swaps (.run party) swapped) replayed live produced
        (system.proceed party (following ++ rest) core) := by
  by_cases overtakes : party = .agent ∧ system.pushesLive = true
  · obtain ⟨rfl, pushes⟩ := overtakes
    obtain ⟨opened, token, others, agent, nonempty⟩ :=
      System.pushesLive_iff.mp pushes
    obtain ⟨rfl, rfl⟩ := List.cons.inj (stack.symm.trans agent)
    exact ⟨_, _, _, woven.overtake agent nonempty opened executed⟩
  have calm : Calm format system (.run party) := by
    refine serialises.calm fun same pushes => absurd ⟨?_, pushes⟩ overtakes
    exact Label.run.inj same
  have relayed : Calm format (system.relayed (system.order produced)) (.run party) := by
    cases party <;> exact calm
  have delivery := woven.delivery.advance relayed
    (step_relayed (system.order produced) stepped (by simp))
  obtain ⟨progress, transport, disconnect⟩ := woven.delivery.ordered
  cases party with
  | agent =>
      have here : system.agent = _ := stack
      refine woven.moves ?_ rfl delivery
      simp only [System.relayed, here] at progress
      have moves := progress.movesAgent executed ?_
      · rw [here]
        exact moves
      · rintro token rfl nonempty
        refine Bool.eq_false_iff.mpr fun open_ => overtakes ⟨rfl, ?_⟩
        exact System.pushesLive_iff.mpr ⟨open_, token, rest, here, nonempty⟩
  | handler =>
      have here : system.handler = _ := stack
      exact woven.runHandler here executed delivery
  | transport =>
      have here : system.transport = _ := stack
      obtain ⟨same, _⟩ := exec_neutral executed
        (transport action (by simp [System.relayed, here]))
      refine woven.moves (.still same.ready ?_ rfl) rfl delivery
      show early core system.handler = early system.core system.handler
      rw [early, early, same.pending]
  | disconnect =>
      have here : system.disconnect = _ := stack
      obtain ⟨same, _⟩ := exec_neutral executed
        (Action.neutral_of_tail
          (disconnect action (by simp [System.relayed, here])))
      refine woven.moves (.still same.ready ?_ rfl) rfl delivery
      show early core system.handler = early system.core system.handler
      rw [early, early, same.pending]

theorem Woven.token (woven : Woven format metadata swapped replayed live produced system)
    {token : StdString} (idle : system.agent = []) (unfinished : system.outcome = none) :
    Woven format metadata swapped replayed live produced { system with
      agent := [.pushToken token]
      pushed := system.pushed ++ (if token.isEmpty then [] else [token]) } := by
  have passed : inFlight ([.pushToken token] : List (Action Reply)) =
      (if token.isEmpty then [] else [token]) := by
    cases empty : token.isEmpty with
    | true => exact inFlight_push_empty [] empty
    | false => exact inFlight_push [] empty
  have stepped : step format (fun _ => true) (system.relayed (system.order produced))
      (.token token) = some { system.relayed (system.order produced) with
        agent := [.pushToken token]
        pushed :=
          system.order produced ++ (if token.isEmpty then [] else [token]) } := by
    simp [step, System.relayed, idle, unfinished]
  have calm : Calm format (system.relayed (system.order produced)) (.token token) :=
    ⟨trivial, trivial⟩
  have delivery := woven.delivery.advance calm stepped
  refine ⟨woven.weave, ?_, woven.waits, woven.replays, ?_⟩
  · simp only [woven.pushed, idle, passed, inFlight_nil, List.append_nil]
  · simpa only [System.order, System.relayed, idle, passed, inFlight_nil,
      List.append_nil] using delivery

theorem Woven.advance (woven : Woven format metadata swapped replayed live produced system)
    (serialises : Serialises format system label)
    (stepped : step format accepts system label = some next) :
    ∃ replayed live produced,
      Woven format metadata (system.swaps label swapped) replayed live produced
        next := by
  have shape := step_stepped stepped
  have delivery (other : ∀ token, label ≠ .token token)
      (quiet : ∀ party, label ≠ .run party) :
      Delivery format metadata (next.relayed (system.order produced)) := by
    refine woven.delivery.advance ?_ (step_relayed _ stepped other)
    cases label with
    | run party => exact absurd rfl (quiet party)
    | _ => exact ⟨trivial, trivial⟩
  cases shape with
  | token token idle unfinished => exact ⟨_, _, _, woven.token idle unfinished⟩
  | finish outcome stopped idle unfinished going =>
      have finishing : inFlight [outcome.action] = [] := by
        cases outcome <;> rfl
      refine woven.moves (.still rfl ?_ rfl) rfl (delivery (by simp) (by simp))
      simp [early, finishing, stopped]
  | attach first =>
      exact woven.moves (.still rfl rfl rfl) rfl (delivery (by simp) (by simp))
  | disconnect first =>
      exact woven.moves (.still rfl rfl rfl) rfl (delivery (by simp) (by simp))
  | run party stack executed =>
      exact woven.run serialises stack executed stepped
  | abort party stack failed =>
      have relayed : (system.relayed (system.order produced)).stack party = _ :=
        (System.relayed_stack ..).trans stack
      exact (woven.delivery.unabortable (by cases party <;> exact serialises.1)
        serialises.2 relayed failed).elim

variable (format accepts metadata) in
/-- The tokens that `set_metadata` has swapped out in a run, or `none` before. -/
def swappedOut (schedule : List (Label Reply)) : Option (List StdString) :=
  (Transition.run (noting (step format accepts) System.swaps)
    (initial metadata, none) schedule).bind Prod.snd

theorem Woven.reached {schedule : List (Label Reply)}
    (respected : Respects (step format accepts) (Serialises format)
      (initial metadata) schedule)
    (reached : Transition.run (step format accepts) (initial metadata) schedule =
      some system) :
    ∃ replayed live produced,
      Woven format metadata (swappedOut format accepts metadata schedule) replayed
        live produced system := by
  have noted := @run_noting _ _ _ (step format accepts) System.swaps
    (initial metadata) none schedule
  rw [reached] at noted
  obtain ⟨⟨_, swapped⟩, traced, rfl⟩ := Option.map_eq_some_iff.mp noted
  rw [swappedOut, traced]
  have kept {before next : System Reply × Option (List StdString)}
      {label : Label Reply} (serialises : Serialises format before.1 label)
      (woven : ∃ replayed live produced,
        Woven format metadata before.2 replayed live produced before.1)
      (stepped : noting (step format accepts) System.swaps before label =
        some next) :
      ∃ replayed live produced,
        Woven format metadata next.2 replayed live produced next.1 := by
    obtain ⟨_, _, _, woven⟩ := woven
    obtain ⟨executed, same⟩ := noting_eq_some.mp stepped
    rw [← same]
    exact woven.advance serialises executed
  exact (respected.noting none).invariant kept
    ⟨_, _, _, .atStart format metadata⟩ traced

/-- The tokens that were swapped out have been replayed in their order, the others
were live and are in theirs. -/
structure Rearranged (swapped : Option (List StdString))
    (pushed order : List StdString) : Prop where
  woven : ∃ live, pushed = swapped.getD [] ++ live ∧
    Weave (swapped.getD []) live order
  perm : order.Perm pushed

theorem Woven.rearranged
    (woven : Woven format metadata swapped replayed live produced system) :
    Rearranged swapped system.pushed (system.order produced) := by
  have waiting := (woven.weave.append (.left_only (early system.core
    system.handler))).append (.right_only (inFlight system.agent))
  rw [List.append_nil, List.append_nil] at waiting
  have pushed : system.pushed = replayed ++ early system.core system.handler ++
      (live ++ inFlight system.agent) := by
    rw [woven.pushed, List.append_assoc _ live]
  refine ⟨?_, pushed ▸ waiting.perm⟩
  cases swapped with
  | none =>
      obtain ⟨-, rfl, rfl⟩ := woven.waits rfl
      have same : system.order produced = system.pushed := by
        rw [pushed, System.order, woven.weave.eq_right]
        simp
      rw [same]
      exact ⟨system.pushed, rfl, .right_only _⟩
  | some tokens =>
      obtain ⟨-, rfl⟩ := woven.replays tokens rfl
      exact ⟨_, pushed, waiting⟩

end Runs

section Classes

variable {json : JsonLibrary} {shown : Json → JsonText.Value}

/-- In a run in which whatever is pushed can be serialised, live tokens may overtake
those that are replayed, each kind staying in order; no token is lost or doubled, and
the client reads the transcript of the tokens in the order they got. -/
theorem streams_woven (lines : json.DumpsLines shown) (metadata : Metadata)
    (accepts : Nat → Bool) :
    (∀ schedule system,
      Respects (step (streamingFormat json) accepts)
        (Serialises (streamingFormat json)) (initial metadata) schedule →
      run (step (streamingFormat json) accepts) (initial metadata) schedule =
        some system →
      ∃ order, Rearranged (swappedOut (streamingFormat json) accepts metadata schedule)
          system.pushed order ∧
        WellStreamed chatTranscript (Frame.render json metadata)
          (system.relayed order) ∧
        ReadBack chatContent chatTranscript (Frame.event json shown metadata)
          (system.relayed order)) ∧
    ∀ schedule system,
      Respects (step (extractionFormat json) accepts)
        (Serialises (extractionFormat json)) (initial metadata) schedule →
      run (step (extractionFormat json) accepts) (initial metadata) schedule =
        some system →
      ∃ order, Rearranged (swappedOut (extractionFormat json) accepts metadata schedule)
          system.pushed order ∧
        WellStreamed extractionTranscript (Frame.render json metadata)
          (system.relayed order) ∧
        ReadBack (List.map .delta) extractionTranscript
          (Frame.event json shown metadata) (system.relayed order) := by
  constructor
  · intro schedule system respected reached
    obtain ⟨_, _, produced, woven⟩ := Woven.reached respected reached
    have transcribes := streamingFormat_transcribes json metadata
    exact ⟨system.order produced, woven.rearranged,
      woven.delivery.wellStreamed transcribes,
      woven.delivery.readBack lines transcribes chatContent_grows⟩
  · intro schedule system respected reached
    obtain ⟨_, _, produced, woven⟩ := Woven.reached respected reached
    have transcribes := extractionFormat_transcribes json metadata
    exact ⟨system.order produced, woven.rearranged,
      woven.delivery.wellStreamed transcribes,
      woven.delivery.readBack lines transcribes deltas_grow⟩

end Classes

theorem streams_woven_sample :
    ∃ system order, run (step (streamingFormat utf8Json) fun _ => true)
        (initial sampleMetadata) spoiling = some system ∧
      Rearranged (some [literal "a"]) system.pushed order ∧
      WellStreamed chatTranscript (Frame.render utf8Json sampleMetadata)
        (system.relayed order) ∧
      ReadBack chatContent chatTranscript
        (Frame.event utf8Json (Json.toValue fun _ => ⟨0, 0⟩) sampleMetadata)
        (system.relayed order) := by
  have woven := streams_woven utf8Json_dumpsLines sampleMetadata fun _ => true
  obtain ⟨order, rearranged, streamed, read⟩ :=
    woven.1 spoiling _ (by decide) rfl
  exact ⟨_, order, rfl, rearranged, streamed, read⟩

end ZooKeeperServer.Streaming
