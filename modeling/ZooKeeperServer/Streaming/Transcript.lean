import ZooKeeperServer.Streaming.Delivery

namespace ZooKeeperServer.Streaming

open Transition

/-! The frames of a whole request, and what of them reaches the client. -/

section Calm

variable {Reply : Type} (format : Format Reply)

def System.serialisesFinish (system : System Reply) : Bool :=
  match system.handler with
  | .finishSuccess response :: _ =>
      (format.success system.core.session.header response).isOk
  | .finishError error :: _ =>
      (format.failure system.core.session.header error).isOk
  | _ => true

/-- The condition on a step: no live token overtakes the replay, and whatever is
pushed can be serialised. -/
def Calm (system : System Reply) (label : Label Reply) : Prop :=
  TokenCalm format system label ∧
    match label with
    | .run .handler => system.serialisesFinish format = true
    | _ => True

instance (system : System Reply) (label : Label Reply) :
    Decidable (Calm format system label) :=
  match label with
  | .run .handler => inferInstanceAs (Decidable (_ ∧ _ = true))
  | .run .agent => inferInstanceAs (Decidable (_ ∧ True))
  | .run .transport => inferInstanceAs (Decidable (_ ∧ True))
  | .run .disconnect => inferInstanceAs (Decidable (_ ∧ True))
  | .token _ => inferInstanceAs (Decidable (_ ∧ True))
  | .finish _ => inferInstanceAs (Decidable (_ ∧ True))
  | .attach => inferInstanceAs (Decidable (_ ∧ True))
  | .disconnect => inferInstanceAs (Decidable (_ ∧ True))

end Calm

section Invariant

variable {Reply : Type} {format : Format Reply} {accepts : Nat → Bool}
  {metadata : Metadata} {system next : System Reply} {label : Label Reply}

def System.concluded (system : System Reply) : Bool :=
  system.outcome.isSome && system.handler.all Action.isTail

/-- While no client has gone and no send has failed. -/
structure Clean (system : System Reply) : Prop where
  undisturbed : system.disconnect = []
  complete : system.core.complete
  shut : system.core.session.closing = true → system.concluded = true
  closes : ∀ party, .close ∈ system.stack party → system.concluded = true
  closing : system.concluded = true →
    system.core.session.closing = true ∨ .close ∈ system.handler
  ending : system.core.session.closing = true → system.core.attached = true →
    .close ∈ system.core.wire ∨
      ∃ party, .closeStream ∈ system.stack party

structure Delivery (format : Format Reply) (metadata : Metadata)
    (system : System Reply) : Prop where
  ordered : Ordered format metadata system
  going : system.aborted = false
  orderly : Orderly system.core
  ungiven : system.streamGiven = false →
    system.transport = [] ∧ system.core.attached = false
  attaching : ∀ party, .attachStream ∈ system.stack party →
    party = .transport ∧ system.transport = [.attachStream] ∧
      system.core.attached = false
  closers : ∀ party, .closeStream ∈ system.stack party →
    system.core.session.closing = true ∧ system.core.attached = true
  clean : system.disconnected = false → ¬ system.core.failed → Clean system

theorem Delivery.atStart (format : Format Reply) (metadata : Metadata) :
    Delivery format metadata (initial metadata) where
  ordered := .atStart format metadata
  going := rfl
  orderly := ⟨fun _ => ⟨rfl, rfl⟩, fun _ => rfl, by simp [initial],
    List.Pairwise.nil, List.prefix_refl _, fun _ =>
      ⟨by simp [initial], rfl⟩⟩
  ungiven _ := ⟨rfl, rfl⟩
  attaching party member := by cases party <;> simp [System.stack, initial] at member
  closers party member := by cases party <;> simp [System.stack, initial] at member
  clean _ _ := by
    refine ⟨rfl, rfl, ?_, ?_, ?_, ?_⟩
    · intro shut
      cases shut
    · intro party member
      cases party <;> simp [System.stack, initial] at member
    · intro concluded
      cases concluded
    · intro ending
      cases ending

theorem Ordered.finisher (ordered : Ordered format metadata system)
    {party : Party} {outcome : Outcome Reply} {rest : List (Action Reply)}
    (stack : system.stack party = outcome.action :: rest) :
    party = .handler ∧ rest = [] ∧ system.outcome = some outcome := by
  obtain ⟨progress, transport, disconnect⟩ := ordered
  have notQuiet := outcome.action_not_quiet
  cases party with
  | agent =>
      have quiet := progress.agentQuiet outcome.action
        (by rw [show system.agent = _ from stack]; simp)
      rw [notQuiet] at quiet
      contradiction
  | transport =>
      have neutral := transport outcome.action
        (by rw [show system.transport = _ from stack]; simp)
      cases outcome <;> contradiction
  | disconnect =>
      have tail := disconnect outcome.action
        (by rw [show system.disconnect = _ from stack]; simp)
      cases outcome <;> contradiction
  | handler =>
      rw [show system.handler = _ from stack] at progress
      generalize system.outcome = finished at progress ⊢
      cases progress with
      | opening closed fresh frames tokenFrames nonempty calls opens =>
          cases outcome <;> cases opens
      | streaming produced streamed calls replays =>
          have quiet := replays _ (List.mem_cons_self ..)
          rw [notQuiet] at quiet
          contradiction
      | finishing finished streamed idle finishes =>
          obtain ⟨same, alone⟩ := List.cons.inj finishes
          exact ⟨rfl, alone, congrArg some (Outcome.action_injective same).symm⟩
      | concluded finished header frames drained idle tails =>
          have quiet := Action.quiet_of_tail (tails _ (List.mem_cons_self ..))
          rw [notQuiet] at quiet
          contradiction
      | failed finished other streamed idle stopped => contradiction

theorem System.concluded_iff : system.concluded = true ↔
    (∃ outcome, system.outcome = some outcome) ∧
      ∀ action ∈ system.handler, action.isTail = true := by
  simp [System.concluded, Option.isSome_iff_exists]

theorem Ordered.concluded_idle (ordered : Ordered format metadata system)
    (concluded : system.concluded = true) : system.agent = [] := by
  obtain ⟨⟨outcome, finished⟩, tails⟩ := System.concluded_iff.mp concluded
  obtain ⟨progress, _, _⟩ := ordered
  rw [finished] at progress
  cases progress with
  | finishing outcome streamed idle => exact idle
  | concluded outcome header frames drained idle => exact idle
  | failed outcome error streamed idle => exact idle

/-- A step of a thread concludes the request exactly when it executes the
finish. -/
theorem Ordered.concludes (ordered : Ordered format metadata system)
    {party : Party} {action : Action Reply}
    {rest following : List (Action Reply)} {core : Core}
    (stack : system.stack party = action :: rest)
    (executed : action.exec format accepts system.core =
      .ok (following, core)) :
    (system.proceed party (following ++ rest) core).concluded = true ↔
      system.concluded = true ∨ ∃ outcome : Outcome Reply,
        action = outcome.action := by
  have kept (others : party ≠ .handler) :
      (system.proceed party (following ++ rest) core).handler =
        system.handler := by
    cases party <;> first | rfl | contradiction
  constructor
  · intro concluded
    obtain ⟨⟨outcome, finished⟩, tails⟩ := System.concluded_iff.mp concluded
    rw [System.proceed_outcome] at finished
    by_cases handles : party = .handler
    · subst handles
      obtain ⟨progress, _, _⟩ := ordered
      rw [show system.handler = _ from stack, finished] at progress
      cases progress with
      | finishing outcome streamed idle finishes =>
          exact .inr ⟨outcome, (List.cons.inj finishes).1⟩
      | failed outcome error streamed idle stopped => contradiction
      | concluded outcome header frames drained idle tails =>
          refine .inl (System.concluded_iff.mpr ⟨⟨outcome, finished⟩, ?_⟩)
          rw [show system.handler = _ from stack]
          exact tails
    · refine .inl (System.concluded_iff.mpr ⟨⟨outcome, finished⟩, ?_⟩)
      rw [kept handles] at tails
      exact tails
  · rintro (concluded | ⟨outcome, rfl⟩)
    · obtain ⟨finished, tails⟩ := System.concluded_iff.mp concluded
      refine System.concluded_iff.mpr ⟨by simpa using finished, ?_⟩
      by_cases handles : party = .handler
      · subst handles
        have here : system.handler = _ := stack
        rw [here] at tails
        obtain ⟨_, _, following⟩ := exec_neutral executed
          (Action.neutral_of_tail (tails action (by simp)))
        intro other member
        rcases List.mem_append.mp member with member | member
        · exact following other member
        · exact tails other (List.mem_cons_of_mem _ member)
      · rw [kept handles]
        exact tails
    · obtain ⟨rfl, rfl, finished⟩ := ordered.finisher stack
      obtain ⟨_, _, _, _, _, _, tails⟩ := finish_concludes executed
      refine System.concluded_iff.mpr ⟨⟨outcome, by simpa using finished⟩, ?_⟩
      intro other member
      rw [show (system.proceed .handler (following ++ []) core).handler = _
        from rfl, List.append_nil] at member
      exact tails other member

theorem System.proceed_member {party other : Party} {action : Action Reply}
    {rest following : List (Action Reply)} {core : Core} {held : Action Reply}
    (stack : system.stack party = action :: rest)
    (member : held ∈
      (system.proceed party (following ++ rest) core).stack other) :
    held ∈ following ∨ held ∈ system.stack other := by
  rw [System.proceed_stack] at member
  split at member
  · rename_i same
    subst same
    rcases List.mem_append.mp member with member | member
    · exact .inl member
    · exact .inr (by rw [stack]; exact List.mem_cons_of_mem _ member)
  · exact .inr member

theorem System.mem_of_replaced {changed : System Reply} {party : Party}
    {stack : List (Action Reply)} {held : Action Reply}
    (replaced : ∀ other, changed.stack other =
      if other = party then stack else system.stack other)
    (absent : held ∉ stack) {other : Party}
    (member : held ∈ changed.stack other) : held ∈ system.stack other := by
  rw [replaced] at member
  split at member
  · exact absurd member absent
  · exact member

theorem System.proceed_keeps {party : Party} {action : Action Reply}
    {rest : List (Action Reply)} (stack : system.stack party = action :: rest)
    (following : List (Action Reply)) (core : Core) {other : Party}
    {held : Action Reply}
    (member : held ∈ system.stack other) :
    held = action ∨
      held ∈ (system.proceed party (following ++ rest) core).stack other := by
  rw [System.proceed_stack]
  split
  · rename_i same
    subst same
    rw [stack] at member
    rcases List.mem_cons.mp member with rfl | member
    · exact .inl rfl
    · exact .inr (List.mem_append_right _ member)
  · exact .inr member

/-- While nothing has gone wrong, what a concluded request still does leaves
tokens and frames alone. -/
theorem Delivery.neutral_of_closing (delivery : Delivery format metadata system)
    (clean : Clean system) {party : Party} {action : Action Reply}
    {rest : List (Action Reply)} (stack : system.stack party = action :: rest)
    (closing : system.core.session.closing = true) :
    action.isNeutral = true := by
  have concluded := clean.shut closing
  have idle := delivery.ordered.concluded_idle concluded
  have tails := (System.concluded_iff.mp concluded).2
  cases party with
  | agent =>
      rw [show system.agent = _ from stack] at idle
      contradiction
  | handler =>
      have here : system.handler = _ := stack
      exact Action.neutral_of_tail (tails action (by simp [here]))
  | transport =>
      have here : system.transport = _ := stack
      exact delivery.ordered.transport action (by simp [here])
  | disconnect =>
      have here : system.disconnect = _ := stack
      rw [clean.undisturbed] at here
      contradiction

theorem Delivery.run_clean (delivery : Delivery format metadata system)
    (clean : Clean system) {party : Party} {action : Action Reply}
    {rest following : List (Action Reply)} {core : Core}
    (stack : system.stack party = action :: rest)
    (executed : action.exec format accepts system.core = .ok (following, core))
    (delivers : Delivers action system.core following core)
    (unfailed : ¬ core.failed) :
    Clean (system.proceed party (following ++ rest) core) := by
  have concludes := delivery.ordered.concludes stack executed
  refine ⟨?_, ?_, ?_, ?_, ?_, ?_⟩
  · cases party with
    | disconnect =>
        have here : system.disconnect = _ := stack
        rw [clean.undisturbed] at here
        contradiction
    | _ => exact clean.undisturbed
  · exact (delivers.completes clean.complete
      (delivery.neutral_of_closing clean stack)).resolve_left unfailed
  · intro closing
    rcases delivers.shuts closing with before | rfl | failed
    · exact concludes.mpr (.inl (clean.shut before))
    · exact concludes.mpr (.inl (clean.closes party (by simp [stack])))
    · exact absurd failed unfailed
  · intro other member
    rcases System.proceed_member stack member with new | old
    · rcases delivers.closes new with failed | finish
      · exact absurd failed unfailed
      · exact concludes.mpr (.inr finish)
    · exact concludes.mpr (.inl (clean.closes other old))
  · intro concluded
    rcases concludes.mp concluded with before | ⟨outcome, rfl⟩
    · rcases clean.closing before with closing | member
      · exact .inl (delivers.closing closing)
      · have held : .close ∈ system.stack .handler := member
        rcases System.proceed_keeps stack following core held with
          rfl | member
        · exact .inl (close_shuts executed)
        · exact .inr member
    · obtain ⟨rfl, rfl, _⟩ := delivery.ordered.finisher stack
      exact .inr (List.mem_append_left _ (finish_closes executed))
  · intro closing attached
    rcases delivers.ending closing attached with
      failed | ⟨before, was⟩ | member
    · exact absurd failed unfailed
    · rcases clean.ending before was with closed | ⟨other, member⟩
      · exact .inl (delivers.wire.subset closed)
      · rcases System.proceed_keeps stack following core member with rfl | member
        · cases executed
          exact .inl (List.mem_append_right _ (List.mem_singleton_self _))
        · exact .inr ⟨other, member⟩
    · exact .inr ⟨party, by
        rw [System.proceed_stack, if_pos rfl]
        exact List.mem_append_left _ member⟩

/-- The system, its tokens taken to have been passed in this order. -/
def System.relayed (system : System Reply) (order : List StdString) :
    System Reply :=
  { system with pushed := order }

section Relayed

variable (system : System Reply) (order : List StdString)

@[simp] theorem System.relayed_core : (system.relayed order).core = system.core :=
  rfl

@[simp] theorem System.relayed_aborted :
    (system.relayed order).aborted = system.aborted :=
  rfl

@[simp] theorem System.relayed_streamGiven :
    (system.relayed order).streamGiven = system.streamGiven :=
  rfl

@[simp] theorem System.relayed_disconnected :
    (system.relayed order).disconnected = system.disconnected :=
  rfl

@[simp] theorem System.relayed_stack (party : Party) :
    (system.relayed order).stack party = system.stack party := by
  cases party <;> rfl

end Relayed

theorem Clean.relayed (clean : Clean system) (order : List StdString) :
    Clean (system.relayed order) where
  undisturbed := clean.undisturbed
  complete := clean.complete
  shut := clean.shut
  closes party member := clean.closes party (by simpa using member)
  closing := clean.closing
  ending := by simpa using clean.ending

theorem Delivery.runRelayed (delivery : Delivery format metadata system)
    {party : Party} {action : Action Reply}
    {rest following : List (Action Reply)} {core : Core}
    {order : List StdString}
    (ordered : Ordered format metadata
      ((system.proceed party (following ++ rest) core).relayed order))
    (stack : system.stack party = action :: rest)
    (executed : action.exec format accepts system.core =
      .ok (following, core)) :
    Delivery format metadata
      ((system.proceed party (following ++ rest) core).relayed order) := by
  have attaches (same : action = .attachStream) :=
    delivery.attaching party (by simp [stack, same])
  have delivers := exec_delivers executed delivery.orderly
    fun same => (attaches same).2.2
  have attached : system.core.attached = false → action ≠ .attachStream →
      core.attached = false := by
    intro was other
    cases now : core.attached with
    | false => rfl
    | true =>
        rcases delivers.attaches now with before | same
        · rw [was] at before
          contradiction
        · contradiction
  refine ⟨ordered, by simpa using delivery.going, ?_, ?_, ?_, ?_, ?_⟩
  · exact exec_orderly executed delivery.orderly
      (fun same => (attaches same).2.2)
      fun same => delivery.closers party (by simp [stack, same])
  · intro ungiven
    obtain ⟨empty, was⟩ := delivery.ungiven (by simpa using ungiven)
    have others : party ≠ .transport := by
      rintro rfl
      rw [show system.transport = _ from stack] at empty
      contradiction
    refine ⟨?_, attached was fun same => others (attaches same).1⟩
    have same := system.proceed_stack party (following ++ rest) core
      .transport
    rw [if_neg (Ne.symm others)] at same
    exact same.trans empty
  · intro other member
    rw [System.relayed_stack] at member
    rcases System.proceed_member stack member with new | old
    · exact absurd new delivers.noAttach
    · obtain ⟨rfl, alone, was⟩ := delivery.attaching other old
      rw [System.proceed_stack] at member
      split at member
      · rename_i same
        subst same
        rw [show system.stack .transport = _ from alone] at stack
        obtain ⟨_, rfl⟩ := List.cons.inj stack
        rw [List.append_nil] at member
        exact absurd member delivers.noAttach
      · rename_i others
        have same := system.proceed_stack party (following ++ rest)
          core .transport
        rw [if_neg others] at same
        exact ⟨rfl, same.trans alone,
          attached was fun same => others (attaches same).1.symm⟩
  · intro other member
    rw [System.relayed_stack] at member
    rcases System.proceed_member stack member with new | old
    · exact delivers.closers new
    · obtain ⟨closing, was⟩ := delivery.closers other old
      exact ⟨delivers.closing closing, delivers.attached was⟩
  · intro connected unfailed
    have clean := delivery.clean (by simpa using connected)
      fun failed => unfailed (delivers.failed failed)
    exact (delivery.run_clean clean stack executed delivers unfailed).relayed order

theorem Delivery.run (delivery : Delivery format metadata system)
    {party : Party} {action : Action Reply}
    {rest following : List (Action Reply)} {core : Core}
    (ordered : Ordered format metadata
      (system.proceed party (following ++ rest) core))
    (stack : system.stack party = action :: rest)
    (executed : action.exec format accepts system.core =
      .ok (following, core)) :
    Delivery format metadata (system.proceed party (following ++ rest) core) := by
  have same : (system.proceed party (following ++ rest) core).relayed system.pushed =
      system.proceed party (following ++ rest) core := by
    cases party <;> rfl
  rw [← same] at ordered ⊢
  exact delivery.runRelayed ordered stack executed

/-- Whatever is pushed can be serialised: no exception is raised. -/
theorem Delivery.unabortable (delivery : Delivery format metadata system)
    {party : Party} {action : Action Reply} {rest : List (Action Reply)}
    {error : StdException}
    (serialisesToken : system.serialisesToken format party = true)
    (serialisesFinish : party = .handler → system.serialisesFinish format = true)
    (stack : system.stack party = action :: rest)
    (failed : action.exec format accepts system.core = .error error) :
    False := by
  rcases exec_error failed with
    ⟨token, rfl, nonempty, opened, raised⟩ | ⟨outcome, rfl, raised⟩
  · simp [System.serialisesToken, stack, nonempty, opened, raised, Except.isOk,
      Except.toBool] at serialisesToken
  · obtain ⟨rfl, rfl, _⟩ := delivery.ordered.finisher stack
    have here : system.handler = _ := stack
    have serialised := serialisesFinish rfl
    cases outcome with
    | success response =>
        have raised : format.success system.core.session.header response =
            .error error := raised
        simp [System.serialisesFinish, here, Outcome.action, raised,
          Except.isOk, Except.toBool] at serialised
    | failure reported =>
        have raised : format.failure system.core.session.header reported =
            .error error := raised
        simp [System.serialisesFinish, here, Outcome.action, raised,
          Except.isOk, Except.toBool] at serialised

theorem Delivery.token {token : StdString}
    (delivery : Delivery format metadata system)
    (ordered : Ordered format metadata next)
    (stepped : Stepped format accepts system (.token token) next) :
    Delivery format metadata next := by
  cases stepped with
  | token _ idle unfinished =>
      have unconcluded : system.concluded = false := by
        simp [System.concluded, unfinished]
      have replaced : ∀ other, System.stack { system with
          agent := [.pushToken token]
          pushed := system.pushed ++ (if token.isEmpty then [] else [token]) }
          other =
          if other = .agent then [.pushToken token] else system.stack other := by
        intro other
        cases other <;> rfl
      refine ⟨ordered, delivery.going, delivery.orderly, delivery.ungiven, ?_, ?_,
        fun connected unfailed => ?_⟩
      · intro party member
        have old := System.mem_of_replaced replaced (by simp) member
        exact delivery.attaching party old
      · intro party member
        have old := System.mem_of_replaced replaced (by simp) member
        exact delivery.closers party old
      · have clean := delivery.clean connected unfailed
        refine ⟨clean.undisturbed, clean.complete, clean.shut, ?_, clean.closing,
          ?_⟩
        · intro party member
          have old := System.mem_of_replaced replaced (by simp) member
          exact clean.closes party old
        · intro closing _
          have concluded := clean.shut closing
          rw [unconcluded] at concluded
          contradiction

theorem Delivery.finish {outcome : Outcome Reply}
    (delivery : Delivery format metadata system)
    (ordered : Ordered format metadata next)
    (stepped : Stepped format accepts system (.finish outcome) next) :
    Delivery format metadata next := by
  cases stepped with
  | finish _ stopped idle unfinished going =>
      have unconcluded : system.concluded = false := by
        simp [System.concluded, unfinished]
      have finishes : outcome.action.isTail = false := by
        cases outcome <;> rfl
      have replaced : ∀ other, System.stack { system with
          handler := [outcome.action]
          outcome := some outcome } other =
          if other = .handler then [outcome.action] else system.stack other := by
        intro other
        cases other <;> rfl
      refine ⟨ordered, delivery.going, delivery.orderly, delivery.ungiven, ?_, ?_,
        fun connected unfailed => ?_⟩
      · intro party member
        have absent : Action.attachStream ∉ [outcome.action] := by
          cases outcome with
          | _ => simp [Outcome.action]
        exact delivery.attaching party (System.mem_of_replaced replaced absent member)
      · intro party member
        have absent : Action.closeStream ∉ [outcome.action] := by
          cases outcome with
          | _ => simp [Outcome.action]
        exact delivery.closers party (System.mem_of_replaced replaced absent member)
      · have clean := delivery.clean connected unfailed
        have opened : system.core.session.closing ≠ true := by
          intro closing
          rw [clean.shut closing] at unconcluded
          contradiction
        refine ⟨clean.undisturbed, clean.complete, fun closing =>
          absurd closing opened, ?_, ?_, fun closing => absurd closing opened⟩
        · intro party member
          have absent : Action.close ∉ [outcome.action] := by
            cases outcome with
            | _ => simp [Outcome.action]
          rw [clean.closes party (System.mem_of_replaced replaced absent member)]
            at unconcluded
          contradiction
        · intro concluded
          simp [System.concluded, finishes] at concluded

theorem Delivery.attach (delivery : Delivery format metadata system)
    (ordered : Ordered format metadata next)
    (stepped : Stepped format accepts system .attach next) :
    Delivery format metadata next := by
  cases stepped with
  | attach first =>
      obtain ⟨empty, unattached⟩ := delivery.ungiven first
      have replaced : ∀ other, System.stack { system with
          transport := [.attachStream]
          streamGiven := true } other =
          if other = .transport then [.attachStream] else system.stack other := by
        intro other
        cases other <;> rfl
      refine ⟨ordered, delivery.going, delivery.orderly, nofun, ?_, ?_,
        fun connected unfailed => ?_⟩
      · intro party member
        rw [replaced] at member
        split at member
        · rename_i same
          exact ⟨same, rfl, unattached⟩
        · have taken := (delivery.attaching party member).2.1
          rw [empty] at taken
          contradiction
      · intro party member
        have old := System.mem_of_replaced replaced (by simp) member
        exact delivery.closers party old
      · have clean := delivery.clean connected unfailed
        refine ⟨clean.undisturbed, clean.complete, clean.shut, ?_, clean.closing,
          ?_⟩
        · intro party member
          have old := System.mem_of_replaced replaced (by simp) member
          exact clean.closes party old
        · intro _ attached
          rw [show system.core.attached = true from attached] at unattached
          contradiction

theorem Delivery.disconnect (delivery : Delivery format metadata system)
    (ordered : Ordered format metadata next)
    (stepped : Stepped format accepts system .disconnect next) :
    Delivery format metadata next := by
  cases stepped with
  | disconnect first =>
      have replaced : ∀ other, System.stack { system with
          disconnect := [.close]
          disconnected := true } other =
          if other = .disconnect then [.close] else system.stack other := by
        intro other
        cases other <;> rfl
      refine ⟨ordered, delivery.going, delivery.orderly, delivery.ungiven, ?_, ?_,
        nofun⟩
      · intro party member
        have old := System.mem_of_replaced replaced (by simp) member
        exact delivery.attaching party old
      · intro party member
        have old := System.mem_of_replaced replaced (by simp) member
        exact delivery.closers party old

theorem Delivery.advance (delivery : Delivery format metadata system)
    (calm : Calm format system label)
    (stepped : step format accepts system label = some next) :
    Delivery format metadata next := by
  have ordered := delivery.ordered.advance calm.1 stepped
  have shape := step_stepped stepped
  cases label with
  | token token => exact delivery.token ordered shape
  | finish outcome => exact delivery.finish ordered shape
  | attach => exact delivery.attach ordered shape
  | disconnect => exact delivery.disconnect ordered shape
  | run party =>
      cases shape with
      | run _ stack executed => exact delivery.run ordered stack executed
      | abort _ stack failed =>
          refine (delivery.unabortable calm.1.2 ?_ stack failed).elim
          rintro rfl
          exact calm.2

theorem Delivery.reached {schedule : List (Label Reply)}
    (respected : Respects (step format accepts) (Calm format)
      (initial metadata) schedule)
    (reached : Transition.run (step format accepts) (initial metadata) schedule =
      some system) : Delivery format metadata system :=
  respected.invariant
    (fun calm delivery stepped => Delivery.advance delivery calm stepped)
    (Delivery.atStart format metadata) reached

end Invariant

/-! What the frames of a whole request are meant to be, before they are rendered. -/

inductive Frame
  | chunk (role : Bool) (content : Option StdString)
  | stop
  | delta (token : StdString)
  | body (response : ExtractionResult)
  | done
  | failure (error : ApiError)

def Frame.render (json : JsonLibrary) (metadata : Metadata) :
    Frame → Except StdException StdString
  | .chunk true content =>
      .ok (makeFirstStreamingChunk metadata.completionId metadata.created
        metadata.modelId content none)
  | .chunk false content =>
      .ok (makeStreamingChunk metadata.completionId metadata.created
        metadata.modelId content none)
  | .stop =>
      .ok (makeStreamingChunk metadata.completionId metadata.created
        metadata.modelId none (some (literal "stop")))
  | .delta token =>
      makeSseData json (Json.objectOf [(literal "delta", .string token)])
  | .body response =>
      makeSseData json (makeExtractionBody json metadata.completionId
        metadata.created metadata.modelId response)
  | .done => .ok makeSseDone
  | .failure error => makeSseData json (makeErrorBody error)

def Frame.content : Frame → StdString
  | .chunk _ (some text) => text
  | .delta token => token
  | _ => []

def chatContent : List StdString → List Frame
  | [] => []
  | token :: rest =>
      .chunk true (some token) :: rest.map fun token => .chunk false (some token)

/-- Role first, then content, then stop and end, or else an error frame if
nothing was produced. -/
def chatTranscript (tokens : List StdString) :
    Outcome CompletionResult → List Frame
  | .success response =>
      (if tokens.isEmpty then
        [.chunk true (if response.text.isEmpty then none else some response.text)]
      else chatContent tokens) ++ [.stop, .done]
  | .failure error =>
      if tokens.isEmpty then [.failure error] else chatContent tokens

def extractionTranscript (tokens : List StdString) :
    Outcome ExtractionResult → List Frame
  | .success response => tokens.map .delta ++ [.body response, .done]
  | .failure error => tokens.map .delta ++ [.failure error]

/-- What a client may rely on in any state of a request. -/
structure WellStreamed {Reply : Type}
    (transcript : List StdString → Outcome Reply → List Frame)
    (render : Frame → Except StdException StdString) (system : System Reply) :
    Prop where
  silent : SilentOnceEnded system.core.wire
  transcribed : ∃ tokens outcome sent,
    tokens <+: system.pushed ∧
      (∀ actual, system.outcome = some actual →
        outcome = actual ∧ tokens = system.pushed) ∧
      sent <+: transcript tokens outcome ∧
      sent.mapM render = .ok system.core.sent
  whole : ∀ outcome, system.outcome = some outcome →
    system.core.attached = true → system.disconnected = false →
    ¬ system.core.failed → (∀ party, system.stack party = []) →
      (transcript system.pushed outcome).mapM render = .ok system.core.sent ∧
        .close ∈ system.core.wire

section Transcripts

variable {Reply : Type}

structure Transcribes (format : Format Reply) (metadata : Metadata)
    (render : Frame → Except StdException StdString)
    (content : List StdString → List Frame)
    (transcript : List StdString → Outcome Reply → List Frame) : Prop where
  tokens : ∀ {tokens header frames},
    format.tokens metadata.header tokens = .ok (header, frames) →
      (content tokens).mapM render = .ok frames
  conclusion : ∀ {tokens header frames outcome final tail},
    format.tokens metadata.header tokens = .ok (header, frames) →
      format.conclusion header outcome = .ok (final, tail) →
        (transcript tokens outcome).mapM render = .ok (frames ++ tail)
  grows : ∀ tokens outcome, content tokens <+: transcript tokens outcome

variable {format : Format Reply} {metadata : Metadata}
  {render : Frame → Except StdException StdString}
  {content : List StdString → List Frame}
  {transcript : List StdString → Outcome Reply → List Frame}
  {system : System Reply}

theorem mapM_prefix {frames : List Frame} {texts sent : List StdString}
    (rendered : frames.mapM render = .ok texts) (first : sent <+: texts) :
    ∃ some, some <+: frames ∧ some.mapM render = .ok sent := by
  induction frames generalizing texts sent with
  | nil =>
      cases rendered
      obtain rfl := List.prefix_nil.mp first
      exact ⟨[], List.prefix_refl _, rfl⟩
  | cons frame rest ih =>
      rw [List.mapM_cons] at rendered
      cases made : render frame with
      | error error =>
          rw [made] at rendered
          contradiction
      | ok text =>
          cases others : rest.mapM render with
          | error error =>
              rw [made, others] at rendered
              contradiction
          | ok restTexts =>
              rw [made, others] at rendered
              cases rendered
              cases sent with
              | nil => exact ⟨[], List.nil_prefix, rfl⟩
              | cons head tail =>
                  obtain ⟨rfl, beginning⟩ := List.cons_prefix_cons.mp first
                  obtain ⟨some, shorter, made'⟩ := ih others beginning
                  refine ⟨frame :: some,
                    List.cons_prefix_cons.mpr ⟨rfl, shorter⟩, ?_⟩
                  rw [List.mapM_cons, made, made']
                  rfl

theorem Delivery.frames (delivery : Delivery format metadata system)
    (transcribes : Transcribes format metadata render content transcript) :
    ∃ tokens outcome frames,
      tokens <+: system.pushed ∧
        (∀ actual, system.outcome = some actual →
          outcome = actual ∧ tokens = system.pushed) ∧
        frames <+: transcript tokens outcome ∧
        frames.mapM render = .ok system.core.frames ∧
        (system.concluded = true → frames = transcript tokens outcome) := by
  have progress := delivery.ordered.progress
  have unconcluded (unfinished : system.outcome = none) :
      system.concluded = true → False := by
    simp [System.concluded, unfinished]
  generalize finished : system.outcome = outcome at progress
  cases progress with
  | opening closed fresh frames tokenFrames nonempty calls opens order =>
      refine ⟨[], .failure ⟨0, [], [], none, none⟩, [], List.nil_prefix, nofun,
        List.nil_prefix, by rw [frames]; rfl, fun concluded =>
          (unconcluded finished concluded).elim⟩
  | streaming produced streamed calls replays order =>
      refine ⟨produced, .failure ⟨0, [], [], none, none⟩, content produced,
        ?_, nofun, transcribes.grows _ _, ?_, fun concluded =>
          (unconcluded finished concluded).elim⟩
      · rw [order, List.append_assoc]
        exact List.prefix_append _ _
      · rw [streamed.frames]
        exact transcribes.tokens streamed.made
  | finishing outcome streamed idle finishes =>
      refine ⟨system.pushed, outcome, content system.pushed,
        List.prefix_refl _, ?_, transcribes.grows _ _, ?_, ?_⟩
      · intro actual same
        exact ⟨Option.some.inj same, rfl⟩
      · rw [streamed.frames]
        exact transcribes.tokens streamed.made
      · intro concluded
        have tail := (System.concluded_iff.mp concluded).2 outcome.action
          (by simp [finishes])
        cases outcome <;> contradiction
  | concluded outcome header tail drained idle tails made ended all =>
      refine ⟨system.pushed, outcome, transcript system.pushed outcome,
        List.prefix_refl _, ?_, List.prefix_refl _, ?_, fun _ => rfl⟩
      · intro actual same
        exact ⟨Option.some.inj same, rfl⟩
      · rw [all]
        exact transcribes.conclusion made ended
  | failed outcome error streamed idle stopped raised aborts =>
      rw [delivery.going] at aborts
      contradiction

theorem Delivery.wellStreamed (delivery : Delivery format metadata system)
    (transcribes : Transcribes format metadata render content transcript) :
    WellStreamed transcript render system := by
  obtain ⟨tokens, outcome, frames, some, matched, first, rendered, entire⟩ :=
    delivery.frames transcribes
  refine ⟨delivery.orderly.silent, ?_, ?_⟩
  · have handled : system.core.sent <+: system.core.frames :=
      (List.prefix_append _ _).trans delivery.orderly.handled
    obtain ⟨sent, shorter, made⟩ := mapM_prefix rendered handled
    exact ⟨tokens, outcome, sent, some, matched, shorter.trans first, made⟩
  · intro actual finished attached connected unfailed idle
    obtain ⟨rfl, rfl⟩ := matched actual finished
    have clean := delivery.clean connected unfailed
    have stopped : system.handler = [] := idle .handler
    have concluded : system.concluded = true := by
      simp [System.concluded, finished, stopped]
    have closing : system.core.session.closing = true := by
      rcases clean.closing concluded with closing | member
      · exact closing
      · rw [stopped] at member
        contradiction
    have closed : .close ∈ system.core.wire := by
      rcases clean.ending closing attached with closed | ⟨party, member⟩
      · exact closed
      · rw [idle party] at member
        contradiction
    have sent : system.core.sent = system.core.frames := by
      have complete : system.core.sent ++ system.core.session.bufferedFrames =
        system.core.frames := clean.complete
      rwa [delivery.orderly.attached attached, List.append_nil] at complete
    rw [← entire concluded, sent]
    exact ⟨rendered, closed⟩

end Transcripts

/-- One chunk with the role first, then content without it, then stop and end;
on an error no end, and an error frame only where there is nothing else. -/
inductive ChatGrammar : List Frame → Prop
  | success (first : Option StdString) (rest : List StdString) :
      ChatGrammar (.chunk true first ::
        (rest.map fun token => .chunk false (some token)) ++ [.stop, .done])
  | interrupted (first : StdString) (rest : List StdString) :
      ChatGrammar (.chunk true (some first) ::
        rest.map fun token => .chunk false (some token))
  | failure (error : ApiError) : ChatGrammar [.failure error]

theorem chatTranscript_grammar (tokens : List StdString)
    (outcome : Outcome CompletionResult) :
    ChatGrammar (chatTranscript tokens outcome) := by
  cases outcome with
  | success response =>
      cases tokens with
      | nil => exact .success _ []
      | cons token rest => exact .success (some token) rest
  | failure error =>
      cases tokens with
      | nil => exact .failure error
      | cons token rest => exact .interrupted token rest

theorem content_map (make : StdString → Frame)
    (carries : ∀ token, (make token).content = token)
    (tokens : List StdString) :
    (tokens.map make).flatMap Frame.content = tokens.flatten := by
  induction tokens with
  | nil => rfl
  | cons token rest ih => simp [carries, ih]

theorem chatTranscript_content (tokens : List StdString)
    (response : CompletionResult) :
    (chatTranscript tokens (.success response)).flatMap Frame.content =
      if tokens.isEmpty then response.text else tokens.flatten := by
  cases tokens with
  | nil =>
      cases text : response.text with
      | nil => simp [chatTranscript, text, Frame.content]
      | cons byte rest => simp [chatTranscript, text, Frame.content]
  | cons token rest =>
      have others := content_map (fun token => .chunk false (some token))
        (fun _ => rfl) rest
      simp [chatTranscript, chatContent, Frame.content, others]

section Classes

variable (json : JsonLibrary) (metadata : Metadata)

theorem chatContent_render (tokens : List StdString) :
    (chatContent tokens).mapM (Frame.render json metadata) =
      .ok (contentFrames metadata tokens) := by
  have later (rest : List StdString) :
      (rest.map fun token => Frame.chunk false (some token)).mapM
        (Frame.render json metadata) = .ok (contentChunks metadata rest) := by
    induction rest with
    | nil => rfl
    | cons token rest ih =>
        simp only [List.map_cons, List.mapM_cons, ih]
        rfl
  cases tokens with
  | nil => rfl
  | cons token rest =>
      simp only [chatContent, List.mapM_cons, later]
      rfl

def stopFrames : List StdString :=
  [makeStreamingChunk metadata.completionId metadata.created metadata.modelId
      none (some (literal "stop")),
    makeSseDone]

theorem streamingFormat_success_first (response : CompletionResult) :
    ((streamingFormat json).success metadata.header response).map Prod.snd =
      .ok (makeFirstStreamingChunk metadata.completionId metadata.created
          metadata.modelId
          (if response.text.isEmpty then none else some response.text) none ::
        stopFrames metadata) :=
  rfl

theorem streamingFormat_success_started (response : CompletionResult) :
    ((streamingFormat json).success metadata.started response).map Prod.snd =
      .ok (stopFrames metadata) :=
  rfl

theorem streamingFormat_failure_first (error : ApiError) :
    ((streamingFormat json).failure metadata.header error).map Prod.snd =
      (makeSseData json (makeErrorBody error)).map fun frame => [frame] := by
  show Except.map Prod.snd (Except.map _ _) = _
  cases makeSseData json (makeErrorBody error) <;> rfl

theorem streamingFormat_failure_started (error : ApiError) :
    ((streamingFormat json).failure metadata.started error).map Prod.snd =
      .ok [] :=
  rfl

theorem streamingFormat_transcribes :
    Transcribes (streamingFormat json) metadata (Frame.render json metadata)
      chatContent chatTranscript where
  tokens made := by
    rw [streamingFormat_tokens] at made
    rw [chatContent_render]
    exact congrArg (Except.map Prod.snd) made
  conclusion {tokens header frames outcome final tail} made ended := by
    rw [streamingFormat_tokens] at made
    cases made
    have ended := congrArg (Except.map Prod.snd) ended
    cases outcome with
    | success response =>
        cases tokens with
        | nil =>
            cases (streamingFormat_success_first json metadata response).symm.trans
              ended
            simp only [chatTranscript, List.isEmpty_nil, if_true]
            rfl
        | cons token rest =>
            cases (streamingFormat_success_started json metadata
              response).symm.trans ended
            simp only [chatTranscript, List.isEmpty_cons, Bool.false_eq_true,
              if_false, List.mapM_append, chatContent_render]
            rfl
    | failure error =>
        cases tokens with
        | nil =>
            have ended := (streamingFormat_failure_first json metadata
              error).symm.trans ended
            cases made : makeSseData json (makeErrorBody error) with
            | error raised =>
                rw [made] at ended
                contradiction
            | ok frame =>
                rw [made] at ended
                cases ended
                simp only [chatTranscript, List.isEmpty_nil, if_true,
                  List.mapM_cons, Frame.render, made]
                rfl
        | cons token rest =>
            cases (streamingFormat_failure_started json metadata
              error).symm.trans ended
            simp only [chatTranscript, List.isEmpty_cons, Bool.false_eq_true,
              if_false, chatContent_render, List.append_nil]
  grows tokens outcome := by
    cases outcome with
    | success response =>
        cases tokens with
        | nil => exact List.nil_prefix
        | cons token rest => exact List.prefix_append _ _
    | failure error =>
        cases tokens with
        | nil => exact List.nil_prefix
        | cons token rest => exact List.prefix_refl _

theorem deltas_render (tokens : List StdString) :
    (tokens.map Frame.delta).mapM (Frame.render json metadata) =
      deltaFrames json tokens := by
  rw [List.mapM_map]
  rfl

theorem extractionFormat_transcribes :
    Transcribes (extractionFormat json) metadata (Frame.render json metadata)
      (List.map .delta) extractionTranscript where
  tokens made := by
    rw [deltas_render]
    exact (extractionFormat_frames json metadata made).2
  conclusion {tokens header frames outcome final tail} made ended := by
    obtain ⟨rfl, deltas⟩ := extractionFormat_frames json metadata made
    cases outcome with
    | success response =>
        have ended : (makeSseData json (makeExtractionBody json
            metadata.completionId metadata.created metadata.modelId
            response)).map (fun frame => (metadata.header, [frame, makeSseDone])) =
              .ok (final, tail) := ended
        cases body : makeSseData json (makeExtractionBody json
            metadata.completionId metadata.created metadata.modelId
            response) with
        | error raised =>
            rw [body] at ended
            contradiction
        | ok frame =>
            rw [body] at ended
            cases ended
            simp only [extractionTranscript, List.mapM_append, deltas_render,
              deltas, List.mapM_cons, Frame.render, body]
            rfl
    | failure error =>
        have ended : (makeSseData json (makeErrorBody error)).map
            (fun frame => (metadata.header, [frame])) = .ok (final, tail) := ended
        cases body : makeSseData json (makeErrorBody error) with
        | error raised =>
            rw [body] at ended
            contradiction
        | ok frame =>
            rw [body] at ended
            cases ended
            simp only [extractionTranscript, List.mapM_append, deltas_render,
              deltas, List.mapM_cons, Frame.render, body]
            rfl
  grows tokens outcome := by
    cases outcome with
    | success response => exact List.prefix_append _ _
    | failure error => exact List.prefix_append _ _

/-- In a run whose steps are all calm, what a client has received is a prefix of
one well-formed transcript, nothing follows the end, and a connected client
receives all of it, whichever of attach and finish comes first. -/
theorem streams_transcribed (accepts : Nat → Bool) :
    (∀ schedule system,
      Respects (step (streamingFormat json) accepts)
        (Calm (streamingFormat json)) (initial metadata) schedule →
      run (step (streamingFormat json) accepts) (initial metadata) schedule =
        some system →
      WellStreamed chatTranscript (Frame.render json metadata) system) ∧
    (∀ schedule system,
      Respects (step (extractionFormat json) accepts)
        (Calm (extractionFormat json)) (initial metadata) schedule →
      run (step (extractionFormat json) accepts) (initial metadata) schedule =
        some system →
      WellStreamed extractionTranscript (Frame.render json metadata) system) ∧
    (∀ tokens outcome, ChatGrammar (chatTranscript tokens outcome)) ∧
    ∀ tokens response,
      (chatTranscript tokens (.success response)).flatMap Frame.content =
        if tokens.isEmpty then response.text else tokens.flatten := by
  refine ⟨?_, ?_, chatTranscript_grammar, chatTranscript_content⟩
  · intro schedule system respected reached
    exact (Delivery.reached respected reached).wellStreamed
      (streamingFormat_transcribes json metadata)
  · intro schedule system respected reached
    exact (Delivery.reached respected reached).wellStreamed
      (extractionFormat_transcribes json metadata)

end Classes

/-! The replay overtaken, and then everything goes right. -/

def sampleReply : CompletionResult := { text := literal "ab" }

def spoiling : List (Label CompletionResult) :=
  overtaking ++
    [.run .handler, .finish (.success sampleReply), .attach, .run .transport,
      .run .handler, .run .handler, .run .handler]

set_option maxRecDepth 4000 in
theorem streams_spoiled :
    ¬ ((∀ schedule system,
        run (step (streamingFormat asciiJson) fun _ => true)
          (initial sampleMetadata) schedule = some system →
        WellStreamed chatTranscript (Frame.render asciiJson sampleMetadata)
          system) ∧
      (∀ schedule system,
        run (step (extractionFormat asciiJson) fun _ => true)
          (initial sampleMetadata) schedule = some system →
        WellStreamed extractionTranscript
          (Frame.render asciiJson sampleMetadata) system) ∧
      (∀ tokens outcome, ChatGrammar (chatTranscript tokens outcome)) ∧
      ∀ tokens response,
        (chatTranscript tokens (.success response)).flatMap Frame.content =
          if tokens.isEmpty then response.text else tokens.flatten) := by
  rintro ⟨claimed, _⟩
  obtain ⟨rendered, _⟩ := (claimed spoiling _ rfl).whole (.success sampleReply)
    rfl rfl rfl (Core.not_failed rfl) (by intro party; cases party <;> rfl)
  have swapped :
      contentFrames sampleMetadata [literal "a", literal "b"] ++
          stopFrames sampleMetadata =
        contentFrames sampleMetadata [literal "b", literal "a"] ++
          stopFrames sampleMetadata := Except.ok.inj rendered
  exact absurd swapped (by decide)

/-- The same request, the replay done first. -/
def faithful : List (Label CompletionResult) :=
  replayedFirst ++
    [.run .handler, .finish (.success sampleReply), .attach, .run .transport,
      .run .handler, .run .handler, .run .handler]

/-- An extraction that reports its error before its client is attached. -/
def reporting : List (Label ExtractionResult) :=
  replayedFirst ++
    [.run .handler, .finish (.failure (serverError (literal "no") none)),
      .run .handler, .run .handler, .attach, .run .transport, .run .transport]

theorem streams_transcribed_sample :
    (∃ system, run (step (streamingFormat asciiJson) fun _ => true)
        (initial sampleMetadata) faithful = some system ∧
      WellStreamed chatTranscript (Frame.render asciiJson sampleMetadata)
        system) ∧
    ∃ system, run (step (extractionFormat asciiJson) fun _ => true)
        (initial sampleMetadata) reporting = some system ∧
      WellStreamed extractionTranscript (Frame.render asciiJson sampleMetadata)
        system := by
  have transcribed := streams_transcribed asciiJson sampleMetadata fun _ => true
  exact ⟨⟨_, rfl, transcribed.1 faithful _ (by decide) rfl⟩,
    ⟨_, rfl, transcribed.2.1 reporting _ (by decide) rfl⟩⟩

end ZooKeeperServer.Streaming
