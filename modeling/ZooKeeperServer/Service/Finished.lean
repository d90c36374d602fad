import ZooKeeperServer.Service.SessionOrder
import ZooKeeperServer.Service.Origins

namespace ZooKeeperServer.Service

open SessionStore Transition

/-! What a step leaves of the actors, and of what they have been told. -/

/-- The actor has returned from its call, or has a pending object to hand out. -/
def Actor.finished : Actor → Bool
  | .request ⟨_, .refused _, _, _, _⟩ => true
  | .request ⟨_, .pending _, _, _, _⟩ => true
  | .deletion (.returned _ _) => true
  | .cancellation (.returned _ _) => true
  | .history (.returned _) => true
  | .prompt (.returned _) => true
  | .caller (.returned _) => true
  | _ => false

section Staying

variable {config : Configuration} {prompt : StdString} {commands : List Label}
  {command : Label} {service after : ChatService} {core changed : Core}
  {actor updated : Actor} {input : Input}

theorem Consumed.keeps_target {trackingId : RequestId} {start : StartRequest}
    {pending moved : Pending} {index : Nat} {action : Action}
    (consumed : Consumed config core trackingId start pending index action
      changed moved) : moved.target = pending.target := by
  cases consumed with
  | proceed at_ operated => exact operated.keeps.1
  | _ => rfl

theorem Turn.stays (finished : actor.finished = true)
    (turn : Turn config core actor input changed updated) :
    updated.finished = true ∧ updated.standing = actor.standing := by
  cases turn with
  | @advance request _ _ _ advanced =>
      obtain ⟨start, phase, drawn, submission, snapshot⟩ := request
      cases advanced with
      | raise at_ =>
          obtain ⟨messages, rfl⟩ | ⟨zooRequestId, rfl⟩ := at_
          · cases finished
          · cases finished
      | beginRequest at_ session executed proceeds =>
          obtain rfl := at_
          cases finished
      | prepare at_ =>
          obtain rfl := at_
          cases finished
      | complete at_ =>
          obtain rfl := at_
          cases finished
      | spawn at_ =>
          obtain rfl := at_
          cases finished
      | track at_ =>
          obtain rfl := at_
          cases finished
      | number at_ sessionless =>
          obtain rfl := at_
          cases finished
      | register at_ drew =>
          obtain rfl := at_
          cases finished
  | @consume request pending moved _ _ _ _ at_ drew consumed =>
      obtain ⟨start, phase, drawn, submission, snapshot⟩ := request
      obtain rfl : phase = .pending pending := at_
      refine ⟨rfl, ?_⟩
      simp only [Actor.standing, Phase.standing, consumed.keeps_target]
  | deletion deleting =>
      cases deleting with
      | _ => cases finished
  | @cancellation _ call _ _ stepped =>
      cases call with
      | returned requestId result => cases stepped
      | _ => cases finished
  | @history _ call _ _ stepped =>
      cases call with
      | returned result => cases stepped
      | _ => cases finished
  | @prompt _ call _ _ stepped =>
      cases call with
      | returned text => cases stepped
      | _ => cases finished
  | caller executed => cases finished

theorem Turn.same_request {moved : Request}
    (turn : Turn config core actor input changed (.request moved)) :
    ∃ request, actor = .request request ∧ moved.start = request.start := by
  cases turn with
  | advance advanced => exact ⟨_, rfl, advanced.start⟩
  | consume at_ drew consumed => exact ⟨_, rfl, rfl⟩

theorem step_actors (stepped : step config service command = some after) :
    after.actors = service.actors ∨
      (∃ joined, after.actors = service.actors ++ [joined]) ∨
      ∃ (index : Nat) (actor : Actor) (input : Input) (core : Core)
        (updated : Actor), service.actors[index]? = some actor ∧
          Turn config service.shared actor input core updated ∧
          after.actors = service.actors.set index updated := by
  cases command with
  | start ready start =>
      cases ready with
      | true =>
          cases Option.some.inj stepped
          exact .inr (.inl ⟨_, rfl⟩)
      | false =>
          cases Option.some.inj stepped
          exact .inl rfl
  | agentHistory ready request =>
      cases ready with
      | true =>
          cases Option.some.inj stepped
          exact .inr (.inl ⟨_, rfl⟩)
      | false =>
          cases Option.some.inj stepped
          exact .inl rfl
  | call call =>
      simp only [Service.step] at stepped
      split at stepped
      · cases Option.some.inj stepped
        exact .inr (.inl ⟨_, rfl⟩)
      · cases stepped
  | act index input =>
      obtain ⟨actor, core, updated, found, acted, rfl⟩ :=
        Crew.turn_eq_some stepped
      exact .inr (.inr ⟨index, actor, input, core, updated, found,
        act_turn acted, rfl⟩)
  | _ =>
      cases Option.some.inj stepped
      exact .inr (.inl ⟨_, rfl⟩)

/-- An actor after a step: what it is there for is the same, and what it has been
told if it was finished. -/
structure Actor.Succeeds (actor later : Actor) : Prop where
  stays : actor.finished = true →
    later.finished = true ∧ later.standing = actor.standing
  started : ∀ moved, later = .request moved →
    ∃ request, actor = .request request ∧ moved.start = request.start

theorem Actor.Succeeds.refl (actor : Actor) : actor.Succeeds actor :=
  ⟨fun finished => ⟨finished, rfl⟩, fun moved same => ⟨moved, same, rfl⟩⟩

theorem step_succeeds (stepped : step config service command = some after)
    {index : Nat} (found : service.actors[index]? = some actor) :
    ∃ later, after.actors[index]? = some later ∧ actor.Succeeds later := by
  obtain ⟨bound, -⟩ := List.getElem?_eq_some_iff.mp found
  rcases step_actors stepped with same | ⟨joined, same⟩ |
    ⟨other, turned, input, core, updated, at_, turn, same⟩
  · rw [same]
    exact ⟨actor, found, .refl actor⟩
  · rw [same]
    exact ⟨actor, (List.getElem?_append_left bound).trans found, .refl actor⟩
  · rw [same]
    by_cases here : other = index
    · subst here
      obtain rfl := Option.some.inj (found.symm.trans at_)
      refine ⟨updated, List.getElem?_set_self bound, turn.stays, ?_⟩
      rintro moved rfl
      exact turn.same_request
    · exact ⟨actor, (List.getElem?_set_ne here).trans found, .refl actor⟩

theorem step_length (stepped : step config service command = some after) :
    service.actors.length ≤ after.actors.length := by
  rcases step_actors stepped with same | ⟨joined, same⟩ |
    ⟨_, _, _, _, _, -, -, same⟩
  · rw [same]
  · rw [same, List.length_append]
    exact Nat.le_add_right _ _
  · rw [same, List.length_set]

theorem ledgerOf_concat
    (ran : run (step config) (initialService prompt) commands = some service)
    (stepped : step config service command = some after) :
    ledgerOf config prompt (commands ++ [command]) =
      keepLedger service command (ledgerOf config prompt commands) := by
  have noted := ledgerOf_eq (run_concat.mpr ⟨service, ran, stepped⟩)
  obtain ⟨⟨middle, books⟩, first, second⟩ := run_concat.mp noted
  obtain ⟨rfl, rfl⟩ :
      service = middle ∧ ledgerOf config prompt commands = books := by
    simpa using (ledgerOf_eq ran).symm.trans first
  exact (noting_eq_some.mp second).2.symm

theorem ledgerOf_joined
    (ran : run (step config) (initialService prompt) commands = some service) :
    (ledgerOf config prompt commands).asked.length = service.actors.length := by
  obtain ⟨userOf, system, -, refines⟩ := run_refines (ledgerOf_eq ran)
  exact refines.joined

end Staying

end ZooKeeperServer.Service
