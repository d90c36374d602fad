import ZooKeeperServer.Service.Reachability

namespace ZooKeeperServer.Service

open SessionStore Transition

/-! The three copies of the system prompt.  An update writes them one after the
other under three different locks, and nothing orders the writes of two updates
but the first. -/

/-- A write of the agent's or the store's copy finds no later update there. -/
def InOrder : Terms := fun core actor input _ =>
  match actor, input with
  | .prompt (.givingAgent _ update), .run _ => core.agentPromptUpdate ≤ update
  | .prompt (.givingStore _ update), .run _ => core.storePromptUpdate ≤ update
  | _, _ => True

instance decidableInOrder (core : Core) (actor : Actor) (input : Input)
    (other : Actor) : Decidable (InOrder core actor input other) := by
  unfold InOrder
  split <;> infer_instance

def Actor.updating : Actor → Bool
  | .prompt (.returned _) => false
  | .prompt _ => true
  | _ => false

def Outside (_ : Core) (actor : Actor) : Prop :=
  ∀ current, actor = .caller (.suspended current) → current.newPrompt = none

structure SamePrompts (core after : Core) : Prop where
  requested : after.requestSystemPrompt = core.requestSystemPrompt
  agent : after.agentPrompt = core.agentPrompt
  base : after.store.baseSystemPrompt = core.store.baseSystemPrompt
  updates : after.promptUpdates = core.promptUpdates
  agentUpdate : after.agentPromptUpdate = core.agentPromptUpdate
  storeUpdate : after.storePromptUpdate = core.storePromptUpdate

section Writing

variable {config : Configuration} {readings : Readings}
  {userOf : RequestId → ChatMessage} {core after : Core} {actor updated : Actor}
  {input : Input} {current : Section} {sessionId : StdString}

theorem newPrompt_of_begins {trackingId : RequestId}
    (begins : current.begins = some trackingId) : current.newPrompt = none := by
  cases current with
  | enter call =>
      cases call with
      | setBaseSystemPrompt prompt => cases begins
      | _ => rfl
  | _ => rfl

theorem newPrompt_of_ends {trackingId : RequestId}
    (ends : current.ends = some trackingId) : current.newPrompt = none := by
  cases current with
  | enter call =>
      cases call with
      | setBaseSystemPrompt prompt => cases ends
      | _ => rfl
  | _ => rfl

theorem newPrompt_of_on {heap : List SessionState}
    (on : current.On sessionId heap) : current.newPrompt = none := by
  cases current with
  | enter call =>
      cases call with
      | setBaseSystemPrompt prompt => cases on
      | _ => rfl
  | _ => rfl

theorem execute_prompts {progress : Progress}
    (executed : core.execute config readings current = some (after, progress))
    (outside : current.newPrompt = none) : SamePrompts core after := by
  obtain ⟨outcome, ran, rfl, rfl⟩ := execute_outcome executed
  refine ⟨rfl, rfl, ?_, rfl, rfl, rfl⟩
  simpa [outside] using exec_baseSystemPrompt ran

/-- Only `set_system_prompt` writes the prompts. -/
theorem Turn.prompts (sound : actor.Sound userOf core)
    (outside : Outside core actor) (other : ∀ call, actor ≠ .prompt call)
    (turn : Turn config core actor input after updated) :
    SamePrompts core after := by
  have still : SamePrompts core core := ⟨rfl, rfl, rfl, rfl, rfl, rfl⟩
  cases turn with
  | advance advanced =>
      cases advanced with
      | beginRequest at_ session executed proceeds =>
          have held := sound.2
          rw [at_] at held
          obtain ⟨trackingId, named, opening⟩ := held
          exact execute_prompts executed (newPrompt_of_begins opening.begins)
      | _ => exact ⟨rfl, rfl, rfl, rfl, rfl, rfl⟩
  | consume at_ drew consumed =>
      cases consumed with
      | @proceed _ _ operation rest _ _ _ copyAt operated =>
          have outside (current : Section) (same : operation = .store current) :
              current.newPrompt = none := by
            subst same
            obtain ⟨named, begin, _, ending⟩ := (sound.pending at_).ending drew
              (List.mem_of_getElem? copyAt) List.mem_cons_self
            exact newPrompt_of_ends ending.ends
          cases operated with
          | storeProceeds executed => exact execute_prompts executed (outside _ rfl)
          | storeReturns executed => exact execute_prompts executed (outside _ rfl)
          | _ => exact ⟨rfl, rfl, rfl, rfl, rfl, rfl⟩
      | _ => exact still
  | deletion deleting =>
      cases deleting with
      | proceeds executed =>
          exact execute_prompts executed (newPrompt_of_on sound.2.2)
      | fails executed =>
          exact execute_prompts executed (newPrompt_of_on sound.2.2)
      | removed executed =>
          exact execute_prompts executed (newPrompt_of_on sound.2.2)
      | _ => exact ⟨rfl, rfl, rfl, rfl, rfl, rfl⟩
  | cancellation stepped =>
      rcases cancellation_calls stepped with rfl | ⟨zooRequestId, rfl⟩
      · exact still
      · exact ⟨rfl, rfl, rfl, rfl, rfl, rfl⟩
  | history stepped =>
      rcases history_sets stepped with rfl | ⟨messages, rfl⟩
      · exact still
      · exact ⟨rfl, rfl, rfl, rfl, rfl, rfl⟩
  | prompt stepped => exact absurd rfl (other _)
  | caller executed => exact execute_prompts executed (outside _ rfl)

theorem outside_disciplined :
    Discipline config .none (fun _ => True) Outside where
  own := by
    intro userOf core after actor updated input _ _ _ outside _ turn
    refine ⟨trivial, ?_⟩
    rintro current rfl
    cases turn with
    | caller executed => exact (execute_passes executed).inside
  others := fun _ _ _ _ _ _ outside _ _ => outside
  calm := fun _ => ⟨fun _ => trivial, fun _ outside => outside⟩
  starts := by
    rintro userOf core start _ _ current ⟨⟩
  joins := by
    rintro core actor arriving current rfl
    cases arriving with
    | @caller call allowed =>
        cases call with
        | setBaseSystemPrompt prompt => cases allowed
        | _ => rfl

end Writing

/-- The writes of this update to the agent's copy, or to the store's, are still to
come. -/
def Actor.owesAgent (update : Nat) (prompt : StdString) (actor : Actor) : Prop :=
  actor = .prompt (.givingAgent prompt update)

def Actor.owesStore (update : Nat) (prompt : StdString) (actor : Actor) : Prop :=
  actor = .prompt (.givingAgent prompt update) ∨
    actor = .prompt (.givingStore prompt update)

/-- One of the other copies of the prompt, the number of the update last written to
it, and who still has to write it. -/
structure Follows (service : ChatService) (copy : StdString) (written : Nat)
    (owes : Nat → StdString → Actor → Prop) : Prop where
  known : written ≤ service.shared.promptUpdates
  latest : written = service.shared.promptUpdates →
    copy = service.shared.requestSystemPrompt
  owed : written ≠ service.shared.promptUpdates →
    ∃ (index : Nat) (actor : Actor) (prompt : StdString),
      service.actors[index]? = some actor ∧
        owes service.shared.promptUpdates prompt actor
  carried : ∀ (index : Nat) (actor : Actor) (update : Nat) (prompt : StdString),
    service.actors[index]? = some actor → owes update prompt actor →
    update ≤ service.shared.promptUpdates ∧
      (update = service.shared.promptUpdates →
        prompt = service.shared.requestSystemPrompt)

section Following

variable {config : Configuration} {service next : ChatService}
  {copy prompt : StdString} {written update : Nat}
  {owes : Nat → StdString → Actor → Prop} {index : Nat}
  {actor updated : Actor} {after : Core}

theorem Follows.mono (follows : Follows service copy written owes)
    (updates : next.shared.promptUpdates = service.shared.promptUpdates)
    (requested : next.shared.requestSystemPrompt =
      service.shared.requestSystemPrompt)
    (stays : ∀ (index : Nat) actor update prompt,
      service.actors[index]? = some actor → owes update prompt actor →
      ∃ later, next.actors[index]? = some later ∧ owes update prompt later)
    (stayed : ∀ (index : Nat) actor update prompt,
      next.actors[index]? = some actor → owes update prompt actor →
      ∃ before, service.actors[index]? = some before ∧
        owes update prompt before) :
    Follows next copy written owes := by
  constructor
  · exact updates ▸ follows.known
  · rw [updates, requested]
    exact follows.latest
  · rw [updates]
    intro behind
    obtain ⟨index, actor, prompt, found, owed⟩ := follows.owed behind
    obtain ⟨later, at_, still⟩ := stays index actor _ prompt found owed
    exact ⟨index, later, prompt, at_, still⟩
  · rw [updates, requested]
    intro index actor update prompt found owed
    obtain ⟨before, at_, was⟩ := stayed index actor update prompt found owed
    exact follows.carried index before update prompt at_ was

theorem Follows.turn (follows : Follows service copy written owes)
    (found : service.actors[index]? = some actor)
    (updates : after.promptUpdates = service.shared.promptUpdates)
    (requested : after.requestSystemPrompt = service.shared.requestSystemPrompt)
    (same : ∀ update prompt, owes update prompt updated ↔
      owes update prompt actor) :
    Follows ⟨after, service.actors.set index updated⟩ copy written owes := by
  obtain ⟨bound, _⟩ := List.getElem?_eq_some_iff.mp found
  refine follows.mono updates requested ?_ ?_
  · intro other held update prompt heldAt owed
    by_cases here : index = other
    · subst here
      obtain rfl := Option.some.inj (found.symm.trans heldAt)
      exact ⟨updated, List.getElem?_set_self bound, (same _ _).mpr owed⟩
    · exact ⟨held, (List.getElem?_set_ne here).trans heldAt, owed⟩
  · intro other held update prompt heldAt owed
    rcases Crew.getElem?_set_origin heldAt with ⟨rfl, rfl⟩ | ⟨_, before⟩
    · exact ⟨actor, found, (same _ _).mp owed⟩
    · exact ⟨held, before, owed⟩

theorem Follows.begins (follows : Follows service copy written owes)
    (found : service.actors[index]? = some actor)
    (updates : after.promptUpdates = service.shared.promptUpdates + 1)
    (requested : after.requestSystemPrompt = prompt)
    (owing : ∀ update other, owes update other updated ↔
      update = service.shared.promptUpdates + 1 ∧ other = prompt) :
    Follows ⟨after, service.actors.set index updated⟩ copy written owes := by
  obtain ⟨bound, _⟩ := List.getElem?_eq_some_iff.mp found
  have known := follows.known
  constructor
  · change written ≤ after.promptUpdates
    omega
  · change written = after.promptUpdates → _
    omega
  · intro _
    change ∃ (position : Nat) (actor : Actor) (prompt : StdString),
      (service.actors.set index updated)[position]? = some actor ∧
        owes after.promptUpdates prompt actor
    exact ⟨index, updated, prompt, List.getElem?_set_self bound,
      (owing _ _).mpr ⟨updates, rfl⟩⟩
  · intro other held update carried heldAt owed
    change update ≤ after.promptUpdates ∧
      (update = after.promptUpdates → carried = after.requestSystemPrompt)
    rcases Crew.getElem?_set_origin heldAt with ⟨rfl, rfl⟩ | ⟨_, before⟩
    · obtain ⟨rfl, rfl⟩ := (owing _ _).mp owed
      exact ⟨updates.ge, fun _ => requested.symm⟩
    · have earlier := (follows.carried other held update carried before owed).1
      exact ⟨by omega, fun _ => by omega⟩

theorem Follows.writes (follows : Follows service copy written owes)
    (found : service.actors[index]? = some actor)
    (updates : after.promptUpdates = service.shared.promptUpdates)
    (requested : after.requestSystemPrompt = service.shared.requestSystemPrompt)
    (inOrder : written ≤ update)
    (owed : owes update prompt actor)
    (single : ∀ other text, owes other text actor → other = update)
    (done : ∀ other text, ¬ owes other text updated) :
    Follows ⟨after, service.actors.set index updated⟩ prompt update owes := by
  obtain ⟨known, latest⟩ := follows.carried index actor update prompt found owed
  constructor
  · exact updates ▸ known
  · change update = after.promptUpdates → prompt = after.requestSystemPrompt
    rw [updates, requested]
    exact latest
  · change update ≠ after.promptUpdates → ∃ (position : Nat) (held : Actor)
      (text : StdString),
      (service.actors.set index updated)[position]? = some held ∧
        owes after.promptUpdates text held
    rw [updates]
    intro behind
    have stale : written ≠ service.shared.promptUpdates := by omega
    obtain ⟨other, held, text, heldAt, owing⟩ := follows.owed stale
    have different : index ≠ other := by
      rintro rfl
      obtain rfl := Option.some.inj (found.symm.trans heldAt)
      exact behind (single _ _ owing).symm
    exact ⟨other, held, text, (List.getElem?_set_ne different).trans heldAt,
      owing⟩
  · intro other held later text heldAt owing
    change later ≤ after.promptUpdates ∧
      (later = after.promptUpdates → text = after.requestSystemPrompt)
    rw [updates, requested]
    rcases Crew.getElem?_set_origin heldAt with ⟨rfl, rfl⟩ | ⟨_, before⟩
    · exact absurd owing (done _ _)
    · exact follows.carried other held later text before owing

theorem Follows.joins {core : Core}
    (follows : Follows service copy written owes)
    (updates : core.promptUpdates = service.shared.promptUpdates)
    (requested : core.requestSystemPrompt = service.shared.requestSystemPrompt)
    (free : ∀ update prompt, ¬ owes update prompt actor) :
    Follows (service.join core actor) copy written owes := by
  refine follows.mono updates requested ?_ ?_
  · intro index held update prompt found owed
    obtain ⟨bound, _⟩ := List.getElem?_eq_some_iff.mp found
    exact ⟨held, (List.getElem?_append_left bound).trans found, owed⟩
  · intro index held update prompt found owed
    rcases Crew.getElem?_join_origin found with before | ⟨_, rfl⟩
    · exact ⟨held, before, owed⟩
    · exact absurd owed (free _ _)

end Following

structure Synchronised (service : ChatService) : Prop where
  agent : Follows service service.shared.agentPrompt
    service.shared.agentPromptUpdate Actor.owesAgent
  store : Follows service service.shared.store.baseSystemPrompt
    service.shared.storePromptUpdate Actor.owesStore

section Synchronising

variable {config : Configuration} {userOf : RequestId → ChatMessage}
  {service next : ChatService} {label : Label}

theorem Synchronised.turn {index : Nat} {input : Input} {actor updated : Actor}
    {after : Core} (synchronised : Synchronised service)
    (held : Held config userOf service)
    (outside : Outside service.shared actor)
    (inOrder : InOrder service.shared actor input actor)
    (found : service.actors[index]? = some actor)
    (turn : Turn config service.shared actor input after updated) :
    Synchronised ⟨after, service.actors.set index updated⟩ := by
  obtain ⟨agent, store⟩ := synchronised
  have aside (before : ∀ call, actor ≠ .prompt call)
      (later : ∀ call, updated ≠ .prompt call) :
      Synchronised ⟨after, service.actors.set index updated⟩ := by
    have same := turn.prompts (held.each index actor found) outside before
    constructor
    · change Follows _ after.agentPrompt after.agentPromptUpdate _
      rw [same.agent, same.agentUpdate]
      exact agent.turn found same.updates same.requested
        (by simp [Actor.owesAgent, before, later])
    · change Follows _ after.store.baseSystemPrompt after.storePromptUpdate _
      rw [same.base, same.storeUpdate]
      exact store.turn found same.updates same.requested
        (by simp [Actor.owesStore, before, later])
  cases turn with
  | @prompt readings call changed _ stepped =>
      cases call with
      | updating prompt =>
          cases Option.some.inj stepped
          exact ⟨agent.begins found rfl rfl (by simp [Actor.owesAgent]; tauto),
            store.begins found rfl rfl (by simp [Actor.owesStore]; tauto)⟩
      | givingAgent prompt update =>
          cases Option.some.inj stepped
          refine ⟨agent.writes found rfl rfl inOrder rfl ?_ ?_,
            store.turn found rfl rfl ?_⟩
          · rintro other text ⟨⟩
            rfl
          · rintro other text ⟨⟩
          · simp [Actor.owesStore]
      | givingStore prompt update =>
          obtain ⟨⟨middle, progress⟩, executed, same⟩ :=
            Option.map_eq_some_iff.mp stepped
          cases same
          obtain ⟨outcome, ran, rfl, rfl⟩ := execute_outcome executed
          have base : outcome.store.baseSystemPrompt = prompt :=
            exec_baseSystemPrompt ran
          refine ⟨agent.turn found rfl rfl (by simp [Actor.owesAgent]), ?_⟩
          change Follows _ outcome.store.baseSystemPrompt _ _
          rw [base]
          refine store.writes found rfl rfl inOrder (.inr rfl) ?_ ?_
          · rintro other text (⟨⟨⟩⟩ | ⟨⟨⟩⟩)
            rfl
          · rintro other text (⟨⟨⟩⟩ | ⟨⟨⟩⟩)
      | returned prompt => cases stepped
  | _ => exact aside (by simp) (by simp)

theorem Synchronised.joins {core : Core} {actor : Actor}
    (synchronised : Synchronised service) (calm : Calm service.shared core)
    (free : ∀ prompt update, actor ≠ .prompt (.givingAgent prompt update) ∧
      actor ≠ .prompt (.givingStore prompt update)) :
    Synchronised (service.join core actor) := by
  obtain ⟨counter, turnedAway, _, rfl⟩ := calm
  exact ⟨synchronised.agent.joins rfl rfl
      (by simp [Actor.owesAgent, free]),
    synchronised.store.joins rfl rfl (by simp [Actor.owesStore, free])⟩

theorem Synchronised.step (synchronised : Synchronised service)
    (held : Held config userOf service)
    (outside : Obeyed (fun _ => True) Outside service)
    (inOrder : InOrder.Met service label)
    (stepped : step config service label = some next) :
    Synchronised next := by
  cases step_stepped stepped with
  | turnsAway elsewhere =>
      exact ⟨synchronised.agent.mono rfl rfl
          (fun _ actor _ _ found owed => ⟨actor, found, owed⟩)
          (fun _ actor _ _ found owed => ⟨actor, found, owed⟩),
        synchronised.store.mono rfl rfl
          (fun _ actor _ _ found owed => ⟨actor, found, owed⟩)
          (fun _ actor _ _ found owed => ⟨actor, found, owed⟩)⟩
  | starts => exact synchronised.joins (draw_calm _ _) (by simp)
  | arrives arriving elsewhere =>
      refine synchronised.joins ⟨_, _, le_rfl, rfl⟩ fun prompt update => ?_
      cases arriving <;> simp
  | @turn index input actor updated after found turn =>
      exact synchronised.turn held (outside.2 index actor found)
        (inOrder actor found actor (List.mem_of_getElem? found)) found turn

theorem initialService_synchronised (prompt : StdString) :
    Synchronised (initialService prompt) where
  agent := ⟨le_rfl, fun _ => rfl, fun behind => absurd rfl behind,
    by simp [initialService]⟩
  store := ⟨le_rfl, fun _ => rfl, fun behind => absurd rfl behind,
    by simp [initialService]⟩

end Synchronising

/-- Once no update is under way the three copies of the prompt agree. -/
theorem prompts_agree {config : Configuration} {prompt : StdString}
    {schedule : List Label} {service : ChatService}
    (respected : Respects (step config) InOrder.Met (initialService prompt)
      schedule)
    (ran : run (step config) (initialService prompt) schedule = some service)
    (quiet : ∀ actor ∈ service.actors, actor.updating = false) :
    service.shared.store.baseSystemPrompt =
        service.shared.requestSystemPrompt ∧
      service.shared.agentPrompt = service.shared.requestSystemPrompt := by
  let Holds (service : ChatService) : Prop :=
    (∃ userOf, Held config userOf service) ∧
      Obeyed (fun _ => True) Outside service ∧ Synchronised service
  have preserved {state next : ChatService} {label : Label}
      (inOrder : InOrder.Met state label) (holds : Holds state)
      (stepped : step config state label = some next) : Holds next := by
    obtain ⟨⟨userOf, held⟩, outside, synchronised⟩ := holds
    exact ⟨held.step stepped,
      outside.step outside_disciplined held Terms.none_met stepped,
      synchronised.step held outside inOrder stepped⟩
  have first : Holds (initialService prompt) :=
    ⟨⟨fun _ => .user [], initialService_held prompt⟩,
      ⟨trivial, by simp [initialService]⟩, initialService_synchronised prompt⟩
  obtain ⟨_, _, agent, store⟩ := respected.invariant preserved first ran
  constructor
  · apply store.latest
    by_contra behind
    obtain ⟨index, actor, text, found, owed⟩ := store.owed behind
    rcases owed with rfl | rfl
    · cases quiet _ (List.mem_of_getElem? found)
    · cases quiet _ (List.mem_of_getElem? found)
  · apply agent.latest
    by_contra behind
    obtain ⟨index, actor, text, found, rfl⟩ := agent.owed behind
    cases quiet _ (List.mem_of_getElem? found)

/-! Two updates, whose writes come in the given order. -/

def sampleUpdates (order : List Nat) : List Label :=
  [.setSystemPrompt (literal "a"), .setSystemPrompt (literal "b")] ++
    order.map fun index => .act index (.run ⟨0, 0, []⟩)

theorem prompts_agree_sample :
    (sampleRun (sampleUpdates [0, 1, 0, 1, 0, 1])).shared.agentPrompt =
      (sampleRun
        (sampleUpdates [0, 1, 0, 1, 0, 1])).shared.requestSystemPrompt :=
  (prompts_agree (by decide +kernel) (sampleRun_ran (by decide +kernel))
    (by decide +kernel)).2

/-! The first update stops after its state update until the second one is over. -/

theorem prompts_disagree :
    ¬ ∀ (config : Configuration) (prompt : StdString) (service : ChatService),
      Reachable (step config) (initialService prompt) service →
      (∀ actor ∈ service.actors, actor.updating = false) →
      service.shared.store.baseSystemPrompt =
          service.shared.requestSystemPrompt ∧
        service.shared.agentPrompt = service.shared.requestSystemPrompt := by
  intro claim
  have ran : run (step sampleConfig) (initialService [])
      (sampleUpdates [0, 1, 1, 1, 0, 0]) =
      some (sampleRun (sampleUpdates [0, 1, 1, 1, 0, 0])) :=
    sampleRun_ran (by decide +kernel)
  have agree := claim sampleConfig [] _ ⟨_, ran⟩ (by decide +kernel)
  exact absurd agree (by decide +kernel)

end ZooKeeperServer.Service
