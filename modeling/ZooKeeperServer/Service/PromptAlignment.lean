import ZooKeeperServer.Service.RetainedHistory

namespace ZooKeeperServer.Service

open SessionStore Transition

/-! The retained history starts with the system prompt, from the time the prompt is
updated or the history cleared until somebody puts another history in its place. -/

/-- The messages without a leading system message. -/
def conversation : List ChatMessage → List ChatMessage
  | [] => []
  | front :: rest => if front.role = .system then rest else front :: rest

/-- The history starts with the prompt, if there is one. -/
def Aligned (prompt : StdString) (history : List ChatMessage) : Prop :=
  prompt ≠ [] → ∃ front rest, history = front :: rest ∧
    front.role = .system ∧ front.content = prompt

/-- What a turn does to the history as a whole: `true` for another history in its
place, `false` for one that is made to fit the prompt. -/
def Actor.replaces : Actor → Input → Option Bool
  | .history (.entered (.replace _)), .run _ => some true
  | .history (.entered (.swap _)), .run _ => some true
  | .history (.entered .clear), .run _ => some false
  | .prompt (.updating _), .run _ => some false
  | _, _ => none

/-- Whether the history has been replaced or swapped since the last update of the
prompt or the last clear, from the same before the step. -/
def replacedSince (service : ChatService) : Label → Bool → Bool
  | .act index input, replaced =>
      match service.actors[index]? with
      | some actor => (actor.replaces input).getD replaced
      | none => replaced
  | _, replaced => replaced

def Actor.requests (core : Core) : Actor → Input → StdString
  | .prompt (.updating text), .run _ => text
  | _, _ => core.requestSystemPrompt

section Updates

variable {prompt : StdString} {history : List ChatMessage}

/-- An update puts the prompt, if there is one, in front of the conversation, which
stays as it is. -/
theorem updateSystemPromptState_eq (prompt : StdString)
    (history : List ChatMessage) :
    ∃ lead, updateSystemPromptState prompt history =
        lead ++ conversation history ∧
      lead.length = (if prompt = [] then 0 else 1) ∧
      ∀ message ∈ lead, message.role = .system ∧ message.content = prompt := by
  have system : (ChatMessage.system prompt).role = .system ∧
      (ChatMessage.system prompt).content = prompt := ⟨rfl, rfl⟩
  by_cases empty : prompt = []
  · subst empty
    refine ⟨[], ?_, rfl, by simp⟩
    cases history with
    | nil => rfl
    | cons front rest => simp [updateSystemPromptState, conversation]
  · have given : ¬ prompt.isEmpty = true := by simpa using empty
    cases history with
    | nil =>
        refine ⟨[.system prompt], ?_, by simp [empty], by simp [system]⟩
        simp [updateSystemPromptState, conversation, empty]
    | cons front rest =>
        by_cases leading : front.role = .system
        · refine ⟨[{ front with content := prompt }], ?_, by simp [empty],
            by simp [leading]⟩
          simp [updateSystemPromptState, conversation, leading, empty]
        · refine ⟨[.system prompt], ?_, by simp [empty], by simp [system]⟩
          simp [updateSystemPromptState, conversation, leading, empty]

theorem update_aligned : Aligned prompt (updateSystemPromptState prompt history) := by
  intro given
  obtain ⟨lead, updated, length, each⟩ := updateSystemPromptState_eq prompt history
  rw [if_neg given] at length
  obtain ⟨front, rfl⟩ := List.length_eq_one_iff.mp length
  exact ⟨front, conversation history, updated, each front (by simp)⟩

theorem reset_aligned : Aligned prompt (resetAgentHistoryToSystemPrompt prompt) := by
  intro given
  refine ⟨.system prompt, [], ?_, rfl, rfl⟩
  simp [resetAgentHistoryToSystemPrompt, given]

theorem Aligned.append (aligned : Aligned prompt history)
    (added : List ChatMessage) : Aligned prompt (history ++ added) := by
  intro given
  obtain ⟨front, rest, rfl, fits⟩ := aligned given
  exact ⟨front, rest ++ added, rfl, fits⟩

end Updates

section Turns

variable {config : Configuration} {core after : Core} {actor updated : Actor}
  {input : Input}

theorem execute_requested {readings : Readings} {current : Section}
    {progress : Progress}
    (executed : core.execute config readings current = some (after, progress)) :
    after.requestSystemPrompt = core.requestSystemPrompt := by
  obtain ⟨outcome, -, rfl, -⟩ := execute_outcome executed
  rfl

theorem Turn.requested (turn : Turn config core actor input after updated) :
    after.requestSystemPrompt = actor.requests core input := by
  cases turn with
  | advance advanced =>
      cases advanced with
      | beginRequest at_ session executed proceeds =>
          exact execute_requested executed
      | _ => rfl
  | consume at_ drew consumed =>
      cases consumed with
      | proceed copyAt operated =>
          cases operated with
          | storeProceeds executed => exact execute_requested executed
          | storeReturns executed => exact execute_requested executed
          | _ => rfl
      | _ => rfl
  | deletion deleting =>
      cases deleting with
      | proceeds executed => exact execute_requested executed
      | fails executed => exact execute_requested executed
      | removed executed => exact execute_requested executed
      | _ => rfl
  | cancellation stepped =>
      rcases cancellation_calls stepped with rfl | ⟨zooRequestId, rfl⟩
      · rfl
      · rfl
  | history stepped =>
      rcases history_sets stepped with rfl | ⟨messages, rfl⟩
      · rfl
      · rfl
  | @prompt readings call updated after stepped =>
      cases call with
      | updating text =>
          cases Option.some.inj stepped
          rfl
      | givingAgent text update =>
          cases Option.some.inj stepped
          rfl
      | givingStore text update =>
          obtain ⟨⟨middle, progress⟩, executed, same⟩ :=
            Option.map_eq_some_iff.mp stepped
          cases same
          have kept := execute_requested executed
          exact kept
      | returned text => cases stepped
  | caller executed => exact execute_requested executed

theorem Turn.aligned {replaced : Bool}
    (aligned : replaced = false →
      Aligned core.requestSystemPrompt core.agentHistory)
    (turn : Turn config core actor input after updated)
    (fitting : (actor.replaces input).getD replaced = false) :
    Aligned after.requestSystemPrompt after.agentHistory := by
  rw [turn.requested, turn.writes.history]
  cases actor with
  | request request =>
      have held := aligned fitting
      cases commits : (Actor.request request).commits input with
      | none => simpa [Actor.requests, Actor.writes, commits] using held
      | some turn =>
          simpa [Actor.requests, Actor.writes, commits] using held.append _
  | history call =>
      cases turn with
      | history stepped =>
          cases call with
          | entered request =>
              cases request with
              | get => exact aligned fitting
              | clear => exact reset_aligned
              | replace messages => cases fitting
              | swap messages => cases fitting
              | append message =>
                  have held := aligned fitting
                  simp only [Actor.writes]
                  split
                  · exact held
                  · exact held.append [message]
          | reading => exact aligned fitting
          | returned result => cases stepped
  | prompt call =>
      cases turn with
      | prompt stepped =>
          cases call with
          | updating text => exact update_aligned
          | givingAgent text update => exact aligned fitting
          | givingStore text update => exact aligned fitting
          | returned text => cases stepped
  | _ => exact aligned fitting

theorem step_aligned {service next : ChatService} {label : Label}
    {replaced : Bool}
    (aligned : replaced = false → Aligned service.shared.requestSystemPrompt
      service.shared.agentHistory)
    (stepped : step config service label = some next)
    (fitting : replacedSince service label replaced = false) :
    Aligned next.shared.requestSystemPrompt next.shared.agentHistory := by
  cases label with
  | act index input =>
      cases step_stepped stepped with
      | turnsAway elsewhere => exact absurd rfl (elsewhere index input)
      | arrives arriving elsewhere => exact absurd rfl (elsewhere index input)
      | turn found turn =>
          simp only [replacedSince, found] at fitting
          exact turn.aligned aligned fitting
  | start ready start =>
      have held := aligned fitting
      cases step_stepped stepped with
      | turnsAway elsewhere => exact held
      | arrives arriving elsewhere => exact held
      | starts =>
          obtain ⟨counter, turnedAway, -, drawn⟩ :=
            draw_calm service.shared start
          change Aligned (service.shared.draw start).requestSystemPrompt
            (service.shared.draw start).agentHistory
          rw [drawn]
          exact held
  | _ =>
      have held := aligned fitting
      cases step_stepped stepped with
      | turnsAway elsewhere => exact held
      | arrives arriving elsewhere => exact held

end Turns

/-- Wherever a run leads, the history starts with the prompt unless somebody has
replaced or swapped it since the last update or clear; and an update changes
nothing behind a leading system message. -/
theorem prompt_aligned (config : Configuration) :
    (∀ (prompt : StdString) (schedule : List Label) (service : ChatService),
      run (noting (step config) replacedSince) (initialService prompt, false)
          schedule = some (service, false) →
        Aligned service.shared.requestSystemPrompt
          service.shared.agentHistory) ∧
      ∀ (core after : Core) (updated : Actor) (prompt : StdString)
        (readings : Readings),
        act config core (.prompt (.updating prompt)) (.run readings) =
            some (after, updated) →
          ∃ lead, after.agentHistory = lead ++ conversation core.agentHistory ∧
            lead.length = (if prompt = [] then 0 else 1) ∧
            ∀ message ∈ lead,
              message.role = .system ∧ message.content = prompt := by
  constructor
  · intro prompt schedule service ran
    let Holds (noted : ChatService × Bool) : Prop :=
      noted.2 = false → Aligned noted.1.shared.requestSystemPrompt
        noted.1.shared.agentHistory
    have preserved {noted next : ChatService × Bool} {label : Label}
        (holds : Holds noted)
        (stepped : noting (step config) replacedSince noted label =
          some next) : Holds next := by
      obtain ⟨service, replaced⟩ := noted
      obtain ⟨after, fitting⟩ := next
      obtain ⟨advanced, rfl⟩ := noting_eq_some.mp stepped
      exact step_aligned holds advanced
    exact run_invariant preserved (fun _ => reset_aligned) ran rfl
  · intro core after updated prompt readings acted
    rw [(act_turn acted).writes.history]
    exact updateSystemPromptState_eq prompt core.agentHistory

/-! The prompt is set, and a chat adds its turn to the history. -/

def sampleAlignment : List Label :=
  [.setSystemPrompt (literal "p"), .act 0 (.run ⟨0, 0, []⟩),
      .start true (sampleChat (literal "a")),
      .act 1 (.advance .prepare)] ++ chatReturning 1 7 ++
    replying 1 (literal "x") ++ [committing 1]

theorem prompt_aligned_sample :
    Aligned (literal "p")
      [.system (literal "p"), .user (literal "a"), .assistant (literal "x")] := by
  obtain ⟨service, ran, requested, history⟩ : ∃ service : ChatService,
      run (noting (step sampleConfig) replacedSince) (initialService [], false)
          sampleAlignment = some (service, false) ∧
        service.shared.requestSystemPrompt = literal "p" ∧
        service.shared.agentHistory = [.system (literal "p"),
          .user (literal "a"), .assistant (literal "x")] :=
    ⟨_, rfl, rfl, rfl⟩
  have aligned := (prompt_aligned sampleConfig).1 [] sampleAlignment service ran
  rw [requested, history] at aligned
  exact aligned

end ZooKeeperServer.Service
