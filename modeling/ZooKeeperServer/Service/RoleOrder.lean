import ZooKeeperServer.Server.RoundTrip
import ZooKeeperServer.Service.RetainedHistory

namespace ZooKeeperServer.Service

open SessionStore Transition

/-! The retained history and the role rule.  Only `append_agent_history_message`
checks the rule against the history it writes to. -/

/-- A tool message comes right after a leading system message. -/
def ToolBehindPrompt : List ChatMessage → Prop
  | front :: next :: _ => front.role = .system ∧ next.role = .tool
  | _ => False

instance (history : List ChatMessage) : Decidable (ToolBehindPrompt history) := by
  unfold ToolBehindPrompt
  split <;> infer_instance

/-- A turn is added where it fits, and the system prompt is not removed in front of
a tool message. -/
def Fitting : Terms := fun core actor input _ =>
  (∀ turn ∈ actor.commits input,
    Admits core.agentHistory turn.1.role ∧ turn.1.role ≠ .assistant) ∧
    (actor = .prompt (.updating []) → ¬ ToolBehindPrompt core.agentHistory)

/-- What the parsers let through to the retained agent. -/
def Accepts (rule : RoleRule) : Label → Prop
  | .start _ (.agentChat request) =>
      ∃ json body, parseAgentChatRequest rule json body = .ok request
  | .agentHistory _ (.replace messages) =>
      ∃ json body, parseAgentHistoryRequest rule json body = .ok ⟨messages⟩
  | .agentHistory _ (.swap messages) =>
      ∃ json body, parseAgentHistoryRequest rule json body = .ok ⟨messages⟩
  | _ => True

def Actor.supplies : Actor → Prop
  | .history (.entered (.replace messages)) => WellOrdered messages
  | .history (.entered (.swap messages)) => WellOrdered messages
  | _ => True

section Rule

variable {config : Configuration} {core after : Core} {actor updated : Actor}
  {input : Input} {history : List ChatMessage} {prompt : StdString}

theorem commit_ordered {user : ChatMessage} {reply : StdString}
    (ordered : WellOrdered history) :
    WellOrdered (history ++ [user, .assistant reply]) ↔
      Admits history user.role ∧ user.role ≠ .assistant := by
  simp [wellOrdered_append, continues_cons, ordered, ne_comm]

theorem reset_ordered : WellOrdered (resetAgentHistoryToSystemPrompt prompt) := by
  unfold resetAgentHistoryToSystemPrompt
  split
  · exact wellOrdered_nil
  · simp [wellOrdered_iff_chain]

theorem update_ordered (ordered : WellOrdered history) :
    WellOrdered (updateSystemPromptState prompt history) ↔
      (prompt = [] → ¬ ToolBehindPrompt history) := by
  cases history with
  | nil =>
      simp only [updateSystemPromptState]
      split
      · simp [ToolBehindPrompt]
      · simp [wellOrdered_iff_chain, ToolBehindPrompt]
  | cons front rest =>
      obtain ⟨first, follows, chain⟩ := wellOrdered_cons.mp ordered
      simp only [updateSystemPromptState]
      split
      · rename_i system
        split
        · rename_i empty
          rw [List.isEmpty_iff] at empty
          cases rest with
          | nil => simp [ToolBehindPrompt]
          | cons next rest =>
              simp [wellOrdered_iff_chain, chain, empty, ToolBehindPrompt,
                system]
        · rename_i given
          exact iff_of_true (wellOrdered_cons.mpr ⟨first, follows, chain⟩)
            fun empty => absurd (List.isEmpty_iff.mpr empty) given
      · rename_i other
        have apart : ¬ ToolBehindPrompt (front :: rest) := by
          cases rest with
          | nil => simp [ToolBehindPrompt]
          | cons next rest => simp [ToolBehindPrompt, other]
        split
        · exact iff_of_true ordered fun _ => apart
        · refine iff_of_true (wellOrdered_cons.mpr ⟨by simp, ?_, ?_⟩)
            fun _ => apart
          · rintro next ⟨⟩
            exact .inr other
          · exact (wellOrdered_iff_chain.mp ordered).2

/-- A turn keeps the rule exactly if it is a fitting one. -/
theorem Turn.keeps_order (ordered : WellOrdered core.agentHistory)
    (supplies : actor.supplies)
    (turn : Turn config core actor input after updated) :
    WellOrdered after.agentHistory ↔ Fitting core actor input actor := by
  rw [turn.writes.history]
  cases actor with
  | request request =>
      cases commits : (Actor.request request).commits input with
      | none => simp [Actor.writes, commits, Fitting, ordered]
      | some turn =>
          simp [Actor.writes, commits, Fitting, commit_ordered ordered]
  | history call =>
      have fits : Fitting core (.history call) input (.history call) := by
        simp [Fitting, Actor.commits]
      refine iff_of_true ?_ fits
      cases turn with
      | history stepped =>
          cases call with
          | entered request =>
              cases request with
              | get => exact ordered
              | clear => exact reset_ordered
              | replace messages => exact supplies
              | swap messages => exact supplies
              | append message =>
                  simp only [Actor.writes]
                  split
                  · exact ordered
                  · rename_i validated
                    exact wellOrdered_concat.mpr
                      ⟨ordered, (validate_ok config.rule).mp validated⟩
          | reading => exact ordered
          | returned result => cases stepped
  | prompt call =>
      cases turn with
      | prompt stepped =>
          cases call with
          | updating prompt =>
              simp only [Actor.writes, Option.getD_some, update_ordered ordered]
              simp [Fitting, Actor.commits]
          | returned prompt => cases stepped
          | _ => simpa [Actor.writes, Actor.commits, Fitting] using ordered
  | _ => simpa [Actor.writes, Actor.commits, Fitting] using ordered

theorem Turn.supplies (turn : Turn config core actor input after updated) :
    updated.supplies := by
  cases turn with
  | @history readings call changed after stepped =>
      cases call with
      | entered request =>
          cases request with
          | append message =>
              simp only [HistoryCall.step] at stepped
              split at stepped
              · cases Option.some.inj stepped
                trivial
              · cases Option.some.inj stepped
                trivial
          | _ =>
              cases Option.some.inj stepped
              trivial
      | reading =>
          cases Option.some.inj stepped
          trivial
      | returned result => cases stepped
  | _ => trivial

def Supplied (service : ChatService) : Prop :=
  ∀ (index : Nat) actor, service.actors[index]? = some actor → actor.supplies

theorem Supplied.join {service : ChatService} {shared : Core} {joined : Actor}
    (supplied : Supplied service) (own : joined.supplies) :
    Supplied (service.join shared joined) := by
  intro index actor found
  rcases Crew.getElem?_join_origin found with before | ⟨_, rfl⟩
  · exact supplied index actor before
  · exact own

/-- An accepted list obeys the rule. -/
theorem accepted_ordered {rule : RoleRule} {messages : List ChatMessage}
    (accepted : ∃ json body,
      parseAgentHistoryRequest rule json body = .ok ⟨messages⟩) :
    WellOrdered messages := by
  obtain ⟨json, body, parsed⟩ := accepted
  obtain ⟨value, items, -, -, -, -, ordered⟩ :=
    parseAgentHistoryRequest_eq_ok.mp parsed
  exact ordered

theorem Supplied.step {service next : ChatService} {label : Label}
    (accepts : Accepts config.rule label) (supplied : Supplied service)
    (stepped : step config service label = some next) : Supplied next := by
  cases label with
  | act index input =>
      cases step_stepped stepped with
      | turn found turn =>
          intro other actor at_
          rcases Crew.getElem?_set_origin at_ with ⟨_, rfl⟩ | ⟨_, before⟩
          · exact turn.supplies
          · exact supplied other actor before
      | turnsAway elsewhere => exact absurd rfl (elsewhere index input)
      | arrives arriving elsewhere => exact absurd rfl (elsewhere index input)
  | agentHistory ready request =>
      cases ready with
      | true =>
          cases Option.some.inj stepped
          refine supplied.join ?_
          cases request with
          | replace messages => exact accepted_ordered accepts
          | swap messages => exact accepted_ordered accepts
          | _ => trivial
      | false =>
          cases Option.some.inj stepped
          exact supplied
  | start ready start =>
      cases ready with
      | true =>
          cases Option.some.inj stepped
          exact supplied.join trivial
      | false =>
          cases Option.some.inj stepped
          exact supplied
  | call call =>
      simp only [Service.step] at stepped
      split at stepped
      · cases Option.some.inj stepped
        exact supplied.join trivial
      · contradiction
  | _ =>
      cases Option.some.inj stepped
      exact supplied.join trivial

theorem step_keeps_order {service next : ChatService} {label : Label}
    (supplied : Supplied service)
    (ordered : WellOrdered service.shared.agentHistory)
    (stepped : step config service label = some next) :
    WellOrdered next.shared.agentHistory ↔ Fitting.Met service label := by
  have calm {core : Core} (calm : Calm service.shared core)
      (elsewhere : ∀ index input, label ≠ .act index input) :
      WellOrdered core.agentHistory ↔ Fitting.Met service label := by
    obtain ⟨counter, turnedAway, -, rfl⟩ := calm
    refine iff_of_true ordered ?_
    cases label with
    | act index input => exact absurd rfl (elsewhere index input)
    | _ => trivial
  cases step_stepped stepped with
  | turnsAway elsewhere => exact calm ⟨_, _, le_rfl, rfl⟩ elsewhere
  | starts => exact calm (draw_calm _ _) (by simp)
  | arrives arriving elsewhere => exact calm ⟨_, _, le_rfl, rfl⟩ elsewhere
  | @turn index input actor updated after found turn =>
      refine (turn.keeps_order ordered (supplied index actor found)).trans ?_
      constructor
      · intro fitting held heldAt other _
        obtain rfl := Option.some.inj (found.symm.trans heldAt)
        exact fitting
      · exact fun met => met actor found actor (List.mem_of_getElem? found)

end Rule

/-- In a run of requests that the parsers accept the history obeys the rule all the
way, exactly if every turn is a fitting one. -/
theorem retained_history_ordered {config : Configuration} {prompt : StdString}
    {schedule : List Label} {service : ChatService}
    (accepted : ∀ label ∈ schedule, Accepts config.rule label)
    (ran : run (step config) (initialService prompt) schedule = some service) :
    (∀ earlier state, earlier <+: schedule →
      run (step config) (initialService prompt) earlier = some state →
      WellOrdered state.shared.agentHistory) ↔
      Respects (step config) Fitting.Met (initialService prompt) schedule := by
  have kept {state next : ChatService} {label : Label}
      (accepts : Accepts config.rule label) (supplied : Supplied state)
      (stepped : step config state label = some next) : Supplied next :=
    supplied.step accepts stepped
  have exactly {state next : ChatService} {label : Label}
      (supplied : Supplied state)
      (ordered : WellOrdered state.shared.agentHistory)
      (stepped : step config state label = some next) :
      WellOrdered next.shared.agentHistory ↔ Fitting.Met state label :=
    step_keeps_order supplied ordered stepped
  have first : Supplied (initialService prompt) := by
    simp [Supplied, initialService]
  exact respects_iff kept exactly accepted first reset_ordered ran

instance decidableFitting (core : Core) (actor : Actor) (input : Input)
    (other : Actor) : Decidable (Fitting core actor input other) := by
  unfold Fitting
  refine @instDecidableAnd _ _ inferInstance ?_
  cases actor with
  | prompt call =>
      cases call with
      | updating prompt =>
          cases prompt with
          | nil =>
              exact decidable_of_iff (¬ ToolBehindPrompt core.agentHistory)
                (by simp)
          | cons byte rest => exact .isTrue (by simp)
      | _ => exact .isTrue (by simp)
  | _ => exact .isTrue (by simp)

/-! A history is put in place, a chat adds its turn, and the prompt is removed. -/

def chatBody (message : ChatMessage) : Json :=
  Json.objectOf [(literal "model", .string (literal "m")),
    (literal "message", makeMessageBody message)]

def chatLabels (index : Nat) (message : ChatMessage) : List Label :=
  [.start true (.agentChat { model := literal "m", message }),
      .act index (.advance .prepare)] ++ chatReturning index 7 ++
    replying index (literal "x") ++ [committing index]

def sampleEdits : List Label :=
  [.agentHistory true (.replace sampleHistory), .act 0 (.run ⟨0, 0, []⟩)] ++
    chatLabels 1 (.user (literal "b")) ++
    [.setSystemPrompt [], .act 2 (.run ⟨0, 0, []⟩)]

theorem chatLabels_accepted {index : Nat} {message : ChatMessage}
    (accepted : ∃ json body, parseAgentChatRequest plainRule json body =
      .ok { model := literal "m", message }) :
    ∀ label ∈ chatLabels index message, Accepts plainRule label := by
  simp [chatLabels, chatReturning, replying, committing, Accepts, accepted]

theorem retained_history_ordered_sample :
    WellOrdered (sampleRun sampleEdits).shared.agentHistory := by
  have replaced : ∃ json body,
      parseAgentHistoryRequest sampleConfig.rule json body =
        .ok ⟨sampleHistory⟩ :=
    ⟨readingJson [historyBody sampleHistory],
      textOf (historyBody sampleHistory), by decide +kernel⟩
  have chatted : ∃ json body, parseAgentChatRequest plainRule json body =
      .ok { model := literal "m", message := .user (literal "b") } :=
    ⟨readingJson [chatBody (.user (literal "b"))],
      textOf (chatBody (.user (literal "b"))), by decide +kernel⟩
  have accepted : ∀ label ∈ sampleEdits, Accepts sampleConfig.rule label := by
    refine List.forall_mem_append.mpr ⟨List.forall_mem_append.mpr
      ⟨?_, chatLabels_accepted chatted⟩, ?_⟩
    · simpa [Accepts] using replaced
    · simp [Accepts]
  have ran : run (step sampleConfig) (initialService []) sampleEdits =
      some (sampleRun sampleEdits) := sampleRun_ran (by decide +kernel)
  have fitting : Respects (step sampleConfig) Fitting.Met (initialService [])
      sampleEdits := by
    decide +kernel
  exact (retained_history_ordered accepted ran).mpr fitting sampleEdits _
    List.prefix_rfl ran

/-! The message of the chat is an assistant message, and so is the reply. -/

theorem retained_history_disordered :
    ¬ ∀ (config : Configuration) (prompt : StdString) (schedule : List Label)
      (service : ChatService),
      (∀ label ∈ schedule, Accepts config.rule label) →
      run (step config) (initialService prompt) schedule = some service →
      WellOrdered service.shared.agentHistory := by
  intro claim
  have chatted : ∃ json body, parseAgentChatRequest plainRule json body =
      .ok { model := literal "m", message := .assistant (literal "a") } :=
    ⟨readingJson [chatBody (.assistant (literal "a"))],
      textOf (chatBody (.assistant (literal "a"))), by decide +kernel⟩
  have ran : run (step sampleConfig) (initialService [])
      (chatLabels 0 (.assistant (literal "a"))) =
        some (sampleRun (chatLabels 0 (.assistant (literal "a")))) :=
    sampleRun_ran (by decide +kernel)
  have ordered := claim sampleConfig [] _ _ (chatLabels_accepted chatted) ran
  exact absurd ordered (by decide +kernel)

end ZooKeeperServer.Service
