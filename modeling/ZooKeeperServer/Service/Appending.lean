import ZooKeeperServer.Server.RoundTrip
import ZooKeeperServer.Service.Reachability

namespace ZooKeeperServer.Service

open SessionStore Transition

/-! The retained history, replaced as a whole or put together from single
messages, with nobody else at work. -/

section Sequential

variable (config : Configuration) (json : JsonLibrary)

def replaceAgentHistory (core : Core) (messages : List ChatMessage) :
    Core × ApiResult AgentHistorySnapshot :=
  let after := core.setHistory messages
  (after, .ok (makeAgentHistorySnapshot config.contextSize after.agentHistory))

def appendAgentHistoryMessage (core : Core) (message : ChatMessage) :
    Core × ApiResult AgentHistorySnapshot :=
  match validateMessageSequence config.rule core.agentHistory message.role with
  | .error error => (core, .error (sequenceError error))
  | .ok () =>
      let after := core.setHistory (core.agentHistory ++ [message])
      (after,
        .ok (makeAgentHistorySnapshot config.contextSize after.agentHistory))

/-- Each body is parsed and its message appended, until one fails. -/
def submitMessages (core : Core) : List StdString → ApiResult Core
  | [] => .ok core
  | body :: rest => do
      let message ← parseAgentHistoryMessageRequest config.rule json body
      let (after, result) := appendAgentHistoryMessage config core message
      let _ ← result
      submitMessages after rest

end Sequential

section Alone

variable {config : Configuration} {service : ChatService}

theorem history_once {request : HistoryRequest} {after : Core}
    {result : ApiResult (Option AgentHistorySnapshot)} (readings : Readings)
    (entered : (HistoryCall.entered request).step config service.shared =
      some (after, .returned result)) :
    run (step config) service [.agentHistory true request,
        .act service.actors.length (.run readings)] =
      some ⟨after, service.actors ++ [.history (.returned result)]⟩ := by
  simp [run, step, Crew.join, Crew.turn, act, entered]

theorem history_twice {request : HistoryRequest} {middle after : Core}
    {result : ApiResult (Option AgentHistorySnapshot)} (readings : Readings)
    (entered : (HistoryCall.entered request).step config service.shared =
      some (middle, .reading))
    (reads : HistoryCall.reading.step config middle =
      some (after, .returned result)) :
    run (step config) service [.agentHistory true request,
        .act service.actors.length (.run readings),
        .act service.actors.length (.run readings)] =
      some ⟨after, service.actors ++ [.history (.returned result)]⟩ := by
  simp [run, step, Crew.join, Crew.turn, act, entered, reads]

variable (config service) in
theorem replace_alone (messages : List ChatMessage) (readings : Readings) :
    run (step config) service [.agentHistory true (.replace messages),
        .act service.actors.length (.run readings),
        .act service.actors.length (.run readings)] =
      some ⟨(replaceAgentHistory config service.shared messages).1,
        service.actors ++ [.history (.returned
          ((replaceAgentHistory config service.shared messages).2.map
            some))]⟩ :=
  history_twice readings rfl rfl

variable (config service) in
theorem append_alone (message : ChatMessage) (readings : Readings) :
    ∃ sections, run (step config) service
        (.agentHistory true (.append message) ::
          List.replicate sections (.act service.actors.length (.run readings))) =
      some ⟨(appendAgentHistoryMessage config service.shared message).1,
        service.actors ++ [.history (.returned
          ((appendAgentHistoryMessage config service.shared message).2.map
            some))]⟩ := by
  cases verdict : validateMessageSequence config.rule
      service.shared.agentHistory message.role with
  | error error =>
      have entered : (HistoryCall.entered (.append message)).step config
          service.shared =
            some (service.shared, .returned (.error (sequenceError error))) := by
        simp [HistoryCall.step, verdict]
      refine ⟨1, (history_once readings entered).trans ?_⟩
      simp [appendAgentHistoryMessage, verdict, Except.map]
  | ok done =>
      let after := service.shared.setHistory
        (service.shared.agentHistory ++ [message])
      have entered : (HistoryCall.entered (.append message)).step config
          service.shared = some (after, .reading) := by
        simp [HistoryCall.step, verdict, after]
      refine ⟨2, (history_twice readings entered rfl).trans ?_⟩
      simp [appendAgentHistoryMessage, verdict, Except.map, after]

/-- Messages submitted one by one take the service to the state that they make. -/
theorem submitMessages_reached {json : JsonLibrary} {bodies : List StdString}
    {after : Core} (readings : Readings)
    (submitted : submitMessages config json service.shared bodies = .ok after) :
    ∃ schedule actors,
      run (step config) service schedule = some ⟨after, actors⟩ := by
  induction bodies generalizing service with
  | nil =>
      cases submitted
      exact ⟨[], service.actors, rfl⟩
  | cons body rest ih =>
      simp only [submitMessages, bind_eq_ok] at submitted
      obtain ⟨message, parsed, snapshot, appended, later⟩ := submitted
      obtain ⟨sections, ran⟩ := append_alone config service message readings
      obtain ⟨schedule, actors, finished⟩ := @ih ⟨_, _⟩ later
      exact ⟨_ ++ schedule, actors, run_append.mpr ⟨_, ran, finished⟩⟩

end Alone

/-- The body is an object with nothing but this message in it. -/
def Submits (json : JsonLibrary) (body : StdString) (message : ChatMessage) :
    Prop :=
  ∃ item, json.parse body = .ok (Json.objectOf [(literal "message", item)]) ∧
    Describes item message

section Submitting

variable {config : Configuration} {json : JsonLibrary} {core after : Core}
  {body : StdString} {message other : ChatMessage} {bodies : List StdString}
  {messages : List ChatMessage}

theorem Submits.parsed (submits : Submits json body message) :
    parseAgentHistoryMessageRequest config.rule json body = .ok other ↔
      other = message ∧ message.role ≠ .tool := by
  obtain ⟨item, read, described⟩ := submits
  rw [parseAgentHistoryMessageRequest_eq_ok]
  constructor
  · rintro ⟨value, found, parsed, -, at_, again, first⟩
    obtain rfl := Except.ok.inj (read.symm.trans parsed)
    have here : (Json.objectOf [(literal "message", item)]).find?
        (literal "message") = some item := by
      simp [Json.find?_objectOf]
    obtain rfl := Option.some.inj (here.symm.trans at_)
    obtain rfl := again.unique described
    exact ⟨rfl, first⟩
  · rintro ⟨rfl, first⟩
    exact ⟨_, item, read, hasKeys_objectOf (by simp),
      by simp [Json.find?_objectOf], described, first⟩

variable (config) in
theorem append_succeeds :
    (∃ snapshot, (appendAgentHistoryMessage config core message).2 =
      .ok snapshot) ↔ Admits core.agentHistory message.role := by
  rw [← validate_ok config.rule]
  unfold appendAgentHistoryMessage
  cases validateMessageSequence config.rule core.agentHistory message.role with
  | error error => simp
  | ok done => simp

variable (config) in
theorem append_history (admitted : Admits core.agentHistory message.role) :
    (appendAgentHistoryMessage config core message).1.agentHistory =
      core.agentHistory ++ [message] := by
  simp [appendAgentHistoryMessage, (validate_ok config.rule).mpr admitted,
    Core.setHistory]

/-- Every message must be fit to come first, but it is put after the others. -/
theorem submitMessages_eq_ok
    (submits : List.Forall₂ (Submits json) bodies messages)
    (submitted : submitMessages config json core bodies = .ok after) :
    (∀ message ∈ messages, message.role ≠ .tool) ∧
      after.agentHistory = core.agentHistory ++ messages := by
  induction submits generalizing core with
  | nil =>
      cases submitted
      simp
  | cons submits _ ih =>
      simp only [submitMessages, bind_eq_ok] at submitted
      obtain ⟨message, parsed, snapshot, appended, later⟩ := submitted
      obtain ⟨rfl, first⟩ := submits.parsed.mp parsed
      obtain ⟨rest, history⟩ := ih later
      rw [append_history config
        ((append_succeeds config).mp ⟨snapshot, appended⟩)] at history
      exact ⟨List.forall_mem_cons.mpr ⟨first, rest⟩, by simp [history]⟩

theorem submitMessages_succeeds
    (submits : List.Forall₂ (Submits json) bodies messages)
    (continues : Continues core.agentHistory messages)
    (first : ∀ message ∈ messages, message.role ≠ .tool) :
    ∃ after, submitMessages config json core bodies = .ok after := by
  induction submits generalizing core with
  | nil => exact ⟨core, rfl⟩
  | @cons body message rest messages submits _ ih =>
      obtain ⟨admitted, later⟩ := continues_cons.mp continues
      obtain ⟨fit, others⟩ := List.forall_mem_cons.mp first
      obtain ⟨snapshot, appended⟩ := (append_succeeds config).mpr admitted
      rw [← append_history config admitted] at later
      obtain ⟨after, submitted⟩ := ih later others
      refine ⟨after, ?_⟩
      simp only [submitMessages, bind_eq_ok]
      exact ⟨message, submits.parsed.mpr ⟨rfl, fit⟩, snapshot, appended, submitted⟩

end Submitting

/-- Submitting the messages of an accepted history one by one to an empty history
does what replacing it does, exactly if no tool message is among them. -/
theorem appending_replaces {config : Configuration} {json : JsonLibrary}
    {core : Core} {body : StdString} {request : AgentHistoryRequest}
    {bodies : List StdString}
    (accepted : parseAgentHistoryRequest config.rule json body = .ok request)
    (submits : List.Forall₂ (Submits json) bodies request.messages)
    (empty : core.agentHistory = []) :
    (∃ after, submitMessages config json core bodies = .ok after ∧
      after.agentHistory =
        (replaceAgentHistory config core request.messages).1.agentHistory) ↔
      ∀ message ∈ request.messages, message.role ≠ .tool := by
  obtain ⟨value, items, -, -, -, -, ordered⟩ :=
    parseAgentHistoryRequest_eq_ok.mp accepted
  constructor
  · rintro ⟨after, submitted, -⟩
    exact (submitMessages_eq_ok submits submitted).1
  · intro first
    have continues : Continues core.agentHistory request.messages :=
      empty ▸ ordered
    obtain ⟨after, submitted⟩ :=
      submitMessages_succeeds submits continues first
    refine ⟨after, submitted, ?_⟩
    rw [(submitMessages_eq_ok submits submitted).2, empty]
    rfl

/-! The messages of a conversation as the bodies of one request each. -/

def messageBody (message : ChatMessage) : Json :=
  Json.objectOf [(literal "message", makeMessageBody message)]

def sampleValues : List Json :=
  historyBody sampleHistory :: historyBody (sampleHistory.take 2) ::
    sampleHistory.map messageBody

def sampleBodies : List StdString :=
  sampleHistory.map fun message => textOf (messageBody message)

theorem sampleBodies_submit :
    List.Forall₂ (Submits (readingJson sampleValues)) sampleBodies
      sampleHistory := by
  have submits {message : ChatMessage} (index : Nat)
      (position : (sampleValues.map textOf).idxOf
        (textOf (messageBody message)) = index)
      (found : sampleValues[index]? = some (messageBody message))
      (expressible : message.Expressible)
      (named : message.role = .tool → message.toolCallId ≠ []) :
      Submits (readingJson sampleValues) (textOf (messageBody message))
        message :=
    ⟨_, readingJson_parse position found,
      (describes_makeMessageBody expressible).mpr named⟩
  refine .cons (submits 2 (by decide +kernel) rfl ?_ (by decide)) <|
    .cons (submits 3 (by decide +kernel) rfl ?_ (by decide)) <|
    .cons (submits 4 (by decide +kernel) rfl ?_ (by decide)) .nil
  · exact ⟨by decide, by decide⟩
  · exact ⟨by decide, by decide⟩
  · exact ⟨by decide, by decide⟩

theorem appending_replaces_sample :
    ∃ after, submitMessages sampleConfig (readingJson sampleValues)
        (initialService []).shared (sampleBodies.take 2) = .ok after ∧
      after.agentHistory = sampleHistory.take 2 := by
  have accepted : parseAgentHistoryRequest plainRule (readingJson sampleValues)
      (textOf (historyBody (sampleHistory.take 2))) =
        .ok ⟨sampleHistory.take 2⟩ := by
    decide +kernel
  have agree : (∃ after, submitMessages sampleConfig
      (readingJson sampleValues) (initialService []).shared
      (sampleBodies.take 2) = .ok after ∧ after.agentHistory =
        sampleHistory.take 2) ↔
      ∀ message ∈ sampleHistory.take 2, message.role ≠ .tool :=
    appending_replaces accepted (List.forall₂_take 2 sampleBodies_submit) rfl
  exact agree.mpr (by decide)

/-! The answer of a tool cannot be appended. -/

theorem append_refuses_tool :
    ¬ ∀ (config : Configuration) (json : JsonLibrary) (core : Core)
        (body : StdString) (request : AgentHistoryRequest)
        (bodies : List StdString),
      parseAgentHistoryRequest config.rule json body = .ok request →
      List.Forall₂ (Submits json) bodies request.messages →
      core.agentHistory = [] →
      ∃ after, submitMessages config json core bodies = .ok after ∧
        after.agentHistory =
          (replaceAgentHistory config core
            request.messages).1.agentHistory := by
  intro claim
  have accepted : parseAgentHistoryRequest plainRule (readingJson sampleValues)
      (textOf (historyBody sampleHistory)) = .ok ⟨sampleHistory⟩ := by
    decide +kernel
  obtain ⟨after, submitted, -⟩ := claim sampleConfig _
    (initialService []).shared _ _ _ accepted sampleBodies_submit rfl
  have first := (submitMessages_eq_ok sampleBodies_submit submitted).1
  exact absurd first (by decide)

end ZooKeeperServer.Service
