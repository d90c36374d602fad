import ZooKeeperServer.Server.ApiParse
import ZooKeeperServer.Server.Streaming

namespace ZooKeeperServer

/-! The body of the history routes, and what becomes of a history that a client
reads there and sends back. -/

open Json

def makeToolCallBody (call : ToolCall) : Json :=
  objectOf
    [(literal "id", .string call.id),
      (literal "type", .string (literal "function")),
      (literal "function", objectOf
        [(literal "name", .string call.name),
          (literal "arguments", .string call.argumentsJson)])]

def makeMessageBody (message : ChatMessage) : Json :=
  objectOf
    ([(literal "role", .string message.role.toText),
        (literal "content", .string message.content)] ++
      (if message.toolCallId = [] then []
        else [(literal "tool_call_id", .string message.toolCallId)]) ++
      (if message.toolCalls = [] then []
        else [(literal "tool_calls",
          .array (message.toolCalls.map makeToolCallBody))]))

def makeAgentHistoryBody (history : AgentHistorySnapshot) : Json :=
  objectOf
    [(literal "messages", .array (history.messages.map makeMessageBody)),
      (literal "estimated_tokens", .integer history.estimatedTokens),
      (literal "context_size", .integer history.contextSize),
      (literal "context_exceeded", .boolean history.contextExceeded)]

section Rendering

variable {call : ToolCall} {json : Json} {message : ChatMessage}
  {messages : List ChatMessage}

theorem hasKeys_objectOf {entries : List (StdString × Json)}
    {allowedKeys : List StdString}
    (allowed : ∀ entry ∈ entries, entry.1 ∈ allowedKeys) :
    HasKeys (objectOf entries) allowedKeys := by
  obtain ⟨members, same, listed⟩ := keys_objectOf entries
  refine ⟨members, same, fun member found => ?_⟩
  obtain ⟨entry, held, key⟩ := List.mem_map.mp (listed member found)
  exact key ▸ allowed entry held

theorem describes_makeToolCallBody (call : ToolCall) :
    DescribesCall (makeToolCallBody call) call where
  keys := hasKeys_objectOf (by simp)
  id := by simp +decide [makeToolCallBody, find?_objectOf, lookup_cons_eq]
  type := by simp +decide [makeToolCallBody, find?_objectOf, lookup_cons_eq]
  function := by
    refine ⟨objectOf [(literal "name", .string call.name),
      (literal "arguments", .string call.argumentsJson)], ?_, ?_, ?_, ?_⟩
    · simp +decide [makeToolCallBody, find?_objectOf]
    · exact hasKeys_objectOf (by simp)
    · simp +decide [find?_objectOf, lookup_cons_eq]
    · simp +decide [find?_objectOf]

/-- The fields that a role does not use are empty. -/
structure ChatMessage.Expressible (message : ChatMessage) : Prop where
  toolCallId : message.role ≠ .tool → message.toolCallId = []
  toolCalls : message.role ≠ .assistant → message.toolCalls = []

theorem Describes.expressible (described : Describes json message) :
    message.Expressible where
  toolCallId := by
    intro other
    have absent := described.toolCallId
    rw [if_neg other] at absent
    exact absent.2
  toolCalls := by
    intro other
    rcases described.toolCalls with ⟨-, none⟩ | ⟨assistant, -⟩
    · exact none
    · exact absurd assistant other

theorem described_expressible {items : List Json}
    (all : List.Forall₂ Describes items messages) :
    ∀ message ∈ messages, message.Expressible := by
  induction all with
  | nil => simp
  | cons described _ ih =>
      exact List.forall_mem_cons.mpr ⟨described.expressible, ih⟩

theorem find?_makeMessageBody (key : StdString) :
    (makeMessageBody message).find? key =
      if key = literal "tool_calls" ∧ message.toolCalls ≠ [] then
        some (.array (message.toolCalls.map makeToolCallBody))
      else if key = literal "tool_call_id" ∧ message.toolCallId ≠ [] then
        some (.string message.toolCallId)
      else if key = literal "content" then some (.string message.content)
      else if key = literal "role" then some (.string message.role.toText)
      else none := by
  rw [makeMessageBody, find?_objectOf]
  by_cases noId : message.toolCallId = []
  · by_cases noCalls : message.toolCalls = []
    · simp [noId, noCalls, lookup_cons_eq]
    · simp [noId, noCalls, lookup_cons_eq]
  · by_cases noCalls : message.toolCalls = []
    · simp [noId, noCalls, lookup_cons_eq]
    · simp [noId, noCalls, lookup_cons_eq]

/-- A rendered message is read as that message, unless the id that a tool message
has to have was dropped because it is empty. -/
theorem describes_makeMessageBody (expressible : message.Expressible) :
    Describes (makeMessageBody message) message ↔
      (message.role = .tool → message.toolCallId ≠ []) := by
  constructor
  · intro described tool empty
    have found := described.toolCallId
    rw [if_pos tool, find?_makeMessageBody] at found
    simp +decide [empty] at found
  · intro named
    constructor
    · refine hasKeys_objectOf fun entry member => ?_
      simp only [List.mem_append, List.mem_cons, List.not_mem_nil, or_false]
        at member ⊢
      rcases member with ((rfl | rfl) | id) | calls
      · simp
      · simp
      · split at id
        · simp at id
        · simp [List.mem_singleton.mp id]
      · split at calls
        · simp at calls
        · simp [List.mem_singleton.mp calls]
    · simp +decide [find?_makeMessageBody]
    · simp +decide [find?_makeMessageBody]
    · split
      · rename_i tool
        simp +decide [find?_makeMessageBody, named tool]
      · rename_i other
        have empty := expressible.toolCallId other
        simp +decide [find?_makeMessageBody, empty]
    · by_cases empty : message.toolCalls = []
      · left
        simp +decide [find?_makeMessageBody, empty]
      · right
        refine ⟨not_imp_comm.mp expressible.toolCalls empty,
          message.toolCalls.map makeToolCallBody, ?_, ?_⟩
        · simp +decide [find?_makeMessageBody, empty]
        · rw [List.forall₂_map_left_iff]
          exact List.forall₂_same.mpr fun call _ =>
            describes_makeToolCallBody call

theorem describes_makeMessageBodies
    (expressible : ∀ message ∈ messages, message.Expressible) :
    List.Forall₂ Describes (messages.map makeMessageBody) messages ↔
      ∀ message ∈ messages, message.role = .tool → message.toolCallId ≠ [] := by
  rw [List.forall₂_map_left_iff, List.forall₂_same]
  refine forall₂_congr fun message member => ?_
  exact describes_makeMessageBody (expressible message member)

theorem find?_messages :
    (objectOf [(literal "messages",
      .array (messages.map makeMessageBody))]).find? (literal "messages") =
        some (.array (messages.map makeMessageBody)) := by
  simp [find?_objectOf]

end Rendering

/-- The routes send the list of rendered messages. -/
theorem makeAgentHistoryBody_messages (history : AgentHistorySnapshot) :
    (makeAgentHistoryBody history).find? (literal "messages") =
      some (.array (history.messages.map makeMessageBody)) := by
  simp +decide [makeAgentHistoryBody, find?_objectOf, lookup_cons_eq]

/-- A history that a client sends back as it read it is accepted as the same
history, exactly if no tool message in it has an empty id. -/
theorem history_round_trips {rule : RoleRule} {json : JsonLibrary}
    {body text : StdString} {request : AgentHistoryRequest}
    (accepted : parseAgentHistoryRequest rule json body = .ok request)
    (rendered : json.parse text = .ok (objectOf
      [(literal "messages", .array (request.messages.map makeMessageBody))])) :
    parseAgentHistoryRequest rule json text = .ok request ↔
      ∀ message ∈ request.messages, message.role = .tool →
        message.toolCallId ≠ [] := by
  obtain ⟨value, items, -, -, -, all, ordered⟩ :=
    parseAgentHistoryRequest_eq_ok.mp accepted
  rw [← describes_makeMessageBodies (described_expressible all)]
  constructor
  · intro again
    obtain ⟨other, found, parsed, -, held, described, -⟩ :=
      parseAgentHistoryRequest_eq_ok.mp again
    obtain rfl := Except.ok.inj (rendered.symm.trans parsed)
    rw [find?_messages] at held
    cases held
    exact described
  · intro described
    exact parseAgentHistoryRequest_eq_ok.mpr ⟨_, _, rendered,
      hasKeys_objectOf (by simp), find?_messages, described, ordered⟩

/-! A library that reads the texts of some values. -/

def textOf (value : Json) : StdString :=
  match compact value with
  | .ok text => text
  | .error _ => []

def readingJson (values : List Json) : JsonLibrary where
  dump := compact
  parse text :=
    match values[(values.map textOf).idxOf text]? with
    | some value => .ok value
    | none => .error ⟨literal "[json.exception.parse_error.101] parse error"⟩

theorem readingJson_parse {values : List Json} {value : Json} {text : StdString}
    {index : Nat} (position : (values.map textOf).idxOf text = index)
    (found : values[index]? = some value) :
    (readingJson values).parse text = .ok value := by
  simp [readingJson, position, found]

def historyBody (messages : List ChatMessage) : Json :=
  objectOf [(literal "messages", .array (messages.map makeMessageBody))]

/-- A tool was called and has answered. -/
def sampleHistory : List ChatMessage :=
  [.user (literal "hi"),
    .assistantWithToolCalls [] [⟨literal "c1", literal "f", literal "1"⟩],
    .tool (literal "2") (literal "c1")]

theorem history_round_trips_sample :
    parseAgentHistoryRequest plainRule (readingJson [historyBody sampleHistory])
        (textOf (historyBody sampleHistory)) = .ok ⟨sampleHistory⟩ ↔
      ∀ message ∈ sampleHistory, message.role = .tool →
        message.toolCallId ≠ [] := by
  have accepted : parseAgentHistoryRequest plainRule
      (readingJson [historyBody sampleHistory])
      (textOf (historyBody sampleHistory)) = .ok ⟨sampleHistory⟩ := by
    decide +kernel
  have position : ([historyBody sampleHistory].map textOf).idxOf
      (textOf (historyBody sampleHistory)) = 0 := by
    decide +kernel
  exact history_round_trips accepted (readingJson_parse position rfl)

/-! The answer has an empty id. -/

def sampleUnnamed : Json :=
  objectOf [(literal "messages", .array
    [makeMessageBody (.user (literal "hi")),
      objectOf
        [(literal "role", .string (literal "tool")),
          (literal "content", .string (literal "2")),
          (literal "tool_call_id", .string [])]])]

theorem history_rejected :
    ¬ ∀ (rule : RoleRule) (json : JsonLibrary) (body text : StdString)
        (request : AgentHistoryRequest),
      parseAgentHistoryRequest rule json body = .ok request →
      json.parse text = .ok (objectOf [(literal "messages",
        .array (request.messages.map makeMessageBody))]) →
      parseAgentHistoryRequest rule json text = .ok request := by
  intro claim
  let messages : List ChatMessage :=
    [.user (literal "hi"), .tool (literal "2") []]
  let values : List Json := [sampleUnnamed, historyBody messages]
  have position :
      (values.map textOf).idxOf (textOf (historyBody messages)) = 1 := by
    decide +kernel
  have again := claim plainRule (readingJson values) (textOf sampleUnnamed)
    (textOf (historyBody messages)) ⟨messages⟩ (by decide +kernel)
    (readingJson_parse position rfl)
  exact absurd again (by decide +kernel)

end ZooKeeperServer
