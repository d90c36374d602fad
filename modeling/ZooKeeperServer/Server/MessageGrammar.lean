import ZooKeeperServer.Server.ApiParse

namespace ZooKeeperServer

/-! The grammar of a `messages` array, told without the messages that are read from
it, and that the loop of the parsers accepts it and nothing else. -/

def HasString (json : Json) (key : StdString) : Prop :=
  ∃ text, json.find? key = some (.string text)

structure IsFunction (json : Json) : Prop where
  keys : HasKeys json [literal "name", literal "arguments"]
  name : HasString json (literal "name")
  arguments : HasString json (literal "arguments")

structure IsToolCall (json : Json) : Prop where
  keys : HasKeys json [literal "id", literal "type", literal "function"]
  id : HasString json (literal "id")
  type : json.find? (literal "type") = some (.string (literal "function"))
  function : ∃ function, json.find? (literal "function") = some function ∧
    IsFunction function

structure IsMessage (json : Json) (role : MessageRole) : Prop where
  keys : HasKeys json
    [literal "role", literal "content", literal "tool_call_id",
      literal "tool_calls"]
  roleText : json.find? (literal "role") = some (.string role.toText)
  content : HasString json (literal "content")
  tool : role = .tool → HasString json (literal "tool_call_id")
  other : role ≠ .tool → json.find? (literal "tool_call_id") = none
  toolCalls : ∀ value, json.find? (literal "tool_calls") = some value →
    role = .assistant ∧
      ∃ elements, value = .array elements ∧ ∀ element ∈ elements, IsToolCall element

/-- No leading tool message, and no role twice in a row but that of a tool. -/
structure AdmissibleRoles (roles : List MessageRole) : Prop where
  first : roles[0]? ≠ some .tool
  repeated : ∀ (i : Nat) (role : MessageRole),
    roles[i]? = some role → roles[i + 1]? = some role → role = .tool

section Grammar

variable {json : Json} {role : MessageRole}

theorem isFunction_iff :
    IsFunction json ↔ ∃ call : ToolCall, DescribesFunction json call := by
  constructor
  · rintro ⟨keys, ⟨name, nameAt⟩, arguments, argumentsAt⟩
    exact ⟨⟨[], name, arguments⟩, keys, nameAt, argumentsAt⟩
  · rintro ⟨call, keys, nameAt, argumentsAt⟩
    exact ⟨keys, ⟨_, nameAt⟩, _, argumentsAt⟩

theorem isToolCall_iff : IsToolCall json ↔ ∃ call, DescribesCall json call := by
  constructor
  · rintro ⟨keys, ⟨id, idAt⟩, typeAt, function, functionAt, isFunction⟩
    obtain ⟨⟨_, name, arguments⟩, functionKeys, nameAt, argumentsAt⟩ :=
      isFunction_iff.mp isFunction
    exact ⟨⟨id, name, arguments⟩, keys, idAt, typeAt, function, functionAt,
      functionKeys, nameAt, argumentsAt⟩
  · rintro ⟨call, keys, idAt, typeAt, function, functionAt, describes⟩
    exact ⟨keys, ⟨_, idAt⟩, typeAt, function, functionAt,
      isFunction_iff.mpr ⟨call, describes⟩⟩

theorem exists_forall₂ {α β : Type} {reads : α → β → Prop} {items : List α} :
    (∃ readings, List.Forall₂ reads items readings) ↔
      ∀ item ∈ items, ∃ reading, reads item reading := by
  induction items with
  | nil => simp
  | cons item rest ih =>
      simp only [List.forall₂_cons_left_iff, List.forall_mem_cons, ← ih]
      constructor
      · rintro ⟨_, reading, readings, here, later, rfl⟩
        exact ⟨⟨reading, here⟩, readings, later⟩
      · rintro ⟨⟨reading, here⟩, readings, later⟩
        exact ⟨_, reading, readings, here, later, rfl⟩

theorem toolCallIds_of_describes {message : ChatMessage}
    (described : Describes json message) :
    (message.role = .tool → HasString json (literal "tool_call_id")) ∧
      (message.role ≠ .tool → json.find? (literal "tool_call_id") = none) := by
  have held := described.toolCallId
  constructor
  · intro tool
    rw [if_pos tool] at held
    exact ⟨_, held⟩
  · intro other
    rw [if_neg other] at held
    exact held.1

theorem isMessage_of_describes {message : ChatMessage}
    (described : Describes json message) : IsMessage json message.role := by
  obtain ⟨tool, other⟩ := toolCallIds_of_describes described
  refine ⟨described.keys, described.role, ⟨_, described.content⟩, tool, other, ?_⟩
  intro value found
  rcases described.toolCalls with ⟨absent, -⟩ | ⟨assistant, elements, held, all⟩
  · rw [absent] at found
    cases found
  · rw [held] at found
    cases found
    refine ⟨assistant, elements, rfl, fun element listed => ?_⟩
    obtain ⟨call, describes⟩ := exists_forall₂.mp ⟨_, all⟩ element listed
    exact isToolCall_iff.mpr ⟨call, describes⟩

theorem describes_of_isMessage (accepted : IsMessage json role) :
    ∃ message : ChatMessage, message.role = role ∧ Describes json message := by
  obtain ⟨keys, roleText, ⟨content, contentAt⟩, tool, other, toolCalls⟩ := accepted
  have ids : ∃ toolCallId : StdString,
      if role = .tool then
        json.find? (literal "tool_call_id") = some (.string toolCallId)
      else json.find? (literal "tool_call_id") = none ∧ toolCallId = [] := by
    by_cases isTool : role = .tool
    · obtain ⟨toolCallId, held⟩ := tool isTool
      exact ⟨toolCallId, by rw [if_pos isTool]; exact held⟩
    · exact ⟨[], by rw [if_neg isTool]; exact ⟨other isTool, rfl⟩⟩
  have calls : ∃ held : List ToolCall,
      (json.find? (literal "tool_calls") = none ∧ held = []) ∨
        (role = .assistant ∧ ∃ elements,
          json.find? (literal "tool_calls") = some (.array elements) ∧
            List.Forall₂ DescribesCall elements held) := by
    cases found : json.find? (literal "tool_calls") with
    | none => exact ⟨[], .inl ⟨rfl, rfl⟩⟩
    | some value =>
        obtain ⟨assistant, elements, rfl, all⟩ := toolCalls value found
        obtain ⟨held, described⟩ := exists_forall₂.mpr fun element listed =>
          isToolCall_iff.mp (all element listed)
        exact ⟨held, .inr ⟨assistant, elements, rfl, described⟩⟩
  obtain ⟨toolCallId, idAt⟩ := ids
  obtain ⟨held, callsAt⟩ := calls
  exact ⟨⟨role, content, toolCallId, held⟩, rfl, keys, roleText, contentAt, idAt,
    callsAt⟩

end Grammar

section Sequences

variable {items : List Json} {messages : List ChatMessage}

theorem wellOrdered_iff_roles :
    WellOrdered messages ↔ AdmissibleRoles (messages.map ChatMessage.role) := by
  rw [wellOrdered_iff_chain, List.isChain_iff_getElem]
  constructor
  · rintro ⟨front, next⟩
    constructor
    · intro tool
      rw [← List.head?_eq_getElem?, List.head?_map, Option.map_eq_some_iff] at tool
      obtain ⟨message, first, role⟩ := tool
      exact front message first role
    · intro i role here after
      rw [List.getElem?_map, Option.map_eq_some_iff] at here after
      obtain ⟨message, atHere, rfl⟩ := here
      obtain ⟨follower, atNext, same⟩ := after
      obtain ⟨_, rfl⟩ := List.getElem?_eq_some_iff.mp atHere
      obtain ⟨inside, rfl⟩ := List.getElem?_eq_some_iff.mp atNext
      rcases next i inside with tool | different
      · exact same.symm.trans tool
      · exact absurd same different
  · rintro ⟨first, repeated⟩
    constructor
    · intro message front tool
      apply first
      rw [← List.head?_eq_getElem?, List.head?_map, Option.mem_def.mp front,
        Option.map_some, tool]
    · intro i inside
      have atNext : (messages.map ChatMessage.role)[i + 1]? =
          some messages[i + 1].role := by
        rw [List.getElem?_map, List.getElem?_eq_getElem inside, Option.map_some]
      by_cases same : messages[i + 1].role = messages[i].role
      · left
        apply repeated i _ _ atNext
        rw [List.getElem?_map, List.getElem?_eq_getElem (Nat.lt_of_succ_lt inside),
          Option.map_some, same]
      · exact .inr same

theorem roles_of_describes (all : List.Forall₂ Describes items messages) :
    List.Forall₂ IsMessage items (messages.map ChatMessage.role) := by
  rw [List.forall₂_map_right_iff]
  exact all.imp fun item message => isMessage_of_describes

theorem describes_of_roles {roles : List MessageRole}
    (accepted : List.Forall₂ IsMessage items roles) :
    ∃ messages, messages.map ChatMessage.role = roles ∧
      List.Forall₂ Describes items messages := by
  induction accepted with
  | nil => exact ⟨[], rfl, .nil⟩
  | cons here _ ih =>
      obtain ⟨message, rfl, described⟩ := describes_of_isMessage here
      obtain ⟨messages, rfl, later⟩ := ih
      exact ⟨message :: messages, rfl, .cons described later⟩

/-- The loop over a `messages` array, as the parsers of chat, extraction and history
requests run it, accepts just what the grammar allows; it reads one message from each
element, with the fields the element has. -/
theorem parseMessages_grammar (rule : RoleRule) (items : List Json) :
    ((∃ messages, parseMessages rule [] items = .ok messages) ↔
      ∃ roles, List.Forall₂ IsMessage items roles ∧ AdmissibleRoles roles) ∧
      ∀ messages, parseMessages rule [] items = .ok messages →
        List.Forall₂ Describes items messages := by
  have accepted (messages : List ChatMessage) :
      parseMessages rule [] items = .ok messages ↔
        List.Forall₂ Describes items messages ∧ WellOrdered messages := by
    rw [parseMessages_eq_ok]
    constructor
    · rintro ⟨_, rfl, all, ordered⟩
      exact ⟨all, ordered⟩
    · rintro ⟨all, ordered⟩
      exact ⟨messages, rfl, all, ordered⟩
  constructor
  · constructor
    · rintro ⟨messages, parsed⟩
      obtain ⟨all, ordered⟩ := (accepted messages).mp parsed
      exact ⟨_, roles_of_describes all, wellOrdered_iff_roles.mp ordered⟩
    · rintro ⟨roles, all, admissible⟩
      obtain ⟨messages, rfl, described⟩ := describes_of_roles all
      exact ⟨messages, (accepted messages).mpr
        ⟨described, wellOrdered_iff_roles.mpr admissible⟩⟩
  · intro messages parsed
    exact ((accepted messages).mp parsed).1

end Sequences

end ZooKeeperServer
