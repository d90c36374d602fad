import ZooKeeperServer.Server.ApiJson
import ZooKeeperServer.Server.Conversation

namespace ZooKeeperServer

/-! The request parsers.  Each is a chain of checks on a JSON value, the first of
which to fail gives the error. -/

section Checks

def require (condition : Prop) [Decidable condition] (error : ApiError) :
    ApiResult Unit :=
  if condition then .ok () else .error error

/-- A member that has to be there and of the right kind. -/
def memberAt {Value : Type} (read : Json → Option Value) (json : Json)
    (key : StdString) (error : ApiError) : ApiResult Value :=
  match (json.find? key).bind read with
  | some value => .ok value
  | none => .error error

/-- A member of the given kind, if it is there at all. -/
def optionalAt {Value : Type} (read : Json → Option Value) (kind : StdString)
    (json : Json) (key : StdString) : ApiResult (Option Value) :=
  match json.find? key with
  | none => .ok none
  | some value =>
      match read value with
      | some value => .ok (some value)
      | none =>
          .error (invalidRequestError (key ++ literal " must be " ++ kind) key
            none)

def rejectUnknownKeys (json : Json) (context : StdString)
    (allowedKeys : List StdString) : Except StdString Unit :=
  match json with
  | .object members =>
      match members.find? fun member => member.1 ∉ allowedKeys with
      | some (key, _) =>
          .error (literal "Unknown " ++ context ++ literal " key: " ++ key)
      | none => .ok ()
  | _ => .error (context ++ literal " must be a JSON object")

def rejectApiUnknownKeys (json : Json) (context : StdString)
    (allowedKeys : List StdString) : ApiResult Unit :=
  match rejectUnknownKeys json context allowedKeys with
  | .error error =>
      .error (invalidRequestError error context (literal "unknown_field"))
  | .ok () => .ok ()

def parseBody {Request : Type} (json : JsonLibrary) (body : StdString)
    (parse : Json → ApiResult Request) : ApiResult Request :=
  match json.parse body with
  | .error exception =>
      .error (invalidRequestError
        (literal "Invalid JSON body: " ++ exception.what) (literal "body") none)
  | .ok value => parse value

end Checks

def parseRole (role : StdString) : ApiResult MessageRole :=
  if role = literal "system" then .ok .system
  else if role = literal "user" then .ok .user
  else if role = literal "assistant" then .ok .assistant
  else if role = literal "tool" then .ok .tool
  else
    .error (invalidRequestError (literal "Unsupported message role: " ++ role)
      (literal "messages") (literal "invalid_role"))

def messageError (text : String) : ApiError :=
  invalidRequestError (literal text) (literal "messages") none

def toolCallError (text : String) : ApiError :=
  invalidRequestError (literal text) (literal "messages.tool_calls") none

def parseToolCall (json : Json) : ApiResult ToolCall := do
  rejectApiUnknownKeys json (literal "tool_call")
    [literal "id", literal "type", literal "function"]
  let id ← memberAt Json.string? json (literal "id")
    (toolCallError "tool_call.id must be a string")
  let type ← memberAt Json.string? json (literal "type")
    (toolCallError "tool_call.type must be a string")
  require (type = literal "function")
    (toolCallError "tool_call.type must be function")
  let function ← memberAt Json.object? json (literal "function")
    (toolCallError "tool_call.function must be an object")
  rejectApiUnknownKeys function (literal "tool_call.function")
    [literal "name", literal "arguments"]
  let name ← memberAt Json.string? function (literal "name")
    (toolCallError "tool_call.function.name must be a string")
  let argumentsJson ← memberAt Json.string? function (literal "arguments")
    (toolCallError "tool_call.function.arguments must be a string")
  .ok { id, name, argumentsJson }

def parseToolMessage (json : Json) (content : StdString) :
    ApiResult ChatMessage := do
  require ((json.find? (literal "tool_calls")).isNone)
    (toolCallError "tool_calls is only valid for assistant messages")
  let toolCallId ← memberAt Json.string? json (literal "tool_call_id")
    (messageError "tool messages must include a string tool_call_id")
  .ok (.tool content toolCallId)

def parseOtherMessage (json : Json) (role : MessageRole) (content : StdString) :
    ApiResult ChatMessage := do
  require ((json.find? (literal "tool_call_id")).isNone)
    (messageError "tool_call_id is only valid for tool messages")
  match json.find? (literal "tool_calls") with
  | none => .ok { role, content }
  | some toolCallsJson =>
      require (role = .assistant)
        (toolCallError "tool_calls is only valid for assistant messages")
      match toolCallsJson.array? with
      | none => .error (toolCallError "tool_calls must be an array")
      | some elements =>
          let toolCalls ← elements.mapM parseToolCall
          .ok (.assistantWithToolCalls content toolCalls)

/-- The checks on a message that do not look at the messages before it. -/
def readMessage (json : Json) : ApiResult ChatMessage := do
  rejectApiUnknownKeys json (literal "message")
    [literal "role", literal "content", literal "tool_call_id",
      literal "tool_calls"]
  let roleText ← memberAt Json.string? json (literal "role")
    (messageError "message.role must be a string")
  let content ← memberAt Json.string? json (literal "content")
    (messageError "message.content must be a string")
  let role ← parseRole roleText
  if role = .tool then parseToolMessage json content
  else parseOtherMessage json role content

section Parsers

variable (rule : RoleRule) (json : JsonLibrary)

def parseMessage (value : Json) (seed : List ChatMessage) :
    ApiResult (ChatMessage × List ChatMessage) := do
  let message ← readMessage value
  match validateMessageSequence rule seed message.role with
  | .error error =>
      .error (invalidRequestError error (literal "messages")
        (literal "invalid_message_sequence"))
  | .ok () => .ok (message, seed ++ [message])

def parseMessages (seed : List ChatMessage) :
    List Json → ApiResult (List ChatMessage)
  | [] => .ok seed
  | item :: rest => do
      let (_, messages) ← parseMessage rule item seed
      parseMessages messages rest

def parseSingleMessageField (value : Json) (field context : StdString) :
    ApiResult ChatMessage := do
  let item ← memberAt Json.object? value field
    (invalidRequestError (field ++ literal " must be an object") context none)
  let (message, _) ← parseMessage rule item []
  .ok message

def parseStop (value : Json) : ApiResult (Option (List StdString)) :=
  match value.find? (literal "stop") with
  | none => .ok none
  | some entries => do
      let entries ← match entries.array? with
        | none =>
            .error (invalidRequestError (literal "stop must be an array of strings")
              (literal "stop") none)
        | some entries => .ok entries
      let stopSequences ← entries.mapM fun entry =>
        match entry.string? with
        | none =>
            .error (invalidRequestError (literal "each stop entry must be a string")
              (literal "stop") none)
        | some entry => .ok entry
      .ok (some stopSequences)

def parseGenerationOverrides (value : Json) : ApiResult GenerationOverrides := do
  let number := optionalAt Json.number? (literal "a number") value
  let integer := optionalAt Json.integer? (literal "an integer") value
  let temperature ← number (literal "temperature")
  let topP ← number (literal "top_p")
  let topK ← integer (literal "top_k")
  let repeatPenalty ← number (literal "repeat_penalty")
  let repeatLastN ← integer (literal "repeat_last_n")
  let maxTokens ← integer (literal "max_tokens")
  let seed ← integer (literal "seed")
  let stop ← parseStop value
  let recordToolTrace ← optionalAt Json.boolean? (literal "a boolean") value
    (literal "record_tool_trace")
  .ok
    { temperature, topP, topK, repeatPenalty, repeatLastN, maxTokens, seed, stop
      recordToolTrace }

def overrideKeys : List StdString :=
  [literal "temperature", literal "top_p", literal "top_k",
    literal "repeat_penalty", literal "repeat_last_n", literal "max_tokens",
    literal "seed", literal "stop", literal "record_tool_trace"]

def modelAt (value : Json) : ApiResult StdString :=
  memberAt Json.string? value (literal "model")
    (invalidRequestError (literal "model must be a string") (literal "model")
      none)

def requireModel (model : StdString) : ApiResult Unit :=
  require (model ≠ [])
    (invalidRequestError (literal "model must not be empty") (literal "model")
      none)

def messagesAt (value : Json) : ApiResult (List Json) :=
  memberAt Json.array? value (literal "messages")
    (invalidRequestError (literal "messages must be an array")
      (literal "messages") none)

def streamAt (value : Json) : ApiResult Bool := do
  let stream ← optionalAt Json.boolean? (literal "a boolean") value
    (literal "stream")
  .ok (stream.getD false)

def sessionIdAt (value : Json) : ApiResult (Option StdString) := do
  let sessionId ← optionalAt Json.string? (literal "a string") value
    (literal "session_id")
  require (sessionId ≠ some [])
    (invalidRequestError (literal "session_id must not be empty")
      (literal "session_id") none)
  .ok sessionId

def requireMessages (items : List Json) : ApiResult Unit :=
  require (items ≠ [])
    (invalidRequestError (literal "messages must contain at least one item")
      (literal "messages") none)

def parseChatCompletionRequest (body : StdString) :
    ApiResult ChatCompletionRequest :=
  parseBody json body fun value => do
    rejectApiUnknownKeys value (literal "request")
      ([literal "model", literal "messages", literal "stream",
        literal "session_id"] ++ overrideKeys)
    let model ← modelAt value
    let items ← messagesAt value
    requireModel model
    let stream ← streamAt value
    let sessionId ← sessionIdAt value
    let overrides ← parseGenerationOverrides value
    requireMessages items
    let messages ← parseMessages rule [] items
    .ok
      { toGenerationOverrides := overrides
        model, messages, stream, sessionId }

def parseSessionCreateRequest (body : StdString) :
    ApiResult SessionCreateRequest :=
  parseBody json body fun value => do
    rejectApiUnknownKeys value (literal "request")
      [literal "model", literal "system_prompt"]
    let model ← modelAt value
    requireModel model
    let systemPrompt ← optionalAt Json.string? (literal "a string") value
      (literal "system_prompt")
    .ok { model, systemPrompt }

def parseExtractionRequest (body : StdString) : ApiResult ExtractionRequest :=
  parseBody json body fun value => do
    rejectApiUnknownKeys value (literal "request")
      ([literal "model", literal "schema", literal "messages", literal "stream",
        literal "session_id"] ++ overrideKeys)
    let model ← modelAt value
    let schema ← memberAt Json.object? value (literal "schema")
      (invalidRequestError (literal "schema must be an object")
        (literal "schema") none)
    let items ← messagesAt value
    requireModel model
    let stream ← streamAt value
    let sessionId ← sessionIdAt value
    let overrides ← parseGenerationOverrides value
    requireMessages items
    let messages ← parseMessages rule [] items
    .ok
      { toGenerationOverrides := overrides
        model, schema, messages, stream, sessionId }

def parseAgentChatRequest (body : StdString) : ApiResult AgentChatRequest :=
  parseBody json body fun value => do
    rejectApiUnknownKeys value (literal "request")
      ([literal "model", literal "message"] ++ overrideKeys)
    let model ← modelAt value
    requireModel model
    let message ← parseSingleMessageField rule value (literal "message")
      (literal "message")
    let overrides ← parseGenerationOverrides value
    .ok { toGenerationOverrides := overrides, model, message }

def parseAgentHistoryRequest (body : StdString) :
    ApiResult AgentHistoryRequest :=
  parseBody json body fun value => do
    rejectApiUnknownKeys value (literal "request") [literal "messages"]
    let items ← messagesAt value
    let messages ← parseMessages rule [] items
    .ok { messages }

def parseAgentHistoryMessageRequest (body : StdString) :
    ApiResult AgentHistoryMessageRequest :=
  parseBody json body fun value => do
    rejectApiUnknownKeys value (literal "request") [literal "message"]
    parseSingleMessageField rule value (literal "message") (literal "message")

def parseSystemPromptRequest (body : StdString) :
    ApiResult SystemPromptRequest :=
  parseBody json body fun value => do
    rejectApiUnknownKeys value (literal "request") [literal "system_prompt"]
    let systemPrompt ← memberAt Json.string? value (literal "system_prompt")
      (invalidRequestError (literal "system_prompt must be a string")
        (literal "system_prompt") none)
    .ok { systemPrompt }

end Parsers

section Acceptance

variable {Value Result : Type}

theorem bind_eq_ok {Failure : Type} {first : Except Failure Value}
    {next : Value → Except Failure Result} {result : Result} :
    first >>= next = .ok result ↔
      ∃ value, first = .ok value ∧ next value = .ok result := by
  cases first with
  | error error => simp [bind, Except.bind]
  | ok value => simp [bind, Except.bind]

@[simp] theorem require_eq_ok {condition : Prop} [Decidable condition]
    {error : ApiError} {done : Unit} :
    require condition error = .ok done ↔ condition := by
  unfold require
  split
  · simpa
  · simpa

@[simp] theorem memberAt_eq_ok {read : Json → Option Value} {json : Json}
    {key : StdString} {error : ApiError} {value : Value} :
    memberAt read json key error = .ok value ↔
      (json.find? key).bind read = some value := by
  unfold memberAt
  split
  · simp [*]
  · simp [*]

theorem mapM_eq_ok {parse : Value → ApiResult Result} {items : List Value}
    {results : List Result} :
    items.mapM parse = .ok results ↔
      List.Forall₂ (fun item result => parse item = .ok result) items
        results := by
  induction items generalizing results with
  | nil => simp [pure, Except.pure, eq_comm]
  | cons item rest ih =>
      simp only [List.mapM_cons, bind_eq_ok, ih, pure, Except.pure,
        Except.ok.injEq, List.forall₂_cons_left_iff]
      constructor
      · rintro ⟨result, parsed, others, all, rfl⟩
        exact ⟨result, others, parsed, all, rfl⟩
      · rintro ⟨result, others, parsed, all, rfl⟩
        exact ⟨result, parsed, others, all, rfl⟩

@[simp] theorem rejectApiUnknownKeys_eq_ok {json : Json} {context : StdString}
    {allowedKeys : List StdString} {done : Unit} :
    rejectApiUnknownKeys json context allowedKeys = .ok done ↔
      ∃ members, json = .object members ∧
        ∀ member ∈ members, member.1 ∈ allowedKeys := by
  cases json with
  | object members =>
      simp only [rejectApiUnknownKeys, rejectUnknownKeys]
      cases unknown : members.find? fun member => member.1 ∉ allowedKeys with
      | none => simpa using unknown
      | some member =>
          have listed := List.mem_of_find?_eq_some unknown
          have strange := List.find?_some unknown
          simp only [decide_eq_true_eq] at strange
          simp only [reduceCtorEq, Json.object.injEq, exists_eq_left', false_iff,
            not_forall]
          exact ⟨member, listed, strange⟩
  | _ => simp [rejectApiUnknownKeys, rejectUnknownKeys]

theorem parseRole_eq_ok {text : StdString} {role : MessageRole} :
    parseRole text = .ok role ↔ text = role.toText := by
  constructor
  · intro parsed
    unfold parseRole at parsed
    split at parsed
    · cases parsed
      assumption
    split at parsed
    · cases parsed
      assumption
    split at parsed
    · cases parsed
      assumption
    split at parsed
    · cases parsed
      assumption
    · cases parsed
  · rintro rfl
    cases role with
    | system => decide +kernel
    | user => decide +kernel
    | assistant => decide +kernel
    | tool => decide +kernel

end Acceptance

/-- An object with no other keys than these. -/
def HasKeys (json : Json) (allowedKeys : List StdString) : Prop :=
  ∃ members, json = .object members ∧ ∀ member ∈ members, member.1 ∈ allowedKeys

structure DescribesFunction (json : Json) (call : ToolCall) : Prop where
  keys : HasKeys json [literal "name", literal "arguments"]
  name : json.find? (literal "name") = some (.string call.name)
  arguments :
    json.find? (literal "arguments") = some (.string call.argumentsJson)

structure DescribesCall (json : Json) (call : ToolCall) : Prop where
  keys : HasKeys json [literal "id", literal "type", literal "function"]
  id : json.find? (literal "id") = some (.string call.id)
  type : json.find? (literal "type") = some (.string (literal "function"))
  function : ∃ function, json.find? (literal "function") = some function ∧
    DescribesFunction function call

structure Describes (json : Json) (message : ChatMessage) : Prop where
  keys : HasKeys json
    [literal "role", literal "content", literal "tool_call_id",
      literal "tool_calls"]
  role : json.find? (literal "role") = some (.string message.role.toText)
  content : json.find? (literal "content") = some (.string message.content)
  toolCallId :
    if message.role = .tool then
      json.find? (literal "tool_call_id") = some (.string message.toolCallId)
    else json.find? (literal "tool_call_id") = none ∧ message.toolCallId = []
  toolCalls :
    (json.find? (literal "tool_calls") = none ∧ message.toolCalls = []) ∨
      (message.role = .assistant ∧ ∃ elements,
        json.find? (literal "tool_calls") = some (.array elements) ∧
          List.Forall₂ DescribesCall elements message.toolCalls)

section Grammar

variable {json : Json} {content : StdString} {message : ChatMessage}

theorem string?_eq_some {value : Json} {text : StdString} :
    value.string? = some text ↔ value = .string text := by
  cases value with
  | string held => simp [Json.string?]
  | _ => simp [Json.string?]

theorem array?_eq_some {value : Json} {elements : List Json} :
    value.array? = some elements ↔ value = .array elements := by
  cases value with
  | array held => simp [Json.array?]
  | _ => simp [Json.array?]

theorem object?_eq_some {value result : Json} :
    value.object? = some result ↔ (∃ members, value = .object members) ∧
      result = value := by
  cases value with
  | object members => simp [Json.object?, eq_comm]
  | _ => simp [Json.object?]

theorem parseToolCall_eq_ok {call : ToolCall} :
    parseToolCall json = .ok call ↔ DescribesCall json call := by
  simp only [parseToolCall, bind_eq_ok, rejectApiUnknownKeys_eq_ok,
    memberAt_eq_ok, require_eq_ok, Option.bind_eq_some_iff, string?_eq_some,
    object?_eq_some, Except.ok.injEq]
  constructor
  · rintro ⟨-, keys, id, ⟨-, idAt, rfl⟩, type, ⟨-, typeAt, rfl⟩, -, rfl, function,
      ⟨_, functionAt, -, rfl⟩, -, functionKeys, name, ⟨-, nameAt, rfl⟩,
      arguments, ⟨-, argumentsAt, rfl⟩, rfl⟩
    exact ⟨keys, idAt, typeAt, _, functionAt, functionKeys, nameAt, argumentsAt⟩
  · rintro ⟨keys, idAt, typeAt, function, functionAt, functionKeys, nameAt,
      argumentsAt⟩
    obtain ⟨members, rfl, listed⟩ := functionKeys
    exact ⟨(), keys, _, ⟨_, idAt, rfl⟩, _, ⟨_, typeAt, rfl⟩, (), rfl, _,
      ⟨_, functionAt, ⟨members, rfl⟩, rfl⟩, (), ⟨members, rfl, listed⟩, _,
      ⟨_, nameAt, rfl⟩, _, ⟨_, argumentsAt, rfl⟩, rfl⟩

theorem parseToolMessage_eq_ok :
    parseToolMessage json content = .ok message ↔
      json.find? (literal "tool_calls") = none ∧
        ∃ toolCallId, json.find? (literal "tool_call_id") =
          some (.string toolCallId) ∧ message = .tool content toolCallId := by
  simp only [parseToolMessage, bind_eq_ok, require_eq_ok, memberAt_eq_ok,
    Option.bind_eq_some_iff, string?_eq_some, Option.isNone_iff_eq_none,
    Except.ok.injEq]
  constructor
  · rintro ⟨-, absent, toolCallId, ⟨-, found, rfl⟩, rfl⟩
    exact ⟨absent, toolCallId, found, rfl⟩
  · rintro ⟨absent, toolCallId, found, rfl⟩
    exact ⟨(), absent, toolCallId, ⟨_, found, rfl⟩, rfl⟩

theorem parseOtherMessage_eq_ok {role : MessageRole} :
    parseOtherMessage json role content = .ok message ↔
      json.find? (literal "tool_call_id") = none ∧
        ((json.find? (literal "tool_calls") = none ∧
            message = { role, content }) ∨
          (role = .assistant ∧ ∃ elements toolCalls,
            json.find? (literal "tool_calls") = some (.array elements) ∧
              List.Forall₂ DescribesCall elements toolCalls ∧
              message = .assistantWithToolCalls content toolCalls)) := by
  simp only [parseOtherMessage, bind_eq_ok, require_eq_ok,
    Option.isNone_iff_eq_none, exists_const]
  refine and_congr_right fun _ => ?_
  cases found : json.find? (literal "tool_calls") with
  | none => simp [eq_comm]
  | some toolCallsJson =>
      simp only [reduceCtorEq, false_and, false_or, Option.some.injEq,
        bind_eq_ok, require_eq_ok, exists_const]
      refine and_congr_right fun _ => ?_
      cases listed : toolCallsJson.array? with
      | none =>
          have other (elements : List Json) : toolCallsJson ≠ .array elements :=
            fun same => by simp [same, Json.array?] at listed
          simp [other]
      | some elements =>
          obtain rfl := array?_eq_some.mp listed
          simp only [bind_eq_ok, mapM_eq_ok, parseToolCall_eq_ok,
            Except.ok.injEq]
          constructor
          · rintro ⟨toolCalls, all, rfl⟩
            exact ⟨elements, toolCalls, rfl, all, rfl⟩
          · rintro ⟨_, toolCalls, ⟨⟩, all, rfl⟩
            exact ⟨toolCalls, all, rfl⟩

theorem readMessage_eq_ok :
    readMessage json = .ok message ↔ Describes json message := by
  simp only [readMessage, bind_eq_ok, rejectApiUnknownKeys_eq_ok,
    memberAt_eq_ok, Option.bind_eq_some_iff, string?_eq_some, parseRole_eq_ok]
  constructor
  · rintro ⟨-, keys, roleText, ⟨-, roleAt, rfl⟩, content, ⟨-, contentAt, rfl⟩,
      role, rfl, parsed⟩
    split at parsed
    · rename_i tool
      subst tool
      obtain ⟨absent, toolCallId, found, rfl⟩ :=
        parseToolMessage_eq_ok.mp parsed
      exact ⟨keys, roleAt, contentAt, by simpa [ChatMessage.tool] using found,
        .inl ⟨absent, rfl⟩⟩
    · rename_i other
      obtain ⟨absent, ⟨none, rfl⟩ | ⟨rfl, elements, toolCalls, found, all, rfl⟩⟩ :=
        parseOtherMessage_eq_ok.mp parsed
      · exact ⟨keys, roleAt, contentAt, by simpa [other] using absent,
          .inl ⟨none, rfl⟩⟩
      · exact ⟨keys, roleAt, contentAt,
          by simpa [ChatMessage.assistantWithToolCalls] using absent,
          .inr ⟨rfl, elements, found, all⟩⟩
  · rintro ⟨keys, roleAt, contentAt, toolCallId, toolCalls⟩
    refine ⟨(), keys, _, ⟨_, roleAt, rfl⟩, _, ⟨_, contentAt, rfl⟩, message.role,
      rfl, ?_⟩
    obtain ⟨role, content, heldId, heldCalls⟩ := message
    split
    · rename_i tool
      obtain rfl : role = .tool := tool
      rcases toolCalls with ⟨absent, rfl⟩ | ⟨⟨⟩, _⟩
      exact parseToolMessage_eq_ok.mpr ⟨absent, heldId, by simpa using toolCallId,
        rfl⟩
    · rename_i other
      rw [if_neg other] at toolCallId
      obtain ⟨absent, rfl⟩ := toolCallId
      rcases toolCalls with ⟨none, rfl⟩ | ⟨rfl, elements, found, all⟩
      · exact parseOtherMessage_eq_ok.mpr ⟨absent, .inl ⟨none, rfl⟩⟩
      · exact parseOtherMessage_eq_ok.mpr
          ⟨absent, .inr ⟨rfl, elements, heldCalls, found, all, rfl⟩⟩

theorem Describes.unique {other : ChatMessage} (described : Describes json message)
    (again : Describes json other) : message = other :=
  Except.ok.inj
    ((readMessage_eq_ok.mpr described).symm.trans (readMessage_eq_ok.mpr again))

end Grammar

section Sequences

variable {rule : RoleRule} {value : Json} {message : ChatMessage}
  {seed after messages : List ChatMessage} {items : List Json}

theorem parseMessage_eq_ok :
    parseMessage rule value seed = .ok (message, after) ↔
      Describes value message ∧ Admits seed message.role ∧
        after = seed ++ [message] := by
  simp only [parseMessage, bind_eq_ok, readMessage_eq_ok]
  constructor
  · rintro ⟨read, described, validated⟩
    cases verdict : validateMessageSequence rule seed read.role with
    | error error => simp [verdict] at validated
    | ok done =>
        simp only [verdict, Except.ok.injEq, Prod.mk.injEq] at validated
        obtain ⟨rfl, rfl⟩ := validated
        exact ⟨described, (validate_ok rule).mp verdict, rfl⟩
  · rintro ⟨described, admitted, rfl⟩
    exact ⟨message, described, by simp [(validate_ok rule).mpr admitted]⟩

/-- The loop accepts what the grammar describes and the role rule admits. -/
theorem parseMessages_eq_ok :
    parseMessages rule seed items = .ok messages ↔
      ∃ added, messages = seed ++ added ∧
        List.Forall₂ Describes items added ∧ Continues seed added := by
  induction items generalizing seed with
  | nil => simp [parseMessages, eq_comm]
  | cons item rest ih =>
      simp only [parseMessages, bind_eq_ok, Prod.exists, parseMessage_eq_ok, ih]
      constructor
      · rintro ⟨message, _, ⟨described, admitted, rfl⟩, added, rfl, all,
          continues⟩
        exact ⟨message :: added, by simp, .cons described all,
          continues_cons.mpr ⟨admitted, continues⟩⟩
      · rintro ⟨_, rfl, all, continues⟩
        obtain ⟨message, added, described, rest, rfl⟩ :=
          List.forall₂_cons_left_iff.mp all
        obtain ⟨admitted, later⟩ := continues_cons.mp continues
        exact ⟨message, _, ⟨described, admitted, rfl⟩, added, by simp, rest,
          later⟩

end Sequences

section Requests

variable {rule : RoleRule} {json : JsonLibrary} {body : StdString}

theorem parseBody_eq_ok {Request : Type} {parse : Json → ApiResult Request}
    {request : Request} :
    parseBody json body parse = .ok request ↔
      ∃ value, json.parse body = .ok value ∧ parse value = .ok request := by
  unfold parseBody
  cases json.parse body with
  | error exception => simp
  | ok value => simp

theorem messagesAt_eq_ok {value : Json} {items : List Json} :
    messagesAt value = .ok items ↔
      value.find? (literal "messages") = some (.array items) := by
  simp only [messagesAt, memberAt_eq_ok, Option.bind_eq_some_iff,
    array?_eq_some, exists_eq_right]

theorem parseSingleMessageField_eq_ok {value : Json} {field context : StdString}
    {message : ChatMessage} :
    parseSingleMessageField rule value field context = .ok message ↔
      ∃ item, value.find? field = some item ∧ Describes item message ∧
        message.role ≠ .tool := by
  simp only [parseSingleMessageField, bind_eq_ok, memberAt_eq_ok,
    Option.bind_eq_some_iff, object?_eq_some, Prod.exists, parseMessage_eq_ok,
    admits_nil, Except.ok.injEq]
  constructor
  · rintro ⟨_, ⟨item, found, -, rfl⟩, _, _, ⟨described, first, -⟩, rfl⟩
    exact ⟨_, found, described, first⟩
  · rintro ⟨item, found, described, first⟩
    obtain ⟨members, rfl, _⟩ := described.keys
    exact ⟨_, ⟨_, found, ⟨members, rfl⟩, rfl⟩, message, _,
      ⟨described, first, rfl⟩, rfl⟩

theorem parseAgentHistoryRequest_eq_ok {request : AgentHistoryRequest} :
    parseAgentHistoryRequest rule json body = .ok request ↔
      ∃ value items, json.parse body = .ok value ∧
        HasKeys value [literal "messages"] ∧
        value.find? (literal "messages") = some (.array items) ∧
        List.Forall₂ Describes items request.messages ∧
        WellOrdered request.messages := by
  simp only [parseAgentHistoryRequest, parseBody_eq_ok, bind_eq_ok,
    rejectApiUnknownKeys_eq_ok, messagesAt_eq_ok, parseMessages_eq_ok,
    Except.ok.injEq]
  constructor
  · rintro ⟨value, parsed, -, keys, items, found, _,
      ⟨messages, rfl, all, ordered⟩, rfl⟩
    exact ⟨value, items, parsed, keys, found, all, ordered⟩
  · rintro ⟨value, items, parsed, keys, found, all, ordered⟩
    exact ⟨value, parsed, (), keys, items, found, _,
      ⟨request.messages, rfl, all, ordered⟩, rfl⟩

theorem parseAgentHistoryMessageRequest_eq_ok
    {message : AgentHistoryMessageRequest} :
    parseAgentHistoryMessageRequest rule json body = .ok message ↔
      ∃ value item, json.parse body = .ok value ∧
        HasKeys value [literal "message"] ∧
        value.find? (literal "message") = some item ∧ Describes item message ∧
        message.role ≠ .tool := by
  simp only [parseAgentHistoryMessageRequest, parseBody_eq_ok, bind_eq_ok,
    rejectApiUnknownKeys_eq_ok, parseSingleMessageField_eq_ok]
  constructor
  · rintro ⟨value, parsed, -, keys, item, found, described, first⟩
    exact ⟨value, item, parsed, keys, found, described, first⟩
  · rintro ⟨value, item, parsed, keys, found, described, first⟩
    exact ⟨value, parsed, (), keys, item, found, described, first⟩

theorem parseMessages_conversation {items : List Json}
    {messages : List ChatMessage} {done : Unit}
    (given : requireMessages items = .ok done)
    (parsed : parseMessages rule [] items = .ok messages) :
    WellOrdered messages ∧ messages ≠ [] := by
  obtain ⟨added, rfl, all, ordered⟩ := parseMessages_eq_ok.mp parsed
  refine ⟨ordered, ?_⟩
  rintro rfl
  obtain rfl := List.forall₂_nil_right_iff.mp all
  exact absurd rfl (require_eq_ok.mp given)

theorem parseChatCompletionRequest_conversation
    {request : ChatCompletionRequest}
    (accepted : parseChatCompletionRequest rule json body = .ok request) :
    WellOrdered request.messages ∧ request.messages ≠ [] := by
  simp only [parseChatCompletionRequest, parseBody_eq_ok, bind_eq_ok,
    Except.ok.injEq] at accepted
  obtain ⟨value, _, _, _, model, _, items, _, _, _, stream, _, sessionId, _,
    overrides, _, _, given, messages, parsed, rfl⟩ := accepted
  exact parseMessages_conversation given parsed

theorem parseExtractionRequest_conversation {request : ExtractionRequest}
    (accepted : parseExtractionRequest rule json body = .ok request) :
    WellOrdered request.messages ∧ request.messages ≠ [] := by
  simp only [parseExtractionRequest, parseBody_eq_ok, bind_eq_ok,
    Except.ok.injEq] at accepted
  obtain ⟨value, _, _, _, model, _, schema, _, items, _, _, _, stream, _,
    sessionId, _, overrides, _, _, given, messages, parsed, rfl⟩ := accepted
  exact parseMessages_conversation given parsed

end Requests

end ZooKeeperServer
