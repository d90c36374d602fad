import Mathlib.Data.Nat.Digits.Defs

namespace ZooKeeperServer

/-! The server's value types.  A `std::string` is its bytes: nothing in the
server promises that a token or a reply is well-formed text. -/

abbrev StdString := List UInt8

def literal (text : String) : StdString :=
  text.toList.map fun character => UInt8.ofNat character.toNat

def stdToString (value : Nat) : StdString :=
  if value = 0 then literal "0"
  else (Nat.digits 10 value).reverse.map fun digit => UInt8.ofNat (48 + digit)

def decimalValue (text : StdString) : Nat :=
  Nat.ofDigits 10 (text.reverse.map fun byte => byte.toNat - 48)

theorem decimalValue_stdToString (value : Nat) :
    decimalValue (stdToString value) = value := by
  unfold stdToString
  split
  · rename_i zero
    subst zero
    rfl
  · have digits : ((Nat.digits 10 value).map fun digit =>
        (UInt8.ofNat (48 + digit)).toNat - 48) = Nat.digits 10 value := by
      rw [List.map_congr_left (g := id), List.map_id]
      intro digit member
      have small := Nat.digits_lt_base (by decide : 1 < 10) member
      rw [UInt8.toNat_ofNat_of_lt' (by simp only [UInt8.size]; omega)]
      simp only [id_eq]
      omega
    simp only [decimalValue, List.map_reverse, List.reverse_reverse,
      List.map_map, Function.comp_def, digits, Nat.ofDigits_digits]

theorem stdToString_injective : Function.Injective stdToString :=
  Function.LeftInverse.injective decimalValue_stdToString

inductive MessageRole
  | system
  | user
  | assistant
  | tool
  deriving DecidableEq, Repr

def MessageRole.toText : MessageRole → StdString
  | .system => literal "system"
  | .user => literal "user"
  | .assistant => literal "assistant"
  | .tool => literal "tool"

structure ToolCall where
  id : StdString
  name : StdString
  argumentsJson : StdString
  deriving DecidableEq, Repr

structure ChatMessage where
  role : MessageRole
  content : StdString
  toolCallId : StdString := []
  toolCalls : List ToolCall := []
  deriving DecidableEq, Repr

namespace ChatMessage

def system (content : StdString) : ChatMessage :=
  { role := .system, content }

def user (content : StdString) : ChatMessage :=
  { role := .user, content }

def assistant (content : StdString) : ChatMessage :=
  { role := .assistant, content }

def tool (content toolCallId : StdString) : ChatMessage :=
  { role := .tool, content, toolCallId }

def assistantWithToolCalls (content : StdString) (toolCalls : List ToolCall) :
    ChatMessage :=
  { role := .assistant, content, toolCalls }

@[simp] theorem system_role (content : StdString) :
    (system content).role = .system := rfl

@[simp] theorem assistant_role (content : StdString) :
    (assistant content).role = .assistant := rfl

end ChatMessage

structure ApiError where
  httpStatus : Nat
  message : StdString
  type : StdString
  param : Option StdString
  code : Option StdString
  deriving DecidableEq, Repr

abbrev ApiResult (Value : Type) := Except ApiError Value

def invalidRequestError (message : StdString)
    (param code : Option StdString) : ApiError :=
  ⟨400, message, literal "invalid_request_error", param, code⟩

def serviceUnavailableError (message : StdString)
    (code : Option StdString) : ApiError :=
  ⟨503, message, literal "service_unavailable_error", none, code⟩

def serverError (message : StdString) (code : Option StdString) : ApiError :=
  ⟨500, message, literal "server_error", none, code⟩

def notFoundError (message : StdString) (code : Option StdString) : ApiError :=
  ⟨404, message, literal "not_found_error", none, code⟩

def conflictError (message : StdString) (code : Option StdString) : ApiError :=
  ⟨409, message, literal "conflict_error", none, code⟩

def authError (message : StdString) (code : Option StdString) : ApiError :=
  ⟨401, message, literal "auth_error", none, code⟩

inductive RuntimeErrorCode
  | invalidConfig
  | invalidSamplingParams
  | invalidModelPath
  | invalidContextSize
  | backendInitFailed
  | modelLoadFailed
  | contextCreationFailed
  | inferenceFailed
  | tokenizationFailed
  | contextWindowExceeded
  | invalidMessageSequence
  | templateRenderFailed
  | agentNotRunning
  | requestCancelled
  | requestTimeout
  | queueFull
  | toolNotFound
  | toolExecutionFailed
  | invalidToolSignature
  | invalidToolSchema
  | toolValidationFailed
  | toolRetriesExhausted
  | toolLoopLimitReached
  | invalidOutputSchema
  | extractionFailed
  | ggufReadFailed
  | ggufMetadataNotFound
  | storeCorrupted
  | filesystemError
  | modelNotFound
  | modelAlreadyExists
  | downloadFailed
  | huggingFaceApiError
  | invalidModelIdentifier
  | unknown
  deriving DecidableEq, Repr

structure RuntimeError where
  code : RuntimeErrorCode
  message : StdString
  context : Option StdString := none
  deriving DecidableEq, Repr

abbrev RuntimeResult (Value : Type) := Except RuntimeError Value

/-- A `double`, carried as its bit pattern: the server never computes with it. -/
structure Double where
  bits : UInt64
  deriving DecidableEq, Repr

structure CompletionUsage where
  promptTokens : Int := 0
  completionTokens : Int := 0
  totalTokens : Int := 0
  deriving DecidableEq, Repr

structure CompletionMetrics where
  latencyMs : Int := 0
  timeToFirstTokenMs : Int := 0
  tokensPerSecond : Double := ⟨0⟩
  deriving DecidableEq, Repr

/-- `zoo::ToolInvocationStatus`; the enumerators other than `Succeeded` are told
apart by their `zoo::to_string`. -/
inductive ToolInvocationStatus
  | succeeded
  | failed (name : StdString)
  deriving DecidableEq, Repr

structure ToolInvocationRecord where
  id : StdString
  name : StdString
  argumentsJson : StdString
  status : ToolInvocationStatus
  resultJson : Option StdString := none
  error : Option RuntimeError := none
  deriving DecidableEq, Repr

structure CompletionResult where
  text : StdString
  usage : CompletionUsage := {}
  metrics : CompletionMetrics := {}
  toolInvocations : List ToolInvocationRecord := []
  deriving DecidableEq, Repr

/-- A JSON number as it was sent; the server only ever narrows it to `float`. -/
inductive JsonNumber
  | integer (value : Int)
  | double (value : Double)
  deriving DecidableEq, Repr

structure GenerationOverrides where
  temperature : Option JsonNumber := none
  topP : Option JsonNumber := none
  topK : Option Int := none
  repeatPenalty : Option JsonNumber := none
  repeatLastN : Option Int := none
  maxTokens : Option Int := none
  seed : Option Int := none
  stop : Option (List StdString) := none
  recordToolTrace : Option Bool := none
  deriving DecidableEq, Repr

structure ChatCompletionRequest extends GenerationOverrides where
  model : StdString
  messages : List ChatMessage
  stream : Bool := false
  sessionId : Option StdString := none
  deriving DecidableEq, Repr

structure AgentChatRequest extends GenerationOverrides where
  model : StdString
  message : ChatMessage
  deriving DecidableEq, Repr

structure AgentHistoryRequest where
  messages : List ChatMessage
  deriving DecidableEq, Repr

abbrev AgentHistoryMessageRequest := ChatMessage

structure SessionCreateRequest where
  model : StdString
  systemPrompt : Option StdString
  deriving DecidableEq, Repr

structure AgentHistorySnapshot where
  messages : List ChatMessage
  estimatedTokens : Int
  contextSize : Int
  contextExceeded : Bool
  deriving DecidableEq, Repr

structure SystemPromptRequest where
  systemPrompt : StdString
  deriving DecidableEq, Repr

structure SessionSummary where
  id : StdString
  model : StdString
  created : Int
  lastUsed : Int
  expiresAt : Int
  deriving DecidableEq, Repr

end ZooKeeperServer
