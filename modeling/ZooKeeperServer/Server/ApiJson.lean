import ZooKeeperServer.Server.Json

namespace ZooKeeperServer

/-! The response bodies, and the API error a runtime error turns into. -/

open Json in
def makeErrorBody (error : ApiError) : Json :=
  objectOf [(literal "error", objectOf
    ([(literal "message", .string error.message),
        (literal "type", .string error.type)] ++
      (error.param.toList.map fun param => (literal "param", .string param)) ++
      (error.code.toList.map fun code => (literal "code", .string code))))]

def ToolInvocationStatus.toText : ToolInvocationStatus → StdString
  | .succeeded => literal "succeeded"
  | .failed name => name

namespace Json

variable (json : JsonLibrary)

/-- A text that need not be JSON: parsed where it is, a string where not. -/
def parsedOrText (text : StdString) : Json :=
  match json.parse text with
  | .ok value => value
  | .error _ => .string text

def makeToolInvocation (invocation : ToolInvocationRecord) : Json :=
  objectOf
    ([(literal "id", .string invocation.id),
        (literal "name", .string invocation.name),
        (literal "status", .string invocation.status.toText),
        (literal "arguments", parsedOrText json invocation.argumentsJson)] ++
      (invocation.resultJson.toList.map fun result =>
        (literal "result", parsedOrText json result)) ++
      (invocation.error.toList.map fun error =>
        (literal "error", .string error.message)))

def makeUsage (usage : CompletionUsage) : Json :=
  objectOf
    [(literal "prompt_tokens", .integer usage.promptTokens),
      (literal "completion_tokens", .integer usage.completionTokens),
      (literal "total_tokens", .integer usage.totalTokens)]

def makeMetrics (metrics : CompletionMetrics) : Json :=
  objectOf
    [(literal "latency_ms", .integer metrics.latencyMs),
      (literal "time_to_first_token_ms", .integer metrics.timeToFirstTokenMs),
      (literal "tokens_per_second", .double metrics.tokensPerSecond)]

def makeSessionBody (summary : SessionSummary) : Json :=
  objectOf
    [(literal "id", .string summary.id),
      (literal "object", .string (literal "session")),
      (literal "model", .string summary.model),
      (literal "created", .integer summary.created),
      (literal "last_used", .integer summary.lastUsed),
      (literal "expires_at", .integer summary.expiresAt)]

end Json

open Json in
def makeChatCompletionBody (json : JsonLibrary) (completionId : StdString)
    (created : Int) (modelId : StdString) (response : CompletionResult) :
    Json :=
  objectOf
    [(literal "id", .string completionId),
      (literal "object", .string (literal "chat.completion")),
      (literal "created", .integer created),
      (literal "model", .string modelId),
      (literal "choices", .array [objectOf
        [(literal "index", .integer 0),
          (literal "message", objectOf
            [(literal "role", .string (literal "assistant")),
              (literal "content", .string response.text)]),
          (literal "finish_reason", .string (literal "stop"))]]),
      (literal "usage", makeUsage response.usage),
      (literal "zoo_metrics", makeMetrics response.metrics),
      (literal "tool_invocations",
        .array (response.toolInvocations.map (makeToolInvocation json)))]

structure ExtractionRequest extends GenerationOverrides where
  model : StdString
  schema : Json
  messages : List ChatMessage
  stream : Bool := false
  sessionId : Option StdString := none

structure ExtractionResult where
  text : StdString
  data : Json
  usage : CompletionUsage := {}
  metrics : CompletionMetrics := {}
  toolInvocations : List ToolInvocationRecord := []

open Json in
def makeExtractionBody (json : JsonLibrary) (extractionId : StdString)
    (created : Int) (modelId : StdString) (response : ExtractionResult) :
    Json :=
  objectOf
    [(literal "id", .string extractionId),
      (literal "object", .string (literal "extraction")),
      (literal "created", .integer created),
      (literal "model", .string modelId),
      (literal "text", .string response.text),
      (literal "data", response.data),
      (literal "usage", makeUsage response.usage),
      (literal "zoo_metrics", makeMetrics response.metrics),
      (literal "tool_invocations",
        .array (response.toolInvocations.map (makeToolInvocation json)))]

def mapRuntimeErrorToApiError (error : RuntimeError) : ApiError :=
  match error.code with
  | .invalidConfig | .invalidSamplingParams =>
      invalidRequestError error.message none (literal "invalid_config")
  | .invalidModelPath | .invalidContextSize | .backendInitFailed
  | .modelLoadFailed => serverError error.message (literal "model_load_failed")
  | .contextCreationFailed =>
      serverError error.message (literal "context_creation_failed")
  | .inferenceFailed => serverError error.message (literal "inference_failed")
  | .tokenizationFailed =>
      serverError error.message (literal "tokenization_failed")
  | .contextWindowExceeded =>
      invalidRequestError error.message (literal "messages")
        (literal "context_window_exceeded")
  | .invalidMessageSequence =>
      invalidRequestError error.message (literal "messages")
        (literal "invalid_message_sequence")
  | .templateRenderFailed =>
      serverError error.message (literal "template_render_failed")
  | .agentNotRunning | .requestCancelled =>
      serviceUnavailableError error.message (literal "agent_not_ready")
  | .requestTimeout => serverError error.message (literal "request_timeout")
  | .queueFull => serviceUnavailableError error.message (literal "queue_full")
  | .toolNotFound =>
      invalidRequestError error.message none (literal "tool_not_found")
  | .toolExecutionFailed | .invalidToolSignature | .invalidToolSchema
  | .toolValidationFailed =>
      serverError error.message (literal "tool_execution_failed")
  | .toolRetriesExhausted | .toolLoopLimitReached =>
      serverError error.message (literal "tool_retries_exhausted")
  | .invalidOutputSchema =>
      invalidRequestError error.message none (literal "invalid_output_schema")
  | .extractionFailed => serverError error.message (literal "extraction_failed")
  | .ggufReadFailed | .ggufMetadataNotFound | .storeCorrupted
  | .filesystemError => serverError error.message (literal "hub_error")
  | .modelNotFound => notFoundError error.message (literal "model_not_found")
  | .modelAlreadyExists =>
      conflictError error.message (literal "model_already_exists")
  | .downloadFailed | .huggingFaceApiError =>
      serverError error.message (literal "model_download_failed")
  | .invalidModelIdentifier =>
      invalidRequestError error.message none
        (literal "invalid_model_identifier")
  | .unknown => serverError error.message (literal "runtime_error")

structure HttpResponse where
  status : Nat
  contentType : StdString
  body : StdString
  deriving DecidableEq, Repr

section Responses

variable (json : JsonLibrary)

def makeJsonResponse (body : Json) (status : Nat) :
    Except StdException HttpResponse :=
  (json.dump body).map fun text => ⟨status, literal "application/json", text⟩

def makeErrorResponse (error : ApiError) : Except StdException HttpResponse :=
  makeJsonResponse json (makeErrorBody error) error.httpStatus

def makeChatCompletionResponse (completionId : StdString) (created : Int)
    (modelId : StdString) (response : CompletionResult) :
    Except StdException HttpResponse :=
  makeJsonResponse json
    (makeChatCompletionBody json completionId created modelId response) 200

def makeExtractionResponse (extractionId : StdString) (created : Int)
    (modelId : StdString) (response : ExtractionResult) :
    Except StdException HttpResponse :=
  makeJsonResponse json
    (makeExtractionBody json extractionId created modelId response) 200

def makeSessionResponse (summary : SessionSummary) (status : Nat) :
    Except StdException HttpResponse :=
  makeJsonResponse json (Json.makeSessionBody summary) status

end Responses

end ZooKeeperServer
