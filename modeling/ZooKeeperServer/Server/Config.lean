import ZooKeeperServer.Server.ToolConfig

namespace ZooKeeperServer

/-! The configuration file.  Its values go into members of fixed-width types, by a
cast from the number that the JSON library has stored. -/

namespace Json

def typeError (message : StdString) : StdException :=
  ⟨literal "[json.exception.type_error.302] " ++ message⟩

def outOfRange (message : StdString) : StdException :=
  ⟨literal "[json.exception.out_of_range.401] " ++ message⟩

def otherError (message : StdString) : StdException :=
  ⟨literal "[json.exception.other_error.501] " ++ message⟩

def typeName : Json → StdString
  | .null => literal "null"
  | .boolean _ => literal "boolean"
  | .integer _ => literal "number"
  | .double _ => literal "number"
  | .string _ => literal "string"
  | .array _ => literal "array"
  | .object _ => literal "object"

def mistyped (expected : String) (json : Json) : StdException :=
  typeError (literal "type must be " ++ literal expected ++ literal ", but is " ++
    json.typeName)

def getString : Json → Except StdException StdString
  | .string text => .ok text
  | other => .error (mistyped "string" other)

/-- `get_to` of the library's own 64-bit numbers.  `truncate` is the cast of a
`double`. -/
def getNumber (truncate : Double → Int) : Json → Except StdException Int
  | .integer value => .ok value
  | .double value => .ok (truncate value)
  | other => .error (mistyped "number" other)

/-- `get_to` of any other arithmetic type, which takes a boolean for a number. -/
def getArithmetic (truncate : Double → Int) : Json → Except StdException Int
  | .boolean value => .ok (if value then 1 else 0)
  | other => getNumber truncate other

def memberOr {Value : Type} (json : Json) (key : StdString) (held : Value)
    (read : Json → Except StdException Value) : Except StdException Value :=
  match json.find? key with
  | none => .ok held
  | some value => read value

end Json

open Json

def checkUnknownKeys (json : Json) (context : StdString)
    (allowedKeys : List StdString) : Except StdException Unit :=
  match rejectUnknownKeys json context allowedKeys with
  | .error error => .error (otherError error)
  | .ok () => .ok ()

structure HttpConfig where
  clientMaxBodySizeBytes : Int64 := 1048576
  clientMaxMemoryBodySizeBytes : Int64 := 65536
  idleConnectionTimeoutSeconds : Int32 := 60
  corsAllowOrigins : List StdString := []

structure SessionConfig where
  maxSessions : UInt64 := 0
  idleTtlSeconds : UInt32 := 900

def stringElements (json : Json) (notArray notStrings : String) :
    Except StdException (List StdString) :=
  match json with
  | .array elements => elements.mapM fun
      | .string text => .ok text
      | _ => .error (typeError (literal notStrings))
  | _ => .error (typeError (literal notArray))

def HttpConfig.fromJson (truncate : Double → Int) (json : Json) :
    Except StdException HttpConfig := do
  checkUnknownKeys json (literal "http config")
    [literal "client_max_body_size_bytes",
      literal "client_max_memory_body_size_bytes",
      literal "idle_connection_timeout_seconds", literal "cors_allow_origins"]
  let config : HttpConfig := {}
  let clientMaxBodySizeBytes ← json.memberOr
    (literal "client_max_body_size_bytes") config.clientMaxBodySizeBytes
    fun value => return Int64.ofInt (← value.getNumber truncate)
  let clientMaxMemoryBodySizeBytes ← json.memberOr
    (literal "client_max_memory_body_size_bytes")
    config.clientMaxMemoryBodySizeBytes
    fun value => return Int64.ofInt (← value.getNumber truncate)
  let idleConnectionTimeoutSeconds ← json.memberOr
    (literal "idle_connection_timeout_seconds")
    config.idleConnectionTimeoutSeconds
    fun value => return Int32.ofInt (← value.getArithmetic truncate)
  let corsAllowOrigins ← json.memberOr (literal "cors_allow_origins")
    config.corsAllowOrigins
    fun value => stringElements value "http.cors_allow_origins must be an array"
      "http.cors_allow_origins entries must be strings"
  return { clientMaxBodySizeBytes, clientMaxMemoryBodySizeBytes,
           idleConnectionTimeoutSeconds, corsAllowOrigins }

def SessionConfig.fromJson (truncate : Double → Int) (json : Json) :
    Except StdException SessionConfig := do
  checkUnknownKeys json (literal "sessions config")
    [literal "max_sessions", literal "idle_ttl_seconds"]
  let config : SessionConfig := {}
  let maxSessions ← json.memberOr (literal "max_sessions") config.maxSessions
    fun value => return UInt64.ofInt (← value.getNumber truncate)
  let idleTtlSeconds ← json.memberOr (literal "idle_ttl_seconds")
    config.idleTtlSeconds
    fun value => return UInt32.ofInt (← value.getArithmetic truncate)
  return { maxSessions, idleTtlSeconds }

namespace CommandToolConfig

def requireString (json : Json) (field : StdString) :
    Except StdException StdString :=
  match (json.find? field).bind Json.string? with
  | some text => .ok text
  | none => .error (typeError (field ++ literal " must be a string"))

def parametersFromJson (json : Json) : Except StdException Json :=
  match (json.find? (literal "parameters")).bind object? with
  | some schema => .ok schema
  | none => .error (typeError (literal "parameters must be an object"))

def commandFromJson (json : Json) : Except StdException (List StdString) :=
  stringElements ((json.find? (literal "command")).getD .null)
    "command must be an array" "command entries must be strings"

def workingDirectoryFromJson : Json → Except StdException (Option StdString)
  | .string directory => .ok (some directory)
  | _ => .error (typeError (literal "working_directory must be a string"))

def inheritEnvironmentFromJson : Json → Except StdException Bool
  | .boolean value => .ok value
  | _ => .error (typeError (literal "inherit_environment must be a boolean"))

/-- `is_number_unsigned` holds of the numbers written without a sign. -/
def timeoutMsFromJson : Json → Except StdException UInt32
  | .integer (.ofNat value) => .ok (UInt32.ofNat value)
  | _ => .error (typeError (literal "timeout_ms must be a positive integer"))

def envFromJson : Json → Except StdException (StdMap StdString)
  | .object members => members.foldlM (fun env member =>
      match member with
      | (key, .string value) => .ok (env.insertIfNew key value)
      | _ => .error (typeError (literal "env values must be strings"))) ∅
  | _ => .error (typeError (literal "env must be an object"))

def fromJson (json : Json) : Except StdException CommandToolConfig := do
  checkUnknownKeys json (literal "tool config")
    [literal "name", literal "description", literal "parameters",
      literal "command", literal "working_directory", literal "env",
      literal "timeout_ms", literal "inherit_environment"]
  let name ← requireString json (literal "name")
  let description ← requireString json (literal "description")
  let parametersSchema ← parametersFromJson json
  let command ← commandFromJson json
  let workingDirectory ← json.memberOr (literal "working_directory") none
    workingDirectoryFromJson
  let env ← json.memberOr (literal "env") ∅ envFromJson
  let inheritEnvironment ← json.memberOr (literal "inherit_environment") false
    inheritEnvironmentFromJson
  let timeoutMs ← json.memberOr (literal "timeout_ms") 30000 timeoutMsFromJson
  return { name, description, parametersSchema, command, workingDirectory, env,
           inheritEnvironment, timeoutMs }

end CommandToolConfig

structure ZooLibrary (ModelConfig AgentConfig GenerationOptions : Type) where
  modelConfig : ModelConfig
  agentConfig : AgentConfig
  generationOptions : GenerationOptions
  /-- `get_to` of the member of a model configuration with this name. -/
  setModelField : StdString → Json → ModelConfig → Except StdException ModelConfig
  modelPath : ModelConfig → StdString
  contextSize : ModelConfig → Int
  agentFromJson : Json → Except StdException AgentConfig
  generationFromJson : Json → Except StdException GenerationOptions
  validateAgent : AgentConfig → Except StdString Unit
  validateGeneration : GenerationOptions → Except StdString Unit
  /-- The inspector of model files, where it is compiled in. -/
  autoConfigure : Option (StdString → Except StdString ModelConfig)
  truncate : Double → Int

structure ServerConfig (ModelConfig AgentConfig GenerationOptions : Type) where
  bindAddress : StdString := literal "127.0.0.1"
  port : UInt16 := 8080
  modelId : StdString
  apiKey : Option StdString := none
  http : HttpConfig := {}
  sessions : SessionConfig := {}
  tools : List CommandToolConfig := []
  modelConfig : ModelConfig
  agentConfig : AgentConfig
  defaultGeneration : GenerationOptions
  autoConfigureModel : Bool := false
  systemPrompt : StdString := []

section Server

variable {ModelConfig AgentConfig GenerationOptions : Type}
  (zoo : ZooLibrary ModelConfig AgentConfig GenerationOptions)

namespace ServerConfig

def portFromJson (value : Json) : Except StdException UInt16 := do
  let parsedPort := UInt32.ofInt (← value.getArithmetic zoo.truncate)
  failIf (parsedPort = 0 ∨ parsedPort > 65535)
    (outOfRange (literal "port must be in the range [1, 65535]"))
  return parsedPort.toUInt16

def apiKeyFromJson : Json → Except StdException (Option StdString)
  | .null => .ok none
  | .string key => .ok (some key)
  | _ => .error (typeError (literal "api_key must be a string"))

def toolFromElement (i : Nat) (element : Json) :
    Except StdException CommandToolConfig :=
  match CommandToolConfig.fromJson element with
  | .ok tool => .ok tool
  | .error exception => .error (otherError
      (literal "tools[" ++ stdToString i ++ literal "]: " ++ exception.what))

def toolsFromElements (i : Nat) :
    List Json → Except StdException (List CommandToolConfig)
  | [] => .ok []
  | element :: rest => do
      let tool ← toolFromElement i element
      return tool :: (← toolsFromElements (i + 1) rest)

def toolsFromJson : Json → Except StdException (List CommandToolConfig)
  | .array elements => toolsFromElements 0 elements
  | _ => .error (typeError (literal "tools must be an array"))

def requiredKey (json : Json) (key : String) : Except StdException Json :=
  match json.find? (literal key) with
  | some value => .ok value
  | none => .error (otherError
      (literal "Server config must contain required key: " ++ literal key))

def autoConfigureModelFromJson : Json → Except StdException Bool
  | .boolean value => .ok value
  | _ => .error (typeError (literal "auto_configure_model must be a boolean"))

def configureModel (json : Json) (autoConfigureModel : Bool) :
    Except StdException ModelConfig :=
  if autoConfigureModel = false then .ok zoo.modelConfig
  else match zoo.autoConfigure with
  | none => .error (otherError
      (literal "auto_configure_model requires ZKS_ENABLE_ZOO_HUB=ON"))
  | some inspect =>
      match (json.find? (literal "model_path")).bind string? with
      | none => .error (typeError (literal
          "model_path must be a string when auto_configure_model is true"))
      | some path =>
          match inspect path with
          | .ok configured => .ok configured
          | .error error => .error (otherError
              (literal "auto_configure_model failed: " ++ error))

def applyModelConfigFields (json : Json) (modelConfig : ModelConfig) :
    Except StdException ModelConfig :=
  [literal "model_path", literal "context_size", literal "n_gpu_layers",
    literal "use_mmap", literal "use_mlock"].foldlM
    (fun held key => json.memberOr key held fun value =>
      zoo.setModelField key value held) modelConfig

def selectKeys (json : Json) (keys : List StdString) : List (StdString × Json) :=
  keys.filterMap fun key => (json.find? key).map fun value => (key, value)

/-- A value read from an object that is not looked at when it is empty. -/
def unlessEmpty {Value : Type} (members : List (StdString × Json)) (held : Value)
    (read : Json → Except StdException Value) : Except StdException Value :=
  if members = [] then .ok held else read (objectOf members)

/-- The `sampling` object with a top-level `repeat_last_n` in it; assigning a key of
something that is no object throws. -/
def samplingFromJson (json : Json) :
    Except StdException (List (StdString × Json)) :=
  let key := literal "repeat_last_n"
  match json.find? (literal "sampling"), json.find? key with
  | none, none => .ok []
  | some sampling, none => .ok [(literal "sampling", sampling)]
  | none, some value =>
      .ok [(literal "sampling", objectOf [(key, value)])]
  | some (.object members), some value =>
      .ok [(literal "sampling", .object (insertMember key value members))]
  | some .null, some value =>
      .ok [(literal "sampling", objectOf [(key, value)])]
  | some other, some _ =>
      .error ⟨literal "[json.exception.type_error.305] cannot use operator[] " ++
        literal "with a string argument with " ++ other.typeName⟩

def generationMembers (json : Json) :
    Except StdException (List (StdString × Json)) := do
  let sampling ← samplingFromJson json
  return selectKeys json [literal "max_tokens"] ++ sampling ++
    selectKeys json [literal "stop_sequences", literal "record_tool_trace"]

def fromJson (json : Json) : Except StdException
    (ServerConfig ModelConfig AgentConfig GenerationOptions) := do
  checkUnknownKeys json (literal "server config")
    [literal "bind_address", literal "port", literal "model_id",
      literal "api_key", literal "http", literal "sessions", literal "tools",
      literal "zoo"]
  let bindAddress ← json.memberOr (literal "bind_address") (literal "127.0.0.1")
    getString
  let port ← json.memberOr (literal "port") 8080 (portFromJson zoo)
  let modelId ← (← requiredKey json "model_id").getString
  let apiKey ← json.memberOr (literal "api_key") none apiKeyFromJson
  let http ← json.memberOr (literal "http") {} (HttpConfig.fromJson zoo.truncate)
  let sessions ← json.memberOr (literal "sessions") {}
    (SessionConfig.fromJson zoo.truncate)
  let tools ← json.memberOr (literal "tools") [] toolsFromJson
  let section' ← requiredKey json "zoo"
  checkUnknownKeys section' (literal "zoo config")
    [literal "model_path", literal "context_size", literal "n_gpu_layers",
      literal "use_mmap", literal "use_mlock", literal "max_history_messages",
      literal "request_queue_capacity", literal "max_tokens",
      literal "repeat_last_n", literal "stop_sequences",
      literal "record_tool_trace", literal "system_prompt", literal "sampling",
      literal "max_tool_iterations", literal "max_tool_retries",
      literal "auto_configure_model"]
  let autoConfigureModel ← section'.memberOr (literal "auto_configure_model") false
    autoConfigureModelFromJson
  let inspected ← configureModel zoo section' autoConfigureModel
  let modelConfig ← applyModelConfigFields zoo section' inspected
  let agentConfig ← unlessEmpty
    (selectKeys section' [literal "max_history_messages",
      literal "request_queue_capacity", literal "max_tool_iterations",
      literal "max_tool_retries"]) zoo.agentConfig zoo.agentFromJson
  let defaultGeneration ← unlessEmpty (← generationMembers section')
    zoo.generationOptions zoo.generationFromJson
  let systemPrompt ← section'.memberOr (literal "system_prompt") [] getString
  return { bindAddress, port, modelId, apiKey, http, sessions, tools, modelConfig,
           agentConfig, defaultGeneration, autoConfigureModel, systemPrompt }

end ServerConfig

def SessionConfig.validate (config : SessionConfig) : Except StdString Unit :=
  failIf (config.idleTtlSeconds = 0)
    (literal "sessions.idle_ttl_seconds must be >= 1")

def HttpConfig.validate (config : HttpConfig) : Except StdString Unit := do
  failIf (config.clientMaxBodySizeBytes ≤ 0)
    (literal "http.client_max_body_size_bytes must be > 0")
  failIf (config.clientMaxMemoryBodySizeBytes ≤ 0)
    (literal "http.client_max_memory_body_size_bytes must be > 0")
  failIf (config.idleConnectionTimeoutSeconds < 0)
    (literal "http.idle_connection_timeout_seconds must be >= 0")
  failIf (config.corsAllowOrigins.any List.isEmpty)
    (literal "http.cors_allow_origins entries must not be empty")

namespace ServerConfig

def validateTool (tool : CommandToolConfig) : Except StdString Unit :=
  match tool.validate with
  | .ok () => .ok ()
  | .error error => .error (literal "tools entry '" ++ tool.name ++
      literal "' is invalid: " ++ error)

def validateModelConfigForConfigLoad (modelConfig : ModelConfig) :
    Except StdString Unit := do
  failIf (zoo.modelPath modelConfig = [])
    (literal "Model path cannot be empty")
  failIf (zoo.contextSize modelConfig ≤ 0)
    (literal "Context size must be positive")

def validate (config : ServerConfig ModelConfig AgentConfig GenerationOptions) :
    Except StdString Unit := do
  failIf (config.bindAddress = []) (literal "bind_address cannot be empty")
  failIf (config.port = 0) (literal "port must be in the range [1, 65535]")
  failIf (config.modelId = []) (literal "model_id cannot be empty")
  failIf (config.apiKey = some []) (literal "api_key must not be empty")
  config.http.validate
  config.sessions.validate
  forM config.tools validateTool
  validateModelConfigForConfigLoad zoo config.modelConfig
  zoo.validateAgent config.agentConfig
  zoo.validateGeneration config.defaultGeneration

end ServerConfig

/-- `input` is the text of the file, if it can be opened. -/
def loadConfig (json : JsonLibrary) (path : StdString) (input : Option StdString) :
    Except StdString (ServerConfig ModelConfig AgentConfig GenerationOptions) :=
  let withPathContext (message : StdString) := path ++ literal ": " ++ message
  match input with
  | none => .error (literal "Unable to open config file: " ++ path)
  | some text =>
      match json.parse text with
      | .error exception => .error (withPathContext exception.what)
      | .ok value =>
          match ServerConfig.fromJson zoo value with
          | .error exception => .error (withPathContext exception.what)
          | .ok config =>
              match config.validate zoo with
              | .error error => .error (withPathContext error)
              | .ok () => .ok config

end Server

end ZooKeeperServer
