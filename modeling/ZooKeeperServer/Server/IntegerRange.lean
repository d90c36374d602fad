import ZooKeeperServer.Server.Config
import ZooKeeperServer.Server.RoundTrip

namespace ZooKeeperServer

/-! An integer literal is cast to the type of the field it is given for, and stored
modulo `2 ^ 32`.  It is kept exactly where it lies in the range of that type. -/

def Json.Gives (json : Json) (key : StdString) (n : Int) : Prop :=
  json.find? key = some (.integer n)

inductive OverrideField
  | topK
  | repeatLastN
  | maxTokens
  | seed

namespace OverrideField

def key : OverrideField → StdString
  | topK => literal "top_k"
  | repeatLastN => literal "repeat_last_n"
  | maxTokens => literal "max_tokens"
  | seed => literal "seed"

def stored (overrides : GenerationOverrides) : OverrideField → Option Int
  | topK => overrides.topK
  | repeatLastN => overrides.repeatLastN
  | maxTokens => overrides.maxTokens
  | seed => overrides.seed

end OverrideField

section Overrides

variable {value : Json} {overrides : GenerationOverrides} {n : Int}

def KeepsOverrides (value : Json) (overrides : GenerationOverrides) : Prop :=
  ∀ (field : OverrideField) n, value.Gives field.key n →
    field.stored overrides = some n

/-- Every literal is in the range of `int`. -/
def OverridesFit (value : Json) : Prop :=
  ∀ (field : OverrideField) n, value.Gives field.key n →
    -2 ^ 31 ≤ n ∧ n < 2 ^ 31

theorem optionalAt_integer {kind key : StdString} {stored : Option Int}
    (accepted : optionalAt Json.integer? kind value key = .ok stored)
    (given : value.Gives key n) : stored = some (n.bmod (2 ^ 32)) := by
  rw [Json.Gives] at given
  simp only [optionalAt, given, Json.integer?, Except.ok.injEq] at accepted
  exact accepted.symm

theorem parseGenerationOverrides_literal {field : OverrideField}
    (accepted : parseGenerationOverrides value = .ok overrides)
    (given : value.Gives field.key n) :
    field.stored overrides = some (n.bmod (2 ^ 32)) := by
  simp only [parseGenerationOverrides, bind_eq_ok, Except.ok.injEq] at accepted
  obtain ⟨_, _, _, _, topK, topKRead, _, _, repeatLastN, repeatLastNRead,
    maxTokens, maxTokensRead, seed, seedRead, _, _, _, _, rfl⟩ := accepted
  cases field with
  | topK => exact optionalAt_integer topKRead given
  | repeatLastN => exact optionalAt_integer repeatLastNRead given
  | maxTokens => exact optionalAt_integer maxTokensRead given
  | seed => exact optionalAt_integer seedRead given

theorem bmod_eq_self_iff : n.bmod (2 ^ 32) = n ↔ -2 ^ 31 ≤ n ∧ n < 2 ^ 31 := by
  constructor
  · intro same
    have low := Int.le_bmod (x := n) (m := 2 ^ 32) (by decide)
    have high := Int.bmod_lt (x := n) (m := 2 ^ 32) (by decide)
    omega
  · rintro ⟨low, high⟩
    exact Int.bmod_eq_of_le_mul_two (by omega) (by omega)

theorem keepsOverrides_iff
    (accepted : parseGenerationOverrides value = .ok overrides) :
    KeepsOverrides value overrides ↔ OverridesFit value := by
  refine forall₃_congr fun field n given => ?_
  rw [parseGenerationOverrides_literal accepted given, Option.some.injEq,
    bmod_eq_self_iff]

end Overrides

/-- The members of the configuration that are cast from a literal to 32 bits. -/
inductive ConfigField
  | port
  | idleTtlSeconds
  | timeoutMs (tool : Nat)

namespace ConfigField

variable {ModelConfig AgentConfig GenerationOptions : Type}

def parent (value : Json) : ConfigField → Option Json
  | port => some value
  | idleTtlSeconds => value.find? (literal "sessions")
  | timeoutMs tool =>
      ((value.find? (literal "tools")).bind Json.array?).bind (·[tool]?)

def key : ConfigField → StdString
  | port => literal "port"
  | idleTtlSeconds => literal "idle_ttl_seconds"
  | timeoutMs _ => literal "timeout_ms"

def Gives (value : Json) (field : ConfigField) (n : Int) : Prop :=
  ∃ parent, field.parent value = some parent ∧ parent.Gives field.key n

def stored (config : ServerConfig ModelConfig AgentConfig GenerationOptions) :
    ConfigField → Option Int
  | port => some config.port.toNat
  | idleTtlSeconds => some config.sessions.idleTtlSeconds.toNat
  | timeoutMs tool => config.tools[tool]?.map fun tool => tool.timeoutMs.toNat

end ConfigField

section Config

variable {ModelConfig AgentConfig GenerationOptions : Type}
  {zoo : ZooLibrary ModelConfig AgentConfig GenerationOptions} {value : Json}
  {config : ServerConfig ModelConfig AgentConfig GenerationOptions} {n : Int}

def KeepsConfig (value : Json)
    (config : ServerConfig ModelConfig AgentConfig GenerationOptions) : Prop :=
  ∀ field n, ConfigField.Gives value field n → field.stored config = some n

/-- Every literal is in the range of `unsigned int` and `std::uint32_t`. -/
def ConfigFits (value : Json) : Prop :=
  ∀ field n, ConfigField.Gives value field n → 0 ≤ n ∧ n < 2 ^ 32

theorem toNat_ofInt : ((UInt32.ofInt n).toNat : Int) = n % 2 ^ 32 := by
  rw [UInt32.ofInt, UInt32.toNat_ofNat_of_lt']
  · omega
  · simp only [UInt32.size]
    omega

theorem memberOr_of_gives {Value : Type} {key : StdString} {held result : Value}
    {read : Json → Except StdException Value}
    (accepted : value.memberOr key held read = .ok result)
    (given : value.Gives key n) : read (.integer n) = .ok result := by
  rw [Json.Gives] at given
  rwa [Json.memberOr, given] at accepted

theorem portFromJson_integer {port : UInt16}
    (accepted : ServerConfig.portFromJson zoo (.integer n) = .ok port) :
    (port.toNat : Int) = n % 2 ^ 32 := by
  simp only [ServerConfig.portFromJson, Json.getArithmetic, Json.getNumber,
    bind_eq_ok, failIf_eq_ok, Except.ok.injEq, pure, Except.pure] at accepted
  obtain ⟨_, rfl, -, inRange, rfl⟩ := accepted
  have small : (UInt32.ofInt n).toNat ≤ 65535 := by
    simpa [UInt32.le_iff_toNat_le] using (not_or.mp inRange).2
  rw [UInt32.toNat_toUInt16, ← toNat_ofInt]
  omega

theorem sessionsFromJson_integer {sessions : SessionConfig}
    (accepted : SessionConfig.fromJson zoo.truncate value = .ok sessions)
    (given : value.Gives (literal "idle_ttl_seconds") n) :
    (sessions.idleTtlSeconds.toNat : Int) = n % 2 ^ 32 := by
  simp only [SessionConfig.fromJson, bind_eq_ok, pure, Except.pure,
    Except.ok.injEq] at accepted
  obtain ⟨-, -, maxSessions, -, idleTtlSeconds, read, rfl⟩ := accepted
  have stored := memberOr_of_gives read given
  simp only [Json.getArithmetic, Json.getNumber, bind, Except.bind,
    Except.ok.injEq] at stored
  rw [← stored, toNat_ofInt]

theorem timeoutMsFromJson_integer {timeoutMs : UInt32}
    (accepted : CommandToolConfig.timeoutMsFromJson (.integer n) = .ok timeoutMs) :
    (timeoutMs.toNat : Int) = n % 2 ^ 32 := by
  cases n with
  | ofNat n =>
      simp only [CommandToolConfig.timeoutMsFromJson, Except.ok.injEq] at accepted
      subst accepted
      simp
  | negSucc n => simp [CommandToolConfig.timeoutMsFromJson] at accepted

theorem toolFromJson_integer {tool : CommandToolConfig}
    (accepted : CommandToolConfig.fromJson value = .ok tool)
    (given : value.Gives (literal "timeout_ms") n) :
    (tool.timeoutMs.toNat : Int) = n % 2 ^ 32 := by
  simp only [CommandToolConfig.fromJson, bind_eq_ok, pure, Except.pure,
    Except.ok.injEq] at accepted
  obtain ⟨-, -, name, -, description, -, parametersSchema, -, command, -,
    workingDirectory, -, env, -, inheritEnvironment, -, timeoutMs, read, rfl⟩ :=
    accepted
  exact timeoutMsFromJson_integer (memberOr_of_gives read given)

theorem toolsFromElements_getElem? {elements : List Json}
    {tools : List CommandToolConfig} {first i : Nat} {element : Json}
    (accepted : ServerConfig.toolsFromElements first elements = .ok tools)
    (here : elements[i]? = some element) :
    ∃ tool, tools[i]? = some tool ∧
      CommandToolConfig.fromJson element = .ok tool := by
  induction elements generalizing first tools i with
  | nil => simp at here
  | cons head rest ih =>
      simp only [ServerConfig.toolsFromElements, bind_eq_ok, pure, Except.pure,
        Except.ok.injEq] at accepted
      obtain ⟨tool, read, others, later, rfl⟩ := accepted
      cases i with
      | zero =>
          obtain rfl : head = element := by simpa using here
          refine ⟨tool, rfl, ?_⟩
          simp only [ServerConfig.toolFromElement] at read
          split at read
          · rename_i held found
            exact found.trans read
          · simp at read
      | succ i =>
          rw [List.getElem?_cons_succ] at here ⊢
          exact ih later here

theorem fromJson_reads (accepted : ServerConfig.fromJson zoo value = .ok config) :
    value.memberOr (literal "port") 8080 (ServerConfig.portFromJson zoo) =
        .ok config.port ∧
      value.memberOr (literal "sessions") {}
        (SessionConfig.fromJson zoo.truncate) = .ok config.sessions ∧
      value.memberOr (literal "tools") [] ServerConfig.toolsFromJson =
        .ok config.tools := by
  simp only [ServerConfig.fromJson, bind_eq_ok, pure, Except.pure,
    Except.ok.injEq] at accepted
  obtain ⟨-, -, bindAddress, -, port, portRead, _, -, modelId, -, apiKey, -, http,
    -, sessions, sessionsRead, tools, toolsRead, _, -, -, -, _, -, _, -, _, -, _, -,
    _, -, _, -, systemPrompt, -, rfl⟩ := accepted
  exact ⟨portRead, sessionsRead, toolsRead⟩

theorem fromJson_literal {field : ConfigField}
    (accepted : ServerConfig.fromJson zoo value = .ok config)
    (given : field.Gives value n) :
    field.stored config = some (n % 2 ^ 32) := by
  obtain ⟨portRead, sessionsRead, toolsRead⟩ := fromJson_reads accepted
  obtain ⟨parent, found, given⟩ := given
  cases field with
  | port =>
      obtain rfl : value = parent := Option.some.inj found
      exact congrArg some (portFromJson_integer (memberOr_of_gives portRead given))
  | idleTtlSeconds =>
      simp only [ConfigField.parent] at found
      rw [Json.memberOr, found] at sessionsRead
      exact congrArg some (sessionsFromJson_integer sessionsRead given)
  | timeoutMs i =>
      simp only [ConfigField.parent, Option.bind_eq_some_iff] at found
      obtain ⟨elements, ⟨listed, found, isArray⟩, here⟩ := found
      obtain rfl := array?_eq_some.mp isArray
      rw [Json.memberOr, found] at toolsRead
      obtain ⟨tool, stored, read⟩ := toolsFromElements_getElem? toolsRead here
      simp only [ConfigField.stored, stored, Option.map_some]
      exact congrArg some (toolFromJson_integer read given)

theorem keepsConfig_iff
    (accepted : ServerConfig.fromJson zoo value = .ok config) :
    KeepsConfig value config ↔ ConfigFits value := by
  refine forall₃_congr fun field n given => ?_
  rw [fromJson_literal accepted given, Option.some.injEq]
  omega

theorem loadConfig_eq_ok {json : JsonLibrary} {path : StdString}
    {input : Option StdString}
    (accepted : loadConfig zoo json path input = .ok config) :
    ∃ text value, input = some text ∧ json.parse text = .ok value ∧
      ServerConfig.fromJson zoo value = .ok config := by
  unfold loadConfig at accepted
  dsimp only at accepted
  split at accepted
  · simp at accepted
  · rename_i text
    split at accepted
    · simp at accepted
    · rename_i value parsed
      split at accepted
      · simp at accepted
      · rename_i held read
        split at accepted
        · simp at accepted
        · obtain rfl := Except.ok.inj accepted
          exact ⟨text, value, rfl, parsed, read⟩

end Config

/-- What is accepted keeps the value of every integer literal exactly when each is
in the range of the type it is cast to. -/
theorem integers_kept_iff {ModelConfig AgentConfig GenerationOptions : Type}
    (zoo : ZooLibrary ModelConfig AgentConfig GenerationOptions) (rule : RoleRule)
    (json : JsonLibrary) (body path : StdString) :
    (∀ request, parseChatCompletionRequest rule json body = .ok request →
        ∃ value, json.parse body = .ok value ∧
          (KeepsOverrides value request.toGenerationOverrides ↔
            OverridesFit value)) ∧
      (∀ request, parseExtractionRequest rule json body = .ok request →
        ∃ value, json.parse body = .ok value ∧
          (KeepsOverrides value request.toGenerationOverrides ↔
            OverridesFit value)) ∧
      (∀ request, parseAgentChatRequest rule json body = .ok request →
        ∃ value, json.parse body = .ok value ∧
          (KeepsOverrides value request.toGenerationOverrides ↔
            OverridesFit value)) ∧
      ∀ config, loadConfig zoo json path (some body) = .ok config →
        ∃ value, json.parse body = .ok value ∧
          (KeepsConfig value config ↔ ConfigFits value) := by
  refine ⟨?chat, ?extraction, ?agentChat, ?config⟩
  case chat =>
    intro request accepted
    simp only [parseChatCompletionRequest, parseBody_eq_ok, bind_eq_ok,
      Except.ok.injEq] at accepted
    obtain ⟨value, parsed, -, -, model, -, items, -, -, -, stream, -, sessionId, -,
      overrides, read, -, -, messages, -, rfl⟩ := accepted
    exact ⟨value, parsed, keepsOverrides_iff read⟩
  case extraction =>
    intro request accepted
    simp only [parseExtractionRequest, parseBody_eq_ok, bind_eq_ok,
      Except.ok.injEq] at accepted
    obtain ⟨value, parsed, -, -, model, -, schema, -, items, -, -, -, stream, -,
      sessionId, -, overrides, read, -, -, messages, -, rfl⟩ := accepted
    exact ⟨value, parsed, keepsOverrides_iff read⟩
  case agentChat =>
    intro request accepted
    simp only [parseAgentChatRequest, parseBody_eq_ok, bind_eq_ok,
      Except.ok.injEq] at accepted
    obtain ⟨value, parsed, -, -, model, -, -, -, message, -, overrides, read,
      rfl⟩ := accepted
    exact ⟨value, parsed, keepsOverrides_iff read⟩
  case config =>
    intro config accepted
    obtain ⟨_, value, ⟨⟩, parsed, read⟩ := loadConfig_eq_ok accepted
    exact ⟨value, parsed, keepsConfig_iff read⟩

/-! A request that gives a seed, and a configuration that gives a port. -/

open Json

def seededBody (seed : Int) : Json :=
  objectOf
    [(literal "model", .string (literal "m")),
      (literal "message", makeMessageBody (.user (literal "hi"))),
      (literal "seed", .integer seed)]

def portedConfig (port : Int) : Json :=
  objectOf
    [(literal "model_id", .string (literal "m")), (literal "port", .integer port),
      (literal "zoo",
        objectOf [(literal "model_path", .string (literal "m.gguf"))])]

/-- A model configuration of which only the path is read. -/
def sampleZoo : ZooLibrary StdString Unit Unit where
  modelConfig := []
  agentConfig := ()
  generationOptions := ()
  setModelField key value held :=
    if key = literal "model_path" then value.getString else .ok held
  modelPath modelConfig := modelConfig
  contextSize _ := 8192
  agentFromJson _ := .ok ()
  generationFromJson _ := .ok ()
  validateAgent _ := .ok ()
  validateGeneration _ := .ok ()
  autoConfigure := none
  truncate _ := 0

/-- A seed and a port that are `2 ^ 32` more than what is stored. -/
theorem integers_reduced :
    (∃ request,
      parseAgentChatRequest plainRule (readingJson [seededBody 4294967297])
          (textOf (seededBody 4294967297)) = .ok request ∧
        request.seed = some 1 ∧
        ¬ KeepsOverrides (seededBody 4294967297) request.toGenerationOverrides) ∧
      ∃ config,
        loadConfig sampleZoo (readingJson [portedConfig 4294975376])
            (literal "server.json") (some (textOf (portedConfig 4294975376))) =
            .ok config ∧
          config.port = 8080 ∧
          ¬ KeepsConfig (portedConfig 4294975376) config := by
  refine ⟨⟨_, rfl, rfl, ?_⟩, ⟨_, rfl, rfl, ?_⟩⟩
  · intro keeps
    exact absurd (keeps .seed 4294967297 rfl) (by decide)
  · intro keeps
    exact absurd (keeps .port 4294975376 ⟨_, rfl, rfl⟩) (by decide)

theorem integers_kept_sample :
    ∃ request,
      parseAgentChatRequest plainRule (readingJson [seededBody (-7)])
          (textOf (seededBody (-7))) = .ok request ∧
        KeepsOverrides (seededBody (-7)) request.toGenerationOverrides := by
  have accepted : ∃ request,
      parseAgentChatRequest plainRule (readingJson [seededBody (-7)])
        (textOf (seededBody (-7))) = .ok request := ⟨_, rfl⟩
  obtain ⟨request, accepted⟩ := accepted
  obtain ⟨value, parsed, kept⟩ := (integers_kept_iff sampleZoo plainRule
    (readingJson [seededBody (-7)]) (textOf (seededBody (-7))) []).2.2.1 request
    accepted
  obtain rfl : value = seededBody (-7) :=
    Except.ok.inj (parsed.symm.trans rfl)
  refine ⟨request, accepted, kept.mpr ?_⟩
  intro field n given
  cases field with
  | topK => cases given
  | repeatLastN => cases given
  | maxTokens => cases given
  | seed =>
      obtain rfl : -7 = n := Json.integer.inj (Option.some.inj given)
      decide

end ZooKeeperServer
