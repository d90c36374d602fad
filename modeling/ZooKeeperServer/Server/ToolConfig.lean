import Mathlib.Data.List.Basic
import ZooKeeperServer.Server.ApiParse

namespace ZooKeeperServer

/-! The configuration of a command tool and the check of its values. -/

/-- `std::map` with string keys, which go from the least to the greatest. -/
abbrev StdMap (Value : Type) := Std.ExtTreeMap StdString Value

structure CommandToolConfig where
  name : StdString
  description : StdString
  parametersSchema : Json
  command : List StdString
  workingDirectory : Option StdString := none
  inheritEnvironment : Bool := false
  env : StdMap StdString := ∅
  timeoutMs : UInt32 := 30000

def failIf {Failure : Type} (condition : Prop) [Decidable condition]
    (failure : Failure) : Except Failure Unit :=
  if condition then .error failure else .ok ()

@[simp] theorem failIf_eq_ok {Failure : Type} {condition : Prop}
    [Decidable condition] {failure : Failure} {done : Unit} :
    failIf condition failure = .ok done ↔ ¬ condition := by
  unfold failIf
  split
  · simp_all
  · simp_all

namespace CommandTools

def parametersProperty (propertyName : StdString) (text : String) : StdString :=
  literal "tools.parameters property '" ++ propertyName ++ literal text

def validateEnumValueType (value : Json) (expectedType propertyName : StdString) :
    Except StdString Unit :=
  let valid : Bool := match value with
    | .string _ => expectedType = literal "string"
    | .integer _ =>
        expectedType = literal "integer" ∨ expectedType = literal "number"
    | .double _ => expectedType = literal "number"
    | .boolean _ => expectedType = literal "boolean"
    | _ => false
  failIf (valid = false)
    (literal "tools.parameters enum value for property '" ++ propertyName ++
      literal "' does not match declared type '" ++ expectedType ++ literal "'")

def validatePropertySchema (propertyName : StdString) (schema : Json) :
    Except StdString Unit := do
  rejectUnknownKeys schema (literal "tools.parameters property")
    [literal "type", literal "description", literal "enum"]
  let type ← match (schema.find? (literal "type")).bind Json.string? with
    | some type => .ok type
    | none =>
        .error (parametersProperty propertyName "' must include a string type")
  failIf
    (type ≠ literal "string" ∧ type ≠ literal "integer" ∧
      type ≠ literal "number" ∧ type ≠ literal "boolean")
    (parametersProperty propertyName "' uses unsupported type: " ++ type)
  match schema.find? (literal "description") with
  | none => .ok ()
  | some (.string _) => .ok ()
  | some _ =>
      .error (parametersProperty propertyName "' description must be a string")
  match schema.find? (literal "enum") with
  | none => .ok ()
  | some (.array values) =>
      forM values fun value => validateEnumValueType value type propertyName
  | some _ => .error (parametersProperty propertyName "' enum must be an array")

def validateRequired (properties : Json) (required : Json) :
    Except StdString Unit :=
  match required with
  | .array values =>
      forM values fun
        | .string name =>
            failIf ((properties.find? name).isNone) (literal
              "tools.parameters required references unknown property: " ++ name)
        | _ => .error (literal "tools.parameters required entries must be strings")
  | _ => .error (literal "tools.parameters required must be an array")

def validateToolParametersSchema (schema : Json) : Except StdString Unit := do
  rejectUnknownKeys schema (literal "tools.parameters")
    [literal "type", literal "properties", literal "required",
      literal "additionalProperties"]
  failIf ((schema.find? (literal "type")).bind Json.string? ≠
      some (literal "object"))
    (literal "tools.parameters must declare top-level type 'object'")
  let members ← match schema.find? (literal "properties") with
    | some (.object members) => .ok members
    | _ => .error (literal
        "tools.parameters must include an object-valued properties map")
  forM members fun
    | (key, .object fields) => validatePropertySchema key (.object fields)
    | (key, _) => .error (parametersProperty key "' must be a JSON object")
  match schema.find? (literal "required") with
  | none => .ok ()
  | some required => validateRequired (.object members) required
  match schema.find? (literal "additionalProperties") with
  | none => .ok ()
  | some (.boolean false) => .ok ()
  | some _ => .error (literal
      "tools.parameters only supports additionalProperties omitted or false")

/-- The check of one entry of `env`: its value is not looked at. -/
def validateEnvKey (key : StdString) : Except StdString Unit := do
  failIf (key = []) (literal "tools.env keys must not be empty")
  failIf ((0x3d : UInt8) ∈ key) (literal "tools.env keys must not contain '='")

end CommandTools

open CommandTools in
def CommandToolConfig.validate (tool : CommandToolConfig) :
    Except StdString Unit := do
  failIf (tool.name = []) (literal "tools.name must not be empty")
  failIf (tool.description = []) (literal "tools.description must not be empty")
  failIf (tool.command = [])
    (literal "tools.command must contain at least one argument")
  failIf (tool.command.any List.isEmpty)
    (literal "tools.command entries must not be empty")
  failIf (tool.timeoutMs = 0) (literal "tools.timeout_ms must be >= 1")
  validateToolParametersSchema tool.parametersSchema
  forM tool.env.toList fun entry => validateEnvKey entry.1

section Accepted

variable {tool : CommandToolConfig}

theorem forM_eq_ok {Item Failure : Type} {check : Item → Except Failure Unit}
    {items : List Item} {done : Unit} :
    forM items check = .ok done ↔ ∀ item ∈ items, check item = .ok () := by
  induction items with
  | nil => simp [pure, Except.pure]
  | cons item rest ih =>
      rw [List.forM_cons, List.forall_mem_cons, ← ih, bind_eq_ok]
      exact ⟨fun ⟨_, here, later⟩ => ⟨here, later⟩, fun both => ⟨(), both⟩⟩

/-- The names that an accepted tool sets can be told apart from their values. -/
theorem validate_env (accepted : tool.validate = .ok ()) {name value : StdString}
    (held : tool.env[name]? = some value) :
    name ≠ [] ∧ (0x3d : UInt8) ∉ name := by
  simp only [CommandToolConfig.validate, bind_eq_ok] at accepted
  obtain ⟨_, -, _, -, _, -, _, -, _, -, _, -, entries⟩ := accepted
  have checked := forM_eq_ok.mp entries (name, value)
    (Std.ExtTreeMap.mem_toList_iff_getElem?_eq_some.mpr held)
  simpa [CommandTools.validateEnvKey, bind_eq_ok] using checked

end Accepted

end ZooKeeperServer
