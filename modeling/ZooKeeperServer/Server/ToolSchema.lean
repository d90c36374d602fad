import ZooKeeperServer.Server.KeyOrder
import ZooKeeperServer.Server.ToolConfig

namespace ZooKeeperServer.CommandTools

open Json

/-! The flat-object schemas that a command tool may declare for its parameters, and
that the three validators accept these and nothing else. -/

inductive HasDeclaredType : StdString → Json → Prop
  | string (text : StdString) :
      HasDeclaredType (literal "string") (.string text)
  | integer (value : Int) :
      HasDeclaredType (literal "integer") (.integer value)
  | integral (value : Int) :
      HasDeclaredType (literal "number") (.integer value)
  | number (value : Double) :
      HasDeclaredType (literal "number") (.double value)
  | boolean (value : Bool) :
      HasDeclaredType (literal "boolean") (.boolean value)

def IsDeclarable (type : StdString) : Prop :=
  type = literal "string" ∨ type = literal "integer" ∨
    type = literal "number" ∨ type = literal "boolean"

/-- Only values of this type are listed, if any are. -/
def Enumerates (schema : Json) (type : StdString) : Prop :=
  ∀ enum, schema.find? (literal "enum") = some enum →
    ∃ values, enum = .array values ∧ ∀ value ∈ values, HasDeclaredType type value

structure FlatProperty (schema : Json) : Prop where
  keys : HasKeys schema
    [literal "type", literal "description", literal "enum"]
  type : ∃ type, schema.find? (literal "type") = some (.string type) ∧
    IsDeclarable type ∧ Enumerates schema type
  description : ∀ description,
    schema.find? (literal "description") = some description →
      ∃ text, description = .string text

def NamesProperties (members : List (StdString × Json)) (required : Json) :
    Prop :=
  ∃ values, required = .array values ∧ ∀ value ∈ values,
    ∃ name property, value = .string name ∧ (name, property) ∈ members

structure FlatSchema (schema : Json) : Prop where
  keys : HasKeys schema
    [literal "type", literal "properties", literal "required",
      literal "additionalProperties"]
  type : schema.find? (literal "type") = some (.string (literal "object"))
  properties : ∃ members,
    schema.find? (literal "properties") = some (.object members) ∧
      (∀ name property, (name, property) ∈ members → FlatProperty property) ∧
      ∀ required, schema.find? (literal "required") = some required →
        NamesProperties members required
  additionalProperties : ∀ additional,
    schema.find? (literal "additionalProperties") = some additional →
      additional = .boolean false

section Validators

variable {schema value : Json} {type propertyName : StdString}

@[simp] theorem rejectUnknownKeys_eq_ok {context : StdString}
    {allowedKeys : List StdString} {done : Unit} :
    rejectUnknownKeys schema context allowedKeys = .ok done ↔
      HasKeys schema allowedKeys := by
  have same : rejectApiUnknownKeys schema context allowedKeys = .ok done ↔
      rejectUnknownKeys schema context allowedKeys = .ok done := by
    unfold rejectApiUnknownKeys
    split
    · rename_i rejected
      simp [rejected]
    · rename_i accepted
      simp [accepted]
  rw [← same, rejectApiUnknownKeys_eq_ok, HasKeys]

theorem validateEnumValueType_eq_ok :
    validateEnumValueType value type propertyName = .ok () ↔
      HasDeclaredType type value := by
  simp only [validateEnumValueType, failIf_eq_ok, Bool.not_eq_false]
  cases value with
  | string text =>
      constructor
      · intro declared
        obtain rfl := of_decide_eq_true declared
        exact .string text
      · rintro ⟨⟩
        exact decide_eq_true rfl
  | integer value =>
      constructor
      · intro declared
        rcases of_decide_eq_true declared with rfl | rfl
        · exact .integer value
        · exact .integral value
      · rintro (_ | _)
        · exact decide_eq_true (.inl rfl)
        · exact decide_eq_true (.inr rfl)
  | double value =>
      constructor
      · intro declared
        obtain rfl := of_decide_eq_true declared
        exact .number value
      · rintro ⟨⟩
        exact decide_eq_true rfl
  | boolean value =>
      constructor
      · intro declared
        obtain rfl := of_decide_eq_true declared
        exact .boolean value
      · rintro ⟨⟩
        exact decide_eq_true rfl
  | _ =>
      constructor
      · intro declared
        cases declared
      · intro declared
        cases declared

end Validators

section Property

variable {schema : Json} {type propertyName : StdString}

def declaredType (propertyName : StdString) (schema : Json) :
    Except StdString StdString :=
  match (schema.find? (literal "type")).bind Json.string? with
  | some type => .ok type
  | none =>
      .error (parametersProperty propertyName "' must include a string type")

def checkDescription (propertyName : StdString) (schema : Json) :
    Except StdString Unit :=
  match schema.find? (literal "description") with
  | none => .ok ()
  | some (.string _) => .ok ()
  | some _ =>
      .error (parametersProperty propertyName "' description must be a string")

def checkEnum (propertyName type : StdString) (schema : Json) :
    Except StdString Unit :=
  match schema.find? (literal "enum") with
  | none => .ok ()
  | some (.array values) =>
      forM values fun value => validateEnumValueType value type propertyName
  | some _ => .error (parametersProperty propertyName "' enum must be an array")

theorem validatePropertySchema_eq :
    validatePropertySchema propertyName schema = (do
      rejectUnknownKeys schema (literal "tools.parameters property")
        [literal "type", literal "description", literal "enum"]
      let type ← declaredType propertyName schema
      failIf
        (type ≠ literal "string" ∧ type ≠ literal "integer" ∧
          type ≠ literal "number" ∧ type ≠ literal "boolean")
        (parametersProperty propertyName "' uses unsupported type: " ++ type)
      checkDescription propertyName schema
      checkEnum propertyName type schema) := by
  simp only [validatePropertySchema, declaredType, checkDescription]
  congr 1
  funext _
  cases (schema.find? (literal "type")).bind Json.string? with
  | none => rfl
  | some type =>
      cases schema.find? (literal "description") with
      | none => rfl
      | some description =>
          cases description with
          | string text => rfl
          | _ => rfl

theorem declaredType_eq_ok :
    declaredType propertyName schema = .ok type ↔
      schema.find? (literal "type") = some (.string type) := by
  unfold declaredType
  cases schema.find? (literal "type") with
  | none => simp
  | some value =>
      cases value with
      | string text => simp [Json.string?]
      | _ => simp [Json.string?]

theorem checkDescription_eq_ok {done : Unit} :
    checkDescription propertyName schema = .ok done ↔
      ∀ description, schema.find? (literal "description") = some description →
        ∃ text, description = .string text := by
  unfold checkDescription
  cases schema.find? (literal "description") with
  | none => simp
  | some value =>
      cases value with
      | string text => simp
      | _ => simp

theorem checkEnum_eq_ok {done : Unit} :
    checkEnum propertyName type schema = .ok done ↔
      Enumerates schema type := by
  unfold checkEnum Enumerates
  cases schema.find? (literal "enum") with
  | none => simp
  | some value =>
      cases value with
      | array values =>
          rw [forM_eq_ok]
          simp [validateEnumValueType_eq_ok]
      | _ => simp

theorem validatePropertySchema_eq_ok :
    validatePropertySchema propertyName schema = .ok () ↔
      FlatProperty schema := by
  rw [validatePropertySchema_eq]
  simp only [bind_eq_ok, rejectUnknownKeys_eq_ok, failIf_eq_ok,
    declaredType_eq_ok, checkDescription_eq_ok, checkEnum_eq_ok]
  have supported (type : StdString) :
      ¬ (type ≠ literal "string" ∧ type ≠ literal "integer" ∧
        type ≠ literal "number" ∧ type ≠ literal "boolean") ↔
        IsDeclarable type := by
    simp only [IsDeclarable, not_and_or, not_not]
  simp only [supported]
  constructor
  · rintro ⟨_, keys, type, declared, _, declarable, _, described, enumerates⟩
    exact ⟨keys, ⟨type, declared, declarable, enumerates⟩, described⟩
  · rintro ⟨keys, ⟨type, declared, declarable, enumerates⟩, described⟩
    exact ⟨(), keys, type, declared, (), declarable, (), described, enumerates⟩

end Property

section Schema

variable {schema required : Json} {members : List (StdString × Json)}

def propertyMembers (schema : Json) :
    Except StdString (List (StdString × Json)) :=
  match schema.find? (literal "properties") with
  | some (.object members) => .ok members
  | _ => .error (literal
      "tools.parameters must include an object-valued properties map")

def checkProperty : StdString × Json → Except StdString Unit
  | (key, .object fields) => validatePropertySchema key (.object fields)
  | (key, _) => .error (parametersProperty key "' must be a JSON object")

def checkRequiredName (members : List (StdString × Json)) :
    Json → Except StdString Unit
  | .string name =>
      failIf (((Json.object members).find? name).isNone) (literal
        "tools.parameters required references unknown property: " ++ name)
  | _ => .error (literal "tools.parameters required entries must be strings")

def checkRequired (members : List (StdString × Json)) (schema : Json) :
    Except StdString Unit :=
  match schema.find? (literal "required") with
  | none => .ok ()
  | some required => validateRequired (.object members) required

def checkAdditionalProperties (schema : Json) : Except StdString Unit :=
  match schema.find? (literal "additionalProperties") with
  | none => .ok ()
  | some (.boolean false) => .ok ()
  | some _ => .error (literal
      "tools.parameters only supports additionalProperties omitted or false")

theorem validateToolParametersSchema_eq :
    validateToolParametersSchema schema = (do
      rejectUnknownKeys schema (literal "tools.parameters")
        [literal "type", literal "properties", literal "required",
          literal "additionalProperties"]
      failIf ((schema.find? (literal "type")).bind Json.string? ≠
          some (literal "object"))
        (literal "tools.parameters must declare top-level type 'object'")
      let members ← propertyMembers schema
      forM members checkProperty
      checkRequired members schema
      checkAdditionalProperties schema) := by
  simp only [validateToolParametersSchema, propertyMembers, checkRequired]
  congr 1
  funext _
  congr 1
  funext _
  cases schema.find? (literal "properties") with
  | none => rfl
  | some properties =>
      cases properties with
      | object members =>
          cases schema.find? (literal "required") with
          | none => rfl
          | some required => rfl
      | _ => rfl

theorem propertyMembers_eq_ok :
    propertyMembers schema = .ok members ↔
      schema.find? (literal "properties") = some (.object members) := by
  unfold propertyMembers
  cases schema.find? (literal "properties") with
  | none => simp
  | some properties =>
      cases properties with
      | object members => simp
      | _ => simp

theorem checkProperty_eq_ok {property : StdString × Json} :
    checkProperty property = .ok () ↔ FlatProperty property.2 := by
  obtain ⟨key, value⟩ := property
  cases value with
  | object fields => exact validatePropertySchema_eq_ok
  | _ =>
      constructor
      · intro accepted
        cases accepted
      · intro flat
        obtain ⟨members, shape, allowed⟩ := flat.keys
        cases shape

theorem checkRequiredName_eq_ok {value : Json} :
    checkRequiredName members value = .ok () ↔
      ∃ name property, value = .string name ∧ (name, property) ∈ members := by
  cases value with
  | string name =>
      have known : ((Json.object members).find? name).isNone = false ↔
          ∃ property, (name, property) ∈ members := by
        rw [Option.isNone_eq_false_iff, Json.find?, List.lookup_isSome_iff]
        constructor
        · rintro ⟨⟨held, property⟩, listed, same⟩
          obtain rfl := eq_of_beq same
          exact ⟨property, listed⟩
        · rintro ⟨property, listed⟩
          exact ⟨(name, property), listed, beq_self_eq_true name⟩
      rw [checkRequiredName, failIf_eq_ok, Bool.not_eq_true, known]
      simp
  | _ => simp [checkRequiredName]

theorem validateRequired_eq_ok {done : Unit} :
    validateRequired (.object members) required = .ok done ↔
      NamesProperties members required := by
  cases required with
  | array values =>
      have entries : validateRequired (.object members) (.array values) =
          forM values (checkRequiredName members) := rfl
      rw [entries, forM_eq_ok]
      simp only [checkRequiredName_eq_ok, NamesProperties, Json.array.injEq,
        exists_eq_left']
  | _ => simp [validateRequired, NamesProperties]

theorem checkRequired_eq_ok {done : Unit} :
    checkRequired members schema = .ok done ↔
      ∀ required, schema.find? (literal "required") = some required →
        NamesProperties members required := by
  unfold checkRequired
  cases schema.find? (literal "required") with
  | none => simp
  | some required => simp [validateRequired_eq_ok]

theorem checkAdditionalProperties_eq_ok {done : Unit} :
    checkAdditionalProperties schema = .ok done ↔
      ∀ additional,
        schema.find? (literal "additionalProperties") = some additional →
          additional = .boolean false := by
  unfold checkAdditionalProperties
  cases schema.find? (literal "additionalProperties") with
  | none => simp
  | some additional =>
      cases additional with
      | boolean value =>
          cases value with
          | false => simp
          | true => simp
      | _ => simp

theorem validateToolParametersSchema_eq_ok :
    validateToolParametersSchema schema = .ok () ↔ FlatSchema schema := by
  have typed : (schema.find? (literal "type")).bind Json.string? =
      some (literal "object") ↔
        schema.find? (literal "type") = some (.string (literal "object")) := by
    cases schema.find? (literal "type") with
    | none => simp
    | some value =>
        cases value with
        | string text => simp [Json.string?]
        | _ => simp [Json.string?]
  rw [validateToolParametersSchema_eq]
  simp only [bind_eq_ok, rejectUnknownKeys_eq_ok, failIf_eq_ok, not_not, typed,
    propertyMembers_eq_ok, forM_eq_ok, checkProperty_eq_ok,
    checkRequired_eq_ok, checkAdditionalProperties_eq_ok]
  constructor
  · rintro ⟨_, keys, _, type, members, found, _, flat, _, required, additional⟩
    have properties : ∀ name property, (name, property) ∈ members →
        FlatProperty property := fun name property listed =>
      flat (name, property) listed
    exact ⟨keys, type, ⟨members, found, properties, required⟩, additional⟩
  · rintro ⟨keys, type, ⟨members, found, flat, required⟩, additional⟩
    have properties : ∀ member ∈ members, FlatProperty member.2 :=
      fun member listed => flat member.1 member.2 listed
    exact ⟨(), keys, (), type, members, found, (), properties, (), required,
      additional⟩

end Schema

section Order

variable {schema other value : Json} {type : StdString}

theorem HasDeclaredType.reordered (declared : HasDeclaredType type value)
    (reordered : Reordered value other) : HasDeclaredType type other := by
  have flat : Reordered.Scalar value := by
    cases declared with
    | _ => trivial
  rw [reordered.scalar flat]
  exact declared

theorem FlatProperty.reordered (flat : FlatProperty schema)
    (reordered : Reordered schema other) : FlatProperty other where
  keys := reordered.hasKeys flat.keys
  type := by
    obtain ⟨type, declared, declarable, enumerates⟩ := flat.type
    obtain ⟨held, found, inner⟩ := reordered.present declared
    obtain rfl := inner.scalar trivial
    refine ⟨type, found, declarable, fun enum listed => ?_⟩
    obtain ⟨origin, before, inner⟩ := reordered.symm.present listed
    obtain ⟨values, rfl, all⟩ := enumerates origin before
    obtain ⟨others, rfl, origins⟩ := inner.symm.array rfl
    refine ⟨others, rfl, fun value among => ?_⟩
    obtain ⟨first, earlier, same⟩ := origins value among
    exact (all first earlier).reordered same
  description := by
    intro description held
    obtain ⟨origin, before, inner⟩ := reordered.symm.present held
    obtain ⟨text, rfl⟩ := flat.description origin before
    exact ⟨text, inner.symm.scalar trivial⟩

theorem NamesProperties.reordered {members others : List (StdString × Json)}
    {required : Json} (names : NamesProperties members required)
    (properties : Reordered (.object members) (.object others))
    (reordered : Reordered required other) : NamesProperties others other := by
  obtain ⟨values, rfl, all⟩ := names
  obtain ⟨elements, rfl, origins⟩ := reordered.array rfl
  refine ⟨elements, rfl, fun value among => ?_⟩
  obtain ⟨origin, earlier, same⟩ := origins value among
  obtain ⟨name, property, rfl, known⟩ := all origin earlier
  obtain ⟨before, shape, kept⟩ := properties.symm.object rfl
  cases shape
  obtain ⟨image, held, inner⟩ := kept name property known
  exact ⟨name, image, same.scalar trivial, held⟩

theorem FlatSchema.reordered (flat : FlatSchema schema)
    (reordered : Reordered schema other) : FlatSchema other where
  keys := reordered.hasKeys flat.keys
  type := by
    obtain ⟨held, found, inner⟩ := reordered.present flat.type
    rwa [inner.scalar trivial] at found
  properties := by
    obtain ⟨members, declared, all, required⟩ := flat.properties
    obtain ⟨held, found, inner⟩ := reordered.present declared
    obtain ⟨others, rfl, origins⟩ := inner.object rfl
    refine ⟨others, found, fun name property listed => ?_,
      fun names listed => ?_⟩
    · obtain ⟨origin, before, same⟩ := origins name property listed
      exact (all name origin before).reordered same
    · obtain ⟨origin, before, same⟩ := reordered.symm.present listed
      exact (required origin before).reordered inner same.symm
  additionalProperties := by
    intro additional held
    obtain ⟨origin, before, inner⟩ := reordered.symm.present held
    obtain rfl := flat.additionalProperties origin before
    exact inner.symm.scalar trivial

end Order

/-- The validator accepts the flat-object subset, in whatever order the keys come. -/
theorem schema_accepted_iff (schema : Json) :
    (validateToolParametersSchema schema = .ok () ↔ FlatSchema schema) ∧
      ∀ other, Reordered schema other →
        (validateToolParametersSchema other = .ok () ↔
          validateToolParametersSchema schema = .ok ()) := by
  refine ⟨validateToolParametersSchema_eq_ok, fun other reordered => ?_⟩
  rw [validateToolParametersSchema_eq_ok, validateToolParametersSchema_eq_ok]
  constructor
  · exact fun flat => flat.reordered reordered.symm
  · exact fun flat => flat.reordered reordered

def sampleSchema : List (StdString × Json) :=
  [(literal "properties", .object
      [(literal "unit", .object
        [(literal "enum", .array [.string (literal "C")]),
          (literal "type", .string (literal "string"))])]),
    (literal "required", .array [.string (literal "unit")]),
    (literal "type", .string (literal "object"))]

/-- A schema with its keys the other way round. -/
theorem schema_accepted_sample :
    validateToolParametersSchema (.object sampleSchema.reverse) = .ok () :=
  ((schema_accepted_iff (.object sampleSchema)).2 _
    (.members (by decide +kernel) sampleSchema.reverse_perm.symm)).mpr rfl

end ZooKeeperServer.CommandTools
