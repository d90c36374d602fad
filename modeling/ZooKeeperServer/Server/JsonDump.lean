import ZooKeeperServer.Server.ChunkFrames
import ZooKeeperServer.Text.Utf8

namespace ZooKeeperServer

/-! What the server relies on of `dump`: it throws on a string that is not UTF-8, and
gives well-formed JSON text of everything else. -/

namespace Json

section Values

-- The number that a `double` is printed as.
variable (decimal : Double → JsonText.Number)

mutual

def toValue : Json → JsonText.Value
  | .null => .null
  | .boolean value => .boolean value
  | .integer value => .number ⟨value, 0⟩
  | .double value => .number (decimal value)
  | .string text => .string text
  | .array elements => .array (toValues elements)
  | .object members => .object (toMembers members)

def toValues : List Json → List JsonText.Value
  | [] => []
  | element :: rest => toValue element :: toValues rest

def toMembers : List (StdString × Json) → List (JsonText.Bytes × JsonText.Value)
  | [] => []
  | (key, value) :: rest => (key, toValue value) :: toMembers rest

end

end Values

/-- Every string in the value is UTF-8, whatever its numbers are printed as. -/
def HasUtf8Strings (json : Json) : Prop :=
  (json.toValue fun _ => ⟨0, 0⟩).AllStrings Utf8.Valid

instance (json : Json) : Decidable json.HasUtf8Strings :=
  inferInstanceAs (Decidable ((json.toValue fun _ => ⟨0, 0⟩).AllStrings Utf8.Valid))

end Json

structure JsonLibrary.DumpsText (json : JsonLibrary) : Prop where
  throws : ∀ value, ¬ value.HasUtf8Strings →
    ∃ exception, json.dump value = .error exception
  gives : ∀ value, value.HasUtf8Strings → ∃ text, json.dump value = .ok text ∧
    Utf8.Valid text ∧ (JsonText.decode text).isSome = true

/-- Every value is shown as itself; a double need not be a number, for what is not
finite is printed as `null`. -/
structure Json.Shows (shown : Json → JsonText.Value) : Prop where
  null : shown .null = .null
  boolean : ∀ value, shown (.boolean value) = .boolean value
  integer : ∀ value, shown (.integer value) = .number ⟨value, 0⟩
  string : ∀ text, shown (.string text) = .string text
  array : ∀ elements, shown (.array elements) = .array (elements.map shown)
  object : ∀ members, shown (.object members) =
    .object (members.map fun member => (member.1, shown member.2))

/-- `dump` without an indentation: one line, which is read back. -/
structure JsonLibrary.DumpsLines (json : JsonLibrary)
    (shown : Json → JsonText.Value) : Prop where
  shows_ : Json.Shows shown
  line : ∀ {value text}, json.dump value = .ok text → (0x0a : UInt8) ∉ text
  reads : ∀ {value text}, json.dump value = .ok text →
    JsonText.decode text = some (shown value)

section Dump

open Utf8

theorem escapes_transparent : Transparent escapeByte where
  ascii := by
    intro byte ascii
    refine ⟨?_, fun other listed => (escapeByte_ascii ascii listed).2⟩
    intro empty
    have read := readCharacter_escapeByte byte []
    rw [empty] at read
    cases read
  high := fun byte high => escapeByte_high high

theorem valid_jsonEscaped {text : StdString} :
    Valid (jsonEscaped text) ↔ Valid text :=
  escapes_transparent.valid_iff

theorem chunkPrinter_closed : chunkPrinter.Closed Valid where
  nil := .nil
  append first second := first.append second
  plain byte _ ascii := .ascii (by simpa using ascii)
  integer n := .ascii fun byte listed => (stdToStringInt_ascii listed).2

theorem valid_render {value : JsonText.Value} (strings : value.AllStrings Valid) :
    Valid (chunkPrinter.render value) := by
  apply JsonText.Printer.render_closed chunkPrinter_closed
  have same : (fun text => Valid (chunkPrinter.escaped text)) = Valid := by
    funext text
    exact propext valid_jsonEscaped
  rwa [same]

/-- It prints as the frames of a completion are printed; no number in them has a
fraction. -/
def utf8Json : JsonLibrary where
  dump value :=
    if value.HasUtf8Strings then
      .ok (chunkPrinter.render (value.toValue fun _ => ⟨0, 0⟩))
    else .error invalidUtf8
  parse _ := .error ⟨literal "[json.exception.parse_error.101] parse error"⟩

theorem utf8Json_dumpsText : utf8Json.DumpsText where
  throws value invalid := ⟨invalidUtf8, if_neg invalid⟩
  gives value valid := by
    refine ⟨_, if_pos valid, valid_render valid, ?_⟩
    rw [JsonText.Printer.decode_render]
    rfl

theorem toValue_shows (decimal : Double → JsonText.Number) :
    Json.Shows (Json.toValue decimal) where
  null := rfl
  boolean _ := rfl
  integer _ := rfl
  string _ := rfl
  array elements := by
    rw [Json.toValue]
    congr 1
    induction elements with
    | nil => rfl
    | cons element rest ih => rw [Json.toValues, ih, List.map_cons]
  object members := by
    rw [Json.toValue]
    congr 1
    induction members with
    | nil => rfl
    | cons member rest ih =>
        obtain ⟨key, value⟩ := member
        rw [Json.toMembers, ih, List.map_cons]

theorem utf8Json_dumpsLines : utf8Json.DumpsLines (Json.toValue fun _ => ⟨0, 0⟩) where
  shows_ := toValue_shows _
  line {value text} dumped := by
    simp only [utf8Json] at dumped
    split at dumped
    · cases dumped
      intro listed
      exact absurd (Chunk.render_printable _ _ listed) (by decide)
    · cases dumped
  reads {value text} dumped := by
    simp only [utf8Json] at dumped
    split at dumped
    · cases dumped
      exact JsonText.Printer.decode_render _ _
    · cases dumped

end Dump

end ZooKeeperServer
