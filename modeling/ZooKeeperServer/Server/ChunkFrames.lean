import Mathlib.Data.Nat.Digits.Lemmas
import ZooKeeperServer.Server.Streaming
import ZooKeeperServer.Text.EventStream
import ZooKeeperServer.Text.JsonPrint

namespace ZooKeeperServer

/-! The frames of a completion stream are printed by hand.  They are the JSON text of
an object with the fields of the chunk, and that object is read back from them. -/

section Printer

open JsonText

theorem hexValue?_hexDigit {digit : UInt8} (small : digit.toNat < 16) :
    hexValue? (hexDigit digit) = some digit.toNat := by
  have all : ∀ n : Fin 16, hexValue? (hexDigit (UInt8.ofNat n)) = some n.val := by
    decide
  have here := all ⟨digit.toNat, small⟩
  rwa [UInt8.ofNat_toNat] at here

theorem readCodeUnit_hexDigits (byte : UInt8) (rest : StdString) :
    readCodeUnit (0x30 :: 0x30 :: hexDigit ((byte >>> 4) &&& 0xf) ::
      hexDigit (byte &&& 0xf) :: rest) = some (byte.toNat, rest) := by
  have bound := byte.toNat_lt
  have high : ((byte >>> 4) &&& 0xf).toNat = byte.toNat / 16 := by
    rw [UInt8.toNat_and, UInt8.toNat_shiftRight]
    have masked := Nat.and_two_pow_sub_one_eq_mod (byte.toNat / 16) 4
    simp only [Nat.shiftRight_eq_div_pow]
    exact masked.trans (Nat.mod_eq_of_lt (by omega))
  have low : (byte &&& 0xf).toNat = byte.toNat % 16 := by
    rw [UInt8.toNat_and]
    exact Nat.and_two_pow_sub_one_eq_mod byte.toNat 4
  have zero : hexValue? 0x30 = some 0 := by decide
  simp only [readCodeUnit, zero, Option.bind_eq_bind, Option.bind_some,
    hexValue?_hexDigit (show ((byte >>> 4) &&& 0xf).toNat < 16 by omega),
    hexValue?_hexDigit (show (byte &&& 0xf).toNat < 16 by omega), high, low,
    Option.some.injEq, Prod.mk.injEq, and_true]
  omega

theorem utf8EncodeChar_control {n : Nat} (control : n < 0x20) :
    String.utf8EncodeChar (Char.ofNat n) = [UInt8.ofNat n] := by
  have all : ∀ n : Fin 0x20,
      String.utf8EncodeChar (Char.ofNat n) = [UInt8.ofNat n] := by
    decide
  exact all ⟨n, control⟩

def namedEscapes : List UInt8 := [0x22, 0x5c, 0x08, 0x0c, 0x0a, 0x0d, 0x09]

theorem escapeByte_of_not_named {byte : UInt8} (other : byte ∉ namedEscapes) :
    escapeByte byte =
      if byte < 0x20 then
        literal "\\u00" ++
          [hexDigit ((byte >>> 4) &&& 0xf), hexDigit (byte &&& 0xf)]
      else [byte] := by
  simp only [namedEscapes, List.mem_cons, List.not_mem_nil, or_false, not_or]
    at other
  obtain ⟨quote, backslash, backspace, formFeed, lineFeed, carriage, tab⟩ := other
  simp only [escapeByte, if_neg quote, if_neg backslash, if_neg backspace,
    if_neg formFeed, if_neg lineFeed, if_neg carriage, if_neg tab]

theorem readCharacter_escapeByte (byte : UInt8) (rest : StdString) :
    readCharacter (escapeByte byte ++ rest) = some ([byte], rest) := by
  by_cases named : byte ∈ namedEscapes
  · simp only [namedEscapes, List.mem_cons, List.not_mem_nil, or_false] at named
    rcases named with rfl | rfl | rfl | rfl | rfl | rfl | rfl
    all_goals rfl
  · rw [escapeByte_of_not_named named]
    split
    · rename_i control
      have small : byte.toNat < 0x20 := UInt8.lt_iff_toNat_lt.mp control
      have escape : literal "\\u00" = [0x5c, 0x75, 0x30, 0x30] := by decide +kernel
      simp only [escape, List.cons_append, List.nil_append, readCharacter,
        readCodePoint, readCodeUnit_hexDigits, Option.bind_eq_bind,
        Option.bind_some]
      rw [if_neg (by omega), if_neg (by omega), Option.map_some,
        utf8EncodeChar_control small, UInt8.ofNat_toNat]
    · rename_i printable
      have quote : byte ≠ 0x22 := by
        rintro rfl
        exact named (by decide)
      have backslash : byte ≠ 0x5c := by
        rintro rfl
        exact named (by decide)
      rw [List.singleton_append, readCharacter]
      · rw [if_neg]
        simp [printable, quote, backslash]
      · intro more same
        exact absurd same backslash
      · intro other more same
        exact absurd same backslash

theorem isDigit_decimal {digit : Nat} (small : digit < 10) :
    isDigit (UInt8.ofNat (48 + digit)) = true := by
  have all : ∀ digit : Fin 10, isDigit (UInt8.ofNat (48 + digit)) = true := by
    decide
  exact all ⟨digit, small⟩

theorem isDecimal_stdToString (value : Nat) :
    IsDecimal value (stdToString value) := by
  have read : digitsValue (stdToString value) = value :=
    decimalValue_stdToString value
  by_cases zero : value = 0
  · subst zero
    exact ⟨List.forall_mem_singleton.mpr (by decide), by decide, by decide,
      read⟩
  · have text : stdToString value =
        (Nat.digits 10 value).reverse.map fun digit => UInt8.ofNat (48 + digit) :=
      if_neg zero
    have nonempty : Nat.digits 10 value ≠ [] := Nat.digits_ne_nil_iff_ne_zero.mpr zero
    refine ⟨?_, ?_, ?_, read⟩
    · intro byte listed
      rw [text, List.mem_map] at listed
      obtain ⟨digit, member, rfl⟩ := listed
      exact isDigit_decimal
        (Nat.digits_lt_base (by decide) (List.mem_reverse.mp member))
    · simpa [text] using nonempty
    · intro first
      -- The leading digit is the last that `Nat.digits` gives.
      have leading := Nat.getLast_digit_ne_zero 10 zero
      have small := Nat.digits_lt_base (b := 10) (by decide)
        (List.getLast_mem nonempty)
      rw [text, List.head?_map, List.head?_reverse,
        List.getLast?_eq_some_getLast nonempty, Option.map_some,
        Option.some.injEq] at first
      have same := congrArg UInt8.toNat first
      rw [UInt8.toNat_ofNat_of_lt' (by simp only [UInt8.size]; omega)] at same
      exact absurd same (by simp; omega)

theorem isInteger_stdToStringInt (value : Int) :
    IsInteger value (stdToStringInt value) := by
  cases value with
  | ofNat value =>
      exact .inl ⟨Int.natCast_nonneg value, isDecimal_stdToString value⟩
  | negSucc value =>
      have minus : stdToStringInt (.negSucc value) =
          0x2d :: stdToString (value + 1) := by
        rw [stdToStringInt, show literal "-" = [0x2d] by decide +kernel]
        rfl
      exact .inr ⟨Int.negSucc_lt_zero value, stdToString (value + 1), minus,
        isDecimal_stdToString (value + 1)⟩

theorem escapeByte_ascii {byte other : UInt8} (ascii : byte < 0x80)
    (listed : other ∈ escapeByte byte) : 0x20 ≤ other ∧ other < 0x80 := by
  have all : ∀ n : Fin 0x80, ∀ other ∈ escapeByte (UInt8.ofNat n),
      0x20 ≤ other ∧ other < 0x80 := by
    decide +kernel
  have here := all ⟨byte.toNat, UInt8.lt_iff_toNat_lt.mp ascii⟩ other
  rw [UInt8.ofNat_toNat] at here
  exact here listed

theorem escapeByte_high {byte : UInt8} (high : ¬ byte < 0x80) :
    escapeByte byte = [byte] := by
  have other : byte ∉ namedEscapes := by
    intro named
    have ascii : ∀ byte ∈ namedEscapes, byte < 0x80 := by simp [namedEscapes]
    exact high (ascii byte named)
  rw [escapeByte_of_not_named other]
  apply if_neg
  intro control
  exact high (UInt8.lt_trans control (by decide))

theorem escapeByte_printable {byte other : UInt8}
    (listed : other ∈ escapeByte byte) : 0x20 ≤ other := by
  by_cases ascii : byte < 0x80
  · exact (escapeByte_ascii ascii listed).1
  · rw [escapeByte_high ascii] at listed
    obtain rfl := List.mem_singleton.mp listed
    exact UInt8.le_trans (by decide) (UInt8.not_lt.mp ascii)

theorem isDigit_ascii {byte : UInt8} (digit : isDigit byte = true) :
    0x20 ≤ byte ∧ byte < 0x80 := by
  simp only [isDigit, Bool.and_eq_true, decide_eq_true_eq] at digit
  exact ⟨UInt8.le_trans (by decide) digit.1,
    UInt8.lt_of_le_of_lt digit.2 (by decide)⟩

theorem stdToStringInt_ascii {n : Int} {byte : UInt8}
    (listed : byte ∈ stdToStringInt n) : 0x20 ≤ byte ∧ byte < 0x80 := by
  rcases isInteger_stdToStringInt n with ⟨-, decimal⟩ | ⟨-, digits, text, decimal⟩
  · exact isDigit_ascii (decimal.digits byte listed)
  · rw [text] at listed
    rcases List.mem_cons.mp listed with rfl | later
    · decide
    · exact isDigit_ascii (decimal.digits byte later)

def chunkPrinter : Printer where
  escape := escapeByte
  integer := stdToStringInt
  reads_escape := readCharacter_escapeByte
  isInteger := isInteger_stdToStringInt

end Printer

structure Chunk where
  completionId : StdString
  created : Int
  modelId : StdString
  content : Option StdString
  includeRole : Bool
  finishReason : Option StdString
  deriving DecidableEq

namespace Chunk

open JsonText

def frame (chunk : Chunk) : StdString :=
  makeChunkImpl chunk.completionId chunk.created chunk.modelId chunk.content
    chunk.includeRole chunk.finishReason

def delta (chunk : Chunk) : List (StdString × Value) :=
  (if chunk.includeRole then
      [(literal "role", .string (literal "assistant"))] else []) ++
    chunk.content.toList.map fun text => (literal "content", .string text)

def finish (chunk : Chunk) : Value :=
  match chunk.finishReason with
  | none => .null
  | some reason => .string reason

def choice (chunk : Chunk) : Value :=
  .object
    [(literal "index", .number ⟨0, 0⟩), (literal "delta", .object chunk.delta),
      (literal "finish_reason", chunk.finish)]

def value (chunk : Chunk) : Value :=
  .object
    [(literal "id", .string chunk.completionId),
      (literal "object", .string (literal "chat.completion.chunk")),
      (literal "created", .number ⟨chunk.created, 0⟩),
      (literal "model", .string chunk.modelId),
      (literal "choices", .array [chunk.choice])]

section Texts

theorem string_eq (text : StdString) :
    chunkPrinter.string text =
      literal "\"" ++ (jsonEscaped text ++ literal "\"") := rfl

theorem delta_text (chunk : Chunk) :
    listText (chunkPrinter.renderMembers chunk.delta) =
      (if chunk.includeRole then literal "\"role\":\"assistant\"" else []) ++
        (match chunk.content with
          | none => []
          | some text =>
              (if chunk.includeRole then literal "," else []) ++
                literal "\"content\":\"" ++ jsonEscaped text ++ literal "\"") := by
  obtain ⟨completionId, created, modelId, content, includeRole, finishReason⟩ :=
    chunk
  cases includeRole with
  | true =>
      cases content with
      | none => rfl
      | some text =>
          simp only [delta, if_true, Option.toList_some, List.map_cons, List.map_nil,
            List.cons_append, List.nil_append, Printer.renderMembers, listText_cons,
            List.flatMap_cons, List.flatMap_nil, List.append_nil, string_eq,
            Printer.render, List.append_assoc]
          rfl
  | false =>
      cases content with
      | none => rfl
      | some text =>
          simp only [delta, Bool.false_eq_true, if_false, Option.toList_some,
            List.map_cons, List.map_nil, List.nil_append, Printer.renderMembers,
            listText_cons, List.flatMap_nil, List.append_nil, string_eq,
            Printer.render, List.append_assoc]
          rfl

theorem finish_text (chunk : Chunk) :
    chunkPrinter.render chunk.finish =
      match chunk.finishReason with
      | none => literal "null"
      | some reason => literal "\"" ++ jsonEscaped reason ++ literal "\"" := by
  unfold finish
  cases chunk.finishReason with
  | none => rfl
  | some reason => rfl

end Texts

theorem frame_eq (chunk : Chunk) :
    chunk.frame = literal "data: " ++ chunkPrinter.render chunk.value ++
      EventStream.blankLine := by
  simp only [frame, makeChunkImpl, finish_text, value, choice, Printer.render,
    Printer.renderMembers, Printer.renderElements, listText_cons, List.flatMap_cons,
    List.flatMap_nil, List.append_nil, string_eq, delta_text, List.append_assoc,
    List.cons_append, List.nil_append, Printer.number, if_true]
  rfl

theorem printable_closed :
    chunkPrinter.Closed fun text => ∀ byte ∈ text, (0x20 : UInt8) ≤ byte where
  nil := by simp
  append := by
    intro left right atLeft atRight byte listed
    exact (List.mem_append.mp listed).elim (atLeft byte) (atRight byte)
  plain := by
    intro byte printable ascii other listed
    obtain rfl := List.mem_singleton.mp listed
    exact printable
  integer := by
    intro n byte listed
    exact (stdToStringInt_ascii listed).1

theorem escaped_printable (text : StdString) :
    ∀ byte ∈ chunkPrinter.escaped text, (0x20 : UInt8) ≤ byte := by
  intro byte listed
  obtain ⟨source, -, listed⟩ := List.mem_flatMap.mp listed
  exact escapeByte_printable listed

theorem render_printable (value : Value) :
    ∀ byte ∈ chunkPrinter.render value, (0x20 : UInt8) ≤ byte :=
  Printer.render_closed printable_closed value
    (Value.allStrings_of_forall escaped_printable value)

def member? (key : StdString) : Value → Option Value
  | .object members => members.lookup key
  | _ => none

def string? : Value → Option StdString
  | .string text => some text
  | _ => none

def ofValue? (value : Value) : Option Chunk := do
  let completionId ← (member? (literal "id") value).bind string?
  let created ← match member? (literal "created") value with
    | some (.number ⟨created, 0⟩) => some created
    | _ => none
  let modelId ← (member? (literal "model") value).bind string?
  let choice ← match member? (literal "choices") value with
    | some (.array [choice]) => some choice
    | _ => none
  let delta ← member? (literal "delta") choice
  let finishReason := (member? (literal "finish_reason") choice).bind string?
  some
    { completionId, created, modelId, finishReason
      content := (member? (literal "content") delta).bind string?
      includeRole := (member? (literal "role") delta).isSome }

theorem ofValue?_value (chunk : Chunk) : ofValue? chunk.value = some chunk := by
  obtain ⟨completionId, created, modelId, content, includeRole, finishReason⟩ :=
    chunk
  cases includeRole
  all_goals cases content
  all_goals cases finishReason
  all_goals rfl

def body (chunk : Chunk) : StdString :=
  literal "data: " ++ chunkPrinter.render chunk.value

theorem body_plain (chunk : Chunk) : (0x0a : UInt8) ∉ chunk.body := by
  intro listed
  rcases List.mem_append.mp listed with prefixed | payload
  · exact absurd prefixed (by decide +kernel)
  · exact absurd (render_printable _ _ payload) (by decide)

def decode (body : StdString) : Option Chunk :=
  if literal "data: " <+: body then
    (JsonText.decode (body.drop (literal "data: ").length)).bind ofValue?
  else none

theorem decode_body (chunk : Chunk) : decode chunk.body = some chunk := by
  rw [decode, body, if_pos (List.prefix_append _ _), List.drop_left,
    Printer.decode_render, Option.bind_some, ofValue?_value]

end Chunk

/-- A frame is one line with a JSON text of the chunk's object in it, so a stream of
frames falls apart at its blank lines, and every chunk is read back. -/
theorem chunk_frames_lossless :
    (∀ chunk : Chunk,
      (∀ before after, chunk.frame = before ++ EventStream.blankLine ++ after →
        after = []) ∧
      ∃ payload, chunk.frame =
          literal "data: " ++ payload ++ EventStream.blankLine ∧
        JsonText.decode payload = some chunk.value) ∧
      ∀ chunks : List Chunk,
        (EventStream.split (chunks.flatMap Chunk.frame)).mapM Chunk.decode =
          some chunks := by
  constructor
  · intro chunk
    refine ⟨?_, _, chunk.frame_eq, JsonText.Printer.decode_render _ _⟩
    intro before after found
    rw [chunk.frame_eq] at found
    exact EventStream.blankLine_last chunk.body_plain found
  · intro chunks
    have frames : chunks.flatMap Chunk.frame =
        (chunks.map Chunk.body).flatMap (· ++ EventStream.blankLine) := by
      rw [List.flatMap_map]
      apply List.flatMap_congr
      intro chunk _
      exact chunk.frame_eq
    have plain : ∀ body ∈ chunks.map Chunk.body, (0x0a : UInt8) ∉ body := by
      intro body listed
      obtain ⟨chunk, -, rfl⟩ := List.mem_map.mp listed
      exact chunk.body_plain
    rw [frames, EventStream.split_flatMap plain]
    clear frames plain
    induction chunks with
    | nil => rfl
    | cons chunk chunks ih =>
        rw [List.map_cons, List.mapM_cons, Chunk.decode_body, ih]
        rfl

end ZooKeeperServer
