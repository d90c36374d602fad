import Mathlib.Data.List.Basic

namespace Utf8

/-! Well-formed UTF-8, as the standard library has it: the encoding of some list of
characters. -/

abbrev Bytes := List UInt8

def Valid (text : Bytes) : Prop := text.toByteArray.IsValidUTF8

instance (text : Bytes) : Decidable (Valid text) :=
  inferInstanceAs (Decidable text.toByteArray.IsValidUTF8)

open String (utf8EncodeChar)

variable {left right text rest : Bytes} {char : Char} {byte : UInt8}

theorem valid_iff :
    Valid text ↔ ∃ chars : List Char, chars.flatMap utf8EncodeChar = text := by
  constructor
  · rintro ⟨chars, encoded⟩
    exact ⟨chars, (List.toByteArray_inj.mp encoded).symm⟩
  · rintro ⟨chars, rfl⟩
    exact ⟨chars, rfl⟩

theorem Valid.nil : Valid [] := valid_iff.mpr ⟨[], rfl⟩

theorem Valid.append (first : Valid left) (second : Valid right) :
    Valid (left ++ right) := by
  obtain ⟨before, rfl⟩ := valid_iff.mp first
  obtain ⟨after, rfl⟩ := valid_iff.mp second
  exact valid_iff.mpr ⟨before ++ after, List.flatMap_append⟩

theorem encodeChar_append_iff :
    Valid (utf8EncodeChar char ++ rest) ↔ Valid rest := by
  have single := @ByteArray.isValidUTF8_utf8Encode_singleton_append_iff
    rest.toByteArray char
  rwa [List.utf8Encode_singleton, ← List.toByteArray_append] at single

/-- Nothing but the end of a text is left when a well-formed text is cut off its
front. -/
theorem Valid.append_iff (first : Valid left) :
    Valid (left ++ right) ↔ Valid right := by
  obtain ⟨chars, rfl⟩ := valid_iff.mp first
  clear first
  induction chars with
  | nil => rfl
  | cons char chars ih =>
      rw [List.flatMap_cons, List.append_assoc, encodeChar_append_iff, ih]

theorem encodeChar_ascii (ascii : byte < 0x80) :
    utf8EncodeChar (Char.ofNat byte.toNat) = [byte] := by
  have all : ∀ n : Fin 0x80,
      utf8EncodeChar (Char.ofNat n) = [UInt8.ofNat n] := by
    decide
  have here := all ⟨byte.toNat, UInt8.lt_iff_toNat_lt.mp ascii⟩
  rwa [UInt8.ofNat_toNat] at here

theorem not_ascii_ofNat {n : Nat} (low : 0x80 ≤ n) (high : n < 0x100) :
    ¬ UInt8.ofNat n < 0x80 := by
  rw [UInt8.lt_iff_toNat_lt, UInt8.toNat_ofNat_of_lt' high]
  exact Nat.not_lt.mpr low

/-- A character has an ASCII byte only if it is that byte. -/
theorem encodeChar_cases (char : Char) :
    (∃ byte : UInt8, byte < 0x80 ∧ utf8EncodeChar char = [byte]) ∨
      ∀ byte ∈ utf8EncodeChar char, ¬ byte < 0x80 := by
  have continued (n : Nat) : ¬ UInt8.ofNat (n % 0x40 + 0x80) < 0x80 :=
    not_ascii_ofNat (by omega) (by omega)
  unfold utf8EncodeChar
  dsimp only
  split
  · rename_i single
    have small : char.val.toNat < UInt8.size := Nat.lt_of_le_of_lt single (by decide)
    refine .inl ⟨_, ?_, rfl⟩
    rw [UInt8.lt_iff_toNat_lt, UInt8.toNat_ofNat_of_lt' small]
    exact Nat.lt_succ_of_le single
  · right
    split
    · simp only [List.mem_cons, List.not_mem_nil, or_false, forall_eq_or_imp,
        forall_eq]
      exact ⟨not_ascii_ofNat (by omega) (by omega), continued _⟩
    · split
      · simp only [List.mem_cons, List.not_mem_nil, or_false, forall_eq_or_imp,
          forall_eq]
        exact ⟨not_ascii_ofNat (by omega) (by omega), continued _, continued _⟩
      · simp only [List.mem_cons, List.not_mem_nil, or_false, forall_eq_or_imp,
          forall_eq]
        exact ⟨not_ascii_ofNat (by omega) (by omega), continued _, continued _,
          continued _⟩

theorem Valid.ascii (ascii : ∀ byte ∈ text, byte < 0x80) : Valid text := by
  induction text with
  | nil => exact .nil
  | cons byte text ih =>
      have later := ih fun other listed => ascii other (List.mem_cons_of_mem _ listed)
      rw [← List.singleton_append, ← encodeChar_ascii (ascii byte (by simp))]
      exact encodeChar_append_iff.mpr later

theorem Valid.of_append_ascii (whole : Valid (left ++ byte :: rest))
    (ascii : byte < 0x80) : Valid left := by
  obtain ⟨chars, encoded⟩ := valid_iff.mp whole
  clear whole
  induction chars generalizing left with
  | nil => simp at encoded
  | cons char chars ih =>
      rw [List.flatMap_cons] at encoded
      rcases List.append_eq_append_iff.mp encoded with
        ⟨more, rfl, later⟩ | ⟨more, split, later⟩
      · exact encodeChar_append_iff.mpr (ih later)
      · cases more with
        | nil =>
            rw [List.append_nil] at split
            rw [← split, ← List.append_nil (utf8EncodeChar char)]
            exact encodeChar_append_iff.mpr .nil
        | cons first more =>
            obtain ⟨rfl, -⟩ := List.cons.inj later
            rcases encodeChar_cases char with ⟨single, -, alone⟩ | high
            · rw [alone] at split
              have sizes := congrArg List.length split
              simp only [List.length_append, List.length_cons, List.length_nil]
                at sizes
              rw [List.eq_nil_of_length_eq_zero (show left.length = 0 by omega)]
              exact .nil
            · exact absurd ascii (high byte (by simp [split]))

/-! Escapes that write ASCII bytes as ASCII texts and leave the others alone keep a text
well-formed, and mend nothing. -/

structure Transparent (escape : UInt8 → Bytes) : Prop where
  ascii : ∀ byte, byte < 0x80 → escape byte ≠ [] ∧
    ∀ other ∈ escape byte, other < 0x80
  high : ∀ byte, ¬ byte < 0x80 → escape byte = [byte]

section Escapes

variable {escape : UInt8 → Bytes} (transparent : Transparent escape)

include transparent

/-- Bytes that are not ASCII are found in the escaped text only where they are in the
text itself. -/
theorem Transparent.uncover {high tail : Bytes} (highs : ∀ byte ∈ high, ¬ byte < 0x80)
    (escaped : text.flatMap escape = high ++ tail) :
    ∃ rest, text = high ++ rest ∧ rest.flatMap escape = tail := by
  induction high generalizing text with
  | nil => exact ⟨text, rfl, escaped⟩
  | cons first high ih =>
      cases text with
      | nil => simp at escaped
      | cons byte text =>
          rw [List.flatMap_cons] at escaped
          have here := highs first (by simp)
          have byteHigh : ¬ byte < 0x80 := by
            intro ascii
            obtain ⟨nonempty, all⟩ := transparent.ascii byte ascii
            obtain ⟨head, more, split⟩ := List.exists_cons_of_ne_nil nonempty
            rw [split, List.cons_append] at escaped
            obtain ⟨rfl, -⟩ := List.cons.inj escaped
            exact here (all head (by simp [split]))
          rw [transparent.high byte byteHigh, List.singleton_append,
            List.cons_append] at escaped
          obtain ⟨rfl, later⟩ := List.cons.inj escaped
          obtain ⟨rest, rfl, covered⟩ := ih
            (fun other listed => highs other (List.mem_cons_of_mem _ listed)) later
          exact ⟨rest, rfl, covered⟩

theorem Transparent.flatMap_high (highs : ∀ byte ∈ text, ¬ byte < 0x80) :
    text.flatMap escape = text := by
  induction text with
  | nil => rfl
  | cons byte text ih =>
      rw [List.flatMap_cons, transparent.high byte (highs byte (by simp)),
        ih fun other listed => highs other (List.mem_cons_of_mem _ listed),
        List.singleton_append]

theorem Transparent.valid_escaped (valid : Valid text) :
    Valid (text.flatMap escape) := by
  obtain ⟨chars, rfl⟩ := Utf8.valid_iff.mp valid
  clear valid
  induction chars with
  | nil => exact .nil
  | cons char chars ih =>
      rw [List.flatMap_cons, List.flatMap_append]
      apply Valid.append _ ih
      rcases encodeChar_cases char with ⟨byte, ascii, alone⟩ | high
      · rw [alone, List.flatMap_singleton]
        exact .ascii (transparent.ascii byte ascii).2
      · rw [transparent.flatMap_high high, ← List.append_nil (utf8EncodeChar char)]
        exact encodeChar_append_iff.mpr .nil

theorem Transparent.valid_of_escaped (valid : Valid (text.flatMap escape)) :
    Valid text := by
  induction size : text.length using Nat.strongRecOn generalizing text with
  | ind n ih =>
      subst size
      cases text with
      | nil => exact .nil
      | cons byte text =>
          by_cases ascii : byte < 0x80
          · have escape := (transparent.ascii byte ascii).2
            have later := ih text.length (by simp)
              ((Valid.ascii escape).append_iff.mp valid) rfl
            rw [← List.singleton_append]
            exact (Valid.ascii (by simpa using ascii)).append later
          · -- The first character of the escaped text is one of the text.
            obtain ⟨chars, encoded⟩ := Utf8.valid_iff.mp valid
            cases chars with
            | nil =>
                rw [List.flatMap_cons, transparent.high byte ascii] at encoded
                cases encoded
            | cons char chars =>
                rw [List.flatMap_cons] at encoded
                have highs : ∀ other ∈ utf8EncodeChar char, ¬ other < 0x80 := by
                  rcases encodeChar_cases char with ⟨single, isAscii, alone⟩ | high
                  · rw [alone, List.flatMap_cons, transparent.high byte ascii]
                      at encoded
                    obtain ⟨rfl, -⟩ := List.cons.inj encoded
                    exact absurd isAscii ascii
                  · exact high
                obtain ⟨rest, whole, covered⟩ :=
                  transparent.uncover highs encoded.symm
                have shorter : rest.length < (byte :: text).length := by
                  have positive := List.length_pos_iff.mpr
                    (String.utf8EncodeChar_ne_nil (c := char))
                  rw [whole, List.length_append]
                  omega
                have later : Valid (rest.flatMap escape) := by
                  rw [covered]
                  exact Utf8.valid_iff.mpr ⟨chars, rfl⟩
                rw [whole]
                exact encodeChar_append_iff.mpr (ih rest.length shorter later rfl)

theorem Transparent.valid_iff : Valid (text.flatMap escape) ↔ Valid text :=
  ⟨transparent.valid_of_escaped, transparent.valid_escaped⟩

end Escapes

end Utf8
