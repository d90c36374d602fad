import ZooKeeperServer.Text.JsonText

namespace JsonText

/-! Texts that are read back.  A number goes on for as long as its bytes do, so a
text stands for its value only where what follows does not begin with such a
byte. -/

def numberByte (byte : UInt8) : Bool :=
  isDigit byte || byte = 0x2e || byte = 0x65 || byte = 0x45

def Delimited (rest : Bytes) : Prop :=
  ∀ byte ∈ rest.head?, numberByte byte = false

/-- The text stands for the value, whatever follows it. -/
structure Reads {α : Type} (reader : Reader α) (text : Bytes) (value : α) :
    Prop where
  first : ∃ byte ∈ text.head?, isSpace byte = false ∧ byte ≠ 0x5d ∧ byte ≠ 0x7d
  reads : ∀ rest, Delimited rest → reader (text ++ rest) = some (value, rest)

theorem delimited_cons {byte : UInt8} {rest : Bytes}
    (other : numberByte byte = false) : Delimited (byte :: rest) := by
  intro first same
  obtain rfl : byte = first := by simpa using same
  exact other

theorem isDigit_of_numberByte {byte : UInt8} (other : numberByte byte = false) :
    isDigit byte = false := by
  simp only [numberByte, Bool.or_eq_false_iff] at other
  exact other.1.1.1

/-- Digits without a needless zero. -/
structure IsDecimal (n : Nat) (text : Bytes) : Prop where
  digits : ∀ digit ∈ text, isDigit digit = true
  nonempty : text ≠ []
  noZero : text.head? = some 0x30 → text = [0x30]
  value : digitsValue text = n

def IsInteger (n : Int) (text : Bytes) : Prop :=
  (0 ≤ n ∧ IsDecimal n.toNat text) ∨
    n < 0 ∧ ∃ digits, text = 0x2d :: digits ∧ IsDecimal (-n).toNat digits

section Numbers

variable {n : Nat} {text rest : Bytes}

theorem readDigits_append (all : ∀ digit ∈ text, isDigit digit = true)
    (nonempty : text ≠ []) (ends : ∀ byte ∈ rest.head?, isDigit byte = false) :
    readDigits (text ++ rest) = some (text, rest) := by
  have stops : rest.takeWhile isDigit = [] ∧ rest.dropWhile isDigit = rest := by
    cases rest with
    | nil => exact ⟨rfl, rfl⟩
    | cons byte rest => simp [ends byte (by simp)]
  have taken : (text ++ rest).takeWhile isDigit = text := by
    rw [List.takeWhile_append_of_pos all, stops.1, List.append_nil]
  have dropped : (text ++ rest).dropWhile isDigit = rest := by
    rw [List.dropWhile_append_of_pos all, stops.2]
  simp only [readDigits, taken, dropped, if_neg nonempty]

theorem IsDecimal.readWhole (decimal : IsDecimal n text)
    (ends : ∀ byte ∈ rest.head?, isDigit byte = false) :
    readWhole (text ++ rest) = some (text, rest) := by
  have kept : ¬ (text.head? = some 0x30 ∧ text ≠ [0x30]) := by
    rintro ⟨zero, more⟩
    exact more (decimal.noZero zero)
  rw [JsonText.readWhole,
    readDigits_append decimal.digits decimal.nonempty ends]
  exact if_neg kept

theorem IsDecimal.exists_cons (decimal : IsDecimal n text) :
    ∃ digit more, text = digit :: more ∧ isDigit digit = true := by
  obtain ⟨digit, more, rfl⟩ := List.exists_cons_of_ne_nil decimal.nonempty
  exact ⟨digit, more, rfl, decimal.digits digit (by simp)⟩

theorem IsDecimal.readSign (decimal : IsDecimal n text) :
    readSign (text ++ rest) = (false, text ++ rest) := by
  obtain ⟨digit, more, rfl, isDigit⟩ := decimal.exists_cons
  rw [List.cons_append]
  unfold JsonText.readSign
  split
  · rename_i same
    obtain ⟨rfl, -⟩ := List.cons.inj same
    exact absurd isDigit (by decide)
  · rfl

theorem IsInteger.readSignedDigits {n : Int} (integer : IsInteger n text)
    (ends : ∀ byte ∈ rest.head?, isDigit byte = false) :
    readSignedDigits (text ++ rest) = some (n, rest) := by
  rcases integer with ⟨positive, decimal⟩ | ⟨negative, digits, rfl, decimal⟩
  · obtain ⟨digit, more, rfl, digitHere⟩ := decimal.exists_cons
    have read := readDigits_append decimal.digits decimal.nonempty ends
    rw [List.cons_append] at read ⊢
    unfold JsonText.readSignedDigits
    split
    · rename_i same
      obtain ⟨rfl, -⟩ := List.cons.inj same
      exact absurd digitHere (by decide)
    · rename_i same
      obtain ⟨rfl, -⟩ := List.cons.inj same
      exact absurd digitHere (by decide)
    · simp only [read, Option.map_some, decimal.value,
        Int.toNat_of_nonneg positive]
  · have read := readDigits_append decimal.digits decimal.nonempty ends
    have value : -((-n).toNat : Int) = n := by omega
    simp only [List.cons_append, JsonText.readSignedDigits, read, Option.map_some,
      decimal.value, value]

theorem readFraction_none (ends : rest.head? ≠ some 0x2e) :
    readFraction rest = some ([], rest) := by
  unfold readFraction
  split
  · exact absurd rfl ends
  · rfl

theorem readExponent_none (lower : rest.head? ≠ some 0x65)
    (upper : rest.head? ≠ some 0x45) : readExponent rest = some (0, rest) := by
  unfold readExponent
  split
  · exact absurd rfl lower
  · exact absurd rfl upper
  · rfl

theorem IsInteger.readNumber {n exponent : Int} {after : Bytes}
    (integer : IsInteger n text)
    (ends : ∀ byte ∈ after.head?, isDigit byte = false)
    (whole : after.head? ≠ some 0x2e)
    (read : readExponent after = some (exponent, rest)) :
    readNumber (text ++ after) = some (⟨n, exponent⟩, rest) := by
  rcases integer with ⟨positive, decimal⟩ | ⟨negative, digits, rfl, decimal⟩
  · simp only [JsonText.readNumber, decimal.readSign, decimal.readWhole ends,
      readFraction_none whole, read, Option.bind_eq_bind, Option.bind_some,
      List.append_nil, decimal.value]
    simp
    omega
  · simp only [JsonText.readNumber, List.cons_append, JsonText.readSign,
      decimal.readWhole ends, readFraction_none whole, read, Option.bind_eq_bind,
      Option.bind_some, List.append_nil, decimal.value]
    simp
    omega

end Numbers

structure Printer where
  escape : UInt8 → Bytes
  integer : Int → Bytes
  reads_escape : ∀ byte rest,
    readCharacter (escape byte ++ rest) = some ([byte], rest)
  isInteger : ∀ n, IsInteger n (integer n)

def listText : List Bytes → Bytes
  | [] => []
  | head :: rest => head ++ rest.flatMap (0x2c :: ·)

@[simp] theorem listText_nil : listText [] = [] := rfl

@[simp] theorem listText_cons (head : Bytes) (rest : List Bytes) :
    listText (head :: rest) = head ++ rest.flatMap (0x2c :: ·) := rfl

namespace Printer

variable (printer : Printer)

def escaped (text : Bytes) : Bytes := text.flatMap printer.escape

def string (text : Bytes) : Bytes := 0x22 :: (printer.escaped text ++ [0x22])

def number (number : Number) : Bytes :=
  printer.integer number.mantissa ++
    (if number.exponent = 0 then [] else 0x65 :: printer.integer number.exponent)

mutual

def render : Value → Bytes
  | .null => [0x6e, 0x75, 0x6c, 0x6c]
  | .boolean true => [0x74, 0x72, 0x75, 0x65]
  | .boolean false => [0x66, 0x61, 0x6c, 0x73, 0x65]
  | .number number => printer.number number
  | .string text => printer.string text
  | .array elements => 0x5b :: (listText (renderElements elements) ++ [0x5d])
  | .object members => 0x7b :: (listText (renderMembers members) ++ [0x7d])

def renderElements : List Value → List Bytes
  | [] => []
  | element :: rest => render element :: renderElements rest

def renderMembers : List (Bytes × Value) → List Bytes
  | [] => []
  | (key, value) :: rest =>
      (printer.string key ++ 0x3a :: render value) :: renderMembers rest

end

variable {printer : Printer}

theorem length_le_escaped (printer : Printer) (text : Bytes) :
    text.length ≤ (printer.escaped text).length := by
  induction text with
  | nil => exact Nat.zero_le _
  | cons byte text ih =>
      have nonempty : printer.escape byte ≠ [] := by
        intro empty
        have read := printer.reads_escape byte []
        rw [empty] at read
        simp [readCharacter] at read
      have positive := List.length_pos_iff.mpr nonempty
      simp only [escaped, List.flatMap_cons, List.length_append,
        List.length_cons] at ih ⊢
      omega

theorem readCharacters_escaped (text rest : Bytes) {fuel : Nat}
    (enough : text.length < fuel) :
    readCharacters fuel (printer.escaped text ++ 0x22 :: rest) =
      some (text, rest) := by
  induction text generalizing fuel with
  | nil =>
      obtain ⟨fuel, rfl⟩ := Nat.exists_eq_succ_of_ne_zero (Nat.ne_of_gt enough)
      rfl
  | cons byte text ih =>
      obtain ⟨fuel, rfl⟩ :=
        Nat.exists_eq_succ_of_ne_zero (Nat.ne_zero_of_lt enough)
      have later := ih (show text.length < fuel by simpa using enough)
      have read := printer.reads_escape byte
        (printer.escaped text ++ 0x22 :: rest)
      have split : printer.escaped (byte :: text) ++ 0x22 :: rest =
          printer.escape byte ++ (printer.escaped text ++ 0x22 :: rest) := by
        simp [escaped]
      rw [split, readCharacters]
      · simp only [read, later, Option.bind_eq_bind, Option.bind_some,
          List.singleton_append]
      · intro more quote
        rw [quote] at read
        simp [readCharacter] at read

end Printer

section Lists

variable {α : Type} {close : UInt8} {item : Reader α} {text : Bytes}
  {texts : List Bytes} {value : α} {values : List α}

theorem skipSpace_cons {byte : UInt8} {rest : Bytes}
    (solid : isSpace byte = false) : skipSpace (byte :: rest) = byte :: rest := by
  simp [skipSpace, solid]

theorem Reads.exists_cons {reader : Reader α} (reads : Reads reader text value) :
    ∃ byte more, text = byte :: more ∧ isSpace byte = false ∧ byte ≠ 0x5d ∧
      byte ≠ 0x7d := by
  obtain ⟨byte, first, solid⟩ := reads.first
  cases text with
  | nil => cases first
  | cons head more =>
      obtain rfl : head = byte := by simpa using first
      exact ⟨head, more, rfl, solid⟩

theorem length_le_flatMap (texts : List Bytes) :
    texts.length ≤ (texts.flatMap (0x2c :: ·)).length := by
  induction texts with
  | nil => exact Nat.zero_le _
  | cons text texts ih =>
      simp only [List.flatMap_cons, List.length_append, List.length_cons]
      omega

theorem readItems_texts (solid : isSpace close = false)
    (ends : numberByte close = false) (other : close ≠ 0x2c)
    (head : Reads item text value)
    (all : List.Forall₂ (Reads item) texts values) (rest : Bytes) {fuel : Nat}
    (enough : texts.length < fuel) :
    readItems close item fuel
        (text ++ texts.flatMap (0x2c :: ·) ++ close :: rest) =
      some (value :: values, rest) := by
  induction all generalizing text value fuel with
  | nil =>
      obtain ⟨fuel, rfl⟩ := Nat.exists_eq_succ_of_ne_zero (Nat.ne_of_gt enough)
      simp only [List.flatMap_nil, List.append_nil, readItems,
        head.reads _ (delimited_cons ends), Option.bind_eq_bind, Option.bind_some,
        skipSpace_cons solid, if_pos]
  | @cons _ _ texts _ first _ ih =>
      obtain ⟨fuel, rfl⟩ :=
        Nat.exists_eq_succ_of_ne_zero (Nat.ne_zero_of_lt enough)
      have later := ih first (show texts.length < fuel by simpa using enough)
      have comma : numberByte 0x2c = false := by decide
      have visible : isSpace 0x2c = false := by decide
      simp only [List.flatMap_cons, List.cons_append, List.append_assoc] at later ⊢
      simp only [readItems, head.reads _ (delimited_cons comma),
        Option.bind_eq_bind, Option.bind_some, skipSpace_cons visible,
        if_neg other.symm, later, if_pos]

theorem readList_texts (close : UInt8) (solid : isSpace close = false)
    (ends : numberByte close = false) (other : close ≠ 0x2c)
    (bracket : close = 0x5d ∨ close = 0x7d)
    (all : List.Forall₂ (Reads item) texts values) (rest : Bytes) :
    readList close item (listText texts ++ close :: rest) =
      some (values, rest) := by
  cases all with
  | nil => simp [readList, listText, skipSpace_cons solid]
  | cons first later =>
      rename_i text value texts values
      obtain ⟨byte, more, rfl, solidHere, notArray, notObject⟩ := first.exists_cons
      have opens : byte ≠ close := by
        rintro rfl
        exact bracket.elim notArray notObject
      have enough : texts.length <
          (byte :: more ++ texts.flatMap (0x2c :: ·) ++ close :: rest).length := by
        have bound := length_le_flatMap texts
        simp only [List.length_append, List.length_cons]
        omega
      have whole := readItems_texts solid ends other first later rest enough
      simpa only [readList, listText, List.cons_append, skipSpace_cons solidHere,
        if_neg opens] using whole

end Lists

namespace Printer

variable {printer : Printer}

theorem readCharacters_string (printer : Printer) (text rest : Bytes) :
    readCharacters (printer.escaped text ++ 0x22 :: rest).length
        (printer.escaped text ++ 0x22 :: rest) = some (text, rest) := by
  apply readCharacters_escaped
  have bound := length_le_escaped printer text
  simp only [List.length_append, List.length_cons]
  omega

theorem IsInteger.first {n : Int} {text : Bytes} (integer : IsInteger n text) :
    ∃ byte more, text = byte :: more ∧ (isDigit byte = true ∨ byte = 0x2d) := by
  rcases integer with ⟨-, decimal⟩ | ⟨-, digits, rfl, -⟩
  · obtain ⟨digit, more, rfl, digitHere⟩ := decimal.exists_cons
    exact ⟨digit, more, rfl, .inl digitHere⟩
  · exact ⟨0x2d, digits, rfl, .inr rfl⟩

theorem number_first (printer : Printer) (number : Number) :
    ∃ byte more, printer.number number = byte :: more ∧
      (isDigit byte = true ∨ byte = 0x2d) := by
  obtain ⟨byte, more, text, kind⟩ := IsInteger.first
    (printer.isInteger number.mantissa)
  exact ⟨byte, _, by rw [Printer.number, text, List.cons_append], kind⟩

theorem readNumber_number (printer : Printer) (number : Number) {rest : Bytes}
    (delimited : Delimited rest) :
    readNumber (printer.number number ++ rest) = some (number, rest) := by
  obtain ⟨mantissa, exponent⟩ := number
  have ends : ∀ byte ∈ rest.head?, isDigit byte = false := by
    intro byte first
    exact isDigit_of_numberByte (delimited byte first)
  have differs (byte : UInt8) (continues : numberByte byte = true) :
      rest.head? ≠ some byte := by
    intro first
    exact absurd (delimited byte first) (by simp [continues])
  have integer := printer.isInteger mantissa
  simp only [Printer.number, List.append_assoc]
  split
  · rename_i zero
    subst zero
    apply integer.readNumber ends (differs _ (by decide))
    exact readExponent_none (differs _ (by decide)) (differs _ (by decide))
  · apply integer.readNumber
    · intro byte first
      obtain rfl : 0x65 = byte := by simpa using first
      decide
    · simp
    · exact (printer.isInteger exponent).readSignedDigits ends

theorem ne_of_numeric {byte : UInt8} (other : UInt8)
    (kind : isDigit byte = true ∨ byte = 0x2d)
    (differs : isDigit other = false ∧ other ≠ 0x2d) : byte ≠ other := by
  rintro rfl
  rcases kind with digit | minus
  · exact absurd digit (by simp [differs.1])
  · exact differs.2 minus

theorem solid_of_numeric {byte : UInt8}
    (kind : isDigit byte = true ∨ byte = 0x2d) : isSpace byte = false := by
  have blank := ne_of_numeric 0x20 kind (by decide)
  have tab := ne_of_numeric 0x09 kind (by decide)
  have feed := ne_of_numeric 0x0a kind (by decide)
  have back := ne_of_numeric 0x0d kind (by decide)
  simp [isSpace, blank, tab, feed, back]

theorem render_first (printer : Printer) (value : Value) :
    ∃ byte ∈ (printer.render value).head?, isSpace byte = false ∧
      byte ≠ 0x5d ∧ byte ≠ 0x7d := by
  cases value with
  | null => exact ⟨0x6e, rfl, by decide⟩
  | boolean value =>
      cases value with
      | true => exact ⟨0x74, rfl, by decide⟩
      | false => exact ⟨0x66, rfl, by decide⟩
  | number number =>
      obtain ⟨byte, more, text, kind⟩ := number_first printer number
      exact ⟨byte, by rw [render, text]; rfl, solid_of_numeric kind,
        ne_of_numeric _ kind (by decide), ne_of_numeric _ kind (by decide)⟩
  | string text => exact ⟨0x22, rfl, by decide⟩
  | array elements => exact ⟨0x5b, rfl, by decide⟩
  | object members => exact ⟨0x7b, rfl, by decide⟩

theorem renderElements_eq (elements : List Value) :
    printer.renderElements elements = elements.map printer.render := by
  induction elements with
  | nil => rfl
  | cons element rest ih => rw [renderElements, ih, List.map_cons]

theorem renderMembers_eq (members : List (Bytes × Value)) :
    printer.renderMembers members = members.map fun member =>
      printer.string member.1 ++ 0x3a :: printer.render member.2 := by
  induction members with
  | nil => rfl
  | cons member rest ih =>
      obtain ⟨key, value⟩ := member
      rw [renderMembers, ih, List.map_cons]

theorem length_le_listText {text : Bytes} {texts : List Bytes}
    (listed : text ∈ texts) : text.length ≤ (listText texts).length := by
  cases texts with
  | nil => cases listed
  | cons head rest =>
      rw [listText, List.length_append]
      rcases List.mem_cons.mp listed with rfl | later
      · omega
      · have bound := (List.sublist_flatten_of_mem
          (List.mem_map_of_mem (f := (0x2c :: ·)) later)).length_le
        rw [← List.flatMap_def, List.length_cons] at bound
        omega

theorem readMember_reads {reader : Reader Value} {text key : Bytes} {value : Value}
    (reads : Reads reader text value) :
    Reads (readMember reader) (printer.string key ++ 0x3a :: text) (key, value) where
  first := ⟨0x22, rfl, by decide⟩
  reads := by
    intro rest delimited
    have opened : isSpace 0x22 = false := by decide
    have colon : isSpace 0x3a = false := by decide
    simp only [Printer.string, List.cons_append, List.append_assoc, readMember,
      skipSpace_cons opened, readCharacters_string, Option.bind_eq_bind,
      Option.bind_some, List.nil_append, skipSpace_cons colon,
      reads.reads rest delimited]

section Nested

variable (fuel : Nat)
  (ih : ∀ value, (printer.render value).length ≤ fuel →
    Reads (readValue fuel) (printer.render value) value)

include ih

theorem elements_read {elements : List Value}
    (enough : (printer.render (.array elements)).length ≤ fuel + 1) :
    List.Forall₂ (Reads (readValue fuel)) (printer.renderElements elements)
      elements := by
  rw [renderElements_eq, List.forall₂_map_left_iff, List.forall₂_same]
  intro element listed
  have bound := length_le_listText (List.mem_map_of_mem (f := printer.render) listed)
  rw [render, renderElements_eq, List.length_cons, List.length_append] at enough
  apply ih
  omega

theorem members_read {members : List (Bytes × Value)}
    (enough : (printer.render (.object members)).length ≤ fuel + 1) :
    List.Forall₂ (Reads (readMember (readValue fuel)))
      (printer.renderMembers members) members := by
  rw [renderMembers_eq, List.forall₂_map_left_iff, List.forall₂_same]
  intro member listed
  have bound := length_le_listText (List.mem_map_of_mem
    (f := fun member => printer.string member.1 ++ 0x3a :: printer.render member.2)
    listed)
  rw [render, renderMembers_eq, List.length_cons, List.length_append] at enough
  apply readMember_reads
  apply ih
  rw [List.length_append, List.length_cons] at bound
  omega

end Nested

/-- Enough fuel for the text is enough for the value. -/
theorem reads_render (printer : Printer) (fuel : Nat) (value : Value)
    (enough : (printer.render value).length ≤ fuel) :
    Reads (readValue fuel) (printer.render value) value := by
  induction fuel generalizing value with
  | zero =>
      obtain ⟨byte, first, -⟩ := render_first printer value
      rw [List.eq_nil_of_length_eq_zero (Nat.le_zero.mp enough)] at first
      cases first
  | succ fuel ih =>
      refine ⟨render_first printer value, ?_⟩
      intro rest delimited
      cases value with
      | null => simp [render, readValue, skipSpace, isSpace, readWord]
      | boolean value =>
          cases value with
          | true => simp [render, readValue, skipSpace, isSpace, readWord]
          | false => simp [render, readValue, skipSpace, isSpace, readWord]
      | number number =>
          obtain ⟨byte, more, text, kind⟩ :=
            number_first printer number
          have read := readNumber_number printer number delimited
          rw [text, List.cons_append] at read
          simp only [render, text, List.cons_append, readValue,
            skipSpace_cons (solid_of_numeric kind), read, Option.map_some,
            if_neg (ne_of_numeric 0x7b kind (by decide)),
            if_neg (ne_of_numeric 0x5b kind (by decide)),
            if_neg (ne_of_numeric 0x22 kind (by decide)),
            if_neg (ne_of_numeric 0x6e kind (by decide)),
            if_neg (ne_of_numeric 0x74 kind (by decide)),
            if_neg (ne_of_numeric 0x66 kind (by decide))]
      | string text =>
          have opened : isSpace 0x22 = false := by decide
          have read := readCharacters_string printer text rest
          simp only [List.length_append, List.length_cons] at read
          simp [render, Printer.string, readValue, skipSpace_cons opened, read]
      | array elements =>
          have opened : isSpace 0x5b = false := by decide
          have read := readList_texts 0x5d (by decide) (by decide)
            (by decide) (.inl rfl) (elements_read fuel ih enough) rest
          simp [render, readValue, skipSpace_cons opened, read]
      | object members =>
          have opened : isSpace 0x7b = false := by decide
          have read := readList_texts 0x7d (by decide) (by decide)
            (by decide) (.inr rfl) (members_read fuel ih enough) rest
          simp [render, readValue, skipSpace_cons opened, read]

theorem decode_render (printer : Printer) (value : Value) :
    decode (printer.render value) = some value := by
  have read := (reads_render printer _ value le_rfl).reads []
    (by simp [Delimited])
  rw [List.append_nil] at read
  rw [decode, read]
  rfl

section Closed

/-- A property of texts that holds of the pieces of a printed text and is kept by
concatenation; what it says of the strings is left out. -/
structure Closed (printer : Printer) (property : Bytes → Prop) : Prop where
  nil : property []
  append : ∀ {left right}, property left → property right →
    property (left ++ right)
  plain : ∀ byte : UInt8, 0x20 ≤ byte → byte < 0x80 → property [byte]
  integer : ∀ n, property (printer.integer n)

variable {property : Bytes → Prop}

theorem listText_closed (closed : printer.Closed property) {texts : List Bytes}
    (all : ∀ text ∈ texts, property text) : property (listText texts) := by
  cases texts with
  | nil => exact closed.nil
  | cons head rest =>
      apply closed.append (all head (by simp))
      have later : ∀ text ∈ rest, property text :=
        fun text listed => all text (List.mem_cons_of_mem _ listed)
      clear all
      induction rest with
      | nil => exact closed.nil
      | cons text rest ih =>
          rw [List.flatMap_cons]
          apply closed.append
          · exact closed.append (closed.plain 0x2c (by decide) (by decide))
              (later text (by simp))
          · exact ih fun other listed =>
              later other (List.mem_cons_of_mem _ listed)

theorem string_closed (closed : printer.Closed property) {text : Bytes}
    (escaped : property (printer.escaped text)) : property (printer.string text) := by
  have quote : property [0x22] := closed.plain _ (by decide) (by decide)
  exact closed.append quote (closed.append escaped quote)

theorem word_closed (closed : printer.Closed property) {text : Bytes}
    (ascii : ∀ byte ∈ text, 0x20 ≤ byte ∧ byte < 0x80) : property text := by
  induction text with
  | nil => exact closed.nil
  | cons byte rest ih =>
      have here := ascii byte (by simp)
      exact closed.append (closed.plain byte here.1 here.2)
        (ih fun other listed => ascii other (List.mem_cons_of_mem _ listed))

mutual

theorem render_closed (closed : printer.Closed property) (value : Value)
    (strings : value.AllStrings fun text => property (printer.escaped text)) :
    property (printer.render value) := by
  cases value with
  | null =>
      rw [render]
      exact word_closed closed (by simp)
  | boolean value =>
      cases value with
      | true =>
          rw [render]
          exact word_closed closed (by simp)
      | false =>
          rw [render]
          exact word_closed closed (by simp)
  | number number =>
      apply closed.append (closed.integer _)
      split
      · exact closed.nil
      · exact closed.append (closed.plain 0x65 (by decide) (by decide))
          (closed.integer _)
  | string text => exact string_closed closed strings
  | array elements =>
      have inner := listText_closed closed
        (renderElements_closed closed elements strings)
      exact closed.append (closed.plain 0x5b (by decide) (by decide))
        (closed.append inner (closed.plain 0x5d (by decide) (by decide)))
  | object members =>
      have inner := listText_closed closed
        (renderMembers_closed closed members strings)
      exact closed.append (closed.plain 0x7b (by decide) (by decide))
        (closed.append inner (closed.plain 0x7d (by decide) (by decide)))

theorem renderElements_closed (closed : printer.Closed property)
    (elements : List Value)
    (strings : Value.AllElements (fun text => property (printer.escaped text))
      elements) :
    ∀ text ∈ printer.renderElements elements, property text := by
  cases elements with
  | nil =>
      intro text listed
      cases listed
  | cons element rest =>
      intro text listed
      rcases List.mem_cons.mp listed with rfl | later
      · exact render_closed closed element strings.1
      · exact renderElements_closed closed rest strings.2 text later

theorem renderMembers_closed (closed : printer.Closed property)
    (members : List (Bytes × Value))
    (strings : Value.AllMembers (fun text => property (printer.escaped text))
      members) :
    ∀ text ∈ printer.renderMembers members, property text := by
  cases members with
  | nil =>
      intro text listed
      cases listed
  | cons member rest =>
      cases member with
      | mk key value =>
          intro text listed
          rcases List.mem_cons.mp listed with rfl | later
          · exact closed.append (string_closed closed strings.1)
              (closed.append (closed.plain 0x3a (by decide) (by decide))
                (render_closed closed value strings.2.1))
          · exact renderMembers_closed closed rest strings.2.2 text later

end

end Closed

end Printer

end JsonText
