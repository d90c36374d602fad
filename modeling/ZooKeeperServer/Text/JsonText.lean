import Mathlib.Data.Nat.Digits.Defs
import Mathlib.Data.List.Forall2

namespace JsonText

/-! JSON at the level of bytes: the values, a decoder for the whole grammar, and
printers.  Bytes from 0x20 on other than the quote and the backslash stand for
themselves inside a string, whether or not they make up characters. -/

abbrev Bytes := List UInt8

/-- `mantissa * 10 ^ exponent`. -/
structure Number where
  mantissa : Int
  exponent : Int := 0
  deriving DecidableEq, Repr

inductive Value
  | null
  | boolean (value : Bool)
  | number (value : Number)
  | string (text : Bytes)
  | array (elements : List Value)
  | object (members : List (Bytes × Value))

namespace Value

mutual

/-- Every string in the value has the property, keys included. -/
def AllStrings (property : Bytes → Prop) : Value → Prop
  | .null => True
  | .boolean _ => True
  | .number _ => True
  | .string text => property text
  | .array elements => AllElements property elements
  | .object members => AllMembers property members

def AllElements (property : Bytes → Prop) : List Value → Prop
  | [] => True
  | element :: rest =>
      AllStrings property element ∧ AllElements property rest

def AllMembers (property : Bytes → Prop) : List (Bytes × Value) → Prop
  | [] => True
  | (key, value) :: rest =>
      property key ∧ AllStrings property value ∧ AllMembers property rest

end

section Every

variable {property : Bytes → Prop}

mutual

theorem allStrings_of_forall (every : ∀ text, property text) (value : Value) :
    AllStrings property value := by
  cases value with
  | string text => exact every text
  | array elements => exact allElements_of_forall every elements
  | object members => exact allMembers_of_forall every members
  | _ => trivial

theorem allElements_of_forall (every : ∀ text, property text)
    (elements : List Value) : AllElements property elements := by
  cases elements with
  | nil => trivial
  | cons element rest =>
      exact ⟨allStrings_of_forall every element, allElements_of_forall every rest⟩

theorem allMembers_of_forall (every : ∀ text, property text)
    (members : List (Bytes × Value)) : AllMembers property members := by
  cases members with
  | nil => trivial
  | cons member rest =>
      obtain ⟨key, value⟩ := member
      exact ⟨every key, allStrings_of_forall every value,
        allMembers_of_forall every rest⟩

end

end Every

section Decidability

variable (property : Bytes → Prop) [DecidablePred property]

mutual

def decideAllStrings : (value : Value) → Decidable (AllStrings property value)
  | .null => .isTrue trivial
  | .boolean _ => .isTrue trivial
  | .number _ => .isTrue trivial
  | .string text => inferInstanceAs (Decidable (property text))
  | .array elements => decideAllElements elements
  | .object members => decideAllMembers members

def decideAllElements :
    (elements : List Value) → Decidable (AllElements property elements)
  | [] => .isTrue trivial
  | element :: rest =>
      @instDecidableAnd _ _ (decideAllStrings element) (decideAllElements rest)

def decideAllMembers : (members : List (Bytes × Value)) →
    Decidable (AllMembers property members)
  | [] => .isTrue trivial
  | (_, value) :: rest =>
      @instDecidableAnd _ _ inferInstance
        (@instDecidableAnd _ _ (decideAllStrings value) (decideAllMembers rest))

end

instance (value : Value) : Decidable (AllStrings property value) :=
  decideAllStrings property value

end Decidability

end Value

/-! A reader takes a value from the front of a text and leaves the rest. -/

abbrev Reader (α : Type) := Bytes → Option (α × Bytes)

def isSpace (byte : UInt8) : Bool :=
  byte = 0x20 || byte = 0x09 || byte = 0x0a || byte = 0x0d

def skipSpace (text : Bytes) : Bytes := text.dropWhile isSpace

def isDigit (byte : UInt8) : Bool := 0x30 ≤ byte && byte ≤ 0x39

def digitsValue (digits : Bytes) : Nat :=
  Nat.ofDigits 10 (digits.reverse.map fun digit => digit.toNat - 0x30)

def readDigits : Reader Bytes := fun text =>
  let digits := text.takeWhile isDigit
  if digits = [] then none else some (digits, text.dropWhile isDigit)

/-- The digits before the point, of which the first is not a needless zero. -/
def readWhole : Reader Bytes := fun text => do
  let (digits, rest) ← readDigits text
  if digits.head? = some 0x30 ∧ digits ≠ [0x30] then none
  else some (digits, rest)

def readFraction : Reader Bytes
  | 0x2e :: rest => readDigits rest
  | text => some ([], text)

def readSignedDigits : Reader Int
  | 0x2d :: rest => (readDigits rest).map fun (digits, rest) =>
      (-(digitsValue digits : Int), rest)
  | 0x2b :: rest => (readDigits rest).map fun (digits, rest) =>
      ((digitsValue digits : Int), rest)
  | text => (readDigits text).map fun (digits, rest) =>
      ((digitsValue digits : Int), rest)

def readExponent : Reader Int
  | 0x65 :: rest => readSignedDigits rest
  | 0x45 :: rest => readSignedDigits rest
  | text => some (0, text)

def readSign : Bytes → Bool × Bytes
  | 0x2d :: rest => (true, rest)
  | text => (false, text)

def readNumber : Reader Number := fun text => do
  let (negative, rest) := readSign text
  let (whole, rest) ← readWhole rest
  let (fraction, rest) ← readFraction rest
  let (exponent, rest) ← readExponent rest
  let magnitude := digitsValue (whole ++ fraction)
  some (⟨if negative then -magnitude else magnitude,
    exponent - fraction.length⟩, rest)

def hexValue? (byte : UInt8) : Option Nat :=
  if isDigit byte then some (byte.toNat - 0x30)
  else if 0x61 ≤ byte ∧ byte ≤ 0x66 then some (byte.toNat - 0x57)
  else if 0x41 ≤ byte ∧ byte ≤ 0x46 then some (byte.toNat - 0x37)
  else none

def readCodeUnit : Reader Nat
  | a :: b :: c :: d :: rest => do
      let a ← hexValue? a
      let b ← hexValue? b
      let c ← hexValue? c
      let d ← hexValue? d
      some (0x1000 * a + 0x100 * b + 0x10 * c + d, rest)
  | _ => none

/-- A code point from outside the first plane takes two escapes. -/
def readCodePoint : Reader Nat := fun text => do
  let (unit, rest) ← readCodeUnit text
  if 0xd800 ≤ unit ∧ unit < 0xdc00 then
    match rest with
    | 0x5c :: 0x75 :: rest => do
        let (low, rest) ← readCodeUnit rest
        if 0xdc00 ≤ low ∧ low < 0xe000 then
          some (0x10000 + 0x400 * (unit - 0xd800) + (low - 0xdc00), rest)
        else none
    | _ => none
  else if 0xdc00 ≤ unit ∧ unit < 0xe000 then none
  else some (unit, rest)

def simpleEscape? (byte : UInt8) : Option UInt8 :=
  if byte = 0x22 ∨ byte = 0x5c ∨ byte = 0x2f then some byte
  else if byte = 0x62 then some 0x08
  else if byte = 0x66 then some 0x0c
  else if byte = 0x6e then some 0x0a
  else if byte = 0x72 then some 0x0d
  else if byte = 0x74 then some 0x09
  else none

def readCharacter : Reader Bytes
  | 0x5c :: 0x75 :: rest => (readCodePoint rest).map fun (codePoint, rest) =>
      (String.utf8EncodeChar (Char.ofNat codePoint), rest)
  | 0x5c :: byte :: rest => (simpleEscape? byte).map fun byte => ([byte], rest)
  | byte :: rest =>
      if byte < 0x20 ∨ byte = 0x22 ∨ byte = 0x5c then none
      else some ([byte], rest)
  | [] => none

/-- The inside of a string, up to the closing quote; no more than `fuel`
characters. -/
def readCharacters : Nat → Reader Bytes
  | 0, _ => none
  | fuel + 1, text =>
      match text with
      | 0x22 :: rest => some ([], rest)
      | text => do
          let (character, rest) ← readCharacter text
          let (others, rest) ← readCharacters fuel rest
          some (character ++ others, rest)

section Lists

variable {α : Type} (close : UInt8) (item : Reader α)

/-- One or more items with commas between them, and the closing byte. -/
def readItems : Nat → Reader (List α)
  | 0, _ => none
  | fuel + 1, text => do
      let (head, rest) ← item text
      match skipSpace rest with
      | [] => none
      | next :: rest =>
          if next = close then some ([head], rest)
          else if next = 0x2c then do
            let (tail, rest) ← readItems fuel rest
            some (head :: tail, rest)
          else none

def readList : Reader (List α) := fun text =>
  match skipSpace text with
  | [] => none
  | next :: rest =>
      if next = close then some ([], rest)
      else readItems close item text.length text

end Lists

def readMember (value : Reader Value) : Reader (Bytes × Value) := fun text =>
  match skipSpace text with
  | 0x22 :: rest => do
      let (key, rest) ← readCharacters rest.length rest
      match skipSpace rest with
      | 0x3a :: rest => do
          let (value, rest) ← value rest
          some ((key, value), rest)
      | _ => none
  | _ => none

def readWord (word : Bytes) (value : Value) : Reader Value := fun text =>
  if word <+: text then some (value, text.drop word.length) else none

/-- A value that is nested no deeper than `fuel`. -/
def readValue : Nat → Reader Value
  | 0, _ => none
  | fuel + 1, text =>
      match skipSpace text with
      | [] => none
      | first :: rest =>
          if first = 0x7b then
            (readList 0x7d (readMember (readValue fuel)) rest).map
              fun (members, rest) => (.object members, rest)
          else if first = 0x5b then
            (readList 0x5d (readValue fuel) rest).map
              fun (elements, rest) => (.array elements, rest)
          else if first = 0x22 then
            (readCharacters rest.length rest).map
              fun (text, rest) => (.string text, rest)
          else if first = 0x6e then
            readWord [0x6e, 0x75, 0x6c, 0x6c] .null (first :: rest)
          else if first = 0x74 then
            readWord [0x74, 0x72, 0x75, 0x65] (.boolean true) (first :: rest)
          else if first = 0x66 then
            readWord [0x66, 0x61, 0x6c, 0x73, 0x65] (.boolean false)
              (first :: rest)
          else
            (readNumber (first :: rest)).map
              fun (value, rest) => (.number value, rest)

def decode (text : Bytes) : Option Value :=
  match readValue text.length text with
  | none => none
  | some (value, rest) => if skipSpace rest = [] then some value else none

end JsonText
