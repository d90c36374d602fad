import Mathlib.Data.List.Basic
import ZooKeeperServer.Server.ApiTypes

namespace ZooKeeperServer.Auth

/-! The check of the `Authorization` header.  Its comparison takes as long for a
wrong key as for the right one, so it collects every difference in one byte. -/

def bearerPrefix : StdString := literal "Bearer "

/-- The byte at `i`, and past the end of the string the byte 0xFF.  A read outside
of the string would be `none`. -/
def readPadded (text : StdString) (i : Nat) : Option UInt8 :=
  if i < text.length then text[i]? else some 0xFF

def difference (authHeader expected : StdString) (i : Nat) : Option UInt8 := do
  let a ← readPadded authHeader (bearerPrefix.length + i)
  let b ← readPadded expected i
  return a ^^^ b

def checkAuth (authHeader : StdString) (apiKey : Option StdString) :
    Option (Option ApiError) :=
  match apiKey with
  | none => some none
  | some expected => do
      let compareLen := max expected.length 1
      let prefixMismatch : UInt8 :=
        if authHeader.length < bearerPrefix.length ∨
            authHeader.take bearerPrefix.length ≠ bearerPrefix then 1
        else 0
      let lengthMismatch : UInt8 :=
        if authHeader.length ≠ bearerPrefix.length + expected.length then 1 else 0
      let compared ← (List.range compareLen).foldlM
        (fun diff i => do return diff ||| (← difference authHeader expected i))
        prefixMismatch
      let diff := compared ||| lengthMismatch
      if diff ≠ 0 then
        return some (authError (literal "Invalid API key")
          (some (literal "invalid_api_key")))
      else return none

section Comparison

variable {authHeader expected : StdString} {i : Nat}

def padded (text : StdString) (i : Nat) : UInt8 :=
  (text[i]?).getD 0xFF

theorem readPadded_eq (text : StdString) :
    readPadded text i = some (padded text i) := by
  unfold readPadded padded
  split
  · rename_i inside
    simp [List.getElem?_eq_getElem inside]
  · rename_i outside
    simp [List.getElem?_eq_none (Nat.le_of_not_lt outside)]

theorem difference_eq :
    difference authHeader expected i =
      some (padded authHeader (bearerPrefix.length + i) ^^^ padded expected i) := by
  simp [difference, readPadded_eq]

theorem foldlM_or (answer : Nat → UInt8) (indices : List Nat) (start : UInt8) :
    ∃ diff, indices.foldlM
        (fun diff i => do return diff ||| (← some (answer i))) start =
          some diff ∧
      (diff = 0 ↔ start = 0 ∧ ∀ i ∈ indices, answer i = 0) := by
  induction indices generalizing start with
  | nil => exact ⟨start, rfl, by simp⟩
  | cons i rest ih =>
      obtain ⟨diff, folded, zero⟩ := ih (start ||| answer i)
      refine ⟨diff, ?_, ?_⟩
      · simpa using folded
      · rw [zero, UInt8.or_eq_zero_iff, List.forall_mem_cons, and_assoc]

theorem eq_bearer_iff :
    (authHeader.take bearerPrefix.length = bearerPrefix ∧
      authHeader.length = bearerPrefix.length + expected.length ∧
      ∀ i < expected.length,
        padded authHeader (bearerPrefix.length + i) = padded expected i) ↔
      authHeader = bearerPrefix ++ expected := by
  constructor
  · rintro ⟨front, size, bytes⟩
    have key : authHeader.drop bearerPrefix.length = expected := by
      apply List.ext_getElem?
      intro i
      rw [List.getElem?_drop]
      by_cases inside : i < expected.length
      · have same := bytes i inside
        have here : bearerPrefix.length + i < authHeader.length := by omega
        simpa [padded, inside, here] using same
      · rw [List.getElem?_eq_none (by omega), List.getElem?_eq_none (by omega)]
    rw [← List.take_append_drop bearerPrefix.length authHeader, front, key]
  · rintro rfl
    refine ⟨List.take_left, List.length_append, ?_⟩
    intro i inside
    simp [padded, List.getElem?_append_right]

theorem flag_eq_zero_iff {mismatch : Prop} [Decidable mismatch] :
    (if mismatch then (1 : UInt8) else 0) = 0 ↔ ¬ mismatch := by
  split
  · simp_all
  · simp_all

end Comparison

/-- The check reads no byte outside of the header and the key, and what it answers
depends on one equality.  An empty key is no exception. -/
theorem checkAuth_eq (authHeader expected : StdString) :
    checkAuth authHeader (some expected) =
      some (if authHeader = bearerPrefix ++ expected then none
        else some (authError (literal "Invalid API key")
          (some (literal "invalid_api_key")))) := by
  let mismatch : UInt8 :=
    if authHeader.length < bearerPrefix.length ∨
        authHeader.take bearerPrefix.length ≠ bearerPrefix then 1
    else 0
  obtain ⟨diff, folded, zero⟩ := foldlM_or
    (fun i => padded authHeader (bearerPrefix.length + i) ^^^ padded expected i)
    (List.range (max expected.length 1)) mismatch
  let whole : UInt8 := diff |||
    if authHeader.length ≠ bearerPrefix.length + expected.length then 1 else 0
  have checked : checkAuth authHeader (some expected) =
      some (if whole ≠ 0 then
        some (authError (literal "Invalid API key")
          (some (literal "invalid_api_key")))
      else none) := by
    simp only [checkAuth, difference_eq]
    rw [folded]
    exact (apply_ite some _ _ _).symm
  have admitted : whole = 0 ↔ authHeader = bearerPrefix ++ expected := by
    rw [← eq_bearer_iff, UInt8.or_eq_zero_iff, zero, flag_eq_zero_iff,
      flag_eq_zero_iff]
    simp only [UInt8.xor_eq_zero_iff, List.mem_range, lt_sup_iff, not_or, not_not,
      not_lt]
    constructor
    · rintro ⟨⟨⟨-, front⟩, bytes⟩, size⟩
      exact ⟨front, size, fun i inside => bytes i (.inl inside)⟩
    · rintro ⟨front, size, bytes⟩
      refine ⟨⟨⟨by omega, front⟩, ?_⟩, size⟩
      rintro i (inside | first)
      · exact bytes i inside
      · by_cases inside : i < expected.length
        · exact bytes i inside
        -- Only an empty key has its padding compared.
        · have beyond : authHeader.length ≤ bearerPrefix.length + i := by omega
          simp [padded, Nat.le_of_not_lt inside, beyond]
  rw [checked]
  simp only [ne_eq, ite_not, admitted]

/-- The check reads no byte outside of the header and the key, and it admits exactly
the header that is the prefix and then the key.  This holds for an empty key too,
which the configuration rejects: the one byte compared for it is padding, or the
lengths differ. -/
theorem checkAuth_admits (authHeader expected : StdString) :
    ∃ answer, checkAuth authHeader (some expected) = some answer ∧
      (answer = none ↔ authHeader = bearerPrefix ++ expected) := by
  refine ⟨_, checkAuth_eq authHeader expected, ?_⟩
  split
  · simp_all
  · simp_all

end ZooKeeperServer.Auth
