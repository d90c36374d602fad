import Mathlib.Data.List.DropRight

namespace ZooKeeperServer.Containers

/-! The longest suffix with a property, and what it is when the suffix has to be short
and begin in the right place. -/

variable {α : Type}

structure LongestSuffix (Admits : List α → Prop) (kept items : List α) :
    Prop where
  suffix : kept <:+ items
  admitted : Admits kept
  longest : ∀ other, other <:+ items → Admits other →
    other.length ≤ kept.length

def StartsWith (starts : α → Bool) (items : List α) : Prop :=
  ∀ first ∈ items.head?, starts first

theorem startsWith_dropWhile (starts : α → Bool) (items : List α) :
    StartsWith starts (items.dropWhile fun item => !starts item) := by
  intro first head
  have stopped := List.head?_dropWhile_not (fun item => !starts item) items
  rw [Option.mem_def.mp head] at stopped
  simpa using stopped

theorem suffix_dropWhile {starts : α → Bool} {other items : List α}
    (suffix : other <:+ items) (begun : StartsWith starts other) :
    other <:+ items.dropWhile fun item => !starts item := by
  induction items with
  | nil => simpa using suffix
  | cons item rest ih =>
      cases kind : starts item with
      | true => simpa [kind] using suffix
      | false =>
          rw [List.dropWhile_cons_of_pos (by simp [kind])]
          rcases List.suffix_cons_iff.mp suffix with rfl | within
          · have right := begun item rfl
            simp [kind] at right
          · exact ih within

theorem suffix_rtake {other items : List α} {limit : Nat}
    (suffix : other <:+ items) (short : other.length ≤ limit) :
    other <:+ items.rtake limit := by
  refine List.suffix_of_suffix_length_le suffix (List.drop_suffix _ _) ?_
  have within := suffix.length_le
  simp only [List.rtake, List.length_drop]
  omega

/-- Cut to the limit, then scan for the next start: nothing longer would do. -/
theorem longestSuffix_rtake (starts : α → Bool) (items : List α)
    (limit : Nat) :
    LongestSuffix (fun kept => kept.length ≤ limit ∧ StartsWith starts kept)
      ((items.rtake limit).dropWhile fun item => !starts item) items where
  suffix := (List.dropWhile_suffix _).trans (List.drop_suffix _ _)
  admitted := by
    refine ⟨?_, startsWith_dropWhile starts _⟩
    have scanned := (List.dropWhile_suffix
      (fun item => !starts item) (l := items.rtake limit)).length_le
    have cut : (items.rtake limit).length ≤ limit := by
      simp only [List.rtake, List.length_drop]
      omega
    omega
  longest := by
    rintro other suffix ⟨short, begun⟩
    exact (suffix_dropWhile (suffix_rtake suffix short) begun).length_le

end ZooKeeperServer.Containers
