import Mathlib.Data.List.Basic

namespace ZooKeeperServer.Containers

/-! What comes first in a list counts: cutting at a separator, looking for a match,
filling a map without touching what is there. -/

section Lists

variable {α : Type} [BEq α] [LawfulBEq α]

theorem idxOf?_eq_some {separator : α} {items : List α} {i : Nat} :
    items.idxOf? separator = some i ↔
      ∃ before after, items = before ++ separator :: after ∧
        separator ∉ before ∧ before.length = i := by
  induction items generalizing i with
  | nil => simp
  | cons first rest ih =>
      rw [List.idxOf?_cons]
      split
      · rename_i same
        obtain rfl := eq_of_beq same
        constructor
        · intro found
          cases found
          exact ⟨[], rest, rfl, List.not_mem_nil, rfl⟩
        · rintro ⟨before, after, cut, absent, rfl⟩
          cases before with
          | nil => rfl
          | cons other later =>
              obtain ⟨rfl, -⟩ := List.cons.inj cut
              exact absurd List.mem_cons_self absent
      · rename_i different
        have distinct : first ≠ separator := fun same => different (by simp [same])
        simp only [Option.map_eq_some_iff, ih]
        constructor
        · rintro ⟨_, ⟨before, after, rfl, absent, rfl⟩, rfl⟩
          exact ⟨first :: before, after, rfl, by simp [absent, distinct.symm], rfl⟩
        · rintro ⟨before, after, cut, absent, rfl⟩
          cases before with
          | nil => exact absurd (List.cons.inj cut).1 distinct
          | cons other later =>
              obtain ⟨rfl, rfl⟩ := List.cons.inj cut
              exact ⟨later.length,
                ⟨later, after, rfl, fun held => absent (List.mem_cons_of_mem _ held),
                  rfl⟩, rfl⟩

theorem find?_eraseDups (found : α → Bool) (items : List α) :
    items.eraseDups.find? found = items.find? found := by
  induction size : items.length using Nat.strongRecOn generalizing items with
  | ind size ih =>
      cases items with
      | nil => rfl
      | cons first rest =>
          subst size
          rw [List.eraseDups_cons, List.find?_cons, List.find?_cons]
          cases here : found first with
          | true => rfl
          | false =>
              simp only
              rw [ih _ (Nat.lt_succ_of_le (List.length_filter_le _ _)) _ rfl,
                List.find?_filter]
              congr 1
              funext item
              by_cases same : item = first
              · simp [same, here]
              · simp [same]

/-- Two lists have the same first match for whatever is looked for exactly when they
are the same up to repeats. -/
theorem find?_congr_iff {items others : List α} :
    (∀ found, items.find? found = others.find? found) ↔
      items.eraseDups = others.eraseDups := by
  constructor
  · intro same
    induction size : items.length using Nat.strongRecOn
        generalizing items others with
    | ind size ih =>
        have heads := same fun _ => true
        cases items with
        | nil =>
            cases others with
            | nil => rfl
            | cons other later => simp at heads
        | cons first rest =>
            cases others with
            | nil => simp at heads
            | cons other later =>
                obtain rfl : first = other := by simpa using heads
                subst size
                rw [List.eraseDups_cons, List.eraseDups_cons]
                refine congrArg _ (ih _
                  (Nat.lt_succ_of_le (List.length_filter_le _ rest)) ?_ rfl)
                intro found
                have beyond := same fun item => !(item == first) && found item
                simpa [List.find?_filter, List.find?_cons] using beyond
  · intro same found
    rw [← find?_eraseDups, same, find?_eraseDups]

open Classical in
theorem find?_map_congr_iff {β : Type} {f : α → β} (injective : f.Injective)
    {items others : List α} :
    (∀ found, (items.map f).find? found = (others.map f).find? found) ↔
      items.eraseDups = others.eraseDups := by
  rw [← find?_congr_iff]
  simp only [List.find?_map]
  constructor
  · intro same found
    have mapped := same fun image => decide (∃ item, f item = image ∧ found item)
    have back : (fun image => decide (∃ item, f item = image ∧ found item)) ∘ f =
        found := by
      funext item
      simp [injective.eq_iff]
    rw [back] at mapped
    exact Option.map_injective injective mapped
  · intro same found
    rw [same]

end Lists

section Maps

variable {Key Value : Type} {compare : Key → Key → Ordering}
  [Std.TransCmp compare] [Std.LawfulEqCmp compare] [BEq Key] [LawfulBEq Key]
  {map : Std.ExtTreeMap Key Value compare} {key : Key}

/-- A map that is filled without touching what is there holds the first entry of each
key. -/
theorem getElem?_foldl_insertIfNew (entries : List (Key × Value)) :
    (entries.foldl (fun map entry => map.insertIfNew entry.1 entry.2) map)[key]? =
      map[key]?.or (entries.lookup key) := by
  induction entries generalizing map with
  | nil => simp
  | cons entry rest ih =>
      obtain ⟨name, value⟩ := entry
      rw [List.foldl_cons, ih, Std.ExtTreeMap.getElem?_insertIfNew, List.lookup_cons]
      by_cases same : name = key
      · subst same
        cases held : map[name]? with
        | none =>
            have absent : name ∉ map := by
              rw [Std.ExtTreeMap.mem_iff_isSome_getElem?, held]
              exact Bool.false_ne_true
            simp [absent]
        | some old =>
            have present : name ∈ map := by
              rw [Std.ExtTreeMap.mem_iff_isSome_getElem?, held]
              rfl
            simp [present]
      · have different : (key == name) = false :=
          beq_eq_false_iff_ne.mpr (Ne.symm same)
        have uncompared : compare name key ≠ .eq := fun equal =>
          same (Std.LawfulEqCmp.eq_of_compare equal)
        simp [uncompared, different]

theorem getElem?_foldl_insert (other : Std.ExtTreeMap Key Value compare) :
    (other.toList.foldl (fun map entry => map.insert entry.1 entry.2) map)[key]? =
      other[key]?.or map[key]? := by
  rw [← Std.ExtTreeMap.insertMany_list_eq_foldl]
  cases held : other[key]? with
  | some value =>
      rw [Std.ExtTreeMap.getElem?_insertMany_list_of_mem Std.ReflCmp.compare_self
        Std.ExtTreeMap.distinct_keys_toList
        (Std.ExtTreeMap.mem_toList_iff_getElem?_eq_some.mpr held)]
      rfl
  | none =>
      rw [Std.ExtTreeMap.getElem?_insertMany_list_of_contains_eq_false]
      · rfl
      · rw [Std.ExtTreeMap.map_fst_toList_eq_keys, ← Bool.not_eq_true,
          List.contains_iff_mem, Std.ExtTreeMap.mem_keys,
          Std.ExtTreeMap.mem_iff_isSome_getElem?, held]
        simp

end Maps

end ZooKeeperServer.Containers
