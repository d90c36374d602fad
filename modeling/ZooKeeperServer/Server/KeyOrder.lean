import Mathlib.Data.List.Basic
import ZooKeeperServer.Server.ApiParse

namespace ZooKeeperServer.Json

/-! JSON values that differ only in the order of the keys of their objects. -/

inductive Reordered : Json → Json → Prop
  | refl (value : Json) : Reordered value value
  | trans {first second third : Json} (before : Reordered first second)
      (after : Reordered second third) : Reordered first third
  | members {members others : List (StdString × Json)}
      (distinct : (members.map Prod.fst).Nodup)
      (permuted : members.Perm others) :
      Reordered (.object members) (.object others)
  | inMember {value other : Json} (inner : Reordered value other)
      (before after : List (StdString × Json)) (key : StdString) :
      Reordered (.object (before ++ (key, value) :: after))
        (.object (before ++ (key, other) :: after))
  | inElement {value other : Json} (inner : Reordered value other)
      (before after : List Json) :
      Reordered (.array (before ++ value :: after))
        (.array (before ++ other :: after))

section Lookup

variable {members others : List (StdString × Json)} {key : StdString}
  {value : Json}

theorem lookup_eq_some_iff_mem (distinct : (members.map Prod.fst).Nodup) :
    members.lookup key = some value ↔ (key, value) ∈ members := by
  induction members with
  | nil => simp
  | cons member rest ih =>
      obtain ⟨held, old⟩ := member
      obtain ⟨absent, later⟩ := List.nodup_cons.mp distinct
      rw [lookup_cons_eq, List.mem_cons, Prod.mk.injEq]
      split
      · rename_i same
        subst same
        have once : (key, value) ∉ rest := fun again =>
          absent (List.mem_map.mpr ⟨_, again, rfl⟩)
        simp [once, eq_comm]
      · rename_i different
        simp [ih later, different]

theorem lookup_perm (distinct : (members.map Prod.fst).Nodup)
    (permuted : members.Perm others) :
    members.lookup key = others.lookup key := by
  have alike : (others.map Prod.fst).Nodup :=
    (permuted.map Prod.fst).nodup_iff.mp distinct
  ext value
  rw [lookup_eq_some_iff_mem distinct, lookup_eq_some_iff_mem alike,
    permuted.mem_iff]

end Lookup

namespace Reordered

variable {json other : Json}

theorem symm (reordered : Reordered json other) : Reordered other json := by
  induction reordered with
  | refl value => exact .refl value
  | trans before after first second => exact .trans second first
  | members distinct permuted =>
      exact .members ((permuted.map Prod.fst).nodup_iff.mp distinct)
        permuted.symm
  | inMember inner before after key ih => exact .inMember ih before after key
  | inElement inner before after ih => exact .inElement ih before after

theorem held_trans {first second third : Option Json}
    (one : Option.Rel Reordered first second)
    (two : Option.Rel Reordered second third) :
    Option.Rel Reordered first third := by
  cases one with
  | none => exact two
  | some here =>
      cases two with
      | some there => exact .some (.trans here there)

theorem find? (reordered : Reordered json other) (key : StdString) :
    Option.Rel Reordered (json.find? key) (other.find? key) := by
  induction reordered with
  | refl value =>
      cases value.find? key with
      | none => exact .none
      | some held => exact .some (.refl held)
  | trans before after one two => exact held_trans one two
  | @members members others distinct permuted =>
      simp only [Json.find?, lookup_perm distinct permuted]
      cases others.lookup key with
      | none => exact .none
      | some held => exact .some (.refl held)
  | inMember inner before after name ih =>
      simp only [Json.find?, List.lookup_append, lookup_cons_eq]
      cases before.lookup key with
      | some held => exact .some (.refl held)
      | none =>
          by_cases here : key = name
          · simpa [here] using Option.Rel.some inner
          · simp only [if_neg here, Option.none_or]
            cases after.lookup key with
            | none => exact .none
            | some held => exact .some (.refl held)
  | inElement inner before after ih => exact .none

theorem present {key : StdString} {value : Json}
    (reordered : Reordered json other) (found : json.find? key = some value) :
    ∃ held, other.find? key = some held ∧ Reordered value held := by
  have related := reordered.find? key
  rw [found] at related
  generalize other.find? key = there at related
  cases related with
  | some inner => exact ⟨_, rfl, inner⟩

theorem object {members : List (StdString × Json)}
    (reordered : Reordered json other) (shape : json = .object members) :
    ∃ others, other = .object others ∧ ∀ key value, (key, value) ∈ others →
      ∃ origin, (key, origin) ∈ members ∧ Reordered origin value := by
  induction reordered generalizing members with
  | refl value =>
      exact ⟨members, shape, fun key value listed => ⟨value, listed, .refl value⟩⟩
  | trans before after first second =>
      obtain ⟨between, rfl, one⟩ := first shape
      obtain ⟨others, rfl, two⟩ := second rfl
      refine ⟨others, rfl, fun key value listed => ?_⟩
      obtain ⟨middle, there, later⟩ := two key value listed
      obtain ⟨origin, here, earlier⟩ := one key middle there
      exact ⟨origin, here, .trans earlier later⟩
  | @members members others distinct permuted =>
      cases shape
      exact ⟨others, rfl, fun key value listed =>
        ⟨value, permuted.mem_iff.mpr listed, .refl value⟩⟩
  | @inMember old new inner before after name ih =>
      cases shape
      refine ⟨_, rfl, fun key value listed => ?_⟩
      rcases List.mem_append.mp listed with earlier | here
      · exact ⟨value, List.mem_append_left _ earlier, .refl value⟩
      · rcases List.mem_cons.mp here with same | later
        · cases same
          exact ⟨old, by simp, inner⟩
        · exact ⟨value, by simp [later], .refl value⟩
  | inElement inner before after ih => cases shape

theorem array {elements : List Json} (reordered : Reordered json other)
    (shape : json = .array elements) :
    ∃ others, other = .array others ∧ ∀ value ∈ others,
      ∃ origin ∈ elements, Reordered origin value := by
  induction reordered generalizing elements with
  | refl value =>
      exact ⟨elements, shape, fun value listed => ⟨value, listed, .refl value⟩⟩
  | trans before after first second =>
      obtain ⟨between, rfl, one⟩ := first shape
      obtain ⟨others, rfl, two⟩ := second rfl
      refine ⟨others, rfl, fun value listed => ?_⟩
      obtain ⟨middle, there, later⟩ := two value listed
      obtain ⟨origin, here, earlier⟩ := one middle there
      exact ⟨origin, here, .trans earlier later⟩
  | members distinct permuted => cases shape
  | inMember inner before after key ih => cases shape
  | @inElement old new inner before after ih =>
      cases shape
      refine ⟨_, rfl, fun value listed => ?_⟩
      rcases List.mem_append.mp listed with earlier | here
      · exact ⟨value, List.mem_append_left _ earlier, .refl value⟩
      · rcases List.mem_cons.mp here with rfl | later
        · exact ⟨old, by simp, inner⟩
        · exact ⟨value, by simp [later], .refl value⟩

def Scalar : Json → Prop
  | .object _ => False
  | .array _ => False
  | _ => True

theorem scalar (reordered : Reordered json other) (flat : Scalar json) :
    other = json := by
  induction reordered with
  | refl value => rfl
  | trans before after first second =>
      obtain rfl := first flat
      exact second flat
  | members distinct permuted => exact flat.elim
  | inMember inner before after key ih => exact flat.elim
  | inElement inner before after ih => exact flat.elim

theorem hasKeys {allowedKeys : List StdString}
    (reordered : Reordered json other) (keys : HasKeys json allowedKeys) :
    HasKeys other allowedKeys := by
  obtain ⟨members, shape, allowed⟩ := keys
  obtain ⟨others, rfl, origins⟩ := reordered.object shape
  refine ⟨others, rfl, fun member listed => ?_⟩
  obtain ⟨key, value⟩ := member
  obtain ⟨origin, held, inner⟩ := origins key value listed
  exact allowed (key, origin) held

end Reordered

end ZooKeeperServer.Json
