import ZooKeeperServer.Transition.Machine

namespace ZooKeeperServer.Transition

/-! Actors that take turns on a shared state.  Each of them relies on what the
turns of the others leave alone, and guarantees as much for its own. -/

universe u v w

variable {Shared : Type u} {Actor : Type v} {Input : Type w}

structure Crew (Shared : Type u) (Actor : Type v) where
  shared : Shared
  actors : List Actor

namespace Crew

def turn (act : Shared → Actor → Input → Option (Shared × Actor))
    (crew : Crew Shared Actor) (index : Nat) (input : Input) :
    Option (Crew Shared Actor) :=
  match crew.actors[index]? with
  | none => none
  | some actor =>
      (act crew.shared actor input).map fun (shared, actor) =>
        ⟨shared, crew.actors.set index actor⟩

def join (crew : Crew Shared Actor) (shared : Shared) (actor : Actor) :
    Crew Shared Actor :=
  ⟨shared, crew.actors ++ [actor]⟩

variable {act : Shared → Actor → Input → Option (Shared × Actor)}
  {crew next : Crew Shared Actor}

theorem turn_eq_some {index : Nat} {input : Input}
    (turned : crew.turn act index input = some next) :
    ∃ actor shared updated, crew.actors[index]? = some actor ∧
      act crew.shared actor input = some (shared, updated) ∧
      next = ⟨shared, crew.actors.set index updated⟩ := by
  unfold turn at turned
  split at turned
  · contradiction
  · rename_i actor found
    obtain ⟨⟨shared, updated⟩, acted, rfl⟩ := Option.map_eq_some_iff.mp turned
    exact ⟨actor, shared, updated, found, acted, rfl⟩

theorem getElem?_set_origin {actors : List Actor} {index other : Nat}
    {updated found : Actor}
    (at_ : (actors.set index updated)[other]? = some found) :
    (index = other ∧ updated = found) ∨
      (index ≠ other ∧ actors[other]? = some found) := by
  by_cases same : index = other
  · subst same
    rw [List.getElem?_set_self'] at at_
    obtain ⟨_, _, rfl⟩ := Option.map_eq_some_iff.mp at_
    exact .inl ⟨rfl, rfl⟩
  · rw [List.getElem?_set_ne same] at at_
    exact .inr ⟨same, at_⟩

theorem getElem?_join_origin {actors : List Actor} {other : Nat}
    {joined found : Actor} (at_ : (actors ++ [joined])[other]? = some found) :
    actors[other]? = some found ∨ (other = actors.length ∧ joined = found) := by
  rcases Nat.lt_or_ge other actors.length with before | beyond
  · rw [List.getElem?_append_left before] at at_
    exact .inl at_
  · rw [List.getElem?_append_right beyond, List.getElem?_singleton] at at_
    split at at_
    · exact .inr ⟨by omega, Option.some.inj at_⟩
    · contradiction

theorem between_set {Between : Actor → Actor → Prop} {actors : List Actor}
    {index : Nat} {updated : Actor}
    (left : ∀ (other : Nat) second, other ≠ index →
      actors[other]? = some second → Between updated second)
    (right : ∀ (other : Nat) first, other ≠ index →
      actors[other]? = some first → Between first updated)
    (rest : ∀ (one two : Nat) first second, one ≠ index → two ≠ index →
      one ≠ two → actors[one]? = some first → actors[two]? = some second →
      Between first second)
    (one two : Nat) (first second : Actor) (different : one ≠ two)
    (firstAt : (actors.set index updated)[one]? = some first)
    (secondAt : (actors.set index updated)[two]? = some second) :
    Between first second := by
  rcases getElem?_set_origin firstAt with ⟨rfl, rfl⟩ | ⟨elsewhere, firstBefore⟩
  · rcases getElem?_set_origin secondAt with ⟨same, _⟩ | ⟨_, secondBefore⟩
    · exact absurd same different
    · exact left two second (Ne.symm different) secondBefore
  · rcases getElem?_set_origin secondAt with ⟨rfl, rfl⟩ | ⟨beyond, secondBefore⟩
    · exact right one first (Ne.symm elsewhere) firstBefore
    · exact rest one two first second (Ne.symm elsewhere) (Ne.symm beyond)
        different firstBefore secondBefore

theorem between_join {Between : Actor → Actor → Prop} {actors : List Actor}
    {joined : Actor}
    (left : ∀ (other : Nat) second, actors[other]? = some second →
      Between joined second)
    (right : ∀ (other : Nat) first, actors[other]? = some first →
      Between first joined)
    (rest : ∀ (one two : Nat) first second, one ≠ two →
      actors[one]? = some first → actors[two]? = some second →
      Between first second)
    (one two : Nat) (first second : Actor) (different : one ≠ two)
    (firstAt : (actors ++ [joined])[one]? = some first)
    (secondAt : (actors ++ [joined])[two]? = some second) :
    Between first second := by
  rcases getElem?_join_origin firstAt with firstBefore | ⟨rfl, rfl⟩
  · rcases getElem?_join_origin secondAt with secondBefore | ⟨_, rfl⟩
    · exact rest one two first second different firstBefore secondBefore
    · exact right one first firstBefore
  · rcases getElem?_join_origin secondAt with secondBefore | ⟨rfl, _⟩
    · exact left two second secondBefore
    · exact absurd rfl different

/-- What holds of the shared state, of each actor against it, and between any
two actors. -/
structure Keeps (Global : Shared → Prop) (Local : Shared → Actor → Prop)
    (Apart : Actor → Actor → Prop) (crew : Crew Shared Actor) : Prop where
  shared : Global crew.shared
  each : ∀ (index : Nat) actor, crew.actors[index]? = some actor →
    Local crew.shared actor
  apart : ∀ (index other : Nat) first second, index ≠ other →
    crew.actors[index]? = some first → crew.actors[other]? = some second →
    Apart first second

variable {Global : Shared → Prop} {Local : Shared → Actor → Prop}
  {Apart : Actor → Actor → Prop}

/-- The rule for a turn: the acting actor restores its own part, and disturbs
nobody apart from it. -/
theorem Keeps.replace {index : Nat} {actor updated : Actor} {after : Shared}
    (keeps : crew.Keeps Global Local Apart)
    (found : crew.actors[index]? = some actor)
    (own : Global after ∧ Local after updated)
    (others : ∀ other, Apart actor other → Local crew.shared other →
      Local after other)
    (apart : ∀ other, Local crew.shared other →
      (Apart actor other → Apart updated other) ∧
        (Apart other actor → Apart other updated)) :
    Keeps Global Local Apart ⟨after, crew.actors.set index updated⟩ := by
  constructor
  · exact own.1
  · intro other held heldAt
    rcases getElem?_set_origin heldAt with ⟨_, rfl⟩ | ⟨different, before⟩
    · exact own.2
    · exact others held (keeps.apart index other actor held different found
        before) (keeps.each other held before)
  · refine between_set ?_ ?_ fun one two first second _ _ =>
      keeps.apart one two first second
    · intro other second different at_
      exact (apart second (keeps.each other second at_)).1
        (keeps.apart index other actor second (Ne.symm different) found at_)
    · intro other first different at_
      exact (apart first (keeps.each other first at_)).2
        (keeps.apart other index first actor different at_ found)

/-- The rule for an actor that joins. -/
theorem Keeps.join {shared : Shared} {joined : Actor}
    (keeps : crew.Keeps Global Local Apart) (global : Global shared)
    (own : Local shared joined)
    (others : ∀ actor, Local crew.shared actor → Local shared actor)
    (apart : ∀ actor, Local crew.shared actor →
      Apart actor joined ∧ Apart joined actor) :
    (crew.join shared joined).Keeps Global Local Apart := by
  constructor
  · exact global
  · intro index actor found
    rcases getElem?_join_origin found with before | ⟨_, rfl⟩
    · exact others actor (keeps.each index actor before)
    · exact own
  · refine between_join ?_ ?_ keeps.apart
    · intro other second at_
      exact (apart second (keeps.each other second at_)).2
    · intro other first at_
      exact (apart first (keeps.each other first at_)).1

end Crew

end ZooKeeperServer.Transition
