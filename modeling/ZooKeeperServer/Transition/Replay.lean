import Mathlib.Data.List.Basic

namespace ZooKeeperServer.Transition

/-! A sequential object, and what its operations return when they are performed one
after another in a given order. -/

universe u v w

variable {State : Type u} {Operation : Type v} {Result : Type w}

section Orders

variable (perform : State → Operation → State × Result) (start : State)

/-- The state after the operations, each of which some client asks for. -/
def replay (order : List (Nat × Operation)) : State :=
  order.foldl (fun state entry => (perform state entry.2).1) start

def outcomes : State → List (Nat × Operation) → List (Nat × (State × Result))
  | _, [] => []
  | state, (client, operation) :: rest =>
      (client, perform state operation) ::
        outcomes (perform state operation).1 rest

end Orders

variable {perform : State → Operation → State × Result} {start : State}
  {order : List (Nat × Operation)} {client : Nat} {operation : Operation}

@[simp] theorem replay_concat :
    replay perform start (order ++ [(client, operation)]) =
      (perform (replay perform start order) operation).1 := by
  simp [replay]

@[simp] theorem outcomes_concat :
    outcomes perform start (order ++ [(client, operation)]) =
      outcomes perform start order ++
        [(client, perform (replay perform start order) operation)] := by
  induction order generalizing start with
  | nil => rfl
  | cons entry rest ih =>
      obtain ⟨other, earlier⟩ := entry
      simp only [List.cons_append, outcomes, ih]
      rfl

theorem mem_outcomes {outcome : State × Result} :
    (client, outcome) ∈ outcomes perform start order ↔
      ∃ earlier operation later,
        order = earlier ++ (client, operation) :: later ∧
          perform (replay perform start earlier) operation = outcome := by
  induction order generalizing start with
  | nil => simp [outcomes]
  | cons entry rest ih =>
      obtain ⟨other, first⟩ := entry
      simp only [outcomes, List.mem_cons, Prod.mk.injEq, ih]
      constructor
      · rintro (⟨rfl, rfl⟩ | ⟨earlier, operation, later, rfl, same⟩)
        · exact ⟨[], first, rest, rfl, rfl⟩
        · exact ⟨(other, first) :: earlier, operation, later, rfl, same⟩
      · rintro ⟨earlier, operation, later, shape, same⟩
        cases earlier with
        | nil =>
            cases shape
            exact .inl ⟨rfl, same.symm⟩
        | cons head earlier =>
            cases shape
            exact .inr ⟨earlier, operation, later, rfl, same⟩

end ZooKeeperServer.Transition
