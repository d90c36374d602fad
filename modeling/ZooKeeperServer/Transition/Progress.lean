import Mathlib.Order.WellFounded

namespace ZooKeeperServer.Transition

/-! A process that is only ever idle or on its way: when each step it takes lowers a
rank, it cannot stay where the rank is defined and idle only now and then. -/

universe u

variable {Rank : Type u} [Preorder Rank]

/-- Idle steps keep the rank from growing, all others lower it. -/
structure Descends (Stays Idle : Nat → Prop) (rank : Nat → Rank)
    (first : Nat) : Prop where
  holds : ∀ n, first ≤ n → Stays n → rank (n + 1) ≤ rank n
  falls : ∀ n, first ≤ n → Stays n → ¬ Idle n → rank (n + 1) < rank n

namespace Descends

variable {Stays Idle : Nat → Prop} {rank : Nat → Rank} {first : Nat}

theorem antitone (descends : Descends Stays Idle rank first)
    (stays : ∀ n, first ≤ n → Stays n) {early late : Nat}
    (later : first ≤ early) (order : early ≤ late) :
    rank late ≤ rank early := by
  induction late, order using Nat.le_induction with
  | base => exact le_refl _
  | succ late order ih =>
      have reached : first ≤ late := le_trans later order
      exact le_trans (descends.holds late reached (stays late reached)) ih

theorem leaves [WellFoundedLT Rank] (descends : Descends Stays Idle rank first)
    (moves : ∀ n, ∃ m, n ≤ m ∧ ¬ Idle m) : ∃ n, first ≤ n ∧ ¬ Stays n := by
  by_contra never
  have stays : ∀ n, first ≤ n → Stays n := by
    intro n later
    by_contra left
    exact never ⟨n, later, left⟩
  -- From any point on there is a step that lowers the rank below its value there.
  have exhausted : ∀ bound, ∀ n, first ≤ n → rank n ≤ bound → False := by
    intro bound
    induction bound using WellFoundedLT.induction with
    | ind bound ih =>
        intro n later below
        obtain ⟨m, order, moving⟩ := moves n
        have reached : first ≤ m := le_trans later order
        have lower : rank (m + 1) < bound :=
          lt_of_lt_of_le (descends.falls m reached (stays m reached) moving)
            (le_trans (descends.antitone stays later order) below)
        exact ih (rank (m + 1)) lower (m + 1) (by omega) (le_refl _)
  exact exhausted (rank first) first (le_refl _) (le_refl _)

end Descends

end ZooKeeperServer.Transition
