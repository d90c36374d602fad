import Mathlib.Algebra.Order.Group.Nat
import ZooKeeperServer.Transition.Machine

namespace ZooKeeperServer.Transition

/-! Machines that run down: their own steps take something from a rank, to which only
some of the other ones add. -/

universe u v

variable {State : Type u} {Label : Type v}

structure Ranked (step : State → Label → Option State)
    (Invariant : State → Prop) (rank : State → Nat) (own grants : Label → Bool) :
    Prop where
  kept : ∀ {state label next}, Invariant state →
    step state label = some next → Invariant next
  spends : ∀ {state label next}, Invariant state →
    step state label = some next →
    rank next + (if own label then 1 else 0) ≤
      rank state + (if grants label then 1 else 0)

theorem Ranked.spent {step : State → Label → Option State}
    {Invariant : State → Prop} {rank : State → Nat} {own grants : Label → Bool}
    {start final : State} {schedule : List Label}
    (ranked : Ranked step Invariant rank own grants) (holds : Invariant start)
    (ran : run step start schedule = some final) :
    rank final + schedule.countP own ≤ rank start + schedule.countP grants := by
  induction schedule generalizing start with
  | nil =>
      obtain rfl := Option.some.inj ran
      exact le_rfl
  | cons label rest ih =>
      obtain ⟨next, stepped, finished⟩ := run_cons.mp ran
      have here := ranked.spends holds stepped
      have there := ih (ranked.kept holds stepped) finished
      simp only [List.countP_cons]
      omega

end ZooKeeperServer.Transition
