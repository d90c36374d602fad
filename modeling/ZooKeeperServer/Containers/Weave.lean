import Mathlib.Data.List.Basic

namespace ZooKeeperServer.Containers

/-! Two lists taken from in turn, each in its own order. -/

variable {α : Type}

inductive Weave : List α → List α → List α → Prop
  | done : Weave [] [] []
  | left (item : α) {left right woven : List α} (rest : Weave left right woven) :
      Weave (item :: left) right (item :: woven)
  | right (item : α) {left right woven : List α} (rest : Weave left right woven) :
      Weave left (item :: right) (item :: woven)

namespace Weave

variable {left right woven items : List α}

theorem left_only (items : List α) : Weave items [] items := by
  induction items with
  | nil => exact .done
  | cons item rest ih => exact .left item ih

theorem right_only (items : List α) : Weave [] items items := by
  induction items with
  | nil => exact .done
  | cons item rest ih => exact .right item ih

theorem eq_right (weave : Weave [] right woven) : woven = right := by
  induction right generalizing woven with
  | nil =>
      cases weave
      rfl
  | cons item rest ih =>
      cases weave with
      | right _ weave => rw [ih weave]

theorem append {moreLeft moreRight moreWoven : List α}
    (weave : Weave left right woven)
    (more : Weave moreLeft moreRight moreWoven) :
    Weave (left ++ moreLeft) (right ++ moreRight) (woven ++ moreWoven) := by
  induction weave with
  | done => exact more
  | left item _ ih => exact .left item ih
  | right item _ ih => exact .right item ih

theorem perm (weave : Weave left right woven) : woven.Perm (left ++ right) := by
  induction weave with
  | done => exact .nil
  | left item _ ih => exact ih.cons item
  | right item _ ih => exact (ih.cons item).trans List.perm_middle.symm

end Weave

end ZooKeeperServer.Containers
