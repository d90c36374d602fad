import Mathlib.Data.List.Flatten
import ZooKeeperServer.Transition.Replay

namespace ZooKeeperServer.Transition

/-! An order of operations that grows in two ways.  An operation comes at the end,
or, when it works on something that has been taken away meanwhile, just before the
operation that took it away. -/

universe u v w x

variable {State : Type u} {Operation : Type v} {Result : Type w} {Token : Type x}

/-- What a client's operation takes away, and the operations put before it. -/
structure Slot (Operation : Type v) (Token : Type x) where
  late : List (Nat × Operation) := []
  entry : Nat × Operation
  drops : List Token := []

def Slot.order (slot : Slot Operation Token) : List (Nat × Operation) :=
  slot.late ++ [slot.entry]

def lineUp (trace : List (Slot Operation Token)) : List (Nat × Operation) :=
  trace.flatMap Slot.order

def insertLate [DecidableEq Token] (token : Token) (entry : Nat × Operation) :
    List (Slot Operation Token) → List (Slot Operation Token)
  | [] => []
  | slot :: rest =>
      if token ∈ slot.drops then
        { slot with late := slot.late ++ [entry] } :: rest
      else slot :: insertLate token entry rest

section Semantics

variable (perform : State → Operation → State × Result)

def replies : State → List (Nat × Operation) → List ((Nat × Operation) × Result)
  | _, [] => []
  | state, entry :: rest =>
      (entry, (perform state entry.2).2) ::
        replies (perform state entry.2).1 rest

def Taken [DecidableEq Token] (token : Token)
    (Holds : State → Operation → Prop) :
    State → List (Slot Operation Token) → Prop
  | _, [] => False
  | state, slot :: rest =>
      if token ∈ slot.drops then
        Holds (replay perform state slot.late) slot.entry.2
      else Taken token Holds (replay perform state slot.order) rest

/-- Nobody can tell whether the operation came before this one. -/
def Absorbed (operation : Operation) (state : State) (last : Operation) : Prop :=
  perform (perform state operation).1 last = perform state last

end Semantics

section Orders

variable {perform : State → Operation → State × Result} {start : State}
  {first second order : List (Nat × Operation)} {entry : Nat × Operation}

theorem replay_append :
    replay perform start (first ++ second) =
      replay perform (replay perform start first) second :=
  List.foldl_append

theorem replies_append :
    replies perform start (first ++ second) =
      replies perform start first ++
        replies perform (replay perform start first) second := by
  induction first generalizing start with
  | nil => rfl
  | cons head rest ih =>
      simp only [List.cons_append, replies, ih]
      rfl

@[simp] theorem replies_entries :
    (replies perform start order).map Prod.fst = order := by
  induction order generalizing start with
  | nil => rfl
  | cons head rest ih => simp [replies, ih]

theorem replies_concat :
    replies perform start (order ++ [entry]) =
      replies perform start order ++
        [(entry, (perform (replay perform start order) entry.2).2)] :=
  replies_append

end Orders

section Traces

variable {trace more : List (Slot Operation Token)}
  {slot : Slot Operation Token} {entry : Nat × Operation}

@[simp] theorem lineUp_nil : lineUp ([] : List (Slot Operation Token)) = [] := rfl

@[simp] theorem lineUp_cons :
    lineUp (slot :: trace) = slot.order ++ lineUp trace := rfl

theorem lineUp_append : lineUp (trace ++ more) = lineUp trace ++ lineUp more :=
  List.flatMap_append

@[simp] theorem lineUp_concat :
    lineUp (trace ++ [slot]) = lineUp trace ++ slot.order := by
  rw [lineUp_append, lineUp_cons, lineUp_nil, List.append_nil]

variable [DecidableEq Token] {token : Token}

theorem insertLate_drops :
    (insertLate token entry trace).map Slot.drops = trace.map Slot.drops := by
  induction trace with
  | nil => rfl
  | cons slot rest ih =>
      unfold insertLate
      split
      · rfl
      · simp [ih]

theorem insertLate_length :
    (insertLate token entry trace).length = trace.length := by
  have same : (insertLate token entry trace).map Slot.drops =
      trace.map Slot.drops := insertLate_drops
  simpa using congrArg List.length same

theorem take_insertLate (count : Nat) :
    (insertLate token entry trace).take count =
      insertLate token entry (trace.take count) := by
  induction trace generalizing count with
  | nil => simp [insertLate]
  | cons slot rest ih =>
      cases count with
      | zero => rfl
      | succ count =>
          by_cases drops : token ∈ slot.drops
          · simp [insertLate, drops]
          · simp [insertLate, drops, ih]

theorem mem_lineUp_insertLate {other : Nat × Operation}
    (member : other ∈ lineUp (insertLate token entry trace)) :
    other ∈ lineUp trace ∨
      other = entry ∧ ∃ slot ∈ trace, token ∈ slot.drops := by
  induction trace with
  | nil => cases member
  | cons slot rest ih =>
      by_cases drops : token ∈ slot.drops
      · simp only [insertLate, if_pos drops, lineUp_cons, Slot.order,
          List.mem_append, List.mem_singleton] at member ⊢
        rcases member with ((earlier | same) | last) | later
        · exact .inl (.inl (.inl earlier))
        · exact .inr ⟨same, slot, List.mem_cons_self, drops⟩
        · exact .inl (.inl (.inr last))
        · exact .inl (.inr later)
      · simp only [insertLate, if_neg drops, lineUp_cons,
          List.mem_append] at member ⊢
        rcases member with here | later
        · exact .inl (.inl here)
        · rcases ih later with before | ⟨same, other, among, taken⟩
          · exact .inl (.inr before)
          · exact .inr ⟨same, other, List.mem_cons_of_mem _ among, taken⟩

theorem lineUp_subset_insertLate :
    lineUp trace ⊆ lineUp (insertLate token entry trace) := by
  induction trace with
  | nil => exact List.nil_subset _
  | cons slot rest ih =>
      intro other member
      by_cases drops : token ∈ slot.drops
      · simp only [insertLate, if_pos drops, lineUp_cons, Slot.order,
          List.mem_append] at member ⊢
        tauto
      · simp only [insertLate, if_neg drops, lineUp_cons,
          List.mem_append] at member ⊢
        exact member.imp_right (@ih other)

end Traces

section Late

variable [DecidableEq Token] {perform : State → Operation → State × Result}
  {start : State} {trace more : List (Slot Operation Token)} {token other : Token}
  {Holds Others : State → Operation → Prop} {client : Nat} {operation : Operation}

theorem Taken.mono (taken : Taken perform token Holds start trace)
    (weaker : ∀ state last, Holds state last → Others state last) :
    Taken perform token Others start trace := by
  induction trace generalizing start with
  | nil => exact taken
  | cons slot rest ih =>
      unfold Taken at taken ⊢
      split
      · rename_i drops
        rw [if_pos drops] at taken
        exact weaker _ _ taken
      · rename_i keeps
        rw [if_neg keeps] at taken
        exact ih taken

theorem Taken.append (taken : Taken perform token Holds start trace) :
    Taken perform token Holds start (trace ++ more) := by
  induction trace generalizing start with
  | nil => exact taken.elim
  | cons slot rest ih =>
      unfold Taken at taken
      rw [List.cons_append, Taken]
      by_cases drops : token ∈ slot.drops
      · rwa [if_pos drops] at taken ⊢
      · rw [if_neg drops] at taken ⊢
        exact ih taken

theorem taken_concat {last : Nat × Operation} {drops : List Token}
    (kept : ∀ slot ∈ trace, token ∉ slot.drops) (dropped : token ∈ drops)
    (holds : Holds (replay perform start (lineUp trace)) last.2) :
    Taken perform token Holds start
      (trace ++ [{ entry := last, drops }]) := by
  induction trace generalizing start with
  | nil =>
      rw [List.nil_append, Taken, if_pos dropped]
      exact holds
  | cons slot rest ih =>
      rw [List.cons_append, Taken,
        if_neg (kept slot List.mem_cons_self)]
      refine ih (fun slot member => kept slot (List.mem_cons_of_mem _ member)) ?_
      rwa [lineUp_cons, replay_append] at holds

/-- An operation that is absorbed leaves no trace but its own result. -/
theorem replay_insertLate
    (taken : Taken perform token (Absorbed perform operation) start trace) :
    replay perform start (lineUp (insertLate token (client, operation) trace)) =
      replay perform start (lineUp trace) := by
  induction trace generalizing start with
  | nil => rfl
  | cons slot rest ih =>
      unfold Taken at taken
      by_cases drops : token ∈ slot.drops
      · rw [if_pos drops] at taken
        simp only [insertLate, if_pos drops, lineUp_cons, Slot.order,
          replay_append]
        exact congrArg (fun outcome => replay perform outcome.1 (lineUp rest)) taken
      · rw [if_neg drops] at taken
        simp only [insertLate, if_neg drops, lineUp_cons, replay_append]
        exact ih taken

theorem replies_insertLate {result : Result}
    (taken : Taken perform token
      (fun state last => Absorbed perform operation state last ∧
        (perform state operation).2 = result) start trace) :
    (replies perform start
        (lineUp (insertLate token (client, operation) trace))).Perm
      (((client, operation), result) ::
        replies perform start (lineUp trace)) := by
  induction trace generalizing start with
  | nil => exact taken.elim
  | cons slot rest ih =>
      unfold Taken at taken
      by_cases drops : token ∈ slot.drops
      · rw [if_pos drops] at taken
        obtain ⟨absorbed, rfl⟩ := taken
        have same :
            replies perform
                (perform (replay perform start slot.late) operation).1
                (slot.entry :: lineUp rest) =
              replies perform (replay perform start slot.late)
                (slot.entry :: lineUp rest) := by
          simp only [replies]
          rw [absorbed]
        have before : lineUp (slot :: rest) =
            slot.late ++ (slot.entry :: lineUp rest) := by
          simp [Slot.order]
        have after : lineUp (insertLate token (client, operation)
              (slot :: rest)) =
            slot.late ++ ((client, operation) :: slot.entry :: lineUp rest) := by
          simp [insertLate, drops, Slot.order]
        rw [before, after, replies_append, replies_append, replies, same]
        exact List.perm_middle
      · rw [if_neg drops] at taken
        simp only [insertLate, if_neg drops, lineUp_cons, replies_append]
        exact ((ih taken).append_left _).trans List.perm_middle

theorem Taken.insertLate_same
    (taken : Taken perform token
      (fun state last => Holds (perform state operation).1 last) start trace) :
    Taken perform token Holds start
      (insertLate token (client, operation) trace) := by
  induction trace generalizing start with
  | nil => exact taken
  | cons slot rest ih =>
      unfold Taken at taken
      by_cases drops : token ∈ slot.drops
      · rw [if_pos drops] at taken
        rw [insertLate, if_pos drops, Taken, if_pos drops, replay_append]
        exact taken
      · rw [if_neg drops] at taken
        rw [insertLate, if_neg drops, Taken, if_neg drops]
        exact ih taken

theorem Taken.insertLate_other
    (absorbed : Taken perform token (Absorbed perform operation) start trace)
    (kept : ∀ state last, Holds state last →
      Holds (perform state operation).1 last)
    (taken : Taken perform other Holds start trace) :
    Taken perform other Holds start
      (insertLate token (client, operation) trace) := by
  induction trace generalizing start with
  | nil => exact taken
  | cons slot rest ih =>
      unfold Taken at absorbed taken
      by_cases drops : token ∈ slot.drops
      · rw [if_pos drops] at absorbed
        rw [insertLate, if_pos drops, Taken]
        by_cases both : other ∈ slot.drops
        · rw [if_pos both] at taken ⊢
          rw [replay_append]
          exact kept _ _ taken
        · rw [if_neg both] at taken ⊢
          have same : replay perform start
              ((slot.late ++ [(client, operation)]) ++ [slot.entry]) =
              replay perform start slot.order := by
            simp only [Slot.order, replay_append]
            exact congrArg Prod.fst absorbed
          rw [Slot.order, same]
          exact taken
      · rw [if_neg drops] at absorbed
        rw [insertLate, if_neg drops, Taken]
        by_cases both : other ∈ slot.drops
        · rwa [if_pos both] at taken ⊢
        · rw [if_neg both] at taken ⊢
          exact ih absorbed taken

end Late

end ZooKeeperServer.Transition
