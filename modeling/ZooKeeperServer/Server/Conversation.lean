import Mathlib.Data.List.Chain
import ZooKeeperServer.Server.ApiTypes

namespace ZooKeeperServer

/-! The role rule of a conversation. -/

/-- A message of this role may come next: a tool message not as the first one,
another role not twice in a row. -/
def Admits (history : List ChatMessage) (role : MessageRole) : Prop :=
  match history.getLast? with
  | none => role ≠ .tool
  | some last => role = .tool ∨ role ≠ last.role

instance (history : List ChatMessage) (role : MessageRole) :
    Decidable (Admits history role) := by
  unfold Admits
  split <;> infer_instance

/-- `zoo::validate_role_sequence`, of which the server relies on the documented
rule; the text of the error is the library's. -/
structure RoleRule where
  validateRoleSequence : List ChatMessage → MessageRole → Except StdString Unit
  documented : ∀ history role,
    validateRoleSequence history role = .ok () ↔ Admits history role

def validateMessageSequence (rule : RoleRule) (history : List ChatMessage)
    (nextRole : MessageRole) : Except StdString Unit :=
  rule.validateRoleSequence history nextRole

/-- The documented rule itself. -/
def plainRule : RoleRule where
  validateRoleSequence history role :=
    if Admits history role then .ok ()
    else .error (literal "invalid message sequence")
  documented history role := by
    split
    · simpa
    · simpa

/-- Every message is admissible after its predecessors. -/
def WellOrdered (messages : List ChatMessage) : Prop :=
  ∀ before message after, messages = before ++ message :: after →
    Admits before message.role

/-- Every message is admissible where it stands when they come after the history. -/
def Continues (history messages : List ChatMessage) : Prop :=
  ∀ before message after, messages = before ++ message :: after →
    Admits (history ++ before) message.role

def Follows (message next : ChatMessage) : Prop :=
  next.role = .tool ∨ next.role ≠ message.role

instance (message next : ChatMessage) : Decidable (Follows message next) :=
  inferInstanceAs (Decidable (_ ∨ _))

section Rule

variable {messages history : List ChatMessage} {message : ChatMessage}
  {role : MessageRole}

@[simp] theorem admits_nil : Admits [] role ↔ role ≠ .tool := Iff.rfl

@[simp] theorem admits_concat :
    Admits (history ++ [message]) role ↔ role = .tool ∨ role ≠ message.role := by
  simp [Admits]

theorem validate_ok (rule : RoleRule) :
    validateMessageSequence rule history role = .ok () ↔ Admits history role :=
  rule.documented history role

@[simp] theorem wellOrdered_nil : WellOrdered [] := by
  intro before message after split
  simp at split

theorem wellOrdered_concat :
    WellOrdered (messages ++ [message]) ↔
      WellOrdered messages ∧ Admits messages message.role := by
  constructor
  · intro ordered
    refine ⟨fun before next after split => ?_, ordered messages message [] rfl⟩
    exact ordered before next (after ++ [message]) (by simp [split])
  · rintro ⟨ordered, admitted⟩ before next after split
    rcases List.eq_nil_or_concat after with rfl | ⟨rest, last, rfl⟩
    · obtain ⟨rfl, same⟩ := List.append_inj' split rfl
      exact List.singleton_inj.mp same ▸ admitted
    · have shifted : messages ++ [message] =
          (before ++ next :: rest) ++ [last] := by
        simpa using split
      exact ordered before next rest (List.append_inj' shifted rfl).1

@[simp] theorem continues_nil : Continues history [] := by
  intro before message after split
  simp at split

theorem continues_cons :
    Continues history (message :: messages) ↔
      Admits history message.role ∧ Continues (history ++ [message]) messages := by
  constructor
  · intro continues
    constructor
    · simpa using continues [] message messages rfl
    · intro before next after split
      have here := continues (message :: before) next after (by simp [split])
      simpa using here
  · rintro ⟨admitted, continues⟩ before next after split
    cases before with
    | nil =>
        obtain ⟨rfl, rfl⟩ := List.cons.inj split
        simpa using admitted
    | cons first rest =>
        obtain ⟨rfl, later⟩ := List.cons.inj split
        simpa using continues rest next after later

theorem wellOrdered_append :
    WellOrdered (history ++ messages) ↔
      WellOrdered history ∧ Continues history messages := by
  induction messages generalizing history with
  | nil => simp
  | cons message rest ih =>
      have regrouped : history ++ message :: rest =
          (history ++ [message]) ++ rest := by simp
      rw [regrouped, ih, wellOrdered_concat, continues_cons, and_assoc]

/-- The rule looks at neighbours only. -/
theorem wellOrdered_iff_chain :
    WellOrdered messages ↔
      (∀ front ∈ messages.head?, front.role ≠ .tool) ∧
        messages.IsChain Follows := by
  induction messages using List.reverseRecOn with
  | nil => simp
  | append_singleton earlier last ih =>
      rw [wellOrdered_concat, ih, List.isChain_append]
      rcases List.eq_nil_or_concat earlier with rfl | ⟨rest, before, rfl⟩
      · simp
      · have front : (rest ++ [before] ++ [last]).head? =
            (rest ++ [before]).head? := by
          cases rest <;> rfl
        rw [List.concat_eq_append, front, admits_concat]
        simp only [List.isChain_singleton,
          List.getLast?_concat, List.head?_cons, Option.mem_def,
          Option.some.injEq, forall_eq', true_and, Follows]
        tauto

instance (messages : List ChatMessage) : Decidable (WellOrdered messages) :=
  decidable_of_iff _ wellOrdered_iff_chain.symm

theorem wellOrdered_cons :
    WellOrdered (message :: messages) ↔
      message.role ≠ .tool ∧ (∀ next ∈ messages.head?, Follows message next) ∧
        messages.IsChain Follows := by
  rw [wellOrdered_iff_chain]
  simp only [List.head?_cons, Option.mem_def, Option.some.injEq, forall_eq']
  cases messages with
  | nil => simp
  | cons next rest => simp [List.isChain_cons_cons]

end Rule

end ZooKeeperServer
