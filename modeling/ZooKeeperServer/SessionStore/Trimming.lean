import ZooKeeperServer.Containers.LongestSuffix
import ZooKeeperServer.SessionStore.Conversations

namespace ZooKeeperServer.SessionStore

open Containers

/-! What `trim_history_to_fit` should keep, for every limit a `size_t` can hold, and
the one limit at which it does not. -/

def OpensWithSystem (messages : List ChatMessage) : Prop :=
  ∃ front, messages.head? = some front ∧ front.role = .system

theorem systemOffset_eq_one {messages : List ChatMessage} :
    systemOffset messages = 1 ↔ OpensWithSystem messages := by
  cases messages with
  | nil => simp [systemOffset, OpensWithSystem]
  | cons front rest => simp [systemOffset, OpensWithSystem]

theorem systemOffset_le (messages : List ChatMessage) :
    systemOffset messages ≤ 1 ∧ systemOffset messages ≤ messages.length := by
  cases messages with
  | nil => simp [systemOffset]
  | cons front rest =>
      simp only [systemOffset, List.length_cons]
      split
      · omega
      · omega

def afterSystem (messages : List ChatMessage) : List ChatMessage :=
  messages.drop (systemOffset messages)

def fromUser (message : ChatMessage) : Bool :=
  message.role = .user

/-- At most `limit` messages: none, or some that a user message begins. -/
def Retains (limit : Nat) (kept : List ChatMessage) : Prop :=
  kept.length ≤ limit ∧ StartsWith fromUser kept

structure TrimsExactly (messages : List ChatMessage) (limit : Nat) :
    Prop where
  inside : ∀ first last, trimRange messages limit = some (first, last) →
    systemOffset messages ≤ first ∧ first ≤ last ∧ last ≤ messages.length
  unchanged : (afterSystem messages).length ≤ limit →
    trimHistoryToFit messages limit = messages
  longest : limit < (afterSystem messages).length →
    ∃ kept, trimHistoryToFit messages limit =
        messages.take (systemOffset messages) ++ kept ∧
      LongestSuffix (Retains limit) kept (afterSystem messages)

/-- More messages than `ptrdiff_t` can count do not fit into a vector. -/
abbrev vectorLimit : Nat := 2 ^ 63

section Range

variable {messages : List ChatMessage} {limit : Nat}

/-- Where the sum does not wrap, the range is the one meant. -/
theorem trimRange_of_fits (fits : systemOffset messages + limit < sizeLimit)
    (sized : messages.length < sizeLimit) :
    trimRange messages limit =
      if messages.length ≤ systemOffset messages + limit then none
      else some (systemOffset messages,
        scanToUser (messages.drop (messages.length - limit))
          (messages.length - limit)) := by
  simp only [trimRange, Nat.mod_eq_of_lt fits]
  by_cases short : messages.length ≤ systemOffset messages + limit
  · rw [if_pos short, if_pos short]
  · have difference : (messages.length + sizeLimit - limit) % sizeLimit =
        messages.length - limit := by
      rw [show messages.length + sizeLimit - limit =
        messages.length - limit + sizeLimit by omega, Nat.add_mod_right]
      exact Nat.mod_eq_of_lt (by omega)
    have clamped : ¬ messages.length - limit < systemOffset messages := by
      omega
    have forward := (scanToUser_le (messages.drop (messages.length - limit))
      (messages.length - limit)).1
    rw [if_neg short, if_neg short, difference, if_neg clamped,
      if_neg (by omega)]

/-- The sum wraps to zero, and the difference to one more than there is. -/
theorem trimRange_of_wraps (opens : OpensWithSystem messages)
    (sized : messages.length + 1 < sizeLimit) :
    trimRange messages (sizeLimit - 1) = some (1, messages.length + 1) := by
  have offset := systemOffset_eq_one.mpr opens
  have filled := (systemOffset_le messages).2
  have wrapped : (1 + (sizeLimit - 1)) % sizeLimit = 0 := rfl
  have difference : (messages.length + sizeLimit - (sizeLimit - 1)) %
      sizeLimit = messages.length + 1 := by
    rw [show messages.length + sizeLimit - (sizeLimit - 1) =
      messages.length + 1 by omega]
    exact Nat.mod_eq_of_lt sized
  have beyond : messages.drop (messages.length + 1) = [] :=
    List.drop_eq_nil_of_le (by omega)
  have clamped : ¬ messages.length + 1 < 1 := by omega
  simp only [trimRange, offset, wrapped, difference, if_neg clamped, beyond,
    scanToUser]
  rw [if_neg (by omega), if_neg (by omega)]

end Range

section Exactness

variable {messages : List ChatMessage} {limit : Nat}

theorem length_afterSystem :
    (afterSystem messages).length =
      messages.length - systemOffset messages := by
  simp [afterSystem]

/-- The scan from the limit on keeps the longest end that may be kept. -/
theorem longestSuffix_scan
    (long : systemOffset messages + limit < messages.length) :
    LongestSuffix (Retains limit)
      (messages.drop (scanToUser (messages.drop (messages.length - limit))
        (messages.length - limit))) (afterSystem messages) := by
  have cut : (afterSystem messages).rtake limit =
      messages.drop (messages.length - limit) := by
    rw [List.rtake, length_afterSystem, afterSystem, List.drop_drop]
    congr 1
    omega
  have scanned : messages.drop
      (scanToUser (messages.drop (messages.length - limit))
        (messages.length - limit)) =
      ((afterSystem messages).rtake limit).dropWhile
        fun message => !fromUser message := by
    rw [drop_scanToUser rfl, cut]
    simp [fromUser]
  rw [scanned]
  exact longestSuffix_rtake fromUser (afterSystem messages) limit

theorem trimsExactly_of_fits
    (fits : systemOffset messages + limit < sizeLimit)
    (sized : messages.length < sizeLimit) : TrimsExactly messages limit := by
  have within := (systemOffset_le messages).2
  have range := trimRange_of_fits fits sized
  constructor
  · intro first last erased
    rw [range] at erased
    split at erased
    · contradiction
    · cases Option.some.inj erased
      have scan := scanToUser_le (messages.drop (messages.length - limit))
        (messages.length - limit)
      rw [List.length_drop] at scan
      omega
  · intro short
    rw [length_afterSystem] at short
    rw [trimHistoryToFit, range, if_pos (by omega)]
  · intro long
    rw [length_afterSystem] at long
    refine ⟨_, ?_, longestSuffix_scan (by omega)⟩
    have scan := scanToUser_le (messages.drop (messages.length - limit))
      (messages.length - limit)
    rw [List.length_drop] at scan
    rw [trimHistoryToFit, range, if_neg (by omega)]
    exact eraseRange_inside (by omega) (by omega)

/-- Trimming is exact for every list and every limit, but for the largest limit on
a list with a system message. -/
theorem trimsExactly_iff (sized : messages.length < vectorLimit)
    (limited : limit < sizeLimit) :
    TrimsExactly messages limit ↔
      ¬ (OpensWithSystem messages ∧ limit = sizeLimit - 1) := by
  have half : 2 * vectorLimit = sizeLimit := rfl
  constructor
  · rintro exact ⟨opens, rfl⟩
    have inside := exact.inside _ _ (trimRange_of_wraps opens (by omega))
    omega
  · intro other
    have offset := (systemOffset_le messages).1
    have fits : systemOffset messages + limit < sizeLimit := by
      by_cases opens : OpensWithSystem messages
      · have smaller : limit ≠ sizeLimit - 1 := fun same => other ⟨opens, same⟩
        omega
      · have none := mt systemOffset_eq_one.mp opens
        omega
    exact trimsExactly_of_fits fits (by omega)

end Exactness

def trimmedSample : List ChatMessage :=
  [.system [0x53], .user [0x55], .assistant [0x41]]

/-- The first exchange of a session with a system message. -/
theorem trim_past_the_end :
    trimRange trimmedSample (sizeLimit - 1) = some (1, 4) ∧
      ¬ TrimsExactly trimmedSample (sizeLimit - 1) :=
  ⟨by decide, fun exact => by
    have inside := exact.inside 1 4 (by decide)
    exact absurd inside.2.2 (by decide)⟩

theorem trimsExactly_sample : TrimsExactly trimmedSample 1 :=
  (trimsExactly_iff (by decide) (by decide)).mpr fun wraps =>
    absurd wraps.2 (by decide)

end ZooKeeperServer.SessionStore
