import Mathlib.Data.List.DropRight
import ZooKeeperServer.Server.ApiTypes

namespace ZooKeeperServer

def combineSystemPrompts (basePrompt requestPrompt : StdString) : StdString :=
  if basePrompt.isEmpty then requestPrompt
  else if requestPrompt.isEmpty then basePrompt
  else basePrompt ++ literal "\n\n" ++ requestPrompt

namespace SessionStore

/-! The conversation a session remembers. -/

def makeInitialHistory (basePrompt : StdString)
    (requestPrompt : Option StdString) : List ChatMessage :=
  let effectivePrompt :=
    combineSystemPrompts basePrompt (requestPrompt.getD [])
  if effectivePrompt.isEmpty then [] else [.system effectivePrompt]

abbrev sizeLimit : Nat := 2 ^ 64

def systemOffset : List ChatMessage → Nat
  | [] => 0
  | front :: _ => if front.role = .system then 1 else 0

/-- The scan for the next user message, over the messages from `eraseEnd`. -/
def scanToUser : List ChatMessage → Nat → Nat
  | [], eraseEnd => eraseEnd
  | message :: rest, eraseEnd =>
      if message.role = .user then eraseEnd
      else scanToUser rest (eraseEnd + 1)

/-- The index range handed to `vector::erase`, or `none` where the source
returns without erasing. -/
def trimRange (messages : List ChatMessage) (maxHistoryMessages : Nat) :
    Option (Nat × Nat) :=
  let offset := systemOffset messages
  if messages.length ≤ (offset + maxHistoryMessages) % sizeLimit then none
  else
    let difference :=
      (messages.length + sizeLimit - maxHistoryMessages) % sizeLimit
    let clamped := if difference < offset then offset else difference
    let eraseEnd := scanToUser (messages.drop clamped) clamped
    if eraseEnd ≤ offset then none else some (offset, eraseEnd)

/-- `vector::erase` moves what follows the range to the front of it and takes the
length of the range off the end.  A range that ends past the list is undefined
behaviour: nothing moves then, and the end goes back all the same. -/
def eraseRange (messages : List ChatMessage) (first last : Nat) :
    List ChatMessage :=
  (messages.take first ++ messages.drop last).take
    (messages.length - (last - first))

def trimHistoryToFit (messages : List ChatMessage)
    (maxHistoryMessages : Nat) : List ChatMessage :=
  match trimRange messages maxHistoryMessages with
  | none => messages
  | some (first, last) => eraseRange messages first last

theorem eraseRange_inside {messages : List ChatMessage} {first last : Nat}
    (ordered : first ≤ last) (inside : last ≤ messages.length) :
    eraseRange messages first last =
      messages.take first ++ messages.drop last := by
  unfold eraseRange
  apply List.take_of_length_le
  rw [List.length_append, List.length_take, List.length_drop]
  omega

/-- A committed exchange: the user message of the request and the reply. -/
structure Turn where
  user : ChatMessage
  text : StdString
  deriving DecidableEq, Repr

def Turn.messages (turn : Turn) : List ChatMessage :=
  [turn.user, .assistant turn.text]

def turnMessages (turns : List Turn) : List ChatMessage :=
  turns.flatMap Turn.messages

@[simp] theorem turnMessages_nil : turnMessages [] = [] := rfl

@[simp] theorem turnMessages_cons (turn : Turn) (turns : List Turn) :
    turnMessages (turn :: turns) =
      turn.user :: .assistant turn.text :: turnMessages turns := rfl

@[simp] theorem turnMessages_append (first second : List Turn) :
    turnMessages (first ++ second) =
      turnMessages first ++ turnMessages second := by
  simp [turnMessages]

@[simp] theorem length_turnMessages (turns : List Turn) :
    (turnMessages turns).length = 2 * turns.length := by
  induction turns with
  | nil => rfl
  | cons turn turns ih => simp [ih]; omega

/-- What a fresh session starts from: nothing, or one system message. -/
def Initial (messages : List ChatMessage) : Prop :=
  messages = [] ∨ ∃ prompt, messages = [.system prompt]

theorem makeInitialHistory_initial (basePrompt : StdString)
    (requestPrompt : Option StdString) :
    Initial (makeInitialHistory basePrompt requestPrompt) := by
  simp only [makeInitialHistory]
  split
  · exact .inl rfl
  · exact .inr ⟨_, rfl⟩

theorem systemOffset_initial_append {initial : List ChatMessage}
    (fresh : Initial initial) {turn : Turn} {rest : List ChatMessage}
    (fromUser : turn.user.role = .user) :
    systemOffset (initial ++ turn.user :: rest) = initial.length := by
  rcases fresh with rfl | ⟨prompt, rfl⟩
  · simp [systemOffset, fromUser]
  · simp [systemOffset]

theorem scanToUser_turnMessages {turns : List Turn}
    (fromUsers : ∀ turn ∈ turns, turn.user.role = .user) (eraseEnd : Nat) :
    scanToUser (turnMessages turns) eraseEnd = eraseEnd := by
  cases turns with
  | nil => rfl
  | cons turn turns => simp [scanToUser, fromUsers turn (by simp)]

theorem drop_after_turn (initial : List ChatMessage) (turn : Turn)
    (turns : List Turn) :
    (initial ++ turnMessages (turn :: turns)).drop (initial.length + 2) =
      turnMessages turns := by
  rw [List.drop_append]
  simp

theorem trim_of_fits {initial : List ChatMessage} {turns : List Turn}
    {limit : Nat} (fresh : Initial initial)
    (fromUsers : ∀ turn ∈ turns, turn.user.role = .user)
    (bounded : limit + 1 < sizeLimit) (fits : 2 * turns.length ≤ limit) :
    trimHistoryToFit (initial ++ turnMessages turns) limit =
      initial ++ turnMessages turns := by
  have offset : initial.length ≤ systemOffset (initial ++ turnMessages turns) ∧
      systemOffset (initial ++ turnMessages turns) ≤ 1 := by
    cases turns with
    | nil =>
        rcases fresh with rfl | ⟨prompt, rfl⟩ <;> simp [systemOffset]
    | cons turn turns =>
        rw [turnMessages_cons, systemOffset_initial_append fresh
          (fromUsers turn (by simp))]
        rcases fresh with rfl | ⟨prompt, rfl⟩ <;> simp
  have kept : trimRange (initial ++ turnMessages turns) limit = none := by
    unfold trimRange
    rw [if_pos]
    rw [Nat.mod_eq_of_lt (by omega), List.length_append, length_turnMessages]
    omega
  simp [trimHistoryToFit, kept]

/-- One turn too many, and exactly the oldest turn goes. -/
theorem trim_of_overflow {initial : List ChatMessage} {oldest : Turn}
    {turns : List Turn} {limit : Nat} (fresh : Initial initial)
    (fromUsers : ∀ turn ∈ oldest :: turns, turn.user.role = .user)
    (bounded : limit + 1 < sizeLimit) (fits : 2 * turns.length ≤ limit)
    (overflows : limit < 2 * turns.length + 2) :
    trimHistoryToFit (initial ++ turnMessages (oldest :: turns)) limit =
      initial ++ turnMessages turns := by
  have offset : systemOffset (initial ++ turnMessages (oldest :: turns)) =
      initial.length :=
    systemOffset_initial_append fresh (fromUsers oldest (by simp))
  have short : initial.length ≤ 1 := by
    rcases fresh with rfl | ⟨prompt, rfl⟩ <;> simp
  have length : (initial ++ turnMessages (oldest :: turns)).length =
      initial.length + 2 * turns.length + 2 := by
    rw [List.length_append, length_turnMessages, List.length_cons]
    omega
  have difference : (initial.length + 2 * turns.length + 2 + sizeLimit - limit) %
      sizeLimit = initial.length + 2 * turns.length + 2 - limit := by
    rw [show initial.length + 2 * turns.length + 2 + sizeLimit - limit =
      initial.length + 2 * turns.length + 2 - limit + sizeLimit by omega,
      Nat.add_mod_right]
    exact Nat.mod_eq_of_lt (by simp only [sizeLimit]; omega)
  have scanned (clamped : Nat) (near : clamped = initial.length + 1 ∨
      clamped = initial.length + 2) :
      scanToUser ((initial ++ turnMessages (oldest :: turns)).drop clamped)
        clamped = initial.length + 2 := by
    have rest := scanToUser_turnMessages
      (fun turn member => fromUsers turn (List.mem_cons_of_mem _ member))
      (initial.length + 2)
    rcases near with rfl | rfl
    · rw [List.drop_append, List.drop_eq_nil_of_le (by omega)]
      simpa [scanToUser] using rest
    · rwa [drop_after_turn]
  have range : trimRange (initial ++ turnMessages (oldest :: turns)) limit =
      some (initial.length, initial.length + 2) := by
    have tooLong : ¬ (initial ++ turnMessages (oldest :: turns)).length ≤
        (initial.length + limit) % sizeLimit := by
      rw [Nat.mod_eq_of_lt (by omega), length]
      omega
    have clamped : ¬ initial.length + 2 * turns.length + 2 - limit <
        initial.length := by
      omega
    simp only [trimRange, offset, if_neg tooLong]
    rw [length, difference, if_neg clamped, scanned _ (by omega),
      if_neg (by omega)]
  rw [trimHistoryToFit, range]
  simp only
  rw [eraseRange_inside (by omega) (by rw [length]; omega), drop_after_turn,
    List.take_left]

/-- A session that remembers the last `limit / 2` turns still does after one
more turn is appended and the history trimmed. -/
theorem trim_commit {initial : List ChatMessage} {turns : List Turn}
    {turn : Turn} {limit : Nat} (fresh : Initial initial)
    (fromUsers : ∀ previous ∈ turns, previous.user.role = .user)
    (fromUser : turn.user.role = .user) (bounded : limit + 1 < sizeLimit) :
    trimHistoryToFit
        (initial ++ turnMessages (turns.rtake (limit / 2)) ++ turn.messages)
        limit =
      initial ++ turnMessages ((turns ++ [turn]).rtake (limit / 2)) := by
  have shape : initial ++ turnMessages (turns.rtake (limit / 2)) ++
      turn.messages =
      initial ++ turnMessages (turns.rtake (limit / 2) ++ [turn]) := by
    simp [Turn.messages]
  have users : ∀ previous ∈ turns.rtake (limit / 2) ++ [turn],
      previous.user.role = .user := by
    intro previous member
    rcases List.mem_append.mp member with earlier | last
    · exact fromUsers previous (List.mem_of_mem_drop earlier)
    · exact List.mem_singleton.mp last ▸ fromUser
  have length : (turns.rtake (limit / 2)).length =
      min turns.length (limit / 2) := by
    simp only [List.rtake, List.length_drop]
    omega
  rw [shape]
  by_cases room : turns.length < limit / 2
  · rw [trim_of_fits fresh users bounded (by simp [length]; omega)]
    simp only [List.rtake, List.length_append, List.length_singleton]
    rw [show turns.length - limit / 2 = 0 by omega,
      show turns.length + 1 - limit / 2 = 0 by omega]
    rfl
  · have dropped : turns.rtake (limit / 2) ++ [turn] =
        (turns ++ [turn]).drop (turns.length - limit / 2) := by
      rw [List.rtake, List.drop_append_of_le_length (by omega)]
    obtain ⟨oldest, recent, split⟩ :
        ∃ oldest recent, turns.rtake (limit / 2) ++ [turn] =
          oldest :: recent := by
      cases equation : turns.rtake (limit / 2) ++ [turn] with
      | nil => simp at equation
      | cons oldest recent => exact ⟨oldest, recent, rfl⟩
    have recentLength : recent.length = limit / 2 := by
      have total := congrArg List.length split
      simp only [List.length_append, length, List.length_cons,
        List.length_nil] at total
      omega
    have kept : (turns ++ [turn]).rtake (limit / 2) = recent := by
      have next := congrArg List.tail (dropped.symm.trans split)
      rw [List.tail_drop] at next
      rw [List.rtake, List.length_append, List.length_singleton,
        show turns.length + 1 - limit / 2 = turns.length - limit / 2 + 1 by
          omega]
      exact next
    rw [split] at users ⊢
    rw [trim_of_overflow fresh users bounded (by omega) (by omega), kept]

end SessionStore

end ZooKeeperServer
