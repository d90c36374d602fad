import Mathlib.Data.List.Basic

namespace EventStream

/-! A stream of frames, each ended by a blank line. -/

abbrev Bytes := List UInt8

def blankLine : Bytes := [0x0a, 0x0a]

/-- The pieces between the blank lines of a text. -/
def split : Bytes → List Bytes
  | [] => []
  | 0x0a :: 0x0a :: rest => [] :: split rest
  | byte :: rest =>
      match split rest with
      | [] => [[byte]]
      | piece :: others => (byte :: piece) :: others

variable {body rest : Bytes}

theorem split_append (plain : (0x0a : UInt8) ∉ body) :
    split (body ++ blankLine ++ rest) = body :: split rest := by
  induction body with
  | nil => rfl
  | cons byte body ih =>
      obtain ⟨here, later⟩ := List.ne_and_not_mem_of_not_mem_cons plain
      rw [List.cons_append, List.cons_append, split]
      · rw [ih later]
      · intro more newline
        exact absurd newline.symm here

/-- Frames that are sent one after the other come apart again. -/
theorem split_flatMap {bodies : List Bytes}
    (plain : ∀ body ∈ bodies, (0x0a : UInt8) ∉ body) :
    split (bodies.flatMap (· ++ blankLine)) = bodies := by
  induction bodies with
  | nil => rfl
  | cons body bodies ih =>
      have later : ∀ other ∈ bodies, (0x0a : UInt8) ∉ other :=
        fun other listed => plain other (List.mem_cons_of_mem _ listed)
      rw [List.flatMap_cons, split_append (plain body (by simp)), ih later]

theorem blankLine_last {before after : Bytes} (plain : (0x0a : UInt8) ∉ body)
    (found : body ++ blankLine = before ++ blankLine ++ after) : after = [] := by
  rw [List.append_assoc] at found
  rcases List.append_eq_append_iff.mp found with
    ⟨more, -, ended⟩ | ⟨more, rfl, ended⟩
  · have sizes := congrArg List.length ended
    simp only [blankLine, List.length_append, List.length_cons, List.length_nil]
      at sizes
    exact List.eq_nil_of_length_eq_zero (by omega)
  · cases more with
    | nil => exact List.append_right_eq_self.mp ended
    | cons byte more =>
        obtain ⟨rfl, -⟩ := List.cons.inj ended
        exact absurd (by simp) plain

/-- The frames that are whole, and the bytes after the last of them. -/
structure Arrived where
  frames : List Bytes := []
  pending : Bytes := []
  deriving DecidableEq

namespace Arrived

variable {arrived : Arrived} {bodies frames : List Bytes} {bytes : Bytes}

/-- The second of two line feeds ends a frame. -/
def push (arrived : Arrived) (byte : UInt8) : Arrived :=
  if byte = 0x0a ∧ arrived.pending.getLast? = some 0x0a then
    ⟨arrived.frames ++ [arrived.pending.dropLast], []⟩
  else { arrived with pending := arrived.pending ++ [byte] }

def feed (arrived : Arrived) (bytes : Bytes) : Arrived :=
  bytes.foldl push arrived

theorem feed_append (arrived : Arrived) (bytes rest : Bytes) :
    arrived.feed (bytes ++ rest) = (arrived.feed bytes).feed rest :=
  List.foldl_append

/-- It makes no difference in what pieces the bytes arrive. -/
theorem feed_flatten (arrived : Arrived) (pieces : List Bytes) :
    pieces.foldl feed arrived = arrived.feed pieces.flatten := by
  induction pieces generalizing arrived with
  | nil => rfl
  | cons piece pieces ih =>
      rw [List.foldl_cons, ih, List.flatten_cons, feed_append]

theorem frames_push (arrived : Arrived) (byte : UInt8) :
    arrived.frames <+: (arrived.push byte).frames := by
  unfold push
  split
  · exact List.prefix_append _ _
  · exact List.prefix_refl _

theorem frames_feed (arrived : Arrived) (bytes : Bytes) :
    arrived.frames <+: (arrived.feed bytes).frames := by
  induction bytes generalizing arrived with
  | nil => exact List.prefix_refl _
  | cons byte bytes ih => exact (frames_push arrived byte).trans (ih _)

theorem feed_plain (plain : (0x0a : UInt8) ∉ body) :
    arrived.feed body = { arrived with pending := arrived.pending ++ body } := by
  induction body generalizing arrived with
  | nil => simp [feed]
  | cons byte body ih =>
      obtain ⟨here, later⟩ := List.ne_and_not_mem_of_not_mem_cons plain
      have pushed : arrived.push byte =
          { arrived with pending := arrived.pending ++ [byte] } :=
        if_neg fun newline => here newline.1.symm
      rw [feed, List.foldl_cons, pushed]
      refine (ih later).trans ?_
      simp

theorem feed_body (plain : (0x0a : UInt8) ∉ body) :
    (⟨frames, []⟩ : Arrived).feed (body ++ blankLine) = ⟨frames ++ [body], []⟩ := by
  have ended : body.getLast? ≠ some 0x0a :=
    fun last => plain (List.mem_of_getLast? last)
  rw [feed_append, feed_plain plain, List.nil_append]
  simp [blankLine, feed, push, ended]

theorem feed_flatMap (plain : ∀ body ∈ bodies, (0x0a : UInt8) ∉ body) :
    (⟨frames, []⟩ : Arrived).feed (bodies.flatMap (· ++ blankLine)) =
      ⟨frames ++ bodies, []⟩ := by
  induction bodies generalizing frames with
  | nil => simp [feed]
  | cons body bodies ih =>
      have later : ∀ other ∈ bodies, (0x0a : UInt8) ∉ other :=
        fun other listed => plain other (List.mem_cons_of_mem _ listed)
      rw [List.flatMap_cons, feed_append, feed_body (plain body (by simp)),
        ih later, List.append_assoc, List.singleton_append]

/-- What has arrived of a stream of frames holds the first of them. -/
theorem frames_prefix (plain : ∀ body ∈ bodies, (0x0a : UInt8) ∉ body)
    (first : bytes <+: bodies.flatMap (· ++ blankLine)) :
    (({} : Arrived).feed bytes).frames <+: bodies := by
  obtain ⟨rest, whole⟩ := first
  have grows := frames_feed (({} : Arrived).feed bytes) rest
  have all : ({} : Arrived).feed (bodies.flatMap (· ++ blankLine)) = ⟨bodies, []⟩ :=
    feed_flatMap plain
  rwa [← feed_append, whole, all] at grows

end Arrived

end EventStream
