import ZooKeeperServer.Server.ApiTypes

namespace ZooKeeperServer

/-! `nlohmann::json` values and the operations the server gets from that
library. -/

/-- The members of an object are in key order, as `std::map` keeps them. -/
inductive Json
  | null
  | boolean (value : Bool)
  | integer (value : Int)
  | double (value : Double)
  | string (value : StdString)
  | array (elements : List Json)
  | object (members : List (StdString × Json))

/-- A C++ exception, by its `what`. -/
structure StdException where
  what : StdString
  deriving DecidableEq, Repr

def badFunctionCall : StdException := ⟨literal "bad_function_call"⟩

/-- Serialising and parsing: `dump` throws on a string that is not UTF-8. -/
structure JsonLibrary where
  dump : Json → Except StdException StdString
  parse : StdString → Except StdException Json

namespace Json

/-- `std::map::insert_or_assign` on members in key order. -/
def insertMember (key : StdString) (value : Json) :
    List (StdString × Json) → List (StdString × Json)
  | [] => [(key, value)]
  | (other, held) :: rest =>
      if key < other then (key, value) :: (other, held) :: rest
      else if key = other then (key, value) :: rest
      else (other, held) :: insertMember key value rest

def objectOf (members : List (StdString × Json)) : Json :=
  .object (members.foldl
    (fun held member => insertMember member.1 member.2 held) [])

def find? (key : StdString) : Json → Option Json
  | .object members => members.lookup key
  | _ => none

def string? : Json → Option StdString
  | .string value => some value
  | _ => none

def boolean? : Json → Option Bool
  | .boolean value => some value
  | _ => none

def number? : Json → Option JsonNumber
  | .integer value => some (.integer value)
  | .double value => some (.double value)
  | _ => none

/-- `get<int>()`, a cast from the 64 bits the library stores. -/
def integer? : Json → Option Int
  | .integer value => some (value.bmod (2 ^ 32))
  | _ => none

def array? : Json → Option (List Json)
  | .array elements => some elements
  | _ => none

def object? : Json → Option Json
  | .object members => some (.object members)
  | _ => none

section Members

variable {key other : StdString} {value : Json}
  {members : List (StdString × Json)}

theorem lookup_cons_eq {held : StdString} :
    ((held, value) :: members).lookup key =
      if key = held then some value else members.lookup key := by
  by_cases same : key = held
  · simp [same]
  · simp [List.lookup_cons, beq_eq_false_iff_ne.mpr same, same]

theorem lookup_insertMember :
    (insertMember other value members).lookup key =
      if key = other then some value else members.lookup key := by
  induction members with
  | nil => simp [insertMember, lookup_cons_eq]
  | cons member rest ih =>
      obtain ⟨held, old⟩ := member
      simp only [insertMember]
      split
      · simp only [lookup_cons_eq]
      · split
        · rename_i same
          subst same
          simp only [lookup_cons_eq]
          split
          · rfl
          · rfl
        · rename_i different
          simp only [lookup_cons_eq, ih]
          by_cases here : key = held
          · subst here
            simp [Ne.symm different]
          · simp [here]

theorem mem_insertMember {member : StdString × Json}
    (found : member ∈ insertMember other value members) :
    member = (other, value) ∨ member ∈ members := by
  induction members with
  | nil => exact .inl (List.mem_singleton.mp found)
  | cons first rest ih =>
      obtain ⟨held, old⟩ := first
      simp only [insertMember] at found
      split at found
      · rcases List.mem_cons.mp found with here | later
        · exact .inl here
        · exact .inr later
      · split at found
        · rcases List.mem_cons.mp found with here | later
          · exact .inl here
          · exact .inr (List.mem_cons_of_mem _ later)
        · rcases List.mem_cons.mp found with rfl | later
          · exact .inr List.mem_cons_self
          · rcases ih later with here | earlier
            · exact .inl here
            · exact .inr (List.mem_cons_of_mem _ earlier)

theorem find?_objectOf (entries : List (StdString × Json)) :
    (objectOf entries).find? key = entries.reverse.lookup key := by
  suffices held : ∀ members : List (StdString × Json),
      (entries.foldl (fun held member => insertMember member.1 member.2 held)
        members).lookup key =
        (entries.reverse.lookup key).or (members.lookup key) by
    simpa [objectOf, find?] using held []
  induction entries with
  | nil => simp
  | cons entry rest ih =>
      intro members
      obtain ⟨held, value⟩ := entry
      simp only [List.foldl_cons, ih, lookup_insertMember, List.reverse_cons,
        List.lookup_append, lookup_cons_eq, List.lookup_nil]
      by_cases same : key = held
      · simp [same]
      · simp [same]

theorem keys_objectOf (entries : List (StdString × Json)) :
    ∃ members, objectOf entries = .object members ∧
      ∀ member ∈ members, member.1 ∈ entries.map Prod.fst := by
  suffices held : ∀ members : List (StdString × Json), ∀ member ∈
      entries.foldl (fun held member => insertMember member.1 member.2 held)
        members, member ∈ members ∨ member.1 ∈ entries.map Prod.fst by
    exact ⟨_, rfl, fun member found => (held [] member found).resolve_left
      List.not_mem_nil⟩
  induction entries with
  | nil => exact fun members member found => .inl found
  | cons entry rest ih =>
      intro members member found
      simp only [List.map_cons, List.mem_cons]
      rcases ih _ member found with inserted | later
      · rcases mem_insertMember inserted with rfl | earlier
        · exact .inr (.inl rfl)
        · exact .inl earlier
      · exact .inr (.inr later)

end Members

end Json

end ZooKeeperServer
