import Mathlib.Data.List.TakeWhile
import ZooKeeperServer.Containers.FirstOccurrence
import ZooKeeperServer.Server.ToolConfig

namespace ZooKeeperServer

open Containers

/-! The environment of a command tool: a map put together from the server's own and
the tool's, handed over as strings that end at their first NUL byte. -/

structure CString where
  bytes : StdString
  unterminated : (0 : UInt8) ∉ bytes

/-- What is read from `c_str()` of a string. -/
def cString (text : StdString) : CString where
  bytes := text.takeWhile (· ≠ 0)
  unterminated nul := by simpa using List.mem_takeWhile_imp nul

def splitBinding (entry : StdString) : Option (StdString × StdString) :=
  match entry.idxOf? 0x3d with
  | none => none
  | some separator => some (entry.take separator, entry.drop (separator + 1))

namespace CommandTools

/-- What the loop over the parent's environment does with an entry: `emplace` leaves
a name alone that is there already. -/
def inheritEntry (environment : StdMap StdString) (entry : CString) :
    StdMap StdString :=
  match splitBinding entry.bytes with
  | none => environment
  | some (name, value) => environment.insertIfNew name value

def buildEnvironmentMap (tool : CommandToolConfig) (environ : List CString) :
    StdMap StdString :=
  let inherited :=
    if tool.inheritEnvironment then environ.foldl inheritEntry ∅ else ∅
  tool.env.toList.foldl (fun environment entry =>
    environment.insert entry.1 entry.2) inherited

def envEntries (tool : CommandToolConfig) (environ : List CString) :
    List StdString :=
  (buildEnvironmentMap tool environ).toList.map fun entry =>
    entry.1 ++ literal "=" ++ entry.2

/-- `envp` as the spawned process reads it. -/
def envp (tool : CommandToolConfig) (environ : List CString) : List CString :=
  (envEntries tool environ).map cString

end CommandTools

section Bindings

variable {entry name value : StdString}

theorem splitBinding_eq_some :
    splitBinding entry = some (name, value) ↔
      entry = name ++ 0x3d :: value ∧ (0x3d : UInt8) ∉ name := by
  unfold splitBinding
  constructor
  · intro cut
    split at cut
    · cases cut
    · rename_i separator found
      obtain ⟨before, after, rfl, plain, rfl⟩ := idxOf?_eq_some.mp found
      cases cut
      simp [plain]
  · rintro ⟨rfl, plain⟩
    have found : (name ++ 0x3d :: value).idxOf? 0x3d = some name.length :=
      idxOf?_eq_some.mpr ⟨name, value, rfl, plain, rfl⟩
    simp [found]

theorem cString_eq_self {text : StdString} (plain : (0 : UInt8) ∉ text) :
    (cString text).bytes = text := by
  apply List.takeWhile_eq_self_iff.mpr
  intro byte member
  have other : byte ≠ 0 := fun nul => plain (nul ▸ member)
  simpa using other

end Bindings

namespace CommandTools

section Environment

variable {tool : CommandToolConfig} {environ : List CString}
  {name value : StdString}

def parentBindings (environ : List CString) : List (StdString × StdString) :=
  environ.filterMap fun entry => splitBinding entry.bytes

theorem foldl_inheritEntry (environment : StdMap StdString) :
    environ.foldl inheritEntry environment =
      (parentBindings environ).foldl
        (fun environment entry => environment.insertIfNew entry.1 entry.2)
        environment := by
  induction environ generalizing environment with
  | nil => rfl
  | cons entry rest ih =>
      rw [List.foldl_cons, ih, parentBindings, parentBindings, List.filterMap_cons,
        inheritEntry]
      cases splitBinding entry.bytes with
      | none => rfl
      | some binding => rfl

/-- The map has what the tool sets, and where the tool may inherit also the parent's
first binding of a name it does not set. -/
theorem getElem?_buildEnvironmentMap :
    (buildEnvironmentMap tool environ)[name]? =
      tool.env[name]?.or
        (if tool.inheritEnvironment then (parentBindings environ).lookup name
        else none) := by
  unfold buildEnvironmentMap
  rw [getElem?_foldl_insert]
  split
  · rw [foldl_inheritEntry, getElem?_foldl_insertIfNew,
      Std.ExtTreeMap.getElem?_empty, Option.none_or]
  · rw [Std.ExtTreeMap.getElem?_empty]

/-- A variable that the tool is to see. -/
def Configured (tool : CommandToolConfig) (environ : List CString)
    (name value : StdString) : Prop :=
  tool.env[name]? = some value ∨
    tool.inheritEnvironment = true ∧ name ∉ tool.env ∧
      (parentBindings environ).lookup name = some value

def Visible (entries : List CString) (name value : StdString) : Prop :=
  ∃ entry ∈ entries, splitBinding entry.bytes = some (name, value)

theorem configured_iff :
    Configured tool environ name value ↔
      (buildEnvironmentMap tool environ)[name]? = some value := by
  rw [getElem?_buildEnvironmentMap, Configured,
    Std.ExtTreeMap.mem_iff_isSome_getElem?]
  cases tool.env[name]? with
  | some held => simp
  | none =>
      cases tool.inheritEnvironment with
      | true => simp
      | false => simp

theorem parentBindings_plain
    (found : (parentBindings environ).lookup name = some value) :
    (0x3d : UInt8) ∉ name ∧ (0 : UInt8) ∉ name ∧ (0 : UInt8) ∉ value := by
  obtain ⟨before, after, cut, -⟩ := List.lookup_eq_some_iff.mp found
  have member : (name, value) ∈ parentBindings environ := by
    rw [cut]
    exact List.mem_append_right _ List.mem_cons_self
  obtain ⟨entry, -, bound⟩ := List.mem_filterMap.mp member
  obtain ⟨bytes, plain⟩ := splitBinding_eq_some.mp bound
  have unterminated := entry.unterminated
  rw [bytes, List.mem_append, List.mem_cons] at unterminated
  push Not at unterminated
  exact ⟨plain, unterminated.1, unterminated.2.2⟩

/-- The name that is in front of the first `=` of an entry is the one it was made
with. -/
theorem configured_name (accepted : tool.validate = .ok ())
    (configured : Configured tool environ name value) : (0x3d : UInt8) ∉ name := by
  rcases configured with held | ⟨-, -, found⟩
  · exact (validate_env accepted held).2
  · exact (parentBindings_plain found).1

/-- No name and no value that the tool sets has a NUL byte in it. -/
def NulFree (tool : CommandToolConfig) : Prop :=
  ∀ name value : StdString, tool.env[name]? = some value →
    (0 : UInt8) ∉ name ∧ (0 : UInt8) ∉ value

theorem configured_nulFree (nulFree : NulFree tool)
    (configured : Configured tool environ name value) :
    (0 : UInt8) ∉ name ++ 0x3d :: value := by
  have both : (0 : UInt8) ∉ name ∧ (0 : UInt8) ∉ value := by
    rcases configured with held | ⟨-, -, found⟩
    · exact nulFree name value held
    · exact (parentBindings_plain found).2
  simp [both.1, both.2]

theorem mem_envp {entry : CString} :
    entry ∈ envp tool environ ↔
      ∃ name value, Configured tool environ name value ∧
        cString (name ++ 0x3d :: value) = entry := by
  have separator : literal "=" = [0x3d] := by decide +kernel
  simp only [envp, envEntries, List.mem_map, Prod.exists, configured_iff, separator,
    Std.ExtTreeMap.mem_toList_iff_getElem?_eq_some, List.append_assoc,
    List.singleton_append]
  constructor
  · rintro ⟨_, ⟨name, value, held, rfl⟩, rfl⟩
    exact ⟨name, value, held, rfl⟩
  · rintro ⟨name, value, held, rfl⟩
    exact ⟨_, ⟨name, value, held, rfl⟩, rfl⟩

theorem visible_of_nulFree (accepted : tool.validate = .ok ())
    (nulFree : NulFree tool) :
    Visible (envp tool environ) name value ↔ Configured tool environ name value := by
  constructor
  · rintro ⟨_, listed, bound⟩
    obtain ⟨key, held, configured, rfl⟩ := mem_envp.mp listed
    rw [cString_eq_self (configured_nulFree nulFree configured),
      splitBinding_eq_some.mpr ⟨rfl, configured_name accepted configured⟩] at bound
    cases bound
    exact configured
  · intro configured
    refine ⟨_, mem_envp.mpr ⟨name, value, configured, rfl⟩, ?_⟩
    rw [cString_eq_self (configured_nulFree nulFree configured)]
    exact splitBinding_eq_some.mpr ⟨rfl, configured_name accepted configured⟩

theorem visible_plain (visible : Visible (envp tool environ) name value) :
    (0 : UInt8) ∉ name ∧ (0 : UInt8) ∉ value := by
  obtain ⟨entry, -, bound⟩ := visible
  have unterminated := entry.unterminated
  rw [(splitBinding_eq_some.mp bound).1, List.mem_append, List.mem_cons]
    at unterminated
  push Not at unterminated
  exact ⟨unterminated.1, unterminated.2.2⟩

end Environment

/-- The spawned process sees the variables it is to see exactly when no name and no
value that the tool sets has a NUL byte in it. -/
theorem environment_exact_iff (tool : CommandToolConfig) (environ : List CString)
    (accepted : tool.validate = .ok ()) :
    (∀ name value, Visible (envp tool environ) name value ↔
      Configured tool environ name value) ↔ NulFree tool := by
  constructor
  · intro exact name value held
    exact visible_plain ((exact name value).mpr (.inl held))
  · intro nulFree name value
    exact visible_of_nulFree accepted nulFree

/-! A value that JSON writes `"a\u0000b"` reaches the tool as `a`. -/

def helperTool (value : StdString) : CommandToolConfig where
  name := literal "helper"
  description := literal "A helper"
  parametersSchema := .object
    [(literal "properties", .object []),
      (literal "type", .string (literal "object"))]
  command := [literal "/bin/true"]
  inheritEnvironment := true
  env := (∅ : StdMap StdString).insert (literal "KEY") value

theorem helperTool_accepted (value : StdString) :
    (helperTool value).validate = .ok () := by
  rfl

theorem value_cut_short :
    (helperTool [0x61, 0, 0x62]).validate = .ok () ∧
      ¬ ∀ name value, Visible (envp (helperTool [0x61, 0, 0x62]) []) name value ↔
        Configured (helperTool [0x61, 0, 0x62]) [] name value := by
  refine ⟨helperTool_accepted _, fun exact => ?_⟩
  have seen := (exact (literal "KEY") [0x61, 0, 0x62]).mpr
    (.inl Std.ExtTreeMap.getElem?_insert_self)
  exact (visible_plain seen).2 (by decide)

theorem helperTool_nulFree {value : StdString} (plain : (0 : UInt8) ∉ value) :
    NulFree (helperTool value) := by
  intro name held found
  change ((∅ : StdMap StdString).insert (literal "KEY") value)[name]? = some held
    at found
  rw [Std.ExtTreeMap.getElem?_insert] at found
  split at found
  · rename_i same
    obtain rfl := Std.LawfulEqCmp.eq_of_compare same
    cases found
    exact ⟨by decide +kernel, plain⟩
  · cases found

theorem environment_exact_sample :
    Visible (envp (helperTool (literal "ab")) [⟨literal "HOME=/root", by decide⟩])
        (literal "KEY") (literal "ab") ↔
      Configured (helperTool (literal "ab")) [⟨literal "HOME=/root", by decide⟩]
        (literal "KEY") (literal "ab") :=
  (environment_exact_iff (helperTool (literal "ab"))
    [⟨literal "HOME=/root", by decide⟩] (helperTool_accepted _)).mpr
      (helperTool_nulFree (by decide)) (literal "KEY") (literal "ab")

end CommandTools

end ZooKeeperServer
