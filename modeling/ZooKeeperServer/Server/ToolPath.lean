import ZooKeeperServer.Server.ToolEnvironment

namespace ZooKeeperServer.CommandTools

open Containers

/-! Where the executable of a command tool is looked for. -/

abbrev Path := StdString

namespace Path

def isAbsolute (path : Path) : Bool :=
  path.head? = some 0x2f

def isRelative (path : Path) : Bool :=
  !path.isAbsolute

/-- `operator/`: an absolute path replaces the other, and a separator goes in between
unless that is empty or ends with one. -/
def join (path other : Path) : Path :=
  if other.isAbsolute || path.isEmpty then other
  else if path.getLast? = some 0x2f then path ++ other
  else path ++ literal "/" ++ other

end Path

structure Host where
  environ : List CString
  currentPath : Path
  absolute : currentPath.isAbsolute = true

/-- The first entry of this name. -/
def getenv (environ : List CString) (name : StdString) : Option StdString :=
  (parentBindings environ).lookup name

def commandBaseDirectory (tool : CommandToolConfig) (host : Host) : Path :=
  match tool.workingDirectory with
  | some directory => directory
  | none => host.currentPath

def containsPathSeparator (value : StdString) : Bool :=
  (0x2f : UInt8) ∈ value

def effectivePathEnv (tool : CommandToolConfig) (host : Host) : Option StdString :=
  let parentPath := (getenv host.environ (literal "PATH")).filter (· ≠ [])
  if tool.inheritEnvironment && parentPath.isSome then parentPath
  else
    match tool.env[literal "PATH"]? with
    | some pathEnv => some pathEnv
    | none => parentPath

def entryCandidate (baseDir : Path) (program entry : StdString) : Path :=
  let directory := if entry = [] then baseDir else entry
  let directory :=
    if directory.isRelative then baseDir.join directory else directory
  directory.join program

section Resolving

variable (isExecutableFile : Path → Bool)

/-- The loop over the entries of the search path, from an index on. -/
def searchPath (baseDir : Path) (program pathEnv : StdString) (start : Nat) :
    Option Path :=
  if start ≤ pathEnv.length then
    match (pathEnv.drop start).idxOf? 0x3a with
    | none =>
        let candidate := entryCandidate baseDir program (pathEnv.drop start)
        if isExecutableFile candidate then some candidate else none
    | some size =>
        let candidate :=
          entryCandidate baseDir program ((pathEnv.drop start).take size)
        if isExecutableFile candidate then some candidate
        else searchPath baseDir program pathEnv (start + size + 1)
  else none
termination_by pathEnv.length + 1 - start

/-- `weakly_canonical`, which gives a file its canonical name, is taken for the
identity. -/
def resolveExecutablePath (tool : CommandToolConfig) (host : Host) : Option Path :=
  match tool.command with
  | [] => none
  | program :: _ =>
      if program = [] then none
      else if containsPathSeparator program then
        let candidate : Path :=
          if Path.isRelative program then
            (commandBaseDirectory tool host).join program
          else program
        if isExecutableFile candidate then some candidate else none
      else
        match effectivePathEnv tool host with
        | none => none
        | some pathEnv =>
            searchPath isExecutableFile (commandBaseDirectory tool host) program
              pathEnv 0

end Resolving

/-- The files that the entries of a search path stand for, in order. -/
def candidates (candidate : StdString → Path) (pathEnv : StdString) : List Path :=
  (pathEnv.splitOn 0x3a).map candidate

/-- The directory an entry ought to stand for: an empty one is the base directory, and
a relative one is below it. -/
def entryDirectory (baseDir : Path) (entry : StdString) : Path :=
  if entry = [] then baseDir
  else if Path.isAbsolute entry then entry
  else baseDir.join entry

def childCandidate (baseDir : Path) (program entry : StdString) : Path :=
  (entryDirectory baseDir entry).join program

/-- The directories that the entries ought to stand for, each once and with a
separator at its end. -/
def directories (baseDir : Path) (entries : List StdString) : List Path :=
  (entries.map fun entry => (entryDirectory baseDir entry).join []).eraseDups

/-- The parent's search path, where the environment is inherited and the tool sets a
path of its own. -/
def overridingPath (tool : CommandToolConfig) (host : Host) : Option StdString :=
  if tool.inheritEnvironment = true ∧ literal "PATH" ∈ tool.env then
    (getenv host.environ (literal "PATH")).filter (· ≠ [])
  else none

/-- The search leads to the same directories in the same order: along the path that
overrides that of the child, an empty entry being read like one that spells the base
directory out, or else along that of the child, where an empty entry then needs a base
directory that is no relative path. -/
def SearchesAlike (tool : CommandToolConfig) (host : Host) (pathEnv : StdString) :
    Prop :=
  let baseDir := commandBaseDirectory tool host
  match overridingPath tool host with
  | some parentPath =>
      directories baseDir ((parentPath.splitOn 0x3a).map fun entry =>
        if entry = [] then baseDir else entry) =
        directories baseDir (pathEnv.splitOn 0x3a)
  | none =>
      baseDir.isAbsolute = true ∨ baseDir = [] ∨ [] ∉ pathEnv.splitOn 0x3a

section Resolution

variable {isExecutableFile : Path → Bool} {tool : CommandToolConfig} {host : Host}
  {baseDir : Path} {program pathEnv entry : StdString} {arguments : List StdString}

theorem searchPath_eq {start : Nat} (inside : start ≤ pathEnv.length) :
    searchPath isExecutableFile baseDir program pathEnv start =
      (candidates (entryCandidate baseDir program) (pathEnv.drop start)).find?
        isExecutableFile := by
  induction left : pathEnv.length - start using Nat.strongRecOn
      generalizing start with
  | ind left ih =>
      rw [searchPath, if_pos inside]
      split
      · rename_i uncut
        rw [candidates, List.splitOn_eq_singleton (List.idxOf?_eq_none_iff.mp uncut),
          List.map_singleton, List.find?_singleton]
      · rename_i size found
        obtain ⟨before, after, cut, plain, rfl⟩ := idxOf?_eq_some.mp found
        have later : pathEnv.drop (start + before.length + 1) = after := by
          rw [Nat.add_assoc, ← List.drop_drop, cut, List.drop_append]
          simp
        have bound := congrArg List.length cut
        simp only [List.length_drop, List.length_append, List.length_cons] at bound
        rw [cut, List.take_left, candidates,
          List.splitOn_append_cons_self_of_not_mem plain, List.map_cons,
          List.find?_cons]
        cases executable : isExecutableFile
            (entryCandidate baseDir program before) with
        | true => simp only [executable, if_true]
        | false =>
            simp only [executable, Bool.false_eq_true, if_false]
            rw [ih _ (by omega) (by omega) rfl, later]
            rfl

theorem effectivePathEnv_eq
    (child : (buildEnvironmentMap tool host.environ)[literal "PATH"]? =
      some pathEnv)
    (given : pathEnv ≠ []) :
    effectivePathEnv tool host =
      some ((overridingPath tool host).getD pathEnv) := by
  rw [getElem?_buildEnvironmentMap] at child
  unfold effectivePathEnv overridingPath
  cases inherits : tool.inheritEnvironment with
  | false =>
      have own : tool.env[literal "PATH"]? = some pathEnv := by
        simpa [inherits] using child
      simp [own]
  | true =>
      rw [if_pos inherits] at child
      by_cases sets : literal "PATH" ∈ tool.env
      · have own : tool.env[literal "PATH"]? = some pathEnv := by
          rw [Std.ExtTreeMap.getElem?_eq_some_getElem sets, Option.some_or] at child
          rwa [Std.ExtTreeMap.getElem?_eq_some_getElem sets]
        cases (getenv host.environ (literal "PATH")).filter (· ≠ []) with
        | none => simp [own]
        | some parentPath => simp [sets]
      · have unset := Std.ExtTreeMap.getElem?_eq_none sets
        have parent : getenv host.environ (literal "PATH") = some pathEnv := by
          rwa [unset, Option.none_or] at child
        simp [parent, given, sets]

theorem resolveExecutablePath_eq (command : tool.command = program :: arguments)
    (bare : containsPathSeparator program = false) (named : program ≠ [])
    (child : (buildEnvironmentMap tool host.environ)[literal "PATH"]? =
      some pathEnv)
    (given : pathEnv ≠ []) :
    resolveExecutablePath isExecutableFile tool host =
      (candidates (entryCandidate (commandBaseDirectory tool host) program)
        ((overridingPath tool host).getD pathEnv)).find? isExecutableFile := by
  rw [resolveExecutablePath, command]
  simp only [if_neg named, bare, Bool.false_eq_true, if_false,
    effectivePathEnv_eq child given]
  rw [searchPath_eq (Nat.zero_le _), List.drop_zero]

/-- An empty entry is looked up like one that spells the base directory out. -/
theorem entryCandidate_eq :
    entryCandidate baseDir program entry =
      childCandidate baseDir program (if entry = [] then baseDir else entry) := by
  unfold entryCandidate childCandidate entryDirectory Path.isRelative
  by_cases empty : entry = []
  · by_cases here : baseDir = []
    · simp [empty, here, Path.join, Path.isAbsolute]
    · by_cases absolute : baseDir.isAbsolute = true
      · simp [empty, here, absolute]
      · simp [empty, here, absolute]
  · by_cases absolute : Path.isAbsolute entry = true
    · simp [empty, absolute]
    · simp [empty, absolute]

theorem join_relative {other : Path} (relative : other.isAbsolute = false)
    (path : Path) : path.join other = path.join [] ++ other := by
  have nothing : Path.isAbsolute [] = false := rfl
  unfold Path.join
  rw [relative, nothing]
  by_cases empty : path.isEmpty = true
  · simp [empty]
  · by_cases closed : path.getLast? = some 0x2f
    · simp [empty, closed]
    · simp [empty, closed]

theorem join_nil_isAbsolute (path : Path) :
    (path.join []).isAbsolute = path.isAbsolute := by
  cases path with
  | nil => rfl
  | cons first rest =>
      unfold Path.join
      by_cases closed : (first :: rest).getLast? = some 0x2f
      · simp [closed, Path.isAbsolute]
      · simp [closed, Path.isAbsolute]

theorem length_le_join_nil (path : Path) : path.length ≤ (path.join []).length := by
  unfold Path.join
  by_cases empty : path.isEmpty = true
  · simp_all
  · by_cases closed : path.getLast? = some 0x2f
    · simp [empty, closed, Path.isAbsolute]
    · simp [empty, closed, Path.isAbsolute]

theorem isAbsolute_of_bare (bare : containsPathSeparator program = false) :
    Path.isAbsolute program = false := by
  cases program with
  | nil => rfl
  | cons first rest =>
      have other : (0x2f : UInt8) ∉ first :: rest := by
        simpa [containsPathSeparator] using bare
      have different : first ≠ 0x2f := fun same => other (same ▸ List.mem_cons_self)
      simp [Path.isAbsolute, different]

theorem candidates_bare (bare : containsPathSeparator program = false)
    (spelled : StdString → StdString) (pathEnv : StdString) :
    candidates (fun entry => childCandidate baseDir program (spelled entry))
        pathEnv =
      (((pathEnv.splitOn 0x3a).map spelled).map fun entry =>
        (entryDirectory baseDir entry).join []).map (· ++ program) := by
  simp only [candidates, childCandidate, List.map_map]
  apply List.map_congr_left
  intro entry _
  exact join_relative (isAbsolute_of_bare bare) _

theorem entryDirectory_ne_base (relative : baseDir.isAbsolute = false)
    (named : entry ≠ []) :
    (entryDirectory baseDir entry).join [] ≠ baseDir.join [] := by
  intro same
  unfold entryDirectory at same
  rw [if_neg named] at same
  by_cases absolute : Path.isAbsolute entry = true
  · rw [if_pos absolute] at same
    have rooted := congrArg Path.isAbsolute same
    rw [join_nil_isAbsolute, join_nil_isAbsolute, absolute, relative] at rooted
    cases rooted
  · rw [if_neg absolute, join_relative (Bool.eq_false_of_not_eq_true absolute)]
      at same
    have longer := length_le_join_nil (baseDir.join [] ++ entry)
    rw [same, List.length_append] at longer
    exact named (List.length_eq_zero_iff.mp (by omega))

/-- Reading the empty entries like the base directory's own name makes a difference
exactly when there is one and the name is a relative path. -/
theorem directories_spelled_iff (entries : List StdString) :
    directories baseDir (entries.map fun entry =>
        if entry = [] then baseDir else entry) = directories baseDir entries ↔
      baseDir.isAbsolute = true ∨ baseDir = [] ∨ [] ∉ entries := by
  have plain (same : ∀ entry ∈ entries,
      entryDirectory baseDir (if entry = [] then baseDir else entry) =
        entryDirectory baseDir entry) :
      directories baseDir (entries.map fun entry =>
        if entry = [] then baseDir else entry) = directories baseDir entries := by
    unfold directories
    rw [List.map_map]
    refine congrArg List.eraseDups (List.map_congr_left fun entry listed => ?_)
    exact congrArg (Path.join · []) (same entry listed)
  constructor
  · intro same
    by_contra others
    simp only [not_or, Bool.not_eq_true, not_not] at others
    obtain ⟨relative, inside, listed⟩ := others
    have led : baseDir.join [] ∈ directories baseDir entries :=
      List.mem_eraseDups.mpr (List.mem_map.mpr ⟨[], listed, by simp [entryDirectory]⟩)
    rw [← same] at led
    obtain ⟨entry, spelled, leads⟩ := List.mem_map.mp (List.mem_eraseDups.mp led)
    obtain ⟨before, -, rfl⟩ := List.mem_map.mp spelled
    refine entryDirectory_ne_base relative ?_ leads
    split
    · exact inside
    · assumption
  · rintro (absolute | rfl | unlisted)
    · refine plain fun entry _ => ?_
      by_cases empty : entry = []
      · simp [empty, entryDirectory, absolute]
      · simp [empty]
    · refine plain fun entry _ => ?_
      by_cases empty : entry = []
      · simp [empty]
      · simp [empty]
    · refine plain fun entry listed => ?_
      have named : entry ≠ [] := by
        rintro rfl
        exact unlisted listed
      rw [if_neg named]

/-- An empty entry under a relative base directory is looked up below it twice. -/
example : entryCandidate (literal "work") (literal "run") [] =
    literal "work/work/run" := by
  decide +kernel

end Resolution

/-- A bare tool name is resolved on the search path of the child, on every
filesystem, exactly when it is not empty and the search leads where that path does. -/
theorem bare_name_resolution_iff (tool : CommandToolConfig) (host : Host)
    (program pathEnv : StdString) (arguments : List StdString)
    (command : tool.command = program :: arguments)
    (bare : containsPathSeparator program = false)
    (child : (buildEnvironmentMap tool host.environ)[literal "PATH"]? =
      some pathEnv)
    (given : pathEnv ≠ []) :
    (∀ isExecutableFile, resolveExecutablePath isExecutableFile tool host =
      (candidates (childCandidate (commandBaseDirectory tool host) program)
        pathEnv).find? isExecutableFile) ↔
      program ≠ [] ∧ SearchesAlike tool host pathEnv := by
  by_cases named : program = []
  · subst named
    simp only [ne_eq, not_true_eq_false, false_and, iff_false]
    intro resolved
    have everything := resolved fun _ => true
    rw [resolveExecutablePath, command] at everything
    obtain ⟨entry, rest, cut⟩ :=
      List.exists_cons_of_ne_nil (List.splitOn_ne_nil (0x3a : UInt8) pathEnv)
    simp [candidates, cut] at everything
  · have searched (searchedPath : StdString) :
        candidates (entryCandidate (commandBaseDirectory tool host) program)
            searchedPath =
          (((searchedPath.splitOn 0x3a).map fun entry =>
            if entry = [] then commandBaseDirectory tool host else entry).map
              fun entry => (entryDirectory (commandBaseDirectory tool host)
                entry).join []).map (· ++ program) := by
      rw [← candidates_bare bare]
      exact congrArg (candidates · searchedPath) (funext fun _ => entryCandidate_eq)
    have meant : candidates (childCandidate (commandBaseDirectory tool host) program)
        pathEnv =
          ((pathEnv.splitOn 0x3a).map fun entry =>
            (entryDirectory (commandBaseDirectory tool host) entry).join []).map
              (· ++ program) := by
      simpa using candidates_bare bare id pathEnv
    rw [and_iff_right named]
    calc
      _ ↔ directories (commandBaseDirectory tool host)
            ((((overridingPath tool host).getD pathEnv).splitOn 0x3a).map fun entry =>
              if entry = [] then commandBaseDirectory tool host else entry) =
          directories (commandBaseDirectory tool host) (pathEnv.splitOn 0x3a) := by
        unfold directories
        rw [← find?_map_congr_iff (List.append_left_injective program)]
        refine forall_congr' fun isExecutableFile => ?_
        rw [resolveExecutablePath_eq command bare named child given, searched, ← meant]
      _ ↔ SearchesAlike tool host pathEnv := by
        unfold SearchesAlike
        cases overridingPath tool host with
        | some parentPath => exact Iff.rfl
        | none => exact directories_spelled_iff _

/-! A tool that is given a search path of its own beside the one it inherits. -/

def ownPathTool (inheritEnvironment : Bool) : CommandToolConfig where
  name := literal "run"
  description := literal "Run"
  parametersSchema := .object []
  command := [literal "run"]
  inheritEnvironment := inheritEnvironment
  env := (∅ : StdMap StdString).insert (literal "PATH") (literal "/opt/bin")

def sampleHost : Host where
  environ := [⟨literal "PATH=/usr/bin", by decide⟩]
  currentPath := literal "/"
  absolute := by decide

theorem ownPathTool_child (inheritEnvironment : Bool) :
    (buildEnvironmentMap (ownPathTool inheritEnvironment)
      sampleHost.environ)[literal "PATH"]? = some (literal "/opt/bin") := by
  rw [getElem?_buildEnvironmentMap]
  change (((∅ : StdMap StdString).insert (literal "PATH")
    (literal "/opt/bin"))[literal "PATH"]?).or _ = _
  rw [Std.ExtTreeMap.getElem?_insert_self, Option.some_or]

/-- The tool sees `/opt/bin`, and the program of `/usr/bin` is run. -/
theorem parent_path_searched :
    (buildEnvironmentMap (ownPathTool true) sampleHost.environ)[literal "PATH"]? =
        some (literal "/opt/bin") ∧
      resolveExecutablePath (fun _ => true) (ownPathTool true) sampleHost =
        some (literal "/usr/bin/run") ∧
      resolveExecutablePath (fun _ => true) (ownPathTool true) sampleHost ≠
        (candidates (childCandidate (commandBaseDirectory (ownPathTool true)
          sampleHost) (literal "run")) (literal "/opt/bin")).find?
          (fun _ => true) := by
  have found : resolveExecutablePath (fun _ => true) (ownPathTool true) sampleHost =
      some (literal "/usr/bin/run") := by
    rw [@resolveExecutablePath_eq (fun _ => true) (ownPathTool true) sampleHost
      (literal "run") (literal "/opt/bin") [] rfl (by decide +kernel)
      (by decide +kernel) (ownPathTool_child true) (by decide +kernel)]
    decide +kernel
  refine ⟨ownPathTool_child true, found, ?_⟩
  rw [found]
  decide +kernel

theorem bare_name_resolution_sample :
    resolveExecutablePath (fun _ => true) (ownPathTool false) sampleHost =
      (candidates (childCandidate (commandBaseDirectory (ownPathTool false)
        sampleHost) (literal "run")) (literal "/opt/bin")).find?
        (fun _ => true) :=
  (bare_name_resolution_iff (ownPathTool false) sampleHost (literal "run")
    (literal "/opt/bin") [] rfl (by decide +kernel) (ownPathTool_child false)
    (by decide +kernel)).mpr ⟨by decide +kernel, .inl rfl⟩ (fun _ => true)

end ZooKeeperServer.CommandTools
