import ClassFold.Files.Path

/-!
A tree of files and directories.

The tree is a list of places with what stands there.  A path is followed name by name from the
working directory; every place on the way has to be a directory.  Reading, creating directories and
writing are functions on trees, and so can be reasoned about.
-/

namespace ClassFold

open Text

/-- A place in a tree: the names on the way from the root. -/
abbrev Place := List Text

/-- What stands at a place. -/
inductive FileEntry where
  | directory
  | file (content : ByteArray)

/-- Two files are the same when their bytes are. -/
instance : DecidableEq FileEntry
  | .directory, .directory => isTrue rfl
  | .file a, .file b =>
    decidable_of_decidable_of_iff (p := a.data = b.data) (by cases a; cases b; simp)
  | .directory, .file _ => isFalse nofun
  | .file _, .directory => isFalse nofun

/-- A tree of files, with a working directory. -/
structure FileTree where
  entries : List (Place × FileEntry)
  workDir : Place
  deriving DecidableEq

namespace FileTree

/-- What stands at a place.  The root is always a directory. -/
def get? (t : FileTree) (p : Place) : Option FileEntry :=
  if p.isEmpty then some .directory else t.entries.lookup p

/-- Whether a directory stands at a place. -/
def isDirectory (t : FileTree) (p : Place) : Bool := t.get? p == some .directory

/-- Entries with the entry at one place changed or added. -/
def setEntry (p : Place) (e : FileEntry) : List (Place × FileEntry) → List (Place × FileEntry)
  | [] => [(p, e)]
  | x :: xs => if x.1 == p then (p, e) :: xs else x :: setEntry p e xs

/-- Changes or adds what stands at a place. -/
def set (t : FileTree) (p : Place) (e : FileEntry) : FileTree :=
  { t with entries := setEntry p e t.entries }

theorem lookup_setEntry (p q : Place) (e : FileEntry) (xs : List (Place × FileEntry)) :
    (setEntry p e xs).lookup q = if q = p then some e else xs.lookup q := by
  induction xs with
  | nil => by_cases h : q = p <;> simp [setEntry, List.lookup_cons, h, beq_false_of_ne]
  | cons x xs ih =>
    obtain ⟨r, f⟩ := x
    by_cases hr : r = p
    · subst hr
      by_cases h : q = r <;> simp [setEntry, List.lookup_cons, h, beq_false_of_ne]
    · by_cases h : q = r
      · subst h
        simp [setEntry, hr]
      · simp [setEntry, List.lookup_cons, hr, h, ih, beq_false_of_ne]

/-- A place holds what was last put there, and other places are left alone. -/
theorem get?_set (t : FileTree) {p : Place} (hp : p ≠ []) (q : Place) (e : FileEntry) :
    (t.set p e).get? q = if q = p then some e else t.get? q := by
  by_cases hq : q = []
  · simp [get?, hq, hp.symm]
  · simp [get?, set, hq, lookup_setEntry]

/-! ### Following paths -/

/-- Why a path leads nowhere. -/
inductive Obstacle where
  /-- A name on the way is not there. -/
  | missing
  /-- A place on the way is not a directory. -/
  | notDirectory
  /-- A name on the way is too long for any directory. -/
  | longName
  deriving DecidableEq, Repr

/-- The place that names lead to from the place `p`. -/
def follow (t : FileTree) : (p : Place) → (names : List Text) → Except Obstacle Place
  | p, [] => .ok p
  | p, name :: names =>
    if !t.isDirectory p then .error .notDirectory
    else if name = Path.here then t.follow p names
    else if name = Path.up then t.follow p.dropLast names
    else if !Path.nameFits name then .error .longName
    else if (t.get? (p ++ [name])).isNone then .error .missing
    else t.follow (p ++ [name]) names

/-- Where a path starts. -/
def origin (t : FileTree) (absolute : Bool) : Place := if absolute then [] else t.workDir

/-- The directory in which the last of the given names is to be found. -/
def enclosing (t : FileTree) (absolute : Bool) (names : List Text) : Except Obstacle Place :=
  match t.follow (t.origin absolute) names.dropLast with
  | .error e => .error e
  | .ok p => if t.isDirectory p then .ok p else .error .notDirectory

/-! ### Reading and writing -/

/-- The content of the file that a path leads to. -/
def read? (t : FileTree) (path : Text) : Option ByteArray :=
  let p := Path.ofText path
  if path.isEmpty || !Path.isUsable path then none
  else
    match t.follow (t.origin p.absolute) (if p.slash then p.names ++ [Path.here] else p.names) with
    | .error _ => none
    | .ok place =>
      match t.get? place with
      | some (.file content) => some content
      | _ => none

/-- The tree with a file written at the end of a path, unless a directory stands there, the
directory around it is missing or the path cannot be used. -/
def write? (t : FileTree) (path : Text) (content : ByteArray) : Option FileTree :=
  let p := Path.ofText path
  match p.names.getLast? with
  | none => none
  | some name =>
    if p.slash || name == Path.here || name == Path.up then none
    else if !(Path.isUsable path && Path.nameFits name) then none
    else
      match t.enclosing p.absolute p.names with
      | .error _ => none
      | .ok dir =>
        if t.isDirectory (dir ++ [name]) then none
        else some (t.set (dir ++ [name]) (.file content))

/-! ### Creating directories -/

/-- What comes of creating one directory. -/
inductive Creation where
  /-- The directory has been created. -/
  | created (t : FileTree)
  /-- There is such a directory. -/
  | present
  /-- The directory around it is missing. -/
  | missing
  /-- A file is in the way, or a name is too long. -/
  | blocked

/-- Creates the directory that the given names lead to. -/
def createDir (t : FileTree) (absolute : Bool) (names : List Text) : Creation :=
  match names.getLast? with
  | none => .present
  | some name =>
    match t.enclosing absolute names with
    | .error .missing => .missing
    | .error .notDirectory | .error .longName => .blocked
    | .ok dir =>
      if name == Path.here || name == Path.up then .present
      else if !Path.nameFits name then .blocked
      else
        match t.get? (dir ++ [name]) with
        | none => .created (t.set (dir ++ [name]) .directory)
        | some .directory => .present
        | some (.file _) => .blocked

/-- Creates the directory that the given names lead to and those around it.  The answer says
whether the directory is there in the end; directories made on the way stay in either case. -/
def createNames (t : FileTree) (absolute : Bool) (names : List Text) : Bool × FileTree :=
  if _h : names = [] then (true, t)
  else
    match t.createDir absolute names with
    | .created t' => (true, t')
    | .present => (true, t)
    | .blocked => (false, t)
    | .missing =>
      let outer := t.createNames absolute (Path.parentNames names)
      if outer.1 then
        match outer.2.createDir absolute names with
        | .created t' => (true, t')
        | .present => (true, outer.2)
        | .blocked | .missing => (false, outer.2)
      else outer
termination_by names.length
decreasing_by exact Path.length_parentNames_lt _h

/-- Creates the directory at the end of a path and those around it. -/
def createDirs (t : FileTree) (path : Text) : Bool × FileTree :=
  if Path.isUsable path then t.createNames (Path.ofText path).absolute (Path.ofText path).names
  else (false, t)

/-! ### Whole trees -/

/-- The working directory of a new tree, with room above it. -/
def newWorkDir : Place := ["home".toList, "user".toList, "work".toList]

/-- A tree with an empty working directory. -/
def empty : FileTree where
  entries := [1, 2, 3].map fun n => (newWorkDir.take n, .directory)
  workDir := newWorkDir

/-- Adds a file to a tree, with the directories around it. -/
def addFile (t : FileTree) (path : Text) (content : ByteArray) : FileTree :=
  let made := (t.createNames false (Path.ofText path).names.dropLast).2
  (made.write? path content).getD made

/-- The tree with the given files in its working directory. -/
def ofFiles (files : List (Text × ByteArray)) : FileTree :=
  files.foldl (fun t f => t.addFile f.1 f.2) empty

/-- The files below the working directory, with their paths from there. -/
def files (t : FileTree) : List (Text × ByteArray) :=
  t.entries.filterMap fun x =>
    match x.2 with
    | .directory => none
    | .file content =>
      if t.workDir.isPrefixOf x.1 then
        some (joinWith '/' (x.1.drop t.workDir.length), content)
      else none

end FileTree

end ClassFold
