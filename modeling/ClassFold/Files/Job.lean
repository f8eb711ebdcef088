import ClassFold.Files.Tree
import ClassFold.Fold.Transform

/-!
Folding files.

A file is read, folded as a component or as a bare template according to its name, and the outcome
is written under the same name into an output directory.  What reading and writing mean is left to
an instance of `FileSystem`; on a `FileTree` they are functions.
-/

namespace ClassFold

open Text

/-- The operations on files that folding needs. -/
class FileSystem (m : Type → Type) where
  /-- The content of a file, if it can be read. -/
  readFile : Text → m (Option ByteArray)
  /-- Creates a directory and those around it; the answer says whether it is there. -/
  createDirs : Text → m Bool
  /-- Writes a file; the answer says whether it was written. -/
  writeFile : Text → ByteArray → m Bool

/-- Files in a tree. -/
instance : FileSystem (StateM FileTree) where
  readFile path := fun t => (t.read? path, t)
  createDirs path := fun t => t.createDirs path
  writeFile path content := fun t =>
    match t.write? path content with
    | some t' => (true, t')
    | none => (false, t)

/-- What can go wrong when a file is folded. -/
inductive FileError where
  | read (path : Text)
  | fold (path : Text) (cause : FoldError)
  | unnamed
  | create (path : Text)
  | write (path : Text)
  deriving DecidableEq, Repr

namespace FileError

/-- The message for a file that cannot be folded. -/
def message : FileError → Text
  | read path => "failed to read ".toList ++ path
  | fold path _ => "failed to transform ".toList ++ path
  | unnamed => "input has no file name".toList
  | create path => "failed to create ".toList ++ path
  | write path => "failed to write ".toList ++ path

end FileError

/-- Whether a path names a component file. -/
def isComponentFile (path : Text) : Bool :=
  (Path.fileName? path).bind Path.extension? == some "vue".toList

/-- The text in the content of a file. -/
def decode? (content : ByteArray) : Option Text := (String.fromUTF8? content).map String.toList

/-- The content of a file that holds a text. -/
def encode (s : Text) : ByteArray := (String.ofList s).toUTF8

/-- The directory for the outcome when none is given. -/
def defaultOutDir : Text := "target/cssmod-gen".toList

/-- Folds the text of the file at a path. -/
def foldText (options : Options) (path source : Text) : Except FileError Folded :=
  (if isComponentFile path then foldComponent options source
    else foldTemplate options source).mapError (FileError.fold path)

section Jobs

variable {m : Type → Type} [Monad m] [FileSystem m]

/-- Folds a file without writing anything. -/
def foldFile (options : Options) (input : Text) : m (Except FileError Folded) := do
  match (← FileSystem.readFile input).bind decode? with
  | none => return .error (.read input)
  | some source => return foldText options input source

/-- Writes a text to the file `name` in the directory `outDir`, which is created if it is not
there.  The answer is the path of the file. -/
def writeInto (outDir name code : Text) : m (Except FileError Text) := do
  if ← FileSystem.createDirs outDir then
    if ← FileSystem.writeFile (Path.join outDir name) (encode code) then
      return .ok (Path.join outDir name)
    else return .error (.write (Path.join outDir name))
  else return .error (.create outDir)

/-- Folds a file and writes the outcome under the same name into the output directory. -/
def buildFile (options : Options) (outDir : Option Text) (input : Text) :
    m (Except FileError Text) := do
  match ← foldFile options input with
  | .error e => return .error e
  | .ok folded =>
    match Path.fileName? input with
    | none => return .error .unnamed
    | some name => writeInto (outDir.getD defaultOutDir) name folded.code

end Jobs

end ClassFold
