import ClassFold.Cli.Args
import ClassFold.Files.Job

/-!
Carrying out a command line.

A request ends in an outcome: an exit code, what has been printed, and a message if a file could
not be folded.
-/

namespace ClassFold

/-- What the program leaves behind when it ends. -/
structure Outcome where
  /-- The exit code: 0 for success, 1 for a file that cannot be folded, 2 for a misuse, and 101 for
  an interpolation that ends inside a character. -/
  exit : Nat
  /-- What has been printed. -/
  stdout : Text
  /-- The message for a file that cannot be folded. -/
  message : Option Text
  deriving DecidableEq, Repr

/-- The message in one line. -/
def Outcome.headline? (o : Outcome) : Option Text := o.message.map Text.firstLine

/-- The line printed for the version. -/
def versionLine : Text := "cssmod 0.1.0\n".toList

section Running

variable {m : Type → Type} [Monad m] [FileSystem m]

/-- Carries out a command.  The answer is what it prints. -/
def Command.run (c : Command) : m (Except FileError Text) := do
  match c.action with
  | .build outDir =>
    return (← buildFile c.options outDir c.input).map fun path =>
      "Generated: ".toList ++ path ++ ['\n']
  | .print => return (← foldFile c.options c.input).map Folded.code

/-- How the program ends after a command. -/
def Outcome.ofResult : Except FileError Text → Outcome
  | .ok printed => ⟨0, printed, none⟩
  | .error (.fold _ (.template .danglingInterpolation)) => ⟨101, [], none⟩
  | .error e => ⟨1, [], some ("Error: ".toList ++ e.message)⟩

/-- Carries out a request. -/
def Request.perform : Request → m Outcome
  | .help => return ⟨0, [], none⟩
  | .version => return ⟨0, versionLine, none⟩
  | .misuse => return ⟨2, [], none⟩
  | .run command => return Outcome.ofResult (← command.run)

end Running

end ClassFold
