import ClassFold.Cli.Run

/-!
The program: files of the operating system, and the command line.
-/

namespace ClassFold

/-- Files of the operating system. -/
instance : FileSystem IO where
  readFile path := do
    try
      return some (← IO.FS.readBinFile (String.ofList path))
    catch _ =>
      return none
  createDirs path := do
    if path.isEmpty then return true
    try
      IO.FS.createDirAll (String.ofList path)
      return true
    catch _ =>
      return false
  writeFile path content := do
    try
      IO.FS.writeBinFile (String.ofList path) content
      return true
    catch _ =>
      return false

/-- How the program is used. -/
def usage : String :=
  "Fold shorthand class attributes into :class\n\n" ++
  "Usage: cssmod [-v] build [--attr-name NAME] [--module-name NAME] [--out-dir DIR] INPUT\n" ++
  "       cssmod [-v] print [--attr-name NAME] [--module-name NAME] INPUT\n" ++
  "       cssmod --help | --version\n"

end ClassFold

open ClassFold in
/-- Runs the program with the given arguments. -/
def main (args : List String) : IO UInt32 := do
  let request := Request.ofArgs false (args.map String.toList)
  if request = .help then IO.print usage
  if request = .misuse then IO.eprint usage
  let outcome ← request.perform
  IO.print (String.ofList outcome.stdout)
  if let some message := outcome.message then IO.eprintln (String.ofList message)
  return outcome.exit.toUInt32
