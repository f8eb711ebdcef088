import ClassFold.Fold.Transform

/-!
The command line.

Arguments are read from left to right.  At the top stand flags and then a command, `build` or
`print`, with flags, options and the path of the file to fold.  A request for help or for the
version ends the reading at once, and so does the first argument that is out of place.
-/

namespace ClassFold

open Text

/-- What to do with a folded file. -/
inductive Action where
  /-- Write it into a directory. -/
  | build (outDir : Option Text)
  /-- Print it. -/
  | print
  deriving DecidableEq, Repr

/-- A command with all that it needs. -/
structure Command where
  action : Action
  input : Text
  options : Options
  deriving DecidableEq, Repr

/-- What a command line asks for. -/
inductive Request where
  | help
  | version
  | run (command : Command)
  /-- The arguments make no sense. -/
  | misuse
  deriving DecidableEq, Repr

/-! ### Single arguments -/

/-- An argument by its form. -/
inductive Arg where
  /-- `--`, behind which no options come. -/
  | divider
  /-- `--name` or `--name=value`. -/
  | long (name : Text) (value : Option Text)
  /-- `-abc`, a cluster of one-letter flags. -/
  | short (flags : Text)
  /-- Anything else; a single dash is a word too. -/
  | word (text : Text)
  deriving DecidableEq, Repr

/-- The form of an argument. -/
def Arg.ofText (s : Text) : Arg :=
  if s = "--".toList then divider
  else if startsWith "--".toList s then
    match cut? ['='] (s.drop 2) with
    | some (name, value) => long name (some value)
    | none => long (s.drop 2) none
  else if startsWith "-".toList s && s ≠ "-".toList then short (s.drop 1)
  else word s

/-- The flags. -/
inductive Flag where
  | help
  | version
  | verbose
  deriving DecidableEq, Repr

namespace Flag

/-- The flag with a given letter. -/
def ofLetter? (c : Char) : Option Flag :=
  if c = 'h' then some help else if c = 'V' then some version
  else if c = 'v' then some verbose else none

/-- The flag with a given name. -/
def ofName? (name : Text) : Option Flag :=
  if name = "help".toList then some help else if name = "version".toList then some version
  else if name = "verbose".toList then some verbose else none

end Flag

/-- Reads flags one after the other.  `top` says whether the version may be asked for, and `verbose`
whether that flag has been given, which is possible once at each level.  The answer is a request
that ends the reading, or whether `verbose` has been given by now. -/
def readFlags (top : Bool) : (verbose : Bool) → List (Option Flag) → Except Request Bool
  | verbose, [] => .ok verbose
  | verbose, f :: fs =>
    match f with
    | some .help => .error .help
    | some .version => .error (if top then .version else .misuse)
    | some .verbose => if verbose then .error .misuse else readFlags top true fs
    | none => .error .misuse

/-! ### Commands -/

/-- The options of a command that take a value. -/
inductive ValueOption where
  | attrName
  | moduleName
  | outDir
  deriving DecidableEq, Repr

/-- The option with a given name.  An output directory only makes sense when something is
written. -/
def ValueOption.ofName? (writes : Bool) (name : Text) : Option ValueOption :=
  if name = "attr-name".toList then some attrName
  else if name = "module-name".toList then some moduleName
  else if writes && name = "out-dir".toList then some outDir
  else none

/-- The arguments of a command that have been read so far. -/
structure Draft where
  verbose : Bool := false
  attrName : Option Text := none
  moduleName : Option Text := none
  outDir : Option Text := none
  input : Option Text := none
  deriving DecidableEq, Repr

namespace Draft

/-- Gives an option its value.  An option is given once, and a path is not empty. -/
def assign (d : Draft) (o : ValueOption) (value : Text) : Option Draft :=
  match o with
  | .attrName => if d.attrName.isSome then none else some { d with attrName := some value }
  | .moduleName => if d.moduleName.isSome then none else some { d with moduleName := some value }
  | .outDir =>
    if d.outDir.isSome || value.isEmpty then none else some { d with outDir := some value }

/-- Sets the path of the file to fold. -/
def setInput (d : Draft) (path : Text) : Option Draft :=
  if d.input.isSome || path.isEmpty then none else some { d with input := some path }

/-- The request that a command ends up with. -/
def finish (writes : Bool) (d : Draft) : Request :=
  match d.input with
  | none => .misuse
  | some input =>
    let options : Options :=
      { attrName := d.attrName.getD ({} : Options).attrName, moduleName := d.moduleName }
    .run ⟨if writes then .build d.outDir else .print, input, options⟩

/-- Reads the words behind the divider. -/
def readWords (writes : Bool) : Draft → List Text → Request
  | d, [] => d.finish writes
  | d, w :: ws =>
    match d.setInput w with
    | none => .misuse
    | some d' => readWords writes d' ws

/-- Reads the arguments of a command. -/
def readArgs (writes : Bool) : Draft → List Text → Request
  | d, [] => d.finish writes
  | d, a :: rest =>
    match Arg.ofText a with
    | .divider => readWords writes d rest
    | .word w =>
      match d.setInput w with
      | none => .misuse
      | some d' => readArgs writes d' rest
    | .short letters =>
      match readFlags false d.verbose (letters.map Flag.ofLetter?) with
      | .error r => r
      | .ok verbose => readArgs writes { d with verbose } rest
    | .long name value =>
      match ValueOption.ofName? writes name, value with
      | some o, some v =>
        match d.assign o v with
        | none => .misuse
        | some d' => readArgs writes d' rest
      | some o, none =>
        match rest with
        | [] => .misuse
        | v :: rest' =>
          match Arg.ofText v with
          | .word v =>
            match d.assign o v with
            | none => .misuse
            | some d' => readArgs writes d' rest'
          | _ => .misuse
      | none, some _ => .misuse
      | none, none =>
        match readFlags false d.verbose [Flag.ofName? name] with
        | .error r => r
        | .ok verbose => readArgs writes { d with verbose } rest

end Draft

/-! ### The whole line -/

/-- The words that may follow `help`. -/
def helpTopics : List Text := ["build", "print", "help"].map String.toList

/-- The request for help, in general or on one topic. -/
def readHelp : List Text → Request
  | [] => .help
  | [topic] => if helpTopics.contains topic then .help else .misuse
  | _ => .misuse

/-- Reads a command line; `verbose` says whether that flag has been given at the top. -/
def Request.ofArgs (verbose : Bool) : List Text → Request
  | [] => .misuse
  | a :: rest =>
    match Arg.ofText a with
    | .divider => .misuse
    | .word w =>
      if w = "build".toList then Draft.readArgs true {} rest
      else if w = "print".toList then Draft.readArgs false {} rest
      else if w = "help".toList then readHelp rest
      else .misuse
    | .short letters =>
      match readFlags true verbose (letters.map Flag.ofLetter?) with
      | .error r => r
      | .ok verbose => ofArgs verbose rest
    | .long _ (some _) => .misuse
    | .long name none =>
      match readFlags true verbose [Flag.ofName? name] with
      | .error r => r
      | .ok verbose => ofArgs verbose rest

end ClassFold
