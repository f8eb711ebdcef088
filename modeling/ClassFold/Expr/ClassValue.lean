import ClassFold.Expr.Binding
import ClassFold.Expr.Items
import ClassFold.Expr.Operator

/-!
Class values: the structure of a class expression.

An expression names classes by string literals, by the keys of objects, by the items of arrays and
by the branches of conditionals and logical operators; whatever else stands there is a name to be
looked up when the page runs.  `ClassValue.ofText` reads every text as a class value.
-/

namespace ClassFold

open Text

/-- The content of a plain string literal: the same mark at both ends and not inside, and no
substitution between backticks. -/
def unquote? (s : Text) : Option Text :=
  match s.head? with
  | none => none
  | some mark =>
    if Nesting.isMark mark then
      (between? mark mark s).filter fun body =>
        !(body.contains mark || (mark == backtick && (cut? ['$', '{'] body).isSome))
    else none

/-- An entry of an object of classes. -/
inductive Entry where
  /-- `...rest`, kept as it stands. -/
  | spread (text : Text)
  /-- `name`, which stands for `name: name`. -/
  | shorthand (name : Text)
  /-- `[key]: value`. -/
  | computed (key value : Text)
  /-- `'one two': value`, with the class names between the marks. -/
  | quoted (names : List Text) (value : Text)
  /-- `name: value`. -/
  | named (name value : Text)
  deriving DecidableEq, Repr

namespace Entry

/-- The entry with a given key and value. -/
def ofKeyValue (key value : Text) : Entry :=
  match between? '[' ']' key with
  | some expr => computed (trim expr) value
  | none =>
    match unquote? key with
    | some names => quoted (classNames names) value
    | none => named key value

/-- The entry written as an item of an object. -/
def ofText (item : Text) : Entry :=
  if startsWith "...".toList item then spread item
  else
    match cutTop ':' item with
    | some (key, value) => ofKeyValue (trim key) (trim value)
    | none => shorthand item

end Entry

/-- A class expression by its structure. -/
inductive ClassValue where
  /-- A string literal, with the class names in it. -/
  | literal (names : List Text)
  /-- An object whose keys are class names. -/
  | object (entries : List Entry)
  /-- An array of class values. -/
  | array (items : List ClassValue)
  /-- `test ? yes : no`. -/
  | conditional (test : Text) (yes no : ClassValue)
  /-- Two class values joined by `||` or `??`. -/
  | choice (left : ClassValue) (op : Operator) (right : ClassValue)
  /-- `test && value`. -/
  | guarded (test : Text) (value : ClassValue)
  /-- Any other expression; its value is the name of a class. -/
  | dynamic (expr : Text)
  deriving Repr

namespace ClassValue

/-- The class value that a text stands for.  Literals and delimiters are looked at first, then the
conditional, then the operators, those that bind loosest first. -/
def ofText (s : Text) : ClassValue :=
  match unquote? (trim s) with
  | some body => literal (classNames body)
  | none =>
    match _hb : Binding.ofText s with
    | .object content => object ((topItems content).map Entry.ofText)
    | .array content => array ((topItems content).attach.map fun ⟨i, _⟩ => ofText i)
    | .plain _ =>
      match _hc : splitConditional (trim s) with
      | some (test, yes, no) => conditional (trim test) (ofText yes) (ofText no)
      | none =>
        match _ho : splitLast [.or, .nullish] (trim s) with
        | some (left, op, right) => choice (ofText left) op (ofText right)
        | none =>
          match _ha : splitLast [.and] (trim s) with
          | some (test, _, value) => guarded test (ofText value)
          | none => dynamic (trim s)
termination_by s.length
decreasing_by
  · have := length_le_of_mem_topItems ‹_›
    have := Binding.length_of_ofText_eq_array _hb
    omega
  · have := congrArg List.length (eq_of_splitConditional _hc)
    have := length_trim_le s
    simp only [List.length_append, List.length_cons] at *
    omega
  · have := congrArg List.length (eq_of_splitConditional _hc)
    have := length_trim_le s
    simp only [List.length_append, List.length_cons] at *
    omega
  · have := (length_lt_of_splitLast _ho).1
    have := length_trim_le s
    omega
  · have := (length_lt_of_splitLast _ho).2
    have := length_trim_le s
    omega
  · have := (length_lt_of_splitLast _ha).2
    have := length_trim_le s
    omega

/-- Whether a class value is a string literal. -/
def isLiteral : ClassValue → Bool
  | literal _ => true
  | _ => false

end ClassValue

end ClassFold
