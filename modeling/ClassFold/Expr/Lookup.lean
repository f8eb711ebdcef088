import ClassFold.Expr.ClassValue
import ClassFold.Expr.Combine

/-!
Class values as lookups in a style module.

A style module maps the class names of a component to the names that appear on the page, so a class
name is written as a lookup `module['name']`.  `resolveExpression` turns all class names of an
expression into lookups.  It gives the content of the outcome, without the delimiters of an outer
object or array, so that it can be merged into another binding; an expression without any class
gives nothing.
-/

namespace ClassFold

open Text

/-- How lookups are written: the name of the style module, and the marks around a class name. -/
structure LookupStyle where
  moduleName : Text
  quote : Quote
  deriving DecidableEq, Repr

namespace LookupStyle

/-- The lookup of an expression, `module[expr]`. -/
def dynamic (style : LookupStyle) (expr : Text) : Text := style.moduleName ++ bracketed expr

/-- The lookup of a class name, `module['name']`. -/
def named (style : LookupStyle) (name : Text) : Text := style.dynamic (style.quote.wrap name)

end LookupStyle

namespace Entry

/-- An object entry with a given key expression. -/
def keyed (key value : Text) : Text := '[' :: key ++ "]:".toList ++ value

/-- The object entries that an entry becomes: one for each class name in its key. -/
def resolve (style : LookupStyle) : Entry → List Text
  | spread text => [text]
  | shorthand name => [keyed (style.named name) name]
  | computed key value => [keyed (style.dynamic key) value]
  | quoted names value => names.map fun name => keyed (style.named name) value
  | named name value => [keyed (style.named name) value]

end Entry

/-- The content of an object with the given entries. -/
def resolveEntries (style : LookupStyle) (entries : List Entry) : Text :=
  commaJoin (entries.flatMap (Entry.resolve style))

namespace ClassValue

/-- A resolved class value in a place for one expression: nothing becomes the empty literal, and a
literal with several lookups becomes an array. -/
def asOperand (v : ClassValue) : Option Text → Text
  | none => "''".toList
  | some t => if v.isLiteral && 1 < (topItems t).length then bracketed t else t

mutual

/-- A class value with its class names as lookups.  A literal with several names becomes several
lookups, and one without names becomes nothing. -/
def resolve (style : LookupStyle) : ClassValue → Option Text
  | literal names =>
    if names.isEmpty then none else some (commaJoin (names.map style.named))
  | object entries => some (braced (resolveEntries style entries))
  | array items => some (bracketed (commaJoin (resolveItems style items)))
  | conditional test yes no =>
    some (test ++ " ? ".toList ++ yes.asOperand (resolve style yes) ++ " : ".toList ++
      no.asOperand (resolve style no))
  | choice left op right =>
    some (left.asOperand (resolve style left) ++ ' ' :: op.text ++ ' ' ::
      right.asOperand (resolve style right))
  | guarded test value =>
    some (test ++ " && ".toList ++ value.asOperand (resolve style value))
  | dynamic expr => some (style.dynamic expr)

/-- The resolved items of an array, without those that become nothing. -/
def resolveItems (style : LookupStyle) : List ClassValue → List Text
  | [] => []
  | v :: vs => (resolve style v).toList ++ resolveItems style vs

end

/-- A resolved class value without the delimiters of an outer object or array. -/
def resolveContent (style : LookupStyle) : ClassValue → Option Text
  | object entries => some (resolveEntries style entries)
  | array items => some (commaJoin (resolveItems style items))
  | v => resolve style v

end ClassValue

/-- The content of an expression with its class names as lookups, or nothing when no class is
left. -/
def resolveExpression (style : LookupStyle) (expr : Text) : Option Text :=
  if allBlank expr then none
  else ((ClassValue.ofText expr).resolveContent style).filter (!·.isEmpty)

end ClassFold
