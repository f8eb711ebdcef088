import ClassFold.Expr.Binding
import ClassFold.Expr.Items

/-!
Combining class bindings.

Further classes come as object entries or as items.  An object on either side makes the outcome an
object, where each item becomes an entry that is switched on; otherwise the outcome is an array.
-/

namespace ClassFold

open Text

/-- Classes to be added to a binding. -/
inductive Incoming where
  /-- The content of an object. -/
  | entries (text : Text)
  /-- Class values, one by one. -/
  | items (list : List Text)
  deriving DecidableEq, Repr

/-- Content with a comma behind it, or nothing when the content is blank. -/
def leading (content : Text) : Text := if allBlank content then [] else content ++ [',']

/-- An object with the given content. -/
def braced (content : Text) : Text := '{' :: content ++ ['}']

/-- An array with the given content. -/
def bracketed (content : Text) : Text := '[' :: content ++ [']']

/-- A binding with further classes behind those it has. -/
def Binding.combine : Binding → Incoming → Text
  | object content, .entries text => braced (leading content ++ text)
  | object content, .items list =>
    braced (leading content ++ commaJoin (list.map booleanEntry))
  | array content, .entries text => braced (leading (entriesOfItems content) ++ text)
  | array content, .items list => bracketed (leading content ++ commaJoin list)
  | plain expr, .entries text =>
    braced (if expr.isEmpty then text else booleanEntry expr ++ ',' :: text)
  | plain expr, .items list => bracketed (leading expr ++ commaJoin list)

/-- The expression `destination` with further classes behind those it has. -/
def combine (destination : Text) (incoming : Incoming) : Text :=
  (Binding.ofText destination).combine incoming

end ClassFold
