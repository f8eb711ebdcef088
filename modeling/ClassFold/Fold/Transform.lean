import ClassFold.Component.Basic
import ClassFold.Edit.Apply
import ClassFold.Fold.Element
import ClassFold.Template.Forest

/-!
Folding whole templates and components.

The shorthands of a template are folded into class bindings, and everything else stays as it is.
In a component only the template is touched, and only if it is written in plain markup.
-/

namespace ClassFold

open Text

/-- How shorthands are folded. -/
structure Options where
  /-- The name of the shorthand attribute. -/
  attrName : Text := "cls".toList
  /-- The name of the style module, if it is not to be found in the component. -/
  moduleName : Option Text := none
  deriving DecidableEq, Repr

/-- A text after folding, with the edits that lead to it. -/
structure Folded where
  code : Text
  edits : List Edit
  deriving DecidableEq, Repr

namespace Folded

/-- A text that needs no edits. -/
def unchanged (source : Text) : Folded := ⟨source, []⟩

/-- Whether any edit was made. -/
def changed (f : Folded) : Bool := !f.edits.isEmpty

end Folded

/-- What can go wrong when a text is folded. -/
inductive FoldError where
  /-- The file does not consist of blocks. -/
  | malformedComponent
  | template (e : TemplateError)
  | edit (e : EditError)
  deriving DecidableEq, Repr

namespace FoldError

/-- The message for a text that cannot be folded. -/
def message : FoldError → String
  | malformedComponent => "the component does not consist of well-formed blocks"
  | template e => e.message
  | edit e => e.message

end FoldError

/-- Folds the shorthands of the given nodes, which stand in `source`. -/
def foldNodes (shorthand moduleName source : Text) (nodes : List Node) :
    Except FoldError Folded :=
  let list := EditList.empty.updateAll (foldEdits shorthand moduleName nodes)
  if list.isEmpty then .ok (.unchanged source)
  else
    match list.apply source with
    | .error e => .error (.edit e)
    | .ok code => .ok ⟨code, list.edits⟩

/-- Folds the template that starts at byte `base` of `source` and ends inside it, so that its offsets
are exact. -/
def foldMarkup (shorthand moduleName source : Text) (base : Nat) (template : Text) :
    Except FoldError Folded :=
  match readTemplate base template with
  | .error e => .error (.template e)
  | .ok nodes => foldNodes shorthand moduleName source nodes

/-- Folds a bare template. -/
def foldTemplate (options : Options) (source : Text) : Except FoldError Folded :=
  foldMarkup options.attrName (options.moduleName.getD defaultModuleName) source 0 source

/-- The name of the style module for a component: the one asked for, or else the first one of the
component, or else the default one. -/
def styleModuleFor (options : Options) (component : Component) : Text :=
  (options.moduleName.or component.styleModule?).getD defaultModuleName

/-- Whether a template is written in plain markup. -/
def isPlainMarkup (template : Block) : Bool :=
  match template.lang? with
  | none => true
  | some lang => lang == "html".toList

/-- Folds the template of a component. -/
def foldComponent (options : Options) (source : Text) : Except FoldError Folded :=
  match Component.ofText source with
  | none => .error .malformedComponent
  | some component =>
    match component.template.filter isPlainMarkup with
    | none => .ok (.unchanged source)
    | some template =>
      foldMarkup options.attrName (styleModuleFor options component) source template.span.start
        template.content

end ClassFold
