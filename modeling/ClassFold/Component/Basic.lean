import ClassFold.Component.Reader

/-!
Components.

A component is made of the blocks of its file.  Of several templates, plain scripts or setup
scripts the last one counts; all style sheets count.  A style sheet may expose its class names as
a module.
-/

namespace ClassFold

/-- A component by its blocks. -/
structure Component where
  template : Option Block
  script : Option Block
  setupScript : Option Block
  styles : List Block
  deriving DecidableEq, Repr

/-- The name of a style module without a name of its own. -/
def defaultModuleName : Text := "$style".toList

/-- The name under which a style sheet exposes its classes, if it does. -/
def Block.styleModule? (b : Block) : Option Text :=
  (b.attr? "module".toList).map fun a =>
    match a.value with
    | none | some [] => defaultModuleName
    | some name => name

namespace Component

/-- The component made of the given blocks. -/
def ofBlocks (blocks : List Block) : Component where
  template := (blocks.filter (·.kind == .template)).getLast?
  script := (blocks.filter fun b => b.kind == .script && !b.isSetup).getLast?
  setupScript := (blocks.filter fun b => b.kind == .script && b.isSetup).getLast?
  styles := blocks.filter (·.kind == .style)

/-- The component in a file, or nothing if the file cannot be split into blocks. -/
def ofText (source : Text) : Option Component := (readBlocks ⟨0, source⟩).map ofBlocks

/-- The first style module of a component. -/
def styleModule? (c : Component) : Option Text := c.styles.findSome? Block.styleModule?

end Component

end ClassFold
