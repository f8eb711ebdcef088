import ClassFold.Main
import ClassFold.Proofs.Component.ReadBack
import ClassFold.Proofs.Expr.Rewriting
import ClassFold.Proofs.Fold.Delimited
import ClassFold.Proofs.Fold.Edits
import ClassFold.Proofs.Fold.Embedding
import ClassFold.Proofs.Fold.Reparse
import ClassFold.Proofs.Template.ReadBack
import ClassFold.Proofs.Template.SourceMap
import ClassFold.Proofs.Template.WellFormed
import ClassFold.Proofs.Template.Bytewise
import ClassFold.Proofs.Template.Boundaries
import ClassFold.Proofs.Template.Agreement
import ClassFold.Proofs.Component.PassedOver
import ClassFold.Proofs.Template.Faults
import ClassFold.Proofs.Edit.Registration
import ClassFold.Proofs.Edit.OneByOne
import ClassFold.Proofs.Expr.Combining
import ClassFold.Proofs.Component.Frames
import ClassFold.Proofs.Expr.Classless
import ClassFold.Proofs.Expr.Delimiters
import ClassFold.Proofs.Expr.Rejoining
import ClassFold.Proofs.Fold.TwoPasses
import ClassFold.Proofs.Fold.Requoting
import ClassFold.Proofs.Template.Inference
import ClassFold.Proofs.Files.Building
import ClassFold.Proofs.Expr.Involution
import ClassFold.Proofs.Template.DirectiveNames
