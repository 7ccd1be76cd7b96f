import Lisp.Location
import Lisp.Fault
import Lisp.Builtin
import Lisp.Number.Binary64
import Lisp.Number.Shortest
import Lisp.Number.Word
import Lisp.Number.Basic
import Lisp.Text.Range
import Lisp.Text.Space
import Lisp.Text.Mark
import Lisp.Text.Hidden
import Lisp.Text.Cluster
import Lisp.Text.Quoted
import Lisp.Token
import Lisp.Datum.Basic
import Lisp.Datum.Atom
import Lisp.Datum.Reader
import Lisp.Value.Basic
import Lisp.Value.Printer
import Lisp.Value.Inspect
import Lisp.Value.Numeric
import Lisp.Value.Equality
import Lisp.Scope.Bindings
import Lisp.Scope.Forest
import Lisp.Session.Basic
import Lisp.Session.Eval
import Lisp.Evaluator.Expansion
import Lisp.Evaluator.Procedure
import Lisp.Evaluator.Basic
import Lisp.Host.Sample
import Lisp.Repl.Basic
import Lisp.Repl
import Lisp.Main
import Lisp.Proofs.Evaluation.BigStep
import Lisp.Proofs.Evaluation.Deed
import Lisp.Proofs.Evaluation.Change
import Lisp.Proofs.Evaluation.Turns
import Lisp.Proofs.Evaluation.Counts
import Lisp.Proofs.Evaluation.Adequacy
import Lisp.Proofs.Evaluation.Limit
import Lisp.Proofs.Evaluation.Activation
import Lisp.Proofs.Printing.Spelling
import Lisp.Proofs.Printing.Text
import Lisp.Proofs.Reading.Literal
import Lisp.Proofs.Reading.Stack
import Lisp.Proofs.Reading.Grammar
import Lisp.Proofs.Reading.Recognition
import Lisp.Proofs.Reading.Continuation
import Lisp.Proofs.Reading.RoundTrip
import Lisp.Proofs.Reading.Matching
import Lisp.Proofs.Reading.Lexemes
import Lisp.Proofs.Reading.Segmentation
import Lisp.Proofs.Reading.Joining
import Lisp.Proofs.Reading.Escapes
import Lisp.Proofs.Reading.Numerals
import Lisp.Proofs.Reading.Refusal
import Lisp.Proofs.Reading.Reprinting
import Lisp.Proofs.Arithmetic.Overflow
import Lisp.Proofs.Arithmetic.Exactness
import Lisp.Proofs.Arithmetic.Order
import Lisp.Proofs.Arithmetic.Bits
import Lisp.Proofs.Arithmetic.Rounding
import Lisp.Proofs.Arithmetic.Comparison
import Lisp.Proofs.Printing.Floats
import Lisp.Proofs.Equality.Structural
import Lisp.Proofs.Places.Relocation
import Lisp.Proofs.Places.Erasure
import Lisp.Proofs.Places.Equivariance
import Lisp.Proofs.Places.Irrelevance
import Lisp.Proofs.Evaluation.Confinement
import Lisp.Proofs.Evaluation.Privacy
import Lisp.Proofs.Evaluation.Discipline
import Lisp.Proofs.Places.Blame
import Lisp.Proofs.Evaluation.Parameters
import Lisp.Proofs.Places.Dialogue
import Lisp.Proofs.Places.Pieces
import Lisp.Proofs.Places.Written
import Lisp.Proofs.Evaluation.Recursion
import Lisp.Proofs.Equality.Sharing
import Lisp.Proofs.Equality.Data
import Lisp.Proofs.Evaluation.Assignment
import Lisp.Proofs.Evaluation.Alike
import Lisp.Proofs.Expansion.Positions
import Lisp.Proofs.Expansion.FirstOrder
import Lisp.Proofs.Scopes.ByteOrder
import Lisp.Proofs.Scopes.Visible
import Lisp.Proofs.Reading.Moving
import Lisp.Proofs.Conversation.Numbering
import Lisp.Proofs.Conversation.Insertion
import Lisp.Proofs.Conversation.Undisturbed
