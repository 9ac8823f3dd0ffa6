import LetPoly.Builtins
import LetPoly.Context
import LetPoly.Expr.Basic
import LetPoly.Expr.Json
import LetPoly.Ident
import LetPoly.Infer
import LetPoly.Json.Basic
import LetPoly.Json.Reader
import LetPoly.Literal
import LetPoly.NameMap
import LetPoly.NameSupply
import LetPoly.Number.Binary64
import LetPoly.Number.Numeral
import LetPoly.OrderedMap
import LetPoly.Pattern
import LetPoly.Prelude
import LetPoly.Scheme
import LetPoly.Signature.Parser
import LetPoly.Signature.Token
import LetPoly.Subst
import LetPoly.Text.Alphabetic
import LetPoly.Text.Blank
import LetPoly.Text.CodeRange
import LetPoly.Text.Digits
import LetPoly.Text.Extender
import LetPoly.Text.Numeric
import LetPoly.Text.Parens
import LetPoly.Text.Quoted
import LetPoly.Text.Unprintable
import LetPoly.Text.Uppercase
import LetPoly.Toml.Moment
import LetPoly.Toml.StringTable
import LetPoly.Toml.Token
import LetPoly.Ty
import LetPoly.Ty.Json
import LetPoly.TypeError
import LetPoly.Unify
import LetPoly.Proofs.Substitution
import LetPoly.Proofs.Unification
import LetPoly.Proofs.Termination
import LetPoly.Proofs.UnificationErrors
import LetPoly.Proofs.Generalization
import LetPoly.Proofs.Numeration
import LetPoly.Proofs.Supply
import LetPoly.Proofs.Drawing
import LetPoly.Proofs.Run
import LetPoly.Proofs.Nesting
import LetPoly.Proofs.Scope
import LetPoly.Proofs.Typing
import LetPoly.Proofs.Capture
import LetPoly.Proofs.Soundness
import LetPoly.Proofs.Principality
import LetPoly.Proofs.ScopeErrors
import LetPoly.Proofs.Renaming
import LetPoly.Proofs.Symmetry
import LetPoly.Proofs.Alpha
import LetPoly.Proofs.Shelter
import LetPoly.Proofs.Composition
import LetPoly.Proofs.Locality
import LetPoly.Proofs.CompositionLaw
import LetPoly.Proofs.Normal
import LetPoly.Proofs.Closed
import LetPoly.Proofs.Inlining
import LetPoly.Proofs.Signature.Grammar
import LetPoly.Proofs.Signature.RoundTrip
import LetPoly.Proofs.Signature.Errors
import LetPoly.Proofs.Equality
import LetPoly.Proofs.Json.Numeral
import LetPoly.Proofs.Json.Text
import LetPoly.Proofs.Json.Depth
import LetPoly.Proofs.Json.RoundTrip
import LetPoly.Proofs.Json.Tree
import LetPoly.Proofs.Coincidence
import LetPoly.Proofs.Session
import LetPoly.Proofs.Erasure
import LetPoly.Proofs.Prelude
import LetPoly.Proofs.Signature.Inferred
import LetPoly.Proofs.Text.Utf8
import LetPoly.Proofs.Text.Quoted
import LetPoly.Proofs.Number.Exact
import LetPoly.Proofs.Printing.Agreement
import LetPoly.Proofs.Printing.Literal
import LetPoly.Proofs.Printing.Syntax
import LetPoly.Proofs.Printing.Unambiguous
