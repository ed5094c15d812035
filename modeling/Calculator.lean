import Calculator.Builtin.Sample
import Calculator.Main
import Calculator.Proofs.Arrays
import Calculator.Proofs.Arrays.Address
import Calculator.Proofs.Arrays.Distinct
import Calculator.Proofs.Arrays.Length
import Calculator.Proofs.Arrays.Sorting
import Calculator.Proofs.Arrays.Text
import Calculator.Proofs.Calls.ByName
import Calculator.Proofs.Calls.ByValue
import Calculator.Proofs.Combinatorics
import Calculator.Proofs.Correspondence
import Calculator.Proofs.Correspondence.Argument
import Calculator.Proofs.Correspondence.Builtin.Control
import Calculator.Proofs.Correspondence.Builtin.Math
import Calculator.Proofs.Correspondence.Builtin.Memory
import Calculator.Proofs.Correspondence.Builtin.Program
import Calculator.Proofs.Correspondence.Solve
import Calculator.Proofs.Dispatch
import Calculator.Proofs.Expr.Answer
import Calculator.Proofs.Expr.Definitions
import Calculator.Proofs.Expr.Exponent
import Calculator.Proofs.Expr.Formed
import Calculator.Proofs.Expr.Grammar
import Calculator.Proofs.Expr.Nesting
import Calculator.Proofs.Expr.Prefixes
import Calculator.Proofs.Expr.Reading
import Calculator.Proofs.Expr.Rereading
import Calculator.Proofs.Expr.Scopes
import Calculator.Proofs.Expr.Spelling
import Calculator.Proofs.Expr.Targets
import Calculator.Proofs.Extremum
import Calculator.Proofs.Frames
import Calculator.Proofs.Frames.Balance
import Calculator.Proofs.Frames.Chain
import Calculator.Proofs.Frames.Cycle
import Calculator.Proofs.Frames.Deep
import Calculator.Proofs.Frames.Isolation
import Calculator.Proofs.Frames.Order
import Calculator.Proofs.Names.Reading
import Calculator.Proofs.Number.Decimal
import Calculator.Proofs.Number.Sign
import Calculator.Proofs.Places
import Calculator.Proofs.Text.Escapes
import Calculator.Proofs.Text.Quoted
import Calculator.Proofs.Token.Brackets
import Calculator.Proofs.Token.Comments
import Calculator.Proofs.Token.Lexing
import Calculator.Proofs.Token.Parameters
import Calculator.Proofs.Token.Printing
import Calculator.Proofs.Token.Shape
import Calculator.Proofs.Token.SignRuns
import Calculator.Proofs.Token.Signs
import Calculator.Proofs.Token.Splitting
import Calculator.Proofs.Variables
