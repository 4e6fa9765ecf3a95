import ScriptSandbox.Eval
import ScriptSandbox.Json.Printer
import ScriptSandbox.Json.Reader
import ScriptSandbox.Limits.Config
import ScriptSandbox.Syntax.Build
import ScriptSandbox.Syntax.Decode
import ScriptSandbox.Syntax.Equality
import ScriptSandbox.Proofs.Assignment
import ScriptSandbox.Proofs.Attribute
import ScriptSandbox.Proofs.Change
import ScriptSandbox.Proofs.Containers
import ScriptSandbox.Proofs.Control
import ScriptSandbox.Proofs.Counters
import ScriptSandbox.Proofs.Deadline
import ScriptSandbox.Proofs.Division
import ScriptSandbox.Proofs.Elements
import ScriptSandbox.Proofs.Extremum
import ScriptSandbox.Proofs.Failure
import ScriptSandbox.Proofs.Fatal
import ScriptSandbox.Proofs.InPlace
import ScriptSandbox.Proofs.History
import ScriptSandbox.Proofs.Inexact
import ScriptSandbox.Proofs.Iteration
import ScriptSandbox.Proofs.Lexical
import ScriptSandbox.Proofs.Literal
import ScriptSandbox.Proofs.Membership
import ScriptSandbox.Proofs.Mutators
import ScriptSandbox.Proofs.Order.Number
import ScriptSandbox.Proofs.Quota.Run
import ScriptSandbox.Proofs.Report
import ScriptSandbox.Proofs.Rendering
import ScriptSandbox.Proofs.RoundTrip
import ScriptSandbox.Proofs.SetAlgebra
import ScriptSandbox.Proofs.Slice.Assignment
import ScriptSandbox.Proofs.Slice.Range
import ScriptSandbox.Proofs.Specification
import ScriptSandbox.Proofs.Structure
import ScriptSandbox.Proofs.TopLevel
import ScriptSandbox.Proofs.Trace
import ScriptSandbox.Proofs.Enumeration
import ScriptSandbox.Proofs.NearestMultiple
import ScriptSandbox.Proofs.Pattern.Capture
import ScriptSandbox.Proofs.Pattern.Remaining
import ScriptSandbox.Proofs.Pattern.Settled
import ScriptSandbox.Proofs.Pattern.Matching
import ScriptSandbox.Proofs.Pattern.Binding
import ScriptSandbox.Proofs.Parameters
import ScriptSandbox.Proofs.Unpacking
import ScriptSandbox.Proofs.Splitting
import ScriptSandbox.Proofs.Words
import ScriptSandbox.Proofs.Numeral
import ScriptSandbox.Proofs.Replacement
import ScriptSandbox.Proofs.Search
import ScriptSandbox.Proofs.TextQuota
import ScriptSandbox.Proofs.Access
import ScriptSandbox.Proofs.Grouping
import ScriptSandbox.Proofs.Collecting
import ScriptSandbox.Proofs.Comprehension
import ScriptSandbox.Proofs.Chain
