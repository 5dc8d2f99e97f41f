import Resumable.Checked
import Resumable.Diagnostic
import Resumable.EvalError
import Resumable.Exchange.Machine
import Resumable.Exchange.Method
import Resumable.Exchange.Settings
import Resumable.Json
import Resumable.Json.Number
import Resumable.Json.Reader
import Resumable.Json.Writer
import Resumable.Lowering
import Resumable.Lowering.Capture
import Resumable.Lowering.Dispatch
import Resumable.Lowering.Error
import Resumable.Lowering.Foreach
import Resumable.Lowering.Members
import Resumable.Lowering.Protocol
import Resumable.Lowering.Shape
import Resumable.Lowering.Structure
import Resumable.Machine.Basic
import Resumable.Machine.Code
import Resumable.Machine.Printer
import Resumable.Machine.State
import Resumable.Method.Basic
import Resumable.Method.Build
import Resumable.Method.Equality
import Resumable.Method.Expr
import Resumable.Method.Stmt
import Resumable.Method.Visit
import Resumable.Name
import Resumable.Options
import Resumable.Platform
import Resumable.Semantics.Consumer
import Resumable.Semantics.Execution
import Resumable.Semantics.History
import Resumable.Semantics.Structured
import Resumable.Semantics.World
import Resumable.Session
import Resumable.SortedSet
import Resumable.Table
import Resumable.Text.Printable
import Resumable.Text.Quoted
import Resumable.Ty
import Resumable.Value
import Resumable.Value.Operators
import Resumable.Proofs.Binding
import Resumable.Proofs.Running
import Resumable.Proofs.Reaching
import Resumable.Proofs.Cleanups
import Resumable.Proofs.Completion
import Resumable.Proofs.Disposal
import Resumable.Proofs.EarlyExit
import Resumable.Proofs.Emission
import Resumable.Proofs.Checking
import Resumable.Proofs.Fitting
import Resumable.Proofs.Mentions
import Resumable.Proofs.WellFormed
import Resumable.Proofs.Rebinding
import Resumable.Proofs.Validation
import Resumable.Proofs.Emittable
import Resumable.Proofs.Lowerable
import Resumable.Proofs.Fuel
import Resumable.Proofs.Accord
import Resumable.Proofs.Custody
import Resumable.Proofs.Operations
import Resumable.Proofs.Protocol
import Resumable.Proofs.Safety
import Resumable.Proofs.Hoisting
import Resumable.Proofs.Failure
import Resumable.Proofs.Finality
import Resumable.Proofs.Lineage
import Resumable.Proofs.Independence
import Resumable.Proofs.Meaning
import Resumable.Proofs.Conduct
import Resumable.Proofs.Truncation
import Resumable.Proofs.Sites
import Resumable.Proofs.StateTable
import Resumable.Proofs.Acts
import Resumable.Proofs.Containment
import Resumable.Proofs.Surplus
import Resumable.Proofs.NormalForm
import Resumable.Proofs.Naming
import Resumable.Proofs.Generics
