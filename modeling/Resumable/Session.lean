import Resumable.Lowering
import Resumable.Machine.Printer

/-!
Sources that are lowered on demand: a method with everything its lowering depends
on. Each lowering starts with an unused name supply.
-/

namespace Resumable

structure Source where
  method : Method
  platform : Platform
  options : Options

inductive Outcome where
  | lowered (result : Lowered)
  /-- The platform lacks a member, so the method stays as it is. -/
  | unchanged (method : Method)
  /-- The method is at fault; a diagnostic says why. -/
  | failed (method : Method)

namespace Source

def lower (source : Source) : Except LowerError Lowered :=
  match source.method.lower source.platform source.options .empty with
  | .ok lowered _ => .ok lowered
  | .error e _ => .error e

def outcome (source : Source) : Outcome :=
  match source.lower with
  | .ok lowered => .lowered lowered
  | .error e => if e.isPrecondition then .unchanged source.method else .failed source.method

def diagnostics (source : Source) : List Diagnostic :=
  match source.lower with
  | .ok _ => []
  | .error e => if e.isPrecondition then [] else [⟨e.message, source.method.span⟩]

end Source

namespace Outcome

def lowered? : Outcome → Option Lowered
  | .lowered result => some result
  | _ => none

/-- The method as it was given. -/
def method : Outcome → Method
  | .lowered result => result.source
  | .unchanged method => method
  | .failed method => method

def print : Outcome → String
  | .lowered result => result.print
  | .unchanged method => "unchanged " ++ method.name ++ "\n"
  | .failed method => "failed " ++ method.name ++ "\n"

end Outcome
end Resumable
