/-!
Positions in the source text and the reports attached to them.
-/

namespace Resumable

structure Span where
  start : Nat
  stop : Nat
deriving DecidableEq

def Span.text (span : Span) : String :=
  toString span.start ++ ".." ++ toString span.stop

/-- A failed lowering, reported at the method it concerns. -/
structure Diagnostic where
  message : String
  span : Span
deriving DecidableEq

namespace Diagnostic

def severity : String := "ERROR"

def phase : String := "Lowering"

def text (report : Diagnostic) : String :=
  severity ++ " [" ++ phase ++ "] " ++ report.span.text ++ ": " ++ report.message

end Diagnostic
end Resumable
