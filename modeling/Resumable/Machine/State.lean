/-!
Values of the state field. The suspension points have the states from one
upwards, in the order in which they were numbered.
-/

namespace Resumable.State

/-- Before the first statement of the body. -/
def fresh : Int64 := 0

/-- Advancing gives nothing any more. -/
def finished : Int64 := -1

/-- An enumerable that has not handed out an enumerator. -/
def notStarted : Int64 := -2

/-- The body is executing, or has failed. -/
def running : Int64 := -3

def suspendedAt (point : Nat) : Int64 := Int64.ofNat point + 1

end Resumable.State
