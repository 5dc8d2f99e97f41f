import Resumable.Semantics.Structured

/-!
Decidable equality of what a run shows: values, host calls, observations and errors.
-/

namespace Resumable

namespace Value

mutual
/-- Equality of values with all their items, which programs cannot see. -/
def same : Value → Value → Bool
  | .int a, .int b => a = b
  | .bool a, .bool b => a = b
  | .str a, .str b => a = b
  | .null, .null => true
  | .array a as, .array b bs => a = b && sameAll as bs
  | .object a, .object b => a = b
  | _, _ => false

def sameAll : List Value → List Value → Bool
  | [], [] => true
  | a :: as, b :: bs => same a b && sameAll as bs
  | _, _ => false
end

mutual
theorem same_iff (a b : Value) : same a b = true ↔ a = b := by
  cases a with
  | array a as => cases b <;> simp [same, sameAll_iff as]
  | _ => cases b <;> simp [same]

theorem sameAll_iff (as bs : List Value) : sameAll as bs = true ↔ as = bs := by
  cases as with
  | nil => cases bs <;> simp [sameAll]
  | cons a as => cases bs <;> simp [sameAll, same_iff a, sameAll_iff as]
end

instance : DecidableEq Value := fun a b => decidable_of_iff _ (same_iff a b)

end Value

deriving instance DecidableEq for HostCall, Structured.Observation, Malformation, EvalError

end Resumable
