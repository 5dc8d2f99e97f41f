/-!
Pure checks inside steps that carry a state.
-/

namespace Resumable

variable {ε σ α : Type}

/-- A step that leaves the state alone and fails when the check does. -/
def checked : Except ε α → EStateM ε σ α
  | .ok a => pure a
  | .error e => throw e

@[simp] theorem checked_ok (a : α) (s : σ) :
    (checked (.ok a) : EStateM ε σ α) s = .ok a s := rfl

@[simp] theorem checked_error (e : ε) (s : σ) :
    (checked (.error e) : EStateM ε σ α) s = .error e s := rfl

end Resumable
