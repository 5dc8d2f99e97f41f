import Resumable.Checked

/-!
How steps that carry a state fit together: what a sequence that succeeded did, and
what it takes for two computations to agree as long as a measure of the state is small.
-/

namespace Resumable

variable {ε σ α β : Type}

/-- The state in which a computation ends, however it ends. -/
def finalState : EStateM.Result ε σ α → σ
  | .ok _ s => s
  | .error _ s => s

@[simp] theorem finalState_ok (a : α) (s : σ) :
    finalState (.ok a s : EStateM.Result ε σ α) = s := rfl

@[simp] theorem finalState_error (e : ε) (s : σ) :
    finalState (.error e s : EStateM.Result ε σ α) = s := rfl

/-- The result of a computation that succeeded. -/
def result? : EStateM.Result ε σ α → Option α
  | .ok a _ => some a
  | .error _ _ => none

theorem result?_eq_some {result : EStateM.Result ε σ α} {a : α} :
    result? result = some a ↔ ∃ s, result = .ok a s := by
  cases result <;> simp [result?]

theorem bind_of_ok {x : EStateM ε σ α} {f : α → EStateM ε σ β} {s s' : σ} {a : α}
    (first : x s = .ok a s') : (x >>= f) s = f a s' := by
  simp only [bind, EStateM.bind, first]

theorem bind_of_error {x : EStateM ε σ α} {f : α → EStateM ε σ β} {s s' : σ} {e : ε}
    (first : x s = .error e s') : (x >>= f) s = .error e s' := by
  simp only [bind, EStateM.bind, first]

theorem bind_eq_ok {x : EStateM ε σ α} {f : α → EStateM ε σ β} {s s'' : σ} {b : β} :
    (x >>= f) s = .ok b s'' ↔ ∃ a s', x s = .ok a s' ∧ f a s' = .ok b s'' := by
  cases first : x s with
  | ok a s' => simp [bind_of_ok first, and_assoc]
  | error e s' => simp [bind_of_error first]

@[simp] theorem pure_eq_ok {s s' : σ} {a b : α} :
    (pure a : EStateM ε σ α) s = .ok b s' ↔ a = b ∧ s = s' := by
  simp [pure, EStateM.pure]

@[simp] theorem pure_eq_error {s s' : σ} {a : α} {e : ε} :
    (pure a : EStateM ε σ α) s = .error e s' ↔ False := by
  simp [pure, EStateM.pure]

@[simp] theorem throw_eq_ok {s s' : σ} {a : α} {e : ε} :
    (throw e : EStateM ε σ α) s = .ok a s' ↔ False :=
  ⟨(fun same => nomatch same), False.elim⟩

@[simp] theorem throw_eq_error {s s' : σ} {e e' : ε} :
    (throw e : EStateM ε σ α) s = .error e' s' ↔ e = e' ∧ s = s' := by
  change (.error e s : EStateM.Result ε σ α) = .error e' s' ↔ e = e' ∧ s = s'
  simp

theorem checked_eq_ok {x : Except ε α} {s s' : σ} {a : α} :
    (checked x : EStateM ε σ α) s = .ok a s' ↔ x = .ok a ∧ s = s' := by
  cases x <;> simp

theorem except_bind_eq_ok {x : Except ε α} {f : α → Except ε β} {b : β} :
    (x >>= f) = .ok b ↔ ∃ a, x = .ok a ∧ f a = .ok b := by
  cases x <;> simp [bind, Except.bind]

@[simp] theorem except_pure_eq_ok {a b : α} :
    (pure a : Except ε α) = .ok b ↔ a = b := by
  simp [pure, Except.pure]

/-- The computation fails with errors of the kind only. -/
def FailsOnly (kind : ε → Prop) (x : Except ε α) : Prop := ∀ e, x = .error e → kind e

namespace FailsOnly
variable {kind : ε → Prop}

theorem ok (a : α) : FailsOnly kind (.ok a) := nofun

theorem error {e : ε} (fits : kind e) : FailsOnly kind (.error e : Except ε α) := by
  rintro e' ⟨⟩
  exact fits

theorem bind {x : Except ε α} {f : α → Except ε β} (first : FailsOnly kind x)
    (next : ∀ a, FailsOnly kind (f a)) : FailsOnly kind (x >>= f) := by
  intro e failed
  cases x with
  | ok a => exact next a e failed
  | error e' => exact first e (congrArg _ (Except.error.inj failed))

end FailsOnly

/-- From every state the computation returns a result of the kind. -/
def Succeeds (x : EStateM ε σ α) (kind : α → Prop) : Prop :=
  ∀ s, ∃ a s', x s = .ok a s' ∧ kind a

namespace Succeeds
variable {kind : α → Prop} {kind' : β → Prop}

theorem pure {a : α} (fine : kind a) : Succeeds (Pure.pure a : EStateM ε σ α) kind :=
  fun s => ⟨a, s, rfl, fine⟩

theorem bind {x : EStateM ε σ α} {f : α → EStateM ε σ β} (first : Succeeds x kind)
    (next : ∀ a, kind a → Succeeds (f a) kind') : Succeeds (x >>= f) kind' := by
  intro s
  obtain ⟨a, s', begun, fine⟩ := first s
  rw [bind_of_ok begun]
  exact next a fine s'

theorem checked {x : Except ε α} (done : ∃ a, x = .ok a ∧ kind a) :
    Succeeds (Resumable.checked x : EStateM ε σ α) kind := by
  intro s
  obtain ⟨a, rfl, fine⟩ := done
  exact ⟨a, s, rfl, fine⟩

theorem exactly {x : Except ε α} {a : α} (done : x = .ok a) :
    Succeeds (Resumable.checked x : EStateM ε σ α) (· = a) :=
  checked ⟨a, done, rfl⟩

end Succeeds

/-- From states of at most `limit` the two computations agree, and they never lead to a state of a
greater measure. -/
def Agree (measure : σ → Nat) (limit : Nat) (x y : EStateM ε σ α) : Prop :=
  ∀ s, measure s ≤ limit → x s = y s ∧ measure (finalState (x s)) ≤ measure s

namespace Agree
variable {measure : σ → Nat} {limit : Nat}

theorem of_le {x : EStateM ε σ α} (less : ∀ s, measure (finalState (x s)) ≤ measure s) :
    Agree measure limit x x :=
  fun s _ => ⟨rfl, less s⟩

theorem pure (a : α) : Agree measure limit (Pure.pure a : EStateM ε σ α) (Pure.pure a) :=
  of_le fun _ => Nat.le_refl _

theorem throw (e : ε) : Agree measure limit (MonadExcept.throw e : EStateM ε σ α) (MonadExcept.throw e) :=
  of_le fun _ => Nat.le_refl _

theorem checked (x : Except ε α) : Agree measure limit (Resumable.checked x : EStateM ε σ α) (Resumable.checked x) := by
  cases x with
  | ok a => exact pure a
  | error e => exact throw e

theorem bind {x y : EStateM ε σ α} {f g : α → EStateM ε σ β} (first : Agree measure limit x y)
    (next : ∀ a, Agree measure limit (f a) (g a)) : Agree measure limit (x >>= f) (y >>= g) := by
  intro s small
  obtain ⟨same, less⟩ := first s small
  cases result : x s with
  | error e s' =>
    rw [bind_of_error result, bind_of_error (same ▸ result)]
    rw [result] at less
    exact ⟨rfl, less⟩
  | ok a s' =>
    rw [bind_of_ok result, bind_of_ok (same ▸ result)]
    rw [result] at less
    obtain ⟨sameNext, lessNext⟩ := next a s' (Nat.le_trans less small)
    exact ⟨sameNext, Nat.le_trans lessNext less⟩

end Agree
end Resumable
