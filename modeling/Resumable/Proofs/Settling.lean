import Resumable.Proofs.Binding
import Resumable.Semantics.Structured

/-!
Runs that have enough fuel. Whether a method ends, and how, does not depend on how much
fuel there is beyond what is needed, so two bodies can be compared although one of them pays
for statements that the other does not have.
-/

namespace Resumable.Structured

def State.withFuel (st : State) (fuel : Nat) : State := { st with fuel := fuel }

theorem burn_dry {st : State} (left : st.fuel = 0) : burn st = .error .outOfFuel st := by
  simp [burn, left]

theorem burn_paid {st : State} {fuel : Nat} (left : st.fuel = fuel + 1) :
    burn st = .ok () (st.withFuel fuel) := by
  simp [burn, left, State.withFuel]

/-- The same result with another amount of fuel left. -/
def refuel {α : Type} : EStateM.Result EvalError State α → Nat → EStateM.Result EvalError State α
  | .ok a st, fuel => .ok a (st.withFuel fuel)
  | .error e st, fuel => .error e (st.withFuel fuel)

section
variable {α β : Type} {st st' : State} {result : EStateM.Result EvalError State α}

/-- With enough fuel the computation ends like this; what it spends is always the same. -/
def Settles (x : Run α) (st : State) (result : EStateM.Result EvalError State α) : Prop :=
  ∃ need spent, spent ≤ need ∧
    ∀ fuel, need ≤ fuel → x (st.withFuel fuel) = refuel result (fuel - spent)

/-- The computation neither spends fuel nor looks at it. -/
theorem Settles.of_free {x : Run α} (free : ∀ fuel, x (st.withFuel fuel) = refuel result fuel) :
    Settles x st result :=
  ⟨0, 0, Nat.le_refl 0, fun fuel _ => free fuel⟩

theorem Settles.pure (a : α) (st : State) : Settles (Pure.pure a) st (.ok a st) :=
  .of_free fun _ => rfl

theorem Settles.throw (e : EvalError) (st : State) :
    Settles (MonadExcept.throw e : Run α) st (.error e st) :=
  .of_free fun _ => rfl

theorem Settles.burn (st : State) : Settles Structured.burn st (.ok () st) :=
  ⟨1, 1, Nat.le_refl 1, fun fuel enough => by
    obtain ⟨fuel, rfl⟩ := Nat.exists_eq_add_of_le enough
    simp [Structured.burn, State.withFuel, refuel, Nat.add_comm]⟩

theorem Settles.bind {x : Run α} {f : α → Run β} {a : α} {result : EStateM.Result EvalError State β}
    (first : Settles x st (.ok a st')) (second : Settles (f a) st' result) :
    Settles (x >>= f) st result := by
  obtain ⟨need, spent, within, runs⟩ := first
  obtain ⟨need', spent', within', runs'⟩ := second
  refine ⟨need + need', spent + spent', by omega, fun fuel enough => ?_⟩
  rw [bind_of_ok (runs fuel (by omega)), runs' _ (by omega), Nat.sub_sub]

theorem Settles.bind_error {x : Run α} {f : α → Run β} {e : EvalError}
    (first : Settles x st (.error e st')) : Settles (x >>= f) st (.error e st') := by
  obtain ⟨need, spent, within, runs⟩ := first
  exact ⟨need, spent, within, fun fuel enough => bind_of_error (runs fuel enough)⟩

/-- With enough fuel and a large enough bound, turns end like this. -/
def TurnsSettle (turn : Run (Option Flow)) (st : State) (result : EStateM.Result EvalError State Flow) :
    Prop :=
  ∃ need spent, spent ≤ need ∧ ∀ fuel bound, need ≤ fuel → need ≤ bound →
    repeatTurns turn bound (st.withFuel fuel) = refuel result (fuel - spent)

theorem TurnsSettle.loop {turn : Run (Option Flow)} {result : EStateM.Result EvalError State Flow}
    (turns : TurnsSettle turn st result) : Settles (Structured.loop turn) st result := by
  obtain ⟨need, spent, within, runs⟩ := turns
  exact ⟨need, spent, within, fun fuel enough => runs fuel (fuel + 1) enough (by omega)⟩

theorem TurnsSettle.leave {turn : Run (Option Flow)} {flow : Flow}
    (left : Settles turn st (.ok (some flow) st')) : TurnsSettle turn st (.ok flow st') := by
  obtain ⟨need, spent, within, runs⟩ := left
  refine ⟨need + 1, spent, by omega, fun fuel bound enough far => ?_⟩
  obtain ⟨bound, rfl⟩ := Nat.exists_eq_add_of_le' (show 1 ≤ bound by omega)
  rw [repeatTurns, bind_of_ok (runs fuel (by omega))]
  rfl

theorem TurnsSettle.error {turn : Run (Option Flow)} {e : EvalError}
    (failed : Settles turn st (.error e st')) : TurnsSettle turn st (.error e st') := by
  obtain ⟨need, spent, within, runs⟩ := failed
  refine ⟨need + 1, spent, by omega, fun fuel bound enough far => ?_⟩
  obtain ⟨bound, rfl⟩ := Nat.exists_eq_add_of_le' (show 1 ≤ bound by omega)
  rw [repeatTurns, bind_of_error (runs fuel (by omega))]
  rfl

theorem TurnsSettle.again {turn : Run (Option Flow)} {result : EStateM.Result EvalError State Flow}
    (first : Settles turn st (.ok none st')) (others : TurnsSettle turn st' result) :
    TurnsSettle turn st result := by
  obtain ⟨need, spent, within, runs⟩ := first
  obtain ⟨need', spent', within', runs'⟩ := others
  refine ⟨need + need' + 1, spent + spent', by omega, fun fuel bound enough far => ?_⟩
  obtain ⟨bound, rfl⟩ := Nat.exists_eq_add_of_le' (show 1 ≤ bound by omega)
  rw [repeatTurns, bind_of_ok (runs fuel (by omega))]
  change repeatTurns turn bound (st'.withFuel (fuel - spent)) = _
  rw [runs' _ _ (by omega) (by omega), Nat.sub_sub]

end

end Resumable.Structured
