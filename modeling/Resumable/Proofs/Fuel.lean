import Resumable.Proofs.Relating

/-!
More fuel. A run that does not run out of fuel does the same with more of it, and leaves the
surplus over; a run that does has used up all of it. So what code does with enough fuel, it
does whenever its fuel lasts.
-/

namespace Resumable

section
variable {σ α β : Type}

/-- The same result, in a state that is changed. -/
def mapState (change : σ → σ) : EStateM.Result EvalError σ α → EStateM.Result EvalError σ α
  | .ok a s => .ok a (change s)
  | .error e s => .error e (change s)

/-- There was not enough fuel. -/
def IsExhausted : EStateM.Result EvalError σ α → Prop
  | .error .outOfFuel _ => True
  | _ => False

instance : (result : EStateM.Result EvalError σ α) → Decidable (IsExhausted result)
  | .error .outOfFuel _ => .isTrue trivial
  | .error (.notSupported _) _ | .error (.thrown _) _ | .error (.typeMismatch ..) _
  | .error (.indexOutOfBounds ..) _ | .error .divisionByZero _ | .error (.unknownMethod _) _
  | .error (.malformed _) _ | .ok _ _ => .isFalse id

@[simp] theorem not_isExhausted_ok (a : α) (s : σ) : ¬ IsExhausted (.ok a s) := id

@[simp] theorem isExhausted_error {e : EvalError} {s : σ} :
    IsExhausted (.error e s : EStateM.Result EvalError σ α) ↔ e = .outOfFuel := by
  cases e <;> simp [IsExhausted]

@[simp] theorem isExhausted_mapState {change : σ → σ} {result : EStateM.Result EvalError σ α} :
    IsExhausted (mapState change result) ↔ IsExhausted result := by
  cases result <;> simp [mapState]

theorem finalState_mapState (change : σ → σ) (result : EStateM.Result EvalError σ α) :
    finalState (mapState change result) = change (finalState result) := by
  cases result <;> rfl

/-- From states of at most `limit` fuel, more fuel changes nothing but what is left over, and who
runs out leaves nothing. -/
structure Frugal (fuel : σ → Nat) (grow : Nat → σ → σ) (limit : Nat) (x : EStateM EvalError σ α) :
    Prop where
  more {s : σ} (extra : Nat) : fuel s ≤ limit → ¬ IsExhausted (x s) →
    x (grow extra s) = mapState (grow extra) (x s)
  spent {s : σ} : fuel s ≤ limit → IsExhausted (x s) → fuel (finalState (x s)) = 0
  less {s : σ} : fuel s ≤ limit → fuel (finalState (x s)) ≤ fuel s

namespace Frugal
variable {fuel : σ → Nat} {grow : Nat → σ → σ} {limit : Nat}

/-- A computation that does not look at the fuel. -/
theorem of_free {x : EStateM EvalError σ α} (never : ∀ s, ¬ IsExhausted (x s))
    (same : ∀ s, fuel (finalState (x s)) = fuel s)
    (blind : ∀ s extra, x (grow extra s) = mapState (grow extra) (x s)) : Frugal fuel grow limit x :=
  ⟨fun extra _ _ => blind _ extra, fun _ out => absurd out (never _), fun _ => Nat.le_of_eq (same _)⟩

theorem pure (a : α) : Frugal fuel grow limit (Pure.pure a) :=
  of_free (fun _ => id) (fun _ => rfl) fun _ _ => rfl

theorem throw {e : EvalError} (other : e ≠ .outOfFuel) :
    Frugal fuel grow limit (MonadExcept.throw e : EStateM EvalError σ α) :=
  of_free (fun _ out => other (isExhausted_error.mp out)) (fun _ => rfl) fun _ _ => rfl

theorem checked {x : Except EvalError α} (data : OnlyData x) :
    Frugal fuel grow limit (Resumable.checked x) := by
  cases x with
  | ok a => exact pure a
  | error e =>
    refine throw ?_
    rintro rfl
    cases data _ rfl

theorem mono {x : EStateM EvalError σ α} {smaller : Nat} (frugal : Frugal fuel grow limit x)
    (le : smaller ≤ limit) : Frugal fuel grow smaller x :=
  ⟨fun extra small => frugal.more extra (Nat.le_trans small le),
    fun small => frugal.spent (Nat.le_trans small le),
    fun small => frugal.less (Nat.le_trans small le)⟩

/-- What follows need only be frugal with the fuel that is left for it. -/
theorem bindAfter {x : EStateM EvalError σ α} {f : α → EStateM EvalError σ β}
    (first : Frugal fuel grow limit x)
    (next : ∀ {s a s'}, fuel s ≤ limit → x s = .ok a s' → Frugal fuel grow (fuel s') (f a)) :
    Frugal fuel grow limit (x >>= f) where
  more {s} extra small enough := by
    cases begun : x s with
    | ok a s' =>
      have again := first.more extra small (by simp [begun])
      rw [begun] at again
      rw [bind_of_ok begun] at enough ⊢
      rw [bind_of_ok again]
      exact (next small begun).more extra (Nat.le_refl _) enough
    | error e s' =>
      rw [bind_of_error begun] at enough ⊢
      have again := first.more extra small (by simpa [begun] using enough)
      rw [begun] at again
      exact bind_of_error again
  spent {s} small out := by
    cases begun : x s with
    | ok a s' =>
      rw [bind_of_ok begun] at out ⊢
      exact (next small begun).spent (Nat.le_refl _) out
    | error e s' =>
      rw [bind_of_error begun] at out ⊢
      have last := first.spent small (by simpa [begun] using out)
      rwa [begun] at last
  less {s} small := by
    have less := first.less small
    cases begun : x s with
    | ok a s' =>
      rw [begun] at less
      rw [bind_of_ok begun]
      exact Nat.le_trans ((next small begun).less (Nat.le_refl _)) less
    | error e s' =>
      rw [bind_of_error begun]
      rwa [begun] at less

theorem bind {x : EStateM EvalError σ α} {f : α → EStateM EvalError σ β}
    (first : Frugal fuel grow limit x) (next : ∀ a, Frugal fuel grow limit (f a)) :
    Frugal fuel grow limit (x >>= f) := by
  apply first.bindAfter
  intro s a s' small begun
  have less := first.less small
  rw [begun] at less
  exact (next a).mono (Nat.le_trans less small)

end Frugal
end

namespace Machine

def World.grow (extra : Nat) (world : World) : World := world.withFuel (world.fuel + extra)

def Activation.grow (extra : Nat) (act : Activation) : Activation :=
  ⟨act.locals, act.world.grow extra⟩

@[simp] theorem Activation.grow_fuel (extra : Nat) (act : Activation) :
    (act.grow extra).fuel = act.fuel + extra := rfl

@[simp] theorem World.grow_withFuel (extra fuel : Nat) (world : World) :
    (world.withFuel fuel).grow extra = world.withFuel (fuel + extra) := rfl

section
variable {α : Type}

abbrev Exec.Frugal (limit : Nat) (exec : Exec α) : Prop :=
  Resumable.Frugal World.fuel World.grow limit exec

abbrev Step.Frugal (limit : Nat) (step : Step α) : Prop :=
  Resumable.Frugal Activation.fuel Activation.grow limit step

theorem Step.frugal_inWorld {limit : Nat} {exec : Exec α} (frugal : exec.Frugal limit) :
    (inWorld exec).Frugal limit where
  more {act} extra small enough := by
    obtain ⟨locals, world⟩ := act
    have again := frugal.more extra small
    simp only [inWorld] at enough
    simp only [inWorld, Activation.grow]
    cases done : exec world with
    | ok a world' =>
      simp only [done, not_isExhausted_ok, not_false_eq_true, forall_const] at again
      rw [again]
      rfl
    | error e world' =>
      simp only [done, isExhausted_error] at again enough
      rw [again enough]
      rfl
  spent {act} small out := by
    obtain ⟨locals, world⟩ := act
    have last := frugal.spent small
    simp only [inWorld] at out ⊢
    cases done : exec world with
    | ok a world' => simp [done] at out
    | error e world' =>
      simp only [done, isExhausted_error, finalState_error] at last out ⊢
      exact last out
  less {act} small := by
    obtain ⟨locals, world⟩ := act
    have less := frugal.less small
    simp only [inWorld]
    cases done : exec world with
    | ok a world' => simpa [done] using less
    | error e world' => simpa [done] using less

end

section
variable {limit : Nat}

namespace Exec

theorem frugal_readField (object : Value) (id : FieldId) : (readField object id).Frugal limit := by
  cases object with
  | object reference =>
    refine .of_free (fun world => ?_) (fun world => ?_) fun world extra => ?_
    · rw [readField_object]
      split <;> simp
    · rw [readField_object]
      split <;> rfl
    · rw [readField_object, readField_object]
      simp only [World.grow, World.slot?_withFuel]
      split <;> rfl
  | _ =>
    exact .of_free (by simp [readField, Value.asObject, Value.mismatch]) (fun _ => rfl) fun _ _ => rfl

theorem writeField_object (object : Nat) (id : FieldId) (value : Value) (world : World) :
    writeField (.object object) id value world =
      if (world.slot? object id).isSome then .ok () (world.setSlot object id value)
      else .error (.malformed (.noField id)) world := by
  split
  · next present => exact writeField_of_slot value present
  · next absent => exact writeField_of_none value (by simpa using absent)

theorem frugal_writeField (object : Value) (id : FieldId) (value : Value) :
    (writeField object id value).Frugal limit := by
  cases object with
  | object reference =>
    refine .of_free (fun world => ?_) (fun world => ?_) fun world extra => ?_
    · rw [writeField_object]
      split <;> simp
    · rw [writeField_object]
      split <;> simp
    · rw [writeField_object, writeField_object]
      simp only [World.grow, World.slot?_withFuel, World.setSlot_withFuel]
      split
      · simp [mapState, World.grow]
      · rfl
  | _ =>
    exact .of_free (by simp [writeField, Value.asObject, Value.mismatch]) (fun _ => rfl) fun _ _ => rfl

end Exec

theorem Step.frugal_readLocal (id : LocalId) : (readLocal id).Frugal limit := by
  refine .of_free (fun act => ?_) (fun act => ?_) fun act extra => ?_
  · unfold readLocal
    split <;> simp
  · unfold readLocal
    split <;> rfl
  · unfold readLocal
    simp only [Activation.grow]
    split <;> rfl

theorem frugal_load (frame : Frame) (place : Place) : (frame.load place).Frugal limit := by
  cases place with
  | field id => exact Step.frugal_inWorld (Exec.frugal_readField frame.self id)
  | fieldOf holder id =>
    exact (Step.frugal_readLocal holder).bind fun object =>
      Step.frugal_inWorld (Exec.frugal_readField object id)
  | frame id => exact Step.frugal_readLocal id

theorem frugal_store (frame : Frame) (value : Value) (place : Place) :
    (frame.store value place).Frugal limit := by
  cases place with
  | field id => exact Step.frugal_inWorld (Exec.frugal_writeField frame.self id value)
  | fieldOf holder id =>
    exact (Step.frugal_readLocal holder).bind fun object =>
      Step.frugal_inWorld (Exec.frugal_writeField object id value)
  | frame _ => exact .of_free (fun _ => id) (fun _ => rfl) fun _ _ => rfl

abbrev Enter.Frugal (limit : Nat) (enter : Enter) : Prop :=
  ∀ routine self args, (enter routine self args).Frugal limit

section
variable (machine : Machine) {enter : Enter}

theorem frugal_newInstance (entry : enter.Frugal limit) (args : List Value) : (newInstance machine enter args).Frugal limit := by
  have allocates : (Exec.allocate machine.fields).Frugal limit := .of_free (fun _ => id) (fun _ => rfl) fun _ _ => rfl
  exact allocates.bind fun object =>
    (entry machine.constructor object args).bind fun _ => .pure object

theorem frugal_callRoutine (entry : enter.Frugal limit) (name : String) (self : Value) :
    (callRoutine machine enter name self).Frugal limit := by
  unfold callRoutine
  split
  · exact .throw nofun
  · exact (entry _ self []).bind fun _ => .pure _

mutual
theorem frugal_evalTerm (entry : enter.Frugal limit) (frame : Frame) :
    (t : Term) → (evalTerm machine enter frame t).Frugal limit
  | .int value => by simpa only [evalTerm] using .pure _
  | .bool value => by simpa only [evalTerm] using .pure _
  | .str value => by simpa only [evalTerm] using .pure _
  | .null => by simpa only [evalTerm] using .pure _
  | .load place => by simpa only [evalTerm] using frugal_load frame place
  | .self => by simpa only [evalTerm] using .pure _
  | .param index => by
    simp only [evalTerm, Frame.arg]
    split
    · exact .pure _
    · exact .throw nofun
  | .assign place value => by
    simp only [evalTerm]
    exact (frugal_evalTerm entry frame value).bind fun v => (frugal_store frame v place).bind fun _ => .pure v
  | .unary op operand => by
    simp only [evalTerm]
    exact (frugal_evalTerm entry frame operand).bind fun v => .checked (Value.onlyData_unary op v)
  | .binary op left right => by
    have first := frugal_evalTerm entry frame left
    have second := frugal_evalTerm entry frame right
    have decided (v : Value) :
        (do let holds ← checked v.asBool; return Value.bool holds : Step Value).Frugal limit :=
      (Frugal.checked v.onlyData_asBool).bind fun _ => .pure _
    by_cases conjunction : op = .and
    · subst conjunction
      simp only [evalTerm]
      refine first.bind fun v => (Frugal.checked v.onlyData_asBool).bind fun holds => ?_
      cases holds with
      | true => exact second.bind decided
      | false => exact .pure _
    · by_cases disjunction : op = .or
      · subst disjunction
        simp only [evalTerm]
        refine first.bind fun v => (Frugal.checked v.onlyData_asBool).bind fun holds => ?_
        cases holds with
        | true => exact .pure _
        | false => exact second.bind decided
      · simp only [evalTerm]
        exact first.bind fun v => second.bind fun w => .checked (Value.onlyData_binary op v w)
  | .array items => by
    simp only [evalTerm]
    exact (frugal_evalTerms entry frame items).bind fun _ =>
      Step.frugal_inWorld (.of_free (fun _ => id) (fun _ => rfl) fun _ _ => rfl)
  | .index base position => by
    simp only [evalTerm]
    exact (frugal_evalTerm entry frame base).bind fun v =>
      (frugal_evalTerm entry frame position).bind fun w => .checked (Value.onlyData_index v w)
  | .len base => by
    simp only [evalTerm]
    exact (frugal_evalTerm entry frame base).bind fun v => .checked (Value.onlyData_len v)
  | .call callee args => by
    simp only [evalTerm]
    exact (frugal_evalTerms entry frame args).bind fun _ =>
      (Step.frugal_inWorld (.of_free (fun _ => id) (fun _ => rfl) fun _ _ => rfl)).bind fun _ => .pure _
  | .callSelf name => by
    simp only [evalTerm]
    exact Step.frugal_inWorld (frugal_callRoutine machine entry name frame.self)
  | .construct args => by
    simp only [evalTerm]
    exact (frugal_evalTerms entry frame args).bind fun values =>
      Step.frugal_inWorld (frugal_newInstance machine entry values)
  | .threadId source => by
    simp only [evalTerm]
    exact Step.frugal_inWorld (.of_free (fun _ => id) (fun _ => rfl) fun _ _ => rfl)

theorem frugal_evalTerms (entry : enter.Frugal limit) (frame : Frame) : (ts : List Term) →
    (evalTerms machine enter frame ts).Frugal limit
  | [] => by simpa only [evalTerms] using .pure _
  | t :: rest => by
    simp only [evalTerms]
    exact (frugal_evalTerm entry frame t).bind fun _ => (frugal_evalTerms entry frame rest).bind fun _ => .pure _
end

theorem frugal_execInstr (entry : enter.Frugal limit) (frame : Frame) (instr : Instr) :
    (execInstr machine enter frame instr).Frugal limit := by
  have eval := frugal_evalTerm machine entry frame
  cases instr with
  | label l => exact .pure _
  | goto target => exact .pure _
  | gotoUnless cond target =>
    exact (eval cond).bind fun v => (Frugal.checked v.onlyData_asBool).bind fun _ => .pure _
  | switch value cases default =>
    exact (eval value).bind fun v => (Frugal.checked v.onlyData_asInt).bind fun _ => .pure _
  | assign place value => exact (eval value).bind fun v => (frugal_store frame v place).bind fun _ => .pure _
  | eval value => exact (eval value).bind fun _ => .pure _
  | ret value =>
    cases value with
    | none => exact .pure _
    | some value => exact (eval value).bind fun _ => .pure _
  | raise constructor =>
    refine .throw ?_
    unfold raised
    split <;> nofun

end

theorem frugal_activate {run : Code → Frame → Code → Step (Option Value)}
    (runs : ∀ body frame code, (run body frame code).Frugal limit) (routine : Routine) (self : Value)
    (args : List Value) : (activate run routine self args).Frugal limit where
  more {world} extra small enough := by
    have again := (runs routine.body ⟨self, args⟩ routine.body).more (s := ⟨.empty, world⟩) extra small
    simp only [activate] at enough
    simp only [activate]
    cases done : run routine.body ⟨self, args⟩ routine.body ⟨.empty, world⟩ with
    | ok result act =>
      simp only [done, not_isExhausted_ok, not_false_eq_true, forall_const, Activation.grow] at again
      rw [again]
      rfl
    | error e act =>
      simp only [done, isExhausted_error, Activation.grow] at again enough
      rw [again enough]
      rfl
  spent {world} small out := by
    have last := (runs routine.body ⟨self, args⟩ routine.body).spent (s := ⟨.empty, world⟩) small
    simp only [activate] at out ⊢
    cases done : run routine.body ⟨self, args⟩ routine.body ⟨.empty, world⟩ with
    | ok result act => simp [done] at out
    | error e act =>
      simp only [done, isExhausted_error, finalState_error] at last out ⊢
      exact last out
  less {world} small := by
    have less := (runs routine.body ⟨self, args⟩ routine.body).less (s := ⟨.empty, world⟩) small
    simp only [activate]
    cases done : run routine.body ⟨self, args⟩ routine.body ⟨.empty, world⟩ with
    | ok result act => simpa [done] using less
    | error e act => simpa [done] using less

theorem frugal_followBy {run : Code → Step (Option Value)} (runs : ∀ code, (run code).Frugal limit)
    (body rest : Code) (outcome : Outcome) : (followBy run body rest outcome).Frugal limit := by
  cases outcome with
  | next => exact runs rest
  | goto target =>
    simp only [followBy]
    split
    · exact runs _
    · exact .throw (by simp)
  | done result => exact .pure _

end

/-- A step that is paid for has less fuel to look at. -/
theorem frugal_paid {α : Type} {limit : Nat} {step : Step α}
    (next : ∀ smaller, smaller < limit → step.Frugal smaller) :
    (do Step.inWorld Exec.burn; step).Frugal limit := by
  have unpaid {act : Activation} (empty : act.fuel = 0) :
      (do Step.inWorld Exec.burn; step) act = .error .outOfFuel act := by
    refine bind_of_error ?_
    simp [Step.inWorld, burn_zero empty]
  have paid {act : Activation} {fuel : Nat} (left : act.fuel = fuel + 1) :
      (do Step.inWorld Exec.burn; step) act = step (act.withFuel fuel) := by
    have burned : Step.inWorld Exec.burn act = .ok () (act.withFuel fuel) := by
      simp [Step.inWorld, burn_succ left, Activation.withFuel, World.withFuel]
    exact bind_of_ok burned
  constructor
  · intro act extra small enough
    cases left : act.fuel with
    | zero => simp [unpaid left] at enough
    | succ fuel =>
      have grown : (act.grow extra).fuel = fuel + extra + 1 := by
        rw [Activation.grow_fuel, left]
        omega
      rw [paid left] at enough ⊢
      rw [paid grown]
      exact (next fuel (by omega)).more (s := act.withFuel fuel) extra (Nat.le_refl fuel) enough
  · intro act small out
    cases left : act.fuel with
    | zero =>
      rw [unpaid left]
      exact left
    | succ fuel =>
      rw [paid left] at out ⊢
      exact (next fuel (by omega)).spent (s := act.withFuel fuel) (Nat.le_refl fuel) out
  · intro act small
    cases left : act.fuel with
    | zero =>
      rw [unpaid left]
      exact Nat.le_of_eq left
    | succ fuel =>
      have less := (next fuel (by omega)).less (s := act.withFuel fuel) (Nat.le_refl fuel)
      rw [paid left]
      exact Nat.le_succ_of_le less

/-- A bound that exceeds the fuel is not reached, so whoever runs out has used up the fuel. -/
theorem frugal_runCode (machine : Machine) (bound limit : Nat) (enough : limit < bound) (body : Code)
    (frame : Frame) (code : Code) : (runCode machine bound body frame code).Frugal limit := by
  induction bound generalizing limit body frame code with
  | zero => omega
  | succ bound ih =>
    cases code with
    | nil => simpa only [runCode] using .pure _
    | cons instr rest =>
      rw [runCode_cons]
      refine frugal_paid fun smaller less => ?_
      have inner := ih smaller (by omega)
      exact (frugal_execInstr machine (frugal_activate inner) frame instr).bind
        (frugal_followBy (inner body frame) body rest)

theorem frugal_run (machine : Machine) (limit : Nat) (body : Code) (frame : Frame) (code : Code) :
    (run machine body frame code).Frugal limit where
  more {act} extra small enough := by
    -- One bound that both fuels stay below serves for both runs.
    have bounded := frugal_runCode machine (act.fuel + extra + 1) act.fuel (by omega) body frame code
    have same : runCode machine (act.fuel + extra + 1) body frame code act =
        run machine body frame code act := runCode_eq_run machine (by omega) body frame code
    rw [← same] at enough ⊢
    exact bounded.more extra (Nat.le_refl _) enough
  spent {act} small := (frugal_runCode machine (act.fuel + 1) act.fuel (by omega) body frame code).spent
    (Nat.le_refl _)
  less {act} small := run_fuel_le machine body frame code act

theorem frugal_call (machine : Machine) (limit : Nat) : (call machine).Frugal limit := by
  rw [call_eq_activate]
  exact frugal_activate (frugal_run machine limit)

/-- A run that returns with enough fuel returns whenever the fuel lasts. -/
theorem Returns.lasting {machine : Machine} {body code : Code} {frame : Frame} {act act' : Activation}
    {result : Option Value} (returns : Returns machine body frame code act result act')
    (lasts : ¬ IsExhausted (run machine body frame code act)) :
    ∃ left, run machine body frame code act = .ok result (act'.withFuel left) := by
  obtain ⟨cost, returns⟩ := returns
  have more := (frugal_run machine act.fuel body frame code).more cost (Nat.le_refl _) lasts
  have there : run machine body frame code (act.grow cost) = .ok result (act'.withFuel act.fuel) :=
    returns act.fuel
  rw [there] at more
  cases done : run machine body frame code act with
  | error e final => simp [done, mapState] at more
  | ok b final =>
    rw [done] at more
    obtain ⟨rfl, same⟩ := EStateM.Result.ok.inj more
    refine ⟨final.fuel, ?_⟩
    have back : act'.withFuel final.fuel = final := by
      have := congrArg (Activation.withFuel · final.fuel) same
      exact this
    rw [back]

namespace Exec
variable {α : Type} {exec : Exec α} {world world' : World} {a : α}

/-- What is done with enough fuel is done whenever the fuel lasts. -/
theorem Does.lasting (does : exec.Does world a world') (frugal : exec.Frugal world.fuel)
    (lasts : ¬ IsExhausted (exec world)) : ∃ left, exec world = .ok a (world'.withFuel left) := by
  obtain ⟨cost, does⟩ := does
  have more := frugal.more cost (Nat.le_refl _) lasts
  rw [World.grow, does] at more
  cases done : exec world with
  | error e final => simp [done, mapState] at more
  | ok b final =>
    rw [done] at more
    obtain ⟨rfl, same⟩ := EStateM.Result.ok.inj more
    refine ⟨final.fuel, ?_⟩
    have back : world'.withFuel final.fuel = final := by
      have := congrArg (World.withFuel · final.fuel) same
      exact this
    rw [back]

end Exec
end Machine
end Resumable
