import Resumable.Proofs.Goals

/-!
Single instructions: conditions, effects, declarations, switches and stores into the
fields of the protocol.
-/

namespace Resumable.Simulation
open Lowering (Shape)
open Machine (Activation Code FieldId Instr Label Place Role Step Term World call caseTarget
  evalTerm execInstr)
open Structured (Run State assignVar evalExpr evalExprs holds)

section
variable {shape : Shape} {own : Nat} {scope : List LocalId} {names : Renaming} {α β γ : Type}
  {related : Renaming → α → β → Prop}

theorem Simulates.weaken {related' : Renaming → α → β → Prop} {x : Run α} {y : Step β}
    (simulates : Simulates shape own scope names x y related)
    (imply : ∀ names a b, related names a b → related' names a b) :
    Simulates shape own scope names x y related' := by
  intro st act matching
  have simulated := simulates st act matching
  cases result : x st with
  | error e st' =>
    rw [result] at simulated
    exact simulated
  | ok a st' =>
    rw [result] at simulated
    obtain ⟨b, names', act', gives, matching', advance, both⟩ := simulated
    exact ⟨b, names', act', gives, matching', advance, imply names' a b both⟩

/-- The machine goes on with a function of its result. -/
theorem Simulates.map {x : Run α} {y : Step β} (simulates : Simulates shape own scope names x y related)
    (g : β → γ) : Simulates shape own scope names x (y >>= fun b => Pure.pure (g b))
      fun names a c => ∃ b, related names a b ∧ c = g b := by
  have both : Simulates shape own scope names (x >>= Pure.pure) (y >>= fun b => Pure.pure (g b))
      fun names a c => ∃ b, related names a b ∧ c = g b :=
    simulates.bind fun names' a b _ related => .pure ⟨b, related, rfl⟩
  rwa [bind_pure] at both

end

section
variable {shape : Shape} {own : Nat} {scope : List LocalId} {names : Renaming}
  (machine : Machine) (sound : shape.Sound)
include sound

theorem simulates_condition {cond : Expr} {term : Term} (lowered : shape.term cond = .ok term)
    (inside : cond.isScoped scope) (target : Label) :
    Simulates shape own scope names (holds (some cond))
      (execInstr machine (call machine) (ownFrame own) (.gotoUnless term target))
      fun _ b outcome => outcome = if b then .next else .goto target := by
  refine (simulates_expr machine sound rfl names cond term lowered inside).bind
    fun names' v v' _ alike => ?_
  rw [← alike.asBool_eq]
  cases v.asBool with
  | error e => exact fun st act _ _ => ⟨act, fun _ => rfl⟩
  | ok b => exact .pure rfl

theorem simulates_effect {e : Expr} {instr : Instr} (lowered : shape.effect e = .ok instr)
    (inside : e.isScoped scope) :
    Simulates shape own scope names (evalExpr e)
      (execInstr machine (call machine) (ownFrame own) instr) fun _ _ outcome => outcome = .next := by
  rcases Lowering.effect_cases lowered with
    ⟨var, value, place, term, rfl, placed, loweredValue, rfl⟩ | ⟨term, loweredExpr, rfl⟩
  · simp only [Expr.isScoped, Expr.vars, List.all_cons, Bool.and_eq_true] at inside
    simp only [evalExpr, execInstr]
    refine (simulates_expr machine sound rfl names value term loweredValue inside.2).bind
      fun names' v v' _ alike => ?_
    exact (Simulates.store rfl sound placed alike).bind fun _ _ _ _ _ => .pure rfl
  · have evaluated : Simulates shape own scope names (evalExpr e)
        (evalTerm machine (call machine) (ownFrame own) term) Value.Alike :=
      simulates_expr machine sound rfl names e term loweredExpr inside
    refine (evaluated.map fun _ => Machine.Outcome.next).weaken ?_
    rintro _ _ _ ⟨_, _, same⟩
    exact same

theorem simulates_scrutinee {e : Expr} {term : Term} (lowered : shape.term e = .ok term)
    (inside : e.isScoped scope) (cases : List (Int64 × Label)) (default : Label) :
    Simulates shape own scope names (do let v ← evalExpr e; checked v.asInt)
      (execInstr machine (call machine) (ownFrame own) (.switch term cases default))
      fun _ n outcome => outcome = .goto (caseTarget n cases default) := by
  refine (simulates_expr machine sound rfl names e term lowered inside).bind
    fun names' v v' _ alike => ?_
  rw [← alike.asInt_eq]
  cases v.asInt with
  | error e => exact fun st act _ _ => ⟨act, fun _ => rfl⟩
  | ok n => exact .pure rfl

end

/-- What a declaration without initializer stores is what the method stores. -/
theorem simulates_initial {shape : Shape} {own : Nat} {scope : List LocalId} {names : Renaming}
    (machine : Machine) {method : Method} {id : LocalId} {term : Term} {ty : Ty}
    (lowered : Lowering.initial method id = .ok term) (typed : method.varType? (.loc id) = some ty) :
    Simulates shape own scope names (Pure.pure ty.default)
      (evalTerm machine (call machine) (ownFrame own) term) Value.Alike := by
  simp only [Method.varType?, Option.map_eq_some_iff] at typed
  obtain ⟨l, found, rfl⟩ := typed
  simp only [Lowering.initial, Lower.require, found, except_bind_eq_ok] at lowered
  obtain ⟨_, same, lowered⟩ := lowered
  obtain rfl := Except.ok.inj same
  cases ty : l.ty with
  | int =>
    simp only [ty, except_pure_eq_ok] at lowered
    simp only [← lowered, evalTerm]
    exact .pure (.int 0)
  | bool =>
    simp only [ty, except_pure_eq_ok] at lowered
    simp only [← lowered, evalTerm]
    exact .pure (.bool false)
  | _ =>
    simp only [ty, except_pure_eq_ok] at lowered
    simp only [← lowered, evalTerm]
    exact .pure .null

section
variable {machine : Machine} {own : Nat} {body : Code} {shape : Shape} {scope : List LocalId}
  {names : Renaming} {st : State} {act : Activation} {β : Type}

/-- A declaration brings its local into scope. -/
theorem Goal.declare (goal : Goal machine own body) {x : Run Value} {f : Unit → Run β} {id : LocalId}
    {place : Place} {term : Term} {rest : Code} {claim : EStateM.Result EvalError State β → Prop}
    (sane : Sane goal claim) (sound : shape.Sound)
    (simulates : Simulates shape own scope names x
      (evalTerm machine (call machine) (ownFrame own) term) Value.Alike)
    (placed : shape.place (.loc id) = .ok place) (matching : Matches shape own scope names st act)
    (claimed : claim ((x >>= fun v => assignVar (.loc id) v >>= f) st))
    (next : ∀ st' names' act', Matches shape own (id :: scope) names' st' act' → claim (f () st') →
      goal.Holds st' names' rest act') :
    goal.Holds st names (.assign place term :: rest) act := by
  have simulated := simulates st act matching
  cases result : x st with
  | error e st' =>
    rw [result] at simulated
    rw [bind_of_error result] at claimed
    obtain ⟨data, fails⟩ := sane _ _ claimed
    exact goal.fail (.here (simulated data).bind) fails
  | ok v st' =>
    rw [result] at simulated
    rw [bind_of_ok result] at claimed
    obtain ⟨v', names', act', gives, matching', advance, alike⟩ := simulated
    have more : ∀ other : Var, other.inScope (id :: scope) → other = .loc id ∨ other.inScope scope := by
      intro other inside
      cases other with
      | loc other =>
        simp only [Var.inScope, List.mem_cons, decide_eq_true_eq] at inside ⊢
        rcases inside with rfl | inside
        · exact .inl rfl
        · exact .inr inside
      | _ => exact .inr rfl
    have assigned := matching'.assign sound placed alike more
    have stored := gives_store (ownFrame_self own) (matching'.writable sound placed) v'
    have kept : Advance st' names' act'.world { st' with vars := st'.vars.set (.loc id) v } names'
        (put own act' v' place).world := .of_same rfl rfl (by simp) (.refl names')
    exact goal.back (advance.trans kept) (.assign gives stored) (next _ _ _ assigned claimed)

/-- The condition of a loop, which may be absent. -/
theorem Goal.condition (goal : Goal machine own body) (sound : shape.Sound) {cond : Option Expr}
    {terms : List Term} (lowered : shape.terms cond.toList = .ok terms)
    (inside : cond.toList.all (Expr.isScoped scope)) {f : Bool → Run β} {rest leave : Code}
    {target : Label} (leads : body.from? target = some leave)
    {claim : EStateM.Result EvalError State β → Prop} (sane : Sane goal claim)
    (matching : Matches shape own scope names st act) (claimed : claim ((holds cond >>= f) st))
    (next : ∀ holding st' names' act', holds cond st = .ok holding st' →
      Matches shape own scope names' st' act' → claim (f holding st') →
      goal.Holds st' names' (if holding then rest else leave) act') :
    goal.Holds st names (terms.map (.gotoUnless · target) ++ rest) act := by
  cases cond with
  | none =>
    obtain rfl := Except.ok.inj lowered
    exact next true st names act rfl matching claimed
  | some cond =>
    simp only [Option.toList_some, Shape.terms, except_bind_eq_ok, except_pure_eq_ok,
      Except.ok.injEq] at lowered
    obtain ⟨term, lowered, _, rfl, rfl⟩ := lowered
    simp only [Option.toList_some, List.all_cons, Bool.and_eq_true] at inside
    refine goal.step sane (simulates_condition machine sound lowered inside.1 target) matching claimed ?_
    rintro holding st' names' act' outcome evaluated matching' rfl claimed
    have later := next holding st' names' act' evaluated matching' claimed
    cases holding with
    | true => exact ⟨rest, rfl, later⟩
    | false => exact ⟨leave, leads, later⟩

theorem Goal.effects (goal : Goal machine own body) (sound : shape.Sound) {es : List Expr} {code : Code}
    (lowered : shape.effects es = .ok code) (inside : es.all (Expr.isScoped scope))
    {f : List Value → Run β} {rest : Code} {claim : EStateM.Result EvalError State β → Prop}
    (sane : Sane goal claim) (matching : Matches shape own scope names st act)
    (claimed : claim ((evalExprs es >>= f) st))
    (next : ∀ vs st' names' act', evalExprs es st = .ok vs st' →
      Matches shape own scope names' st' act' → claim (f vs st') →
      goal.Holds st' names' rest act') : goal.Holds st names (code ++ rest) act := by
  induction es generalizing st names act code f with
  | nil =>
    obtain rfl := Except.ok.inj lowered
    exact next [] st names act rfl matching claimed
  | cons e others ih =>
    simp only [Shape.effects, except_bind_eq_ok, except_pure_eq_ok] at lowered
    obtain ⟨instr, here, code, later, rfl⟩ := lowered
    simp only [List.all_cons, Bool.and_eq_true] at inside
    simp only [evalExprs, bind_assoc, pure_bind] at claimed
    refine goal.step sane (simulates_effect machine sound here inside.1) matching claimed ?_
    rintro v st' names' act' outcome evaluated matching' rfl claimed
    refine ⟨code ++ rest, rfl, ih later inside.2 matching' claimed ?_⟩
    intro vs st'' names'' act'' evaluated' matching'' claimed
    refine next (v :: vs) st'' names'' act'' ?_ matching'' claimed
    simp only [evalExprs]
    rw [bind_of_ok evaluated, bind_of_ok evaluated']
    rfl

theorem reaches_setField {id : FieldId} {term : Term} {value : Value} {act' : Activation} {rest : Code}
    (evaluated : (evalTerm machine (call machine) (ownFrame own) term).Gives act value act')
    (present : Writable own act' (.field id)) :
    Machine.Reaches machine body (ownFrame own) (.setField id term :: rest) act rest
      (put own act' value (.field id)) :=
  .assign evaluated (gives_store (ownFrame_self own) present value)

theorem reaches_setState {n : Int64} {rest : Code}
    (present : Writable own act (.field shape.state)) :
    Machine.Reaches machine body (ownFrame own) (shape.setState n :: rest) act rest
      (put own act (.int n) (.field shape.state)) :=
  reaches_setField (fun _ => by simp only [evalTerm]; rfl) present

/-- Fields that store no variable can be written freely. -/
theorem Matches.protocol (matching : Matches shape own scope names st act) (sound : shape.Sound)
    {id : FieldId} {role : Role} (bears : shape.Bears id role) (other : ∀ var, role ≠ .hoisted var)
    (value : Value) : Matches shape own scope names st (put own act value (.field id)) where
  between := by simpa using matching.between
  present bears := isSome_slot?_put value _ (matching.present bears)
  held {var place old} inside placed found := by
    have apart : place ≠ .field id := by
      rintro rfl
      rcases place_eq_ok.mp placed with ⟨id', slot, same⟩ | ⟨id', _, _, same⟩
      · obtain rfl := Place.field.inj same
        exact sound.slot_ne slot bears (other var) rfl
      · cases same
    rw [content_put_of_ne value apart]
    exact matching.held inside placed found

/-- The activation in which a value has been handed over and the state tells where to go on. -/
def handedOver (shape : Shape) (own : Nat) (act : Activation) (value : Value) (state : Int64) :
    Activation :=
  put own (put own act value (.field shape.current)) (.int state) (.field shape.state)

theorem Matches.handedOver (matching : Matches shape own scope names st act) (sound : shape.Sound)
    (value : Value) (state : Int64) :
    Matches shape own scope names st (handedOver shape own act value state) :=
  (matching.protocol sound sound.current (by simp) value).protocol sound sound.state (by simp) _

theorem pausedAt_handedOver (matching : Matches shape own scope names st act) (sound : shape.Sound)
    {points : List Machine.Point} {point : Machine.Point} (known : point ∈ points)
    {value value' : Value} (alike : Value.Alike names value value') :
    PausedAt shape own points names value point (handedOver shape own act value' point.state) where
  known := known
  state := by
    have writable : Writable own (put own act value' (.field shape.current)) (.field shape.state) :=
      isSome_slot?_put value' _ (matching.present sound.state)
    exact content_put_self writable _
  current := by
    have writable : Writable own act (.field shape.current) := matching.present sound.current
    have apart : Place.field shape.current ≠ .field shape.state := fun same =>
      sound.current_ne_state (Place.field.inj same)
    exact ⟨value', (content_put_of_ne _ apart).trans (content_put_self writable value'), alike⟩

theorem reaches_handedOver {term : Term} {value : Value} {state : Int64} {act' : Activation}
    {rest : Code} (matching : Matches shape own scope names st act') (sound : shape.Sound)
    (evaluated : (evalTerm machine (call machine) (ownFrame own) term).Gives act value act') :
    Machine.Reaches machine body (ownFrame own)
      (.setField shape.current term :: shape.setState state :: rest) act rest
      (handedOver shape own act' value state) :=
  (reaches_setField evaluated (matching.present sound.current)).trans
    (reaches_setState (isSome_slot?_put value _ (matching.present sound.state)))

end

end Resumable.Simulation
