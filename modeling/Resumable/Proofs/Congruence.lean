import Resumable.Proofs.Counting
import Resumable.Proofs.Settling
import Resumable.Proofs.Storage

/-!
A method beside the method with counting loops. A relation between their runs that holds of
single steps, and of what is put together from related parts, holds of the two bodies as soon as
it holds of a foreach loop and the counting loop that replaces it.
-/

namespace Resumable

theorem Method.lt_of_declared {method : Method} {id : LocalId}
    (declared : (method.varType? (.loc id)).isSome) : id < nextLocal method.locals := by
  simp only [varType?, local?, Option.isSome_map, List.find?_isSome, decide_eq_true_eq] at declared
  obtain ⟨l, member, rfl⟩ := declared
  exact lt_nextLocal member

namespace Structured
open Lowering

/-- The two states agree on all that the method can see. -/
structure Tracks (method : Method) (st st' : State) : Prop where
  values : st'.values = st.values
  calls : st'.calls = st.calls
  arrays : st'.arrays = st.arrays
  vars (var : Var) : (method.varType? var).isSome → st'.vars.get? var = st.vars.get? var

/-- Locals from the first undeclared one up to `next` are left alone. -/
def Keeps (method : Method) (next : LocalId) (st st' : State) : Prop :=
  ∀ id, nextLocal method.locals ≤ id → id < next → st'.vars.get? (.loc id) = st.vars.get? (.loc id)

section
variable {method : Method} {next larger : LocalId} {st st' after after' : State} {α β : Type}

theorem Keeps.refl (method : Method) (next : LocalId) (st : State) : Keeps method next st st :=
  fun _ _ _ => rfl

theorem Keeps.trans {first second third : State} (earlier : Keeps method next first second)
    (later : Keeps method next second third) : Keeps method next first third :=
  fun id above below => (later id above below).trans (earlier id above below)

theorem Keeps.mono (keeps : Keeps method larger st st') (less : next ≤ larger) :
    Keeps method next st st' :=
  fun id above below => keeps id above (Nat.lt_of_lt_of_le below less)

/-- The same variable of the method is assigned on both sides. -/
theorem Tracks.assign (tracks : Tracks method st st') (var : Var) (value : Value) :
    Tracks method { st with vars := st.vars.set var value }
      { st' with vars := st'.vars.set var value } where
  values := tracks.values
  calls := tracks.calls
  arrays := tracks.arrays
  vars other declared := by simp only [Table.get?_set, tracks.vars other declared]

/-- A local that the method does not declare is assigned on one side. -/
theorem Tracks.aside (tracks : Tracks method st st') {id : LocalId}
    (above : nextLocal method.locals ≤ id) (value : Value) :
    Tracks method st { st' with vars := st'.vars.set (.loc id) value } where
  values := tracks.values
  calls := tracks.calls
  arrays := tracks.arrays
  vars other declared := by
    rw [Table.get?_set, if_neg, tracks.vars other declared]
    rintro rfl
    exact absurd (Method.lt_of_declared declared) (Nat.not_lt.mpr above)

theorem keeps_declared {var : Var} (declared : (method.varType? var).isSome) (value : Value) :
    Keeps method next st { st with vars := st.vars.set var value } := by
  intro id above _
  refine Table.get?_set_of_ne _ _ ?_
  rintro rfl
  exact absurd (Method.lt_of_declared declared) (Nat.not_lt.mpr above)

theorem keeps_temporary {id : LocalId} (past : next ≤ id) (value : Value) :
    Keeps method next st { st with vars := st.vars.set (.loc id) value } := by
  intro other _ below
  refine Table.get?_set_of_ne _ _ ?_
  rintro ⟨⟩
  exact absurd below (Nat.not_lt.mpr past)

theorem declared_of_checkVar {var : Var} {u : Unit} (passed : checkVar method var = .ok u) :
    (method.varType? var).isSome := by
  unfold checkVar at passed
  split at passed
  · assumption
  · cases passed

/-- A relation between computations of the method and of the method with counting loops that holds
between each step and itself and passes from parts to wholes. Its first argument is the first local
that a computation may take as a temporary. -/
structure Congruence (method : Method)
    (related : LocalId → ∀ {α : Type}, Run α → Run α → Prop) : Prop where
  mono {next larger : LocalId} {α : Type} {x y : Run α} :
    related larger x y → next ≤ larger → related next x y
  bind {next : LocalId} {α β : Type} {x y : Run α} {f g : α → Run β} :
    related next x y → (∀ a, related next (f a) (g a)) → related next (x >>= f) (y >>= g)
  pure {next : LocalId} {α : Type} (a : α) : related next (Pure.pure a : Run α) (Pure.pure a)
  throw {next : LocalId} {α : Type} (e : EvalError) :
    related next (MonadExcept.throw e : Run α) (MonadExcept.throw e)
  burn {next : LocalId} : related next Structured.burn Structured.burn
  readVar {next : LocalId} {var : Var} :
    (method.varType? var).isSome → related next (Structured.readVar var) (Structured.readVar var)
  assignVar {next : LocalId} {var : Var} : (method.varType? var).isSome → ∀ value,
    related next (Structured.assignVar var value) (Structured.assignVar var value)
  newArray {next : LocalId} (items : List Value) :
    related next (Structured.newArray items) (Structured.newArray items)
  callHost {next : LocalId} (callee : String) (args : List Value) :
    related next (Structured.callHost callee args) (Structured.callHost callee args)
  produce {next : LocalId} (limit : Option Nat) (value : Value) :
    related next (Structured.produce limit value) (Structured.produce limit value)
  loop {next : LocalId} {turn turn' : Run (Option Flow)} :
    related next turn turn' → related next (Structured.loop turn) (Structured.loop turn')

namespace Congruence

section
variable {related : LocalId → ∀ {α : Type}, Run α → Run α → Prop}
  (rules : Congruence method related)
include rules

theorem checked (x : Except EvalError α) :
    related next (Resumable.checked x) (Resumable.checked x) := by
  cases x with
  | ok a => exact rules.pure a
  | error e => exact rules.throw e

mutual
theorem expr : (e : Expr) → checkExpr method e = .ok () → related next (evalExpr e) (evalExpr e)
  | .int _, _ | .bool _, _ | .str _, _ | .null, _ => by
    simp only [evalExpr]
    exact rules.pure _
  | .var var, passed => by
    simp only [evalExpr]
    exact rules.readVar (declared_of_checkVar passed)
  | .assign var value, passed => by
    simp only [checkExpr, check_bind] at passed
    obtain ⟨declared, passed⟩ := passed
    simp only [evalExpr]
    exact rules.bind (expr value passed) fun v =>
      rules.bind (rules.assignVar (declared_of_checkVar declared) v) fun _ => rules.pure v
  | .unary op operand, passed => by
    simp only [evalExpr]
    exact rules.bind (expr operand passed) fun _ => rules.checked _
  | .binary op left right, passed => by
    simp only [checkExpr, check_bind] at passed
    obtain ⟨passedLeft, passedRight⟩ := passed
    have decided (v : Value) : related next
        (do let b ← Resumable.checked v.asBool; return Value.bool b)
        (do let b ← Resumable.checked v.asBool; return Value.bool b) :=
      rules.bind (rules.checked _) fun _ => rules.pure _
    by_cases conjunction : op = .and
    · subst conjunction
      simp only [evalExpr]
      refine rules.bind (expr left passedLeft) fun _ => rules.bind (rules.checked _) fun holds => ?_
      cases holds with
      | true => exact rules.bind (expr right passedRight) decided
      | false => exact rules.pure _
    · by_cases disjunction : op = .or
      · subst disjunction
        simp only [evalExpr]
        refine rules.bind (expr left passedLeft) fun _ => rules.bind (rules.checked _) fun holds => ?_
        cases holds with
        | true => exact rules.pure _
        | false => exact rules.bind (expr right passedRight) decided
      · simp only [evalExpr]
        exact rules.bind (expr left passedLeft) fun _ =>
          rules.bind (expr right passedRight) fun _ => rules.checked _
  | .array items, passed => by
    simp only [evalExpr]
    exact rules.bind (exprs items passed) fun _ => rules.newArray _
  | .index base position, passed => by
    simp only [checkExpr, check_bind] at passed
    obtain ⟨passedBase, passedPosition⟩ := passed
    simp only [evalExpr]
    exact rules.bind (expr base passedBase) fun _ =>
      rules.bind (expr position passedPosition) fun _ => rules.checked _
  | .len base, passed => by
    simp only [evalExpr]
    exact rules.bind (expr base passed) fun _ => rules.checked _
  | .call callee args, passed => by
    simp only [evalExpr]
    exact rules.bind (exprs args passed) fun _ => rules.bind (rules.callHost _ _) fun _ => rules.pure _

theorem exprs : (es : List Expr) → checkExprs method es = .ok () →
    related next (evalExprs es) (evalExprs es)
  | [], _ => by
    simp only [evalExprs]
    exact rules.pure _
  | e :: rest, passed => by
    simp only [checkExprs, check_bind] at passed
    obtain ⟨passedFirst, passedRest⟩ := passed
    simp only [evalExprs]
    exact rules.bind (expr e passedFirst) fun _ => rules.bind (exprs rest passedRest) fun _ => rules.pure _
end

theorem condition {cond : Option Expr} (passed : checkExprs method cond.toList = .ok ()) :
    related next (holds cond) (holds cond) := by
  cases cond with
  | none => exact rules.pure true
  | some cond =>
    simp only [Option.toList_some, checkExprs, except_bind_eq_ok] at passed
    obtain ⟨_, passed, _⟩ := passed
    exact rules.bind (rules.expr cond passed) fun _ => rules.checked _

end

end Congruence

end

/-- The second method gives every local of the first its type. -/
def SameTypes (method method' : Method) : Prop :=
  ∀ id, (method.varType? (.loc id)).isSome → method'.varType? (.loc id) = method.varType? (.loc id)

theorem sameTypes_expanded {method expanded : Method} (done : expandForeach method = .ok expanded) :
    SameTypes method expanded := by
  obtain ⟨locals, rfl, more, rfl⟩ := expandForeach_spec done
  intro id known
  simp only [Method.varType?, Method.local?, List.find?_append, Option.isSome_map] at known ⊢
  rw [Option.or_of_isSome known]

/-- A foreach loop is related to the counting loop that replaces it when their bodies are. -/
def RelatesForeach (method method' : Method) (limit : Option Nat)
    (related : LocalId → ∀ {α : Type}, Run α → Run α → Prop) : Prop :=
  ∀ {next id : LocalId} {collection : Expr} {body body' : Block},
    (method.varType? (.loc id)).isSome → nextLocal method.locals ≤ next →
    checkExpr method collection = .ok () →
    related (next + 2) (execBlock method limit body) (execBlock method' limit body') →
    related next (execStmt method limit (.foreach id collection body))
      (execStmt method' limit (countingLoop id next (next + 1) collection body'))

namespace Congruence

section
variable {method method' : Method} {limit : Option Nat}
  {related : LocalId → ∀ {α : Type}, Run α → Run α → Prop}
  (rules : Congruence method related)
include rules

mutual
theorem stmt (each : RelatesForeach method method' limit related)
    (same : SameTypes method method') : (s : Stmt) → (next : LocalId) → nextLocal method.locals ≤ next →
    (around : Surroundings) → checkStmt method around s = .ok () →
    related next (execStmt method limit s) (execStmt method' limit (s.counted next))
  | .block body, next, above, around, passed => by
    simp only [Stmt.counted, execStmt]
    exact rules.bind rules.burn fun _ => block each same body next above around passed
  | .declare id none, next, above, around, passed => by
    simp only [checkStmt, check_bind] at passed
    obtain ⟨declared, _⟩ := passed
    have known := declared_of_checkVar declared
    simp only [Stmt.counted, execStmt, same id known]
    refine rules.bind rules.burn fun _ => ?_
    obtain ⟨ty, typed⟩ := Option.isSome_iff_exists.mp known
    simp only [typed]
    exact rules.bind (rules.assignVar known _) fun _ => rules.pure _
  | .declare id (some init), next, above, around, passed => by
    simp only [checkStmt, except_bind_eq_ok, Option.toList_some, checkExprs] at passed
    obtain ⟨_, declared, _, passed, _⟩ := passed
    simp only [Stmt.counted, execStmt]
    exact rules.bind rules.burn fun _ => rules.bind (rules.expr init passed) fun _ =>
      rules.bind (rules.assignVar (declared_of_checkVar declared) _) fun _ => rules.pure _
  | .eval value, next, above, around, passed => by
    simp only [Stmt.counted, execStmt]
    exact rules.bind rules.burn fun _ => rules.bind (rules.expr value passed) fun _ => rules.pure _
  | .ite cond yes none, next, above, around, passed => by
    simp only [checkStmt, check_bind] at passed
    obtain ⟨passedCond, passedYes⟩ := passed
    simp only [Stmt.counted, execStmt]
    refine rules.bind rules.burn fun _ => rules.bind ?_ fun holds => ?_
    · exact rules.bind (rules.expr cond passedCond) fun _ => rules.checked _
    · cases holds with
      | true => exact block each same yes next above around passedYes
      | false => exact rules.pure _
  | .ite cond yes (some no), next, above, around, passed => by
    simp only [checkStmt, check_bind] at passed
    obtain ⟨passedCond, passedYes, passedNo⟩ := passed
    simp only [Stmt.counted, execStmt]
    refine rules.bind rules.burn fun _ => rules.bind ?_ fun holds => ?_
    · exact rules.bind (rules.expr cond passedCond) fun _ => rules.checked _
    · cases holds with
      | true => exact block each same yes next above around passedYes
      | false =>
        exact rules.mono (block each same no _ (Nat.le_add_right_of_le above) around passedNo)
          (Nat.le_add_right _ _)
  | .whileLoop cond body, next, above, around, passed => by
    simp only [checkStmt, check_bind] at passed
    obtain ⟨passedCond, passedBody⟩ := passed
    simp only [Stmt.counted, execStmt]
    refine rules.bind rules.burn fun _ => rules.loop (rules.bind ?_ fun holds => ?_)
    · exact rules.bind (rules.expr cond passedCond) fun _ => rules.checked _
    · cases holds with
      | true =>
        exact rules.bind rules.burn fun _ =>
          rules.bind (block each same body next above around.loop passedBody) fun _ => rules.pure _
      | false => exact rules.pure _
  | .forLoop init cond step body, next, above, around, passed => by
    simp only [checkStmt, check_bind] at passed
    obtain ⟨passedInit, passedCond, passedStep, passedBody⟩ := passed
    simp only [Stmt.counted, execStmt]
    refine rules.bind rules.burn fun _ =>
      rules.bind (header each same init next above around passedInit) fun _ => rules.loop ?_
    refine rules.bind rules.burn fun _ => rules.bind (rules.condition passedCond) fun holds => ?_
    cases holds with
    | true =>
      refine rules.bind (rules.mono
        (block each same body _ (Nat.le_add_right_of_le above) around.loop passedBody)
        (Nat.le_add_right next (Stmt.extraLocalsAll init))) fun flow => ?_
      cases afterBody flow with
      | none => exact rules.bind (rules.exprs step passedStep) fun _ => rules.pure _
      | some flow => exact rules.pure _
    | false => exact rules.pure _
  | .foreach id collection body, next, above, around, passed => by
    simp only [checkStmt, check_bind] at passed
    obtain ⟨declared, passedCollection, passedBody⟩ := passed
    exact each (declared_of_checkVar declared) above passedCollection
      (block each same body (next + 2) (Nat.le_add_right_of_le above) around.loop passedBody)
  | .switch scrutinee cases none, next, above, around, passed => by
    simp only [checkStmt, check_bind] at passed
    obtain ⟨passedScrutinee, passedCases⟩ := passed
    simp only [Stmt.counted, execStmt]
    refine rules.bind rules.burn fun _ => rules.bind (rules.expr scrutinee passedScrutinee) fun _ =>
      rules.bind (rules.checked _) fun value => rules.bind ?_ fun _ => rules.pure _
    exact switchCases each same cases next above around.switch passedCases value (Nat.le_refl _) (rules.pure _)
  | .switch scrutinee cases (some default), next, above, around, passed => by
    simp only [checkStmt, check_bind] at passed
    obtain ⟨passedScrutinee, passedCases, passedDefault⟩ := passed
    simp only [Stmt.counted, execStmt]
    refine rules.bind rules.burn fun _ => rules.bind (rules.expr scrutinee passedScrutinee) fun _ =>
      rules.bind (rules.checked _) fun value => rules.bind ?_ fun _ => rules.pure _
    have otherwise := rules.mono
      (block each same default _ (Nat.le_add_right_of_le above) around.switch passedDefault)
      (Nat.le_add_right next (Stmt.extraLocalsCases cases))
    exact switchCases each same cases next above around.switch passedCases value (Nat.le_refl _) otherwise
  | .tryFinally body cleanup, next, above, around, passed => by
    simp only [checkStmt, check_bind] at passed
    obtain ⟨passedBody, passedCleanup⟩ := passed
    simp only [Stmt.counted, execStmt]
    refine rules.bind rules.burn fun _ => rules.bind (block each same body next above around passedBody) fun flow => ?_
    have clean := rules.mono (block each same cleanup _ (Nat.le_add_right_of_le above) .cleanup passedCleanup)
      (Nat.le_add_right next (Stmt.extraLocalsAll body))
    refine rules.bind clean fun left => ?_
    split
    · exact rules.pure _
    · exact rules.throw _
  | .breakOut, next, above, around, passed => by
    simp only [Stmt.counted, execStmt]
    exact rules.bind rules.burn fun _ => rules.pure _
  | .continueLoop, next, above, around, passed => by
    simp only [Stmt.counted, execStmt]
    exact rules.bind rules.burn fun _ => rules.pure _
  | .yield value, next, above, around, passed => by
    have passedValue : checkExpr method value = .ok () := by
      simp only [checkStmt] at passed
      split at passed
      · cases passed
      · exact passed
    simp only [Stmt.counted, execStmt]
    exact rules.bind rules.burn fun _ => rules.bind (rules.expr value passedValue) fun _ =>
      rules.bind (rules.produce limit _) fun _ => rules.pure _
  | .stop, next, above, around, passed => by
    simp only [Stmt.counted, execStmt]
    exact rules.bind rules.burn fun _ => rules.pure _

theorem block (each : RelatesForeach method method' limit related)
    (same : SameTypes method method') : (body : List Stmt) → (next : LocalId) → nextLocal method.locals ≤ next →
    (around : Surroundings) → checkBlock method around body = .ok () →
    related next (execBlock method limit body) (execBlock method' limit (Stmt.countedAll next body))
  | [], next, above, around, passed => by
    simp only [Stmt.countedAll, execBlock]
    exact rules.pure _
  | s :: rest, next, above, around, passed => by
    simp only [checkBlock, check_bind] at passed
    obtain ⟨passedFirst, passedRest⟩ := passed
    simp only [Stmt.countedAll, execBlock]
    refine rules.bind (stmt each same s next above around passedFirst) fun flow => ?_
    split
    · exact rules.mono (block each same rest _ (Nat.le_add_right_of_le above) around passedRest)
        (Nat.le_add_right _ _)
    · exact rules.pure _

theorem header (each : RelatesForeach method method' limit related)
    (same : SameTypes method method') : (init : List Stmt) → (next : LocalId) → nextLocal method.locals ≤ next →
    (around : Surroundings) → checkBlock method around init = .ok () →
    related next (execInit method limit init) (execInit method' limit (Stmt.countedAll next init))
  | [], next, above, around, passed => by
    simp only [Stmt.countedAll, execInit]
    exact rules.pure _
  | s :: rest, next, above, around, passed => by
    simp only [checkBlock, check_bind] at passed
    obtain ⟨passedFirst, passedRest⟩ := passed
    simp only [Stmt.countedAll, execInit]
    exact rules.bind (stmt each same s next above around passedFirst) fun flow =>
      rules.mono (header each same rest _ (Nat.le_add_right_of_le above) around passedRest) (Nat.le_add_right _ _)

theorem switchCases (each : RelatesForeach method method' limit related)
    (same : SameTypes method method') : (cases : List (List Int64 × List Stmt)) → (next : LocalId) →
    nextLocal method.locals ≤ next → (around : Surroundings) →
    checkCases method around cases = .ok () → (value : Int64) → {floor : LocalId} → floor ≤ next →
    {otherwise otherwise' : Run Flow} → related floor otherwise otherwise' →
    related floor (execCases method limit value otherwise cases)
      (execCases method' limit value otherwise' (Stmt.countedCases next cases))
  | [], next, above, around, passed, value, floor, below, _, _, default => by
    simp only [Stmt.countedCases, execCases]
    exact default
  | (values, body) :: rest, next, above, around, passed, value, floor, below, _, _, default => by
    simp only [checkCases, check_bind] at passed
    obtain ⟨passedFirst, passedRest⟩ := passed
    simp only [Stmt.countedCases, execCases]
    split
    · exact rules.mono (block each same body next above around passedFirst) below
    · exact switchCases each same rest _ (Nat.le_add_right_of_le above) around passedRest value
        (Nat.le_add_right_of_le below) default
end

end

theorem expanded {method expanded : Method} {limit : Option Nat}
    {related : LocalId → ∀ {α : Type}, Run α → Run α → Prop} (rules : Congruence method related)
    (each : RelatesForeach method expanded limit related) (passed : checkStructure method = .ok ())
    (done : expandForeach method = .ok expanded) :
    related (nextLocal method.locals) (runBody method limit) (runBody expanded limit) := by
  have same := sameTypes_expanded done
  obtain ⟨locals, rfl, _⟩ := expandForeach_spec done
  refine rules.bind (rules.block each same method.body _ (Nat.le_refl _) .body passed) fun flow => ?_
  cases flow with
  | next => exact rules.pure _
  | stopping => exact rules.pure _
  | breaking => exact rules.throw _
  | continuing => exact rules.throw _

end Congruence

/-! The counting loop itself. -/

theorem bind_next (x : Run Flow) :
    (x >>= fun flow => if flow = .next then Pure.pure .next else Pure.pure flow) = x := by
  have same (flow : Flow) :
      (if flow = .next then Pure.pure .next else Pure.pure flow : Run Flow) = Pure.pure flow := by
    split
    · next atEnd => rw [atEnd]
    · rfl
  simp only [same, bind_pure]

/-- The body of the counting loop over the array in `array`. -/
def countingBody (method : Method) (limit : Option Nat) (id array index : LocalId) (body : Block) :
    Run Flow := do
  burn
  let item ← evalExpr (.index (.ofLocal array) (.ofLocal index))
  assignVar (.loc id) item
  burn
  execBlock method limit body

def countingTurn (method : Method) (limit : Option Nat) (id array index : LocalId) (body : Block) :
    Run (Option Flow) :=
  forTurn (some (.binary .lt (.ofLocal index) (.len (.ofLocal array))))
    [.assign (.loc index) (.binary .add (.ofLocal index) (.int 1))]
    (countingBody method limit id array index body)

theorem execStmt_countingLoop (method : Method) (limit : Option Nat) (id array index : LocalId)
    (collection : Expr) (body : Block) :
    execStmt method limit (countingLoop id array index collection body) = (do
      burn
      burn
      let items ← evalExpr collection
      assignVar (.loc array) items
      burn
      burn
      assignVar (.loc index) (.int 0)
      loop (countingTurn method limit id array index body)) := by
  simp only [countingLoop, countingTurn, countingBody, execStmt, execBlock, execInit, evalExpr, bind_assoc,
    pure_bind, if_true, bind_next]

/-- A turn, and then the others. -/
theorem repeatTurns_counting (method : Method) (limit : Option Nat) (id array index : LocalId) (body : Block)
    (bound : Nat) :
    repeatTurns (countingTurn method limit id array index body) (bound + 1) = (do
      burn
      if ← holds (some (.binary .lt (.ofLocal index) (.len (.ofLocal array)))) then do
        let flow ← countingBody method limit id array index body
        match afterBody flow with
        | some flow => return flow
        | none => do
          let _ ← evalExprs [.assign (.loc index) (.binary .add (.ofLocal index) (.int 1))]
          repeatTurns (countingTurn method limit id array index body) bound
      else return .next) := by
  rw [repeatTurns]
  generalize repeatTurns (countingTurn method limit id array index body) bound = others
  simp only [countingTurn, forTurn, bind_assoc]
  refine bind_congr fun _ => bind_congr fun holds => ?_
  cases holds with
  | false => simp
  | true =>
    simp only [if_true, bind_assoc]
    refine bind_congr fun flow => ?_
    cases afterBody flow <;> simp

/-- A counting loop over `value` with its temporaries from `next` on stands at position `k`. -/
structure Cursor (next : LocalId) (value : Value) (k : Int64) (st : State) : Prop where
  stored : st.vars.get? (.loc next) = some value
  position : st.vars.get? (.loc (next + 1)) = some (.int k)

section
variable {method : Method} {next : LocalId} {st st' : State} {value : Value} {k : Int64}

theorem cursor_set (stored : st.vars.get? (.loc next) = some value) (k : Int64) :
    Cursor next value k { st with vars := st.vars.set (.loc (next + 1)) (.int k) } where
  stored := (Table.get?_set_of_ne _ _ (by simp)).trans stored
  position := Table.get?_set_self _ _ _

variable (cursor : Cursor next value k st)
include cursor

theorem Cursor.withFuel (fuel : Nat) : Cursor next value k (st.withFuel fuel) :=
  ⟨cursor.stored, cursor.position⟩

theorem Cursor.kept (above : nextLocal method.locals ≤ next) (keeps : Keeps method (next + 2) st st') :
    Cursor next value k st' where
  stored := (keeps next above (by simp)).trans cursor.stored
  position := (keeps (next + 1) (Nat.le_succ_of_le above) (Nat.lt_succ_self _)).trans cursor.position

theorem holds_counting {n : Int64} (long : value.len = .ok (.int n)) :
    holds (some (.binary .lt (.ofLocal (next + 1)) (.len (.ofLocal next)))) st =
      .ok (decide (k < n)) st := by
  simp [holds, evalExpr, Expr.ofLocal, readVar, cursor.position, cursor.stored, long, bind, EStateM.bind,
    Value.binary, Value.arithmetic, Value.asInt, Value.asBool, Except.bind, pure, Except.pure]

theorem holds_counting_error {e : EvalError} (odd : value.len = .error e) :
    holds (some (.binary .lt (.ofLocal (next + 1)) (.len (.ofLocal next)))) st = .error e st := by
  simp [holds, evalExpr, Expr.ofLocal, readVar, cursor.position, cursor.stored, odd, bind, EStateM.bind]

theorem evalExpr_item :
    evalExpr (.index (.ofLocal next) (.ofLocal (next + 1))) st =
      Resumable.checked (value.index (.int k)) st := by
  simp only [evalExpr, Expr.ofLocal, readVar, cursor.position, cursor.stored, bind, EStateM.bind]

theorem evalExprs_step :
    evalExprs [.assign (.loc (next + 1)) (.binary .add (.ofLocal (next + 1)) (.int 1))] st =
      .ok [.int (k + 1)] { st with vars := st.vars.set (.loc (next + 1)) (.int (k + 1)) } := by
  simp [evalExprs, evalExpr, Expr.ofLocal, readVar, cursor.position, bind, EStateM.bind, Value.binary,
    Value.arithmetic, Value.asInt, Except.bind, pure, Except.pure, assignVar, EStateM.pure]

end

theorem below_reach {i n : Nat} (below : i < reach n) : Int64.ofNat i < Int64.ofNat n := by
  have := (Int64.ofNat n).toInt_lt
  unfold reach at below
  rw [Int64.lt_iff_toInt_lt, Int64.toInt_ofNat_of_lt (by omega)]
  omega

theorem not_below_reach (n : Nat) : ¬Int64.ofNat (reach n) < Int64.ofNat n := by
  have := (Int64.ofNat n).toInt_lt
  unfold reach
  rw [Int64.lt_iff_toInt_lt, Int64.toInt_ofNat_of_lt (by omega)]
  omega

theorem index_below_reach {identity i : Nat} {items : List Value} {item : Value}
    (below : i < reach items.length) (found : items[i]? = some item) :
    (Value.array identity items).index (.int (Int64.ofNat i)) = .ok item := by
  have small : (Int64.ofNat i).toInt = i := by
    have := (Int64.ofNat items.length).toInt_lt
    unfold reach at below
    exact Int64.toInt_ofNat_of_lt (by omega)
  have positive : ¬Int64.ofNat i < 0 := by
    rw [Int64.lt_iff_toInt_lt, small]
    simp
  simp [Value.index, Value.asInt, Value.item, bind, Except.bind, positive, small, found]

theorem reach_le (n : Nat) : reach n ≤ n := by
  unfold reach
  have wrapped : (Int64.ofNat n).toInt = (n : Int).bmod (2 ^ 64) := by
    rw [← Int64.ofInt_eq_ofNat]
    exact Int64.toInt_ofInt
  rw [wrapped, Int.bmod]
  split <;> omega

section
variable {items done rest : List Value} {item : Value}

theorem length_take_reach (items : List Value) :
    (items.take (reach items.length)).length = reach items.length := by
  rw [List.length_take, Nat.min_eq_left (reach_le _)]

/-- Past the last item the position is no longer below the length. -/
theorem not_below_of_done (split : items.take (reach items.length) = done ++ []) :
    ¬Int64.ofNat done.length < Int64.ofNat items.length := by
  have taken := length_take_reach items
  rw [split, List.append_nil] at taken
  rw [taken]
  exact not_below_reach _

/-- Before an item the position is below the length, and the item is found there. -/
theorem found_of_rest (identity : Nat) (split : items.take (reach items.length) = done ++ item :: rest) :
    Int64.ofNat done.length < Int64.ofNat items.length ∧
      (Value.array identity items).index (.int (Int64.ofNat done.length)) = .ok item := by
  have below : done.length < reach items.length := by
    rw [← length_take_reach, split, List.length_append, List.length_cons]
    omega
  have here : items[done.length]? = some item := by
    have found : (items.take (reach items.length))[done.length]? = some item := by simp [split]
    rwa [List.getElem?_take_of_lt below] at found
  exact ⟨below_reach below, index_below_reach below here⟩

theorem ofNat_length_concat (done : List Value) (item : Value) :
    Int64.ofNat done.length + 1 = Int64.ofNat (done ++ [item]).length := by
  simp [Int64.ofNat_add]

end

/-- A counting loop over the value fails at its first turn. -/
def Unfit (value : Value) (e : EvalError) : Prop :=
  value.len = .error e ∨ (∃ n, value.len = .ok (.int n) ∧ 0 < n) ∧ value.index (.int 0) = .error e

/-- Besides arrays, only the empty string can be enumerated. Another string pays for a turn. -/
theorem foreachTurns_cases (id : LocalId) (body : Run Flow) (value : Value) :
    (∃ identity items, value = .array identity items) ∨
    (foreachTurns id body value = pure .next ∧ ∃ n, value.len = .ok (.int n) ∧ ¬0 < n) ∨
    ∃ e, Unfit value e ∧ (foreachTurns id body value = throw e ∨
      foreachTurns id body value = (do burn; throw e)) := by
  cases value with
  | array identity items => exact .inl ⟨identity, items, rfl⟩
  | str text =>
    have long : (Value.str text).len = .ok (.int (Int64.ofNat text.length)) := rfl
    simp only [foreachTurns]
    split
    · next empty =>
      have none := not_below_reach text.length
      rw [empty] at none
      exact .inr (.inl ⟨rfl, _, long, none⟩)
    · next filled =>
      have some : (0 : Int64) < Int64.ofNat text.length := below_reach (Nat.pos_of_ne_zero filled)
      exact .inr (.inr ⟨_, .inr ⟨⟨_, long, some⟩, rfl⟩, .inr rfl⟩)
  | _ => exact .inr (.inr ⟨_, .inl rfl, .inl rfl⟩)

end Structured
end Resumable
