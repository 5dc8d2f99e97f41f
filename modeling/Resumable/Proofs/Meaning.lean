import Resumable.Method.Build
import Resumable.Proofs.Checking
import Resumable.Proofs.Expansion

/-!
A method means the same with counting loops. When the method ends, so does the method with counting
loops, given enough fuel. Conversely, a method never pays for more than its counting loops do, so
with the fuel with which the loops end it ends alike. Hence both end in the same way, or neither ends.
-/

namespace Resumable
namespace Structured
open Lowering

section
variable {method : Method} {next larger : LocalId} {st st' after after' : State} {α β : Type}
  {result result' : EStateM.Result EvalError State α}

/-- The first state agrees with the second on all that the method can see, and has no less fuel. -/
structure Ahead (method : Method) (st st' : State) : Prop extends Tracks method st st' where
  fuel : st'.fuel ≤ st.fuel

theorem Ahead.spend (ahead : Ahead method st st') {fuel : Nat} (less : fuel < st'.fuel) :
    Ahead method st (st'.withFuel fuel) where
  values := ahead.values
  calls := ahead.calls
  arrays := ahead.arrays
  vars := ahead.vars
  fuel := Nat.le_trans (Nat.le_of_lt less) ahead.fuel

theorem Ahead.aside (ahead : Ahead method st st') {id : LocalId}
    (above : nextLocal method.locals ≤ id) (value : Value) :
    Ahead method st { st' with vars := st'.vars.set (.loc id) value } where
  toTracks := ahead.toTracks.aside above value
  fuel := ahead.fuel

/-- The first result is the way the second computation ended, which started in `st'`; nothing is
said when that one ran out of fuel. -/
def Foretold (method : Method) (next : LocalId) (st' : State) (result : EStateM.Result EvalError State α) :
    EStateM.Result EvalError State α → Prop
  | .ok a after' => ∃ after, result = .ok a after ∧ Ahead method after after' ∧
      Keeps method next st' after'
  | .error e _ => e ≠ .outOfFuel → ∃ after, result = .error e after

namespace Foretold

theorem dry : Foretold method next st' result (.error .outOfFuel after') :=
  fun other => (other rfl).elim

theorem mono (foretold : Foretold method larger st' result result') (less : next ≤ larger) :
    Foretold method next st' result result' := by
  cases result' with
  | error e after' => exact foretold
  | ok a after' =>
    obtain ⟨after, same, ahead, keeps⟩ := foretold
    exact ⟨after, same, ahead, keeps.mono less⟩

/-- The second computation went on from a later state. -/
theorem since (keeps : Keeps method next st' after') (foretold : Foretold method next after' result result') :
    Foretold method next st' result result' := by
  cases result' with
  | error e last' => exact foretold
  | ok a last' =>
    obtain ⟨last, same, ahead, keeps'⟩ := foretold
    exact ⟨last, same, ahead, keeps.trans keeps'⟩

/-- Both computations go on. -/
theorem bind {x y : Run α} {f g : α → Run β} (first : Foretold method larger st' (x st) (y st'))
    (less : next ≤ larger)
    (later : ∀ a after after', Ahead method after after' → Keeps method larger st' after' →
      Foretold method next after' (f a after) (g a after')) :
    Foretold method next st' ((x >>= f) st) ((y >>= g) st') := by
  cases ended : y st' with
  | error e after' =>
    rw [bind_of_error ended]
    rw [ended] at first
    exact fun other => (first other).imp fun _ => bind_of_error
  | ok a after' =>
    rw [ended] at first
    obtain ⟨after, same, ahead, keeps⟩ := first
    rw [bind_of_ok ended, bind_of_ok same]
    exact .since (keeps.mono less) (later a after after' ahead keeps)

/-- Only the second computation pays. -/
theorem pay {g : Unit → Run α} (later : ∀ fuel, fuel < st'.fuel →
      Foretold method next (st'.withFuel fuel) result (g () (st'.withFuel fuel))) :
    Foretold method next st' result ((burn >>= g) st') := by
  cases left : st'.fuel with
  | zero =>
    rw [bind_of_error (burn_dry left)]
    exact .dry
  | succ fuel =>
    rw [bind_of_ok (burn_paid left)]
    exact .since (.refl method next st') (later fuel (by omega))

/-- Only the second computation stores a value. -/
theorem store {id : LocalId} {value : Value} {g : Unit → Run α} (past : next ≤ id)
    (later : Foretold method next { st' with vars := st'.vars.set (.loc id) value } result
      (g () { st' with vars := st'.vars.set (.loc id) value })) :
    Foretold method next st' result ((assignVar (.loc id) value >>= g) st') :=
  .since (keeps_temporary past value) later

end Foretold

/-- With no less fuel, the first computation ends the way the second does. -/
def Foretells (method : Method) (next : LocalId) {α : Type} (x y : Run α) : Prop :=
  ∀ st st', Ahead method st st' → Foretold method next st' (x st) (y st')

theorem foretells_burn : Foretells method next burn burn := by
  intro st st' ahead
  cases left' : st'.fuel with
  | zero =>
    rw [burn_dry left']
    exact .dry
  | succ fuel' =>
    obtain ⟨fuel, left⟩ := Nat.exists_eq_add_of_le' (show 1 ≤ st.fuel by have := ahead.fuel; omega)
    have fewer : fuel' ≤ fuel := by have := ahead.fuel; omega
    rw [burn_paid left, burn_paid left']
    exact ⟨_, rfl, ⟨⟨ahead.values, ahead.calls, ahead.arrays, ahead.vars⟩, fewer⟩, .refl method next st'⟩

theorem foretells_assignVar {var : Var} (declared : (method.varType? var).isSome) (value : Value) :
    Foretells method next (assignVar var value) (assignVar var value) := by
  intro st st' ahead
  exact ⟨_, rfl, ⟨ahead.toTracks.assign var value, ahead.fuel⟩, keeps_declared declared value⟩

theorem foretells_turns {turn turn' : Run (Option Flow)} (foretells : Foretells method next turn turn')
    {bound bound' : Nat} (fewer : bound' ≤ bound) (ahead : Ahead method st st') :
    Foretold method next st' (repeatTurns turn bound st) (repeatTurns turn' bound' st') := by
  induction bound' generalizing bound st st' with
  | zero => exact .dry
  | succ bound' ih =>
    obtain ⟨bound, rfl⟩ := Nat.exists_eq_add_of_le' (show 1 ≤ bound by omega)
    simp only [repeatTurns]
    refine (foretells st st' ahead).bind (Nat.le_refl next) fun left after after' ahead' _ => ?_
    cases left with
    | none => exact ih (by omega) ahead'
    | some flow => exact ⟨after, rfl, ahead', .refl method next after'⟩

theorem congruence_foretells (method : Method) : Congruence method (Foretells method) where
  mono foretells less st st' ahead := (foretells st st' ahead).mono less
  bind first later st st' ahead :=
    (first st st' ahead).bind (Nat.le_refl _) fun a after after' ahead' _ => later a after after' ahead'
  pure _ st st' ahead := ⟨st, rfl, ahead, .refl method _ st'⟩
  throw _ st _ _ _ := ⟨st, rfl⟩
  burn := foretells_burn
  readVar {next var} declared st st' ahead := by
    have same := ahead.vars var declared
    cases found : st.vars.get? var with
    | none =>
      simp only [readVar, same, found]
      exact fun _ => ⟨st, rfl⟩
    | some value =>
      simp only [readVar, same, found]
      exact ⟨st, rfl, ahead, .refl method next st'⟩
  assignVar := foretells_assignVar
  newArray items st st' ahead := by
    rw [newArray, newArray, ahead.arrays]
    exact ⟨_, rfl, ⟨⟨ahead.values, ahead.calls, rfl, ahead.vars⟩, ahead.fuel⟩,
      .refl method _ st'⟩
  callHost callee args _ st' ahead :=
    ⟨_, rfl, ⟨⟨ahead.values, congrArg (Array.push · ⟨callee, args⟩) ahead.calls, ahead.arrays, ahead.vars⟩,
      ahead.fuel⟩, .refl method _ st'⟩
  produce limit value st st' ahead := by
    simp only [produce, ahead.values]
    exact ⟨_, rfl, ⟨⟨rfl, ahead.calls, ahead.arrays, ahead.vars⟩,
      ahead.fuel⟩, .refl method _ st'⟩
  loop foretells _ _ ahead := foretells_turns foretells (Nat.succ_le_succ ahead.fuel) ahead

section
variable {method' : Method} {limit : Option Nat} {id : LocalId} {body body' : Block} {value : Value}
  (declared : (method.varType? (.loc id)).isSome) (above : nextLocal method.locals ≤ next)
  (foretells : Foretells method (next + 2) (execBlock method limit body) (execBlock method' limit body'))
include declared above foretells

omit above in
theorem foretold_body {k : Int64} {item : Value} (ahead : Ahead method st st')
    (cursor : Cursor next value k st') (found : value.index (.int k) = .ok item) :
    Foretold method (next + 2) st'
      ((do assignVar (.loc id) item; execBlock method limit body : Run Flow) st)
      (countingBody method' limit id next (next + 1) body' st') := by
  refine .pay fun fuel less => ?_
  have fetched := evalExpr_item (cursor.withFuel fuel)
  rw [found] at fetched
  rw [bind_of_ok fetched]
  refine (foretells_assignVar declared item _ _ (ahead.spend less)).bind (Nat.le_refl _) ?_
  intro _ after after' ahead _
  exact .pay fun fuel less => foretells after _ (ahead.spend less)

omit declared above foretells in
/-- The loop is left when there is no other item. -/
theorem foretold_over {k n : Int64} (ahead : Ahead method st st') (cursor : Cursor next value k st')
    (long : value.len = .ok (.int n)) (none : ¬k < n) (bound : Nat) :
    Foretold method next st' (.ok .next st)
      (repeatTurns (countingTurn method' limit id next (next + 1) body') bound st') := by
  cases bound with
  | zero => exact .dry
  | succ bound =>
    rw [repeatTurns_counting]
    refine .pay fun fuel less => ?_
    have cond := holds_counting (cursor.withFuel fuel) long
    rw [decide_eq_false none] at cond
    rw [bind_of_ok cond]
    exact ⟨st, rfl, ahead.spend less, .refl _ _ _⟩

/-- All items from a position on. -/
theorem foretold_items {identity : Nat} {items : List Value} (ahead : Ahead method st st')
    {done rest : List Value} (split : items.take (reach items.length) = done ++ rest)
    (cursor : Cursor next (.array identity items) (Int64.ofNat done.length) st') (bound : Nat) :
    Foretold method next st' (eachItem id (execBlock method limit body) rest st)
      (repeatTurns (countingTurn method' limit id next (next + 1) body') bound st') := by
  have long : (Value.array identity items).len = .ok (.int (Int64.ofNat items.length)) := rfl
  induction rest generalizing done st st' bound with
  | nil => exact foretold_over ahead cursor long (not_below_of_done split) bound
  | cons item rest ih =>
    cases bound with
    | zero => exact .dry
    | succ bound =>
      obtain ⟨below, found⟩ := found_of_rest identity split
      have outer : next ≤ next + 2 := Nat.le_add_right next 2
      rw [repeatTurns_counting, eachItem]
      refine (foretells_burn st st' ahead).bind outer fun _ after after' ahead keeps => ?_
      have cursor := cursor.kept above keeps
      have cond := holds_counting cursor long
      rw [decide_eq_true below] at cond
      rw [bind_of_ok cond, if_pos rfl, ← bind_assoc]
      refine (foretold_body declared foretells ahead cursor found).bind outer ?_
      intro flow last last' ahead keeps
      cases afterBody flow with
      | some flow => exact ⟨last, rfl, ahead, .refl _ _ _⟩
      | none =>
        have cursor := cursor.kept above keeps
        have moved := evalExprs_step cursor
        have split' : items.take (reach items.length) = (done ++ [item]) ++ rest := by simp [split]
        rw [ofNat_length_concat done item] at moved
        simp only [bind_of_ok moved]
        exact .since (keeps_temporary (Nat.le_succ next) _)
          (ih (ahead.aside (Nat.le_succ_of_le above) _) split' (cursor_set cursor.stored _) bound)

omit declared above foretells in
theorem foretold_unfit (cursor : Cursor next value 0 st') {e : EvalError} (unfit : Unfit value e)
    {result : EStateM.Result EvalError State Flow}
    (failed : 0 < st'.fuel → ∃ after, result = .error e after) (bound : Nat) :
    Foretold method next st' result
      (repeatTurns (countingTurn method' limit id next (next + 1) body') bound st') := by
  cases bound with
  | zero => exact .dry
  | succ bound =>
    rw [repeatTurns_counting]
    refine .pay fun fuel less => ?_
    have failed := failed (Nat.zero_lt_of_lt less)
    have cursor := cursor.withFuel fuel
    rcases unfit with short | ⟨⟨n, long, positive⟩, missing⟩
    · rw [bind_of_error (holds_counting_error cursor short)]
      exact fun _ => failed
    · have cond := holds_counting cursor long
      rw [decide_eq_true positive] at cond
      rw [bind_of_ok cond, if_pos rfl, countingBody, bind_assoc]
      refine .pay fun fuel' _ => ?_
      have fetched := evalExpr_item (cursor.withFuel fuel')
      rw [missing] at fetched
      rw [bind_of_error (bind_of_error fetched)]
      exact fun _ => failed

theorem foretold_collection (ahead : Ahead method st st') (cursor : Cursor next value 0 st')
    (bound : Nat) :
    Foretold method next st' (foreachTurns id (execBlock method limit body) value st)
      (repeatTurns (countingTurn method' limit id next (next + 1) body') bound st') := by
  rcases foreachTurns_cases id (execBlock method limit body) value with
    ⟨identity, items, rfl⟩ | ⟨empty, n, long, none⟩ | ⟨e, unfit, fails⟩
  · have start : items.take (reach items.length) = [] ++ items.take (reach items.length) := rfl
    exact foretold_items declared above foretells ahead start cursor bound
  · rw [empty]
    exact foretold_over ahead cursor long none bound
  · refine foretold_unfit cursor unfit (fun funded => ?_) bound
    rcases fails with fails | fails
    · exact ⟨st, by rw [fails]; rfl⟩
    · obtain ⟨fuel, left⟩ := Nat.exists_eq_add_of_le' (Nat.lt_of_lt_of_le funded ahead.fuel)
      exact ⟨st.withFuel fuel, by rw [fails, bind_of_ok (burn_paid left)]; rfl⟩

theorem foretells_foreach {collection : Expr} (passed : checkExpr method collection = .ok ()) :
    Foretells method next (execStmt method limit (.foreach id collection body))
      (execStmt method' limit (countingLoop id next (next + 1) collection body')) := by
  intro st st' ahead
  have least : next ≤ next := Nat.le_refl next
  rw [execStmt_countingLoop, execStmt]
  refine (foretells_burn st st' ahead).bind least fun _ st st' ahead _ => .pay fun fuel less => ?_
  refine ((congruence_foretells method).expr collection passed st _ (ahead.spend less)).bind least ?_
  intro value after after' ahead _
  refine .store least (.pay fun fuel less => .pay fun fuel' less' => .store (Nat.le_succ next) ?_)
  refine foretold_collection declared above foretells ?_ (cursor_set (Table.get?_set_self _ _ _) 0) _
  exact (((ahead.aside above value).spend less).spend less').aside (Nat.le_succ_of_le above) _

end

theorem relatesForeach_foretells (method method' : Method) (limit : Option Nat) :
    RelatesForeach method method' limit (Foretells method) :=
  fun declared above passed foretells => foretells_foreach declared above foretells passed

end

section
variable {method expanded : Method} {receiver : Option Value} {args : List Value} {limit : Option Nat}
  {fuel arrays : Nat} {result : Except EvalError Observation}

/-- The method does what the method with counting loops does, with the fuel that was enough for it. -/
theorem run_of_expanded (passed : checkStructure method = .ok ())
    (done : expandForeach method = .ok expanded)
    (ran : run expanded receiver args limit fuel arrays = result) (ended : result ≠ .error .outOfFuel)
    {fuel' : Nat} (enough : fuel ≤ fuel') : run method receiver args limit fuel' arrays = result := by
  unfold run at ran ⊢
  split at ran
  · next nothing => rw [if_pos nothing, ran]
  · next something =>
    have foretold := (congruence_foretells method).expanded
      (relatesForeach_foretells method expanded limit) passed done (startState receiver args fuel' arrays)
      (startState receiver args fuel arrays) ⟨⟨rfl, rfl, rfl, fun _ _ => rfl⟩, enough⟩
    rw [if_neg something]
    split at ran
    · next e after' failed =>
      subst ran
      rw [failed] at foretold
      obtain ⟨after, same⟩ := foretold fun dry => ended (by rw [dry])
      rw [same]
    · next after' finished =>
      subst ran
      rw [finished] at foretold
      obtain ⟨after, same, ahead, _⟩ := foretold
      rw [same, ahead.values, ahead.calls]

/-- What attempts with more and more fuel come to: enough fuel gives this outcome, and no attempt
ends in another. For a computation that does not end the outcome is to be out of fuel. -/
structure Decides (attempt : Nat → Except EvalError Observation)
    (outcome : Except EvalError Observation) : Prop where
  eventually : ∃ need, ∀ fuel, need ≤ fuel → attempt fuel = outcome
  only (fuel : Nat) : attempt fuel = outcome ∨ attempt fuel = .error .outOfFuel

theorem Decides.of_never {attempt : Nat → Except EvalError Observation}
    (never : ∀ fuel, attempt fuel = .error .outOfFuel) : Decides attempt (.error .outOfFuel) where
  eventually := ⟨0, fun fuel _ => never fuel⟩
  only fuel := .inl (never fuel)

/-- Attempts of which each that ends has a counterpart come to the same. -/
theorem exists_decides {first second : Nat → Except EvalError Observation}
    (onward : ∀ fuel, first fuel ≠ .error .outOfFuel →
      ∃ need, ∀ fuel', need ≤ fuel' → second fuel' = first fuel)
    (back : ∀ fuel fuel', second fuel ≠ .error .outOfFuel → fuel ≤ fuel' → first fuel' = second fuel) :
    ∃ outcome, Decides first outcome ∧ Decides second outcome := by
  by_cases never : ∀ fuel, first fuel = .error .outOfFuel
  · refine ⟨_, .of_never never, .of_never fun fuel => ?_⟩
    by_contra ended
    exact ended ((back fuel fuel ended (Nat.le_refl fuel)).symm.trans (never fuel))
  · obtain ⟨fuel, ended⟩ := not_forall.mp never
    obtain ⟨need, second_eq⟩ := onward fuel ended
    have first_eq (fuel' : Nat) (enough : need ≤ fuel') : first fuel' = first fuel := by
      have here := second_eq need (Nat.le_refl need)
      rw [back need fuel' (here ▸ ended) enough, here]
    refine ⟨first fuel, ⟨⟨need, first_eq⟩, fun other => ?_⟩, ⟨⟨need, second_eq⟩, fun other => ?_⟩⟩
    · by_cases dry : first other = .error .outOfFuel
      · exact .inr dry
      · obtain ⟨need', others⟩ := onward other dry
        exact .inl ((others _ (Nat.le_max_right need need')).symm.trans
          (second_eq _ (Nat.le_max_left need need')))
    · by_cases dry : second other = .error .outOfFuel
      · exact .inr dry
      · exact .inl ((back other _ dry (Nat.le_max_right need other)).symm.trans
          (first_eq _ (Nat.le_max_left need other)))

end

/-- A method whose structure passes can be given counting loops, and with them it has the same
outcome for all arguments and limits. -/
theorem decides_expanded {method : Method} (passed : checkStructure method = .ok ()) :
    ∃ expanded, expandForeach method = .ok expanded ∧
      ∀ receiver args limit arrays, ∃ outcome,
        Decides (fun fuel => run method receiver args limit fuel arrays) outcome ∧
        Decides (fun fuel => run expanded receiver args limit fuel arrays) outcome := by
  obtain ⟨expanded, done, _⟩ := expandForeach_passes passed
  refine ⟨expanded, done, fun receiver args limit arrays => exists_decides ?_ ?_⟩
  · exact fun fuel ended => run_expanded passed done rfl ended
  · exact fun fuel fuel' ended enough => run_of_expanded passed done rfl ended enough

end Structured

/-- The sums of each row so far, up to the first that is zero. -/
def Method.runningSums : Method :=
  { Method.draft "running_sums" (.enumerableOf .int) with
    params := [⟨"rows", .array (.array .int)⟩]
    locals := [⟨0, "row", .array .int, false⟩, ⟨1, "item", .int, false⟩, ⟨2, "sum", .int, false⟩]
    body :=
      [.foreach 0 (.var (.param 0))
        [.declare 2 none,
          .tryFinally
            [.foreach 1 (.ofLocal 0)
              [.eval (.assign (.loc 2) (.binary .add (.ofLocal 2) (.ofLocal 1))),
                .ite (.binary .eq (.ofLocal 2) (.int 0)) [.breakOut] none,
                .yield (.ofLocal 2)]]
            [.eval (.call "row" [.ofLocal 0])]]] }

theorem Structured.decides_expanded_runningSums :
    Lowering.checkStructure Method.runningSums = .ok () ∧
    ∃ expanded, Lowering.expandForeach Method.runningSums = .ok expanded ∧
      ∀ receiver args limit arrays, ∃ outcome,
        Decides (fun fuel => run Method.runningSums receiver args limit fuel arrays) outcome ∧
        Decides (fun fuel => run expanded receiver args limit fuel arrays) outcome :=
  ⟨rfl, decides_expanded rfl⟩

end Resumable
