import Resumable.Proofs.Congruence
import Resumable.Proofs.Settling

/-!
Counting loops run like the foreach loops they replace: the same values and host calls in
the same order, the same variables of the method, and the same error when there is one.
-/

namespace Resumable.Structured
open Lowering

section
variable {method : Method} {next larger : LocalId} {st st' after after' : State} {α β : Type}

/-- The other computation, started in `st'`, ends the way this one did; nothing is said when this
one ran out of fuel. -/
def Ends (method : Method) (next : LocalId) (st' : State)
    (settles : EStateM.Result EvalError State α → Prop) : EStateM.Result EvalError State α → Prop
  | .ok a after => ∃ after', settles (.ok a after') ∧ Tracks method after after' ∧
      Keeps method next st' after'
  | .error e _ => e ≠ .outOfFuel → ∃ after', settles (.error e after')

theorem Ends.mono {settles : EStateM.Result EvalError State α → Prop}
    {result : EStateM.Result EvalError State α} (ends : Ends method larger st' settles result)
    (less : next ≤ larger) : Ends method next st' settles result := by
  cases result with
  | error e after => exact ends
  | ok a after =>
    obtain ⟨after', settled, tracks, keeps⟩ := ends
    exact ⟨after', settled, tracks, keeps.mono less⟩

theorem Ends.imp {settles : EStateM.Result EvalError State α → Prop}
    {settles' : EStateM.Result EvalError State α → Prop} {result : EStateM.Result EvalError State α}
    (ends : Ends method next st' settles result) (imply : ∀ r, settles r → settles' r) :
    Ends method next st' settles' result := by
  cases result with
  | error e after => exact fun other => (ends other).imp fun _ => imply _
  | ok a after =>
    obtain ⟨after', settled, tracks, keeps⟩ := ends
    exact ⟨after', imply _ settled, tracks, keeps⟩

/-- Both computations go on. -/
theorem Ends.bind {x : Run α} {f : α → Run β} {y : Run α} {g : α → Run β}
    (first : Ends method next st' (Settles y st') (x st))
    (later : ∀ a after after', x st = .ok a after → Tracks method after after' →
      Ends method next after' (Settles (g a) after') (f a after)) :
    Ends method next st' (Settles (y >>= g) st') ((x >>= f) st) := by
  cases result : x st with
  | error e after =>
    rw [bind_of_error result]
    rw [result] at first
    exact fun other => (first other).imp fun _ => Settles.bind_error
  | ok a after =>
    rw [bind_of_ok result]
    rw [result] at first
    obtain ⟨after', settled, tracks, keeps⟩ := first
    have ends := later a after after' result tracks
    cases ended : f a after with
    | error e last =>
      rw [ended] at ends
      exact fun other => (ends other).imp fun _ => settled.bind
    | ok b last =>
      rw [ended] at ends
      obtain ⟨last', settled', tracks', keeps'⟩ := ends
      exact ⟨last', settled.bind settled', tracks', keeps.trans keeps'⟩

/-- Only the other computation makes a step. -/
theorem Ends.ahead {y : Run α} {g : α → Run β} {a : α} {result : EStateM.Result EvalError State β}
    (settled : Settles y st' (.ok a after')) (keeps : Keeps method next st' after')
    (later : Ends method next after' (Settles (g a) after') result) :
    Ends method next st' (Settles (y >>= g) st') result := by
  cases result with
  | error e last => exact fun other => (later other).imp fun _ => settled.bind
  | ok b last =>
    obtain ⟨last', settled', tracks, keeps'⟩ := later
    exact ⟨last', settled.bind settled', tracks, keeps.trans keeps'⟩

/-- Only this computation pays. -/
theorem Ends.pay {settles : EStateM.Result EvalError State α → Prop} {f : Unit → Run α}
    (later : ∀ fuel, Ends method next st' settles (f () (st.withFuel fuel))) :
    Ends method next st' settles ((burn >>= f) st) := by
  cases left : st.fuel with
  | zero =>
    rw [bind_of_error (burn_dry left)]
    exact fun other => (other rfl).elim
  | succ fuel =>
    rw [bind_of_ok (burn_paid left)]
    exact later fuel

/-- Started where it sees the same, the second computation ends the way the first does. -/
def Follows (method : Method) (next : LocalId) {α : Type} (x y : Run α) : Prop :=
  ∀ st st', Tracks method st st' → Ends method next st' (Settles y st') (x st)

namespace Follows

theorem mono {x y : Run α} (follows : Follows method larger x y) (less : next ≤ larger) :
    Follows method next x y :=
  fun st st' tracks => (follows st st' tracks).mono less

theorem bind {x y : Run α} {f g : α → Run β} (first : Follows method next x y)
    (later : ∀ a, Follows method next (f a) (g a)) : Follows method next (x >>= f) (y >>= g) :=
  fun st st' tracks => (first st st' tracks).bind fun a after after' _ => later a after after'

theorem pure (a : α) : Follows method next (Pure.pure a) (Pure.pure a) :=
  fun _ st' tracks => ⟨st', .pure a st', tracks, .refl method next st'⟩

theorem throw (e : EvalError) :
    Follows method next (MonadExcept.throw e : Run α) (MonadExcept.throw e) :=
  fun _ st' _ _ => ⟨st', .throw e st'⟩

theorem burn : Follows method next Structured.burn Structured.burn := by
  intro st st' tracks
  cases left : st.fuel with
  | zero =>
    rw [burn_dry left]
    exact fun other => (other rfl).elim
  | succ fuel =>
    rw [burn_paid left]
    exact ⟨st', .burn st', ⟨tracks.values, tracks.calls, tracks.arrays, tracks.vars⟩, .refl method next st'⟩

theorem readVar {var : Var} (declared : (method.varType? var).isSome) :
    Follows method next (Structured.readVar var) (Structured.readVar var) := by
  intro st st' tracks
  have same := tracks.vars var declared
  cases found : st.vars.get? var with
  | none =>
    simp only [Structured.readVar, found]
    refine fun _ => ⟨st', .of_free fun fuel => ?_⟩
    simp [Structured.readVar, State.withFuel, same, found, refuel]
  | some value =>
    simp only [Structured.readVar, found]
    refine ⟨st', .of_free fun fuel => ?_, tracks, .refl method next st'⟩
    simp [Structured.readVar, State.withFuel, same, found, refuel]

end Follows

theorem settles_assign (var : Var) (value : Value) (st : State) :
    Settles (assignVar var value) st (.ok () { st with vars := st.vars.set var value }) :=
  .of_free fun _ => rfl

namespace Follows

theorem assignVar {var : Var} (declared : (method.varType? var).isSome) (value : Value) :
    Follows method next (Structured.assignVar var value) (Structured.assignVar var value) := by
  intro st st' tracks
  exact ⟨_, settles_assign var value st', tracks.assign var value, keeps_declared declared value⟩

theorem newArray (items : List Value) :
    Follows method next (Structured.newArray items) (Structured.newArray items) := by
  intro st st' tracks
  refine ⟨{ st' with arrays := st'.arrays + 1 }, .of_free fun fuel => ?_, ?_, .refl method next st'⟩
  · simp [Structured.newArray, State.withFuel, refuel, tracks.arrays]
  · exact ⟨tracks.values, tracks.calls, congrArg (· + 1) tracks.arrays, tracks.vars⟩

theorem callHost (callee : String) (args : List Value) :
    Follows method next (Structured.callHost callee args) (Structured.callHost callee args) := by
  intro st st' tracks
  refine ⟨{ st' with calls := st'.calls.push ⟨callee, args⟩ }, .of_free fun fuel => rfl, ?_,
    .refl method next st'⟩
  exact ⟨tracks.values, congrArg (Array.push · ⟨callee, args⟩) tracks.calls, tracks.arrays, tracks.vars⟩

theorem produce (limit : Option Nat) (value : Value) :
    Follows method next (Structured.produce limit value) (Structured.produce limit value) := by
  intro st st' tracks
  refine ⟨{ st' with values := st'.values.push value }, .of_free fun fuel => ?_, ?_,
    .refl method next st'⟩
  · simp [Structured.produce, State.withFuel, refuel, tracks.values]
  · exact ⟨congrArg (·.push value) tracks.values, tracks.calls, tracks.arrays, tracks.vars⟩

end Follows

/-- A loop of which one turn is known. -/
theorem Ends.again {turn : Run (Option Flow)} {result : EStateM.Result EvalError State Flow}
    (settled : Settles turn st' (.ok none after')) (keeps : Keeps method next st' after')
    (later : Ends method next after' (TurnsSettle turn after') result) :
    Ends method next st' (TurnsSettle turn st') result := by
  cases result with
  | error e last => exact fun other => (later other).imp fun _ => TurnsSettle.again settled
  | ok flow last =>
    obtain ⟨last', turns, tracks, keeps'⟩ := later
    exact ⟨last', .again settled turns, tracks, keeps.trans keeps'⟩

theorem follows_turns {turn turn' : Run (Option Flow)} (follows : Follows method next turn turn')
    (bound : Nat) (tracks : Tracks method st st') :
    Ends method next st' (TurnsSettle turn' st') (repeatTurns turn bound st) := by
  induction bound generalizing st st' with
  | zero => exact fun other => (other rfl).elim
  | succ bound ih =>
    have ends := follows st st' tracks
    cases result : turn st with
    | error e after =>
      rw [repeatTurns, bind_of_error result]
      rw [result] at ends
      exact fun other => (ends other).imp fun _ => TurnsSettle.error
    | ok left after =>
      rw [repeatTurns, bind_of_ok result]
      rw [result] at ends
      obtain ⟨after', settled, tracks', keeps⟩ := ends
      cases left with
      | some flow => exact ⟨after', .leave settled, tracks', keeps⟩
      | none => exact .again settled keeps (ih tracks')

theorem follows_loop {turn turn' : Run (Option Flow)} (follows : Follows method next turn turn') :
    Follows method next (loop turn) (loop turn') :=
  fun st _ tracks => (follows_turns follows (st.fuel + 1) tracks).imp fun _ => TurnsSettle.loop

theorem congruence_follows (method : Method) : Congruence method (Follows method) where
  mono := Follows.mono
  bind := Follows.bind
  pure := Follows.pure
  throw := Follows.throw
  burn := Follows.burn
  readVar := Follows.readVar
  assignVar := Follows.assignVar
  newArray := Follows.newArray
  callHost := Follows.callHost
  produce := Follows.produce
  loop := follows_loop

section
variable {limit : Option Nat} {id : LocalId} {body body' : Block} {k : Int64} {value : Value}

section
variable (cursor : Cursor next value k st)
include cursor

theorem settles_cond {n : Int64} (long : value.len = .ok (.int n)) :
    Settles (holds (some (.binary .lt (.ofLocal (next + 1)) (.len (.ofLocal next))))) st
      (.ok (decide (k < n)) st) :=
  .of_free fun fuel => holds_counting (cursor.withFuel fuel) long

theorem settles_cond_error {e : EvalError} (odd : value.len = .error e) :
    Settles (holds (some (.binary .lt (.ofLocal (next + 1)) (.len (.ofLocal next))))) st (.error e st) :=
  .of_free fun fuel => holds_counting_error (cursor.withFuel fuel) odd

theorem settles_item :
    Settles (evalExpr (.index (.ofLocal next) (.ofLocal (next + 1)))) st
      (Resumable.checked (value.index (.int k)) st) :=
  .of_free fun fuel => by
    rw [evalExpr_item (cursor.withFuel fuel)]
    cases value.index (.int k) <;> rfl

theorem settles_step :
    Settles (evalExprs [.assign (.loc (next + 1)) (.binary .add (.ofLocal (next + 1)) (.int 1))]) st
      (.ok [.int (k + 1)] { st with vars := st.vars.set (.loc (next + 1)) (.int (k + 1)) }) :=
  .of_free fun fuel => evalExprs_step (cursor.withFuel fuel)

end

variable {method' : Method}
  (declared : (method.varType? (.loc id)).isSome) (above : nextLocal method.locals ≤ next)
  (follows : Follows method (next + 2) (execBlock method limit body) (execBlock method' limit body'))
include declared above follows

omit above in
/-- The body of the counting loop fetches the item and runs the body of the foreach loop. -/
theorem counting_body {item : Value} (tracks : Tracks method st st') (cursor : Cursor next value k st')
    (found : value.index (.int k) = .ok item) :
    Ends method (next + 2) st' (Settles (countingBody method' limit id next (next + 1) body') st')
      ((do assignVar (.loc id) item; execBlock method limit body : Run Flow) st) := by
  have fetched := settles_item cursor
  rw [found] at fetched
  refine .ahead (.burn st') (.refl _ _ _) (.ahead fetched (.refl _ _ _) ?_)
  refine (Follows.assignVar declared item st st' tracks).bind fun _ after after' _ tracks' => ?_
  exact .ahead (.burn after') (.refl _ _ _) (follows after after' tracks')

/-- All items from a position on. -/
theorem counting_items {identity : Nat} {items : List Value} (tracks : Tracks method st st')
    {done rest : List Value} (split : items.take (reach items.length) = done ++ rest)
    (cursor : Cursor next (.array identity items) (Int64.ofNat done.length) st') :
    Ends method next st' (TurnsSettle (countingTurn method' limit id next (next + 1) body') st')
      (eachItem id (execBlock method limit body) rest st) := by
  have long : (Value.array identity items).len = .ok (.int (Int64.ofNat items.length)) := rfl
  induction rest generalizing done st st' with
  | nil =>
    have cond := settles_cond cursor long
    rw [decide_eq_false (not_below_of_done split)] at cond
    exact ⟨st', .leave ((Settles.burn st').bind (cond.bind (.pure _ st'))), tracks, .refl _ _ _⟩
  | cons item rest ih =>
    have cond := settles_cond cursor long
    obtain ⟨below, found⟩ := found_of_rest identity split
    rw [decide_eq_true below] at cond
    rw [eachItem]
    refine .pay fun fuel => ?_
    have tracked : Tracks method (st.withFuel fuel) st' :=
      ⟨tracks.values, tracks.calls, tracks.arrays, tracks.vars⟩
    have ends := counting_body declared follows tracked cursor found
    rw [← bind_assoc]
    cases result : (do assignVar (.loc id) item; execBlock method limit body : Run Flow)
        (st.withFuel fuel) with
    | error e after =>
      rw [bind_of_error result]
      rw [result] at ends
      refine fun other => (ends other).imp fun _ failed => .error ?_
      exact (Settles.burn st').bind (cond.bind failed.bind_error)
    | ok flow after =>
      rw [bind_of_ok result]
      rw [result] at ends
      obtain ⟨after', settled, tracks', keeps⟩ := ends
      have outer := keeps.mono (Nat.le_add_right next 2)
      cases goes : afterBody flow with
      | some flow' =>
        refine ⟨after', .leave ((Settles.burn st').bind (cond.bind (settled.bind ?_))), tracks', outer⟩
        rw [goes]
        exact .pure _ after'
      | none =>
        have cursor' := cursor.kept above keeps
        have moved := settles_step cursor'
        have split' : items.take (reach items.length) = (done ++ [item]) ++ rest := by simp [split]
        rw [ofNat_length_concat done item] at moved
        refine .again ((Settles.burn st').bind (cond.bind (settled.bind ?_)))
          (outer.trans (keeps_temporary (Nat.le_succ next) _))
          (ih (tracks'.aside (Nat.le_succ_of_le above) _) split' (cursor_set cursor'.stored _))
        rw [goes]
        exact moved.bind (.pure _ _)

omit declared above follows in
theorem settles_unfit (cursor : Cursor next value 0 st') {e : EvalError} (unfit : Unfit value e) :
    Settles (countingTurn method' limit id next (next + 1) body') st' (.error e st') := by
  rcases unfit with short | ⟨⟨n, long, positive⟩, missing⟩
  · exact (Settles.burn st').bind (settles_cond_error cursor short).bind_error
  · have cond := settles_cond cursor long
    have fetched := settles_item cursor
    rw [decide_eq_true positive] at cond
    rw [missing] at fetched
    refine (Settles.burn st').bind (cond.bind ?_)
    have failed : Settles (countingBody method' limit id next (next + 1) body') st' (.error e st') :=
      (Settles.burn st').bind fetched.bind_error
    exact failed.bind_error

theorem counting_collection (tracks : Tracks method st st') (cursor : Cursor next value 0 st') :
    Ends method next st' (TurnsSettle (countingTurn method' limit id next (next + 1) body') st')
      (foreachTurns id (execBlock method limit body) value st) := by
  rcases foreachTurns_cases id (execBlock method limit body) value with
    ⟨identity, items, rfl⟩ | ⟨empty, n, long, none⟩ | ⟨e, unfit, fails⟩
  · have start : items.take (reach items.length) = [] ++ items.take (reach items.length) := rfl
    exact counting_items declared above follows tracks start cursor
  · have cond := settles_cond cursor long
    rw [decide_eq_false none] at cond
    rw [empty]
    exact ⟨st', .leave ((Settles.burn st').bind (cond.bind (.pure _ st'))), tracks, .refl _ _ _⟩
  · have failed : ∃ after', TurnsSettle (countingTurn method' limit id next (next + 1) body') st'
        (.error e after') := ⟨st', .error (settles_unfit cursor unfit)⟩
    rcases fails with fails | fails
    · rw [fails]
      exact fun _ => failed
    · rw [fails]
      exact .pay fun _ _ => failed

theorem follows_foreach {collection : Expr} (passed : checkExpr method collection = .ok ()) :
    Follows method next (execStmt method limit (.foreach id collection body))
      (execStmt method' limit (countingLoop id next (next + 1) collection body')) := by
  intro st st' tracks
  rw [execStmt_countingLoop, execStmt]
  refine (Follows.burn st st' tracks).bind fun _ after after' _ tracks => ?_
  refine .ahead (.burn after') (.refl _ _ _) ?_
  refine ((congruence_follows method).expr collection passed after after' tracks).bind ?_
  intro value after after' _ tracks
  refine .ahead (settles_assign (.loc next) value after') (keeps_temporary (Nat.le_refl next) value) ?_
  refine .ahead (.burn _) (.refl _ _ _) (.ahead (.burn _) (.refl _ _ _) ?_)
  refine .ahead (settles_assign (.loc (next + 1)) (.int 0) _) (keeps_temporary (Nat.le_succ next) _) ?_
  refine Ends.imp ?_ fun _ => TurnsSettle.loop
  refine counting_collection declared above follows ?_ (cursor_set (Table.get?_set_self _ _ _) 0)
  exact (tracks.aside above value).aside (Nat.le_succ_of_le above) _

end

theorem relatesForeach_follows (method method' : Method) (limit : Option Nat) :
    RelatesForeach method method' limit (Follows method) :=
  fun declared above passed follows => follows_foreach declared above follows passed

/-- Given enough fuel, the method with counting loops does what the method does. -/
theorem run_expanded {method expanded : Method} (passed : checkStructure method = .ok ())
    (done : expandForeach method = .ok expanded) {receiver : Option Value} {args : List Value}
    {limit : Option Nat} {fuel arrays : Nat} {result : Except EvalError Observation}
    (ran : run method receiver args limit fuel arrays = result) (ended : result ≠ .error .outOfFuel) :
    ∃ need, ∀ fuel', need ≤ fuel' → run expanded receiver args limit fuel' arrays = result := by
  unfold run at ran
  split at ran
  · next nothing => exact ⟨0, fun _ _ => by rw [run, if_pos nothing, ran]⟩
  · next something =>
    have follows := (congruence_follows method).expanded
      (relatesForeach_follows method expanded limit) passed done (startState receiver args fuel arrays)
      (startState receiver args fuel arrays) ⟨rfl, rfl, rfl, fun _ _ => rfl⟩
    split at ran
    · next e after failed =>
      subst ran
      rw [failed] at follows
      obtain ⟨after', need, spent, _, settled⟩ := follows fun same => ended (by rw [same])
      refine ⟨need, fun fuel' enough => ?_⟩
      have runs : runBody expanded limit (startState receiver args fuel' arrays) = _ :=
        settled fuel' enough
      rw [run, if_neg something, runs, refuel]
    · next after settledRun =>
      subst ran
      rw [settledRun] at follows
      obtain ⟨after', ⟨need, spent, _, settled⟩, tracks, _⟩ := follows
      refine ⟨need, fun fuel' enough => ?_⟩
      have runs : runBody expanded limit (startState receiver args fuel' arrays) = _ :=
        settled fuel' enough
      rw [run, if_neg something, runs, refuel]
      simp only [State.withFuel, tracks.values, tracks.calls]

end

end Resumable.Structured
