import Mathlib.Control.Monad.Basic
import Resumable.Method.Build
import Resumable.Proofs.Checking
import Resumable.Proofs.Readiness
import Resumable.Semantics.Equality

/-!
A run with a limit on the values it produces against the run without one. Until the limit is reached
the two are the same; the value that reaches it makes the limited run unwind, through cleanup blocks
that produce nothing, and what it has produced is the start of what the other run produces. The
header of a for loop does not unwind, so values must not be produced there.
-/

namespace Resumable

/-- A for loop that produces nothing in its header. Other statements have none. -/
def Stmt.hasQuietHeader : Stmt → Bool
  | .forLoop init _ _ _ => !Block.suspends init
  | _ => true

def Method.QuietHeaders (method : Method) : Prop :=
  ∀ s ∈ Block.preorder method.body, s.hasQuietHeader

namespace Structured
open Lowering

/-- `part` goes the way of `whole` until it has produced `limit` values. Then its result says that
the body stops, and the values are the first ones of `whole`. When it is `quiet` it produces
nothing. -/
structure Cut (limit : Nat) (quiet : Prop) {α : Type} (stops : α → Prop) (whole part : Run α) :
    Prop where
  adds (st : State) (a : α) (st' : State) :
    whole st = .ok a st' → st.values.toList <+: st'.values.toList
  silent : quiet → Silent part
  cut (st : State) : st.values.size < limit →
    (part st = whole st ∧ ∀ a st', part st = .ok a st' → st'.values.size < limit) ∨
      ∀ a st', part st = .ok a st' → stops a ∧ st'.values.size = limit ∧
        ∀ b st'', whole st = .ok b st'' → st'.values.toList <+: st''.values.toList

namespace Cut
variable {α β : Type} {limit : Nat} {quiet quiet' : Prop} {stops : α → Prop} {stops' : β → Prop}

theorem of_silent {x : Run α} (silent : Silent x) : Cut limit quiet stops x x where
  adds st a st' done := by
    have same := silent st a st' done
    exact same ▸ List.prefix_rfl
  silent _ := silent
  cut st below := .inl ⟨rfl, fun a st' done => by rwa [silent st a st' done]⟩

theorem mono {whole part : Run α} (cuts : Cut limit quiet stops whole part) (less : quiet' → quiet) :
    Cut limit quiet' stops whole part where
  adds := cuts.adds
  silent quietly := cuts.silent (less quietly)
  cut := cuts.cut

/-- What produces nothing does not reach the limit. -/
theorem unstopped {whole part : Run α} (cuts : Cut limit quiet stops whole part) (quietly : quiet)
    (quiet' : Prop) : Cut limit quiet' (fun _ => False) whole part where
  adds := cuts.adds
  silent _ := cuts.silent quietly
  cut st below := by
    rcases cuts.cut st below with same | reached
    · exact .inl same
    · refine .inr fun a st' done => ?_
      have unchanged := cuts.silent quietly st a st' done
      have full := (reached a st' done).2.1
      rw [unchanged] at full
      omega

theorem bind {whole part : Run α} {rest rest' : α → Run β} (first : Cut limit quiet stops whole part)
    (next : ∀ a, Cut limit quiet stops' (rest a) (rest' a))
    (stopped : ∀ a, stops a → Trails True stops' (rest' a)) :
    Cut limit quiet stops' (whole >>= rest) (part >>= rest') where
  adds st b st'' done := by
    obtain ⟨a, st', begun, ended⟩ := bind_eq_ok.mp done
    exact (first.adds st a st' begun).trans ((next a).adds st' b st'' ended)
  silent quietly := (first.silent quietly).bind fun a => (next a).silent quietly
  cut st below := by
    rcases first.cut st below with ⟨same, stays⟩ | reached
    · cases begun : part st with
      | error e st' =>
        rw [bind_of_error begun, bind_of_error (same.symm.trans begun)]
        exact .inl ⟨rfl, fun b st'' done => by cases done⟩
      | ok a st' =>
        rw [bind_of_ok begun, bind_of_ok (same.symm.trans begun)]
        exact (next a).cut st' (stays a st' begun)
    · refine .inr fun b st'' done => ?_
      obtain ⟨a, st', begun, ended⟩ := bind_eq_ok.mp done
      obtain ⟨stop, full, starts⟩ := reached a st' begun
      obtain ⟨stop', unchanged⟩ := stopped a stop st' b st'' ended
      replace unchanged := unchanged trivial
      refine ⟨stop', by rw [unchanged, full], fun b' last done' => ?_⟩
      obtain ⟨a', mid, begun', ended'⟩ := bind_eq_ok.mp done'
      rw [unchanged]
      exact (starts a' mid begun').trans ((next a').adds mid b' last ended')

theorem after_silent {x : Run α} {rest rest' : α → Run β} (first : Silent x)
    (next : ∀ a, Cut limit quiet stops' (rest a) (rest' a)) :
    Cut limit quiet stops' (x >>= rest) (x >>= rest') := by
  have never : Cut limit quiet (fun _ => False) x x := of_silent first
  exact never.bind next fun _ stop => stop.elim

/-- A result that is only translated keeps saying that the body stops. -/
theorem map {whole part : Run α} {f : α → β} (cuts : Cut limit quiet stops whole part)
    (keeps : ∀ a, stops a → stops' (f a)) :
    Cut limit quiet stops' (do let a ← whole; return f a) (do let a ← part; return f a) :=
  cuts.bind (fun _ => of_silent (.pure _)) fun a stop => .pure (keeps a stop)

theorem loop {whole part : Run (Option Flow)}
    (turns : Cut limit quiet (· = some .stopping) whole part) :
    Cut limit quiet (· = .stopping) (Structured.loop whole) (Structured.loop part) := by
  have bounded (bound : Nat) :
      Cut limit quiet (· = .stopping) (repeatTurns whole bound) (repeatTurns part bound) := by
    induction bound with
    | zero => exact of_silent fun st a st' done => by simp [repeatTurns] at done
    | succ bound ih =>
      simp only [repeatTurns]
      refine turns.bind (fun left => ?_) ?_
      · cases left with
        | none => exact ih
        | some flow => exact of_silent (.pure flow)
      · rintro _ rfl
        exact .pure rfl
  exact ⟨fun st => (bounded (st.fuel + 1)).adds st,
    fun quietly st => (bounded (st.fuel + 1)).silent quietly st,
    fun st => (bounded (st.fuel + 1)).cut st⟩

section
variable {whole part : Run Flow}

theorem whileTurn (cond : Expr) (body : Cut limit quiet (· = .stopping) whole part) :
    Cut limit quiet (· = some .stopping) (Structured.whileTurn cond whole)
      (Structured.whileTurn cond part) := by
  refine after_silent (silent_holds _) fun holds => ?_
  cases holds with
  | true => exact after_silent silent_burn fun _ => body.map fun flow stop => by rw [stop]; rfl
  | false => exact of_silent (.pure _)

theorem forTurn (cond : Option Expr) (step : List Expr)
    (body : Cut limit quiet (· = .stopping) whole part) :
    Cut limit quiet (· = some .stopping) (Structured.forTurn cond step whole)
      (Structured.forTurn cond step part) := by
  refine after_silent silent_burn fun _ => after_silent (silent_holds _) fun holds => ?_
  cases holds with
  | true =>
    refine body.bind (fun flow => ?_) ?_
    · cases afterBody flow with
      | none => exact of_silent ((silent_exprs step).bind fun _ => .pure _)
      | some flow => exact of_silent (.pure _)
    · rintro _ rfl
      exact .pure rfl
  | false => exact of_silent (.pure _)

theorem eachItem (id : LocalId) (body : Cut limit quiet (· = .stopping) whole part)
    (items : List Value) :
    Cut limit quiet (· = .stopping) (Structured.eachItem id whole items)
      (Structured.eachItem id part items) := by
  induction items with
  | nil => exact of_silent (.pure _)
  | cons item rest ih =>
    refine after_silent silent_burn fun _ => after_silent (silent_assignVar _ _) fun _ => ?_
    refine body.bind (fun flow => ?_) ?_
    · cases afterBody flow with
      | none => exact ih
      | some flow => exact of_silent (.pure _)
    · rintro _ rfl
      exact .pure rfl

theorem foreachTurns (id : LocalId) (body : Cut limit quiet (· = .stopping) whole part)
    (collection : Value) :
    Cut limit quiet (· = .stopping) (Structured.foreachTurns id whole collection)
      (Structured.foreachTurns id part collection) := by
  cases collection with
  | array identity items => exact body.eachItem id _
  | str text =>
    simp only [Structured.foreachTurns]
    split
    · exact of_silent (.pure _)
    · exact after_silent silent_burn fun _ => of_silent (.checked _)
  | int value => exact of_silent (.checked (Value.mismatch .array (.int value)))
  | bool value => exact of_silent (.checked (Value.mismatch .array (.bool value)))
  | null => exact of_silent (.checked (Value.mismatch .array .null))
  | object reference => exact of_silent (.checked (Value.mismatch .array (.object reference)))

end

/-- A produced value is the one place where the limit matters. -/
theorem produce (value : Value) :
    Cut limit False (· = true) (Structured.produce none value) (Structured.produce (some limit) value) where
  adds st reached st' done := by
    obtain ⟨_, rfl⟩ := EStateM.Result.ok.inj done
    simp
  silent := False.elim
  cut st below := by
    by_cases last : limit = (st.values.push value).size
    · refine .inr fun reached st' done => ?_
      obtain ⟨rfl, rfl⟩ := EStateM.Result.ok.inj done
      refine ⟨by simp [last], last.symm, fun reached' st'' done' => ?_⟩
      obtain ⟨_, rfl⟩ := EStateM.Result.ok.inj done'
      exact List.prefix_rfl
    · refine .inl ⟨?_, fun reached st' done => ?_⟩
      · simpa [Structured.produce] using last
      · obtain ⟨_, rfl⟩ := EStateM.Result.ok.inj done
        simp only [Array.size_push] at last ⊢
        omega

end Cut

section
variable (method : Method) (limit : Nat)

mutual
theorem cut_stmt : (s : Stmt) → {around : Surroundings} → checkStmt method around s = .ok () →
    (∀ t ∈ s.preorder fun _ => false, t.hasQuietHeader) →
    Cut limit (s.suspensions = 0) (· = .stopping) (execStmt method none s)
      (execStmt method (some limit) s)
  | .block body, around, passed, headers => by
    simp only [Stmt.preorder, Bool.false_eq_true, if_false, List.forall_mem_cons] at headers
    simp only [execStmt, Stmt.suspensions]
    exact .after_silent silent_burn fun _ => cut_block body passed headers.2
  | .declare id none, around, passed, headers => by
    simp only [execStmt]
    exact .of_silent (silent_plain method none (s := .declare id none) rfl)
  | .declare id (some init), around, passed, headers => by
    simp only [execStmt]
    exact .of_silent (silent_plain method none (s := .declare id (some init)) rfl)
  | .eval value, around, passed, headers => by
    simp only [execStmt]
    exact .of_silent (silent_plain method none (s := .eval value) rfl)
  | .ite cond yes none, around, passed, headers => by
    simp only [checkStmt, check_bind] at passed
    simp only [Stmt.preorder, Bool.false_eq_true, if_false, List.forall_mem_cons] at headers
    simp only [execStmt, Stmt.suspensions]
    refine .after_silent silent_burn fun _ => .after_silent (silent_holds _) fun holds => ?_
    cases holds with
    | true => exact cut_block yes passed.2 headers.2
    | false => exact .of_silent (.pure _)
  | .ite cond yes (some no), around, passed, headers => by
    simp only [checkStmt, check_bind] at passed
    simp only [Stmt.preorder, Bool.false_eq_true, if_false, List.forall_mem_cons,
      List.forall_mem_append] at headers
    simp only [execStmt, Stmt.suspensions]
    refine .after_silent silent_burn fun _ => .after_silent (silent_holds _) fun holds => ?_
    cases holds with
    | true => exact (cut_block yes passed.2.1 headers.2.1).mono (by omega)
    | false => exact (cut_block no passed.2.2 headers.2.2).mono (by omega)
  | .whileLoop cond body, around, passed, headers => by
    simp only [checkStmt, check_bind] at passed
    simp only [Stmt.preorder, Bool.false_eq_true, if_false, List.forall_mem_cons] at headers
    simp only [execStmt, Stmt.suspensions]
    exact .after_silent silent_burn fun _ => .loop (.whileTurn cond (cut_block body passed.2 headers.2))
  | .forLoop init cond step body, around, passed, headers => by
    simp only [checkStmt, check_bind] at passed
    simp only [Stmt.preorder, Bool.false_eq_true, if_false, List.forall_mem_cons,
      List.forall_mem_append] at headers
    obtain ⟨quiet, insideInit, insideBody⟩ := headers
    have still : Stmt.suspensionsAll init = 0 := by
      by_contra does
      simp [Stmt.hasQuietHeader, suspends_iff.mpr does] at quiet
    simp only [execStmt, Stmt.suspensions]
    have turns := (cut_block body passed.2.2.2 insideBody).forTurn cond step
    refine .after_silent silent_burn fun _ => ?_
    exact (cut_init init passed.1 insideInit still _).bind
      (fun _ => (turns.mono (by omega)).loop) fun _ stop => stop.elim
  | .foreach id collection body, around, passed, headers => by
    simp only [checkStmt, check_bind] at passed
    simp only [Stmt.preorder, Bool.false_eq_true, if_false, List.forall_mem_cons] at headers
    simp only [execStmt, Stmt.suspensions]
    exact .after_silent silent_burn fun _ => .after_silent (silent_expr collection) fun value =>
      (cut_block body passed.2.2 headers.2).foreachTurns id value
  | .switch scrutinee cases none, around, passed, headers => by
    simp only [checkStmt, check_bind] at passed
    simp only [Stmt.preorder, Bool.false_eq_true, if_false, List.forall_mem_cons] at headers
    simp only [execStmt, Stmt.suspensions]
    refine .after_silent silent_burn fun _ => .after_silent (silent_expr scrutinee) fun _ =>
      .after_silent (.checked _) fun value => ?_
    have chosen := cut_cases cases passed.2 headers.2 value id (.of_silent (.pure .next))
    exact chosen.map fun flow stop => by rw [stop]; rfl
  | .switch scrutinee cases (some default), around, passed, headers => by
    simp only [checkStmt, check_bind] at passed
    simp only [Stmt.preorder, Bool.false_eq_true, if_false, List.forall_mem_cons,
      List.forall_mem_append] at headers
    simp only [execStmt, Stmt.suspensions]
    refine .after_silent silent_burn fun _ => .after_silent (silent_expr scrutinee) fun _ =>
      .after_silent (.checked _) fun value => ?_
    have otherwise := (cut_block default passed.2.2 headers.2.2).mono
      (fun quiet : Stmt.suspensionsCases cases + Stmt.suspensionsAll default = 0 => by omega)
    have chosen := cut_cases cases passed.2.1 headers.2.1 value (by omega) otherwise
    exact chosen.map fun flow stop => by rw [stop]; rfl
  | .tryFinally body cleanup, around, passed, headers => by
    simp only [checkStmt, check_bind] at passed
    simp only [Stmt.preorder, Bool.false_eq_true, if_false, List.forall_mem_cons,
      List.forall_mem_append] at headers
    have calm := calm_block method cleanup .cleanup rfl passed.2
    have cleanly := cut_block cleanup passed.2 headers.2.2
    simp only [execStmt, Stmt.suspensions]
    refine .after_silent silent_burn fun _ => ?_
    refine ((cut_block body passed.1 headers.2.1).mono (by omega)).bind (fun flow => ?_) ?_
    · refine (cleanly.unstopped calm _).bind (fun left => ?_) fun _ stop => stop.elim
      split
      · exact .of_silent (.pure _)
      · exact .of_silent fun st a st' done => by simp at done
    · -- a body that stops is followed by its cleanup block, which produces nothing
      rintro _ rfl
      exact .cleanup fun _ => cleanly.silent calm
  | .breakOut, around, passed, headers => by
    simp only [execStmt]
    exact .after_silent silent_burn fun _ => .of_silent (.pure _)
  | .continueLoop, around, passed, headers => by
    simp only [execStmt]
    exact .after_silent silent_burn fun _ => .of_silent (.pure _)
  | .yield value, around, passed, headers => by
    simp only [execStmt, Stmt.suspensions]
    refine .after_silent silent_burn fun _ => .after_silent (silent_expr value) fun v => ?_
    exact ((Cut.produce v).mono (by omega)).map fun reached stop => by rw [stop]; rfl
  | .stop, around, passed, headers => by
    simp only [execStmt]
    exact .after_silent silent_burn fun _ => .of_silent (.pure _)

theorem cut_block : (body : List Stmt) → {around : Surroundings} →
    checkBlock method around body = .ok () →
    (∀ t ∈ Stmt.preorderAll (fun _ => false) body, t.hasQuietHeader) →
    Cut limit (Stmt.suspensionsAll body = 0) (· = .stopping) (execBlock method none body)
      (execBlock method (some limit) body)
  | [], around, passed, headers => by
    simp only [execBlock]
    exact .of_silent (.pure _)
  | s :: rest, around, passed, headers => by
    simp only [checkBlock, check_bind] at passed
    simp only [Stmt.preorderAll, List.forall_mem_append] at headers
    simp only [execBlock, Stmt.suspensionsAll]
    have first := (cut_stmt s passed.1 headers.1).mono
      (fun quiet : s.suspensions + Stmt.suspensionsAll rest = 0 => by omega)
    refine first.bind (fun flow => ?_) ?_
    · split
      · exact (cut_block rest passed.2 headers.2).mono (by omega)
      · exact .of_silent (.pure _)
    · rintro _ rfl
      exact .pure rfl

theorem cut_init : (init : List Stmt) → {around : Surroundings} →
    checkBlock method around init = .ok () →
    (∀ t ∈ Stmt.preorderAll (fun _ => false) init, t.hasQuietHeader) →
    Stmt.suspensionsAll init = 0 → (quiet : Prop) →
    Cut limit quiet (fun _ => False) (execInit method none init) (execInit method (some limit) init)
  | [], around, passed, headers, still, quiet => by
    simp only [execInit]
    exact .of_silent (.pure _)
  | s :: rest, around, passed, headers, still, quiet => by
    simp only [checkBlock, check_bind] at passed
    simp only [Stmt.preorderAll, List.forall_mem_append] at headers
    simp only [Stmt.suspensionsAll, Nat.add_eq_zero_iff] at still
    simp only [execInit]
    exact ((cut_stmt s passed.1 headers.1).unstopped still.1 quiet).bind
      (fun _ => cut_init rest passed.2 headers.2 still.2 quiet) fun _ stop => stop.elim

theorem cut_cases : (cases : List (List Int64 × List Stmt)) → {around : Surroundings} →
    checkCases method around cases = .ok () →
    (∀ t ∈ Stmt.preorderCases (fun _ => false) cases, t.hasQuietHeader) → (value : Int64) →
    {quiet : Prop} → (quiet → Stmt.suspensionsCases cases = 0) → {otherwise otherwise' : Run Flow} →
    Cut limit quiet (· = .stopping) otherwise otherwise' →
    Cut limit quiet (· = .stopping) (execCases method none value otherwise cases)
      (execCases method (some limit) value otherwise' cases)
  | [], around, passed, headers, value, quiet, less, otherwise, otherwise', default => by
    simp only [execCases]
    exact default
  | (values, body) :: rest, around, passed, headers, value, quiet, less, otherwise, otherwise',
      default => by
    simp only [checkCases, check_bind] at passed
    simp only [Stmt.preorderCases, List.forall_mem_append] at headers
    simp only [Stmt.suspensionsCases, Nat.add_eq_zero_iff] at less
    simp only [execCases]
    split
    · exact (cut_block body passed.1 headers.1).mono fun quietly => (less quietly).1
    · exact cut_cases rest passed.2 headers.2 value (fun quietly => (less quietly).2) default
end

end

theorem cut_runBody {method : Method} (passed : checkStructure method = .ok ())
    (headers : method.QuietHeaders) (limit : Nat) :
    Cut limit (method.body.suspensions = 0) (fun _ => True) (runBody method none)
      (runBody method (some limit)) := by
  refine (cut_block method limit method.body passed headers).bind (fun flow => ?_) ?_
  · cases flow with
    | next | stopping => exact .of_silent (.pure ())
    | breaking | continuing => exact .of_silent fun st a st' done => by simp at done
  · rintro _ rfl
    exact .pure trivial

/-- What is observed of a run is read off its last state. -/
theorem exists_last_of_run {method : Method} {receiver : Option Value} {args : List Value}
    {limit : Option Nat} {fuel arrays : Nat} {observed : Observation} (something : limit ≠ some 0)
    (ran : run method receiver args limit fuel arrays = .ok observed) : ∃ last,
    runBody method limit (startState receiver args fuel arrays) = .ok () last ∧
      observed = ⟨last.values.toList, last.calls.toList, limit.all fun limit => last.values.size < limit⟩ := by
  rw [run, if_neg something] at ran
  split at ran
  · cases ran
  · next last ended => exact ⟨last, ended, (Except.ok.inj ran).symm⟩

/-- When no for loop produces a value in its header, a run with a limit observes the first values of
the run without one. It is complete exactly when there are fewer, and then the calls are the same. -/
theorem run_limited {method : Method} {receiver : Option Value} {args : List Value}
    {limit fuel arrays : Nat} {full part : Observation} (passed : checkStructure method = .ok ())
    (headers : method.QuietHeaders) (whole : run method receiver args none fuel arrays = .ok full)
    (limited : run method receiver args (some limit) fuel arrays = .ok part) :
    part.values = full.values.take limit ∧ (part.completed ↔ full.values.length < limit) ∧
      (part.completed → part.calls = full.calls) := by
  by_cases nothing : limit = 0
  · subst nothing
    rw [run, if_pos rfl] at limited
    obtain rfl := Except.ok.inj limited
    simp
  · obtain ⟨last, wholeBody, rfl⟩ := exists_last_of_run (by simp) whole
    obtain ⟨last', limitedBody, rfl⟩ := exists_last_of_run (by simpa using nothing) limited
    have below : (startState receiver args fuel arrays).values.size < limit := Nat.pos_of_ne_zero nothing
    rcases (cut_runBody passed headers limit).cut _ below with ⟨same, stays⟩ | reached
    · -- the limit was not reached, and the two runs are one
      obtain rfl : last' = last :=
        (EStateM.Result.ok.inj (limitedBody.symm.trans (same.trans wholeBody))).2
      have short := stays () last' limitedBody
      refine ⟨?_, ?_, fun _ => rfl⟩
      · rw [List.take_of_length_le]
        exact Nat.le_of_lt short
      · simp
    · obtain ⟨-, size, starts⟩ := reached () last' limitedBody
      have start := starts () last wholeBody
      have longer := start.length_le
      rw [Array.length_toList, size] at longer
      refine ⟨?_, ?_, ?_⟩
      · have taken := List.prefix_iff_eq_take.mp start
        rwa [Array.length_toList, size] at taken
      · simpa [size] using longer
      · simp [size]

end Structured
open Lowering (checkStructure)

/-- Produces one value per turn while a cleanup block is pending, over an array and then alone. -/
def Method.echo : Method :=
  { Method.draft "echo" (.enumerableOf .int) with
    params := [⟨"items", .array .int⟩]
    locals := [⟨0, "item", .int, false⟩]
    body :=
      [.foreach 0 (.var (.param 0))
        [.tryFinally [.yield (.ofLocal 0), .yield (.ofLocal 0)] [.eval (.call "closed" [.ofLocal 0])]],
        .forLoop [.eval (.call "last" [])] none [] [.yield (.int 0), .breakOut]] }

theorem Structured.run_limited_echo :
    run Method.echo none [.array 0 [.int 4, .int 5]] none 100 1 =
        .ok ⟨[.int 4, .int 4, .int 5, .int 5, .int 0],
          [⟨"closed", [.int 4]⟩, ⟨"closed", [.int 5]⟩, ⟨"last", []⟩], true⟩ ∧
      run Method.echo none [.array 0 [.int 4, .int 5]] (some 3) 100 1 =
        .ok ⟨[.int 4, .int 4, .int 5], [⟨"closed", [.int 4]⟩, ⟨"closed", [.int 5]⟩], false⟩ ∧
      [Value.int 4, .int 4, .int 5] = [Value.int 4, .int 4, .int 5, .int 5, .int 0].take 3 := by
  have passed : checkStructure Method.echo = .ok () := rfl
  have quiet : Method.echo.QuietHeaders := by
    unfold Method.QuietHeaders
    decide +kernel
  have whole : run Method.echo none [.array 0 [.int 4, .int 5]] none 100 1 =
      .ok ⟨[.int 4, .int 4, .int 5, .int 5, .int 0],
        [⟨"closed", [.int 4]⟩, ⟨"closed", [.int 5]⟩, ⟨"last", []⟩], true⟩ := by
    decide +kernel
  have limited : run Method.echo none [.array 0 [.int 4, .int 5]] (some 3) 100 1 =
      .ok ⟨[.int 4, .int 4, .int 5], [⟨"closed", [.int 4]⟩, ⟨"closed", [.int 5]⟩], false⟩ := by
    decide +kernel
  exact ⟨whole, limited, (run_limited passed quiet whole limited).1⟩

/-- Produces a value in the header of a loop. -/
def Method.loudHeader : Method :=
  { Method.draft "loud_header" (.enumeratorOf .int) with
    body := [.forLoop [.yield (.int 1)] none [] [.yield (.int 2), .stop]] }

/-- A value produced in a header reaches the limit without stopping the body. -/
theorem Method.loudHeader_exceeds_limit :
    checkStructure loudHeader = .ok () ∧
      Structured.run loudHeader none [] none Structured.defaultFuel 0 =
        .ok ⟨[.int 1, .int 2], [], true⟩ ∧
      Structured.run loudHeader none [] (some 1) Structured.defaultFuel 0 =
        .ok ⟨[.int 1, .int 2], [], false⟩ ∧
      [Value.int 1, .int 2] ≠ [Value.int 1, .int 2].take 1 := by
  refine ⟨rfl, ?_, ?_, by simp⟩
  · decide +kernel
  · decide +kernel

end Resumable
