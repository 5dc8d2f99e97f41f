import Mathlib.Algebra.Group.Nat.Defs
import Resumable.Method.Build
import Resumable.Proofs.Fitting
import Resumable.Proofs.Sites

/-!
The state table against the suspension points of the source. Emission enters them in pre-order, each
with the names of the cleanup routines of the regions around it; the resumable body pauses at exactly
these places, and its first jump leads from each state to the place of its point. The cleanup
routines are those of the regions, in pre-order.
-/

namespace Resumable

namespace Machine

/-- The instruction returns to a consumer that there is a value. -/
def Instr.pauses : Instr → Bool
  | .ret (some (.bool true)) => true
  | _ => false

/-- All pauses of the code, in order: each comes after the value and the state were stored, and right
before the label where it is resumed. -/
inductive Code.Pauses (current state : FieldId) : List (Term × Point) → Code → Prop
  | never {code : Code} (quiet : ∀ instr ∈ code, ¬instr.pauses) : Pauses current state [] code
  | here {before after : Code} {value : Term} {point : Point} {stops : List (Term × Point)}
      (quiet : ∀ instr ∈ before, ¬instr.pauses) (later : Pauses current state stops after) :
      Pauses current state ((value, point) :: stops)
        (before ++ .setField current value :: .setField state (.int point.state) ::
          .ret (some (.bool true)) :: .label point.resume :: after)

namespace Code.Pauses
variable {current state : FieldId} {stops stops' : List (Term × Point)} {code code' : Code}

theorem prepend (before : Code) (quiet : ∀ instr ∈ before, ¬instr.pauses)
    (pauses : Pauses current state stops code) : Pauses current state stops (before ++ code) := by
  cases pauses with
  | never quiet' => exact .never (List.forall_mem_append.mpr ⟨quiet, quiet'⟩)
  | here quiet' later =>
    rw [← List.append_assoc]
    exact .here (List.forall_mem_append.mpr ⟨quiet, quiet'⟩) later

theorem append (first : Pauses current state stops code) (second : Pauses current state stops' code') :
    Pauses current state (stops ++ stops') (code ++ code') := by
  induction first with
  | never quiet => exact second.prepend _ quiet
  | here quiet later ih =>
    rw [List.append_assoc]
    exact .here quiet ih

/-- The labels where the code is resumed are placed in it, in this order. -/
theorem resumes (pauses : Pauses current state stops code) :
    List.Sublist (stops.map (·.2.resume)) code.labels := by
  induction pauses with
  | never quiet => exact List.nil_sublist _
  | here quiet later ih =>
    rw [labels_append]
    exact (ih.cons_cons _).trans (List.sublist_append_right _ _)

end Code.Pauses
end Machine

namespace Lowering
open Machine (Code Instr Label Point Term)
open NameSupply (cleanupBase nameAt)

/-- The code is that of the routine for a cleanup block. -/
def CleanedBy (method : Method) (shape : Shape) (cleanup : Block) (code : Code) : Prop :=
  ∃ p emitted p', emitBlock method shape (.sealed method []) cleanup p = .ok emitted p' ∧
    code = emitted ++ [.ret none]

/-- The entry of a suspension point, with the value it produces. -/
def EntryOf (shape : Shape) (name : Nat → String) (site : Site) (stop : Term × Point) : Prop :=
  shape.term site.value = .ok stop.1 ∧ stop.2.cleanup = site.around.map name

/-- What emission enters for code with the given suspension points and regions. -/
structure Tabled (method : Method) (shape : Shape) (name : Nat → String) (sites : List Site)
    (regions : List Region) (p : Progress) (code : Code) (p' : Progress) : Prop where
  drawn : p'.drawn = p.drawn + regions.length
  points : ∃ stops, List.Forall₂ (EntryOf shape name) sites stops ∧
    p'.points = p.points ++ stops.map (·.2) ∧ Code.Pauses shape.current shape.state stops code
  cleanups : ∃ new, p'.cleanups = p.cleanups ++ new ∧
    new.map (·.1) = (List.range' p.drawn regions.length).map (nameAt cleanupBase) ∧
    List.Forall₂ (fun region cleanup => CleanedBy method shape region.cleanup cleanup.2.code) regions
      new

section
variable {method : Method} {shape : Shape} {name : Nat → String} {sites sites' : List Site}
  {regions regions' : List Region} {p q r : Progress} {code code' : Code}

namespace Tabled

theorem append (first : Tabled method shape name sites regions p code q)
    (second : Tabled method shape name sites' regions' q code' r) :
    Tabled method shape name (sites ++ sites') (regions ++ regions') p (code ++ code') r where
  drawn := by rw [second.drawn, first.drawn, List.length_append, Nat.add_assoc]
  points := by
    obtain ⟨stops, entries, grown, pauses⟩ := first.points
    obtain ⟨stops', entries', grown', pauses'⟩ := second.points
    refine ⟨stops ++ stops', List.rel_append entries entries', ?_, pauses.append pauses'⟩
    rw [grown', grown, List.map_append, List.append_assoc]
  cleanups := by
    obtain ⟨new, grown, names, cleaned⟩ := first.cleanups
    obtain ⟨new', grown', names', cleaned'⟩ := second.cleanups
    refine ⟨new ++ new', ?_, ?_, List.rel_append cleaned cleaned'⟩
    · rw [grown', grown, List.append_assoc]
    · rw [List.map_append, names, names', first.drawn, List.length_append, ← List.map_append,
        List.range'_append_1]

/-- Code that enters nothing. -/
theorem of_quiet (quiet : ∀ instr ∈ code, ¬instr.pauses) :
    Tabled method shape name [] [] p code p where
  drawn := rfl
  points := ⟨[], .nil, (List.append_nil _).symm, .never quiet⟩
  cleanups := ⟨[], (List.append_nil _).symm, rfl, .nil⟩

theorem prepend (before : Code) (quiet : ∀ instr ∈ before, ¬instr.pauses)
    (tabled : Tabled method shape name sites regions p code q) :
    Tabled method shape name sites regions p (before ++ code) q :=
  (of_quiet quiet).append tabled

theorem followed (after : Code) (quiet : ∀ instr ∈ after, ¬instr.pauses)
    (tabled : Tabled method shape name sites regions p code q) :
    Tabled method shape name sites regions p (code ++ after) q := by
  have whole := tabled.append (of_quiet quiet)
  rwa [List.append_nil, List.append_nil] at whole

theorem counts {first count : Nat} (tabled : Tabled method shape name sites regions p code q)
    (drawn : p.drawn = first + count) : q.drawn = first + (count + regions.length) := by
  rw [tabled.drawn, drawn, Nat.add_assoc]

/-- Taking labels enters nothing. -/
theorem reserved {next : Label}
    (tabled : Tabled method shape name sites regions { p with nextLabel := next } code q) :
    Tabled method shape name sites regions p code q :=
  ⟨tabled.drawn, tabled.points, tabled.cleanups⟩

end Tabled
end

/-- The names of cleanup routines, from the first one drawn for the body. -/
def nameFrom (first number : Nat) : String := nameAt cleanupBase (first + number)

section
variable (method : Method) (shape : Shape) (first : Nat)

/-- Taking the exit enters nothing. -/
def Exit.Barren (exit : Exit) : Prop :=
  ∀ p code p', first ≤ p.drawn → exit.take p = .ok code p' →
    Tabled method shape (nameFrom first) [] [] p code p'

structure Exits.Barren (exits : Exits) : Prop where
  onBreak : exits.onBreak.Barren method shape first
  onContinue : exits.onContinue.Barren method shape first
  onStop : exits.onStop.Barren method shape first

end

section
variable {method : Method} {shape : Shape} {first : Nat} {exits : Exits}

theorem Exit.barren_to (target : Label) : (Exit.to target).Barren method shape first := by
  intro p code p' _ taken
  obtain ⟨rfl, rfl⟩ := pure_eq_ok.mp taken
  exact .of_quiet (by simp [Instr.pauses])

theorem Exit.barren_none (fault : Fault) : (Exit.none fault).Barren method shape first := by
  intro p code p' _ taken
  simp [Exit.none, Exit.take] at taken

theorem Exit.Barren.after {cleanup : Emit Code} {exit : Exit} (barren : exit.Barren method shape first)
    (cleans : Exit.Barren method shape first (.ok cleanup)) :
    (exit.after cleanup).Barren method shape first := by
  intro p code p' enough taken
  obtain ⟨_, q, rest, cleaned, left, rfl⟩ := Exit.take_after.mp taken
  have nothing := cleans p _ q enough cleaned
  have enough' : first ≤ q.drawn := by
    rw [nothing.drawn]
    exact enough
  exact nothing.append (barren q rest p' enough' left)

namespace Exits

theorem barren_body : (Exits.body method shape).Barren method shape first where
  onBreak := Exit.barren_none _
  onContinue := Exit.barren_none _
  onStop p code p' _ taken := by
    obtain ⟨rfl, rfl⟩ := pure_eq_ok.mp taken
    exact .of_quiet (by simp [Shape.finish, Shape.setState, Instr.setField, Instr.pauses])

theorem barren_sealed (cleanups : List String) :
    (Exits.sealed method cleanups).Barren method shape first where
  onBreak := Exit.barren_none _
  onContinue := Exit.barren_none _
  onStop := Exit.barren_none _

theorem Barren.loop (barren : exits.Barren method shape first) (breakTo continueTo : Label) :
    (exits.loop breakTo continueTo).Barren method shape first where
  onBreak := Exit.barren_to breakTo
  onContinue := Exit.barren_to continueTo
  onStop := barren.onStop

theorem Barren.switch (barren : exits.Barren method shape first) (breakTo : Label) :
    (exits.switch breakTo).Barren method shape first where
  onBreak := Exit.barren_to breakTo
  onContinue := barren.onContinue
  onStop := barren.onStop

theorem Barren.guarded (barren : exits.Barren method shape first) {cleanup : Emit Code}
    (cleans : Exit.Barren method shape first (.ok cleanup)) :
    (exits.guarded cleanup).Barren method shape first where
  onBreak := barren.onBreak.after cleans
  onContinue := barren.onContinue.after cleans
  onStop := barren.onStop.after cleans

theorem Barren.enter (barren : exits.Barren method shape first) (cleanups : List String) :
    Barren method shape first { exits with cleanups := cleanups } where
  onBreak := barren.onBreak
  onContinue := barren.onContinue
  onStop := barren.onStop

end Exits

theorem quiet_effect {e : Expr} {instr : Instr} (lowered : shape.effect e = .ok instr) :
    ¬instr.pauses := by
  rcases effect_cases lowered with ⟨_, _, _, _, _, _, _, rfl⟩ | ⟨_, _, rfl⟩ <;> simp [Instr.pauses]

theorem quiet_effects {es : List Expr} {code : Code} (lowered : shape.effects es = .ok code) :
    ∀ instr ∈ code, ¬instr.pauses := by
  induction es generalizing code with
  | nil =>
    obtain rfl := Except.ok.inj lowered
    exact List.forall_mem_nil _
  | cons e rest ih =>
    simp only [Shape.effects, except_bind_eq_ok, except_pure_eq_ok] at lowered
    obtain ⟨instr, here, others, later, rfl⟩ := lowered
    exact List.forall_mem_cons.mpr ⟨quiet_effect here, ih later⟩

end

section
variable (method : Method) (shape : Shape) (first : Nat)

/-- A cleanup routine is entered before what its region enters. -/
theorem tabled_routine (region : Region) {p q : Progress} {cleanup : Code} {routine : FlatBody}
    (emitted : emitBlock method shape (.sealed method []) region.cleanup
      { p with names := (p.names.fresh cleanupBase).2 } = .ok cleanup q)
    (nothing : Tabled method shape (nameFrom first) [] []
      { p with names := (p.names.fresh cleanupBase).2 } cleanup q)
    (flattened : flatBody method (cleanup ++ [.ret none]) = .ok routine) :
    Tabled method shape (nameFrom first) [] [region] p []
      { q with cleanups := q.cleanups ++ [((p.names.fresh cleanupBase).1, routine)] } where
  drawn := by
    have drawn := nothing.drawn
    simp only [Progress.drawn, NameSupply.requests_fresh] at drawn ⊢
    exact drawn
  points := by
    obtain ⟨stops, entries, grown, _⟩ := nothing.points
    obtain rfl := List.forall₂_nil_left_iff.mp entries
    exact ⟨[], .nil, grown, .never (List.forall_mem_nil _)⟩
  cleanups := by
    obtain ⟨new, grown, _, cleaned⟩ := nothing.cleanups
    obtain rfl := List.forall₂_nil_left_iff.mp cleaned
    refine ⟨[((p.names.fresh cleanupBase).1, routine)], ?_, rfl, ?_⟩
    · simp only [grown, List.append_nil]
    · exact .cons ⟨_, cleanup, q, emitted, flatBody_code flattened⟩ .nil

mutual
theorem tabled_stmt : (s : Stmt) → {around : Surroundings} → checkStmt method around s = .ok () →
    {exits : Exits} → exits.Barren method shape first → {numbers : List Nat} →
    exits.cleanups = numbers.map (nameFrom first) → {p p' : Progress} → {code : Code} →
    emitStmt method shape exits s p = .ok code p' → {count : Nat} → p.drawn = first + count →
    Tabled method shape (nameFrom first) (s.sites count numbers) s.regions p code p'
  | .block body, around, passed, exits, barren, numbers, named, p, p', code, emitted, count, drawn => by
    rw [emitStmt] at emitted
    exact tabled_block body passed barren named emitted drawn
  | .declare id none, around, passed, exits, barren, numbers, named, p, p', code, emitted, count,
      drawn => by
    obtain ⟨_, _, _, _, rfl, rfl⟩ := emitStmt_declare_none_eq_ok.mp emitted
    exact .of_quiet (by simp [Instr.pauses])
  | .declare id (some init), around, passed, exits, barren, numbers, named, p, p', code, emitted, count,
      drawn => by
    obtain ⟨_, _, _, _, rfl, rfl⟩ := emitStmt_declare_some_eq_ok.mp emitted
    exact .of_quiet (by simp [Instr.pauses])
  | .eval value, around, passed, exits, barren, numbers, named, p, p', code, emitted, count, drawn => by
    obtain ⟨instr, lowered, rfl, rfl⟩ := emitStmt_eval_eq_ok.mp emitted
    exact .of_quiet (List.forall_mem_singleton.mpr (quiet_effect lowered))
  | .ite cond yes none, around, passed, exits, barren, numbers, named, p, p', code, emitted, count,
      drawn => by
    simp only [checkStmt, check_bind] at passed
    obtain ⟨_, yesCode, _, emittedYes, rfl⟩ := emitStmt_ite_none_eq_ok.mp emitted
    have inner := (tabled_block yes passed.2 barren named emittedYes drawn).reserved
    exact (inner.followed _ (by simp [Instr.pauses])).prepend [_] (by simp [Instr.pauses])
  | .ite cond yes (some no), around, passed, exits, barren, numbers, named, p, p', code, emitted, count,
      drawn => by
    simp only [checkStmt, check_bind] at passed
    obtain ⟨_, yesCode, _, noCode, _, emittedYes, emittedNo, rfl⟩ := emitStmt_ite_some_eq_ok.mp emitted
    have inner := (tabled_block yes passed.2.1 barren named emittedYes drawn).reserved
    have other := tabled_block no passed.2.2 barren named emittedNo (inner.counts drawn)
    rw [Stmt.regions_ite_some]
    exact (inner.append ((other.followed [_] (by simp [Instr.pauses])).prepend [_, _]
      (by simp [Instr.pauses]))).prepend [_] (by simp [Instr.pauses])
  | .whileLoop cond body, around, passed, exits, barren, numbers, named, p, p', code, emitted, count,
      drawn => by
    simp only [checkStmt, check_bind] at passed
    obtain ⟨_, bodyCode, _, emittedBody, rfl⟩ := emitStmt_whileLoop_eq_ok.mp emitted
    have inner := (tabled_block body passed.2 (barren.loop _ _) named emittedBody drawn).reserved
    exact (inner.followed _ (by simp [Instr.pauses])).prepend [_, _] (by simp [Instr.pauses])
  | .forLoop init cond step body, around, passed, exits, barren, numbers, named, p, p', code, emitted,
      count, drawn => by
    simp only [checkStmt, check_bind] at passed
    obtain ⟨initCode, q, conds, bodyCode, stepCode, emittedInit, _, emittedBody, lowered, rfl⟩ :=
      emitStmt_forLoop_eq_ok.mp emitted
    have header := tabled_block init passed.1 barren named emittedInit drawn
    have inner := (tabled_block body passed.2.2.2 (barren.loop _ _) named emittedBody
      (header.counts drawn)).reserved
    have turn : ∀ instr ∈ .label (q.nextLabel + 1) ::
        (stepCode ++ [.goto q.nextLabel, .label (q.nextLabel + 2)]), ¬instr.pauses := by
      simp only [List.forall_mem_cons, List.forall_mem_append]
      exact ⟨by simp [Instr.pauses], quiet_effects lowered, by simp [Instr.pauses]⟩
    rw [Stmt.regions_forLoop]
    exact header.append (((inner.prepend _ (by simp [Instr.pauses])).followed _ turn).prepend [_]
      (by simp [Instr.pauses]))
  | .foreach _ _ _, around, passed, exits, barren, numbers, named, p, p', code, emitted, count,
      drawn => by
    exact absurd emitted emitStmt_foreach_ne_ok
  | .switch scrutinee cases none, around, passed, exits, barren, numbers, named, p, p', code, emitted,
      count, drawn => by
    simp only [checkStmt, check_bind] at passed
    obtain ⟨_, arms, _, emittedArms, rfl⟩ := emitStmt_switch_none_eq_ok.mp emitted
    have inner := (tabled_cases cases passed.2 (barren.switch _) named emittedArms drawn).reserved.reserved
    exact (inner.followed _ (by simp [Instr.pauses])).prepend [_] (by simp [Instr.pauses])
  | .switch scrutinee cases (some default), around, passed, exits, barren, numbers, named, p, p', code,
      emitted, count, drawn => by
    simp only [checkStmt, check_bind] at passed
    obtain ⟨_, arms, _, defaultCode, _, emittedArms, emittedDefault, rfl⟩ :=
      emitStmt_switch_some_eq_ok.mp emitted
    have inner :=
      (tabled_cases cases passed.2.1 (barren.switch _) named emittedArms drawn).reserved.reserved.reserved
    have other := tabled_block default passed.2.2 (barren.switch _) named emittedDefault
      (inner.counts drawn)
    rw [Stmt.regions_switch_some]
    exact (inner.append ((other.followed [_] (by simp [Instr.pauses])).prepend [_]
      (by simp [Instr.pauses]))).prepend [_] (by simp [Instr.pauses])
  | .tryFinally body cleanup, around, passed, exits, barren, numbers, named, p, p', code, emitted, count,
      drawn => by
    simp only [checkStmt, check_bind] at passed
    have calm := calm_block method cleanup .cleanup rfl passed.2
    rw [Stmt.sites, Stmt.regions_tryFinally, Stmt.regionsAll_eq_nil cleanup calm, List.append_nil]
    simp only [Stmt.sitesAll_eq_nil calm, List.append_nil]
    -- the cleanup block enters nothing, wherever it is emitted
    have nothing (cleanups : List String) (numbers : List Nat)
        (named : cleanups = numbers.map (nameFrom first)) : Exit.Barren method shape first
        (.ok (emitBlock method shape (.sealed method cleanups) cleanup)) := by
      intro p code p' enough emitted
      have inner := tabled_block cleanup passed.2 (Exits.barren_sealed _) named emitted
        (Nat.add_sub_cancel' enough).symm
      rwa [Stmt.regionsAll_eq_nil cleanup calm, Stmt.sitesAll_eq_nil calm] at inner
    by_cases does : Block.suspends body
    · obtain ⟨_, cleanupCode, _, routine, bodyCode, rfl, emittedCleanup, flattened, emittedBody, rfl⟩ :=
        (emitStmt_tryFinally_eq_ok_of_suspends does).mp emitted
      have enough : first ≤ Progress.drawn { p with names := (p.names.fresh cleanupBase).2 } := by
        simp only [Progress.drawn, NameSupply.requests_fresh] at drawn ⊢
        omega
      have entered := tabled_routine method shape first ⟨body, cleanup⟩ emittedCleanup
        (nothing [] [] rfl _ _ _ enough emittedCleanup) flattened
      have calls : Exit.Barren method shape first
          (.ok (pure [callCleanup (p.names.fresh cleanupBase).1])) := by
        intro p code p' _ taken
        obtain ⟨rfl, rfl⟩ := pure_eq_ok.mp taken
        exact .of_quiet (by simp [callCleanup, Instr.pauses])
      have own : (p.names.fresh cleanupBase).1 = nameFrom first count := by
        rw [nameFrom, ← drawn]
        rfl
      have named' : (p.names.fresh cleanupBase).1 :: exits.cleanups =
          (count :: numbers).map (nameFrom first) := by rw [List.map_cons, own, named]
      have inner := tabled_block body passed.1 ((barren.guarded calls).enter _) named' emittedBody
        (entered.counts drawn)
      rw [if_pos does, if_pos does]
      exact (entered.append inner).followed [_] (by simp [callCleanup, Instr.pauses])
    · obtain ⟨bodyCode, q, last, emittedBody, emittedLast, rfl⟩ :=
        (emitStmt_tryFinally_eq_ok_of_not_suspends does).mp emitted
      have repeated := nothing exits.cleanups numbers named
      have inner := tabled_block body passed.1 (barren.guarded repeated) named emittedBody drawn
      have counted := inner.counts drawn
      have whole := inner.append (repeated q last _ (by omega) emittedLast)
      rw [if_neg does, if_neg does, List.nil_append]
      rwa [List.append_nil, List.append_nil] at whole
  | .breakOut, around, passed, exits, barren, numbers, named, p, p', code, emitted, count, drawn => by
    rw [emitStmt] at emitted
    exact barren.onBreak p code p' (by omega) emitted
  | .continueLoop, around, passed, exits, barren, numbers, named, p, p', code, emitted, count, drawn => by
    rw [emitStmt] at emitted
    exact barren.onContinue p code p' (by omega) emitted
  | .yield value, around, passed, exits, barren, numbers, named, p, p', code, emitted, count, drawn => by
    obtain ⟨term, lowered, rfl, rfl⟩ := emitStmt_yield_eq_ok.mp emitted
    refine ⟨rfl, ⟨[(term, _)], .cons ⟨lowered, named⟩ .nil, rfl, ?_⟩, ⟨[], ?_, rfl, .nil⟩⟩
    · exact .here (List.forall_mem_nil _) (.never (by simp [Instr.pauses, Shape.setState, Instr.setField]))
    · exact (List.append_nil _).symm
  | .stop, around, passed, exits, barren, numbers, named, p, p', code, emitted, count, drawn => by
    rw [emitStmt] at emitted
    exact barren.onStop p code p' (by omega) emitted

theorem tabled_block : (body : List Stmt) → {around : Surroundings} →
    checkBlock method around body = .ok () → {exits : Exits} →
    exits.Barren method shape first → {numbers : List Nat} →
    exits.cleanups = numbers.map (nameFrom first) → {p p' : Progress} → {code : Code} →
    emitBlock method shape exits body p = .ok code p' → {count : Nat} → p.drawn = first + count →
    Tabled method shape (nameFrom first) (Stmt.sitesAll count numbers body) (Stmt.regionsAll body) p
      code p'
  | [], around, passed, exits, barren, numbers, named, p, p', code, emitted, count, drawn => by
    simp only [emitBlock, pure_eq_ok] at emitted
    obtain ⟨rfl, rfl⟩ := emitted
    exact .of_quiet (List.forall_mem_nil _)
  | s :: rest, around, passed, exits, barren, numbers, named, p, p', code, emitted, count, drawn => by
    simp only [checkBlock, check_bind] at passed
    obtain ⟨_, q, others, emittedFirst, emittedRest, rfl⟩ := emitBlock_cons_eq_ok.mp emitted
    have here := tabled_stmt s passed.1 barren named emittedFirst drawn
    rw [Stmt.regionsAll_cons]
    exact here.append (tabled_block rest passed.2 barren named emittedRest (here.counts drawn))

theorem tabled_cases : (cases : List (List Int64 × List Stmt)) → {around : Surroundings} →
    checkCases method around cases = .ok () → {exits : Exits} →
    exits.Barren method shape first → {numbers : List Nat} →
    exits.cleanups = numbers.map (nameFrom first) → {breakTo label : Label} → {p p' : Progress} →
    {code : Code} → emitCases method shape exits breakTo label cases p = .ok code p' → {count : Nat} →
    p.drawn = first + count →
    Tabled method shape (nameFrom first) (Stmt.sitesCases count numbers cases)
      (Stmt.regionsCases cases) p code p'
  | [], around, passed, exits, barren, numbers, named, breakTo, label, p, p', code, emitted, count,
      drawn => by
    simp only [emitCases, pure_eq_ok] at emitted
    obtain ⟨rfl, rfl⟩ := emitted
    exact .of_quiet (List.forall_mem_nil _)
  | (values, body) :: rest, around, passed, exits, barren, numbers, named, breakTo, label, p, p', code,
      emitted, count, drawn => by
    simp only [checkCases, check_bind] at passed
    obtain ⟨bodyCode, q, others, emittedBody, emittedRest, rfl⟩ := emitCases_cons_eq_ok.mp emitted
    have here := tabled_block body passed.1 barren named emittedBody drawn
    have later := tabled_cases rest passed.2 barren named emittedRest (here.counts drawn)
    rw [Stmt.regionsCases_cons]
    exact (here.append (later.prepend [_] (by simp [Instr.pauses]))).prepend [_] (by simp [Instr.pauses])
end

end

/-- The lowered values are those of the suspension points. -/
theorem terms_of_entries {shape : Shape} {name : Nat → String} {sites : List Site}
    {stops : List (Term × Point)} (entries : List.Forall₂ (EntryOf shape name) sites stops) :
    shape.terms (sites.map (·.value)) = .ok (stops.map (·.1)) := by
  induction entries with
  | nil => rfl
  | cons entry _ ih => simp only [List.map_cons, Shape.terms, entry.1, ih]; rfl

/-- The entries of the state table, the pauses of the resumable body and its first jump, and the
cleanup routines, against the suspension points and regions of the source. -/
structure StateTable {method : Method} {options : Options} {lowered : Lowered}
    (outline : Outline method options lowered) (body : Code) : Prop where
  length_points : lowered.machine.points.length = method.body.suspensions
  values : method.body.sites.map (·.value) = method.body.yields
  states : lowered.machine.points.map (·.state) =
    (List.range' 1 method.body.suspensions).map Int64.ofNat
  around : List.Forall₂
    (fun site point => point.cleanup.map some =
      site.around.map fun number => (lowered.machine.cleanups[number]?).map (·.name))
    method.body.sites lowered.machine.points
  pauses : ∃ values, outline.shape.terms method.body.yields = .ok values ∧
    Code.Pauses outline.shape.current outline.shape.state (values.zip lowered.machine.points) body
  dispatch : ∃ table rest, body = .switch (.field outline.shape.state) table failLabel :: rest ∧
    table.map (·.1) = (List.range (method.body.suspensions + 1)).map Int64.ofNat ∧
    (method.body.suspensions < 2 ^ 64 → (table.map (·.1)).Nodup) ∧
    ∀ k point, lowered.machine.points[k]? = some point →
      ∀ value, (value, point.resume) ∈ table ↔ value = Int64.ofNat (k + 1)
  cleanups : List.Forall₂
    (fun region routine => ∃ next, CleanedBy outline.expanded outline.shape
      (Stmt.countedAll next region.cleanup) routine.body)
    method.body.regions lowered.machine.cleanups

theorem cleaned_of_counted {method : Method} {shape : Shape} {options : Options}
    {regions counted : List Region} {new : List (String × FlatBody)}
    (same : List.Forall₂ Region.Counted regions counted)
    (cleaned : List.Forall₂
      (fun region cleanup => CleanedBy method shape region.cleanup cleanup.2.code) counted new) :
    List.Forall₂
      (fun region routine => ∃ next, CleanedBy method shape (Stmt.countedAll next region.cleanup)
        routine.body)
      regions (new.map (cleanupRoutine options)) := by
  induction same generalizing new with
  | nil =>
    obtain rfl := List.forall₂_nil_left_iff.mp cleaned
    exact .nil
  | cons here _ ih =>
    obtain ⟨cleanup, rest, first, later, rfl⟩ := List.forall₂_cons_left_iff.mp cleaned
    obtain ⟨next, expanded⟩ := here
    exact .cons ⟨next, expanded ▸ first⟩ (ih later)

theorem suspendedAt_eq (k : Nat) : State.suspendedAt k = Int64.ofNat (k + 1) :=
  (Int64.ofNat_add k 1).symm

theorem Numbered.states {points : List Point} (numbered : Numbered points) :
    points.map (·.state) = (List.range' 1 points.length).map Int64.ofNat := by
  apply List.ext_getElem
  · simp
  · intro k inside _
    rw [List.length_map] at inside
    have state := numbered k points[k] (List.getElem?_eq_getElem inside)
    simp only [List.getElem_map, List.getElem_range', Nat.one_mul]
    rw [state, suspendedAt_eq, Nat.add_comm]

theorem ofNat_injOn {m n : Nat} (small : m < 2 ^ 64) (small' : n < 2 ^ 64)
    (same : Int64.ofNat m = Int64.ofNat n) : m = n := by
  have words : BitVec.ofNat 64 m = BitVec.ofNat 64 n := congrArg Int64.toBitVec same
  have numbers := congrArg BitVec.toNat words
  rwa [BitVec.toNat_ofNat, BitVec.toNat_ofNat, Nat.mod_eq_of_lt small, Nat.mod_eq_of_lt small'] at numbers

/-- The values of a jump table that lists all states. -/
theorem nodup_stateValues {count : Nat} (few : count < 2 ^ 64) :
    ((List.range (count + 1)).map Int64.ofNat).Nodup := by
  apply List.Nodup.map_on _ List.nodup_range
  intro m below n below'
  rw [List.mem_range] at below below'
  exact ofNat_injOn (by omega) (by omega)

namespace Outline
variable {method : Method} {options : Options} {lowered : Lowered}
  (outline : Outline method options lowered)
include outline

theorem expanded_body :
    outline.expanded.body = Stmt.countedAll (nextLocal method.locals) method.body := by
  obtain ⟨locals, same, _⟩ := expandForeach_spec outline.expands
  rw [same]

/-- The first of the names drawn for cleanup routines. -/
def firstName : Nat := outline.names.requests cleanupBase

theorem tabled : Tabled outline.expanded outline.shape (nameFrom outline.firstName) method.body.sites
    outline.expanded.body.regions ⟨2, [], [], outline.names⟩ outline.code outline.progress := by
  have same : method.body.sites = Stmt.sitesAll 0 [] outline.expanded.body := by
    rw [outline.expanded_body]
    exact (Stmt.sitesAll_counted method.body _ 0 []).symm
  rw [same]
  exact tabled_block outline.expanded outline.shape outline.firstName outline.expanded.body
    outline.passed_expanded Exits.barren_body rfl outline.emitted rfl

/-- The cleanup routines have the names drawn for them, in order. -/
theorem cleanupName {number : Nat} {point : Point} (member : point ∈ lowered.machine.points)
    (listed : nameFrom outline.firstName number ∈ point.cleanup) :
    (lowered.machine.cleanups[number]?).map (·.name) = some (nameFrom outline.firstName number) := by
  obtain ⟨new, grown, names, _⟩ := outline.tabled.cleanups
  change new.map (·.1) = (List.range' outline.firstName _).map (nameAt cleanupBase) at names
  rw [List.nil_append] at grown
  obtain ⟨cleanup, found, name⟩ := outline.cleanup_of_point member listed
  have drawn : nameFrom outline.firstName number ∈ new.map (·.1) := by
    rw [← name, ← grown]
    exact List.mem_map_of_mem found
  rw [names] at drawn
  obtain ⟨request, within, same⟩ := List.mem_map.mp drawn
  have position := NameSupply.nameAt_inj same
  have inside := List.mem_range'_1.mp within
  have named : lowered.machine.cleanups.map (·.name) = new.map (·.1) := by
    rw [outline.machineCleanups_eq, grown, map_name_cleanupRoutine]
  rw [← List.getElem?_map, named, names, List.getElem?_map, List.getElem?_range' (by omega),
    Nat.one_mul]
  rfl

/-- The resumable body pauses where the emitted code does. -/
theorem pauses_body {stops : List (Term × Point)}
    (pauses : Code.Pauses outline.shape.current outline.shape.state stops outline.code) :
    Code.Pauses outline.shape.current outline.shape.state stops outline.body := by
  have opening : ∀ instr ∈ entry outline.shape lowered.machine.points ++
      [.label startLabel, outline.shape.setState State.running], ¬instr.pauses := by
    simp [entry, Shape.setState, Instr.setField, Instr.pauses]
  have closing : ∀ instr ∈ outline.shape.finish, ¬instr.pauses := by
    simp [Shape.finish, Shape.setState, Instr.setField, Instr.pauses]
  have whole := (pauses.append (.never closing)).prepend _ opening
  rwa [List.append_nil, List.append_assoc] at whole

/-- The entry of a point is its state with the label where it is resumed. -/
theorem mem_table {stops : List (Term × Point)}
    (pauses : Code.Pauses outline.shape.current outline.shape.state stops outline.code)
    (points : lowered.machine.points = stops.map (·.2)) {k : Nat} {point : Point}
    (found : lowered.machine.points[k]? = some point) (value : Int64) :
    (value, point.resume) ∈ (State.fresh, startLabel) ::
      lowered.machine.points.map (fun point => (point.state, point.resume)) ↔
      value = Int64.ofNat (k + 1) := by
  have resumes : List.Sublist (lowered.machine.points.map (·.resume)) outline.code.labels := by
    rw [points, List.map_map]
    exact pauses.resumes
  have once := outline.laid.once.sublist resumes
  have member := List.mem_of_getElem? found
  have state : point.state = Int64.ofNat (k + 1) := (outline.numbered k point found).trans (suspendedAt_eq k)
  constructor
  · intro listed
    rcases List.mem_cons.mp listed with start | later
    · -- the label of the start is none of those placed for points
      have placed : 2 ≤ point.resume :=
        (outline.laid.within _ (resumes.subset (List.mem_map_of_mem member))).1
      rw [(Prod.mk.inj start).2] at placed
      exact absurd placed (by decide)
    · obtain ⟨other, member', same⟩ := List.mem_map.mp later
      obtain ⟨rfl, resume⟩ := Prod.mk.inj same
      rw [List.inj_on_of_nodup_map once member' member resume, state]
  · intro same
    apply List.mem_cons_of_mem
    rw [same, ← state]
    exact List.mem_map_of_mem member

theorem stateTable : StateTable outline outline.body := by
  obtain ⟨stops, entries, grown, pauses⟩ := outline.tabled.points
  have points : lowered.machine.points = stops.map (·.2) := by
    rw [outline.machinePoints_eq, grown]
    rfl
  have length : lowered.machine.points.length = method.body.suspensions := by
    rw [points, List.length_map, ← entries.length_eq]
    exact Stmt.length_sitesAll method.body 0 []
  have values : method.body.sites.map (·.value) = method.body.yields :=
    Stmt.values_sitesAll method.body 0 []
  have states := outline.numbered.states
  rw [length] at states
  have table : ((State.fresh, startLabel) ::
      lowered.machine.points.map fun point => (point.state, point.resume)).map (·.1) =
      (List.range (method.body.suspensions + 1)).map Int64.ofNat := by
    rw [List.range_eq_range', List.range'_succ, List.map_cons, List.map_cons, List.map_map, ← states]
    rfl
  refine ⟨length, values, states, ?_, ⟨stops.map (·.1), ?_, ?_⟩, ?_, ?_⟩
  · rw [points, List.forall₂_map_right_iff]
    refine List.forall₂_iff_zip.mpr ⟨entries.length_eq, fun {site stop} both => ?_⟩
    have entry := List.forall₂_zip entries both
    have member : stop.2 ∈ lowered.machine.points := by
      rw [points]
      exact List.mem_map_of_mem (List.of_mem_zip both).2
    rw [entry.2, List.map_map]
    apply List.map_congr_left
    intro number inside
    apply Eq.symm
    apply outline.cleanupName member
    rw [entry.2]
    exact List.mem_map_of_mem inside
  · rw [← values]
    exact terms_of_entries entries
  · rw [points, List.zip_map']
    simpa using outline.pauses_body pauses
  · refine ⟨_, _, rfl, table, fun few => ?_, fun k point => outline.mem_table pauses points⟩
    rw [table]
    exact nodup_stateValues few
  · obtain ⟨new, cleanups, _, cleaned⟩ := outline.tabled.cleanups
    rw [outline.machineCleanups_eq, cleanups]
    have same := Stmt.regionsAll_counted method.body (nextLocal method.locals)
    rw [← outline.expanded_body] at same
    exact cleaned_of_counted same cleaned

end Outline

end Lowering

/-- The state table of a lowered method describes the suspension points of its source exactly. -/
theorem Method.stateTable_of_lower {method : Method} {platform : Platform} {options : Options}
    {names names' : NameSupply} {lowered : Lowered}
    (done : method.lower platform options names = .ok lowered names') :
    ∃ (outline : Lowering.Outline method options lowered) (moveNext : Machine.Routine),
      lowered.machine.routine? .moveNext = some moveNext ∧
        Lowering.StateTable outline moveNext.body := by
  obtain ⟨outline⟩ := Lowering.outline_of_lower done
  obtain ⟨moveNext, found, body⟩ := outline.routine_moveNext
  refine ⟨outline, moveNext, found, ?_⟩
  rw [body]
  exact outline.stateTable

/-- Three suspension points: in one region, in a region inside that one, and in none. -/
def Method.nestedRegions : Method :=
  { Method.draft "nested_regions" (.enumerableOf .int) with
    params := [⟨"items", .array .int⟩]
    locals := [⟨0, "item", .int, false⟩]
    body :=
      [.tryFinally
        [.yield (.int 1),
          .foreach 0 (.var (.param 0))
            [.tryFinally [.yield (.ofLocal 0)] [.eval (.call "inner" [])]]]
        [.eval (.call "outer" [])],
        .yield (.int 2)] }

example : Method.nestedRegions.body.sites.map (·.around) = [[0], [1, 0], []] := by decide

theorem Method.stateTable_of_lower_nestedRegions : ∃ lowered supply,
    nestedRegions.lower .standard .standard .empty = .ok lowered supply ∧
      lowered.machine.points.map (·.cleanup) =
        [["$finally"], ["$finally$1", "$finally"], []] ∧
      ∃ (outline : Lowering.Outline nestedRegions .standard lowered) (moveNext : Machine.Routine),
        lowered.machine.routine? .moveNext = some moveNext ∧
          Lowering.StateTable outline moveNext.body := by
  have evaluated : (result? (nestedRegions.lower .standard .standard .empty)).map
      (·.machine.points.map (·.cleanup)) =
      some [["$finally"], ["$finally$1", "$finally"], []] := by decide +kernel
  obtain ⟨lowered, found, cleanups⟩ := Option.map_eq_some_iff.mp evaluated
  obtain ⟨supply, lowers⟩ := result?_eq_some.mp found
  exact ⟨lowered, supply, lowers, cleanups, stateTable_of_lower lowers⟩

end Resumable
