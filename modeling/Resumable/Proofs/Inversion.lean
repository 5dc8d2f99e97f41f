import Resumable.Lowering.Dispatch
import Resumable.Proofs.Binding

/-!
What an emission that succeeded has emitted, for each kind of statement: the code it was put
together from, and how far it got with labels, suspension points and cleanup routines.
Invariants of emission are read off from here and do not open the emission again.
-/

namespace Resumable.Lowering
open Machine (Code Instr Label)
open NameSupply (cleanupBase)

section
variable {p p' : Progress}

@[simp] theorem reserveLabels_eq_ok {count : Nat} {first : Label} :
    reserveLabels count p = .ok first p' ↔
      p.nextLabel = first ∧ { p with nextLabel := p.nextLabel + count } = p' := by
  simp [reserveLabels]

@[simp] theorem freshCleanup_eq_ok {name : String} :
    freshCleanup p = .ok name p' ↔ (p.names.fresh cleanupBase).1 = name ∧
      { p with names := (p.names.fresh cleanupBase).2 } = p' := by
  simp [freshCleanup]

@[simp] theorem addCleanup_eq_ok {name : String} {body : FlatBody} {u : Unit} :
    addCleanup name body p = .ok u p' ↔
      { p with cleanups := p.cleanups ++ [(name, body)] } = p' := by
  simp [addCleanup]

@[simp] theorem addPoint_eq_ok {resume : Label} {cleanup : List String} {state : Int64} :
    addPoint resume cleanup p = .ok state p' ↔ State.suspendedAt p.points.length = state ∧
      { p with points := p.points ++ [⟨State.suspendedAt p.points.length, resume, cleanup⟩] } = p' := by
  simp [addPoint]

end

theorem Exit.take_after {cleanup : Emit Code} {exit : Exit} {p p' : Progress} {code : Code} :
    (exit.after cleanup).take p = .ok code p' ↔
      ∃ first q rest, cleanup p = .ok first q ∧ exit.take q = .ok rest p' ∧ first ++ rest = code := by
  cases exit with
  | error e => simp [Exit.after, Exit.take, Except.map]
  | ok emit =>
    simp only [Exit.after, Exit.take, Except.map, bind_eq_ok, pure_eq_ok]
    constructor
    · rintro ⟨first, q, cleaned, rest, r, left, rfl, rfl⟩
      exact ⟨first, q, rest, cleaned, left, rfl⟩
    · rintro ⟨first, q, rest, cleaned, left, rfl⟩
      exact ⟨first, q, cleaned, rest, p', left, rfl, rfl⟩

/-- An expression evaluated for its effect is an assignment or an evaluation. -/
theorem effect_cases {shape : Shape} {e : Expr} {instr : Instr} (lowered : shape.effect e = .ok instr) :
    (∃ var value place term, e = .assign var value ∧ shape.place var = .ok place ∧
      shape.term value = .ok term ∧ instr = .assign place term) ∨
      ∃ term, shape.term e = .ok term ∧ instr = .eval term := by
  unfold Shape.effect at lowered
  split at lowered
  · next var value =>
    simp only [except_bind_eq_ok, except_pure_eq_ok] at lowered
    obtain ⟨place, placed, term, loweredValue, rfl⟩ := lowered
    exact .inl ⟨var, value, place, term, rfl, placed, loweredValue, rfl⟩
  · simp only [except_bind_eq_ok, except_pure_eq_ok] at lowered
    obtain ⟨term, loweredValue, rfl⟩ := lowered
    exact .inr ⟨term, loweredValue, rfl⟩

section
variable {method : Method} {shape : Shape} {exits : Exits} {p p' : Progress} {code : Code}

theorem emitStmt_declare_none_eq_ok {id : LocalId} :
    emitStmt method shape exits (.declare id none) p = .ok code p' ↔
      ∃ value place, initial method id = .ok value ∧ shape.place (.loc id) = .ok place ∧
        [.assign place value] = code ∧ p = p' := by
  simp [emitStmt, bind_eq_ok, checked_eq_ok, and_assoc, -bind_pure_comp]

theorem emitStmt_declare_some_eq_ok {id : LocalId} {init : Expr} :
    emitStmt method shape exits (.declare id (some init)) p = .ok code p' ↔
      ∃ value place, shape.term init = .ok value ∧ shape.place (.loc id) = .ok place ∧
        [.assign place value] = code ∧ p = p' := by
  simp [emitStmt, bind_eq_ok, checked_eq_ok, and_assoc, -bind_pure_comp]

theorem emitStmt_eval_eq_ok {value : Expr} :
    emitStmt method shape exits (.eval value) p = .ok code p' ↔
      ∃ instr, shape.effect value = .ok instr ∧ [instr] = code ∧ p = p' := by
  simp [emitStmt, bind_eq_ok, checked_eq_ok, and_assoc, -bind_pure_comp]

theorem emitStmt_ite_none_eq_ok {cond : Expr} {yes : List Stmt} :
    emitStmt method shape exits (.ite cond yes none) p = .ok code p' ↔
      ∃ term yesCode, shape.term cond = .ok term ∧
        emitBlock method shape exits yes { p with nextLabel := p.nextLabel + 2 } = .ok yesCode p' ∧
        .gotoUnless term p.nextLabel :: (yesCode ++ [.goto (p.nextLabel + 1), .label p.nextLabel,
          .label (p.nextLabel + 1)]) = code := by
  simp [emitStmt, bind_eq_ok, checked_eq_ok, and_assoc, -bind_pure_comp]

theorem emitStmt_ite_some_eq_ok {cond : Expr} {yes no : List Stmt} :
    emitStmt method shape exits (.ite cond yes (some no)) p = .ok code p' ↔
      ∃ term yesCode q noCode, shape.term cond = .ok term ∧
        emitBlock method shape exits yes { p with nextLabel := p.nextLabel + 2 } = .ok yesCode q ∧
        emitBlock method shape exits no q = .ok noCode p' ∧
        .gotoUnless term p.nextLabel :: (yesCode ++ .goto (p.nextLabel + 1) :: .label p.nextLabel ::
          (noCode ++ [.label (p.nextLabel + 1)])) = code := by
  simp [emitStmt, bind_eq_ok, checked_eq_ok, and_assoc, -bind_pure_comp]

/-- Without a second branch the code is that for an empty one. -/
theorem emitStmt_ite_none {cond : Expr} {yes : List Stmt} :
    emitStmt method shape exits (.ite cond yes none) =
      emitStmt method shape exits (.ite cond yes (some [])) := by
  simp only [emitStmt, emitBlock, pure_bind, List.nil_append]

theorem emitStmt_whileLoop_eq_ok {cond : Expr} {body : List Stmt} :
    emitStmt method shape exits (.whileLoop cond body) p = .ok code p' ↔
      ∃ term bodyCode, shape.term cond = .ok term ∧
        emitBlock method shape (exits.loop (p.nextLabel + 1) p.nextLabel) body
          { p with nextLabel := p.nextLabel + 2 } = .ok bodyCode p' ∧
        .label p.nextLabel :: .gotoUnless term (p.nextLabel + 1) ::
          (bodyCode ++ [.goto p.nextLabel, .label (p.nextLabel + 1)]) = code := by
  simp [emitStmt, bind_eq_ok, checked_eq_ok, and_assoc, -bind_pure_comp]

theorem emitStmt_forLoop_eq_ok {init : List Stmt} {cond : Option Expr} {step : List Expr}
    {body : List Stmt} :
    emitStmt method shape exits (.forLoop init cond step body) p = .ok code p' ↔
      ∃ initCode q terms bodyCode stepCode, emitBlock method shape exits init p = .ok initCode q ∧
        shape.terms cond.toList = .ok terms ∧
        emitBlock method shape (exits.loop (q.nextLabel + 2) (q.nextLabel + 1)) body
          { q with nextLabel := q.nextLabel + 3 } = .ok bodyCode p' ∧
        shape.effects step = .ok stepCode ∧
        initCode ++ .label q.nextLabel :: (terms.map (.gotoUnless · (q.nextLabel + 2)) ++ bodyCode ++
          .label (q.nextLabel + 1) :: (stepCode ++ [.goto q.nextLabel, .label (q.nextLabel + 2)])) =
          code := by
  simp only [emitStmt, bind_eq_ok, checked_eq_ok, pure_eq_ok, reserveLabels_eq_ok]
  constructor
  · rintro ⟨initCode, q, emittedInit, _, _, ⟨rfl, rfl⟩, terms, _, ⟨loweredCond, rfl⟩, bodyCode, _,
      emittedBody, stepCode, _, ⟨loweredStep, rfl⟩, rfl, rfl⟩
    exact ⟨initCode, q, terms, bodyCode, stepCode, emittedInit, loweredCond, emittedBody, loweredStep, rfl⟩
  · rintro ⟨initCode, q, terms, bodyCode, stepCode, emittedInit, loweredCond, emittedBody, loweredStep,
      rfl⟩
    exact ⟨initCode, q, emittedInit, _, _, ⟨rfl, rfl⟩, terms, _, ⟨loweredCond, rfl⟩, bodyCode, _,
      emittedBody, stepCode, _, ⟨loweredStep, rfl⟩, rfl, rfl⟩

theorem emitStmt_foreach_ne_ok {var : LocalId} {e : Expr} {body : List Stmt} :
    emitStmt method shape exits (.foreach var e body) p ≠ .ok code p' := by
  simp [emitStmt, Lower.fail]

theorem emitStmt_switch_none_eq_ok {scrutinee : Expr} {cases : List (List Int64 × List Stmt)} :
    emitStmt method shape exits (.switch scrutinee cases none) p = .ok code p' ↔
      ∃ term arms, shape.term scrutinee = .ok term ∧
        emitCases method shape (exits.switch p.nextLabel) p.nextLabel (p.nextLabel + 1) cases
          { p with nextLabel := p.nextLabel + 1 + cases.length } = .ok arms p' ∧
        .switch term (jumpTable (p.nextLabel + 1) cases) p.nextLabel ::
          (arms ++ [.label p.nextLabel]) = code := by
  simp [emitStmt, bind_eq_ok, checked_eq_ok, and_assoc, -bind_pure_comp]

theorem emitStmt_switch_some_eq_ok {scrutinee : Expr} {cases : List (List Int64 × List Stmt)}
    {default : List Stmt} :
    emitStmt method shape exits (.switch scrutinee cases (some default)) p = .ok code p' ↔
      ∃ term arms q defaultCode, shape.term scrutinee = .ok term ∧
        emitCases method shape (exits.switch p.nextLabel) p.nextLabel (p.nextLabel + 1) cases
          { p with nextLabel := p.nextLabel + 1 + cases.length + 1 } = .ok arms q ∧
        emitBlock method shape (exits.switch p.nextLabel) default q = .ok defaultCode p' ∧
        .switch term (jumpTable (p.nextLabel + 1) cases) (p.nextLabel + 1 + cases.length) ::
          (arms ++ .label (p.nextLabel + 1 + cases.length) ::
            (defaultCode ++ [.label p.nextLabel])) = code := by
  simp [emitStmt, bind_eq_ok, checked_eq_ok, and_assoc, -bind_pure_comp]

/-- The cleanup of a region that suspends is emitted first, as a routine of its own. -/
theorem emitStmt_tryFinally_eq_ok_of_suspends {body cleanup : List Stmt}
    (suspends : Block.suspends body) :
    emitStmt method shape exits (.tryFinally body cleanup) p = .ok code p' ↔
      ∃ name cleanupCode q routine bodyCode, (p.names.fresh cleanupBase).1 = name ∧
        emitBlock method shape (.sealed method []) cleanup
          { p with names := (p.names.fresh cleanupBase).2 } = .ok cleanupCode q ∧
        flatBody method (cleanupCode ++ [.ret none]) = .ok routine ∧
        emitBlock method shape
          { exits.guarded (pure [callCleanup name]) with cleanups := name :: exits.cleanups } body
          { q with cleanups := q.cleanups ++ [(name, routine)] } = .ok bodyCode p' ∧
        bodyCode ++ [callCleanup name] = code := by
  simp [emitStmt, bind_eq_ok, checked_eq_ok, and_assoc, suspends, -bind_pure_comp]

/-- Any other cleanup is emitted again at each exit of its region. -/
theorem emitStmt_tryFinally_eq_ok_of_not_suspends {body cleanup : List Stmt} (never : ¬Block.suspends body) :
    emitStmt method shape exits (.tryFinally body cleanup) p = .ok code p' ↔
      ∃ bodyCode q last,
        emitBlock method shape (exits.guarded
          (emitBlock method shape (.sealed method exits.cleanups) cleanup)) body p = .ok bodyCode q ∧
        emitBlock method shape (.sealed method exits.cleanups) cleanup q = .ok last p' ∧
        bodyCode ++ last = code := by
  simp [emitStmt, bind_eq_ok, never, -bind_pure_comp]

theorem emitStmt_yield_eq_ok {value : Expr} :
    emitStmt method shape exits (.yield value) p = .ok code p' ↔
      ∃ term, shape.term value = .ok term ∧
        [.setField shape.current term, shape.setState (State.suspendedAt p.points.length),
          .ret (some (.bool true)), .label p.nextLabel, shape.setState State.running] = code ∧
        { p with
          nextLabel := p.nextLabel + 1
          points := p.points ++
            [⟨State.suspendedAt p.points.length, p.nextLabel, exits.cleanups⟩] } = p' := by
  simp [emitStmt, bind_eq_ok, checked_eq_ok, and_assoc, -bind_pure_comp]

theorem emitBlock_cons_eq_ok {s : Stmt} {rest : List Stmt} :
    emitBlock method shape exits (s :: rest) p = .ok code p' ↔
      ∃ first q others, emitStmt method shape exits s p = .ok first q ∧
        emitBlock method shape exits rest q = .ok others p' ∧ first ++ others = code := by
  simp [emitBlock, bind_eq_ok, -bind_pure_comp]

theorem emitCases_cons_eq_ok {breakTo label : Label} {values : List Int64} {body : List Stmt}
    {rest : List (List Int64 × List Stmt)} :
    emitCases method shape exits breakTo label ((values, body) :: rest) p = .ok code p' ↔
      ∃ bodyCode q others, emitBlock method shape exits body p = .ok bodyCode q ∧
        emitCases method shape exits breakTo (label + 1) rest q = .ok others p' ∧
        .label label :: (bodyCode ++ .goto breakTo :: others) = code := by
  simp [emitCases, bind_eq_ok, -bind_pure_comp]

end
end Resumable.Lowering
