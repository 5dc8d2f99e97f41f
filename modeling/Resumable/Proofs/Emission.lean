import Resumable.Proofs.Counting
import Resumable.Proofs.Harvest

/-!
Emission for two shapes at once. Whatever is emitted for the same statements goes together,
and so do the suspension points and the cleanup routines that are found on the way. By the
end of the emission every label that a jump refers to has been placed.
-/

namespace Resumable.Lowering
open Machine (Code Instr Label Term)

mutual
/-- What emission relies on: expressions may occur where they stand, and at a suspension point, as
in a region that has one, the locals in scope are kept. -/
def Fits (pair : Pairing) (scope : List LocalId) : Stmt → Prop
  | .block body => FitsAll pair scope body
  | .declare _ none => True
  | .declare _ (some init) => pair.allows scope init
  | .eval value => pair.allows scope value
  | .ite cond yes none => pair.allows scope cond ∧ FitsAll pair scope yes
  | .ite cond yes (some no) =>
    pair.allows scope cond ∧ FitsAll pair scope yes ∧ FitsAll pair scope no
  | .whileLoop cond body => pair.allows scope cond ∧ FitsAll pair scope body
  | .forLoop init cond step body =>
    FitsAll pair scope init ∧ (∀ e ∈ cond.toList, pair.allows (Stmt.scopeAfter scope init) e) ∧
      (∀ e ∈ step, pair.allows (Stmt.scopeAfter scope init) e) ∧
      FitsAll pair (Stmt.scopeAfter scope init) body
  | .foreach _ _ _ => True
  | .switch scrutinee cases none => pair.allows scope scrutinee ∧ FitsCases pair scope cases
  | .switch scrutinee cases (some default) =>
    pair.allows scope scrutinee ∧ FitsCases pair scope cases ∧ FitsAll pair scope default
  | .tryFinally body cleanup =>
    FitsAll pair scope body ∧ FitsAll pair scope cleanup ∧ Stmt.suspensionsAll cleanup = 0 ∧
      (Stmt.suspensionsAll body ≠ 0 → ∀ id ∈ scope, pair.keeps id)
  | .yield value => pair.allows scope value ∧ ∀ id ∈ scope, pair.keeps id
  | .breakOut | .continueLoop | .stop => True

def FitsAll (pair : Pairing) (scope : List LocalId) : List Stmt → Prop
  | [] => True
  | s :: rest => Fits pair scope s ∧ FitsAll pair (declared s ++ scope) rest

def FitsCases (pair : Pairing) (scope : List LocalId) : List (List Int64 × List Stmt) → Prop
  | [] => True
  | (_, body) :: rest => FitsAll pair scope body ∧ FitsCases pair scope rest
end

/-- What a declaration without an initializer stores is a constant. -/
theorem initial_term {method : Method} {id : LocalId} {t : Term} (found : initial method id = .ok t) :
    ∃ e : Expr, e ∈ [.int 0, .bool false, .null] ∧ ∀ shape : Shape, shape.term e = .ok t := by
  simp only [initial, except_bind_eq_ok] at found
  obtain ⟨l, _, found⟩ := found
  split at found <;> obtain rfl := Except.ok.inj found
  · exact ⟨.int 0, by simp, fun _ => rfl⟩
  · exact ⟨.bool false, by simp, fun _ => rfl⟩
  · exact ⟨.null, by simp, fun _ => rfl⟩

section
variable {pair : Pairing} {marks : Landmarks} {scope : List LocalId}

theorem twin_effect {e : Expr} {instr instr' : Instr} (allowed : pair.allows scope e)
    (lowered : pair.left.effect e = .ok instr) (lowered' : pair.right.effect e = .ok instr')
    {rest rest' : Code} {after : List LocalId} (twin : Twin pair marks scope rest rest' after) :
    Twin pair marks scope (instr :: rest) (instr' :: rest') after := by
  cases e with
  | assign var value =>
    simp only [Shape.effect, except_bind_eq_ok, except_pure_eq_ok] at lowered lowered'
    obtain ⟨place, placed, t, loweredValue, rfl⟩ := lowered
    obtain ⟨place', placed', t', loweredValue', rfl⟩ := lowered'
    exact .assign allowed placed placed' loweredValue loweredValue' twin
  | _ =>
    simp only [Shape.effect, except_bind_eq_ok, except_pure_eq_ok] at lowered lowered'
    obtain ⟨t, loweredValue, rfl⟩ := lowered
    obtain ⟨t', loweredValue', rfl⟩ := lowered'
    exact .eval ⟨_, allowed, loweredValue, loweredValue'⟩ twin

theorem twin_effects {es : List Expr} {code code' : Code} (allowed : ∀ e ∈ es, pair.allows scope e)
    (lowered : pair.left.effects es = .ok code) (lowered' : pair.right.effects es = .ok code') :
    Twin pair marks scope code code' scope := by
  induction es generalizing code code' with
  | nil =>
    obtain rfl := Except.ok.inj lowered
    obtain rfl := Except.ok.inj lowered'
    exact .nil (List.Subset.refl _)
  | cons e rest ih =>
    simp only [Shape.effects, except_bind_eq_ok, except_pure_eq_ok] at lowered lowered'
    obtain ⟨instr, here, others, later, rfl⟩ := lowered
    obtain ⟨instr', here', others', later', rfl⟩ := lowered'
    obtain ⟨allowedHere, allowed⟩ := List.forall_mem_cons.mp allowed
    exact twin_effect allowedHere here here' (ih allowed later later')

theorem twin_conditions {cond : Option Expr} {terms terms' : List Term} {target : Label}
    (allowed : ∀ e ∈ cond.toList, pair.allows scope e)
    (lowered : pair.left.terms cond.toList = .ok terms)
    (lowered' : pair.right.terms cond.toList = .ok terms') (admits : marks.Admits scope target) :
    Twin pair marks scope (terms.map (.gotoUnless · target)) (terms'.map (.gotoUnless · target)) scope := by
  cases cond with
  | none =>
    obtain rfl := Except.ok.inj lowered
    obtain rfl := Except.ok.inj lowered'
    exact .nil (List.Subset.refl _)
  | some e =>
    simp only [Option.toList_some, Shape.terms, except_bind_eq_ok, except_pure_eq_ok,
      Except.ok.injEq] at lowered lowered'
    obtain ⟨t, loweredCond, _, rfl, rfl⟩ := lowered
    obtain ⟨t', loweredCond', _, rfl, rfl⟩ := lowered'
    exact .branch ⟨e, allowed e (by simp), loweredCond, loweredCond'⟩ admits (.nil (List.Subset.refl _))

end

/-- The labels of the cases of a switch, consecutive from `first`. -/
def caseMarks (first : Label) (scope : List LocalId) : Nat → List Mark
  | 0 => []
  | count + 1 => ⟨first, scope, false⟩ :: caseMarks (first + 1) scope count

theorem mem_caseMarks {first : Label} {cases : List (List Int64 × Block)} {arm : Int64 × Label}
    (member : arm ∈ jumpTable first cases) (scope : List LocalId) :
    ⟨arm.2, scope, false⟩ ∈ caseMarks first scope cases.length := by
  induction cases generalizing first with
  | nil => cases member
  | cons case rest ih =>
    obtain ⟨values, body⟩ := case
    simp only [jumpTable, List.mem_append, List.mem_map] at member
    rcases member with ⟨value, _, rfl⟩ | later
    · exact List.mem_cons_self
    · exact List.mem_cons_of_mem _ (ih later)

/-- Whatever is emitted from the same place on goes together. -/
def Together (pair : Pairing) (needs : Landmarks → Prop) (count : Nat) (scope after : List LocalId)
    (emit emit' : Emit Code) : Prop :=
  ∀ {p p' q q' : Progress} {code code' : Code}, p.Abreast p' → emit p = .ok code q →
    emit' p' = .ok code' q' →
    ∃ h, Emitted pair needs count (count = 0) scope after p p' code code' q q' h

def StmtTogether (pair : Pairing) (scope : List LocalId) (s : Stmt) : Prop :=
  ∀ {needs : Landmarks → Prop} {exits exits' : Exits}, ExitsTwin pair needs scope exits exits' →
    Together pair needs s.suspensions scope (declared s ++ scope)
      (emitStmt pair.method pair.left exits s) (emitStmt pair.method pair.right exits' s)

def BlockTogether (pair : Pairing) (scope : List LocalId) (body : List Stmt) : Prop :=
  ∀ {needs : Landmarks → Prop} {exits exits' : Exits}, ExitsTwin pair needs scope exits exits' →
    Together pair needs (Stmt.suspensionsAll body) scope (Stmt.scopeAfter scope body)
      (emitBlock pair.method pair.left exits body) (emitBlock pair.method pair.right exits' body)

/-- Each case is reached by its label only, and leaves for the label after the switch. -/
def CasesTogether (pair : Pairing) (scope : List LocalId) (cases : List (List Int64 × List Stmt)) :
    Prop :=
  ∀ {needs : Landmarks → Prop} {exits exits' : Exits}, ExitsTwin pair needs scope exits exits' →
    ∀ {breakTo : Label}, (∀ marks, needs marks → marks.Admits scope breakTo) →
    ∀ (label : Label) {p p' q q' : Progress} {code code' : Code}, p.Abreast p' →
    emitCases pair.method pair.left exits breakTo label cases p = .ok code q →
    emitCases pair.method pair.right exits' breakTo label cases p' = .ok code' q' →
    ∃ h, Emitted pair needs (Stmt.suspensionsCases cases) (Stmt.suspensionsCases cases = 0) scope scope
      p p' code code' q q' h ∧ ∀ mark ∈ caseMarks label scope cases.length, mark ∈ h.marks

section
variable {pair : Pairing} {scope : List LocalId}

theorem together_nil : BlockTogether pair scope [] := by
  intro needs exits exits' twin p p' q q' code code' abreast emitted emitted'
  simp only [emitBlock, pure_eq_ok] at emitted emitted'
  obtain ⟨rfl, rfl⟩ := emitted
  obtain ⟨rfl, rfl⟩ := emitted'
  exact ⟨_, (Emitted.plain abreast rfl fun _ _ => .nil (List.Subset.refl _)).recount rfl fun _ => trivial⟩

theorem together_cons {s : Stmt} {rest : List Stmt} (first : StmtTogether pair scope s)
    (others : BlockTogether pair (declared s ++ scope) rest) : BlockTogether pair scope (s :: rest) := by
  intro needs exits exits' twin p p' q q' code code' abreast emitted emitted'
  obtain ⟨_, _, _, emittedFirst, emittedRest, rfl⟩ := emitBlock_cons_eq_ok.mp emitted
  obtain ⟨_, _, _, emittedFirst', emittedRest', rfl⟩ := emitBlock_cons_eq_ok.mp emitted'
  obtain ⟨h, here⟩ := first twin abreast emittedFirst emittedFirst'
  obtain ⟨h', later⟩ := others (twin.refine (List.subset_append_right _ _) fun _ needed => needed)
    here.abreast emittedRest emittedRest'
  exact ⟨h ++ h', (here.append later).recount rfl Nat.add_eq_zero_iff.mp⟩

theorem together_block {body : List Stmt} (block : BlockTogether pair scope body) :
    StmtTogether pair scope (.block body) := by
  intro needs exits exits' twin p p' q q' code code' abreast emitted emitted'
  rw [emitStmt] at emitted emitted'
  obtain ⟨h, inner⟩ := block twin abreast emitted emitted'
  exact ⟨h, inner.narrow (Stmt.subset_scopeAfter scope body)⟩

theorem together_declare {id : LocalId} {init : Option Expr}
    (allowed : ∀ e ∈ init, pair.allows scope e) : StmtTogether pair scope (.declare id init) := by
  intro needs exits exits' twin p p' q q' code code' abreast emitted emitted'
  cases init with
  | none =>
    obtain ⟨t, place, found, placed, rfl, rfl⟩ := emitStmt_declare_none_eq_ok.mp emitted
    obtain ⟨t', place', found', placed', rfl, rfl⟩ := emitStmt_declare_none_eq_ok.mp emitted'
    obtain rfl := Except.ok.inj (found.symm.trans found')
    obtain ⟨e, constant, lowered⟩ := initial_term found
    have terms : pair.Terms scope t t := ⟨e, pair.allows_initial constant, lowered _, lowered _⟩
    exact ⟨_, (Emitted.plain abreast rfl fun _ _ =>
      .declare terms placed placed' (.nil (List.Subset.refl _))).recount rfl fun _ => trivial⟩
  | some init =>
    obtain ⟨t, place, lowered, placed, rfl, rfl⟩ := emitStmt_declare_some_eq_ok.mp emitted
    obtain ⟨t', place', lowered', placed', rfl, rfl⟩ := emitStmt_declare_some_eq_ok.mp emitted'
    have terms : pair.Terms scope t t' := ⟨init, allowed init rfl, lowered, lowered'⟩
    exact ⟨_, (Emitted.plain abreast rfl fun _ _ =>
      .declare terms placed placed' (.nil (List.Subset.refl _))).recount rfl fun _ => trivial⟩

theorem together_eval {value : Expr} (allowed : pair.allows scope value) :
    StmtTogether pair scope (.eval value) := by
  intro needs exits exits' twin p p' q q' code code' abreast emitted emitted'
  obtain ⟨instr, lowered, rfl, rfl⟩ := emitStmt_eval_eq_ok.mp emitted
  obtain ⟨instr', lowered', rfl, rfl⟩ := emitStmt_eval_eq_ok.mp emitted'
  exact ⟨_, (Emitted.plain abreast (labels_effect lowered []) fun _ _ =>
    twin_effect allowed lowered lowered' (.nil (List.Subset.refl _))).recount rfl fun _ => trivial⟩

theorem together_ite_else {cond : Expr} {yes no : List Stmt} (allowed : pair.allows scope cond)
    (yesBlock : BlockTogether pair scope yes) (noBlock : BlockTogether pair scope no) :
    StmtTogether pair scope (.ite cond yes (some no)) := by
  intro needs exits exits' twin p p' q q' code code' abreast emitted emitted'
  obtain ⟨t, yesCode, _, noCode, lowered, emittedYes, emittedNo, rfl⟩ := emitStmt_ite_some_eq_ok.mp emitted
  obtain ⟨t', yesCode', _, noCode', lowered', emittedYes', emittedNo', rfl⟩ :=
    emitStmt_ite_some_eq_ok.mp emitted'
  rw [← abreast.label] at emittedYes' ⊢
  let otherwise : Mark := ⟨p.nextLabel, scope, false⟩
  let done : Mark := ⟨p.nextLabel + 1, scope, false⟩
  let marks := [otherwise, done]
  have reserved : Emitted pair (Also needs marks) _ _ scope scope p p' _ _ _ _ _ :=
    .reserve abreast (p.nextLabel + 2)
  obtain ⟨h, inner⟩ := yesBlock (twin.also marks) reserved.abreast emittedYes emittedYes'
  obtain ⟨h', inner'⟩ := noBlock (twin.also marks) inner.abreast emittedNo emittedNo'
  have test : Emitted pair (Also needs marks) _ _ scope _ _ _ _ _ _ _ _ :=
    .branch reserved.abreast ⟨cond, allowed, lowered, lowered'⟩
      (also_admits otherwise (by simp [marks]) (List.Subset.refl _))
  have out : Emitted pair (Also needs marks) _ _ _ scope _ _ _ _ _ _ _ :=
    .append (.jump inner.abreast (also_admits done (by simp [marks]) (Stmt.subset_scopeAfter scope yes))
        scope)
      (.mark inner.abreast p.nextLabel (List.Subset.refl scope))
  have last : Emitted pair (Also needs marks) _ _ _ scope _ _ _ _ _ _ _ :=
    .mark inner'.abreast (p.nextLabel + 1) (Stmt.subset_scopeAfter scope no)
  have whole := reserved.append (test.append (inner.append (out.append (inner'.append last))))
  exact ⟨_, (whole.settle_marks (by simp [marks, otherwise, done])).recount (by simp [Stmt.suspensions])
    (by simp [Stmt.suspensions])⟩

theorem together_ite {cond : Expr} {yes : List Stmt} (allowed : pair.allows scope cond)
    (yesBlock : BlockTogether pair scope yes) : StmtTogether pair scope (.ite cond yes none) := by
  intro needs exits exits' twin
  simp only [emitStmt_ite_none]
  exact together_ite_else allowed yesBlock together_nil twin

theorem together_while {cond : Expr} {body : List Stmt} (allowed : pair.allows scope cond)
    (block : BlockTogether pair scope body) : StmtTogether pair scope (.whileLoop cond body) := by
  intro needs exits exits' twin p p' q q' code code' abreast emitted emitted'
  obtain ⟨t, bodyCode, lowered, emittedBody, rfl⟩ := emitStmt_whileLoop_eq_ok.mp emitted
  obtain ⟨t', bodyCode', lowered', emittedBody', rfl⟩ := emitStmt_whileLoop_eq_ok.mp emitted'
  rw [← abreast.label] at emittedBody' ⊢
  let top : Mark := ⟨p.nextLabel, scope, false⟩
  let done : Mark := ⟨p.nextLabel + 1, scope, false⟩
  let marks := [top, done]
  have reserved : Emitted pair (Also needs marks) _ _ scope scope p p' _ _ _ _ _ :=
    .reserve abreast (p.nextLabel + 2)
  have exiting := (twin.also marks).loop (also_admits done (by simp [marks]) (List.Subset.refl _))
    (also_admits top (by simp [marks]) (List.Subset.refl _))
  obtain ⟨h, inner⟩ := block exiting reserved.abreast emittedBody emittedBody'
  have test : Emitted pair (Also needs marks) _ _ scope _ _ _ _ _ _ _ _ :=
    .append (.mark reserved.abreast p.nextLabel (List.Subset.refl scope))
      (.branch reserved.abreast ⟨cond, allowed, lowered, lowered'⟩
        (also_admits done (by simp [marks]) (List.Subset.refl _)))
  have out : Emitted pair (Also needs marks) _ _ _ scope _ _ _ _ _ _ _ :=
    .append (.jump inner.abreast (also_admits top (by simp [marks]) (Stmt.subset_scopeAfter scope body))
        scope)
      (.mark inner.abreast (p.nextLabel + 1) (List.Subset.refl scope))
  have whole := reserved.append (test.append (inner.append out))
  exact ⟨_, (whole.settle_marks (by simp [marks, top, done])).recount (by simp [Stmt.suspensions])
    (by simp [Stmt.suspensions])⟩

theorem together_for {init : List Stmt} {cond : Option Expr} {step : List Expr} {body : List Stmt}
    (allowedCond : ∀ e ∈ cond.toList, pair.allows (Stmt.scopeAfter scope init) e)
    (allowedStep : ∀ e ∈ step, pair.allows (Stmt.scopeAfter scope init) e)
    (header : BlockTogether pair scope init)
    (block : BlockTogether pair (Stmt.scopeAfter scope init) body) :
    StmtTogether pair scope (.forLoop init cond step body) := by
  intro needs exits exits' twin p p' q q' code code' abreast emitted emitted'
  obtain ⟨initCode, r, terms, bodyCode, stepCode, emittedInit, lowered, emittedBody, stepped, rfl⟩ :=
    emitStmt_forLoop_eq_ok.mp emitted
  obtain ⟨initCode', r', terms', bodyCode', stepCode', emittedInit', lowered', emittedBody', stepped',
    rfl⟩ := emitStmt_forLoop_eq_ok.mp emitted'
  let inside := Stmt.scopeAfter scope init
  let top : Mark := ⟨r.nextLabel, inside, false⟩
  let again : Mark := ⟨r.nextLabel + 1, inside, false⟩
  let done : Mark := ⟨r.nextLabel + 2, scope, false⟩
  let marks := [top, again, done]
  obtain ⟨h, begun⟩ := header (twin.also marks) abreast emittedInit emittedInit'
  rw [← begun.abreast.label] at emittedBody' ⊢
  have within : scope ⊆ inside := Stmt.subset_scopeAfter scope init
  have exiting := ((twin.also marks).refine within fun _ needed => needed).loop
    (also_admits done (by simp [marks]) within) (also_admits again (by simp [marks]) (List.Subset.refl _))
  have reserved : Emitted pair (Also needs marks) _ _ inside inside r r' _ _ _ _ _ :=
    .reserve begun.abreast (r.nextLabel + 3)
  obtain ⟨h', inner⟩ := block exiting reserved.abreast emittedBody emittedBody'
  have test : Emitted pair (Also needs marks) _ _ inside _ _ _ _ _ _ _ _ :=
    .append (.mark reserved.abreast r.nextLabel (List.Subset.refl inside))
      (.plain reserved.abreast (labels_conditions terms (r.nextLabel + 2)) fun landmarks also =>
        twin_conditions allowedCond lowered lowered'
          (also_admits done (by simp [marks]) within landmarks also))
  have turn : Emitted pair (Also needs marks) _ _ _ scope _ _ _ _ _ _ _ :=
    .append (.mark inner.abreast (r.nextLabel + 1) (Stmt.subset_scopeAfter inside body))
      (.append (.plain inner.abreast (labels_effects stepped) fun _ _ =>
          twin_effects allowedStep stepped stepped')
        (.append (.jump inner.abreast (also_admits top (by simp [marks]) (List.Subset.refl _)) scope)
          (.mark inner.abreast (r.nextLabel + 2) (List.Subset.refl scope))))
  have whole := begun.append (reserved.append (test.append (inner.append turn)))
  simp only [List.append_assoc, List.nil_append, List.cons_append] at whole ⊢
  exact ⟨_, (whole.settle_marks (by simp [marks, top, again, done])).recount
    (by simp [Stmt.suspensions]) (by simp [Stmt.suspensions])⟩

theorem together_no_cases : CasesTogether pair scope [] := by
  intro needs exits exits' twin breakTo leaves label p p' q q' code code' abreast emitted emitted'
  simp only [emitCases, pure_eq_ok] at emitted emitted'
  obtain ⟨rfl, rfl⟩ := emitted
  obtain ⟨rfl, rfl⟩ := emitted'
  exact ⟨_, (Emitted.plain abreast rfl fun _ _ => .nil (List.Subset.refl _)).recount rfl fun _ => trivial,
    by simp [caseMarks]⟩

theorem together_case {values : List Int64} {body : List Stmt} {rest : List (List Int64 × List Stmt)}
    (block : BlockTogether pair scope body) (others : CasesTogether pair scope rest) :
    CasesTogether pair scope ((values, body) :: rest) := by
  intro needs exits exits' twin breakTo leaves label p p' q q' code code' abreast emitted emitted'
  obtain ⟨_, _, _, emittedFirst, emittedRest, rfl⟩ := emitCases_cons_eq_ok.mp emitted
  obtain ⟨_, _, _, emittedFirst', emittedRest', rfl⟩ := emitCases_cons_eq_ok.mp emitted'
  obtain ⟨h, here⟩ := block twin abreast emittedFirst emittedFirst'
  obtain ⟨h', later, placed⟩ := others twin leaves (label + 1) here.abreast emittedRest emittedRest'
  have begun : Emitted pair needs _ _ scope scope p p' _ _ _ _ _ :=
    .mark abreast label (List.Subset.refl scope)
  have out : Emitted pair needs _ _ _ scope _ _ _ _ _ _ _ :=
    .jump here.abreast
      (fun marks needed => (leaves marks needed).mono (Stmt.subset_scopeAfter scope body)) scope
  have whole := begun.append (here.append (out.append later))
  refine ⟨_, whole.recount (by simp [Stmt.suspensionsCases]) ?_, ?_⟩
  · intro none
    simp only [Stmt.suspensionsCases] at none
    exact ⟨trivial, by omega, trivial, by omega⟩
  · refine List.forall_mem_cons.mpr ⟨by simp, fun mark member => ?_⟩
    simp [placed mark member]

theorem together_switch {scrutinee : Expr} {cases : List (List Int64 × List Stmt)}
    (allowed : pair.allows scope scrutinee) (arms : CasesTogether pair scope cases) :
    StmtTogether pair scope (.switch scrutinee cases none) := by
  intro needs exits exits' twin p p' q q' code code' abreast emitted emitted'
  obtain ⟨t, armCode, lowered, emittedArms, rfl⟩ := emitStmt_switch_none_eq_ok.mp emitted
  obtain ⟨t', armCode', lowered', emittedArms', rfl⟩ := emitStmt_switch_none_eq_ok.mp emitted'
  rw [← abreast.label] at emittedArms' ⊢
  let done : Mark := ⟨p.nextLabel, scope, false⟩
  let marks := done :: caseMarks (p.nextLabel + 1) scope cases.length
  have leaves : ∀ landmarks, Also needs marks landmarks → landmarks.Admits scope p.nextLabel :=
    also_admits done List.mem_cons_self (List.Subset.refl _)
  have reserved : Emitted pair (Also needs marks) _ _ scope scope p p' _ _ _ _ _ :=
    .reserve abreast (p.nextLabel + 1 + cases.length)
  obtain ⟨h, inner, placed⟩ := arms ((twin.also marks).switch leaves) leaves (p.nextLabel + 1)
    reserved.abreast emittedArms emittedArms'
  have test : Emitted pair (Also needs marks) _ _ scope scope _ _ _ _ _ _ _ :=
    .plain reserved.abreast rfl fun landmarks also => .switch ⟨scrutinee, allowed, lowered, lowered'⟩
      (leaves landmarks also) (fun arm member => also_admits ⟨arm.2, scope, false⟩
        (List.mem_cons_of_mem _ (mem_caseMarks member scope)) (List.Subset.refl _) landmarks also)
      (.nil (List.Subset.refl _))
  have last : Emitted pair (Also needs marks) _ _ _ scope _ _ _ _ _ _ _ :=
    .mark inner.abreast p.nextLabel (List.Subset.refl scope)
  have whole := reserved.append (test.append (inner.append last))
  refine ⟨_, (whole.settle_marks ?_).recount (by simp [Stmt.suspensions]) (by simp [Stmt.suspensions])⟩
  refine List.forall_mem_cons.mpr ⟨by simp [done], fun mark member => ?_⟩
  simp [placed mark member]

theorem together_switch_default {scrutinee : Expr} {cases : List (List Int64 × List Stmt)}
    {default : List Stmt} (allowed : pair.allows scope scrutinee) (arms : CasesTogether pair scope cases)
    (block : BlockTogether pair scope default) :
    StmtTogether pair scope (.switch scrutinee cases (some default)) := by
  intro needs exits exits' twin p p' q q' code code' abreast emitted emitted'
  obtain ⟨t, armCode, _, defaultCode, lowered, emittedArms, emittedDefault, rfl⟩ :=
    emitStmt_switch_some_eq_ok.mp emitted
  obtain ⟨t', armCode', _, defaultCode', lowered', emittedArms', emittedDefault', rfl⟩ :=
    emitStmt_switch_some_eq_ok.mp emitted'
  rw [← abreast.label] at emittedArms' emittedDefault' ⊢
  let done : Mark := ⟨p.nextLabel, scope, false⟩
  let otherwise : Mark := ⟨p.nextLabel + 1 + cases.length, scope, false⟩
  let marks := done :: otherwise :: caseMarks (p.nextLabel + 1) scope cases.length
  have leaves : ∀ landmarks, Also needs marks landmarks → landmarks.Admits scope p.nextLabel :=
    also_admits done List.mem_cons_self (List.Subset.refl _)
  have reserved : Emitted pair (Also needs marks) _ _ scope scope p p' _ _ _ _ _ :=
    .reserve abreast (p.nextLabel + 1 + cases.length + 1)
  obtain ⟨h, inner, placed⟩ := arms ((twin.also marks).switch leaves) leaves (p.nextLabel + 1)
    reserved.abreast emittedArms emittedArms'
  obtain ⟨h', inner'⟩ := block ((twin.also marks).switch leaves) inner.abreast emittedDefault
    emittedDefault'
  have test : Emitted pair (Also needs marks) _ _ scope scope _ _ _ _ _ _ _ :=
    .plain reserved.abreast rfl fun landmarks also => .switch ⟨scrutinee, allowed, lowered, lowered'⟩
      (also_admits otherwise (by simp [marks]) (List.Subset.refl _) landmarks also)
      (fun arm member => also_admits ⟨arm.2, scope, false⟩ (List.mem_cons_of_mem _
        (List.mem_cons_of_mem _ (mem_caseMarks member scope))) (List.Subset.refl _) landmarks also)
      (.nil (List.Subset.refl _))
  have between : Emitted pair (Also needs marks) _ _ _ scope _ _ _ _ _ _ _ :=
    .mark inner.abreast (p.nextLabel + 1 + cases.length) (List.Subset.refl scope)
  have last : Emitted pair (Also needs marks) _ _ _ scope _ _ _ _ _ _ _ :=
    .mark inner'.abreast p.nextLabel (Stmt.subset_scopeAfter scope default)
  have whole := reserved.append (test.append (inner.append (between.append (inner'.append last))))
  refine ⟨_, (whole.settle_marks ?_).recount (by simp [Stmt.suspensions]) (by simp [Stmt.suspensions])⟩
  refine List.forall_mem_cons.mpr ⟨by simp [done], List.forall_mem_cons.mpr ⟨by simp [otherwise],
    fun mark member => ?_⟩⟩
  simp [placed mark member]

/-- A region that suspends: its cleanup goes together as a routine, which both then call. -/
theorem together_try_called {body cleanup : List Stmt} (suspends : Block.suspends body)
    (calm : Stmt.suspensionsAll cleanup = 0) (kept : ∀ id ∈ scope, pair.keeps id)
    (inner : BlockTogether pair scope body) (cleaning : BlockTogether pair scope cleanup) :
    StmtTogether pair scope (.tryFinally body cleanup) := by
  intro needs exits exits' twin p p' q q' code code' abreast emitted emitted'
  obtain ⟨name, cleanupCode, r, routine, bodyCode, named, emittedCleanup, flat, emittedBody, rfl⟩ :=
    (emitStmt_tryFinally_eq_ok_of_suspends suspends).mp emitted
  obtain ⟨name', cleanupCode', r', routine', bodyCode', named', emittedCleanup', flat', emittedBody', rfl⟩ :=
    (emitStmt_tryFinally_eq_ok_of_suspends suspends).mp emitted'
  have started : Progress.Abreast { p with names := (p.names.fresh NameSupply.cleanupBase).2 }
    { p' with names := (p'.names.fresh NameSupply.cleanupBase).2 } := ⟨abreast.label, abreast.points⟩
  have closed : ExitsTwin pair (fun _ => True) scope (.sealed pair.method []) (.sealed pair.method []) :=
    .sealed pair.method scope fun _ _ => .nil
  obtain ⟨h, cleans⟩ := cleaning closed started emittedCleanup emittedCleanup'
  have once := (laid_block pair.method pair.left cleanup (Exits.tidy_sealed pair.method [])
    emittedCleanup).once
  let known : Landmarks → Prop := fun marks => needs marks ∧ marks.called name name'
  have registered : Emitted pair known _ _ scope scope p p' _ _ _ _ _ :=
    cleans.register calm kept once name name' flat flat'
  have calls : CleanupTwin pair known scope (pure [callCleanup name]) (pure [callCleanup name']) := by
    intro r r' t t' code code' abreast emitted emitted'
    obtain ⟨rfl, rfl⟩ := pure_eq_ok.mp emitted
    obtain ⟨rfl, rfl⟩ := pure_eq_ok.mp emitted'
    exact ⟨scope, _, List.Subset.refl _, .call abreast (fun _ needed => needed.2) (List.Subset.refl _) kept⟩
  have guarded := (twin.refine (List.Subset.refl _) fun _ needed => needed.1).guarded calls
  have inside := guarded.enter fun marks needed => .cons needed.2 (twin.chain marks needed.1)
  obtain ⟨h', within⟩ := inner inside registered.abreast emittedBody emittedBody'
  have last : Emitted pair known _ _ (Stmt.scopeAfter scope body) scope _ _ _ _ _ _ _ :=
    .call within.abreast (fun _ needed => needed.2) (Stmt.subset_scopeAfter scope body) kept
  have whole := registered.append (within.append last)
  have settled : Emitted pair needs _ _ scope _ p p' _ _ _ _ _ :=
    whole.settle fun _ needed cover => ⟨needed, cover.called _ List.mem_cons_self⟩
  refine ⟨_, settled.recount (by simp [Stmt.suspensions, calm]) fun none => ?_⟩
  have := suspends_iff.mp suspends
  simp only [Stmt.suspensions] at none
  omega

/-- Any other region: its cleanup goes together wherever it is repeated. -/
theorem together_try_repeated {body cleanup : List Stmt} (never : ¬Block.suspends body)
    (calm : Stmt.suspensionsAll cleanup = 0) (inner : BlockTogether pair scope body)
    (cleaning : BlockTogether pair scope cleanup) :
    StmtTogether pair scope (.tryFinally body cleanup) := by
  intro needs exits exits' twin p p' q q' code code' abreast emitted emitted'
  obtain ⟨bodyCode, _, last, emittedBody, emittedLast, rfl⟩ :=
    (emitStmt_tryFinally_eq_ok_of_not_suspends never).mp emitted
  obtain ⟨bodyCode', _, last', emittedBody', emittedLast', rfl⟩ :=
    (emitStmt_tryFinally_eq_ok_of_not_suspends never).mp emitted'
  have repeated : CleanupTwin pair needs scope
      (emitBlock pair.method pair.left (.sealed pair.method exits.cleanups) cleanup)
      (emitBlock pair.method pair.right (.sealed pair.method exits'.cleanups) cleanup) := by
    intro r r' t t' code code' abreast emitted emitted'
    obtain ⟨h, cleans⟩ := cleaning (.sealed pair.method scope twin.chain) abreast emitted emitted'
    exact ⟨_, h, Stmt.subset_scopeAfter scope cleanup, cleans.recount calm fun _ => calm⟩
  obtain ⟨h, inside⟩ := inner (twin.guarded repeated) abreast emittedBody emittedBody'
  obtain ⟨after, h', within, again⟩ := repeated _ _ _ _ _ _ inside.abreast emittedLast emittedLast'
  have whole := inside.append (again.refine (Stmt.subset_scopeAfter scope body) fun _ needed => needed)
  exact ⟨_, (whole.narrow within).recount (by simp [Stmt.suspensions, calm])
    fun none => ⟨by simp only [Stmt.suspensions] at none; omega, trivial⟩⟩

theorem together_yield {value : Expr} (allowed : pair.allows scope value)
    (kept : ∀ id ∈ scope, pair.keeps id) : StmtTogether pair scope (.yield value) := by
  intro needs exits exits' twin p p' q q' code code' abreast emitted emitted'
  obtain ⟨t, lowered, rfl, rfl⟩ := emitStmt_yield_eq_ok.mp emitted
  obtain ⟨t', lowered', rfl, rfl⟩ := emitStmt_yield_eq_ok.mp emitted'
  exact ⟨_, Emitted.pause abreast ⟨value, allowed, lowered, lowered'⟩ kept twin.chain⟩

theorem together_exit {needs : Landmarks → Prop} {exit exit' : Exit}
    (twin : ExitTwin pair needs scope exit exit') :
    Together pair needs 0 scope scope exit.take exit'.take := by
  intro p p' q q' code code' abreast taken taken'
  obtain ⟨h, emitted⟩ := twin p p' q q' code code' abreast taken taken' scope
  exact ⟨h, emitted.recount rfl fun _ => trivial⟩

theorem together_break : StmtTogether pair scope .breakOut := by
  intro needs exits exits' twin
  simp only [emitStmt]
  exact together_exit twin.onBreak

theorem together_continue : StmtTogether pair scope .continueLoop := by
  intro needs exits exits' twin
  simp only [emitStmt]
  exact together_exit twin.onContinue

theorem together_stop : StmtTogether pair scope .stop := by
  intro needs exits exits' twin
  simp only [emitStmt]
  exact together_exit twin.onStop

theorem together_foreach {id : LocalId} {collection : Expr} {body : List Stmt} :
    StmtTogether pair scope (.foreach id collection body) := by
  intro needs exits exits' twin p p' q q' code code' abreast emitted
  exact absurd emitted emitStmt_foreach_ne_ok

end

mutual
/-- The code of a statement that fits goes together for the two shapes. -/
theorem stmtTogether (pair : Pairing) : (s : Stmt) → {scope : List LocalId} → Fits pair scope s →
    StmtTogether pair scope s
  | .block body, _, fits => together_block (blockTogether pair body fits)
  | .declare _ none, _, _ => together_declare (by simp)
  | .declare _ (some _), _, fits => together_declare fun _ given => Option.some.inj given ▸ fits
  | .eval _, _, fits => together_eval fits
  | .ite _ yes none, _, fits => together_ite fits.1 (blockTogether pair yes fits.2)
  | .ite _ yes (some no), _, fits =>
    together_ite_else fits.1 (blockTogether pair yes fits.2.1) (blockTogether pair no fits.2.2)
  | .whileLoop _ body, _, fits => together_while fits.1 (blockTogether pair body fits.2)
  | .forLoop init _ _ body, _, fits => by
    obtain ⟨fitsInit, fitsCond, fitsStep, fitsBody⟩ := fits
    exact together_for fitsCond fitsStep (blockTogether pair init fitsInit)
      (blockTogether pair body fitsBody)
  | .foreach _ _ _, _, _ => together_foreach
  | .switch _ cases none, _, fits => together_switch fits.1 (casesTogether pair cases fits.2)
  | .switch _ cases (some default), _, fits =>
    together_switch_default fits.1 (casesTogether pair cases fits.2.1)
      (blockTogether pair default fits.2.2)
  | .tryFinally body cleanup, _, fits => by
    obtain ⟨fitsBody, fitsCleanup, calm, kept⟩ := fits
    by_cases suspends : Block.suspends body
    · exact together_try_called suspends calm (kept (suspends_iff.mp suspends))
        (blockTogether pair body fitsBody) (blockTogether pair cleanup fitsCleanup)
    · exact together_try_repeated suspends calm (blockTogether pair body fitsBody)
        (blockTogether pair cleanup fitsCleanup)
  | .breakOut, _, _ => together_break
  | .continueLoop, _, _ => together_continue
  | .yield _, _, fits => together_yield fits.1 fits.2
  | .stop, _, _ => together_stop

theorem blockTogether (pair : Pairing) : (body : List Stmt) → {scope : List LocalId} →
    FitsAll pair scope body → BlockTogether pair scope body
  | [], _, _ => together_nil
  | s :: rest, _, fits => together_cons (stmtTogether pair s fits.1) (blockTogether pair rest fits.2)

theorem casesTogether (pair : Pairing) : (cases : List (List Int64 × List Stmt)) →
    {scope : List LocalId} → FitsCases pair scope cases → CasesTogether pair scope cases
  | [], _, _ => together_no_cases
  | (_, body) :: rest, _, fits =>
    together_case (blockTogether pair body fits.1) (casesTogether pair rest fits.2)
end

end Resumable.Lowering
