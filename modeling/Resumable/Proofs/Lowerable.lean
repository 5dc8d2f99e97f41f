import Resumable.Proofs.Emittable
import Resumable.Proofs.Fitting

/-!
When a lowering succeeds. The check leaves one thing to chance: whether the machine can use the
types of the method. If it can, every step after the check returns a result.
-/

namespace Resumable

/-- The variable has a type that the machine can use. -/
def Method.Usable (method : Method) (var : Var) : Prop :=
  ∃ ty ty', method.varType? var = some ty ∧ Lowering.rebind method.typeParams ty = .ok ty'

/-- Types that a lowering moves into the machine can be moved there. -/
structure Method.Movable (method : Method) : Prop where
  element : ∃ ty ty', Lowering.elementType method = .ok ty ∧
    Lowering.rebind method.typeParams ty = .ok ty'
  receiver : method.receiver.isSome → method.Usable .receiver
  params : ∀ index < method.params.length, method.Usable (.param index)
  declared : ∀ s ∈ method.body.preorder, ∀ id ∈ Lowering.declared s, method.Usable (.loc id)
  used : ∀ s ∈ method.body.preorder, ∀ e ∈ s.exprs, ∀ id, .loc id ∈ e.vars → method.Usable (.loc id)

mutual
theorem Expr.targets_subset_vars : (e : Expr) → e.targets ⊆ e.vars
  | .int _ | .bool _ | .str _ | .null | .var _ => List.nil_subset _
  | .assign target value => by
    have inner := targets_subset_vars value
    simp only [targets, subexprs, List.filterMap_cons, target?, vars] at inner ⊢
    exact List.cons_subset_cons target inner
  | .unary _ operand => targets_subset_vars operand
  | .binary _ left right => by
    have inner := targets_subset_vars left
    have inner' := targets_subset_vars right
    simp only [targets, subexprs, List.filterMap_cons, target?, List.filterMap_append, vars] at inner inner' ⊢
    exact List.append_subset.mpr ⟨List.Subset.trans inner (List.subset_append_left _ _),
      List.Subset.trans inner' (List.subset_append_right _ _)⟩
  | .array items => targetsAll_subset_vars items
  | .index base position => by
    have inner := targets_subset_vars base
    have inner' := targets_subset_vars position
    simp only [targets, subexprs, List.filterMap_cons, target?, List.filterMap_append, vars] at inner inner' ⊢
    exact List.append_subset.mpr ⟨List.Subset.trans inner (List.subset_append_left _ _),
      List.Subset.trans inner' (List.subset_append_right _ _)⟩
  | .len base => targets_subset_vars base
  | .call _ args => targetsAll_subset_vars args

theorem Expr.targetsAll_subset_vars : (es : List Expr) →
    (Expr.subexprsAll es).filterMap Expr.target? ⊆ Expr.varsAll es
  | [] => List.Subset.refl _
  | e :: rest => by
    have inner := targets_subset_vars e
    have inner' := targetsAll_subset_vars rest
    simp only [targets, subexprsAll, List.filterMap_append, varsAll] at inner ⊢
    exact List.append_subset.mpr ⟨List.Subset.trans inner (List.subset_append_left _ _),
      List.Subset.trans inner' (List.subset_append_right _ _)⟩
end

namespace Lowering
open Machine (Code Field FieldId)

/-- What the check knows of the parts of a statement that are no statements. -/
structure Passes (method : Method) (s : Stmt) : Prop where
  declared : ∀ id ∈ declared s, (method.varType? (.loc id)).isSome
  exprs : ∀ e ∈ s.exprs, checkExpr method e = .ok ()

theorem checkExprs_of_mem {method : Method} {es : List Expr} (passed : checkExprs method es = .ok ()) :
    ∀ e ∈ es, checkExpr method e = .ok () := by
  induction es with
  | nil => nofun
  | cons e rest ih =>
    simp only [checkExprs, check_bind] at passed
    exact List.forall_mem_cons.mpr ⟨passed.1, ih passed.2⟩

mutual
/-- The check reaches every statement. -/
theorem passes_stmt {method : Method} : (s : Stmt) → {around : Surroundings} →
    checkStmt method around s = .ok () → ∀ t ∈ s.preorder fun _ => false, Passes method t
  | .block body, around, passed => by
    simp only [Stmt.preorder, Bool.false_eq_true, if_false, List.forall_mem_cons]
    exact ⟨⟨nofun, nofun⟩, passes_block body passed⟩
  | .declare id init, around, passed => by
    simp only [checkStmt, check_bind] at passed
    refine List.forall_mem_cons.mpr ⟨⟨?_, checkExprs_of_mem passed.2⟩, nofun⟩
    exact List.forall_mem_cons.mpr ⟨checkVar_eq_ok.mp passed.1, nofun⟩
  | .eval value, around, passed =>
    List.forall_mem_cons.mpr ⟨⟨nofun, List.forall_mem_cons.mpr ⟨passed, nofun⟩⟩, nofun⟩
  | .ite cond yes none, around, passed => by
    simp only [checkStmt, check_bind] at passed
    simp only [Stmt.preorder, Bool.false_eq_true, if_false, List.forall_mem_cons]
    exact ⟨⟨nofun, List.forall_mem_cons.mpr ⟨passed.1, nofun⟩⟩, passes_block yes passed.2⟩
  | .ite cond yes (some no), around, passed => by
    simp only [checkStmt, check_bind] at passed
    simp only [Stmt.preorder, Bool.false_eq_true, if_false, List.forall_mem_cons, List.forall_mem_append]
    exact ⟨⟨nofun, List.forall_mem_cons.mpr ⟨passed.1, nofun⟩⟩, passes_block yes passed.2.1,
      passes_block no passed.2.2⟩
  | .whileLoop cond body, around, passed => by
    simp only [checkStmt, check_bind] at passed
    simp only [Stmt.preorder, Bool.false_eq_true, if_false, List.forall_mem_cons]
    exact ⟨⟨nofun, List.forall_mem_cons.mpr ⟨passed.1, nofun⟩⟩, passes_block body passed.2⟩
  | .forLoop init cond step body, around, passed => by
    simp only [checkStmt, check_bind] at passed
    obtain ⟨passedInit, passedCond, passedStep, passedBody⟩ := passed
    simp only [Stmt.preorder, Bool.false_eq_true, if_false, List.forall_mem_cons, List.forall_mem_append]
    exact ⟨⟨nofun, List.forall_mem_append.mpr ⟨checkExprs_of_mem passedCond, checkExprs_of_mem passedStep⟩⟩,
      passes_block init passedInit, passes_block body passedBody⟩
  | .foreach id collection body, around, passed => by
    simp only [checkStmt, check_bind] at passed
    simp only [Stmt.preorder, Bool.false_eq_true, if_false, List.forall_mem_cons]
    exact ⟨⟨nofun, List.forall_mem_cons.mpr ⟨passed.2.1, nofun⟩⟩, passes_block body passed.2.2⟩
  | .switch scrutinee cases none, around, passed => by
    simp only [checkStmt, check_bind] at passed
    simp only [Stmt.preorder, Bool.false_eq_true, if_false, List.forall_mem_cons]
    exact ⟨⟨nofun, List.forall_mem_cons.mpr ⟨passed.1, nofun⟩⟩, passes_cases cases passed.2⟩
  | .switch scrutinee cases (some default), around, passed => by
    simp only [checkStmt, check_bind] at passed
    simp only [Stmt.preorder, Bool.false_eq_true, if_false, List.forall_mem_cons, List.forall_mem_append]
    exact ⟨⟨nofun, List.forall_mem_cons.mpr ⟨passed.1, nofun⟩⟩, passes_cases cases passed.2.1,
      passes_block default passed.2.2⟩
  | .tryFinally body cleanup, around, passed => by
    simp only [checkStmt, check_bind] at passed
    simp only [Stmt.preorder, Bool.false_eq_true, if_false, List.forall_mem_cons, List.forall_mem_append]
    exact ⟨⟨nofun, nofun⟩, passes_block body passed.1, passes_block cleanup passed.2⟩
  | .yield value, around, passed => by
    simp only [checkStmt] at passed
    split at passed
    · cases passed
    · exact List.forall_mem_cons.mpr ⟨⟨nofun, List.forall_mem_cons.mpr ⟨passed, nofun⟩⟩, nofun⟩
  | .breakOut, _, _ | .continueLoop, _, _ | .stop, _, _ =>
    List.forall_mem_cons.mpr ⟨⟨nofun, nofun⟩, nofun⟩

theorem passes_block {method : Method} : (body : List Stmt) → {around : Surroundings} →
    checkBlock method around body = .ok () →
    ∀ t ∈ Stmt.preorderAll (fun _ => false) body, Passes method t
  | [], _, _ => nofun
  | s :: rest, around, passed => by
    simp only [checkBlock, check_bind] at passed
    exact List.forall_mem_append.mpr ⟨passes_stmt s passed.1, passes_block rest passed.2⟩

theorem passes_cases {method : Method} : (cases : List (List Int64 × List Stmt)) →
    {around : Surroundings} → checkCases method around cases = .ok () →
    ∀ t ∈ Stmt.preorderCases (fun _ => false) cases, Passes method t
  | [], _, _ => nofun
  | (_, body) :: rest, around, passed => by
    simp only [checkCases, check_bind] at passed
    exact List.forall_mem_append.mpr ⟨passes_block body passed.1, passes_cases rest passed.2⟩
end

/-- The statement is no foreach loop. -/
def Expanded (s : Stmt) : Prop := ∀ id collection body, s ≠ .foreach id collection body

mutual
theorem expanded_counted : (s : Stmt) → (next : LocalId) →
    ∀ t ∈ (s.counted next).preorder fun _ => false, Expanded t
  | .block body, next => by
    simp only [Stmt.counted, Stmt.preorder, Bool.false_eq_true, if_false, List.forall_mem_cons]
    exact ⟨nofun, expanded_countedAll body next⟩
  | .ite cond yes none, next => by
    simp only [Stmt.counted, Stmt.preorder, Bool.false_eq_true, if_false, List.forall_mem_cons]
    exact ⟨nofun, expanded_countedAll yes next⟩
  | .ite cond yes (some no), next => by
    simp only [Stmt.counted, Stmt.preorder, Bool.false_eq_true, if_false, List.forall_mem_cons,
      List.forall_mem_append]
    exact ⟨nofun, expanded_countedAll yes next, expanded_countedAll no _⟩
  | .whileLoop cond body, next => by
    simp only [Stmt.counted, Stmt.preorder, Bool.false_eq_true, if_false, List.forall_mem_cons]
    exact ⟨nofun, expanded_countedAll body next⟩
  | .forLoop init cond step body, next => by
    simp only [Stmt.counted, Stmt.preorder, Bool.false_eq_true, if_false, List.forall_mem_cons,
      List.forall_mem_append]
    exact ⟨nofun, expanded_countedAll init next, expanded_countedAll body _⟩
  | .foreach id collection body, next => by
    simp only [Stmt.counted, countingLoop, Stmt.preorder, Stmt.preorderAll, Bool.false_eq_true, if_false,
      List.forall_mem_cons, List.forall_mem_append, List.append_nil]
    exact ⟨nofun, ⟨nofun, nofun⟩, nofun, ⟨⟨nofun, nofun⟩, ⟨nofun, nofun⟩, nofun,
      expanded_countedAll body _⟩⟩
  | .switch scrutinee cases none, next => by
    simp only [Stmt.counted, Stmt.preorder, Bool.false_eq_true, if_false, List.forall_mem_cons]
    exact ⟨nofun, expanded_countedCases cases next⟩
  | .switch scrutinee cases (some default), next => by
    simp only [Stmt.counted, Stmt.preorder, Bool.false_eq_true, if_false, List.forall_mem_cons,
      List.forall_mem_append]
    exact ⟨nofun, expanded_countedCases cases next, expanded_countedAll default _⟩
  | .tryFinally body cleanup, next => by
    simp only [Stmt.counted, Stmt.preorder, Bool.false_eq_true, if_false, List.forall_mem_cons,
      List.forall_mem_append]
    exact ⟨nofun, expanded_countedAll body next, expanded_countedAll cleanup _⟩
  | .declare _ _, _ | .eval _, _ | .breakOut, _ | .continueLoop, _ | .yield _, _ | .stop, _ =>
    List.forall_mem_cons.mpr ⟨nofun, nofun⟩

theorem expanded_countedAll : (body : List Stmt) → (next : LocalId) →
    ∀ t ∈ Stmt.preorderAll (fun _ => false) (Stmt.countedAll next body), Expanded t
  | [], _ => nofun
  | s :: rest, next => List.forall_mem_append.mpr ⟨expanded_counted s next, expanded_countedAll rest _⟩

theorem expanded_countedCases : (cases : List (List Int64 × List Stmt)) → (next : LocalId) →
    ∀ t ∈ Stmt.preorderCases (fun _ => false) (Stmt.countedCases next cases), Expanded t
  | [], _ => nofun
  | (_, body) :: rest, next =>
    List.forall_mem_append.mpr ⟨expanded_countedAll body next, expanded_countedCases rest _⟩
end

/-- No expression of the statement itself assigns the variable. -/
def Spares (var : Var) (s : Stmt) : Prop := ∀ e ∈ s.exprs, var ∉ e.targets

mutual
/-- Counting loops assign none but their own locals. -/
theorem spares_counted {var : Var} (input : ∀ id, var ≠ .loc id) : (s : Stmt) → (next : LocalId) →
    ((∀ t ∈ (s.counted next).preorder fun _ => false, Spares var t) ↔
      ∀ t ∈ s.preorder fun _ => false, Spares var t)
  | .block body, next => by
    simp only [Stmt.counted, Stmt.preorder, Bool.false_eq_true, if_false, List.forall_mem_cons]
    exact and_congr .rfl (spares_countedAll input body next)
  | .ite cond yes none, next => by
    simp only [Stmt.counted, Stmt.preorder, Bool.false_eq_true, if_false, List.forall_mem_cons]
    exact and_congr .rfl (spares_countedAll input yes next)
  | .ite cond yes (some no), next => by
    simp only [Stmt.counted, Stmt.preorder, Bool.false_eq_true, if_false, List.forall_mem_cons,
      List.forall_mem_append]
    exact and_congr .rfl (and_congr (spares_countedAll input yes next) (spares_countedAll input no _))
  | .whileLoop cond body, next => by
    simp only [Stmt.counted, Stmt.preorder, Bool.false_eq_true, if_false, List.forall_mem_cons]
    exact and_congr .rfl (spares_countedAll input body next)
  | .forLoop init cond step body, next => by
    simp only [Stmt.counted, Stmt.preorder, Bool.false_eq_true, if_false, List.forall_mem_cons,
      List.forall_mem_append]
    exact and_congr .rfl (and_congr (spares_countedAll input init next) (spares_countedAll input body _))
  | .foreach id collection body, next => by
    have counts : Spares var (.forLoop [.declare (next + 1) (some (.int 0))]
        (some (.binary .lt (.ofLocal (next + 1)) (.len (.ofLocal next))))
        [.assign (.loc (next + 1)) (.binary .add (.ofLocal (next + 1)) (.int 1))]
        [.declare id (some (.index (.ofLocal next) (.ofLocal (next + 1)))),
          .block (Stmt.countedAll (next + 2) body)]) := by
      simpa [Spares, Stmt.exprs, Expr.targets, Expr.subexprs, Expr.target?, Expr.ofLocal] using
        (input (next + 1)).symm
    have evaluates : Spares var (.declare next (some collection)) ↔
        Spares var (.foreach id collection body) := .rfl
    have inner := spares_countedAll input body (next + 2)
    simp only [Stmt.counted, countingLoop, Stmt.preorder, Stmt.preorderAll, Bool.false_eq_true, if_false,
      List.forall_mem_cons, List.forall_mem_append, List.append_nil, counts, evaluates, inner]
    simp [Spares, Stmt.exprs, Expr.targets, Expr.subexprs, Expr.target?, Expr.ofLocal]
  | .switch scrutinee cases none, next => by
    simp only [Stmt.counted, Stmt.preorder, Bool.false_eq_true, if_false, List.forall_mem_cons]
    exact and_congr .rfl (spares_countedCases input cases next)
  | .switch scrutinee cases (some default), next => by
    simp only [Stmt.counted, Stmt.preorder, Bool.false_eq_true, if_false, List.forall_mem_cons,
      List.forall_mem_append]
    exact and_congr .rfl
      (and_congr (spares_countedCases input cases next) (spares_countedAll input default _))
  | .tryFinally body cleanup, next => by
    simp only [Stmt.counted, Stmt.preorder, Bool.false_eq_true, if_false, List.forall_mem_cons,
      List.forall_mem_append]
    exact and_congr .rfl
      (and_congr (spares_countedAll input body next) (spares_countedAll input cleanup _))
  | .declare _ _, _ | .eval _, _ | .breakOut, _ | .continueLoop, _ | .yield _, _ | .stop, _ => .rfl

theorem spares_countedAll {var : Var} (input : ∀ id, var ≠ .loc id) : (body : List Stmt) →
    (next : LocalId) →
    ((∀ t ∈ Stmt.preorderAll (fun _ => false) (Stmt.countedAll next body), Spares var t) ↔
      ∀ t ∈ Stmt.preorderAll (fun _ => false) body, Spares var t)
  | [], _ => .rfl
  | s :: rest, next => by
    simp only [Stmt.countedAll, Stmt.preorderAll, List.forall_mem_append]
    exact and_congr (spares_counted input s next) (spares_countedAll input rest _)

theorem spares_countedCases {var : Var} (input : ∀ id, var ≠ .loc id) :
    (cases : List (List Int64 × List Stmt)) → (next : LocalId) →
    ((∀ t ∈ Stmt.preorderCases (fun _ => false) (Stmt.countedCases next cases), Spares var t) ↔
      ∀ t ∈ Stmt.preorderCases (fun _ => false) cases, Spares var t)
  | [], _ => .rfl
  | (_, body) :: rest, next => by
    simp only [Stmt.countedCases, Stmt.preorderCases, List.forall_mem_append]
    exact and_congr (spares_countedAll input body next) (spares_countedCases input rest _)
end

/-- The receiver and the parameters are assigned by the same expressions as before. -/
theorem mem_assignedVars_expanded {method expanded : Method} (expands : expandForeach method = .ok expanded)
    {var : Var} (input : ∀ id, var ≠ .loc id) :
    var ∈ expanded.body.assignedVars ↔ var ∈ method.body.assignedVars := by
  obtain ⟨_, rfl, _⟩ := expandForeach_spec expands
  have unassigned (body : Block) : var ∉ body.assignedVars ↔ ∀ t ∈ body.preorder, Spares var t := by
    simp only [Block.mem_assignedVars, Spares, not_exists, not_and]
  apply not_iff_not.mp
  rw [unassigned, unassigned]
  exact spares_countedAll input _ _

theorem assignedVars_expanded {method expanded : Method} (expands : expandForeach method = .ok expanded)
    {var : Var} (input : ∀ id, var ≠ .loc id) (assigned : var ∈ expanded.body.assignedVars) :
    var ∈ method.body.assignedVars :=
  (mem_assignedVars_expanded expands input).mp assigned

mutual
/-- Without foreach loops, only declared locals move into fields. -/
theorem hoistedStmt_declared {known : LocalId → Prop} (policy : HoistPolicy) : (s : Stmt) →
    (∀ t ∈ s.preorder fun _ => false, Expanded t ∧ ∀ id ∈ declared t, known id) →
    ∀ id ∈ hoistedStmt policy s, known id
  | .block body, all => by
    simp only [Stmt.preorder, Bool.false_eq_true, if_false, List.forall_mem_cons] at all
    exact hoistedScope_declared policy _ body all.2
  | .ite _ yes none, all => by
    simp only [Stmt.preorder, Bool.false_eq_true, if_false, List.forall_mem_cons] at all
    exact hoistedScope_declared policy _ yes all.2
  | .ite _ yes (some no), all => by
    simp only [Stmt.preorder, Bool.false_eq_true, if_false, List.forall_mem_cons,
      List.forall_mem_append] at all
    exact List.forall_mem_append.mpr ⟨hoistedScope_declared policy _ yes all.2.1,
      hoistedScope_declared policy _ no all.2.2⟩
  | .whileLoop _ body, all => by
    simp only [Stmt.preorder, Bool.false_eq_true, if_false, List.forall_mem_cons] at all
    exact hoistedScope_declared policy _ body all.2
  | .forLoop init _ _ body, all => by
    simp only [Stmt.preorder, Bool.false_eq_true, if_false, List.forall_mem_cons,
      List.forall_mem_append] at all
    exact List.forall_mem_append.mpr ⟨hoistedScope_declared policy _ init all.2.1,
      hoistedScope_declared policy _ body all.2.2⟩
  | .foreach id collection body, all => absurd rfl ((all _ List.mem_cons_self).1 id collection body)
  | .switch _ cases none, all => by
    simp only [Stmt.preorder, Bool.false_eq_true, if_false, List.forall_mem_cons] at all
    exact hoistedCases_declared policy cases all.2
  | .switch _ cases (some default), all => by
    simp only [Stmt.preorder, Bool.false_eq_true, if_false, List.forall_mem_cons,
      List.forall_mem_append] at all
    exact List.forall_mem_append.mpr ⟨hoistedCases_declared policy cases all.2.1,
      hoistedScope_declared policy _ default all.2.2⟩
  | .tryFinally body cleanup, all => by
    simp only [Stmt.preorder, Bool.false_eq_true, if_false, List.forall_mem_cons,
      List.forall_mem_append] at all
    exact List.forall_mem_append.mpr ⟨hoistedScope_declared policy _ body all.2.1,
      hoistedScope_declared policy _ cleanup all.2.2⟩
  | .declare _ _, _ | .eval _, _ | .breakOut, _ | .continueLoop, _ | .yield _, _ | .stop, _ => nofun

theorem hoistedScope_declared {known : LocalId → Prop} (policy : HoistPolicy) (suspends : Bool) :
    (body : List Stmt) →
    (∀ t ∈ Stmt.preorderAll (fun _ => false) body, Expanded t ∧ ∀ id ∈ declared t, known id) →
    ∀ id ∈ hoistedScope policy suspends body, known id
  | [], _ => nofun
  | s :: rest, all => by
    obtain ⟨first, later⟩ := List.forall_mem_append.mp all
    have own : s ∈ s.preorder fun _ => false := by
      unfold Stmt.preorder
      exact List.mem_cons_self
    refine List.forall_mem_append.mpr ⟨List.forall_mem_append.mpr ⟨?_,
      hoistedStmt_declared policy s first⟩, hoistedScope_declared policy suspends rest later⟩
    split
    · exact (first s own).2
    · nofun

theorem hoistedCases_declared {known : LocalId → Prop} (policy : HoistPolicy) :
    (cases : List (List Int64 × List Stmt)) →
    (∀ t ∈ Stmt.preorderCases (fun _ => false) cases, Expanded t ∧ ∀ id ∈ declared t, known id) →
    ∀ id ∈ hoistedCases policy cases, known id
  | [], _ => nofun
  | (_, body) :: rest, all => by
    obtain ⟨first, later⟩ := List.forall_mem_append.mp all
    exact List.forall_mem_append.mpr ⟨hoistedScope_declared policy _ body first,
      hoistedCases_declared policy rest later⟩
end

section
variable {method : Method}

theorem succeeds_freshName (base : String) : Succeeds (freshName base) fun _ => True :=
  fun _ => ⟨_, _, rfl, trivial⟩

theorem succeeds_slotFields (visibility : Visibility) {vars : List Var}
    (usable : ∀ var ∈ vars, method.Usable var) (next : FieldId) :
    Succeeds (slotFields method visibility next vars) fun _ => True := by
  induction vars generalizing next with
  | nil => exact .pure trivial
  | cons var rest ih =>
    obtain ⟨⟨ty, ty', typed, moved⟩, later⟩ := List.forall_mem_cons.mp usable
    unfold slotFields
    refine Succeeds.bind (succeeds_freshName _) fun name _ => ?_
    refine Succeeds.bind (.exactly (Lower.require_eq_ok.mpr typed)) fun found same => ?_
    subst same
    refine Succeeds.bind (.exactly moved) fun ty _ => ?_
    exact Succeeds.bind (ih later (next + 1)) fun fields _ => .pure trivial

theorem succeeds_proxyFields (visibility : Visibility) {indices : List Nat}
    (usable : ∀ index ∈ indices, method.Usable (.param index)) (next : FieldId) :
    Succeeds (proxyFields method visibility next indices) fun _ => True := by
  induction indices generalizing next with
  | nil => exact .pure trivial
  | cons index rest ih =>
    obtain ⟨⟨ty, ty', typed, moved⟩, later⟩ := List.forall_mem_cons.mp usable
    obtain ⟨param, found, rfl⟩ := Option.map_eq_some_iff.mp typed
    unfold proxyFields
    refine Succeeds.bind (.exactly (Lower.require_eq_ok.mpr found)) fun p same => ?_
    subst same
    refine Succeeds.bind (succeeds_freshName _) fun name _ => ?_
    refine Succeeds.bind (.exactly moved) fun ty _ => ?_
    exact Succeeds.bind (ih later (next + 1)) fun fields _ => .pure trivial

theorem succeeds_threadFields (kind : IteratorKind) (visibility : Visibility) (next : FieldId) :
    Succeeds (threadFields kind visibility next) fun _ => True := by
  cases kind with
  | enumerator => exact .pure trivial
  | enumerable => exact Succeeds.bind (succeeds_freshName _) fun name _ => .pure trivial

theorem succeeds_buildShape (movable : method.Movable) {capture : Capture} (kind : IteratorKind)
    (members : Members) (options : Options) (slots : ∀ var ∈ capture.hoisted, method.Usable var)
    (proxies : ∀ index ∈ capture.assignedParams, method.Usable (.param index)) :
    Succeeds (buildShape method kind capture members options) fun _ => True := by
  obtain ⟨ty, ty', typed, moved⟩ := movable.element
  have proxied : ∀ index ∈ proxied kind capture, method.Usable (.param index) := by
    unfold Lowering.proxied
    split
    · nofun
    · exact proxies
  unfold buildShape
  refine Succeeds.bind (.exactly typed) fun found same => ?_
  subst same
  refine Succeeds.bind (.exactly moved) fun element _ => ?_
  refine Succeeds.bind (succeeds_freshName _) fun stateName _ => ?_
  refine Succeeds.bind (succeeds_freshName _) fun currentName _ => ?_
  refine Succeeds.bind (succeeds_threadFields kind _ 2) fun thread _ => ?_
  refine Succeeds.bind (succeeds_slotFields _ slots _) fun slots _ => ?_
  refine Succeeds.bind (succeeds_proxyFields _ proxied _) fun proxies _ => ?_
  exact Succeeds.bind (succeeds_freshName _) fun name _ => .pure trivial

/-- Types of frame variables can be moved if those of their locals can. -/
theorem flatBody_ok {code : Code} (framed : Framed (fun id => method.Usable (.loc id)) code) :
    ∃ body, flatBody method code = .ok body := by
  have symbols {ids : List LocalId} (usable : ∀ id ∈ ids, method.Usable (.loc id)) :
      ∃ vars, frameSymbols method ids = .ok vars := by
    induction ids with
    | nil => exact ⟨[], rfl⟩
    | cons id rest ih =>
      obtain ⟨⟨ty, ty', typed, moved⟩, later⟩ := List.forall_mem_cons.mp usable
      obtain ⟨l, found, rfl⟩ := Option.map_eq_some_iff.mp typed
      obtain ⟨vars, done⟩ := ih later
      refine ⟨⟨id, l.name, ty'⟩ :: vars, ?_⟩
      simp only [frameSymbols, found, Lower.require, moved, done, bind, Except.bind]
      rfl
  have used : ∀ id ∈ sortedSet (fun a b => decide (a < b)) code.frameVars, method.Usable (.loc id) := by
    intro id member
    exact framed id ((mem_sortedSet _ _ _).mp member)
  obtain ⟨vars, done⟩ := symbols used
  refine ⟨⟨vars, code⟩, ?_⟩
  simp only [flatBody, done, bind, Except.bind]
  rfl

end

section
variable {method : Method} {shape : Shape} {kind : IteratorKind} {policy : HoistPolicy}
  {members : Members} (built : shape.BuiltFor kind (capture method policy) members)
include built

theorem Shape.BuiltFor.slot_receiver (present : method.receiver.isSome) :
    (shape.slot? .receiver).isSome := by
  rw [built.slot_isSome]
  simp [capture, present]

theorem Shape.BuiltFor.slot_param {index : Nat} (inside : index < method.params.length) :
    (shape.slot? (.param index)).isSome := by
  rw [built.slot_isSome]
  simp [capture, inside]

theorem Shape.BuiltFor.places {var : Var} (known : (method.varType? var).isSome)
    (usable : ∀ id, var = .loc id → method.Usable (.loc id)) :
    shape.Places (fun id => method.Usable (.loc id)) var := by
  unfold Shape.Places Shape.place
  cases slot : shape.slot? var with
  | some id => exact ⟨.field id, rfl, nofun⟩
  | none =>
    cases var with
    | loc id => exact ⟨.frame id, rfl, List.forall_mem_cons.mpr ⟨usable id rfl, nofun⟩⟩
    | receiver =>
      have := built.slot_receiver known
      simp [slot] at this
    | param index =>
      have := built.slot_param (by simpa [Method.varType?] using known)
      simp [slot] at this

theorem Shape.BuiltFor.kickoff_ok : ∃ kickoff, buildKickoff method shape = .ok kickoff := by
  have receiver : ∃ code, wireReceiver method shape = .ok code := by
    unfold wireReceiver
    split
    · exact ⟨[], rfl⟩
    · next found =>
      obtain ⟨id, slot⟩ := Option.isSome_iff_exists.mp
        (built.slot_receiver (by rw [found]; rfl))
      rw [slot]
      exact ⟨_, rfl⟩
  have params {indices : List Nat} (inside : ∀ index ∈ indices, index < method.params.length) :
      ∃ code, wireParams shape indices = .ok code := by
    induction indices with
    | nil => exact ⟨[], rfl⟩
    | cons index rest ih =>
      obtain ⟨here, later⟩ := List.forall_mem_cons.mp inside
      obtain ⟨id, slot⟩ := Option.isSome_iff_exists.mp (built.slot_param here)
      obtain ⟨code, done⟩ := ih later
      simp only [wireParams, wireParam, slot, Lower.require, done, bind, Except.bind]
      exact ⟨_, rfl⟩
  obtain ⟨first, done⟩ := receiver
  obtain ⟨second, done'⟩ := params fun index member => List.mem_range.mp member
  simp only [buildKickoff, done, done', bind, Except.bind]
  exact ⟨_, rfl⟩

theorem Shape.BuiltFor.constructor_ok {platform : Platform}
    (resolved : resolveMembers kind platform = .ok members) (options : Options) :
    ∃ routine, buildConstructor shape options = .ok routine := by
  have thread : ∃ code, threadCode shape = .ok code := by
    unfold threadCode
    split
    · exact ⟨[], rfl⟩
    · next id found =>
      obtain rfl := built.thread_isSome.mp (by rw [found]; rfl)
      obtain ⟨_, _, source, _, _, hasSource⟩ := members_enumerable resolved
      rw [built.members_eq, hasSource]
      exact ⟨_, rfl⟩
  obtain ⟨code, done⟩ := thread
  simp only [buildConstructor, done, bind, Except.bind]
  exact ⟨_, rfl⟩

end

/-- A method without foreach loops that passes the check and whose types can be moved. -/
structure Lowerable (method : Method) : Prop where
  passed : checkStructure method = .ok ()
  expanded : ∀ s ∈ method.body.preorder, Expanded s
  movable : method.Movable

namespace Lowerable
variable {method : Method} (lowerable : Lowerable method)
include lowerable

theorem usable_hoisted (policy : HoistPolicy) :
    ∀ var ∈ (capture method policy).hoisted, method.Usable var := by
  have locals := hoistedScope_declared policy method.body.suspends method.body fun s within =>
    ⟨lowerable.expanded s within, lowerable.movable.declared s within⟩
  simp only [capture, List.forall_mem_append, List.forall_mem_map]
  refine ⟨⟨?_, ?_⟩, ?_⟩
  · split
    · next present => exact List.forall_mem_singleton.mpr (lowerable.movable.receiver present)
    · exact List.forall_mem_nil _
  · intro index inside
    exact lowerable.movable.params index (List.mem_range.mp inside)
  · intro id hoisted
    exact locals id (List.mem_eraseDups.mp hoisted)

theorem declared_var {s : Stmt} (within : s ∈ method.body.preorder) {e : Expr} (member : e ∈ s.exprs)
    {var : Var} (occurs : var ∈ e.vars) : (method.varType? var).isSome :=
  (checkExpr_eq_ok e).mp ((passes_block method.body lowerable.passed s within).exprs e member) var occurs

theorem lt_of_assigned {index : Nat} (assigned : index ∈ assignedParams method.body) :
    index < method.params.length := by
  obtain ⟨var, target, same⟩ := List.mem_filterMap.mp assigned
  cases var with
  | param other =>
    obtain rfl := Option.some.inj same
    obtain ⟨s, within, e, member, target⟩ := Block.mem_assignedVars.mp target
    have known := lowerable.declared_var within member (e.targets_subset_vars target)
    simpa [Method.varType?] using known
  | _ => cases same

section
variable {shape : Shape} {kind : IteratorKind} {policy : HoistPolicy} {members : Members}
  (built : shape.BuiltFor kind (capture method policy) members)
include built

theorem hosts {s : Stmt} (within : s ∈ method.body.preorder) :
    shape.Hosts method (fun id => method.Usable (.loc id)) s where
  plain := lowerable.expanded s within
  declared id member := by
    have usable := lowerable.movable.declared s within id member
    have known := (passes_block method.body lowerable.passed s within).declared id member
    refine ⟨by simpa [Method.varType?] using known, built.places known ?_⟩
    rintro other same
    rwa [← Var.loc.inj same]
  used e member var occurs := by
    apply built.places (lowerable.declared_var within member occurs)
    rintro id rfl
    exact lowerable.movable.used s within e member id occurs

theorem succeeds_buildDispatch : Succeeds (buildDispatch method shape) fun _ => True := by
  have emits : Succeeds (emitDispatch method shape) fun _ => True := by
    have body := emits_block (fun _ => flatBody_ok) method.body lowerable.passed (.body method shape)
      fun s within => lowerable.hosts built within
    unfold emitDispatch
    refine body.bind fun code framed => ?_
    have got : Succeeds (get : Emit Progress) fun _ => True := fun p => ⟨p, p, rfl, trivial⟩
    refine got.bind fun progress _ => ?_
    have whole : Framed (fun id => method.Usable (.loc id)) (entry shape progress.points ++
        .label startLabel :: shape.setState State.running :: (code ++ shape.finish)) := by
      have entered : Framed (fun id => method.Usable (.loc id)) (entry shape progress.points) := nofun
      have ended : Framed (fun id => method.Usable (.loc id)) shape.finish := framed_finish
      simp [entered, framed, ended, Machine.Instr.frameVars, Shape.setState, Machine.Instr.setField,
        Machine.Place.frameVars, Machine.Term.frameVars]
    obtain ⟨flat, flattened⟩ := flatBody_ok whole
    exact Succeeds.bind (.exactly flattened) fun flat _ => .pure trivial
  intro names
  obtain ⟨dispatch, progress, emitted, _⟩ := emits ⟨2, [], [], names⟩
  exact ⟨dispatch, progress.names, by rw [buildDispatch, emitted], trivial⟩

theorem vending_ok {platform : Platform} (resolved : resolveMembers kind platform = .ok members)
    (options : Options) : ∃ vending, vendingRoutines shape options = .ok vending := by
  cases kind with
  | enumerator =>
    unfold vendingRoutines
    rw [built.members_eq, members_enumerator resolved]
    exact ⟨[], rfl⟩
  | enumerable =>
    obtain ⟨generic, object, source, hasGeneric, hasObject, hasSource⟩ := members_enumerable resolved
    obtain ⟨id, found⟩ := Option.isSome_iff_exists.mp (built.thread_isSome.mpr rfl)
    have slots : ∀ proxy ∈ shape.proxies, (shape.slot? (.param proxy.1)).isSome := by
      intro proxy member
      apply built.slot_param
      apply lowerable.lt_of_assigned
      have listed : proxy.1 ∈ shape.proxies.map (·.1) := List.mem_map_of_mem member
      rwa [built.proxies_eq] at listed
    have restores {proxies : List (Nat × FieldId)}
        (slots : ∀ proxy ∈ proxies, (shape.slot? (.param proxy.1)).isSome) :
        ∃ code, restoreCode shape proxies = .ok code := by
      induction proxies with
      | nil => exact ⟨[], rfl⟩
      | cons proxy rest ih =>
        obtain ⟨here, later⟩ := List.forall_mem_cons.mp slots
        obtain ⟨slot, placed⟩ := Option.isSome_iff_exists.mp here
        obtain ⟨code, done⟩ := ih later
        simp only [restoreCode, placed, Lower.require, done, bind, Except.bind]
        exact ⟨_, rfl⟩
    obtain ⟨restore, restored⟩ := restores slots
    have coded : ∃ code, getEnumeratorCode shape options = .ok code := by
      unfold getEnumeratorCode
      split
      · simp only [reuseCode, found, built.members_eq, hasSource, restored, bind, Except.bind]
        exact ⟨_, rfl⟩
      · simp only [restored, bind, Except.bind]
        exact ⟨_, rfl⟩
    obtain ⟨code, coded⟩ := coded
    unfold vendingRoutines
    rw [built.members_eq, hasGeneric, hasObject]
    simp only [coded, bind, Except.bind]
    exact ⟨_, rfl⟩

end
end Lowerable

/-- After the check nothing fails but the moving of types. -/
theorem succeeds_lower {method expanded : Method} {platform : Platform} {kind : IteratorKind}
    {members : Members} (validated : method.validate platform = .ok (kind, members))
    (expands : expandForeach method = .ok expanded) (lowerable : Lowerable expanded) (options : Options) :
    Succeeds (method.lower platform options) fun _ => True := by
  have resolved : resolveMembers kind platform = .ok members := by
    simp only [Method.validate, except_bind_eq_ok, except_pure_eq_ok, Prod.mk.injEq] at validated
    obtain ⟨_, _, _, resolved, _, _, _, _, rfl, rfl⟩ := validated
    exact resolved
  intro names
  obtain ⟨shape, names', shaped, _⟩ := succeeds_buildShape lowerable.movable kind members options
    (lowerable.usable_hoisted options.hoisting)
    (fun index assigned => lowerable.movable.params index (lowerable.lt_of_assigned assigned)) names
  have built := buildShape_spec shaped
  obtain ⟨dispatch, names'', dispatched, _⟩ := lowerable.succeeds_buildDispatch built names'
  obtain ⟨constructor, constructs⟩ := built.constructor_ok resolved options
  obtain ⟨kickoff, kicksOff⟩ := built.kickoff_ok
  obtain ⟨vending, vends⟩ := lowerable.vending_ok built resolved options
  have routed : ∃ routines, buildRoutines shape dispatch options = .ok routines := by
    simp only [buildRoutines, vends, bind, Except.bind]
    exact ⟨_, rfl⟩
  obtain ⟨routines, routed⟩ := routed
  unfold Method.lower
  rw [bind_of_ok (checked_eq_ok.mpr ⟨validated, rfl⟩)]
  dsimp only
  rw [bind_of_ok (checked_eq_ok.mpr ⟨expands, rfl⟩), bind_of_ok shaped, bind_of_ok dispatched, bind_of_ok (checked_eq_ok.mpr ⟨constructs, rfl⟩),
    bind_of_ok (checked_eq_ok.mpr ⟨kicksOff, rfl⟩), bind_of_ok (checked_eq_ok.mpr ⟨routed, rfl⟩)]
  exact ⟨_, _, rfl, trivial⟩

end Lowering
end Resumable
