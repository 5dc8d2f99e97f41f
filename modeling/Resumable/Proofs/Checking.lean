import Resumable.Proofs.Counting
import Resumable.Proofs.Outline

/-!
The structural check and the replacement of foreach loops. On a method that passes the
check the replacement succeeds, and the method it returns passes again: its new locals are
declared, and jumps and cleanup blocks are where they were. It is as well scoped as before.
-/

namespace Resumable

/-- The types of the receiver, the parameters and the locals. -/
def Method.varTypes (method : Method) : List Ty :=
  method.receiver.toList ++ method.params.map (·.ty) ++ method.locals.map (·.ty)

theorem Method.mem_varTypes {method : Method} {var : Var} {ty : Ty}
    (found : method.varType? var = some ty) : ty ∈ method.varTypes := by
  simp only [varTypes, List.mem_append, Option.mem_toList, List.mem_map]
  cases var with
  | receiver => exact .inl (.inl found)
  | param index =>
    obtain ⟨param, member, same⟩ := Option.map_eq_some_iff.mp found
    exact .inl (.inr ⟨param, List.mem_of_getElem? member, same⟩)
  | loc id =>
    obtain ⟨l, member, same⟩ := Option.map_eq_some_iff.mp found
    exact .inr ⟨l, List.mem_of_find?_eq_some member, same⟩

namespace Lowering

@[simp] theorem checkVar_eq_ok {method : Method} {var : Var} :
    checkVar method var = .ok () ↔ (method.varType? var).isSome := by
  unfold checkVar
  split <;> simp_all

section Expanding
variable {method : Method} {good : Ty → Prop} {α β : Type}

/-- Symbols that the loops of a method may meet. -/
structure Known (method : Method) (good : Ty → Prop) (locals : List LocalVar) : Prop where
  keeps : method.locals <+: locals
  types : ∀ ty ∈ Method.varTypes { method with locals := locals }, good ty
  arrays : ∀ ty, good ty → good (.array ty)
  numbers : good .int

/-- A local that a counting loop takes. -/
def IsTemporary (l : LocalVar) : Prop := l.synthesized ∧ (l.name = "$array" ∨ l.name = "$index")

/-- The symbols that `extra` new locals take. -/
structure Extra (good : Ty → Prop) (locals new : List LocalVar) (extra : Nat) : Prop where
  ids : new.map (·.id) = List.range' (nextLocal locals) extra
  types : ∀ l ∈ new, good l.ty
  temporary : ∀ l ∈ new, IsTemporary l

theorem Known.extend {locals new : List LocalVar} {extra : Nat} (known : Known method good locals)
    (more : Extra good locals new extra) : Known method good (locals ++ new) where
  arrays := known.arrays
  numbers := known.numbers
  keeps := known.keeps.trans (List.prefix_append _ _)
  types ty member := by
    simp only [Method.varTypes, List.map_append, ← List.append_assoc] at member
    rcases List.mem_append.mp member with old | added
    · exact known.types ty old
    · obtain ⟨l, among, rfl⟩ := List.mem_map.mp added
      exact more.types l among

theorem Extra.next {locals new : List LocalVar} {extra : Nat} (more : Extra good locals new extra) :
    nextLocal (locals ++ new) = nextLocal locals + extra := by
  obtain ⟨ids, types, temporary⟩ := more
  induction new generalizing locals extra with
  | nil =>
    have : extra = 0 := by simpa using (congrArg List.length ids).symm
    simp [this]
  | cons l rest ih =>
    cases extra with
    | zero => simp at ids
    | succ extra =>
      simp only [List.map_cons, List.range'_succ, List.cons.injEq] at ids
      have first : nextLocal (locals ++ [l]) = nextLocal locals + 1 := by
        simp [nextLocal_append, ids.1]
      have later : nextLocal (locals ++ [l] ++ rest) = nextLocal (locals ++ [l]) + extra :=
        ih (by rw [first, ids.2]) (fun l member => types l (List.mem_cons_of_mem _ member))
          fun l member => temporary l (List.mem_cons_of_mem _ member)
      rw [List.append_cons, later, first, Nat.add_assoc, Nat.add_comm 1]

/-- The step takes `extra` new locals, whatever symbols there are. -/
def Expands (method : Method) (good : Ty → Prop) (extra : Nat) (x : Grow α) : Prop :=
  ∀ locals, Known method good locals → ∃ a new, x locals = .ok a (locals ++ new) ∧
    Extra good locals new extra

theorem Expands.pure (a : α) : Expands method good 0 (Pure.pure a : Grow α) := by
  intro locals known
  exact ⟨a, [], by simp, by simp, by simp, by simp⟩

theorem Expands.bind {x : Grow α} {f : α → Grow β} {extra extra' : Nat}
    (first : Expands method good extra x) (next : ∀ a, Expands method good extra' (f a)) :
    Expands method good (extra + extra') (x >>= f) := by
  intro locals known
  obtain ⟨a, new, begun, more⟩ := first locals known
  obtain ⟨b, new', ended, more'⟩ := next a _ (known.extend more)
  refine ⟨b, new ++ new', ?_, ?_, List.forall_mem_append.mpr ⟨more.types, more'.types⟩,
    List.forall_mem_append.mpr ⟨more.temporary, more'.temporary⟩⟩
  · rw [bind_of_ok begun, ended, List.append_assoc]
  · rw [List.map_append, more.ids, more'.ids, more.next, List.range'_append_1]

theorem Expands.declareFresh {name : String} (named : name = "$array" ∨ name = "$index") {ty : Ty}
    (fine : good ty) : Expands method good 1 (Lowering.declareFresh name ty) := by
  intro locals known
  exact ⟨nextLocal locals, [⟨nextLocal locals, name, ty, true⟩], rfl, by simp, by simpa using fine,
    List.forall_mem_singleton.mpr ⟨rfl, named⟩⟩

/-- The array of a loop over a declared variable has a type. -/
theorem arrayType_ok {locals : List LocalVar} (known : Known method good locals) {id : LocalId}
    (found : (method.varType? (.loc id)).isSome) (collection : Expr) :
    ∃ ty, arrayType { method with locals := locals } id collection = .ok ty ∧ good ty := by
  let here : Method := { method with locals := locals }
  obtain ⟨rest, rfl⟩ := known.keeps
  have declared : ∃ l, here.local? id = some l := by
    have : (method.local? id).isSome := by simpa [Method.varType?] using found
    obtain ⟨l, first⟩ := Option.isSome_iff_exists.mp this
    refine ⟨l, ?_⟩
    simp only [here, Method.local?, List.find?_append] at first ⊢
    rw [first, Option.some_or]
  obtain ⟨l, first⟩ := declared
  have ofLoopVar : (do
      let l ← Lower.require (.undeclaredLoopVar here.name id) (here.local? id)
      return Ty.array l.ty : Except LowerError Ty) = .ok (.array l.ty) := by
    rw [first]
    rfl
  have fine : good (.array l.ty) :=
    have typed : here.varType? (.loc id) = some l.ty := by simp [Method.varType?, first]
    known.arrays _ (known.types _ (Method.mem_varTypes typed))
  unfold arrayType
  split
  · next source =>
    split
    · next element typed => exact ⟨_, rfl, known.types _ (Method.mem_varTypes typed)⟩
    · exact ⟨_, ofLoopVar, fine⟩
  · exact ⟨_, ofLoopVar, fine⟩

theorem Expands.cast {x : Grow α} {extra extra' : Nat} (expands : Expands method good extra x)
    (same : extra = extra') : Expands method good extra' x :=
  same ▸ expands

end Expanding

section
variable (method : Method) (good : Ty → Prop)

mutual
theorem expands_stmt : (s : Stmt) → {around : Surroundings} → checkStmt method around s = .ok () →
    Expands method good s.extraLocals (expandStmt method s)
  | .block body, around, passed => by
    simp only [expandStmt]
    exact (expands_block body passed).bind fun _ => .pure _
  | .ite _ yes none, around, passed => by
    simp only [checkStmt, check_bind] at passed
    obtain ⟨_, passed⟩ := passed
    simp only [expandStmt]
    exact (expands_block yes passed).bind fun _ => .pure _
  | .ite _ yes (some no), around, passed => by
    simp only [checkStmt, check_bind] at passed
    obtain ⟨_, passedYes, passedNo⟩ := passed
    simp only [expandStmt]
    exact (expands_block yes passedYes).bind fun _ => (expands_block no passedNo).bind fun _ => .pure _
  | .whileLoop _ body, around, passed => by
    simp only [checkStmt, check_bind] at passed
    obtain ⟨_, passed⟩ := passed
    simp only [expandStmt]
    exact (expands_block body passed).bind fun _ => .pure _
  | .forLoop init _ _ body, around, passed => by
    simp only [checkStmt, check_bind] at passed
    obtain ⟨passedInit, _, _, passedBody⟩ := passed
    simp only [expandStmt]
    exact (expands_block init passedInit).bind fun _ => (expands_block body passedBody).bind fun _ => .pure _
  | .foreach id collection body, around, passed => by
    simp only [checkStmt, check_bind] at passed
    obtain ⟨declared, _, passed⟩ := passed
    simp only [expandStmt]
    intro locals known
    obtain ⟨ty, typed, fine⟩ := arrayType_ok known (checkVar_eq_ok.mp declared) collection
    have rest := (Expands.declareFresh (.inl rfl) fine).bind fun array =>
      (Expands.declareFresh (.inr rfl) known.numbers).bind fun index =>
        (expands_block body passed).bind fun body => .pure (countingLoop id array index collection body)
    have got : (get : Grow (List LocalVar)) locals = .ok locals locals := rfl
    rw [bind_of_ok got, bind_of_ok (checked_eq_ok.mpr ⟨typed, rfl⟩)]
    have same : 1 + (1 + (Stmt.extraLocalsAll body + 0)) = (Stmt.foreach id collection body).extraLocals := by
      simp only [Stmt.extraLocals]
      omega
    exact rest.cast same locals known
  | .switch _ cases none, around, passed => by
    simp only [checkStmt, check_bind] at passed
    obtain ⟨_, passed⟩ := passed
    simp only [expandStmt]
    exact (expands_cases cases passed).bind fun _ => .pure _
  | .switch _ cases (some default), around, passed => by
    simp only [checkStmt, check_bind] at passed
    obtain ⟨_, passedCases, passedDefault⟩ := passed
    simp only [expandStmt]
    exact (expands_cases cases passedCases).bind fun _ =>
      (expands_block default passedDefault).bind fun _ => .pure _
  | .tryFinally body cleanup, around, passed => by
    simp only [checkStmt, check_bind] at passed
    obtain ⟨passedBody, passedCleanup⟩ := passed
    simp only [expandStmt]
    exact (expands_block body passedBody).bind fun _ =>
      (expands_block cleanup passedCleanup).bind fun _ => .pure _
  | .declare _ _, _, _ | .eval _, _, _ | .breakOut, _, _ | .continueLoop, _, _ | .yield _, _, _
  | .stop, _, _ => by
    simp only [expandStmt]
    exact .pure _

theorem expands_block : (body : List Stmt) → {around : Surroundings} →
    checkBlock method around body = .ok () →
    Expands method good (Stmt.extraLocalsAll body) (expandBlock method body)
  | [], _, _ => by
    simp only [expandBlock]
    exact .pure _
  | s :: rest, around, passed => by
    simp only [checkBlock, check_bind] at passed
    obtain ⟨passedFirst, passed⟩ := passed
    simp only [expandBlock]
    exact (expands_stmt s passedFirst).bind fun _ => (expands_block rest passed).bind fun _ => .pure _

theorem expands_cases : (cases : List (List Int64 × List Stmt)) → {around : Surroundings} →
    checkCases method around cases = .ok () →
    Expands method good (Stmt.extraLocalsCases cases) (expandCases method cases)
  | [], _, _ => by
    simp only [expandCases]
    exact .pure _
  | (_, body) :: rest, around, passed => by
    simp only [checkCases, check_bind] at passed
    obtain ⟨passedFirst, passed⟩ := passed
    simp only [expandCases]
    exact (expands_block body passedFirst).bind fun _ => (expands_cases rest passed).bind fun _ => .pure _
end

end

mutual
theorem checkExpr_eq_ok {method : Method} : (e : Expr) →
    (checkExpr method e = .ok () ↔ ∀ var ∈ e.vars, (method.varType? var).isSome)
  | .int _ | .bool _ | .str _ | .null => by simp [checkExpr, Expr.vars]
  | .var var => by simp [checkExpr, Expr.vars]
  | .assign var value => by
    simp [checkExpr, Expr.vars, check_bind, checkExpr_eq_ok value]
  | .unary _ operand => by simp [checkExpr, Expr.vars, checkExpr_eq_ok operand]
  | .binary _ left right => by
    simp [checkExpr, Expr.vars, check_bind, checkExpr_eq_ok left, checkExpr_eq_ok right,
      or_imp, forall_and]
  | .array items => by simp [checkExpr, Expr.vars, checkExprs_eq_ok items]
  | .index base position => by
    simp [checkExpr, Expr.vars, check_bind, checkExpr_eq_ok base, checkExpr_eq_ok position,
      or_imp, forall_and]
  | .len base => by simp [checkExpr, Expr.vars, checkExpr_eq_ok base]
  | .call _ args => by simp [checkExpr, Expr.vars, checkExprs_eq_ok args]

theorem checkExprs_eq_ok {method : Method} : (es : List Expr) →
    (checkExprs method es = .ok () ↔ ∀ var ∈ Expr.varsAll es, (method.varType? var).isSome)
  | [] => by simp [checkExprs, Expr.varsAll]
  | e :: rest => by
    simp [checkExprs, Expr.varsAll, check_bind, checkExpr_eq_ok e, checkExprs_eq_ok rest,
      or_imp, forall_and]
end

/-- Every variable of the first method is one of the second. -/
def Within (method method' : Method) : Prop :=
  ∀ var, (method.varType? var).isSome → (method'.varType? var).isSome

section
variable {method method' : Method}

theorem checkExpr_mono (more : Within method method') {e : Expr} (passed : checkExpr method e = .ok ()) : checkExpr method' e = .ok () :=
  (checkExpr_eq_ok e).mpr fun var member => more var ((checkExpr_eq_ok e).mp passed var member)

theorem checkExprs_mono (more : Within method method') {es : List Expr} (passed : checkExprs method es = .ok ()) :
    checkExprs method' es = .ok () :=
  (checkExprs_eq_ok es).mpr fun var member => more var ((checkExprs_eq_ok es).mp passed var member)

mutual
/-- With the locals of its counting loops declared, a statement passes the check as before. -/
theorem check_counted (more : Within method method') : (s : Stmt) → (next : Nat) → {around : Surroundings} →
    (∀ id : Nat, next ≤ id → id < next + s.extraLocals → (method'.varType? (.loc id)).isSome) →
    checkStmt method around s = .ok () → checkStmt method' around (s.counted next) = .ok ()
  | .block body, next, around, fresh, passed => check_countedAll more body next fresh passed
  | .declare id init, next, around, fresh, passed => by
    simp only [checkStmt, check_bind] at passed
    obtain ⟨declared, passed⟩ := passed
    have here : checkVar method' (.loc id) = .ok () := checkVar_eq_ok.mpr (more _ (checkVar_eq_ok.mp declared))
    simp only [Stmt.counted, checkStmt, check_bind]
    exact ⟨here, checkExprs_mono more passed⟩
  | .eval value, next, around, fresh, passed => checkExpr_mono more passed
  | .ite cond yes none, next, around, fresh, passed => by
    simp only [checkStmt, check_bind] at passed
    obtain ⟨passedCond, passed⟩ := passed
    simp only [Stmt.counted, checkStmt, check_bind]
    exact ⟨checkExpr_mono more passedCond, check_countedAll more yes next fresh passed⟩
  | .ite cond yes (some no), next, around, fresh, passed => by
    simp only [checkStmt, check_bind] at passed
    obtain ⟨passedCond, passedYes, passedNo⟩ := passed
    simp only [Stmt.extraLocals] at fresh
    simp only [Stmt.counted, checkStmt, check_bind]
    exact ⟨checkExpr_mono more passedCond,
      check_countedAll more yes next (fun id above below => fresh id above (by omega)) passedYes,
      check_countedAll more no _ (fun id above below => fresh id (by omega) (by omega)) passedNo⟩
  | .whileLoop cond body, next, around, fresh, passed => by
    simp only [checkStmt, check_bind] at passed
    obtain ⟨passedCond, passed⟩ := passed
    simp only [Stmt.counted, checkStmt, check_bind]
    exact ⟨checkExpr_mono more passedCond, check_countedAll more body next fresh passed⟩
  | .forLoop init cond step body, next, around, fresh, passed => by
    simp only [checkStmt, check_bind] at passed
    obtain ⟨passedInit, passedCond, passedStep, passedBody⟩ := passed
    simp only [Stmt.extraLocals] at fresh
    simp only [Stmt.counted, checkStmt, check_bind]
    exact ⟨check_countedAll more init next (fun id above below => fresh id above (by omega)) passedInit,
      checkExprs_mono more passedCond, checkExprs_mono more passedStep,
      check_countedAll more body _ (fun id above below => fresh id (by omega) (by omega)) passedBody⟩
  | .foreach id collection body, next, around, fresh, passed => by
    simp only [checkStmt, check_bind] at passed
    obtain ⟨declared, passedCollection, passedBody⟩ := passed
    simp only [Stmt.extraLocals] at fresh
    have array : (method'.varType? (.loc next)).isSome := fresh next (Nat.le_refl _) (by omega)
    have index : (method'.varType? (.loc (next + 1))).isSome := fresh (next + 1) (by omega) (by omega)
    have item : (method'.varType? (.loc id)).isSome := more _ (checkVar_eq_ok.mp declared)
    have turn : checkBlock method' around.loop (Stmt.countedAll (next + 2) body) = .ok () :=
      check_countedAll more body (next + 2) (fun id above below => fresh id (by omega) (by omega)) passedBody
    simp [Stmt.counted, countingLoop, checkStmt, checkBlock, checkExprs, checkExpr, check_bind,
      Expr.ofLocal, array, index, item, turn, checkExpr_mono more passedCollection]
  | .switch scrutinee cases none, next, around, fresh, passed => by
    simp only [checkStmt, check_bind] at passed
    obtain ⟨passedValue, passed⟩ := passed
    simp only [Stmt.counted, checkStmt, check_bind]
    exact ⟨checkExpr_mono more passedValue, check_countedCases more cases next fresh passed⟩
  | .switch scrutinee cases (some default), next, around, fresh, passed => by
    simp only [checkStmt, check_bind] at passed
    obtain ⟨passedValue, passedCases, passedDefault⟩ := passed
    simp only [Stmt.extraLocals] at fresh
    simp only [Stmt.counted, checkStmt, check_bind]
    exact ⟨checkExpr_mono more passedValue,
      check_countedCases more cases next (fun id above below => fresh id above (by omega)) passedCases,
      check_countedAll more default _ (fun id above below => fresh id (by omega) (by omega)) passedDefault⟩
  | .tryFinally body cleanup, next, around, fresh, passed => by
    simp only [checkStmt, check_bind] at passed
    obtain ⟨passedBody, passedCleanup⟩ := passed
    simp only [Stmt.extraLocals] at fresh
    simp only [Stmt.counted, checkStmt, check_bind]
    exact ⟨check_countedAll more body next (fun id above below => fresh id above (by omega)) passedBody,
      check_countedAll more cleanup _ (fun id above below => fresh id (by omega) (by omega)) passedCleanup⟩
  | .yield value, next, around, fresh, passed => by
    simp only [checkStmt] at passed
    split at passed
    · cases passed
    · next outside =>
      simp only [Stmt.counted, checkStmt, if_neg outside]
      exact checkExpr_mono more passed
  | .breakOut, next, around, fresh, passed => by
    simp only [Stmt.counted, checkStmt] at passed ⊢
    split at passed
    · next inside => rw [if_pos inside]
    · cases passed
  | .continueLoop, next, around, fresh, passed => by
    simp only [Stmt.counted, checkStmt] at passed ⊢
    split at passed
    · next inside => rw [if_pos inside]
    · cases passed
  | .stop, next, around, fresh, passed => by
    simp only [Stmt.counted, checkStmt] at passed ⊢
    split at passed
    · cases passed
    · next outside => rw [if_neg outside]

theorem check_countedAll (more : Within method method') : (body : List Stmt) → (next : Nat) → {around : Surroundings} →
    (∀ id : Nat, next ≤ id → id < next + Stmt.extraLocalsAll body → (method'.varType? (.loc id)).isSome) →
    checkBlock method around body = .ok () →
    checkBlock method' around (Stmt.countedAll next body) = .ok ()
  | [], _, _, _, _ => rfl
  | s :: rest, next, around, fresh, passed => by
    simp only [checkBlock, check_bind] at passed
    obtain ⟨passedFirst, passed⟩ := passed
    simp only [Stmt.extraLocalsAll] at fresh
    simp only [Stmt.countedAll, checkBlock, check_bind]
    exact ⟨check_counted more s next (fun id above below => fresh id above (by omega)) passedFirst,
      check_countedAll more rest _ (fun id above below => fresh id (by omega) (by omega)) passed⟩

theorem check_countedCases (more : Within method method') : (cases : List (List Int64 × List Stmt)) → (next : Nat) →
    {around : Surroundings} →
    (∀ id : Nat, next ≤ id → id < next + Stmt.extraLocalsCases cases → (method'.varType? (.loc id)).isSome) →
    checkCases method around cases = .ok () →
    checkCases method' around (Stmt.countedCases next cases) = .ok ()
  | [], _, _, _, _ => rfl
  | (_, body) :: rest, next, around, fresh, passed => by
    simp only [checkCases, check_bind] at passed
    obtain ⟨passedFirst, passed⟩ := passed
    simp only [Stmt.extraLocalsCases] at fresh
    simp only [Stmt.countedCases, checkCases, check_bind]
    exact ⟨check_countedAll more body next (fun id above below => fresh id above (by omega)) passedFirst,
      check_countedCases more rest _ (fun id above below => fresh id (by omega) (by omega)) passed⟩
end

end

theorem local?_isSome {method : Method} {id : LocalId} (member : id ∈ method.locals.map (·.id)) :
    (method.varType? (.loc id)).isSome := by
  obtain ⟨l, among, same⟩ := List.mem_map.mp member
  simpa [Method.varType?, Method.local?] using ⟨l, among, same⟩

/-- The method with counting loops, whose locals are `new`. -/
def withLoops (method : Method) (new : List LocalVar) : Method :=
  { method with
    body := Stmt.countedAll (nextLocal method.locals) method.body
    locals := method.locals ++ new }

theorem within_withLoops (method : Method) (new : List LocalVar) :
    Within method (withLoops method new) := by
  intro var found
  cases var with
  | receiver => exact found
  | param index => exact found
  | loc id =>
    refine local?_isSome ?_
    simp only [Method.varType?, Option.isSome_map, Method.local?, List.find?_isSome,
      decide_eq_true_eq] at found
    obtain ⟨l, among, same⟩ := found
    exact List.mem_map.mpr ⟨l, List.mem_append_left _ among, same⟩

/-- Replacing the loops of a method that passes the check succeeds. -/
theorem expandForeach_withLoops {method : Method} {good : Ty → Prop}
    (known : Known method good method.locals) (passed : checkStructure method = .ok ()) :
    ∃ new, expandForeach method = .ok (withLoops method new) ∧
      Extra good method.locals new (Stmt.extraLocalsAll method.body) := by
  obtain ⟨body, new, done, more⟩ := expands_block method good method.body passed method.locals known
  obtain ⟨rfl, _⟩ := expandBlock_eq_ok method method.body done
  refine ⟨new, ?_, more⟩
  rw [expandForeach, done]
  rfl

theorem check_withLoops {method : Method} {good : Ty → Prop} {new : List LocalVar}
    (more : Extra good method.locals new (Stmt.extraLocalsAll method.body))
    (passed : checkStructure method = .ok ()) : checkStructure (withLoops method new) = .ok () := by
  have fresh : ∀ id : Nat, nextLocal method.locals ≤ id →
      id < nextLocal method.locals + Stmt.extraLocalsAll method.body →
      ((withLoops method new).varType? (.loc id)).isSome := by
    intro id above below
    refine local?_isSome ?_
    rw [withLoops, List.map_append, more.ids]
    exact List.mem_append_right _ (List.mem_range'_1.mpr ⟨above, below⟩)
  exact check_countedAll (within_withLoops method new) method.body _ fresh passed

/-- What replacing the loops of a method that passes the check gives. -/
theorem expandForeach_ok {method : Method} {good : Ty → Prop}
    (known : Known method good method.locals) (passed : checkStructure method = .ok ()) :
    ∃ expanded, expandForeach method = .ok expanded ∧ checkStructure expanded = .ok () ∧
      Within method expanded ∧ ∀ ty ∈ expanded.varTypes, good ty := by
  obtain ⟨new, done, more⟩ := expandForeach_withLoops known passed
  exact ⟨_, done, check_withLoops more passed, within_withLoops method new, (known.extend more).types⟩

theorem known_all (method : Method) : Known method (fun _ => True) method.locals :=
  ⟨List.prefix_refl _, fun _ _ => trivial, fun _ _ => trivial, trivial⟩

theorem expandForeach_passes {method : Method} (passed : checkStructure method = .ok ()) :
    ∃ expanded, expandForeach method = .ok expanded ∧ checkStructure expanded = .ok () := by
  obtain ⟨expanded, done, passed, _⟩ := expandForeach_ok (known_all method) passed
  exact ⟨expanded, done, passed⟩

mutual
/-- A larger scope outside leaves a statement well scoped, and so does counting its loops. -/
theorem scoped_counted : (s : Stmt) → (next : LocalId) → {scope scope' : List LocalId} →
    scope ⊆ scope' → s.isScoped scope → (s.counted next).isScoped scope'
  | .block body, next, scope, scope', within, inside => scoped_countedAll body next within inside
  | .declare _ none, next, scope, scope', within, inside => rfl
  | .declare _ (some init), next, scope, scope', within, inside => Expr.isScoped_mono within inside
  | .eval value, next, scope, scope', within, inside => Expr.isScoped_mono within inside
  | .ite cond yes none, next, scope, scope', within, inside => by
    simp only [Stmt.isScoped, Stmt.counted, Bool.and_eq_true] at inside ⊢
    exact ⟨Expr.isScoped_mono within inside.1, scoped_countedAll yes next within inside.2⟩
  | .ite cond yes (some no), next, scope, scope', within, inside => by
    simp only [Stmt.isScoped, Stmt.counted, Bool.and_eq_true] at inside ⊢
    exact ⟨⟨Expr.isScoped_mono within inside.1.1, scoped_countedAll yes next within inside.1.2⟩,
      scoped_countedAll no _ within inside.2⟩
  | .whileLoop cond body, next, scope, scope', within, inside => by
    simp only [Stmt.isScoped, Stmt.counted, Bool.and_eq_true] at inside ⊢
    exact ⟨Expr.isScoped_mono within inside.1, scoped_countedAll body next within inside.2⟩
  | .forLoop init cond step body, next, scope, scope', within, inside => by
    simp only [Stmt.isScoped, Stmt.counted, Bool.and_eq_true, scopeAfter_counted,
      List.all_eq_true] at inside ⊢
    have within' := Stmt.scopeAfter_mono within init
    exact ⟨⟨⟨scoped_countedAll init next within inside.1.1.1,
      fun e member => Expr.isScoped_mono within' (inside.1.1.2 e member)⟩,
      fun e member => Expr.isScoped_mono within' (inside.1.2 e member)⟩,
      scoped_countedAll body _ within' inside.2⟩
  | .foreach id collection body, next, scope, scope', within, inside => by
    simp only [Stmt.isScoped, Bool.and_eq_true] at inside
    have within' : id :: scope ⊆ id :: (next + 1) :: next :: scope' :=
      List.cons_subset_cons id (List.Subset.trans within (by simp))
    have turn := scoped_countedAll body (next + 2) within' inside.2
    have source := Expr.isScoped_mono within inside.1
    simp [Stmt.counted, countingLoop, Stmt.isScoped, Stmt.isScopedAll, Stmt.scopeAfter, declared,
      Expr.isScoped, Expr.vars, Expr.ofLocal, Var.inScope, turn] at source ⊢
    exact source
  | .switch scrutinee cases none, next, scope, scope', within, inside => by
    simp only [Stmt.isScoped, Stmt.counted, Bool.and_eq_true] at inside ⊢
    exact ⟨Expr.isScoped_mono within inside.1, scoped_countedCases cases next within inside.2⟩
  | .switch scrutinee cases (some default), next, scope, scope', within, inside => by
    simp only [Stmt.isScoped, Stmt.counted, Bool.and_eq_true] at inside ⊢
    exact ⟨⟨Expr.isScoped_mono within inside.1.1, scoped_countedCases cases next within inside.1.2⟩,
      scoped_countedAll default _ within inside.2⟩
  | .tryFinally body cleanup, next, scope, scope', within, inside => by
    simp only [Stmt.isScoped, Stmt.counted, Bool.and_eq_true] at inside ⊢
    exact ⟨scoped_countedAll body next within inside.1, scoped_countedAll cleanup _ within inside.2⟩
  | .yield value, next, scope, scope', within, inside => Expr.isScoped_mono within inside
  | .breakOut, _, _, _, _, _ | .continueLoop, _, _, _, _, _ | .stop, _, _, _, _, _ => rfl

theorem scoped_countedAll : (body : List Stmt) → (next : LocalId) → {scope scope' : List LocalId} →
    scope ⊆ scope' → Stmt.isScopedAll scope body → Stmt.isScopedAll scope' (Stmt.countedAll next body)
  | [], _, _, _, _, _ => rfl
  | s :: rest, next, scope, scope', within, inside => by
    simp only [Stmt.isScopedAll, Stmt.countedAll, Bool.and_eq_true, declared_counted] at inside ⊢
    exact ⟨scoped_counted s next within inside.1, scoped_countedAll rest _
      (List.append_subset.mpr ⟨List.subset_append_left _ _,
        List.Subset.trans within (List.subset_append_right _ _)⟩)
      inside.2⟩

theorem scoped_countedCases : (cases : List (List Int64 × List Stmt)) → (next : LocalId) →
    {scope scope' : List LocalId} → scope ⊆ scope' → Stmt.isScopedCases scope cases →
    Stmt.isScopedCases scope' (Stmt.countedCases next cases)
  | [], _, _, _, _, _ => rfl
  | (_, body) :: rest, next, scope, scope', within, inside => by
    simp only [Stmt.isScopedCases, Stmt.countedCases, Bool.and_eq_true] at inside ⊢
    exact ⟨scoped_countedAll body next within inside.1, scoped_countedCases rest _ within inside.2⟩
end

theorem scoped_expanded {method expanded : Method} (done : expandForeach method = .ok expanded)
    (inside : method.WellScoped) : expanded.WellScoped := by
  obtain ⟨locals, rfl, _⟩ := expandForeach_spec done
  exact scoped_countedAll method.body _ (List.Subset.refl _) inside

end Lowering
end Resumable
