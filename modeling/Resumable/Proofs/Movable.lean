import Resumable.Proofs.Lowerable

/-!
What a lowering that succeeded has found out about types. Each local of the method lives in a
field or occurs in the code of a routine, and either way its type has been moved into the machine.
So another lowering, which stores locals elsewhere, succeeds as well.
-/

namespace Resumable

theorem Expr.vars_subset_varsAll {es : List Expr} {e : Expr} (member : e ∈ es) : e.vars ⊆ Expr.varsAll es := by
  induction es with
  | nil => cases member
  | cons first rest ih =>
    rcases List.mem_cons.mp member with rfl | later
    · exact List.subset_append_left _ _
    · exact List.Subset.trans (ih later) (List.subset_append_right _ _)

namespace Lowering
open Machine (Code Instr Label Place Term)

/-- The local has a type that the machine can use, or it is in the frame. -/
def Seen (method : Method) (frame : List LocalId) (id : LocalId) : Prop :=
  method.Usable (.loc id) ∨ id ∈ frame

/-- The locals of the statement itself have been seen. -/
structure Shown (method : Method) (frame : List LocalId) (s : Stmt) : Prop where
  declared : ∀ id ∈ declared s, Seen method frame id
  used : ∀ e ∈ s.exprs, ∀ id, .loc id ∈ e.vars → Seen method frame id

/-- Locals that live in fields have types that the machine can use. -/
def Shape.Typed (shape : Shape) (method : Method) : Prop :=
  ∀ id, (shape.slot? (.loc id)).isSome → method.Usable (.loc id)

section
variable {method : Method} {frame frame' : List LocalId} {id : LocalId} {s : Stmt}

theorem Seen.mono (seen : Seen method frame id) (within : frame ⊆ frame') : Seen method frame' id :=
  seen.imp_right fun inside => within inside

theorem Seen.left (seen : Seen method frame id) : Seen method (frame ++ frame') id :=
  seen.mono (List.subset_append_left _ _)

theorem Seen.right (seen : Seen method frame' id) : Seen method (frame ++ frame') id :=
  seen.mono (List.subset_append_right _ _)

theorem Seen.usable (seen : Seen method frame id) (framed : ∀ id ∈ frame, method.Usable (.loc id)) :
    method.Usable (.loc id) :=
  seen.elim (fun usable => usable) (framed id)

theorem Shown.mono (shown : Shown method frame s) (within : frame ⊆ frame') : Shown method frame' s where
  declared id member := (shown.declared id member).mono within
  used e member id occurs := (shown.used e member id occurs).mono within

theorem Shown.of_framed (shown : Shown method frame s) (framed : ∀ id ∈ frame, method.Usable (.loc id)) :
    Shown method frame' s where
  declared id member := .inl ((shown.declared id member).usable framed)
  used e member id occurs := .inl ((shown.used e member id occurs).usable framed)

@[simp] theorem frameVars_nil : Machine.Code.frameVars [] = [] := rfl

@[simp] theorem frameVars_cons (instr : Instr) (rest : Code) :
    Machine.Code.frameVars (instr :: rest) = instr.frameVars ++ Machine.Code.frameVars rest := rfl

@[simp] theorem frameVars_append (first second : Code) :
    Machine.Code.frameVars (first ++ second) = first.frameVars ++ second.frameVars :=
  List.flatMap_append

theorem frameVars_conditions (terms : List Term) (target : Label) :
    Machine.Code.frameVars (terms.map (.gotoUnless · target)) = Term.frameVarsAll terms := by
  induction terms with
  | nil => rfl
  | cons t rest ih =>
    rw [List.map_cons, frameVars_cons, ih]
    rfl

/-- Frame variables of a routine have types that the machine can use. -/
theorem usable_of_flatBody {code : Code} {body : FlatBody} (flattened : flatBody method code = .ok body) :
    ∀ id ∈ code.frameVars, method.Usable (.loc id) := by
  have symbols {ids : List LocalId} {vars : List Machine.FrameVar}
      (done : frameSymbols method ids = .ok vars) : ∀ id ∈ ids, method.Usable (.loc id) := by
    induction ids generalizing vars with
    | nil => exact List.forall_mem_nil _
    | cons id rest ih =>
      simp only [frameSymbols, except_bind_eq_ok, except_pure_eq_ok, Lower.require_eq_ok] at done
      obtain ⟨l, found, ty, moved, others, later, _⟩ := done
      refine List.forall_mem_cons.mpr ⟨⟨l.ty, ty, ?_, moved⟩, ih later⟩
      simp [Method.varType?, found]
  simp only [flatBody, except_bind_eq_ok, except_pure_eq_ok] at flattened
  obtain ⟨vars, done, _⟩ := flattened
  intro id member
  exact symbols done id ((mem_sortedSet _ _ _).mpr member)

end

section
variable {method : Method} {shape : Shape}

theorem place_seen (typed : shape.Typed method) {id : LocalId} {place : Place}
    (placed : shape.place (.loc id) = .ok place) : Seen method place.frameVars id := by
  unfold Shape.place at placed
  cases slot : shape.slot? (.loc id) with
  | some field => exact .inl (typed id (by rw [slot]; rfl))
  | none =>
    rw [slot] at placed
    obtain rfl := Except.ok.inj placed
    exact .inr List.mem_cons_self

mutual
theorem term_seen (typed : shape.Typed method) : (e : Expr) → {t : Term} → shape.term e = .ok t →
    ∀ id, .loc id ∈ e.vars → Seen method t.frameVars id
  | .int _, _, _, _, occurs | .bool _, _, _, _, occurs | .str _, _, _, _, occurs | .null, _, _, _, occurs =>
    nomatch occurs
  | .var var, t, lowered, id, occurs => by
    simp only [Shape.term, except_bind_eq_ok, except_pure_eq_ok] at lowered
    obtain ⟨place, placed, rfl⟩ := lowered
    obtain rfl := List.mem_singleton.mp occurs
    exact place_seen typed placed
  | .assign var value, t, lowered, id, occurs => by
    simp only [Shape.term, except_bind_eq_ok, except_pure_eq_ok] at lowered
    obtain ⟨place, placed, inner, lowered, rfl⟩ := lowered
    rcases List.mem_cons.mp occurs with rfl | occurs
    · exact (place_seen typed placed).left
    · exact (term_seen typed value lowered id occurs).right
  | .unary op operand, t, lowered, id, occurs => by
    simp only [Shape.term, except_bind_eq_ok, except_pure_eq_ok] at lowered
    obtain ⟨inner, lowered, rfl⟩ := lowered
    exact term_seen typed operand lowered id occurs
  | .binary op left right, t, lowered, id, occurs => by
    simp only [Shape.term, except_bind_eq_ok, except_pure_eq_ok] at lowered
    obtain ⟨l, loweredLeft, r, loweredRight, rfl⟩ := lowered
    rcases List.mem_append.mp occurs with occurs | occurs
    · exact (term_seen typed left loweredLeft id occurs).left
    · exact (term_seen typed right loweredRight id occurs).right
  | .array items, t, lowered, id, occurs => by
    simp only [Shape.term, except_bind_eq_ok, except_pure_eq_ok] at lowered
    obtain ⟨inner, lowered, rfl⟩ := lowered
    exact terms_seen typed items lowered id occurs
  | .index base position, t, lowered, id, occurs => by
    simp only [Shape.term, except_bind_eq_ok, except_pure_eq_ok] at lowered
    obtain ⟨b, loweredBase, p, loweredPosition, rfl⟩ := lowered
    rcases List.mem_append.mp occurs with occurs | occurs
    · exact (term_seen typed base loweredBase id occurs).left
    · exact (term_seen typed position loweredPosition id occurs).right
  | .len base, t, lowered, id, occurs => by
    simp only [Shape.term, except_bind_eq_ok, except_pure_eq_ok] at lowered
    obtain ⟨inner, lowered, rfl⟩ := lowered
    exact term_seen typed base lowered id occurs
  | .call callee args, t, lowered, id, occurs => by
    simp only [Shape.term, except_bind_eq_ok, except_pure_eq_ok] at lowered
    obtain ⟨inner, lowered, rfl⟩ := lowered
    exact terms_seen typed args lowered id occurs

theorem terms_seen (typed : shape.Typed method) : (es : List Expr) → {ts : List Term} →
    shape.terms es = .ok ts → ∀ id, .loc id ∈ Expr.varsAll es → Seen method (Term.frameVarsAll ts) id
  | [], _, _, _, occurs => nomatch occurs
  | e :: rest, ts, lowered, id, occurs => by
    simp only [Shape.terms, except_bind_eq_ok, except_pure_eq_ok] at lowered
    obtain ⟨t, loweredFirst, others, loweredRest, rfl⟩ := lowered
    rcases List.mem_append.mp occurs with occurs | occurs
    · exact (term_seen typed e loweredFirst id occurs).left
    · exact (terms_seen typed rest loweredRest id occurs).right
end

theorem effect_seen (typed : shape.Typed method) {e : Expr} {instr : Instr}
    (lowered : shape.effect e = .ok instr) {id : LocalId} (occurs : .loc id ∈ e.vars) :
    Seen method instr.frameVars id := by
  cases e with
  | assign var value =>
    simp only [Shape.effect, except_bind_eq_ok, except_pure_eq_ok] at lowered
    obtain ⟨place, placed, inner, lowered, rfl⟩ := lowered
    rcases List.mem_cons.mp occurs with rfl | occurs
    · exact (place_seen typed placed).left
    · exact (term_seen typed value lowered id occurs).right
  | _ =>
    simp only [Shape.effect, except_bind_eq_ok, except_pure_eq_ok] at lowered
    obtain ⟨inner, lowered, rfl⟩ := lowered
    exact term_seen typed _ lowered id occurs

theorem effects_seen (typed : shape.Typed method) {es : List Expr} {code : Code}
    (lowered : shape.effects es = .ok code) :
    ∀ e ∈ es, ∀ id, .loc id ∈ e.vars → Seen method code.frameVars id := by
  induction es generalizing code with
  | nil => nofun
  | cons e rest ih =>
    simp only [Shape.effects, except_bind_eq_ok, except_pure_eq_ok] at lowered
    obtain ⟨instr, loweredFirst, others, loweredRest, rfl⟩ := lowered
    refine List.forall_mem_cons.mpr ⟨fun id occurs => ?_, fun e member id occurs => ?_⟩
    · exact (effect_seen typed loweredFirst occurs).left
    · exact (ih loweredRest e member id occurs).right

/-- Statements have been shown whose locals are in the frame of some code. -/
def ShownAll (method : Method) (code : Code) (statements : List Stmt) : Prop :=
  ∀ s ∈ statements, Shown method code.frameVars s

theorem frameVars_subset {code code' : Code} (within : ∀ instr ∈ code, instr ∈ code') :
    code.frameVars ⊆ code'.frameVars := by
  intro id member
  obtain ⟨instr, inside, occurs⟩ := List.mem_flatMap.mp member
  exact List.mem_flatMap.mpr ⟨instr, within instr inside, occurs⟩

theorem ShownAll.mono {code code' : Code} {statements : List Stmt} (shown : ShownAll method code statements)
    (within : ∀ instr ∈ code, instr ∈ code') : ShownAll method code' statements :=
  fun s member => (shown s member).mono (frameVars_subset within)

mutual
theorem shown_stmt (typed : shape.Typed method) : (s : Stmt) → {exits : Exits} → {p p' : Progress} →
    {code : Code} → emitStmt method shape exits s p = .ok code p' →
    ShownAll method code (s.preorder fun _ => false)
  | .block body, exits, p, p', code, emitted => by
    rw [emitStmt] at emitted
    simp only [ShownAll, Stmt.preorder, Bool.false_eq_true, if_false, List.forall_mem_cons]
    exact ⟨⟨nofun, nofun⟩, shown_block typed body emitted⟩
  | .declare id none, exits, p, p', code, emitted => by
    obtain ⟨value, place, _, placed, rfl, rfl⟩ := emitStmt_declare_none_eq_ok.mp emitted
    refine List.forall_mem_cons.mpr ⟨⟨List.forall_mem_cons.mpr ⟨?_, nofun⟩, nofun⟩, nofun⟩
    exact (place_seen typed placed).left.left
  | .declare id (some init), exits, p, p', code, emitted => by
    obtain ⟨value, place, lowered, placed, rfl, rfl⟩ := emitStmt_declare_some_eq_ok.mp emitted
    refine List.forall_mem_cons.mpr ⟨⟨List.forall_mem_cons.mpr ⟨?_, nofun⟩,
      List.forall_mem_cons.mpr ⟨fun id occurs => ?_, nofun⟩⟩, nofun⟩
    · exact (place_seen typed placed).left.left
    · exact (term_seen typed init lowered id occurs).right.left
  | .eval value, exits, p, p', code, emitted => by
    obtain ⟨instr, lowered, rfl, rfl⟩ := emitStmt_eval_eq_ok.mp emitted
    refine List.forall_mem_cons.mpr ⟨⟨nofun, List.forall_mem_cons.mpr ⟨fun id occurs => ?_, nofun⟩⟩, nofun⟩
    exact (effect_seen typed lowered occurs).left
  | .ite cond yes none, exits, p, p', code, emitted => by
    obtain ⟨t, yesCode, lowered, emittedYes, rfl⟩ := emitStmt_ite_none_eq_ok.mp emitted
    simp only [ShownAll, Stmt.preorder, Bool.false_eq_true, if_false, List.forall_mem_cons]
    refine ⟨⟨nofun, List.forall_mem_cons.mpr ⟨fun id occurs => ?_, nofun⟩⟩, ?_⟩
    · exact (term_seen typed cond lowered id occurs).left
    · exact (shown_block typed yes emittedYes).mono fun _ inside => by simp [inside]
  | .ite cond yes (some no), exits, p, p', code, emitted => by
    obtain ⟨t, yesCode, _, noCode, lowered, emittedYes, emittedNo, rfl⟩ :=
      emitStmt_ite_some_eq_ok.mp emitted
    simp only [ShownAll, Stmt.preorder, Bool.false_eq_true, if_false, List.forall_mem_cons,
      List.forall_mem_append]
    refine ⟨⟨nofun, List.forall_mem_cons.mpr ⟨fun id occurs => ?_, nofun⟩⟩, ?_, ?_⟩
    · exact (term_seen typed cond lowered id occurs).left
    · exact (shown_block typed yes emittedYes).mono fun _ inside => by simp [inside]
    · exact (shown_block typed no emittedNo).mono fun _ inside => by simp [inside]
  | .whileLoop cond body, exits, p, p', code, emitted => by
    obtain ⟨t, bodyCode, lowered, emittedBody, rfl⟩ := emitStmt_whileLoop_eq_ok.mp emitted
    simp only [ShownAll, Stmt.preorder, Bool.false_eq_true, if_false, List.forall_mem_cons]
    refine ⟨⟨nofun, List.forall_mem_cons.mpr ⟨fun id occurs => ?_, nofun⟩⟩, ?_⟩
    · exact (term_seen typed cond lowered id occurs).left.right
    · exact (shown_block typed body emittedBody).mono fun _ inside => by simp [inside]
  | .forLoop init cond step body, exits, p, p', code, emitted => by
    obtain ⟨initCode, q, ts, bodyCode, stepCode, emittedInit, loweredCond, emittedBody, loweredStep, rfl⟩ :=
      emitStmt_forLoop_eq_ok.mp emitted
    simp only [ShownAll, Stmt.preorder, Bool.false_eq_true, if_false, List.forall_mem_cons,
      List.forall_mem_append]
    refine ⟨⟨nofun, fun e member id occurs => ?_⟩, ?_, ?_⟩
    · rcases List.mem_append.mp member with member | member
      · have seen := terms_seen typed _ loweredCond id (Expr.vars_subset_varsAll member occurs)
        rw [← frameVars_conditions ts (q.nextLabel + 2)] at seen
        exact seen.mono (frameVars_subset fun _ inside => by simp [inside])
      · exact (effects_seen typed loweredStep e member id occurs).mono
          (frameVars_subset fun _ inside => by simp [inside])
    · exact (shown_block typed init emittedInit).mono fun _ inside => by simp [inside]
    · exact (shown_block typed body emittedBody).mono fun _ inside => by simp [inside]
  | .foreach _ _ _, exits, p, p', code, emitted => by
    exact absurd emitted emitStmt_foreach_ne_ok
  | .switch scrutinee cases none, exits, p, p', code, emitted => by
    obtain ⟨t, arms, lowered, emittedArms, rfl⟩ := emitStmt_switch_none_eq_ok.mp emitted
    simp only [ShownAll, Stmt.preorder, Bool.false_eq_true, if_false, List.forall_mem_cons]
    refine ⟨⟨nofun, List.forall_mem_cons.mpr ⟨fun id occurs => ?_, nofun⟩⟩, ?_⟩
    · exact (term_seen typed scrutinee lowered id occurs).left
    · exact (shown_cases typed cases emittedArms).mono fun _ inside => by simp [inside]
  | .switch scrutinee cases (some default), exits, p, p', code, emitted => by
    obtain ⟨t, arms, _, defaultCode, lowered, emittedArms, emittedDefault, rfl⟩ :=
      emitStmt_switch_some_eq_ok.mp emitted
    simp only [ShownAll, Stmt.preorder, Bool.false_eq_true, if_false, List.forall_mem_cons,
      List.forall_mem_append]
    refine ⟨⟨nofun, List.forall_mem_cons.mpr ⟨fun id occurs => ?_, nofun⟩⟩, ?_, ?_⟩
    · exact (term_seen typed scrutinee lowered id occurs).left
    · exact (shown_cases typed cases emittedArms).mono fun _ inside => by simp [inside]
    · exact (shown_block typed default emittedDefault).mono fun _ inside => by simp [inside]
  | .tryFinally body cleanup, exits, p, p', code, emitted => by
    simp only [ShownAll, Stmt.preorder, Bool.false_eq_true, if_false, List.forall_mem_cons,
      List.forall_mem_append]
    refine ⟨⟨nofun, nofun⟩, ?_⟩
    by_cases suspends : Block.suspends body
    · obtain ⟨name, cleanupCode, _, routine, bodyCode, _, emittedCleanup, flattened, emittedBody, rfl⟩ :=
        (emitStmt_tryFinally_eq_ok_of_suspends suspends).mp emitted
      have framed := usable_of_flatBody flattened
      refine ⟨(shown_block typed body emittedBody).mono fun _ inside => by simp [inside], fun s member => ?_⟩
      exact (shown_block typed cleanup emittedCleanup s member).of_framed fun id inside =>
        framed id (by simp [inside])
    · obtain ⟨bodyCode, _, last, emittedBody, emittedLast, rfl⟩ :=
        (emitStmt_tryFinally_eq_ok_of_not_suspends suspends).mp emitted
      exact ⟨(shown_block typed body emittedBody).mono fun _ inside => by simp [inside],
        (shown_block typed cleanup emittedLast).mono fun _ inside => by simp [inside]⟩
  | .yield value, exits, p, p', code, emitted => by
    obtain ⟨t, lowered, rfl, rfl⟩ := emitStmt_yield_eq_ok.mp emitted
    refine List.forall_mem_cons.mpr ⟨⟨nofun, List.forall_mem_cons.mpr ⟨fun id occurs => ?_, nofun⟩⟩, nofun⟩
    exact (term_seen typed value lowered id occurs).left
  | .breakOut, _, _, _, _, _ | .continueLoop, _, _, _, _, _ | .stop, _, _, _, _, _ =>
    List.forall_mem_cons.mpr ⟨⟨nofun, nofun⟩, nofun⟩

theorem shown_block (typed : shape.Typed method) : (body : List Stmt) → {exits : Exits} →
    {p p' : Progress} → {code : Code} → emitBlock method shape exits body p = .ok code p' →
    ShownAll method code (Stmt.preorderAll (fun _ => false) body)
  | [], _, _, _, _, _ => nofun
  | s :: rest, exits, p, p', code, emitted => by
    obtain ⟨first, _, others, emittedFirst, emittedRest, rfl⟩ := emitBlock_cons_eq_ok.mp emitted
    simp only [ShownAll, Stmt.preorderAll, List.forall_mem_append]
    exact ⟨(shown_stmt typed s emittedFirst).mono fun _ inside => by simp [inside], (shown_block typed rest emittedRest).mono fun _ inside => by simp [inside]⟩

theorem shown_cases (typed : shape.Typed method) : (cases : List (List Int64 × List Stmt)) →
    {exits : Exits} → {breakTo label : Label} → {p p' : Progress} → {code : Code} →
    emitCases method shape exits breakTo label cases p = .ok code p' →
    ShownAll method code (Stmt.preorderCases (fun _ => false) cases)
  | [], _, _, _, _, _, _, _ => nofun
  | (_, body) :: rest, exits, breakTo, label, p, p', code, emitted => by
    obtain ⟨first, _, others, emittedFirst, emittedRest, rfl⟩ := emitCases_cons_eq_ok.mp emitted
    simp only [ShownAll, Stmt.preorderCases, List.forall_mem_append]
    exact ⟨(shown_block typed body emittedFirst).mono fun _ inside => by simp [inside], (shown_cases typed rest emittedRest).mono fun _ inside => by simp [inside]⟩
end

end

namespace Outline
variable {method : Method} {options : Options} {lowered : Lowered}
  (outline : Outline method options lowered)

theorem usable_of_slot {var : Var} (slot : (outline.shape.slot? var).isSome) :
    outline.expanded.Usable var := by
  obtain ⟨id, found⟩ := Option.isSome_iff_exists.mp slot
  obtain ⟨field, member, _, role⟩ := outline.built.slot found
  have typed := buildShape_typed outline.shaped field member
  simp only [role, roleType, except_bind_eq_ok, Lower.require_eq_ok] at typed
  obtain ⟨ty, known, moved⟩ := typed
  exact ⟨ty, field.ty, known, moved⟩

theorem usable_of_frame : ∀ id ∈ outline.code.frameVars, outline.expanded.Usable (.loc id) := by
  have framed := usable_of_flatBody outline.flattened
  intro id member
  apply framed
  exact frameVars_subset (fun _ inside => by simp [resumable, inside]) member

/-- A lowering that succeeded has moved the types of the method. -/
theorem movable : outline.expanded.Movable where
  element := by
    obtain ⟨field, member, _, role⟩ := outline.built.current
    have typed := buildShape_typed outline.shaped field member
    simp only [role, roleType, except_bind_eq_ok] at typed
    obtain ⟨ty, known, moved⟩ := typed
    exact ⟨ty, field.ty, known, moved⟩
  receiver present := by
    rw [outline.receiver_eq] at present
    exact outline.usable_of_slot (outline.slot_receiver.mpr present)
  params index inside := by
    rw [outline.params_eq] at inside
    exact outline.usable_of_slot ((outline.slot_param index).mpr inside)
  declared s within id member :=
    ((shown_block (fun _ => outline.usable_of_slot) outline.expanded.body outline.emitted s within).declared
      id member).usable outline.usable_of_frame
  used s within e member id occurs :=
    ((shown_block (fun _ => outline.usable_of_slot) outline.expanded.body outline.emitted s within).used
      e member id occurs).usable outline.usable_of_frame

theorem lowerable : Lowerable outline.expanded where
  passed := outline.passed_expanded
  expanded := by
    obtain ⟨locals, same, _⟩ := expandForeach_spec outline.expands
    rw [same]
    exact expanded_countedAll method.body _
  movable := outline.movable

end Outline

/-- Whether a lowering succeeds does not depend on the options. -/
theorem succeeds_of_lower {method : Method} {platform : Platform} {options : Options} {lowered : Lowered}
    {supply supply' : NameSupply} (lowers : method.lower platform options supply = .ok lowered supply')
    (options' : Options) : Succeeds (method.lower platform options') fun _ => True := by
  obtain ⟨outline⟩ := outline_of_lower lowers
  simp only [Method.lower, bind_eq_ok, checked_eq_ok] at lowers
  obtain ⟨⟨kind, members⟩, _, ⟨validated, _⟩, _⟩ := lowers
  exact succeeds_lower validated outline.expands outline.lowerable options'

end Lowering
end Resumable
