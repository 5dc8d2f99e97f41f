import Resumable.Proofs.Checking

/-!
Emission succeeds. What the check knows of the surroundings of a statement is what its exits
provide: a jump that passed the check has code that takes it, through however many cleanups.
The frame variables of the code are those of the statements.
-/

namespace Resumable.Lowering
open Machine (Code Instr Label Place Term)

/-- Every frame variable of the code is fine. -/
def Framed (fine : LocalId → Prop) (code : Code) : Prop := ∀ id ∈ code.frameVars, fine id

/-- The variable has a place, and a fine one if it is in the frame. -/
def Shape.Places (shape : Shape) (fine : LocalId → Prop) (var : Var) : Prop :=
  ∃ place, shape.place var = .ok place ∧ ∀ id ∈ place.frameVars, fine id

section
variable {fine : LocalId → Prop} {shape : Shape}

@[simp] theorem framed_nil : Framed fine [] := nofun

@[simp] theorem framed_cons {instr : Instr} {rest : Code} :
    Framed fine (instr :: rest) ↔ (∀ id ∈ instr.frameVars, fine id) ∧ Framed fine rest :=
  List.forall_mem_append

@[simp] theorem framed_append {first second : Code} :
    Framed fine (first ++ second) ↔ Framed fine first ∧ Framed fine second := by
  unfold Framed Machine.Code.frameVars
  rw [List.flatMap_append, List.forall_mem_append]

theorem framed_goto (target : Label) : Framed fine [.goto target] := nofun

theorem framed_finish : Framed fine shape.finish := nofun

theorem framed_conditions {terms : List Term} (framed : ∀ id ∈ Term.frameVarsAll terms, fine id)
    (target : Label) : Framed fine (terms.map (.gotoUnless · target)) := by
  induction terms with
  | nil => exact framed_nil
  | cons t rest ih =>
    obtain ⟨first, later⟩ := List.forall_mem_append.mp framed
    exact framed_cons.mpr ⟨first, ih later⟩

mutual
theorem term_ok : (e : Expr) → (∀ var ∈ e.vars, shape.Places fine var) →
    ∃ t, shape.term e = .ok t ∧ ∀ id ∈ t.frameVars, fine id
  | .int _, _ | .bool _, _ | .str _, _ | .null, _ => ⟨_, rfl, nofun⟩
  | .var var, placed => by
    obtain ⟨place, found, framed⟩ := placed var List.mem_cons_self
    exact ⟨.load place, by rw [Shape.term, found]; rfl, framed⟩
  | .assign var value, placed => by
    obtain ⟨here, placed⟩ := List.forall_mem_cons.mp placed
    obtain ⟨place, found, framed⟩ := here
    obtain ⟨t, lowered, framed'⟩ := term_ok value placed
    exact ⟨.assign place t, by rw [Shape.term, found, lowered]; rfl, List.forall_mem_append.mpr ⟨framed, framed'⟩⟩
  | .unary op operand, placed => by
    obtain ⟨t, lowered, framed⟩ := term_ok operand placed
    exact ⟨.unary op t, by rw [Shape.term, lowered]; rfl, framed⟩
  | .binary op left right, placed => by
    obtain ⟨placedLeft, placedRight⟩ := List.forall_mem_append.mp placed
    obtain ⟨l, loweredLeft, framed⟩ := term_ok left placedLeft
    obtain ⟨r, loweredRight, framed'⟩ := term_ok right placedRight
    exact ⟨.binary op l r, by rw [Shape.term, loweredLeft, loweredRight]; rfl,
      List.forall_mem_append.mpr ⟨framed, framed'⟩⟩
  | .array items, placed => by
    obtain ⟨ts, lowered, framed⟩ := terms_ok items placed
    exact ⟨.array ts, by rw [Shape.term, lowered]; rfl, framed⟩
  | .index base position, placed => by
    obtain ⟨placedBase, placedPosition⟩ := List.forall_mem_append.mp placed
    obtain ⟨b, loweredBase, framed⟩ := term_ok base placedBase
    obtain ⟨p, loweredPosition, framed'⟩ := term_ok position placedPosition
    exact ⟨.index b p, by rw [Shape.term, loweredBase, loweredPosition]; rfl,
      List.forall_mem_append.mpr ⟨framed, framed'⟩⟩
  | .len base, placed => by
    obtain ⟨t, lowered, framed⟩ := term_ok base placed
    exact ⟨.len t, by rw [Shape.term, lowered]; rfl, framed⟩
  | .call callee args, placed => by
    obtain ⟨ts, lowered, framed⟩ := terms_ok args placed
    exact ⟨.call callee ts, by rw [Shape.term, lowered]; rfl, framed⟩

theorem terms_ok : (es : List Expr) → (∀ var ∈ Expr.varsAll es, shape.Places fine var) →
    ∃ ts, shape.terms es = .ok ts ∧ ∀ id ∈ Term.frameVarsAll ts, fine id
  | [], _ => ⟨[], rfl, nofun⟩
  | e :: rest, placed => by
    obtain ⟨placedFirst, placedRest⟩ := List.forall_mem_append.mp placed
    obtain ⟨t, lowered, framed⟩ := term_ok e placedFirst
    obtain ⟨ts, loweredRest, framed'⟩ := terms_ok rest placedRest
    exact ⟨t :: ts, by rw [Shape.terms, lowered, loweredRest]; rfl, List.forall_mem_append.mpr ⟨framed, framed'⟩⟩
end

theorem effect_ok {e : Expr} (placed : ∀ var ∈ e.vars, shape.Places fine var) :
    ∃ instr, shape.effect e = .ok instr ∧ ∀ id ∈ instr.frameVars, fine id := by
  cases e with
  | assign var value =>
    obtain ⟨here, placed⟩ := List.forall_mem_cons.mp placed
    obtain ⟨place, found, framed⟩ := here
    obtain ⟨t, lowered, framed'⟩ := term_ok value placed
    exact ⟨.assign place t, by rw [Shape.effect, found, lowered]; rfl, List.forall_mem_append.mpr ⟨framed, framed'⟩⟩
  | _ =>
    obtain ⟨t, lowered, framed⟩ := term_ok _ placed
    exact ⟨.eval t, by simp only [Shape.effect, lowered]; rfl, framed⟩

theorem effects_ok {es : List Expr} (placed : ∀ e ∈ es, ∀ var ∈ e.vars, shape.Places fine var) :
    ∃ code, shape.effects es = .ok code ∧ Framed fine code := by
  induction es with
  | nil => exact ⟨[], rfl, framed_nil⟩
  | cons e rest ih =>
    obtain ⟨here, later⟩ := List.forall_mem_cons.mp placed
    obtain ⟨instr, lowered, framed⟩ := effect_ok here
    obtain ⟨code, loweredRest, framed'⟩ := ih later
    exact ⟨instr :: code, by rw [Shape.effects, lowered, loweredRest]; rfl, framed_cons.mpr ⟨framed, framed'⟩⟩

theorem varsAll_toList {cond : Option Expr} (placed : ∀ e ∈ cond.toList, ∀ var ∈ e.vars, shape.Places fine var) :
    ∀ var ∈ Expr.varsAll cond.toList, shape.Places fine var := by
  cases cond with
  | none => nofun
  | some e => simpa [Expr.varsAll] using placed

theorem initial_ok (fine : LocalId → Prop) {method : Method} {id : LocalId} (declared : (method.local? id).isSome) :
    ∃ t, initial method id = .ok t ∧ ∀ id ∈ t.frameVars, fine id := by
  obtain ⟨l, found⟩ := Option.isSome_iff_exists.mp declared
  unfold initial
  rw [found]
  simp only [Lower.require, bind, Except.bind]
  cases l.ty with
  | int => exact ⟨.int 0, rfl, List.forall_mem_nil _⟩
  | bool => exact ⟨.bool false, rfl, List.forall_mem_nil _⟩
  | _ => exact ⟨.null, rfl, List.forall_mem_nil _⟩

end

/-- The exit can be taken anywhere. -/
def Exit.Serves (fine : LocalId → Prop) (exit : Exit) : Prop := Succeeds exit.take (Framed fine)

/-- Every jump that the check allows in these surroundings can be taken. -/
structure Exits.Serve (fine : LocalId → Prop) (exits : Exits) (around : Surroundings) : Prop where
  onBreak : around.breakable = true → exits.onBreak.Serves fine
  onContinue : around.inLoop = true → exits.onContinue.Serves fine
  onStop : around.inCleanup = false → exits.onStop.Serves fine

section
variable {fine : LocalId → Prop} {exits : Exits} {around : Surroundings}

theorem Exit.serves_to (target : Label) : (Exit.to target).Serves fine :=
  .pure (framed_goto target)

theorem Exit.Serves.after {exit : Exit} (serves : exit.Serves fine) {cleanup : Emit Code}
    (cleans : Succeeds cleanup (Framed fine)) : (exit.after cleanup).Serves fine := by
  cases exit with
  | error e =>
    obtain ⟨_, _, taken, _⟩ := serves ⟨0, [], [], .empty⟩
    cases taken
  | ok emit =>
    exact cleans.bind fun first framed => Succeeds.bind serves fun rest framed' =>
      .pure (framed_append.mpr ⟨framed, framed'⟩)

namespace Exits.Serve

theorem body (method : Method) (shape : Shape) : (Exits.body method shape).Serve fine .body where
  onBreak := nofun
  onContinue := nofun
  onStop _ := Succeeds.pure framed_finish

theorem sealed (method : Method) (cleanups : List String) :
    (Exits.sealed method cleanups).Serve fine .cleanup where
  onBreak := nofun
  onContinue := nofun
  onStop := nofun

theorem loop (serve : exits.Serve fine around) (breakTo continueTo : Label) :
    (exits.loop breakTo continueTo).Serve fine around.loop where
  onBreak _ := Exit.serves_to breakTo
  onContinue _ := Exit.serves_to continueTo
  onStop := serve.onStop

theorem switch (serve : exits.Serve fine around) (breakTo : Label) :
    (exits.switch breakTo).Serve fine around.switch where
  onBreak _ := Exit.serves_to breakTo
  onContinue := serve.onContinue
  onStop := serve.onStop

theorem guarded (serve : exits.Serve fine around) {cleanup : Emit Code}
    (cleans : Succeeds cleanup (Framed fine)) : (exits.guarded cleanup).Serve fine around where
  onBreak inside := (serve.onBreak inside).after cleans
  onContinue inside := (serve.onContinue inside).after cleans
  onStop outside := (serve.onStop outside).after cleans

theorem enter (serve : exits.Serve fine around) (cleanups : List String) :
    Serve fine { exits with cleanups := cleanups } around where
  onBreak := serve.onBreak
  onContinue := serve.onContinue
  onStop := serve.onStop

end Exits.Serve
end

theorem succeeds_reserveLabels (count : Nat) : Succeeds (reserveLabels count) fun _ => True :=
  fun _ => ⟨_, _, rfl, trivial⟩

theorem succeeds_freshCleanup : Succeeds freshCleanup fun _ => True :=
  fun _ => ⟨_, _, rfl, trivial⟩

theorem succeeds_addCleanup (name : String) (body : FlatBody) :
    Succeeds (addCleanup name body) fun _ => True :=
  fun _ => ⟨_, _, rfl, trivial⟩

theorem succeeds_addPoint (resume : Label) (cleanup : List String) :
    Succeeds (addPoint resume cleanup) fun _ => True :=
  fun _ => ⟨_, _, rfl, trivial⟩

/-- A statement whose variables have places, and which is no foreach loop. -/
structure Shape.Hosts (shape : Shape) (method : Method) (fine : LocalId → Prop) (s : Stmt) : Prop where
  plain : ∀ id collection body, s ≠ .foreach id collection body
  declared : ∀ id ∈ declared s, (method.local? id).isSome ∧ shape.Places fine (.loc id)
  used : ∀ e ∈ s.exprs, ∀ var ∈ e.vars, shape.Places fine var

section
variable {method : Method} {shape : Shape} {fine : LocalId → Prop}

mutual
theorem emits_stmt (flat : ∀ code, Framed fine code → ∃ body, flatBody method code = .ok body) :
    (s : Stmt) → {around : Surroundings} → checkStmt method around s = .ok () → {exits : Exits} →
    exits.Serve fine around → (∀ t ∈ s.preorder fun _ => false, shape.Hosts method fine t) →
    Succeeds (emitStmt method shape exits s) (Framed fine)
  | .block body, around, passed, exits, serve, hosts => by
    simp only [Stmt.preorder, Bool.false_eq_true, if_false, List.forall_mem_cons] at hosts
    exact emits_block flat body passed serve hosts.2
  | .declare id none, around, passed, exits, serve, hosts => by
    obtain ⟨known, placed⟩ := (hosts _ List.mem_cons_self).declared id List.mem_cons_self
    simp only [emitStmt]
    refine Succeeds.bind (.checked (initial_ok fine known)) fun t framed => ?_
    refine Succeeds.bind (.checked placed) fun place framed' => .pure ?_
    exact framed_cons.mpr ⟨List.forall_mem_append.mpr ⟨framed', framed⟩, framed_nil⟩
  | .declare id (some init), around, passed, exits, serve, hosts => by
    have here := hosts _ List.mem_cons_self
    obtain ⟨_, placed⟩ := here.declared id List.mem_cons_self
    simp only [emitStmt]
    refine Succeeds.bind (.checked (term_ok init (here.used init (by simp [Stmt.exprs])))) fun t framed => ?_
    refine Succeeds.bind (.checked placed) fun place framed' => .pure ?_
    exact framed_cons.mpr ⟨List.forall_mem_append.mpr ⟨framed', framed⟩, framed_nil⟩
  | .eval value, around, passed, exits, serve, hosts => by
    have here := (hosts _ List.mem_cons_self).used value (by simp [Stmt.exprs])
    simp only [emitStmt]
    exact Succeeds.bind (.checked (effect_ok here)) fun instr framed =>
      .pure (framed_cons.mpr ⟨framed, framed_nil⟩)
  | .ite cond yes none, around, passed, exits, serve, hosts => by
    simp only [checkStmt, check_bind] at passed
    simp only [Stmt.preorder, Bool.false_eq_true, if_false, List.forall_mem_cons] at hosts
    simp only [emitStmt]
    refine Succeeds.bind (.checked (term_ok cond (hosts.1.used cond (by simp [Stmt.exprs])))) fun t framed => ?_
    refine Succeeds.bind (succeeds_reserveLabels 2) fun otherwise _ => ?_
    refine (emits_block flat yes passed.2 serve hosts.2).bind fun code framed' => .pure ?_
    simpa [framed', Instr.frameVars] using framed
  | .ite cond yes (some no), around, passed, exits, serve, hosts => by
    simp only [checkStmt, check_bind] at passed
    simp only [Stmt.preorder, Bool.false_eq_true, if_false, List.forall_mem_cons,
      List.forall_mem_append] at hosts
    simp only [emitStmt]
    refine Succeeds.bind (.checked (term_ok cond (hosts.1.used cond (by simp [Stmt.exprs])))) fun t framed => ?_
    refine Succeeds.bind (succeeds_reserveLabels 2) fun otherwise _ => ?_
    refine (emits_block flat yes passed.2.1 serve hosts.2.1).bind fun code framed' => ?_
    refine (emits_block flat no passed.2.2 serve hosts.2.2).bind fun code' framed'' => .pure ?_
    simpa [framed', framed'', Instr.frameVars] using framed
  | .whileLoop cond body, around, passed, exits, serve, hosts => by
    simp only [checkStmt, check_bind] at passed
    simp only [Stmt.preorder, Bool.false_eq_true, if_false, List.forall_mem_cons] at hosts
    simp only [emitStmt]
    refine Succeeds.bind (succeeds_reserveLabels 2) fun top _ => ?_
    refine Succeeds.bind (.checked (term_ok cond (hosts.1.used cond (by simp [Stmt.exprs])))) fun t framed => ?_
    refine (emits_block flat body passed.2 (serve.loop _ _) hosts.2).bind fun code framed' => .pure ?_
    simpa [framed', Instr.frameVars] using framed
  | .forLoop init cond step body, around, passed, exits, serve, hosts => by
    simp only [checkStmt, check_bind] at passed
    obtain ⟨passedInit, _, _, passedBody⟩ := passed
    simp only [Stmt.preorder, Bool.false_eq_true, if_false, List.forall_mem_cons,
      List.forall_mem_append] at hosts
    have conds := varsAll_toList fun e member => hosts.1.used e (List.mem_append_left _ member)
    have steps := fun e member => hosts.1.used e (List.mem_append_right _ member)
    simp only [emitStmt]
    refine (emits_block flat init passedInit serve hosts.2.1).bind fun code framed => ?_
    refine Succeeds.bind (succeeds_reserveLabels 3) fun top _ => ?_
    refine Succeeds.bind (.checked (terms_ok _ conds)) fun ts framedConds => ?_
    refine (emits_block flat body passedBody (serve.loop _ _) hosts.2.2).bind fun code' framed' => ?_
    refine Succeeds.bind (.checked (effects_ok steps)) fun code'' framed'' => .pure ?_
    simp [framed, framed', framed'', framed_conditions framedConds, Instr.frameVars]
  | .foreach id collection body, around, passed, exits, serve, hosts =>
    absurd rfl ((hosts _ List.mem_cons_self).plain id collection body)
  | .switch scrutinee cases none, around, passed, exits, serve, hosts => by
    simp only [checkStmt, check_bind] at passed
    simp only [Stmt.preorder, Bool.false_eq_true, if_false, List.forall_mem_cons] at hosts
    have value := term_ok scrutinee (hosts.1.used scrutinee (by simp [Stmt.exprs]))
    simp only [emitStmt]
    refine Succeeds.bind (.checked value) fun t framed => ?_
    refine Succeeds.bind (succeeds_reserveLabels 1) fun breakTo _ => ?_
    refine Succeeds.bind (succeeds_reserveLabels cases.length) fun first _ => ?_
    refine (emits_cases flat cases passed.2 (serve.switch _) hosts.2).bind fun arms framed' => .pure ?_
    simpa [framed', Instr.frameVars] using framed
  | .switch scrutinee cases (some default), around, passed, exits, serve, hosts => by
    simp only [checkStmt, check_bind] at passed
    simp only [Stmt.preorder, Bool.false_eq_true, if_false, List.forall_mem_cons,
      List.forall_mem_append] at hosts
    have value := term_ok scrutinee (hosts.1.used scrutinee (by simp [Stmt.exprs]))
    simp only [emitStmt]
    refine Succeeds.bind (.checked value) fun t framed => ?_
    refine Succeeds.bind (succeeds_reserveLabels 1) fun breakTo _ => ?_
    refine Succeeds.bind (succeeds_reserveLabels cases.length) fun first _ => ?_
    refine Succeeds.bind (succeeds_reserveLabels 1) fun otherwise _ => ?_
    refine (emits_cases flat cases passed.2.1 (serve.switch _) hosts.2.1).bind fun arms framed' => ?_
    refine (emits_block flat default passed.2.2 (serve.switch _) hosts.2.2).bind fun code framed'' => .pure ?_
    simpa [framed', framed'', Instr.frameVars] using framed
  | .tryFinally body cleanup, around, passed, exits, serve, hosts => by
    simp only [checkStmt, check_bind] at passed
    simp only [Stmt.preorder, Bool.false_eq_true, if_false, List.forall_mem_cons,
      List.forall_mem_append] at hosts
    rw [emitStmt]
    split
    · have calls (name : String) : Succeeds (pure [callCleanup name] : Emit Code) (Framed fine) :=
        .pure (by simp [callCleanup, Instr.frameVars, Term.frameVars])
      refine Succeeds.bind succeeds_freshCleanup fun name _ => ?_
      refine (emits_block flat cleanup passed.2 (.sealed method []) hosts.2.2).bind fun code framed => ?_
      have routine : ∃ body, flatBody method (code ++ [.ret none]) = .ok body ∧ True := by
        obtain ⟨body, flattened⟩ := flat (code ++ [.ret none]) (by simp [framed, Instr.frameVars])
        exact ⟨body, flattened, trivial⟩
      refine Succeeds.bind (.checked routine) fun routine _ => ?_
      refine Succeeds.bind (succeeds_addCleanup name routine) fun _ _ => ?_
      have inside := (serve.guarded (calls name)).enter (name :: exits.cleanups)
      refine (emits_block flat body passed.1 inside hosts.2.1).bind fun code' framed' => .pure ?_
      simp [framed', callCleanup, Instr.frameVars, Term.frameVars]
    · have repeated := emits_block flat cleanup passed.2 (.sealed method exits.cleanups) hosts.2.2
      refine (emits_block flat body passed.1 (serve.guarded repeated) hosts.2.1).bind fun code framed => ?_
      exact repeated.bind fun last framed' => .pure (framed_append.mpr ⟨framed, framed'⟩)
  | .breakOut, around, passed, exits, serve, hosts => by
    simp only [checkStmt] at passed
    split at passed
    · next inside =>
      rw [emitStmt]
      exact serve.onBreak inside
    · cases passed
  | .continueLoop, around, passed, exits, serve, hosts => by
    simp only [checkStmt] at passed
    split at passed
    · next inside =>
      rw [emitStmt]
      exact serve.onContinue inside
    · cases passed
  | .yield value, around, passed, exits, serve, hosts => by
    have here := (hosts _ List.mem_cons_self).used value (by simp [Stmt.exprs])
    simp only [emitStmt]
    refine Succeeds.bind (.checked (term_ok value here)) fun t framed => ?_
    refine Succeeds.bind (succeeds_reserveLabels 1) fun resume _ => ?_
    refine Succeeds.bind (succeeds_addPoint resume exits.cleanups) fun state _ => .pure ?_
    simpa [Instr.frameVars, Instr.setField, Shape.setState, Place.frameVars, Term.frameVars] using framed
  | .stop, around, passed, exits, serve, hosts => by
    simp only [checkStmt] at passed
    split at passed
    · cases passed
    · next outside =>
      rw [emitStmt]
      exact serve.onStop (by simpa using outside)

theorem emits_block (flat : ∀ code, Framed fine code → ∃ body, flatBody method code = .ok body) :
    (body : List Stmt) → {around : Surroundings} → checkBlock method around body = .ok () →
    {exits : Exits} → exits.Serve fine around →
    (∀ t ∈ Stmt.preorderAll (fun _ => false) body, shape.Hosts method fine t) →
    Succeeds (emitBlock method shape exits body) (Framed fine)
  | [], around, passed, exits, serve, hosts => by
    simp only [emitBlock]
    exact .pure framed_nil
  | s :: rest, around, passed, exits, serve, hosts => by
    simp only [checkBlock, check_bind] at passed
    simp only [Stmt.preorderAll, List.forall_mem_append] at hosts
    simp only [emitBlock]
    exact (emits_stmt flat s passed.1 serve hosts.1).bind fun code framed =>
      (emits_block flat rest passed.2 serve hosts.2).bind fun others framed' =>
        .pure (framed_append.mpr ⟨framed, framed'⟩)

theorem emits_cases (flat : ∀ code, Framed fine code → ∃ body, flatBody method code = .ok body) :
    (cases : List (List Int64 × List Stmt)) → {around : Surroundings} →
    checkCases method around cases = .ok () → {exits : Exits} → exits.Serve fine around →
    (∀ t ∈ Stmt.preorderCases (fun _ => false) cases, shape.Hosts method fine t) →
    {breakTo label : Label} → Succeeds (emitCases method shape exits breakTo label cases) (Framed fine)
  | [], around, passed, exits, serve, hosts, breakTo, label => by
    simp only [emitCases]
    exact .pure framed_nil
  | (_, body) :: rest, around, passed, exits, serve, hosts, breakTo, label => by
    simp only [checkCases, check_bind] at passed
    simp only [Stmt.preorderCases, List.forall_mem_append] at hosts
    simp only [emitCases]
    refine (emits_block flat body passed.1 serve hosts.1).bind fun code framed => ?_
    refine (emits_cases flat rest passed.2 serve hosts.2).bind fun others framed' => .pure ?_
    simp [framed, framed', Instr.frameVars]
end

end

end Resumable.Lowering
