import Resumable.Proofs.Generics
import Resumable.Proofs.Lowerable

/-!
Validation is complete. As long as the types of a method name declared type parameters, the
checks before the first name is taken decide whether the method can be lowered, and a lowering
that fails has taken no name.
-/

namespace Resumable

namespace Ty

mutual
/-- Type parameters of the method occur only with an index below `count`. -/
def bounded (count : Nat) : Ty → Bool
  | .int | .bool | .str | .object => true
  | .array element => bounded count element
  | .named _ args => boundedAll count args
  | .contract _ args => boundedAll count args
  | .param parameter => parameter.owner ≠ .method || parameter.index < count

def boundedAll (count : Nat) : List Ty → Bool
  | [] => true
  | ty :: rest => bounded count ty && boundedAll count rest
end

mutual
theorem index_lt_of_bounded {count : Nat} : (ty : Ty) → ty.bounded count →
    ∀ param ∈ ty.params, param.owner = .method → param.index < count
  | .int, _ | .bool, _ | .str, _ | .object, _ => List.forall_mem_nil _
  | .array element, inside => index_lt_of_bounded element inside
  | .named _ args, inside => index_lt_of_boundedAll args inside
  | .contract _ args, inside => index_lt_of_boundedAll args inside
  | .param parameter, inside => by
    refine List.forall_mem_singleton.mpr fun own => ?_
    simpa [bounded, own] using inside

theorem index_lt_of_boundedAll {count : Nat} : (tys : List Ty) → boundedAll count tys →
    ∀ param ∈ paramsAll tys, param.owner = .method → param.index < count
  | [], _ => List.forall_mem_nil _
  | ty :: rest, inside => by
    obtain ⟨here, later⟩ := Bool.and_eq_true_iff.mp inside
    exact List.forall_mem_append.mpr ⟨index_lt_of_bounded ty here, index_lt_of_boundedAll rest later⟩
end

end Ty

/-- All types of the signature and of the locals name declared type parameters only. -/
def Method.TypesBounded (method : Method) : Prop :=
  ∀ ty ∈ method.returnType :: method.varTypes, ty.bounded method.typeParams.length

namespace Lowering

theorem rebind_of_bounded {names : List String} {ty : Ty} (inside : ty.bounded names.length) :
    ∃ ty', rebind names ty = .ok ty' := by
  have moves : ∀ param ∈ ty.params, ∃ param', param.Moves .method .machine names param' :=
    fun param listed => TypeParam.exists_moves.mpr (ty.index_lt_of_bounded inside param listed)
  obtain ⟨ty', moved⟩ := ty.exists_rebind?.mpr moves
  have free : ty'.mentions .method = false := Ty.mentions_source_of_rebind? (by decide) moved
  exact ⟨ty', by simp [rebind, moved, free]⟩

/-- The element type is part of the return type. -/
theorem bounded_elementType {method : Method} {count : Nat} {ty : Ty}
    (inside : method.returnType.bounded count) (typed : elementType method = .ok ty) :
    ty.bounded count := by
  rcases elementType_cases typed with rfl | ⟨kind, returned⟩
  · rfl
  · rw [returned] at inside
    exact (Bool.and_eq_true_iff.mp inside).1

/-- Every error of the computation is a fault of the method. -/
abbrev Faults {α : Type} (x : Except LowerError α) : Prop :=
  FailsOnly (fun e => ∃ fault, e = .internal fault) x

theorem faults_var (method : Method) (var : Var) : Faults (checkVar method var) := by
  unfold checkVar
  split
  · exact .ok ()
  · exact .error ⟨_, rfl⟩

theorem faults_misplaced (method : Method) (around : Surroundings) (word : JumpWord) :
    Faults (misplaced method around word) := by
  unfold misplaced
  exact .error ⟨_, rfl⟩

mutual
theorem faults_expr (method : Method) : (e : Expr) → Faults (checkExpr method e)
  | .int _ | .bool _ | .str _ | .null => .ok ()
  | .var var => faults_var method var
  | .assign var value => (faults_var method var).bind fun _ => faults_expr method value
  | .unary _ operand => faults_expr method operand
  | .binary _ left right => (faults_expr method left).bind fun _ => faults_expr method right
  | .array items => faults_exprs method items
  | .index base position => (faults_expr method base).bind fun _ => faults_expr method position
  | .len base => faults_expr method base
  | .call _ args => faults_exprs method args

theorem faults_exprs (method : Method) : (es : List Expr) → Faults (checkExprs method es)
  | [] => .ok ()
  | e :: rest => (faults_expr method e).bind fun _ => faults_exprs method rest
end

mutual
theorem faults_stmt (method : Method) : (s : Stmt) → (around : Surroundings) →
    Faults (checkStmt method around s)
  | .block body, around => faults_block method body around
  | .declare id init, around => (faults_var method (.loc id)).bind fun _ => faults_exprs method _
  | .eval value, around => faults_expr method value
  | .ite cond yes none, around => (faults_expr method cond).bind fun _ => faults_block method yes around
  | .ite cond yes (some no), around => (faults_expr method cond).bind fun _ =>
    (faults_block method yes around).bind fun _ => faults_block method no around
  | .whileLoop cond body, around =>
    (faults_expr method cond).bind fun _ => faults_block method body around.loop
  | .forLoop init cond step body, around => (faults_block method init around).bind fun _ =>
    (faults_exprs method _).bind fun _ => (faults_exprs method step).bind fun _ =>
      faults_block method body around.loop
  | .foreach id collection body, around => (faults_var method (.loc id)).bind fun _ =>
    (faults_expr method collection).bind fun _ => faults_block method body around.loop
  | .switch scrutinee cases none, around =>
    (faults_expr method scrutinee).bind fun _ => faults_cases method cases around.switch
  | .switch scrutinee cases (some default), around => (faults_expr method scrutinee).bind fun _ =>
    (faults_cases method cases around.switch).bind fun _ => faults_block method default around.switch
  | .tryFinally body cleanup, around =>
    (faults_block method body around).bind fun _ => faults_block method cleanup .cleanup
  | .breakOut, around => by
    unfold checkStmt
    split
    · exact .ok ()
    · exact faults_misplaced method around .breakOut
  | .continueLoop, around => by
    unfold checkStmt
    split
    · exact .ok ()
    · exact faults_misplaced method around .continueLoop
  | .yield value, around => by
    unfold checkStmt
    split
    · exact .error ⟨_, rfl⟩
    · exact faults_expr method value
  | .stop, around => by
    unfold checkStmt
    split
    · exact .error ⟨_, rfl⟩
    · exact .ok ()

theorem faults_block (method : Method) : (body : List Stmt) → (around : Surroundings) →
    Faults (checkBlock method around body)
  | [], _ => .ok ()
  | s :: rest, around => (faults_stmt method s around).bind fun _ => faults_block method rest around

theorem faults_cases (method : Method) : (cases : List (List Int64 × List Stmt)) →
    (around : Surroundings) → Faults (checkCases method around cases)
  | [], _ => .ok ()
  | (_, body) :: rest, around =>
    (faults_block method body around).bind fun _ => faults_cases method rest around
end

theorem faults_elementType (method : Method) : Faults (elementType method) := by
  unfold elementType
  split
  · split
    · exact .ok _
    · exact .ok _
    · exact .error ⟨_, rfl⟩
  · split
    · exact .ok _
    · exact .ok _
    · exact .error ⟨_, rfl⟩
  · exact .error ⟨_, rfl⟩

/-- Every error of the computation says that the platform lacks a member. -/
abbrev Lacks {α : Type} (x : Except LowerError α) : Prop :=
  FailsOnly (fun e => ∃ member, e = .missingMember member) x

section
variable (platform : Platform)

theorem lacks_require (member : Member) : Lacks (require platform member) := by
  unfold require
  split
  · exact .ok _
  · exact .error ⟨member, rfl⟩

theorem lacks_requireAll (members : List Member) : Lacks (requireAll platform members) := by
  induction members with
  | nil => exact .ok ()
  | cons member rest ih => exact (lacks_require platform member).bind fun _ => ih

theorem lacks_threadSource : Lacks (threadSource platform) := by
  unfold threadSource
  split
  · exact .ok _
  · exact (lacks_require platform _).bind fun _ => (lacks_require platform _).bind fun _ => .ok _

theorem lacks_resolveMembers (kind : IteratorKind) : Lacks (resolveMembers kind platform) := by
  have needed := lacks_require platform
  unfold resolveMembers
  refine (lacks_requireAll platform _).bind fun _ => ?_
  refine (needed .dispose).bind fun _ => (needed .moveNext).bind fun _ => (needed .current).bind fun _ => ?_
  refine (needed .genericCurrent).bind fun _ => (needed .reset).bind fun _ => ?_
  refine (needed .notSupported).bind fun _ => ?_
  cases kind with
  | enumerator => exact .ok _
  | enumerable =>
    refine (lacks_requireAll platform _).bind fun _ => (needed .getEnumerator).bind fun _ => ?_
    exact (needed .genericGetEnumerator).bind fun _ => (lacks_threadSource platform).bind fun _ => .ok _

end

/-- With declared type parameters only, the replacement of loops leaves a method that can be lowered. -/
theorem lowerable_of_bounded {method : Method} (bounded : method.TypesBounded) {element : Ty}
    (typed : elementType method = .ok element) (passed : checkStructure method = .ok ()) :
    ∃ expanded, expandForeach method = .ok expanded ∧ Lowerable expanded := by
  obtain ⟨returned, vars⟩ := List.forall_mem_cons.mp bounded
  have known : Known method (fun ty => ty.bounded method.typeParams.length) method.locals :=
    ⟨List.prefix_refl _, vars, fun _ inside => inside, rfl⟩
  obtain ⟨expanded, expands, passed', _, types⟩ := expandForeach_ok known passed
  obtain ⟨locals, same, _⟩ := expandForeach_spec expands
  have params : expanded.typeParams = method.typeParams := by rw [same]
  have usable {var : Var} (found : (expanded.varType? var).isSome) : expanded.Usable var := by
    obtain ⟨ty, found⟩ := Option.isSome_iff_exists.mp found
    have inside := types ty (Method.mem_varTypes found)
    rw [← params] at inside
    obtain ⟨ty', moved⟩ := rebind_of_bounded inside
    exact ⟨ty, ty', found, moved⟩
  have passes := passes_block expanded.body passed'
  refine ⟨expanded, expands, passed', ?_, ?_⟩
  · rw [same]
    exact expanded_countedAll method.body _
  · constructor
    · have inside := bounded_elementType returned typed
      rw [← params] at inside
      obtain ⟨ty', moved⟩ := rebind_of_bounded inside
      refine ⟨element, ty', ?_, moved⟩
      rw [same]
      exact typed
    · exact fun present => usable present
    · exact fun index inside => usable (by simpa [Method.varType?] using inside)
    · exact fun s within id member => usable ((passes s within).declared id member)
    · intro s within e member id occurs
      exact usable ((checkExpr_eq_ok e).mp ((passes s within).exprs e member) _ occurs)

end Lowering
open Lowering

namespace Method
variable (method : Method) (platform : Platform)

/-- Everything the validation asks for holds. -/
def IsValid : Prop :=
  ∃ kind, method.kind? = some kind ∧ (∃ members, resolveMembers kind platform = .ok members) ∧
    (∃ element, elementType method = .ok element) ∧ checkStructure method = .ok ()

/-- The method is an iterator, but the platform cannot serve it. -/
def IsUnsupported : Prop :=
  ∃ kind, method.kind? = some kind ∧ ∃ e, resolveMembers kind platform = .error e

end Method

/-- A lowering succeeds exactly when the validation does. It reports a missing member exactly when
the platform cannot serve the iterator, and a fault of the method in all other cases; whenever it
fails the name supply is as before. -/
theorem Method.lower_outcome {method : Method} (bounded : method.TypesBounded) (platform : Platform)
    (options : Options) (names : NameSupply) :
    ((∃ lowered names', method.lower platform options names = .ok lowered names') ↔
      method.IsValid platform) ∧
    ((∃ member names', method.lower platform options names = .error (.missingMember member) names') ↔
      method.IsUnsupported platform) ∧
    (¬method.IsValid platform → ¬method.IsUnsupported platform →
      ∃ fault names', method.lower platform options names = .error (.internal fault) names') ∧
    ∀ e names', method.lower platform options names = .error e names' → names' = names := by
  have failed {e : LowerError} (invalid : method.validate platform = .error e) :
      method.lower platform options names = .error e names := by
    unfold lower
    rw [invalid]
    exact bind_of_error (checked_error e names)
  cases classified : method.kind? with
  | none =>
    have kind : ∃ fault, method.iteratorKind = .error (.internal fault) := by
      unfold iteratorKind
      rw [classified]
      dsimp only
      split
      · exact ⟨_, rfl⟩
      · exact ⟨_, rfl⟩
    obtain ⟨fault, kind⟩ := kind
    have lowered : method.lower platform options names = .error (.internal fault) names := by
      apply failed
      unfold validate
      rw [kind]
      rfl
    simp [lowered, IsValid, IsUnsupported, classified]
  | some kind =>
    have own : method.iteratorKind = .ok kind := by
      unfold iteratorKind
      rw [classified]
    cases resolved : resolveMembers kind platform with
    | error e =>
      obtain ⟨member, rfl⟩ := lacks_resolveMembers platform kind e resolved
      have lowered : method.lower platform options names = .error (.missingMember member) names := by
        apply failed
        unfold validate
        rw [own]
        change (resolveMembers kind platform >>= _) = _
        rw [resolved]
        rfl
      simp [lowered, IsValid, IsUnsupported, classified, resolved]
    | ok members =>
      have rest : method.validate platform =
          (elementType method >>= fun _ => checkStructure method >>= fun _ => .ok (kind, members)) := by
        unfold validate
        rw [own]
        change (resolveMembers kind platform >>= _) = _
        rw [resolved]
        rfl
      cases typed : elementType method with
      | error e =>
        obtain ⟨fault, rfl⟩ := faults_elementType method e typed
        have lowered : method.lower platform options names = .error (.internal fault) names :=
          failed (by rw [rest, typed]; rfl)
        simp [lowered, IsValid, IsUnsupported, classified, resolved, typed]
      | ok element =>
        cases passed : checkStructure method with
        | error e =>
          obtain ⟨fault, rfl⟩ := faults_block method method.body .body e passed
          have lowered : method.lower platform options names = .error (.internal fault) names :=
            failed (by rw [rest, typed, passed]; rfl)
          simp [lowered, IsValid, IsUnsupported, classified, resolved, passed]
        | ok _ =>
          have validated : method.validate platform = .ok (kind, members) := by
            rw [rest, typed, passed]
            rfl
          obtain ⟨expanded, expands, lowerable⟩ := lowerable_of_bounded bounded typed passed
          obtain ⟨lowered, names', done, _⟩ := succeeds_lower validated expands lowerable options names
          simp [done, IsValid, IsUnsupported, classified, resolved, typed, passed]

/-- The signature of a method that can be lowered, with a jump out of no loop for a body. -/
def Method.strayBreak : Method := { storedPairs with body := [.breakOut] }

theorem Method.lower_outcome_storedPairs :
    storedPairs.TypesBounded ∧ storedPairs.IsValid .standard ∧
    (∃ lowered names, storedPairs.lower .standard .standard .empty = .ok lowered names) ∧
    (∃ member, storedPairs.lower (Platform.standard.without .dispose) .standard .empty =
      .error (.missingMember member) .empty) ∧
    ∃ fault, strayBreak.lower .standard .standard .empty = .error (.internal fault) .empty := by
  have bounded : storedPairs.TypesBounded := by
    unfold TypesBounded
    decide
  have valid : storedPairs.IsValid .standard := ⟨.enumerable, rfl, ⟨_, rfl⟩, ⟨_, rfl⟩, rfl⟩
  have succeeds := (lower_outcome bounded .standard .standard .empty).1.mpr valid
  refine ⟨bounded, valid, succeeds, ?_, ?_⟩
  · have unsupported : storedPairs.IsUnsupported (Platform.standard.without .dispose) :=
      ⟨.enumerable, rfl, _, rfl⟩
    obtain ⟨-, lacks, -, kept⟩ :=
      lower_outcome bounded (Platform.standard.without .dispose) .standard .empty
    obtain ⟨member, names, failed⟩ := lacks.mpr unsupported
    obtain rfl := kept _ _ failed
    exact ⟨member, failed⟩
  · have declared : strayBreak.TypesBounded := bounded
    have invalid : ¬strayBreak.IsValid .standard := by
      rintro ⟨kind, _, _, _, passed⟩
      cases passed
    have supported : ¬strayBreak.IsUnsupported .standard := by
      rintro ⟨kind, found, e, failed⟩
      obtain rfl := Option.some.inj found
      cases failed
    obtain ⟨-, -, faults, kept⟩ := lower_outcome declared .standard .standard .empty
    obtain ⟨fault, names, failed⟩ := faults invalid supported
    obtain rfl := kept _ _ failed
    exact ⟨fault, failed⟩

end Resumable
