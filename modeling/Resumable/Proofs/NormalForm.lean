import Mathlib.Data.List.Sort
import Resumable.Method.Build
import Resumable.Proofs.Lowerable

/-!
Counting loops as a normal form. A method that passes the check has a form without foreach loops,
which passes again and is left alone from then on. It suspends as often, assigns the same inputs and
is as well scoped. Its symbol table has grown by two new locals for each loop.
-/

namespace Resumable

def Stmt.isForeach : Stmt → Bool
  | .foreach _ _ _ => true
  | _ => false

theorem Stmt.isForeach_eq_false {s : Stmt} : s.isForeach = false ↔ Lowering.Expanded s := by
  cases s with
  | foreach id collection body => simpa [isForeach] using fun expanded => expanded id collection body rfl
  | _ => simp [isForeach, Lowering.Expanded]

/-- The number of foreach loops at any depth. -/
def Block.foreachLoops (body : Block) : Nat := body.preorder.countP Stmt.isForeach

namespace Lowering

mutual
theorem extraLocals_eq : (s : Stmt) →
    s.extraLocals = 2 * (s.preorder fun _ => false).countP Stmt.isForeach
  | .block body | .whileLoop _ body | .ite _ body none => by
    simp [Stmt.extraLocals, Stmt.preorder, Stmt.isForeach, extraLocalsAll_eq body]
  | .ite _ yes (some no) => by
    simp [Stmt.extraLocals, Stmt.preorder, Stmt.isForeach, extraLocalsAll_eq yes,
      extraLocalsAll_eq no, Nat.mul_add]
  | .forLoop init _ _ body => by
    simp [Stmt.extraLocals, Stmt.preorder, Stmt.isForeach, extraLocalsAll_eq init,
      extraLocalsAll_eq body, Nat.mul_add]
  | .foreach _ _ body => by
    simp [Stmt.extraLocals, Stmt.preorder, List.countP_cons, Stmt.isForeach, extraLocalsAll_eq body,
      Nat.mul_add, Nat.add_comm 2]
  | .switch _ cases none => by
    simp [Stmt.extraLocals, Stmt.preorder, Stmt.isForeach, extraLocalsCases_eq cases]
  | .switch _ cases (some default) => by
    simp [Stmt.extraLocals, Stmt.preorder, Stmt.isForeach, extraLocalsCases_eq cases,
      extraLocalsAll_eq default, Nat.mul_add]
  | .tryFinally body cleanup => by
    simp [Stmt.extraLocals, Stmt.preorder, Stmt.isForeach, extraLocalsAll_eq body,
      extraLocalsAll_eq cleanup, Nat.mul_add]
  | .declare _ _ | .eval _ | .breakOut | .continueLoop | .yield _ | .stop => by
    simp [Stmt.extraLocals, Stmt.preorder, Stmt.isForeach]

theorem extraLocalsAll_eq : (body : List Stmt) →
    Stmt.extraLocalsAll body = 2 * (Stmt.preorderAll (fun _ => false) body).countP Stmt.isForeach
  | [] => rfl
  | s :: rest => by
    simp [Stmt.extraLocalsAll, Stmt.preorderAll, extraLocals_eq s, extraLocalsAll_eq rest, Nat.mul_add]

theorem extraLocalsCases_eq : (cases : List (List Int64 × List Stmt)) →
    Stmt.extraLocalsCases cases = 2 * (Stmt.preorderCases (fun _ => false) cases).countP Stmt.isForeach
  | [] => rfl
  | (_, body) :: rest => by
    simp [Stmt.extraLocalsCases, Stmt.preorderCases, extraLocalsAll_eq body, extraLocalsCases_eq rest,
      Nat.mul_add]
end

mutual
/-- A statement without foreach loops stays as it is. -/
theorem counted_of_expanded : (s : Stmt) → (next : LocalId) →
    (∀ t ∈ s.preorder fun _ => false, Expanded t) → s.counted next = s
  | .block body, next, free => by
    simp only [Stmt.preorder, Bool.false_eq_true, if_false, List.forall_mem_cons] at free
    rw [Stmt.counted, countedAll_of_expanded body next free.2]
  | .ite cond yes none, next, free => by
    simp only [Stmt.preorder, Bool.false_eq_true, if_false, List.forall_mem_cons] at free
    rw [Stmt.counted, countedAll_of_expanded yes next free.2]
  | .ite cond yes (some no), next, free => by
    simp only [Stmt.preorder, Bool.false_eq_true, if_false, List.forall_mem_cons,
      List.forall_mem_append] at free
    rw [Stmt.counted, countedAll_of_expanded yes next free.2.1, countedAll_of_expanded no _ free.2.2]
  | .whileLoop cond body, next, free => by
    simp only [Stmt.preorder, Bool.false_eq_true, if_false, List.forall_mem_cons] at free
    rw [Stmt.counted, countedAll_of_expanded body next free.2]
  | .forLoop init cond step body, next, free => by
    simp only [Stmt.preorder, Bool.false_eq_true, if_false, List.forall_mem_cons,
      List.forall_mem_append] at free
    rw [Stmt.counted, countedAll_of_expanded init next free.2.1, countedAll_of_expanded body _ free.2.2]
  | .foreach id collection body, next, free => absurd rfl (free _ List.mem_cons_self id collection body)
  | .switch scrutinee cases none, next, free => by
    simp only [Stmt.preorder, Bool.false_eq_true, if_false, List.forall_mem_cons] at free
    rw [Stmt.counted, countedCases_of_expanded cases next free.2]
  | .switch scrutinee cases (some default), next, free => by
    simp only [Stmt.preorder, Bool.false_eq_true, if_false, List.forall_mem_cons,
      List.forall_mem_append] at free
    rw [Stmt.counted, countedCases_of_expanded cases next free.2.1,
      countedAll_of_expanded default _ free.2.2]
  | .tryFinally body cleanup, next, free => by
    simp only [Stmt.preorder, Bool.false_eq_true, if_false, List.forall_mem_cons,
      List.forall_mem_append] at free
    rw [Stmt.counted, countedAll_of_expanded body next free.2.1,
      countedAll_of_expanded cleanup _ free.2.2]
  | .declare _ _, _, _ | .eval _, _, _ | .breakOut, _, _ | .continueLoop, _, _ | .yield _, _, _
  | .stop, _, _ => rfl

theorem countedAll_of_expanded : (body : List Stmt) → (next : LocalId) →
    (∀ t ∈ Stmt.preorderAll (fun _ => false) body, Expanded t) → Stmt.countedAll next body = body
  | [], _, _ => rfl
  | s :: rest, next, free => by
    obtain ⟨first, later⟩ := List.forall_mem_append.mp free
    rw [Stmt.countedAll, counted_of_expanded s next first, countedAll_of_expanded rest _ later]

theorem countedCases_of_expanded : (cases : List (List Int64 × List Stmt)) → (next : LocalId) →
    (∀ t ∈ Stmt.preorderCases (fun _ => false) cases, Expanded t) → Stmt.countedCases next cases = cases
  | [], _, _ => rfl
  | (values, body) :: rest, next, free => by
    obtain ⟨first, later⟩ := List.forall_mem_append.mp free
    rw [Stmt.countedCases, countedAll_of_expanded body next first, countedCases_of_expanded rest _ later]
end

/-- A method without foreach loops that passes the check stays as it is. -/
theorem expandForeach_of_expanded {method : Method} (passed : checkStructure method = .ok ())
    (free : ∀ s ∈ method.body.preorder, Expanded s) : expandForeach method = .ok method := by
  obtain ⟨new, done, more⟩ := expandForeach_withLoops (known_all method) passed
  have none : Stmt.extraLocalsAll method.body = 0 := by
    rw [extraLocalsAll_eq, List.countP_eq_zero.mpr, Nat.mul_zero]
    intro s within
    simpa using Stmt.isForeach_eq_false.mpr (free s within)
  have empty : new = [] := by simpa [none] using more.ids
  rw [done, withLoops, countedAll_of_expanded method.body _ free, empty, List.append_nil]

section
variable {good : Ty → Prop} {locals new : List LocalVar} {extra : Nat}

theorem Extra.length_eq (more : Extra good locals new extra) : new.length = extra := by
  rw [← List.length_map (·.id), more.ids, List.length_range']

theorem Extra.nodup_ids (more : Extra good locals new extra) : (new.map (·.id)).Nodup := by
  rw [more.ids]
  exact List.nodup_range'

theorem Extra.id_bounds (more : Extra good locals new extra) {l : LocalVar} (member : l ∈ new) :
    nextLocal locals ≤ l.id ∧ l.id < nextLocal locals + extra := by
  have listed : l.id ∈ new.map (·.id) := List.mem_map_of_mem member
  rwa [more.ids, List.mem_range'_1] at listed

theorem Extra.undeclared (more : Extra good locals new extra) {l : LocalVar} (member : l ∈ new) :
    l.id ∉ locals.map (·.id) := by
  intro declared
  obtain ⟨old, among, same⟩ := List.mem_map.mp declared
  have below : old.id < nextLocal locals := lt_nextLocal among
  rw [same] at below
  exact Nat.not_lt.mpr (more.id_bounds member).1 below

end

/-- The assigned parameters are listed by position. -/
theorem pairwise_assignedParams (body : Block) : (assignedParams body).Pairwise (· < ·) := by
  unfold assignedParams
  refine List.Pairwise.filterMap _ (fun a b earlier index found index' found' => ?_)
    body.pairwise_assignedVars
  cases a with
  | param i =>
    cases b with
    | param j =>
      obtain rfl := Option.some.inj found
      obtain rfl := Option.some.inj found'
      simpa [Var.before] using earlier
    | _ => cases found'
  | _ => cases found

theorem mem_assignedParams {body : Block} {index : Nat} :
    index ∈ assignedParams body ↔ Var.param index ∈ body.assignedVars := by
  simp only [assignedParams, List.mem_filterMap]
  constructor
  · rintro ⟨var, assigned, same⟩
    cases var with
    | param i =>
      obtain rfl := Option.some.inj same
      exact assigned
    | _ => cases same
  · exact fun assigned => ⟨.param index, assigned, rfl⟩

theorem assignedParams_expanded {method expanded : Method}
    (expands : expandForeach method = .ok expanded) :
    assignedParams expanded.body = assignedParams method.body := by
  apply (pairwise_assignedParams _).eq_of_mem_iff (pairwise_assignedParams _)
  intro index
  rw [mem_assignedParams, mem_assignedParams]
  exact mem_assignedVars_expanded expands (by simp)

end Lowering

open Lowering

namespace Method

/-- `normal` is `method` with its foreach loops replaced, as the later stages rely on it. -/
structure IsNormalForm (method normal : Method) : Prop where
  loops : ∀ s ∈ normal.body.preorder, s.isForeach = false
  stable : expandForeach normal = .ok normal
  passed : checkStructure normal = .ok ()
  suspensions : normal.body.suspensions = method.body.suspensions
  params : assignedParams normal.body = assignedParams method.body
  receiver : Var.receiver ∈ normal.body.assignedVars ↔ Var.receiver ∈ method.body.assignedVars
  locals : ∃ new, normal.locals = method.locals ++ new ∧
    new.length = 2 * method.body.foreachLoops ∧ (∀ l ∈ new, l.synthesized) ∧
    (new.map (·.id)).Nodup ∧ (∀ l ∈ new, l.id ∉ method.locals.map (·.id)) ∧
    ∀ l ∈ new, l.id < nextLocal method.locals + new.length
  wellScoped : method.WellScoped → normal.WellScoped
  rest : normal = { method with body := normal.body, locals := normal.locals }

/-- Replacing the foreach loops of a method that passes the check gives its normal form. -/
theorem isNormalForm_of_checkStructure {method : Method} (passed : checkStructure method = .ok ()) :
    ∃ normal, expandForeach method = .ok normal ∧ method.IsNormalForm normal := by
  obtain ⟨new, done, more⟩ := expandForeach_withLoops (known_all method) passed
  have free : ∀ s ∈ (withLoops method new).body.preorder, Expanded s :=
    expanded_countedAll method.body (nextLocal method.locals)
  have again := check_withLoops more passed
  have count : new.length = 2 * method.body.foreachLoops := more.length_eq.trans (extraLocalsAll_eq _)
  refine ⟨withLoops method new, done, ?_⟩
  constructor
  · exact fun s within => Stmt.isForeach_eq_false.mpr (free s within)
  · exact expandForeach_of_expanded again free
  · exact again
  · exact suspensions_countedAll method.body _
  · exact assignedParams_expanded done
  · exact mem_assignedVars_expanded done (by simp)
  · refine ⟨new, rfl, count, ?_, more.nodup_ids, fun l => more.undeclared, ?_⟩
    · intro l member
      exact (more.temporary l member).1
    · intro l member
      rw [more.length_eq]
      exact (more.id_bounds member).2
  · exact scoped_expanded done
  · rfl

/-- Foreach loops in one another, in a cleanup block, in a loop header and in a case of a switch. -/
def tangledLoops : Method :=
  { Method.draft "tangled" (.enumerableOf .int) with
    params := [⟨"rows", .array (.array .int)⟩, ⟨"last", .int⟩]
    locals := [⟨0, "row", .array .int, false⟩, ⟨5, "cell", .int, false⟩]
    body :=
      [.tryFinally
        [.foreach 0 (.var (.param 0))
          [.foreach 5 (.ofLocal 0)
            [.yield (.ofLocal 5), .eval (.assign (.param 1) (.ofLocal 5))]]]
        [.foreach 5 (.array [.int 1, .int 2]) [.eval (.call "closed" [.ofLocal 5])]],
        .forLoop [.foreach 0 (.var (.param 0)) [.continueLoop]] (some (.bool false)) [] [.stop],
        .switch (.var (.param 1)) [([1, 2], [.foreach 5 (.array []) [.breakOut], .breakOut])]
          (some [.yield (.var (.param 1))])] }

theorem isNormalForm_of_checkStructure_tangledLoops :
    checkStructure tangledLoops = .ok () ∧ tangledLoops.WellScoped ∧
    tangledLoops.body.foreachLoops = 5 ∧ tangledLoops.body.suspensions = 2 ∧
    assignedParams tangledLoops.body = [1] ∧
    ∃ normal, expandForeach tangledLoops = .ok normal ∧ tangledLoops.IsNormalForm normal := by
  have passed : checkStructure tangledLoops = .ok () := by rfl
  have wellScoped : tangledLoops.WellScoped := by
    unfold WellScoped
    decide +kernel
  exact ⟨passed, wellScoped, by decide +kernel, by decide +kernel, by decide +kernel,
    isNormalForm_of_checkStructure passed⟩

end Method
end Resumable
