import Resumable.Proofs.Checking
import Resumable.Proofs.Emission

/-!
A method that passes the check fits its shapes. At a suspension point all locals in scope
live in fields, since every scope around the point suspends. So the resumable bodies that
are emitted for two shapes go together, with their suspension points and cleanup routines.
-/

namespace Resumable.Lowering
open Machine (Code Label)

theorem hoists_sublist (policy : HoistPolicy) (suspends : Bool) (ids : List LocalId) :
    (if HoistPolicy.hoists .suspendingScopes suspends then ids else []).Sublist
      (if policy.hoists suspends then ids else []) := by
  cases suspends with
  | false => exact List.nil_sublist _
  | true => simp [hoists_true]

mutual
/-- Locals that live in fields under the narrower policy do so under any. -/
theorem hoistedStmt_sublist (policy : HoistPolicy) : (s : Stmt) →
    (hoistedStmt .suspendingScopes s).Sublist (hoistedStmt policy s)
  | .block body => hoistedScope_sublist policy _ body
  | .ite _ yes none => hoistedScope_sublist policy _ yes
  | .ite _ yes (some no) => (hoistedScope_sublist policy _ yes).append (hoistedScope_sublist policy _ no)
  | .whileLoop _ body => hoistedScope_sublist policy _ body
  | .forLoop init _ _ body =>
    (hoistedScope_sublist policy _ init).append (hoistedScope_sublist policy _ body)
  | .foreach id _ body => (hoists_sublist policy _ [id]).append (hoistedScope_sublist policy _ body)
  | .switch _ cases none => hoistedCases_sublist policy cases
  | .switch _ cases (some default) =>
    (hoistedCases_sublist policy cases).append (hoistedScope_sublist policy _ default)
  | .tryFinally body cleanup =>
    (hoistedScope_sublist policy _ body).append (hoistedScope_sublist policy _ cleanup)
  | .declare _ _ | .eval _ | .breakOut | .continueLoop | .yield _ | .stop => List.Sublist.refl _

theorem hoistedScope_sublist (policy : HoistPolicy) (suspends : Bool) : (body : List Stmt) →
    (hoistedScope .suspendingScopes suspends body).Sublist (hoistedScope policy suspends body)
  | [] => List.Sublist.refl _
  | s :: rest =>
    ((hoists_sublist policy suspends (declared s)).append (hoistedStmt_sublist policy s)).append
      (hoistedScope_sublist policy suspends rest)

theorem hoistedCases_sublist (policy : HoistPolicy) : (cases : List (List Int64 × List Stmt)) →
    (hoistedCases .suspendingScopes cases).Sublist (hoistedCases policy cases)
  | [] => List.Sublist.refl _
  | (_, body) :: rest =>
    (hoistedScope_sublist policy _ body).append (hoistedCases_sublist policy rest)
end

/-- Every local of the list is kept. -/
def Pairing.Keeps (pair : Pairing) (ids : List LocalId) : Prop := ∀ id ∈ ids, pair.keeps id

@[simp] theorem Pairing.keeps_append {pair : Pairing} {first second : List LocalId} :
    pair.Keeps (first ++ second) ↔ pair.Keeps first ∧ pair.Keeps second := by
  simp [Keeps, or_imp, forall_and]

/-- The scope after a part of a block that suspends is kept as a whole. -/
theorem keeps_scopeAfter {pair : Pairing} {scope : List LocalId} {body : List Stmt}
    (hoisted : pair.Keeps (hoistedScope .suspendingScopes true body)) (kept : pair.Keeps scope) :
    pair.Keeps (Stmt.scopeAfter scope body) := by
  induction body generalizing scope with
  | nil => exact kept
  | cons s rest ih =>
    simp only [hoistedScope, hoists_true, if_true, Pairing.keeps_append] at hoisted
    exact ih hoisted.2 (Pairing.keeps_append.mpr ⟨hoisted.1.1, kept⟩)

/-- Expressions may occur where they are scoped, if that matters at all, and are good. -/
structure Pairing.Accepts (pair : Pairing) (strict : Prop) (good : Expr → Prop) : Prop where
  allowed : ∀ scope e, (strict → e.isScoped scope) → good e → pair.allows scope e

section
variable {pair : Pairing} {strict : Prop} {good : Expr → Prop}

mutual
theorem fits_stmt (method : Method) (accepts : pair.Accepts strict good) : (s : Stmt) →
    {around : Surroundings} → checkStmt method around s = .ok () → {scope : List LocalId} →
    (strict → s.isScoped scope) → (∀ t ∈ s.preorder fun _ => false, ∀ e ∈ t.exprs, good e) →
    pair.Keeps (hoistedStmt .suspendingScopes s) → (s.suspensions ≠ 0 → pair.Keeps scope) →
    Fits pair scope s
  | .block body, around, passed, scope, inside, fine, hoisted, kept => by
    simp only [Stmt.preorder, Bool.false_eq_true, if_false, List.forall_mem_cons] at fine
    exact fits_block method accepts body passed inside fine.2 hoisted suspends_iff.mpr
      (fun suspends => kept (suspends_iff.mp suspends))
  | .declare _ none, _, _, _, _, _, _, _ => trivial
  | .declare _ (some init), around, passed, scope, inside, fine, hoisted, kept =>
    accepts.allowed scope init inside (fine _ List.mem_cons_self init (by simp [Stmt.exprs]))
  | .eval value, around, passed, scope, inside, fine, hoisted, kept =>
    accepts.allowed scope value inside (fine _ List.mem_cons_self value (by simp [Stmt.exprs]))
  | .ite cond yes none, around, passed, scope, inside, fine, hoisted, kept => by
    simp only [checkStmt, check_bind] at passed
    obtain ⟨_, passed⟩ := passed
    simp only [Stmt.isScoped, Bool.and_eq_true] at inside
    simp only [Stmt.preorder, Bool.false_eq_true, if_false, List.forall_mem_cons] at fine
    exact ⟨accepts.allowed scope cond (fun s => (inside s).1) (fine.1 cond (by simp [Stmt.exprs])),
      fits_block method accepts yes passed (fun s => (inside s).2) fine.2 hoisted suspends_iff.mpr
        (fun suspends => kept (suspends_iff.mp suspends))⟩
  | .ite cond yes (some no), around, passed, scope, inside, fine, hoisted, kept => by
    simp only [checkStmt, check_bind] at passed
    obtain ⟨_, passedYes, passedNo⟩ := passed
    simp only [Stmt.isScoped, Bool.and_eq_true] at inside
    simp only [Stmt.preorder, Bool.false_eq_true, if_false, List.forall_mem_cons,
      List.forall_mem_append] at fine
    simp only [hoistedStmt, Pairing.keeps_append] at hoisted
    simp only [Stmt.suspensions] at kept
    exact ⟨accepts.allowed scope cond (fun s => (inside s).1.1) (fine.1 cond (by simp [Stmt.exprs])),
      fits_block method accepts yes passedYes (fun s => (inside s).1.2) fine.2.1 hoisted.1 suspends_iff.mpr
        (of_suspends kept (by omega)),
      fits_block method accepts no passedNo (fun s => (inside s).2) fine.2.2 hoisted.2 suspends_iff.mpr
        (of_suspends kept (by omega))⟩
  | .whileLoop cond body, around, passed, scope, inside, fine, hoisted, kept => by
    simp only [checkStmt, check_bind] at passed
    obtain ⟨_, passed⟩ := passed
    simp only [Stmt.isScoped, Bool.and_eq_true] at inside
    simp only [Stmt.preorder, Bool.false_eq_true, if_false, List.forall_mem_cons] at fine
    exact ⟨accepts.allowed scope cond (fun s => (inside s).1) (fine.1 cond (by simp [Stmt.exprs])),
      fits_block method accepts body passed (fun s => (inside s).2) fine.2 hoisted suspends_iff.mpr
        (fun suspends => kept (suspends_iff.mp suspends))⟩
  | .forLoop init cond step body, around, passed, scope, inside, fine, hoisted, kept => by
    simp only [checkStmt, check_bind] at passed
    obtain ⟨passedInit, _, _, passedBody⟩ := passed
    simp only [Stmt.isScoped, Bool.and_eq_true, List.all_eq_true] at inside
    simp only [Stmt.preorder, Bool.false_eq_true, if_false, List.forall_mem_cons,
      List.forall_mem_append] at fine
    simp only [hoistedStmt, Pairing.keeps_append] at hoisted
    simp only [Stmt.suspensions] at kept
    -- the locals of the header are kept as soon as the header or the body suspends
    have header : Stmt.suspensionsAll init ≠ 0 ∨ Stmt.suspensionsAll body ≠ 0 → pair.Keeps scope :=
      fun suspends => kept (by omega)
    have either : (Block.suspends init || Block.suspends body) = true ↔
        Stmt.suspensionsAll init ≠ 0 ∨ Stmt.suspensionsAll body ≠ 0 := by
      rw [Bool.or_eq_true, suspends_iff, suspends_iff]
    refine ⟨fits_block method accepts init passedInit (fun s => (inside s).1.1.1) fine.2.1 hoisted.1
        (fun suspends => either.mpr (.inl suspends)) (fun suspends => header (either.mp suspends)),
      fun e member => accepts.allowed _ e (fun s => (inside s).1.1.2 e member)
        (fine.1 e (List.mem_append_left _ member)),
      fun e member => accepts.allowed _ e (fun s => (inside s).1.2 e member)
        (fine.1 e (List.mem_append_right _ member)),
      fits_block method accepts body passedBody (fun s => (inside s).2) fine.2.2 hoisted.2 suspends_iff.mpr ?_⟩
    intro suspends
    have turn := suspends_iff.mp suspends
    rw [either.mpr (.inr turn)] at hoisted
    exact keeps_scopeAfter hoisted.1 (header (.inr turn))
  | .foreach _ _ _, _, _, _, _, _, _, _ => trivial
  | .switch scrutinee cases none, around, passed, scope, inside, fine, hoisted, kept => by
    simp only [checkStmt, check_bind] at passed
    obtain ⟨_, passed⟩ := passed
    simp only [Stmt.isScoped, Bool.and_eq_true] at inside
    simp only [Stmt.preorder, Bool.false_eq_true, if_false, List.forall_mem_cons] at fine
    exact ⟨accepts.allowed scope scrutinee (fun s => (inside s).1) (fine.1 scrutinee (by simp [Stmt.exprs])),
      fits_cases method accepts cases passed (fun s => (inside s).2) fine.2 hoisted kept⟩
  | .switch scrutinee cases (some default), around, passed, scope, inside, fine, hoisted, kept => by
    simp only [checkStmt, check_bind] at passed
    obtain ⟨_, passedCases, passedDefault⟩ := passed
    simp only [Stmt.isScoped, Bool.and_eq_true] at inside
    simp only [Stmt.preorder, Bool.false_eq_true, if_false, List.forall_mem_cons,
      List.forall_mem_append] at fine
    simp only [hoistedStmt, Pairing.keeps_append] at hoisted
    simp only [Stmt.suspensions] at kept
    exact ⟨accepts.allowed scope scrutinee (fun s => (inside s).1.1) (fine.1 scrutinee (by simp [Stmt.exprs])),
      fits_cases method accepts cases passedCases (fun s => (inside s).1.2) fine.2.1 hoisted.1
        (fun suspends => kept (by omega)),
      fits_block method accepts default passedDefault (fun s => (inside s).2) fine.2.2 hoisted.2 suspends_iff.mpr
        (of_suspends kept (by omega))⟩
  | .tryFinally body cleanup, around, passed, scope, inside, fine, hoisted, kept => by
    simp only [checkStmt, check_bind] at passed
    obtain ⟨passedBody, passedCleanup⟩ := passed
    simp only [Stmt.isScoped, Bool.and_eq_true] at inside
    simp only [Stmt.preorder, Bool.false_eq_true, if_false, List.forall_mem_cons,
      List.forall_mem_append] at fine
    simp only [hoistedStmt, Pairing.keeps_append] at hoisted
    simp only [Stmt.suspensions] at kept
    have calm := calm_block method cleanup .cleanup rfl passedCleanup
    have keptBody : Stmt.suspensionsAll body ≠ 0 → pair.Keeps scope := fun suspends => kept (by omega)
    exact ⟨fits_block method accepts body passedBody (fun s => (inside s).1) fine.2.1 hoisted.1
        suspends_iff.mpr (fun suspends => keptBody (suspends_iff.mp suspends)),
      fits_block method accepts cleanup passedCleanup (fun s => (inside s).2) fine.2.2 hoisted.2
        suspends_iff.mpr (fun suspends => absurd calm (suspends_iff.mp suspends)),
      calm, keptBody⟩
  | .yield value, around, passed, scope, inside, fine, hoisted, kept =>
    ⟨accepts.allowed scope value inside (fine _ List.mem_cons_self value (by simp [Stmt.exprs])),
      kept (by simp [Stmt.suspensions])⟩
  | .breakOut, _, _, _, _, _, _, _ | .continueLoop, _, _, _, _, _, _, _ | .stop, _, _, _, _, _, _, _ =>
    trivial

/-- While a block suspends, each local it declares joins those that are kept. -/
theorem fits_block (method : Method) (accepts : pair.Accepts strict good) : (body : List Stmt) →
    {around : Surroundings} → checkBlock method around body = .ok () → {scope : List LocalId} →
    (strict → Stmt.isScopedAll scope body) →
    (∀ t ∈ Stmt.preorderAll (fun _ => false) body, ∀ e ∈ t.exprs, good e) → {suspends : Bool} →
    pair.Keeps (hoistedScope .suspendingScopes suspends body) →
    (Stmt.suspensionsAll body ≠ 0 → suspends = true) → (suspends = true → pair.Keeps scope) →
    FitsAll pair scope body
  | [], _, _, _, _, _, _, _, _, _ => trivial
  | s :: rest, around, passed, scope, inside, fine, suspends, hoisted, flagged, kept => by
    simp only [checkBlock, check_bind] at passed
    obtain ⟨passedFirst, passed⟩ := passed
    simp only [Stmt.isScopedAll, Bool.and_eq_true] at inside
    simp only [Stmt.preorderAll, List.forall_mem_append] at fine
    simp only [hoistedScope, Pairing.keeps_append] at hoisted
    simp only [Stmt.suspensionsAll] at flagged
    refine ⟨fits_stmt method accepts s passedFirst (fun s => (inside s).1) fine.1 hoisted.1.2
        (fun here => kept (flagged (by omega))),
      fits_block method accepts rest passed (fun s => (inside s).2) fine.2 hoisted.2
        (fun later => flagged (by omega)) ?_⟩
    rintro rfl
    exact Pairing.keeps_append.mpr ⟨by simpa [hoists_true] using hoisted.1.1, kept rfl⟩

theorem fits_cases (method : Method) (accepts : pair.Accepts strict good) :
    (cases : List (List Int64 × List Stmt)) → {around : Surroundings} →
    checkCases method around cases = .ok () → {scope : List LocalId} →
    (strict → Stmt.isScopedCases scope cases) →
    (∀ t ∈ Stmt.preorderCases (fun _ => false) cases, ∀ e ∈ t.exprs, good e) →
    pair.Keeps (hoistedCases .suspendingScopes cases) →
    (Stmt.suspensionsCases cases ≠ 0 → pair.Keeps scope) → FitsCases pair scope cases
  | [], _, _, _, _, _, _, _ => trivial
  | (_, body) :: rest, around, passed, scope, inside, fine, hoisted, kept => by
    simp only [checkCases, check_bind] at passed
    obtain ⟨passedFirst, passed⟩ := passed
    simp only [Stmt.isScopedCases, Bool.and_eq_true] at inside
    simp only [Stmt.preorderCases, List.forall_mem_append] at fine
    simp only [hoistedCases, Pairing.keeps_append] at hoisted
    simp only [Stmt.suspensionsCases] at kept
    exact ⟨fits_block method accepts body passedFirst (fun s => (inside s).1) fine.1 hoisted.1
        suspends_iff.mpr (of_suspends kept (by omega)),
      fits_cases method accepts rest passed (fun s => (inside s).2) fine.2 hoisted.2
        (fun suspends => kept (by omega))⟩
end

end

/-- Everything that two resumable bodies refer to. -/
def Harvest.landmarks (harvest : Harvest) : Landmarks where
  placed mark := mark ∈ ⟨startLabel, [], true⟩ :: harvest.marks
  paused state resume := ∃ point ∈ harvest.points, point.1.state = state ∧ point.1.resume = resume
  called name name' := ∃ cleanup ∈ harvest.cleanups, cleanup.1.1 = name ∧ cleanup.2.1 = name'
  resumable := True

theorem Harvest.cover_landmarks (harvest : Harvest) : harvest.landmarks.Cover harvest where
  placed _ member := List.mem_cons_of_mem _ member
  paused point member := ⟨point, member, rfl, rfl⟩
  called cleanup member := ⟨cleanup, member, rfl, rfl⟩

/-- The resumable body from its first statement on. -/
def started (shape : Shape) (code : Code) : Code :=
  .label startLabel :: shape.setState State.running :: (code ++ shape.finish)

/-- Two resumable bodies that go together, with their suspension points and cleanup routines. -/
structure Pairing.Bodies (pair : Pairing) (progress progress' : Progress) (code code' : Code)
    (harvest : Harvest) : Prop where
  points_left : progress.points = harvest.points.map (·.1)
  points_right : progress'.points = harvest.points.map (·.2)
  cleanups_left : progress.cleanups = harvest.cleanups.map (·.1)
  cleanups_right : progress'.cleanups = harvest.cleanups.map (·.2)
  marked : (⟨startLabel, [], true⟩ :: harvest.marks).map Mark.label = (started pair.left code).labels
  resumed : ∀ point ∈ harvest.points, ∃ scope, ⟨point.1.resume, scope, true⟩ ∈ harvest.marks
  routines : ∀ cleanup ∈ harvest.cleanups, pair.Routines cleanup.1.2 cleanup.2.2
  counted : harvest.points.length = pair.method.body.suspensions
  chained : ∀ point ∈ harvest.points, point.1.state = point.2.state ∧ point.1.resume = point.2.resume ∧
    List.Forall₂ harvest.landmarks.called point.1.cleanup point.2.cleanup
  twin : Twin pair harvest.landmarks [] (started pair.left code) (started pair.right code') []

theorem exists_of_forall₂ {α β : Type} {related : α → β → Prop} {first : List α} {second : List β}
    (all : List.Forall₂ related first second) {a : α} (member : a ∈ first) :
    ∃ b ∈ second, related a b := by
  induction all with
  | nil => cases member
  | cons here _ ih =>
    rcases List.mem_cons.mp member with rfl | later
    · exact ⟨_, List.mem_cons_self, here⟩
    · obtain ⟨b, among, holds⟩ := ih later
      exact ⟨b, List.mem_cons_of_mem _ among, holds⟩

theorem mem_labels_of_placed {pair : Pairing} {progress progress' : Progress} {code code' : Code}
    {harvest : Harvest} (bodies : pair.Bodies progress progress' code code' harvest) {mark : Mark}
    (placed : harvest.landmarks.placed mark) :
    mark.label ∈ Machine.Code.labels (started pair.left code) := by
  rw [← bodies.marked]
  exact List.mem_map_of_mem placed

theorem bodies_of_emitted {pair : Pairing} (fits : FitsAll pair [] pair.method.body)
    {names names' : NameSupply} {code code' : Code} {progress progress' : Progress}
    (emitted : emitBlock pair.method pair.left (.body pair.method pair.left) pair.method.body
      ⟨2, [], [], names⟩ = .ok code progress)
    (emitted' : emitBlock pair.method pair.right (.body pair.method pair.right) pair.method.body
      ⟨2, [], [], names'⟩ = .ok code' progress') :
    ∃ harvest, pair.Bodies progress progress' code code' harvest := by
  have abreast : Progress.Abreast ⟨2, [], [], names⟩ ⟨2, [], [], names'⟩ := ⟨rfl, rfl⟩
  obtain ⟨harvest, both⟩ := blockTogether pair pair.method.body fits (.body pair) abreast emitted emitted'
  have body := both.twin harvest.landmarks trivial harvest.cover_landmarks
  have ended : Twin pair harvest.landmarks [] (code ++ (pair.left.finish ++ []))
      (code' ++ (pair.right.finish ++ [])) [] :=
    body.append (.finish trivial (.nil (List.Subset.refl [])))
  rw [List.append_nil, List.append_nil] at ended
  have start : harvest.landmarks.placed ⟨startLabel, [], true⟩ := List.mem_cons_self
  have whole : Twin pair harvest.landmarks [] (started pair.left code) (started pair.right code') [] :=
    .mark start (List.Subset.refl _) (by simp) ended
  exact ⟨harvest, {
    points_left := both.points_left
    points_right := both.points_right
    cleanups_left := both.cleanups_left
    cleanups_right := both.cleanups_right
    marked := by
      simp [started, Machine.Code.labels, both.marked, Shape.setState, Machine.Instr.setField,
        Shape.finish]
    resumed := both.resumed
    routines := both.routines
    counted := both.counted
    chained := both.chained harvest.landmarks trivial harvest.cover_landmarks
    twin := whole }⟩

end Resumable.Lowering

namespace Resumable

def Expr.target? : Expr → Option Var
  | .assign target _ => some target
  | _ => none

/-- The variables that the expression assigns. -/
def Expr.targets (e : Expr) : List Var := e.subexprs.filterMap target?

theorem Block.mem_assignedVars {body : Block} {var : Var} :
    var ∈ body.assignedVars ↔ ∃ s ∈ body.preorder, ∃ e ∈ s.exprs, var ∈ e.targets := by
  simp only [assignedVars, mem_sortedSet, List.mem_filterMap, subexprs, List.mem_flatMap, Expr.targets]
  constructor
  · rintro ⟨part, ⟨s, within, e, member, inside⟩, same⟩
    exact ⟨s, within, e, member, part, inside, same⟩
  · rintro ⟨s, within, e, member, part, inside, same⟩
    exact ⟨part, ⟨s, within, e, member, inside⟩, same⟩

namespace Lowering

/-- One shape by itself. What is known of its expressions is which variables they assign. -/
def Pairing.alone (method : Method) (shape : Shape) : Pairing where
  method := method
  left := shape
  right := shape
  allows _ e := e.targets ⊆ method.body.assignedVars
  keeps _ := True
  allows_mono _ allowed := allowed
  allows_initial member := by
    simp only [List.mem_cons, List.not_mem_nil, or_false] at member
    rcases member with rfl | rfl | rfl <;> exact List.nil_subset _

/-- Two shapes of a well-scoped method. -/
def Pairing.scoped (method : Method) (left right : Shape) : Pairing where
  method := method
  left := left
  right := right
  allows scope e := e.isScoped scope
  keeps id := (left.slot? (.loc id)).isSome ∧ (right.slot? (.loc id)).isSome
  allows_mono within allowed := Expr.isScoped_mono within allowed
  allows_initial member := by
    simp only [List.mem_cons, List.not_mem_nil, or_false] at member
    rcases member with rfl | rfl | rfl <;> rfl

theorem accepts_alone (method : Method) (shape : Shape) :
    (Pairing.alone method shape).Accepts False (fun e => e.targets ⊆ method.body.assignedVars) :=
  ⟨fun _ _ _ good => good⟩

theorem accepts_scoped (method : Method) (left right : Shape) :
    (Pairing.scoped method left right).Accepts True (fun _ => True) :=
  ⟨fun _ _ inside _ => inside trivial⟩

namespace Outline
variable {method : Method} {options options' : Options} {lowered lowered' : Lowered}
  (outline : Outline method options lowered)

theorem passed_expanded : checkStructure outline.expanded = .ok () := by
  obtain ⟨expanded, done, passed⟩ := expandForeach_passes outline.passed
  rw [Except.ok.inj (outline.expands.symm.trans done)]
  exact passed

theorem expanded_eq (outline' : Outline method options' lowered') : outline'.expanded = outline.expanded :=
  Except.ok.inj (outline'.expands.symm.trans outline.expands)

/-- A local that lives in a field under the narrower policy does so in the shape. -/
theorem slot_hoisted {id : LocalId}
    (hoisted : id ∈ hoistedScope .suspendingScopes outline.expanded.body.suspends outline.expanded.body) :
    (outline.shape.slot? (.loc id)).isSome := by
  rw [outline.built.slot_isSome]
  have member := (hoistedScope_sublist options.hoisting _ _).subset hoisted
  simpa [capture, hoistedLocals] using member

/-- The resumable body of one lowering, paired with itself. -/
theorem bodies_alone : ∃ harvest, (Pairing.alone outline.expanded outline.shape).Bodies outline.progress
    outline.progress outline.code outline.code harvest := by
  refine bodies_of_emitted ?_ outline.emitted outline.emitted
  exact fits_block outline.expanded (accepts_alone _ _) _ outline.passed_expanded nofun
    (fun t within e member var target => Block.mem_assignedVars.mpr ⟨t, within, e, member, target⟩)
    (fun _ _ => trivial) suspends_iff.mpr (fun _ _ _ => trivial)

/-- The cleanup routines of a suspension point exist. -/
theorem cleanup_of_point {point : Machine.Point} (member : point ∈ lowered.machine.points) {name : String}
    (listed : name ∈ point.cleanup) : ∃ cleanup ∈ outline.progress.cleanups, cleanup.1 = name := by
  obtain ⟨harvest, bodies⟩ := outline.bodies_alone
  rw [outline.machinePoints_eq, bodies.points_left] at member
  obtain ⟨both, inside, rfl⟩ := List.mem_map.mp member
  obtain ⟨_, _, chain⟩ := bodies.chained both inside
  obtain ⟨name', _, cleanup, found, rfl, _⟩ := exists_of_forall₂ chain listed
  refine ⟨cleanup.1, ?_, rfl⟩
  rw [bodies.cleanups_left]
  exact List.mem_map_of_mem found

/-- The resumable bodies of two lowerings of a well-scoped method. -/
theorem bodies_scoped (outline' : Outline method options' lowered') (inside : method.WellScoped) :
    ∃ harvest, (Pairing.scoped outline.expanded outline.shape outline'.shape).Bodies outline.progress
      outline'.progress outline.code outline'.code harvest := by
  have emitted' := outline'.emitted
  rw [outline.expanded_eq outline'] at emitted'
  refine bodies_of_emitted ?_ outline.emitted emitted'
  have kept : (Pairing.scoped outline.expanded outline.shape outline'.shape).Keeps
      (hoistedScope .suspendingScopes outline.expanded.body.suspends outline.expanded.body) := by
    intro id hoisted
    refine ⟨outline.slot_hoisted hoisted, outline'.slot_hoisted ?_⟩
    rw [outline.expanded_eq outline']
    exact hoisted
  exact fits_block outline.expanded (accepts_scoped _ _ _) _ outline.passed_expanded
    (fun _ => scoped_expanded outline.expands inside) (fun _ _ _ _ => trivial) kept suspends_iff.mpr
    (fun _ => by simp [Pairing.Keeps])

end Outline
end Lowering
end Resumable
