import Resumable.Lowering.Foreach
import Resumable.Lowering.Structure
import Resumable.Proofs.Readiness

/-!
Counting loops in place of foreach loops. The locals they take are consecutive from the
first identity that is not declared, so the new body is a function of the old one and of
that identity alone.
-/

namespace Resumable
open Lowering

theorem lt_nextLocal {locals : List LocalVar} {l : LocalVar} (member : l ∈ locals) :
    l.id < nextLocal locals := by
  induction locals with
  | nil => cases member
  | cons first rest ih =>
    simp only [nextLocal]
    rcases List.mem_cons.mp member with rfl | member
    · exact Nat.lt_of_lt_of_le (Nat.lt_succ_self _) (Nat.le_max_left _ _)
    · exact Nat.lt_of_lt_of_le (ih member) (Nat.le_max_right _ _)

theorem nextLocal_append (locals : List LocalVar) (l : LocalVar) :
    nextLocal (locals ++ [l]) = max (nextLocal locals) (l.id + 1) := by
  induction locals with
  | nil => simp [nextLocal]
  | cons first rest ih => simp only [List.cons_append, nextLocal, ih, Nat.max_assoc]

namespace Stmt

mutual
/-- How many locals the counting loops take. -/
def extraLocals : Stmt → Nat
  | .block body => extraLocalsAll body
  | .ite _ yes none => extraLocalsAll yes
  | .ite _ yes (some no) => extraLocalsAll yes + extraLocalsAll no
  | .whileLoop _ body => extraLocalsAll body
  | .forLoop init _ _ body => extraLocalsAll init + extraLocalsAll body
  | .foreach _ _ body => 2 + extraLocalsAll body
  | .switch _ cases none => extraLocalsCases cases
  | .switch _ cases (some default) => extraLocalsCases cases + extraLocalsAll default
  | .tryFinally body cleanup => extraLocalsAll body + extraLocalsAll cleanup
  | .declare _ _ | .eval _ | .breakOut | .continueLoop | .yield _ | .stop => 0

def extraLocalsAll : List Stmt → Nat
  | [] => 0
  | s :: rest => extraLocals s + extraLocalsAll rest

def extraLocalsCases : List (List Int64 × List Stmt) → Nat
  | [] => 0
  | (_, body) :: rest => extraLocalsAll body + extraLocalsCases rest
end

mutual
/-- The statement with counting loops, whose locals are taken from `next` on. -/
def counted (next : LocalId) : Stmt → Stmt
  | .block body => .block (countedAll next body)
  | .declare id init => .declare id init
  | .eval value => .eval value
  | .ite cond yes none => .ite cond (countedAll next yes) none
  | .ite cond yes (some no) =>
    .ite cond (countedAll next yes) (some (countedAll (next + extraLocalsAll yes) no))
  | .whileLoop cond body => .whileLoop cond (countedAll next body)
  | .forLoop init cond step body =>
    .forLoop (countedAll next init) cond step (countedAll (next + extraLocalsAll init) body)
  | .foreach id collection body =>
    countingLoop id next (next + 1) collection (countedAll (next + 2) body)
  | .switch scrutinee cases none => .switch scrutinee (countedCases next cases) none
  | .switch scrutinee cases (some default) =>
    .switch scrutinee (countedCases next cases)
      (some (countedAll (next + extraLocalsCases cases) default))
  | .tryFinally body cleanup =>
    .tryFinally (countedAll next body) (countedAll (next + extraLocalsAll body) cleanup)
  | .breakOut => .breakOut
  | .continueLoop => .continueLoop
  | .yield value => .yield value
  | .stop => .stop

def countedAll (next : LocalId) : List Stmt → List Stmt
  | [] => []
  | s :: rest => counted next s :: countedAll (next + extraLocals s) rest

def countedCases (next : LocalId) :
    List (List Int64 × List Stmt) → List (List Int64 × List Stmt)
  | [] => []
  | (values, body) :: rest =>
    (values, countedAll next body) :: countedCases (next + extraLocalsAll body) rest
end

end Stmt

namespace Lowering

/-- What replacing the loops of some code does to the symbol table. -/
structure Grows (locals locals' : List LocalVar) (extra : Nat) : Prop where
  keeps : locals <+: locals'
  next : nextLocal locals' = nextLocal locals + extra

theorem Grows.refl (locals : List LocalVar) : Grows locals locals 0 :=
  ⟨List.prefix_refl locals, rfl⟩

theorem Grows.trans {locals locals' locals'' : List LocalVar} {extra extra' : Nat}
    (first : Grows locals locals' extra) (second : Grows locals' locals'' extra') :
    Grows locals locals'' (extra + extra') :=
  ⟨first.keeps.trans second.keeps, by rw [second.next, first.next, Nat.add_assoc]⟩

theorem declareFresh_eq_ok {name : String} {ty : Ty} {locals locals' : List LocalVar} {id : LocalId}
    (declared : declareFresh name ty locals = .ok id locals') :
    id = nextLocal locals ∧ Grows locals locals' 1 := by
  obtain ⟨rfl, rfl⟩ := EStateM.Result.ok.inj declared
  refine ⟨rfl, List.prefix_append _ _, ?_⟩
  simp [nextLocal_append]

mutual
theorem expandStmt_eq_ok (method : Method) : (s : Stmt) → {locals locals' : List LocalVar} →
    {s' : Stmt} → expandStmt method s locals = .ok s' locals' →
    s' = s.counted (nextLocal locals) ∧ Grows locals locals' s.extraLocals
  | .block body, locals, locals', s', expanded => by
    simp only [expandStmt, bind_eq_ok, pure_eq_ok] at expanded
    obtain ⟨_, _, inner, rfl, rfl⟩ := expanded
    obtain ⟨rfl, grows⟩ := expandBlock_eq_ok method body inner
    exact ⟨rfl, grows⟩
  | .declare id init, locals, locals', s', expanded => by
    simp only [expandStmt, pure_eq_ok] at expanded
    obtain ⟨rfl, rfl⟩ := expanded
    exact ⟨rfl, .refl _⟩
  | .eval value, locals, locals', s', expanded => by
    simp only [expandStmt, pure_eq_ok] at expanded
    obtain ⟨rfl, rfl⟩ := expanded
    exact ⟨rfl, .refl _⟩
  | .ite cond yes none, locals, locals', s', expanded => by
    simp only [expandStmt, bind_eq_ok, pure_eq_ok] at expanded
    obtain ⟨_, _, inner, rfl, rfl⟩ := expanded
    obtain ⟨rfl, grows⟩ := expandBlock_eq_ok method yes inner
    exact ⟨rfl, grows⟩
  | .ite cond yes (some no), locals, locals', s', expanded => by
    simp only [expandStmt, bind_eq_ok, pure_eq_ok] at expanded
    obtain ⟨_, _, first, _, _, second, rfl, rfl⟩ := expanded
    obtain ⟨rfl, grows⟩ := expandBlock_eq_ok method yes first
    obtain ⟨rfl, grows'⟩ := expandBlock_eq_ok method no second
    exact ⟨by rw [grows.next, Stmt.counted], grows.trans grows'⟩
  | .whileLoop cond body, locals, locals', s', expanded => by
    simp only [expandStmt, bind_eq_ok, pure_eq_ok] at expanded
    obtain ⟨_, _, inner, rfl, rfl⟩ := expanded
    obtain ⟨rfl, grows⟩ := expandBlock_eq_ok method body inner
    exact ⟨rfl, grows⟩
  | .forLoop init cond step body, locals, locals', s', expanded => by
    simp only [expandStmt, bind_eq_ok, pure_eq_ok] at expanded
    obtain ⟨_, _, first, _, _, second, rfl, rfl⟩ := expanded
    obtain ⟨rfl, grows⟩ := expandBlock_eq_ok method init first
    obtain ⟨rfl, grows'⟩ := expandBlock_eq_ok method body second
    exact ⟨by rw [grows.next, Stmt.counted], grows.trans grows'⟩
  | .foreach id collection body, locals, locals', s', expanded => by
    simp only [expandStmt, bind_eq_ok, pure_eq_ok, checked_eq_ok] at expanded
    obtain ⟨_, _, got, ty, _, ⟨_, rfl⟩, array, _, first, index, _, second, _, _, inner, rfl, rfl⟩ :=
      expanded
    obtain ⟨rfl, rfl⟩ := EStateM.Result.ok.inj got
    obtain ⟨rfl, grows⟩ := declareFresh_eq_ok first
    obtain ⟨rfl, grows'⟩ := declareFresh_eq_ok second
    obtain ⟨rfl, grows''⟩ := expandBlock_eq_ok method body inner
    exact ⟨by rw [grows'.next, grows.next, Stmt.counted], (grows.trans grows').trans grows''⟩
  | .switch scrutinee cases none, locals, locals', s', expanded => by
    simp only [expandStmt, bind_eq_ok, pure_eq_ok] at expanded
    obtain ⟨_, _, inner, rfl, rfl⟩ := expanded
    obtain ⟨rfl, grows⟩ := expandCases_eq_ok method cases inner
    exact ⟨rfl, grows⟩
  | .switch scrutinee cases (some default), locals, locals', s', expanded => by
    simp only [expandStmt, bind_eq_ok, pure_eq_ok] at expanded
    obtain ⟨_, _, first, _, _, second, rfl, rfl⟩ := expanded
    obtain ⟨rfl, grows⟩ := expandCases_eq_ok method cases first
    obtain ⟨rfl, grows'⟩ := expandBlock_eq_ok method default second
    exact ⟨by rw [grows.next, Stmt.counted], grows.trans grows'⟩
  | .tryFinally body cleanup, locals, locals', s', expanded => by
    simp only [expandStmt, bind_eq_ok, pure_eq_ok] at expanded
    obtain ⟨_, _, first, _, _, second, rfl, rfl⟩ := expanded
    obtain ⟨rfl, grows⟩ := expandBlock_eq_ok method body first
    obtain ⟨rfl, grows'⟩ := expandBlock_eq_ok method cleanup second
    exact ⟨by rw [grows.next, Stmt.counted], grows.trans grows'⟩
  | .breakOut, locals, locals', s', expanded => by
    simp only [expandStmt, pure_eq_ok] at expanded
    obtain ⟨rfl, rfl⟩ := expanded
    exact ⟨rfl, .refl _⟩
  | .continueLoop, locals, locals', s', expanded => by
    simp only [expandStmt, pure_eq_ok] at expanded
    obtain ⟨rfl, rfl⟩ := expanded
    exact ⟨rfl, .refl _⟩
  | .yield value, locals, locals', s', expanded => by
    simp only [expandStmt, pure_eq_ok] at expanded
    obtain ⟨rfl, rfl⟩ := expanded
    exact ⟨rfl, .refl _⟩
  | .stop, locals, locals', s', expanded => by
    simp only [expandStmt, pure_eq_ok] at expanded
    obtain ⟨rfl, rfl⟩ := expanded
    exact ⟨rfl, .refl _⟩

theorem expandBlock_eq_ok (method : Method) : (body : List Stmt) →
    {locals locals' : List LocalVar} → {body' : List Stmt} →
    expandBlock method body locals = .ok body' locals' →
    body' = Stmt.countedAll (nextLocal locals) body ∧ Grows locals locals' (Stmt.extraLocalsAll body)
  | [], locals, locals', body', expanded => by
    simp only [expandBlock, pure_eq_ok] at expanded
    obtain ⟨rfl, rfl⟩ := expanded
    exact ⟨rfl, .refl _⟩
  | s :: rest, locals, locals', body', expanded => by
    simp only [expandBlock, bind_eq_ok, pure_eq_ok] at expanded
    obtain ⟨_, _, first, _, _, second, rfl, rfl⟩ := expanded
    obtain ⟨rfl, grows⟩ := expandStmt_eq_ok method s first
    obtain ⟨rfl, grows'⟩ := expandBlock_eq_ok method rest second
    exact ⟨by rw [grows.next, Stmt.countedAll], grows.trans grows'⟩

theorem expandCases_eq_ok (method : Method) : (cases : List (List Int64 × List Stmt)) →
    {locals locals' : List LocalVar} → {cases' : List (List Int64 × List Stmt)} →
    expandCases method cases locals = .ok cases' locals' →
    cases' = Stmt.countedCases (nextLocal locals) cases ∧
      Grows locals locals' (Stmt.extraLocalsCases cases)
  | [], locals, locals', cases', expanded => by
    simp only [expandCases, pure_eq_ok] at expanded
    obtain ⟨rfl, rfl⟩ := expanded
    exact ⟨rfl, .refl _⟩
  | (values, body) :: rest, locals, locals', cases', expanded => by
    simp only [expandCases, bind_eq_ok, pure_eq_ok] at expanded
    obtain ⟨_, _, first, _, _, second, rfl, rfl⟩ := expanded
    obtain ⟨rfl, grows⟩ := expandBlock_eq_ok method body first
    obtain ⟨rfl, grows'⟩ := expandCases_eq_ok method rest second
    exact ⟨by rw [grows.next, Stmt.countedCases], grows.trans grows'⟩
end

theorem expandForeach_spec {method expanded : Method} (done : expandForeach method = .ok expanded) :
    ∃ locals, expanded = { method with
      body := Stmt.countedAll (nextLocal method.locals) method.body, locals := locals } ∧
      method.locals <+: locals := by
  unfold expandForeach at done
  split at done
  · next body locals found =>
    obtain rfl := Except.ok.inj done
    obtain ⟨rfl, grows⟩ := expandBlock_eq_ok method method.body found
    exact ⟨locals, rfl, grows.keeps⟩
  · cases done

@[simp] theorem declared_counted (next : LocalId) (s : Stmt) : declared (s.counted next) = declared s := by
  cases s with
  | ite cond yes no => cases no <;> rfl
  | switch scrutinee cases default => cases default <;> rfl
  | _ => rfl

theorem scopeAfter_counted (next : LocalId) (scope : List LocalId) (body : List Stmt) :
    Stmt.scopeAfter scope (Stmt.countedAll next body) = Stmt.scopeAfter scope body := by
  induction body generalizing next scope with
  | nil => rfl
  | cons s rest ih => simp only [Stmt.countedAll, Stmt.scopeAfter, declared_counted, ih]

theorem counted_plain (next : LocalId) {init : List Stmt} (plain : init.all Stmt.isPlain) :
    Stmt.countedAll next init = init := by
  induction init generalizing next with
  | nil => rfl
  | cons s rest ih =>
    simp only [List.all_cons, Bool.and_eq_true] at plain
    cases s with
    | declare id init => simp only [Stmt.countedAll, Stmt.counted, ih _ plain.2]
    | eval value => simp only [Stmt.countedAll, Stmt.counted, ih _ plain.2]
    | _ => simp [Stmt.isPlain] at plain

theorem suspensions_plain {init : List Stmt} (plain : init.all Stmt.isPlain) :
    Stmt.suspensionsAll init = 0 := by
  induction init with
  | nil => rfl
  | cons s rest ih =>
    simp only [List.all_cons, Bool.and_eq_true] at plain
    cases s with
    | declare id init => simp [Stmt.suspensionsAll, Stmt.suspensions, ih plain.2]
    | eval value => simp [Stmt.suspensionsAll, Stmt.suspensions, ih plain.2]
    | _ => simp [Stmt.isPlain] at plain

mutual
theorem suspensions_counted : (s : Stmt) → (next : LocalId) →
    (s.counted next).suspensions = s.suspensions
  | .block body, next => suspensions_countedAll body next
  | .ite _ yes none, next => suspensions_countedAll yes next
  | .ite _ yes (some no), next => by
    simp only [Stmt.counted, Stmt.suspensions, suspensions_countedAll]
  | .whileLoop _ body, next => suspensions_countedAll body next
  | .forLoop init _ _ body, next => by
    simp only [Stmt.counted, Stmt.suspensions, suspensions_countedAll]
  | .foreach _ _ body, next => by
    simp only [Stmt.counted, countingLoop, Stmt.suspensions, Stmt.suspensionsAll,
      suspensions_countedAll, Nat.zero_add, Nat.add_zero]
  | .switch _ cases none, next => suspensions_countedCases cases next
  | .switch _ cases (some default), next => by
    simp only [Stmt.counted, Stmt.suspensions, suspensions_countedAll, suspensions_countedCases]
  | .tryFinally body cleanup, next => by
    simp only [Stmt.counted, Stmt.suspensions, suspensions_countedAll]
  | .declare _ _, _ | .eval _, _ | .breakOut, _ | .continueLoop, _ | .yield _, _ | .stop, _ => rfl

theorem suspensions_countedAll : (body : List Stmt) → (next : LocalId) →
    Stmt.suspensionsAll (Stmt.countedAll next body) = Stmt.suspensionsAll body
  | [], _ => rfl
  | s :: rest, next => by
    simp only [Stmt.countedAll, Stmt.suspensionsAll, suspensions_counted s,
      suspensions_countedAll rest]

theorem suspensions_countedCases : (cases : List (List Int64 × List Stmt)) → (next : LocalId) →
    Stmt.suspensionsCases (Stmt.countedCases next cases) = Stmt.suspensionsCases cases
  | [], _ => rfl
  | (_, body) :: rest, next => by
    simp only [Stmt.countedCases, Stmt.suspensionsCases, suspensions_countedAll body,
      suspensions_countedCases rest]
end

theorem check_bind {first second : Check} :
    (do first; second) = .ok () ↔ first = .ok () ∧ second = .ok () := by
  cases first <;> simp [bind, Except.bind]

mutual
/-- Nothing suspends inside a cleanup block. -/
theorem calm_stmt (method : Method) : (s : Stmt) → (around : Surroundings) → around.inCleanup = true →
    checkStmt method around s = .ok () → s.suspensions = 0
  | .block body, around, inside, passed => calm_block method body around inside passed
  | .ite _ yes none, around, inside, passed => by
    simp only [checkStmt, check_bind] at passed
    obtain ⟨_, passed⟩ := passed
    exact calm_block method yes around inside passed
  | .ite _ yes (some no), around, inside, passed => by
    simp only [checkStmt, check_bind] at passed
    obtain ⟨_, passedYes, passedNo⟩ := passed
    simp only [Stmt.suspensions, calm_block method yes around inside passedYes,
      calm_block method no around inside passedNo]
  | .whileLoop _ body, around, inside, passed => by
    simp only [checkStmt, check_bind] at passed
    obtain ⟨_, passed⟩ := passed
    exact calm_block method body around.loop inside passed
  | .forLoop init _ _ body, around, inside, passed => by
    simp only [checkStmt, check_bind] at passed
    obtain ⟨passedInit, _, _, passed⟩ := passed
    simp only [Stmt.suspensions, calm_block method init around inside passedInit,
      calm_block method body around.loop inside passed]
  | .foreach _ _ body, around, inside, passed => by
    simp only [checkStmt, check_bind] at passed
    obtain ⟨_, _, passed⟩ := passed
    exact calm_block method body around.loop inside passed
  | .switch _ cases none, around, inside, passed => by
    simp only [checkStmt, check_bind] at passed
    obtain ⟨_, passed⟩ := passed
    exact calm_cases method cases around.switch inside passed
  | .switch _ cases (some default), around, inside, passed => by
    simp only [checkStmt, check_bind] at passed
    obtain ⟨_, passedCases, passed⟩ := passed
    simp only [Stmt.suspensions, calm_cases method cases around.switch inside passedCases,
      calm_block method default around.switch inside passed]
  | .tryFinally body cleanup, around, inside, passed => by
    simp only [checkStmt, check_bind] at passed
    obtain ⟨passedBody, passed⟩ := passed
    simp only [Stmt.suspensions, calm_block method body around inside passedBody,
      calm_block method cleanup .cleanup rfl passed]
  | .yield _, around, inside, passed => by simp [checkStmt, inside] at passed
  | .declare _ _, _, _, _ | .eval _, _, _, _ | .breakOut, _, _, _ | .continueLoop, _, _, _
  | .stop, _, _, _ => rfl

theorem calm_block (method : Method) : (body : List Stmt) → (around : Surroundings) →
    around.inCleanup = true → checkBlock method around body = .ok () → Stmt.suspensionsAll body = 0
  | [], _, _, _ => rfl
  | s :: rest, around, inside, passed => by
    simp only [checkBlock, check_bind] at passed
    obtain ⟨passedFirst, passed⟩ := passed
    simp only [Stmt.suspensionsAll, calm_stmt method s around inside passedFirst,
      calm_block method rest around inside passed]

theorem calm_cases (method : Method) : (cases : List (List Int64 × List Stmt)) →
    (around : Surroundings) → around.inCleanup = true → checkCases method around cases = .ok () →
    Stmt.suspensionsCases cases = 0
  | [], _, _, _ => rfl
  | (_, body) :: rest, around, inside, passed => by
    simp only [checkCases, check_bind] at passed
    obtain ⟨passedFirst, passed⟩ := passed
    simp only [Stmt.suspensionsCases, calm_block method body around inside passedFirst,
      calm_cases method rest around inside passed]
end

theorem suspends_iff {body : Block} : Block.suspends body = true ↔ Stmt.suspensionsAll body ≠ 0 := by
  unfold Block.suspends Block.suspensions
  exact decide_eq_true_iff

/-- What a statement is promised if it suspends holds where a block inside it does. -/
theorem of_suspends {body : Block} {count : Nat} {promise : Prop} (promised : count ≠ 0 → promise)
    (part : Stmt.suspensionsAll body ≤ count) (suspends : Block.suspends body = true) : promise := by
  have := suspends_iff.mp suspends
  exact promised (by omega)

theorem hoists_true (policy : HoistPolicy) : policy.hoists true = true := by
  cases policy <;> rfl

@[simp] theorem stores_append {shape : Shape} {first second : List LocalId} :
    shape.Stores (first ++ second) ↔ shape.Stores first ∧ shape.Stores second := by
  simp [Shape.Stores, or_imp, forall_and]

@[simp] theorem suspends_countedAll (next : LocalId) (body : List Stmt) :
    Block.suspends (Stmt.countedAll next body) = Block.suspends body := by
  rw [Bool.eq_iff_iff, suspends_iff, suspends_iff, suspensions_countedAll]

/-- In a scope that suspends every local is stored. -/
theorem stores_scopeAfter {shape : Shape} {policy : HoistPolicy} {scope : List LocalId}
    {body : List Stmt} (hoisted : shape.Stores (hoistedScope policy true body))
    (stores : shape.Stores scope) : shape.Stores (Stmt.scopeAfter scope body) := by
  induction body generalizing scope with
  | nil => exact stores
  | cons s rest ih =>
    simp only [hoistedScope, hoists_true, if_true, stores_append] at hoisted
    exact ih hoisted.2 (stores_append.mpr ⟨hoisted.1.1, stores⟩)

theorem suspends_congr {body body' : Block} (same : Stmt.suspensionsAll body = Stmt.suspensionsAll body') :
    Block.suspends body = Block.suspends body' := by
  rw [Bool.eq_iff_iff, suspends_iff, suspends_iff, same]

/-- A counting loop hoists its own locals when its body suspends. -/
theorem hoisted_countingLoop (policy : HoistPolicy) (id array index : LocalId) (collection : Expr)
    (body : Block) : hoistedStmt policy (countingLoop id array index collection body) =
      (if policy.hoists (Block.suspends body) then [array] else []) ++
        ((if policy.hoists (Block.suspends body) then [index] else []) ++
        ((if policy.hoists (Block.suspends body) then [id] else []) ++
        hoistedScope policy (Block.suspends body) body)) := by
  have turn (init : Expr) : Block.suspends [.declare id (some init), .block body] = Block.suspends body :=
    suspends_congr (by simp [Stmt.suspensionsAll, Stmt.suspensions])
  have around (init first : Expr) (cond : Option Expr) (step : List Expr) (item : Expr) :
      Block.suspends [.declare array (some init), .forLoop [.declare index (some first)] cond step
        [.declare id (some item), .block body]] = Block.suspends body :=
    suspends_congr (by simp [Stmt.suspensionsAll, Stmt.suspensions])
  have header (init : Expr) : Block.suspends [.declare index (some init)] = false := by
    simp [Block.suspends, Block.suspensions, Stmt.suspensionsAll, Stmt.suspensions]
  simp only [countingLoop, hoistedStmt, hoistedScope, declared, turn, header, Bool.false_or,
    around, ite_self, List.nil_append, List.append_nil]

section
variable (method : Method) (shape : Shape) (policy : HoistPolicy)

mutual
/-- A statement of a method that is well scoped and passes the check, with its loops replaced: the
locals of every scope that suspends live in fields. -/
theorem ready_counted : (s : Stmt) → (next : LocalId) → (around : Surroundings) →
    checkStmt method around s = .ok () → (∀ t ∈ s.preorder fun _ => false, t.hasPlainHeader) →
    {scope scope' : List LocalId} → scope ⊆ scope' → s.isScoped scope →
    shape.Stores (hoistedStmt policy (s.counted next)) →
    (s.suspensions ≠ 0 → shape.Stores scope') → Ready shape scope' (s.counted next)
  | .block body, next, around, passed, plain, scope, scope', within, inside, hoisted, stores => by
    simp only [Stmt.preorder, Bool.false_eq_true, if_false, List.forall_mem_cons] at plain
    simp only [Stmt.counted, hoistedStmt, suspends_countedAll] at hoisted
    exact ready_countedAll body next around passed plain.2 within inside hoisted suspends_iff.mpr
      fun does => stores (suspends_iff.mp does)
  | .declare id none, next, around, passed, plain, scope, scope', within, inside, hoisted, stores =>
    trivial
  | .declare id (some init), next, around, passed, plain, scope, scope', within, inside, hoisted,
      stores => Expr.isScoped_mono within inside
  | .eval value, next, around, passed, plain, scope, scope', within, inside, hoisted, stores =>
    Expr.isScoped_mono within inside
  | .ite cond yes none, next, around, passed, plain, scope, scope', within, inside, hoisted, stores => by
    simp only [checkStmt, check_bind] at passed
    obtain ⟨_, passed⟩ := passed
    simp only [Stmt.preorder, Bool.false_eq_true, if_false, List.forall_mem_cons] at plain
    simp only [Stmt.isScoped, Bool.and_eq_true] at inside
    simp only [Stmt.counted, hoistedStmt, suspends_countedAll] at hoisted
    exact ⟨Expr.isScoped_mono within inside.1, ready_countedAll yes next around passed plain.2 within
      inside.2 hoisted suspends_iff.mpr fun does => stores (suspends_iff.mp does)⟩
  | .ite cond yes (some no), next, around, passed, plain, scope, scope', within, inside, hoisted,
      stores => by
    simp only [checkStmt, check_bind] at passed
    obtain ⟨_, passedYes, passedNo⟩ := passed
    simp only [Stmt.preorder, Bool.false_eq_true, if_false, List.forall_mem_cons, List.mem_append,
      or_imp, forall_and] at plain
    simp only [Stmt.isScoped, Bool.and_eq_true] at inside
    simp only [Stmt.counted, hoistedStmt, suspends_countedAll, stores_append] at hoisted
    simp only [Stmt.suspensions] at stores
    refine ⟨Expr.isScoped_mono within inside.1.1, ?_, ?_⟩
    · exact ready_countedAll yes next around passedYes plain.2.1 within inside.1.2 hoisted.1
        suspends_iff.mpr (of_suspends stores (by omega))
    · exact ready_countedAll no _ around passedNo plain.2.2 within inside.2 hoisted.2
        suspends_iff.mpr (of_suspends stores (by omega))
  | .whileLoop cond body, next, around, passed, plain, scope, scope', within, inside, hoisted,
      stores => by
    simp only [checkStmt, check_bind] at passed
    obtain ⟨_, passed⟩ := passed
    simp only [Stmt.preorder, Bool.false_eq_true, if_false, List.forall_mem_cons] at plain
    simp only [Stmt.isScoped, Bool.and_eq_true] at inside
    simp only [Stmt.counted, hoistedStmt, suspends_countedAll] at hoisted
    exact ⟨Expr.isScoped_mono within inside.1, ready_countedAll body next around.loop passed plain.2
      within inside.2 hoisted suspends_iff.mpr fun does => stores (suspends_iff.mp does)⟩
  | .forLoop init cond step body, next, around, passed, plain, scope, scope', within, inside, hoisted,
      stores => by
    simp only [checkStmt, check_bind] at passed
    obtain ⟨passedInit, _, _, passedBody⟩ := passed
    simp only [Stmt.preorder, Bool.false_eq_true, if_false, List.forall_mem_cons, List.mem_append,
      or_imp, forall_and] at plain
    obtain ⟨header, plainInit, plainBody⟩ := plain
    simp only [Stmt.isScoped, Bool.and_eq_true] at inside
    obtain ⟨⟨⟨insideInit, insideCond⟩, insideStep⟩, insideBody⟩ := inside
    simp only [Stmt.counted, hoistedStmt, suspends_countedAll, stores_append] at hoisted
    simp only [Stmt.suspensions] at stores
    have quiet := suspensions_plain header
    have never : Block.suspends init = false := by simp [Block.suspends, Block.suspensions, quiet]
    rw [never, Bool.false_or] at hoisted
    have within' := Stmt.scopeAfter_mono within init
    have storesBody : Block.suspends body = true → shape.Stores (Stmt.scopeAfter scope' init) := by
      intro does
      have suspends := suspends_iff.mp does
      rw [does, counted_plain next header] at hoisted
      exact stores_scopeAfter hoisted.1 (stores (by omega))
    refine ⟨?_, ?_, ?_, ?_, ?_⟩
    · exact ready_countedAll init next around passedInit plainInit within insideInit hoisted.1
        (fun suspends => (suspends quiet).elim) (of_suspends stores (by omega))
    · rw [counted_plain next header]
      exact header
    · rw [scopeAfter_counted]
      simp only [List.all_eq_true] at insideCond ⊢
      exact fun e member => Expr.isScoped_mono within' (insideCond e member)
    · rw [scopeAfter_counted]
      simp only [List.all_eq_true] at insideStep ⊢
      exact fun e member => Expr.isScoped_mono within' (insideStep e member)
    · rw [scopeAfter_counted]
      exact ready_countedAll body _ around.loop passedBody plainBody within' insideBody hoisted.2
        suspends_iff.mpr storesBody
  | .foreach id collection body, next, around, passed, plain, scope, scope', within, inside, hoisted,
      stores => by
    simp only [checkStmt, check_bind] at passed
    obtain ⟨_, _, passed⟩ := passed
    simp only [Stmt.preorder, Bool.false_eq_true, if_false, List.forall_mem_cons] at plain
    simp only [Stmt.isScoped, Bool.and_eq_true] at inside
    simp only [Stmt.counted, hoisted_countingLoop, suspends_countedAll, stores_append] at hoisted
    obtain ⟨storesArray, storesIndex, storesId, hoisted⟩ := hoisted
    have within' : id :: scope ⊆ id :: (next + 1) :: next :: scope' := by
      refine List.cons_subset_cons id (List.Subset.trans within ?_)
      simp
    refine ⟨Expr.isScoped_mono within inside.1, ⟨⟨rfl, trivial⟩, rfl, ?_, ?_, ?_, ?_, trivial⟩, trivial⟩
    · simp [Stmt.scopeAfter, declared, Expr.isScoped, Expr.vars, Expr.ofLocal, Var.inScope]
    · simp [Stmt.scopeAfter, declared, Expr.isScoped, Expr.vars, Expr.ofLocal, Var.inScope]
    · simp [Ready, Stmt.scopeAfter, declared, Expr.isScoped, Expr.vars, Expr.ofLocal, Var.inScope]
    · refine ready_countedAll body (next + 2) around.loop passed plain.2 within' inside.2 hoisted
        suspends_iff.mpr fun does => ?_
      rw [does, hoists_true, if_pos rfl] at storesArray storesIndex storesId
      have outer := stores (suspends_iff.mp does)
      change shape.Stores (id :: (next + 1) :: next :: scope')
      simp only [Shape.Stores, List.forall_mem_cons] at storesArray storesIndex storesId outer ⊢
      exact ⟨storesId.1, storesIndex.1, storesArray.1, outer⟩
  | .switch scrutinee cases none, next, around, passed, plain, scope, scope', within, inside, hoisted,
      stores => by
    simp only [checkStmt, check_bind] at passed
    obtain ⟨_, passed⟩ := passed
    simp only [Stmt.preorder, Bool.false_eq_true, if_false, List.forall_mem_cons] at plain
    simp only [Stmt.isScoped, Bool.and_eq_true] at inside
    exact ⟨Expr.isScoped_mono within inside.1, ready_countedCases cases next around.switch passed
      plain.2 within inside.2 hoisted stores⟩
  | .switch scrutinee cases (some default), next, around, passed, plain, scope, scope', within, inside,
      hoisted, stores => by
    simp only [checkStmt, check_bind] at passed
    obtain ⟨_, passedCases, passedDefault⟩ := passed
    simp only [Stmt.preorder, Bool.false_eq_true, if_false, List.forall_mem_cons, List.mem_append,
      or_imp, forall_and] at plain
    simp only [Stmt.isScoped, Bool.and_eq_true] at inside
    simp only [Stmt.counted, hoistedStmt, suspends_countedAll, stores_append] at hoisted
    simp only [Stmt.suspensions] at stores
    refine ⟨Expr.isScoped_mono within inside.1.1, ?_, ?_⟩
    · exact ready_countedCases cases next around.switch passedCases plain.2.1 within inside.1.2
        hoisted.1 fun does => stores (by omega)
    · exact ready_countedAll default _ around.switch passedDefault plain.2.2 within inside.2 hoisted.2
        suspends_iff.mpr (of_suspends stores (by omega))
  | .tryFinally body cleanup, next, around, passed, plain, scope, scope', within, inside, hoisted,
      stores => by
    simp only [checkStmt, check_bind] at passed
    obtain ⟨passedBody, passedCleanup⟩ := passed
    simp only [Stmt.preorder, Bool.false_eq_true, if_false, List.forall_mem_cons, List.mem_append,
      or_imp, forall_and] at plain
    simp only [Stmt.isScoped, Bool.and_eq_true] at inside
    simp only [Stmt.counted, hoistedStmt, suspends_countedAll, stores_append] at hoisted
    simp only [Stmt.suspensions] at stores
    have calm := calm_block method cleanup .cleanup rfl passedCleanup
    refine ⟨?_, ?_, ?_, ?_⟩
    · exact ready_countedAll body next around passedBody plain.2.1 within inside.1 hoisted.1
        suspends_iff.mpr (of_suspends stores (by omega))
    · exact ready_countedAll cleanup _ .cleanup passedCleanup plain.2.2 within inside.2 hoisted.2
        suspends_iff.mpr fun does => (suspends_iff.mp does calm).elim
    · rw [suspensions_countedAll, calm]
    · rw [suspensions_countedAll]
      exact fun does => stores (by omega)
  | .breakOut, next, around, passed, plain, scope, scope', within, inside, hoisted, stores => trivial
  | .continueLoop, next, around, passed, plain, scope, scope', within, inside, hoisted, stores => trivial
  | .yield value, next, around, passed, plain, scope, scope', within, inside, hoisted, stores =>
    ⟨Expr.isScoped_mono within inside, stores (by simp [Stmt.suspensions])⟩
  | .stop, next, around, passed, plain, scope, scope', within, inside, hoisted, stores => trivial

theorem ready_countedAll : (body : List Stmt) → (next : LocalId) → (around : Surroundings) →
    checkBlock method around body = .ok () →
    (∀ t ∈ Stmt.preorderAll (fun _ => false) body, t.hasPlainHeader) →
    {scope scope' : List LocalId} → scope ⊆ scope' → Stmt.isScopedAll scope body →
    {suspends : Bool} → shape.Stores (hoistedScope policy suspends (Stmt.countedAll next body)) →
    (Stmt.suspensionsAll body ≠ 0 → suspends = true) → (suspends = true → shape.Stores scope') →
    ReadyAll shape scope' (Stmt.countedAll next body)
  | [], next, around, passed, plain, scope, scope', within, inside, suspends, hoisted, does, stores =>
    trivial
  | s :: rest, next, around, passed, plain, scope, scope', within, inside, suspends, hoisted, does,
      stores => by
    simp only [checkBlock, check_bind] at passed
    obtain ⟨passedFirst, passed⟩ := passed
    simp only [Stmt.preorderAll, List.mem_append, or_imp, forall_and] at plain
    simp only [Stmt.isScopedAll, Bool.and_eq_true] at inside
    simp only [Stmt.countedAll, hoistedScope, stores_append, declared_counted] at hoisted
    simp only [Stmt.suspensionsAll] at does
    simp only [Stmt.countedAll, ReadyAll, declared_counted]
    refine ⟨ready_counted s next around passedFirst plain.1 within inside.1 hoisted.1.2
      fun suspends => stores (does (by omega)), ?_⟩
    refine ready_countedAll rest _ around passed plain.2 ?_ inside.2 hoisted.2
      (fun suspends => does (by omega)) ?_
    · exact List.append_subset.mpr ⟨List.subset_append_left _ _, List.Subset.trans within (List.subset_append_right _ _)⟩
    · rintro rfl
      rw [hoists_true, if_pos rfl] at hoisted
      exact stores_append.mpr ⟨hoisted.1.1, stores rfl⟩

theorem ready_countedCases : (cases : List (List Int64 × List Stmt)) → (next : LocalId) →
    (around : Surroundings) → checkCases method around cases = .ok () →
    (∀ t ∈ Stmt.preorderCases (fun _ => false) cases, t.hasPlainHeader) →
    {scope scope' : List LocalId} → scope ⊆ scope' → Stmt.isScopedCases scope cases →
    shape.Stores (hoistedCases policy (Stmt.countedCases next cases)) →
    (Stmt.suspensionsCases cases ≠ 0 → shape.Stores scope') →
    ReadyCases shape scope' (Stmt.countedCases next cases)
  | [], next, around, passed, plain, scope, scope', within, inside, hoisted, stores => trivial
  | (_, body) :: rest, next, around, passed, plain, scope, scope', within, inside, hoisted, stores => by
    simp only [checkCases, check_bind] at passed
    obtain ⟨passedFirst, passed⟩ := passed
    simp only [Stmt.preorderCases, List.mem_append, or_imp, forall_and] at plain
    simp only [Stmt.isScopedCases, Bool.and_eq_true] at inside
    simp only [Stmt.countedCases, hoistedCases, stores_append] at hoisted
    simp only [Stmt.suspensionsCases] at stores
    simp only [Stmt.countedCases, ReadyCases]
    rw [suspends_countedAll] at hoisted
    exact ⟨ready_countedAll body next around passedFirst plain.1 within inside.1 hoisted.1
        suspends_iff.mpr (of_suspends stores (by omega)),
      ready_countedCases rest _ around passed plain.2 within inside.2 hoisted.2
        fun does => stores (by omega)⟩
end

end

/-- The body of a method that is lowered can be resumed. -/
theorem ready_expanded {method expanded : Method} {shape : Shape} (policy : HoistPolicy)
    (passed : checkStructure method = .ok ()) (inside : method.WellScoped)
    (plain : method.PlainHeaders) (done : expandForeach method = .ok expanded)
    (hoisted : ∀ var ∈ (capture expanded policy).hoisted, (shape.slot? var).isSome) :
    ReadyAll shape [] expanded.body := by
  obtain ⟨locals, rfl, _⟩ := expandForeach_spec done
  refine ready_countedAll method shape policy method.body _ .body passed plain (List.Subset.refl _)
    inside ?_ suspends_iff.mpr fun _ => by simp [Shape.Stores]
  intro id member
  refine hoisted (.loc id) ?_
  simp only [capture, hoistedLocals, List.mem_append, List.mem_map, Var.loc.injEq, exists_eq_right,
    List.mem_eraseDups]
  exact .inr ((suspends_countedAll (nextLocal method.locals) method.body).symm ▸ member)

end Lowering
end Resumable
