import Mathlib.Data.List.Forall2
import Resumable.Proofs.Counting

/-!
Where a body suspends. The suspension points and the regions whose cleanup a suspended consumer may
have to run are listed in pre-order. Each point knows which of the regions it stands in. Replacing
foreach loops by counting loops moves none of this.
-/

namespace Resumable

/-- A suspension point: what it produces, and the numbers of the regions around it, innermost first. -/
structure Site where
  value : Expr
  around : List Nat

/-- A part of a body that suspends and that a cleanup block follows. -/
structure Region where
  body : Block
  cleanup : Block

namespace Stmt

def region? : Stmt → Option Region
  | .tryFinally body cleanup => if Block.suspends body then some ⟨body, cleanup⟩ else none
  | _ => none

def produced? : Stmt → Option Expr
  | .yield value => some value
  | _ => none

def regions (s : Stmt) : List Region := (s.preorder fun _ => false).filterMap region?

def regionsAll (body : List Stmt) : List Region := (preorderAll (fun _ => false) body).filterMap region?

def regionsCases (cases : List (List Int64 × List Stmt)) : List Region :=
  (preorderCases (fun _ => false) cases).filterMap region?

mutual
/-- The suspension points, where `count` regions come before and those numbered `around` surround. -/
def sites (count : Nat) (around : List Nat) : Stmt → List Site
  | .block body => sitesAll count around body
  | .ite _ yes none => sitesAll count around yes
  | .ite _ yes (some no) =>
    sitesAll count around yes ++ sitesAll (count + (regionsAll yes).length) around no
  | .whileLoop _ body => sitesAll count around body
  | .forLoop init _ _ body =>
    sitesAll count around init ++ sitesAll (count + (regionsAll init).length) around body
  | .foreach _ _ body => sitesAll count around body
  | .switch _ cases none => sitesCases count around cases
  | .switch _ cases (some default) =>
    sitesCases count around cases ++ sitesAll (count + (regionsCases cases).length) around default
  | .tryFinally body cleanup =>
    if Block.suspends body then
      sitesAll (count + 1) (count :: around) body ++
        sitesAll (count + 1 + (regionsAll body).length) around cleanup
    else sitesAll count around body ++ sitesAll (count + (regionsAll body).length) around cleanup
  | .yield value => [⟨value, around⟩]
  | .declare _ _ | .eval _ | .breakOut | .continueLoop | .stop => []

def sitesAll (count : Nat) (around : List Nat) : List Stmt → List Site
  | [] => []
  | s :: rest => sites count around s ++ sitesAll (count + (regions s).length) around rest

def sitesCases (count : Nat) (around : List Nat) : List (List Int64 × List Stmt) → List Site
  | [] => []
  | (_, body) :: rest =>
    sitesAll count around body ++ sitesCases (count + (regionsAll body).length) around rest
end

end Stmt

namespace Block

/-- The regions of a body, in pre-order. -/
def regions (body : Block) : List Region := Stmt.regionsAll body

/-- The expressions that a body produces, in pre-order. -/
def yields (body : Block) : List Expr := (preorder body).filterMap Stmt.produced?

def sites (body : Block) : List Site := Stmt.sitesAll 0 [] body

end Block

namespace Stmt

@[simp] theorem regionsAll_nil : regionsAll [] = [] := rfl

@[simp] theorem regionsAll_cons (s : Stmt) (rest : List Stmt) :
    regionsAll (s :: rest) = s.regions ++ regionsAll rest :=
  List.filterMap_append

@[simp] theorem regionsCases_nil : regionsCases [] = [] := rfl

@[simp] theorem regionsCases_cons (values : List Int64) (body : List Stmt)
    (rest : List (List Int64 × List Stmt)) :
    regionsCases ((values, body) :: rest) = regionsAll body ++ regionsCases rest :=
  List.filterMap_append

section
variable (cond : Expr) (body init yes no cleanup : List Stmt) (cases : List (List Int64 × List Stmt))

@[simp] theorem regions_declare (id : LocalId) (init : Option Expr) : (declare id init).regions = [] :=
  rfl

@[simp] theorem regions_block : (block body).regions = regionsAll body := rfl

@[simp] theorem regions_ite_none : (ite cond yes none).regions = regionsAll yes := rfl

@[simp] theorem regions_ite_some : (ite cond yes (some no)).regions = regionsAll yes ++ regionsAll no :=
  List.filterMap_append

@[simp] theorem regions_whileLoop : (whileLoop cond body).regions = regionsAll body := rfl

@[simp] theorem regions_forLoop (cond : Option Expr) (step : List Expr) :
    (forLoop init cond step body).regions = regionsAll init ++ regionsAll body :=
  List.filterMap_append

@[simp] theorem regions_foreach (id : LocalId) : (foreach id cond body).regions = regionsAll body := rfl

@[simp] theorem regions_switch_none : (switch cond cases none).regions = regionsCases cases := rfl

@[simp] theorem regions_switch_some :
    (switch cond cases (some body)).regions = regionsCases cases ++ regionsAll body :=
  List.filterMap_append

theorem regions_tryFinally : (tryFinally body cleanup).regions =
    (if Block.suspends body then [⟨body, cleanup⟩] else []) ++ regionsAll body ++ regionsAll cleanup := by
  by_cases does : Block.suspends body <;>
    simp [regions, preorder, region?, regionsAll, does]

end

mutual
theorem values_sites : (s : Stmt) → (count : Nat) → (around : List Nat) →
    (s.sites count around).map (·.value) = (s.preorder fun _ => false).filterMap produced?
  | .block body, count, around => values_sitesAll body count around
  | .ite _ yes none, count, around => values_sitesAll yes count around
  | .ite _ yes (some no), count, around => by
    simp only [sites, List.map_append, values_sitesAll]
    exact List.filterMap_append.symm
  | .whileLoop _ body, count, around => values_sitesAll body count around
  | .forLoop init _ _ body, count, around => by
    simp only [sites, List.map_append, values_sitesAll]
    exact List.filterMap_append.symm
  | .foreach _ _ body, count, around => values_sitesAll body count around
  | .switch _ cases none, count, around => values_sitesCases cases count around
  | .switch _ cases (some default), count, around => by
    simp only [sites, List.map_append, values_sitesAll, values_sitesCases]
    exact List.filterMap_append.symm
  | .tryFinally body cleanup, count, around => by
    rw [sites]
    split <;> simp only [List.map_append, values_sitesAll] <;> exact List.filterMap_append.symm
  | .yield _, _, _ => rfl
  | .declare _ _, _, _ | .eval _, _, _ | .breakOut, _, _ | .continueLoop, _, _ | .stop, _, _ => rfl

theorem values_sitesAll : (body : List Stmt) → (count : Nat) → (around : List Nat) →
    (sitesAll count around body).map (·.value) =
      (preorderAll (fun _ => false) body).filterMap produced?
  | [], _, _ => rfl
  | s :: rest, count, around => by
    simp only [sitesAll, List.map_append, values_sites s, values_sitesAll rest]
    exact List.filterMap_append.symm

theorem values_sitesCases : (cases : List (List Int64 × List Stmt)) → (count : Nat) →
    (around : List Nat) → (sitesCases count around cases).map (·.value) =
      (preorderCases (fun _ => false) cases).filterMap produced?
  | [], _, _ => rfl
  | (_, body) :: rest, count, around => by
    simp only [sitesCases, List.map_append, values_sitesAll body, values_sitesCases rest]
    exact List.filterMap_append.symm
end

mutual
theorem length_sites : (s : Stmt) → (count : Nat) → (around : List Nat) →
    (s.sites count around).length = s.suspensions
  | .block body, count, around => length_sitesAll body count around
  | .ite _ yes none, count, around => length_sitesAll yes count around
  | .ite _ yes (some no), count, around => by
    simp only [sites, suspensions, List.length_append, length_sitesAll]
  | .whileLoop _ body, count, around => length_sitesAll body count around
  | .forLoop init _ _ body, count, around => by
    simp only [sites, suspensions, List.length_append, length_sitesAll]
  | .foreach _ _ body, count, around => length_sitesAll body count around
  | .switch _ cases none, count, around => length_sitesCases cases count around
  | .switch _ cases (some default), count, around => by
    simp only [sites, suspensions, List.length_append, length_sitesAll, length_sitesCases]
  | .tryFinally body cleanup, count, around => by
    rw [sites]
    split <;> simp only [suspensions, List.length_append, length_sitesAll]
  | .yield _, _, _ => rfl
  | .declare _ _, _, _ | .eval _, _, _ | .breakOut, _, _ | .continueLoop, _, _ | .stop, _, _ => rfl

theorem length_sitesAll : (body : List Stmt) → (count : Nat) → (around : List Nat) →
    (sitesAll count around body).length = suspensionsAll body
  | [], _, _ => rfl
  | s :: rest, count, around => by
    simp only [sitesAll, suspensionsAll, List.length_append, length_sites s, length_sitesAll rest]

theorem length_sitesCases : (cases : List (List Int64 × List Stmt)) → (count : Nat) →
    (around : List Nat) → (sitesCases count around cases).length = suspensionsCases cases
  | [], _, _ => rfl
  | (_, body) :: rest, count, around => by
    simp only [sitesCases, suspensionsCases, List.length_append, length_sitesAll body,
      length_sitesCases rest]
end

mutual
/-- Regions suspend, so there are none where nothing does. -/
theorem regions_eq_nil : (s : Stmt) → s.suspensions = 0 → s.regions = []
  | .block body, calm => regionsAll_eq_nil body calm
  | .ite _ yes none, calm => regionsAll_eq_nil yes calm
  | .ite _ yes (some no), calm => by
    simp only [suspensions, Nat.add_eq_zero_iff] at calm
    simp only [regions_ite_some, regionsAll_eq_nil yes calm.1, regionsAll_eq_nil no calm.2, List.nil_append]
  | .whileLoop _ body, calm => regionsAll_eq_nil body calm
  | .forLoop init _ _ body, calm => by
    simp only [suspensions, Nat.add_eq_zero_iff] at calm
    simp only [regions_forLoop, regionsAll_eq_nil init calm.1, regionsAll_eq_nil body calm.2,
      List.nil_append]
  | .foreach _ _ body, calm => regionsAll_eq_nil body calm
  | .switch _ cases none, calm => regionsCases_eq_nil cases calm
  | .switch _ cases (some default), calm => by
    simp only [suspensions, Nat.add_eq_zero_iff] at calm
    simp only [regions_switch_some, regionsCases_eq_nil cases calm.1,
      regionsAll_eq_nil default calm.2, List.nil_append]
  | .tryFinally body cleanup, calm => by
    simp only [suspensions, Nat.add_eq_zero_iff] at calm
    have quiet : ¬Block.suspends body := fun does => Lowering.suspends_iff.mp does calm.1
    simp only [regions_tryFinally, if_neg quiet, regionsAll_eq_nil body calm.1,
      regionsAll_eq_nil cleanup calm.2, List.nil_append]
  | .yield _, calm => rfl
  | .declare _ _, _ | .eval _, _ | .breakOut, _ | .continueLoop, _ | .stop, _ => rfl

theorem regionsAll_eq_nil : (body : List Stmt) → suspensionsAll body = 0 → regionsAll body = []
  | [], _ => rfl
  | s :: rest, calm => by
    simp only [suspensionsAll, Nat.add_eq_zero_iff] at calm
    simp only [regionsAll_cons, regions_eq_nil s calm.1, regionsAll_eq_nil rest calm.2, List.nil_append]

theorem regionsCases_eq_nil : (cases : List (List Int64 × List Stmt)) → suspensionsCases cases = 0 →
    regionsCases cases = []
  | [], _ => rfl
  | (_, body) :: rest, calm => by
    simp only [suspensionsCases, Nat.add_eq_zero_iff] at calm
    simp only [regionsCases_cons, regionsAll_eq_nil body calm.1, regionsCases_eq_nil rest calm.2,
      List.nil_append]
end

theorem sitesAll_eq_nil {body : List Stmt} (calm : suspensionsAll body = 0) (count : Nat)
    (around : List Nat) : sitesAll count around body = [] :=
  List.eq_nil_of_length_eq_zero ((length_sitesAll body count around).trans calm)

end Stmt

/-- The second region is the first one with counting loops in its cleanup block. -/
def Region.Counted (region counted : Region) : Prop :=
  ∃ next, counted.cleanup = Stmt.countedAll next region.cleanup

namespace Stmt

mutual
theorem regions_counted : (s : Stmt) → (next : LocalId) →
    List.Forall₂ Region.Counted s.regions (s.counted next).regions
  | .block body, next => regionsAll_counted body next
  | .ite _ yes none, next => regionsAll_counted yes next
  | .ite _ yes (some no), next => by
    simp only [counted, regions_ite_some]
    exact List.rel_append (regionsAll_counted yes _) (regionsAll_counted no _)
  | .whileLoop _ body, next => regionsAll_counted body next
  | .forLoop init _ _ body, next => by
    simp only [counted, regions_forLoop]
    exact List.rel_append (regionsAll_counted init _) (regionsAll_counted body _)
  | .foreach _ _ body, next => by
    have inner := regionsAll_counted body (next + 2)
    simpa [counted, Lowering.countingLoop] using inner
  | .switch _ cases none, next => regionsCases_counted cases next
  | .switch _ cases (some default), next => by
    simp only [counted, regions_switch_some]
    exact List.rel_append (regionsCases_counted cases _) (regionsAll_counted default _)
  | .tryFinally body cleanup, next => by
    simp only [counted, regions_tryFinally, Lowering.suspends_countedAll]
    refine List.rel_append (List.rel_append ?_ (regionsAll_counted body _)) (regionsAll_counted cleanup _)
    split
    · exact .cons ⟨_, rfl⟩ .nil
    · exact .nil
  | .yield _, _ => .nil
  | .declare _ _, _ | .eval _, _ | .breakOut, _ | .continueLoop, _ | .stop, _ => .nil

theorem regionsAll_counted : (body : List Stmt) → (next : LocalId) →
    List.Forall₂ Region.Counted (regionsAll body) (regionsAll (countedAll next body))
  | [], _ => .nil
  | s :: rest, next => by
    simp only [countedAll, regionsAll_cons]
    exact List.rel_append (regions_counted s _) (regionsAll_counted rest _)

theorem regionsCases_counted : (cases : List (List Int64 × List Stmt)) → (next : LocalId) →
    List.Forall₂ Region.Counted (regionsCases cases) (regionsCases (countedCases next cases))
  | [], _ => .nil
  | (_, body) :: rest, next => by
    simp only [countedCases, regionsCases_cons]
    exact List.rel_append (regionsAll_counted body _) (regionsCases_counted rest _)
end

mutual
theorem sites_counted : (s : Stmt) → (next : LocalId) → (count : Nat) → (around : List Nat) →
    (s.counted next).sites count around = s.sites count around
  | .block body, next, count, around => sitesAll_counted body next count around
  | .ite _ yes none, next, count, around => sitesAll_counted yes next count around
  | .ite _ yes (some no), next, count, around => by
    simp only [counted, sites, sitesAll_counted, (regionsAll_counted yes next).length_eq]
  | .whileLoop _ body, next, count, around => sitesAll_counted body next count around
  | .forLoop init _ _ body, next, count, around => by
    simp only [counted, sites, sitesAll_counted, (regionsAll_counted init next).length_eq]
  | .foreach _ _ body, next, count, around => by
    simp [counted, Lowering.countingLoop, sites, sitesAll, sitesAll_counted]
  | .switch _ cases none, next, count, around => sitesCases_counted cases next count around
  | .switch _ cases (some default), next, count, around => by
    simp only [counted, sites, sitesAll_counted, sitesCases_counted,
      (regionsCases_counted cases next).length_eq]
  | .tryFinally body cleanup, next, count, around => by
    simp only [counted, sites, sitesAll_counted, Lowering.suspends_countedAll,
      (regionsAll_counted body next).length_eq]
  | .yield _, _, _, _ => rfl
  | .declare _ _, _, _, _ | .eval _, _, _, _ | .breakOut, _, _, _ | .continueLoop, _, _, _
  | .stop, _, _, _ => rfl

theorem sitesAll_counted : (body : List Stmt) → (next : LocalId) → (count : Nat) →
    (around : List Nat) → sitesAll count around (countedAll next body) = sitesAll count around body
  | [], _, _, _ => rfl
  | s :: rest, next, count, around => by
    simp only [countedAll, sitesAll, sites_counted s, sitesAll_counted rest,
      (regions_counted s next).length_eq]

theorem sitesCases_counted : (cases : List (List Int64 × List Stmt)) → (next : LocalId) →
    (count : Nat) → (around : List Nat) →
    sitesCases count around (countedCases next cases) = sitesCases count around cases
  | [], _, _, _ => rfl
  | (_, body) :: rest, next, count, around => by
    simp only [countedCases, sitesCases, sitesAll_counted body, sitesCases_counted rest,
      (regionsAll_counted body next).length_eq]
end

end Stmt
end Resumable
