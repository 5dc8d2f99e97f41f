import Resumable.Proofs.Inversion
import Resumable.Proofs.Reaching

/-!
What the emission of code hands out. Labels and the names of cleanup routines are drawn
from counters that only grow, so within one routine each label is placed once, and no two
cleanup routines share a name. Suspension points are numbered in the order they are found.
-/

namespace Resumable

namespace NameSupply

theorem toString_inj {m n : Nat} (same : toString m = toString n) : m = n := by
  have digits : Nat.toDigits 10 m = Nat.toDigits 10 n := by
    simpa [Nat.toString_eq_repr, Nat.repr] using congrArg String.toList same
  rw [← Nat.ofDigitChars_ten_toDigits (n := m), digits, Nat.ofDigitChars_ten_toDigits]

theorem nameAt_inj {base : String} {m n : Nat} (same : nameAt base m = nameAt base n) : m = n := by
  have chars := congrArg String.toList same
  by_cases first : m = 0 <;> by_cases second : n = 0
  · rw [first, second]
  · simp [nameAt, first, second, String.toList_append] at chars
  · simp [nameAt, first, second, String.toList_append] at chars
  · simp only [nameAt, first, second, if_false, String.toList_append, List.append_assoc,
      List.append_cancel_left_eq] at chars
    exact toString_inj (String.toList_inj.mp chars)

theorem requests_fresh (supply : NameSupply) (base : String) :
    (supply.fresh base).2.requests base = supply.requests base + 1 := by
  simp [fresh, requests]

end NameSupply

namespace Lowering
open Machine (Code Instr Label Point)
open NameSupply (cleanupBase nameAt)

/-- Cleanup routines whose names were drawn as the requests from `first` up to `last`. -/
structure NamedBetween (first last : Nat) (cleanups : List (String × FlatBody)) : Prop where
  once : (cleanups.map (·.1)).Nodup
  drawn : ∀ c ∈ cleanups, ∃ count, c.1 = nameAt cleanupBase count ∧ first ≤ count ∧ count < last

theorem NamedBetween.append {first middle last : Nat} {old new : List (String × FlatBody)}
    (earlier : NamedBetween first middle old) (later : NamedBetween middle last new)
    (order : first ≤ middle) (order' : middle ≤ last) : NamedBetween first last (old ++ new) where
  once := by
    rw [List.map_append, List.nodup_append]
    refine ⟨earlier.once, later.once, ?_⟩
    simp only [List.mem_map]
    rintro _ ⟨c, member, rfl⟩ _ ⟨c', member', rfl⟩ same
    obtain ⟨count, name, _, less⟩ := earlier.drawn c member
    obtain ⟨count', name', more, _⟩ := later.drawn c' member'
    have := NameSupply.nameAt_inj (name.symm.trans (same.trans name'))
    omega
  drawn c member := by
    rcases List.mem_append.mp member with member | member
    · obtain ⟨count, name, _, _⟩ := earlier.drawn c member
      exact ⟨count, name, by omega, by omega⟩
    · obtain ⟨count, name, _, _⟩ := later.drawn c member
      exact ⟨count, name, by omega, by omega⟩

/-- Each point has the state that belongs to its position. -/
def Numbered (points : List Point) : Prop :=
  ∀ k point, points[k]? = some point → point.state = State.suspendedAt k

/-- How many names of cleanup routines have been drawn. -/
def Progress.drawn (p : Progress) : Nat := p.names.requests cleanupBase

/-- What emission does to what has been handed out. -/
structure Progress.Leads (p p' : Progress) : Prop where
  labels : p.nextLabel ≤ p'.nextLabel
  points : p.points <+: p'.points
  numbered : Numbered p.points → Numbered p'.points
  drawn : p.drawn ≤ p'.drawn
  cleanups : ∃ new, p'.cleanups = p.cleanups ++ new ∧ NamedBetween p.drawn p'.drawn new

namespace Progress

theorem Leads.refl (p : Progress) : p.Leads p where
  labels := Nat.le_refl _
  points := List.prefix_refl _
  numbered := id
  drawn := Nat.le_refl _
  cleanups := ⟨[], by simp, .nil, by simp⟩

theorem Leads.trans {p q r : Progress} (first : p.Leads q) (second : q.Leads r) : p.Leads r where
  labels := Nat.le_trans first.labels second.labels
  points := first.points.trans second.points
  numbered := second.numbered ∘ first.numbered
  drawn := Nat.le_trans first.drawn second.drawn
  cleanups := by
    obtain ⟨old, grown, named⟩ := first.cleanups
    obtain ⟨new, grown', named'⟩ := second.cleanups
    exact ⟨old ++ new, by rw [grown', grown, List.append_assoc],
      named.append named' first.drawn second.drawn⟩

theorem leads_reserve (p : Progress) (count : Nat) :
    p.Leads { p with nextLabel := p.nextLabel + count } where
  labels := Nat.le_add_right _ _
  points := List.prefix_refl _
  numbered := id
  drawn := Nat.le_refl _
  cleanups := ⟨[], by simp, .nil, by simp⟩

theorem leads_point (p : Progress) (resume : Label) (cleanup : List String) :
    p.Leads { p with points := p.points ++ [⟨State.suspendedAt p.points.length, resume, cleanup⟩] } where
  labels := Nat.le_refl _
  points := List.prefix_append _ _
  numbered numbered k point found := by
    rw [List.getElem?_append] at found
    split at found
    · exact numbered k point found
    · next last =>
      have here : k - p.points.length < [_].length := (List.getElem?_eq_some_iff.mp found).1
      have position : k = p.points.length := by
        simp only [List.length_cons, List.length_nil] at here
        omega
      subst position
      simp only [Nat.sub_self, List.getElem?_cons_zero, Option.some.injEq] at found
      rw [← found]
  drawn := Nat.le_refl _
  cleanups := ⟨[], by simp, .nil, by simp⟩

/-- A name is drawn, its routine is emitted, and only then entered under the name. -/
theorem leads_cleanup {p q : Progress} (body : FlatBody)
    (emitted : Leads { p with names := (p.names.fresh cleanupBase).2 } q) :
    p.Leads { q with cleanups := q.cleanups ++ [((p.names.fresh cleanupBase).1, body)] } where
  labels := emitted.labels
  points := emitted.points
  numbered := emitted.numbered
  drawn := by
    have := emitted.drawn
    simp only [Progress.drawn, NameSupply.requests_fresh] at this ⊢
    omega
  cleanups := by
    obtain ⟨new, grown, named⟩ := emitted.cleanups
    have more := emitted.drawn
    simp only [Progress.drawn, NameSupply.requests_fresh] at more named grown
    have own : nameAt cleanupBase p.drawn = (p.names.fresh cleanupBase).1 := rfl
    refine ⟨new ++ [((p.names.fresh cleanupBase).1, body)], by simp [grown], ?_, ?_⟩
    · rw [List.map_append, List.nodup_append]
      refine ⟨named.once, by simp, ?_⟩
      simp only [List.mem_map, List.map_cons, List.map_nil, List.mem_singleton]
      rintro _ ⟨c, member, rfl⟩ _ rfl same
      obtain ⟨count, name, after, _⟩ := named.drawn c member
      have := NameSupply.nameAt_inj (name.symm.trans (same.trans own.symm))
      simp only [Progress.drawn] at this
      omega
    · intro c member
      simp only [Progress.drawn]
      rcases List.mem_append.mp member with member | member
      · obtain ⟨count, name, _, _⟩ := named.drawn c member
        exact ⟨count, name, by omega, by omega⟩
      · obtain rfl := List.mem_singleton.mp member
        exact ⟨_, rfl, Nat.le_refl _, by omega⟩

end Progress

/-- Code that was emitted between two moments: its labels were handed out in between. -/
structure Laid (p : Progress) (code : Code) (p' : Progress) : Prop where
  leads : p.Leads p'
  once : code.labels.Nodup
  within : ∀ l ∈ code.labels, p.nextLabel ≤ l ∧ l < p'.nextLabel

namespace Laid
variable {p q r : Progress} {code first second : Code}

theorem of_unlabelled (leads : p.Leads q) (none : code.labels = []) : Laid p code q where
  leads := leads
  once := by simp [none]
  within := by simp [none]

theorem append (earlier : Laid p first q) (later : Laid q second r) : Laid p (first ++ second) r where
  leads := earlier.leads.trans later.leads
  once := by
    rw [Machine.Code.labels_append, List.nodup_append]
    refine ⟨earlier.once, later.once, fun a member b member' => ?_⟩
    have := earlier.within a member
    have := later.within b member'
    grind
  within l member := by
    have := earlier.leads.labels
    have := later.leads.labels
    rw [Machine.Code.labels_append, List.mem_append] at member
    rcases member with member | member
    · have := earlier.within l member
      grind
    · have := later.within l member
      grind

end Laid

/-- Every way of taking the exit emits code with labels of its own. -/
def Exit.Tidy (exit : Exit) : Prop := ∀ p code p', exit.take p = .ok code p' → Laid p code p'

theorem Exit.tidy_to (target : Label) : (Exit.to target).Tidy := by
  intro p code p' taken
  simp only [Exit.to, Exit.take, pure_eq_ok] at taken
  obtain ⟨rfl, rfl⟩ := taken
  exact .of_unlabelled (.refl p) rfl

theorem Exit.tidy_after {cleanup : Emit Code} {exit : Exit} (tidy : exit.Tidy)
    (laid : ∀ p code p', cleanup p = .ok code p' → Laid p code p') : (exit.after cleanup).Tidy := by
  intro p code p' taken
  obtain ⟨first, q, rest, cleaned, left, rfl⟩ := Exit.take_after.mp taken
  exact (laid p first q cleaned).append (tidy q rest p' left)

namespace Exits

structure Tidy (exits : Exits) : Prop where
  onBreak : exits.onBreak.Tidy
  onContinue : exits.onContinue.Tidy
  onStop : exits.onStop.Tidy

theorem tidy_body (method : Method) (shape : Shape) : (Exits.body method shape).Tidy where
  onBreak := by simp [body, Exit.none, Exit.Tidy, Exit.take]
  onContinue := by simp [body, Exit.none, Exit.Tidy, Exit.take]
  onStop p code p' taken := by
    simp only [body, Exit.take, pure_eq_ok] at taken
    obtain ⟨rfl, rfl⟩ := taken
    exact .of_unlabelled (.refl p) rfl

theorem tidy_sealed (method : Method) (cleanups : List String) :
    (Exits.sealed method cleanups).Tidy where
  onBreak := by simp [Exits.sealed, Exit.none, Exit.Tidy, Exit.take]
  onContinue := by simp [Exits.sealed, Exit.none, Exit.Tidy, Exit.take]
  onStop := by simp [Exits.sealed, Exit.none, Exit.Tidy, Exit.take]

theorem Tidy.loop {exits : Exits} (tidy : exits.Tidy) (breakTo continueTo : Label) :
    (exits.loop breakTo continueTo).Tidy where
  onBreak := Exit.tidy_to breakTo
  onContinue := Exit.tidy_to continueTo
  onStop := tidy.onStop

theorem Tidy.switch {exits : Exits} (tidy : exits.Tidy) (breakTo : Label) :
    (exits.switch breakTo).Tidy where
  onBreak := Exit.tidy_to breakTo
  onContinue := tidy.onContinue
  onStop := tidy.onStop

theorem Tidy.guarded {exits : Exits} (tidy : exits.Tidy) {cleanup : Emit Code}
    (laid : ∀ p code p', cleanup p = .ok code p' → Laid p code p') :
    (exits.guarded cleanup).Tidy where
  onBreak := Exit.tidy_after tidy.onBreak laid
  onContinue := Exit.tidy_after tidy.onContinue laid
  onStop := Exit.tidy_after tidy.onStop laid

theorem Tidy.enter {exits : Exits} (tidy : exits.Tidy) (cleanups : List String) :
    Tidy { exits with cleanups := cleanups } where
  onBreak := tidy.onBreak
  onContinue := tidy.onContinue
  onStop := tidy.onStop

end Exits

theorem labels_effect {shape : Shape} {e : Expr} {instr : Instr} (lowered : shape.effect e = .ok instr)
    (rest : Code) : Machine.Code.labels (instr :: rest) = rest.labels := by
  rcases effect_cases lowered with ⟨_, _, _, _, _, _, _, rfl⟩ | ⟨_, _, rfl⟩ <;> rfl

theorem labels_effects {shape : Shape} {es : List Expr} {code : Code}
    (lowered : shape.effects es = .ok code) : code.labels = [] := by
  induction es generalizing code with
  | nil =>
    obtain rfl := Except.ok.inj lowered
    rfl
  | cons e rest ih =>
    simp only [Shape.effects, except_bind_eq_ok, except_pure_eq_ok] at lowered
    obtain ⟨instr, here, others, later, rfl⟩ := lowered
    rw [labels_effect here, ih later]

theorem labels_conditions (terms : List Machine.Term) (target : Label) :
    Machine.Code.labels (terms.map (.gotoUnless · target)) = [] := by
  induction terms with
  | nil => rfl
  | cons t rest ih => exact ih

mutual
theorem laid_stmt (method : Method) (shape : Shape) : (s : Stmt) → {exits : Exits} → exits.Tidy →
    {p p' : Progress} → {code : Code} → emitStmt method shape exits s p = .ok code p' →
    Laid p code p'
  | .block body, exits, tidy, p, p', code, emitted => by
    rw [emitStmt] at emitted
    exact laid_block method shape body tidy emitted
  | .declare id none, exits, tidy, p, p', code, emitted => by
    obtain ⟨_, _, _, _, rfl, rfl⟩ := emitStmt_declare_none_eq_ok.mp emitted
    exact .of_unlabelled (.refl p) rfl
  | .declare id (some init), exits, tidy, p, p', code, emitted => by
    obtain ⟨_, _, _, _, rfl, rfl⟩ := emitStmt_declare_some_eq_ok.mp emitted
    exact .of_unlabelled (.refl p) rfl
  | .eval value, exits, tidy, p, p', code, emitted => by
    obtain ⟨instr, lowered, rfl, rfl⟩ := emitStmt_eval_eq_ok.mp emitted
    exact .of_unlabelled (.refl p) (labels_effect lowered [])
  | .ite cond yes none, exits, tidy, p, p', code, emitted => by
    obtain ⟨_, yesCode, _, emittedYes, rfl⟩ := emitStmt_ite_none_eq_ok.mp emitted
    obtain ⟨leads, once, within⟩ := laid_block method shape yes tidy emittedYes
    have grown := leads.labels
    refine ⟨(p.leads_reserve 2).trans leads, ?_, ?_⟩ <;>
      simp only [Machine.Code.labels, Machine.Code.labels_append, List.nodup_append] <;> grind
  | .ite cond yes (some no), exits, tidy, p, p', code, emitted => by
    obtain ⟨_, yesCode, _, noCode, _, emittedYes, emittedNo, rfl⟩ := emitStmt_ite_some_eq_ok.mp emitted
    obtain ⟨leads, once, within⟩ := laid_block method shape yes tidy emittedYes
    obtain ⟨leads', once', within'⟩ := laid_block method shape no tidy emittedNo
    have grown := leads.labels
    have grown' := leads'.labels
    refine ⟨((p.leads_reserve 2).trans leads).trans leads', ?_, ?_⟩ <;>
      simp only [Machine.Code.labels, Machine.Code.labels_append, List.nodup_append] <;> grind
  | .whileLoop cond body, exits, tidy, p, p', code, emitted => by
    obtain ⟨_, bodyCode, _, emittedBody, rfl⟩ := emitStmt_whileLoop_eq_ok.mp emitted
    obtain ⟨leads, once, within⟩ := laid_block method shape body (tidy.loop _ _) emittedBody
    have grown := leads.labels
    refine ⟨(p.leads_reserve 2).trans leads, ?_, ?_⟩ <;>
      simp only [Machine.Code.labels, Machine.Code.labels_append] <;> grind
  | .forLoop init cond step body, exits, tidy, p, p', code, emitted => by
    obtain ⟨initCode, q, _, bodyCode, stepCode, emittedInit, _, emittedBody, lowered, rfl⟩ :=
      emitStmt_forLoop_eq_ok.mp emitted
    obtain ⟨leads, once, within⟩ := laid_block method shape init tidy emittedInit
    obtain ⟨leads', once', within'⟩ := laid_block method shape body (tidy.loop _ _) emittedBody
    have grown := leads.labels
    have grown' := leads'.labels
    refine ⟨(leads.trans (q.leads_reserve 3)).trans leads', ?_, ?_⟩ <;>
      simp only [Machine.Code.labels, Machine.Code.labels_append, labels_effects lowered,
        labels_conditions, List.nodup_append] <;> grind
  | .foreach _ _ _, exits, tidy, p, p', code, emitted => by
    exact absurd emitted emitStmt_foreach_ne_ok
  | .switch scrutinee cases none, exits, tidy, p, p', code, emitted => by
    obtain ⟨_, arms, _, emittedArms, rfl⟩ := emitStmt_switch_none_eq_ok.mp emitted
    obtain ⟨leads, once, within⟩ :=
      laid_cases method shape cases (tidy.switch _) (Nat.le_refl _) emittedArms
    have grown := leads.labels
    refine ⟨((p.leads_reserve 1).trans (Progress.leads_reserve _ _)).trans leads, ?_, ?_⟩ <;>
      simp only [Machine.Code.labels, Machine.Code.labels_append, List.nodup_append] <;> grind
  | .switch scrutinee cases (some default), exits, tidy, p, p', code, emitted => by
    obtain ⟨_, arms, _, defaultCode, _, emittedArms, emittedDefault, rfl⟩ :=
      emitStmt_switch_some_eq_ok.mp emitted
    obtain ⟨leads, once, within⟩ :=
      laid_cases method shape cases (tidy.switch _) (Nat.le_succ _) emittedArms
    obtain ⟨leads', once', within'⟩ := laid_block method shape default (tidy.switch _) emittedDefault
    have grown := leads.labels
    have grown' := leads'.labels
    refine ⟨(((p.leads_reserve 1).trans (Progress.leads_reserve _ _)).trans
      (Progress.leads_reserve _ 1)).trans (leads.trans leads'), ?_, ?_⟩ <;>
      simp only [Machine.Code.labels, Machine.Code.labels_append, List.nodup_append] <;> grind
  | .tryFinally body cleanup, exits, tidy, p, p', code, emitted => by
    by_cases suspends : Block.suspends body
    · obtain ⟨_, cleanupCode, _, routine, bodyCode, rfl, emittedCleanup, _, emittedBody, rfl⟩ :=
        (emitStmt_tryFinally_eq_ok_of_suspends suspends).mp emitted
      have drawn := Progress.leads_cleanup routine
        (laid_block method shape cleanup (Exits.tidy_sealed method []) emittedCleanup).leads
      have calls : ∀ name p code p', (pure [callCleanup name] : Emit Code) p = .ok code p' →
          Laid p code p' := by
        intro name p code p' emitted
        obtain ⟨rfl, rfl⟩ := pure_eq_ok.mp emitted
        exact .of_unlabelled (.refl p) rfl
      have guarded := tidy.guarded (calls (p.names.fresh cleanupBase).1)
      have laid := laid_block method shape body (guarded.enter _) emittedBody
      have nothing : Laid p [] _ := .of_unlabelled drawn rfl
      exact nothing.append (laid.append (.of_unlabelled (.refl _) rfl))
    · obtain ⟨bodyCode, _, last, emittedBody, emittedLast, rfl⟩ :=
        (emitStmt_tryFinally_eq_ok_of_not_suspends suspends).mp emitted
      have repeated : ∀ p code p',
          emitBlock method shape (Exits.sealed method exits.cleanups) cleanup p = .ok code p' →
          Laid p code p' := fun _ _ _ emitted =>
        laid_block method shape cleanup (Exits.tidy_sealed method _) emitted
      exact (laid_block method shape body (tidy.guarded repeated) emittedBody).append
        (repeated _ _ _ emittedLast)
  | .breakOut, exits, tidy, p, p', code, emitted => by
    rw [emitStmt] at emitted
    exact tidy.onBreak p code p' emitted
  | .continueLoop, exits, tidy, p, p', code, emitted => by
    rw [emitStmt] at emitted
    exact tidy.onContinue p code p' emitted
  | .yield value, exits, tidy, p, p', code, emitted => by
    obtain ⟨_, _, rfl, rfl⟩ := emitStmt_yield_eq_ok.mp emitted
    refine ⟨(p.leads_reserve 1).trans (Progress.leads_point _ _ _), ?_, ?_⟩ <;>
      simp [Machine.Code.labels, Machine.Instr.setField, Shape.setState]
  | .stop, exits, tidy, p, p', code, emitted => by
    rw [emitStmt] at emitted
    exact tidy.onStop p code p' emitted

theorem laid_block (method : Method) (shape : Shape) : (body : List Stmt) → {exits : Exits} →
    exits.Tidy → {p p' : Progress} → {code : Code} →
    emitBlock method shape exits body p = .ok code p' → Laid p code p'
  | [], exits, tidy, p, p', code, emitted => by
    simp only [emitBlock, pure_eq_ok] at emitted
    obtain ⟨rfl, rfl⟩ := emitted
    exact .of_unlabelled (.refl p) rfl
  | s :: rest, exits, tidy, p, p', code, emitted => by
    obtain ⟨first, q, others, emittedFirst, emittedRest, rfl⟩ := emitBlock_cons_eq_ok.mp emitted
    exact (laid_stmt method shape s tidy emittedFirst).append
      (laid_block method shape rest tidy emittedRest)

/-- The labels of the cases were reserved before their bodies were emitted. -/
theorem laid_cases (method : Method) (shape : Shape) : (cases : List (List Int64 × List Stmt)) →
    {exits : Exits} → exits.Tidy → {breakTo label : Label} → {p p' : Progress} → {code : Code} →
    label + cases.length ≤ p.nextLabel →
    emitCases method shape exits breakTo label cases p = .ok code p' →
    p.Leads p' ∧ code.labels.Nodup ∧ ∀ l ∈ code.labels,
      (label ≤ l ∧ l < label + cases.length) ∨ (p.nextLabel ≤ l ∧ l < p'.nextLabel)
  | [], exits, tidy, breakTo, label, p, p', code, reserved, emitted => by
    simp only [emitCases, pure_eq_ok] at emitted
    obtain ⟨rfl, rfl⟩ := emitted
    exact ⟨.refl p, by simp, by simp⟩
  | (values, body) :: rest, exits, tidy, breakTo, label, p, p', code, reserved, emitted => by
    obtain ⟨bodyCode, q, others, emittedBody, emittedRest, rfl⟩ := emitCases_cons_eq_ok.mp emitted
    obtain ⟨leads, once, within⟩ := laid_block method shape body tidy emittedBody
    have grown := leads.labels
    simp only [List.length_cons] at reserved
    obtain ⟨leads', once', within'⟩ := laid_cases method shape rest tidy (by grind) emittedRest
    have grown' := leads'.labels
    refine ⟨leads.trans leads', ?_, ?_⟩ <;>
      simp only [Machine.Code.labels, Machine.Code.labels_append, List.nodup_append,
        List.nodup_cons, List.length_cons] <;> grind
end

theorem flatBody_code {method : Method} {code : Code} {body : FlatBody}
    (built : flatBody method code = .ok body) : body.code = code := by
  simp only [flatBody, except_bind_eq_ok, except_pure_eq_ok] at built
  obtain ⟨_, _, rfl⟩ := built
  rfl

/-- Code of the resumable body around what was emitted for the statements. -/
def resumable (shape : Shape) (points : List Point) (code : Code) : Code :=
  entry shape points ++ .label startLabel :: shape.setState State.running :: (code ++ shape.finish)

theorem buildDispatch_spec {method : Method} {shape : Shape} {names names' : NameSupply}
    {dispatch : Dispatch} (built : buildDispatch method shape names = .ok dispatch names') :
    ∃ code p', emitBlock method shape (.body method shape) method.body ⟨2, [], [], names⟩ =
        .ok code p' ∧ dispatch.points = p'.points ∧ dispatch.cleanups = p'.cleanups ∧
      flatBody method (resumable shape p'.points code) = .ok dispatch.moveNext := by
  unfold buildDispatch at built
  split at built
  · next dispatch' p' emitted =>
    obtain ⟨rfl, _⟩ := EStateM.Result.ok.inj built
    simp only [emitDispatch, bind_eq_ok, checked_eq_ok, pure_eq_ok] at emitted
    obtain ⟨code, q, emittedBody, progress, _, got, flat, _, ⟨flattened, rfl⟩, rfl, rfl⟩ := emitted
    obtain ⟨rfl, rfl⟩ := EStateM.Result.ok.inj got
    exact ⟨code, _, emittedBody, rfl, rfl, flattened⟩
  · simp at built

theorem nodup_resumable {shape : Shape} {code : Code} {p p' : Progress} (laid : Laid p code p')
    (after : 2 ≤ p.nextLabel) (points : List Point) : (resumable shape points code).labels.Nodup := by
  obtain ⟨_, once, within⟩ := laid
  have fail : Machine.Code.labels (entry shape points) = [failLabel] := rfl
  simp only [resumable, Machine.Code.labels_append, fail, Machine.Code.labels, Shape.setState,
    Machine.Instr.setField, Shape.finish, startLabel, failLabel]
  grind

end Lowering
end Resumable
