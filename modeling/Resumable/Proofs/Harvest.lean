import Mathlib.Data.List.Forall2
import Resumable.Proofs.Twins

/-!
What two emissions hand out side by side: labels, suspension points and cleanup routines,
with the code that refers to them. An emission is put together from parts, and a part may
refer to labels that only another part places.
-/

namespace Resumable.Lowering
open Machine (Code Instr Label Point Term)

/-- What two emissions have handed out, side by side. -/
structure Harvest where
  marks : List Mark
  points : List (Point × Point)
  cleanups : List ((String × FlatBody) × (String × FlatBody))

namespace Harvest

def empty : Harvest := ⟨[], [], []⟩

instance : Append Harvest :=
  ⟨fun a b => ⟨a.marks ++ b.marks, a.points ++ b.points, a.cleanups ++ b.cleanups⟩⟩

@[simp] theorem marks_append (a b : Harvest) : (a ++ b).marks = a.marks ++ b.marks := rfl

@[simp] theorem points_append (a b : Harvest) : (a ++ b).points = a.points ++ b.points := rfl

@[simp] theorem cleanups_append (a b : Harvest) : (a ++ b).cleanups = a.cleanups ++ b.cleanups := rfl

end Harvest

/-- All that was handed out is known. -/
structure Landmarks.Cover (marks : Landmarks) (harvest : Harvest) : Prop where
  placed : ∀ mark ∈ harvest.marks, marks.placed mark
  paused : ∀ point ∈ harvest.points, marks.paused point.1.state point.1.resume
  called : ∀ cleanup ∈ harvest.cleanups, marks.called cleanup.1.1 cleanup.2.1

theorem Landmarks.Cover.of_append {marks : Landmarks} {a b : Harvest} (cover : marks.Cover (a ++ b)) :
    marks.Cover a ∧ marks.Cover b := by
  obtain ⟨placed, paused, called⟩ := cover
  simp only [Harvest.marks_append, Harvest.points_append, Harvest.cleanups_append,
    List.forall_mem_append] at placed paused called
  exact ⟨⟨placed.1, paused.1, called.1⟩, ⟨placed.2, paused.2, called.2⟩⟩

/-- The landmarks of a listing that neither suspends nor calls a cleanup routine. -/
def Landmarks.alone (marks : List Mark) : Landmarks :=
  ⟨(· ∈ marks), fun _ _ => False, fun _ _ => False, False⟩

/-- Two cleanup routines that go together from locals which are kept, and refer to nothing outside. -/
structure Pairing.Routines (pair : Pairing) (routine routine' : FlatBody) : Prop where
  flat : flatBody pair.method routine.code = .ok routine
  flat' : flatBody pair.method routine'.code = .ok routine'
  once : routine.code.labels.Nodup
  ends : ∃ front, routine.code = front ++ [.ret none]
  twin : ∃ marks scope after, marks.map Mark.label = routine.code.labels ∧
    (∀ mark ∈ marks, mark.resumes = false) ∧ (∀ id ∈ scope, pair.keeps id) ∧
    Twin pair (.alone marks) scope routine.code routine'.code after

/-- The same labels and as many suspension points have been handed out. -/
structure Progress.Abreast (p p' : Progress) : Prop where
  label : p.nextLabel = p'.nextLabel
  points : p.points.length = p'.points.length

/-- Two emissions that went together. What they refer to beyond their own harvest is the
requirement `needs` on the landmarks. They found `count` suspension points, and no cleanup routine
when `quiet`. -/
structure Emitted (pair : Pairing) (needs : Landmarks → Prop) (count : Nat) (quiet : Prop)
    (scope after : List LocalId) (p p' : Progress) (code code' : Code) (q q' : Progress)
    (harvest : Harvest) : Prop where
  abreast : q.Abreast q'
  points_left : q.points = p.points ++ harvest.points.map (·.1)
  points_right : q'.points = p'.points ++ harvest.points.map (·.2)
  cleanups_left : q.cleanups = p.cleanups ++ harvest.cleanups.map (·.1)
  cleanups_right : q'.cleanups = p'.cleanups ++ harvest.cleanups.map (·.2)
  marked : harvest.marks.map Mark.label = code.labels
  resumed : ∀ point ∈ harvest.points, ∃ scope, ⟨point.1.resume, scope, true⟩ ∈ harvest.marks
  resuming : harvest.points = [] → ∀ mark ∈ harvest.marks, mark.resumes = false
  routines : ∀ cleanup ∈ harvest.cleanups, pair.Routines cleanup.1.2 cleanup.2.2
  counted : harvest.points.length = count
  calm : quiet → harvest.cleanups = []
  chained : ∀ marks, needs marks → marks.Cover harvest → ∀ point ∈ harvest.points,
    point.1.state = point.2.state ∧ point.1.resume = point.2.resume ∧
      List.Forall₂ marks.called point.1.cleanup point.2.cleanup
  twin : ∀ marks, needs marks → marks.Cover harvest → Twin pair marks scope code code' after

namespace Emitted
variable {pair : Pairing} {needs : Landmarks → Prop} {count count' : Nat} {quiet quiet' : Prop}
variable {scope middle after : List LocalId} {p p' q q' r r' : Progress}
variable {code code' rest rest' : Code} {h h' : Harvest}

theorem append (first : Emitted pair needs count quiet scope middle p p' code code' q q' h)
    (second : Emitted pair needs count' quiet' middle after q q' rest rest' r r' h') :
    Emitted pair needs (count + count') (quiet ∧ quiet') scope after p p' (code ++ rest)
      (code' ++ rest') r r' (h ++ h') where
  abreast := second.abreast
  points_left := by simp [second.points_left, first.points_left]
  points_right := by simp [second.points_right, first.points_right]
  cleanups_left := by simp [second.cleanups_left, first.cleanups_left]
  cleanups_right := by simp [second.cleanups_right, first.cleanups_right]
  marked := by simp [first.marked, second.marked]
  resumed := by
    intro point member
    rcases List.mem_append.mp member with member | member
    · obtain ⟨scope, placed⟩ := first.resumed point member
      exact ⟨scope, List.mem_append_left _ placed⟩
    · obtain ⟨scope, placed⟩ := second.resumed point member
      exact ⟨scope, List.mem_append_right _ placed⟩
  resuming := by
    intro none
    obtain ⟨none, none'⟩ := List.append_eq_nil_iff.mp none
    exact List.forall_mem_append.mpr ⟨first.resuming none, second.resuming none'⟩
  routines := List.forall_mem_append.mpr ⟨first.routines, second.routines⟩
  counted := by simp [first.counted, second.counted]
  calm calm := by simp [first.calm calm.1, second.calm calm.2]
  chained marks needed cover :=
    List.forall_mem_append.mpr ⟨first.chained marks needed cover.of_append.1,
      second.chained marks needed cover.of_append.2⟩
  twin marks needed cover :=
    (first.twin marks needed cover.of_append.1).append (second.twin marks needed cover.of_append.2)

/-- Code without labels that is added while nothing is handed out. -/
theorem plain (abreast : p.Abreast p') (labels : code.labels = [])
    (twin : ∀ marks, needs marks → Twin pair marks scope code code' after) :
    Emitted pair needs 0 True scope after p p' code code' p p' .empty where
  abreast := abreast
  points_left := (List.append_nil _).symm
  points_right := (List.append_nil _).symm
  cleanups_left := (List.append_nil _).symm
  cleanups_right := (List.append_nil _).symm
  marked := labels.symm
  resumed := by simp [Harvest.empty]
  resuming := by simp [Harvest.empty]
  routines := by simp [Harvest.empty]
  counted := rfl
  calm _ := rfl
  chained := by simp [Harvest.empty]
  twin marks needed _ := twin marks needed

/-- Labels up to `next` are handed out. -/
theorem reserve (abreast : p.Abreast p') (next : Label) :
    Emitted pair needs 0 True scope scope p p' [] [] { p with nextLabel := next }
      { p' with nextLabel := next } .empty :=
  have nothing : Emitted pair needs 0 True scope scope p p' [] [] p p' .empty :=
    plain abreast rfl fun _ _ => .nil (List.Subset.refl _)
  { nothing with abreast := ⟨rfl, abreast.points⟩ }

/-- A label that is placed. -/
theorem mark (abreast : p.Abreast p') (label : Label) {inner : List LocalId} (within : inner ⊆ scope) :
    Emitted pair needs 0 True scope inner p p' [.label label] [.label label] p p'
      ⟨[⟨label, inner, false⟩], [], []⟩ where
  abreast := abreast
  points_left := (List.append_nil _).symm
  points_right := (List.append_nil _).symm
  cleanups_left := (List.append_nil _).symm
  cleanups_right := (List.append_nil _).symm
  marked := rfl
  resumed := by simp
  resuming := by simp
  routines := by simp
  counted := rfl
  calm _ := rfl
  chained := by simp
  twin marks _ cover :=
    .mark (cover.placed _ List.mem_cons_self) within (by simp) (.nil (List.Subset.refl _))

theorem refine {needs' : Landmarks → Prop} {large : List LocalId}
    (emitted : Emitted pair needs count quiet scope after p p' code code' q q' h)
    (within : scope ⊆ large) (stronger : ∀ marks, needs' marks → needs marks) :
    Emitted pair needs' count quiet large after p p' code code' q q' h :=
  { emitted with
    chained := fun marks needed => emitted.chained marks (stronger marks needed)
    twin := fun marks needed cover => (emitted.twin marks (stronger marks needed) cover).widen within }

/-- What the harvest covers need not be required of anyone else. -/
theorem settle {needs' : Landmarks → Prop}
    (emitted : Emitted pair needs' count quiet scope after p p' code code' q q' h)
    (own : ∀ marks, needs marks → marks.Cover h → needs' marks) :
    Emitted pair needs count quiet scope after p p' code code' q q' h :=
  { emitted with
    chained := fun marks needed cover => emitted.chained marks (own marks needed cover) cover
    twin := fun marks needed cover => emitted.twin marks (own marks needed cover) cover }

/-- Less may be relied on afterwards. -/
theorem narrow {small : List LocalId}
    (emitted : Emitted pair needs count quiet scope after p p' code code' q q' h)
    (within : small ⊆ after) : Emitted pair needs count quiet scope small p p' code code' q q' h :=
  { emitted with
    twin := fun marks needed cover => by
      simpa using (emitted.twin marks needed cover).append (.nil within) }

theorem recount (emitted : Emitted pair needs count quiet scope after p p' code code' q q' h)
    (same : count = count') (less : quiet' → quiet) :
    Emitted pair needs count' quiet' scope after p p' code code' q q' h :=
  { emitted with
    counted := emitted.counted.trans same
    calm := emitted.calm ∘ less }

end Emitted

/-- Taking the exit emits code that goes together, whatever scope is wanted after it. -/
def ExitTwin (pair : Pairing) (needs : Landmarks → Prop) (scope : List LocalId) (exit exit' : Exit) :
    Prop :=
  ∀ p p' q q' code code', p.Abreast p' → exit.take p = .ok code q → exit'.take p' = .ok code' q' →
    ∀ after, ∃ h, Emitted pair needs 0 True scope after p p' code code' q q' h

/-- A cleanup that exits run first: its code goes together and does not suspend. -/
def CleanupTwin (pair : Pairing) (needs : Landmarks → Prop) (scope : List LocalId)
    (cleanup cleanup' : Emit Code) : Prop :=
  ∀ p p' q q' code code', p.Abreast p' → cleanup p = .ok code q → cleanup' p' = .ok code' q' →
    ∃ after h, scope ⊆ after ∧ Emitted pair needs 0 True scope after p p' code code' q q' h

section
variable {pair : Pairing} {needs needs' : Landmarks → Prop} {scope large : List LocalId}

theorem ExitTwin.refine {exit exit' : Exit} (twin : ExitTwin pair needs scope exit exit')
    (within : scope ⊆ large) (stronger : ∀ marks, needs' marks → needs marks) :
    ExitTwin pair needs' large exit exit' := by
  intro p p' q q' code code' abreast taken taken' after
  obtain ⟨h, emitted⟩ := twin p p' q q' code code' abreast taken taken' after
  exact ⟨h, emitted.refine within stronger⟩

theorem exitTwin_to {target : Label} (admits : ∀ marks, needs marks → marks.Admits scope target) :
    ExitTwin pair needs scope (.to target) (.to target) := by
  intro p p' q q' code code' abreast taken taken' after
  simp only [Exit.to, Exit.take, pure_eq_ok] at taken taken'
  obtain ⟨rfl, rfl⟩ := taken
  obtain ⟨rfl, rfl⟩ := taken'
  exact ⟨_, .plain abreast rfl fun marks needed =>
    .goto (admits marks needed) (.nil (List.Subset.refl after))⟩

theorem exitTwin_none (fault : Fault) (exit : Exit) : ExitTwin pair needs scope (.none fault) exit := by
  intro p p' q q' code code' abreast taken
  simp [Exit.none, Exit.take] at taken

theorem ExitTwin.after {exit exit' : Exit} (twin : ExitTwin pair needs scope exit exit')
    {cleanup cleanup' : Emit Code} (cleans : CleanupTwin pair needs scope cleanup cleanup') :
    ExitTwin pair needs scope (exit.after cleanup) (exit'.after cleanup') := by
  intro p p' q q' code code' abreast taken taken' after
  obtain ⟨first, r, rest, cleaned, left, rfl⟩ := Exit.take_after.mp taken
  obtain ⟨first', r', rest', cleaned', left', rfl⟩ := Exit.take_after.mp taken'
  obtain ⟨middle, h, within, emitted⟩ := cleans p p' r r' first first' abreast cleaned cleaned'
  obtain ⟨h', emitted'⟩ := twin.refine within (fun _ needed => needed) r r' q q' rest rest'
    emitted.abreast left left' after
  exact ⟨h ++ h', (emitted.append emitted').recount rfl fun _ => ⟨trivial, trivial⟩⟩

structure ExitsTwin (pair : Pairing) (needs : Landmarks → Prop) (scope : List LocalId)
    (exits exits' : Exits) : Prop where
  onBreak : ExitTwin pair needs scope exits.onBreak exits'.onBreak
  onContinue : ExitTwin pair needs scope exits.onContinue exits'.onContinue
  onStop : ExitTwin pair needs scope exits.onStop exits'.onStop
  chain : ∀ marks, needs marks → List.Forall₂ marks.called exits.cleanups exits'.cleanups

namespace ExitsTwin
variable {exits exits' : Exits}

theorem refine (twin : ExitsTwin pair needs scope exits exits') (within : scope ⊆ large)
    (stronger : ∀ marks, needs' marks → needs marks) : ExitsTwin pair needs' large exits exits' where
  onBreak := twin.onBreak.refine within stronger
  onContinue := twin.onContinue.refine within stronger
  onStop := twin.onStop.refine within stronger
  chain marks needed := twin.chain marks (stronger marks needed)

theorem body (pair : Pairing) :
    ExitsTwin pair Landmarks.resumable [] (.body pair.method pair.left) (.body pair.method pair.right) where
  onBreak := exitTwin_none _ _
  onContinue := exitTwin_none _ _
  onStop := by
    intro p p' q q' code code' abreast taken taken' after
    simp only [Exits.body, Exit.take, pure_eq_ok] at taken taken'
    obtain ⟨rfl, rfl⟩ := taken
    obtain ⟨rfl, rfl⟩ := taken'
    exact ⟨_, .plain abreast rfl fun _ needed => .finish needed (.nil (List.Subset.refl after))⟩
  chain _ _ := .nil

theorem sealed (method : Method) (scope : List LocalId) {cleanups cleanups' : List String}
    (chain : ∀ marks, needs marks → List.Forall₂ marks.called cleanups cleanups') :
    ExitsTwin pair needs scope (.sealed method cleanups) (.sealed method cleanups') where
  onBreak := exitTwin_none _ _
  onContinue := exitTwin_none _ _
  onStop := exitTwin_none _ _
  chain := chain

theorem loop (twin : ExitsTwin pair needs scope exits exits') {breakTo continueTo : Label}
    (breaks : ∀ marks, needs marks → marks.Admits scope breakTo)
    (continues : ∀ marks, needs marks → marks.Admits scope continueTo) :
    ExitsTwin pair needs scope (exits.loop breakTo continueTo) (exits'.loop breakTo continueTo) where
  onBreak := exitTwin_to breaks
  onContinue := exitTwin_to continues
  onStop := twin.onStop
  chain := twin.chain

theorem switch (twin : ExitsTwin pair needs scope exits exits') {breakTo : Label}
    (breaks : ∀ marks, needs marks → marks.Admits scope breakTo) :
    ExitsTwin pair needs scope (exits.switch breakTo) (exits'.switch breakTo) where
  onBreak := exitTwin_to breaks
  onContinue := twin.onContinue
  onStop := twin.onStop
  chain := twin.chain

theorem guarded (twin : ExitsTwin pair needs scope exits exits') {cleanup cleanup' : Emit Code}
    (cleans : CleanupTwin pair needs scope cleanup cleanup') :
    ExitsTwin pair needs scope (exits.guarded cleanup) (exits'.guarded cleanup') where
  onBreak := twin.onBreak.after cleans
  onContinue := twin.onContinue.after cleans
  onStop := twin.onStop.after cleans
  chain := twin.chain

theorem enter (twin : ExitsTwin pair needs scope exits exits') {cleanups cleanups' : List String}
    (chain : ∀ marks, needs marks → List.Forall₂ marks.called cleanups cleanups') :
    ExitsTwin pair needs scope { exits with cleanups := cleanups }
      { exits' with cleanups := cleanups' } where
  onBreak := twin.onBreak
  onContinue := twin.onContinue
  onStop := twin.onStop
  chain := chain

end ExitsTwin
end

/-- The requirement extended by labels that are yet to be placed. -/
def Also (needs : Landmarks → Prop) (marks : List Mark) : Landmarks → Prop :=
  fun landmarks => needs landmarks ∧ ∀ mark ∈ marks, landmarks.placed mark

section
variable {pair : Pairing} {needs : Landmarks → Prop} {marks : List Mark} {count : Nat} {quiet : Prop}
variable {scope after : List LocalId} {p p' q q' : Progress} {code code' : Code} {h : Harvest}

theorem also_admits (mark : Mark) (member : mark ∈ marks) (within : mark.scope ⊆ scope)
    (landmarks : Landmarks) (also : Also needs marks landmarks) : landmarks.Admits scope mark.label :=
  ⟨mark, also.2 mark member, rfl, within⟩

theorem ExitsTwin.also {exits exits' : Exits} (twin : ExitsTwin pair needs scope exits exits')
    (marks : List Mark) : ExitsTwin pair (Also needs marks) scope exits exits' :=
  twin.refine (List.Subset.refl _) fun _ also => also.1

namespace Emitted

theorem settle_marks
    (emitted : Emitted pair (Also needs marks) count quiet scope after p p' code code' q q' h)
    (own : ∀ mark ∈ marks, mark ∈ h.marks) :
    Emitted pair needs count quiet scope after p p' code code' q q' h :=
  emitted.settle fun _ needed cover => ⟨needed, fun mark member => cover.placed mark (own mark member)⟩

theorem jump (abreast : p.Abreast p') {target : Label}
    (admits : ∀ marks, needs marks → marks.Admits scope target) (next : List LocalId) :
    Emitted pair needs 0 True scope next p p' [.goto target] [.goto target] p p' .empty :=
  plain abreast rfl fun marks needed => .goto (admits marks needed) (.nil (List.Subset.refl _))

theorem branch (abreast : p.Abreast p') {t t' : Term} (terms : pair.Terms scope t t') {target : Label}
    (admits : ∀ marks, needs marks → marks.Admits scope target) :
    Emitted pair needs 0 True scope scope p p' [.gotoUnless t target] [.gotoUnless t' target] p p' .empty :=
  plain abreast rfl fun marks needed => .branch terms (admits marks needed) (.nil (List.Subset.refl _))

/-- A suspension point. -/
theorem pause (abreast : p.Abreast p') {t t' : Term} (terms : pair.Terms scope t t')
    (kept : ∀ id ∈ scope, pair.keeps id) {cleanups cleanups' : List String}
    (chain : ∀ marks, needs marks → List.Forall₂ marks.called cleanups cleanups') :
    Emitted pair needs 1 (1 = 0) scope scope p p'
      [.setField pair.left.current t, pair.left.setState (State.suspendedAt p.points.length),
        .ret (some (.bool true)), .label p.nextLabel, pair.left.setState State.running]
      [.setField pair.right.current t', pair.right.setState (State.suspendedAt p'.points.length),
        .ret (some (.bool true)), .label p'.nextLabel, pair.right.setState State.running]
      { p with
        nextLabel := p.nextLabel + 1
        points := p.points ++ [⟨State.suspendedAt p.points.length, p.nextLabel, cleanups⟩] }
      { p' with
        nextLabel := p'.nextLabel + 1
        points := p'.points ++ [⟨State.suspendedAt p'.points.length, p'.nextLabel, cleanups'⟩] }
      ⟨[⟨p.nextLabel, scope, true⟩],
        [(⟨State.suspendedAt p.points.length, p.nextLabel, cleanups⟩,
          ⟨State.suspendedAt p'.points.length, p'.nextLabel, cleanups'⟩)], []⟩ where
  abreast := ⟨by simp [abreast.label], by simp [abreast.points]⟩
  points_left := rfl
  points_right := rfl
  cleanups_left := (List.append_nil _).symm
  cleanups_right := (List.append_nil _).symm
  marked := rfl
  resumed := by simp
  resuming := nofun
  routines := by simp
  counted := rfl
  calm := nofun
  chained marks needed _ := by simpa [abreast.label, abreast.points] using chain marks needed
  twin marks _ cover := by
    rw [← abreast.label, ← abreast.points]
    have placed := cover.placed ⟨p.nextLabel, scope, true⟩ List.mem_cons_self
    have resumed : Twin pair marks scope [.label p.nextLabel, pair.left.setState State.running]
        [.label p.nextLabel, pair.right.setState State.running] scope :=
      .mark placed (List.Subset.refl _) (fun _ => kept) (.nil (List.Subset.refl _))
    exact .pause terms (cover.paused _ List.mem_cons_self) resumed

/-- A cleanup block becomes a routine: it neither suspends nor needs a routine itself, so nothing is
handed out for it but labels. -/
theorem register {names names' : NameSupply}
    (emitted : Emitted pair (fun _ => True) count (count = 0) scope after { p with names := names }
      { p' with names := names' } code code' q q' h)
    (calm : count = 0) (kept : ∀ id ∈ scope, pair.keeps id) (once : code.labels.Nodup) (name name' : String)
    {routine routine' : FlatBody} (flat : flatBody pair.method (code ++ [.ret none]) = .ok routine)
    (flat' : flatBody pair.method (code' ++ [.ret none]) = .ok routine') :
    Emitted pair needs 0 False scope scope p p' [] []
      { q with cleanups := q.cleanups ++ [(name, routine)] }
      { q' with cleanups := q'.cleanups ++ [(name', routine')] }
      ⟨[], [], [((name, routine), (name', routine'))]⟩ := by
  have noPoints : h.points = [] := List.eq_nil_of_length_eq_zero (emitted.counted.trans calm)
  have noCleanups := emitted.calm calm
  have twin : Twin pair (.alone h.marks) scope code code' after :=
    emitted.twin _ trivial ⟨fun _ member => member, by simp [noPoints], by simp [noCleanups]⟩
  have routines : pair.Routines routine routine' := by
    have same := flatBody_code flat
    have same' := flatBody_code flat'
    have labels : routine.code.labels = code.labels := by simp [same, Machine.Code.labels]
    refine ⟨same ▸ flat, same' ▸ flat', labels ▸ once, ⟨code, same⟩, h.marks, scope, after, ?_,
      emitted.resuming noPoints, kept, ?_⟩
    · rw [labels, emitted.marked]
    · rw [same, same']
      exact twin.append (.leave id (.nil (List.Subset.refl after)))
  exact {
    abreast := ⟨emitted.abreast.label, emitted.abreast.points⟩
    points_left := by simp [emitted.points_left, noPoints]
    points_right := by simp [emitted.points_right, noPoints]
    cleanups_left := by simp [emitted.cleanups_left, noCleanups]
    cleanups_right := by simp [emitted.cleanups_right, noCleanups]
    marked := rfl
    resumed := by simp
    resuming := by simp
    routines := by simpa using routines
    counted := rfl
    calm := False.elim
    chained := by simp
    twin := fun _ _ _ => .nil (List.Subset.refl _) }

/-- A cleanup routine is called. -/
theorem call (abreast : p.Abreast p') {name name' : String} {next : List LocalId}
    (called : ∀ marks, needs marks → marks.called name name') (within : next ⊆ scope)
    (kept : ∀ id ∈ next, pair.keeps id) :
    Emitted pair needs 0 True scope next p p' [callCleanup name] [callCleanup name'] p p' .empty :=
  plain abreast rfl fun marks needed =>
    .cleanup (called marks needed) within kept (.nil (List.Subset.refl _))

end Emitted
end

end Resumable.Lowering
