import Mathlib.Data.List.Nodup
import Resumable.Method.Build
import Resumable.Proofs.Checking

/-!
Generated names never collide. A supply counts the requests for each base by themselves, so names
for two bases can only meet where one base looks like the other with a number added. No base that a
lowering asks for does, as long as the names in the source have no dollar sign.
-/

namespace Resumable

namespace NameSupply

/-- The names that requests for `bases` are given, one after another. -/
def issued (supply : NameSupply) : List String → List String
  | [] => []
  | base :: rest => (supply.fresh base).1 :: issued (supply.fresh base).2 rest

theorem reserve_append (supply : NameSupply) (first second : List String) :
    supply.reserve (first ++ second) = (supply.reserve first).reserve second :=
  List.foldl_append

theorem issued_append (supply : NameSupply) (first second : List String) :
    supply.issued (first ++ second) = supply.issued first ++ (supply.reserve first).issued second := by
  induction first generalizing supply with
  | nil => rfl
  | cons base rest ih => exact congrArg _ (ih _)

theorem requests_fresh_of_ne {base other : String} (ne : other ≠ base) (supply : NameSupply) :
    (supply.fresh base).2.requests other = supply.requests other := by
  simp [fresh, requests, Table.get?_set_of_ne _ _ ne]

theorem requests_reserve (supply : NameSupply) (bases : List String) (base : String) :
    (supply.reserve bases).requests base = supply.requests base + bases.count base := by
  induction bases generalizing supply with
  | nil => simp [reserve]
  | cons first rest ih =>
    have later : ((supply.fresh first).2.reserve rest).requests base =
        (supply.fresh first).2.requests base + rest.count base := ih _
    change ((supply.fresh first).2.reserve rest).requests base = _
    by_cases same : base = first
    · subst same
      rw [later, requests_fresh, List.count_cons_self]
      omega
    · rw [later, requests_fresh_of_ne same, List.count_cons_of_ne (Ne.symm same)]

/-- The supply remembers which requests were made, though not in which order. -/
theorem perm_of_reserve_eq {supply : NameSupply} {bases bases' : List String}
    (same : supply.reserve bases = supply.reserve bases') : bases.Perm bases' := by
  apply List.perm_iff_count.mpr
  intro base
  have counts := congrArg (requests · base) same
  simp only [requests_reserve] at counts
  omega

/-- The base does not look like another one with a number added. -/
def Unnumbered (base : String) : Prop :=
  ∀ (stem : String) (count : Nat), base ≠ stem ++ "$" ++ toString count

theorem isDigit_of_mem_toString {c : Char} {count : Nat} (member : c ∈ (toString count).toList) :
    c.isDigit := by
  rw [Nat.toString_eq_repr, Nat.toList_repr] at member
  exact Nat.isDigit_of_mem_toDigits (by decide) (by decide) member

theorem unnumbered_of_plain {base : String} (plain : '$' ∉ base.toList) : Unnumbered base := by
  rintro stem count rfl
  simp [String.toList_append] at plain

theorem unnumbered_of_last {base : String} {c : Char} (last : base.toList.getLast? = some c)
    (letter : c.isDigit = false) : Unnumbered base := by
  rintro stem count rfl
  have some_digit : (toString count).toList ≠ [] := by
    rw [Nat.toString_eq_repr, Nat.toList_repr]
    exact Nat.toDigits_ne_nil
  rw [String.toList_append, List.getLast?_append_of_ne_nil _ some_digit] at last
  have digit := isDigit_of_mem_toString (List.mem_of_getLast? last)
  simp [letter] at digit

/-- Numbers contain no dollar sign, so they can be told from the base before them. -/
theorem stem_inj {stem stem' : String} {count count' : Nat}
    (same : stem ++ "$" ++ toString count = stem' ++ "$" ++ toString count') :
    stem = stem' ∧ count = count' := by
  have undollared (count : Nat) : ∀ c ∈ (toString count).toList.reverse, (c != '$') = true := by
    intro c member
    have digit := isDigit_of_mem_toString (List.mem_reverse.mp member)
    rw [bne_iff_ne]
    rintro rfl
    exact absurd digit (by decide)
  have chars := congrArg (fun text : String => text.toList.reverse) same
  simp only [String.toList_append, List.reverse_append, List.append_assoc] at chars
  have digits := congrArg (List.takeWhile (· != '$')) chars
  rw [List.takeWhile_append_of_pos (undollared count), List.takeWhile_append_of_pos (undollared count')]
    at digits
  have numbers : (toString count).toList = (toString count').toList := by
    simpa using digits
  rw [numbers] at chars
  have stems : stem.toList = stem'.toList := by
    simpa using chars
  exact ⟨String.toList_inj.mp stems, toString_inj (String.toList_inj.mp numbers)⟩

theorem eq_of_nameAt_eq {base base' : String} (unnumbered : Unnumbered base)
    (unnumbered' : Unnumbered base') {count count' : Nat}
    (same : nameAt base count = nameAt base' count') : base = base' ∧ count = count' := by
  unfold nameAt at same
  split at same
  · split at same
    · exact ⟨same, by omega⟩
    · exact (unnumbered _ _ same).elim
  · split at same
    · exact (unnumbered' _ _ same.symm).elim
    · exact stem_inj same

/-- A name that is given from now on has a number that has not been used. -/
theorem exists_of_mem_issued {supply : NameSupply} {bases : List String} {name : String}
    (member : name ∈ supply.issued bases) :
    ∃ base ∈ bases, ∃ count, supply.requests base ≤ count ∧ name = nameAt base count := by
  induction bases generalizing supply with
  | nil => cases member
  | cons first rest ih =>
    rcases List.mem_cons.mp member with rfl | later
    · exact ⟨first, List.mem_cons_self, _, Nat.le_refl _, rfl⟩
    · obtain ⟨base, listed, count, unused, rfl⟩ := ih later
      refine ⟨base, List.mem_cons_of_mem _ listed, count, ?_, rfl⟩
      by_cases same : base = first
      · subst same
        rw [requests_fresh] at unused
        omega
      · rwa [requests_fresh_of_ne same] at unused

theorem nodup_issued (supply : NameSupply) {bases : List String}
    (unnumbered : ∀ base ∈ bases, Unnumbered base) : (supply.issued bases).Nodup := by
  induction bases generalizing supply with
  | nil => exact List.nodup_nil
  | cons first rest ih =>
    obtain ⟨here, later⟩ := List.forall_mem_cons.mp unnumbered
    refine List.nodup_cons.mpr ⟨fun again => ?_, ih _ later⟩
    obtain ⟨base, listed, count, unused, same⟩ := exists_of_mem_issued again
    obtain ⟨rfl, rfl⟩ := eq_of_nameAt_eq here (later base listed) same
    rw [requests_fresh] at unused
    omega

end NameSupply

namespace Lowering
open Machine (Code FieldId Label)
open NameSupply (Unnumbered cleanupBase machineBase proxyBase unnumbered_of_last unnumbered_of_plain)

section
variable {σ α β : Type} {names : σ → NameSupply} {s : σ} {post : List String → α → σ → Prop}
  {post' : List String → β → σ → Prop}

/-- However the computation ends, it has asked the supply for unnumbered bases only. If it succeeds,
`post` holds of the names that it was given, of its result and of the state after it. -/
def Draws (names : σ → NameSupply) (x : EStateM LowerError σ α) (s : σ)
    (post : List String → α → σ → Prop) : Prop :=
  ∃ bases, (∀ base ∈ bases, Unnumbered base) ∧
    names (finalState (x s)) = (names s).reserve bases ∧
    ∀ a s', x s = .ok a s' → post ((names s).issued bases) a s'

namespace Draws

theorem pure {a : α} (fine : post [] a s) : Draws names (Pure.pure a) s post := by
  refine ⟨[], List.forall_mem_nil _, rfl, ?_⟩
  intro b s' done
  obtain ⟨rfl, rfl⟩ := pure_eq_ok.mp done
  exact fine

theorem throw (e : LowerError) : Draws names (MonadExcept.throw e) s post :=
  ⟨[], List.forall_mem_nil _, rfl, by simp⟩

theorem mono {x : EStateM LowerError σ α} {weaker : List String → α → σ → Prop}
    (draws : Draws names x s post) (le : ∀ given a s', post given a s' → weaker given a s') :
    Draws names x s weaker := by
  obtain ⟨bases, fine, took, given⟩ := draws
  exact ⟨bases, fine, took, fun a s' done => le _ a s' (given a s' done)⟩

theorem bind {x : EStateM LowerError σ α} {f : α → EStateM LowerError σ β} (first : Draws names x s post)
    (next : ∀ given a s', post given a s' → Draws names (f a) s' fun more => post' (given ++ more)) :
    Draws names (x >>= f) s post' := by
  obtain ⟨bases, fine, took, given⟩ := first
  cases begun : x s with
  | error e s' =>
    rw [begun] at took
    refine ⟨bases, fine, ?_, ?_⟩
    · rw [bind_of_error begun]
      exact took
    · simp [bind_of_error begun]
  | ok a s' =>
    rw [begun] at took
    have middle : names s' = (names s).reserve bases := took
    obtain ⟨bases', fine', took', given'⟩ := next _ a s' (given a s' begun)
    refine ⟨bases ++ bases', List.forall_mem_append.mpr ⟨fine, fine'⟩, ?_, ?_⟩
    · rw [bind_of_ok begun, took', middle, NameSupply.reserve_append]
    · rw [bind_of_ok begun, NameSupply.issued_append, ← middle]
      exact given'

theorem checked {x : Except LowerError α} {f : α → EStateM LowerError σ β}
    (next : ∀ a, x = .ok a → Draws names (f a) s post') :
    Draws names (Resumable.checked x >>= f) s post' := by
  cases x with
  | error e => exact throw e
  | ok a => exact next a rfl

end Draws
end

section
variable {α : Type} {supply : NameSupply} {post : List String → α → NameSupply → Prop}

theorem Draws.fresh {base : String} {f : String → Named α} (unnumbered : Unnumbered base)
    (next : ∀ name supply', Draws id (f name) supply' fun more => post (name :: more)) :
    Draws id (freshName base >>= f) supply post := by
  have draws : Draws id (freshName base) supply fun given name _ => given = [name] := by
    refine ⟨[base], List.forall_mem_singleton.mpr unnumbered, rfl, ?_⟩
    intro name supply' done
    obtain ⟨rfl, rfl⟩ := EStateM.Result.ok.inj done
    rfl
  apply draws.bind
  rintro _ name supply' rfl
  exact next name supply'

variable (method : Method) (visibility : Visibility)

theorem draws_slotFields (unnumbered : ∀ var, Unnumbered (slotBase method var)) (next : FieldId)
    (vars : List Var) (supply : NameSupply) :
    Draws id (slotFields method visibility next vars) supply
      fun given fields _ => given = fields.map (·.name) := by
  induction vars generalizing next supply with
  | nil => exact .pure rfl
  | cons var rest ih =>
    unfold slotFields
    apply Draws.fresh (unnumbered var)
    intro name supply'
    refine .checked fun ty _ => .checked fun ty' _ => ?_
    apply (ih (next + 1) supply').bind
    rintro _ fields _ rfl
    exact .pure (by simp)

theorem draws_proxyFields (next : FieldId) (indices : List Nat) (supply : NameSupply) :
    Draws id (proxyFields method visibility next indices) supply
      fun given fields _ => given = fields.map (·.name) := by
  induction indices generalizing next supply with
  | nil => exact .pure rfl
  | cons index rest ih =>
    unfold proxyFields
    refine .checked fun param _ => ?_
    have unnumbered : Unnumbered (proxyBase param.name) :=
      unnumbered_of_last (c := 't') (by simp [proxyBase, String.toList_append]) (by decide)
    apply Draws.fresh unnumbered
    intro name supply'
    refine .checked fun ty _ => ?_
    apply (ih (next + 1) supply').bind
    rintro _ fields _ rfl
    exact .pure (by simp)

theorem draws_threadFields (kind : IteratorKind) (next : FieldId) (supply : NameSupply) :
    Draws id (threadFields kind visibility next) supply
      fun given fields _ => given = fields.map (·.name) := by
  cases kind with
  | enumerator => exact .pure rfl
  | enumerable =>
    unfold threadFields
    apply Draws.fresh (unnumbered_of_last (c := 'd') (by decide) (by decide))
    intro name supply'
    exact .pure rfl

theorem draws_buildShape (unnumbered : ∀ var, Unnumbered (slotBase method var)) (kind : IteratorKind)
    (capture : Capture) (members : Members) (options : Options) (supply : NameSupply) :
    Draws id (buildShape method kind capture members options) supply
      fun given shape _ => given = shape.fields.map (·.name) ++ [shape.name] := by
  unfold buildShape
  refine .checked fun element _ => .checked fun element' _ => ?_
  apply Draws.fresh (unnumbered_of_last (c := 'e') (by decide) (by decide))
  intro stateName _
  apply Draws.fresh (unnumbered_of_last (c := 't') (by decide) (by decide))
  intro currentName _
  apply (draws_threadFields _ kind 2 _).bind
  rintro _ thread _ rfl
  apply (draws_slotFields method _ unnumbered _ _ _).bind
  rintro _ slots _ rfl
  apply (draws_proxyFields method _ _ _ _).bind
  rintro _ proxies _ rfl
  have machine : Unnumbered (machineBase method.name) :=
    unnumbered_of_last (c := 'r') (by simp [machineBase, String.toList_append]) (by decide)
  apply Draws.fresh machine
  intro name _
  exact .pure (by simp)

end

section
variable {α β : Type}

/-- The names that were given in between are those of the cleanup routines that were added. -/
def Entered (p : Progress) (given : List String) (p' : Progress) : Prop :=
  ∃ new, p'.cleanups = p.cleanups ++ new ∧ given.Perm (new.map (·.1))

/-- An emission that takes a name for each cleanup routine that it adds, and no other. -/
def Tallies (x : Emit α) : Prop :=
  ∀ p, Draws Progress.names x p fun given _ p' => Entered p given p'

namespace Tallies

theorem of_same {x : Emit α} (same : ∀ p, (finalState (x p)).names = p.names ∧
    (finalState (x p)).cleanups = p.cleanups) : Tallies x := by
  intro p
  refine ⟨[], List.forall_mem_nil _, (same p).1, ?_⟩
  intro a p' done
  have kept := (same p).2
  rw [done] at kept
  exact ⟨[], by simpa using kept, .refl _⟩

theorem pure (a : α) : Tallies (Pure.pure a) := of_same fun _ => ⟨rfl, rfl⟩

theorem throw (e : LowerError) : Tallies (MonadExcept.throw e : Emit α) := fun _ => .throw e

theorem bind {x : Emit α} {f : α → Emit β} (first : Tallies x) (next : ∀ a, Tallies (f a)) :
    Tallies (x >>= f) := by
  intro p
  apply (first p).bind
  rintro given a p' ⟨new, grown, same⟩
  apply (next a p').mono
  rintro more b p'' ⟨new', grown', same'⟩
  refine ⟨new ++ new', ?_, ?_⟩
  · rw [grown', grown, List.append_assoc]
  · rw [List.map_append]
    exact same.append same'

theorem checked {x : Except LowerError α} {f : α → Emit β} (next : ∀ a, Tallies (f a)) :
    Tallies (Resumable.checked x >>= f) := fun p => .checked fun a _ => next a p

theorem reserveLabels (count : Nat) : Tallies (Lowering.reserveLabels count) :=
  of_same fun _ => ⟨rfl, rfl⟩

theorem addPoint (resume : Label) (cleanup : List String) : Tallies (Lowering.addPoint resume cleanup) :=
  of_same fun _ => ⟨rfl, rfl⟩

/-- The name of a cleanup routine is taken first, and entered once its code is there. -/
theorem routine {inner : Emit Code} {flat : Code → Except LowerError FlatBody} {f : String → Emit α}
    (first : Tallies inner) (next : ∀ name, Tallies (f name)) :
    Tallies (do
      let name ← freshCleanup
      let code ← inner
      let body ← Resumable.checked (flat code)
      addCleanup name body
      f name) := by
  intro p
  have taken : Draws Progress.names freshCleanup p fun given name p' =>
      given = [name] ∧ p'.cleanups = p.cleanups := by
    refine ⟨[cleanupBase], List.forall_mem_singleton.mpr ?_, rfl, ?_⟩
    · exact unnumbered_of_last (c := 'y') (by decide) (by decide)
    · intro name p' done
      obtain ⟨rfl, rfl⟩ := freshCleanup_eq_ok.mp done
      exact ⟨rfl, rfl⟩
  apply taken.bind
  rintro _ name p₁ ⟨rfl, kept⟩
  apply (first p₁).bind
  rintro given code p₂ ⟨new, grown, same⟩
  refine .checked fun body _ => ?_
  have added : Draws Progress.names (addCleanup name body) p₂ fun given _ p' =>
      given = [] ∧ p'.cleanups = p₂.cleanups ++ [(name, body)] := by
    refine ⟨[], List.forall_mem_nil _, rfl, ?_⟩
    intro _ p' done
    obtain rfl := addCleanup_eq_ok.mp done
    exact ⟨rfl, rfl⟩
  apply added.bind
  rintro _ _ p₃ ⟨rfl, entered⟩
  apply (next name p₃).mono
  rintro more a p₄ ⟨new', grown', same'⟩
  refine ⟨new ++ (name, body) :: new', ?_, ?_⟩
  · rw [grown', entered, grown, kept]
    simp
  · rw [List.map_append, List.map_cons, List.nil_append]
    exact ((same.append same').cons name).trans List.perm_middle.symm

end Tallies

structure Exits.Tally (exits : Exits) : Prop where
  onBreak : Tallies exits.onBreak.take
  onContinue : Tallies exits.onContinue.take
  onStop : Tallies exits.onStop.take

theorem Exit.tallies_after {cleanup : Emit Code} {exit : Exit} (first : Tallies cleanup)
    (rest : Tallies exit.take) : Tallies (exit.after cleanup).take := by
  cases exit with
  | error e => exact .throw e
  | ok emit => exact first.bind fun _ => Tallies.bind rest fun _ => .pure _

namespace Exits.Tally
variable {exits : Exits}

theorem body (method : Method) (shape : Shape) : (Exits.body method shape).Tally :=
  ⟨.throw _, .throw _, .pure _⟩

theorem sealed (method : Method) (cleanups : List String) : (Exits.sealed method cleanups).Tally :=
  ⟨.throw _, .throw _, .throw _⟩

theorem loop (tally : exits.Tally) (breakTo continueTo : Label) : (exits.loop breakTo continueTo).Tally :=
  ⟨.pure _, .pure _, tally.onStop⟩

theorem switch (tally : exits.Tally) (breakTo : Label) : (exits.switch breakTo).Tally :=
  ⟨.pure _, tally.onContinue, tally.onStop⟩

theorem guarded (tally : exits.Tally) {cleanup : Emit Code} (first : Tallies cleanup) :
    (exits.guarded cleanup).Tally :=
  ⟨Exit.tallies_after first tally.onBreak, Exit.tallies_after first tally.onContinue,
    Exit.tallies_after first tally.onStop⟩

theorem enter (tally : exits.Tally) (cleanups : List String) : Tally { exits with cleanups := cleanups } :=
  ⟨tally.onBreak, tally.onContinue, tally.onStop⟩

end Exits.Tally
end

section
variable (method : Method) (shape : Shape)

mutual
theorem tallies_stmt : (s : Stmt) → {exits : Exits} → exits.Tally →
    Tallies (emitStmt method shape exits s)
  | .block body, exits, tally => by
    simp only [emitStmt]
    exact tallies_block body tally
  | .declare _ none, exits, tally | .declare _ (some _), exits, tally => by
    simp only [emitStmt]
    exact .checked fun _ => .checked fun _ => .pure _
  | .eval _, exits, tally => by
    simp only [emitStmt]
    exact .checked fun _ => .pure _
  | .ite _ yes none, exits, tally => by
    simp only [emitStmt]
    exact .checked fun _ => (Tallies.reserveLabels 2).bind fun _ =>
      (tallies_block yes tally).bind fun _ => .pure _
  | .ite _ yes (some no), exits, tally => by
    simp only [emitStmt]
    exact .checked fun _ => (Tallies.reserveLabels 2).bind fun _ =>
      (tallies_block yes tally).bind fun _ => (tallies_block no tally).bind fun _ => .pure _
  | .whileLoop _ body, exits, tally => by
    simp only [emitStmt]
    exact (Tallies.reserveLabels 2).bind fun _ => .checked fun _ =>
      (tallies_block body (tally.loop _ _)).bind fun _ => .pure _
  | .forLoop init _ _ body, exits, tally => by
    simp only [emitStmt]
    exact (tallies_block init tally).bind fun _ => (Tallies.reserveLabels 3).bind fun _ =>
      .checked fun _ => (tallies_block body (tally.loop _ _)).bind fun _ => .checked fun _ => .pure _
  | .foreach _ _ _, exits, tally => by
    simp only [emitStmt]
    exact .throw _
  | .switch _ cases none, exits, tally => by
    simp only [emitStmt]
    exact .checked fun _ => (Tallies.reserveLabels 1).bind fun _ =>
      (Tallies.reserveLabels cases.length).bind fun _ =>
        (tallies_cases cases (tally.switch _) _ _).bind fun _ => .pure _
  | .switch _ cases (some default), exits, tally => by
    simp only [emitStmt]
    exact .checked fun _ => (Tallies.reserveLabels 1).bind fun _ =>
      (Tallies.reserveLabels cases.length).bind fun _ => (Tallies.reserveLabels 1).bind fun _ =>
        (tallies_cases cases (tally.switch _) _ _).bind fun _ =>
          (tallies_block default (tally.switch _)).bind fun _ => .pure _
  | .tryFinally body cleanup, exits, tally => by
    simp only [emitStmt]
    split
    · apply Tallies.routine (tallies_block cleanup (.sealed method []))
      intro name
      exact (tallies_block body ((tally.guarded (.pure _)).enter _)).bind fun _ => .pure _
    · have repeated := tallies_block cleanup (.sealed method exits.cleanups)
      exact (tallies_block body (tally.guarded repeated)).bind fun _ => repeated.bind fun _ => .pure _
  | .breakOut, exits, tally => by
    simp only [emitStmt]
    exact tally.onBreak
  | .continueLoop, exits, tally => by
    simp only [emitStmt]
    exact tally.onContinue
  | .yield _, exits, tally => by
    simp only [emitStmt]
    exact .checked fun _ => (Tallies.reserveLabels 1).bind fun resume =>
      (Tallies.addPoint resume exits.cleanups).bind fun _ => .pure _
  | .stop, exits, tally => by
    simp only [emitStmt]
    exact tally.onStop

theorem tallies_block : (body : List Stmt) → {exits : Exits} → exits.Tally →
    Tallies (emitBlock method shape exits body)
  | [], exits, tally => by
    simp only [emitBlock]
    exact .pure _
  | s :: rest, exits, tally => by
    simp only [emitBlock]
    exact (tallies_stmt s tally).bind fun _ => (tallies_block rest tally).bind fun _ => .pure _

theorem tallies_cases : (cases : List (List Int64 × List Stmt)) → {exits : Exits} → exits.Tally →
    (breakTo label : Label) → Tallies (emitCases method shape exits breakTo label cases)
  | [], exits, tally, breakTo, label => by
    simp only [emitCases]
    exact .pure _
  | (_, body) :: rest, exits, tally, breakTo, label => by
    simp only [emitCases]
    exact (tallies_block body tally).bind fun _ =>
      (tallies_cases rest tally breakTo (label + 1)).bind fun _ => .pure _
end

theorem draws_buildDispatch (supply : NameSupply) :
    Draws id (buildDispatch method shape) supply
      fun given dispatch _ => given.Perm (dispatch.cleanups.map (·.1)) := by
  have emits : Draws Progress.names (emitDispatch method shape) ⟨2, [], [], supply⟩
      fun given dispatch _ => given.Perm (dispatch.cleanups.map (·.1)) := by
    unfold emitDispatch
    apply (tallies_block method shape method.body (.body method shape) _).bind
    rintro given code p ⟨new, grown, same⟩
    have got : Draws Progress.names (get : Emit Progress) p fun given p' _ => given = [] ∧ p' = p := by
      refine ⟨[], List.forall_mem_nil _, rfl, ?_⟩
      intro p' _ done
      obtain ⟨rfl, rfl⟩ := EStateM.Result.ok.inj done
      exact ⟨rfl, rfl⟩
    apply got.bind
    rintro _ _ p' ⟨rfl, rfl⟩
    refine .checked fun moveNext _ => .pure ?_
    simpa [grown] using same
  obtain ⟨bases, fine, took, done⟩ := emits
  refine ⟨bases, fine, ?_, ?_⟩
  · unfold buildDispatch
    cases result : emitDispatch method shape ⟨2, [], [], supply⟩ with
    | ok dispatch p => simpa [result] using took
    | error e p => simpa [result] using took
  · intro dispatch supply' built
    unfold buildDispatch at built
    cases result : emitDispatch method shape ⟨2, [], [], supply⟩ with
    | ok dispatch' p =>
      rw [result] at built
      obtain ⟨rfl, _⟩ := EStateM.Result.ok.inj built
      exact done _ p result
    | error e p =>
      rw [result] at built
      cases built

end
end Lowering

/-- The names of the machine that were generated: those of its fields, its own and those of its cleanups. -/
def Machine.generatedNames (machine : Machine) : List String :=
  machine.fields.map (·.name) ++ [machine.name] ++ machine.cleanups.map (·.name)

/-- No name in the source has a dollar sign. Locals that a counting loop has taken are not from the
source. -/
structure Method.HasPlainNames (method : Method) : Prop where
  name : '$' ∉ method.name.toList
  params : ∀ param ∈ method.params, '$' ∉ param.name.toList
  locals : ∀ l ∈ method.locals, '$' ∉ l.name.toList ∨ Lowering.IsTemporary l

namespace Lowering
open NameSupply (Unnumbered unnumbered_of_last unnumbered_of_plain)

theorem unnumbered_temporary {l : LocalVar} (temporary : IsTemporary l) : Unnumbered l.name := by
  rcases temporary.2 with same | same
  · rw [same]
    exact unnumbered_of_last (c := 'y') (by decide) (by decide)
  · rw [same]
    exact unnumbered_of_last (c := 'x') (by decide) (by decide)

theorem unnumbered_slotBase {method : Method} (plain : method.HasPlainNames) (var : Var) :
    Unnumbered (slotBase method var) := by
  have receiver : Unnumbered "$this" := unnumbered_of_last (c := 's') (by decide) (by decide)
  have fallback : Unnumbered "$var" := unnumbered_of_last (c := 'r') (by decide) (by decide)
  cases var with
  | receiver => exact receiver
  | param index =>
    cases found : method.params[index]? with
    | none => simpa [slotBase, Method.varName?, found] using fallback
    | some param =>
      have name := unnumbered_of_plain (plain.params param (List.mem_of_getElem? found))
      simpa [slotBase, Method.varName?, found] using name
  | loc id =>
    cases found : method.local? id with
    | none => simpa [slotBase, Method.varName?, found] using fallback
    | some l =>
      have name : Unnumbered l.name :=
        (plain.locals l (List.mem_of_find?_eq_some found)).elim unnumbered_of_plain unnumbered_temporary
      simpa [slotBase, Method.varName?, found] using name

theorem hasPlainNames_expanded {method expanded : Method} (plain : method.HasPlainNames)
    (passed : checkStructure method = .ok ()) (expands : expandForeach method = .ok expanded) :
    expanded.HasPlainNames := by
  obtain ⟨new, done, more⟩ := expandForeach_withLoops (known_all method) passed
  rw [expands] at done
  obtain rfl := Except.ok.inj done
  refine ⟨plain.name, plain.params, List.forall_mem_append.mpr ⟨plain.locals, ?_⟩⟩
  exact fun l member => .inr (more.temporary l member)

/-- A lowering asks for unnumbered names only, and uses all of them when it succeeds. -/
theorem draws_lower {method : Method} (plain : method.HasPlainNames) (platform : Platform)
    (options : Options) (supply : NameSupply) :
    Draws id (method.lower platform options) supply
      fun given lowered _ => given.Perm lowered.machine.generatedNames := by
  unfold Method.lower
  apply Draws.checked
  rintro ⟨kind, members⟩ validated
  simp only [Method.validate, except_bind_eq_ok, except_pure_eq_ok] at validated
  obtain ⟨_, _, _, _, _, _, _, passed, _⟩ := validated
  refine .checked fun expanded expands => ?_
  have unnumbered := unnumbered_slotBase (hasPlainNames_expanded plain passed expands)
  apply (draws_buildShape expanded unnumbered kind _ members options supply).bind
  rintro _ shape supply' rfl
  apply (draws_buildDispatch expanded shape supply').bind
  intro given dispatch _ same
  refine .checked fun constructor _ => .checked fun kickoff _ => .checked fun routines routed => .pure ?_
  simp only [Machine.generatedNames, Machine.cleanups, filter_buildRoutines routed,
    map_name_cleanupRoutine, List.append_nil]
  exact same.append_left _

/-- A method to be lowered, with a platform and options of its own. -/
structure Task where
  method : Method
  platform : Platform
  options : Options

def Task.lower (task : Task) : Named Lowered := task.method.lower task.platform task.options

/-- Tasks that are lowered one after another with one supply, and the names that each is given,
whether it succeeds or not. Requests alone change the supply. When a task succeeds, the names it was
given are the generated names of its machine. -/
inductive Given : NameSupply → List Task → List (List String) → Prop where
  | done {supply : NameSupply} : Given supply [] []
  | next {supply : NameSupply} {task : Task} {tasks : List Task} {bases : List String}
      {later : List (List String)} (took : finalState (task.lower supply) = supply.reserve bases)
      (used : ∀ lowered ∈ result? (task.lower supply),
        (supply.issued bases).Perm lowered.machine.generatedNames)
      (rest : Given (finalState (task.lower supply)) tasks later) :
      Given supply (task :: tasks) (supply.issued bases :: later)

theorem exists_given (tasks : List Task) (plain : ∀ task ∈ tasks, task.method.HasPlainNames)
    (supply : NameSupply) : ∃ given, Given supply tasks given := by
  induction tasks generalizing supply with
  | nil => exact ⟨[], .done⟩
  | cons task rest ih =>
    obtain ⟨here, later⟩ := List.forall_mem_cons.mp plain
    obtain ⟨bases, _, took, used⟩ := draws_lower here task.platform task.options supply
    obtain ⟨given, follows⟩ := ih later (finalState (task.lower supply))
    refine ⟨_, .next took ?_ follows⟩
    intro lowered found
    obtain ⟨supply', done⟩ := result?_eq_some.mp found
    exact used lowered supply' done

/-- All names together are those of one series of requests for unnumbered bases. -/
theorem issued_of_given {tasks : List Task} (plain : ∀ task ∈ tasks, task.method.HasPlainNames)
    {supply : NameSupply} {given : List (List String)} (names : Given supply tasks given) :
    ∃ bases, (∀ base ∈ bases, Unnumbered base) ∧ given.flatten = supply.issued bases := by
  induction names with
  | done => exact ⟨[], List.forall_mem_nil _, rfl⟩
  | @next supply task tasks bases later took used rest ih =>
    obtain ⟨here, after⟩ := List.forall_mem_cons.mp plain
    obtain ⟨bases', fine, took', _⟩ := draws_lower here task.platform task.options supply
    have same : bases.Perm bases' := NameSupply.perm_of_reserve_eq (took.symm.trans took')
    obtain ⟨more, fine', flat⟩ := ih after
    refine ⟨bases ++ more, List.forall_mem_append.mpr ⟨?_, fine'⟩, ?_⟩
    · exact fun base member => fine base (same.mem_iff.mp member)
    · rw [List.flatten_cons, flat, took, NameSupply.issued_append]

/-- All names that lowerings with a common supply are given are distinct. -/
theorem nodup_of_given (tasks : List Task) (plain : ∀ task ∈ tasks, task.method.HasPlainNames)
    (supply : NameSupply) :
    (∃ given, Given supply tasks given) ∧ ∀ given, Given supply tasks given → given.flatten.Nodup := by
  refine ⟨exists_given tasks plain supply, fun given names => ?_⟩
  obtain ⟨bases, unnumbered, flat⟩ := issued_of_given plain names
  rw [flat]
  exact supply.nodup_issued unnumbered

end Lowering

/-- Parameters and locals of one name, and of none at all. The second local has a type to choose. -/
def Method.namesakes (ty : Ty) : Method :=
  { Method.draft "x" (.enumerableOf .int) with
    params := [⟨"x", .array .int⟩, ⟨"", .int⟩]
    locals := [⟨0, "x", .int, false⟩, ⟨1, "", ty, false⟩]
    body :=
      [.tryFinally
        [.foreach 0 (.var (.param 0)) [.foreach 1 (.var (.param 0)) [.yield (.ofLocal 1)]]]
        [.eval (.assign (.param 0) .null), .eval (.assign (.param 1) (.int 0))]] }

theorem Method.namesakes_hasPlainNames (ty : Ty) : (namesakes ty).HasPlainNames := by
  refine ⟨?_, ?_, ?_⟩ <;> simp [namesakes, draft]

namespace Lowering

/-- The type of the second one is not declared, so it fails when it has already taken names. -/
def namesakeTasks : List Task :=
  [⟨Method.namesakes .int, .standard, .standard⟩,
    ⟨Method.namesakes (.methodParam 0 "T"), .standard, .standard⟩,
    ⟨Method.namesakes .bool, .standard, .standard⟩]

theorem nodup_of_given_namesakes :
    namesakeTasks.map (fun task => (result? (task.lower .empty)).isSome) = [true, false, true] ∧
    (∀ task ∈ namesakeTasks, task.method.HasPlainNames) ∧
    (∃ given, Given .empty namesakeTasks given) ∧
    ∀ given, Given .empty namesakeTasks given → given.flatten.Nodup := by
  have plain : ∀ task ∈ namesakeTasks, task.method.HasPlainNames := by
    simp only [namesakeTasks, List.forall_mem_cons]
    exact ⟨Method.namesakes_hasPlainNames _, Method.namesakes_hasPlainNames _,
      Method.namesakes_hasPlainNames _, List.forall_mem_nil _⟩
  exact ⟨by decide +kernel, plain, nodup_of_given namesakeTasks plain .empty⟩

end Lowering
end Resumable
