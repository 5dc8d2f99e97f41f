import Resumable.Proofs.Fitting

/-!
What code refers to: labels it may jump to, and the fields, frame variables, parameters and
routines that it mentions. Emitted code mentions the fields of its shape, frame variables and
cleanup routines, and jumps to labels that are placed in it. Code that ends with an exit does not
run past its end.
-/

namespace Resumable

namespace Machine

/-- What code refers to apart from its own labels. -/
inductive Mention where
  | field (id : FieldId)
  | frame (id : LocalId)
  | param (index : Nat)
  | routine (name : String)
deriving DecidableEq

def Place.mentions : Place → List Mention
  | .field id => [.field id]
  | .fieldOf holder id => [.frame holder, .field id]
  | .frame id => [.frame id]

namespace Term

mutual
def mentions : Term → List Mention
  | .load place => place.mentions
  | .param number => [.param number]
  | .assign place value => place.mentions ++ mentions value
  | .unary _ operand => mentions operand
  | .binary _ left right => mentions left ++ mentions right
  | .array items => mentionsAll items
  | .index base position => mentions base ++ mentions position
  | .len base => mentions base
  | .call _ args => mentionsAll args
  | .callSelf name => [.routine name]
  | .construct args => mentionsAll args
  | .int _ | .bool _ | .str _ | .null | .self | .threadId _ => []

def mentionsAll : List Term → List Mention
  | [] => []
  | t :: rest => mentions t ++ mentionsAll rest
end

end Term

namespace Instr

def mentions : Instr → List Mention
  | .gotoUnless cond _ => cond.mentions
  | .switch value _ _ => value.mentions
  | .assign place value => place.mentions ++ value.mentions
  | .eval value => value.mentions
  | .ret (some value) => value.mentions
  | .ret none | .label _ | .goto _ | .raise _ => []

/-- The labels that the instruction may lead to. -/
def targets : Instr → List Label
  | .goto target => [target]
  | .gotoUnless _ target => [target]
  | .switch _ cases default => cases.map (·.2) ++ [default]
  | _ => []

/-- Whether the instruction leaves the routine. -/
def isExit : Instr → Bool
  | .ret _ | .raise _ => true
  | _ => false

end Instr

namespace Code

def mentions (code : Code) : List Mention := code.flatMap Instr.mentions

def targets (code : Code) : List Label := code.flatMap Instr.targets

@[simp] theorem mentions_nil : mentions [] = [] := rfl

@[simp] theorem mentions_cons (instr : Instr) (rest : Code) :
    mentions (instr :: rest) = instr.mentions ++ mentions rest := rfl

@[simp] theorem mentions_append (first second : Code) :
    mentions (first ++ second) = mentions first ++ mentions second := List.flatMap_append

@[simp] theorem targets_nil : targets [] = [] := rfl

@[simp] theorem targets_cons (instr : Instr) (rest : Code) :
    targets (instr :: rest) = instr.targets ++ targets rest := rfl

@[simp] theorem targets_append (first second : Code) :
    targets (first ++ second) = targets first ++ targets second := List.flatMap_append

/-- The last instruction of the code leaves the routine. -/
def Ends (code : Code) : Prop := ∃ front last, code = front ++ [last] ∧ last.isExit

namespace Ends
variable {code rest : Code}

theorem tail {instr : Instr} (ends : Ends (instr :: rest)) (stays : instr.isExit = false) : Ends rest := by
  obtain ⟨front, last, same, exit⟩ := ends
  cases front with
  | nil =>
    obtain rfl := (List.cons.inj same).1
    rw [exit] at stays
    cases stays
  | cons first others => exact ⟨others, last, (List.cons.inj same).2, exit⟩

theorem of_suffix (ends : Ends code) (within : rest <:+ code) (some : rest ≠ []) : Ends rest := by
  obtain ⟨front, last, rfl, exit⟩ := ends
  obtain ⟨before, same⟩ := within
  refine ⟨rest.dropLast, last, ?_, exit⟩
  have lasts := congrArg List.getLast? same
  rw [List.getLast?_append_of_ne_nil _ some, List.getLast?_concat] at lasts
  exact (List.dropLast_append_getLast? last lasts).symm

end Ends

end Code

section
variable {id : LocalId}

theorem Place.mem_frameVars {place : Place} (mentioned : .frame id ∈ place.mentions) :
    id ∈ place.frameVars := by
  cases place <;> simp_all [mentions, frameVars]

mutual
theorem Term.mem_frameVars : (t : Term) → .frame id ∈ t.mentions → id ∈ t.frameVars
  | .load _, mentioned => Place.mem_frameVars mentioned
  | .assign _ value, mentioned => List.mem_append.mpr <|
    (List.mem_append.mp mentioned).imp Place.mem_frameVars value.mem_frameVars
  | .unary _ operand, mentioned => operand.mem_frameVars mentioned
  | .binary _ left right, mentioned => List.mem_append.mpr <|
    (List.mem_append.mp mentioned).imp left.mem_frameVars right.mem_frameVars
  | .array items, mentioned => Term.mem_frameVarsAll items mentioned
  | .index base position, mentioned => List.mem_append.mpr <|
    (List.mem_append.mp mentioned).imp base.mem_frameVars position.mem_frameVars
  | .len base, mentioned => base.mem_frameVars mentioned
  | .call _ args, mentioned => Term.mem_frameVarsAll args mentioned
  | .construct args, mentioned => Term.mem_frameVarsAll args mentioned
  | .param _, mentioned | .callSelf _, mentioned => by simp [Term.mentions] at mentioned
  | .int _, mentioned | .bool _, mentioned | .str _, mentioned | .null, mentioned | .self, mentioned
  | .threadId _, mentioned => by simp [Term.mentions] at mentioned

theorem Term.mem_frameVarsAll : (ts : List Term) → .frame id ∈ Term.mentionsAll ts →
    id ∈ Term.frameVarsAll ts
  | [], mentioned => by simp [Term.mentionsAll] at mentioned
  | t :: rest, mentioned => List.mem_append.mpr <|
    (List.mem_append.mp mentioned).imp t.mem_frameVars (Term.mem_frameVarsAll rest)
end

theorem Instr.mem_frameVars {instr : Instr} (mentioned : .frame id ∈ instr.mentions) :
    id ∈ instr.frameVars := by
  cases instr with
  | gotoUnless cond target => exact cond.mem_frameVars mentioned
  | switch value cases default => exact value.mem_frameVars mentioned
  | assign place value =>
    exact List.mem_append.mpr ((List.mem_append.mp mentioned).imp Place.mem_frameVars value.mem_frameVars)
  | eval value => exact value.mem_frameVars mentioned
  | ret value =>
    cases value with
    | none => cases mentioned
    | some value => exact value.mem_frameVars mentioned
  | _ => cases mentioned

theorem Code.mem_frameVars {code : Code} (mentioned : .frame id ∈ code.mentions) :
    id ∈ code.frameVars := by
  obtain ⟨instr, member, mentioned⟩ := List.mem_flatMap.mp mentioned
  exact List.mem_flatMap.mpr ⟨instr, member, Instr.mem_frameVars mentioned⟩

end
end Machine

namespace Lowering
open Machine (Code Label Mention Point Routine)

theorem frameSymbols_ids {method : Method} {ids : List LocalId} {vars : List Machine.FrameVar}
    (found : frameSymbols method ids = .ok vars) : vars.map (·.id) = ids := by
  induction ids generalizing vars with
  | nil =>
    obtain rfl := Except.ok.inj found
    rfl
  | cons id rest ih =>
    simp only [frameSymbols, except_bind_eq_ok, except_pure_eq_ok] at found
    obtain ⟨l, _, ty, _, others, later, rfl⟩ := found
    rw [List.map_cons, ih later]

/-- Each frame variable of the code has one symbol. -/
theorem flatBody_locals {method : Method} {code : Code} {body : FlatBody}
    (built : flatBody method code = .ok body) {id : LocalId} (used : id ∈ code.frameVars) :
    (body.locals.map (·.id)).count id = 1 := by
  simp only [flatBody, except_bind_eq_ok, except_pure_eq_ok] at built
  obtain ⟨vars, found, rfl⟩ := built
  rw [frameSymbols_ids found]
  have sorted : (sortedSet (fun a b => decide (a < b)) code.frameVars).Pairwise
      fun a b => decide (a < b) := by
    apply pairwise_sortedSet
    · intro a b c less less'
      exact decide_eq_true (Nat.lt_trans (of_decide_eq_true less) (of_decide_eq_true less'))
    · intro a b ne notLess
      exact decide_eq_true (Nat.lt_of_le_of_ne (Nat.le_of_not_lt (of_decide_eq_false notLess)) ne.symm)
  have once : (sortedSet (fun a b => decide (a < b)) code.frameVars).Nodup :=
    sorted.imp fun less => Nat.ne_of_lt (decide_eq_true_eq.mp less)
  apply List.count_eq_one_of_mem once
  rwa [mem_sortedSet]

/-- What code for a shape mentions, calls of the routines in `called` included. -/
def Shape.Mentions (shape : Shape) (called : String → Prop) : Mention → Prop
  | .field id => id ∈ shape.fields.map (·.id)
  | .frame _ => True
  | .param _ => False
  | .routine name => called name

theorem Shape.Bears.mem {shape : Shape} {id : Machine.FieldId} {role : Machine.Role}
    (bears : shape.Bears id role) : id ∈ shape.fields.map (·.id) := by
  obtain ⟨field, member, rfl, _⟩ := bears
  exact List.mem_map_of_mem member

section
variable {shape : Shape} {called : String → Prop}

theorem place_mentions (sound : shape.Sound) {var : Var} {place : Machine.Place} (placed : shape.place var = .ok place) :
    ∀ mention ∈ place.mentions, shape.Mentions called mention := by
  unfold Shape.place at placed
  split at placed
  · next slot =>
    obtain rfl := Except.ok.inj placed
    simpa [Machine.Place.mentions, Shape.Mentions] using (sound.slot slot).mem
  · obtain rfl := Except.ok.inj placed
    simp [Machine.Place.mentions, Shape.Mentions]
  · cases placed

mutual
theorem term_mentions (sound : shape.Sound) : (e : Expr) → {t : Machine.Term} → shape.term e = .ok t →
    ∀ mention ∈ t.mentions, shape.Mentions called mention
  | .int _, t, lowered | .bool _, t, lowered | .str _, t, lowered | .null, t, lowered => by
    obtain rfl := Except.ok.inj lowered
    nofun
  | .var var, t, lowered => by
    simp only [Shape.term, except_bind_eq_ok, except_pure_eq_ok] at lowered
    obtain ⟨place, placed, rfl⟩ := lowered
    exact place_mentions sound placed
  | .assign var value, t, lowered => by
    simp only [Shape.term, except_bind_eq_ok, except_pure_eq_ok] at lowered
    obtain ⟨place, placed, value', loweredValue, rfl⟩ := lowered
    exact List.forall_mem_append.mpr ⟨place_mentions sound placed, term_mentions sound value loweredValue⟩
  | .unary op operand, t, lowered => by
    simp only [Shape.term, except_bind_eq_ok, except_pure_eq_ok] at lowered
    obtain ⟨operand', loweredOperand, rfl⟩ := lowered
    exact fun mention => term_mentions sound operand loweredOperand mention
  | .binary op left right, t, lowered => by
    simp only [Shape.term, except_bind_eq_ok, except_pure_eq_ok] at lowered
    obtain ⟨left', loweredLeft, right', loweredRight, rfl⟩ := lowered
    exact List.forall_mem_append.mpr ⟨term_mentions sound left loweredLeft, term_mentions sound right loweredRight⟩
  | .array items, t, lowered => by
    simp only [Shape.term, except_bind_eq_ok, except_pure_eq_ok] at lowered
    obtain ⟨items', loweredItems, rfl⟩ := lowered
    exact fun mention => terms_mentions sound items loweredItems mention
  | .index base position, t, lowered => by
    simp only [Shape.term, except_bind_eq_ok, except_pure_eq_ok] at lowered
    obtain ⟨base', loweredBase, position', loweredPosition, rfl⟩ := lowered
    exact List.forall_mem_append.mpr
      ⟨term_mentions sound base loweredBase, term_mentions sound position loweredPosition⟩
  | .len base, t, lowered => by
    simp only [Shape.term, except_bind_eq_ok, except_pure_eq_ok] at lowered
    obtain ⟨base', loweredBase, rfl⟩ := lowered
    exact fun mention => term_mentions sound base loweredBase mention
  | .call callee args, t, lowered => by
    simp only [Shape.term, except_bind_eq_ok, except_pure_eq_ok] at lowered
    obtain ⟨args', loweredArgs, rfl⟩ := lowered
    exact fun mention => terms_mentions sound args loweredArgs mention

theorem terms_mentions (sound : shape.Sound) : (es : List Expr) → {ts : List Machine.Term} → shape.terms es = .ok ts →
    ∀ mention ∈ Machine.Term.mentionsAll ts, shape.Mentions called mention
  | [], ts, lowered => by
    obtain rfl := Except.ok.inj lowered
    nofun
  | e :: rest, ts, lowered => by
    simp only [Shape.terms, except_bind_eq_ok, except_pure_eq_ok] at lowered
    obtain ⟨t, loweredFirst, others, loweredRest, rfl⟩ := lowered
    exact List.forall_mem_append.mpr ⟨term_mentions sound e loweredFirst, terms_mentions sound rest loweredRest⟩
end

end

section
variable {pair : Pairing} {marks : Landmarks} {scope after : List LocalId} {code code' : Code}

/-- Emitted code mentions the fields of its shape, frame variables and known cleanup routines. -/
theorem Twin.mentions (twin : Twin pair marks scope code code' after) (sound : pair.left.Sound) :
    ∀ mention ∈ code.mentions,
      pair.left.Mentions (fun name => ∃ name', marks.called name name') mention := by
  have state : pair.left.state ∈ pair.left.fields.map (·.id) := sound.state.mem
  have current : pair.left.current ∈ pair.left.fields.map (·.id) := sound.current.mem
  have term {scope : List LocalId} {t t' : Machine.Term} (terms : pair.Terms scope t t') :
      ∀ mention ∈ t.mentions,
        pair.left.Mentions (fun name => ∃ name', marks.called name name') mention := by
    obtain ⟨e, _, lowered, _⟩ := terms
    exact term_mentions sound e lowered
  induction twin with
  | nil _ => nofun
  | @mark _ _ _ _ mark _ _ _ _ ih =>
    rw [Machine.Code.mentions_append]
    refine List.forall_mem_append.mpr ⟨?_, ih⟩
    unfold Mark.opening
    split
    · exact List.forall_mem_cons.mpr ⟨state, nofun⟩
    · nofun
  | goto _ _ ih => exact ih
  | branch terms _ _ ih => exact List.forall_mem_append.mpr ⟨term terms, ih⟩
  | switch terms _ _ _ ih => exact List.forall_mem_append.mpr ⟨term terms, ih⟩
  | declare terms placed _ _ ih =>
    exact List.forall_mem_append.mpr
      ⟨List.forall_mem_append.mpr ⟨place_mentions sound placed, term terms⟩, ih⟩
  | assign _ placed _ lowered _ _ ih =>
    exact List.forall_mem_append.mpr
      ⟨List.forall_mem_append.mpr ⟨place_mentions sound placed, term_mentions sound _ lowered⟩, ih⟩
  | eval terms _ ih => exact List.forall_mem_append.mpr ⟨term terms, ih⟩
  | cleanup called _ _ _ ih => exact List.forall_mem_cons.mpr ⟨⟨_, called⟩, ih⟩
  | pause terms _ _ ih =>
    refine List.forall_mem_append.mpr ⟨List.forall_mem_cons.mpr ⟨current, term terms⟩, ?_⟩
    exact List.forall_mem_cons.mpr ⟨state, ih⟩
  | finish _ _ ih => exact List.forall_mem_cons.mpr ⟨state, ih⟩
  | leave _ _ ih => exact ih

/-- Emitted code jumps to known labels only. -/
theorem Twin.targets (twin : Twin pair marks scope code code' after) :
    ∀ target ∈ code.targets, ∃ mark, marks.placed mark ∧ mark.label = target := by
  have known {scope : List LocalId} {target : Label} (admits : marks.Admits scope target) :
      ∃ mark, marks.placed mark ∧ mark.label = target := by
    obtain ⟨mark, placed, same, _⟩ := admits
    exact ⟨mark, placed, same⟩
  induction twin with
  | nil _ => nofun
  | @mark _ _ _ _ mark _ _ _ _ ih =>
    have none : Machine.Code.targets (mark.opening pair.left) = [] := by
      unfold Mark.opening
      split <;> rfl
    rw [Machine.Code.targets_append, none]
    exact ih
  | goto admits _ ih => exact List.forall_mem_cons.mpr ⟨known admits, ih⟩
  | branch _ admits _ ih => exact List.forall_mem_cons.mpr ⟨known admits, ih⟩
  | switch _ admits arms _ ih =>
    refine List.forall_mem_append.mpr ⟨List.forall_mem_append.mpr ⟨?_, by simpa using known admits⟩, ih⟩
    intro target member
    obtain ⟨arm, among, rfl⟩ := List.mem_map.mp member
    exact known (arms arm among)
  | declare _ _ _ _ ih | assign _ _ _ _ _ _ ih | eval _ _ ih | cleanup _ _ _ _ ih | pause _ _ _ ih
  | finish _ _ ih | leave _ _ ih => exact ih

end

end Lowering
end Resumable
