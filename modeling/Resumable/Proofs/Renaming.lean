import Mathlib.Data.List.Forall2
import Resumable.Value.Operators

/-!
Values up to the identities of arrays. Two runs of one method number their arrays
differently, but consistently: no operator tells their values apart.
-/

namespace Resumable

/-- Which identity in one run stands for which identity in another. -/
abbrev Renaming := Nat → Nat → Prop

namespace Renaming

def Extends (old new : Renaming) : Prop := ∀ a b, old a b → new a b

theorem Extends.refl (names : Renaming) : names.Extends names := fun _ _ linked => linked

theorem Extends.trans {first second third : Renaming} (earlier : first.Extends second)
    (later : second.Extends third) : first.Extends third :=
  fun a b linked => later a b (earlier a b linked)

/-- Equal identities stand for equal ones, and distinct for distinct. -/
def Consistent (names : Renaming) : Prop :=
  ∀ a b a' b', names a b → names a' b' → (a = a' ↔ b = b')

/-- A consistent renaming of the identities below two counters. -/
structure Between (names : Renaming) (left right : Nat) : Prop where
  consistent : names.Consistent
  below : ∀ a b, names a b → a < left ∧ b < right

/-- The renaming after one more array in both runs. -/
def link (names : Renaming) (left right : Nat) : Renaming :=
  fun a b => names a b ∨ (a = left ∧ b = right)

theorem extends_link (names : Renaming) (left right : Nat) :
    names.Extends (names.link left right) :=
  fun _ _ linked => .inl linked

theorem link_self (names : Renaming) (left right : Nat) : names.link left right left right :=
  .inr ⟨rfl, rfl⟩

theorem Between.link {names : Renaming} {left right : Nat} (between : names.Between left right) :
    (names.link left right).Between (left + 1) (right + 1) where
  consistent := by
    rintro a b a' b' (old | ⟨rfl, rfl⟩) (old' | ⟨rfl, rfl⟩)
    · exact between.consistent a b a' b' old old'
    · have := between.below a b old
      omega
    · have := between.below a' b' old'
      omega
    · simp
  below := by
    rintro a b (old | ⟨rfl, rfl⟩)
    · have := between.below a b old
      omega
    · omega

theorem Between.mono {names : Renaming} {left right left' right' : Nat}
    (between : names.Between left right) (more : left ≤ left') (more' : right ≤ right') :
    names.Between left' right' where
  consistent := between.consistent
  below a b linked := by
    have := between.below a b linked
    omega

/-- Identities below `count` stand for themselves. -/
def fixing (count : Nat) : Renaming := fun a b => a = b ∧ a < count

theorem between_fixing (count : Nat) : (fixing count).Between count count where
  consistent := by
    rintro a b a' b' ⟨rfl, _⟩ ⟨rfl, _⟩
    exact Iff.rfl
  below := by
    rintro a b ⟨rfl, small⟩
    exact ⟨small, small⟩

end Renaming

namespace Value

mutual
/-- Equal but for the identities of arrays. -/
inductive Alike (names : Renaming) : Value → Value → Prop where
  | int (n : Int64) : Alike names (.int n) (.int n)
  | bool (b : Bool) : Alike names (.bool b) (.bool b)
  | str (text : String) : Alike names (.str text) (.str text)
  | null : Alike names .null .null
  | array {a b : Nat} {items items' : List Value} :
    names a b → AlikeAll names items items' → Alike names (.array a items) (.array b items')
  | object (reference : Nat) : Alike names (.object reference) (.object reference)

inductive AlikeAll (names : Renaming) : List Value → List Value → Prop where
  | nil : AlikeAll names [] []
  | cons {v v' : Value} {rest rest' : List Value} :
    Alike names v v' → AlikeAll names rest rest' → AlikeAll names (v :: rest) (v' :: rest')
end

section
variable {names more : Renaming}

mutual
theorem Alike.mono (wider : names.Extends more) {v v' : Value} :
    Alike names v v' → Alike more v v'
  | .int n => .int n
  | .bool b => .bool b
  | .str text => .str text
  | .null => .null
  | .array linked items => .array (wider _ _ linked) (AlikeAll.mono wider items)
  | .object reference => .object reference

theorem AlikeAll.mono (wider : names.Extends more) {vs vs' : List Value} :
    AlikeAll names vs vs' → AlikeAll more vs vs'
  | .nil => .nil
  | .cons first rest => .cons (first.mono wider) (AlikeAll.mono wider rest)
end

theorem AlikeAll.append {vs vs' ws ws' : List Value} (first : AlikeAll names vs vs')
    (second : AlikeAll names ws ws') : AlikeAll names (vs ++ ws) (vs' ++ ws') := by
  induction vs generalizing vs' with
  | nil =>
    cases first
    exact second
  | cons v rest ih =>
    cases first with
    | cons alike others => exact .cons alike (ih others)

theorem AlikeAll.length_eq {vs vs' : List Value} (alike : AlikeAll names vs vs') :
    vs.length = vs'.length := by
  induction vs generalizing vs' with
  | nil => cases alike with | nil => rfl
  | cons v rest ih =>
    cases alike with
    | cons _ others => simp [ih others]

theorem AlikeAll.getElem? {vs vs' : List Value} (alike : AlikeAll names vs vs') (i : Nat) :
    Option.Rel (Alike names) vs[i]? vs'[i]? := by
  induction vs generalizing vs' i with
  | nil =>
    cases alike
    exact .none
  | cons v rest ih =>
    cases alike with
    | cons first others =>
      cases i with
      | zero => exact .some first
      | succ i => exact ih others i

/-- Only a consistent renaming keeps equality of arrays. -/
theorem Alike.equals_eq (consistent : names.Consistent) {v v' w w' : Value}
    (left : Alike names v v') (right : Alike names w w') : v.equals w = v'.equals w' := by
  cases left with
  | array linked _ =>
    cases right with
    | array linked' _ => simp only [equals, consistent _ _ _ _ linked linked']
    | _ => rfl
  | _ => cases right <;> rfl

end

section
variable {names : Renaming}

mutual
/-- No array in the value has an identity of `count` or above. -/
def Below (count : Nat) : Value → Prop
  | .array identity items => identity < count ∧ BelowAll count items
  | _ => True

def BelowAll (count : Nat) : List Value → Prop
  | [] => True
  | v :: rest => Below count v ∧ BelowAll count rest
end

mutual
theorem alike_self {count : Nat} (fixed : ∀ a, a < count → names a a) :
    (v : Value) → v.Below count → Alike names v v
  | .int n, _ => .int n
  | .bool b, _ => .bool b
  | .str text, _ => .str text
  | .null, _ => .null
  | .array a items, small => by
    rw [Below] at small
    exact .array (fixed a small.1) (alikeAll_self fixed items small.2)
  | .object reference, _ => .object reference

theorem alikeAll_self {count : Nat} (fixed : ∀ a, a < count → names a a) :
    (vs : List Value) → BelowAll count vs → AlikeAll names vs vs
  | [], _ => .nil
  | v :: rest, small => by
    rw [BelowAll] at small
    exact .cons (alike_self fixed v small.1) (alikeAll_self fixed rest small.2)
end

theorem BelowAll.getElem? {count : Nat} {vs : List Value} (small : BelowAll count vs) {i : Nat}
    {v : Value} (found : vs[i]? = some v) : v.Below count := by
  induction vs generalizing i with
  | nil => simp at found
  | cons first rest ih =>
    rw [BelowAll] at small
    cases i with
    | zero =>
      simp only [List.getElem?_cons_zero, Option.some.injEq] at found
      exact found ▸ small.1
    | succ i => exact ih small.2 (by simpa using found)

end
end Value

/-- Two checks that fail alike, or succeed with related results. -/
inductive Parallel {ε α β : Type} (related : α → β → Prop) : Except ε α → Except ε β → Prop where
  | ok {a : α} {b : β} : related a b → Parallel related (.ok a) (.ok b)
  | error (e : ε) : Parallel related (.error e) (.error e)

namespace Parallel
variable {ε α β γ : Type} {related : α → β → Prop}

/-- The same check on both sides, with related results where it succeeds. -/
theorem of_same {x : Except ε γ} {f : γ → Except ε α} {g : γ → Except ε β}
    (next : ∀ c, Parallel related (f c) (g c)) : Parallel related (x >>= f) (x >>= g) := by
  cases x with
  | ok c => exact next c
  | error e => exact .error e

end Parallel

namespace Value
variable {names : Renaming} {v v' w w' : Value}

theorem Alike.asInt_eq (alike : Alike names v v') : v.asInt = v'.asInt := by
  cases alike <;> rfl

theorem Alike.asBool_eq (alike : Alike names v v') : v.asBool = v'.asBool := by
  cases alike <;> rfl

theorem Alike.unary (op : UnaryOp) (alike : Alike names v v') :
    Parallel (Alike names) (Value.unary op v) (Value.unary op v') := by
  cases op with
  | neg =>
    simp only [Value.unary, ← alike.asInt_eq]
    exact .of_same fun n => .ok (.int _)
  | not =>
    simp only [Value.unary, ← alike.asBool_eq]
    exact .of_same fun b => .ok (.bool _)

theorem Alike.arithmetic {op : Int64 → Int64 → Value} (plain : ∀ a b, Alike names (op a b) (op a b))
    (left : Alike names v v') (right : Alike names w w') :
    Parallel (Alike names) (Value.arithmetic op v w) (Value.arithmetic op v' w') := by
  simp only [Value.arithmetic, ← left.asInt_eq, ← right.asInt_eq]
  exact .of_same fun a => .of_same fun b => .ok (plain a b)

theorem Alike.divide (op : Int64 → Int64 → Int64) (left : Alike names v v')
    (right : Alike names w w') :
    Parallel (Alike names) (Value.divide op v w) (Value.divide op v' w') := by
  simp only [Value.divide, ← left.asInt_eq, ← right.asInt_eq]
  refine .of_same fun a => .of_same fun b => ?_
  split
  · exact .error _
  · exact .ok (.int _)

theorem Alike.logical (neutral : Bool) (left : Alike names v v') (right : Alike names w w') :
    Parallel (Alike names) (Value.logical neutral v w) (Value.logical neutral v' w') := by
  simp only [Value.logical, ← left.asBool_eq, ← right.asBool_eq]
  refine .of_same fun a => ?_
  split
  · exact .of_same fun b => .ok (.bool b)
  · exact .ok (.bool a)

theorem Alike.add (left : Alike names v v') (right : Alike names w w') :
    Parallel (Alike names) (Value.binary .add v w) (Value.binary .add v' w') := by
  have numbers := left.arithmetic (fun a b => .int (a + b)) right
  cases left with
  | str a =>
    cases right with
    | str b => exact .ok (.str (a ++ b))
    | _ => exact numbers
  | _ => exact numbers

theorem Alike.binary (consistent : names.Consistent) (op : BinaryOp) (left : Alike names v v')
    (right : Alike names w w') :
    Parallel (Alike names) (Value.binary op v w) (Value.binary op v' w') := by
  have same := left.equals_eq consistent right
  cases op with
  | add => exact left.add right
  | sub => exact left.arithmetic (fun a b => .int (a - b)) right
  | mul => exact left.arithmetic (fun a b => .int (a * b)) right
  | div => exact left.divide (· / ·) right
  | rem => exact left.divide (· % ·) right
  | eq =>
    simp only [Value.binary, same]
    exact .ok (.bool _)
  | ne =>
    simp only [Value.binary, same]
    exact .ok (.bool _)
  | lt => exact left.arithmetic (fun a b => .bool (decide (a < b))) right
  | le => exact left.arithmetic (fun a b => .bool (decide (a ≤ b))) right
  | gt => exact left.arithmetic (fun a b => .bool (decide (b < a))) right
  | ge => exact left.arithmetic (fun a b => .bool (decide (b ≤ a))) right
  | and => exact left.logical true right
  | or => exact left.logical false right

theorem AlikeAll.item {items items' : List Value} (alike : AlikeAll names items items')
    (position : Int64) :
    Parallel (Alike names) (Value.item items position) (Value.item items' position) := by
  simp only [Value.item, ← alike.length_eq]
  split
  · exact .error _
  · have found := alike.getElem? position.toInt.toNat
    revert found
    generalize items[position.toInt.toNat]? = here
    generalize items'[position.toInt.toNat]? = there
    intro found
    cases found with
    | none => exact .error _
    | some alike => exact .ok alike

theorem Alike.index (base : Alike names v v') (position : Alike names w w') :
    Parallel (Alike names) (Value.index v w) (Value.index v' w') := by
  cases base with
  | array _ items =>
    simp only [Value.index, ← position.asInt_eq]
    exact .of_same fun i => items.item i
  | _ => exact .error _

theorem Alike.len (base : Alike names v v') :
    Parallel (Alike names) (Value.len v) (Value.len v') := by
  cases base with
  | array _ items =>
    simp only [Value.len, ← items.length_eq]
    exact .ok (.int _)
  | str text => exact .ok (.int _)
  | _ => exact .error _

end Value

namespace HostCall

/-- The same function called with arguments that are alike. -/
def Alike (names : Renaming) (call call' : HostCall) : Prop :=
  call.callee = call'.callee ∧ Value.AlikeAll names call.args call'.args

/-- Logs of the same calls in the same order. -/
def AlikeAll (names : Renaming) (calls calls' : List HostCall) : Prop :=
  List.Forall₂ (HostCall.Alike names) calls calls'

theorem AlikeAll.mono {names more : Renaming} (wider : names.Extends more)
    {calls calls' : List HostCall} (alike : AlikeAll names calls calls') :
    AlikeAll more calls calls' :=
  List.Forall₂.imp (fun _ _ both => ⟨both.1, both.2.mono wider⟩) alike

theorem AlikeAll.append {names : Renaming} {calls calls' more more' : List HostCall}
    (first : AlikeAll names calls calls') (second : AlikeAll names more more') :
    AlikeAll names (calls ++ more) (calls' ++ more') :=
  List.rel_append first second

end HostCall
end Resumable
