import Resumable.Proofs.Matching

/-!
Two computations side by side. They keep step when both return the same result or both fail
with the same error, and the states in which they stop are related.
-/

namespace Resumable

namespace Value

theorem onlyData_asInt (value : Value) : OnlyData value.asInt := by
  cases value with
  | int n => exact .ok n
  | _ => exact .error rfl

theorem onlyData_asBool (value : Value) : OnlyData value.asBool := by
  cases value with
  | bool b => exact .ok b
  | _ => exact .error rfl

theorem onlyData_unary (op : UnaryOp) (operand : Value) : OnlyData (unary op operand) := by
  cases op with
  | neg => exact (onlyData_asInt operand).bind fun _ => .ok _
  | not => exact (onlyData_asBool operand).bind fun _ => .ok _

theorem onlyData_arithmetic (op : Int64 → Int64 → Value) (left right : Value) :
    OnlyData (arithmetic op left right) :=
  (onlyData_asInt left).bind fun _ => (onlyData_asInt right).bind fun _ => .ok _

theorem onlyData_divide (op : Int64 → Int64 → Int64) (left right : Value) :
    OnlyData (divide op left right) := by
  refine (onlyData_asInt left).bind fun a => (onlyData_asInt right).bind fun b => ?_
  split
  · exact .error rfl
  · exact .ok _

theorem onlyData_logical (neutral : Bool) (left right : Value) :
    OnlyData (logical neutral left right) := by
  refine (onlyData_asBool left).bind fun a => ?_
  split
  · exact (onlyData_asBool right).bind fun _ => .ok _
  · exact .ok _

theorem onlyData_binary (op : BinaryOp) (left right : Value) : OnlyData (binary op left right) := by
  cases op with
  | eq => exact .ok _
  | ne => exact .ok _
  | and => exact onlyData_logical true left right
  | or => exact onlyData_logical false left right
  | add =>
    by_cases texts : ∃ a b, left = .str a ∧ right = .str b
    · obtain ⟨a, b, rfl, rfl⟩ := texts
      exact .ok _
    · have plain : binary .add left right = arithmetic (fun a b => .int (a + b)) left right := by
        unfold binary
        split <;> simp_all
      exact plain ▸ onlyData_arithmetic _ left right
  | sub | mul | lt | le | gt | ge => exact onlyData_arithmetic _ left right
  | div | rem => exact onlyData_divide _ left right

theorem onlyData_index (base position : Value) : OnlyData (index base position) := by
  cases base with
  | array _ items =>
    refine (onlyData_asInt position).bind fun i => ?_
    unfold item
    split
    · exact .error rfl
    · split
      · exact .ok _
      · exact .error rfl
  | _ => exact .error rfl

theorem onlyData_len (base : Value) : OnlyData (len base) := by
  cases base with
  | array _ items => exact .ok _
  | str text => exact .ok _
  | _ => exact .error rfl

end Value

section
variable {ε σ α β : Type}

/-- Two results that are the same, in states that are related. -/
def Alongside (post : α → σ → σ → Prop) (fault : ε → σ → σ → Prop) :
    EStateM.Result ε σ α → EStateM.Result ε σ α → Prop
  | .ok a s, .ok a' s' => a = a' ∧ post a s s'
  | .error e s, .error e' s' => e = e' ∧ fault e s s'
  | _, _ => False

theorem Alongside.imp {post post' : α → σ → σ → Prop} {fault fault' : ε → σ → σ → Prop}
    {result result' : EStateM.Result ε σ α} (along : Alongside post fault result result')
    (returned : ∀ a s s', post a s s' → post' a s s')
    (failed : ∀ e s s', fault e s s' → fault' e s s') : Alongside post' fault' result result' := by
  cases result with
  | ok a s =>
    cases result' with
    | ok a' s' => exact ⟨along.1, returned a s s' along.2⟩
    | error e' s' => exact along
  | error e s =>
    cases result' with
    | ok a' s' => exact along
    | error e' s' => exact ⟨along.1, failed e s s' along.2⟩

/-- From related states the computations keep step. -/
def InStep (pre : σ → σ → Prop) (post : α → σ → σ → Prop) (fault : ε → σ → σ → Prop)
    (x y : EStateM ε σ α) : Prop :=
  ∀ s s', pre s s' → Alongside post fault (x s) (y s')

namespace InStep
variable {pre : σ → σ → Prop} {fault : ε → σ → σ → Prop}

theorem pure {post : α → σ → σ → Prop} {a : α} (holds : ∀ s s', pre s s' → post a s s') :
    InStep pre post fault (Pure.pure a) (Pure.pure a) :=
  fun s s' related => ⟨rfl, holds s s' related⟩

theorem checked {post : α → σ → σ → Prop} {x : Except ε α}
    (holds : ∀ a, x = .ok a → ∀ s s', pre s s' → post a s s')
    (fails : ∀ e, x = .error e → ∀ s s', pre s s' → fault e s s') :
    InStep pre post fault (Resumable.checked x) (Resumable.checked x) := by
  intro s s' related
  cases x with
  | ok a => exact ⟨rfl, holds a rfl s s' related⟩
  | error e => exact ⟨rfl, fails e rfl s s' related⟩

theorem bind {mid : α → σ → σ → Prop} {post : β → σ → σ → Prop} {x y : EStateM ε σ α}
    {f g : α → EStateM ε σ β} (first : InStep pre mid fault x y)
    (next : ∀ a, InStep (mid a) post fault (f a) (g a)) :
    InStep pre post fault (x >>= f) (y >>= g) := by
  intro s s' related
  have begun := first s s' related
  cases ended : x s with
  | ok a t =>
    cases ended' : y s' with
    | ok a' t' =>
      rw [ended, ended'] at begun
      obtain ⟨rfl, holds⟩ := begun
      rw [bind_of_ok ended, bind_of_ok ended']
      exact next a t t' holds
    | error e' t' =>
      rw [ended, ended'] at begun
      exact begun.elim
  | error e t =>
    cases ended' : y s' with
    | ok a' t' =>
      rw [ended, ended'] at begun
      exact begun.elim
    | error e' t' =>
      rw [ended, ended'] at begun
      rw [bind_of_error ended, bind_of_error ended']
      exact begun

end InStep
end

end Resumable
