import Resumable.Method.Basic

/-!
Decidable equality of types, expressions, statements and methods.
-/

namespace Resumable

namespace Ty

mutual
def same : Ty → Ty → Bool
  | .int, .int => true
  | .bool, .bool => true
  | .str, .str => true
  | .object, .object => true
  | .array a, .array b => same a b
  | .named a as, .named b bs => a = b && sameAll as bs
  | .contract a as, .contract b bs => a = b && sameAll as bs
  | .param a, .param b => a = b
  | _, _ => false

def sameAll : List Ty → List Ty → Bool
  | [], [] => true
  | a :: as, b :: bs => same a b && sameAll as bs
  | _, _ => false
end

mutual
theorem same_iff (a b : Ty) : same a b = true ↔ a = b := by
  cases a with
  | array a => cases b <;> simp [same, same_iff a]
  | named a as => cases b <;> simp [same, sameAll_iff as]
  | contract a as => cases b <;> simp [same, sameAll_iff as]
  | _ => cases b <;> simp [same]

theorem sameAll_iff (as bs : List Ty) : sameAll as bs = true ↔ as = bs := by
  cases as with
  | nil => cases bs <;> simp [sameAll]
  | cons a as => cases bs <;> simp [sameAll, same_iff a, sameAll_iff as]
end

instance : DecidableEq Ty := fun a b => decidable_of_iff _ (same_iff a b)

end Ty

namespace Expr

mutual
def same : Expr → Expr → Bool
  | .int a, .int b => a = b
  | .bool a, .bool b => a = b
  | .str a, .str b => a = b
  | .null, .null => true
  | .var a, .var b => a = b
  | .assign a x, .assign b y => a = b && same x y
  | .unary a x, .unary b y => a = b && same x y
  | .binary a x u, .binary b y v => a = b && same x y && same u v
  | .array xs, .array ys => sameAll xs ys
  | .index x u, .index y v => same x y && same u v
  | .len x, .len y => same x y
  | .call a xs, .call b ys => a = b && sameAll xs ys
  | _, _ => false

def sameAll : List Expr → List Expr → Bool
  | [], [] => true
  | x :: xs, y :: ys => same x y && sameAll xs ys
  | _, _ => false
end

mutual
theorem same_iff (a b : Expr) : same a b = true ↔ a = b := by
  cases a with
  | assign a x => cases b <;> simp [same, same_iff x]
  | unary a x => cases b <;> simp [same, same_iff x]
  | binary a x u => cases b <;> simp [same, same_iff x, same_iff u, and_assoc]
  | array xs => cases b <;> simp [same, sameAll_iff xs]
  | index x u => cases b <;> simp [same, same_iff x, same_iff u]
  | len x => cases b <;> simp [same, same_iff x]
  | call a xs => cases b <;> simp [same, sameAll_iff xs]
  | _ => cases b <;> simp [same]

theorem sameAll_iff (as bs : List Expr) : sameAll as bs = true ↔ as = bs := by
  cases as with
  | nil => cases bs <;> simp [sameAll]
  | cons a as => cases bs <;> simp [sameAll, same_iff a, sameAll_iff as]
end

instance : DecidableEq Expr := fun a b => decidable_of_iff _ (same_iff a b)

end Expr

namespace Stmt

mutual
def same : Stmt → Stmt → Bool
  | .block a, .block b => sameAll a b
  | .declare a x, .declare b y => a = b && x = y
  | .eval a, .eval b => a = b
  | .ite a y none, .ite b z none => a = b && sameAll y z
  | .ite a y (some n), .ite b z (some m) => a = b && sameAll y z && sameAll n m
  | .whileLoop a x, .whileLoop b y => a = b && sameAll x y
  | .forLoop i a s x, .forLoop j b t y => sameAll i j && a = b && s = t && sameAll x y
  | .foreach i a x, .foreach j b y => i = j && a = b && sameAll x y
  | .switch a cs none, .switch b ds none => a = b && sameCases cs ds
  | .switch a cs (some x), .switch b ds (some y) => a = b && sameCases cs ds && sameAll x y
  | .tryFinally a x, .tryFinally b y => sameAll a b && sameAll x y
  | .breakOut, .breakOut => true
  | .continueLoop, .continueLoop => true
  | .yield a, .yield b => a = b
  | .stop, .stop => true
  | _, _ => false

def sameAll : List Stmt → List Stmt → Bool
  | [], [] => true
  | a :: as, b :: bs => same a b && sameAll as bs
  | _, _ => false

def sameCases : List (List Int64 × List Stmt) → List (List Int64 × List Stmt) → Bool
  | [], [] => true
  | (vs, a) :: as, (ws, b) :: bs => vs = ws && sameAll a b && sameCases as bs
  | _, _ => false
end

mutual
theorem same_iff (a b : Stmt) : same a b = true ↔ a = b := by
  cases a with
  | block a => cases b <;> simp [same, sameAll_iff a]
  | ite a y n =>
    cases n with
    | none =>
      cases b with
      | ite b z m => cases m <;> simp [same, sameAll_iff y]
      | _ => simp [same]
    | some n =>
      cases b with
      | ite b z m => cases m <;> simp [same, sameAll_iff y, sameAll_iff n, and_assoc]
      | _ => simp [same]
  | whileLoop a x => cases b <;> simp [same, sameAll_iff x]
  | forLoop i a s x => cases b <;> simp [same, sameAll_iff i, sameAll_iff x, and_assoc]
  | foreach i a x => cases b <;> simp [same, sameAll_iff x, and_assoc]
  | switch a cs d =>
    cases d with
    | none =>
      cases b with
      | switch b ds e => cases e <;> simp [same, sameCases_iff cs]
      | _ => simp [same]
    | some d =>
      cases b with
      | switch b ds e => cases e <;> simp [same, sameCases_iff cs, sameAll_iff d, and_assoc]
      | _ => simp [same]
  | tryFinally a x => cases b <;> simp [same, sameAll_iff a, sameAll_iff x]
  | _ => cases b <;> simp [same]

theorem sameAll_iff (as bs : List Stmt) : sameAll as bs = true ↔ as = bs := by
  cases as with
  | nil => cases bs <;> simp [sameAll]
  | cons a as => cases bs <;> simp [sameAll, same_iff a, sameAll_iff as]

theorem sameCases_iff (as bs : List (List Int64 × List Stmt)) :
    sameCases as bs = true ↔ as = bs := by
  match as, bs with
  | [], [] => simp [sameCases]
  | [], _ :: _ => simp [sameCases]
  | _ :: _, [] => simp [sameCases]
  | (vs, a) :: as, (ws, b) :: bs =>
    simp [sameCases, sameAll_iff a, sameCases_iff as]
end

instance : DecidableEq Stmt := fun a b => decidable_of_iff _ (same_iff a b)

end Stmt

deriving instance DecidableEq for Parameter, LocalVar, Method

end Resumable
