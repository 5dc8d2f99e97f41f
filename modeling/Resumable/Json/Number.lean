import Resumable.Json

/-!
Numbers in JSON text. A number has to lie in the range of binary floating point
with 53 digits and exponents below 1024, whatever is done with it later. Its size
is judged by its leading digits: those that fit into 64 bits.
-/

namespace Resumable.Json.Reader

def digits (cs : List Char) : List Char × List Char :=
  (cs.takeWhile Char.isDigit, cs.dropWhile Char.isDigit)

def digitValue (d : Char) : Nat := d.toNat - '0'.toNat

def natOfDigits (ds : List Char) : Nat := ds.foldl (fun n d => n * 10 + digitValue d) 0

/-- Appends integer digits to `n` while they fit, and counts those left out. -/
def integerDigits (n : Nat) : List Char → Nat × Nat
  | [] => (n, 0)
  | d :: rest =>
    if n * 10 + digitValue d < 2 ^ 64 then integerDigits (n * 10 + digitValue d) rest
    else (n, rest.length + 1)

/-- Appends fraction digits to `n` while they fit, and counts those taken. -/
def fractionDigits (n : Nat) : List Char → Nat × Nat
  | [] => (n, 0)
  | d :: rest =>
    if n * 10 + digitValue d < 2 ^ 64 then
      let (n, taken) := fractionDigits (n * 10 + digitValue d) rest
      (n, taken + 1)
    else (n, 0)

/-- The nearest number with 53 significant binary digits; a tie goes to the even one. -/
def roundTo53 (n : Nat) : Nat :=
  let unit := 1 <<< (n.log2 + 1 - 53)
  let below := n / unit
  if 2 * (n % unit) < unit then below * unit
  else if unit < 2 * (n % unit) then (below + 1) * unit
  else (below + below % 2) * unit

/-- Whether `n * 10 ^ exponent`, computed with 53 digits, has an exponent below 1024. -/
def inRange (n : Nat) (exponent : Int) : Bool :=
  if n = 0 ∨ exponent < 0 then true
  else if 308 < exponent then false
  else roundTo53 (roundTo53 n * roundTo53 (Nat.pow 10 exponent.toNat)) < 1 <<< 1024

def someDigits? (cs : List Char) : Option (List Char × List Char) :=
  let (ds, rest) := digits cs
  if ds.isEmpty then none else some (ds, rest)

/-- The digits of a fraction, none if there is no fraction here. -/
def fraction? : List Char → Option (List Char × List Char)
  | '.' :: rest => someDigits? rest
  | rest => some ([], rest)

def signedDigits? : List Char → Option (Int × List Char)
  | '-' :: rest => do
    let (ds, rest) ← someDigits? rest
    return (-natOfDigits ds, rest)
  | '+' :: rest => do
    let (ds, rest) ← someDigits? rest
    return (natOfDigits ds, rest)
  | rest => do
    let (ds, rest) ← someDigits? rest
    return (natOfDigits ds, rest)

/-- The exponent, if one stands here. -/
def exponent? : List Char → Option (Option Int × List Char)
  | c :: rest =>
    if c = 'e' ∨ c = 'E' then do
      let (exponent, rest) ← signedDigits? rest
      return (some exponent, rest)
    else
      some (none, c :: rest)
  | [] => some (none, [])

def hasLeadingZero : List Char → Bool
  | '0' :: _ :: _ => true
  | _ => false

/-- A number after its sign. -/
def number? (negative : Bool) (cs : List Char) : Option (Json × List Char) := do
  let (integer, rest) ← someDigits? cs
  let (fraction, rest) ← fraction? rest
  let (exponent, rest) ← exponent? rest
  let (n, left) := integerDigits 0 integer
  let (n, taken) := fractionDigits n fraction
  if hasLeadingZero integer || !inRange n (left - taken + exponent.getD 0) then none
  else if !fraction.isEmpty || exponent.isSome || (negative && integer = ['0']) then
    return (.real, rest)
  else if negative then
    return (.int (-natOfDigits integer), rest)
  else
    return (.int (natOfDigits integer), rest)

end Resumable.Json.Reader
