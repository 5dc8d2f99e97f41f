import Resumable.Json.Number

/-!
Reading JSON text. The grammar is the strict one: no leading zeros, no bare control
characters, no half of a surrogate pair. Of two fields with one name the last counts.
-/

namespace Resumable.Json.Reader

def isBlank (c : Char) : Bool := c = ' ' || c = '\t' || c = '\n' || c = '\r'

def skipBlanks (cs : List Char) : List Char := cs.dropWhile isBlank

def hexDigit? (c : Char) : Option Nat :=
  if '0' ≤ c ∧ c ≤ '9' then some (c.toNat - '0'.toNat)
  else if 'a' ≤ c ∧ c ≤ 'f' then some (c.toNat - 'a'.toNat + 10)
  else if 'A' ≤ c ∧ c ≤ 'F' then some (c.toNat - 'A'.toNat + 10)
  else none

/-- The unit written by the four hexadecimal digits of an escape. -/
def unit? (a b c d : Char) : Option Nat := do
  let a ← hexDigit? a
  let b ← hexDigit? b
  let c ← hexDigit? c
  let d ← hexDigit? d
  return ((a * 16 + b) * 16 + c) * 16 + d

/-- The character of an escape with one letter. -/
def escaped? : Char → Option Char
  | '"' => some '"'
  | '\\' => some '\\'
  | '/' => some '/'
  | 'b' => some '\x08'
  | 'f' => some '\x0c'
  | 'n' => some '\n'
  | 'r' => some '\r'
  | 't' => some '\t'
  | _ => none

def isHigh (unit : Nat) : Bool := 0xd800 ≤ unit && unit < 0xdc00

def isLow (unit : Nat) : Bool := 0xdc00 ≤ unit && unit < 0xe000

def pairedChar (high low : Nat) : Char :=
  Char.ofNat (0x10000 + (high - 0xd800) * 0x400 + (low - 0xdc00))

/-- The rest of a string after `done`; `high` is a first half that waits for its second. -/
def stringRest? (done : String) (high : Option Nat) : List Char → Option (String × List Char)
  | [] => none
  | c :: rest =>
    if c = '\\' then
      match rest with
      | [] => none
      | letter :: rest =>
        if letter = 'u' then
          match rest with
          | a :: b :: c :: d :: rest => do
            let unit ← unit? a b c d
            match high with
            | some first =>
              if isLow unit then stringRest? (done.push (pairedChar first unit)) none rest
              else none
            | none =>
              if isHigh unit then stringRest? done (some unit) rest
              else if isLow unit then none
              else stringRest? (done.push (Char.ofNat unit)) none rest
          | _ => none
        else if high.isSome then none
        else do
          let c ← escaped? letter
          stringRest? (done.push c) none rest
    else if high.isSome then none
    else if c = '"' then some (done, rest)
    else if c.toNat < 0x20 then none
    else stringRest? (done.push c) none rest

def setField (fields : List (String × Json)) (key : String) (value : Json) :
    List (String × Json) :=
  (fields.filter fun field => field.1 ≠ key) ++ [(key, value)]

mutual
/-- The value at the head of a text, in at most `steps` steps. -/
def value? (steps : Nat) (cs : List Char) : Option (Json × List Char) :=
  match steps with
  | 0 => none
  | steps + 1 =>
    match skipBlanks cs with
    | 'n' :: 'u' :: 'l' :: 'l' :: rest => some (.null, rest)
    | 't' :: 'r' :: 'u' :: 'e' :: rest => some (.bool true, rest)
    | 'f' :: 'a' :: 'l' :: 's' :: 'e' :: rest => some (.bool false, rest)
    | '"' :: rest => do
      let (s, rest) ← stringRest? "" none rest
      return (.str s, rest)
    | '[' :: rest =>
      match skipBlanks rest with
      | ']' :: rest => some (.arr [], rest)
      | rest => items? steps [] rest
    | '\x7b' :: rest =>
      match skipBlanks rest with
      | '\x7d' :: rest => some (.obj [], rest)
      | rest => fields? steps [] rest
    | '-' :: rest => number? true rest
    | rest => number? false rest

/-- The rest of an array whose items so far are `done`, the last one first. -/
def items? (steps : Nat) (done : List Json) (cs : List Char) : Option (Json × List Char) :=
  match steps with
  | 0 => none
  | steps + 1 => do
    let (item, rest) ← value? steps cs
    match skipBlanks rest with
    | ',' :: rest => items? steps (item :: done) rest
    | ']' :: rest => some (.arr (item :: done).reverse, rest)
    | _ => none

/-- The rest of an object whose fields so far are `done`. -/
def fields? (steps : Nat) (done : List (String × Json)) (cs : List Char) :
    Option (Json × List Char) :=
  match steps with
  | 0 => none
  | steps + 1 =>
    match skipBlanks cs with
    | '"' :: rest => do
      let (key, rest) ← stringRest? "" none rest
      match skipBlanks rest with
      | ':' :: rest => do
        let (value, rest) ← value? steps rest
        match skipBlanks rest with
        | ',' :: rest => fields? steps (setField done key value) rest
        | '\x7d' :: rest => some (.obj (setField done key value), rest)
        | _ => none
      | _ => none
    | _ => none
end

end Reader

/-- The document that a text holds. Every second step reads at least one character. -/
def parse? (text : String) : Option Json := do
  let cs := text.toList
  let (value, rest) ← Reader.value? (2 * cs.length + 1) cs
  if (Reader.skipBlanks rest).isEmpty then some value else none

end Resumable.Json
