import Resumable.Json

/-!
Writing JSON text without blanks. Characters below a blank are escaped and all
others are written as they are.
-/

namespace Resumable.Json

/-- A number below `16 ^ 4` with four hexadecimal digits. -/
def unitText (n : Nat) : String :=
  let ds := Nat.toDigits 16 n
  String.ofList (List.replicate (4 - ds.length) '0' ++ ds)

def writeChar (done : String) (c : Char) : String :=
  if c = '"' then done ++ "\\\""
  else if c = '\\' then done ++ "\\\\"
  else if c.toNat < 0x20 then done ++ "\\u" ++ unitText c.toNat
  else done.push c

def writeString (done text : String) : String :=
  (text.toList.foldl writeChar (done.push '"')).push '"'

mutual
def write (done : String) : Json → String
  | .null | .real => done ++ "null"
  | .bool true => done ++ "true"
  | .bool false => done ++ "false"
  | .int n => done ++ toString n
  | .str s => writeString done s
  | .arr items => (writeItems (done.push '[') items).push ']'
  | .obj fields => (writeFields (done.push '\x7b') fields).push '\x7d'

def writeItems (done : String) : List Json → String
  | [] => done
  | [item] => write done item
  | item :: rest => writeItems ((write done item).push ',') rest

def writeFields (done : String) : List (String × Json) → String
  | [] => done
  | [(key, value)] => write ((writeString done key).push ':') value
  | (key, value) :: rest =>
    writeFields ((write ((writeString done key).push ':') value).push ',') rest
end

def text (json : Json) : String := json.write ""

end Resumable.Json
