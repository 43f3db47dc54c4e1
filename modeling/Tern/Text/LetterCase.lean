/-
Upper and lower case of whole texts. A letter may grow into several characters, and a capital
sigma is lowered to its final form exactly at the end of a word: when a cased character stands
before it and none stands after it, characters that are passed over left aside.
-/
import Tern.Text.CaseTable

namespace Tern.Text

/-- The form of a character under a table of runs and a table of longer forms. -/
def recase (words : List (Nat × List Nat)) (runs : List CaseRun) (c : Char) : List Char :=
  match words.find? (·.1 == c.toNat) with
  | some (_, word) => word.map Char.ofNat
  | none =>
    match runs.find? (·.covers c.toNat) with
    | some r => [Char.ofNat (c.toNat + r.offset).toNat]
    | none => [c]

/-- The upper form of a character. -/
def upperChar (c : Char) : List Char :=
  if c.toNat < 0x80 then [c.toUpper] else recase upperWords upperRuns c

/-- The lower form of a character that stands alone. -/
def lowerChar (c : Char) : List Char :=
  if c.toNat < 0x80 then [c.toLower] else recase lowerWords lowerRuns c

/-- Whether a cased character comes first once the characters that are passed over are left
aside. -/
def meetsCased (cs : List Char) : Bool :=
  match cs.dropWhile (fun c => caseIgnorable.has c) with
  | [] => false
  | c :: _ => cased.has c

/-- The lower form of a text whose characters before it, the nearest first, are `before`. -/
def lowerAfter : List Char → List Char → List Char
  | _, [] => []
  | before, c :: cs =>
    let form :=
      if c = 'Σ' then
        if meetsCased before && !meetsCased cs then ['ς'] else ['σ']
      else lowerChar c
    form ++ lowerAfter (c :: before) cs

/-- The upper form of a text. -/
def upper (s : String) : String := String.ofList (s.toList.flatMap upperChar)

/-- The lower form of a text. -/
def lower (s : String) : String := String.ofList (lowerAfter [] s.toList)

end Tern.Text
