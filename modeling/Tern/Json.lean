/-
JSON documents and their indented form: two blanks a level, one entry a line.
-/
import Tern.Number.Printed

namespace Tern

/-- A JSON document. -/
inductive Json where
  | null
  | natural (value : Nat)
  | number (value : Float)
  | text (value : String)
  | array (items : List Json)
  | object (fields : List (String × Json))

namespace Json

/-- A digit of base sixteen. -/
def hexDigit (n : Nat) : Char := if n < 10 then Char.ofNat (48 + n) else Char.ofNat (87 + n)

/-- A character inside a string: quotes, backslashes and control characters are escaped. -/
def escape (c : Char) : List Char :=
  if c = '"' then ['\\', '"']
  else if c = '\\' then ['\\', '\\']
  else if c = '\n' then ['\\', 'n']
  else if c = '\r' then ['\\', 'r']
  else if c = '\t' then ['\\', 't']
  else if c = '\x08' then ['\\', 'b']
  else if c = '\x0c' then ['\\', 'f']
  else if c.toNat < 32 then
    ['\\', 'u', '0', '0', hexDigit (c.toNat / 16), hexDigit (c.toNat % 16)]
  else [c]

/-- A string with its quotes. -/
def quote (s : String) : String := "\"" ++ String.ofList (s.toList.flatMap escape) ++ "\""

/-- A line end and the blanks before the next line. -/
def newline (depth : Nat) : String := "\n" ++ String.ofList (List.replicate (2 * depth) ' ')

mutual

/-- The indented form of a document at a depth. -/
def prettyAt (depth : Nat) : Json → String
  | .null => "null"
  | .natural n => toString n
  | .number x => Number.printData x
  | .text s => quote s
  | .array [] => "[]"
  | .array items =>
    "[" ++ newline (depth + 1) ++ prettyItems (depth + 1) items ++ newline depth ++ "]"
  | .object [] => "\x7b\x7d"
  | .object fields =>
    "\x7b" ++ newline (depth + 1) ++ prettyFields (depth + 1) fields ++ newline depth ++ "\x7d"

/-- Items on lines of their own. -/
def prettyItems (depth : Nat) : List Json → String
  | [] => ""
  | [j] => prettyAt depth j
  | j :: k :: rest => prettyAt depth j ++ "," ++ newline depth ++ prettyItems depth (k :: rest)

/-- Fields on lines of their own. -/
def prettyFields (depth : Nat) : List (String × Json) → String
  | [] => ""
  | [(name, j)] => quote name ++ ": " ++ prettyAt depth j
  | (name, j) :: next :: rest =>
    quote name ++ ": " ++ prettyAt depth j ++ "," ++ newline depth ++
      prettyFields depth (next :: rest)

end

/-- The indented form of a document. -/
def pretty (j : Json) : String := j.prettyAt 0

end Json

end Tern
