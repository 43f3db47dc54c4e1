/-
Quoted texts, the form in which a text is shown inside a collection or a syntax tree: double
quotes around it, a two-character escape for the quote, the backslash and the common controls,
and the code point in braces for every other character that can not be shown as it is.
-/
import Tern.Text.Visible

namespace Tern.Text

/-- A character by its code point in hexadecimal digits. -/
def escapeCode (c : Char) : List Char :=
  '\\' :: 'u' :: '\x7b' :: (Nat.toDigits 16 c.toNat ++ ['\x7d'])

/-- How a quoted text writes one character. -/
def escape (c : Char) : List Char :=
  match c with
  | '\x00' => ['\\', '0']
  | '\t' => ['\\', 't']
  | '\r' => ['\\', 'r']
  | '\n' => ['\\', 'n']
  | '"' => ['\\', '"']
  | '\\' => ['\\', '\\']
  | _ => if isVisible c then [c] else escapeCode c

/-- The quoted form of a list of characters. -/
def quoteChars (cs : List Char) : List Char :=
  '"' :: (cs.flatMap escape ++ ['"'])

/-- The quoted form of a text. -/
def quote (s : String) : String := String.ofList (quoteChars s.toList)

/-- How a quoted file name writes one character: like a text, but the single quote is escaped
too. -/
def escapeInName (c : Char) : List Char := if c = '\'' then ['\\', '\''] else escape c

/-- The quoted form of a file name. -/
def quoteName (s : String) : String :=
  String.ofList ('"' :: (s.toList.flatMap escapeInName ++ ['"']))

end Tern.Text
