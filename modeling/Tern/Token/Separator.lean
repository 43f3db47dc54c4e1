/-
From raw tokens to the tokens that are parsed. Blanks and comments go; semicolons and line ends
become separators; a separator goes if it follows another one, a token that can not end an
expression, or a continuation mark, which goes as well.
-/
import Tern.Token.Basic

namespace Tern

/-- Whether a separator directly behind a token of this kind means nothing. -/
def TokenKind.elides : TokenKind → Bool
  | .plus | .minus | .star | .slash | .percent | .caret | .tilde | .bang
  | .leftParen | .leftBracket | .comma | .dot | .safeDot | .colon | .arrow
  | .equal | .equalEqual | .bangEqual | .less | .lessEqual | .greater | .greaterEqual
  | .plusEqual | .minusEqual | .starEqual | .slashEqual | .percentEqual | .caretEqual
  | .tildeEqual | .andWord | .orWord | .matchWord | .continuation | .separator => true
  | _ => false

/-- The kind under which a raw token goes on: semicolons and line ends are separators. -/
def TokenKind.unified : TokenKind → TokenKind
  | .semicolon | .newline => .separator
  | kind => kind

/-- The tokens that are parsed, given whether a separator at the front would mean nothing.
Errors stay where they are. -/
def separatedFrom {ε : Type} : Bool → List (Except ε Token) → List (Except ε Token)
  | _, [] => []
  | elide, .error e :: rest => .error e :: separatedFrom elide rest
  | elide, .ok t :: rest =>
    if t.kind.isTrivia then separatedFrom elide rest
    else
      let kind := t.kind.unified
      let rest := separatedFrom kind.elides rest
      if (kind = .separator ∧ elide) ∨ kind = .continuation then rest
      else .ok { t with kind } :: rest

/-- The tokens that are parsed. -/
def separated {ε : Type} (tokens : List (Except ε Token)) : List (Except ε Token) :=
  separatedFrom false tokens

/-- All tokens, or the first error. -/
def collect {ε α : Type} : List (Except ε α) → Except ε (List α)
  | [] => .ok []
  | .error e :: _ => .error e
  | .ok a :: rest => (collect rest).map (a :: ·)

end Tern
