/-
Tokens: the kinds of them, the value that a literal carries, and where in which source a token
stands. The raw stream of a source also has tokens for blanks, comments and line ends; the
stream that is parsed has a separator for every end of an expression instead.
-/
import Tern.Number.Printed
import Tern.Number.Read

namespace Tern

/-- The kinds of tokens. -/
inductive TokenKind where
  | leftParen | rightParen | leftBrace | rightBrace | leftBracket | rightBracket | comma | dot
  | safeDot | ellipsis | colon | semicolon | arrow | minus | plus | slash | star | percent | caret
  | tilde | bang | bangEqual | equal | equalEqual | greater | greaterEqual | less | lessEqual
  | plusEqual | minusEqual | starEqual | slashEqual | percentEqual | caretEqual | tildeEqual
  | annotated | identifier | string | char | number | andWord | orWord | classWord | ifWord
  | elseWord | whileWord | forWord | inWord | matchWord | tryWord | catchWord | throwWord
  | importWord | returnWord | trueWord | falseWord | nullWord | continuation | newline
  | whitespace | comment | separator | eof
  deriving DecidableEq, Repr, Inhabited

namespace TokenKind

/-- The name of a kind in a token list. -/
def name : TokenKind → String
  | .leftParen => "LEFT_PAREN"
  | .rightParen => "RIGHT_PAREN"
  | .leftBrace => "LEFT_BRACE"
  | .rightBrace => "RIGHT_BRACE"
  | .leftBracket => "LEFT_BRACKET"
  | .rightBracket => "RIGHT_BRACKET"
  | .comma => "COMMA"
  | .dot => "DOT"
  | .safeDot => "SAFE_DOT"
  | .ellipsis => "ELLIPSIS"
  | .colon => "COLON"
  | .semicolon => "SEMICOLON"
  | .arrow => "ARROW"
  | .minus => "MINUS"
  | .plus => "PLUS"
  | .slash => "SLASH"
  | .star => "STAR"
  | .percent => "PERCENT"
  | .caret => "CARET"
  | .tilde => "TILDE"
  | .bang => "BANG"
  | .bangEqual => "BANG_EQUAL"
  | .equal => "EQUAL"
  | .equalEqual => "EQUAL_EQUAL"
  | .greater => "GREATER"
  | .greaterEqual => "GREATER_EQUAL"
  | .less => "LESS"
  | .lessEqual => "LESS_EQUAL"
  | .plusEqual => "PLUS_EQUAL"
  | .minusEqual => "MINUS_EQUAL"
  | .starEqual => "STAR_EQUAL"
  | .slashEqual => "SLASH_EQUAL"
  | .percentEqual => "PERCENT_EQUAL"
  | .caretEqual => "CARET_EQUAL"
  | .tildeEqual => "TILDE_EQUAL"
  | .annotated => "ANNOTATION"
  | .identifier => "IDENTIFIER"
  | .string => "STRING"
  | .char => "CHAR"
  | .number => "NUMBER"
  | .andWord => "AND"
  | .orWord => "OR"
  | .classWord => "CLASS"
  | .ifWord => "IF"
  | .elseWord => "ELSE"
  | .whileWord => "WHILE"
  | .forWord => "FOR"
  | .inWord => "IN"
  | .matchWord => "MATCH"
  | .tryWord => "TRY"
  | .catchWord => "CATCH"
  | .throwWord => "THROW"
  | .importWord => "IMPORT"
  | .returnWord => "RETURN"
  | .trueWord => "TRUE"
  | .falseWord => "FALSE"
  | .nullWord => "NULL"
  | .continuation => "CONTINUATION"
  | .newline => "NEWLINE"
  | .whitespace => "WHITESPACE"
  | .comment => "COMMENT"
  | .separator => "SEPARATOR"
  | .eof => "EOF"

/-- Blanks and comments, which mean nothing to the parser. -/
def isTrivia : TokenKind → Bool
  | .whitespace | .comment => true
  | _ => false

end TokenKind

/-- The value of a number, string or character literal. -/
inductive Literal where
  | number (numeral : Numeral)
  | text (value : String)
  deriving Inhabited

/-- A token with the text it was read from. For an annotation that is the name after the `@`,
and every line end has the same text. -/
structure Token where
  kind : TokenKind
  lexeme : String
  literal : Option Literal
  line : Nat
  source : String
  deriving Inhabited

namespace Token

/-- The token that ends a source. -/
def endOf (source : String) (line : Nat) : Token :=
  { kind := .eof, lexeme := "", literal := none, line, source }

/-- A literal as a token list shows it. -/
def showLiteral : Option Literal → String
  | some (.text s) => s
  | some (.number n) => Number.printPointed n.value
  | none => "null"

/-- A token as a token list shows it: its kind, its text and its value. -/
def listed (t : Token) : String :=
  let text := if t.kind = .newline then "\\n" else t.lexeme
  t.kind.name ++ " " ++ text ++ " " ++ showLiteral t.literal

end Token

end Tern
