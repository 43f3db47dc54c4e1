/-
Errors in a source text: what can be wrong with its characters, what can be wrong with its
tokens, and where. The wording of every one of them is fixed here.
-/
import Tern.Token.Basic

namespace Tern

/-- What can be wrong with the characters of a source. -/
inductive LexFault where
  /-- A character that starts no token. -/
  | unexpected (c : Char)
  /-- A `/*` without its `*/`. -/
  | openComment
  /-- A string without its closing quote. -/
  | openString
  /-- A backslash at the very end. -/
  | openEscape
  /-- A backslash before a character that has no escape. -/
  | badEscape (c : Char)
  /-- A character literal that is cut off. -/
  | openChar
  /-- A character literal of no or several characters. -/
  | wideChar
  /-- An `@` without a name. -/
  | bareAt

/-- The first byte of a character in UTF-8, read as a character of its own. -/
def leadByte (c : Char) : Char :=
  let n := c.toNat
  if n < 0x80 then c
  else if n < 0x800 then Char.ofNat (0xc0 + n / 0x40)
  else if n < 0x10000 then Char.ofNat (0xe0 + n / 0x1000)
  else Char.ofNat (0xf0 + n / 0x40000)

/-- The wording of a lexical error. -/
def LexFault.message : LexFault → String
  | .unexpected c => "Unexpected character: " ++ c.toString
  | .openComment => "Unterminated block comment."
  | .openString => "Unterminated string."
  | .openEscape => "Unterminated escape sequence."
  | .badEscape c => "Invalid escape sequence: \\" ++ (leadByte c).toString
  | .openChar => "Unterminated character literal."
  | .wideChar => "Character literal must hold exactly one character."
  | .bareAt => "Expected a name after '@'."

/-- The items of a list that a comma separates. -/
inductive ListItem where
  | tupleElement | element | argument

/-- The wording for the items of a list. -/
def ListItem.text : ListItem → String
  | .tupleElement => "tuple element"
  | .element => "element"
  | .argument => "argument"

/-- The expressions that have clauses. -/
inductive ClauseOwner where
  | matching | catching

/-- The wording for the owner of clauses. -/
def ClauseOwner.text : ClauseOwner → String
  | .matching => "match"
  | .catching => "catch"

/-- What can be wrong with the tokens of a source. -/
inductive ParseFault where
  | unexpectedToken
  | malformedLiteral
  | expectedGroupEnd
  | expectedEmptyMapEnd
  | pairInList
  | expectedPair
  | expectedItemEnd (item : ListItem)
  | expectedClauses (owner : ClauseOwner)
  | expectedArrow
  | expectedBlockEnd
  | expectedExprEnd
  | expectedIn
  | expectedCatch
  | expectedClassName
  | expectedSuperclass
  | expectedClassBody
  | invalidMember
  | expectedModule
  | expectedModulePart
  | expectedIndexEnd
  | expectedMember
  | duplicatePattern
  | invalidCompoundTarget
  | invalidTarget
  | functionName
  | restName
  | parameterName
  | lambdaParameters
  /-- Expressions nested beyond the budget of the parser, which no token list reaches. -/
  | tooDeep

/-- The wording of a parse error. -/
def ParseFault.message : ParseFault → String
  | .unexpectedToken => "Unexpected token"
  | .malformedLiteral => "Malformed literal"
  | .expectedGroupEnd => "Expected ')' after expression"
  | .expectedEmptyMapEnd => "Expected ']' after '[:'"
  | .pairInList => "Unexpected 'key: value' in list"
  | .expectedPair => "Expected 'key: value' in map"
  | .expectedItemEnd item => "Expected ',' or closing delimiter after " ++ item.text
  | .expectedClauses owner => "Expected '\x7b' to open " ++ owner.text ++ " clauses"
  | .expectedArrow => "Expected '->' after pattern"
  | .expectedBlockEnd => "Expected '\x7d' to close block"
  | .expectedExprEnd => "Expected end of expression"
  | .expectedIn => "Expected 'in' after loop pattern"
  | .expectedCatch => "Expected 'catch' after try body"
  | .expectedClassName => "Expected class name"
  | .expectedSuperclass => "Expected superclass name after ':'"
  | .expectedClassBody => "Expected '\x7b' before class body"
  | .invalidMember => "Class members must be functions, fields, or field names"
  | .expectedModule => "Expected module name after 'import'"
  | .expectedModulePart => "Expected module name after '.'"
  | .expectedIndexEnd => "Expected ']' after index"
  | .expectedMember => "Expected member name after '.'"
  | .duplicatePattern => "Duplicate pattern in match"
  | .invalidCompoundTarget => "Invalid compound assignment target"
  | .invalidTarget => "Invalid assignment target"
  | .functionName => "Function declaration requires a bare name"
  | .restName => "Rest parameter must be a name"
  | .parameterName => "Parameters must be names"
  | .lambdaParameters => "Invalid lambda parameters"
  | .tooDeep => "Expression nested too deeply"

/-- An error in a source text. -/
inductive SourceError where
  /-- Characters that form no token. -/
  | lexical (source : String) (line : Nat) (fault : LexFault)
  /-- Tokens that form no expression, noticed at a token. -/
  | parse (token : Token) (fault : ParseFault)

/-- How an error names the token at which it was noticed. -/
def Token.place (t : Token) : String :=
  match t.kind with
  | .eof => "end of input"
  | .separator => "end of line"
  | _ => t.lexeme

/-- The wording of an error in a source text. -/
def SourceError.message : SourceError → String
  | .lexical source line fault =>
    "[" ++ source ++ ":" ++ toString line ++ "] Error: " ++ fault.message
  | .parse token fault =>
    "[" ++ token.source ++ ":" ++ toString token.line ++ "] Error at '" ++ token.place ++ "': " ++
      fault.message

end Tern
