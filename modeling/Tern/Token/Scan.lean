/-
Scanning: a source text is cut into stretches, one after the other and without gaps, and each
stretch is a token or an error. Scanning goes on behind an error. One token marks the end.

A token stands on the line on which its stretch begins. Line ends are a line feed, a carriage
return, and both in this order, each counted once.
-/
import Tern.Number.Read
import Tern.SourceError

namespace Tern

/-- A stretch of a source and what it is. -/
structure Item where
  stretch : List Char
  token : Except SourceError Token

namespace Scan

/-- Number of line ends in a text, a carriage return and the line feed after it being one. -/
def lineBreaks : List Char → Nat
  | [] => 0
  | '\r' :: '\n' :: cs => lineBreaks cs + 1
  | c :: cs => lineBreaks cs + if c = '\r' ∨ c = '\n' then 1 else 0

/-- The words that are not names. -/
def keywords : List (String × TokenKind) := [
    ("and", .andWord), ("or", .orWord), ("class", .classWord), ("if", .ifWord),
    ("else", .elseWord), ("while", .whileWord), ("for", .forWord), ("in", .inWord),
    ("match", .matchWord), ("try", .tryWord), ("catch", .catchWord), ("throw", .throwWord),
    ("import", .importWord), ("return", .returnWord), ("true", .trueWord),
    ("false", .falseWord), ("null", .nullWord)]

/-- The kind of a word: a keyword, or else a name. -/
def wordKind (word : String) : TokenKind :=
  (keywords.lookup word).getD .identifier

/-- Letters of names. The classes are those of ASCII, to which names are confined. -/
def startsName (c : Char) : Bool := c.isAlpha || c = '_'

/-- Characters of names after the first. -/
def continuesName (c : Char) : Bool := c.isAlphanum || c = '_' || c = '$'

/-- Blanks inside a line. -/
def isSpace (c : Char) : Bool := c = ' ' || c = '\t' || c = '\x0c'

/-- Whether a character ends a line. -/
def isLineEnd (c : Char) : Bool := c = '\r' || c = '\n'

/-- The character that an escape stands for. -/
def unescape? : Char → Option Char
  | 'n' => some '\n'
  | 'r' => some '\r'
  | 'f' => some '\x0c'
  | 't' => some '\t'
  | '0' => some '\x00'
  | '\\' => some '\\'
  | '\'' => some '\''
  | '"' => some '"'
  | _ => none

/-- What one step of scanning finds: the stretch it covers, the rest of the text, the number of
line ends in the stretch that count, and the kind and value of a token or what is wrong. -/
structure Step where
  stretch : List Char
  rest : List Char
  breaks : Nat
  found : Except LexFault (TokenKind × Option Literal)

/-- A token without a value, on one line. -/
def Step.plain (kind : TokenKind) (stretch rest : List Char) : Step :=
  { stretch, rest, breaks := 0, found := .ok (kind, none) }

/-- Something wrong. -/
def Step.fault (fault : LexFault) (stretch rest : List Char) (breaks : Nat) : Step :=
  { stretch, rest, breaks, found := .error fault }

/-- An operator that may be followed by an equals sign. -/
def withEqual (c : Char) (joined single : TokenKind) : List Char → Step
  | '=' :: cs => .plain joined [c, '='] cs
  | cs => .plain single [c] cs

/-- Reads the body of a block comment up to its end. Gives the stretch, the rest and whether
the end was there. -/
def blockComment : List Char → List Char × List Char × Bool
  | [] => ([], [], false)
  | '*' :: '/' :: cs => (['*', '/'], cs, true)
  | c :: cs =>
    let (stretch, rest, closed) := blockComment cs
    (c :: stretch, rest, closed)

/-- Counts the line ends of a block comment as far as it is read, one chunk between asterisks after
the other. The characters of the current chunk come in reverse. -/
def commentBreaks (chunk : List Char) : List Char → Nat
  | [] => lineBreaks chunk.reverse
  | '*' :: '/' :: _ => lineBreaks chunk.reverse
  | '*' :: cs => lineBreaks chunk.reverse + commentBreaks [] cs
  | c :: cs => commentBreaks (c :: chunk) cs

/-- Reads the body of a string up to and with its closing quote. Gives the text, the stretch
and the rest. A character that has no escape is taken whole after a backslash, and reading goes on
behind it. A scanner of bytes would take one byte only of a character outside ASCII and be stuck
inside it; such texts are where this one differs. -/
def stringBody : List Char → Except LexFault (List Char) × List Char × List Char
  | [] => (.error .openString, [], [])
  | '"' :: cs => (.ok [], ['"'], cs)
  | ['\\'] => (.error .openEscape, ['\\'], [])
  | '\\' :: c :: cs =>
    match unescape? c with
    | some d =>
      let (text, stretch, rest) := stringBody cs
      (text.map (d :: ·), '\\' :: c :: stretch, rest)
    | none => (.error (.badEscape c), ['\\', c], cs)
  | c :: cs =>
    let (text, stretch, rest) := stringBody cs
    (text.map (c :: ·), c :: stretch, rest)

/-- Counts the line ends of a string as far as it is read: each line feed, and each carriage return
that no line feed follows. A character after a backslash is not counted. -/
def stringBreaks : List Char → Nat
  | [] | ['\\'] => 0
  | '"' :: _ => 0
  | '\\' :: c :: cs => if (unescape? c).isSome then stringBreaks cs else 0
  | '\n' :: cs => stringBreaks cs + 1
  | '\r' :: cs => stringBreaks cs + if cs.head? = some '\n' then 0 else 1
  | _ :: cs => stringBreaks cs

/-- Reads a string behind its opening quote. A character after a backslash that has no escape
ends the stretch. -/
def scanString (cs : List Char) : Step :=
  let (text, stretch, rest) := stringBody cs
  match text with
  | .ok text =>
    { stretch := '"' :: stretch
      rest
      breaks := stringBreaks cs
      found := .ok (.string, some (.text (String.ofList text))) }
  | .error fault => .fault fault ('"' :: stretch) rest (stringBreaks cs)

/-- Reads the closing quote of a character literal that holds `c`, written as `stretch`. -/
def closeChar (c : Char) (stretch : List Char) : List Char → Step
  | '\'' :: cs =>
    { stretch := stretch ++ ['\'']
      rest := cs
      breaks := 0
      found := .ok (.char, some (.text c.toString)) }
  | cs => .fault .wideChar stretch cs 0

/-- Reads a character literal behind its opening quote. A line end in it does not count. As in a
string, a character that has no escape is taken whole. -/
def scanChar : List Char → Step
  | [] => .fault .openChar ['\''] [] 0
  | ['\\'] => .fault .openEscape ['\'', '\\'] [] 0
  | '\\' :: c :: cs =>
    match unescape? c with
    | some d => closeChar d ['\'', '\\', c] cs
    | none => .fault (.badEscape c) ['\'', '\\', c] cs 0
  | c :: cs => closeChar c ['\'', c] cs

/-- Reads a number that starts with `c`: digits, and a point only between digits. -/
def scanNumber (c : Char) (cs : List Char) : Step :=
  let whole := c :: cs.takeWhile Char.isDigit
  let rest := cs.dropWhile Char.isDigit
  let (fraction, rest) := match rest with
    | '.' :: d :: ds =>
      if d.isDigit then (d :: ds.takeWhile Char.isDigit, ds.dropWhile Char.isDigit)
      else ([], rest)
    | _ => ([], rest)
  let magnitude := Number.ofDecimal (Number.ofDigits (whole ++ fraction)) (-(fraction.length : Int))
  { stretch := whole ++ if fraction.isEmpty then [] else '.' :: fraction
    rest
    breaks := 0
    found := .ok (.number, some (.number { negative := false, magnitude })) }

/-- Reads a name or keyword that starts with `c`. -/
def scanWord (c : Char) (cs : List Char) : Step :=
  let word := c :: cs.takeWhile continuesName
  .plain (wordKind (String.ofList word)) word (cs.dropWhile continuesName)

/-- Reads an annotation behind its `@`. -/
def scanAnnotated : List Char → Step
  | [] => .fault .bareAt ['@'] [] 0
  | c :: cs =>
    if startsName c then
      .plain .annotated ('@' :: c :: cs.takeWhile continuesName) (cs.dropWhile continuesName)
    else .fault .bareAt ['@'] (c :: cs) 0

/-- Reads a comment or a division behind a slash. -/
def scanSlash : List Char → Step
  | '/' :: cs =>
    .plain .comment ('/' :: '/' :: cs.takeWhile (!isLineEnd ·)) (cs.dropWhile (!isLineEnd ·))
  | '*' :: cs =>
    let (stretch, rest, closed) := blockComment cs
    { stretch := '/' :: '*' :: stretch
      rest
      breaks := commentBreaks [] cs
      found := if closed then .ok (.comment, none) else .error .openComment }
  | cs => withEqual '/' .slashEqual .slash cs

/-- Reads one token that starts with `c`, taking as many characters as it can. -/
def step (c : Char) (cs : List Char) : Step :=
  match c with
  | '(' => .plain .leftParen ['('] cs
  | ')' => .plain .rightParen [')'] cs
  | '\x7b' => .plain .leftBrace ['\x7b'] cs
  | '\x7d' => .plain .rightBrace ['\x7d'] cs
  | '[' => .plain .leftBracket ['['] cs
  | ']' => .plain .rightBracket [']'] cs
  | ',' => .plain .comma [','] cs
  | ':' => .plain .colon [':'] cs
  | ';' => .plain .semicolon [';'] cs
  | '\\' => .plain .continuation ['\\'] cs
  | '.' =>
    match cs with
    | '.' :: '.' :: cs => .plain .ellipsis ['.', '.', '.'] cs
    | _ => .plain .dot ['.'] cs
  | '?' =>
    match cs with
    | '.' :: cs => .plain .safeDot ['?', '.'] cs
    | _ => .fault (.unexpected '?') ['?'] cs 0
  | '-' =>
    match cs with
    | '>' :: cs => .plain .arrow ['-', '>'] cs
    | _ => withEqual '-' .minusEqual .minus cs
  | '+' => withEqual '+' .plusEqual .plus cs
  | '*' => withEqual '*' .starEqual .star cs
  | '%' => withEqual '%' .percentEqual .percent cs
  | '^' => withEqual '^' .caretEqual .caret cs
  | '~' => withEqual '~' .tildeEqual .tilde cs
  | '!' => withEqual '!' .bangEqual .bang cs
  | '=' => withEqual '=' .equalEqual .equal cs
  | '<' => withEqual '<' .lessEqual .less cs
  | '>' => withEqual '>' .greaterEqual .greater cs
  | '/' => scanSlash cs
  | '\r' =>
    match cs with
    | '\n' :: cs => { Step.plain .newline ['\r', '\n'] cs with breaks := 1 }
    | _ => { Step.plain .newline ['\r'] cs with breaks := 1 }
  | '\n' => { Step.plain .newline ['\n'] cs with breaks := 1 }
  | '"' => scanString cs
  | '\'' => scanChar cs
  | '@' => scanAnnotated cs
  | _ =>
    if isSpace c then .plain .whitespace (c :: cs.takeWhile isSpace) (cs.dropWhile isSpace)
    else if c.isDigit then scanNumber c cs
    else if startsName c then scanWord c cs
    else .fault (.unexpected c) [c] cs 0

/-- The text that a token of a kind keeps of its stretch. -/
def lexeme (kind : TokenKind) (stretch : List Char) : String :=
  match kind with
  | .newline => "\n"
  | .annotated => String.ofList (stretch.drop 1)
  | _ => String.ofList stretch

/-- The item that a step gives on a line. Errors are reported on the line where they end. -/
def Step.item (s : Step) (source : String) (line : Nat) : Item :=
  { stretch := s.stretch
    token := match s.found with
      | .ok (kind, literal) =>
        .ok { kind, lexeme := lexeme kind s.stretch, literal, line, source }
      | .error fault => .error (.lexical source (line + s.breaks) fault) }

/-- The items of a text that begins on a line. Every step takes at least one character, so as
many steps as there are characters suffice. -/
def itemsFrom (source : String) : Nat → Nat → List Char → List Item
  | _, line, [] => [{ stretch := [], token := .ok (Token.endOf source line) }]
  | 0, line, _ => [{ stretch := [], token := .ok (Token.endOf source line) }]
  | fuel + 1, line, c :: cs =>
    let s := step c cs
    s.item source line :: itemsFrom source fuel (line + s.breaks) s.rest

/-- The items of a source text. -/
def items (source : String) (text : String) : List Item :=
  let cs := text.toList
  itemsFrom source cs.length 1 cs

end Scan

/-- The raw tokens of a source text, with the errors between them. -/
def scan (source text : String) : List (Except SourceError Token) :=
  (Scan.items source text).map (·.token)

end Tern
