/-
Parsing. An expression is what its first token starts, continued as long as the next token binds
tighter than the context demands. Constructs that associate to the right read their right side
one level lower.

Nested expressions are read through a parameter `expr`, the parser with a smaller budget; lists
of expressions have a budget of their own. Both are the number of tokens, which suffices because
a token is consumed before each nested expression and each further item.
-/
import Tern.Expr.Assignment
import Tern.Expr.Grammar
import Tern.Token.Scan
import Tern.Token.Separator

namespace Tern

/-- A parser: takes tokens from the front of a list that ends with an end token. -/
abbrev Parse := StateT (List Token) (Except SourceError)

namespace Parse

/-! ### Single tokens -/

/-- The next token. -/
def peek : Parse Token := do
  return (← get).headD (Token.endOf "<input>" 1)

/-- Fails at a token. -/
def failAt {α : Type} (token : Token) (fault : ParseFault) : Parse α :=
  throw (.parse token fault)

/-- Fails at the next token. -/
def fail {α : Type} (fault : ParseFault) : Parse α := do
  failAt (← peek) fault

/-- Whether the next token has a kind. -/
def check (kind : TokenKind) : Parse Bool := do
  return (← peek).kind = kind

/-- Takes the next token; an end token stays. -/
def advance : Parse Token := do
  let token ← peek
  if token.kind ≠ .eof then modify (List.drop 1)
  return token

/-- Takes the next token if it has a kind, and tells whether it had. -/
def accept (kind : TokenKind) : Parse Bool := do
  if ← check kind then
    let _ ← advance
    return true
  else return false

/-- Takes the next token, which must have a kind. -/
def expect (kind : TokenKind) (fault : ParseFault) : Parse Token := do
  if ← check kind then advance else fail fault

/-- Takes all separators in front. -/
def skipSeparators : Parse Unit :=
  modify (List.dropWhile (·.kind = .separator))

/-- Takes a token of a kind, perhaps behind one separator, and tells whether it was there. -/
def acceptBehindSeparator (kind : TokenKind) : Parse Bool := do
  match ← get with
  | first :: second :: rest =>
    if first.kind = kind then
      set (second :: rest)
      return true
    else if first.kind = .separator ∧ second.kind = kind then
      set rest
      return true
    else return false
  | _ => accept kind

/-- Requires the end of an expression: a separator, which is taken, or a closing token or the end,
which stay. -/
def endOfExpr (close : TokenKind) : Parse Unit := do
  if ← accept .separator then return ()
  else
    let kind := (← peek).kind
    if kind = close ∨ kind = .eof then return ()
    else fail .expectedExprEnd

/-- Turns the result of a check on trees into a parser. -/
def lift {α : Type} (result : Except SourceError α) : Parse α :=
  fun tokens => result.map (·, tokens)

/-! ### Lists of expressions -/

/-- The expressions of a block whose brace has been taken. -/
def sequence (expr : Level → Parse Expr) : Nat → Parse (List Expr)
  | 0 => fail .tooDeep
  | budget + 1 => do
    skipSeparators
    if ← accept .rightBrace then return []
    else if ← check .eof then fail .expectedBlockEnd
    else
      let first ← expr 0
      endOfExpr .rightBrace
      let rest ← sequence expr budget
      return first :: rest

/-- One or more expressions with commas between them, up to a closing token. -/
def commaList (expr : Level → Parse Expr) (close : TokenKind) (item : ListItem) :
    Nat → Parse (List Expr)
  | 0 => fail .tooDeep
  | budget + 1 => do
    let first ← expr 0
    skipSeparators
    if ← accept .comma then
      let rest ← commaList expr close item budget
      return first :: rest
    else
      let _ ← expect close (.expectedItemEnd item)
      return [first]

/-- Expressions with commas between them, up to a closing token. -/
def delimited (expr : Level → Parse Expr) (budget : Nat) (close : TokenKind) (item : ListItem) :
    Parse (List Expr) := do
  skipSeparators
  if ← accept close then return []
  else commaList expr close item budget

/-- Clauses up to the closing brace. -/
def clauseList (expr : Level → Parse Expr) : Nat → Parse (List (Expr × Expr))
  | 0 => fail .tooDeep
  | budget + 1 => do
    skipSeparators
    if ← accept .rightBrace then return []
    else
      let pattern ← expr Level.assignment
      let _ ← expect .arrow .expectedArrow
      let body ← expr 0
      endOfExpr .rightBrace
      let rest ← clauseList expr budget
      return (pattern, body) :: rest

/-- Clauses in braces. -/
def clauses (expr : Level → Parse Expr) (budget : Nat) (owner : ClauseOwner) :
    Parse (List (Expr × Expr)) := do
  skipSeparators
  let _ ← expect .leftBrace (.expectedClauses owner)
  clauseList expr budget

/-- Further names of a dotted path. -/
def dottedNames : Nat → Parse (List String)
  | 0 => fail .tooDeep
  | budget + 1 => do
    if ← accept .dot then
      let name ← expect .identifier .expectedModulePart
      let rest ← dottedNames budget
      return name.lexeme :: rest
    else return []

/-! ### What a token starts -/

/-- The constant that a token is. -/
def constant (token : Token) : Parse Constant :=
  match token.kind, token.literal with
  | .trueWord, _ => return .bool true
  | .falseWord, _ => return .bool false
  | .nullWord, _ => return .null
  | _, some (.number n) => return .number n
  | _, some (.text s) => return .text s
  | _, none => failAt token .malformedLiteral

/-- Parentheses: a group, or a tuple if there is a comma or nothing. -/
def group (expr : Level → Parse Expr) (budget : Nat) : Parse Form := do
  skipSeparators
  if ← accept .rightParen then return .tuple []
  else
    let first ← expr 0
    skipSeparators
    if ← accept .comma then
      let rest ← delimited expr budget .rightParen .tupleElement
      return .tuple (first :: rest)
    else
      let _ ← expect .rightParen .expectedGroupEnd
      return .group first

/-- The entries of a map, all of which must be pairs. -/
def entriesOf : List Expr → Except SourceError (List (Expr × Expr))
  | [] => .ok []
  | .node _ (.pair key value) :: rest => (entriesOf rest).map ((key, value) :: ·)
  | .node site _ :: _ => .error (.parse site.token .expectedPair)

/-- Whether an expression is a pair. -/
def isPair : Expr → Bool
  | .node _ (.pair _ _) => true
  | _ => false

/-- A list or, if the first item is a pair, a map of the items. -/
def collectionOf (items : List Expr) : Except SourceError Form :=
  match items with
  | .node _ (.pair _ _) :: _ => (entriesOf items).map .map
  | _ =>
    match items.find? isPair with
    | some pair => .error (.parse pair.token .pairInList)
    | none => .ok (.list items)

/-- Brackets: a list or a map; a lone colon makes the empty map. -/
def collection (expr : Level → Parse Expr) (budget : Nat) : Parse Form := do
  skipSeparators
  if ← accept .colon then
    let _ ← expect .rightBracket .expectedEmptyMapEnd
    return .map []
  else
    let items ← delimited expr budget .rightBracket .element
    lift (collectionOf items)

/-- A condition, what to do if it holds, and perhaps what to do otherwise. -/
def branch (expr : Level → Parse Expr) : Parse Form := do
  let condition ← expr 0
  let yes ← expr 0
  if ← acceptBehindSeparator .elseWord then
    let no ← expr 0
    return .branchElse condition yes no
  else return .branch condition yes

/-- A loop over a collection. -/
def forLoop (expr : Level → Parse Expr) : Parse Form := do
  let pattern ← expr 0
  let _ ← expect .inWord .expectedIn
  let iterable ← expr 0
  let body ← expr 0
  return .forLoop pattern iterable body

/-- A body and the clauses for its exceptions. -/
def attempt (expr : Level → Parse Expr) (budget : Nat) : Parse Form := do
  let body ← expr 0
  if ← acceptBehindSeparator .catchWord then
    let handlers ← clauses expr budget .catching
    return .attempt body handlers
  else fail .expectedCatch

/-- A return, whose value may be missing at the end of an expression. -/
def leave (expr : Level → Parse Expr) : Parse Form := do
  match (← peek).kind with
  | .separator | .rightBrace | .rightParen | .eof => return .leave
  | _ => return .leaveWith (← expr 0)

/-- The members of a class, each a function, an assignment or a bare name. -/
def membersOf : List Expr → Except SourceError (List Member)
  | [] => .ok []
  | .node site form :: rest =>
    match form with
    | .function name params body _ => (membersOf rest).map (.method name params body :: ·)
    | .assign name value _ => (membersOf rest).map (.fieldWith name value :: ·)
    | .name name => (membersOf rest).map (.field name :: ·)
    | _ => .error (.parse site.token .invalidMember)

/-- A class with its members. -/
def classDef (expr : Level → Parse Expr) (budget : Nat) : Parse Form := do
  let name ← expect .identifier .expectedClassName
  let superclass ←
    if ← accept .colon then
      let parent ← expect .identifier .expectedSuperclass
      pure (some parent.lexeme)
    else pure none
  skipSeparators
  let _ ← expect .leftBrace .expectedClassBody
  let body ← sequence expr budget
  let members ← lift (membersOf body)
  return .classDef name.lexeme superclass members

/-- A dotted module path. -/
def importing (budget : Nat) : Parse Form := do
  let first ← expect .identifier .expectedModule
  let rest ← dottedNames budget
  return .importing (first.lexeme :: rest)

/-- The expression that a token, already taken, starts. -/
def startWith (expr : Level → Parse Expr) (budget : Nat) (token : Token) : Start → Parse Expr
  | .literal => return Expr.plain token (.constant (← constant token))
  | .name => return Expr.plain token (.name token.lexeme)
  | .group => return Expr.plain token (← group expr budget)
  | .collection => return Expr.plain token (← collection expr budget)
  | .block => return Expr.plain token (.block (← sequence expr budget))
  | .unary op => return Expr.plain token (.unary op (← expr Level.leading))
  | .annotated => return (← expr Level.leading).annotate token.lexeme
  | .branch => return Expr.plain token (← branch expr)
  | .whileLoop => do
    let condition ← expr 0
    let body ← expr 0
    return Expr.plain token (.whileLoop condition body)
  | .forLoop => return Expr.plain token (← forLoop expr)
  | .attempt => return Expr.plain token (← attempt expr budget)
  | .raise => return Expr.plain token (.raise (← expr 0))
  | .leave => return Expr.plain token (← leave expr)
  | .classDef => return Expr.plain token (← classDef expr budget)
  | .importing => return Expr.plain token (← importing budget)

/-! ### What a token continues -/

/-- The first clause whose pattern is a constant that an earlier clause has as well. -/
def duplicate? : List Constant → List (Expr × Expr) → Option Expr
  | _, [] => none
  | seen, (pattern, _) :: rest =>
    match pattern with
    | .node _ (.constant c) =>
      if seen.any c.same then some pattern else duplicate? (c :: seen) rest
    | _ => duplicate? seen rest

/-- The expression that a token, already taken, makes of the expression to its left. -/
def continueWith (expr : Level → Parse Expr) (budget : Nat) (left : Expr) (token : Token) :
    Link → Parse Expr
  | .assign none => do
    let value ← expr (Level.assignment - 1)
    lift (assignment value token left)
  | .assign (some op) => do
    let value ← expr (Level.assignment - 1)
    lift (compoundAssignment op left value token)
  | .lambda => do
    let params ← lift (lambdaParams left)
    let body ← expr (Level.assignment - 1)
    return Expr.plain token (.lambda params body)
  | .pair => return Expr.plain token (.pair left (← expr Level.record))
  | .logical op => return Expr.plain token (.logical op left (← expr Level.logical))
  | .matching => do
    let arms ← clauses expr budget .matching
    match duplicate? [] arms with
    | some pattern => failAt pattern.token .duplicatePattern
    | none => return Expr.plain token (.matching left arms)
  | .binary op => return Expr.plain token (.binary op left (← expr op.rightLevel))
  | .call => do
    let arguments ← delimited expr budget .rightParen .argument
    return Expr.plain token (.call left arguments)
  | .index => do
    let index ← expr 0
    skipSeparators
    let _ ← expect .rightBracket .expectedIndexEnd
    return Expr.plain token (.index left index)
  | .member safe => do
    let name ← expect .identifier .expectedMember
    return Expr.plain token (.member left name.lexeme safe)
  | .spread => return Expr.plain token (.spread left)

/-- Continues an expression as long as the next token binds tighter than `least`. -/
def links (expr : Level → Parse Expr) (budget : Nat) (least : Level) : Nat → Expr → Parse Expr
  | 0, _ => fail .tooDeep
  | count + 1, left => do
    let next ← peek
    match next.kind.link? with
    | none => return left
    | some link =>
      if least < link.level then
        let token ← advance
        let joined ← continueWith expr budget left token link
        links expr budget least count joined
      else return left

/-- One expression whose continuations bind tighter than `least`. -/
def expression : Nat → Level → Parse Expr
  | 0, _ => fail .tooDeep
  | budget + 1, least => do
    skipSeparators
    let token ← advance
    match token.kind.start? with
    | none => failAt token .unexpectedToken
    | some start =>
      let left ← startWith (expression budget) budget token start
      links (expression budget) budget least budget left

/-! ### Whole sources -/

/-- The next expression of a source, none at its end. -/
def next? (budget : Nat) : Parse (Option Expr) := do
  skipSeparators
  if ← check .eof then return none
  else
    let e ← expression budget 0
    endOfExpr .eof
    return some e

/-- All expressions of a source. -/
def program (budget : Nat) : Nat → Parse (List Expr)
  | 0 => fail .tooDeep
  | count + 1 => do
    match ← next? budget with
    | none => return []
    | some e =>
      let rest ← program budget count
      return e :: rest

/-- Tokens with an end token at their end, made up if it is missing. -/
def closed (tokens : List Token) : List Token :=
  match tokens.getLast? with
  | none => [Token.endOf "<input>" 1]
  | some last =>
    if last.kind = .eof then tokens else tokens ++ [Token.endOf last.source last.line]

/-- A budget that suffices for a list of tokens. -/
def budgetFor (tokens : List Token) : Nat := tokens.length + 1

end Parse

/-- The expressions that tokens spell. -/
def parseTokens (tokens : List Token) : Except SourceError (List Expr) :=
  let tokens := Parse.closed tokens
  let budget := Parse.budgetFor tokens
  (Parse.program budget budget tokens).map (·.1)

/-- The tokens of a source that are parsed, or its first lexical error. -/
def tokensOf (source text : String) : Except SourceError (List Token) :=
  collect (separated (scan source text))

/-- The expressions of a source. -/
def parse (source text : String) : Except SourceError (List Expr) :=
  match tokensOf source text with
  | .error e => .error e
  | .ok tokens => parseTokens tokens

theorem parse_of_tokensOf {source text : String} {tokens : List Token}
    (h : tokensOf source text = .ok tokens) : parse source text = parseTokens tokens := by
  rw [parse, h]

/-- One expression at the front of a source whose continuations bind tighter than `least`. -/
def parseLevel (source text : String) (least : Level) : Except SourceError Expr :=
  match tokensOf source text with
  | .error e => .error e
  | .ok tokens =>
    let tokens := Parse.closed tokens
    (Parse.expression (Parse.budgetFor tokens) least tokens).map (·.1)

/-- The expressions of tokens one by one, up to and with the first error. -/
def parseEach (tokens : List Token) : List (Except SourceError Expr) :=
  let tokens := Parse.closed tokens
  let budget := Parse.budgetFor tokens
  let rec go : Nat → List Token → List (Except SourceError Expr)
    | 0, _ => []
    | count + 1, tokens =>
      match Parse.next? budget tokens with
      | .error e => [.error e]
      | .ok (none, _) => []
      | .ok (some e, rest) => .ok e :: go count rest
  go budget tokens

end Tern
