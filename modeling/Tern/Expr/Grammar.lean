/-
The grammar's two tables: which tokens can start an expression and which can continue one, and
how tightly the latter bind. The levels rise from assignment to call.
-/
import Tern.Expr.Basic

namespace Tern

/-- How tightly a continuation binds; a higher level binds tighter, and zero means that a token
does not continue an expression. -/
abbrev Level := Nat

namespace Level

def assignment : Level := 1
def record : Level := 2
def logical : Level := 3
def equality : Level := 4
def comparison : Level := 5
def exponent : Level := 6
def sum : Level := 7
def product : Level := 8
/-- The level of the operand of a sign or an annotation in front. -/
def leading : Level := 9
def call : Level := 10

end Level

/-- What a token can start. -/
inductive Start where
  | literal | name | group | collection | block
  | unary (op : UnaryOp)
  | annotated | branch | whileLoop | forLoop | attempt | raise | leave | classDef | importing

/-- What a token starts, if it can start an expression. -/
def TokenKind.start? : TokenKind → Option Start
  | .number | .string | .char | .trueWord | .falseWord | .nullWord => some .literal
  | .identifier => some .name
  | .leftParen => some .group
  | .leftBracket => some .collection
  | .leftBrace => some .block
  | .minus => some (.unary .negate)
  | .bang => some (.unary .not)
  | .annotated => some .annotated
  | .ifWord => some .branch
  | .whileWord => some .whileLoop
  | .forWord => some .forLoop
  | .tryWord => some .attempt
  | .throwWord => some .raise
  | .returnWord => some .leave
  | .classWord => some .classDef
  | .importWord => some .importing
  | _ => none

/-- The level of an operator with two operands. -/
def BinaryOp.level : BinaryOp → Level
  | .equal | .notEqual => Level.equality
  | .less | .lessEqual | .greater | .greaterEqual => Level.comparison
  | .power => Level.exponent
  | .add | .subtract | .concat => Level.sum
  | .multiply | .divide | .remainder => Level.product

/-- The least level, exclusive, of what the right operand may be joined with: one less than the
operator's own for the one operator that associates to the right. -/
def BinaryOp.rightLevel (op : BinaryOp) : Level :=
  match op with
  | .power => op.level - 1
  | _ => op.level

/-- What a token can continue an expression to. -/
inductive Link where
  /-- Assignment, perhaps joined with an operator. -/
  | assign (op : Option BinaryOp)
  | lambda
  | pair
  | logical (op : LogicalOp)
  | matching
  | binary (op : BinaryOp)
  | call
  | index
  | member (safe : Bool)
  | spread

/-- What a token continues an expression to, if it can. -/
def TokenKind.link? : TokenKind → Option Link
  | .equal => some (.assign none)
  | .plusEqual => some (.assign (some .add))
  | .minusEqual => some (.assign (some .subtract))
  | .starEqual => some (.assign (some .multiply))
  | .slashEqual => some (.assign (some .divide))
  | .percentEqual => some (.assign (some .remainder))
  | .caretEqual => some (.assign (some .power))
  | .tildeEqual => some (.assign (some .concat))
  | .arrow => some .lambda
  | .colon => some .pair
  | .andWord => some (.logical .and)
  | .orWord => some (.logical .or)
  | .matchWord => some .matching
  | .equalEqual => some (.binary .equal)
  | .bangEqual => some (.binary .notEqual)
  | .less => some (.binary .less)
  | .lessEqual => some (.binary .lessEqual)
  | .greater => some (.binary .greater)
  | .greaterEqual => some (.binary .greaterEqual)
  | .caret => some (.binary .power)
  | .plus => some (.binary .add)
  | .minus => some (.binary .subtract)
  | .tilde => some (.binary .concat)
  | .star => some (.binary .multiply)
  | .slash => some (.binary .divide)
  | .percent => some (.binary .remainder)
  | .leftParen => some .call
  | .leftBracket => some .index
  | .dot => some (.member false)
  | .safeDot => some (.member true)
  | .ellipsis => some .spread
  | _ => none

/-- The level of a continuation. -/
def Link.level : Link → Level
  | .assign _ | .lambda => Level.assignment
  | .pair => Level.record
  | .logical _ => Level.logical
  | .matching => Level.equality
  | .binary op => op.level
  | .call | .index | .member _ | .spread => Level.call

/-- The level at which a token continues an expression, zero if it does not. -/
def TokenKind.level (kind : TokenKind) : Level :=
  match kind.link? with
  | some link => link.level
  | none => 0

end Tern
