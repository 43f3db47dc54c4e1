/-
Syntax trees. Everything is an expression. A node has a site, which keeps the token that
introduced it and the names it was annotated with, and a form.
-/
import Tern.Token.Basic

namespace Tern

/-- A constant written in a source. -/
inductive Constant where
  | number (numeral : Numeral)
  | text (value : String)
  | bool (value : Bool)
  | null
  deriving Inhabited

/-- Whether two constants are one and the same, numbers being told apart by their sign too. -/
def Constant.same : Constant → Constant → Bool
  | .number m, .number n => m.same n
  | .text s, .text t => s == t
  | .bool a, .bool b => a == b
  | .null, .null => true
  | _, _ => false

/-- Operators with one operand. -/
inductive UnaryOp where
  | negate | not
  deriving DecidableEq, Repr

/-- The sign of an operator with one operand. -/
def UnaryOp.symbol : UnaryOp → String
  | .negate => "-"
  | .not => "!"

/-- Operators with two operands, both of which are evaluated. -/
inductive BinaryOp where
  | add | subtract | multiply | divide | remainder | power | concat
  | equal | notEqual | less | lessEqual | greater | greaterEqual
  deriving DecidableEq, Repr

/-- The sign of an operator with two operands. -/
def BinaryOp.symbol : BinaryOp → String
  | .add => "+"
  | .subtract => "-"
  | .multiply => "*"
  | .divide => "/"
  | .remainder => "%"
  | .power => "^"
  | .concat => "~"
  | .equal => "=="
  | .notEqual => "!="
  | .less => "<"
  | .lessEqual => "<="
  | .greater => ">"
  | .greaterEqual => ">="

/-- Operators whose second operand is evaluated only if the first does not decide. -/
inductive LogicalOp where
  | and | or
  deriving DecidableEq, Repr

/-- The word for a logical operator. -/
def LogicalOp.symbol : LogicalOp → String
  | .and => "and"
  | .or => "or"

/-- The parameters of a function: names, and perhaps one more for the list of all further
arguments. -/
structure Params where
  names : List String
  rest : Option String
  deriving DecidableEq, Repr, Inhabited

/-- Where a node comes from: the token that introduced it, and its annotations in the order in
which they were attached, the innermost first. -/
structure Site where
  token : Token
  annotations : List String
  deriving Inhabited

mutual

/-- A syntax tree. -/
inductive Expr where
  | node (site : Site) (form : Form)

/-- The forms of expressions. -/
inductive Form where
  | constant (value : Constant)
  | name (name : String)
  /-- An expression in parentheses. -/
  | group (inner : Expr)
  | tuple (items : List Expr)
  | list (items : List Expr)
  | map (entries : List (Expr × Expr))
  /-- Two expressions with a colon between them. -/
  | pair (left right : Expr)
  | unary (op : UnaryOp) (operand : Expr)
  | binary (op : BinaryOp) (left right : Expr)
  | logical (op : LogicalOp) (left right : Expr)
  /-- Assignment to a name, which `declare` asks to be new. -/
  | assign (name : String) (value : Expr) (declare : Bool)
  /-- Assignment to the names of a pattern. -/
  | destructure (pattern value : Expr)
  | index (target index : Expr)
  | setIndex (target index value : Expr)
  /-- A member, which is null for a null object if the access is `safe`. -/
  | member (object : Expr) (name : String) (safe : Bool)
  | setMember (object : Expr) (name : String) (value : Expr)
  | call (callee : Expr) (arguments : List Expr)
  /-- An argument that stands for all items of a collection. -/
  | spread (inner : Expr)
  | function (name : String) (params : Params) (body : Expr) (declare : Bool)
  | lambda (params : Params) (body : Expr)
  | block (body : List Expr)
  | branch (condition yes : Expr)
  | branchElse (condition yes no : Expr)
  | whileLoop (condition body : Expr)
  | forLoop (pattern iterable body : Expr)
  | matching (scrutinee : Expr) (clauses : List (Expr × Expr))
  | attempt (body : Expr) (clauses : List (Expr × Expr))
  | raise (value : Expr)
  | leave
  | leaveWith (value : Expr)
  | classDef (name : String) (superclass : Option String) (members : List Member)
  | importing (path : List String)

/-- The members that a class declares. -/
inductive Member where
  | method (name : String) (params : Params) (body : Expr)
  | field (name : String)
  | fieldWith (name : String) (default : Expr)

end

namespace Expr

instance : Inhabited Expr := ⟨.node default .leave⟩

/-- The site of a node. -/
def site : Expr → Site
  | .node site _ => site

/-- The form of a node. -/
def form : Expr → Form
  | .node _ form => form

/-- The token that introduced a node. -/
def token (e : Expr) : Token := e.site.token

/-- The line of a node. -/
def line (e : Expr) : Nat := e.token.line

/-- The source of a node. -/
def source (e : Expr) : String := e.token.source

/-- A node without annotations. -/
def plain (token : Token) (form : Form) : Expr := .node ⟨token, []⟩ form

/-- Adds an annotation to a node. -/
def annotate (mark : String) : Expr → Expr
  | .node site form => .node { site with annotations := site.annotations ++ [mark] } form

/-- The annotation that asks for a new name. -/
def newName : String := "var"

/-- Whether a node asks for new names. -/
def declares (e : Expr) : Bool := e.site.annotations.contains newName

/-- The name that a node is, if it is a bare name. -/
def asName? : Expr → Option String
  | .node _ (.name name) => some name
  | _ => none

end Expr

/-- The name of functions without one. -/
def lambdaName : String := "<lambda>"

end Tern
