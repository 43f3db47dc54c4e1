/-
Syntax trees in parentheses, head first: `1 + 2 * 3` is printed as `(+ 1 (* 2 3))`.
-/
import Tern.Expr.Basic
import Tern.Text.Quoted

namespace Tern

/-- A constant in a printed tree. -/
def Constant.print : Constant → String
  | .number n => Number.print n.value
  | .text s => Text.quote s
  | .bool true => "true"
  | .bool false => "false"
  | .null => "null"

/-- Parameters in a printed tree; the last one may collect all further arguments. -/
def Params.print (p : Params) : String :=
  let rest := match p.rest with
    | some name => [name ++ "..."]
    | none => []
  "(" ++ " ".intercalate (p.names ++ rest) ++ ")"

/-- Puts the annotations of a node around its printed form. -/
def Site.print (site : Site) (printed : String) : String :=
  if site.annotations.isEmpty then printed
  else "(" ++ " ".intercalate (site.annotations.map ("@" ++ ·)) ++ " " ++ printed ++ ")"

mutual

/-- The printed form of a tree. -/
def Expr.print : Expr → String
  | .node site form => site.print form.print

/-- The printed form of a node without its annotations. -/
def Form.print : Form → String
  | .constant value => value.print
  | .name name => name
  | .group inner => "(group " ++ inner.print ++ ")"
  | .tuple items => "(tuple" ++ printItems items ++ ")"
  | .list items => "(list" ++ printItems items ++ ")"
  | .map entries => "(map" ++ printEntries entries ++ ")"
  | .pair left right => "(: " ++ left.print ++ " " ++ right.print ++ ")"
  | .unary op operand => "(" ++ op.symbol ++ " " ++ operand.print ++ ")"
  | .binary op left right =>
    "(" ++ op.symbol ++ " " ++ left.print ++ " " ++ right.print ++ ")"
  | .logical op left right =>
    "(" ++ op.symbol ++ " " ++ left.print ++ " " ++ right.print ++ ")"
  | .assign name value declare =>
    "(" ++ (if declare then "var" else "=") ++ " " ++ name ++ " " ++ value.print ++ ")"
  | .destructure pattern value => "(= " ++ pattern.print ++ " " ++ value.print ++ ")"
  | .index target index => "(index " ++ target.print ++ " " ++ index.print ++ ")"
  | .setIndex target index value =>
    "(index= " ++ target.print ++ " " ++ index.print ++ " " ++ value.print ++ ")"
  | .member object name safe =>
    "(" ++ (if safe then "?." else ".") ++ " " ++ object.print ++ " " ++ name ++ ")"
  | .setMember object name value =>
    "(.= " ++ object.print ++ " " ++ name ++ " " ++ value.print ++ ")"
  | .call callee arguments => "(call " ++ callee.print ++ printItems arguments ++ ")"
  | .spread inner => "(... " ++ inner.print ++ ")"
  | .function name params body _ =>
    "(fn " ++ name ++ " " ++ params.print ++ " " ++ body.print ++ ")"
  | .lambda params body => "(lambda " ++ params.print ++ " " ++ body.print ++ ")"
  | .block body => "(block" ++ printItems body ++ ")"
  | .branch condition yes => "(if " ++ condition.print ++ " " ++ yes.print ++ ")"
  | .branchElse condition yes no =>
    "(if " ++ condition.print ++ " " ++ yes.print ++ " " ++ no.print ++ ")"
  | .whileLoop condition body => "(while " ++ condition.print ++ " " ++ body.print ++ ")"
  | .forLoop pattern iterable body =>
    "(for " ++ pattern.print ++ " " ++ iterable.print ++ " " ++ body.print ++ ")"
  | .matching scrutinee clauses => "(match " ++ scrutinee.print ++ printClauses clauses ++ ")"
  | .attempt body clauses => "(try " ++ body.print ++ printClauses clauses ++ ")"
  | .raise value => "(throw " ++ value.print ++ ")"
  | .leave => "(return)"
  | .leaveWith value => "(return " ++ value.print ++ ")"
  | .classDef name superclass members =>
    let parent := match superclass with
      | some parent => " : " ++ parent
      | none => ""
    "(class " ++ name ++ parent ++ printMembers members ++ ")"
  | .importing path => "(import " ++ ".".intercalate path ++ ")"

/-- Trees in a row, each behind a blank. -/
def printItems : List Expr → String
  | [] => ""
  | e :: es => " " ++ e.print ++ printItems es

/-- The entries of a map, each behind a blank. -/
def printEntries : List (Expr × Expr) → String
  | [] => ""
  | (key, value) :: rest =>
    " (" ++ key.print ++ " " ++ value.print ++ ")" ++ printEntries rest

/-- Clauses, each behind a blank. -/
def printClauses : List (Expr × Expr) → String
  | [] => ""
  | (pattern, body) :: rest =>
    " (" ++ pattern.print ++ " -> " ++ body.print ++ ")" ++ printClauses rest

/-- The members of a class, each behind a blank. -/
def printMembers : List Member → String
  | [] => ""
  | m :: rest => " " ++ m.print ++ printMembers rest

/-- A member of a class. -/
def Member.print : Member → String
  | .method name params body => "(fn " ++ name ++ " " ++ params.print ++ " " ++ body.print ++ ")"
  | .field name => "(field " ++ name ++ ")"
  | .fieldWith name default => "(field " ++ name ++ " " ++ default.print ++ ")"

end

end Tern
