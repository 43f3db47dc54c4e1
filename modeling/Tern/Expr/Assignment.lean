/-
What stands to the left of an equals sign or an arrow. A name, an index, a member, a call or a
collection in front of `=` each make an assignment of their own form; a compound assignment
`t op= v` is the assignment `t = t op v`.
-/
import Tern.Expr.Basic
import Tern.SourceError

namespace Tern

/-- Reads parameters off expressions: names, and a spread name at the end. -/
def Params.ofExprs : List Expr → Except SourceError Params
  | [] => .ok ⟨[], none⟩
  | [.node site (.spread inner)] =>
    match inner.asName? with
    | some name => .ok ⟨[], some name⟩
    | none => .error (.parse site.token .restName)
  | .node site form :: rest =>
    match form with
    | .name name => (Params.ofExprs rest).map fun p => { p with names := name :: p.names }
    | _ => .error (.parse site.token .parameterName)

/-- The assignment of a value to a target, introduced by `token`. Parentheses around the target
mean nothing. -/
def assignment (value : Expr) (token : Token) : Expr → Except SourceError Expr
  | .node site form =>
    let declare := site.annotations.contains Expr.newName
    let done form := .ok (Expr.plain token form)
    match form with
    | .name name => done (.assign name value declare)
    | .group inner => assignment value token inner
    | .call callee arguments =>
      match callee.asName? with
      | none => .error (.parse callee.token .functionName)
      | some name =>
        match Params.ofExprs arguments with
        | .ok params => done (.function name params value (declare || callee.declares))
        | .error e => .error e
    | .index target index => done (.setIndex target index value)
    | .member object name false => done (.setMember object name value)
    | .tuple _ | .list _ | .map _ => done (.destructure (.node site form) value)
    | _ => .error (.parse token .invalidTarget)

/-- Takes off one pair of parentheses. -/
def Expr.ungroup : Expr → Expr
  | .node _ (.group inner) => inner
  | e => e

/-- Whether a target can be assigned to with an operator. -/
def Expr.isCompoundTarget : Expr → Bool
  | .node _ (.name _) | .node _ (.index _ _) | .node _ (.member _ _ false) => true
  | _ => false

/-- The assignment that joins the target's old value with a new one. -/
def compoundAssignment (op : BinaryOp) (target value : Expr) (token : Token) :
    Except SourceError Expr :=
  let target := target.ungroup
  if target.isCompoundTarget then
    assignment (Expr.plain token (.binary op target value)) token target
  else .error (.parse token .invalidCompoundTarget)

/-- The function that an arrow makes of what stands to its left and right. -/
def lambdaParams : Expr → Except SourceError Params
  | .node site form =>
    match form with
    | .name _ | .spread _ => Params.ofExprs [.node site form]
    | .group inner => Params.ofExprs [inner]
    | .tuple items => Params.ofExprs items
    | _ => .error (.parse site.token .lambdaParameters)

end Tern
