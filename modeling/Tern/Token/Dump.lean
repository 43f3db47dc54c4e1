/-
Tokens as JSON documents.
-/
import Tern.Json
import Tern.Token.Basic

namespace Tern

/-- A literal as a document: its value under the name of its kind. -/
def Literal.json : Literal → Json
  | .number n => .object [("Number", .number n.value)]
  | .text s => .object [("Str", .text s)]

/-- A token as a document. -/
def Token.json (t : Token) : Json :=
  .object
    [("token_type", .text t.kind.name),
      ("lexeme", .text t.lexeme),
      ("literal", t.literal.elim .null Literal.json),
      ("line", .natural t.line),
      ("source", .text t.source)]

end Tern
