/-
Trees as they are printed. A printed tree is a text in nested parentheses: a row for each form,
with its head, its names and the trees inside it.

* `Expr.nested`: the words, quoted texts and rows of a printed tree;
* `Expr.toList_print`: a tree is printed as they are written.
-/
import Mathlib.Tactic
import Tern.Expr.Parser
import Tern.Expr.Printer
import Tern.Proofs.Nested

namespace Tern

/-! ### Printed trees as nested rows -/

namespace Nested

lemma spaced_append (items more : List Nested) :
    spaced (items ++ more) = spaced items ++ spaced more := by
  induction items with
  | nil => rfl
  | cons item items ih => simp [spaced, ih]

lemma chars_row (items : List Nested) :
    (row items).chars = '(' :: ((spaced items).tail ++ [')']) := by
  cases items with
  | nil => simp [chars, spaced]
  | cons item items => simp [chars, spaced]

/-- Words in a row, with blanks between them. -/
lemma spaced_words {texts : List String} (h : texts ≠ []) :
    spaced (texts.map .word) = ' ' :: (" ".intercalate texts).toList := by
  rw [String.toList_intercalate]
  induction texts with
  | nil => exact absurd rfl h
  | cons text texts ih =>
      cases texts with
      | nil => simp [spaced, chars]
      | cons next texts =>
          have hrest := ih (by simp)
          rw [List.map_cons, spaced, hrest, chars]
          simp [List.intercalate]

end Nested

/-- A constant as it is printed. -/
def Constant.nested : Constant → Nested
  | .number n => .word (Number.print n.value)
  | .text s => .quoted s
  | .bool true => .word "true"
  | .bool false => .word "false"
  | .null => .word "null"

/-- The words for parameters. -/
def Params.words (p : Params) : List String := p.names ++ (p.rest.map (· ++ "...")).toList

/-- Annotations around a printed form. -/
def Site.nested (site : Site) (inner : Nested) : Nested :=
  if site.annotations.isEmpty then inner
  else .row ((site.annotations.map ("@" ++ ·)).map .word ++ [inner])

/-- The words for a superclass. -/
def parentWords : Option String → List String
  | some parent => [":", parent]
  | none => []

mutual

/-- A tree as it is printed. -/
def Expr.nested : Expr → Nested
  | .node site form => site.nested form.nested

/-- A form as it is printed. -/
def Form.nested : Form → Nested
  | .constant value => value.nested
  | .name name => .word name
  | .group inner => .row [.word "group", inner.nested]
  | .tuple items => .row (.word "tuple" :: nestItems items)
  | .list items => .row (.word "list" :: nestItems items)
  | .map entries => .row (.word "map" :: nestEntries entries)
  | .pair left right => .row [.word ":", left.nested, right.nested]
  | .unary op operand => .row [.word op.symbol, operand.nested]
  | .binary op left right => .row [.word op.symbol, left.nested, right.nested]
  | .logical op left right => .row [.word op.symbol, left.nested, right.nested]
  | .assign name value declare =>
    .row [.word (if declare then "var" else "="), .word name, value.nested]
  | .destructure pattern value => .row [.word "=", pattern.nested, value.nested]
  | .index target index => .row [.word "index", target.nested, index.nested]
  | .setIndex target index value =>
    .row [.word "index=", target.nested, index.nested, value.nested]
  | .member object name safe =>
    .row [.word (if safe then "?." else "."), object.nested, .word name]
  | .setMember object name value => .row [.word ".=", object.nested, .word name, value.nested]
  | .call callee arguments => .row (.word "call" :: callee.nested :: nestItems arguments)
  | .spread inner => .row [.word "...", inner.nested]
  | .function name params body _ =>
    .row [.word "fn", .word name, .row (params.words.map .word), body.nested]
  | .lambda params body => .row [.word "lambda", .row (params.words.map .word), body.nested]
  | .block body => .row (.word "block" :: nestItems body)
  | .branch condition yes => .row [.word "if", condition.nested, yes.nested]
  | .branchElse condition yes no => .row [.word "if", condition.nested, yes.nested, no.nested]
  | .whileLoop condition body => .row [.word "while", condition.nested, body.nested]
  | .forLoop pattern iterable body =>
    .row [.word "for", pattern.nested, iterable.nested, body.nested]
  | .matching scrutinee clauses => .row (.word "match" :: scrutinee.nested :: nestClauses clauses)
  | .attempt body clauses => .row (.word "try" :: body.nested :: nestClauses clauses)
  | .raise value => .row [.word "throw", value.nested]
  | .leave => .row [.word "return"]
  | .leaveWith value => .row [.word "return", value.nested]
  | .classDef name superclass members =>
    .row (.word "class" :: .word name ::
      ((parentWords superclass).map .word ++ nestMembers members))
  | .importing path => .row [.word "import", .word (".".intercalate path)]

/-- Trees in a row as they are printed. -/
def nestItems : List Expr → List Nested
  | [] => []
  | e :: rest => e.nested :: nestItems rest

/-- The entries of a map as they are printed. -/
def nestEntries : List (Expr × Expr) → List Nested
  | [] => []
  | (key, value) :: rest => .row [key.nested, value.nested] :: nestEntries rest

/-- Clauses as they are printed. -/
def nestClauses : List (Expr × Expr) → List Nested
  | [] => []
  | (pattern, body) :: rest =>
    .row [pattern.nested, .word "->", body.nested] :: nestClauses rest

/-- The members of a class as they are printed. -/
def nestMembers : List Member → List Nested
  | [] => []
  | m :: rest => m.nested :: nestMembers rest

/-- A member of a class as it is printed. -/
def Member.nested : Member → Nested
  | .method name params body =>
    .row [.word "fn", .word name, .row (params.words.map .word), body.nested]
  | .field name => .row [.word "field", .word name]
  | .fieldWith name default => .row [.word "field", .word name, default.nested]

end

open Nested

lemma Constant.toList_print (c : Constant) : c.print.toList = c.nested.chars := by
  cases c with
  | number n => rfl
  | text s => rw [Constant.print, Constant.nested, chars, Text.quote, String.toList_ofList]
  | bool b => cases b <;> rfl
  | null => rfl

lemma Params.toList_print (p : Params) :
    p.print.toList = (Nested.row (p.words.map .word)).chars := by
  have hwords : p.print = "(" ++ " ".intercalate p.words ++ ")" := by
    obtain ⟨names, rest⟩ := p
    cases rest <;> rfl
  rw [hwords, chars_row]
  by_cases h : p.words = []
  · rw [h]
    rfl
  · rw [spaced_words h]
    simp

lemma Site.toList_print (site : Site) {printed : String} {inner : Nested}
    (h : printed.toList = inner.chars) :
    (site.print printed).toList = (site.nested inner).chars := by
  rw [Site.print, Site.nested]
  split
  · exact h
  · rename_i hne
    have hmarks : site.annotations.map ("@" ++ ·) ≠ [] := by simpa using hne
    rw [chars_row, spaced_append, spaced_words hmarks]
    simp [spaced, h]

mutual

/-- A printed tree is written as nested rows. -/
theorem Expr.toList_print : ∀ e : Expr, e.print.toList = e.nested.chars
  | .node site form => by
    rw [Expr.print, Expr.nested]
    exact site.toList_print (Form.toList_print form)

theorem Form.toList_print (form : Form) : form.print.toList = form.nested.chars := by
  cases form with
  | constant value => exact value.toList_print
  | classDef name superclass members =>
      cases superclass <;>
        simp [Form.print, Form.nested, parentWords, chars, spaced, toList_printMembers]
  | _ =>
      simp [Form.print, Form.nested, chars, spaced, Expr.toList_print, toList_printItems,
        toList_printEntries, toList_printClauses, Params.toList_print]

theorem toList_printItems : ∀ es : List Expr, (printItems es).toList = spaced (nestItems es)
  | [] => rfl
  | e :: rest => by
    simp [printItems, nestItems, spaced, Expr.toList_print e, toList_printItems rest]

theorem toList_printEntries : ∀ es : List (Expr × Expr),
    (printEntries es).toList = spaced (nestEntries es)
  | [] => rfl
  | (key, value) :: rest => by
    simp [printEntries, nestEntries, spaced, chars, Expr.toList_print key,
      Expr.toList_print value, toList_printEntries rest]

theorem toList_printClauses : ∀ es : List (Expr × Expr),
    (printClauses es).toList = spaced (nestClauses es)
  | [] => rfl
  | (pattern, body) :: rest => by
    simp [printClauses, nestClauses, spaced, chars, Expr.toList_print pattern,
      Expr.toList_print body, toList_printClauses rest]

theorem toList_printMembers : ∀ ms : List Member,
    (printMembers ms).toList = spaced (nestMembers ms)
  | [] => rfl
  | m :: rest => by
    simp [printMembers, nestMembers, spaced, Member.toList_print m, toList_printMembers rest]

theorem Member.toList_print (m : Member) : m.print.toList = m.nested.chars := by
  cases m <;>
    simp [Member.print, Member.nested, chars, spaced, Expr.toList_print, Params.toList_print]

end

end Tern
