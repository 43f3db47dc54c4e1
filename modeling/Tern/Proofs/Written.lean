/-
Trees written as tokens. Every form has a rung on the ladder from assignment to call, and an
operand is put in parentheses exactly if its own rung is too low for its place: lower than that
of the operator, or the same on the side to which the operator does not associate.

* `Rung`, `tooLow`: the ladder and the need for parentheses;
* `OnLadder`: the trees without annotations that operators, calls, members and collections build
  from names and constants;
* `Expr.write`: the tokens of such a tree;
* `Expr.ungrouped`: a tree without the nodes that parentheses leave in it;
* `Mirrors`, `Spells`: a tree that was read is the one that was written, parentheses and the
  places of tokens apart.
-/
import Mathlib.Tactic
import Tern.Expr.Grammar
import Tern.Proofs.Relabel

namespace Tern

/-! ### The ladder -/

/-- The sides of an operator. -/
inductive Side where
  | left | right
  deriving DecidableEq

/-- The side to which an operator associates. -/
def BinaryOp.side : BinaryOp → Side
  | .power => .right
  | _ => .left

/-- The kind of the sign of an operator. -/
def UnaryOp.kind : UnaryOp → TokenKind
  | .negate => .minus
  | .not => .bang

/-- The kind of the sign of an operator. -/
def BinaryOp.kind : BinaryOp → TokenKind
  | .add => .plus
  | .subtract => .minus
  | .multiply => .star
  | .divide => .slash
  | .remainder => .percent
  | .power => .caret
  | .concat => .tilde
  | .equal => .equalEqual
  | .notEqual => .bangEqual
  | .less => .less
  | .lessEqual => .lessEqual
  | .greater => .greater
  | .greaterEqual => .greaterEqual

/-- The kind of the word for an operator. -/
def LogicalOp.kind : LogicalOp → TokenKind
  | .and => .andWord
  | .or => .orWord

/-- The rungs of the ladder in order, from what binds loosest to what binds tightest. Above the
ladder is what needs no parentheses anywhere. -/
inductive Rung where
  | assignment | record | logical | equality | comparison | exponent | sum | product | leading
  | call | above
  deriving DecidableEq

/-- How high a rung is. -/
def Rung.height (rung : Rung) : Nat := rung.ctorIdx

/-- The rung of an operator. -/
def BinaryOp.rung : BinaryOp → Rung
  | .equal | .notEqual => .equality
  | .less | .lessEqual | .greater | .greaterEqual => .comparison
  | .power => .exponent
  | .add | .subtract | .concat => .sum
  | .multiply | .divide | .remainder => .product

/-- The rung of a form. -/
def Form.rung : Form → Rung
  | .assign .. | .lambda .. => .assignment
  | .pair .. => .record
  | .logical .. => .logical
  | .binary op .. => op.rung
  | .unary .. => .leading
  | .call .. | .index .. | .member .. => .call
  | _ => .above

/-- The rung of an expression. -/
def Expr.rung (e : Expr) : Rung := e.form.rung

/-- Whether an operand on some rung needs parentheses on one side of an operator that associates
to a side: it is on a lower rung than the operator, or on the same one on the other side. -/
def tooLow (operator : Rung) (associates side : Side) (operand : Rung) : Bool :=
  operand.height < operator.height || (operand = operator && side ≠ associates)

/-- The trees without annotations built from names and constants by operators, calls, indices,
members, assignments to a name, functions of one parameter and collections. -/
inductive OnLadder : Expr → Prop
  | constant (t : Token) (c : Constant) : OnLadder (.node ⟨t, []⟩ (.constant c))
  | name (t : Token) (x : String) : OnLadder (.node ⟨t, []⟩ (.name x))
  | tuple (t : Token) {items : List Expr} (h : ∀ e ∈ items, OnLadder e) :
      OnLadder (.node ⟨t, []⟩ (.tuple items))
  | list (t : Token) {items : List Expr} (h : ∀ e ∈ items, OnLadder e) :
      OnLadder (.node ⟨t, []⟩ (.list items))
  | map (t : Token) {entries : List (Expr × Expr)} (hk : ∀ p ∈ entries, OnLadder p.1)
      (hv : ∀ p ∈ entries, OnLadder p.2) : OnLadder (.node ⟨t, []⟩ (.map entries))
  | unary (t : Token) (op : UnaryOp) {operand : Expr} (h : OnLadder operand) :
      OnLadder (.node ⟨t, []⟩ (.unary op operand))
  | binary (t : Token) (op : BinaryOp) {left right : Expr} (hl : OnLadder left)
      (hr : OnLadder right) : OnLadder (.node ⟨t, []⟩ (.binary op left right))
  | logical (t : Token) (op : LogicalOp) {left right : Expr} (hl : OnLadder left)
      (hr : OnLadder right) : OnLadder (.node ⟨t, []⟩ (.logical op left right))
  | call (t : Token) {callee : Expr} {arguments : List Expr} (hc : OnLadder callee)
      (ha : ∀ e ∈ arguments, OnLadder e) : OnLadder (.node ⟨t, []⟩ (.call callee arguments))
  | index (t : Token) {target index : Expr} (ht : OnLadder target) (hi : OnLadder index) :
      OnLadder (.node ⟨t, []⟩ (.index target index))
  | member (t : Token) {object : Expr} (name : String) (safe : Bool) (h : OnLadder object) :
      OnLadder (.node ⟨t, []⟩ (.member object name safe))
  | assign (t : Token) (name : String) {value : Expr} (h : OnLadder value) :
      OnLadder (.node ⟨t, []⟩ (.assign name value false))
  | lambda (t : Token) (x : String) {body : Expr} (h : OnLadder body) :
      OnLadder (.node ⟨t, []⟩ (.lambda ⟨[x], none⟩ body))

/-! ### Writing -/

/-- Where tokens are written, and the side to which a sign in front is taken to associate: to
the left, a signed operand of a sign has parentheses, and to the right it has none. -/
structure Layout where
  source : String
  line : Nat
  signs : Side

namespace Layout

variable (l : Layout)

/-- A token without a value. -/
def sign (kind : TokenKind) (lexeme : String) : Token := ⟨kind, lexeme, none, l.line, l.source⟩

/-- The token of a constant. -/
def constant (c : Constant) : Token :=
  match c with
  | .number n => ⟨.number, c.print, some (.number n), l.line, l.source⟩
  | .text s => ⟨.string, c.print, some (.text s), l.line, l.source⟩
  | .bool true => l.sign .trueWord c.print
  | .bool false => l.sign .falseWord c.print
  | .null => l.sign .nullWord c.print

/-- Puts tokens in parentheses if they need them. -/
def enclose (needed : Bool) (ts : List Token) : List Token :=
  if needed then l.sign .leftParen "(" :: (ts ++ [l.sign .rightParen ")"]) else ts

/-- The comma. -/
def comma : Token := l.sign .comma ","

/-- The colon. -/
def colon : Token := l.sign .colon ":"

@[simp]
lemma sign_kind (kind : TokenKind) (lexeme : String) : (l.sign kind lexeme).kind = kind := rfl

@[simp]
lemma comma_kind : l.comma.kind = .comma := rfl

@[simp]
lemma colon_kind : l.colon.kind = .colon := rfl

end Layout

mutual

/-- The tokens of a tree. -/
def Expr.write (l : Layout) : Expr → List Token
  | .node _ form => form.write l

/-- The tokens of a form; there are none for what is not on the ladder. -/
def Form.write (l : Layout) : Form → List Token
  | .constant c => [l.constant c]
  | .name x => [l.sign .identifier x]
  | .tuple items =>
    l.sign .leftParen "(" :: (writeItems l items ++ (if items.length = 1 then [l.comma] else []) ++
      [l.sign .rightParen ")"])
  | .list items =>
    l.sign .leftBracket "[" :: (writeItems l items ++ [l.sign .rightBracket "]"])
  | .map entries =>
    l.sign .leftBracket "[" :: ((if entries.isEmpty then [l.colon] else writeEntries l entries) ++
      [l.sign .rightBracket "]"])
  | .pair left right =>
    l.enclose (tooLow .record .left .left left.rung) (left.write l) ++
      l.colon :: l.enclose (tooLow .record .left .right right.rung) (right.write l)
  | .unary op operand =>
    l.sign op.kind op.symbol ::
      l.enclose (tooLow .leading l.signs .right operand.rung) (operand.write l)
  | .binary op left right =>
    l.enclose (tooLow op.rung op.side .left left.rung) (left.write l) ++
      l.sign op.kind op.symbol ::
        l.enclose (tooLow op.rung op.side .right right.rung) (right.write l)
  | .logical op left right =>
    l.enclose (tooLow .logical .left .left left.rung) (left.write l) ++
      l.sign op.kind op.symbol ::
        l.enclose (tooLow .logical .left .right right.rung) (right.write l)
  | .call callee arguments =>
    l.enclose (tooLow .call .left .left callee.rung) (callee.write l) ++
      l.sign .leftParen "(" :: (writeItems l arguments ++ [l.sign .rightParen ")"])
  | .index target index =>
    l.enclose (tooLow .call .left .left target.rung) (target.write l) ++
      l.sign .leftBracket "[" :: (index.write l ++ [l.sign .rightBracket "]"])
  | .member object name safe =>
    l.enclose (tooLow .call .left .left object.rung) (object.write l) ++
      [if safe then l.sign .safeDot "?." else l.sign .dot ".", l.sign .identifier name]
  | .assign name value _ =>
    l.sign .identifier name :: l.sign .equal "=" ::
      l.enclose (tooLow .assignment .right .right value.rung) (value.write l)
  | .lambda params body =>
    params.names.map (l.sign .identifier) ++ l.sign .arrow "->" ::
      l.enclose (tooLow .assignment .right .right body.rung) (body.write l)
  | _ => []

/-- The tokens of trees with commas between them. -/
def writeItems (l : Layout) : List Expr → List Token
  | [] => []
  | e :: rest => e.write l ++ writeMore l rest

/-- The tokens of further trees, each behind a comma. -/
def writeMore (l : Layout) : List Expr → List Token
  | [] => []
  | e :: rest => l.comma :: (e.write l ++ writeMore l rest)

/-- The tokens of the entries of a map with commas between them. -/
def writeEntries (l : Layout) : List (Expr × Expr) → List Token
  | [] => []
  | (k, v) :: rest =>
    l.enclose (tooLow .record .left .left k.rung) (k.write l) ++
      l.colon :: (l.enclose (tooLow .record .left .right v.rung) (v.write l) ++
        writeMoreEntries l rest)

/-- The tokens of further entries, each behind a comma. -/
def writeMoreEntries (l : Layout) : List (Expr × Expr) → List Token
  | [] => []
  | (k, v) :: rest =>
    l.comma :: (l.enclose (tooLow .record .left .left k.rung) (k.write l) ++
      l.colon :: (l.enclose (tooLow .record .left .right v.rung) (v.write l) ++
        writeMoreEntries l rest))

end

/-- The pairs that the entries of a map are written as. -/
def pairsOf (l : Layout) (entries : List (Expr × Expr)) : List Expr :=
  entries.map fun p => Expr.plain l.colon (.pair p.1 p.2)

lemma writeItems_pairsOf (l : Layout) (entries : List (Expr × Expr)) :
    writeItems l (pairsOf l entries) = writeEntries l entries := by
  have hmore : ∀ entries : List (Expr × Expr),
      writeMore l (pairsOf l entries) = writeMoreEntries l entries := by
    intro entries
    induction entries with
    | nil => rfl
    | cons p entries ih =>
        rw [pairsOf, List.map_cons, writeMore, ← pairsOf, ih, writeMoreEntries]
        simp [Expr.plain, Expr.write, Form.write]
  cases entries with
  | nil => rfl
  | cons p entries =>
      rw [pairsOf, List.map_cons, writeItems, ← pairsOf, hmore, writeEntries]
      simp [Expr.plain, Expr.write, Form.write]

/-! ### Parentheses taken off -/

mutual

/-- A tree without the nodes that parentheses leave in it. -/
def Expr.ungrouped : Expr → Expr
  | .node _ (.group inner) => inner.ungrouped
  | .node site form => .node site form.ungrouped

/-- A form with parentheses taken off inside it. -/
def Form.ungrouped : Form → Form
  | .constant c => .constant c
  | .name name => .name name
  | .group inner => .group inner.ungrouped
  | .tuple items => .tuple (ungroupItems items)
  | .list items => .list (ungroupItems items)
  | .map entries => .map (ungroupPairs entries)
  | .pair left right => .pair left.ungrouped right.ungrouped
  | .unary op operand => .unary op operand.ungrouped
  | .binary op left right => .binary op left.ungrouped right.ungrouped
  | .logical op left right => .logical op left.ungrouped right.ungrouped
  | .assign name value declare => .assign name value.ungrouped declare
  | .destructure pattern value => .destructure pattern.ungrouped value.ungrouped
  | .index target index => .index target.ungrouped index.ungrouped
  | .setIndex target index value => .setIndex target.ungrouped index.ungrouped value.ungrouped
  | .member object name safe => .member object.ungrouped name safe
  | .setMember object name value => .setMember object.ungrouped name value.ungrouped
  | .call callee arguments => .call callee.ungrouped (ungroupItems arguments)
  | .spread inner => .spread inner.ungrouped
  | .function name params body declare => .function name params body.ungrouped declare
  | .lambda params body => .lambda params body.ungrouped
  | .block body => .block (ungroupItems body)
  | .branch condition yes => .branch condition.ungrouped yes.ungrouped
  | .branchElse condition yes no => .branchElse condition.ungrouped yes.ungrouped no.ungrouped
  | .whileLoop condition body => .whileLoop condition.ungrouped body.ungrouped
  | .forLoop pattern iterable body =>
    .forLoop pattern.ungrouped iterable.ungrouped body.ungrouped
  | .matching scrutinee clauses => .matching scrutinee.ungrouped (ungroupPairs clauses)
  | .attempt body clauses => .attempt body.ungrouped (ungroupPairs clauses)
  | .raise value => .raise value.ungrouped
  | .leave => .leave
  | .leaveWith value => .leaveWith value.ungrouped
  | .classDef name superclass members => .classDef name superclass (ungroupMembers members)
  | .importing path => .importing path

/-- Trees in a row with parentheses taken off. -/
def ungroupItems : List Expr → List Expr
  | [] => []
  | e :: rest => e.ungrouped :: ungroupItems rest

/-- Pairs of trees with parentheses taken off. -/
def ungroupPairs : List (Expr × Expr) → List (Expr × Expr)
  | [] => []
  | (e, e') :: rest => (e.ungrouped, e'.ungrouped) :: ungroupPairs rest

/-- The members of a class with parentheses taken off inside them. -/
def ungroupMembers : List Member → List Member
  | [] => []
  | m :: rest => m.ungrouped :: ungroupMembers rest

/-- A member of a class with parentheses taken off inside it. -/
def Member.ungrouped : Member → Member
  | .method name params body => .method name params body.ungrouped
  | .field name => .field name
  | .fieldWith name default => .fieldWith name default.ungrouped

end

lemma Expr.ungrouped_node {site : Site} {form : Form} (h : ∀ inner, form ≠ .group inner) :
    (Expr.node site form).ungrouped = .node site form.ungrouped := by
  cases form with
  | group inner => exact absurd rfl (h inner)
  | _ => rw [Expr.ungrouped]; simp

mutual

/-- Parentheses are taken off whatever the tokens are. -/
theorem Expr.ungrouped_mapTokens (g f : Token → Token) : ∀ e : Expr,
    (e.mapTokens f).ungrouped.mapTokens g = e.ungrouped.mapTokens (g ∘ f)
  | .node site form => by
    have hform := Form.ungrouped_mapTokens g f form
    cases form with
    | group inner =>
        simp only [Form.ungrouped, Form.mapTokens, Form.group.injEq] at hform
        rw [Expr.mapTokens, Form.mapTokens, Expr.ungrouped, Expr.ungrouped, hform]
    | _ =>
        rw [Expr.mapTokens, Expr.ungrouped_node (by simp [Form.mapTokens]),
          Expr.ungrouped_node (by simp), Expr.mapTokens, Expr.mapTokens, hform]
        rfl

theorem Form.ungrouped_mapTokens (g f : Token → Token) (form : Form) :
    (form.mapTokens f).ungrouped.mapTokens g = form.ungrouped.mapTokens (g ∘ f) := by
  cases form <;> simp only [Form.mapTokens, Form.ungrouped, Expr.ungrouped_mapTokens,
    ungroupItems_mapItems, ungroupPairs_mapPairs, ungroupMembers_mapMembers]

theorem ungroupItems_mapItems (g f : Token → Token) : ∀ es : List Expr,
    mapItems g (ungroupItems (mapItems f es)) = mapItems (g ∘ f) (ungroupItems es)
  | [] => rfl
  | e :: rest => by
    rw [mapItems, ungroupItems, ungroupItems, mapItems, mapItems, Expr.ungrouped_mapTokens g f e,
      ungroupItems_mapItems g f rest]

theorem ungroupPairs_mapPairs (g f : Token → Token) : ∀ es : List (Expr × Expr),
    mapPairs g (ungroupPairs (mapPairs f es)) = mapPairs (g ∘ f) (ungroupPairs es)
  | [] => rfl
  | (e, e') :: rest => by
    rw [mapPairs, ungroupPairs, ungroupPairs, mapPairs, mapPairs, Expr.ungrouped_mapTokens g f e,
      Expr.ungrouped_mapTokens g f e', ungroupPairs_mapPairs g f rest]

theorem ungroupMembers_mapMembers (g f : Token → Token) : ∀ ms : List Member,
    mapMembers g (ungroupMembers (mapMembers f ms)) = mapMembers (g ∘ f) (ungroupMembers ms)
  | [] => rfl
  | m :: rest => by
    rw [mapMembers, ungroupMembers, ungroupMembers, mapMembers, mapMembers,
      Member.ungrouped_mapTokens g f m, ungroupMembers_mapMembers g f rest]

theorem Member.ungrouped_mapTokens (g f : Token → Token) (m : Member) :
    (m.mapTokens f).ungrouped.mapTokens g = m.ungrouped.mapTokens (g ∘ f) := by
  cases m <;> simp only [Member.mapTokens, Member.ungrouped, Expr.ungrouped_mapTokens]

end

/-! ### What was read and what was written -/

/-- All tokens alike. -/
def Token.blank (_ : Token) : Token := default

/-- A tree that was read is the one that was written, parentheses and tokens apart. -/
def Spells (e' e : Expr) : Prop := e'.ungrouped.mapTokens Token.blank = e.mapTokens Token.blank

/-- A tree that was read is a node of the form that was written, parentheses inside it and tokens
apart. -/
def Mirrors (e' : Expr) (form : Form) : Prop :=
  ∃ t form', e' = .node ⟨t, []⟩ form' ∧
    form'.ungrouped.mapTokens Token.blank = form.mapTokens Token.blank

lemma Mirrors.plain (t : Token) {form' form : Form}
    (h : form'.ungrouped.mapTokens Token.blank = form.mapTokens Token.blank) :
    Mirrors (Expr.plain t form') form :=
  ⟨t, form', rfl, h⟩

lemma Mirrors.spells {e' : Expr} {form : Form} {t : Token} (h : Mirrors e' form)
    (hg : ∀ inner, form ≠ .group inner) : Spells e' (.node ⟨t, []⟩ form) := by
  obtain ⟨t', form', rfl, h⟩ := h
  have hg' : ∀ inner, form' ≠ .group inner := by
    rintro inner rfl
    cases form <;> simp [Form.ungrouped, Form.mapTokens] at h
    exact hg _ rfl
  rw [Spells, Expr.ungrouped_node hg', Expr.mapTokens, Expr.mapTokens, h]
  rfl

/-- Parentheses around a tree do not count. -/
lemma Spells.group {e' e : Expr} (t : Token) (h : Spells e' e) :
    Spells (Expr.plain t (.group e')) e := by
  rwa [Spells, Expr.plain, Expr.ungrouped]

lemma OnLadder.not_group {e : Expr} (h : OnLadder e) (inner : Expr) : e.form ≠ .group inner := by
  cases h <;> exact nofun

lemma OnLadder.spells {e' e : Expr} (h : OnLadder e) (hm : Mirrors e' e.form) : Spells e' e := by
  have hg := h.not_group
  cases h <;> exact hm.spells hg

/-- Only what was written as a pair is read as one. -/
lemma Mirrors.pair {e' left right : Expr} (h : Mirrors e' (.pair left right)) :
    ∃ t left' right', e' = .node ⟨t, []⟩ (.pair left' right') ∧ Spells left' left ∧
      Spells right' right := by
  obtain ⟨t, form', rfl, h⟩ := h
  cases form' with
  | pair left' right' =>
      simp only [Form.ungrouped, Form.mapTokens, Form.pair.injEq] at h
      exact ⟨t, left', right', rfl, h⟩
  | _ => simp [Form.ungrouped, Form.mapTokens] at h

lemma OnLadder.not_pair {e : Expr} (h : OnLadder e) {t : Token} {left right : Expr} :
    ¬ Mirrors (.node ⟨t, []⟩ (.pair left right)) e.form := by
  rintro ⟨_, _, heq, hm⟩
  cases heq
  cases h <;> simp [Form.ungrouped, Form.mapTokens, Expr.form] at hm

/-- Trees in a row that were read are those that were written. -/
abbrev AllSpell (es' es : List Expr) : Prop := List.Forall₂ Spells es' es

lemma allSpell_iff {es' es : List Expr} :
    AllSpell es' es ↔ mapItems Token.blank (ungroupItems es') = mapItems Token.blank es := by
  induction es' generalizing es with
  | nil => cases es <;> simp [ungroupItems, mapItems]
  | cons e' es' ih => cases es <;> simp [ungroupItems, mapItems, ih, Spells]

/-- Pairs of trees that were read are those that were written. -/
abbrev AllSpellPairs (ps' ps : List (Expr × Expr)) : Prop :=
  List.Forall₂ (fun p' p => Spells p'.1 p.1 ∧ Spells p'.2 p.2) ps' ps

lemma allSpellPairs_iff {ps' ps : List (Expr × Expr)} :
    AllSpellPairs ps' ps ↔ mapPairs Token.blank (ungroupPairs ps') = mapPairs Token.blank ps := by
  induction ps' generalizing ps with
  | nil => cases ps <;> simp [ungroupPairs, mapPairs]
  | cons p' ps' ih =>
      cases ps with
      | nil => simp [ungroupPairs, mapPairs]
      | cons p ps =>
          rw [AllSpellPairs, List.forall₂_cons, ← AllSpellPairs, ih, ungroupPairs, mapPairs,
            mapPairs, List.cons.injEq, Prod.mk.injEq, Spells, Spells]

/-- Tokens whose first can start an expression. -/
def Starts (ts : List Token) : Prop :=
  ∃ t us, ts = t :: us ∧ t.kind.start?.isSome

lemma Starts.exists_cons {ts : List Token} (h : Starts ts) :
    ∃ t us, ts = t :: us ∧ ∀ {kind : TokenKind}, kind.start? = none → t.kind ≠ kind := by
  obtain ⟨t, us, rfl, hstart⟩ := h
  refine ⟨t, us, rfl, ?_⟩
  rintro kind hk rfl
  rw [hk] at hstart
  cases hstart

lemma Starts.enclose {l : Layout} {needed : Bool} {ts more : List Token} (h : Starts ts) :
    Starts (l.enclose needed ts ++ more) := by
  obtain ⟨t, us, rfl, ht⟩ := h
  cases needed with
  | true => exact ⟨_, _, rfl, rfl⟩
  | false => exact ⟨t, us ++ more, rfl, ht⟩

/-- A written tree starts with a token that can start an expression. -/
lemma OnLadder.write_starts {e : Expr} (h : OnLadder e) (l : Layout) : Starts (e.write l) := by
  induction h with
  | constant t c =>
      refine ⟨l.constant c, [], rfl, ?_⟩
      cases c with
      | bool b => cases b <;> rfl
      | _ => rfl
  | unary t op _ _ =>
      refine ⟨_, _, rfl, ?_⟩
      cases op <;> rfl
  | binary t op _ _ ihl _ => exact ihl.enclose
  | logical t op _ _ ihl _ => exact ihl.enclose
  | call t _ _ ihc _ => exact ihc.enclose
  | index t _ _ iht _ => exact iht.enclose
  | member t name safe _ ih => exact ih.enclose
  | _ => exact ⟨_, _, rfl, rfl⟩

end Tern
