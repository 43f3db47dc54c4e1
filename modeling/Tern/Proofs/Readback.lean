/-
Displayed data is source for itself: the text of a tree of data is scanned as the tokens that a
collection expression is written with, these are parsed as that expression, and its value is the
tree again.

* `Text.escape_of_legible`, `Scan.spelling_escape`: a quoted string is scanned as itself;
* `Datum.expr`, `Datum.Legible.scans`: the text of a tree is the tokens of an expression;
* `Eval.Yields`, `Eval.yields_of_spells`: that expression has the tree as its value;
* `Session.inPlace_display`: a displayed value is run.
-/
import Mathlib.Tactic
import Tern.Eval.Perform
import Tern.Proofs.Datum
import Tern.Proofs.Ladder
import Tern.Proofs.Local
import Tern.Proofs.Quotation

namespace Tern

/-! ### Quoted strings -/

/-- A legible character is written by an escape that stands for it, or as it is. -/
lemma Text.escape_of_legible {c : Char} (h : Text.Legible c) :
    (∃ x, escape c = ['\\', x] ∧ Scan.unescape? x = some c ∧ Scan.isLineEnd x = false) ∨
      (escape c = [c] ∧ c ≠ '"' ∧ c ≠ '\\' ∧ Scan.isLineEnd c = false) := by
  by_cases hc : c ∈ ['\x00', '\t', '\n', '\r', '"', '\\']
  · left
    simp only [List.mem_cons, List.not_mem_nil, or_false] at hc
    rcases hc with rfl | rfl | rfl | rfl | rfl | rfl <;> exact ⟨_, rfl, rfl, rfl⟩
  · right
    have hv : isVisible c = true := h.resolve_right hc
    simp only [List.mem_cons, List.not_mem_nil, or_false, not_or] at hc
    refine ⟨?_, hc.2.2.2.2.1, hc.2.2.2.2.2, by simp [Scan.isLineEnd, hc]⟩
    unfold escape
    split <;> simp_all

namespace Scan

/-- A quoted string is a way of writing its text. -/
lemma spelling_escape {cs : List Char} (h : ∀ c ∈ cs, Text.Legible c) :
    Spelling cs (cs.flatMap Text.escape) := by
  induction cs with
  | nil => exact .nil
  | cons c cs ih =>
      obtain ⟨hc, hcs⟩ := List.forall_mem_cons.mp h
      rw [List.flatMap_cons]
      rcases Text.escape_of_legible hc with ⟨x, hx, hu, _⟩ | ⟨hx, hq, hb, _⟩
      · rw [hx]
        exact .escaped (unescape?_eq_some_iff.mp hu) (ih hcs)
      · rw [hx]
        exact .raw hq hb (ih hcs)

lemma isLineEnd_escape {cs : List Char} (h : ∀ c ∈ cs, Text.Legible c) :
    ∀ c ∈ cs.flatMap Text.escape, isLineEnd c = false := by
  intro c hc
  obtain ⟨d, hd, hc⟩ := List.mem_flatMap.mp hc
  rcases Text.escape_of_legible (h d hd) with ⟨x, hx, _, hl⟩ | ⟨hx, _, _, hl⟩
  · rw [hx] at hc
    rcases List.mem_cons.mp hc with rfl | hc
    · rfl
    · rwa [List.mem_singleton.mp hc]
  · rw [hx] at hc
    rwa [List.mem_singleton.mp hc]

end Scan

/-! ### Texts and their tokens -/

/-- The kinds of tokens that the text of data has, blanks apart. -/
def TokenKind.inData : TokenKind → Bool
  | .leftParen | .rightParen | .leftBracket | .rightBracket | .comma | .colon | .string | .nullWord
  | .trueWord | .falseWord => true
  | _ => false

namespace Scan

/-- A rest that does not prolong a word. -/
def Stops (rest : List Char) : Prop :=
  ∀ c cs, rest = c :: cs → continuesName c = false

/-- In front of any rest that does not prolong a word, a text on the first line is scanned as
some tokens, blanks apart. -/
def Scans (source : String) (cs : List Char) (ts : List Token) : Prop :=
  ∀ rest, Stops rest → ∃ raw, Reaches source 1 (cs ++ rest) raw 1 rest ∧
    ∀ elide, separate elide raw = ts

/-- A text that does not prolong a blank. -/
def Begins (cs : List Char) : Prop :=
  ∃ d ds, cs = d :: ds ∧ isSpace d = false

lemma Begins.append {cs : List Char} (h : Begins cs) (ds : List Char) : Begins (cs ++ ds) := by
  obtain ⟨c, cs, rfl, hc⟩ := h
  exact ⟨c, cs ++ ds, rfl, hc⟩

lemma stops_cons {c : Char} {cs : List Char} (h : continuesName c = false) : Stops (c :: cs) := by
  rintro _ _ ⟨⟩
  exact h

lemma separate_inData {t : Token} (h : t.kind.inData = true) (elide : Bool) (raw : List Token) :
    separate elide (t :: raw) = t :: separate t.kind.elides raw := by
  obtain ⟨kind, text, literal, line, source⟩ := t
  cases kind <;> first | (simp [separate, TokenKind.isTrivia, TokenKind.unified]; done) | cases h

lemma lexeme_inData {kind : TokenKind} (h : kind.inData = true) (stretch : List Char) :
    lexeme kind stretch = String.ofList stretch := by
  cases kind <;> first | rfl | cases h

/-- A step in front of what is scanned already. -/
lemma reaches_cons {source : String} {line later : Nat} {c : Char} {cs rest : List Char}
    {kind : TokenKind} {literal : Option Literal} {raw : List Token} {st : Step}
    (hstep : step c cs = st) (hf : st.found = .ok (kind, literal))
    (hr : Reaches source (line + st.breaks) st.rest raw later rest) :
    Reaches source line (c :: cs) (⟨kind, lexeme kind st.stretch, literal, line, source⟩ :: raw)
      later rest := by
  subst hstep
  exact .next hf hr

namespace Scans

variable {source : String} {c : Char} {cs ds : List Char} {ts us : List Token} {kind : TokenKind}

lemma nil : Scans source [] [] := fun _ _ => ⟨[], .refl, fun _ => rfl⟩

/-- A text in front of another one that does not prolong it. -/
lemma append (h₁ : Scans source cs ts) (h₂ : Scans source (c :: ds) us)
    (hc : continuesName c = false) : Scans source (cs ++ c :: ds) (ts ++ us) := by
  intro rest hrest
  obtain ⟨raw, hr, hsep⟩ := h₁ (c :: ds ++ rest) (stops_cons hc)
  obtain ⟨raw', hr', hsep'⟩ := h₂ rest hrest
  refine ⟨raw ++ raw', ?_, fun elide => ?_⟩
  · rw [List.append_assoc]
    exact hr.trans hr'
  · rw [separate_append, hsep, hsep']

/-- A sign of one character in front of a text. -/
lemma sign (hstep : ∀ cs, step c cs = .plain kind [c] cs) (hk : kind.inData = true)
    (h : Scans source cs ts) :
    Scans source (c :: cs) (⟨kind, String.ofList [c], none, 1, source⟩ :: ts) := by
  intro rest hrest
  obtain ⟨raw, hr, hsep⟩ := h rest hrest
  refine ⟨_, reaches_cons (hstep _) rfl hr, fun elide => ?_⟩
  rw [separate_inData (by exact hk), hsep, lexeme_inData hk]
  rfl

/-- A blank in front of a text. -/
lemma blank (h : Scans source cs ts) (hb : Begins cs) : Scans source (' ' :: cs) ts := by
  obtain ⟨c, cs, rfl, hc⟩ := hb
  intro rest hrest
  obtain ⟨raw, hr, hsep⟩ := h rest hrest
  have hstep : step ' ' (c :: (cs ++ rest)) = .plain .whitespace [' '] (c :: (cs ++ rest)) := by
    rw [step_of_notMem (by decide), if_pos (by decide)]
    simp [hc]
  exact ⟨_, reaches_cons hstep rfl hr, hsep⟩

/-- A text that is one token. -/
lemma token {literal : Option Literal} (hk : kind.inData = true)
    (hstep : ∀ rest, Stops rest → step c (cs ++ rest) =
      { stretch := c :: cs, rest, breaks := 0, found := .ok (kind, literal) }) :
    Scans source (c :: cs) [⟨kind, String.ofList (c :: cs), literal, 1, source⟩] := by
  intro rest hrest
  refine ⟨_, reaches_cons (hstep rest hrest) rfl .refl, fun elide => ?_⟩
  rw [separate_inData (by exact hk), lexeme_inData hk]
  rfl

/-- A word. -/
lemma word (hc : c ∉ symbols ∧ isSpace c = false ∧ c.isDigit = false ∧ startsName c = true)
    (hcs : cs.all continuesName = true)
    (hk : (wordKind (String.ofList (c :: cs))).inData = true) :
    Scans source (c :: cs)
      [⟨wordKind (String.ofList (c :: cs)), String.ofList (c :: cs), none, 1, source⟩] := by
  refine token hk fun rest hrest => ?_
  have hcs := List.all_eq_true.mp hcs
  have hstop : rest.takeWhile continuesName = [] ∧ rest.dropWhile continuesName = rest := by
    cases rest with
    | nil => exact ⟨rfl, rfl⟩
    | cons d rest => simp [hrest d rest rfl]
  rw [step_of_notMem hc.1, if_neg (by simp [hc]), if_neg (by simp [hc]), if_pos hc.2.2.2, scanWord,
    List.takeWhile_append_of_pos hcs, List.dropWhile_append_of_pos hcs, hstop.1, hstop.2,
    List.append_nil]
  rfl

/-- A quoted string. -/
lemma quoted {s : String} (h : ∀ c ∈ s.toList, Text.Legible c) :
    Scans source (Text.quoteChars s.toList)
      [⟨.string, Text.quote s, some (.text s), 1, source⟩] := by
  refine token rfl fun rest _ => ?_
  rw [List.append_assoc, List.singleton_append, step_quoted (spelling_escape h),
    lineBreaks_eq_zero (isLineEnd_escape h), String.ofList_toList]

end Scans

end Scan

/-! ### Data as expressions -/

namespace Datum

/-- The expression that data is written as. -/
def expr : Datum → Expr
  | .null => .node ⟨default, []⟩ (.constant .null)
  | .bool b => .node ⟨default, []⟩ (.constant (.bool b))
  | .text s => .node ⟨default, []⟩ (.constant (.text s))
  | .tuple items => .node ⟨default, []⟩ (.tuple (items.map fun d => d.expr))
  | .list items => .node ⟨default, []⟩ (.list (items.map fun d => d.expr))
  | .map entries => .node ⟨default, []⟩ (.map (entries.map fun e => (e.1.expr, e.2.expr)))
termination_by d => sizeOf d
decreasing_by
  · exact sizeOf_lt_tuple ‹_›
  · exact sizeOf_lt_list ‹_›
  · exact (sizeOf_lt_map ‹_›).1
  · exact (sizeOf_lt_map ‹_›).2

lemma onLadder (d : Datum) : OnLadder d.expr := by
  induction d with
  | null => rw [expr]; exact .constant _ _
  | bool b => rw [expr]; exact .constant _ _
  | text s => rw [expr]; exact .constant _ _
  | tuple items ih =>
      rw [expr]
      exact .tuple _ (List.forall_mem_map.mpr ih)
  | list items ih =>
      rw [expr]
      exact .list _ (List.forall_mem_map.mpr ih)
  | map entries ihk ihv =>
      rw [expr]
      exact .map _ (List.forall_mem_map.mpr ihk) (List.forall_mem_map.mpr ihv)

/-- Data needs no parentheses. -/
lemma rung_expr (d : Datum) : d.expr.rung = .above := by
  cases d <;> rw [expr] <;> rfl

open Scan in
lemma begins_shown (d : Datum) : Begins d.shown := by
  cases d with
  | null => rw [shown]; exact ⟨_, _, rfl, rfl⟩
  | bool b => cases b <;> rw [shown] <;> exact ⟨_, _, rfl, rfl⟩
  | text s => rw [shown]; exact ⟨_, _, rfl, rfl⟩
  | tuple items => rw [shown]; exact ⟨_, _, rfl, rfl⟩
  | list items => rw [shown]; exact ⟨_, _, rfl, rfl⟩
  | map entries =>
      rw [shown]
      split
      · exact ⟨_, _, rfl, rfl⟩
      · exact ⟨_, _, rfl, rfl⟩

end Datum

namespace Scan.Scans

variable {source : String} {side : Side}

/-- Texts with commas and blanks between them. -/
lemma joined {xs : List (List Char)} {es : List Expr}
    (h : List.Forall₂ (fun x e => Begins x ∧ Scans source x (e.write ⟨source, 1, side⟩)) xs es) :
    Scans source ([',', ' '].intercalate xs) (writeItems ⟨source, 1, side⟩ es) := by
  induction h with
  | nil => exact .nil
  | @cons x e xs es hx hxs ih =>
      cases hxs with
      | nil => simpa [List.intercalate, writeItems, writeMore] using hx.2
      | @cons y e₂ xs es hy hxs =>
          have hbegins : Begins ([',', ' '].intercalate (y :: xs)) := by
            cases xs with
            | nil => simpa [List.intercalate] using hy.1
            | cons z xs => simpa [List.intercalate] using hy.1.append _
          have hcomma : Scans source (',' :: ' ' :: [',', ' '].intercalate (y :: xs))
              (Layout.comma ⟨source, 1, side⟩ :: writeItems ⟨source, 1, side⟩ (e₂ :: es)) :=
            .sign (fun _ => rfl) rfl (ih.blank hbegins)
          have happend := hx.2.append hcomma rfl
          rw [writeItems, writeMore, ← writeItems]
          simpa [List.intercalate] using happend

/-- The texts of the items of a list, each of which is the tokens of an expression. -/
lemma items {α : Type} {items : List α} {text : α → List Char} {expr : α → Expr}
    (h : ∀ a ∈ items, Begins (text a) ∧ Scans source (text a) ((expr a).write ⟨source, 1, side⟩)) :
    Scans source ([',', ' '].intercalate (items.map text))
      (writeItems ⟨source, 1, side⟩ (items.map expr)) :=
  joined (List.forall₂_map_left_iff.mpr (List.forall₂_map_right_iff.mpr (List.forall₂_same.mpr h)))

/-- A text in brackets. -/
lemma bracketed {cs : List Char} {ts : List Token} (h : Scans source cs ts) :
    Scans source ('[' :: (cs ++ [']'])) (Layout.sign ⟨source, 1, side⟩ .leftBracket "[" ::
      (ts ++ [Layout.sign ⟨source, 1, side⟩ .rightBracket "]"])) :=
  .sign (fun _ => rfl) rfl (h.append (.sign (fun _ => rfl) rfl .nil) rfl)

/-- An entry of a map. -/
lemma pair {k v : Datum} (hk : Scans source k.shown (k.expr.write ⟨source, 1, side⟩))
    (hv : Scans source v.shown (v.expr.write ⟨source, 1, side⟩)) :
    Scans source (k.shown ++ ':' :: ' ' :: v.shown)
      ((Expr.plain (Layout.colon ⟨source, 1, side⟩) (.pair k.expr v.expr)).write
        ⟨source, 1, side⟩) := by
  have hcolon : Scans source (':' :: ' ' :: v.shown)
      (Layout.colon ⟨source, 1, side⟩ :: v.expr.write ⟨source, 1, side⟩) :=
    .sign (fun _ => rfl) rfl (hv.blank v.begins_shown)
  have happend := hk.append hcolon rfl
  rwa [Expr.plain, Expr.write, Form.write, k.rung_expr, v.rung_expr]

end Scan.Scans

/-- The text of data is scanned as the tokens of its expression. -/
theorem Datum.Legible.scans {d : Datum} (hd : d.Legible) (source : String) (side : Side) :
    Scan.Scans source d.shown (d.expr.write ⟨source, 1, side⟩) := by
  induction hd with
  | null =>
      rw [Datum.shown, Datum.expr]
      change Scan.Scans source ['n', 'u', 'l', 'l'] _
      exact .word (by decide) rfl rfl
  | bool b =>
      cases b with
      | true =>
          rw [Datum.shown, Datum.expr]
          change Scan.Scans source ['t', 'r', 'u', 'e'] _
          exact .word (by decide) rfl rfl
      | false =>
          rw [Datum.shown, Datum.expr]
          change Scan.Scans source ['f', 'a', 'l', 's', 'e'] _
          exact .word (by decide) rfl rfl
  | text hs =>
      rw [Datum.shown, Datum.expr]
      exact .quoted hs
  | @tuple items _ ih =>
      have hitems := Scan.Scans.items fun d hd => ⟨d.begins_shown, ih d hd⟩
      have hend : Scan.Scans source [')'] [Layout.sign ⟨source, 1, side⟩ .rightParen ")"] :=
        .sign (fun _ => rfl) rfl .nil
      rw [Datum.shown, Datum.expr]
      refine .sign (fun _ => rfl) rfl ?_
      rw [List.length_map]
      split
      · rw [List.append_assoc]
        exact hitems.append (.sign (fun _ => rfl) rfl hend) rfl
      · rw [List.append_nil]
        exact hitems.append hend rfl
  | @list items _ ih =>
      rw [Datum.shown, Datum.expr]
      exact (Scan.Scans.items fun d hd => ⟨d.begins_shown, ih d hd⟩).bracketed
  | @map entries _ _ _ _ ihk ihv =>
      rw [Datum.shown, Datum.expr]
      cases entries with
      | nil =>
          exact .sign (fun _ => rfl) rfl (.sign (fun _ => rfl) rfl (.sign (fun _ => rfl) rfl .nil))
      | cons e entries =>
          rw [if_neg (by simp)]
          have hentries := Scan.Scans.items fun e' he =>
            ⟨e'.1.begins_shown.append _, (ihk e' he).pair (ihv e' he)⟩
          have hpairs : (e :: entries).map (fun e' => Expr.plain (Layout.colon ⟨source, 1, side⟩)
              (.pair e'.1.expr e'.2.expr)) = pairsOf ⟨source, 1, side⟩
                ((e :: entries).map fun e' => (e'.1.expr, e'.2.expr)) := by
            rw [pairsOf, List.map_map]
            rfl
          rw [hpairs, writeItems_pairsOf] at hentries
          exact hentries.bracketed

/-- The text of data is parsed as its expression. -/
lemma Datum.Legible.parse {d : Datum} (hd : d.Legible) (source : String) {text : String}
    (ht : text.toList = d.shown) :
    ∃ e, Spells e d.expr ∧ Tern.parse source text = .ok [e] := by
  obtain ⟨raw, hr, hsep⟩ := hd.scans source .left [] nofun
  rw [List.append_nil, ← ht] at hr
  obtain ⟨e, hm, he⟩ := d.onLadder.parseTokens_endOf_write ⟨source, 1, .left⟩ source 1
  exact ⟨e, d.onLadder.spells hm, by rw [parse_of_reaches hr, hsep, he]⟩

/-! ### Evaluating data -/

namespace Heap.Extends

variable {h h' h'' : Heap}

lemma refl (h : Heap) : h.Extends h := ⟨id, id⟩

lemma trans (h₁ : h.Extends h') (h₂ : h'.Extends h'') : h.Extends h'' :=
  ⟨fun hr => h₂.lists (h₁.lists hr), fun hr => h₂.maps (h₁.maps hr)⟩

lemma addList (h : Heap) (items : Array Value) : h.Extends (h.addList items).2 :=
  ⟨getElem?_push_of_eq_some, id⟩

lemma addMap (h : Heap) (entries : Entries) : h.Extends (h.addMap entries).2 :=
  ⟨id, getElem?_push_of_eq_some⟩

end Heap.Extends

namespace Eval

/-- With as many levels as the expression is large, an expression has data as its value, in any
session and without changing lists and maps that are there. -/
def Yields (e : Expr) (d : Datum) : Prop :=
  ∀ (rounds calls levels : Nat) (s : Session), sizeOf e ≤ levels →
    ∃ v s', perform rounds calls levels (.expr e) s = .ok v s' ∧ s'.heap.Holds d v ∧
      s.heap.Extends s'.heap

/-- What holds of the members of two lists side by side, given that they are members. -/
lemma forall₂_of_right {α β : Type} {R S : α → β → Prop} {as : List α} {bs : List β}
    (h : List.Forall₂ R as bs) (hb : ∀ a, ∀ b ∈ bs, R a b → S a b) : List.Forall₂ S as bs := by
  induction h with
  | nil => exact .nil
  | cons h _ ih =>
      exact .cons (hb _ _ List.mem_cons_self h)
        (ih fun a b hmem => hb a b (List.mem_cons_of_mem _ hmem))

namespace Yields

variable {d : Datum} {e : Expr} {site : Site} {form : Form}

/-- An expression has the value of its form. -/
lemma of_form
    (h : ∀ (rounds calls levels : Nat) (s : Session), sizeOf form ≤ levels →
      ∃ v s', evalForm rounds (perform rounds calls levels) site form s = .ok v s' ∧
        s'.heap.Holds d v ∧ s.heap.Extends s'.heap) :
    Yields (.node site form) d := by
  intro rounds calls levels s hl
  rw [Expr.node.sizeOf_spec] at hl
  obtain ⟨levels, rfl⟩ : ∃ k, levels = k + 1 := ⟨levels - 1, by omega⟩
  obtain ⟨v, s', heq, hv, hext⟩ := h rounds calls levels
    (s.atLine (Expr.node site form).line) (by omega)
  refine ⟨v, s', ?_, hv, hext⟩
  rw [perform_succ rfl, step, evalExpr, bind_apply, mark_apply]
  exact heq

lemma group (h : Yields e d) : Yields (.node site (.group e)) d := by
  refine of_form fun rounds calls levels s hl => ?_
  rw [Form.group.sizeOf_spec] at hl
  exact h rounds calls levels s (by omega)

/-- Parentheses around an expression do not change its value. -/
lemma of_spells {t : Token}
    (h : ∀ {site : Site} {form' : Form},
      form'.ungrouped.mapTokens Token.blank = form.mapTokens Token.blank →
        Yields (.node site form') d) :
    ∀ e, Spells e (.node ⟨t, []⟩ form) → Yields e d
  | .node site form', hs => by
      by_cases hg : ∃ inner, form' = .group inner
      · obtain ⟨inner, rfl⟩ := hg
        rw [Spells, Expr.ungrouped] at hs
        exact (of_spells h inner hs).group
      · rw [Spells, Expr.ungrouped_node (by simpa using hg), Expr.mapTokens, Expr.mapTokens] at hs
        exact h (Expr.node.inj hs).2

lemma constant {c : Constant} (hc : ∀ h : Heap, h.Holds d (Eval.constant c)) :
    Yields (.node site (.constant c)) d :=
  of_form fun _ _ _ s _ => ⟨Eval.constant c, s, rfl, hc _, .refl _⟩

lemma levels_items {es : List Expr} {levels : Nat} (hl : sizeOf form ≤ levels)
    (h : sizeOf form = 1 + sizeOf es) : ∀ e ∈ es, sizeOf e ≤ levels := by
  intro e he
  have hlt := List.sizeOf_lt_of_mem he
  omega

/-- Expressions in a row. -/
lemma all {es : List Expr} {ds : List Datum} (h : List.Forall₂ Yields es ds)
    (rounds calls : Nat) {levels : Nat} (hl : ∀ e ∈ es, sizeOf e ≤ levels) (s : Session) :
    ∃ vs s', evalAll (perform rounds calls levels) es s = .ok vs s' ∧
      List.Forall₂ s'.heap.Holds ds vs ∧ s.heap.Extends s'.heap := by
  induction h generalizing s with
  | nil => exact ⟨[], s, rfl, .nil, .refl _⟩
  | @cons e d es ds he _ ih =>
      obtain ⟨v, s₁, heq, hv, hext⟩ := he rounds calls levels s (hl e List.mem_cons_self)
      obtain ⟨vs, s₂, heqs, hvs, hexts⟩ := ih (fun e he => hl e (List.mem_cons_of_mem _ he)) s₁
      refine ⟨v :: vs, s₂, ?_, .cons (hv.mono hexts) hvs, hext.trans hexts⟩
      simp only [evalAll, bind_apply, heq, heqs, pure_apply]

/-- The entries of a map, behind what is there already: no key is there already. -/
lemma entries {ps : List (Expr × Expr)} {es : List (Datum × Datum)}
    (before : List (Datum × Datum)) {done : Entries}
    (h : List.Forall₂ (fun p e => Yields p.1 e.1 ∧ Yields p.2 e.2) ps es)
    (hd : ((before ++ es).map (·.1)).Nodup) (hk : ∀ e ∈ before ++ es, e.1.IsKey)
    (rounds calls : Nat) {levels : Nat} (hl : ∀ p ∈ ps, sizeOf p.1 ≤ levels ∧ sizeOf p.2 ≤ levels)
    (s : Session) (hdone : s.heap.HoldsEntries before done) :
    ∃ m s', evalEntries (perform rounds calls levels) done ps s = .ok m s' ∧
      s'.heap.HoldsEntries (before ++ es) m ∧ s.heap.Extends s'.heap := by
  induction h generalizing before done s with
  | nil => exact ⟨done, s, rfl, by rwa [List.append_nil], .refl _⟩
  | @cons p e ps es he _ ih =>
      obtain ⟨k, s₁, hkeq, hkey, hext₁⟩ := he.1 rounds calls levels s (hl p List.mem_cons_self).1
      obtain ⟨v, s₂, hveq, hvalue, hext₂⟩ := he.2 rounds calls levels s₁ (hl p List.mem_cons_self).2
      have hkey := hkey.mono hext₂
      have hext := hext₁.trans hext₂
      have hdone : s₂.heap.HoldsEntries before done :=
        hdone.imp fun _ _ hp => ⟨hp.1.mono hext, hp.2.mono hext⟩
      have hnew : e.1 ∉ before.map (·.1) := by
        rw [List.map_append, List.nodup_append] at hd
        exact fun hmem => hd.2.2 _ hmem _ List.mem_cons_self rfl
      have hinsert := Heap.Holds.insert_of_notMem
        (fun e he => hk e (List.mem_append_left _ he)) hdone hkey hnew v
      have hsplit : before ++ e :: es = (before ++ [e]) ++ es := by simp
      rw [hsplit] at hd hk ⊢
      have hdone : s₂.heap.HoldsEntries (before ++ [e]) (done ++ [(k, v)]) :=
        List.rel_append hdone (.cons ⟨hkey, hvalue⟩ .nil)
      obtain ⟨m, s₃, heq, hm, hext₃⟩ := ih _ hd hk (fun p hp => hl p (List.mem_cons_of_mem _ hp)) s₂
        hdone
      refine ⟨m, s₃, ?_, hm, hext.trans hext₃⟩
      simp only [evalEntries, bind_apply, hkeq, hveq, hinsert, heq]

lemma items {ds : List Datum} {es : List Expr}
    (ih : ∀ d ∈ ds, ∀ {e : Expr}, Spells e d.expr → Yields e d)
    (h : AllSpell es (ds.map fun d => d.expr)) : List.Forall₂ Yields es ds :=
  forall₂_of_right (List.forall₂_map_right_iff.mp h) fun _ d hd he => ih d hd he

lemma tuple {es : List Expr} {ds : List Datum} (h : List.Forall₂ Yields es ds) :
    Yields (.node site (.tuple es)) (.tuple ds) := by
  refine of_form fun rounds calls levels s hl => ?_
  obtain ⟨vs, s', heq, hvs, hext⟩ :=
    all h rounds calls (levels_items hl (Form.tuple.sizeOf_spec es)) s
  refine ⟨.tuple vs, s', ?_, .tuple hvs, hext⟩
  simp only [evalForm, bind_apply, heq, pure_apply]

lemma list {es : List Expr} {ds : List Datum} (h : List.Forall₂ Yields es ds) :
    Yields (.node site (.list es)) (.list ds) := by
  refine of_form fun rounds calls levels s hl => ?_
  obtain ⟨vs, s', heq, hvs, hext⟩ :=
    all h rounds calls (levels_items hl (Form.list.sizeOf_spec es)) s
  have hadd := Heap.Extends.addList s'.heap vs.toArray
  refine ⟨.list ⟨s'.heap.lists.size⟩, { s' with heap := (s'.heap.addList vs.toArray).2 }, ?_,
    .list Array.getElem?_push_size ?_, hext.trans hadd⟩
  · simp only [evalForm, bind_apply, heq]
    rfl
  · exact hvs.imp fun _ _ hv => hv.mono hadd

lemma map {ps : List (Expr × Expr)} {es : List (Datum × Datum)}
    (h : List.Forall₂ (fun p e => Yields p.1 e.1 ∧ Yields p.2 e.2) ps es)
    (hd : (es.map (·.1)).Nodup) (hk : ∀ e ∈ es, e.1.IsKey) :
    Yields (.node site (.map ps)) (.map es) := by
  refine of_form fun rounds calls levels s hl => ?_
  have hlevels : ∀ p ∈ ps, sizeOf p.1 ≤ levels ∧ sizeOf p.2 ≤ levels := by
    intro p hp
    have hlt := List.sizeOf_lt_of_mem hp
    obtain ⟨k, v⟩ := p
    rw [Form.map.sizeOf_spec] at hl
    rw [Prod.mk.sizeOf_spec] at hlt
    constructor <;> simp only <;> omega
  obtain ⟨m, s', heq, hm, hext⟩ := entries [] h hd hk rounds calls hlevels s .nil
  have hadd := Heap.Extends.addMap s'.heap m
  obtain ⟨hkeys, hvalues⟩ := Heap.Holds.entries_iff.mpr hm
  refine ⟨.map ⟨s'.heap.maps.size⟩, { s' with heap := (s'.heap.addMap m).2 }, ?_,
    .map Array.getElem?_push_size (hkeys.imp fun _ _ hv => hv.mono hadd)
      (hvalues.imp fun _ _ hv => hv.mono hadd), hext.trans hadd⟩
  simp only [evalForm, bind_apply, heq]
  rfl

end Yields

section Forms

variable {form : Form} {c : Constant} {es : List Expr} {ps : List (Expr × Expr)}

lemma eq_constant
    (h : form.ungrouped.mapTokens Token.blank = (Form.constant c).mapTokens Token.blank) :
    form = .constant c := by
  cases form <;> simp [Form.ungrouped, Form.mapTokens] at h
  rw [h]

lemma exists_tuple
    (h : form.ungrouped.mapTokens Token.blank = (Form.tuple es).mapTokens Token.blank) :
    ∃ es', form = .tuple es' ∧ AllSpell es' es := by
  cases form with
  | tuple es' => exact ⟨es', rfl, allSpell_iff.mpr (Form.tuple.inj h)⟩
  | _ => simp [Form.ungrouped, Form.mapTokens] at h

lemma exists_list
    (h : form.ungrouped.mapTokens Token.blank = (Form.list es).mapTokens Token.blank) :
    ∃ es', form = .list es' ∧ AllSpell es' es := by
  cases form with
  | list es' => exact ⟨es', rfl, allSpell_iff.mpr (Form.list.inj h)⟩
  | _ => simp [Form.ungrouped, Form.mapTokens] at h

lemma exists_map
    (h : form.ungrouped.mapTokens Token.blank = (Form.map ps).mapTokens Token.blank) :
    ∃ ps', form = .map ps' ∧ AllSpellPairs ps' ps := by
  cases form with
  | map ps' => exact ⟨ps', rfl, allSpellPairs_iff.mpr (Form.map.inj h)⟩
  | _ => simp [Form.ungrouped, Form.mapTokens] at h

end Forms

/-- The expression of data has the data as its value. -/
theorem yields_of_spells {d : Datum} (hd : d.Legible) {e : Expr} (h : Spells e d.expr) :
    Yields e d := by
  induction hd generalizing e with
  | null =>
      rw [Datum.expr] at h
      refine .of_spells (fun hf => ?_) e h
      rw [eq_constant hf]
      exact .constant fun _ => .null
  | bool b =>
      rw [Datum.expr] at h
      refine .of_spells (fun hf => ?_) e h
      rw [eq_constant hf]
      exact .constant fun _ => .bool b
  | @text t _ =>
      rw [Datum.expr] at h
      refine .of_spells (fun hf => ?_) e h
      rw [eq_constant hf]
      exact .constant fun _ => .text t
  | tuple _ ih =>
      rw [Datum.expr] at h
      refine .of_spells (fun hf => ?_) e h
      obtain ⟨es, rfl, hes⟩ := exists_tuple hf
      exact .tuple (Yields.items ih hes)
  | list _ ih =>
      rw [Datum.expr] at h
      refine .of_spells (fun hf => ?_) e h
      obtain ⟨es, rfl, hes⟩ := exists_list hf
      exact .list (Yields.items ih hes)
  | map hnodup hk _ _ ihk ihv =>
      rw [Datum.expr] at h
      refine .of_spells (fun hf => ?_) e h
      obtain ⟨ps, rfl, hps⟩ := exists_map hf
      refine .map (forall₂_of_right (List.forall₂_map_right_iff.mp hps) fun p e he hp => ?_)
        hnodup hk
      exact ⟨ihk e he hp.1, ihv e he hp.2⟩

end Eval

/-- **Displayed data is source for itself.** In any session, the displayed form of data other than a
string runs if it is given enough levels, and its value is the same data and equal to it. -/
theorem Session.inPlace_display {s : Session} {d : Datum} {v : Value} (hd : d.Legible)
    (hv : s.heap.Holds d v) (hs : ∀ t, v ≠ .text t) (source : String) :
    ∃ n, ∀ rounds calls levels, n ≤ levels → ∃ w s',
      Eval.inPlace (Eval.perform rounds calls levels) source (s.heap.display v) s = .ok w s' ∧
        s'.heap.Holds d w ∧ s'.heap.equal w v = true ∧ s'.heap.equal v w = true := by
  obtain ⟨e, hspells, hparse⟩ := hd.parse source (hv.display hs)
  refine ⟨sizeOf e, fun rounds calls levels hl => ?_⟩
  obtain ⟨w, s', heq, hw, hext⟩ := Eval.yields_of_spells hd hspells rounds calls levels s hl
  have hv' := hv.mono hext
  refine ⟨w, s', ?_, hw, hw.equal hd hv', hv'.equal hd hw⟩
  rw [Eval.inPlace, hparse]
  simp only [Eval.program, Eval.catchLeave, Eval.recover, Eval.sequence, Eval.sequenceFrom,
    Eval.bind_apply, heq, Eval.pure_apply]

/-- A session with a list of a tuple and a map that has a tuple among its keys and an empty list
among its values. -/
def Session.nestedData : Session :=
  { Session.initial with
    heap :=
      { lists := #[#[.tuple [.text "a\n\""], .map ⟨0⟩], #[]]
        maps := #[[(.text "k", .null), (.tuple [.bool true], .list ⟨1⟩)]]
        objects := #[]
        classes := #[]
        functions := #[]
        natives := #[] } }

theorem Session.inPlace_display_nestedData :
    Session.nestedData.heap.display (.list ⟨0⟩) =
        "[(\"a\\n\\\"\",), [\"k\": null, (true,): []]]" ∧
      ∃ n, ∀ rounds calls levels, n ≤ levels → ∃ w s',
        Eval.inPlace (Eval.perform rounds calls levels) "<eval>"
            (Session.nestedData.heap.display (.list ⟨0⟩)) Session.nestedData = .ok w s' ∧
          s'.heap.equal w (.list ⟨0⟩) = true ∧ s'.heap.equal (.list ⟨0⟩) w = true := by
  let map : Datum := .map [(.text "k", .null), (.tuple [.bool true], .list [])]
  let list : Datum := .list [.tuple [.text "a\n\""], map]
  have hpair : ∀ {α : Type} {P : α → Prop} {a b : α}, P a → P b → ∀ x ∈ [a, b], P x :=
    fun ha hb => List.forall_mem_cons.mpr ⟨ha, List.forall_mem_singleton.mpr hb⟩
  have hk : (Datum.text "k").Legible := .text (List.forall_mem_singleton.mpr (.inl rfl))
  have htext : (Datum.text "a\n\"").Legible :=
    .text (List.forall_mem_cons.mpr ⟨.inl rfl, hpair (.inr (by decide)) (.inr (by decide))⟩)
  have hmap : map.Legible := by
    refine .map (by simp) ?_ ?_ ?_
    · exact hpair (.text "k") (.tuple (List.forall_mem_singleton.mpr (.bool true)))
    · exact hpair hk (.tuple (List.forall_mem_singleton.mpr (.bool true)))
    · exact hpair .null (.list nofun)
  have hlist : list.Legible :=
    .list (hpair (.tuple (List.forall_mem_singleton.mpr htext)) hmap)
  have hholds : Session.nestedData.heap.Holds list (.list ⟨0⟩) := by
    refine .list rfl (.cons (.tuple (.cons (.text _) .nil)) (.cons (.map rfl ?_ ?_) .nil))
    · exact .cons (.text _) (.cons (.tuple (.cons (.bool _) .nil)) .nil)
    · exact .cons .null (.cons (.list rfl .nil) .nil)
  obtain ⟨n, hn⟩ := Session.inPlace_display hlist hholds nofun "<eval>"
  refine ⟨by cbv, n, fun rounds calls levels hl => ?_⟩
  obtain ⟨w, s', heq, _, hequal⟩ := hn rounds calls levels hl
  exact ⟨w, s', heq, hequal⟩

end Tern
