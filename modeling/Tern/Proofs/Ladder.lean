/-
The ladder is parsed exactly: a written tree is read back, whatever operators it nests and however
they associate.

The parser's loop is told by a number how tightly a continuation must bind. Written tokens in
front of a rest are read as their tree, and the loop goes on with the rest, if that number is
below the level at which the tree continues its first operand (`opening`), and if the rest binds
no tighter than the last operand allows (`tail`).

* `Rung.height_lt_iff`: the levels of the grammar rise as the ladder does;
* `Parses`: the statement about tokens in front of any rest;
* `Parses.of_start`, `Parses.joined`: what a token starts and what it continues;
* `OnLadder.readsBack`: written trees, by induction over them;
* `parseTokens_write`: a whole list of tokens.
-/
import Mathlib.Tactic
import Tern.Proofs.Composition
import Tern.Proofs.Written

namespace Tern

/-! ### The ladder and the levels of the grammar -/

/-- A level above those of the grammar. -/
def Level.closed : Level := Level.call + 1

/-- The level that the grammar has for a rung. -/
def Rung.level : Rung → Level
  | .assignment => Level.assignment
  | .record => Level.record
  | .logical => Level.logical
  | .equality => Level.equality
  | .comparison => Level.comparison
  | .exponent => Level.exponent
  | .sum => Level.sum
  | .product => Level.product
  | .leading => Level.leading
  | .call => Level.call
  | .above => Level.closed

/-- The levels of the grammar rise as the ladder does. -/
lemma Rung.height_lt_iff {a b : Rung} : a.height < b.height ↔ a.level < b.level := by
  cases a <;> cases b <;> decide

lemma Rung.eq_iff {a b : Rung} : a = b ↔ a.level = b.level := by
  cases a <;> cases b <;> decide

/-- The level that the grammar has for a form. -/
def Form.level : Form → Level
  | .assign .. | .lambda .. => Level.assignment
  | .pair .. => Level.record
  | .logical .. => Level.logical
  | .binary op .. => op.level
  | .unary .. => Level.leading
  | .call .. | .index .. | .member .. => Level.call
  | _ => Level.closed

lemma Expr.level_rung (e : Expr) : e.rung.level = e.form.level := by
  cases e with
  | node site form =>
      cases form with
      | binary op left right => cases op <;> rfl
      | _ => rfl

lemma tooLow_same {operator : Rung} {e : Expr} (side : Side) :
    tooLow operator side side e.rung = false ↔ operator.level ≤ e.form.level := by
  rw [← e.level_rung]
  simp only [tooLow, ne_eq, not_true_eq_false, decide_false, Bool.and_false, Bool.or_false,
    decide_eq_false_iff_not, Rung.height_lt_iff, not_lt]

lemma tooLow_other {operator : Rung} {e : Expr} {associates side : Side} (h : side ≠ associates) :
    tooLow operator associates side e.rung = false ↔ operator.level < e.form.level := by
  rw [← e.level_rung]
  simp only [tooLow, h, ne_eq, not_false_eq_true, decide_true, Bool.and_true,
    Bool.or_eq_false_iff, decide_eq_false_iff_not, Rung.height_lt_iff, Rung.eq_iff, not_lt]
  exact ⟨fun ⟨hle, hne⟩ => lt_of_le_of_ne hle (Ne.symm hne), fun hlt => ⟨hlt.le, hlt.ne'⟩⟩

/-! ### How a written form opens and ends -/

/-- The level at which a written form continues its first operand; it is above the ladder for a
form that a token of its own starts. -/
def Form.opening : Form → Level
  | .unary .. => Level.closed
  | form => form.level

/-- The tightest level that what follows a written form may have without becoming part of its
last operand. -/
def Form.tail : Form → Level
  | .assign .. | .lambda .. => Level.assignment - 1
  | .pair .. => Level.record
  | .logical .. => Level.logical
  | .binary op .. => op.rightLevel
  | .unary .. => Level.leading
  | _ => Level.closed

namespace Form

lemma level_le_opening (form : Form) : form.level ≤ form.opening := by
  cases form with
  | unary op operand => exact Nat.le_of_ble_eq_true rfl
  | _ => exact le_refl _

lemma level_le_tail_succ (form : Form) : form.level ≤ form.tail + 1 := by
  cases form with
  | binary op left right => cases op <;> exact Nat.le_of_ble_eq_true rfl
  | _ => exact Nat.le_of_ble_eq_true rfl

/-- The forms that do not associate to the right end as tightly as they bind. -/
lemma level_le_tail {form : Form} (h₁ : form.level ≠ Level.assignment)
    (h₂ : form.level ≠ Level.exponent) : form.level ≤ form.tail := by
  cases form with
  | binary op left right =>
      cases op with
      | power => exact absurd rfl h₂
      | _ => exact Nat.le_of_ble_eq_true rfl
  | assign name value declare => exact absurd rfl h₁
  | lambda params body => exact absurd rfl h₁
  | _ => exact Nat.le_of_ble_eq_true rfl

lemma level_pos (form : Form) : 0 < form.level := by
  cases form with
  | binary op left right => cases op <;> exact Nat.le_of_ble_eq_true rfl
  | _ => exact Nat.le_of_ble_eq_true rfl

/-- What has at least the level of a sign starts with one or binds tighter. -/
lemma leading_lt_opening {form : Form} (h : Level.leading ≤ form.level) :
    Level.leading + 1 ≤ form.opening ∧ Level.leading ≤ form.tail := by
  have hfalse : Nat.ble Level.leading form.level = true := Nat.ble_eq_true_of_le h
  cases form with
  | binary op left right => cases op <;> cases hfalse
  | pair left right => cases hfalse
  | logical op left right => cases hfalse
  | assign name value declare => cases hfalse
  | lambda params body => cases hfalse
  | _ => exact ⟨Nat.le_of_ble_eq_true rfl, Nat.le_of_ble_eq_true rfl⟩

end Form

namespace Parse

/-! ### Steps of the parser on given tokens -/

section Steps

variable {expr : Level → Parse Expr} {b least n : Nat} {left : Expr} {t : Token}
  {ts rest : List Token}

lemma links_stop (h : (front rest).kind.level ≤ least) (hn : 0 < n) :
    links expr b least n left rest = .ok (left, rest) := by
  obtain ⟨n, rfl⟩ : ∃ k, n = k + 1 := ⟨n - 1, by omega⟩
  rw [links_succ]
  unfold TokenKind.level at h
  cases hl : (front rest).kind.link? with
  | none => rfl
  | some link =>
      rw [hl] at h
      exact if_neg (by simpa using h)

lemma links_step {link : Link} (hl : t.kind.link? = some link) (h : least < link.level) :
    links expr b least (n + 1) left (t :: ts) =
      (continueWith expr b left t link >>= links expr b least n) ts := by
  have ht : t.kind ≠ .eof := by
    intro ht
    rw [ht] at hl
    cases hl
  rw [links_succ, front_cons, hl]
  simp only [if_pos h]
  rw [bind_apply, advance_cons ht]

lemma expression_start {start : Start} (hs : t.kind.start? = some start) :
    expression (b + 1) least (t :: ts) =
      (startWith (expression b) b t start >>= links (expression b) b least b) ts := by
  have ht : t.kind ≠ .separator := by
    intro ht
    rw [ht] at hs
    cases hs
  rw [expression_succ, bind_apply, skipSeparators_cons ht]
  exact starting_cons hs

end Steps

/-! ### Tokens in front of a rest -/

/-- Tokens are read as a tree in front of any rest that binds no tighter than `tail`, in any
context that is below `opening`; the loop then goes on with the rest. -/
def Parses (ts : List Token) (good : Expr → Prop) (opening tail : Level) : Prop :=
  ∀ (b least : Nat) (rest : List Token), least < opening → (front rest).kind.level ≤ tail →
    (ts ++ rest).length ≤ b →
    ∃ e n, good e ∧ rest.length < n ∧
      expression (b + 1) least (ts ++ rest) = links (expression b) b least n e rest

namespace Parses

variable {ts us : List Token} {good other : Expr → Prop} {opening tail : Level}

lemma mono (h : Parses ts good opening tail) {o t : Level} (ho : o ≤ opening) (ht : t ≤ tail)
    (hg : ∀ e, good e → other e) : Parses ts other o t := by
  intro b least rest h₁ h₂ h₃
  obtain ⟨e, n, he, hn, heq⟩ := h b least rest (lt_of_lt_of_le h₁ ho) (le_trans h₂ ht) h₃
  exact ⟨e, n, hg e he, hn, heq⟩

/-- In front of a rest that binds no tighter than the context demands, the tokens are the whole
expression. -/
lemma read (h : Parses ts good opening tail) {b least : Nat} {rest : List Token}
    (ho : least < opening) (ht : (front rest).kind.level ≤ tail)
    (hl : (front rest).kind.level ≤ least) (hb : (ts ++ rest).length ≤ b) :
    ∃ e, good e ∧ expression (b + 1) least (ts ++ rest) = .ok (e, rest) := by
  obtain ⟨e, n, he, hn, heq⟩ := h b least rest ho ht hb
  exact ⟨e, he, by rw [heq, links_stop hl (by omega)]⟩

/-- What a token starts. -/
lemma of_start {t : Token} {start : Start} (hs : t.kind.start? = some start)
    (h : ∀ {b : Nat} {rest : List Token}, (front rest).kind.level ≤ tail →
      (ts ++ rest).length ≤ b →
      ∃ e, good e ∧ startWith (expression (b + 1)) (b + 1) t start (ts ++ rest) = .ok (e, rest)) :
    Parses (t :: ts) good Level.closed tail := by
  intro b least rest _ ht hb
  rw [List.cons_append, List.length_cons] at hb
  obtain ⟨b, rfl⟩ : ∃ k, b = k + 1 := ⟨b - 1, by omega⟩
  obtain ⟨e, he, heq⟩ := h ht (by omega : (ts ++ rest).length ≤ b)
  rw [List.length_append] at hb
  refine ⟨e, b + 1, he, by omega, ?_⟩
  rw [List.cons_append, expression_start hs, bind_apply, heq]

/-- What a token makes of the expression to its left. -/
lemma joined {t : Token} {link : Link} (hl : t.kind.link? = some link)
    (hleft : Parses ts other link.level link.level)
    (h : ∀ {b : Nat} {left : Expr} {rest : List Token}, other left →
      (front rest).kind.level ≤ tail → (us ++ rest).length ≤ b →
      ∃ e, good e ∧
        continueWith (expression (b + 1)) (b + 1) left t link (us ++ rest) = .ok (e, rest)) :
    Parses (ts ++ t :: us) good link.level tail := by
  intro b least rest ho ht hb
  have hlevel : (front (t :: (us ++ rest))).kind.level ≤ link.level := by
    rw [front_cons, TokenKind.level, hl]
  rw [List.append_assoc, List.cons_append] at hb ⊢
  obtain ⟨left, n, hgood, hn, heq⟩ := hleft b least _ ho hlevel hb
  rw [List.length_cons] at hn
  obtain ⟨n, rfl⟩ : ∃ k, n = k + 1 := ⟨n - 1, by omega⟩
  simp only [List.length_append, List.length_cons] at hb hn
  obtain ⟨b, rfl⟩ : ∃ k, b = k + 1 := ⟨b - 1, by omega⟩
  obtain ⟨e, he, hcont⟩ := h hgood ht (by rw [List.length_append]; omega : (us ++ rest).length ≤ b)
  refine ⟨e, n, he, by omega, ?_⟩
  rw [heq, links_step hl ho, bind_apply, hcont]

/-- A written tree is read back in front of what may follow it. -/
def ReadsBack (l : Layout) (e : Expr) : Prop :=
  Parses (e.write l) (Mirrors · e.form) e.form.opening e.form.tail

/-- In front of what does not continue an expression, a written tree is read as a whole. -/
lemma ReadsBack.whole {l : Layout} {e : Expr} (h : ReadsBack l e) {b : Nat} {rest : List Token}
    (hr : (front rest).kind.level = 0) (hb : (e.write l ++ rest).length ≤ b) :
    ∃ e', Mirrors e' e.form ∧ expression (b + 1) 0 (e.write l ++ rest) = .ok (e', rest) := by
  have hopen : 0 < e.form.opening := lt_of_lt_of_le e.form.level_pos e.form.level_le_opening
  refine h.read hopen ?_ hr.le hb
  rw [hr]
  exact Nat.zero_le _

/-- A tree in parentheses. -/
lemma enclosed {l : Layout} {e : Expr} (he : OnLadder e) (h : ReadsBack l e) :
    Parses (l.enclose true (e.write l)) (Spells · e) Level.closed Level.closed := by
  refine of_start (show (l.sign .leftParen "(").kind.start? = some .group from rfl) ?_
  intro b rest _ hb
  rw [List.append_assoc, List.singleton_append] at hb ⊢
  obtain ⟨e', hm, heq⟩ := h.whole rfl hb
  obtain ⟨t, us, hts, hne⟩ := (he.write_starts l).exists_cons
  have hgroup : group (expression (b + 1)) (b + 1) (e.write l ++ l.sign .rightParen ")" :: rest) =
      .ok (.group e', rest) := by
    rw [hts, List.cons_append] at heq ⊢
    rw [group, bind_of_ok (skipSeparators_cons (hne rfl)), ifAccept_of_ne (by exact hne rfl),
      bind_of_ok heq, bind_of_ok (skipSeparators_cons (by simp)), ifAccept_of_ne (by simp),
      bind_of_ok (expect_cons (by decide) (l.sign_kind .rightParen ")") rest)]
    rfl
  refine ⟨Expr.plain (l.sign .leftParen "(") (.group e'), (he.spells hm).group _, ?_⟩
  rw [startWith, bind_of_ok hgroup]
  rfl

/-! ### Trees with commas between them -/

/-- Trees in a row that were read have the forms of those that were written. -/
abbrev AllMirror (es' es : List Expr) : Prop :=
  List.Forall₂ (fun e' e => Mirrors e' e.form) es' es

section Lists

variable {l : Layout} {es : List Expr} {close : TokenKind} {ct : Token} {rest : List Token}

/-- The ways in which a list of expressions can be closed. -/
structure Closes (close : TokenKind) (ct : Token) : Prop where
  kind : ct.kind = close
  either : close = .rightParen ∨ close = .rightBracket

lemma Closes.link? (h : Closes close ct) : ct.kind.link? = none := by
  rcases h with ⟨rfl, hk | hk⟩ <;> rw [hk] <;> rfl

lemma Closes.ne (h : Closes close ct) {kind : TokenKind}
    (hk : kind = .separator ∨ kind = .comma ∨ kind = .eof ∨ kind = .colon) : ct.kind ≠ kind := by
  rcases h with ⟨rfl, hc | hc⟩ <;> rw [hc] <;> rcases hk with rfl | rfl | rfl | rfl <;> decide

lemma Closes.level (h : Closes close ct) : ct.kind.level = 0 := by
  rw [TokenKind.level, h.link?]

/-- Trees with commas between them, each of which is read as it should be. -/
lemma commaList_write (item : ListItem) (hc : Closes close ct) (hne : es ≠ [])
    (h : ∀ e ∈ es, ReadsBack l e) {b k : Nat}
    (hb : (writeItems l es ++ ct :: rest).length ≤ b) (hk : es.length ≤ k) :
    ∃ es', AllMirror es' es ∧
      commaList (expression (b + 1)) close item k (writeItems l es ++ ct :: rest) =
        .ok (es', rest) := by
  induction es generalizing k with
  | nil => exact absurd rfl hne
  | cons e es ih =>
      rw [List.length_cons] at hk
      obtain ⟨k, rfl⟩ : ∃ j, k = j + 1 := ⟨k - 1, by omega⟩
      have he := h e List.mem_cons_self
      rw [writeItems, List.append_assoc] at hb ⊢
      rw [commaList]
      cases es with
      | nil =>
          rw [writeMore, List.nil_append] at hb ⊢
          obtain ⟨e', he', heq⟩ := he.whole (by rw [front_cons, hc.level]) hb
          refine ⟨[e'], .cons he' .nil, ?_⟩
          rw [bind_of_ok heq, bind_of_ok (skipSeparators_cons (hc.ne (.inl rfl))),
            ifAccept_of_ne (by exact hc.ne (.inr (.inl rfl))),
            bind_of_ok (expect_cons (hc.kind ▸ hc.ne (.inr (.inr (.inl rfl)))) hc.kind rest)]
          rfl
      | cons e₂ es =>
          rw [writeMore, List.cons_append] at hb ⊢
          obtain ⟨e', he', heq⟩ := he.whole rfl hb
          rw [List.length_append, List.length_cons] at hb
          obtain ⟨es', hes', heqs⟩ := ih (by simp) (fun e he => h e (List.mem_cons_of_mem _ he))
            (by rw [writeItems]; omega) (by omega : (e₂ :: es).length ≤ k)
          refine ⟨e' :: es', .cons he' hes', ?_⟩
          rw [bind_of_ok heq, bind_of_ok (skipSeparators_cons (by simp)),
            ifAccept_cons (by decide) l.comma_kind]
          rw [writeItems] at heqs
          rw [bind_of_ok heqs]
          rfl

lemma length_le_writeItems (l : Layout) (es : List Expr) :
    es.length ≤ (writeItems l es).length + 1 := by
  have hmore : ∀ es : List Expr, es.length ≤ (writeMore l es).length := by
    intro es
    induction es with
    | nil => exact Nat.zero_le _
    | cons e es ih =>
        rw [writeMore, List.length_cons, List.length_cons, List.length_append]
        omega
  cases es with
  | nil => exact Nat.zero_le _
  | cons e es =>
      have hes := hmore es
      rw [writeItems, List.length_cons, List.length_append]
      omega

/-- Trees with commas between them, perhaps none. -/
lemma delimited_write (item : ListItem) (hc : Closes close ct) (hs : ∀ e ∈ es, Starts (e.write l))
    (h : ∀ e ∈ es, ReadsBack l e) {b : Nat} (hb : (writeItems l es ++ ct :: rest).length ≤ b) :
    ∃ es', AllMirror es' es ∧
      delimited (expression (b + 1)) (b + 1) close item (writeItems l es ++ ct :: rest) =
        .ok (es', rest) := by
  rw [delimited]
  cases es with
  | nil =>
      refine ⟨[], .nil, ?_⟩
      rw [writeItems, List.nil_append, bind_of_ok (skipSeparators_cons (hc.ne (.inl rfl))),
        ifAccept_cons (hc.kind ▸ hc.ne (.inr (.inr (.inl rfl)))) hc.kind]
      rfl
  | cons e es =>
      have hlist : ∃ es', AllMirror es' (e :: es) ∧
          Parse.commaList (expression (b + 1)) close item (b + 1)
            (writeItems l (e :: es) ++ ct :: rest) = .ok (es', rest) := by
        refine commaList_write item hc (by simp) h hb ?_
        have hlength := length_le_writeItems l (e :: es)
        rw [List.length_append, List.length_cons] at hb
        omega
      obtain ⟨es', hes', heq⟩ := hlist
      refine ⟨es', hes', ?_⟩
      obtain ⟨t, ts, hts, hne⟩ := (hs e List.mem_cons_self).exists_cons
      rw [writeItems, hts, List.append_assoc, List.cons_append] at heq ⊢
      have hclose : t.kind ≠ close := by
        rcases hc.either with rfl | rfl <;> exact hne rfl
      rw [bind_of_ok (skipSeparators_cons (hne rfl)), ifAccept_of_ne (by exact hclose)]
      exact heq

end Lists

/-! ### Operands -/

section Operands

variable {l : Layout} {e : Expr}

/-- An operand that has parentheses, or that binds tightly enough without them. -/
lemma operand (he : OnLadder e) (h : ReadsBack l e) {needed : Bool} {o t : Level}
    (ho : o ≤ Level.closed) (ht : t ≤ Level.closed)
    (hfit : needed = false → o ≤ e.form.opening ∧ t ≤ e.form.tail) :
    Parses (l.enclose needed (e.write l)) (Spells · e) o t := by
  cases needed with
  | false => exact h.mono (hfit rfl).1 (hfit rfl).2 fun e' hm => he.spells hm
  | true => exact (enclosed he h).mono ho ht fun _ hs => hs

/-- The operand on the side to which an operator associates, on the operator's rung or above. -/
lemma nearOperand (he : OnLadder e) (h : ReadsBack l e) {rung : Rung} (side : Side)
    (hl : rung.level ≤ Level.closed) (h₁ : rung.level ≠ Level.assignment)
    (h₂ : rung.level ≠ Level.exponent) :
    Parses (l.enclose (tooLow rung side side e.rung) (e.write l)) (Spells · e) rung.level
      rung.level := by
  refine operand he h hl hl fun hfit => ?_
  have hle : rung.level ≤ e.form.level := (tooLow_same side).mp hfit
  refine ⟨le_trans hle e.form.level_le_opening, ?_⟩
  rcases Nat.lt_or_eq_of_le hle with hlt | heq
  · exact Nat.le_of_lt_succ (lt_of_lt_of_le hlt e.form.level_le_tail_succ)
  · rw [heq] at h₁ h₂ ⊢
    exact Form.level_le_tail h₁ h₂

/-- The operand on the other side, on a rung above the operator's. -/
lemma farOperand (he : OnLadder e) (h : ReadsBack l e) {rung : Rung} {associates side : Side}
    (hs : side ≠ associates) (hl : rung.level < Level.closed) :
    Parses (l.enclose (tooLow rung associates side e.rung) (e.write l)) (Spells · e)
      (rung.level + 1) rung.level := by
  refine operand he h hl hl.le fun hfit => ?_
  have hlt : rung.level < e.form.level := (tooLow_other hs).mp hfit
  exact ⟨le_trans hlt e.form.level_le_opening,
    Nat.le_of_lt_succ (lt_of_lt_of_le hlt e.form.level_le_tail_succ)⟩

/-- The last operand of an operator that associates to the right. -/
lemma lastOperand (he : OnLadder e) (h : ReadsBack l e) {rung : Rung} {level : Level}
    (side : Side) (hr : rung.level = level + 1) (hl : level + 1 ≤ Level.closed) :
    Parses (l.enclose (tooLow rung side side e.rung) (e.write l)) (Spells · e) (level + 1)
      level := by
  refine operand he h hl (Nat.le_of_succ_le hl) fun hfit => ?_
  have hle : level + 1 ≤ e.form.level := hr ▸ (tooLow_same side).mp hfit
  exact ⟨le_trans hle e.form.level_le_opening,
    Nat.le_of_lt_succ (lt_of_lt_of_le hle e.form.level_le_tail_succ)⟩

/-- What is called, indexed or has a member read off. -/
lemma headOperand (he : OnLadder e) (h : ReadsBack l e) :
    Parses (l.enclose (tooLow .call .left .left e.rung) (e.write l)) (Spells · e) Level.call
      Level.call :=
  nearOperand he h .left (by decide) (by decide) (by decide)

/-- What is assigned, and the body of a function. -/
lemma bodyOperand (he : OnLadder e) (h : ReadsBack l e) :
    Parses (l.enclose (tooLow .assignment .right .right e.rung) (e.write l)) (Spells · e)
      (Level.assignment - 1 + 1) (Level.assignment - 1) :=
  lastOperand he h .right rfl (by decide)

end Operands

/-! ### One form after another -/

section Forms

variable {l : Layout} {t : Token} {e left right : Expr} {es : List Expr}

lemma constant (t : Token) (c : Constant) : ReadsBack l (.node ⟨t, []⟩ (.constant c)) := by
  have hs : (l.constant c).kind.start? = some .literal := by
    cases c with
    | bool b => cases b <;> rfl
    | _ => rfl
  refine of_start hs fun {b rest} _ _ => ?_
  refine ⟨Expr.plain (l.constant c) (.constant c), .plain _ rfl, ?_⟩
  cases c with
  | bool b => cases b <;> rfl
  | _ => rfl

lemma name (t : Token) (x : String) : ReadsBack l (.node ⟨t, []⟩ (.name x)) := by
  refine of_start (show (l.sign .identifier x).kind.start? = some .name from rfl)
    fun {b rest} _ _ => ?_
  exact ⟨Expr.plain (l.sign .identifier x) (.name x), .plain _ rfl, rfl⟩

lemma unary (op : UnaryOp) (he : OnLadder e) (h : ReadsBack l e) :
    ReadsBack l (.node ⟨t, []⟩ (.unary op e)) := by
  have hs : (l.sign op.kind op.symbol).kind.start? = some (.unary op) := by cases op <;> rfl
  -- Behind a sign, what has the level of a sign starts with one and needs no parentheses.
  have hoperand : Parses (l.enclose (tooLow .leading l.signs .right e.rung) (e.write l))
      (Spells · e) (Level.leading + 1) Level.leading := by
    by_cases hside : Side.right = l.signs
    · rw [← hside]
      refine operand he h (by decide) (by decide) fun hfit => ?_
      exact Form.leading_lt_opening ((tooLow_same _).mp hfit)
    · exact farOperand he h hside (by decide)
  refine of_start hs fun {b rest} htail hb => ?_
  obtain ⟨e', he', heq⟩ := hoperand.read (Nat.lt_succ_self _) htail htail hb
  refine ⟨Expr.plain (l.sign op.kind op.symbol) (.unary op e'),
    .plain _ (congrArg (Form.unary op) he'), ?_⟩
  rw [startWith, bind_of_ok heq]
  rfl

/-- A sign between two operands. -/
lemma infixed {link : Link} {tail : Level} {sign : Token} {ts us : List Token}
    (form : Expr → Expr → Form) (hl : sign.kind.link? = some link)
    (hcont : ∀ (expr : Level → Parse Expr) (b : Nat) (left' : Expr),
      continueWith expr b left' sign link =
        expr tail >>= fun right' => pure (Expr.plain sign (form left' right')))
    (hform : ∀ {left' right' : Expr}, Spells left' left → Spells right' right →
      (form left' right').ungrouped.mapTokens Token.blank =
        (form left right).mapTokens Token.blank)
    (hleft : Parses ts (Spells · left) link.level link.level)
    (hright : Parses us (Spells · right) (tail + 1) tail) :
    Parses (ts ++ sign :: us) (Mirrors · (form left right)) link.level tail := by
  refine joined hl hleft fun {b left' rest} hleft' htail hb => ?_
  obtain ⟨right', hright', heq⟩ := hright.read (Nat.lt_succ_self _) htail htail hb
  refine ⟨Expr.plain sign (form left' right'), .plain _ (hform hleft' hright'), ?_⟩
  rw [hcont, bind_of_ok heq]
  rfl

lemma binary (op : BinaryOp) (hl : OnLadder left) (hr : OnLadder right) (ihl : ReadsBack l left)
    (ihr : ReadsBack l right) : ReadsBack l (.node ⟨t, []⟩ (.binary op left right)) := by
  have hlink : (l.sign op.kind op.symbol).kind.link? = some (.binary op) := by cases op <;> rfl
  have hleft : Parses (l.enclose (tooLow op.rung op.side .left left.rung) (left.write l))
      (Spells · left) op.level op.level := by
    cases op with
    | power =>
        exact (farOperand hl ihl (by decide) (by decide)).mono (Nat.le_succ _) le_rfl
          fun _ h => h
    | _ => exact nearOperand hl ihl .left (by decide) (by decide) (by decide)
  have hright : Parses (l.enclose (tooLow op.rung op.side .right right.rung) (right.write l))
      (Spells · right) (op.rightLevel + 1) op.rightLevel := by
    cases op with
    | power => exact lastOperand hr ihr .right rfl (by decide)
    | _ => exact farOperand hr ihr (by decide) (by decide)
  exact infixed (.binary op) hlink (fun _ _ _ => rfl)
    (fun hl' hr' => congrArg₂ (Form.binary op) hl' hr') hleft hright

lemma logical (op : LogicalOp) (hl : OnLadder left) (hr : OnLadder right) (ihl : ReadsBack l left)
    (ihr : ReadsBack l right) : ReadsBack l (.node ⟨t, []⟩ (.logical op left right)) := by
  have hlink : (l.sign op.kind op.symbol).kind.link? = some (.logical op) := by cases op <;> rfl
  exact infixed (.logical op) hlink (fun _ _ _ => rfl)
    (fun hl' hr' => congrArg₂ (Form.logical op) hl' hr')
    (nearOperand hl ihl .left (by decide) (by decide) (by decide))
    (farOperand hr ihr (by decide) (by decide))

lemma pair (hl : OnLadder left) (hr : OnLadder right) (ihl : ReadsBack l left)
    (ihr : ReadsBack l right) : ReadsBack l (.node ⟨t, []⟩ (.pair left right)) :=
  infixed .pair (show l.colon.kind.link? = some .pair from rfl) (fun _ _ _ => rfl)
    (fun hl' hr' => congrArg₂ Form.pair hl' hr')
    (nearOperand hl ihl .left (by decide) (by decide) (by decide))
    (farOperand hr ihr (by decide) (by decide))

/-- A name in front of a sign that makes it a target or a parameter. -/
lemma nameBefore (x : String) {level : Level} (hlevel : level ≤ Level.closed) :
    Parses [l.sign .identifier x] (fun e => ∃ t, e = .node ⟨t, []⟩ (.name x)) level level := by
  refine (name (l := l) default x).mono hlevel hlevel ?_
  rintro e ⟨t, form, rfl, h⟩
  refine ⟨t, ?_⟩
  cases form with
  | name y =>
      cases h
      rfl
  | _ => simp [Form.ungrouped, Form.mapTokens, Expr.form] at h

lemma assign (x : String) (he : OnLadder e) (h : ReadsBack l e) :
    ReadsBack l (.node ⟨t, []⟩ (.assign x e false)) := by
  change Parses ([l.sign .identifier x] ++ l.sign .equal "=" ::
    l.enclose (tooLow .assignment .right .right e.rung) (e.write l)) _ _ _
  refine joined (show (l.sign .equal "=").kind.link? = some (.assign none) from rfl)
    (nameBefore x (by decide)) fun {b left' rest} hleft htail hb => ?_
  obtain ⟨t', rfl⟩ := hleft
  obtain ⟨e', he', heq⟩ := (bodyOperand he h).read (Nat.lt_succ_self _) htail htail hb
  refine ⟨Expr.plain (l.sign .equal "=") (.assign x e' false),
    .plain _ (congrArg (Form.assign x · false) he'), ?_⟩
  rw [continueWith, bind_of_ok heq]
  rfl

lemma lambda (x : String) (he : OnLadder e) (h : ReadsBack l e) :
    ReadsBack l (.node ⟨t, []⟩ (.lambda ⟨[x], none⟩ e)) := by
  change Parses ([l.sign .identifier x] ++ l.sign .arrow "->" ::
    l.enclose (tooLow .assignment .right .right e.rung) (e.write l)) _ _ _
  refine joined (show (l.sign .arrow "->").kind.link? = some .lambda from rfl)
    (nameBefore x (by decide)) fun {b left' rest} hleft htail hb => ?_
  obtain ⟨t', rfl⟩ := hleft
  obtain ⟨e', he', heq⟩ := (bodyOperand he h).read (Nat.lt_succ_self _) htail htail hb
  refine ⟨Expr.plain (l.sign .arrow "->") (.lambda ⟨[x], none⟩ e'),
    .plain _ (congrArg (Form.lambda ⟨[x], none⟩) he'), ?_⟩
  have hparams : ∀ ts, lift (lambdaParams (.node ⟨t', []⟩ (.name x))) ts =
      .ok (⟨[x], none⟩, ts) := fun _ => rfl
  rw [continueWith, bind_of_ok (hparams _), bind_of_ok heq]
  rfl

lemma member (x : String) (safe : Bool) (he : OnLadder e) (h : ReadsBack l e) :
    ReadsBack l (.node ⟨t, []⟩ (.member e x safe)) := by
  have hlink : (if safe then l.sign .safeDot "?." else l.sign .dot ".").kind.link? =
      some (.member safe) := by cases safe <;> rfl
  refine joined hlink (headOperand he h) fun {b left' rest} hleft htail hb => ?_
  refine ⟨Expr.plain (if safe then l.sign .safeDot "?." else l.sign .dot ".")
    (.member left' x safe), .plain _ (congrArg (Form.member · x safe) hleft), ?_⟩
  have hname : expect .identifier .expectedMember (l.sign .identifier x :: rest) =
      .ok (l.sign .identifier x, rest) := expect_cons (by simp) rfl rest
  rw [continueWith, List.singleton_append, bind_of_ok hname]
  rfl

lemma index (he : OnLadder left) (h : ReadsBack l left) (hi : OnLadder right)
    (hr : ReadsBack l right) : ReadsBack l (.node ⟨t, []⟩ (.index left right)) := by
  refine joined (show (l.sign .leftBracket "[").kind.link? = some .index from rfl)
    (headOperand he h) fun {b left' rest} hleft htail hb => ?_
  rw [List.append_assoc, List.singleton_append] at hb ⊢
  obtain ⟨right', hm, heq⟩ := hr.whole rfl hb
  refine ⟨Expr.plain (l.sign .leftBracket "[") (.index left' right'),
    .plain _ (congrArg₂ Form.index hleft (hi.spells hm)), ?_⟩
  have hclose : expect .rightBracket .expectedIndexEnd (l.sign .rightBracket "]" :: rest) =
      .ok (l.sign .rightBracket "]", rest) := expect_cons (by simp) rfl rest
  rw [continueWith, bind_of_ok heq, bind_of_ok (skipSeparators_cons (by simp)), bind_of_ok hclose]
  rfl

lemma allSpell {es' : List Expr} (ha : ∀ a ∈ es, OnLadder a)
    (h : AllMirror es' es) : AllSpell es' es := by
  induction h with
  | nil => exact .nil
  | cons hm _ ih =>
      exact .cons ((ha _ List.mem_cons_self).spells hm)
        (ih fun a h => ha a (List.mem_cons_of_mem _ h))

lemma call (he : OnLadder e) (h : ReadsBack l e) (ha : ∀ a ∈ es, OnLadder a)
    (hr : ∀ a ∈ es, ReadsBack l a) : ReadsBack l (.node ⟨t, []⟩ (.call e es)) := by
  refine joined (show (l.sign .leftParen "(").kind.link? = some .call from rfl) (headOperand he h)
    fun {b left' rest} hleft htail hb => ?_
  rw [List.append_assoc, List.singleton_append] at hb ⊢
  have hclose : Closes .rightParen (l.sign .rightParen ")") := ⟨rfl, .inl rfl⟩
  obtain ⟨es', hes', heq⟩ := delimited_write .argument hclose
    (fun a h => (ha a h).write_starts l) hr hb
  refine ⟨Expr.plain (l.sign .leftParen "(") (.call left' es'), .plain _ ?_, ?_⟩
  · exact congrArg₂ Form.call hleft (allSpell_iff.mp (allSpell ha hes'))
  · rw [continueWith, bind_of_ok heq]
    rfl

/-- A tuple with an item has a comma behind the first one, be there others or not. -/
lemma writeItems_tuple (l : Layout) (e : Expr) (es : List Expr) (rest : List Token) :
    writeItems l (e :: es) ++ (if (e :: es).length = 1 then [l.comma] else []) ++
      [l.sign .rightParen ")"] ++ rest =
        e.write l ++ l.comma :: (writeItems l es ++ l.sign .rightParen ")" :: rest) := by
  cases es with
  | nil => simp [writeItems, writeMore]
  | cons e₂ es => simp [writeItems, writeMore]

lemma tuple (ha : ∀ a ∈ es, OnLadder a) (hr : ∀ a ∈ es, ReadsBack l a) :
    ReadsBack l (.node ⟨t, []⟩ (.tuple es)) := by
  refine of_start (show (l.sign .leftParen "(").kind.start? = some .group from rfl)
    fun {b rest} _ hb => ?_
  have hclose : Closes .rightParen (l.sign .rightParen ")") := ⟨rfl, .inl rfl⟩
  have hgroup : ∃ es', AllSpell es' es ∧ group (expression (b + 1)) (b + 1)
      (writeItems l es ++ (if es.length = 1 then [l.comma] else []) ++ [l.sign .rightParen ")"] ++
        rest) = .ok (.tuple es', rest) := by
    cases es with
    | nil =>
        refine ⟨[], .nil, ?_⟩
        change group (expression (b + 1)) (b + 1) (l.sign .rightParen ")" :: rest) = _
        rw [group, bind_of_ok (skipSeparators_cons (by simp)),
          ifAccept_cons (by decide) (l.sign_kind .rightParen ")")]
        rfl
    | cons e es =>
        rw [writeItems_tuple] at hb ⊢
        have he := ha e List.mem_cons_self
        obtain ⟨e', hm, heq⟩ := (hr e List.mem_cons_self).whole rfl hb
        have hb' : (writeItems l es ++ l.sign .rightParen ")" :: rest).length ≤ b := by
          rw [List.length_append, List.length_cons] at hb
          omega
        obtain ⟨es', hes', heqs⟩ := delimited_write .tupleElement hclose
          (fun a h => (ha a (List.mem_cons_of_mem _ h)).write_starts l)
          (fun a h => hr a (List.mem_cons_of_mem _ h)) hb'
        refine ⟨e' :: es', .cons (he.spells hm)
          (allSpell (fun a h => ha a (List.mem_cons_of_mem _ h)) hes'), ?_⟩
        obtain ⟨t', ts, hts, hne⟩ := (he.write_starts l).exists_cons
        rw [hts, List.cons_append] at heq ⊢
        rw [group, bind_of_ok (skipSeparators_cons (hne rfl)),
          ifAccept_of_ne (by exact hne rfl), bind_of_ok heq,
          bind_of_ok (skipSeparators_cons (by simp)), ifAccept_cons (by decide) l.comma_kind,
          bind_of_ok heqs]
        rfl
  obtain ⟨es', hes', heq⟩ := hgroup
  refine ⟨Expr.plain (l.sign .leftParen "(") (.tuple es'),
    .plain _ (congrArg Form.tuple (allSpell_iff.mp hes')), ?_⟩
  rw [startWith, bind_of_ok heq]
  rfl

lemma collectionOf_list {es' : List Expr} (ha : ∀ a ∈ es, OnLadder a)
    (h : AllMirror es' es) :
    collectionOf es' = .ok (.list es') := by
  have hpair : ∀ e' ∈ es', isPair e' = false := by
    induction h with
    | nil => exact nofun
    | cons hm _ ih =>
        refine List.forall_mem_cons.mpr ⟨?_, ih fun a h => ha a (List.mem_cons_of_mem _ h)⟩
        obtain ⟨t, form, rfl, _⟩ := id hm
        cases form with
        | pair left right => exact absurd hm (ha _ List.mem_cons_self).not_pair
        | _ => rfl
  unfold collectionOf
  split
  · exact absurd (hpair _ List.mem_cons_self) (by simp [isPair])
  · rw [List.find?_eq_none.mpr (by simpa using hpair)]

/-- Items that can be read, between brackets. -/
lemma bracketed {form : Form} (hs : ∀ e ∈ es, Starts (e.write l)) (h : ∀ e ∈ es, ReadsBack l e)
    (hform : ∀ {es' : List Expr}, AllMirror es' es → ∃ form', collectionOf es' = .ok form' ∧
      form'.ungrouped.mapTokens Token.blank = form.mapTokens Token.blank) :
    Parses (l.sign .leftBracket "[" :: (writeItems l es ++ [l.sign .rightBracket "]"]))
      (Mirrors · form) Level.closed Level.closed := by
  refine of_start (show (l.sign .leftBracket "[").kind.start? = some .collection from rfl)
    fun {b rest} _ hb => ?_
  rw [List.append_assoc, List.singleton_append] at hb ⊢
  have hclose : Closes .rightBracket (l.sign .rightBracket "]") := ⟨rfl, .inr rfl⟩
  obtain ⟨es', hes', heq⟩ := delimited_write .element hclose hs h hb
  obtain ⟨form', hof, hmirror⟩ := hform hes'
  refine ⟨Expr.plain (l.sign .leftBracket "[") form', .plain _ hmirror, ?_⟩
  have hlift : ∀ ts, lift (collectionOf es') ts = .ok (form', ts) := by
    intro ts
    rw [lift, hof]
    rfl
  have hcollection : collection (expression (b + 1)) (b + 1)
      (writeItems l es ++ l.sign .rightBracket "]" :: rest) = .ok (form', rest) := by
    -- Neither a written item nor the bracket behind the last one is a separator or a colon.
    have hfront : ∃ t ts, writeItems l es ++ l.sign .rightBracket "]" :: rest = t :: ts ∧
        t.kind ≠ .separator ∧ t.kind ≠ .colon := by
      cases es with
      | nil => exact ⟨_, _, rfl, by simp, by simp⟩
      | cons e es =>
          obtain ⟨t, ts, hts, hne⟩ := (hs e List.mem_cons_self).exists_cons
          exact ⟨t, _, by rw [writeItems, hts]; rfl, hne rfl, hne rfl⟩
    obtain ⟨t, ts, hts, hsep, hcolon⟩ := hfront
    rw [hts] at heq ⊢
    rw [collection, bind_of_ok (skipSeparators_cons hsep), ifAccept_of_ne (by exact hcolon),
      bind_of_ok heq, hlift]
  rw [startWith, bind_of_ok hcollection]
  rfl

lemma list (ha : ∀ a ∈ es, OnLadder a) (hr : ∀ a ∈ es, ReadsBack l a) :
    ReadsBack l (.node ⟨t, []⟩ (.list es)) := by
  refine bracketed (fun a h => (ha a h).write_starts l) hr fun {es'} hes' => ?_
  exact ⟨.list es', collectionOf_list ha hes',
    congrArg Form.list (allSpell_iff.mp (allSpell ha hes'))⟩

lemma entriesOf_pairsOf {entries : List (Expr × Expr)} {es' : List Expr}
    (h : AllMirror es' (pairsOf l entries)) :
    ∃ entries', entriesOf es' = .ok entries' ∧ AllSpellPairs entries' entries := by
  induction entries generalizing es' with
  | nil =>
      cases h
      exact ⟨[], rfl, .nil⟩
  | cons p entries ih =>
      obtain ⟨e', es', hm, hes', rfl⟩ := List.forall₂_cons_right_iff.mp h
      obtain ⟨entries', hof, hspell⟩ := ih hes'
      obtain ⟨t, left, right, rfl, hl, hr⟩ := Mirrors.pair hm
      refine ⟨(left, right) :: entries', ?_, .cons ⟨hl, hr⟩ hspell⟩
      rw [entriesOf, hof]
      rfl

lemma map {entries : List (Expr × Expr)} (hk : ∀ p ∈ entries, OnLadder p.1)
    (hv : ∀ p ∈ entries, OnLadder p.2) (ihk : ∀ p ∈ entries, ReadsBack l p.1)
    (ihv : ∀ p ∈ entries, ReadsBack l p.2) :
    ReadsBack l (.node ⟨t, []⟩ (.map entries)) := by
  cases entries with
  | nil =>
      refine of_start (show (l.sign .leftBracket "[").kind.start? = some .collection from rfl)
        fun {b rest} _ hb => ?_
      refine ⟨Expr.plain (l.sign .leftBracket "[") (.map []), .plain _ rfl, ?_⟩
      have hclose : expect .rightBracket .expectedEmptyMapEnd (l.sign .rightBracket "]" :: rest) =
          .ok (l.sign .rightBracket "]", rest) := expect_cons (by simp) rfl rest
      have hcollection : collection (expression (b + 1)) (b + 1)
          (l.colon :: l.sign .rightBracket "]" :: rest) = .ok (.map [], rest) := by
        rw [collection, bind_of_ok (skipSeparators_cons (by simp)),
          ifAccept_cons (by decide) l.colon_kind, bind_of_ok hclose]
        rfl
      rw [startWith]
      exact bind_of_ok hcollection _
  | cons p entries =>
      change Parses (l.sign .leftBracket "[" :: (writeEntries l (p :: entries) ++
        [l.sign .rightBracket "]"])) _ _ _
      rw [← writeItems_pairsOf]
      refine bracketed ?_ ?_ fun {es'} hes' => ?_
      · intro e he
        obtain ⟨q, hq, rfl⟩ := List.mem_map.mp he
        exact (hk q hq).write_starts l |>.enclose
      · intro e he
        obtain ⟨q, hq, rfl⟩ := List.mem_map.mp he
        exact pair (hk q hq) (hv q hq) (ihk q hq) (ihv q hq)
      · obtain ⟨entries', hof, hspell⟩ := entriesOf_pairsOf hes'
        refine ⟨.map entries', ?_, congrArg Form.map (allSpellPairs_iff.mp hspell)⟩
        obtain ⟨e', es', hm, _, rfl⟩ := List.forall₂_cons_right_iff.mp hes'
        obtain ⟨_, _, _, rfl, _, _⟩ := Mirrors.pair hm
        rw [collectionOf, hof]
        rfl

end Forms

end Parses

end Parse

/-- Every written tree is read back. -/
lemma OnLadder.readsBack {e : Expr} (h : OnLadder e) (l : Layout) : Parse.Parses.ReadsBack l e := by
  induction h with
  | constant t c => exact .constant t c
  | name t x => exact .name t x
  | tuple t h ih => exact .tuple h ih
  | list t h ih => exact .list h ih
  | map t hk hv ihk ihv => exact .map hk hv ihk ihv
  | unary t op h ih => exact .unary op h ih
  | binary t op hl hr ihl ihr => exact .binary op hl hr ihl ihr
  | logical t op hl hr ihl ihr => exact .logical op hl hr ihl ihr
  | call t hc ha ihc iha => exact .call hc ihc ha iha
  | index t ht hi iht ihi => exact .index ht iht hi ihi
  | member t name safe h ih => exact .member name safe h ih
  | assign t name h ih => exact .assign name h ih
  | lambda t x h ih => exact .lambda x h ih

/-! ### Whole lists of tokens -/

section Whole

open Parse

variable {e : Expr}

/-- In front of the end, a written tree is one expression. -/
lemma OnLadder.expression_write (h : OnLadder e) (l : Layout) (source : String) (line : Nat) :
    ∃ e', Mirrors e' e.form ∧
      expression ((e.write l).length + 2) 0 (e.write l ++ [Token.endOf source line]) =
        .ok (e', [Token.endOf source line]) :=
  (h.readsBack l).whole rfl (by simp)

lemma OnLadder.kind_ne_eof (h : OnLadder e) (l : Layout) : ∀ t ∈ e.write l, t.kind ≠ .eof := by
  obtain ⟨e', _, heq⟩ := h.expression_write l "" 0
  obtain ⟨taken, htaken, _, hne⟩ := (expression_passes heq).exists_taken
  rw [List.append_cancel_right htaken]
  exact hne

lemma OnLadder.parseTokens_endOf_write (h : OnLadder e) (l : Layout) (source : String)
    (line : Nat) : ∃ e', Mirrors e' e.form ∧
      parseTokens (e.write l ++ [Token.endOf source line]) = .ok [e'] := by
  obtain ⟨e', hm, heq⟩ := h.expression_write l source line
  exact ⟨e', hm, parseTokens_of_single heq⟩

/-- Tokens without an end are read as if they had one. -/
lemma parseTokens_eq_endOf {ts : List Token} (h : ∀ t ∈ ts, t.kind ≠ .eof) :
    ∃ source line, parseTokens ts = parseTokens (ts ++ [Token.endOf source line]) := by
  have hclosed : ∃ source line, closed ts = ts ++ [Token.endOf source line] := by
    rw [closed]
    cases hlast : ts.getLast? with
    | none =>
        rw [List.getLast?_eq_none_iff.mp hlast]
        exact ⟨"<input>", 1, rfl⟩
    | some last => exact ⟨last.source, last.line, if_neg (h last (List.mem_of_getLast? hlast))⟩
  obtain ⟨source, line, hclosed⟩ := hclosed
  refine ⟨source, line, ?_⟩
  rw [parseTokens_endOf, parseTokens, hclosed]
  simp [budgetFor]

/-- **The ladder is parsed exactly.** A tree that is written with parentheses exactly where the rung
of an operand is too low for its place is read back as one expression, which is that tree once the
nodes for the parentheses are taken off. -/
theorem parseTokens_write (h : OnLadder e) (l : Layout) :
    ∃ e', parseTokens (e.write l) = .ok [e'] ∧
      e'.ungrouped.mapTokens Token.blank = e.mapTokens Token.blank := by
  obtain ⟨source, line, hend⟩ := parseTokens_eq_endOf (h.kind_ne_eof l)
  obtain ⟨e', hm, heq⟩ := h.parseTokens_endOf_write l source line
  exact ⟨e', hend.trans heq, h.spells hm⟩

/-- A tree that needs parentheses on both sides of operators: the sum stands without them in the
right operand of the power, since it binds tighter. -/
def nestedPowers : Expr :=
  let leaf (x : String) : Expr := .node ⟨default, []⟩ (.name x)
  let inner (op : BinaryOp) (left right : Expr) : Expr :=
    .node ⟨default, []⟩ (.binary op left right)
  let call : Expr :=
    .node ⟨default, []⟩ (.call (leaf "f") [inner .subtract (leaf "a") (inner .subtract (leaf "b")
      (leaf "c"))])
  .node ⟨default, []⟩ (.assign "x" (inner .power (inner .power (leaf "a") (leaf "b"))
    (inner .add (leaf "c") (.node ⟨default, []⟩ (.unary .negate call)))) false)

theorem parseTokens_write_nestedPowers :
    OnLadder nestedPowers ∧
      (nestedPowers.write ⟨"main", 1, .left⟩).map (·.lexeme) =
        ["x", "=", "(", "a", "^", "b", ")", "^", "c", "+", "-", "f", "(", "a", "-", "(", "b", "-",
          "c", ")", ")"] ∧
      ∃ e', parseTokens (nestedPowers.write ⟨"main", 1, .left⟩) = .ok [e'] ∧
        e'.ungrouped.mapTokens Token.blank = nestedPowers.mapTokens Token.blank := by
  have h : OnLadder nestedPowers := by
    refine .assign _ "x" (.binary _ .power (.binary _ .power (.name _ "a") (.name _ "b"))
      (.binary _ .add (.name _ "c") (.unary _ .negate (.call _ (.name _ "f") ?_))))
    intro e he
    rw [List.mem_singleton.mp he]
    exact .binary _ .subtract (.name _ "a") (.binary _ .subtract (.name _ "b") (.name _ "c"))
  exact ⟨h, rfl, parseTokens_write h ⟨"main", 1, .left⟩⟩

end Whole

end Tern
