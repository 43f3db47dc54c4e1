/-
Targets in front of a sign. A target of an assignment is a name, an index or a member, perhaps in
parentheses; it closes with a token of its own, so what follows it does not matter to how it is
read, as long as that binds no tighter than an annotation in front.

* `Expr.core`, `Expr.pairs`: a target without its parentheses, and their number;
* `compoundAssignment_eq`: a compound assignment takes off one pair of them at most;
* `Parse.makes_startWith`, `Parse.makes_continueWith`: which tokens make a target;
* `Parse.Alignment.inFrontOf`: lists that go on in any way where the first one ends;
* `Parse.expression_operand`: a target read in front of any rest, after which the loop goes on.
-/
import Mathlib.Tactic
import Tern.Proofs.Ladder
import Tern.Proofs.Makes

namespace Tern

/-! ### Parentheses around a target -/

/-- The forms of names, indices and members, and of what is in parentheses. -/
def Form.isOperand : Form → Bool
  | .name _ | .group _ | .index _ _ | .member _ _ _ => true
  | _ => false

namespace Expr

/-- An expression without the parentheses around it. -/
def core : Expr → Expr
  | .node _ (.group inner) => inner.core
  | e => e

/-- The number of pairs of parentheses around an expression. -/
def pairs : Expr → Nat
  | .node _ (.group inner) => inner.pairs + 1
  | _ => 0

lemma core_of_pairs {e : Expr} (h : e.pairs = 0) : e.core = e := by
  cases e with
  | node site form =>
      cases form with
      | group inner => cases h
      | _ => rfl

lemma pairs_core (e : Expr) : e.core.pairs = 0 := by
  fun_induction core e with
  | case1 site inner ih => exact ih
  | case2 e h =>
      cases e with
      | node site form =>
          cases form with
          | group inner => exact absurd rfl (h site inner)
          | _ => rfl

lemma ungrouped_core (e : Expr) : e.core.ungrouped = e.ungrouped := by
  fun_induction core e with
  | case1 site inner ih => rw [ih, ungrouped]
  | case2 e h => rfl

lemma isOperand_of_core {e : Expr} (h : e.core.isCompoundTarget = true) :
    e.form.isOperand = true := by
  cases e with
  | node site form =>
      cases form with
      | member object name safe => rfl
      | _ => first | rfl | cases h

end Expr

lemma assignment_core (value : Expr) (token : Token) (e : Expr) :
    assignment value token e = assignment value token e.core := by
  fun_induction Expr.core e with
  | case1 site inner ih => rw [← ih, assignment]
  | case2 e h => rfl

/-- **A compound assignment takes off one pair of parentheses**, and needs a target then. -/
lemma compoundAssignment_eq (op : BinaryOp) {e : Expr} (h : e.core.isCompoundTarget = true)
    (value : Expr) (token : Token) :
    compoundAssignment op e value token =
      if e.pairs ≤ 1 then assignment (.plain token (.binary op e.core value)) token e.core
      else .error (.parse token .invalidCompoundTarget) := by
  have hbare : e.pairs = 0 → e.ungroup = e ∧ e.core = e := by
    intro hp
    refine ⟨?_, Expr.core_of_pairs hp⟩
    cases e with
    | node site form =>
        cases form with
        | group inner => cases hp
        | _ => rfl
  cases hp : e.pairs with
  | zero =>
      obtain ⟨hungroup, hcore⟩ := hbare hp
      rw [hcore] at h ⊢
      simp only [compoundAssignment, hungroup, h, if_true, Nat.zero_le]
  | succ k =>
      cases e with
      | node site form =>
          cases form with
          | group inner =>
              have hk : inner.pairs = k := Nat.succ.inj hp
              have hungroup : (Expr.node site (.group inner)).ungroup = inner := rfl
              have hinner : (Expr.node site (.group inner)).core = inner.core := by rw [Expr.core]
              rw [hinner] at h ⊢
              simp only [compoundAssignment, hungroup]
              by_cases hzero : k = 0
              · rw [Expr.core_of_pairs (hk.trans hzero)] at h ⊢
                rw [if_pos h, if_pos (by omega)]
              · have hnot : inner.isCompoundTarget = false := by
                  cases inner with
                  | node site form =>
                      cases form with
                      | group inner => rfl
                      | _ => exact absurd hk.symm hzero
                rw [if_neg (by simp [hnot]), if_neg (by omega)]
          | _ => cases hp

namespace Parse

/-! ### Which tokens make a target -/

section Forms

variable {expr : Level → Parse Expr} {n : Nat} {token : Token} {left : Expr}

lemma isOperand_of_collectionOf {items : List Expr} {form : Form}
    (h : collectionOf items = .ok form) : form.isOperand = false := by
  unfold collectionOf at h
  split at h
  · rename_i site key value rest
    cases hentries : entriesOf (.node site (.pair key value) :: rest) with
    | error e =>
        rw [hentries] at h
        cases h
    | ok entries =>
        rw [hentries] at h
        cases h
        rfl
  · split at h <;> cases h
    rfl

lemma isOperand_of_assignment {value target e : Expr} (h : assignment value token target = .ok e) :
    e.form.isOperand = false := by
  rw [assignment_core] at h
  have hpairs := target.pairs_core
  generalize target.core = target at h hpairs
  cases target with
  | node site form =>
      cases form with
      | group inner => cases hpairs
      | call callee arguments =>
          simp only [assignment] at h
          split at h
          · cases h
          · split at h
            · cases h
              rfl
            · cases h
      | member object x safe =>
          cases safe <;> cases h
          rfl
      | _ => first | (cases h; rfl) | cases h

lemma makes_group : Makes (fun _ => True) (group expr n)
    (fun form => form.isOperand = true → ∃ e, form = .group e) :=
  .bind .any fun _ _ => .cond .any (.pure nofun) <| .bind .any fun first _ => .bind .any fun _ _ =>
    .cond .any (.map .any fun _ _ => nofun) (.map .any fun _ _ _ => ⟨first, rfl⟩)

/-- Only a name, a parenthesis and an annotation start a target. -/
lemma makes_startWith {start : Start} (h : start ≠ .name ∧ start ≠ .group ∧ start ≠ .annotated) :
    Makes (fun _ => True) (startWith expr n token start) (fun e => e.form.isOperand = false) := by
  cases start with
  | name => exact absurd rfl h.1
  | group => exact absurd rfl h.2.1
  | annotated => exact absurd rfl h.2.2
  | collection =>
      have hform : Makes (fun _ => True) (collection expr n) (fun form => form.isOperand = false) :=
        .bind .any fun _ _ => .cond .any (.map .any fun _ _ => rfl)
          (.bind .any fun _ _ => .lifted fun _ => isOperand_of_collectionOf)
      exact hform.map fun _ hf => hf
  | branch =>
      have hform : Makes (fun _ => True) (branch expr) (fun form => form.isOperand = false) :=
        .bind .any fun _ _ => .bind .any fun _ _ =>
          .cond .any (.map .any fun _ _ => rfl) (.pure rfl)
      exact hform.map fun _ hf => hf
  | forLoop =>
      have hform : Makes (fun _ => True) (forLoop expr) (fun form => form.isOperand = false) :=
        .bind .any fun _ _ => .bind .any fun _ _ => .bind .any fun _ _ => .map .any fun _ _ => rfl
      exact hform.map fun _ hf => hf
  | attempt =>
      have hform : Makes (fun _ => True) (attempt expr n) (fun form => form.isOperand = false) :=
        .bind .any fun _ _ => .cond .any (.map .any fun _ _ => rfl) .failing
      exact hform.map fun _ hf => hf
  | leave =>
      have hform : Makes (fun _ => True) (leave expr) (fun form => form.isOperand = false) :=
        .leave .any rfl fun _ _ => rfl
      exact hform.map fun _ hf => hf
  | classDef =>
      have hform : Makes (fun _ => True) (classDef expr n)
          (fun form => form.isOperand = false) := by
        unfold classDef
        simp only [pure_bind]
        have hbody : ∀ name parent, Makes (fun _ => True)
            (skipSeparators >>= fun _ => expect .leftBrace .expectedClassBody >>= fun _ =>
              sequence expr n >>= fun body => lift (membersOf body) >>= fun members =>
                pure (Form.classDef name parent members)) (fun form => form.isOperand = false) :=
          fun _ _ => .bind .any fun _ _ => .bind .any fun _ _ => .bind .any fun _ _ =>
            .map .any fun _ _ => rfl
        exact .bind .any fun _ _ => .cond .any (.bind .any fun _ _ => hbody _ _) (hbody _ _)
      exact hform.map fun _ hf => hf
  | importing =>
      have hform : Makes (fun _ => True) (importing n) (fun form => form.isOperand = false) :=
        .bind .any fun _ _ => .map .any fun _ _ => rfl
      exact hform.map fun _ hf => hf
  | whileLoop => exact .bind .any fun _ _ => .map .any fun _ _ => rfl
  | _ => exact .map .any fun _ _ => rfl

/-- Only a bracket and a point continue an expression to a target. -/
lemma makes_continueWith {link : Link} (h : link ≠ .index ∧ ∀ safe, link ≠ .member safe) :
    Makes (fun _ => True) (continueWith expr n left token link)
      (fun e => e.form.isOperand = false) := by
  cases link with
  | index => exact absurd rfl h.1
  | member safe => exact absurd rfl (h.2 safe)
  | assign op =>
      cases op with
      | none => exact .bind .any fun _ _ => .lifted fun _ => isOperand_of_assignment
      | some op =>
          refine .bind .any fun value _ => .lifted fun e he => ?_
          simp only [compoundAssignment] at he
          split at he
          · exact isOperand_of_assignment he
          · cases he
  | lambda => exact .bind .any fun _ _ => .map .any fun _ _ => rfl
  | matching =>
      refine .bind .any fun arms _ => ?_
      split
      · exact .failingAt
      · exact .pure rfl
  | spread => exact .pure rfl
  | _ => exact .map .any fun _ _ => rfl

end Forms

/-! ### Up to a closing token -/

section Closed

variable {n b least : Nat} {ts us tail mid rest last : List Token} {e t left : Expr} {token : Token}

/-- A list that goes on in any way where the first one ends. -/
def Alignment.inFrontOf (tail : List Token) : Alignment where
  relabel := id
  faithful := Token.Faithful.id
  Ending ts us := (front ts).kind = .eof ∧ us = tail
  atEnd h := atEnd_of_eof h.1

lemma Alignment.Match.eq_tail (hm : (Alignment.inFrontOf tail).Match ts us)
    (h : (front ts).kind = .eof) : us = tail := by
  cases hm with
  | ending hE => exact hE.2
  | cons ht _ => exact absurd h ht

lemma Alignment.Match.length_tail_le (hm : (Alignment.inFrontOf tail).Match ts us) :
    tail.length ≤ us.length := by
  induction hm with
  | ending hE => exact hE.2 ▸ le_refl _
  | cons _ _ ih => exact le_trans ih (Nat.le_succ _)

lemma kind_ne_of_dropWhile (h : ts.dropWhile (·.kind = .separator) = token :: mid) :
    token.kind ≠ .separator := by
  have hhead := List.head?_dropWhile_not (fun t : Token => decide (t.kind = .separator)) ts
  rw [h] at hhead
  simpa using hhead

/-- Separators in front are skipped in both lists, if something stands behind them. -/
lemma Alignment.Match.skip (hm : (Alignment.inFrontOf tail).Match ts us)
    (h : ts.dropWhile (·.kind = .separator) = token :: mid) (ht : token.kind ≠ .eof) :
    ∃ vs, us.dropWhile (·.kind = .separator) = token :: vs ∧
      (Alignment.inFrontOf tail).Match mid vs := by
  have hsep : token.kind ≠ .separator := kind_ne_of_dropWhile h
  rcases Alignment.skims_skipSeparators.follows hm rfl with hend | ⟨vs, hskip, hm'⟩
  · rw [h] at hend
    exact absurd hend.front_kind (by simp [ht, hsep])
  · cases hskip
    rw [h] at hm'
    exact hm'.of_cons ht hsep

/-- What stops in front of a closing token stops there whatever comes behind it. -/
lemma expression_upTo (hm : (Alignment.inFrontOf tail).Match ts us) (hn : n ≤ b)
    (h : expression n least ts = .ok (e, mid))
    (hclose : mid.dropWhile (·.kind = .separator) = token :: rest) (ht : token.kind ≠ .eof)
    (hrest : (front rest).kind = .eof) :
    ∃ vs, expression b least us = .ok (e, vs) ∧
      vs.dropWhile (·.kind = .separator) = token :: tail := by
  have hmid : ¬ AtEnd mid := by
    rw [AtEnd, hclose]
    exact ht
  obtain ⟨vs, hvs, hm'⟩ := (Alignment.reads_expression hn least).follows hm h
    fun hend => absurd hend hmid
  obtain ⟨ws, hws, hm''⟩ := hm'.skip hclose ht
  rw [hm''.eq_tail hrest] at hws
  exact ⟨vs, by simpa [Alignment.inFrontOf, Expr.mapTokens_id] using hvs, hws⟩

lemma expect_eq_ok {kind : TokenKind} {fault : ParseFault} (hk : kind ≠ .eof) :
    expect kind fault ts = .ok (token, rest) ↔ ts = token :: rest ∧ token.kind = kind := by
  rcases accept_cases hk ts with ⟨u, us, rfl, hu, -⟩ | ⟨hne, -⟩
  · rw [expect_cons hk hu]
    constructor
    · intro h
      cases h
      exact ⟨rfl, hu⟩
    · rintro ⟨h, -⟩
      cases h
      rfl
  · rw [expect_of_ne hne]
    refine ⟨nofun, ?_⟩
    rintro ⟨rfl, ht⟩
    exact absurd ht hne

/-- A group is an expression and a closing parenthesis. -/
lemma group_eq_ok :
    group (expression n) b ts = .ok (.group e, rest) ↔
      ∃ mid close, expression n 0 ts = .ok (e, mid) ∧
        mid.dropWhile (·.kind = .separator) = close :: rest ∧ close.kind = .rightParen := by
  rw [group, bind_apply, skipSeparators_apply]
  dsimp only
  constructor
  · intro h
    rcases accept_cases (by decide : TokenKind.rightParen ≠ .eof)
      (ts.dropWhile (·.kind = .separator)) with ⟨u, vs, hts, hu, -⟩ | ⟨hne, -⟩
    · rw [hts, ifAccept_cons (by decide) hu] at h
      cases h
    · rw [ifAccept_of_ne hne] at h
      obtain ⟨first, mid, hfirst, h⟩ := bind_eq_ok.mp h
      rw [bind_apply, skipSeparators_apply] at h
      dsimp only at h
      rcases accept_cases (by decide : TokenKind.comma ≠ .eof)
        (mid.dropWhile (·.kind = .separator)) with ⟨u, vs, hts, hu, -⟩ | ⟨hne, -⟩
      · rw [hts, ifAccept_cons (by decide) hu] at h
        obtain ⟨_, _, -, h⟩ := bind_eq_ok.mp h
        cases h
      · rw [ifAccept_of_ne hne] at h
        obtain ⟨close, after, hclose, h⟩ := bind_eq_ok.mp h
        cases h
        exact ⟨mid, close, expression_dropWhile.mp hfirst,
          (expect_eq_ok (by decide)).mp hclose⟩
  · rintro ⟨mid, close, h, hclose, hk⟩
    have hne : (front (ts.dropWhile (·.kind = .separator))).kind ≠ .rightParen := by
      cases n with
      | zero => cases h
      | succ n =>
          rw [expression_succ, bind_apply, skipSeparators_apply] at h
          obtain ⟨u, vs, start, hts, -, hs, -⟩ := starting_eq_ok h
          rw [hts, front_cons]
          intro hu
          rw [hu] at hs
          cases hs
    rw [ifAccept_of_ne hne, bind_of_ok (expression_dropWhile.mpr h), bind_apply,
      skipSeparators_apply]
    dsimp only
    rw [hclose, ifAccept_of_ne (by simp [hk]), bind_of_ok (expect_cons (by decide) hk rest)]
    rfl

/-- An index is an expression and a closing bracket. -/
lemma continueWith_index_eq_ok :
    continueWith (expression n) b left token .index ts = .ok (t, rest) ↔
      ∃ e mid close, expression n 0 ts = .ok (e, mid) ∧
        mid.dropWhile (·.kind = .separator) = close :: rest ∧ close.kind = .rightBracket ∧
        t = .plain token (.index left e) := by
  rw [continueWith]
  constructor
  · intro h
    obtain ⟨e, mid, he, h⟩ := bind_eq_ok.mp h
    rw [bind_apply, skipSeparators_apply] at h
    obtain ⟨close, after, hclose, h⟩ := bind_eq_ok.mp h
    cases h
    obtain ⟨hmid, hk⟩ := (expect_eq_ok (by decide)).mp hclose
    exact ⟨e, mid, close, he, hmid, hk, rfl⟩
  · rintro ⟨e, mid, close, he, hmid, hk, rfl⟩
    rw [bind_of_ok he, bind_apply, skipSeparators_apply]
    dsimp only
    rw [hmid, bind_of_ok (expect_cons (by decide) hk rest)]
    rfl

lemma continueWith_member_eq_ok {safe : Bool} :
    continueWith (expression n) b left token (.member safe) ts = .ok (t, rest) ↔
      ∃ name, ts = name :: rest ∧ name.kind = .identifier ∧
        t = .plain token (.member left name.lexeme safe) := by
  rw [continueWith]
  constructor
  · intro h
    obtain ⟨name, after, hname, h⟩ := bind_eq_ok.mp h
    cases h
    obtain ⟨hts, hk⟩ := (expect_eq_ok (by decide)).mp hname
    exact ⟨name, hts, hk, rfl⟩
  · rintro ⟨name, rfl, hk, rfl⟩
    rw [bind_of_ok (expect_cons (by decide) hk rest)]
    rfl

/-! ### A target in front of a rest -/

/-- What a token starts, if it is a target that ends the list. -/
lemma startWith_operand {start : Start} (hm : (Alignment.inFrontOf tail).Match ts us) (hn : n ≤ b)
    (hnested : ∀ e, e.form.isOperand = true →
      expression n Level.leading ts = .ok (e, rest) → expression b Level.leading us = .ok (e, tail))
    (h : startWith (expression n) n token start ts = .ok (t, rest))
    (hrest : (front rest).kind = .eof) (ht : t.form.isOperand = true) :
    startWith (expression b) b token start us = .ok (t, tail) := by
  by_cases hstart : start ≠ .name ∧ start ≠ .group ∧ start ≠ .annotated
  · have hnot : t.form.isOperand = false := (makes_startWith hstart (fun _ _ => trivial) h).1
    exact absurd (ht.symm.trans hnot) (by decide)
  · cases start with
    | name =>
        cases h
        rw [hm.eq_tail hrest]
        rfl
    | group =>
        obtain ⟨form, after, hform, h⟩ := bind_eq_ok.mp h
        cases h
        obtain ⟨e, rfl⟩ := (makes_group (fun _ _ => trivial) hform).1 ht
        obtain ⟨mid, close, he, hclose, hk⟩ := group_eq_ok.mp hform
        obtain ⟨vs, hvs, hclose'⟩ := expression_upTo hm hn he hclose (by simp [hk]) hrest
        rw [startWith, bind_of_ok (group_eq_ok.mpr ⟨vs, close, hvs, hclose', hk⟩)]
        rfl
    | annotated =>
        obtain ⟨e, after, he, h⟩ := bind_eq_ok.mp h
        cases h
        have hform : (e.annotate token.lexeme).form = e.form := by cases e; rfl
        rw [startWith, bind_of_ok (hnested e (hform ▸ ht) he)]
        rfl
    | _ => simp at hstart

/-- What a token makes of the expression to its left, if it is a target that ends the list. -/
lemma continueWith_operand {link : Link} (hm : (Alignment.inFrontOf tail).Match ts us)
    (hn : n ≤ b) (h : continueWith (expression n) n left token link ts = .ok (t, rest))
    (hrest : (front rest).kind = .eof) (ht : t.form.isOperand = true) :
    continueWith (expression b) b left token link us = .ok (t, tail) := by
  by_cases hlink : link ≠ .index ∧ ∀ safe, link ≠ .member safe
  · have hnot : t.form.isOperand = false := (makes_continueWith hlink (fun _ _ => trivial) h).1
    exact absurd (ht.symm.trans hnot) (by decide)
  · cases link with
    | index =>
        obtain ⟨e, mid, close, he, hclose, hk, rfl⟩ := continueWith_index_eq_ok.mp h
        obtain ⟨vs, hvs, hclose'⟩ := expression_upTo hm hn he hclose (by simp [hk]) hrest
        exact continueWith_index_eq_ok.mpr ⟨e, vs, close, hvs, hclose', hk, rfl⟩
    | member safe =>
        obtain ⟨name, rfl, hk, rfl⟩ := continueWith_member_eq_ok.mp h
        obtain ⟨vs, rfl, hm'⟩ := hm.of_cons (by simp [hk]) (by simp [hk])
        rw [hm'.eq_tail hrest]
        exact continueWith_member_eq_ok.mpr ⟨name, rfl, hk, rfl⟩
    | _ => simp at hlink

/-- Where nothing continues an expression, the loop over continuations gives it back. -/
lemma eq_of_links {expr : Level → Parse Expr} {count : Nat}
    (hk : (front ts).kind = .eof ∨ (front ts).kind = .separator)
    (h : links expr b least count left ts = .ok (t, last)) : t = left ∧ last = ts := by
  cases count with
  | zero => cases h
  | succ count =>
      rw [links_stop (by rcases hk with hk | hk <;> rw [hk] <;> exact Nat.zero_le _)
        (Nat.succ_pos _)] at h
      cases h
      exact ⟨rfl, rfl⟩

/-- Where the loop over continuations runs to the end of the list, it does so at once, or more
than separators is left for it. -/
lemma not_atEnd_of_links {expr : Level → Parse Expr} {count : Nat}
    (h : links expr b least count left ts = .ok (t, last)) (hlast : (front last).kind = .eof)
    (hne : (front ts).kind ≠ .eof) : ¬ AtEnd ts := by
  intro hend
  obtain ⟨-, rfl⟩ := eq_of_links (.inr (hend.front_kind.resolve_left hne)) h
  exact hne hlast

/-- The loop over continuations runs to a target that ends the list, whatever comes behind it. -/
lemma links_operand {count more : Nat} (hm : (Alignment.inFrontOf tail).Match ts us) (hn : n ≤ b)
    (h : links (expression n) n least count left ts = .ok (t, last))
    (hlast : (front last).kind = .eof) (ht : t.form.isOperand = true) (hmore : us.length < more) :
    ∃ k, tail.length < k ∧
      links (expression b) b least more left us = links (expression b) b least k t tail := by
  induction count generalizing more left ts us with
  | zero => cases h
  | succ count ih =>
      cases hm with
      | ending hE =>
          obtain ⟨rfl, -⟩ := eq_of_links (.inl hE.1) h
          exact ⟨more, hE.2 ▸ hmore, by rw [hE.2]⟩
      | @cons u ts us hu hm =>
          rw [links_succ, front_cons] at h
          cases hl : u.kind.link? with
          | none =>
              rw [hl] at h
              cases h
              exact absurd hlast hu
          | some link =>
              rw [hl] at h
              dsimp only at h
              split at h
              · rename_i hlevel
                rw [bind_apply, advance_cons hu] at h
                obtain ⟨joined, mid, hjoined, h⟩ := bind_eq_ok.mp h
                rw [List.length_cons] at hmore
                obtain ⟨more, rfl⟩ : ∃ k, more = k + 1 := ⟨more - 1, by omega⟩
                have hcont : ∀ {m : Nat}, m ≤ b → (Alignment.inFrontOf tail).Reads u.kind.elides
                    (continueWith (expression m) m left u link)
                    (continueWith (expression b) b (left.mapTokens id) u link) (·.mapTokens id) :=
                  fun hm => Alignment.reads_continueWith (Alignment.reads_expression hm) hm hl
                change ∃ k, _ ∧ links _ b least (more + 1) left (u :: us) = _
                rw [links_step hl hlevel]
                by_cases hmid : (front mid).kind = .eof
                · -- The target is complete.
                  obtain ⟨rfl, -⟩ := eq_of_links (.inl hmid) h
                  have htail := hm.length_tail_le
                  refine ⟨more, by omega, ?_⟩
                  rw [bind_of_ok (continueWith_operand hm hn hjoined hmid ht)]
                · have hend := not_atEnd_of_links h hlast hmid
                  obtain ⟨vs, hvs, hm'⟩ := (hcont hn).follows hm hjoined fun hat => absurd hat hend
                  rw [Expr.mapTokens_id, Expr.mapTokens_id] at hvs
                  have hlength := ((hcont (le_refl b)).passes hvs).length_le
                  obtain ⟨k, hk, heq⟩ := ih hm' h (by omega : vs.length < more)
                  exact ⟨k, hk, by rw [bind_of_ok hvs, heq]⟩
              · cases h
                exact absurd hlast hu

/-- **A target in front of a rest**: where a target has been read to the end, it is read in front
of any rest that binds no tighter than an annotation allows, and the loop goes on with the rest. -/
theorem expression_operand (hm : (Alignment.inFrontOf tail).Match ts us)
    (h : expression n least ts = .ok (t, last)) (hlast : (front last).kind = .eof)
    (ht : t.form.isOperand = true) (htail : (front tail).kind.level ≤ Level.leading)
    (hn : n ≤ b + 1) (hb : us.length ≤ b) :
    ∃ k, tail.length < k ∧
      expression (b + 1) least us = links (expression b) b least k t tail := by
  induction n generalizing b least ts us t last with
  | zero => cases h
  | succ n ih =>
      rw [expression_succ, bind_apply, skipSeparators_apply] at h
      obtain ⟨u, ts', start, hts, hu, hs, h⟩ := starting_eq_ok h
      obtain ⟨us', hus, hm'⟩ := hm.skip hts hu
      obtain ⟨left, mid, hleft, h⟩ := bind_eq_ok.mp h
      have hlength : us'.length < us.length := by
        have hsuffix := (List.dropWhile_suffix (·.kind = .separator) : _ <:+ us).length_le
        rwa [hus] at hsuffix
      have hstart : expression (b + 1) least us =
          (startWith (expression b) b u start >>= links (expression b) b least b) us' := by
        rw [expression_succ, bind_apply, skipSeparators_apply]
        dsimp only
        rw [hus, starting_cons hs]
      rw [hstart]
      have hmore : us'.length < b := by omega
      have hnb : n ≤ b := by omega
      by_cases hmid : (front mid).kind = .eof
      · obtain ⟨rfl, -⟩ := eq_of_links (.inl hmid) h
        have hnested : ∀ e, e.form.isOperand = true →
            expression n Level.leading ts' = .ok (e, mid) →
            expression b Level.leading us' = .ok (e, tail) := by
          intro e he hn'
          obtain ⟨b, rfl⟩ : ∃ k, b = k + 1 := ⟨b - 1, by omega⟩
          obtain ⟨k, hk, heq⟩ := ih hm' hn' hmid he hnb (by omega)
          rw [heq, links_stop htail (by omega)]
        have hwhole := startWith_operand hm' hnb hnested hleft hmid ht
        have htail := hm'.length_tail_le
        exact ⟨b, by omega, by rw [bind_of_ok hwhole]⟩
      · have hend := not_atEnd_of_links h hlast hmid
        have hread : ∀ {m : Nat}, m ≤ b → (Alignment.inFrontOf tail).Reads u.kind.elides
            (startWith (expression m) m u start) (startWith (expression b) b u start)
            (·.mapTokens id) :=
          fun hm => Alignment.reads_startWith (Alignment.reads_expression hm) hm hs
        obtain ⟨vs, hvs, hm''⟩ := (hread hnb).follows hm' hleft fun hat => absurd hat hend
        rw [Expr.mapTokens_id] at hvs
        have hlength' := ((hread (le_refl b)).passes hvs).length_le
        obtain ⟨k, hk, heq⟩ := links_operand hm'' hnb h hlast ht (by omega : vs.length < b)
        exact ⟨k, hk, by rw [bind_of_ok hvs, heq]⟩

end Closed

end Parse

end Tern
