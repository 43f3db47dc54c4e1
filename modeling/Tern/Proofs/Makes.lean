/-
What parsers give. On tokens that all have a property, a parser gives results that have another
one, and the tokens it leaves still have the first.

* `Parse.Makes`: the statement; there is one rule for each way of joining parsers and one for each
  primitive.
-/
import Mathlib.Tactic
import Tern.Proofs.Primitives

namespace Tern

namespace Parse

/-- On good tokens, what a parser gives has a property, and the tokens that it leaves are good. -/
def Makes {α : Type} (good : Token → Prop) (p : Parse α) (Q : α → Prop) : Prop :=
  ∀ ⦃ts : List Token⦄ ⦃a : α⦄ ⦃rest : List Token⦄,
    (∀ t ∈ ts, good t) → p ts = .ok (a, rest) → Q a ∧ ∀ t ∈ rest, good t

namespace Makes

variable {α β : Type} {good : Token → Prop} {p q : Parse α} {k : α → Parse β} {P Q : α → Prop}
  {R : β → Prop}

/-! ### Ways of joining parsers -/

lemma any : Makes (fun _ => True) p (fun _ => True) :=
  fun _ _ _ _ _ => ⟨trivial, fun _ _ => trivial⟩

lemma bind (hp : Makes good p P) (hk : ∀ a, P a → Makes good (k a) R) :
    Makes good (p >>= k) R := by
  intro ts b rest hts h
  obtain ⟨a, mid, h₁, h₂⟩ := bind_eq_ok.mp h
  obtain ⟨ha, hmid⟩ := hp hts h₁
  exact hk a ha hmid h₂

lemma pure {a : α} (h : Q a) : Makes good (pure a) Q := by
  intro ts b rest hts hp
  cases hp
  exact ⟨h, hts⟩

/-- The result of a parser, turned into another one. -/
lemma map {g : α → β} (hp : Makes good p P) (hg : ∀ a, P a → R (g a)) :
    Makes good (p >>= fun a => Pure.pure (g a)) R :=
  hp.bind fun a ha => .pure (hg a ha)

lemma lifted {x : Except SourceError α} (h : ∀ a, x = .ok a → Q a) : Makes good (lift x) Q := by
  cases x with
  | error e => exact nofun
  | ok a => exact .pure (h a rfl)

lemma fails (h : ∀ ts, ∃ e, p ts = .error e) : Makes good p Q := by
  intro ts a rest _ hp
  obtain ⟨e, he⟩ := h ts
  cases he.symm.trans hp

lemma failing {fault : ParseFault} : Makes good (fail fault) Q :=
  fails fun ts => ⟨_, fail_apply fault ts⟩

lemma failingAt {t : Token} {fault : ParseFault} : Makes good (failAt t fault) Q :=
  fails fun ts => ⟨_, failAt_apply t fault ts⟩

lemma cond {x : Parse Bool} (hx : Makes good x (fun _ => True)) (hp : Makes good p Q)
    (hq : Makes good q Q) : Makes good (x >>= fun b => if b = true then p else q) Q := by
  refine hx.bind fun b _ => ?_
  cases b
  · exact hq
  · exact hp

/-- A parser that only takes tokens off the front leaves good tokens. -/
lemma of_suffix (h : ∀ {ts a rest}, p ts = .ok (a, rest) → Q a ∧ rest <:+ ts) : Makes good p Q :=
  fun _ _ _ hts hp => ⟨(h hp).1, fun t ht => hts t ((h hp).2.subset ht)⟩

/-! ### Primitives -/

lemma skipSeparators : Makes good skipSeparators (fun _ => True) := by
  refine of_suffix fun {ts a rest} h => ⟨trivial, ?_⟩
  cases h
  exact List.dropWhile_suffix _

lemma check {kind : TokenKind} : Makes good (check kind) (fun _ => True) := by
  refine of_suffix fun {ts a rest} h => ⟨trivial, ?_⟩
  cases h
  exact List.suffix_refl _

lemma accept {kind : TokenKind} (hk : kind ≠ .eof) : Makes good (accept kind) (fun _ => True) := by
  refine of_suffix fun {ts a rest} h => ⟨trivial, ?_⟩
  rcases accept_cases hk ts with ⟨t, us, rfl, -, ha⟩ | ⟨-, ha⟩
  · cases ha.symm.trans h
    exact List.suffix_cons _ _
  · cases ha.symm.trans h
    exact List.suffix_refl _

/-- A token that must be there is good and has its kind. -/
lemma expect {kind : TokenKind} {fault : ParseFault} (hk : kind ≠ .eof) :
    Makes good (expect kind fault) (fun t => good t ∧ t.kind = kind) := by
  intro ts a rest hts h
  rcases accept_cases hk ts with ⟨t, us, rfl, ht, -⟩ | ⟨hne, -⟩
  · rw [expect_cons hk ht] at h
    cases h
    exact ⟨⟨hts _ List.mem_cons_self, ht⟩, fun u hu => hts u (List.mem_cons_of_mem _ hu)⟩
  · rw [expect_of_ne hne] at h
    cases h

lemma endOfExpr {close : TokenKind} : Makes good (endOfExpr close) (fun _ => True) := by
  refine of_suffix fun {ts a rest} h => ⟨trivial, ?_⟩
  rcases accept_cases (by decide : TokenKind.separator ≠ .eof) ts with
    ⟨t, us, rfl, ht, -⟩ | ⟨hne, -⟩
  · rw [endOfExpr_of_separator ht] at h
    cases h
    exact List.suffix_cons _ _
  · rw [endOfExpr_of_ne hne] at h
    split at h
    · cases h
      exact List.suffix_refl _
    · cases h

lemma acceptBehindSeparator {kind : TokenKind} (hk : kind ≠ .eof) (hs : kind ≠ .separator) :
    Makes good (acceptBehindSeparator kind) (fun _ => True) := by
  refine of_suffix fun {ts a rest} h => ⟨trivial, ?_⟩
  rcases behind_cases hk hs ts with
    ⟨t, us, rfl, -, ha⟩ | ⟨t, u, us, rfl, -, -, ha⟩ | ⟨-, -, ha⟩
  · cases ha.symm.trans h
    exact List.suffix_cons _ _
  · cases ha.symm.trans h
    exact (List.suffix_cons _ _).trans (List.suffix_cons _ _)
  · cases ha.symm.trans h
    exact List.suffix_refl _

/-- A token starts something. -/
lemma starting {next : Token → Start → Parse α}
    (h : ∀ {t start}, good t → t.kind.start? = some start → Makes good (next t start) Q) :
    Makes good (starting next) Q := by
  intro ts a rest hts hp
  obtain ⟨t, us, start, rfl, -, hs, hn⟩ := starting_eq_ok hp
  exact h (hts t List.mem_cons_self) hs (fun u hu => hts u (List.mem_cons_of_mem t hu)) hn

lemma leave {expr : Level → Parse Expr} {P : Expr → Prop} {Q : Form → Prop}
    (hexpr : Makes good (expr 0) P) (hbare : Q .leave) (hvalue : ∀ e, P e → Q (.leaveWith e)) :
    Makes good (leave expr) Q := by
  intro ts form rest hts hp
  rw [leave_apply] at hp
  split at hp
  · cases hp
    exact ⟨hbare, hts⟩
  · exact (hexpr.map hvalue) hts hp

/-- The loop over continuations keeps what each of them keeps. -/
lemma links {expr : Level → Parse Expr} {n least count : Nat} {left : Expr} {Q : Expr → Prop}
    (hleft : Q left)
    (h : ∀ {left t link}, Q left → good t → t.kind.link? = some link →
      Makes good (continueWith expr n left t link) Q) :
    Makes good (links expr n least count left) Q := by
  induction count generalizing left with
  | zero => exact failing
  | succ count ih =>
      intro ts a rest hts hp
      rw [links_succ] at hp
      split at hp
      · cases hp
        exact ⟨hleft, hts⟩
      · rename_i link hl
        split at hp
        · obtain ⟨t, us, rfl, ht⟩ := exists_cons_of_link? hl
          rw [bind_apply, advance_cons ht] at hp
          have hstep := h hleft (hts t List.mem_cons_self) hl
          exact (hstep.bind fun joined hj => ih hj)
            (fun u hu => hts u (List.mem_cons_of_mem t hu)) hp
        · cases hp
          exact ⟨hleft, hts⟩

end Makes

end Parse

end Tern
