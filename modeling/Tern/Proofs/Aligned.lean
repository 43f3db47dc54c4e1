/-
Two runs of the parser side by side. The second list of tokens is the first one with its tokens
relabelled, up to an ending: where the first list ends, the second may go on behind a separator.

A successful run on the first list is also a run on the second one, if it stops before the
ending or if nothing goes on there. It never looks into what follows a quiet ending: what it takes
closes with a token behind which a separator counts, so it needs more than separators, and behind
a separator it only looks for the word of a further branch.

* `Alignment`: a relabelling and the endings it leads to; `Alignment.Match`: two lists that agree
  up to such an ending; `Alignment.Calm`: all endings are quiet;
* `Alignment.Reads`: what a parser takes, and that a second one follows it; there is one rule
  for each way of joining parsers;
* `Alignment.expression`: the expression parser follows itself, with at least the same budget.
-/
import Mathlib.Tactic
import Tern.Proofs.Primitives
import Tern.Proofs.Relabel

namespace Tern

/-- A separator counts behind a token that is an expression by itself. -/
lemma TokenKind.elides_of_start? {kind : TokenKind}
    (h : kind.start? = some .literal ∨ kind.start? = some .name ∨ kind.start? = some .leave) :
    kind.elides = false := by
  cases kind <;> first | rfl | simp [TokenKind.start?] at h

namespace Parse

/-! ### What is taken -/

/-- From a list to a rest of it, over no end token; the flags tell whether a separator in front
of the list, and of the rest, would mean nothing. -/
inductive Passes : Bool → List Token → Bool → List Token → Prop
  | refl {elide : Bool} {ts : List Token} : Passes elide ts elide ts
  | cons {elide later : Bool} {t : Token} {ts rest : List Token} (ht : t.kind ≠ .eof)
      (h : Passes t.kind.elides ts later rest) : Passes elide (t :: ts) later rest

namespace Passes

variable {elide mid later : Bool} {ts us rest : List Token}

lemma trans (h₁ : Passes elide ts mid us) (h₂ : Passes mid us later rest) :
    Passes elide ts later rest := by
  induction h₁ with
  | refl => exact h₂
  | cons ht _ ih => exact .cons ht (ih h₂)

lemma of_true (h : Passes true ts false rest) : Passes elide ts false rest := by
  cases h with
  | cons ht h => exact .cons ht h

/-- More than separators stands in front of what closes with a token behind which a separator
counts. -/
lemma not_atEnd (h : Passes true ts false rest) : ¬ AtEnd ts := by
  intro hend
  generalize he : true = elide at h
  generalize hl : false = later at h
  induction h with
  | refl => exact absurd (he.trans hl.symm) (by decide)
  | @cons elide later t ts rest ht h ih =>
      have hsep : t.kind = .separator := (hend.front_kind).resolve_left ht
      rw [hsep] at h ih
      exact ih ((atEnd_cons hsep).mp hend) rfl hl

/-- From the end one comes to the end only. -/
lemma atEnd (h : Passes elide ts later rest) (hend : AtEnd ts) : AtEnd rest := by
  induction h with
  | refl => exact hend
  | cons ht _ ih => exact ih ((atEnd_cons (hend.front_kind.resolve_left ht)).mp hend)

lemma length_le (h : Passes elide ts later rest) : rest.length ≤ ts.length := by
  induction h with
  | refl => exact le_refl _
  | cons _ _ ih => exact le_trans ih (Nat.le_succ _)

lemma length_lt (h : Passes true ts false rest) : rest.length < ts.length := by
  cases h with
  | cons _ h => exact Nat.lt_succ_of_le h.length_le

end Passes

/-! ### Two lists side by side -/

/-- Nothing goes on here: the end, a closing parenthesis, or a separator with no word of a further
branch behind it. -/
structure Quiet (ts : List Token) : Prop where
  first : (front ts).kind = .eof ∨ (front ts).kind = .separator ∨ (front ts).kind = .rightParen
  second : (front ts).kind = .separator →
    (front ts.tail).kind ≠ .elseWord ∧ (front ts.tail).kind ≠ .catchWord

/-- A relabelling, and the endings up to which it leads from one list to the other. -/
structure Alignment where
  relabel : Token → Token
  faithful : Token.Faithful relabel
  Ending : List Token → List Token → Prop
  atEnd : ∀ {ts us : List Token}, Ending ts us → AtEnd ts

namespace Alignment

variable {A : Alignment} {α β : Type}

/-- Nothing goes on at the endings. -/
def Calm (A : Alignment) : Prop := ∀ ⦃ts us : List Token⦄, A.Ending ts us → Quiet us

/-- The second list is the first one relabelled, up to an ending. -/
inductive Match (A : Alignment) : List Token → List Token → Prop
  | ending {ts us : List Token} (h : A.Ending ts us) : Match A ts us
  | cons {t : Token} {ts us : List Token} (ht : t.kind ≠ .eof) (h : Match A ts us) :
      Match A (t :: ts) (A.relabel t :: us)

/-- What a parser takes closes with a token behind which a separator counts, unless it takes
nothing; and a second parser follows it, to the end only if nothing goes on there. -/
structure Reads (A : Alignment) (elide : Bool) (p : Parse α) (q : Parse β) (φ : α → β) : Prop where
  passes : ∀ {ts a rest}, p ts = .ok (a, rest) → Passes elide ts false rest
  follows : ∀ {ts us a rest}, A.Match ts us → p ts = .ok (a, rest) → (AtEnd rest → A.Calm) →
    ∃ vs, q us = .ok (φ a, vs) ∧ A.Match rest vs

/-- What a parser takes has no end token, and a second parser follows it unless nothing but
separators is left. -/
structure Skims (A : Alignment) (p : Parse α) (q : Parse β) (φ : α → β) : Prop where
  passes : ∀ {ts a rest} (elide : Bool), p ts = .ok (a, rest) → ∃ later, Passes elide ts later rest
  follows : ∀ {ts us a rest}, A.Match ts us → p ts = .ok (a, rest) →
    AtEnd rest ∨ ∃ vs, q us = .ok (φ a, vs) ∧ A.Match rest vs

/-! ### Rules -/

section Rules

variable {elide : Bool} {γ δ : Type} {p : Parse α} {q : Parse β} {φ : α → β}
  {k : α → Parse γ} {l : β → Parse δ} {ψ : γ → δ}

lemma Reads.weaken (h : A.Reads true p q φ) : A.Reads elide p q φ :=
  ⟨fun hp => (h.passes hp).of_true, h.follows⟩

lemma Reads.skims (h : A.Reads false p q φ) : A.Skims p q φ := by
  constructor
  · intro ts a rest elide hp
    cases h.passes hp with
    | refl => exact ⟨elide, .refl⟩
    | cons ht hrest => exact ⟨false, .cons ht hrest⟩
  · intro ts us a rest hm hp
    by_cases hend : AtEnd rest
    · exact .inl hend
    · exact .inr (h.follows hm hp fun hr => absurd hr hend)

/-- One parser after another: the second may take nothing if the first one closes. -/
lemma Reads.bind (hp : A.Reads elide p q φ) (hk : ∀ a, A.Reads false (k a) (l (φ a)) ψ) :
    A.Reads elide (p >>= k) (q >>= l) ψ := by
  constructor
  · intro ts c rest h
    obtain ⟨a, mid, h₁, h₂⟩ := bind_eq_ok.mp h
    exact (hp.passes h₁).trans ((hk a).passes h₂)
  · intro ts us c rest hm h hc
    obtain ⟨a, mid, h₁, h₂⟩ := bind_eq_ok.mp h
    obtain ⟨vs, hq, hm'⟩ := hp.follows hm h₁ fun hend => hc (((hk a).passes h₂).atEnd hend)
    obtain ⟨ws, hl, hm''⟩ := (hk a).follows hm' h₂ hc
    exact ⟨ws, bind_eq_ok.mpr ⟨φ a, vs, hq, hl⟩, hm''⟩

/-- One parser after another: whatever the first one does, the second one closes, and it
needs more than separators. -/
lemma Skims.bind (hp : A.Skims p q φ) (hk : ∀ a, A.Reads true (k a) (l (φ a)) ψ) :
    A.Reads elide (p >>= k) (q >>= l) ψ := by
  constructor
  · intro ts c rest h
    obtain ⟨a, mid, h₁, h₂⟩ := bind_eq_ok.mp h
    obtain ⟨later, hpass⟩ := hp.passes elide h₁
    exact hpass.trans ((hk a).passes h₂).of_true
  · intro ts us c rest hm h hc
    obtain ⟨a, mid, h₁, h₂⟩ := bind_eq_ok.mp h
    rcases hp.follows hm h₁ with hend | ⟨vs, hq, hm'⟩
    · exact absurd hend ((hk a).passes h₂).not_atEnd
    · obtain ⟨ws, hl, hm''⟩ := (hk a).follows hm' h₂ hc
      exact ⟨ws, bind_eq_ok.mpr ⟨φ a, vs, hq, hl⟩, hm''⟩

lemma Reads.pure {a : α} {b : β} (h : b = φ a) : A.Reads false (pure a) (pure b) φ := by
  subst h
  constructor
  · intro ts c rest h
    cases h
    exact .refl
  · intro ts us c rest hm h _
    cases h
    exact ⟨us, rfl, hm⟩

lemma Reads.lifted {x : Except SourceError α} {y : Except SourceError β}
    (h : ∀ a, x = .ok a → y = .ok (φ a)) : A.Reads false (lift x) (lift y) φ := by
  cases x with
  | error e => exact ⟨nofun, nofun⟩
  | ok a =>
      rw [h a rfl]
      exact Reads.pure rfl

/-- A parser that always fails leaves nothing to follow. -/
lemma Reads.fails (h : ∀ ts, ∃ e, p ts = .error e) : A.Reads elide p q φ := by
  constructor
  · intro ts a rest hp
    obtain ⟨e, he⟩ := h ts
    cases he.symm.trans hp
  · intro ts us a rest _ hp _
    obtain ⟨e, he⟩ := h ts
    cases he.symm.trans hp

lemma Reads.failing {fault : ParseFault} : A.Reads elide (fail fault) q φ :=
  Reads.fails fun ts => ⟨_, fail_apply fault ts⟩

/-- The result of a parser, turned into another one. -/
lemma Reads.map {g : α → γ} {g' : β → δ} (hp : A.Reads elide p q φ)
    (hg : ∀ a, g' (φ a) = ψ (g a)) :
    A.Reads elide (p >>= fun a => Pure.pure (g a)) (q >>= fun b => Pure.pure (g' b)) ψ :=
  hp.bind fun a => Reads.pure (hg a)

lemma skims_skipSeparators : A.Skims skipSeparators skipSeparators id := by
  constructor
  · intro ts a rest elide h
    cases h
    induction ts generalizing elide with
    | nil => exact ⟨elide, .refl⟩
    | cons t ts ih =>
        rw [List.dropWhile_cons]
        split
        · rename_i ht
          obtain ⟨later, h⟩ := ih t.kind.elides
          exact ⟨later, .cons (by simp_all) h⟩
        · exact ⟨elide, .refl⟩
  · intro ts us a rest hm h
    cases h
    induction hm with
    | ending h => exact .inl (A.atEnd h).dropWhile
    | @cons t ts us ht hm ih =>
        rw [skipSeparators_apply, List.dropWhile_cons, List.dropWhile_cons, A.faithful.kind]
        split
        · exact ih
        · exact .inr ⟨_, rfl, .cons ht hm⟩

lemma skims_endOfExpr (close : TokenKind) : A.Skims (endOfExpr close) (endOfExpr close) id := by
  constructor
  · intro ts a rest elide h
    rcases accept_cases (by decide : TokenKind.separator ≠ .eof) ts with
      ⟨t, us, rfl, ht, ha⟩ | ⟨hne, ha⟩
    · rw [endOfExpr_of_separator ht] at h
      cases h
      exact ⟨_, .cons (by simp [ht]) .refl⟩
    · rw [endOfExpr_of_ne hne] at h
      split at h
      · cases h
        exact ⟨elide, .refl⟩
      · cases h
  · intro ts us a rest hm h
    cases hm with
    | ending hend =>
        -- A separator may go; nothing else stands before the end in any case.
        refine .inl ?_
        have hend := A.atEnd hend
        rcases accept_cases (by decide : TokenKind.separator ≠ .eof) ts with
          ⟨t, ts, rfl, ht, -⟩ | ⟨hne, -⟩
        · rw [endOfExpr_of_separator ht] at h
          cases h
          exact (atEnd_cons ht).mp hend
        · rw [endOfExpr_of_ne hne, if_pos (.inr (hend.front_kind.resolve_right hne))] at h
          cases h
          exact hend
    | @cons t ts us ht hm =>
        refine .inr ?_
        have hk := A.faithful.kind t
        by_cases hsep : t.kind = .separator
        · rw [endOfExpr_of_separator hsep] at h
          cases h
          exact ⟨us, endOfExpr_of_separator (hk.trans hsep) us, hm⟩
        · rw [endOfExpr_of_ne (by exact hsep)] at h
          split at h
          · rename_i hclose
            cases h
            refine ⟨A.relabel t :: us, ?_, .cons ht hm⟩
            rw [front_cons, ← hk] at hclose
            rw [← hk] at hsep
            rw [endOfExpr_of_ne (by exact hsep), front_cons, if_pos hclose]
          · cases h

/-! ### Tokens that decide -/

/-- A token that is missing in front of the first list is missing in front of the second one; a
closing parenthesis may stand there at an ending. -/
lemma Match.front_ne {ts us : List Token} {kind : TokenKind} (hm : A.Match ts us)
    (heof : kind ≠ .eof) (hsep : kind ≠ .separator) (hparen : kind = .rightParen → ¬ AtEnd ts)
    (hc : AtEnd ts → A.Calm) (h : (front ts).kind ≠ kind) : (front us).kind ≠ kind := by
  cases hm with
  | ending hend =>
      have hts := A.atEnd hend
      rcases (hc hts hend).first with hk | hk | hk <;> rw [hk]
      · exact heof.symm
      · exact hsep.symm
      · exact fun hkind => hparen hkind.symm hts
  | cons ht hm => rwa [front_cons, A.faithful.kind]

lemma Match.of_cons {ts us : List Token} {t : Token} (hm : A.Match (t :: ts) us)
    (heof : t.kind ≠ .eof) (hsep : t.kind ≠ .separator) :
    ∃ vs, us = A.relabel t :: vs ∧ A.Match ts vs := by
  cases hm with
  | ending hend =>
      rcases (A.atEnd hend).front_kind with hk | hk
      · exact absurd hk heof
      · exact absurd hk hsep
  | cons _ hm => exact ⟨_, rfl, hm⟩

/-- A token decides between two parsers. Without a closing parenthesis, there has to be more than
separators. -/
lemma Reads.ifAccept {kind : TokenKind} {p' : Parse α} {q' : Parse β} (heof : kind ≠ .eof)
    (hsep : kind ≠ .separator) (hparen : kind = .rightParen → elide = true)
    (hyes : A.Reads kind.elides p q φ) (hno : A.Reads elide p' q' φ) :
    A.Reads elide (accept kind >>= fun b => if b = true then p else p')
      (accept kind >>= fun b => if b = true then q else q') φ := by
  constructor
  · intro ts a rest h
    rw [bind_apply] at h
    rcases accept_cases heof ts with ⟨t, us, rfl, ht, ha⟩ | ⟨hne, ha⟩
    · rw [ha] at h
      refine .cons (ht ▸ heof) ?_
      rw [ht]
      exact hyes.passes h
    · rw [ha] at h
      exact hno.passes h
  · intro ts us a rest hm h hc
    rw [bind_apply] at h
    rcases accept_cases heof ts with ⟨t, ts, rfl, ht, ha⟩ | ⟨hne, ha⟩
    · rw [ha] at h
      obtain ⟨vs, rfl, hm'⟩ := hm.of_cons (ht ▸ heof) (ht ▸ hsep)
      obtain ⟨ws, hq, hm''⟩ := hyes.follows hm' h hc
      refine ⟨ws, ?_, hm''⟩
      rw [bind_apply, accept_cons heof (by rw [A.faithful.kind, ht])]
      exact hq
    · rw [ha] at h
      have hpass : Passes elide ts false rest := hno.passes h
      have hopen : kind = .rightParen → ¬ AtEnd ts := fun hk => (hparen hk ▸ hpass).not_atEnd
      obtain ⟨ws, hq, hm''⟩ := hno.follows hm h hc
      refine ⟨ws, ?_, hm''⟩
      rw [bind_apply,
        accept_of_ne (hm.front_ne heof hsep hopen (fun hend => hc (hpass.atEnd hend)) hne)]
      exact hq

/-- A token that must be there. -/
lemma Reads.expecting {kind : TokenKind} {fault : ParseFault} {k : Token → Parse γ}
    {l : Token → Parse δ} (heof : kind ≠ .eof) (hsep : kind ≠ .separator)
    (hk : ∀ t, A.Reads kind.elides (k t) (l (A.relabel t)) ψ) :
    A.Reads elide (expect kind fault >>= k) (expect kind fault >>= l) ψ := by
  constructor
  · intro ts a rest h
    rw [bind_apply] at h
    rcases accept_cases heof ts with ⟨t, us, rfl, ht, -⟩ | ⟨hne, -⟩
    · rw [expect_cons heof ht] at h
      refine .cons (ht ▸ heof) ?_
      rw [ht]
      exact (hk t).passes h
    · rw [expect_of_ne hne] at h
      cases h
  · intro ts us a rest hm h hc
    rw [bind_apply] at h
    rcases accept_cases heof ts with ⟨t, ts, rfl, ht, -⟩ | ⟨hne, -⟩
    · rw [expect_cons heof ht] at h
      obtain ⟨vs, rfl, hm'⟩ := hm.of_cons (ht ▸ heof) (ht ▸ hsep)
      obtain ⟨ws, hq, hm''⟩ := (hk t).follows hm' h hc
      refine ⟨ws, ?_, hm''⟩
      rw [bind_apply, expect_cons heof (by rw [A.faithful.kind, ht])]
      exact hq
    · rw [expect_of_ne hne] at h
      cases h

/-- The end is refused, which something that closes would do as well. -/
lemma Reads.unlessEof {fault : ParseFault} (hp : A.Reads true p q φ) :
    A.Reads true (check .eof >>= fun b => if b = true then fail fault else p)
      (check .eof >>= fun b => if b = true then fail fault else q) φ := by
  have hinv : ∀ {ts a rest}, (check .eof >>= fun b => if b = true then fail fault else p) ts =
      .ok (a, rest) → p ts = .ok (a, rest) := by
    intro ts a rest h
    rw [bind_apply, check_apply] at h
    by_cases he : (front ts).kind = .eof
    · simp [he] at h
    · simpa [he] using h
  refine ⟨fun h => hp.passes (hinv h), fun hm h hc => ?_⟩
  obtain ⟨vs, hq, hm'⟩ := hp.follows hm (hinv h) hc
  refine ⟨vs, ?_, hm'⟩
  cases hm with
  | ending hend => exact absurd (A.atEnd hend) (hp.passes (hinv h)).not_atEnd
  | cons ht hm => simpa [bind_apply, A.faithful.kind, ht] using hq

/-- A token starts something. -/
lemma Reads.starting {next next' : Token → Start → Parse α} {φ : α → α}
    (h : ∀ {t start}, t.kind.start? = some start →
      A.Reads t.kind.elides (next t start) (next' (A.relabel t) start) φ) :
    A.Reads true (starting next) (starting next') φ := by
  constructor
  · intro ts a rest hp
    obtain ⟨t, us, start, rfl, ht, hs, hn⟩ := starting_eq_ok hp
    exact .cons ht ((h hs).passes hn)
  · intro ts us a rest hm hp hc
    obtain ⟨t, ts, start, rfl, ht, hs, hn⟩ := starting_eq_ok hp
    have hsep : t.kind ≠ .separator := by
      intro hk
      rw [hk] at hs
      cases hs
    obtain ⟨vs, rfl, hm'⟩ := hm.of_cons ht hsep
    rw [starting_cons (by rwa [A.faithful.kind])]
    exact (h hs).follows hm' hn hc

/-- A word, perhaps behind a separator, decides between two parsers. -/
lemma Reads.ifBehindSeparator {kind : TokenKind} {p' : Parse α} {q' : Parse β}
    (hkind : kind = .elseWord ∨ kind = .catchWord) (hyes : A.Reads false p q φ)
    (hno : A.Reads elide p' q' φ) :
    A.Reads elide (acceptBehindSeparator kind >>= fun b => if b = true then p else p')
      (acceptBehindSeparator kind >>= fun b => if b = true then q else q') φ := by
  have heof : kind ≠ .eof := by rcases hkind with rfl | rfl <;> decide
  have hsep : kind ≠ .separator := by rcases hkind with rfl | rfl <;> decide
  have hparen : ∀ ts : List Token, kind = .rightParen → ¬ AtEnd ts := by
    rcases hkind with rfl | rfl <;> exact fun _ => nofun
  have helides : kind.elides = false := by rcases hkind with rfl | rfl <;> rfl
  constructor
  · intro ts a rest h
    rw [bind_apply] at h
    rcases behind_cases heof hsep ts with
      ⟨t, ts, rfl, ht, ha⟩ | ⟨t, u, ts, rfl, ht, hu, ha⟩ | ⟨-, -, ha⟩
    · rw [ha] at h
      refine .cons (ht ▸ heof) ?_
      rw [ht, helides]
      exact hyes.passes h
    · rw [ha] at h
      refine .cons (by simp [ht]) (.cons (hu ▸ heof) ?_)
      rw [hu, helides]
      exact hyes.passes h
    · rw [ha] at h
      exact hno.passes h
  · intro ts us a rest hm h hc
    rw [bind_apply] at h ⊢
    rcases behind_cases heof hsep ts with
      ⟨t, ts, rfl, ht, ha⟩ | ⟨t, u, ts, rfl, ht, hu, ha⟩ | ⟨hne, hsnd, ha⟩
    · rw [ha] at h
      obtain ⟨vs, rfl, hm'⟩ := hm.of_cons (ht ▸ heof) (ht ▸ hsep)
      rw [behind_of_front heof (by rw [A.faithful.kind, ht])]
      exact hyes.follows hm' h hc
    · rw [ha] at h
      cases hm with
      | ending hend =>
          have hrest : AtEnd (u :: ts) := (atEnd_cons ht).mp (A.atEnd hend)
          rcases hrest.front_kind with hk | hk
          · exact absurd (hu.symm.trans hk) heof
          · exact absurd (hu.symm.trans hk) hsep
      | cons _ hm =>
          obtain ⟨vs, rfl, hm'⟩ := hm.of_cons (hu ▸ heof) (hu ▸ hsep)
          rw [behind_of_second heof hsep (by rw [A.faithful.kind, ht])
            (by rw [A.faithful.kind, hu])]
          exact hyes.follows hm' h hc
    · rw [ha] at h
      have hcalm : AtEnd ts → A.Calm := fun hend => hc ((hno.passes h).atEnd hend)
      have hne' := hm.front_ne heof hsep (hparen ts) hcalm hne
      have hsnd' : (front us).kind = .separator → (front us.tail).kind ≠ kind := by
        intro hs
        cases hm with
        | ending hend =>
            have hq := (hcalm (A.atEnd hend) hend).second hs
            rcases hkind with rfl | rfl
            · exact hq.1
            · exact hq.2
        | @cons t ts us ht hm =>
            rw [front_cons, A.faithful.kind] at hs
            exact hm.front_ne heof hsep (hparen ts)
              (fun hend => hcalm ((atEnd_cons hs).mpr hend)) (hsnd hs)
      rw [behind_of_ne heof hne' hsnd']
      exact hno.follows hm h hc

end Rules

/-! ### Lists of expressions -/

section Lists

variable {expr expr' : Level → Parse Expr} {n m : Nat} {elide : Bool}

/-- The trees of the second run are those of the first, relabelled. -/
abbrev Nested (A : Alignment) (expr expr' : Level → Parse Expr) : Prop :=
  ∀ least, A.Reads true (expr least) (expr' least) (·.mapTokens A.relabel)

lemma reads_sequence (he : A.Nested expr expr') (hn : n ≤ m) :
    A.Reads true (sequence expr n) (sequence expr' m) (List.map (·.mapTokens A.relabel)) := by
  induction n generalizing m with
  | zero => exact Reads.failing
  | succ n ih =>
      obtain ⟨m, rfl⟩ : ∃ k, m = k + 1 := ⟨m - 1, by omega⟩
      unfold sequence
      refine skims_skipSeparators.bind fun _ => ?_
      refine Reads.ifAccept (by decide) (by decide) (by decide) (Reads.pure rfl) ?_
      refine Reads.unlessEof ?_
      refine (he 0).bind fun first => Reads.weaken ?_
      refine (skims_endOfExpr .rightBrace).bind fun _ => ?_
      exact (ih (by omega)).map fun rest => rfl

lemma reads_commaList {close : TokenKind} {item : ListItem} (he : A.Nested expr expr')
    (hc : close = .rightParen ∨ close = .rightBracket) (hn : n ≤ m) :
    A.Reads true (commaList expr close item n) (commaList expr' close item m)
      (List.map (·.mapTokens A.relabel)) := by
  induction n generalizing m with
  | zero => exact Reads.failing
  | succ n ih =>
      obtain ⟨m, rfl⟩ : ∃ k, m = k + 1 := ⟨m - 1, by omega⟩
      unfold commaList
      refine (he 0).bind fun first => Reads.weaken ?_
      refine skims_skipSeparators.bind fun _ => ?_
      refine Reads.ifAccept (by decide) (by decide) (by decide) ?_ ?_
      · exact (ih (by omega)).map fun rest => rfl
      · rcases hc with rfl | rfl
        all_goals exact Reads.expecting (by decide) (by decide) fun t => Reads.pure rfl

lemma reads_delimited {close : TokenKind} {item : ListItem} (he : A.Nested expr expr')
    (hc : close = .rightParen ∨ close = .rightBracket) (hn : n ≤ m) :
    A.Reads true (delimited expr n close item) (delimited expr' m close item)
      (List.map (·.mapTokens A.relabel)) := by
  unfold delimited
  refine skims_skipSeparators.bind fun _ => ?_
  have hlist : A.Reads true (commaList expr close item n) (commaList expr' close item m) _ :=
    reads_commaList he hc hn
  rcases hc with rfl | rfl
  all_goals exact Reads.ifAccept (by decide) (by decide) (by decide) (Reads.pure rfl) hlist

lemma reads_clauseList (he : A.Nested expr expr') (hn : n ≤ m) :
    A.Reads true (clauseList expr n) (clauseList expr' m) (mapPairs A.relabel) := by
  induction n generalizing m with
  | zero => exact Reads.failing
  | succ n ih =>
      obtain ⟨m, rfl⟩ : ∃ k, m = k + 1 := ⟨m - 1, by omega⟩
      unfold clauseList
      refine skims_skipSeparators.bind fun _ => ?_
      refine Reads.ifAccept (by decide) (by decide) (by decide) (Reads.pure rfl) ?_
      refine (he Level.assignment).bind fun pattern => ?_
      refine Reads.expecting (by decide) (by decide) fun _ => ?_
      refine (he 0).bind fun body => Reads.weaken ?_
      refine (skims_endOfExpr .rightBrace).bind fun _ => ?_
      exact (ih (by omega)).map fun rest => rfl

lemma reads_clauses {owner : ClauseOwner} (he : A.Nested expr expr') (hn : n ≤ m) :
    A.Reads true (clauses expr n owner) (clauses expr' m owner) (mapPairs A.relabel) := by
  unfold clauses
  refine skims_skipSeparators.bind fun _ => ?_
  exact Reads.expecting (by decide) (by decide) fun _ => (reads_clauseList he hn).weaken

lemma reads_dottedNames (hn : n ≤ m) :
    A.Reads false (dottedNames n) (dottedNames m) id := by
  induction n generalizing m with
  | zero => exact Reads.failing
  | succ n ih =>
      obtain ⟨m, rfl⟩ : ∃ k, m = k + 1 := ⟨m - 1, by omega⟩
      unfold dottedNames
      refine Reads.ifAccept (by decide) (by decide) (by decide) ?_ (Reads.pure rfl)
      refine Reads.expecting (by decide) (by decide) fun name => ?_
      refine (ih (by omega)).map fun rest => ?_
      rw [A.faithful.lexeme]
      rfl

/-! ### What a token starts -/

lemma reads_constant (token : Token) :
    A.Reads false (constant token) (constant (A.relabel token)) id := by
  have hk := A.faithful.kind token
  have hl := A.faithful.literal token
  unfold constant
  rw [hk, hl]
  split
  · exact Reads.pure rfl
  · exact Reads.pure rfl
  · exact Reads.pure rfl
  · exact Reads.pure rfl
  · exact Reads.pure rfl
  · exact Reads.fails fun ts => ⟨_, failAt_apply _ _ ts⟩

lemma reads_group (he : A.Nested expr expr') (hn : n ≤ m) :
    A.Reads true (group expr n) (group expr' m) (·.mapTokens A.relabel) := by
  unfold group
  refine skims_skipSeparators.bind fun _ => ?_
  refine Reads.ifAccept (by decide) (by decide) (by decide) (Reads.pure rfl) ?_
  refine (he 0).bind fun first => Reads.weaken ?_
  refine skims_skipSeparators.bind fun _ => ?_
  refine Reads.ifAccept (by decide) (by decide) (by decide) ?_ ?_
  · refine (reads_delimited he (.inl rfl) hn).map fun rest => ?_
    simp [Form.mapTokens]
  · exact Reads.expecting (by decide) (by decide) fun _ => Reads.pure rfl

lemma reads_collection (he : A.Nested expr expr') (hn : n ≤ m) :
    A.Reads true (collection expr n) (collection expr' m) (·.mapTokens A.relabel) := by
  unfold collection
  refine skims_skipSeparators.bind fun _ => ?_
  refine Reads.ifAccept (by decide) (by decide) (by decide) ?_ ?_
  · exact Reads.expecting (by decide) (by decide) fun _ => Reads.pure rfl
  · refine (reads_delimited he (.inr rfl) hn).bind fun items => ?_
    exact Reads.lifted fun form h => collectionOf_mapTokens h

lemma reads_branch (he : A.Nested expr expr') :
    A.Reads true (branch expr) (branch expr') (·.mapTokens A.relabel) := by
  unfold branch
  refine (he 0).bind fun condition => ?_
  refine (he 0).weaken.bind fun yes => ?_
  refine Reads.ifBehindSeparator (.inl rfl) ?_ (Reads.pure rfl)
  exact (he 0).weaken.map fun no => rfl

lemma reads_forLoop (he : A.Nested expr expr') :
    A.Reads true (forLoop expr) (forLoop expr') (·.mapTokens A.relabel) := by
  unfold forLoop
  refine (he 0).bind fun pattern => ?_
  refine Reads.expecting (by decide) (by decide) fun _ => ?_
  refine (he 0).weaken.bind fun iterable => ?_
  exact (he 0).weaken.map fun body => rfl

lemma reads_attempt (he : A.Nested expr expr') (hn : n ≤ m) :
    A.Reads true (attempt expr n) (attempt expr' m) (·.mapTokens A.relabel) := by
  unfold attempt
  refine (he 0).bind fun body => ?_
  refine Reads.ifBehindSeparator (.inr rfl) ?_ Reads.failing
  exact (reads_clauses he hn).weaken.map fun handlers => rfl

lemma reads_leave (he : A.Nested expr expr') :
    A.Reads false (leave expr) (leave expr') (·.mapTokens A.relabel) := by
  have hvalue : A.Reads false (expr 0 >>= fun e => pure (Form.leaveWith e))
      (expr' 0 >>= fun e => pure (Form.leaveWith e)) (·.mapTokens A.relabel) :=
    (he 0).weaken.map fun e => rfl
  constructor
  · intro ts a rest h
    rw [leave_apply] at h
    split at h
    · cases h
      exact .refl
    · exact hvalue.passes h
  · intro ts us a rest hm h hc
    rw [leave_apply] at h ⊢
    cases hm with
    | ending hend =>
        have hts : (front ts).kind ∈ bare := by
          rcases (A.atEnd hend).front_kind with hk | hk <;> rw [hk] <;> decide
        rw [if_pos hts] at h
        cases h
        have hus : (front us).kind ∈ bare := by
          rcases (hc (A.atEnd hend) hend).first with hk | hk | hk <;> rw [hk] <;> decide
        exact ⟨us, if_pos hus, .ending hend⟩
    | @cons t ts us ht hm =>
        rw [front_cons, A.faithful.kind]
        split at h
        · rename_i hb
          cases h
          exact ⟨_, if_pos hb, .cons ht hm⟩
        · rename_i hb
          rw [front_cons] at hb
          rw [if_neg hb]
          exact hvalue.follows (.cons ht hm) h hc

lemma reads_classDef (he : A.Nested expr expr') (hn : n ≤ m) :
    A.Reads true (classDef expr n) (classDef expr' m) (·.mapTokens A.relabel) := by
  unfold classDef
  refine Reads.expecting (by decide) (by decide) fun name => ?_
  have hbody : ∀ parent : Option String, A.Reads true
      (skipSeparators >>= fun _ => expect .leftBrace .expectedClassBody >>= fun _ =>
        sequence expr n >>= fun body => lift (membersOf body) >>= fun members =>
          pure (Form.classDef name.lexeme parent members))
      (skipSeparators >>= fun _ => expect .leftBrace .expectedClassBody >>= fun _ =>
        sequence expr' m >>= fun body => lift (membersOf body) >>= fun members =>
          pure (Form.classDef (A.relabel name).lexeme parent members))
      (·.mapTokens A.relabel) := by
    intro parent
    refine skims_skipSeparators.bind fun _ => ?_
    refine Reads.expecting (by decide) (by decide) fun _ => ?_
    refine (reads_sequence he hn).weaken.bind fun body => ?_
    refine (Reads.lifted fun members h => membersOf_mapTokens h).map fun members => ?_
    rw [A.faithful.lexeme]
    rfl
  simp only [pure_bind]
  refine Reads.ifAccept (by decide) (by decide) (by decide) ?_ (hbody none).weaken
  refine Reads.expecting (by decide) (by decide) fun parent => ?_
  rw [A.faithful.lexeme parent]
  exact (hbody _).weaken

lemma reads_importing (hn : n ≤ m) :
    A.Reads true (importing n) (importing m) (·.mapTokens A.relabel) := by
  unfold importing
  refine Reads.expecting (by decide) (by decide) fun first => ?_
  refine (reads_dottedNames hn).map fun rest => ?_
  rw [A.faithful.lexeme]
  rfl

lemma reads_startWith {token : Token} {start : Start} (he : A.Nested expr expr') (hn : n ≤ m)
    (hs : token.kind.start? = some start) :
    A.Reads token.kind.elides (startWith expr n token start)
      (startWith expr' m (A.relabel token) start) (·.mapTokens A.relabel) := by
  cases start with
  | literal =>
      rw [TokenKind.elides_of_start? (.inl hs)]
      refine (reads_constant token).map fun c => rfl
  | name =>
      rw [TokenKind.elides_of_start? (.inr (.inl hs))]
      refine Reads.pure ?_
      rw [A.faithful.lexeme]
      rfl
  | group => exact (reads_group he hn).weaken.map fun form => rfl
  | collection => exact (reads_collection he hn).weaken.map fun form => rfl
  | block =>
      refine (reads_sequence he hn).weaken.map fun es => ?_
      simp [Form.mapTokens]
  | unary op => exact (he Level.leading).weaken.map fun e => rfl
  | annotated =>
      refine (he Level.leading).weaken.map fun e => ?_
      rw [A.faithful.lexeme, Expr.mapTokens_annotate]
  | branch => exact (reads_branch he).weaken.map fun form => rfl
  | whileLoop =>
      unfold startWith
      refine (he 0).weaken.bind fun condition => ?_
      exact (he 0).weaken.map fun body => rfl
  | forLoop => exact (reads_forLoop he).weaken.map fun form => rfl
  | attempt => exact (reads_attempt he hn).weaken.map fun form => rfl
  | raise => exact (he 0).weaken.map fun e => rfl
  | leave =>
      rw [TokenKind.elides_of_start? (.inr (.inr hs))]
      exact (reads_leave he).map fun form => rfl
  | classDef => exact (reads_classDef he hn).weaken.map fun form => rfl
  | importing => exact (reads_importing hn).weaken.map fun form => rfl

/-! ### What a token continues -/

lemma reads_continueWith {left : Expr} {token : Token} {link : Link} (he : A.Nested expr expr')
    (hn : n ≤ m) (hl : token.kind.link? = some link) :
    A.Reads token.kind.elides (continueWith expr n left token link)
      (continueWith expr' m (left.mapTokens A.relabel) (A.relabel token) link)
      (·.mapTokens A.relabel) := by
  cases link with
  | assign op =>
      cases op with
      | none =>
          refine (he _).weaken.bind fun value => ?_
          exact Reads.lifted fun e h => assignment_mapTokens h
      | some op =>
          refine (he _).weaken.bind fun value => ?_
          exact Reads.lifted fun e h => compoundAssignment_mapTokens h
  | lambda =>
      unfold continueWith
      have hparams : A.Reads false (lift (lambdaParams left))
          (lift (lambdaParams (left.mapTokens A.relabel))) id :=
        Reads.lifted fun params h => lambdaParams_mapTokens h
      exact hparams.skims.bind fun params => (he _).map fun body => rfl
  | pair => exact (he _).weaken.map fun e => rfl
  | logical op => exact (he _).weaken.map fun e => rfl
  | matching =>
      refine (reads_clauses he hn).weaken.bind fun arms => ?_
      cases hd : duplicate? [] arms with
      | some pattern => exact Reads.fails fun ts => ⟨_, failAt_apply _ _ ts⟩
      | none =>
          rw [duplicate?_mapTokens hd]
          exact Reads.pure rfl
  | binary op => exact (he _).weaken.map fun e => rfl
  | call =>
      refine (reads_delimited he (.inl rfl) hn).weaken.map fun arguments => ?_
      simp [Form.mapTokens]
  | index =>
      refine (he 0).weaken.bind fun index => Reads.weaken ?_
      refine skims_skipSeparators.bind fun _ => ?_
      exact Reads.expecting (by decide) (by decide) fun _ => Reads.pure rfl
  | member safe =>
      refine Reads.expecting (by decide) (by decide) fun name => Reads.pure ?_
      rw [A.faithful.lexeme]
      rfl
  | spread =>
      have helides : token.kind.elides = false := by
        cases hk : token.kind <;> first | rfl | simp [hk, TokenKind.link?] at hl
      rw [helides]
      exact Reads.pure rfl

lemma reads_links {least count more : Nat} {left : Expr} (he : A.Nested expr expr') (hn : n ≤ m)
    (hc : count ≤ more) :
    A.Reads false (links expr n least count left)
      (links expr' m least more (left.mapTokens A.relabel)) (·.mapTokens A.relabel) := by
  induction count generalizing more left with
  | zero => exact Reads.failing
  | succ count ih =>
      obtain ⟨more, rfl⟩ : ∃ k, more = k + 1 := ⟨more - 1, by omega⟩
      have hstep : ∀ {t : Token} {link : Link}, t.kind.link? = some link →
          A.Reads t.kind.elides (continueWith expr n left t link >>= links expr n least count)
            (continueWith expr' m (left.mapTokens A.relabel) (A.relabel t) link >>=
              links expr' m least more) (·.mapTokens A.relabel) :=
        fun hl => (reads_continueWith he hn hl).bind fun joined => ih (by omega)
      constructor
      · intro ts a rest h
        rw [links_succ] at h
        split at h
        · cases h
          exact .refl
        · rename_i link hl
          split at h
          · obtain ⟨t, ts, rfl, ht⟩ := exists_cons_of_link? hl
            rw [bind_apply, advance_cons ht] at h
            exact .cons ht ((hstep hl).passes h)
          · cases h
            exact .refl
      · intro ts us a rest hm h hc
        rw [links_succ] at h ⊢
        cases hm with
        | ending hend =>
            have hts : (front ts).kind.link? = none := by
              rcases (A.atEnd hend).front_kind with hk | hk <;> rw [hk] <;> rfl
            rw [hts] at h
            cases h
            have hus : (front us).kind.link? = none := by
              rcases (hc (A.atEnd hend) hend).first with hk | hk | hk <;> rw [hk] <;> rfl
            rw [hus]
            exact ⟨us, rfl, .ending hend⟩
        | @cons t ts us ht hm =>
            rw [front_cons, A.faithful.kind]
            rw [front_cons] at h
            cases hl : t.kind.link? with
            | none =>
                rw [hl] at h
                cases h
                exact ⟨_, rfl, .cons ht hm⟩
            | some link =>
                rw [hl] at h
                dsimp only at h ⊢
                split at h
                · rename_i hlevel
                  rw [if_pos hlevel, bind_apply, advance_cons (by rwa [A.faithful.kind])]
                  rw [bind_apply, advance_cons ht] at h
                  exact (hstep hl).follows hm h hc
                · rename_i hlevel
                  rw [if_neg hlevel]
                  cases h
                  exact ⟨_, rfl, .cons ht hm⟩

end Lists

/-- **The parser follows itself** on a list that agrees up to an ending, with at least the same
budget: as far as it stops before the ending, and to the end if nothing goes on there. -/
theorem reads_expression {n m : Nat} (hn : n ≤ m) :
    A.Nested (expression n) (expression m) := by
  induction n generalizing m with
  | zero => exact fun _ => Reads.failing
  | succ n ih =>
      obtain ⟨m, rfl⟩ : ∃ k, m = k + 1 := ⟨m - 1, by omega⟩
      intro least
      have he : A.Nested (expression n) (expression m) := ih (by omega)
      refine skims_skipSeparators.bind fun _ => Reads.starting fun hs => ?_
      exact (reads_startWith he (by omega) hs).bind fun left =>
        reads_links he (by omega) (by omega)

end Alignment

end Parse

end Tern
