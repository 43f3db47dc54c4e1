/-
What the parser's primitives do to a list of tokens: which token they look at, when they take it
and what is left. The statements about whole parsers rest on these and not on the definitions.

* `front`: the token that is looked at, an end token if there is none;
* `AtEnd`: nothing but separators stands before the end;
* `bind_eq_ok`: a parser in two steps succeeds by an intermediate list;
* `links_succ`, `expression_succ`: one round of the loop over continuations, and an expression
  as what its first token starts, continued.
-/
import Mathlib.Data.List.DropRight
import Mathlib.Tactic
import Tern.Expr.Parser

namespace Tern

namespace Parse

/-! ### Tokens at the front -/

/-- What a list of tokens starts with: an end token if it is empty. -/
def front (ts : List Token) : Token := ts.headD (Token.endOf "<input>" 1)

@[simp]
lemma front_nil : (front []).kind = .eof := rfl

@[simp]
lemma front_cons (t : Token) (ts : List Token) : front (t :: ts) = t := rfl

/-- Nothing but separators stands before the end. -/
def AtEnd (ts : List Token) : Prop :=
  (front (ts.dropWhile (·.kind = .separator))).kind = .eof

lemma atEnd_cons {t : Token} {ts : List Token} (ht : t.kind = .separator) :
    AtEnd (t :: ts) ↔ AtEnd ts := by
  simp [AtEnd, ht]

lemma AtEnd.dropWhile {ts : List Token} (h : AtEnd ts) :
    AtEnd (ts.dropWhile (·.kind = .separator)) := by
  rwa [AtEnd, List.dropWhile_idempotent]

lemma AtEnd.front_kind {ts : List Token} (h : AtEnd ts) :
    (front ts).kind = .eof ∨ (front ts).kind = .separator := by
  cases ts with
  | nil => exact .inl rfl
  | cons t ts =>
      by_cases ht : t.kind = .separator
      · exact .inr ht
      · refine .inl ?_
        simpa [AtEnd, List.dropWhile_cons, ht] using h

/-! ### What the primitives do to a list -/

section Primitives

variable {α β : Type} {ts : List Token}

lemma bind_apply (p : Parse α) (k : α → Parse β) (ts : List Token) :
    (p >>= k) ts = match p ts with
      | .ok (a, rest) => k a rest
      | .error e => .error e := by
  simp only [bind, StateT.bind, Except.bind]
  cases p ts <;> rfl

lemma bind_eq_ok {p : Parse α} {k : α → Parse β} {r : β × List Token} :
    (p >>= k) ts = .ok r ↔ ∃ a rest, p ts = .ok (a, rest) ∧ k a rest = .ok r := by
  rw [bind_apply]
  constructor
  · intro h
    cases hp : p ts with
    | error e =>
        rw [hp] at h
        cases h
    | ok out =>
        rw [hp] at h
        exact ⟨out.1, out.2, rfl, h⟩
  · rintro ⟨a, rest, hp, hk⟩
    rw [hp]
    exact hk

lemma bind_of_ok {p : Parse α} {a : α} {rest : List Token} (h : p ts = .ok (a, rest))
    (k : α → Parse β) : (p >>= k) ts = k a rest := by
  rw [bind_apply, h]

@[simp]
lemma pure_apply (a : α) (ts : List Token) : (pure a : Parse α) ts = .ok (a, ts) := rfl

@[simp]
lemma fail_apply (fault : ParseFault) (ts : List Token) :
    (fail fault : Parse α) ts = .error (.parse (front ts) fault) := rfl

@[simp]
lemma failAt_apply (t : Token) (fault : ParseFault) (ts : List Token) :
    (failAt t fault : Parse α) ts = .error (.parse t fault) := rfl

@[simp]
lemma peek_apply (ts : List Token) : peek ts = .ok (front ts, ts) := rfl

@[simp]
lemma check_apply (kind : TokenKind) (ts : List Token) :
    check kind ts = .ok (decide ((front ts).kind = kind), ts) := rfl

@[simp]
lemma skipSeparators_apply (ts : List Token) :
    skipSeparators ts = .ok ((), ts.dropWhile (·.kind = .separator)) := rfl

lemma skipSeparators_cons {t : Token} (h : t.kind ≠ .separator) :
    skipSeparators (t :: ts) = .ok ((), t :: ts) := by
  simp [h]

lemma advance_cons {t : Token} (ht : t.kind ≠ .eof) (ts : List Token) :
    advance (t :: ts) = .ok (t, ts) := by
  simp [advance, bind_apply, ht]
  rfl

lemma advance_of_eof (h : (front ts).kind = .eof) : advance ts = .ok (front ts, ts) := by
  simp [advance, bind_apply, h]

lemma accept_cons {kind : TokenKind} {t : Token} (hk : kind ≠ .eof) (ht : t.kind = kind)
    (ts : List Token) : accept kind (t :: ts) = .ok (true, ts) := by
  subst ht
  simp only [accept, bind_apply, check_apply, front_cons, decide_true, if_true, advance_cons hk,
    pure_apply]

lemma accept_of_ne {kind : TokenKind} (h : (front ts).kind ≠ kind) :
    accept kind ts = .ok (false, ts) := by
  simp [accept, bind_apply, h]

lemma accept_cases {kind : TokenKind} (hk : kind ≠ .eof) (ts : List Token) :
    (∃ t rest, ts = t :: rest ∧ t.kind = kind ∧ accept kind ts = .ok (true, rest)) ∨
      ((front ts).kind ≠ kind ∧ accept kind ts = .ok (false, ts)) := by
  by_cases h : (front ts).kind = kind
  · cases ts with
    | nil => exact absurd h.symm hk
    | cons t rest => exact .inl ⟨t, rest, rfl, h, accept_cons hk h rest⟩
  · exact .inr ⟨h, accept_of_ne h⟩

lemma ifAccept_cons {kind : TokenKind} {t : Token} (hk : kind ≠ .eof) (ht : t.kind = kind)
    (p q : Parse α) (ts : List Token) :
    (accept kind >>= fun b => if b = true then p else q) (t :: ts) = p ts := by
  rw [bind_of_ok (accept_cons hk ht ts), if_pos rfl]

lemma ifAccept_of_ne {kind : TokenKind} (h : (front ts).kind ≠ kind) (p q : Parse α) :
    (accept kind >>= fun b => if b = true then p else q) ts = q ts := by
  rw [bind_of_ok (accept_of_ne h), if_neg (by decide)]

lemma expect_cons {kind : TokenKind} {t : Token} {fault : ParseFault} (hk : kind ≠ .eof)
    (ht : t.kind = kind) (ts : List Token) : expect kind fault (t :: ts) = .ok (t, ts) := by
  subst ht
  simp [expect, bind_apply, advance_cons hk]

lemma expect_of_ne {kind : TokenKind} {fault : ParseFault} (h : (front ts).kind ≠ kind) :
    expect kind fault ts = .error (.parse (front ts) fault) := by
  simp [expect, bind_apply, h]

lemma endOfExpr_of_separator {close : TokenKind} {t : Token} (ht : t.kind = .separator)
    (ts : List Token) : endOfExpr close (t :: ts) = .ok ((), ts) := by
  simp [endOfExpr, bind_apply, accept_cons (by decide) ht]

lemma endOfExpr_of_ne {close : TokenKind} (h : (front ts).kind ≠ .separator) :
    endOfExpr close ts =
      if (front ts).kind = close ∨ (front ts).kind = .eof then .ok ((), ts)
      else .error (.parse (front ts) .expectedExprEnd) := by
  simp only [endOfExpr, bind_apply, accept_of_ne h, peek_apply, Bool.false_eq_true, if_false]
  split_ifs <;> rfl

/-- What is taken behind a separator, by the first two tokens. -/
lemma acceptBehindSeparator_apply {kind : TokenKind} (hk : kind ≠ .eof) (ts : List Token) :
    acceptBehindSeparator kind ts =
      if (front ts).kind = kind then .ok (true, ts.tail)
      else if (front ts).kind = .separator ∧ (front ts.tail).kind = kind then
        .ok (true, ts.tail.tail)
      else .ok (false, ts) := by
  match ts with
  | [] =>
      rw [if_neg (by simp [hk.symm]), if_neg (by simp [front, Token.endOf])]
      exact accept_of_ne hk.symm
  | [t] =>
      by_cases ht : t.kind = kind
      · rw [front_cons, if_pos ht]
        exact accept_cons hk ht []
      · rw [front_cons, if_neg ht, if_neg (by simp [hk.symm])]
        exact accept_of_ne ht
  | t :: u :: ts =>
      have hget : acceptBehindSeparator kind (t :: u :: ts) =
          (if t.kind = kind then do set (u :: ts); return true
          else if t.kind = .separator ∧ u.kind = kind then do set ts; return true
          else return false : Parse Bool) (t :: u :: ts) := rfl
      rw [hget, front_cons, List.tail_cons, front_cons, List.tail_cons]
      split_ifs <;> rfl

lemma behind_of_front {kind : TokenKind} {t : Token} (hk : kind ≠ .eof) (ht : t.kind = kind) :
    acceptBehindSeparator kind (t :: ts) = .ok (true, ts) := by
  rw [acceptBehindSeparator_apply hk, front_cons, if_pos ht, List.tail_cons]

lemma behind_of_second {kind : TokenKind} {t u : Token} (hk : kind ≠ .eof)
    (hs : kind ≠ .separator) (ht : t.kind = .separator) (hu : u.kind = kind) :
    acceptBehindSeparator kind (t :: u :: ts) = .ok (true, ts) := by
  rw [acceptBehindSeparator_apply hk, front_cons, if_neg (by rw [ht]; exact hs.symm),
    if_pos ⟨ht, hu⟩]
  rfl

lemma behind_of_ne {kind : TokenKind} (hk : kind ≠ .eof) (hne : (front ts).kind ≠ kind)
    (hsnd : (front ts).kind = .separator → (front ts.tail).kind ≠ kind) :
    acceptBehindSeparator kind ts = .ok (false, ts) := by
  rw [acceptBehindSeparator_apply hk, if_neg hne, if_neg (fun h => hsnd h.1 h.2)]

lemma behind_cases {kind : TokenKind} (hk : kind ≠ .eof) (hs : kind ≠ .separator)
    (ts : List Token) :
    (∃ t rest, ts = t :: rest ∧ t.kind = kind ∧
        acceptBehindSeparator kind ts = .ok (true, rest)) ∨
      (∃ t u rest, ts = t :: u :: rest ∧ t.kind = .separator ∧ u.kind = kind ∧
        acceptBehindSeparator kind ts = .ok (true, rest)) ∨
      ((front ts).kind ≠ kind ∧ ((front ts).kind = .separator → (front ts.tail).kind ≠ kind) ∧
        acceptBehindSeparator kind ts = .ok (false, ts)) := by
  by_cases hne : (front ts).kind = kind
  · cases ts with
    | nil => exact absurd hne.symm hk
    | cons t rest => exact .inl ⟨t, rest, rfl, hne, behind_of_front hk hne⟩
  · by_cases hsnd : (front ts).kind = .separator ∧ (front ts.tail).kind = kind
    · obtain ⟨ht, hu⟩ := hsnd
      match ts with
      | [] => cases ht
      | [t] => exact absurd hu.symm hk
      | t :: u :: rest =>
          exact .inr (.inl ⟨t, u, rest, rfl, ht, hu, behind_of_second hk hs ht hu⟩)
    · have hsnd' : (front ts).kind = .separator → (front ts.tail).kind ≠ kind :=
        fun ht hu => hsnd ⟨ht, hu⟩
      exact .inr (.inr ⟨hne, hsnd', behind_of_ne hk hne hsnd'⟩)

/-- Where a return has no value. -/
def bare : List TokenKind := [.separator, .rightBrace, .rightParen, .eof]

lemma leave_apply (expr : Level → Parse Expr) (ts : List Token) :
    leave expr ts = if (front ts).kind ∈ bare then .ok (.leave, ts)
      else (expr 0 >>= fun e => pure (Form.leaveWith e)) ts := by
  rw [leave, bind_apply, peek_apply]
  dsimp only
  generalize (front ts).kind = kind
  cases kind <;> rfl

lemma exists_cons_of_link? {ts : List Token} {link : Link}
    (h : (front ts).kind.link? = some link) : ∃ t rest, ts = t :: rest ∧ t.kind ≠ .eof := by
  cases ts with
  | nil => cases h
  | cons t rest =>
      refine ⟨t, rest, rfl, fun ht => ?_⟩
      rw [front_cons, ht] at h
      cases h

lemma links_succ (expr : Level → Parse Expr) (n least count : Nat) (left : Expr)
    (ts : List Token) :
    links expr n least (count + 1) left ts =
      match (front ts).kind.link? with
      | none => .ok (left, ts)
      | some link =>
        if least < link.level then
          (advance >>= fun token => continueWith expr n left token link >>=
            links expr n least count) ts
        else .ok (left, ts) := by
  rw [links, bind_apply, peek_apply]
  cases h : (front ts).kind.link? with
  | none =>
      simp only [h]
      rfl
  | some link =>
      simp only [h]
      split_ifs <;> rfl

/-- Takes a token that starts something and goes on with it. -/
def starting (next : Token → Start → Parse α) : Parse α :=
  advance >>= fun token => match token.kind.start? with
    | none => failAt token .unexpectedToken
    | some start => next token start

lemma expression_succ (n : Nat) (least : Level) :
    expression (n + 1) least = skipSeparators >>= fun _ => starting fun token start =>
      startWith (expression n) n token start >>= links (expression n) n least n := rfl

lemma starting_eq_ok {next : Token → Start → Parse α} {r : α × List Token}
    (h : starting next ts = .ok r) :
    ∃ t us start, ts = t :: us ∧ t.kind ≠ .eof ∧ t.kind.start? = some start ∧
      next t start us = .ok r := by
  rw [starting, bind_apply] at h
  by_cases hf : (front ts).kind = .eof
  · rw [advance_of_eof hf] at h
    simp [hf, TokenKind.start?] at h
  · cases ts with
    | nil => exact absurd rfl hf
    | cons t us =>
        rw [front_cons] at hf
        rw [advance_cons hf] at h
        cases hs : t.kind.start? with
        | none => simp [hs] at h
        | some start =>
            simp only [hs] at h
            exact ⟨t, us, start, rfl, hf, hs, h⟩

lemma starting_cons {next : Token → Start → Parse α} {t : Token} {start : Start}
    (hs : t.kind.start? = some start) : starting next (t :: ts) = next t start ts := by
  have ht : t.kind ≠ .eof := by
    intro hk
    rw [hk] at hs
    cases hs
  rw [starting, bind_apply, advance_cons ht]
  simp only [hs]

end Primitives

end Parse

end Tern
