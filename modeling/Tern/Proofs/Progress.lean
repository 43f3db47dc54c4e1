/-
The parser makes progress. It takes a token before it goes into a nested expression or on to a
further item, and it never takes an end token; so the tokens in front of the first end token are
more than it can take, and a budget beyond their number is never used up.

* `Parse.ahead`: the tokens in front of the first end token; `Parse.Sees`: two lists that are the
  same up to and with it;
* `Parse.Agrees`: two parsers that give the same answer on such lists; there is one rule for each
  way of joining parsers and one for each primitive;
* `Parse.rounds_induction`: the induction that all loops of the parser share;
* `Parse.agrees_expression`: the expression parser agrees with itself, whatever the budgets;
* `Parse.Stops`, `Parse.parser_stops`: what follows for every position in every list of tokens.
-/
import Mathlib.Tactic
import Tern.Proofs.Primitives

namespace Tern

/-- Whether an error is the lack of budget. -/
def SourceError.isTooDeep : SourceError → Bool
  | .parse _ .tooDeep => true
  | _ => false

/-- What is made does not fail for lack of budget. -/
def Shallow {α : Type} (x : Except SourceError α) : Prop :=
  ∀ e, x = .error e → e.isTooDeep = false

/-! ### Checks on trees -/

section Checks

variable {α β : Type}

lemma Shallow.ok (a : α) : Shallow (.ok a) := fun _ h => by cases h

lemma Shallow.error {e : SourceError} (he : e.isTooDeep = false) :
    Shallow (.error e : Except SourceError α) := by
  intro e' h
  cases h
  exact he

lemma Shallow.map {x : Except SourceError α} {f : α → β} (h : Shallow x) : Shallow (x.map f) := by
  cases x with
  | error e => exact .error (h e rfl)
  | ok a => exact .ok (f a)

lemma Params.shallow_ofExprs (es : List Expr) : Shallow (Params.ofExprs es) := by
  fun_induction Params.ofExprs es with
  | case1 => exact .ok _
  | case2 => exact .ok _
  | case3 => exact .error rfl
  | case4 _ _ _ _ ih => exact ih.map
  | case5 => exact .error rfl

lemma shallow_assignment (value : Expr) (token : Token) (target : Expr) :
    Shallow (assignment value token target) := by
  fun_induction assignment value token target with
  | case2 _ _ ih => exact ih
  | case3 => exact .error rfl
  | case5 _ _ arguments _ _ e he => exact .error (Params.shallow_ofExprs arguments e he)
  | case11 => exact .error rfl
  | _ => exact .ok _

lemma shallow_compoundAssignment (op : BinaryOp) (target value : Expr) (token : Token) :
    Shallow (compoundAssignment op target value token) := by
  unfold compoundAssignment
  dsimp only
  split_ifs
  · exact shallow_assignment _ _ _
  · exact .error rfl

lemma shallow_lambdaParams (left : Expr) : Shallow (lambdaParams left) := by
  obtain ⟨site, form⟩ := left
  unfold lambdaParams
  dsimp only
  split
  · exact Params.shallow_ofExprs _
  · exact Params.shallow_ofExprs _
  · exact Params.shallow_ofExprs _
  · exact Params.shallow_ofExprs _
  · exact .error rfl

end Checks

namespace Parse

lemma shallow_entriesOf (items : List Expr) : Shallow (entriesOf items) := by
  fun_induction entriesOf items with
  | case1 => exact .ok _
  | case2 _ _ _ _ ih => exact ih.map
  | case3 => exact .error rfl

lemma shallow_collectionOf (items : List Expr) : Shallow (collectionOf items) := by
  unfold collectionOf
  split
  · exact (shallow_entriesOf _).map
  · split
    · exact .error rfl
    · exact .ok _

lemma shallow_membersOf (items : List Expr) : Shallow (membersOf items) := by
  fun_induction membersOf items with
  | case1 => exact .ok _
  | case2 _ _ _ _ _ _ ih => exact ih.map
  | case3 _ _ _ _ _ ih => exact ih.map
  | case4 _ _ _ ih => exact ih.map
  | case5 => exact .error rfl

/-! ### Up to the first end token -/

/-- The tokens in front of the first end token. -/
def ahead (ts : List Token) : List Token := ts.takeWhile (·.kind ≠ .eof)

lemma ahead_of_eof {ts : List Token} (h : (front ts).kind = .eof) : ahead ts = [] := by
  cases ts with
  | nil => rfl
  | cons t ts => simp [ahead, show t.kind = .eof from h]

lemma ahead_cons {t : Token} {ts : List Token} (h : t.kind ≠ .eof) :
    ahead (t :: ts) = t :: ahead ts := by
  simp [ahead, h]

lemma ahead_append {taken rest : List Token} (h : ∀ t ∈ taken, t.kind ≠ .eof) :
    ahead (taken ++ rest) = taken ++ ahead rest := by
  rw [ahead, List.takeWhile_append_of_pos (by simpa using h), ahead]

/-- Two lists of tokens that are the same up to and with the first end token. -/
inductive Sees : List Token → List Token → Prop
  | ending {ts us : List Token} (h : (front ts).kind = .eof) (heq : front us = front ts) :
      Sees ts us
  | cons {t : Token} {ts us : List Token} (ht : t.kind ≠ .eof) (h : Sees ts us) :
      Sees (t :: ts) (t :: us)

namespace Sees

variable {t : Token} {ts us : List Token}

lemma refl (ts : List Token) : Sees ts ts := by
  induction ts with
  | nil => exact .ending rfl rfl
  | cons t ts ih =>
      by_cases ht : t.kind = .eof
      · exact .ending ht rfl
      · exact .cons ht ih

lemma front_eq (h : Sees ts us) : front us = front ts := by
  cases h with
  | ending _ heq => exact heq
  | cons => rfl

lemma of_cons (h : Sees (t :: ts) us) (ht : t.kind ≠ .eof) :
    ∃ vs, us = t :: vs ∧ Sees ts vs := by
  cases h with
  | ending hk => exact absurd hk ht
  | cons _ h => exact ⟨_, rfl, h⟩

end Sees

/-! ### Two parsers side by side -/

/-- The answers of two parsers on two lists: the same failure, which is not the lack of budget, or
the same result. Then both have taken the same tokens, no end token among them and, if they are
strict, at least one. -/
inductive Together {α : Type} (strict : Bool) (ts us : List Token) :
    Except SourceError (α × List Token) → Except SourceError (α × List Token) → Prop
  | error {e : SourceError} (he : e.isTooDeep = false) : Together strict ts us (.error e) (.error e)
  | ok {a : α} (taken : List Token) {rest rest' : List Token} (hts : ts = taken ++ rest)
      (hus : us = taken ++ rest') (htaken : ∀ t ∈ taken, t.kind ≠ .eof)
      (hstrict : strict = true → taken ≠ []) (h : Sees rest rest') :
      Together strict ts us (.ok (a, rest)) (.ok (a, rest'))

/-- Two parsers agree on lists that are the same up to the first end token and have fewer than `n`
tokens in front of it. -/
def Agrees {α : Type} (strict : Bool) (n : Nat) (p q : Parse α) : Prop :=
  ∀ ⦃ts us : List Token⦄, Sees ts us → (ahead ts).length < n → Together strict ts us (p ts) (q us)

section Rules

variable {α β : Type} {strict : Bool} {n m : Nat} {ts us rest rest' : List Token}

lemma Together.behind {inner : Bool} {taken : List Token}
    {x y : Except SourceError (α × List Token)} (h : Together inner rest rest' x y)
    (htaken : ∀ t ∈ taken, t.kind ≠ .eof) (hstrict : strict = true → taken ≠ [] ∨ inner = true) :
    Together strict (taken ++ rest) (taken ++ rest') x y := by
  cases h with
  | error he => exact .error he
  | @ok a more last last' hts hus hmore hinner h =>
      refine .ok (taken ++ more) ?_ ?_ (List.forall_mem_append.mpr ⟨htaken, hmore⟩) ?_ h
      · rw [hts, List.append_assoc]
      · rw [hus, List.append_assoc]
      · intro hs hnil
        obtain ⟨rfl, rfl⟩ := List.append_eq_nil_iff.mp hnil
        exact (hstrict hs).elim (fun hne => hne rfl) (fun hi => hinner hi rfl)

lemma Together.cons {inner : Bool} {t : Token} {x y : Except SourceError (α × List Token)}
    (ht : t.kind ≠ .eof) (h : Together inner ts us x y) :
    Together strict (t :: ts) (t :: us) x y := by
  have htaken : ∀ u ∈ [t], u.kind ≠ .eof := List.forall_mem_singleton.mpr ht
  exact h.behind htaken fun _ => .inl (List.cons_ne_nil t [])

/-- Nothing is taken. -/
lemma Together.stay {a : α} (h : Sees ts us) : Together false ts us (.ok (a, ts)) (.ok (a, us)) :=
  .ok [] rfl rfl (List.forall_mem_nil _) (fun h => by cases h) h

/-- One token is taken. -/
lemma Together.take {t : Token} {a : α} (ht : t.kind ≠ .eof) (h : Sees ts us) :
    Together strict (t :: ts) (t :: us) (.ok (a, ts)) (.ok (a, us)) := (Together.stay h).cons ht

namespace Agrees

variable {p q : Parse α} {k l : α → Parse β}

lemma zero : Agrees strict 0 p q := fun _ _ _ hn => absurd hn (Nat.not_lt_zero _)

lemma mono (h : Agrees strict n p q) (hm : m ≤ n) : Agrees strict m p q :=
  fun _ _ hs hlt => h hs (hlt.trans_le hm)

lemma weaken (h : Agrees true n p q) : Agrees strict n p q := by
  intro ts us hs hlt
  have htaken : ∀ t ∈ ([] : List Token), t.kind ≠ .eof := List.forall_mem_nil _
  exact (h hs hlt).behind htaken fun _ => .inr rfl

/-- One parser after another: if the first takes a token, the second has one less in front of it. -/
lemma join {first second : Bool} (hp : Agrees first n p q) (hk : ∀ a, Agrees second m (k a) (l a))
    (hm : n ≤ m + first.toNat) : Agrees (first || second) n (p >>= k) (q >>= l) := by
  intro ts us hs hlt
  have h := hp hs hlt
  rw [bind_apply, bind_apply]
  generalize p ts = x at h
  generalize q us = y at h
  cases h with
  | error he => exact .error he
  | @ok a taken rest rest' hts hus htaken hfirst hrest =>
      subst hts hus
      rw [ahead_append htaken, List.length_append] at hlt
      have hpos : first.toNat ≤ taken.length := by
        cases first with
        | false => exact Nat.zero_le _
        | true => exact List.length_pos_of_ne_nil (hfirst rfl)
      refine (hk a hrest (by omega)).behind htaken fun hor => ?_
      rcases Bool.or_eq_true_iff.mp hor with h | h
      · exact .inl (hfirst h)
      · exact .inr h

/-- The second parser may take nothing. -/
lemma bind (hp : Agrees strict n p q) (hk : ∀ a, Agrees false n (k a) (l a)) :
    Agrees strict n (p >>= k) (q >>= l) := by
  have h := hp.join hk (Nat.le_add_right n _)
  rwa [Bool.or_false] at h

/-- The first parser may take nothing. -/
lemma next (hp : Agrees false n p q) (hk : ∀ a, Agrees strict n (k a) (l a)) :
    Agrees strict n (p >>= k) (q >>= l) := hp.join hk (Nat.le_add_right n _)

/-- The first parser takes a token, so that the second one has less in front of it. -/
lemma step (hp : Agrees true (n + 1) p q) (hk : ∀ a, Agrees false n (k a) (l a)) :
    Agrees true (n + 1) (p >>= k) (q >>= l) := hp.join hk (le_refl _)

lemma pure (a : α) : Agrees false n (Pure.pure a) (Pure.pure a) := fun _ _ hs _ => .stay hs

lemma map {g : α → β} (hp : Agrees strict n p q) :
    Agrees strict n (p >>= fun a => Pure.pure (g a)) (q >>= fun a => Pure.pure (g a)) :=
  hp.bind fun a => pure (g a)

lemma failing {fault : ParseFault} (h : ∀ t, (SourceError.parse t fault).isTooDeep = false) :
    Agrees strict n (fail fault : Parse α) (fail fault) := by
  intro ts us hs _
  rw [fail_apply, fail_apply, hs.front_eq]
  exact .error (h _)

lemma failingAt {t : Token} {fault : ParseFault}
    (h : (SourceError.parse t fault).isTooDeep = false) :
    Agrees strict n (failAt t fault : Parse α) (failAt t fault) := fun _ _ _ _ => .error h

lemma lifted {x : Except SourceError α} (h : Shallow x) :
    Agrees false n (lift x) (lift x) := by
  intro ts us hs _
  cases x with
  | error e => exact .error (h e rfl)
  | ok a => exact .stay hs

lemma ite {b : Bool} {p' q' : Parse α} (hyes : Agrees strict n p q) (hno : Agrees strict n p' q') :
    Agrees strict n (if b = true then p else p') (if b = true then q else q') := by
  cases b with
  | false => exact hno
  | true => exact hyes

end Agrees

/-! ### Tokens -/

lemma agrees_skipSeparators : Agrees false n skipSeparators skipSeparators := by
  intro ts us hs hlt
  clear hlt
  induction hs with
  | ending h heq =>
      have hne : ∀ {vs : List Token}, (front vs).kind = .eof →
          skipSeparators vs = .ok ((), vs) := by
        intro vs hv
        cases vs with
        | nil => rfl
        | cons t vs => exact skipSeparators_cons (by simp [show t.kind = .eof from hv])
      rw [hne h, hne (heq ▸ h)]
      exact .stay (.ending h heq)
  | @cons t ts us ht h ih =>
      by_cases hsep : t.kind = .separator
      · have hdrop : ∀ vs : List Token, skipSeparators (t :: vs) = skipSeparators vs := by
          intro vs
          simp [hsep]
        rw [hdrop, hdrop]
        exact ih.cons ht
      · rw [skipSeparators_cons hsep, skipSeparators_cons hsep]
        exact .stay (.cons ht h)

lemma agrees_check (kind : TokenKind) : Agrees false n (check kind) (check kind) := by
  intro ts us hs _
  rw [check_apply, check_apply, hs.front_eq]
  exact .stay hs

lemma accept_of_eof (h : (front ts).kind = .eof) : accept .eof ts = .ok (true, ts) := by
  simp only [accept, bind_apply, check_apply, h, decide_true, if_true, advance_of_eof h, pure_apply]

lemma expect_of_eof {fault : ParseFault} (h : (front ts).kind = .eof) :
    expect .eof fault ts = .ok (front ts, ts) := by
  simp [expect, bind_apply, h, advance_of_eof h]

/-- An end token is accepted, but it stays. -/
lemma agrees_accept (kind : TokenKind) : Agrees false n (accept kind) (accept kind) := by
  intro ts us hs _
  by_cases hkind : (front ts).kind = kind
  · cases hs with
    | ending h heq =>
        obtain rfl : .eof = kind := h.symm.trans hkind
        rw [accept_of_eof h, accept_of_eof (heq ▸ h)]
        exact .stay (.ending h heq)
    | @cons t ts us ht h =>
        rw [front_cons] at hkind
        have hk : kind ≠ .eof := hkind ▸ ht
        rw [accept_cons hk hkind, accept_cons hk hkind]
        exact .take ht h
  · rw [accept_of_ne hkind, accept_of_ne (hs.front_eq ▸ hkind)]
    exact .stay hs

lemma agrees_expect {kind : TokenKind} {fault : ParseFault}
    (hf : ∀ t, (SourceError.parse t fault).isTooDeep = false)
    (hkind : strict = true → kind ≠ .eof) :
    Agrees strict n (expect kind fault) (expect kind fault) := by
  intro ts us hs _
  by_cases hfront : (front ts).kind = kind
  · cases hs with
    | ending h heq =>
        obtain rfl : .eof = kind := h.symm.trans hfront
        rw [expect_of_eof h, expect_of_eof (heq ▸ h), heq]
        cases strict with
        | false => exact .stay (.ending h heq)
        | true => exact absurd rfl (hkind rfl)
    | @cons t ts us ht h =>
        rw [front_cons] at hfront
        have hk : kind ≠ .eof := hfront ▸ ht
        rw [expect_cons hk hfront, expect_cons hk hfront]
        exact .take ht h
  · rw [expect_of_ne hfront, expect_of_ne (hs.front_eq ▸ hfront), hs.front_eq]
    exact .error (hf _)

lemma agrees_endOfExpr (close : TokenKind) :
    Agrees false n (endOfExpr close) (endOfExpr close) := by
  unfold endOfExpr
  refine (agrees_accept .separator).bind fun _ => ?_
  refine Agrees.ite (Agrees.pure ()) ?_
  intro ts us hs _
  rw [bind_apply, bind_apply, peek_apply, peek_apply, hs.front_eq]
  dsimp only
  split_ifs
  · exact .stay hs
  · rw [fail_apply, fail_apply, hs.front_eq]
    exact .error rfl

/-- A token decides between two parsers; the first one has one token less in front of it. -/
lemma Agrees.ifAccept {kind : TokenKind} {p q p' q' : Parse α} (hkind : kind ≠ .eof)
    (hyes : Agrees false m p q) (hm : n ≤ m + 1) (hno : Agrees strict n p' q') :
    Agrees strict n (accept kind >>= fun b => if b = true then p else p')
      (accept kind >>= fun b => if b = true then q else q') := by
  intro ts us hs hlt
  rcases accept_cases hkind ts with ⟨t, ts, rfl, ht, -⟩ | ⟨hne, -⟩
  · have hteof : t.kind ≠ .eof := ht ▸ hkind
    obtain ⟨vs, rfl, hrest⟩ := hs.of_cons hteof
    rw [ifAccept_cons hkind ht, ifAccept_cons hkind ht]
    rw [ahead_cons hteof, List.length_cons] at hlt
    exact (hyes hrest (by omega)).cons hteof
  · rw [ifAccept_of_ne hne, ifAccept_of_ne (hs.front_eq ▸ hne)]
    exact hno hs hlt

lemma agrees_acceptBehindSeparator {kind : TokenKind} (hk : kind ≠ .eof)
    (hsep : kind ≠ .separator) :
    Agrees false n (acceptBehindSeparator kind) (acceptBehindSeparator kind) := by
  intro ts us hs _
  rcases behind_cases hk hsep ts with
    ⟨t, ts, rfl, ht, ha⟩ | ⟨t, u, ts, rfl, ht, hu, ha⟩ | ⟨hne, hsnd, ha⟩
  · have hteof : t.kind ≠ .eof := ht ▸ hk
    obtain ⟨vs, rfl, hrest⟩ := hs.of_cons hteof
    rw [ha, behind_of_front hk ht]
    exact .take hteof hrest
  · have hteof : t.kind ≠ .eof := by rw [ht]; decide
    have hueof : u.kind ≠ .eof := hu ▸ hk
    obtain ⟨vs, rfl, hmid⟩ := hs.of_cons hteof
    obtain ⟨ws, rfl, hrest⟩ := hmid.of_cons hueof
    rw [ha, behind_of_second hk hsep ht hu]
    have htake : Together true (u :: ts) (u :: ws) (.ok (true, ts)) (.ok (true, ws)) :=
      .take hueof hrest
    exact htake.cons hteof
  · have hsnd' : (front us).kind = .separator → (front us.tail).kind ≠ kind := by
      intro hus
      rw [hs.front_eq] at hus
      cases hs with
      | ending h heq => exact absurd (h.symm.trans hus) (by decide)
      | cons ht h =>
          rw [List.tail_cons, h.front_eq]
          exact hsnd hus
    rw [ha, behind_of_ne hk (hs.front_eq ▸ hne) hsnd']
    exact .stay hs

/-- What a token starts has one token less in front of it. -/
lemma Agrees.starting {next next' : Token → Start → Parse α}
    (h : ∀ t start, Agrees false n (next t start) (next' t start)) :
    Agrees true (n + 1) (starting next) (starting next') := by
  have hend : ∀ {vs : List Token} {k : Token → Start → Parse α}, (front vs).kind = .eof →
      Parse.starting k vs = .error (.parse (front vs) .unexpectedToken) := by
    intro vs k hv
    rw [Parse.starting, bind_apply, advance_of_eof hv]
    simp only [hv]
    rfl
  intro ts us hs hlt
  cases hs with
  | ending heof heq =>
      rw [hend heof, hend (heq ▸ heof), heq]
      exact .error rfl
  | @cons t ts us ht hs =>
      rw [ahead_cons ht, List.length_cons] at hlt
      rw [Parse.starting, Parse.starting, bind_apply, bind_apply, advance_cons ht, advance_cons ht]
      dsimp only
      cases t.kind.start? with
      | none => exact .error rfl
      | some start => exact (h t start hs (by omega)).cons ht

end Rules

/-! ### Lists of expressions -/

section Parts

variable {expr expr' : Level → Parse Expr} {n b b' : Nat}

/-- Nested expressions take a token and agree. -/
abbrev Steps (n : Nat) (expr expr' : Level → Parse Expr) : Prop :=
  ∀ least, Agrees true n (expr least) (expr' least)

lemma Steps.mono {m : Nat} (he : Steps n expr expr') (hm : m ≤ n) : Steps m expr expr' :=
  fun least => (he least).mono hm

/-- Induction on the tokens in front of the end: a round takes a token, and one off both budgets,
which are enough all along. -/
@[elab_as_elim]
lemma rounds_induction {P : Nat → Nat → Nat → Prop} (hb : n ≤ b) (hb' : n ≤ b')
    (zero : ∀ b b', P 0 b b')
    (succ : ∀ m b b', m < n → m ≤ b → m ≤ b' → P m b b' → P (m + 1) (b + 1) (b' + 1)) :
    P n b b' := by
  have hall : ∀ m ≤ n, ∀ b b', m ≤ b → m ≤ b' → P m b b' := by
    intro m
    induction m with
    | zero => exact fun _ b b' _ _ => zero b b'
    | succ m ih =>
        intro hm b b' hb hb'
        obtain ⟨b, rfl⟩ : ∃ c, b = c + 1 := ⟨b - 1, by omega⟩
        obtain ⟨b', rfl⟩ : ∃ c, b' = c + 1 := ⟨b' - 1, by omega⟩
        have hb : m ≤ b := Nat.le_of_succ_le_succ hb
        have hb' : m ≤ b' := Nat.le_of_succ_le_succ hb'
        exact succ m b b' hm hb hb' (ih (Nat.le_of_succ_le hm) b b' hb hb')
  exact hall n (le_refl n) b b' hb hb'

/-- Each item takes a token, so there are more rounds than items. -/
lemma agrees_sequence (he : Steps n expr expr') (hb : n ≤ b) (hb' : n ≤ b') :
    Agrees true n (sequence expr b) (sequence expr' b') := by
  refine rounds_induction hb hb' (fun _ _ => .zero) fun m b b' hm _ _ ih => ?_
  unfold sequence
  refine agrees_skipSeparators.next fun _ => ?_
  refine Agrees.ifAccept (by decide) (.pure []) (le_refl _) ?_
  refine (agrees_check .eof).next fun _ => Agrees.ite (.failing fun _ => rfl) ?_
  refine (he.mono hm 0).step fun first => ?_
  refine (agrees_endOfExpr .rightBrace).next fun _ => ?_
  exact ih.weaken.map

lemma agrees_commaList {close : TokenKind} {item : ListItem} (he : Steps n expr expr')
    (hb : n ≤ b) (hb' : n ≤ b') :
    Agrees true n (commaList expr close item b) (commaList expr' close item b') := by
  refine rounds_induction hb hb' (fun _ _ => .zero) fun m b b' hm _ _ ih => ?_
  unfold commaList
  refine (he.mono hm 0).step fun first => ?_
  refine agrees_skipSeparators.next fun _ => ?_
  refine Agrees.ifAccept (by decide) ih.weaken.map (Nat.le_succ m) ?_
  exact (agrees_expect (fun _ => rfl) fun h => by cases h).map

/-- Nothing has to be taken if what closes is the end. -/
lemma agrees_delimited {close : TokenKind} {item : ListItem} (he : Steps n expr expr')
    (hb : n ≤ b) (hb' : n ≤ b') :
    Agrees false n (delimited expr b close item) (delimited expr' b' close item) := by
  unfold delimited
  refine agrees_skipSeparators.next fun _ => ?_
  refine (agrees_accept close).next fun _ => Agrees.ite (.pure []) ?_
  exact (agrees_commaList he hb hb').weaken

lemma agrees_clauseList (he : Steps n expr expr') (hb : n ≤ b) (hb' : n ≤ b') :
    Agrees true n (clauseList expr b) (clauseList expr' b') := by
  refine rounds_induction hb hb' (fun _ _ => .zero) fun m b b' hm _ _ ih => ?_
  unfold clauseList
  refine agrees_skipSeparators.next fun _ => ?_
  refine Agrees.ifAccept (by decide) (.pure []) (le_refl _) ?_
  refine (he.mono hm Level.assignment).step fun pattern => ?_
  refine (agrees_expect (fun _ => rfl) (by decide)).next fun _ => ?_
  refine (he.mono hm.le 0).weaken.next fun body => ?_
  refine (agrees_endOfExpr .rightBrace).next fun _ => ?_
  exact ih.weaken.map

lemma agrees_clauses {owner : ClauseOwner} (he : Steps n expr expr') (hb : n ≤ b) (hb' : n ≤ b') :
    Agrees true n (clauses expr b owner) (clauses expr' b' owner) := by
  unfold clauses
  refine agrees_skipSeparators.next fun _ => ?_
  refine (agrees_expect (fun _ => rfl) (by decide)).bind fun _ => ?_
  exact (agrees_clauseList he hb hb').weaken

lemma agrees_dottedNames (hb : n ≤ b) (hb' : n ≤ b') :
    Agrees false n (dottedNames b) (dottedNames b') := by
  refine rounds_induction hb hb' (fun _ _ => .zero) fun m b b' _ _ _ ih => ?_
  unfold dottedNames
  refine Agrees.ifAccept (by decide) ?_ (le_refl _) (.pure [])
  exact (agrees_expect (fun _ => rfl) (by decide)).next fun name => ih.map

/-! ### What a token starts -/

lemma agrees_constant (token : Token) : Agrees false n (constant token) (constant token) := by
  unfold constant
  split
  · exact .pure _
  · exact .pure _
  · exact .pure _
  · exact .pure _
  · exact .pure _
  · exact .failingAt rfl

lemma agrees_group (he : Steps n expr expr') (hb : n ≤ b) (hb' : n ≤ b') :
    Agrees true n (group expr b) (group expr' b') := by
  unfold group
  refine agrees_skipSeparators.next fun _ => ?_
  refine Agrees.ifAccept (by decide) (.pure _) (Nat.le_succ n) ?_
  refine (he 0).bind fun first => ?_
  refine agrees_skipSeparators.next fun _ => ?_
  refine Agrees.ifAccept (by decide) (agrees_delimited he hb hb').map (Nat.le_succ n) ?_
  exact (agrees_expect (fun _ => rfl) (by decide)).map

lemma agrees_collection (he : Steps n expr expr') (hb : n ≤ b) (hb' : n ≤ b') :
    Agrees false n (collection expr b) (collection expr' b') := by
  unfold collection
  refine agrees_skipSeparators.next fun _ => ?_
  refine Agrees.ifAccept (by decide) ?_ (Nat.le_succ n) ?_
  · exact (agrees_expect (fun _ => rfl) (by decide)).map
  · exact (agrees_delimited he hb hb').next fun items => .lifted (shallow_collectionOf items)

lemma agrees_branch (he : Steps n expr expr') : Agrees true n (branch expr) (branch expr') := by
  unfold branch
  refine (he 0).bind fun condition => ?_
  refine (he 0).weaken.next fun yes => ?_
  refine (agrees_acceptBehindSeparator (by decide) (by decide)).next fun _ => ?_
  exact Agrees.ite (he 0).weaken.map (.pure _)

lemma agrees_forLoop (he : Steps n expr expr') : Agrees true n (forLoop expr) (forLoop expr') := by
  unfold forLoop
  refine (he 0).bind fun pattern => ?_
  refine (agrees_expect (fun _ => rfl) (by decide)).next fun _ => ?_
  refine (he 0).weaken.next fun iterable => ?_
  exact (he 0).weaken.map

lemma agrees_attempt (he : Steps n expr expr') (hb : n ≤ b) (hb' : n ≤ b') :
    Agrees true n (attempt expr b) (attempt expr' b') := by
  unfold attempt
  refine (he 0).bind fun body => ?_
  refine (agrees_acceptBehindSeparator (by decide) (by decide)).next fun _ => ?_
  exact Agrees.ite (agrees_clauses he hb hb').weaken.map (.failing fun _ => rfl)

lemma agrees_leave (he : Steps n expr expr') : Agrees false n (leave expr) (leave expr') := by
  intro ts us hs hlt
  rw [leave_apply, leave_apply, hs.front_eq]
  split_ifs
  · exact .stay hs
  · exact (he 0).weaken.map hs hlt

lemma agrees_classDef (he : Steps n expr expr') (hb : n ≤ b) (hb' : n ≤ b') :
    Agrees true n (classDef expr b) (classDef expr' b') := by
  unfold classDef
  refine (agrees_expect (fun _ => rfl) (by decide)).bind fun name => ?_
  have hbody : ∀ parent : Option String, Agrees false n
      (skipSeparators >>= fun _ => expect .leftBrace .expectedClassBody >>= fun _ =>
        sequence expr b >>= fun body => lift (membersOf body) >>= fun members =>
          pure (Form.classDef name.lexeme parent members))
      (skipSeparators >>= fun _ => expect .leftBrace .expectedClassBody >>= fun _ =>
        sequence expr' b' >>= fun body => lift (membersOf body) >>= fun members =>
          pure (Form.classDef name.lexeme parent members)) := by
    intro parent
    refine agrees_skipSeparators.next fun _ => ?_
    refine (agrees_expect (fun _ => rfl) (by decide)).next fun _ => ?_
    refine (agrees_sequence he hb hb').weaken.next fun body => ?_
    exact (Agrees.lifted (shallow_membersOf body)).map
  simp only [pure_bind]
  refine Agrees.ifAccept (by decide) ?_ (Nat.le_succ n) (hbody none)
  exact (agrees_expect (fun _ => rfl) (by decide)).next fun parent => hbody _

lemma agrees_importing (hb : n ≤ b) (hb' : n ≤ b') :
    Agrees true n (importing b) (importing b') := by
  unfold importing
  refine (agrees_expect (fun _ => rfl) (by decide)).bind fun first => ?_
  exact (agrees_dottedNames hb hb').map

lemma agrees_startWith (he : Steps n expr expr') (hb : n ≤ b) (hb' : n ≤ b') (token : Token)
    (start : Start) :
    Agrees false n (startWith expr b token start) (startWith expr' b' token start) := by
  cases start with
  | literal => exact (agrees_constant token).map
  | name => exact .pure _
  | group => exact (agrees_group he hb hb').weaken.map
  | collection => exact (agrees_collection he hb hb').map
  | block => exact (agrees_sequence he hb hb').weaken.map
  | unary op => exact (he Level.leading).weaken.map
  | annotated => exact (he Level.leading).weaken.map
  | branch => exact (agrees_branch he).weaken.map
  | whileLoop => exact (he 0).weaken.next fun condition => (he 0).weaken.map
  | forLoop => exact (agrees_forLoop he).weaken.map
  | attempt => exact (agrees_attempt he hb hb').weaken.map
  | raise => exact (he 0).weaken.map
  | leave => exact (agrees_leave he).map
  | classDef => exact (agrees_classDef he hb hb').weaken.map
  | importing => exact (agrees_importing hb hb').weaken.map

/-! ### What a token continues -/

lemma agrees_continueWith (he : Steps n expr expr') (hb : n ≤ b) (hb' : n ≤ b') (left : Expr)
    (token : Token) (link : Link) :
    Agrees false n (continueWith expr b left token link)
      (continueWith expr' b' left token link) := by
  cases link with
  | assign op =>
      cases op with
      | none => exact (he _).weaken.next fun value => .lifted (shallow_assignment value token left)
      | some op =>
          exact (he _).weaken.next fun value =>
            .lifted (shallow_compoundAssignment op left value token)
  | lambda =>
      unfold continueWith
      exact (Agrees.lifted (shallow_lambdaParams left)).next fun params => (he _).weaken.map
  | pair => exact (he _).weaken.map
  | logical op => exact (he _).weaken.map
  | matching =>
      refine (agrees_clauses he hb hb').weaken.next fun arms => ?_
      cases duplicate? [] arms with
      | some pattern => exact .failingAt rfl
      | none => exact .pure _
  | binary op => exact (he _).weaken.map
  | call => exact (agrees_delimited he hb hb').map
  | index =>
      refine (he 0).weaken.next fun index => ?_
      refine agrees_skipSeparators.next fun _ => ?_
      exact (agrees_expect (fun _ => rfl) (by decide)).map
  | member safe => exact (agrees_expect (fun _ => rfl) (by decide)).map
  | spread => exact .pure _

/-- Each continuation takes a token, so there are more rounds than continuations. -/
lemma agrees_links {least count count' : Nat} (he : Steps n expr expr') (hb : n ≤ b)
    (hb' : n ≤ b') (hc : n ≤ count) (hc' : n ≤ count') : ∀ left : Expr,
    Agrees false n (links expr b least count left) (links expr' b' least count' left) := by
  refine rounds_induction hc hc' (fun _ _ _ => .zero) fun m count count' hm _ _ ih left => ?_
  intro ts us hs hlt
  rw [links_succ, links_succ, hs.front_eq]
  cases hl : (front ts).kind.link? with
  | none => exact .stay hs
  | some link =>
      dsimp only
      split_ifs
      · obtain ⟨t, ts, rfl, ht⟩ := exists_cons_of_link? hl
        obtain ⟨us, rfl, hrest⟩ := hs.of_cons ht
        rw [ahead_cons ht, List.length_cons] at hlt
        rw [bind_apply, bind_apply, advance_cons ht, advance_cons ht]
        have hmb : m ≤ b := hm.le.trans hb
        have hmb' : m ≤ b' := hm.le.trans hb'
        have hjoined := (agrees_continueWith (he.mono hm.le) hmb hmb' left t link).next ih
        exact (hjoined hrest (Nat.lt_of_succ_lt_succ hlt)).cons ht
      · exact .stay hs

end Parts

/-- **The parser agrees with itself**: on fewer than `n` tokens, all budgets from `n` on give the
same answer, and the lack of budget is none. -/
theorem agrees_expression {n b b' : Nat} (hb : n ≤ b) (hb' : n ≤ b') :
    Steps n (expression b) (expression b') := by
  refine rounds_induction hb hb' (fun _ _ _ => .zero) fun m b b' _ hb hb' he least => ?_
  rw [expression_succ, expression_succ]
  refine agrees_skipSeparators.next fun _ => Agrees.starting fun token start => ?_
  exact (agrees_startWith he hb hb' token start).next (agrees_links he hb hb' hb hb')

/-! ### Whole sources -/

lemma program_succ (b c : Nat) : program b (c + 1) = (do
    skipSeparators
    if ← check .eof then return []
    else
      let e ← expression b 0
      endOfExpr .eof
      let rest ← program b c
      return e :: rest) := by
  rw [program, next?, bind_assoc]
  congr 1
  funext _
  rw [bind_assoc]
  congr 1
  funext ended
  cases ended with
  | false => simp only [Bool.false_eq_true, if_false, bind_assoc, pure_bind]
  | true => simp only [if_true, pure_bind]

lemma agrees_program {n b b' c c' : Nat} (hb : n ≤ b) (hb' : n ≤ b') (hc : n ≤ c) (hc' : n ≤ c') :
    Agrees false n (program b c) (program b' c') := by
  refine rounds_induction hc hc' (fun _ _ => .zero) fun m c c' hm _ _ ih => ?_
  rw [program_succ, program_succ]
  refine agrees_skipSeparators.next fun _ => ?_
  refine (agrees_check .eof).next fun _ => Agrees.ite (.pure []) (Agrees.weaken ?_)
  refine ((agrees_expression hb hb').mono hm 0).step fun e => ?_
  refine (agrees_endOfExpr .eof).next fun _ => ?_
  exact ih.map

/-- A program leaves what starts with an end token. -/
lemma front_program {b c : Nat} {ts rest : List Token} {es : List Expr}
    (h : program b c ts = .ok (es, rest)) : (front rest).kind = .eof := by
  induction c generalizing ts es with
  | zero => cases h
  | succ c ih =>
      rw [program_succ] at h
      obtain ⟨_, mid, -, h⟩ := bind_eq_ok.mp h
      rw [bind_apply, check_apply] at h
      by_cases hmid : (front mid).kind = .eof
      · simp only [hmid, decide_true, if_true] at h
        cases h
        exact hmid
      · simp only [hmid, decide_false, Bool.false_eq_true, if_false] at h
        obtain ⟨e, behind, -, h⟩ := bind_eq_ok.mp h
        obtain ⟨_, later, -, h⟩ := bind_eq_ok.mp h
        obtain ⟨more, last, hmore, h⟩ := bind_eq_ok.mp h
        cases h
        exact ih hmore

/-! ### The parser stops -/

/-- A parser comes to an answer on a list of tokens: a failure, or a result and the number of
tokens it takes, none of them behind the first end token. A budget beyond the number of tokens in
front of that one suffices, and what stands behind it does not matter. -/
structure StopsWith {α : Type} (strict : Bool) (run : Nat → Parse α) (ts : List Token)
    (answer : Except SourceError (α × Nat)) : Prop where
  shallow : Shallow answer
  within : ∀ a taken, answer = .ok (a, taken) → taken ≤ (ahead ts).length
  progress : strict = true → ∀ a taken, answer = .ok (a, taken) → 0 < taken
  run_eq : ∀ us n, Sees ts us → (ahead ts).length < n →
    run n us = answer.map fun r => (r.1, us.drop r.2)

/-- A parser comes to an answer, whatever the budget beyond the tokens in front of the end. -/
def Stops {α : Type} (strict : Bool) (run : Nat → Parse α) (ts : List Token) : Prop :=
  ∃ answer, StopsWith strict run ts answer

section Stopping

variable {α : Type} {strict : Bool} {ts us rest : List Token} {a : α} {e : SourceError}
  {y : Except SourceError (α × List Token)}

lemma Together.of_error (h : Together strict ts us (.error e) y) :
    e.isTooDeep = false ∧ y = .error e := by
  cases h with
  | error he => exact ⟨he, rfl⟩

lemma Together.of_ok (h : Together strict ts us (.ok (a, rest)) y) :
    ∃ taken rest', ts = taken ++ rest ∧ us = taken ++ rest' ∧ (∀ t ∈ taken, t.kind ≠ .eof) ∧
      (strict = true → taken ≠ []) ∧ y = .ok (a, rest') := by
  cases h with
  | ok taken hts hus htaken hstrict => exact ⟨taken, _, hts, hus, htaken, hstrict, rfl⟩

lemma Stops.of_agrees {run : Nat → Parse α}
    (h : ∀ {m n n'}, m ≤ n → m ≤ n' → Agrees strict m (run n) (run n')) (ts : List Token) :
    Stops strict run ts := by
  -- The least budget that suffices gives the answer.
  have hrun : ∀ {us : List Token} {n : Nat}, Sees ts us → (ahead ts).length < n →
      Together strict ts us (run ((ahead ts).length + 1) ts) (run n us) :=
    fun hs hn => h (le_refl _) hn hs (Nat.lt_succ_self _)
  have hself := hrun (.refl ts) (Nat.lt_succ_self _)
  generalize run ((ahead ts).length + 1) ts = x at hrun hself
  cases x with
  | error e =>
      refine ⟨.error e, .error hself.of_error.1, ?_, ?_, ?_⟩
      · exact fun a taken h => by cases h
      · exact fun _ a taken h => by cases h
      · exact fun us n hs hn => (hrun hs hn).of_error.2
  | ok out =>
      obtain ⟨a, rest⟩ := out
      obtain ⟨taken, -, hts, -, htaken, hstrict, -⟩ := hself.of_ok
      refine ⟨.ok (a, taken.length), .ok _, ?_, ?_, ?_⟩
      · rintro _ _ ⟨⟩
        rw [hts, ahead_append htaken, List.length_append]
        exact Nat.le_add_right _ _
      · rintro hs _ _ ⟨⟩
        exact List.length_pos_of_ne_nil (hstrict hs)
      · intro us n hs hn
        obtain ⟨taken', rest', hts', rfl, -, -, hy⟩ := (hrun hs hn).of_ok
        obtain rfl : taken = taken' := List.append_cancel_right (hts.symm.trans hts')
        rw [hy]
        simp [Except.map]

end Stopping

/-! ### The first end token -/

section FirstEof

variable {before later : List Token} {last : Token}

/-- A list that is closed has a first end token. -/
lemma exists_first_eof (tokens : List Token) : ∃ before last later,
    closed tokens = before ++ last :: later ∧ (∀ t ∈ before, t.kind ≠ .eof) ∧ last.kind = .eof := by
  have hmem : ∃ t ∈ closed tokens, t.kind = .eof := by
    unfold closed
    cases hlast : tokens.getLast? with
    | none => exact ⟨_, List.mem_singleton_self _, rfl⟩
    | some last =>
        dsimp only
        split_ifs with heof
        · exact ⟨last, List.mem_of_getLast? hlast, heof⟩
        · exact ⟨_, List.mem_append_right _ (List.mem_singleton_self _), rfl⟩
  have hfind : ((closed tokens).find? fun t => decide (t.kind = .eof)).isSome = true := by
    simpa [List.find?_isSome] using hmem
  obtain ⟨last, hlast⟩ := Option.isSome_iff_exists.mp hfind
  obtain ⟨heof, before, later, hsplit, hbefore⟩ := List.find?_eq_some_iff_append.mp hlast
  exact ⟨before, last, later, hsplit, by simpa using hbefore, by simpa using heof⟩

lemma ahead_first_eof (hbefore : ∀ t ∈ before, t.kind ≠ .eof) (hlast : last.kind = .eof) :
    ahead (before ++ last :: later) = before := by
  have hnone : ahead (last :: later) = [] := ahead_of_eof hlast
  rw [ahead_append hbefore, hnone, List.append_nil]

/-- Who stands at an end token and has not passed the first one stands at the first one. -/
lemma drop_eq_of_front {taken : Nat} (hbefore : ∀ t ∈ before, t.kind ≠ .eof)
    (htaken : taken ≤ before.length)
    (hfront : (front ((before ++ last :: later).drop taken)).kind = .eof) :
    (before ++ last :: later).drop taken = last :: later := by
  rw [List.drop_append_of_le_length htaken] at hfront ⊢
  cases hdrop : before.drop taken with
  | nil => rfl
  | cons t ts =>
      rw [hdrop] at hfront
      have ht : t ∈ before := List.mem_of_mem_drop (hdrop ▸ List.mem_cons_self)
      exact absurd hfront (hbefore t ht)

lemma program_stops (later : List Token) (hbefore : ∀ t ∈ before, t.kind ≠ .eof)
    (hlast : last.kind = .eof) :
    ∃ answer, Shallow answer ∧ ∀ n, before.length < n →
      program n n (before ++ last :: later) = answer.map fun es => (es, last :: later) := by
  have hagrees : ∀ {m n n'}, m ≤ n → m ≤ n' → Agrees false m (program n n) (program n' n') :=
    fun hn hn' => agrees_program hn hn' hn hn'
  obtain ⟨answer, h⟩ := Stops.of_agrees hagrees (before ++ last :: later)
  have hrun := fun n => h.run_eq _ n (.refl _)
  rw [ahead_first_eof hbefore hlast] at hrun
  refine ⟨answer.map (·.1), h.shallow.map, fun n hn => ?_⟩
  rw [hrun n hn]
  cases answer with
  | error e => rfl
  | ok r =>
      have htaken := h.within r.1 r.2 rfl
      rw [ahead_first_eof hbefore hlast] at htaken
      have hdrop := drop_eq_of_front hbefore htaken (front_program (hrun n hn))
      exact congrArg (fun rest => Except.ok (r.1, rest)) hdrop

end FirstEof

/-- **The parser makes progress and stops**, on every list of tokens, from every position and for
every level. An expression takes at least one token, and nothing takes an end token; a whole source
ends in a failure, which is not the lack of budget, or stops at the first end token. -/
theorem parser_stops (tokens : List Token) :
    (∀ position, let ts := (closed tokens).drop position
      (∀ least, Stops true (fun n => expression n least) ts) ∧
      Stops true (fun n => sequence (expression n) n) ts ∧
      (∀ close item, Stops false (fun n => delimited (expression n) n close item) ts) ∧
      (∀ owner, Stops true (fun n => clauses (expression n) n owner) ts)) ∧
    ∃ before last later, closed tokens = before ++ last :: later ∧
      (∀ t ∈ before, t.kind ≠ .eof) ∧ last.kind = .eof ∧
      Shallow (parseTokens tokens) ∧ ∀ n, before.length < n →
        program n n (closed tokens) = (parseTokens tokens).map fun es => (es, last :: later) := by
  constructor
  · intro position
    dsimp only
    refine ⟨fun least => ?_, ?_, fun close item => ?_, fun owner => ?_⟩
    · exact .of_agrees (fun hn hn' => agrees_expression hn hn' least) _
    · exact .of_agrees (fun hn hn' => agrees_sequence (agrees_expression hn hn') hn hn') _
    · exact .of_agrees (fun hn hn' => agrees_delimited (agrees_expression hn hn') hn hn') _
    · exact .of_agrees (fun hn hn' => agrees_clauses (agrees_expression hn hn') hn hn') _
  · obtain ⟨before, last, later, hsplit, hbefore, hlast⟩ := exists_first_eof tokens
    obtain ⟨answer, hshallow, hrun⟩ := program_stops later hbefore hlast
    have hbudget : before.length < budgetFor (closed tokens) := by
      rw [budgetFor, hsplit, List.length_append]
      omega
    rw [← hsplit] at hrun
    have hparse : parseTokens tokens = answer := by
      unfold parseTokens
      dsimp only
      rw [hrun _ hbudget]
      cases answer <;> rfl
    refine ⟨before, last, later, hsplit, hbefore, hlast, hparse ▸ hshallow, ?_⟩
    rw [hparse]
    exact hrun

/-- A name in front of an end token and another one behind it, which is not looked at: with every
budget from two on the parser stops at the end token between them. -/
theorem parser_stops_inner_eof :
    let name := fun lexeme : String => (⟨.identifier, lexeme, none, 1, "<input>"⟩ : Token)
    let eof := Token.endOf "<input>" 1
    let tokens := [name "a", eof, name "b"]
    Stops true (fun n => expression n 0) (closed tokens) ∧
      ∀ n, 1 < n → program n n (closed tokens) =
        .ok ([Expr.plain (name "a") (.name "a")], [eof, name "b", Token.endOf "<input>" 1]) := by
  intro name eof tokens
  have hstops := parser_stops tokens
  refine ⟨(hstops.1 0).1 0, fun n hn => ?_⟩
  obtain ⟨before, last, later, hsplit, hbefore, hlast, -, hrun⟩ := hstops.2
  cases before with
  | nil =>
      cases hsplit
      cases hlast
  | cons t ts =>
      cases ts with
      | nil =>
          cases hsplit
          exact hrun n hn
      | cons u us =>
          have hu : eof = u := (List.cons.inj (List.cons.inj hsplit).2).1
          have hmem : u ∈ t :: u :: us := List.mem_cons_of_mem t List.mem_cons_self
          exact absurd (congrArg Token.kind hu).symm (hbefore u hmem)

end Parse

end Tern
