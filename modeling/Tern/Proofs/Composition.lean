/-
Parsing is compositional: a source put in front of another one, on lines of its own, is parsed
as it would be alone, and so is the other one.

* `Parse.program_follows`: a program is parsed in the same way on a list that agrees with its own
  up to an ending, and what follows the ending is parsed behind it;
* `separate_append`: separators are elided by what stands directly before them;
* `parse_append_lines`: the expressions of two sources with a line feed between them.
-/
import Mathlib.Tactic
import Tern.Proofs.Separation

namespace Tern

namespace Parse

/-! ### One expression after another -/

section Program

variable {n m c : Nat} {ts us mid after rest : List Token} {e : Expr} {es : List Expr}

lemma atEnd_of_eof (h : (front ts).kind = .eof) : AtEnd ts := by
  cases ts with
  | nil => rfl
  | cons t ts =>
      rw [front_cons] at h
      simp [AtEnd, h]

/-- Two lists aligned up to the end of both. -/
def Alignment.relabelled {f : Token → Token} (hf : Token.Faithful f) : Alignment where
  relabel := f
  faithful := hf
  Ending ts us := (front ts).kind = .eof ∧ (front us).kind = .eof
  atEnd h := atEnd_of_eof h.1

lemma Alignment.calm_relabelled {f : Token → Token} (hf : Token.Faithful f) :
    (Alignment.relabelled hf).Calm :=
  fun _ _ hE => ⟨.inl hE.2, fun hsep => absurd (hE.2.symm.trans hsep) (by decide)⟩

lemma expression_passes {least : Level} (h : expression n least ts = .ok (e, rest)) :
    Passes true ts false rest :=
  (Alignment.reads_expression (A := .relabelled Token.Faithful.id) (le_refl n) least).passes h

lemma expression_dropWhile {least : Level} {r : Expr × List Token} :
    expression n least (ts.dropWhile (·.kind = .separator)) = .ok r ↔
      expression n least ts = .ok r := by
  cases n with
  | zero => exact ⟨nofun, nofun⟩
  | succ n =>
      rw [expression_succ, bind_apply, bind_apply, skipSeparators_apply, skipSeparators_apply,
        List.dropWhile_idempotent]

lemma endOfExpr_cases {close : TokenKind} (h : endOfExpr close mid = .ok ((), after)) :
    (∃ t, mid = t :: after ∧ t.kind = .separator) ∨
      (after = mid ∧ ((front mid).kind = close ∨ (front mid).kind = .eof)) := by
  rcases accept_cases (by decide : TokenKind.separator ≠ .eof) mid with
    ⟨t, us, rfl, ht, -⟩ | ⟨hne, -⟩
  · rw [endOfExpr_of_separator ht] at h
    cases h
    exact .inl ⟨t, rfl, ht⟩
  · rw [endOfExpr_of_ne hne] at h
    split at h
    · rename_i hk
      cases h
      exact .inr ⟨rfl, hk⟩
    · cases h

lemma next?_apply : next? n ts =
    if (front (ts.dropWhile (·.kind = .separator))).kind = .eof then
      .ok (none, ts.dropWhile (·.kind = .separator))
    else (expression n 0 >>= fun e => endOfExpr .eof >>= fun _ => pure (some e))
      (ts.dropWhile (·.kind = .separator)) := by
  rw [next?, bind_apply, skipSeparators_apply]
  dsimp only
  rw [bind_apply, check_apply]
  split_ifs with h <;> simp [h]

lemma next?_of_atEnd (h : AtEnd ts) :
    next? n ts = .ok (none, ts.dropWhile (·.kind = .separator)) := by
  rw [next?_apply]
  exact if_pos h

lemma next?_of_expression (he : expression n 0 ts = .ok (e, mid))
    (hend : endOfExpr .eof mid = .ok ((), after)) : next? n ts = .ok (some e, after) := by
  have hne : ¬ (front (ts.dropWhile (·.kind = .separator))).kind = .eof :=
    (expression_passes he).not_atEnd
  rw [next?_apply, if_neg hne]
  exact bind_eq_ok.mpr ⟨e, mid, expression_dropWhile.mpr he, bind_eq_ok.mpr ⟨(), after, hend, rfl⟩⟩

lemma next?_cases {r : Option Expr × List Token} (h : next? n ts = .ok r) :
    (AtEnd ts ∧ r.1 = none) ∨
      ∃ e mid, expression n 0 ts = .ok (e, mid) ∧ endOfExpr .eof mid = .ok ((), r.2) ∧
        r.1 = some e := by
  rw [next?_apply] at h
  split at h
  · rename_i hend
    cases h
    exact .inl ⟨hend, rfl⟩
  · obtain ⟨e, mid, he, h⟩ := bind_eq_ok.mp h
    obtain ⟨_, after, hend, h⟩ := bind_eq_ok.mp h
    cases h
    exact .inr ⟨e, mid, expression_dropWhile.mp he, hend, rfl⟩

/-- What separators stand in front does not matter to a program. -/
lemma program_congr {r : List Expr × List Token}
    (h : ts.dropWhile (·.kind = .separator) = us.dropWhile (·.kind = .separator))
    (hp : program n c ts = .ok r) : program n c us = .ok r := by
  cases c with
  | zero => cases hp
  | succ c =>
      have hnext : next? n ts = next? n us := by
        simp only [next?, bind_apply, skipSeparators_apply, h]
      rwa [program, bind_apply, ← hnext, ← bind_apply]

lemma program_of_atEnd (h : AtEnd ts) :
    program n (c + 1) ts = .ok ([], ts.dropWhile (·.kind = .separator)) := by
  simp only [program, bind_apply, next?_of_atEnd h, pure_apply]

lemma program_of_expression (he : expression n 0 ts = .ok (e, mid))
    (hend : endOfExpr .eof mid = .ok ((), after)) (hp : program n c after = .ok (es, rest)) :
    program n (c + 1) ts = .ok (e :: es, rest) := by
  simp only [program, bind_apply, next?_of_expression he hend, hp, pure_apply]

lemma program_cases (h : program n (c + 1) ts = .ok (es, rest)) :
    (AtEnd ts ∧ es = []) ∨
      ∃ e mid after more, expression n 0 ts = .ok (e, mid) ∧
        endOfExpr .eof mid = .ok ((), after) ∧ program n c after = .ok (more, rest) ∧
        es = e :: more := by
  obtain ⟨r, after, hnext, h⟩ := bind_eq_ok.mp h
  rcases next?_cases hnext with ⟨hend, hr⟩ | ⟨e, mid, he, hend, hr⟩
  · subst hr
    cases h
    exact .inl ⟨hend, rfl⟩
  · subst hr
    obtain ⟨more, last, hp, h⟩ := bind_eq_ok.mp h
    cases h
    exact .inr ⟨e, mid, after, more, he, hend, hp, rfl⟩

/-- What a program takes closes with a token behind which a separator counts; the rest is at
its end. Every expression takes a token. -/
lemma program_passes (h : program n c ts = .ok (es, rest)) :
    ∃ last, Passes false ts false last ∧ AtEnd last ∧ es.length + last.length ≤ ts.length := by
  induction c generalizing ts es with
  | zero => cases h
  | succ c ih =>
      rcases program_cases h with ⟨hend, rfl⟩ | ⟨e, mid, after, more, he, hend, hp, rfl⟩
      · exact ⟨ts, .refl, hend, by simp⟩
      · have hpass := expression_passes he
        have hlt := hpass.length_lt
        obtain ⟨last, hlast, hatEnd, hlength⟩ := ih hp
        rcases endOfExpr_cases hend with ⟨t, rfl, ht⟩ | ⟨rfl, -⟩
        · rw [List.length_cons] at hlt
          cases hlast with
          | refl =>
              -- The separator is the last token but the end.
              refine ⟨t :: after, hpass.of_true, (atEnd_cons ht).mpr hatEnd, ?_⟩
              rw [List.length_cons, List.length_cons]
              omega
          | cons hu hlast =>
              refine ⟨last, hpass.of_true.trans (.cons (by simp [ht]) (.cons hu hlast)), hatEnd, ?_⟩
              rw [List.length_cons]
              omega
        · refine ⟨last, hpass.of_true.trans hlast, hatEnd, ?_⟩
          rw [List.length_cons]
          omega

/-- A program starts with a token that starts an expression, or it is at its end. -/
lemma program_front {r : List Expr × List Token} (h : program n c ts = .ok r) :
    AtEnd ts ∨
      ∃ start, (front (ts.dropWhile (·.kind = .separator))).kind.start? = some start := by
  cases c with
  | zero => cases h
  | succ c =>
      rcases program_cases h with ⟨hend, -⟩ | ⟨e, mid, -, -, he, -⟩
      · exact .inl hend
      · cases n with
        | zero => cases he
        | succ n =>
            rw [expression_succ, bind_apply, skipSeparators_apply] at he
            obtain ⟨t, us, start, hts, -, hs, -⟩ := starting_eq_ok he
            exact .inr ⟨start, by rw [hts, front_cons, hs]⟩

lemma program_front_ne {kind : TokenKind} {r : List Expr × List Token}
    (h : program n c ts = .ok r) (heof : kind ≠ .eof) (hk : kind.start? = none) :
    (front (ts.dropWhile (·.kind = .separator))).kind ≠ kind := by
  rcases program_front h with hend | ⟨start, hs⟩
  · rw [AtEnd] at hend
    rw [hend]
    exact heof.symm
  · rintro rfl
    rw [hk] at hs
    cases hs

/-- **A program is parsed in the same way** on a list that agrees up to an ending, and what
follows the ending is parsed behind it. -/
theorem program_follows {A : Alignment} {k : Nat} {tail : List Expr} (hn : n ≤ m) (hc : A.Calm)
    (htail : ∀ {ts us}, A.Ending ts us → ∃ r, program m k us = .ok (tail, r))
    (hm : A.Match ts us) (h : program n c ts = .ok (es, rest)) :
    ∃ r, program m (es.length + k) us =
      .ok (es.map (·.mapTokens A.relabel) ++ tail, r) := by
  have hclose : ∀ {ts us}, A.Match ts us → AtEnd ts → ∃ r, program m k us = .ok (tail, r) := by
    intro ts us hm hend
    induction hm with
    | ending h => exact htail h
    | @cons t ts us ht hm ih =>
        have hsep : t.kind = .separator := hend.front_kind.resolve_left ht
        obtain ⟨r, hr⟩ := ih ((atEnd_cons hsep).mp hend)
        exact ⟨r, program_congr (by simp [A.faithful.kind, hsep]) hr⟩
  -- Behind the last expression the second list may have lost the separator of the ending.
  have hstate : A.Match ts us ∨ (AtEnd ts ∧ ∃ r, program m k us = .ok (tail, r)) := .inl hm
  clear hm
  induction c generalizing ts us es with
  | zero => cases h
  | succ c ih =>
      rcases program_cases h with ⟨hend, rfl⟩ | ⟨e, mid, after, more, he, hend, hp, rfl⟩
      · rcases hstate with hm | ⟨-, r, hr⟩
        · obtain ⟨r, hr⟩ := hclose hm hend
          exact ⟨r, by simpa using hr⟩
        · exact ⟨r, by simpa using hr⟩
      · have hm : A.Match ts us :=
          hstate.resolve_right fun hs => (expression_passes he).not_atEnd hs.1
        obtain ⟨vs, hv, hmid⟩ := (Alignment.reads_expression hn 0).follows hm he fun _ => hc
        have hrest : ∃ ws, endOfExpr .eof vs = .ok ((), ws) ∧
            (A.Match after ws ∨ (AtEnd after ∧ ∃ r, program m k ws = .ok (tail, r))) := by
          cases hmid with
          | ending hE =>
              have hatEnd := A.atEnd hE
              have hafter : AtEnd after := by
                rcases endOfExpr_cases hend with ⟨t, rfl, ht⟩ | ⟨rfl, -⟩
                · exact (atEnd_cons ht).mp hatEnd
                · exact hatEnd
              obtain ⟨r, hr⟩ := htail hE
              rcases accept_cases (by decide : TokenKind.separator ≠ .eof) vs with
                ⟨t, ws, rfl, ht, -⟩ | ⟨hne, -⟩
              · refine ⟨ws, endOfExpr_of_separator ht ws, .inr ⟨hafter, r, ?_⟩⟩
                exact program_congr (by simp [ht]) hr
              · have hparen : (front vs).kind ≠ .rightParen := by
                  cases vs with
                  | nil => decide
                  | cons t vs =>
                      have hfront :=
                        program_front_ne hr (by decide : TokenKind.rightParen ≠ .eof) rfl
                      rwa [List.dropWhile_cons, if_neg (by simpa using hne)] at hfront
                have heof : (front vs).kind = .eof :=
                  (hc hE).first.resolve_right fun h => h.elim hne hparen
                exact ⟨vs, by rw [endOfExpr_of_ne hne, if_pos (.inl heof)], .inr ⟨hafter, r, hr⟩⟩
          | @cons t ts us ht hmid =>
              rcases endOfExpr_cases hend with ⟨t, heq, hsep⟩ | ⟨-, hk⟩
              · cases heq
                exact ⟨us, endOfExpr_of_separator (by rw [A.faithful.kind, hsep]) us, .inl hmid⟩
              · exact absurd (or_self_iff.mp hk) ht
        obtain ⟨ws, hw, hstate⟩ := hrest
        obtain ⟨r, hr⟩ := ih hp hstate
        refine ⟨r, ?_⟩
        rw [List.length_cons, Nat.add_right_comm]
        exact program_of_expression hv hw hr

end Program

/-! ### A list of tokens behind another one -/

section Join

variable {n c : Nat} {ts us tokens more gap : List Token} {es es' : List Expr}

/-- A program starts with no word of a further branch. -/
lemma program_front_ne_word {r : List Expr × List Token} (h : program n c ts = .ok r) :
    (front (ts.dropWhile (·.kind = .separator))).kind ≠ .elseWord ∧
      (front (ts.dropWhile (·.kind = .separator))).kind ≠ .catchWord :=
  ⟨program_front_ne h (by decide) rfl, program_front_ne h (by decide) rfl⟩

/-- A list that goes on, where the first one ends, with separators and what follows them. -/
def Alignment.followedBy (following : List Token) : Alignment where
  relabel := id
  faithful := Token.Faithful.id
  Ending ts us := AtEnd ts ∧ (front us).kind = .separator ∧
    us.dropWhile (·.kind = .separator) = following.dropWhile (·.kind = .separator)
  atEnd h := h.1

lemma Alignment.calm_followedBy {following : List Token}
    (h : (front (following.dropWhile (·.kind = .separator))).kind ≠ .elseWord ∧
      (front (following.dropWhile (·.kind = .separator))).kind ≠ .catchWord) :
    (Alignment.followedBy following).Calm := by
  intro ts us hE
  refine ⟨.inr (.inl hE.2.1), fun hsep => ?_⟩
  cases us with
  | nil => cases hsep
  | cons t us =>
      obtain ⟨-, ht, hdrop⟩ := hE
      rw [front_cons] at ht
      rw [List.dropWhile_cons, if_pos (by simpa using ht)] at hdrop
      rw [List.tail_cons]
      cases us with
      | nil => simp
      | cons u us =>
          by_cases hu : u.kind = .separator
          · simp [hu]
          · rw [List.dropWhile_cons, if_neg (by simpa using hu)] at hdrop
            rwa [← hdrop] at h

lemma Alignment.Match.append {A : Alignment} {taken : List Token}
    (h : ∀ t ∈ taken, t.kind ≠ .eof) (hm : A.Match ts us) :
    A.Match (taken ++ ts) (taken.map A.relabel ++ us) := by
  induction taken with
  | nil => exact hm
  | cons t taken ih =>
      exact .cons (h t List.mem_cons_self) (ih fun u hu => h u (List.mem_cons_of_mem t hu))

lemma Alignment.match_relabelled {f : Token → Token} (hf : Token.Faithful f) (ts : List Token) :
    (Alignment.relabelled hf).Match ts (ts.map f) := by
  induction ts with
  | nil => exact .ending ⟨rfl, rfl⟩
  | cons t ts ih =>
      by_cases ht : t.kind = .eof
      · exact .ending ⟨ht, by rw [List.map_cons, front_cons, hf.kind, ht]⟩
      · exact .cons ht ih

/-- The end of a list of tokens with one end token: separators and the end token. -/
lemma AtEnd.separators {eof : Token} {seps : List Token}
    (hne : ∀ t ∈ seps, t.kind ≠ .eof) (h : AtEnd (seps ++ [eof])) :
    ∀ t ∈ seps, t.kind = .separator := by
  induction seps with
  | nil => simp
  | cons t seps ih =>
      have ht : t.kind = .separator := h.front_kind.resolve_left (hne t List.mem_cons_self)
      rw [List.cons_append, atEnd_cons ht] at h
      intro u hu
      rcases List.mem_cons.mp hu with rfl | hu
      · exact ht
      · exact ih (fun v hv => hne v (List.mem_cons_of_mem t hv)) h u hu

lemma dropWhile_separators {seps : List Token} (h : ∀ t ∈ seps, t.kind = .separator)
    (ts : List Token) : (seps ++ ts).dropWhile (·.kind = .separator) =
      ts.dropWhile (·.kind = .separator) := by
  induction seps with
  | nil => rfl
  | cons t seps ih =>
      rw [List.cons_append, List.dropWhile_cons, if_pos (by simpa using h t List.mem_cons_self)]
      exact ih fun u hu => h u (List.mem_cons_of_mem t hu)

/-- **Two programs in one list**: separators between them, at least one unless the first list
closes with one, keep them apart. -/
theorem program_join {f : Token → Token} (hf : Token.Faithful f) {n' c' b m : Nat} {eof : Token}
    {rest rest' : List Token} (heof : eof.kind = .eof) (hne : ∀ t ∈ tokens, t.kind ≠ .eof)
    (h : program n c (tokens ++ [eof]) = .ok (es, rest))
    (h' : program n' c' more = .ok (es', rest')) (hgap : ∀ t ∈ gap, t.kind = .separator)
    (hflag : elidesAfter false tokens = false → gap ≠ []) (hn : n ≤ b) (hn' : n' ≤ b)
    (hm : (tokens ++ gap ++ more).length ≤ m) :
    ∃ r, program b (m + 1) (tokens ++ gap ++ more.map f) =
      .ok (es ++ es'.map (·.mapTokens f), r) := by
  -- What the first program takes, and the separators and the end behind it.
  obtain ⟨last, hpass, hlast, hlength⟩ := program_passes h
  obtain ⟨taken, seps, rfl, rfl, hclosed, htakenNe⟩ := hpass.exists_taken_endOf heof
  have hseps : ∀ t ∈ seps, t.kind = .separator :=
    hlast.separators fun t ht => hne t (List.mem_append_right taken ht)
  -- The second program, relabelled, with what is left of the count.
  obtain ⟨last', -, -, hlength'⟩ := program_passes h'
  simp only [List.length_append, List.length_singleton] at hlength hm
  obtain ⟨k, hk⟩ : ∃ k, m + 1 = es.length + (es'.length + (k + 1)) :=
    ⟨m - es.length - es'.length, by omega⟩
  obtain ⟨r', hr'⟩ : ∃ r, program b (es'.length + (k + 1)) (more.map f) =
      .ok (es'.map (·.mapTokens f) ++ [], r) := by
    refine program_follows (A := .relabelled hf) hn' (Alignment.calm_relabelled hf) ?_
      (Alignment.match_relabelled hf more) h'
    intro ts us hE
    exact ⟨_, program_of_atEnd (atEnd_of_eof hE.2)⟩
  rw [List.append_nil] at hr'
  -- The first one, with the separators as its ending.
  have hfront : (front (seps ++ gap ++ more.map f)).kind = .separator := by
    cases seps with
    | cons t seps => exact hseps t List.mem_cons_self
    | nil =>
        rw [List.append_nil] at hflag
        cases gap with
        | nil => exact absurd rfl (hflag hclosed)
        | cons t gap => exact hgap t List.mem_cons_self
  have hdrop : (seps ++ gap ++ more.map f).dropWhile (·.kind = .separator) =
      (more.map f).dropWhile (·.kind = .separator) := by
    rw [List.append_assoc, dropWhile_separators hseps, dropWhile_separators hgap]
  have hmatch : (Alignment.followedBy (more.map f)).Match
      (taken ++ (seps ++ [eof])) (taken.map id ++ (seps ++ gap ++ more.map f)) :=
    Alignment.Match.append htakenNe (.ending ⟨hlast, hfront, hdrop⟩)
  rw [List.append_assoc] at h
  have htail : ∀ {ts us}, (Alignment.followedBy (more.map f)).Ending ts us →
      ∃ r, program b (es'.length + (k + 1)) us = .ok (es'.map (·.mapTokens f), r) :=
    fun hE => ⟨r', program_congr hE.2.2.symm hr'⟩
  have hcalm := Alignment.calm_followedBy (program_front_ne_word hr')
  obtain ⟨r, hr⟩ := program_follows hn hcalm htail hmatch h
  refine ⟨r, ?_⟩
  rw [hk]
  simpa [Alignment.followedBy, Expr.mapTokens_id] using hr

end Join

end Parse

/-! ### A source behind another one -/

section Sources

open Parse Scan

variable {source text s₁ s₂ : String} {es es₁ es₂ : List Expr}

lemma parseTokens_endOf (ts : List Token) (line : Nat) :
    parseTokens (ts ++ [Token.endOf source line]) =
      (program (ts.length + 2) (ts.length + 2) (ts ++ [Token.endOf source line])).map (·.1) := by
  have hclosed : closed (ts ++ [Token.endOf source line]) = ts ++ [Token.endOf source line] := by
    rw [closed, List.getLast?_concat]
    rfl
  simp [parseTokens, hclosed, budgetFor]

/-- Tokens that are one expression up to the end token. -/
lemma parseTokens_of_single {ts : List Token} {line : Nat} {e : Expr}
    (h : expression (ts.length + 2) 0 (ts ++ [Token.endOf source line]) =
      .ok (e, [Token.endOf source line])) :
    parseTokens (ts ++ [Token.endOf source line]) = .ok [e] := by
  have hend : endOfExpr .eof [Token.endOf source line] = .ok ((), [Token.endOf source line]) :=
    rfl
  rw [parseTokens_endOf, program_of_expression h hend (program_of_atEnd (by rfl))]
  rfl

lemma scan_of_reaches {raw : List Token} {later : Nat}
    (h : Reaches source 1 text.toList raw later []) :
    scan source text = (raw ++ [Token.endOf source later]).map .ok :=
  itemsFrom_of_reaches (le_refl _) h

lemma tokensOf_of_reaches {raw : List Token} {later : Nat}
    (h : Reaches source 1 text.toList raw later []) :
    tokensOf source text = .ok (separate false raw ++ [Token.endOf source later]) := by
  rw [tokensOf, scan_of_reaches h, separated, separatedFrom_map_ok, separate_endOf, collect_map_ok]

lemma parse_of_reaches {raw : List Token} {later : Nat}
    (h : Reaches source 1 text.toList raw later []) :
    parse source text = parseTokens (separate false raw ++ [Token.endOf source later]) :=
  parse_of_tokensOf (tokensOf_of_reaches h)

lemma reaches_of_tokensOf {tokens : List Token} (h : tokensOf source text = .ok tokens) :
    ∃ raw later, Reaches source 1 text.toList raw later [] := by
  obtain ⟨raw, hraw⟩ := eq_map_ok_of_collect h
  obtain ⟨init, later, -, hr⟩ := reaches_of_itemsFrom (le_refl _) hraw
  exact ⟨init, later, hr⟩

/-- A source that is parsed has been scanned without errors. -/
lemma reaches_of_parse (h : parse source text = .ok es) :
    ∃ raw later, Reaches source 1 text.toList raw later [] := by
  cases ht : tokensOf source text with
  | error e =>
      rw [parse, ht] at h
      cases h
  | ok tokens => exact reaches_of_tokensOf ht

/-- The program that a source without lexical errors is. -/
lemma program_of_parse {raw : List Token} {later : Nat}
    (hr : Reaches source 1 text.toList raw later []) (h : parse source text = .ok es) :
    ∃ rest, program ((separate false raw).length + 2) ((separate false raw).length + 2)
      (separate false raw ++ [Token.endOf source later]) = .ok (es, rest) := by
  rw [parse_of_reaches hr, parseTokens_endOf] at h
  generalize program _ _ _ = result at h ⊢
  cases result with
  | error e => cases h
  | ok out =>
      cases h
      exact ⟨out.2, rfl⟩

lemma lastWord?_scan {raw : List Token} {later : Nat}
    (h : Reaches source 1 text.toList raw later []) :
    lastWord? ((scan source text).filterMap Except.toOption) = lastWord? raw := by
  rw [scan_of_reaches h, List.filterMap_map]
  have hcomp : Except.toOption ∘ (Except.ok : Token → Except SourceError Token) = some := rfl
  rw [hcomp, List.filterMap_some, lastWord?, List.filter_append]
  simp [lastWord?, Token.endOf]

/-- The tokens of two texts with a line feed between them: those of the first, a separator
unless it is swallowed, and those of the second further down. -/
lemma reaches_join {raw raw' : List Token} {later later' : Nat}
    (h : Reaches source 1 s₁.toList raw later []) (h' : Reaches source 1 s₂.toList raw' later' [])
    (hcont : continued false raw = false) :
    ∃ joined k gap, Reaches source 1 (s₁ ++ "\n" ++ s₂).toList joined (later' + k) [] ∧
      separate false joined = separate false raw ++ gap ++ (separate true raw').map (.shift k) ∧
      (∀ t ∈ gap, t.kind = .separator) ∧
      (elidesAfter false (separate false raw) = false → gap ≠ []) := by
  have hswallows : swallows false raw = elidesAfter false (separate false raw) :=
    swallows_eq (fun _ => rfl) (fun h => absurd h (by decide)) hcont
  have htext : (s₁ ++ "\n" ++ s₂).toList = s₁.toList ++ '\n' :: s₂.toList := by simp
  rcases h.append_lineFeed s₂.toList with hr | ⟨⟨init, t, rfl, ht⟩, hr⟩
  · have hr' := h'.shift later
    rw [Nat.add_comm 1] at hr'
    refine ⟨_, later, if swallows false raw then [] else [⟨.separator, "\n", none, later, source⟩],
      by rw [htext]; exact hr.trans hr', ?_, ?_, ?_⟩
    · rw [List.append_assoc, List.singleton_append, separate_newline _ _ _ rfl, separate_shift]
    · intro t ht
      split at ht
      · cases ht
      · rw [List.mem_singleton.mp ht]
    · intro hf
      rw [hswallows, hf]
      simp
  · have hline := h.line_le
    have hr' := h'.shift (later - 1)
    rw [Nat.add_sub_cancel' hline] at hr'
    have hlast := swallows_newline false init ht
    refine ⟨_, later - 1, [], by rw [htext]; exact hr.trans hr', ?_, by simp, ?_⟩
    · rw [separate_append, hlast, separate_shift, List.append_nil]
    · intro hf
      rw [hswallows, hf] at hlast
      cases hlast

/-- **Parsing is compositional.** A source and, on the lines behind it, another one are parsed as
each of them is alone, unless a continuation mark at the end of the first joins them. -/
theorem parse_append_lines (h₁ : parse source s₁ = .ok es₁) (h₂ : parse source s₂ = .ok es₂)
    (hlast : ∀ t, lastWord? ((scan source s₁).filterMap Except.toOption) = some t →
      t.kind ≠ .continuation) :
    ∃ k es, parse source (s₁ ++ "\n" ++ s₂) = .ok es ∧
      es = es₁ ++ es₂.map (·.mapTokens (.shift k)) ∧
      es.map Expr.print = es₁.map Expr.print ++ es₂.map Expr.print := by
  obtain ⟨raw, later, hr⟩ := reaches_of_parse h₁
  obtain ⟨raw', later', hr'⟩ := reaches_of_parse h₂
  obtain ⟨rest, hp⟩ := program_of_parse hr h₁
  obtain ⟨rest', hp'⟩ := program_of_parse hr' h₂
  have hne : ∀ t ∈ raw, t.kind ≠ .eof := fun t ht => (hr.kind_ne t ht).1
  have hcont : continued false raw = false := by
    rw [lastWord?_scan hr] at hlast
    exact continued_eq_false hne hlast
  obtain ⟨joined, k, gap, hjoined, hsep, hgap, hflag⟩ := reaches_join hr hr' hcont
  -- The second program, without a separator in front.
  have hmore : program ((separate false raw').length + 2) ((separate false raw').length + 2)
      (separate true raw' ++ [Token.endOf source later']) = .ok (es₂, rest') := by
    refine program_congr ?_ hp'
    rw [← separate_endOf, ← separate_endOf]
    exact dropWhile_separate _
  have hlength := congrArg List.length hsep
  have hlength' := length_separate_le raw'
  simp only [List.length_append, List.length_map] at hlength
  have htokens : separate false joined ++ [Token.endOf source (later' + k)] =
      separate false raw ++ gap ++
        (separate true raw' ++ [Token.endOf source later']).map (.shift k) := by
    rw [hsep, List.map_append]
    simp [Token.shift, Token.endOf]
  have hgapLength : (separate false raw).length + gap.length ≠ 0 := by
    intro h0
    have hnil : separate false raw = [] := List.length_eq_zero_iff.mp (by omega)
    refine hflag (by rw [hnil]; rfl) (List.length_eq_zero_iff.mp (by omega))
  have heof : (Token.endOf source later).kind = .eof := rfl
  obtain ⟨r, hjoin⟩ := program_join (Token.faithful_shift k) heof
    (kind_ne_eof_of_mem_separate hne) hp hmore hgap hflag
    (b := (separate false joined).length + 2) (m := (separate false joined).length + 1)
    (by omega) (by omega) (by simp only [List.length_append, List.length_singleton]; omega)
  refine ⟨k, _, ?_, rfl, ?_⟩
  · rw [parse_of_reaches hjoined, parseTokens_endOf, htokens, hjoin]
    rfl
  · rw [List.map_append, List.map_map]
    congr 1
    exact List.map_congr_left fun e _ => Expr.print_mapTokens _ e

/-- A branch does not look for its other side beyond the line of its own source, and a sign at
the beginning of a source is none of the source before. -/
theorem parse_append_lines_branch :
    ∃ es₁ es₂ k es, parse "<test>" "if a b" = .ok es₁ ∧ parse "<test>" "-c" = .ok es₂ ∧
      parse "<test>" ("if a b" ++ "\n" ++ "-c") = .ok es ∧
      es = es₁ ++ es₂.map (·.mapTokens (.shift k)) ∧
      es.map Expr.print = es₁.map Expr.print ++ es₂.map Expr.print := by
  have h₁ : parse "<test>" "if a b" = .ok
      [.node ⟨⟨.ifWord, "if", none, 1, "<test>"⟩, []⟩
        (.branch (.node ⟨⟨.identifier, "a", none, 1, "<test>"⟩, []⟩ (.name "a"))
          (.node ⟨⟨.identifier, "b", none, 1, "<test>"⟩, []⟩ (.name "b")))] := by
    have htokens : tokensOf "<test>" "if a b" = .ok
        [⟨.ifWord, "if", none, 1, "<test>"⟩, ⟨.identifier, "a", none, 1, "<test>"⟩,
          ⟨.identifier, "b", none, 1, "<test>"⟩, .endOf "<test>" 1] := rfl
    exact (parse_of_tokensOf htokens).trans rfl
  have h₂ : parse "<test>" "-c" = .ok
      [.node ⟨⟨.minus, "-", none, 1, "<test>"⟩, []⟩
        (.unary .negate (.node ⟨⟨.identifier, "c", none, 1, "<test>"⟩, []⟩ (.name "c")))] := by
    have htokens : tokensOf "<test>" "-c" = .ok
        [⟨.minus, "-", none, 1, "<test>"⟩, ⟨.identifier, "c", none, 1, "<test>"⟩,
          .endOf "<test>" 1] := rfl
    exact (parse_of_tokensOf htokens).trans rfl
  have hword : lastWord? ((scan "<test>" "if a b").filterMap Except.toOption) =
      some ⟨.identifier, "b", none, 1, "<test>"⟩ :=
    rfl
  obtain ⟨k, es, h⟩ := parse_append_lines h₁ h₂ (by
    intro t ht
    rw [hword] at ht
    cases ht
    decide)
  exact ⟨_, _, k, es, h₁, h₂, h⟩

end Sources

end Tern
