/-
Which separators are left. On a stream without errors, what a separator means depends on the
token before it only: the flag that is carried along tells whether that token swallows it.

* `separate`: the tokens that are parsed, for a stream without errors;
* `swallows`: the flag behind a stream; `separate_append` joins two streams by it;
* `swallows_eq`: unless a continuation mark comes last, the flag is that of the last token left.
-/
import Mathlib.Tactic
import Tern.Proofs.Aligned
import Tern.Proofs.Scanning

namespace Tern

lemma TokenKind.eq_of_unified {kind : TokenKind} (h : kind.unified ≠ .separator) :
    kind.unified = kind := by
  cases kind <;> first | rfl | exact absurd rfl h

/-! ### Streams without errors -/

/-- The tokens that are parsed, given whether a separator at the front would mean nothing. -/
def separate : Bool → List Token → List Token
  | _, [] => []
  | elide, t :: rest =>
    if t.kind.isTrivia then separate elide rest
    else if (t.kind.unified = .separator ∧ elide) ∨ t.kind.unified = .continuation then
      separate t.kind.unified.elides rest
    else { t with kind := t.kind.unified } :: separate t.kind.unified.elides rest

/-- Whether a separator behind a stream would mean nothing, given whether one in front would. -/
def swallows : Bool → List Token → Bool
  | elide, [] => elide
  | elide, t :: rest =>
    if t.kind.isTrivia then swallows elide rest else swallows t.kind.unified.elides rest

section

variable {ε : Type}

lemma separatedFrom_ok (elide : Bool) (t : Token) (rest : List (Except ε Token)) :
    separatedFrom elide (.ok t :: rest) =
      if t.kind.isTrivia then separatedFrom elide rest
      else if (t.kind.unified = .separator ∧ elide) ∨ t.kind.unified = .continuation then
        separatedFrom t.kind.unified.elides rest
      else .ok { t with kind := t.kind.unified } :: separatedFrom t.kind.unified.elides rest := by
  rw [separatedFrom]

lemma separatedFrom_map_ok (elide : Bool) (raw : List Token) :
    separatedFrom elide (raw.map .ok : List (Except ε Token)) = (separate elide raw).map .ok := by
  induction raw generalizing elide with
  | nil => rfl
  | cons t raw ih =>
      rw [List.map_cons, separatedFrom_ok, separate]
      split_ifs with htrivia hgone
      · exact ih elide
      · exact ih _
      · rw [List.map_cons, ← ih]

@[simp]
lemma collect_map_ok (tokens : List Token) :
    collect (tokens.map .ok : List (Except ε Token)) = .ok tokens := by
  induction tokens with
  | nil => rfl
  | cons t tokens ih =>
      rw [List.map_cons, collect, ih]
      rfl

/-- An error stays in the stream. -/
lemma eq_map_ok_of_collect {elide : Bool} {raw : List (Except ε Token)} {tokens : List Token}
    (h : collect (separatedFrom elide raw) = .ok tokens) :
    ∃ init : List Token, raw = init.map .ok := by
  induction raw generalizing elide tokens with
  | nil => exact ⟨[], rfl⟩
  | cons r raw ih =>
      cases r with
      | error e => cases h
      | ok t =>
          have hrest : ∃ elide tokens, collect (separatedFrom elide raw) = .ok tokens := by
            rw [separatedFrom_ok] at h
            split_ifs at h with htrivia hgone
            · exact ⟨_, _, h⟩
            · exact ⟨_, _, h⟩
            · rw [collect] at h
              cases hc : collect (separatedFrom t.kind.unified.elides raw) with
              | error e =>
                  rw [hc] at h
                  cases h
              | ok rest => exact ⟨_, rest, hc⟩
          obtain ⟨_, _, hrest⟩ := hrest
          obtain ⟨init, rfl⟩ := ih hrest
          exact ⟨t :: init, rfl⟩

end

/-! ### Two streams behind each other -/

lemma separate_append (elide : Bool) (raw more : List Token) :
    separate elide (raw ++ more) = separate elide raw ++ separate (swallows elide raw) more := by
  induction raw generalizing elide with
  | nil => rfl
  | cons t raw ih =>
      rw [List.cons_append, separate, separate, swallows]
      split_ifs with htrivia hgone
      · exact ih elide
      · exact ih _
      · rw [ih, List.cons_append]

lemma swallows_append (elide : Bool) (raw more : List Token) :
    swallows elide (raw ++ more) = swallows (swallows elide raw) more := by
  induction raw generalizing elide with
  | nil => rfl
  | cons t raw ih =>
      rw [List.cons_append, swallows, swallows]
      split_ifs <;> exact ih _

lemma separate_shift (k : Nat) (elide : Bool) (raw : List Token) :
    separate elide (raw.map (.shift k)) = (separate elide raw).map (.shift k) := by
  induction raw generalizing elide with
  | nil => rfl
  | cons t raw ih =>
      rw [List.map_cons, separate, separate, (Token.faithful_shift k).kind]
      split_ifs with htrivia hgone
      · exact ih elide
      · exact ih _
      · rw [List.map_cons, ih]
        rfl

/-- Separators in front apart, the flag in front of a stream does not matter. -/
lemma dropWhile_separate (raw : List Token) :
    (separate false raw).dropWhile (·.kind = .separator) =
      (separate true raw).dropWhile (·.kind = .separator) := by
  induction raw with
  | nil => rfl
  | cons t raw ih =>
      rw [separate, separate]
      by_cases htrivia : t.kind.isTrivia
      · rwa [if_pos htrivia, if_pos htrivia]
      · rw [if_neg htrivia, if_neg htrivia]
        by_cases hsep : t.kind.unified = .separator
        · rw [if_neg (by simp [hsep]), if_pos (.inl ⟨hsep, rfl⟩)]
          simp [hsep]
        · simp [hsep]

lemma length_separate_le (raw : List Token) :
    (separate false raw).length ≤ (separate true raw).length + 1 := by
  induction raw with
  | nil => simp [separate]
  | cons t raw ih =>
      rw [separate, separate]
      by_cases htrivia : t.kind.isTrivia
      · rwa [if_pos htrivia, if_pos htrivia]
      · rw [if_neg htrivia, if_neg htrivia]
        by_cases hsep : t.kind.unified = .separator
        · rw [if_neg (by simp [hsep]), if_pos (.inl ⟨hsep, rfl⟩), List.length_cons]
        · simp [hsep]

/-- A line end between two streams is a separator unless it is swallowed, and swallows those
behind it. -/
lemma separate_newline (elide : Bool) (raw more : List Token) {t : Token}
    (ht : t.kind = .newline) :
    separate elide (raw ++ t :: more) = separate elide raw ++
      (if swallows elide raw then [] else [{ t with kind := .separator }]) ++
        separate true more := by
  rw [separate_append, separate, List.append_assoc]
  cases swallows elide raw <;> simp [ht, TokenKind.isTrivia, TokenKind.unified, TokenKind.elides]

lemma swallows_newline (elide : Bool) (raw : List Token) {t : Token} (ht : t.kind = .newline) :
    swallows elide (raw ++ [t]) = true := by
  rw [swallows_append, swallows, ht]
  rfl

lemma separate_endOf (elide : Bool) (raw : List Token) (source : String) (line : Nat) :
    separate elide (raw ++ [Token.endOf source line]) =
      separate elide raw ++ [Token.endOf source line] := by
  rw [separate_append]
  rfl

/-- The tokens that are left are raw tokens under the kind under which they go on. -/
lemma exists_of_mem_separate {elide : Bool} {raw : List Token} {t : Token}
    (h : t ∈ separate elide raw) : ∃ u ∈ raw, t = { u with kind := u.kind.unified } := by
  induction raw generalizing elide with
  | nil => cases h
  | cons u raw ih =>
      have hrest : ∀ {elide}, t ∈ separate elide raw →
          ∃ v ∈ u :: raw, t = { v with kind := v.kind.unified } := by
        intro elide ht
        obtain ⟨v, hv, heq⟩ := ih ht
        exact ⟨v, List.mem_cons_of_mem u hv, heq⟩
      rw [separate] at h
      split_ifs at h
      · exact hrest h
      · exact hrest h
      · rcases List.mem_cons.mp h with rfl | h
        · exact ⟨u, List.mem_cons_self, rfl⟩
        · exact hrest h

lemma kind_ne_eof_of_mem_separate {elide : Bool} {raw : List Token}
    (h : ∀ t ∈ raw, t.kind ≠ .eof) : ∀ t ∈ separate elide raw, t.kind ≠ .eof := by
  intro t ht heof
  obtain ⟨u, hu, rfl⟩ := exists_of_mem_separate ht
  have hkind : u.kind.unified = .eof := heof
  have hsame := TokenKind.eq_of_unified (by rw [hkind]; decide : u.kind.unified ≠ .separator)
  exact h u hu (hsame.symm.trans hkind)

/-! ### The last token -/

/-- Whether a token stands between expressions: blanks, comments, line ends and semicolons. -/
def TokenKind.isGap (kind : TokenKind) : Bool := kind.isTrivia || kind.unified = .separator

/-- Whether the last token other than gaps is a continuation mark. -/
def continued : Bool → List Token → Bool
  | last, [] => last
  | last, t :: rest =>
    if t.kind.isGap then continued last rest else continued (t.kind = .continuation) rest

/-- Whether the last of some tokens swallows a separator behind it. -/
def elidesAfter : Bool → List Token → Bool
  | elide, [] => elide
  | _, t :: ts => elidesAfter t.kind.elides ts

/-- The flag is that of the last token left, and set behind a continuation mark. -/
lemma swallows_eq {elide after last : Bool} {raw : List Token}
    (hlast : last = false → elide = after) (hcont : last = true → elide = true)
    (h : continued last raw = false) :
    swallows elide raw = elidesAfter after (separate elide raw) := by
  induction raw generalizing elide after last with
  | nil => exact hlast h
  | cons t raw ih =>
      rw [swallows, separate]
      rw [continued] at h
      by_cases htrivia : t.kind.isTrivia
      · rw [if_pos htrivia, if_pos htrivia]
        rw [if_pos (by simp [TokenKind.isGap, htrivia])] at h
        exact ih hlast hcont h
      · rw [if_neg htrivia, if_neg htrivia]
        by_cases hsep : t.kind.unified = .separator
        · rw [if_pos (by simp [TokenKind.isGap, hsep])] at h
          cases elide with
          | true =>
              rw [if_pos (.inl ⟨hsep, rfl⟩), hsep]
              exact ih (fun hl => hlast hl) (fun _ => rfl) h
          | false =>
              have hl : last = false := by
                cases last with
                | false => rfl
                | true => exact absurd (hcont rfl) (by decide)
              rw [if_neg (by simp [hsep]), elidesAfter]
              exact ih (fun _ => rfl) (fun ht => absurd (hl.symm.trans ht) (by decide)) h
        · rw [if_neg (by simp [TokenKind.isGap, hsep, htrivia])] at h
          by_cases hc : t.kind = .continuation
          · have hu : t.kind.unified = .continuation := by rw [hc]; rfl
            rw [if_pos (.inr hu), hu]
            exact ih (by simp [hc]) (fun _ => rfl) h
          · have hu : t.kind.unified ≠ .continuation := by
              rwa [TokenKind.eq_of_unified hsep]
            rw [if_neg (by simp [hsep, hu]), elidesAfter]
            exact ih (fun _ => rfl) (by simp [hc]) h

/-- The last of some tokens other than gaps and end tokens. -/
def lastWord? (raw : List Token) : Option Token :=
  (raw.filter fun t => !t.kind.isGap && t.kind ≠ .eof).getLast?

lemma continued_eq_false {raw : List Token} (hne : ∀ t ∈ raw, t.kind ≠ .eof)
    (h : ∀ t, lastWord? raw = some t → t.kind ≠ .continuation) : continued false raw = false := by
  have hcont : ∀ last, continued last raw = true →
      (∃ t, lastWord? raw = some t ∧ t.kind = .continuation) ∨
        (last = true ∧ lastWord? raw = none) := by
    clear h
    induction raw with
    | nil => exact fun last h => .inr ⟨h, rfl⟩
    | cons t raw ih =>
        have hraw : ∀ u ∈ raw, u.kind ≠ .eof := fun u hu => hne u (List.mem_cons_of_mem t hu)
        have ht : t.kind ≠ .eof := hne t List.mem_cons_self
        intro last h
        rw [continued] at h
        by_cases hgap : t.kind.isGap
        · rw [if_pos hgap] at h
          have hlast : lastWord? (t :: raw) = lastWord? raw := by
            simp [lastWord?, hgap]
          rw [hlast]
          exact ih hraw last h
        · rw [if_neg hgap] at h
          have hlast : lastWord? (t :: raw) = some ((lastWord? raw).getD t) := by
            rw [lastWord?, List.filter_cons, if_pos (by simp [hgap, ht]), List.getLast?_cons]
            rfl
          rw [hlast]
          refine .inl ⟨_, rfl, ?_⟩
          rcases ih hraw _ h with ⟨u, hu, hk⟩ | ⟨hk, hnone⟩
          · simpa [hu] using hk
          · simpa [hnone] using hk
  cases hc : continued false raw with
  | false => rfl
  | true =>
      rcases hcont false hc with ⟨t, ht, hk⟩ | ⟨hfalse, -⟩
      · exact absurd hk (h t ht)
      · cases hfalse

/-- What is passed is taken off the front. -/
lemma Parse.Passes.exists_taken {elide later : Bool} {ts rest : List Token}
    (h : Passes elide ts later rest) :
    ∃ taken, ts = taken ++ rest ∧ elidesAfter elide taken = later ∧
      ∀ t ∈ taken, t.kind ≠ .eof := by
  induction h with
  | refl => exact ⟨[], rfl, rfl, by simp⟩
  | @cons elide later t ts rest ht h ih =>
      obtain ⟨taken, rfl, hlater, hne⟩ := ih
      exact ⟨t :: taken, rfl, hlater, by simpa [ht] using hne⟩

/-- What is passed of a list with an end token at its end, and what is left in front of that. -/
lemma Parse.Passes.exists_taken_endOf {elide later : Bool} {ts rest : List Token} {eof : Token}
    (heof : eof.kind = .eof) (h : Passes elide (ts ++ [eof]) later rest) :
    ∃ taken left, ts = taken ++ left ∧ rest = left ++ [eof] ∧ elidesAfter elide taken = later ∧
      ∀ t ∈ taken, t.kind ≠ .eof := by
  obtain ⟨taken, htaken, hlater, hne⟩ := h.exists_taken
  rcases List.append_eq_append_iff.mp htaken with ⟨a, ha, hrest⟩ | ⟨left, hts, hrest⟩
  · cases a with
    | nil => exact ⟨taken, [], by simp [ha], by simpa using hrest.symm, hlater, hne⟩
    | cons t a =>
        have ht : t = eof := (List.cons.inj hrest).1.symm
        exact absurd heof (hne eof (by simp [ha, ht]))
  · exact ⟨taken, left, hts, hrest, hlater, hne⟩

end Tern
