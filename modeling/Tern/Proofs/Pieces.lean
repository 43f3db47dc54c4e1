/-
Texts piece by piece. What stands in front of a blank, of a sign or of a closing parenthesis is
scanned as it would be alone, unless it ends in a comment that goes on to the end of the line; so
the tokens of a text are those of its pieces one after the other.

* `Scan.Reaches.append`, `Scan.Reaches.append_blank`: the tokens of a text in front of more text;
* `Scan.Lexes`: the tokens that are parsed, from a place in a text to its end;
* `Scan.Lexes.behind`, `Scan.Lexes.sign`, `Scan.Lexes.closing`: such tokens put together.
-/
import Mathlib.Tactic
import Tern.Proofs.Scanning
import Tern.Proofs.Separation

namespace Tern

/-! ### Texts on one line -/

/-- A comment that goes up to the end of its line. -/
def Token.isLineComment (t : Token) : Bool :=
  t.kind = .comment && ['/', '/'].isPrefixOf t.lexeme.toList

namespace Scan

/-- Whether the last token of a text is a comment that would go on with more text behind it. -/
def endsInLineComment (source text : String) : Bool :=
  match (scan source text).dropLast.getLast? with
  | some (.ok t) => t.isLineComment
  | _ => false

section Blank

variable {source : String} {line later : Nat} {cs more : List Char} {raw : List Token}

/-- Streams of which the same tokens are parsed. -/
def SameWords (raw raw' : List Token) : Prop :=
  ∀ elide, separate elide raw = separate elide raw' ∧ swallows elide raw = swallows elide raw'

lemma SameWords.cons {raw raw' : List Token} (t : Token) (h : SameWords raw raw') :
    SameWords (t :: raw) (t :: raw') := by
  intro elide
  rw [separate, separate, swallows, swallows]
  simp only [(h _).1, (h _).2, and_self]

lemma sameWords_trivia {t : Token} (ht : t.kind.isTrivia = true) (raw : List Token) :
    SameWords (t :: raw) raw := by
  intro elide
  rw [separate, swallows, if_pos ht, if_pos ht]
  exact ⟨rfl, rfl⟩

lemma SameWords.trans {raw₁ raw₂ raw₃ : List Token} (h₁ : SameWords raw₁ raw₂)
    (h₂ : SameWords raw₂ raw₃) : SameWords raw₁ raw₃ :=
  fun elide => ⟨(h₁ elide).1.trans (h₂ elide).1, (h₁ elide).2.trans (h₂ elide).2⟩

lemma SameWords.symm {raw₁ raw₂ : List Token} (h : SameWords raw₁ raw₂) : SameWords raw₂ raw₁ :=
  fun elide => ⟨(h elide).1.symm, (h elide).2.symm⟩

/-- Only a comment up to the end of the line starts with two slashes. -/
lemma isLineComment_of_slashes {c : Char} {kind : TokenKind} {literal : Option Literal}
    (h : c = '/' ∧ cs.head? = some '/') (hfound : (step c cs).found = .ok (kind, literal)) :
    (⟨kind, lexeme kind (step c cs).stretch, literal, line, source⟩ : Token).isLineComment =
      true := by
  obtain ⟨rfl, hcs⟩ := h
  obtain ⟨r, rfl⟩ := List.head?_eq_some_iff.mp hcs
  cases hfound
  simp [Token.isLineComment, step, scanSlash, Step.plain, lexeme]

/-- Scanning in front of a character that nothing goes on with but a comment. -/
lemma Reaches.append (h : Reaches source line cs raw later []) {d : Char} (hd : Stop d)
    (hspace : isSpace d = false) (hfeed : d ≠ '\n')
    (hline : ∀ t, raw.getLast? = some t → t.isLineComment = false) :
    Reaches source line (cs ++ d :: more) raw later (d :: more) := by
  generalize hrest : ([] : List Char) = rest at h
  induction h with
  | refl =>
      subst hrest
      exact .refl
  | @next line later c cs rest kind literal raw h hr ih =>
      have hline' : ∀ t, raw.getLast? = some t → t.isLineComment = false := by
        intro t ht
        exact hline t (by rw [List.getLast?_cons, ht]; rfl)
      have hopen : goesOn d c cs = true → (step c cs).rest ≠ [] := by
        intro hgoes hnil
        rw [hnil] at hr
        cases hr
        simp only [goesOn, hspace, Bool.and_false, Bool.false_or, Bool.and_eq_true,
          decide_eq_true_eq] at hgoes
        exact absurd (hline _ rfl) (by simp [isLineComment_of_slashes hgoes.1 h])
      have happ : step c (cs ++ d :: more) = (step c cs).behind (d :: more) :=
        step_append hd ⟨_, h⟩ hopen fun _ _ => hfeed
      have hs := @Reaches.next source line later c (cs ++ d :: more) (d :: more) kind literal raw
        (by rw [happ]; exact h) (by rw [happ]; exact ih hline' hrest)
      rwa [happ] at hs

/-- **Scanning in front of a blank**: a text that ends in no comment up to the end of the line is
scanned as it would be alone, and the blank is part of blanks at its end or a token of its own. -/
theorem Reaches.append_blank (h : Reaches source line cs raw later [])
    (hline : ∀ t, raw.getLast? = some t → t.isLineComment = false)
    (hmore : ∀ c ∈ more.head?, isSpace c = false) :
    ∃ raw', Reaches source line (cs ++ ' ' :: more) raw' later more ∧ SameWords raw' raw := by
  have hnone : more.takeWhile isSpace = [] ∧ more.dropWhile isSpace = more := by
    cases more with
    | nil => exact ⟨rfl, rfl⟩
    | cons c more =>
        have hc : isSpace c = false := hmore c rfl
        simp [hc]
  generalize hrest : ([] : List Char) = rest at h
  induction h with
  | @refl line cs =>
      subst hrest
      have hstep : step ' ' more = .plain .whitespace [' '] more := by
        rw [step_of_isSpace rfl, hnone.1, hnone.2]
      have hfound : (step ' ' more).found = .ok (.whitespace, none) := by rw [hstep]; rfl
      exact ⟨_, .next hfound (by rw [hstep]; exact .refl), sameWords_trivia rfl []⟩
  | @next line later c cs rest kind literal raw h hr ih =>
      by_cases hopen : goesOn ' ' c cs = true ∧ (step c cs).rest = []
      · -- The last token is blanks, which the blank is added to.
        obtain ⟨hopen, hnil⟩ := hopen
        rw [hnil] at hr
        have hlast : raw = [] ∧ later = line + (step c cs).breaks := by
          cases hr
          exact ⟨rfl, rfl⟩
        obtain ⟨rfl, rfl⟩ := hlast
        by_cases hc : isSpace c = true
        · have hall : ∀ a ∈ cs, isSpace a = true := by
            rw [step_of_isSpace hc] at hnil
            exact List.dropWhile_eq_nil_iff.mp hnil
          have hdrop : (cs ++ ' ' :: more).dropWhile isSpace = more := by
            rw [List.dropWhile_append_of_pos hall, List.dropWhile_cons_of_pos (by rfl), hnone.2]
          have hstep := step_of_isSpace hc (cs ++ ' ' :: more)
          rw [hdrop] at hstep
          have hfound : (step c (cs ++ ' ' :: more)).found = .ok (.whitespace, none) := by
            rw [hstep]
            rfl
          have hnext := @Reaches.next source line line c (cs ++ ' ' :: more) more .whitespace none
            [] hfound (by rw [hstep]; exact .refl)
          rw [step_of_isSpace hc] at h ⊢
          cases h
          exact ⟨_, hnext, (sameWords_trivia rfl []).trans (sameWords_trivia rfl []).symm⟩
        · -- A comment up to the end of the line is excluded.
          simp only [goesOn, Bool.eq_false_iff.mpr hc, Bool.false_and, Bool.false_or,
            Bool.and_eq_true, decide_eq_true_eq] at hopen
          exact absurd (hline _ rfl) (by simp [isLineComment_of_slashes hopen.1 h])
      · have happ : step c (cs ++ ' ' :: more) = (step c cs).behind (' ' :: more) :=
          step_append ⟨rfl, by decide⟩ ⟨_, h⟩ (not_and.mp hopen) fun _ _ => by decide
        have hline' : ∀ t, raw.getLast? = some t → t.isLineComment = false := by
          intro t ht
          refine hline t ?_
          rw [List.getLast?_cons, ht]
          rfl
        obtain ⟨raw', hr', hsame⟩ := ih hline' hrest
        have hs := @Reaches.next source line later c (cs ++ ' ' :: more) more kind literal
          raw' (by rw [happ]; exact h) (by rw [happ]; exact hr')
        rw [happ] at hs
        exact ⟨_, hs, hsame.cons _⟩

end Blank

/-! ### Pieces of a text -/

/-- From a line on, a text is scanned without errors up to its end on a later line, and its tokens
that are parsed are known; the flag tells whether a separator in front would mean nothing. -/
def Lexes (source : String) (line : Nat) (elide : Bool) (cs : List Char) (ts : List Token)
    (later : Nat) : Prop :=
  ∃ raw, Reaches source line cs raw later [] ∧ separate elide raw = ts

/-- Signs and parentheses, which are parsed as they are scanned. -/
def isSign (kind : TokenKind) : Bool :=
  !kind.isTrivia && kind.unified ≠ .separator && kind ≠ .continuation

namespace Lexes

variable {source : String} {line later mid : Nat} {elide : Bool} {cs more : List Char}
  {ts raw : List Token}

/-- A text further down. -/
lemma of_reaches (h : Reaches source 1 cs raw later []) (k : Nat) (elide : Bool) :
    Lexes source (1 + k) elide cs ((separate elide raw).map (.shift k)) (later + k) :=
  ⟨_, h.shift k, separate_shift k elide raw⟩

/-- A blank in front, which becomes part of blanks that follow it. -/
lemma blank (h : Lexes source line elide cs ts later) :
    Lexes source line elide (' ' :: cs) ts later := by
  obtain ⟨raw, hr, hts⟩ := h
  have hfound : (step ' ' cs).found = .ok (.whitespace, none) := by
    rw [step_of_isSpace rfl]
    rfl
  have hrest : (step ' ' cs).rest = cs.dropWhile isSpace := by rw [step_of_isSpace rfl]; rfl
  have hbreaks : (step ' ' cs).breaks = 0 := by rw [step_of_isSpace rfl]; rfl
  have hnext : ∀ {raw'}, Reaches source line (cs.dropWhile isSpace) raw' later [] →
      ∃ t, t.kind.isTrivia = true ∧ Reaches source line (' ' :: cs) (t :: raw') later [] := by
    intro raw' hr'
    exact ⟨_, rfl, .next hfound (by rwa [hrest, hbreaks])⟩
  by_cases hc : ∃ c cs', cs = c :: cs' ∧ isSpace c = true
  · obtain ⟨c, cs, rfl, hc⟩ := hc
    cases hr with
    | next h hr =>
        rw [step_of_isSpace hc] at h hr
        cases h
        obtain ⟨t, ht, hr'⟩ := hnext (by rw [List.dropWhile_cons_of_pos hc]; exact hr)
        refine ⟨_, hr', ?_⟩
        rw [← hts, (sameWords_trivia ht _ elide).1, (sameWords_trivia rfl _ elide).1]
  · have hdrop : cs.dropWhile isSpace = cs := by
      cases cs with
      | nil => rfl
      | cons c cs => exact List.dropWhile_cons_of_neg fun hs => hc ⟨c, cs, rfl, hs⟩
    obtain ⟨t, ht, hr'⟩ := hnext (by rwa [hdrop])
    exact ⟨_, hr', by rw [← hts, (sameWords_trivia ht _ elide).1]⟩

/-- A sign in front. -/
lemma sign {c : Char} {kind : TokenKind} {stretch rest : List Char}
    (hstep : step c cs = .plain kind stretch rest) (hk : isSign kind = true)
    (h : Lexes source line kind.elides rest ts later) :
    Lexes source line elide (c :: cs)
      (⟨kind, lexeme kind stretch, none, line, source⟩ :: ts) later := by
  obtain ⟨raw, hr, hts⟩ := h
  have hfound : (step c cs).found = .ok (kind, none) := by rw [hstep]; rfl
  have hnext := @Reaches.next source line later c cs [] kind none raw hfound
    (by rw [hstep]; exact hr)
  rw [hstep] at hnext
  refine ⟨_, hnext, ?_⟩
  simp only [isSign, Bool.and_eq_true, Bool.not_eq_true', decide_eq_true_eq] at hk
  obtain ⟨⟨htrivia, hsep⟩, hcont⟩ := hk
  have hu : kind.unified = kind := TokenKind.eq_of_unified hsep
  rw [hu] at hsep
  rw [separate]
  simp [htrivia, hu, hsep, hcont, hts, Step.plain]

/-- A text and a blank in front. -/
lemma behind (h : Reaches source 1 cs raw mid [])
    (hline : ∀ t, raw.getLast? = some t → t.isLineComment = false)
    (hmore : ∀ c ∈ more.head?, isSpace c = false) (k : Nat)
    (hm : ∀ elide, Lexes source (mid + k) elide more ts later) :
    Lexes source (1 + k) elide (cs ++ ' ' :: more)
      ((separate elide raw).map (.shift k) ++ ts) later := by
  obtain ⟨raw', hr, hsame⟩ := h.append_blank hline hmore
  obtain ⟨raw₂, hr₂, hts⟩ := hm (swallows elide (raw'.map (.shift k)))
  refine ⟨_, (hr.shift k).trans hr₂, ?_⟩
  rw [separate_append, hts, separate_shift, (hsame elide).1]

/-- A text in front of a closing parenthesis, which is on a line of its own behind a comment. -/
lemma closing (h : Reaches source 1 cs raw mid []) {close : List Char}
    (hclose : close = ['\n', ')'] ∨ close = [')'] ∧
      ∀ t, raw.getLast? = some t → t.isLineComment = false) (k : Nat) (elide : Bool) :
    ∃ gap paren later, (∀ t ∈ gap, t.kind = .separator) ∧ paren.kind = .rightParen ∧
      Lexes source (1 + k) elide (cs ++ close)
        ((separate elide raw).map (.shift k) ++ (gap ++ [paren])) later := by
  have hparen : ∀ (line : Nat) (elide : Bool),
      Lexes source line elide [')'] [⟨.rightParen, ")", none, line, source⟩] line :=
    fun line elide => sign rfl rfl ⟨[], .refl, rfl⟩
  rcases hclose with rfl | ⟨rfl, hline⟩
  · rcases h.append_lineFeed [')'] with hr | ⟨⟨init, t, rfl, ht⟩, hr⟩
    · obtain ⟨raw', hr', hparen⟩ := hparen (mid + 1 + k) true
      have hkind : (Token.shift k ⟨.newline, "\n", none, mid, source⟩).kind = .newline := rfl
      refine ⟨if swallows elide (raw.map (.shift k)) then [] else
          [{ Token.shift k ⟨.newline, "\n", none, mid, source⟩ with kind := .separator }],
        ⟨.rightParen, ")", none, mid + 1 + k, source⟩, _, ?_, rfl, _, (hr.shift k).trans hr', ?_⟩
      · intro t ht
        split at ht
        · cases ht
        · rw [List.mem_singleton.mp ht]
      · rw [List.map_append, List.append_assoc, List.map_singleton, List.singleton_append,
          separate_newline _ _ _ hkind, hparen, separate_shift, List.append_assoc]
    · obtain ⟨raw', hr', hparen⟩ := hparen (mid + k) true
      refine ⟨[], ⟨.rightParen, ")", none, mid + k, source⟩, _, by simp, rfl, _,
        (hr.shift k).trans hr', ?_⟩
      have hswallows : swallows elide ((init ++ [t]).map (.shift k)) = true := by
        rw [List.map_append]
        exact swallows_newline elide _ ht
      rw [separate_append, hswallows, hparen, separate_shift]
      rfl
  · have hr : Reaches source 1 (cs ++ [')']) raw mid [')'] :=
      h.append ⟨rfl, by decide⟩ rfl (by decide) hline
    obtain ⟨raw', hr', hparen⟩ := hparen (mid + k) (swallows elide (raw.map (.shift k)))
    refine ⟨[], ⟨.rightParen, ")", none, mid + k, source⟩, _, by simp, rfl, _,
      (hr.shift k).trans hr', ?_⟩
    rw [separate_append, hparen, separate_shift]
    rfl

end Lexes

end Scan

end Tern
