/-
Blanks and comments do not matter. The stretch of a token that is neither is read in the same way
wherever it stands, as long as nothing or a blank follows it. So the tokens of a text are those of
its stretches with one blank between them.

* `Scan.step_reread`: a step on its own stretch, in front of nothing or of a blank;
* `Scan.respaced`: a text with its blanks and comments replaced by single blanks;
* `Scan.scan_respaced`: the tokens of a text and of the same text respaced.
-/
import Mathlib.Data.List.TakeWhile
import Mathlib.Tactic
import Tern.Proofs.Tiling

namespace Tern

namespace Scan

/-- Nothing, or a text that begins with a blank. -/
def AtBlank (cs : List Char) : Prop := cs = [] ∨ ∃ rest, cs = ' ' :: rest

/-- A step with another text behind its stretch. -/
def Step.before (s : Step) (rest : List Char) : Step := { s with rest }

/-! ### A stretch read again -/

section Reread

variable {c : Char} {cs s more : List Char}

lemma takeWhile_takeWhile_append {p : Char → Bool} (hp : p ' ' = false) (hm : AtBlank more)
    (cs : List Char) : (cs.takeWhile p ++ more).takeWhile p = cs.takeWhile p := by
  rw [List.takeWhile_append_of_pos fun a ha => List.mem_takeWhile_imp ha]
  rcases hm with rfl | ⟨rest, rfl⟩
  · simp
  · simp [hp]

lemma dropWhile_takeWhile_append {p : Char → Bool} (hp : p ' ' = false) (hm : AtBlank more)
    (cs : List Char) : (cs.takeWhile p ++ more).dropWhile p = more := by
  rw [List.dropWhile_append_of_pos fun a ha => List.mem_takeWhile_imp ha]
  rcases hm with rfl | ⟨rest, rfl⟩
  · rfl
  · simp [hp]

lemma withEqual_reread {joined alone : TokenKind} (hm : AtBlank more)
    (hs : (withEqual c joined alone cs).stretch = c :: s) :
    withEqual c joined alone (s ++ more) = (withEqual c joined alone cs).before more := by
  unfold withEqual at hs
  split at hs
  · cases hs
    rfl
  · cases hs
    have halone : ∀ ds, (∀ r, ds ≠ '=' :: r) → withEqual c joined alone ds =
        .plain alone [c] ds := by
      intro ds hds
      rw [withEqual]
      exact hds
    rw [halone cs (by assumption), List.nil_append, halone more]
    · rfl
    · rintro r rfl
      rcases hm with hm | ⟨_, hm⟩ <;> cases hm

/-- What stands behind the first character of such an operator is an equals sign or a blank. -/
lemma withEqual_front {joined alone : TokenKind} {d : Char} (hm : AtBlank more)
    (hs : (withEqual c joined alone cs).stretch = c :: s) (he : d ≠ '=') (hb : d ≠ ' ')
    (r : List Char) : s ++ more ≠ d :: r := by
  unfold withEqual at hs
  split at hs
  · cases hs
    rintro ⟨⟩
    exact he rfl
  · cases hs
    rcases hm with rfl | ⟨rest, rfl⟩
    · rintro ⟨⟩
    · rintro ⟨⟩
      exact hb rfl

lemma scanSlash_of_ne (hline : ∀ r, cs ≠ '/' :: r) (hblock : ∀ r, cs ≠ '*' :: r) :
    scanSlash cs = withEqual '/' .slashEqual .slash cs := by
  rw [scanSlash]
  · exact hline
  · exact hblock

/-- A string that is closed is read without a look behind it. -/
lemma stringBody_reread {text : List Char} (more : List Char)
    (h : (stringBody cs).1 = .ok text) :
    stringBody ((stringBody cs).2.1 ++ more) = (.ok text, (stringBody cs).2.1, more) := by
  fun_induction stringBody cs generalizing text with
  | case1 => cases h
  | case2 cs =>
      cases h
      rfl
  | case3 => cases h
  | case4 c cs d hd inner stretch rest heq ih =>
      cases inner with
      | error fault => cases h
      | ok inner =>
          cases h
          rw [heq] at ih
          simp only [List.cons_append]
          rw [stringBody_escape hd, ih rfl]
          rfl
  | case5 c cs hd => cases h
  | case6 c cs hq hl hb inner stretch rest heq ih =>
      cases inner with
      | error fault => cases h
      | ok inner =>
          cases h
          rw [heq] at ih
          have hb' : c ≠ '\\' := by
            rintro rfl
            cases cs with
            | nil => exact hl rfl rfl
            | cons d ds => exact hb d ds rfl rfl
          simp only [List.cons_append]
          rw [stringBody_cons hq hb', ih rfl]
          rfl

lemma scanString_reread (h : ∃ found, (scanString cs).found = .ok found)
    (hs : (scanString cs).stretch = '"' :: s) :
    scanString (s ++ more) = (scanString cs).before more := by
  rcases hb : stringBody cs with ⟨text, stretch, rest⟩
  rcases text with fault | text
  · obtain ⟨found, h⟩ := h
    simp only [scanString, hb] at h
    cases fault <;> cases h
  · have hagain := stringBody_reread more (congrArg Prod.fst hb)
    simp only [scanString, hb] at hs
    cases hs
    rw [hb] at hagain
    have hbreaks : stringBreaks (s ++ more) = stringBreaks cs := by
      rw [stringBreaks_of_ok (congrArg Prod.fst hagain), stringBreaks_of_ok (congrArg Prod.fst hb),
        hagain, hb]
    simp only [scanString, hagain, hb, hbreaks, Step.before]

lemma closeChar_reread {t : List Char} (more : List Char)
    (h : ∃ found, (closeChar c t cs).found = .ok found) :
    (closeChar c t cs).stretch = t ++ ['\''] ∧
      closeChar c t ('\'' :: more) = (closeChar c t cs).before more := by
  obtain ⟨found, h⟩ := h
  unfold closeChar at h
  split at h
  · exact ⟨rfl, rfl⟩
  · cases h

lemma scanChar_reread (h : ∃ found, (scanChar cs).found = .ok found)
    (hs : (scanChar cs).stretch = '\'' :: s) :
    scanChar (s ++ more) = (scanChar cs).before more := by
  cases cs with
  | nil => simp [scanChar, Step.fault] at h
  | cons c cs =>
      by_cases hc : c = '\\'
      · subst hc
        cases cs with
        | nil => simp [scanChar, Step.fault] at h
        | cons d cs =>
            rw [scanChar] at h hs ⊢
            cases hd : unescape? d with
            | none => simp [hd, Step.fault] at h
            | some e =>
                rw [hd] at h hs
                obtain ⟨hstretch, hagain⟩ := closeChar_reread more h
                rw [hstretch] at hs
                cases hs
                change scanChar ('\\' :: d :: '\'' :: more) = _
                rw [scanChar, hd]
                exact hagain
      · rw [scanChar_cons hc] at h hs ⊢
        obtain ⟨hstretch, hagain⟩ := closeChar_reread more h
        rw [hstretch] at hs
        cases hs
        exact (scanChar_cons hc).trans hagain

lemma scanAnnotated_reread (hm : AtBlank more) (h : ∃ found, (scanAnnotated cs).found = .ok found)
    (hs : (scanAnnotated cs).stretch = '@' :: s) :
    scanAnnotated (s ++ more) = (scanAnnotated cs).before more := by
  cases cs with
  | nil => simp [scanAnnotated, Step.fault] at h
  | cons d ds =>
      rw [scanAnnotated] at h hs ⊢
      by_cases hd : startsName d
      · rw [if_pos hd] at hs ⊢
        cases hs
        rw [List.cons_append, scanAnnotated, if_pos hd, takeWhile_takeWhile_append rfl hm,
          dropWhile_takeWhile_append rfl hm]
        rfl
      · simp [hd, Step.fault] at h

lemma scanWord_reread (hm : AtBlank more) (hs : (scanWord c cs).stretch = c :: s) :
    scanWord c (s ++ more) = (scanWord c cs).before more := by
  cases hs
  rw [scanWord, takeWhile_takeWhile_append rfl hm, dropWhile_takeWhile_append rfl hm]
  rfl

/-- A number without a fraction. -/
lemma scanNumber_of_whole
    (h : ∀ d ds, cs.dropWhile Char.isDigit = '.' :: d :: ds → d.isDigit = false) :
    scanNumber c cs =
      { stretch := c :: cs.takeWhile Char.isDigit
        rest := cs.dropWhile Char.isDigit
        breaks := 0
        found := .ok (.number, some (.number ⟨false,
          Number.ofDecimal (Number.ofDigits (c :: cs.takeWhile Char.isDigit)) 0⟩)) } := by
  simp only [scanNumber]
  split
  · rename_i d ds hrest
    simp [h d ds hrest, hrest]
  · simp

/-- A number with a fraction. -/
lemma scanNumber_of_fraction {d : Char} {ds : List Char}
    (h : cs.dropWhile Char.isDigit = '.' :: d :: ds) (hd : d.isDigit = true) :
    scanNumber c cs =
      { stretch := c :: (cs.takeWhile Char.isDigit ++ '.' :: d :: ds.takeWhile Char.isDigit)
        rest := ds.dropWhile Char.isDigit
        breaks := 0
        found := .ok (.number, some (.number ⟨false, Number.ofDecimal
          (Number.ofDigits (c :: (cs.takeWhile Char.isDigit ++ d :: ds.takeWhile Char.isDigit)))
          (-((d :: ds.takeWhile Char.isDigit).length : Int))⟩)) } := by
  simp [scanNumber, h, hd]

lemma scanNumber_reread (hm : AtBlank more) (hs : (scanNumber c cs).stretch = c :: s) :
    scanNumber c (s ++ more) = (scanNumber c cs).before more := by
  have hblank : Char.isDigit ' ' = false := rfl
  by_cases hfraction : ∃ d ds, cs.dropWhile Char.isDigit = '.' :: d :: ds ∧ d.isDigit = true
  · obtain ⟨d, ds, hrest, hd⟩ := hfraction
    rw [scanNumber_of_fraction hrest hd] at hs ⊢
    obtain rfl : cs.takeWhile Char.isDigit ++ '.' :: d :: ds.takeWhile Char.isDigit = s :=
      (List.cons.inj hs).2
    -- The digits before the point end there, those behind it end at the blank.
    have hwhole : ∀ a ∈ cs.takeWhile Char.isDigit, a.isDigit = true :=
      fun a ha => List.mem_takeWhile_imp ha
    have hpoint : Char.isDigit '.' = false := rfl
    have hagain : (cs.takeWhile Char.isDigit ++ '.' :: d :: (ds.takeWhile Char.isDigit ++ more)
        ).dropWhile Char.isDigit = '.' :: d :: (ds.takeWhile Char.isDigit ++ more) := by
      rw [List.dropWhile_append_of_pos hwhole, List.dropWhile_cons_of_neg (by simp [hpoint])]
    rw [List.append_assoc, List.cons_append, List.cons_append, scanNumber_of_fraction hagain hd,
      takeWhile_takeWhile_append hblank hm, dropWhile_takeWhile_append hblank hm,
      List.takeWhile_append_of_pos hwhole, List.takeWhile_cons_of_neg (by simp [hpoint]),
      List.append_nil]
    rfl
  · have hnone : ∀ d ds, cs.dropWhile Char.isDigit = '.' :: d :: ds → d.isDigit = false :=
      fun d ds hrest => by simpa using fun hd => hfraction ⟨d, ds, hrest, hd⟩
    rw [scanNumber_of_whole hnone] at hs ⊢
    obtain rfl : cs.takeWhile Char.isDigit = s := (List.cons.inj hs).2
    rw [scanNumber_of_whole, takeWhile_takeWhile_append hblank hm,
      dropWhile_takeWhile_append hblank hm]
    · rfl
    · intro d ds hrest
      rw [dropWhile_takeWhile_append hblank hm] at hrest
      rcases hm with rfl | ⟨rest, rfl⟩ <;> cases hrest

/-- **A stretch read again.** The stretch of a token other than blanks and comments is read in the
same way in front of nothing or of a blank. -/
theorem step_reread {kind : TokenKind} {literal : Option Literal}
    (h : (step c cs).found = .ok (kind, literal)) (hk : kind.isTrivia = false)
    (hs : (step c cs).stretch = c :: s) (hm : AtBlank more) :
    step c (s ++ more) = (step c cs).before more := by
  have hfound : ∃ found, (step c cs).found = .ok found := ⟨_, h⟩
  cases shape c with
  | single kind' hk' hstep =>
      rw [hstep] at hs ⊢
      cases hs
      rw [hstep]
      rfl
  | withEqual joined alone hj hk' hstep =>
      rw [hstep] at hs ⊢
      rw [hstep]
      exact withEqual_reread hm hs
  | dot hc =>
      subst hc
      by_cases hdots : ∃ r, cs = '.' :: '.' :: r
      · obtain ⟨r, rfl⟩ := hdots
        cases hs
        rfl
      · rw [step_dot_of_ne (not_exists.mp hdots)] at hs ⊢
        cases hs
        rcases hm with rfl | ⟨rest, rfl⟩ <;> rfl
  | question hc =>
      subst hc
      rw [step_question] at h
      split at h
      · cases hs
        rfl
      · cases h
  | minus hc =>
      subst hc
      by_cases harrow : ∃ r, cs = '>' :: r
      · obtain ⟨r, rfl⟩ := harrow
        cases hs
        rfl
      · rw [step_minus_of_ne (not_exists.mp harrow)] at hs ⊢
        rw [step_minus_of_ne (withEqual_front hm hs (by decide) (by decide)),
          withEqual_reread hm hs]
  | slash hc =>
      subst hc
      change (scanSlash cs).found = _ at h
      change (scanSlash cs).stretch = _ at hs
      change scanSlash (s ++ more) = (scanSlash cs).before more
      by_cases hline : ∃ r, cs = '/' :: r
      · obtain ⟨r, rfl⟩ := hline
        cases h
        cases hk
      · by_cases hblock : ∃ r, cs = '*' :: r
        · obtain ⟨r, rfl⟩ := hblock
          simp only [scanSlash] at h
          split at h <;> cases h
          cases hk
        · rw [scanSlash_of_ne (not_exists.mp hline) (not_exists.mp hblock)] at hs ⊢
          rw [scanSlash_of_ne (withEqual_front hm hs (by decide) (by decide))
            (withEqual_front hm hs (by decide) (by decide)), withEqual_reread hm hs]
  | carriageReturn hc =>
      subst hc
      cases cs with
      | nil =>
          cases hs
          rcases hm with rfl | ⟨rest, rfl⟩ <;> rfl
      | cons d ds =>
          by_cases hd : d = '\n'
          · subst hd
            cases hs
            rfl
          · rw [step_carriageReturn_of_ne hd] at hs ⊢
            cases hs
            rcases hm with rfl | ⟨rest, rfl⟩ <;> rfl
  | lineFeed hc =>
      subst hc
      cases hs
      rfl
  | quote hc =>
      subst hc
      exact scanString_reread hfound hs
  | apostrophe hc =>
      subst hc
      exact scanChar_reread hfound hs
  | annotated hc =>
      subst hc
      exact scanAnnotated_reread hm hfound hs
  | space hstep =>
      rw [hstep] at h
      cases h
      cases hk
  | digit hstep =>
      rw [hstep] at hs ⊢
      rw [hstep]
      exact scanNumber_reread hm hs
  | word hstep =>
      rw [hstep] at hs ⊢
      rw [hstep]
      exact scanWord_reread hm hs
  | unexpected hstep =>
      rw [hstep] at h
      cases h

end Reread

/-! ### The tokens of a respaced text -/

end Scan

/-- What a token is, wherever it stands. -/
def Token.content (t : Token) : TokenKind × String × Option Literal := (t.kind, t.lexeme, t.literal)

/-- Whether an item is a token other than blanks, comments and the end. -/
def Item.isSolid (i : Item) : Bool :=
  match i.token with
  | .ok t => !t.kind.isTrivia && t.kind ≠ .eof
  | .error _ => false

/-- The item is read as the token again in front of nothing and of every blank. -/
structure Item.Stands (i : Item) (t : Token) : Prop where
  notTrivia : t.kind.isTrivia = false
  again : ∃ c s, i.stretch = c :: s ∧ Scan.isSpace c = false ∧
    t.lexeme = Scan.lexeme t.kind (c :: s) ∧
    ∀ more, Scan.AtBlank more → ∃ breaks,
      Scan.step c (s ++ more) = ⟨c :: s, more, breaks, .ok (t.kind, t.literal)⟩

namespace Scan

/-- The stretches of the tokens of a text other than blanks, comments and the end, with one blank
between them. -/
def respaced (source text : String) : String :=
  String.ofList ([' '].intercalate (((items source text).filter (·.isSolid)).map (·.stretch)))

/-- What a step finds stands for itself, unless it is blanks or a comment. -/
lemma stands_of_step {c : Char} {cs : List Char} {source : String} {line : Nat} {t : Token}
    (h : ((step c cs).item source line).token = .ok t) (ht : t.kind.isTrivia = false) :
    ((step c cs).item source line).Stands t := by
  obtain ⟨s, hs, -⟩ := step_covers c cs
  cases hf : (step c cs).found with
  | error fault =>
      simp only [Step.item, hf] at h
      cases h
  | ok found =>
      obtain ⟨kind, literal⟩ := found
      simp only [Step.item, hf] at h
      cases h
      have hspace : isSpace c = false := by
        cases hc : isSpace c with
        | false => rfl
        | true =>
            rw [step_of_isSpace hc] at hf
            cases hf
            cases ht
      refine ⟨ht, c, s, by rw [Step.stretch_item, hs], hspace, by rw [hs], fun more hm => ?_⟩
      exact ⟨(step c cs).breaks, by rw [step_reread hf ht hs hm, Step.before, hs, hf]⟩

/-- The solid items of a text without errors stand for its solid tokens. -/
lemma forall₂_stands {source : String} {pieces : List Item} {tokens : List Token}
    (hsteps : ∀ p ∈ pieces, ∃ c rest line, p = (step c rest).item source line)
    (h : pieces.map (·.token) = tokens.map .ok) :
    List.Forall₂ Item.Stands (pieces.filter (·.isSolid)) (tokens.filter (!·.kind.isTrivia)) := by
  induction pieces generalizing tokens with
  | nil =>
      cases tokens with
      | nil => exact .nil
      | cons => cases h
  | cons p pieces ih =>
      cases tokens with
      | nil => cases h
      | cons t tokens =>
          obtain ⟨ht, hrest⟩ := List.cons.inj h
          have hih := ih (fun q hq => hsteps q (List.mem_cons_of_mem p hq)) hrest
          obtain ⟨c, rest, line, rfl⟩ := hsteps p List.mem_cons_self
          have heof : t.kind ≠ .eof := (readFrom_step ht).1
          cases htrivia : t.kind.isTrivia with
          | true =>
              rw [List.filter_cons_of_neg (by simp [Item.isSolid, ht, htrivia]),
                List.filter_cons_of_neg (by simp [htrivia])]
              exact hih
          | false =>
              rw [List.filter_cons_of_pos (by simp [Item.isSolid, ht, htrivia, heof]),
                List.filter_cons_of_pos (by simp [htrivia])]
              exact .cons (stands_of_step ht htrivia) hih

/-- A text is scanned without errors, and its tokens other than blanks are known. -/
def Rescans (source : String) (cs : List Char)
    (contents : List (TokenKind × String × Option Literal)) : Prop :=
  ∀ line, ∃ tokens later, Reaches source line cs tokens later [] ∧
    (tokens.filter (·.kind ≠ .whitespace)).map Token.content = contents

namespace Rescans

variable {source : String} {cs more : List Char}
  {contents : List (TokenKind × String × Option Literal)}

lemma nil : Rescans source [] [] := fun line => ⟨[], line, .refl, rfl⟩

lemma token {i : Item} {t : Token} (hi : i.Stands t) (hm : AtBlank more)
    (h : Rescans source more contents) :
    Rescans source (i.stretch ++ more) (t.content :: contents) := by
  intro line
  obtain ⟨htrivia, c, s, hstretch, -, hlexeme, hagain⟩ := hi
  obtain ⟨breaks, hstep⟩ := hagain more hm
  obtain ⟨tokens, later, hr, hcontents⟩ := h (line + breaks)
  have hkind : t.kind ≠ .whitespace := by
    intro hk
    rw [hk] at htrivia
    cases htrivia
  have hfound : (step c (s ++ more)).found = .ok (t.kind, t.literal) := by rw [hstep]
  have hnext : Reaches source line (c :: (s ++ more))
      (⟨t.kind, lexeme t.kind (step c (s ++ more)).stretch, t.literal, line, source⟩ :: tokens)
      later [] :=
    .next hfound (by rw [hstep]; exact hr)
  rw [hstep, ← hlexeme] at hnext
  refine ⟨_, later, by rw [hstretch]; exact hnext, ?_⟩
  rw [List.filter_cons_of_pos (by simpa using hkind), List.map_cons, hcontents]
  rfl

/-- A blank in front of something else is a token of its own. -/
lemma blank (hc : ∀ c ∈ cs.head?, isSpace c = false) (h : Rescans source cs contents) :
    Rescans source (' ' :: cs) contents := by
  intro line
  obtain ⟨tokens, later, hr, hcontents⟩ := h line
  have hnone : cs.takeWhile isSpace = [] ∧ cs.dropWhile isSpace = cs := by
    cases cs with
    | nil => exact ⟨rfl, rfl⟩
    | cons c cs =>
        have hhead : isSpace c = false := hc c rfl
        simp [hhead]
  have hstep : step ' ' cs = .plain .whitespace [' '] cs := by
    rw [step_of_isSpace rfl, hnone.1, hnone.2]
  have hfound : (step ' ' cs).found = .ok (.whitespace, none) := by
    rw [hstep]
    rfl
  exact ⟨_, later, .next hfound (by rw [hstep]; exact hr), hcontents⟩

end Rescans

/-- Items that stand for tokens are read as these tokens, with blanks between them. -/
lemma rescans_intercalate (source : String) {is : List Item} {ts : List Token}
    (h : List.Forall₂ Item.Stands is ts) :
    Rescans source ([' '].intercalate (is.map (·.stretch))) (ts.map Token.content) := by
  induction h with
  | nil => exact .nil
  | @cons i t is ts hi his ih =>
      cases his with
      | nil => simpa [List.intercalate] using Rescans.token hi (.inl rfl) .nil
      | @cons j u is ts hj _ =>
          obtain ⟨-, c, s, hstretch, hspace, -, -⟩ := hj
          have hsplit : [' '].intercalate ((i :: j :: is).map (·.stretch)) =
              i.stretch ++ ' ' :: [' '].intercalate ((j :: is).map (·.stretch)) := by
            simp [List.intercalate]
          have hhead : ∀ d ∈ ([' '].intercalate ((j :: is).map (·.stretch))).head?,
              isSpace d = false := by
            cases is <;> simp [List.intercalate, hstretch, hspace]
          rw [hsplit]
          exact .token hi (.inr ⟨_, rfl⟩) (.blank hhead ih)

/-- **Blanks and comments do not matter.** A text without errors has the same tokens, blanks and
comments apart, as the text of these tokens with one blank between them, in which there is no error
either. -/
theorem scan_respaced {source text : String} {tokens : List Token}
    (h : scan source text = tokens.map .ok) :
    ∃ again : List Token, scan source (respaced source text) = again.map .ok ∧
      (again.filter (·.kind ≠ .whitespace)).map Token.content =
        (tokens.filter (!·.kind.isTrivia)).map Token.content := by
  obtain ⟨pieces, last, hitems, -, hsteps⟩ :=
    exists_pieces source 1 (le_refl text.toList.length)
  have hall : items source text = pieces ++ [endItem source last] := hitems
  -- The tokens are those of the pieces and the end.
  obtain ⟨init, rfl, hinit⟩ : ∃ init, tokens = init ++ [Token.endOf source last] ∧
      pieces.map (·.token) = init.map .ok := by
    rw [scan, hall, List.map_append] at h
    obtain ⟨init, tail, rfl, hinit, htail⟩ := List.map_eq_append_iff.mp h.symm
    obtain ⟨t, rfl, ht⟩ := List.map_eq_singleton_iff.mp htail
    cases ht
    exact ⟨init, rfl, hinit.symm⟩
  have hsolid : (items source text).filter (·.isSolid) = pieces.filter (·.isSolid) := by
    rw [hall, List.filter_append]
    simp [Item.isSolid, endItem, Token.endOf]
  obtain ⟨again, later, hr, hcontents⟩ := rescans_intercalate source (forall₂_stands hsteps hinit) 1
  refine ⟨again ++ [Token.endOf source later], ?_, ?_⟩
  · rw [scan, items, respaced, hsolid, String.toList_ofList]
    exact itemsFrom_of_reaches (le_refl _) hr
  · rw [List.filter_append, List.filter_append, List.map_append, List.map_append, hcontents]
    rfl

theorem scan_respaced_munched :
    ∃ tokens again : List Token,
      scan "<test>" "4...a/*.*/-='b'\r\n@c // d" = tokens.map .ok ∧
      scan "<test>" (respaced "<test>" "4...a/*.*/-='b'\r\n@c // d") = again.map .ok ∧
      (again.filter (·.kind ≠ .whitespace)).map Token.content =
        (tokens.filter (!·.kind.isTrivia)).map Token.content := by
  have h : scan "<test>" "4...a/*.*/-='b'\r\n@c // d" = List.map .ok
      [⟨.number, "4", some (.number ⟨false, Number.ofDecimal 4 0⟩), 1, "<test>"⟩,
        ⟨.ellipsis, "...", none, 1, "<test>"⟩, ⟨.identifier, "a", none, 1, "<test>"⟩,
        ⟨.comment, "/*.*/", none, 1, "<test>"⟩, ⟨.minusEqual, "-=", none, 1, "<test>"⟩,
        ⟨.char, "'b'", some (.text "b"), 1, "<test>"⟩, ⟨.newline, "\n", none, 1, "<test>"⟩,
        ⟨.annotated, "c", none, 2, "<test>"⟩, ⟨.whitespace, " ", none, 2, "<test>"⟩,
        ⟨.comment, "// d", none, 2, "<test>"⟩, Token.endOf "<test>" 2] := by
    rfl
  obtain ⟨again, hagain⟩ := scan_respaced h
  exact ⟨_, again, h, hagain⟩

end Scan

end Tern
