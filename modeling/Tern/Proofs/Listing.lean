/-
Token lists. Each token is printed on a line of its own, but the text of the token and its value
may have line ends in them, and only the tokens for line ends are written without them. So a token
takes more than one line if it is a string or a character with a line end in its value, a comment
over several lines, or a separator that was a line end.

* `Scan.lineEnd_of_step`: where the line ends in the stretch of a token are found again;
* `Token.ShowsLineEnd`: the tokens that are printed with a line end;
* `CommandLine.tokenize_lines`: the lines of a token list.
-/
import Mathlib.Tactic
import Tern.CommandLine.Outcome
import Tern.Proofs.Legible
import Tern.Proofs.Lines
import Tern.Proofs.Separation

namespace Tern

namespace Scan

/-! ### Line ends in the stretch of a token -/

lemma lineBreaks_ne_zero {cs : List Char} {c : Char} (hc : c ∈ cs) (h : isLineEnd c = true) :
    lineBreaks cs ≠ 0 := by
  fun_induction lineBreaks cs with
  | case1 => cases hc
  | case2 cs ih => exact Nat.succ_ne_zero _
  | case3 d cs hcut ih =>
      rcases List.mem_cons.mp hc with rfl | hc
      · rw [isLineEnd, Bool.or_eq_true, decide_eq_true_eq, decide_eq_true_eq] at h
        rw [if_pos h]
        exact Nat.succ_ne_zero _
      · exact fun hsum => ih hc (Nat.eq_zero_of_add_eq_zero_right hsum)

section Steps

variable {c d : Char} {cs : List Char} {kind : TokenKind} {literal : Option Literal}

/-- A step that counts no line end has none in its stretch, unless it is a character literal. -/
lemma Step.Counts.not_mem {s : Step} (h : s.Counts kind) (hb : s.breaks = 0) (hk : kind ≠ .char)
    (hd : d ∈ s.stretch) : isLineEnd d = false := by
  by_contra hend
  rw [Bool.not_eq_false] at hend
  refine lineBreaks_ne_zero hd hend ?_
  rw [← h.breaks, hb, hides, decide_eq_false hk]
  rfl

/-- A line end in a string literal is a character of the text. -/
lemma Spelling.mem_of_isLineEnd {text written : List Char} (h : Spelling text written)
    (hd : d ∈ written) (hend : isLineEnd d = true) : d ∈ text := by
  induction h with
  | nil => cases hd
  | raw hq hb _ ih =>
      rcases List.mem_cons.mp hd with rfl | hd
      · exact List.mem_cons_self
      · exact List.mem_cons_of_mem _ (ih hd)
  | @escaped c e text written he _ ih =>
      -- Neither the backslash nor the letter behind it is a line end.
      have hletters : ∀ p ∈ escapes, isLineEnd p.2 = false := by decide
      rcases List.mem_cons.mp hd with rfl | hd
      · cases hend
      · rcases List.mem_cons.mp hd with rfl | hd
        · rw [hletters _ he] at hend
          cases hend
        · exact List.mem_cons_of_mem _ (ih hd)

lemma lineEnd_of_scanString (h : (scanString cs).found = .ok (kind, literal))
    (hd : d ∈ (scanString cs).stretch) (hend : isLineEnd d = true) :
    ∃ v : String, literal = some (.text v) ∧ d ∈ v.toList := by
  rcases hbody : stringBody cs with ⟨text, stretch, rest⟩
  simp only [scanString, hbody] at h hd
  cases text with
  | error fault => cases fault <;> cases h
  | ok text =>
      cases h
      obtain ⟨written, hspell, hstretch⟩ := spelling_of_stringBody (congrArg (·.1) hbody)
      rw [hbody] at hstretch
      have hquote : d ≠ '"' := by
        rintro rfl
        cases hend
      have hwritten : d ∈ written := by
        rw [show stretch = written ++ ['"'] from hstretch] at hd
        simpa [hquote] using hd
      refine ⟨_, rfl, ?_⟩
      rw [String.toList_ofList]
      exact hspell.mem_of_isLineEnd hwritten hend

/-- A line end in a character literal is its character. -/
lemma lineEnd_of_closeChar {s : List Char} (h : (closeChar c s cs).found = .ok (kind, literal))
    (hs : d ∈ s → d = c) (hd : d ∈ (closeChar c s cs).stretch) (hend : isLineEnd d = true) :
    ∃ v : String, literal = some (.text v) ∧ d ∈ v.toList := by
  unfold closeChar at h hd
  split at h
  · cases h
    have hmem : d ∈ s := by
      rcases List.mem_append.mp hd with hd | hd
      · exact hd
      · rw [List.mem_singleton.mp hd] at hend
        cases hend
    refine ⟨c.toString, rfl, ?_⟩
    rw [hs hmem]
    exact (String.toList_singleton c).symm ▸ List.mem_singleton_self c
  · cases h

lemma lineEnd_of_scanChar (h : (scanChar cs).found = .ok (kind, literal))
    (hd : d ∈ (scanChar cs).stretch) (hend : isLineEnd d = true) :
    ∃ v : String, literal = some (.text v) ∧ d ∈ v.toList := by
  have hne : ∀ e : Char, isLineEnd e = false → d ≠ e := by
    rintro e he rfl
    rw [he] at hend
    cases hend
  fun_cases scanChar cs with
  | case1 => cases h
  | case2 => cases h
  | case3 e cs f hf =>
      have hletters : ∀ p ∈ escapes, isLineEnd p.2 = false := by decide
      have he : isLineEnd e = false := hletters (f, e) (unescape?_eq_some_iff.mp hf)
      rw [scanChar, hf] at h hd
      refine lineEnd_of_closeChar h (fun hmem => ?_) hd hend
      simp [hne e he, hne '\'' rfl, hne '\\' rfl] at hmem
  | case4 e cs hf =>
      rw [scanChar, hf] at h
      cases h
  | case5 e cs hlast hesc =>
      have hb : e ≠ '\\' := by
        rintro rfl
        cases cs with
        | nil => exact hlast rfl rfl
        | cons f cs => exact hesc f cs rfl rfl
      rw [scanChar_cons hb] at h hd
      refine lineEnd_of_closeChar h (fun hmem => ?_) hd hend
      simpa [hne '\'' rfl] using hmem

/-- **Line ends in the stretch of a token**: the token is a line end or a comment, or the line end
is in its value. -/
theorem lineEnd_of_step (h : (step c cs).found = .ok (kind, literal))
    (hd : d ∈ (step c cs).stretch) (hend : isLineEnd d = true) :
    kind = .newline ∨ kind = .comment ∨ ∃ v : String, literal = some (.text v) ∧ d ∈ v.toList := by
  have hcounts : (step c cs).Counts kind := step_counts h
  -- Where nothing is counted, only a character literal could have a line end.
  have hnone : (step c cs).breaks = 0 → kind ≠ .char → False := fun hb hk => by
    rw [hcounts.not_mem hb hk hd] at hend
    cases hend
  have hplain : ∀ {kind : TokenKind}, isPlain kind = true → kind ≠ .char := by
    rintro kind hk rfl
    cases hk
  clear hcounts
  generalize hs : step c cs = s at h hd hnone
  have hwith : ∀ {joined alone : TokenKind}, isPlain joined = true → isPlain alone = true →
      withEqual c joined alone cs = s → False := by
    intro joined alone hj hk hs
    unfold withEqual at hs
    split at hs
    all_goals subst hs; cases h
    · exact hnone rfl (hplain hj)
    · exact hnone rfl (hplain hk)
  cases shape c with
  | single kind' hk hstep =>
      rw [hstep] at hs
      subst hs
      cases h
      exact (hnone rfl (hplain hk)).elim
  | withEqual joined alone hj hk hstep =>
      rw [hstep] at hs
      exact (hwith hj hk hs).elim
  | dot hc =>
      subst hc
      rw [step_dot] at hs
      split at hs <;> subst hs <;> cases h <;> exact (hnone rfl (by decide)).elim
  | question hc =>
      subst hc
      rw [step_question] at hs
      split at hs <;> subst hs <;> cases h
      exact (hnone rfl (by decide)).elim
  | minus hc =>
      subst hc
      rw [step_minus] at hs
      split at hs
      · subst hs
        cases h
        exact (hnone rfl (by decide)).elim
      · exact (hwith rfl rfl hs).elim
  | slash hc =>
      subst hc
      change scanSlash cs = s at hs
      unfold scanSlash at hs
      split at hs
      · subst hs
        cases h
        exact .inr (.inl rfl)
      · subst hs
        dsimp only at h
        split at h <;> cases h
        exact .inr (.inl rfl)
      · exact (hwith rfl rfl hs).elim
  | carriageReturn hc =>
      subst hc
      rw [step_carriageReturn] at hs
      split at hs <;> subst hs <;> cases h <;> exact .inl rfl
  | lineFeed hc =>
      subst hc hs
      cases h
      exact .inl rfl
  | quote hc =>
      subst hc hs
      exact .inr (.inr (lineEnd_of_scanString h hd hend))
  | apostrophe hc =>
      subst hc hs
      exact .inr (.inr (lineEnd_of_scanChar h hd hend))
  | annotated hc =>
      subst hc
      change scanAnnotated cs = s at hs
      unfold scanAnnotated at hs
      split at hs
      · subst hs
        cases h
      · split at hs <;> subst hs <;> cases h
        exact (hnone rfl (by decide)).elim
  | space hstep =>
      rw [hstep] at hs
      subst hs
      cases h
      exact (hnone rfl (by decide)).elim
  | digit hstep =>
      rw [hstep] at hs
      subst hs
      cases h
      exact (hnone rfl (by decide)).elim
  | word hstep =>
      rw [hstep] at hs
      subst hs
      cases h
      exact (hnone rfl (hplain (isPlain_wordKind _))).elim
  | unexpected hstep =>
      rw [hstep] at hs
      subst hs
      cases h

/-- Only strings and characters have texts as values. -/
lemma Finds.kind_of_text {v : String} (h : Finds c kind literal) (hv : literal = some (.text v)) :
    kind = .string ∨ kind = .char := by
  cases h with
  | text hk => exact hk
  | _ => cases hv

/-- The text of a token is a piece of its stretch. -/
lemma mem_stretch_of_mem_lexeme {stretch : List Char} (hk : kind ≠ .newline)
    (hd : d ∈ (lexeme kind stretch).toList) : d ∈ stretch := by
  unfold lexeme at hd
  split at hd
  · exact absurd rfl hk
  · rw [String.toList_ofList] at hd
    exact List.mem_of_mem_drop hd
  · rwa [String.toList_ofList] at hd

end Steps

end Scan

/-! ### Line ends of tokens -/

/-- A list without errors is the list of its tokens. -/
lemma eq_map_ok_of_collect_eq {ε α : Type} {items : List (Except ε α)} {as : List α}
    (h : collect items = .ok as) : items = as.map .ok := by
  induction items generalizing as with
  | nil =>
      cases h
      rfl
  | cons item items ih =>
      cases item with
      | error e => cases h
      | ok a =>
          rw [collect] at h
          cases hrest : collect items with
          | error e =>
              rw [hrest] at h
              cases h
          | ok rest =>
              rw [hrest] at h
              cases h
              rw [ih hrest, List.map_cons]

/-- Of the raw kinds, semicolons and line ends become separators. -/
lemma TokenKind.eq_of_unified_separator {kind : TokenKind} (h : kind.unified = .separator)
    (hne : kind ≠ .separator) : kind = .semicolon ∨ kind = .newline := by
  unfold TokenKind.unified at h
  split at h
  · exact .inl rfl
  · exact .inr rfl
  · exact absurd h hne

namespace Token

open Scan

variable {d : Char} {t : Token}

/-- What a raw token of a text has of line ends and of values. -/
structure Raw (t : Token) : Prop where
  kind : t.kind ≠ .separator
  newline : t.kind = .newline → t.lexeme = "\n"
  lineEnd : ∀ d ∈ t.lexeme.toList, isLineEnd d = true → t.kind = .newline ∨ t.kind = .comment ∨
    ∃ v : String, t.literal = some (.text v) ∧ d ∈ v.toList
  text : ∀ {v : String}, t.literal = some (.text v) → t.kind = .string ∨ t.kind = .char

lemma raw_of_step {c : Char} {cs : List Char}
    (hf : (step c cs).found = .ok (t.kind, t.literal))
    (ht : t.lexeme = Scan.lexeme t.kind (step c cs).stretch) : t.Raw where
  kind := (step_kind hf).2
  newline hk := by
    rw [ht, hk]
    rfl
  lineEnd d hd hend := by
    by_cases hk : t.kind = .newline
    · exact .inl hk
    · rw [ht] at hd
      exact lineEnd_of_step hf (mem_stretch_of_mem_lexeme hk hd) hend
  text hv := (step_finds hf).kind_of_text hv

/-- The tokens of a text are raw. -/
lemma raw_of_mem_scan {source text : String} (h : .ok t ∈ scan source text) : t.Raw := by
  obtain ⟨i, hi, ht⟩ := List.mem_map.mp h
  obtain ⟨pieces, last, hitems, -, hsteps⟩ := exists_pieces source 1 (le_refl text.toList.length)
  rw [items, hitems, List.mem_append, List.mem_singleton] at hi
  rcases hi with hi | rfl
  · obtain ⟨c, cs, line, rfl⟩ := hsteps i hi
    cases hf : (step c cs).found with
    | error fault =>
        simp only [Step.item, hf] at ht
        cases ht
    | ok found =>
        simp only [Step.item, hf] at ht
        cases ht
        exact raw_of_step hf rfl
  · cases ht
    exact ⟨fun hk => (by cases hk), fun hk => (by cases hk), fun d hd => (by cases hd),
      fun hv => (by cases hv)⟩

/-- The tokens that a token list shows with a line end: separators that were line ends, comments,
and strings and characters with the line end in their value. -/
inductive ShowsLineEnd (d : Char) (t : Token) : Prop
  | separator (hk : t.kind = .separator) (ht : t.lexeme = "\n") (hd : d = '\n')
  | comment (hk : t.kind = .comment) (hd : d ∈ t.lexeme.toList)
  | value {v : String} (hk : t.kind = .string ∨ t.kind = .char) (hv : t.literal = some (.text v))
      (hd : d ∈ v.toList)

lemma lineEnd_notMem (hend : isLineEnd d = true) {cs : List Char}
    (hall : cs.all (!isLineEnd ·) = true) : d ∉ cs := by
  intro hd
  have hd' := List.all_eq_true.mp hall d hd
  rw [hend] at hd'
  cases hd'

lemma lineEnd_notMem_name (hend : isLineEnd d = true) (kind : TokenKind) :
    d ∉ kind.name.toList :=
  lineEnd_notMem hend (by cases kind <;> rfl)

lemma lineEnd_notMem_print (hend : isLineEnd d = true) (x : Float) :
    d ∉ (Number.print x).toList := by
  have hdigits : d ∉ (Number.magnitude x).shortest.positional := by
    intro hd
    have hnumeric := (Number.isNumeric_positional (Number.magnitude x).shortest).2 d hd
    rw [isLineEnd_of_class rfl rfl hnumeric] at hend
    cases hend
  unfold Number.print
  split_ifs
  · exact lineEnd_notMem hend rfl
  · exact lineEnd_notMem hend rfl
  · exact lineEnd_notMem hend rfl
  · exact lineEnd_notMem hend rfl
  · rw [String.toList_append, List.mem_append, not_or]
    refine ⟨lineEnd_notMem hend rfl, ?_⟩
    rwa [String.toList_ofList]
  · rwa [String.toList_ofList]

lemma lineEnd_mem_showLiteral_iff (hend : isLineEnd d = true) (literal : Option Literal) :
    d ∈ (showLiteral literal).toList ↔
      ∃ v : String, literal = some (.text v) ∧ d ∈ v.toList := by
  have hnone : ∀ {text : String}, d ∉ text.toList → (∀ v, literal ≠ some (.text v)) →
      (d ∈ text.toList ↔ ∃ v : String, literal = some (.text v) ∧ d ∈ v.toList) := by
    intro text htext hv
    refine iff_of_false htext ?_
    rintro ⟨v, h, -⟩
    exact hv v h
  cases literal with
  | none => exact hnone (lineEnd_notMem hend rfl) (fun _ h => by cases h)
  | some value =>
      cases value with
      | number n =>
          refine hnone ?_ (fun _ h => by cases h)
          have hprint := lineEnd_notMem_print hend n.value
          rw [showLiteral, Number.printPointed]
          split_ifs
          · rw [String.toList_append, List.mem_append, not_or]
            exact ⟨hprint, lineEnd_notMem hend rfl⟩
          · exact hprint
      | text v => simp [showLiteral]

/-- A token is listed with the line ends in its text, unless it is a line end, and in its value. -/
lemma lineEnd_mem_listed_iff (hend : isLineEnd d = true) : d ∈ t.listed.toList ↔
    (t.kind ≠ .newline ∧ d ∈ t.lexeme.toList) ∨
      ∃ v : String, t.literal = some (.text v) ∧ d ∈ v.toList := by
  have hspace : d ∉ " ".toList := lineEnd_notMem hend rfl
  have htext : d ∈ (if t.kind = .newline then "\\n" else t.lexeme).toList ↔
      t.kind ≠ .newline ∧ d ∈ t.lexeme.toList := by
    split_ifs with hk
    · exact iff_of_false (lineEnd_notMem hend rfl) fun h => h.1 hk
    · simp [hk]
  simp only [listed, String.toList_append, List.mem_append, htext, hspace,
    lineEnd_notMem_name hend, lineEnd_mem_showLiteral_iff hend, false_or, or_false]

/-- The line ends with which a raw token is listed. -/
lemma Raw.lineEnd_mem_listed (h : t.Raw) (hend : isLineEnd d = true) :
    d ∈ t.listed.toList ↔ t.ShowsLineEnd d := by
  rw [lineEnd_mem_listed_iff hend]
  constructor
  · rintro (⟨hn, hd⟩ | ⟨v, hv, hd⟩)
    · rcases h.lineEnd d hd hend with hk | hk | ⟨v, hv, hd⟩
      · exact absurd hk hn
      · exact .comment hk hd
      · exact .value (h.text hv) hv hd
    · exact .value (h.text hv) hv hd
  · rintro (⟨hk, -, -⟩ | ⟨hk, hd⟩ | ⟨-, hv, hd⟩)
    · exact absurd hk h.kind
    · exact .inl ⟨by rw [hk]; decide, hd⟩
    · exact .inr ⟨_, hv, hd⟩

/-- The line ends with which a separator is listed. -/
lemma Raw.lineEnd_mem_listed_separator (h : t.Raw) (hend : isLineEnd d = true)
    (hk : t.kind = .semicolon ∨ t.kind = .newline) :
    d ∈ ({ t with kind := .separator } : Token).listed.toList ↔
      ({ t with kind := .separator } : Token).ShowsLineEnd d := by
  have hvalue : ∀ v : String, t.literal ≠ some (.text v) := by
    intro v hv
    rcases hk with hk | hk <;> rcases h.text hv with hv | hv <;> cases hk.symm.trans hv
  rw [lineEnd_mem_listed_iff hend]
  constructor
  · rintro (⟨-, hd⟩ | ⟨v, hv, -⟩)
    · rcases h.lineEnd d hd hend with hn | hc | ⟨v, hv, -⟩
      · have ht := h.newline hn
        refine .separator rfl ht ?_
        rw [ht] at hd
        exact List.mem_singleton.mp hd
      · rcases hk with hk | hk <;> cases hk.symm.trans hc
      · exact absurd hv (hvalue v)
    · exact absurd hv (hvalue v)
  · rintro (⟨-, ht, hd⟩ | ⟨hc, -⟩ | ⟨hs, -, -⟩)
    · refine .inl ⟨fun hn => (by cases hn), ?_⟩
      rw [ht, hd]
      exact List.mem_singleton_self _
    · cases hc
    · rcases hs with hs | hs <;> cases hs

/-- **The line ends with which tokens are listed**, for the raw tokens of a text and for those that
are parsed. -/
theorem lineEnd_mem_listed {source text : String} {raw : Bool} {ts : List Token}
    (h : collect (if raw then scan source text else separated (scan source text)) = .ok ts)
    (ht : t ∈ ts) (hend : isLineEnd d = true) : d ∈ t.listed.toList ↔ t.ShowsLineEnd d := by
  obtain ⟨all, hall⟩ : ∃ all : List Token, scan source text = all.map .ok := by
    cases raw with
    | true => exact ⟨ts, eq_map_ok_of_collect_eq h⟩
    | false => exact eq_map_ok_of_collect h
  have hraw : ∀ u ∈ all, u.Raw := by
    intro u hu
    have hmem : .ok u ∈ scan source text := by
      rw [hall]
      exact List.mem_map_of_mem hu
    exact raw_of_mem_scan hmem
  rw [hall] at h
  cases raw with
  | true =>
      rw [if_pos rfl, collect_map_ok] at h
      cases h
      exact (hraw t ht).lineEnd_mem_listed hend
  | false =>
      rw [if_neg Bool.false_ne_true, separated, separatedFrom_map_ok, collect_map_ok] at h
      cases h
      obtain ⟨u, hu, rfl⟩ := exists_of_mem_separate ht
      by_cases hk : u.kind.unified = .separator
      · rw [hk]
        exact (hraw u hu).lineEnd_mem_listed_separator hend
          (TokenKind.eq_of_unified_separator hk (hraw u hu).kind)
      · rw [TokenKind.eq_of_unified hk]
        exact (hraw u hu).lineEnd_mem_listed hend

end Token

namespace CommandLine

open Scan

/-! ### The lines of a token list -/

lemma count_lines_cons (l : String) (ls : List String) :
    (Outcome.lines (l :: ls)).toList.count '\n' =
      l.toList.count '\n' + 1 + (Outcome.lines ls).toList.count '\n' := by
  have hcons : Outcome.lines (l :: ls) = l ++ "\n" ++ Outcome.lines ls := by
    simp [Outcome.lines]
  rw [hcons, String.toList_append, String.toList_append, List.count_append, List.count_append]
  rfl

lemma length_le_count_lines (ls : List String) :
    ls.length ≤ (Outcome.lines ls).toList.count '\n' := by
  induction ls with
  | nil => exact Nat.le_refl 0
  | cons l ls ih =>
      rw [count_lines_cons, List.length_cons]
      omega

/-- There are as many lines as texts exactly if no text has a line feed. -/
lemma count_lines_eq_length_iff (ls : List String) :
    (Outcome.lines ls).toList.count '\n' = ls.length ↔ ∀ l ∈ ls, '\n' ∉ l.toList := by
  induction ls with
  | nil => simp [Outcome.lines]
  | cons l ls ih =>
      have hle := length_le_count_lines ls
      rw [List.forall_mem_cons, ← ih, ← List.count_eq_zero, count_lines_cons, List.length_cons]
      omega

/-- **The lines of a token list.** For a text without lexical errors, raw or as it is parsed: a
token is shown with a line end exactly if it is a separator that was a line end, a comment with the
line end in it, or a string or character with the line end in its value. There are as many lines as
tokens exactly if no token is shown with a line feed, and more otherwise. -/
theorem tokenize_lines {file text : String} {raw : Bool} {ts : List Token}
    (h : collect (if raw then scan file text else separated (scan file text)) = .ok ts) :
    (∀ t ∈ ts, ∀ d, isLineEnd d = true → (d ∈ t.listed.toList ↔ t.ShowsLineEnd d)) ∧
      (tokenize file false raw text).exit = 0 ∧
      ts.length ≤ (tokenize file false raw text).out.toList.count '\n' ∧
      ((tokenize file false raw text).out.toList.count '\n' = ts.length ↔
        ∀ t ∈ ts, ¬ t.ShowsLineEnd '\n') := by
  have hlisted : ∀ t ∈ ts, ∀ d, isLineEnd d = true → (d ∈ t.listed.toList ↔ t.ShowsLineEnd d) :=
    fun t ht d hend => Token.lineEnd_mem_listed h ht hend
  have hout : tokenize file false raw text = .ok (ts.map (·.listed)) := by
    simp only [tokenize, h]
    rfl
  have hlines : (tokenize file false raw text).out = Outcome.lines (ts.map (·.listed)) := by
    rw [hout]
    rfl
  refine ⟨hlisted, by rw [hout]; rfl, ?_, ?_⟩
  · rw [hlines, ← List.length_map (·.listed)]
    exact length_le_count_lines _
  · rw [hlines, ← List.length_map (·.listed), count_lines_eq_length_iff, List.forall_mem_map]
    exact forall₂_congr fun t ht => not_congr (hlisted t ht '\n' rfl)

/-- A comment and a character with line feeds in them, and a line end, among the raw tokens. -/
theorem tokenize_lines_mixed : ∃ ts : List Token,
    collect (if true then scan "<test>" "/*\n*/\n'\n';"
        else separated (scan "<test>" "/*\n*/\n'\n';")) = .ok ts ∧ ts.length = 5 ∧
      5 ≤ (tokenize "<test>" false true "/*\n*/\n'\n';").out.toList.count '\n' ∧
      (tokenize "<test>" false true "/*\n*/\n'\n';").out.toList.count '\n' ≠ 5 := by
  have h : collect (if true then scan "<test>" "/*\n*/\n'\n';"
        else separated (scan "<test>" "/*\n*/\n'\n';")) =
      .ok [⟨.comment, "/*\n*/", none, 1, "<test>"⟩, ⟨.newline, "\n", none, 2, "<test>"⟩,
        ⟨.char, "'\n'", some (.text "\n"), 3, "<test>"⟩, ⟨.semicolon, ";", none, 3, "<test>"⟩,
        Token.endOf "<test>" 3] := rfl
  obtain ⟨-, -, hle, hiff⟩ := tokenize_lines h
  exact ⟨_, h, rfl, hle, fun hcount =>
    hiff.mp hcount _ List.mem_cons_self (.comment rfl (by decide))⟩

/-- A separator that was a line end takes two lines, and a string with a line feed in it three. -/
theorem tokenize_breaks_lines :
    ((collect (separated (scan "<test>" "a\nb"))).map List.length = .ok 4 ∧
        (tokenize "<test>" false false "a\nb").out =
          "IDENTIFIER a null\nSEPARATOR \n null\nIDENTIFIER b null\nEOF  null\n" ∧
        (tokenize "<test>" false false "a\nb").out.toList.count '\n' = 5) ∧
      (collect (scan "<test>" "\"\n\"")).map List.length = .ok 2 ∧
        (tokenize "<test>" false true "\"\n\"").out = "STRING \"\n\" \n\nEOF  null\n" ∧
        (tokenize "<test>" false true "\"\n\"").out.toList.count '\n' = 4 :=
  ⟨⟨rfl, rfl, rfl⟩, rfl, rfl, rfl⟩

end CommandLine

end Tern
