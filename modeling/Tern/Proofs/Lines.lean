/-
The lines of tokens. Line ends are counted where they are met: by the tokens for them, in strings
and in block comments. A character literal may hold a line end as it is, and this one is not
counted; so every token stands on its line less the number of such literals in front of it.

* `Scan.Step.Counts`, `Scan.step_counts`: what a step counts;
* `Item.hidesBreak`: the literals whose line end is not counted;
* `Scan.line_of_token`: the line of every token.
-/
import Mathlib.Data.List.TakeWhile
import Mathlib.Tactic
import Tern.Proofs.Quotation
import Tern.Proofs.Tiling

namespace Tern

namespace Scan

/-! ### The line ends of a step -/

/-- Whether a token of a kind holds a line end that is not counted. -/
def hides (kind : TokenKind) (stretch : List Char) : Bool :=
  kind = .char && stretch.any isLineEnd

end Scan

/-- An item that is a character literal and holds a line end as it is. -/
def Item.hidesBreak (i : Item) : Bool :=
  match i.token with
  | .ok t => Scan.hides t.kind i.stretch
  | .error _ => false

namespace Scan

/-- The line ends in the stretch of a token are counted, except for one in a character literal, and
none is cut in two at its end. -/
structure Step.Counts (s : Step) (kind : TokenKind) : Prop where
  breaks : s.breaks + (hides kind s.stretch).toNat = lineBreaks s.stretch
  seamless : Seamless s.stretch s.rest

namespace Step.Counts

variable {s : Step} {kind : TokenKind}

/-- A stretch on one line. -/
lemma inline (hb : s.breaks = 0) (h : ∀ c ∈ s.stretch, isLineEnd c = false) : s.Counts kind where
  breaks := by
    have hnone : s.stretch.any isLineEnd = false :=
      List.any_eq_false.mpr fun c hc => by simp [h c hc]
    rw [hb, hides, hnone, Bool.and_false, lineBreaks_eq_zero h]
    rfl
  seamless hlast := by cases h '\r' (List.mem_of_getLast? hlast)

/-- A stretch that a character other than a carriage return closes. -/
lemma closed (front : List Char) {c : Char} (hs : s.stretch = front ++ [c]) (hc : c ≠ '\r')
    (hk : kind ≠ .char) (hb : s.breaks = lineBreaks s.stretch) : s.Counts kind where
  breaks := by
    rw [hides, decide_eq_false hk, Bool.false_and, hb]
    rfl
  seamless hlast := by
    rw [hs, List.getLast?_concat] at hlast
    exact absurd (Option.some.inj hlast) hc

end Step.Counts

/-- A class of characters without the two of line ends. -/
lemma isLineEnd_of_class {p : Char → Bool} (hr : p '\r' = false) (hn : p '\n' = false) {c : Char}
    (h : p c = true) : isLineEnd c = false := by
  by_contra hc
  rw [Bool.not_eq_false, isLineEnd, Bool.or_eq_true, decide_eq_true_eq, decide_eq_true_eq] at hc
  rcases hc with rfl | rfl
  · rw [hr] at h
    cases h
  · rw [hn] at h
    cases h

lemma isLineEnd_takeWhile {p : Char → Bool} (hr : p '\r' = false) (hn : p '\n' = false)
    (cs : List Char) : ∀ c ∈ cs.takeWhile p, isLineEnd c = false :=
  fun _ hc => isLineEnd_of_class hr hn (List.mem_takeWhile_imp hc)

/-- A character whose step counts nothing is no line end. -/
lemma isLineEnd_of_breaks {c : Char} (h : (step c []).breaks = 0) : isLineEnd c = false :=
  isLineEnd_of_class (p := fun c => (step c []).breaks = 0) rfl rfl (decide_eq_true h)

section Counts

variable {c : Char} {cs : List Char} {kind : TokenKind} {literal : Option Literal}

lemma withEqual_counts {joined alone : TokenKind} (hc : isLineEnd c = false) :
    (withEqual c joined alone cs).Counts kind := by
  unfold withEqual
  split
  · exact .inline rfl (List.forall_mem_cons.mpr ⟨hc, List.forall_mem_singleton.mpr rfl⟩)
  · exact .inline rfl (List.forall_mem_singleton.mpr hc)

/-- The body of a block comment that is closed. -/
lemma exists_blockComment_eq (h : (blockComment cs).2.2 = true) :
    ∃ front, (blockComment cs).1 = front ++ ['/'] := by
  fun_induction blockComment cs with
  | case1 => cases h
  | case2 cs => exact ⟨['*'], rfl⟩
  | case3 c cs _ stretch rest closed heq ih =>
      rw [heq] at ih
      obtain ⟨front, hfront⟩ := ih h
      exact ⟨c :: front, congrArg (c :: ·) hfront⟩

lemma scanSlash_counts (h : (scanSlash cs).found = .ok (kind, literal)) :
    (scanSlash cs).Counts kind := by
  fun_cases scanSlash cs with
  | case1 cs =>
      exact .inline rfl (List.forall_mem_cons.mpr ⟨rfl, List.forall_mem_cons.mpr
        ⟨rfl, isLineEnd_takeWhile rfl rfl cs⟩⟩)
  | case2 cs stretch rest closed hbody =>
      simp only [scanSlash, hbody] at h
      cases closed with
      | false => cases h
      | true =>
          cases h
          obtain ⟨front, hfront⟩ := exists_blockComment_eq (congrArg (·.2.2) hbody)
          have hbreaks : commentBreaks [] cs = lineBreaks stretch := by
            rw [commentBreaks_eq, hbody]
            rfl
          rw [hbody] at hfront
          exact .closed ('/' :: '*' :: front) (congrArg (fun s => '/' :: '*' :: s) hfront)
            (by decide) (by decide) (hbreaks.trans
              ((lineBreaks_cons rfl _).trans (lineBreaks_cons rfl _)).symm)
  | case3 cs => exact withEqual_counts rfl

lemma scanString_counts (h : (scanString cs).found = .ok (kind, literal)) :
    (scanString cs).Counts kind := by
  rcases hbody : stringBody cs with ⟨text, stretch, rest⟩
  simp only [scanString, hbody] at h ⊢
  cases text with
  | error fault => cases fault <;> cases h
  | ok text =>
      cases h
      obtain ⟨front, -, hfront⟩ := spelling_of_stringBody (congrArg (·.1) hbody)
      have hbreaks : stringBreaks cs = lineBreaks stretch := by
        rw [stringBreaks_of_ok (congrArg Prod.fst hbody), hbody]
      rw [hbody] at hfront
      exact .closed ('"' :: front) (congrArg ('"' :: ·) hfront) (by decide) (by decide)
        (hbreaks.trans (lineBreaks_cons rfl _).symm)

/-- A character literal holds one line end at most. -/
lemma lineBreaks_quoted (c : Char) : lineBreaks [c, '\''] = ([c].any isLineEnd).toNat := by
  rw [List.any_cons, List.any_nil, Bool.or_false]
  cases hc : isLineEnd c with
  | false =>
      rw [lineBreaks_cons hc]
      rfl
  | true =>
      rw [isLineEnd, Bool.or_eq_true, decide_eq_true_eq, decide_eq_true_eq] at hc
      rcases hc with rfl | rfl
      · rfl
      · rfl

lemma closeChar_counts {s : List Char} (hs : lineBreaks (s ++ ['\'']) = (s.any isLineEnd).toNat)
    (h : (closeChar c s cs).found = .ok (kind, literal)) : (closeChar c s cs).Counts kind := by
  fun_cases closeChar c s cs with
  | case1 cs =>
      cases h
      refine ⟨?_, fun hlast => ?_⟩
      · rw [hs, hides]
        simp [isLineEnd]
      · rw [List.getLast?_concat] at hlast
        cases hlast
  | case2 cs hne =>
      rw [closeChar] at h
      · cases h
      · exact hne

lemma scanChar_counts (h : (scanChar cs).found = .ok (kind, literal)) :
    (scanChar cs).Counts kind := by
  fun_cases scanChar cs with
  | case1 => cases h
  | case2 => cases h
  | case3 c cs d hd =>
      rw [scanChar, hd] at h
      exact closeChar_counts
        ((lineBreaks_cons rfl _).trans ((lineBreaks_cons rfl _).trans (lineBreaks_quoted c))) h
  | case4 c cs hd =>
      rw [scanChar, hd] at h
      cases h
  | case5 c cs hend hesc =>
      rw [scanChar] at h
      · exact closeChar_counts ((lineBreaks_cons rfl _).trans (lineBreaks_quoted c)) h
      · exact hend
      · exact hesc

lemma scanAnnotated_counts (h : (scanAnnotated cs).found = .ok (kind, literal)) :
    (scanAnnotated cs).Counts kind := by
  fun_cases scanAnnotated cs with
  | case1 => cases h
  | case2 c cs hc =>
      exact .inline rfl (List.forall_mem_cons.mpr ⟨rfl, List.forall_mem_cons.mpr
        ⟨isLineEnd_of_class rfl rfl hc, isLineEnd_takeWhile rfl rfl cs⟩⟩)
  | case3 c cs hc =>
      rw [scanAnnotated, if_neg hc] at h
      cases h

lemma scanNumber_counts (hc : isLineEnd c = false) : (scanNumber c cs).Counts kind := by
  have hdigits : ∀ cs : List Char, ∀ d ∈ cs.takeWhile Char.isDigit, isLineEnd d = false :=
    isLineEnd_takeWhile rfl rfl
  have hwhole : ∀ d ∈ c :: cs.takeWhile Char.isDigit, isLineEnd d = false :=
    List.forall_mem_cons.mpr ⟨hc, hdigits cs⟩
  refine .inline rfl ?_
  simp only [scanNumber]
  split
  · rename_i d ds _
    split
    · rename_i hd
      exact List.forall_mem_append.mpr ⟨hwhole, List.forall_mem_cons.mpr ⟨rfl,
        List.forall_mem_cons.mpr ⟨isLineEnd_of_class rfl rfl hd, hdigits ds⟩⟩⟩
    · rwa [List.isEmpty_nil, if_pos rfl, List.append_nil]
  · rwa [List.isEmpty_nil, if_pos rfl, List.append_nil]

/-- **The line ends of a step**: those in the stretch of its token are counted, except for one in a
character literal. -/
theorem step_counts (h : (step c cs).found = .ok (kind, literal)) : (step c cs).Counts kind := by
  cases shape c with
  | single k hk hstep =>
      have hc : isLineEnd c = false := isLineEnd_of_breaks (by rw [hstep]; rfl)
      rw [hstep]
      exact .inline rfl (List.forall_mem_singleton.mpr hc)
  | withEqual joined alone hj hk hstep =>
      have hc : isLineEnd c = false := isLineEnd_of_breaks (by rw [hstep]; rfl)
      rw [hstep]
      exact withEqual_counts hc
  | dot hc =>
      subst hc
      rw [step_dot]
      split
      · exact .inline rfl (by simp [Step.plain, isLineEnd])
      · exact .inline rfl (by simp [Step.plain, isLineEnd])
  | question hc =>
      subst hc
      rw [step_question]
      split
      · exact .inline rfl (by simp [Step.plain, isLineEnd])
      · exact .inline rfl (by simp [Step.fault, isLineEnd])
  | minus hc =>
      subst hc
      rw [step_minus]
      split
      · exact .inline rfl (by simp [Step.plain, isLineEnd])
      · exact withEqual_counts rfl
  | slash hc =>
      subst hc
      exact scanSlash_counts h
  | carriageReturn hc =>
      subst hc
      cases cs with
      | nil =>
          cases h
          exact ⟨rfl, fun _ hhead => by cases hhead⟩
      | cons d ds =>
          by_cases hd : d = '\n'
          · subst hd
            cases h
            exact .closed ['\r'] rfl (by decide) (by decide) rfl
          · rw [step_carriageReturn_of_ne hd] at h ⊢
            cases h
            exact ⟨rfl, fun _ hhead => hd (Option.some.inj hhead)⟩
  | lineFeed hc =>
      subst hc
      cases h
      exact .closed [] rfl (by decide) (by decide) rfl
  | quote hc =>
      subst hc
      exact scanString_counts h
  | apostrophe hc =>
      subst hc
      exact scanChar_counts h
  | annotated hc =>
      subst hc
      exact scanAnnotated_counts h
  | space hstep =>
      have hc : isLineEnd c = false := isLineEnd_of_breaks (by rw [hstep]; rfl)
      rw [hstep]
      exact .inline rfl (List.forall_mem_cons.mpr ⟨hc, isLineEnd_takeWhile rfl rfl cs⟩)
  | digit hstep =>
      have hc : isLineEnd c = false := isLineEnd_of_breaks (by rw [hstep]; rfl)
      rw [hstep]
      exact scanNumber_counts hc
  | word hstep =>
      have hc : isLineEnd c = false := isLineEnd_of_breaks (by rw [hstep]; rfl)
      rw [hstep]
      exact .inline rfl (List.forall_mem_cons.mpr ⟨hc, isLineEnd_takeWhile rfl rfl cs⟩)
  | unexpected hstep =>
      rw [hstep] at h
      cases h

end Counts

/-! ### The lines of the items -/

section Items

variable {source : String} {fuel line : Nat} {cs : List Char} {i : Item} {later : List Item}

/-- The stretches of the items are the text. -/
lemma flatMap_stretch (source : String) (line : Nat) (hf : cs.length ≤ fuel) :
    (itemsFrom source fuel line cs).flatMap (·.stretch) = cs := by
  obtain ⟨pieces, last, hitems, hflat, -⟩ := exists_pieces source line hf
  rw [hitems, List.flatMap_append, List.flatMap_singleton, endItem, List.append_nil,
    List.flatMap_def, hflat]

/-- The first item is the end or that of a step, behind which scanning goes on. -/
lemma itemsFrom_eq_cons (hf : cs.length ≤ fuel) (h : itemsFrom source fuel line cs = i :: later) :
    (i = endItem source line ∧ later = []) ∨
      ∃ c rest fuel', cs = c :: rest ∧ (step c rest).rest.length ≤ fuel' ∧
        i = (step c rest).item source line ∧
        itemsFrom source fuel' (line + (step c rest).breaks) (step c rest).rest = later := by
  cases cs with
  | nil =>
      cases fuel with
      | zero =>
          cases h
          exact .inl ⟨rfl, rfl⟩
      | succ fuel =>
          cases h
          exact .inl ⟨rfl, rfl⟩
  | cons c rest =>
      cases fuel with
      | zero => cases hf
      | succ fuel =>
          cases h
          exact .inr ⟨c, rest, fuel, rfl, (length_rest_le c rest).trans (Nat.le_of_succ_le_succ hf),
            rfl, rfl⟩

/-- The token of a step stands on the line where its stretch begins. -/
lemma line_item {s : Step} {t : Token} (h : (s.item source line).token = .ok t) :
    t.line = line ∧ ∃ literal, s.found = .ok (t.kind, literal) := by
  cases hf : s.found with
  | error fault =>
      simp only [Step.item, hf] at h
      cases h
  | ok found =>
      obtain ⟨kind, literal⟩ := found
      simp only [Step.item, hf] at h
      cases h
      exact ⟨rfl, literal, rfl⟩

/-- The token behind some items of a text that begins on a line. -/
lemma line_of_itemsFrom {before after : List Item} {t : Token} (hf : cs.length ≤ fuel)
    (hitems : itemsFrom source fuel line cs = before ++ i :: after)
    (hok : ∀ j ∈ before, ∃ u, j.token = .ok u) (ht : i.token = .ok t) :
    t.line + before.countP (·.hidesBreak) = line + lineBreaks (before.flatMap (·.stretch)) := by
  induction before generalizing fuel line cs with
  | nil =>
      have hline : t.line = line := by
        obtain ⟨rfl, -⟩ | ⟨c, rest, fuel', -, -, rfl, -⟩ := itemsFrom_eq_cons hf hitems
        · cases ht
          rfl
        · exact (line_item ht).1
      rw [hline]
      rfl
  | cons j before ih =>
      obtain ⟨hj, hbefore⟩ := List.forall_mem_cons.mp hok
      obtain ⟨-, hnil⟩ | ⟨c, rest, fuel', rfl, hfuel, rfl, hrest⟩ := itemsFrom_eq_cons hf hitems
      · cases before <;> cases hnil
      · obtain ⟨u, hu⟩ := hj
        obtain ⟨-, literal, hfound⟩ := line_item hu
        have hcounts : (step c rest).Counts u.kind := step_counts hfound
        -- The stretches to come are the beginning of the rest, where no line end is cut in two.
        have hflat : before.flatMap (·.stretch) ++ (i :: after).flatMap (·.stretch) =
            (step c rest).rest := by
          rw [← List.flatMap_append]
          exact (congrArg _ hrest).symm.trans (flatMap_stretch source _ hfuel)
        have hseam : Seamless (step c rest).stretch (before.flatMap (·.stretch)) := by
          intro hlast hhead
          refine hcounts.seamless hlast ?_
          rw [← hflat, List.head?_append, hhead]
          rfl
        have hhides : Item.hidesBreak ((step c rest).item source line) =
            hides u.kind (step c rest).stretch := by
          rw [Item.hidesBreak, hu]
          rfl
        have hih := ih hfuel hrest hbefore
        have hbreaks := hcounts.breaks
        rw [List.flatMap_cons, Step.stretch_item, lineBreaks_append hseam, List.countP_cons, hhides]
        cases hb : hides u.kind (step c rest).stretch with
        | false =>
            rw [hb, Bool.toNat_false] at hbreaks
            rw [if_neg Bool.false_ne_true]
            omega
        | true =>
            rw [hb, Bool.toNat_true] at hbreaks
            rw [if_pos rfl]
            omega

end Items

/-- **The lines of tokens.** A token with no error in front of it has the stretches of the items
before it in front of it. It stands one line behind the line ends that are there, but for those in
character literals; so its line is right exactly if no such literal is there. -/
theorem line_of_token {source text : String} {before after : List Item} {i : Item} {t : Token}
    (hitems : items source text = before ++ i :: after)
    (hok : ∀ j ∈ before, ∃ u, j.token = .ok u) (ht : i.token = .ok t) :
    text.toList = before.flatMap (·.stretch) ++ i.stretch ++ after.flatMap (·.stretch) ∧
      t.line + before.countP (·.hidesBreak) = 1 + lineBreaks (before.flatMap (·.stretch)) ∧
      (t.line = 1 + lineBreaks (before.flatMap (·.stretch)) ↔
        ∀ j ∈ before, j.hidesBreak = false) := by
  have hline : t.line + before.countP (·.hidesBreak) =
      1 + lineBreaks (before.flatMap (·.stretch)) := line_of_itemsFrom (le_refl _) hitems hok ht
  refine ⟨?_, hline, ?_⟩
  · have hflat := flatMap_stretch source 1 (le_refl text.toList.length)
    change (items source text).flatMap (·.stretch) = text.toList at hflat
    rw [← hflat, hitems, List.flatMap_append, List.flatMap_cons, List.append_assoc]
  · rw [← hline, left_eq_add, List.countP_eq_zero]
    simp only [Bool.not_eq_true]

theorem line_of_token_mixed :
    ∃ before, items "<test>" "\"a\r\n\\n\"\r/*\n\r*/\r\n'\n'b" = before ++
        [⟨['b'], .ok ⟨.identifier, "b", none, 6, "<test>"⟩⟩, endItem "<test>" 6] ∧
      6 + before.countP (·.hidesBreak) = 1 + lineBreaks (before.flatMap (·.stretch)) := by
  have h : items "<test>" "\"a\r\n\\n\"\r/*\n\r*/\r\n'\n'b" =
      [⟨"\"a\r\n\\n\"".toList, .ok ⟨.string, "\"a\r\n\\n\"", some (.text "a\r\n\n"), 1, "<test>"⟩⟩,
        ⟨['\r'], .ok ⟨.newline, "\n", none, 2, "<test>"⟩⟩,
        ⟨"/*\n\r*/".toList, .ok ⟨.comment, "/*\n\r*/", none, 3, "<test>"⟩⟩,
        ⟨['\r', '\n'], .ok ⟨.newline, "\n", none, 5, "<test>"⟩⟩,
        ⟨['\'', '\n', '\''], .ok ⟨.char, "'\n'", some (.text "\n"), 6, "<test>"⟩⟩] ++
        [⟨['b'], .ok ⟨.identifier, "b", none, 6, "<test>"⟩⟩, endItem "<test>" 6] := by
    rfl
  exact ⟨_, h, (line_of_token h (by simp) rfl).2.1⟩

/-- A line end in a character literal is not counted, so that the end of this text is on line 1. -/
theorem line_behind_hidden_break :
    scan "<test>" "'\n'" = [.ok ⟨.char, "'\n'", some (.text "\n"), 1, "<test>"⟩,
        .ok (Token.endOf "<test>" 1)] ∧
      1 + lineBreaks "'\n'".toList = 2 :=
  ⟨rfl, rfl⟩

end Scan

end Tern
