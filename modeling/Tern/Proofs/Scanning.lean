/-
How scanning goes from token to token. A step looks at its own stretch and at most two
characters further, and few characters could prolong a stretch: a blank prolongs blanks and
comments only. None of them is a line feed; so a text in front of a line feed is scanned as it
would be alone. Only a carriage return at its end makes one line end together with the line feed.

* `Scan.Shape`: the ways in which a character can begin a stretch;
* `Scan.step_covers`: a step covers its stretch and leaves the rest;
* `Scan.step_append`: a step in front of a character that prolongs no word;
* `Scan.lineBreaks_append`: the line ends of two pieces, if none is cut in two between them;
* `Scan.commentBreaks_eq`, `Scan.stringBreaks_eq`: the counts of line ends in comments and strings;
* `Scan.step_finds`: the kinds of tokens that a step can find, and their values;
* `Scan.Reaches`: scanning without errors from a text to a rest of it, token by token;
* `Scan.Reaches.append_lineFeed`: the tokens of two texts with a line feed between them.
-/
import Mathlib.Tactic
import Tern.Proofs.Relabel
import Tern.Token.Scan

namespace Tern

namespace Scan

/-! ### The shapes of stretches -/

/-- Kinds of raw tokens that have no value and keep the whole of their stretch, up to the form of
line ends. -/
def isPlain : TokenKind → Bool
  | .number | .string | .char | .annotated | .separator | .eof => false
  | _ => true

/-- The ways in which a character can begin a stretch. -/
inductive Shape (c : Char) : Prop
  | single (kind : TokenKind) (hk : isPlain kind = true)
      (h : ∀ cs, step c cs = .plain kind [c] cs) (hn : kind ≠ .identifier)
  | withEqual (joined alone : TokenKind)
      (hj : isPlain joined = true) (hk : isPlain alone = true)
      (h : ∀ cs, step c cs = withEqual c joined alone cs)
      (hn : joined ≠ .identifier ∧ alone ≠ .identifier)
  | dot (h : c = '.')
  | question (h : c = '?')
  | minus (h : c = '-')
  | slash (h : c = '/')
  | carriageReturn (h : c = '\r')
  | lineFeed (h : c = '\n')
  | quote (h : c = '"')
  | apostrophe (h : c = '\'')
  | annotated (h : c = '@')
  | space (h : ∀ cs, step c cs = .plain .whitespace (c :: cs.takeWhile isSpace)
      (cs.dropWhile isSpace)) (hc : isSpace c = true)
  | digit (h : ∀ cs, step c cs = scanNumber c cs)
  | word (h : ∀ cs, step c cs = scanWord c cs) (hc : startsName c = true)
  | unexpected (h : ∀ cs, step c cs = .fault (.unexpected c) [c] cs 0)

/-- The characters that are told apart one by one. -/
def symbols : List Char :=
  ['(', ')', '\x7b', '\x7d', '[', ']', ',', ':', ';', '\\', '.', '?', '-', '+', '*', '%', '^', '~',
    '!', '=', '<', '>', '/', '\r', '\n', '"', '\'', '@']

lemma step_of_notMem {c : Char} (h : c ∉ symbols) (cs : List Char) :
    step c cs =
      if isSpace c then .plain .whitespace (c :: cs.takeWhile isSpace) (cs.dropWhile isSpace)
      else if c.isDigit then scanNumber c cs
      else if startsName c then scanWord c cs
      else .fault (.unexpected c) [c] cs 0 := by
  unfold step
  split <;> first | rfl | exact absurd (by decide) h

/-- Letters are no digits. -/
lemma isDigit_of_startsName {c : Char} (h : startsName c = true) : c.isDigit = false := by
  by_contra hd
  simp only [Char.isDigit, ge_iff_le, Bool.not_eq_false, Bool.and_eq_true,
    decide_eq_true_eq] at hd
  change (decide ('A'.val ≤ c.val ∧ c.val ≤ 'Z'.val) || ('a'.val ≤ c.val && c.val ≤ 'z'.val) ||
    c = '_') = true at h
  simp only [Bool.or_eq_true, Bool.and_eq_true, decide_eq_true_eq] at h
  rcases h with (h | h) | rfl
  · exact absurd (UInt32.le_trans h.1 hd.2) (by decide)
  · exact absurd (UInt32.le_trans h.1 hd.2) (by decide)
  · exact absurd hd (by decide)

/-- What begins with a letter is a word. -/
lemma step_of_startsName {c : Char} (h : startsName c = true) (cs : List Char) :
    step c cs = scanWord c cs := by
  have hnot : (symbols ++ [' ', '\t', '\x0c']).all (!startsName ·) = true := by decide
  have hmem : c ∉ symbols ++ [' ', '\t', '\x0c'] := by
    intro hc
    have hc' := List.all_eq_true.mp hnot c hc
    rw [h] at hc'
    cases hc'
  rw [List.mem_append, not_or] at hmem
  have hspace : isSpace c = false := by simpa [isSpace, and_assoc] using hmem.2
  rw [step_of_notMem hmem.1, hspace, isDigit_of_startsName h, h]
  rfl

lemma shape (c : Char) : Shape c := by
  by_cases h : c ∈ symbols
  · simp only [symbols, List.mem_cons, List.not_mem_nil, or_false] at h
    rcases h with rfl | rfl | rfl | rfl | rfl | rfl | rfl | rfl | rfl | rfl | rfl | rfl | rfl |
      rfl | rfl | rfl | rfl | rfl | rfl | rfl | rfl | rfl | rfl | rfl | rfl | rfl | rfl | rfl
    all_goals first
      | exact .single _ (by decide) (fun _ => rfl) (by decide)
      | exact .withEqual _ _ (by decide) (by decide) (fun _ => rfl) (by decide)
      | exact .dot rfl
      | exact .question rfl
      | exact .minus rfl
      | exact .slash rfl
      | exact .carriageReturn rfl
      | exact .lineFeed rfl
      | exact .quote rfl
      | exact .apostrophe rfl
      | exact .annotated rfl
  · by_cases hs : isSpace c
    · exact .space (fun cs => by rw [step_of_notMem h, if_pos hs]) hs
    · by_cases hd : c.isDigit
      · exact .digit fun cs => by rw [step_of_notMem h, if_neg hs, if_pos hd]
      · by_cases hn : startsName c
        · exact .word (fun cs => by rw [step_of_notMem h, if_neg hs, if_neg hd, if_pos hn]) hn
        · exact .unexpected fun cs => by
            rw [step_of_notMem h, if_neg hs, if_neg hd, if_neg hn]

/-- A blank begins a token of blanks. -/
lemma step_of_isSpace {c : Char} (h : isSpace c = true) (cs : List Char) :
    step c cs = .plain .whitespace (c :: cs.takeWhile isSpace) (cs.dropWhile isSpace) := by
  simp only [isSpace, Bool.or_eq_true, decide_eq_true_eq] at h
  rcases h with (rfl | rfl) | rfl <;> rfl

/-! ### What a step covers -/

lemma blockComment_covers (cs : List Char) :
    (blockComment cs).1 ++ (blockComment cs).2.1 = cs := by
  fun_induction blockComment cs with
  | case1 => rfl
  | case2 cs => rfl
  | case3 c cs _ stretch rest closed heq ih =>
      rw [heq] at ih
      exact congrArg (c :: ·) ih

lemma stringBody_covers (cs : List Char) :
    (stringBody cs).2.1 ++ (stringBody cs).2.2 = cs := by
  fun_induction stringBody cs with
  | case1 => rfl
  | case2 cs => rfl
  | case3 => rfl
  | case4 c cs d hd text stretch rest heq ih =>
      rw [heq] at ih
      exact congrArg (fun r => '\\' :: c :: r) ih
  | case5 c cs hd => rfl
  | case6 c cs _ _ _ text stretch rest heq ih =>
      rw [heq] at ih
      exact congrArg (c :: ·) ih

lemma scanString_covers (cs : List Char) :
    ∃ s, (scanString cs).stretch = '"' :: s ∧ s ++ (scanString cs).rest = cs := by
  have h := stringBody_covers cs
  rcases hb : stringBody cs with ⟨text, stretch, rest⟩
  rw [hb] at h
  refine ⟨stretch, ?_⟩
  simp only [scanString, hb]
  rcases text with fault | text
  · cases fault <;> exact ⟨rfl, h⟩
  · exact ⟨rfl, h⟩

lemma closeChar_covers (c : Char) (s cs : List Char) :
    ∃ more, (closeChar c s cs).stretch = s ++ more ∧ more ++ (closeChar c s cs).rest = cs := by
  unfold closeChar
  split
  · exact ⟨['\''], rfl, rfl⟩
  · exact ⟨[], (List.append_nil s).symm, rfl⟩

lemma scanChar_covers (cs : List Char) :
    ∃ s, (scanChar cs).stretch = '\'' :: s ∧ s ++ (scanChar cs).rest = cs := by
  have hclose : ∀ (c : Char) (s cs : List Char), ∃ more,
      (closeChar c ('\'' :: s) cs).stretch = '\'' :: (s ++ more) ∧
        (s ++ more) ++ (closeChar c ('\'' :: s) cs).rest = s ++ cs := by
    intro c s cs
    obtain ⟨more, h₁, h₂⟩ := closeChar_covers c ('\'' :: s) cs
    exact ⟨more, h₁, by rw [List.append_assoc, h₂]⟩
  unfold scanChar
  split
  · exact ⟨[], rfl, rfl⟩
  · exact ⟨['\\'], rfl, rfl⟩
  · rename_i c cs
    split
    · rename_i d _
      obtain ⟨more, h⟩ := hclose d ['\\', c] cs
      exact ⟨_, h⟩
    · exact ⟨['\\', c], rfl, rfl⟩
  · rename_i c cs _ _
    obtain ⟨more, h⟩ := hclose c [c] cs
    exact ⟨_, h⟩

lemma scanAnnotated_covers (cs : List Char) :
    ∃ s, (scanAnnotated cs).stretch = '@' :: s ∧ s ++ (scanAnnotated cs).rest = cs := by
  unfold scanAnnotated
  split
  · exact ⟨[], rfl, rfl⟩
  · split
    · refine ⟨_, rfl, congrArg (_ :: ·) List.takeWhile_append_dropWhile⟩
    · exact ⟨[], rfl, rfl⟩

lemma scanNumber_covers (c : Char) (cs : List Char) :
    ∃ s, (scanNumber c cs).stretch = c :: s ∧ s ++ (scanNumber c cs).rest = cs := by
  have hsplit : cs.takeWhile Char.isDigit ++ cs.dropWhile Char.isDigit = cs :=
    List.takeWhile_append_dropWhile
  simp only [scanNumber]
  split
  · rename_i d ds hrest
    split
    · refine ⟨cs.takeWhile Char.isDigit ++ '.' :: d :: ds.takeWhile Char.isDigit, rfl, ?_⟩
      rw [List.append_assoc, List.cons_append, List.cons_append,
        List.takeWhile_append_dropWhile, ← hrest, hsplit]
    · exact ⟨_, congrArg (c :: ·) (List.append_nil _), hsplit⟩
  · exact ⟨_, congrArg (c :: ·) (List.append_nil _), hsplit⟩

lemma withEqual_covers (c : Char) (joined alone : TokenKind) (cs : List Char) :
    ∃ s, (withEqual c joined alone cs).stretch = c :: s ∧
      s ++ (withEqual c joined alone cs).rest = cs := by
  unfold withEqual
  split
  · exact ⟨['='], rfl, rfl⟩
  · exact ⟨[], rfl, rfl⟩

lemma scanSlash_covers (cs : List Char) :
    ∃ s, (scanSlash cs).stretch = '/' :: s ∧ s ++ (scanSlash cs).rest = cs := by
  unfold scanSlash
  split
  · exact ⟨_, rfl, congrArg ('/' :: ·) List.takeWhile_append_dropWhile⟩
  · exact ⟨_, rfl, congrArg ('*' :: ·) (blockComment_covers _)⟩
  · exact withEqual_covers _ _ _ _

lemma step_dot (cs : List Char) : step '.' cs = match cs with
    | '.' :: '.' :: cs => .plain .ellipsis ['.', '.', '.'] cs
    | _ => .plain .dot ['.'] cs := rfl

lemma step_question (cs : List Char) : step '?' cs = match cs with
    | '.' :: cs => .plain .safeDot ['?', '.'] cs
    | _ => .fault (.unexpected '?') ['?'] cs 0 := rfl

lemma step_minus (cs : List Char) : step '-' cs = match cs with
    | '>' :: cs => .plain .arrow ['-', '>'] cs
    | _ => withEqual '-' .minusEqual .minus cs := rfl

lemma step_carriageReturn (cs : List Char) : step '\r' cs = match cs with
    | '\n' :: cs => ⟨['\r', '\n'], cs, 1, .ok (.newline, none)⟩
    | _ => ⟨['\r'], cs, 1, .ok (.newline, none)⟩ := rfl

lemma step_lineFeed (cs : List Char) :
    step '\n' cs = ⟨['\n'], cs, 1, .ok (.newline, none)⟩ := rfl

/-- **A step covers its stretch**, which begins with the character it is given, and leaves the
rest. -/
theorem step_covers (c : Char) (cs : List Char) :
    ∃ s, (step c cs).stretch = c :: s ∧ s ++ (step c cs).rest = cs := by
  cases shape c with
  | single kind hk h => exact ⟨[], by rw [h]; rfl, by rw [h]; rfl⟩
  | withEqual joined alone hj hk h =>
      rw [h]
      exact withEqual_covers c joined alone cs
  | dot h =>
      subst h
      rw [step_dot]
      split
      · exact ⟨['.', '.'], rfl, rfl⟩
      · exact ⟨[], rfl, rfl⟩
  | question h =>
      subst h
      rw [step_question]
      split
      · exact ⟨['.'], rfl, rfl⟩
      · exact ⟨[], rfl, rfl⟩
  | minus h =>
      subst h
      rw [step_minus]
      split
      · exact ⟨['>'], rfl, rfl⟩
      · exact withEqual_covers _ _ _ _
  | slash h =>
      subst h
      exact scanSlash_covers cs
  | carriageReturn h =>
      subst h
      rw [step_carriageReturn]
      split
      · exact ⟨['\n'], rfl, rfl⟩
      · exact ⟨[], rfl, rfl⟩
  | lineFeed h =>
      subst h
      exact ⟨[], rfl, rfl⟩
  | quote h =>
      subst h
      exact scanString_covers cs
  | apostrophe h =>
      subst h
      exact scanChar_covers cs
  | annotated h =>
      subst h
      exact scanAnnotated_covers cs
  | space h =>
      rw [h]
      exact ⟨_, rfl, List.takeWhile_append_dropWhile⟩
  | digit h =>
      rw [h]
      exact scanNumber_covers c cs
  | word h =>
      rw [h]
      exact ⟨_, rfl, List.takeWhile_append_dropWhile⟩
  | unexpected h => exact ⟨[], by rw [h]; rfl, by rw [h]; rfl⟩

lemma length_rest_le (c : Char) (cs : List Char) : (step c cs).rest.length ≤ cs.length := by
  obtain ⟨s, -, hs⟩ := step_covers c cs
  have hlength := congrArg List.length hs
  rw [List.length_append] at hlength
  omega

/-! ### Line ends -/

lemma lineBreaks_cons {c : Char} (h : isLineEnd c = false) (cs : List Char) :
    lineBreaks (c :: cs) = lineBreaks cs := by
  rw [isLineEnd, Bool.or_eq_false_iff, decide_eq_false_iff_not, decide_eq_false_iff_not] at h
  rw [lineBreaks, if_neg (not_or.mpr h), Nat.add_zero]
  exact fun _ hc => absurd hc h.1

lemma lineBreaks_eq_zero {cs : List Char} (h : ∀ c ∈ cs, isLineEnd c = false) :
    lineBreaks cs = 0 := by
  induction cs with
  | nil => rfl
  | cons c cs ih =>
      obtain ⟨hc, hcs⟩ := List.forall_mem_cons.mp h
      rw [lineBreaks_cons hc, ih hcs]

/-- Two pieces of a text between which no line end is cut in two. -/
def Seamless (s t : List Char) : Prop := s.getLast? = some '\r' → t.head? ≠ some '\n'

lemma Seamless.tail {c : Char} {s t : List Char} (h : Seamless (c :: s) t) : Seamless s t := by
  intro hlast
  cases s with
  | nil => cases hlast
  | cons d s => exact h (by rwa [List.getLast?_cons_cons])

/-- The line ends of two pieces are those of the whole. -/
lemma lineBreaks_append {s t : List Char} (h : Seamless s t) :
    lineBreaks (s ++ t) = lineBreaks s + lineBreaks t := by
  fun_induction lineBreaks s with
  | case1 => rw [List.nil_append, Nat.zero_add]
  | case2 s ih =>
      rw [List.cons_append, List.cons_append, lineBreaks, ih h.tail.tail]
      omega
  | case3 c s hne ih =>
      have hcut : ∀ cs, c = '\r' → s ++ t ≠ '\n' :: cs := by
        intro cs hc hst
        cases s with
        | nil => exact h (by rw [hc]; rfl) (by rw [show t = _ from hst]; rfl)
        | cons d s =>
            cases hst
            exact hne s hc rfl
      rw [List.cons_append, lineBreaks, ih h.tail]
      · omega
      · exact hcut

/-! ### A step in front of more text -/

/-- A step with more text behind its rest. -/
def Step.behind (s : Step) (more : List Char) : Step := { s with rest := s.rest ++ more }

/-- The character prolongs no word, no number and no sign. -/
structure Stop (d : Char) : Prop where
  notName : continuesName d = false
  notSign : d ∉ ['=', '>', '.', '/', '*']

/-- Whether a stretch at the end of a text would go on with a character behind it: blanks with a
blank, and a comment up to the end of the line with anything on the line. -/
def goesOn (d c : Char) (cs : List Char) : Bool :=
  isSpace c && isSpace d || c = '/' && cs.head? = some '/' && !isLineEnd d

lemma goesOn_lineFeed (c : Char) (cs : List Char) : goesOn '\n' c cs = false := by
  simp [goesOn, isSpace, isLineEnd]

section Append

variable {c d : Char} {cs more : List Char}

lemma Stop.notDigit (h : Stop d) : d.isDigit = false := by
  have hname := h.notName
  simp only [continuesName, Char.isAlphanum, Bool.or_eq_false_iff] at hname
  exact hname.1.1.2

lemma Stop.ne (h : Stop d) {s : Char} (hs : s ∈ ['=', '>', '.', '/', '*']) : d ≠ s := by
  rintro rfl
  exact h.notSign hs

lemma takeWhile_append_of_stop {p : Char → Bool} (hd : cs.dropWhile p = [] → p d = false) :
    (cs ++ d :: more).takeWhile p = cs.takeWhile p := by
  induction cs with
  | nil => simp [hd rfl]
  | cons c cs ih =>
      rw [List.cons_append, List.takeWhile_cons, List.takeWhile_cons]
      split
      · rename_i hc
        rw [ih fun h => hd (by rw [List.dropWhile_cons, if_pos hc, h])]
      · rfl

lemma dropWhile_append_of_stop {p : Char → Bool} (hd : cs.dropWhile p = [] → p d = false) :
    (cs ++ d :: more).dropWhile p = cs.dropWhile p ++ d :: more := by
  induction cs with
  | nil => simp [hd rfl]
  | cons c cs ih =>
      rw [List.cons_append, List.dropWhile_cons, List.dropWhile_cons]
      split
      · rename_i hc
        exact ih fun h => hd (by rw [List.dropWhile_cons, if_pos hc, h])
      · rfl

lemma blockComment_cons (h : ∀ r, c = '*' → cs ≠ '/' :: r) :
    blockComment (c :: cs) =
      (c :: (blockComment cs).1, (blockComment cs).2.1, (blockComment cs).2.2) := by
  rw [blockComment]
  exact h

lemma blockComment_append (h : (blockComment cs).2.2 = true) :
    blockComment (cs ++ more) = ((blockComment cs).1, (blockComment cs).2.1 ++ more, true) := by
  fun_induction blockComment cs with
  | case1 => cases h
  | case2 cs => rfl
  | case3 c cs hne stretch rest closed heq ih =>
      rw [heq] at ih
      have hne' : ∀ r, c = '*' → cs ++ more ≠ '/' :: r := by
        intro r hc hr
        cases cs with
        | nil =>
            cases heq
            cases h
        | cons d ds =>
            cases hr
            exact hne ds hc rfl
      rw [List.cons_append, blockComment_cons hne', ih h]

lemma stringBody_cons (hq : c ≠ '"') (hb : c ≠ '\\') :
    stringBody (c :: cs) =
      ((stringBody cs).1.map (c :: ·), c :: (stringBody cs).2.1, (stringBody cs).2.2) := by
  rw [stringBody]
  · exact hq
  · exact fun h _ => hb h
  · exact fun _ _ h => absurd h hb

lemma stringBody_escape {d : Char} (hd : unescape? c = some d) :
    stringBody ('\\' :: c :: cs) =
      ((stringBody cs).1.map (d :: ·), '\\' :: c :: (stringBody cs).2.1, (stringBody cs).2.2) := by
  rw [stringBody, hd]

lemma stringBody_append {text : List Char} (h : (stringBody cs).1 = .ok text) :
    stringBody (cs ++ more) =
      (.ok text, (stringBody cs).2.1, (stringBody cs).2.2 ++ more) := by
  fun_induction stringBody cs generalizing text with
  | case1 => cases h
  | case2 cs =>
      cases h
      rfl
  | case3 => cases h
  | case4 c cs d hd inner stretch rest heq ih =>
      cases inner with
      | error fault => cases h
      | ok inner =>
          cases h
          rw [heq] at ih
          rw [List.cons_append, List.cons_append, stringBody_escape hd, ih rfl]
          rfl
  | case5 c cs hd => cases h
  | case6 c cs hq hl hb inner stretch rest heq ih =>
      cases inner with
      | error fault => cases h
      | ok inner =>
          cases h
          rw [heq] at ih
          have hb' : c ≠ '\\' := by
            rintro rfl
            cases cs with
            | nil => exact hl rfl rfl
            | cons d ds => exact hb d ds rfl rfl
          rw [List.cons_append, stringBody_cons hq hb', ih rfl]
          rfl

/-! ### Counting line ends -/

/-- The line ends of a block comment are counted chunk by chunk, and none is missed. -/
lemma commentBreaks_eq (chunk cs : List Char) :
    commentBreaks chunk cs = lineBreaks (chunk.reverse ++ (blockComment cs).1) := by
  -- No line end is cut in two at an asterisk.
  have hstar : ∀ s t, lineBreaks (s ++ '*' :: t) = lineBreaks s + lineBreaks t := by
    intro s t
    have hseam : Seamless s ('*' :: t) := fun _ h => by cases h
    rw [lineBreaks_append hseam, lineBreaks_cons rfl]
  fun_induction commentBreaks chunk cs with
  | case1 chunk => rw [blockComment, List.append_nil]
  | case2 chunk cs =>
      rw [blockComment, hstar]
      rfl
  | case3 chunk cs hne ih =>
      rw [ih, blockComment_cons fun r _ => hne r, hstar]
      rfl
  | case4 chunk c cs _ hne ih =>
      rw [ih, blockComment_cons fun r hc => absurd hc hne, List.reverse_cons, List.append_assoc]
      rfl

/-- The part of a string in which line ends count: all of its stretch but a character that has no
escape. -/
def counted (cs : List Char) : List Char :=
  match (stringBody cs).1 with
  | .error (.badEscape _) => (stringBody cs).2.1.dropLast
  | _ => (stringBody cs).2.1

lemma counted_of_ok {text : List Char} (h : (stringBody cs).1 = .ok text) :
    counted cs = (stringBody cs).2.1 := by
  rw [counted, h]

lemma stretch_ne_nil_of_badEscape (h : (stringBody cs).1 = .error (.badEscape c)) :
    (stringBody cs).2.1 ≠ [] := by
  fun_cases stringBody cs with
  | case1 => cases h
  | case2 cs => exact List.cons_ne_nil _ _
  | case3 => exact List.cons_ne_nil _ _
  | case4 => exact List.cons_ne_nil _ _
  | case5 => exact List.cons_ne_nil _ _
  | case6 => exact List.cons_ne_nil _ _

/-- What comes before the rest of a string counts as it stands. -/
lemma counted_of_front (front : List Char) {f : List Char → List Char}
    (htext : (stringBody (front ++ cs)).1 = (stringBody cs).1.map f)
    (hstretch : (stringBody (front ++ cs)).2.1 = front ++ (stringBody cs).2.1) :
    counted (front ++ cs) = front ++ counted cs := by
  rw [counted, counted, htext, hstretch]
  cases hb : (stringBody cs).1 with
  | ok text => rfl
  | error fault =>
      cases fault with
      | badEscape c => exact List.dropLast_append_of_ne_nil (stretch_ne_nil_of_badEscape hb)
      | _ => rfl

lemma counted_cons (hq : c ≠ '"') (hb : c ≠ '\\') : counted (c :: cs) = c :: counted cs :=
  counted_of_front [c] (congrArg (·.1) (stringBody_cons hq hb))
    (congrArg (·.2.1) (stringBody_cons hq hb))

lemma counted_escape (hd : unescape? c = some d) :
    counted ('\\' :: c :: cs) = '\\' :: c :: counted cs :=
  counted_of_front ['\\', c] (congrArg (·.1) (stringBody_escape hd))
    (congrArg (·.2.1) (stringBody_escape hd))

lemma counted_badEscape (hd : unescape? c = none) : counted ('\\' :: c :: cs) = ['\\'] := by
  rw [counted, stringBody, hd]
  rfl

/-- No escape is written with a line end. -/
lemma isLineEnd_of_unescape? (hd : unescape? c = some d) : isLineEnd c = false := by
  rw [isLineEnd, Bool.or_eq_false_iff, decide_eq_false_iff_not, decide_eq_false_iff_not]
  constructor
  · rintro rfl
    cases hd
  · rintro rfl
    cases hd

lemma head?_counted (cs : List Char) : (counted cs).head? = cs.head? := by
  fun_cases stringBody cs with
  | case1 => rfl
  | case2 => rfl
  | case3 => rfl
  | case4 c cs d hd => rw [counted_escape hd]; rfl
  | case5 c cs hd => rw [counted_badEscape hd]; rfl
  | case6 c cs hq hl hb =>
      rw [counted_cons hq fun hc => ?_]
      · rfl
      · cases cs with
        | nil => exact hl hc rfl
        | cons e es => exact hb e es hc rfl

/-- A carriage return is a line end of its own, unless a line feed follows. -/
lemma lineBreaks_return (cs : List Char) :
    lineBreaks ('\r' :: cs) = lineBreaks cs + if cs.head? = some '\n' then 0 else 1 := by
  cases cs with
  | nil => rfl
  | cons d ds =>
      by_cases hd : d = '\n'
      · subst hd
        rfl
      · have hhead : (d :: ds).head? ≠ some '\n' := fun h => hd (Option.some.inj h)
        rw [lineBreaks, if_neg hhead, if_pos (.inl rfl)]
        exact fun cs _ hcs => hd (List.cons.inj hcs).1

/-- The line ends of a string are counted one by one, and none is missed. -/
lemma stringBreaks_eq (cs : List Char) : stringBreaks cs = lineBreaks (counted cs) := by
  fun_induction stringBreaks cs with
  | case1 => rfl
  | case2 => rfl
  | case3 => rfl
  | case4 c cs hc ih =>
      obtain ⟨d, hd⟩ := Option.isSome_iff_exists.mp hc
      rw [counted_escape hd, lineBreaks_cons rfl, lineBreaks_cons (isLineEnd_of_unescape? hd), ih]
  | case5 c cs hc =>
      rw [counted_badEscape (Option.not_isSome_iff_eq_none.mp hc)]
      rfl
  | case6 cs ih =>
      rw [ih, counted_cons (by decide) (by decide)]
      rfl
  | case7 cs ih => rw [ih, counted_cons (by decide) (by decide), lineBreaks_return, head?_counted]
  | case8 c cs hl hq hb hfeed hreturn ih =>
      have hc : c ≠ '\\' := by
        intro hc
        cases cs with
        | nil => exact hl hc rfl
        | cons e es => exact hb e es hc rfl
      have hend : isLineEnd c = false :=
        Bool.or_eq_false_iff.mpr ⟨decide_eq_false hreturn, decide_eq_false hfeed⟩
      rw [ih, counted_cons hq hc, lineBreaks_cons hend]

lemma stringBreaks_of_ok {text : List Char} (h : (stringBody cs).1 = .ok text) :
    stringBreaks cs = lineBreaks (stringBody cs).2.1 := by
  rw [stringBreaks_eq, counted_of_ok h]

lemma scanString_append (h : ∃ found, (scanString cs).found = .ok found) :
    scanString (cs ++ more) = (scanString cs).behind more := by
  rcases hb : stringBody cs with ⟨text, stretch, rest⟩
  rcases text with fault | text
  · obtain ⟨found, h⟩ := h
    simp only [scanString, hb] at h
    cases fault <;> cases h
  · have happ : stringBody (cs ++ more) =
        (.ok text, (stringBody cs).2.1, (stringBody cs).2.2 ++ more) :=
      stringBody_append (congrArg Prod.fst hb)
    have hbreaks : stringBreaks (cs ++ more) = stringBreaks cs := by
      rw [stringBreaks_of_ok (congrArg Prod.fst happ), stringBreaks_of_ok (congrArg Prod.fst hb),
        happ]
    simp only [scanString, happ, hb, hbreaks, Step.behind]

lemma closeChar_append {s : List Char} (h : ∃ found, (closeChar c s cs).found = .ok found) :
    closeChar c s (cs ++ more) = (closeChar c s cs).behind more := by
  obtain ⟨found, h⟩ := h
  unfold closeChar at h
  split at h
  · rfl
  · cases h

lemma scanChar_cons (hc : c ≠ '\\') : scanChar (c :: cs) = closeChar c ['\'', c] cs := by
  rw [scanChar]
  · exact fun h _ => hc h
  · exact fun _ _ h => absurd h hc

lemma scanChar_append (h : ∃ found, (scanChar cs).found = .ok found) :
    scanChar (cs ++ more) = (scanChar cs).behind more := by
  match cs with
  | [] => simp [scanChar, Step.fault] at h
  | [c] =>
      -- Nothing can close a literal of one character.
      by_cases hc : c = '\\'
      · subst hc
        simp [scanChar, Step.fault] at h
      · simp [scanChar_cons hc, closeChar, Step.fault] at h
  | c :: d :: cs =>
      by_cases hc : c = '\\'
      · subst hc
        rw [List.cons_append, List.cons_append, scanChar, scanChar]
        rw [scanChar] at h
        cases hd : unescape? d with
        | none => simp [hd, Step.fault] at h
        | some e =>
            rw [hd] at h
            exact closeChar_append h
      · rw [List.cons_append, scanChar_cons hc, scanChar_cons hc]
        rw [scanChar_cons hc] at h
        exact closeChar_append h

lemma withEqual_append (hd : Stop d) (joined alone : TokenKind) :
    withEqual c joined alone (cs ++ d :: more) =
      (withEqual c joined alone cs).behind (d :: more) := by
  have hother : ∀ {e : Char} (es : List Char), e ≠ '=' →
      withEqual c joined alone (e :: es) = .plain alone [c] (e :: es) := by
    intro e es he
    rw [withEqual]
    simpa using he
  match cs with
  | [] => exact hother more (hd.ne (by decide))
  | e :: es =>
      by_cases he : e = '='
      · subst he
        rfl
      · rw [List.cons_append, hother _ he, hother _ he]
        rfl

lemma scanSlash_append (hd : Stop d) (h : ∃ found, (scanSlash cs).found = .ok found)
    (hline : ∀ r, cs = '/' :: r → r.dropWhile (!isLineEnd ·) = [] → isLineEnd d = true) :
    scanSlash (cs ++ d :: more) = (scanSlash cs).behind (d :: more) := by
  have hother : ∀ {e : Char} (es : List Char), e ≠ '/' → e ≠ '*' →
      scanSlash (e :: es) = withEqual '/' .slashEqual .slash (e :: es) := by
    intro e es h₁ h₂
    rw [scanSlash] <;> simp_all
  match cs with
  | [] =>
      have happ : withEqual '/' .slashEqual .slash ([] ++ d :: more) = _ := withEqual_append hd _ _
      exact (hother more (hd.ne (by decide)) (hd.ne (by decide))).trans happ
  | e :: es =>
      rw [List.cons_append]
      by_cases he : e = '/'
      · subst he
        have hend : es.dropWhile (!isLineEnd ·) = [] → (!isLineEnd d) = false := by
          intro hnil
          rw [hline es rfl hnil]
          rfl
        rw [scanSlash, scanSlash, takeWhile_append_of_stop hend, dropWhile_append_of_stop hend]
        rfl
      · by_cases hs : e = '*'
        · subst hs
          rw [scanSlash] at h ⊢
          rw [scanSlash]
          cases hc : (blockComment es).2.2 with
          | false => simp [hc] at h
          | true =>
              have hbreaks : commentBreaks [] (es ++ d :: more) = commentBreaks [] es := by
                rw [commentBreaks_eq, commentBreaks_eq, blockComment_append hc]
              rw [blockComment_append hc, hbreaks]
              simp [Step.behind, hc]
        · rw [hother _ he hs, hother _ he hs, ← List.cons_append]
          exact withEqual_append hd _ _

lemma scanAnnotated_append (hd : Stop d) (h : ∃ found, (scanAnnotated cs).found = .ok found) :
    scanAnnotated (cs ++ d :: more) = (scanAnnotated cs).behind (d :: more) := by
  match cs with
  | [] => simp [scanAnnotated, Step.fault] at h
  | e :: es =>
      rw [List.cons_append]
      rw [scanAnnotated] at h ⊢
      rw [scanAnnotated]
      by_cases he : startsName e
      · rw [if_pos he, if_pos he, takeWhile_append_of_stop fun _ => hd.notName,
          dropWhile_append_of_stop fun _ => hd.notName]
        rfl
      · simp [he, Step.fault] at h

lemma scanNumber_append (hd : Stop d) :
    scanNumber c (cs ++ d :: more) = (scanNumber c cs).behind (d :: more) := by
  have htake : ∀ es : List Char,
      (es ++ d :: more).takeWhile Char.isDigit = es.takeWhile Char.isDigit :=
    fun es => takeWhile_append_of_stop fun _ => hd.notDigit
  have hdrop : ∀ es : List Char,
      (es ++ d :: more).dropWhile Char.isDigit = es.dropWhile Char.isDigit ++ d :: more :=
    fun es => dropWhile_append_of_stop fun _ => hd.notDigit
  have hpoint : d ≠ '.' := hd.ne (by decide)
  simp only [scanNumber, htake, hdrop]
  -- A point counts only with a digit behind it, and the character is neither.
  rcases hrest : cs.dropWhile Char.isDigit with _ | ⟨e, _ | ⟨f, es⟩⟩
  · simp [hpoint, Step.behind]
  · by_cases he : e = '.'
    · subst he
      simp [hd.notDigit, Step.behind]
    · simp [he, Step.behind]
  · by_cases he : e = '.'
    · subst he
      by_cases hf : f.isDigit
      · simp [hf, htake, hdrop, Step.behind]
      · simp [hf, Step.behind]
    · simp [he, Step.behind]

lemma step_dot_of_ne (h : ∀ r, cs ≠ '.' :: '.' :: r) : step '.' cs = .plain .dot ['.'] cs := by
  rw [step_dot]
  split
  · exact absurd rfl (h _)
  · rfl

lemma step_minus_of_ne (h : ∀ r, cs ≠ '>' :: r) :
    step '-' cs = withEqual '-' .minusEqual .minus cs := by
  rw [step_minus]
  split
  · exact absurd rfl (h _)
  · rfl

lemma step_carriageReturn_of_ne {d : Char} (h : d ≠ '\n') :
    step '\r' (d :: cs) = ⟨['\r'], d :: cs, 1, .ok (.newline, none)⟩ := by
  rw [step_carriageReturn]
  split
  · rename_i hd
    cases hd
    exact absurd rfl h
  · rfl

/-- **A step in front of a character that prolongs no word** is the step alone, with more text
behind it, unless it goes on; only a carriage return would take a line feed. -/
theorem step_append (hd : Stop d) (h : ∃ found, (step c cs).found = .ok found)
    (hopen : goesOn d c cs = true → (step c cs).rest ≠ [])
    (hr : c = '\r' → cs = [] → d ≠ '\n') :
    step c (cs ++ d :: more) = (step c cs).behind (d :: more) := by
  cases shape c with
  | single kind hk hstep =>
      rw [hstep, hstep]
      rfl
  | withEqual joined alone hj hk hstep =>
      rw [hstep, hstep]
      exact withEqual_append hd joined alone
  | dot hc =>
      subst hc
      by_cases hdots : ∃ r, cs = '.' :: '.' :: r
      · obtain ⟨r, rfl⟩ := hdots
        rfl
      · rw [not_exists] at hdots
        have hpoint : d ≠ '.' := hd.ne (by decide)
        have hdots' : ∀ r, cs ++ d :: more ≠ '.' :: '.' :: r := by
          intro r hr
          match cs with
          | [] => exact hpoint (List.cons.inj hr).1
          | [e] => exact hpoint (List.cons.inj (List.cons.inj hr).2).1
          | e :: f :: es =>
              cases hr
              exact hdots es rfl
        rw [step_dot_of_ne hdots, step_dot_of_ne hdots']
        rfl
  | question hc =>
      subst hc
      rw [step_question] at h
      split at h
      · rfl
      · obtain ⟨found, h⟩ := h
        cases h
  | minus hc =>
      subst hc
      by_cases harrow : ∃ r, cs = '>' :: r
      · obtain ⟨r, rfl⟩ := harrow
        rfl
      · rw [not_exists] at harrow
        have harrow' : ∀ r, cs ++ d :: more ≠ '>' :: r := by
          intro r hr
          match cs with
          | [] => exact hd.ne (by decide : '>' ∈ _) (List.cons.inj hr).1
          | e :: es =>
              cases hr
              exact harrow es rfl
        rw [step_minus_of_ne harrow, step_minus_of_ne harrow']
        exact withEqual_append hd _ _
  | slash hc =>
      subst hc
      refine scanSlash_append hd h fun r hcs hnil => ?_
      subst hcs
      by_contra hend
      exact hopen (by simp [goesOn, hend]) hnil
  | carriageReturn hc =>
      subst hc
      match cs with
      | [] => exact step_carriageReturn_of_ne (hr rfl rfl)
      | e :: es =>
          by_cases he : e = '\n'
          · subst he
            rfl
          · rw [List.cons_append, step_carriageReturn_of_ne he, step_carriageReturn_of_ne he]
            rfl
  | lineFeed hc =>
      subst hc
      rfl
  | quote hc =>
      subst hc
      exact scanString_append h
  | apostrophe hc =>
      subst hc
      exact scanChar_append h
  | annotated hc =>
      subst hc
      exact scanAnnotated_append hd h
  | space hstep hc =>
      have hspace : cs.dropWhile isSpace = [] → isSpace d = false := by
        intro hnil
        by_contra hspace
        rw [hstep] at hopen
        exact hopen (by simp [goesOn, hc, hspace]) hnil
      rw [hstep, hstep, takeWhile_append_of_stop hspace, dropWhile_append_of_stop hspace]
      rfl
  | digit hstep =>
      rw [hstep, hstep]
      exact scanNumber_append hd
  | word hstep =>
      rw [hstep, hstep, scanWord, scanWord, takeWhile_append_of_stop fun _ => hd.notName,
        dropWhile_append_of_stop fun _ => hd.notName]
      rfl
  | unexpected hstep =>
      obtain ⟨found, h⟩ := h
      rw [hstep] at h
      cases h

end Append

/-! ### The kinds of raw tokens -/

/-- What a step that begins with a character can find: the kinds of tokens with the values they
have. -/
inductive Finds (c : Char) : TokenKind → Option Literal → Prop
  | plain {kind : TokenKind} (h : isPlain kind = true)
      (hn : kind = .identifier → startsName c = true) : Finds c kind none
  | annotated (h : c = '@') : Finds c .annotated none
  | number (n : Numeral) : Finds c .number (some (.number n))
  | text {kind : TokenKind} (h : kind = .string ∨ kind = .char) (s : String) :
      Finds c kind (some (.text s))

lemma isPlain_wordKind (word : String) : isPlain (wordKind word) = true := by
  have hall : ∀ entry ∈ keywords, isPlain entry.2 = true := by decide
  unfold wordKind
  cases h : keywords.lookup word with
  | none => decide
  | some kind =>
      exact hall (word, kind) (List.lookup_eq_some_iff.mp h |> fun ⟨l₁, l₂, hl, _⟩ => by simp [hl])

section Finds

variable {c : Char} {cs : List Char} {kind : TokenKind} {literal : Option Literal}

lemma withEqual_finds {joined alone : TokenKind} (hj : isPlain joined = true)
    (hk : isPlain alone = true) (hn : joined ≠ .identifier ∧ alone ≠ .identifier)
    (h : (withEqual c joined alone cs).found = .ok (kind, literal)) :
    Finds c kind literal := by
  unfold withEqual at h
  split at h
  · cases h
    exact .plain hj fun h => absurd h hn.1
  · cases h
    exact .plain hk fun h => absurd h hn.2

lemma closeChar_finds {d : Char} {s : List Char}
    (h : (closeChar d s cs).found = .ok (kind, literal)) : Finds c kind literal := by
  unfold closeChar at h
  split at h
  · cases h
    exact .text (.inr rfl) _
  · cases h

/-- **What a step finds**, if it finds a token. -/
theorem step_finds (h : (step c cs).found = .ok (kind, literal)) : Finds c kind literal := by
  cases shape c with
  | single kind' hk hstep hn =>
      rw [hstep] at h
      cases h
      exact .plain hk fun h => absurd h hn
  | withEqual joined alone hj hk hstep hn =>
      rw [hstep] at h
      exact withEqual_finds hj hk hn h
  | dot hc =>
      subst hc
      rw [step_dot] at h
      split at h <;> cases h <;> exact .plain rfl (by decide)
  | question hc =>
      subst hc
      rw [step_question] at h
      split at h <;> cases h
      exact .plain rfl (by decide)
  | minus hc =>
      subst hc
      rw [step_minus] at h
      split at h
      · cases h
        exact .plain rfl (by decide)
      · exact withEqual_finds rfl rfl (by decide) h
  | slash hc =>
      subst hc
      change (scanSlash cs).found = _ at h
      unfold scanSlash at h
      split at h
      · cases h
        exact .plain rfl (by decide)
      · dsimp only at h
        split at h <;> cases h
        exact .plain rfl (by decide)
      · exact withEqual_finds rfl rfl (by decide) h
  | carriageReturn hc =>
      subst hc
      rw [step_carriageReturn] at h
      split at h <;> cases h <;> exact .plain rfl (by decide)
  | lineFeed hc =>
      subst hc
      cases h
      exact .plain rfl (by decide)
  | quote hc =>
      subst hc
      change (scanString cs).found = _ at h
      simp only [scanString] at h
      split at h <;> cases h
      exact .text (.inl rfl) _
  | apostrophe hc =>
      subst hc
      change (scanChar cs).found = _ at h
      unfold scanChar at h
      split at h
      · cases h
      · cases h
      · split at h
        · exact closeChar_finds h
        · cases h
      · exact closeChar_finds h
  | annotated hc =>
      subst hc
      change (scanAnnotated cs).found = _ at h
      unfold scanAnnotated at h
      split at h
      · cases h
      · split at h <;> cases h
        exact .annotated rfl
  | space hstep =>
      rw [hstep] at h
      cases h
      exact .plain rfl fun h => by cases h
  | digit hstep =>
      rw [hstep] at h
      simp only [scanNumber] at h
      cases h
      exact .number _
  | word hstep hc =>
      rw [hstep] at h
      cases h
      exact .plain (isPlain_wordKind _) fun _ => hc
  | unexpected hstep =>
      rw [hstep] at h
      cases h

/-- No step gives a separator or an end token. -/
lemma step_kind (h : (step c cs).found = .ok (kind, literal)) :
    kind ≠ .eof ∧ kind ≠ .separator := by
  cases step_finds h with
  | plain hk =>
      constructor
      · rintro rfl
        cases hk
      · rintro rfl
        cases hk
  | annotated => decide
  | number => decide
  | text hk => rcases hk with rfl | rfl <;> decide

end Finds

/-! ### From token to token -/

/-- Scanning without errors from a line and a text to a later line and a rest of the text. -/
inductive Reaches (source : String) : Nat → List Char → List Token → Nat → List Char → Prop
  | refl {line : Nat} {cs : List Char} : Reaches source line cs [] line cs
  | next {line later : Nat} {c : Char} {cs rest : List Char} {kind : TokenKind}
      {literal : Option Literal} {tokens : List Token}
      (h : (step c cs).found = .ok (kind, literal))
      (hr : Reaches source (line + (step c cs).breaks) (step c cs).rest tokens later rest) :
      Reaches source line (c :: cs)
        (⟨kind, lexeme kind (step c cs).stretch, literal, line, source⟩ :: tokens) later rest

end Scan

/-- A token some lines further down. -/
def Token.shift (k : Nat) (t : Token) : Token := { t with line := t.line + k }

lemma Token.faithful_shift (k : Nat) : Token.Faithful (Token.shift k) :=
  ⟨fun _ => rfl, fun _ => rfl, fun _ => rfl⟩

namespace Scan

namespace Reaches

variable {source : String} {line mid later : Nat} {cs ds rest : List Char}
  {tokens more : List Token}

lemma trans (h₁ : Reaches source line cs tokens mid ds)
    (h₂ : Reaches source mid ds more later rest) :
    Reaches source line cs (tokens ++ more) later rest := by
  induction h₁ with
  | refl => exact h₂
  | next h _ ih => exact .next h (ih h₂)

lemma shift (k : Nat) (h : Reaches source line cs tokens later rest) :
    Reaches source (line + k) cs (tokens.map (Token.shift k)) (later + k) rest := by
  induction h with
  | refl => exact .refl
  | next h _ ih =>
      refine .next h ?_
      rwa [Nat.add_right_comm]

lemma line_le (h : Reaches source line cs tokens later rest) : line ≤ later := by
  induction h with
  | refl => exact le_refl _
  | next _ _ ih => exact le_trans (Nat.le_add_right _ _) ih

lemma kind_ne (h : Reaches source line cs tokens later rest) :
    ∀ t ∈ tokens, t.kind ≠ .eof ∧ t.kind ≠ .separator := by
  induction h with
  | refl => simp
  | next h _ ih =>
      intro t ht
      rcases List.mem_cons.mp ht with rfl | ht
      · exact step_kind h
      · exact ih t ht

/-- **Scanning in front of a line feed**: the text is scanned as it would be alone, and the line
feed is a token of its own, or part of the line end that the text closes with. -/
theorem append_lineFeed (h : Reaches source line cs tokens later []) (more : List Char) :
    Reaches source line (cs ++ '\n' :: more)
        (tokens ++ [⟨.newline, "\n", none, later, source⟩]) (later + 1) more ∨
      (∃ init t, tokens = init ++ [t] ∧ t.kind = .newline) ∧
        Reaches source line (cs ++ '\n' :: more) tokens later more := by
  generalize hrest : ([] : List Char) = rest at h
  induction h with
  | refl =>
      subst hrest
      exact .inl (.next (step_lineFeed more ▸ rfl) .refl)
  | @next line later c cs rest kind literal tokens h hr ih =>
      by_cases hlast : c = '\r' ∧ cs = []
      · -- The carriage return at the end of the text takes the line feed.
        obtain ⟨rfl, rfl⟩ := hlast
        cases h
        cases hr
        refine .inr ⟨⟨[], _, rfl, rfl⟩, ?_⟩
        exact @Reaches.next source line (line + 1) '\r' ('\n' :: more) more .newline none [] rfl
          .refl
      · have happ : step c (cs ++ '\n' :: more) = (step c cs).behind ('\n' :: more) :=
          step_append ⟨rfl, by decide⟩ ⟨_, h⟩ (by rw [goesOn_lineFeed]; exact nofun)
            fun hc hcs => absurd ⟨hc, hcs⟩ hlast
        -- The step is the same, whichever way scanning goes on from the rest.
        have hstep : ∀ {tokens' : List Token} {later' : Nat},
            Reaches source (line + (step c cs).breaks) ((step c cs).rest ++ '\n' :: more) tokens'
              later' more →
            Reaches source line (c :: (cs ++ '\n' :: more))
              (⟨kind, lexeme kind (step c cs).stretch, literal, line, source⟩ :: tokens') later'
              more := by
          intro tokens' later' hr'
          have hs := @Reaches.next source line later' c (cs ++ '\n' :: more) more kind literal
            tokens' (by rw [happ]; exact h) (by rw [happ]; exact hr')
          rwa [happ] at hs
        rcases ih hrest with hr' | ⟨⟨init, t, rfl, ht⟩, hr'⟩
        · exact .inl (hstep hr')
        · exact .inr ⟨⟨_ :: init, t, rfl, ht⟩, hstep hr'⟩

end Reaches

/-- The tokens of a text, read off its items. -/
lemma reaches_of_itemsFrom {source : String} {fuel line : Nat} {cs : List Char}
    {tokens : List Token} (hf : cs.length ≤ fuel)
    (h : (itemsFrom source fuel line cs).map (·.token) = tokens.map .ok) :
    ∃ init later, tokens = init ++ [Token.endOf source later] ∧
      Reaches source line cs init later [] := by
  -- At the end of the text one token is left.
  have hend : ∀ {line : Nat} {tokens : List Token},
      ([.ok (Token.endOf source line)] : List (Except SourceError Token)) = tokens.map .ok →
      ∃ init later, tokens = init ++ [Token.endOf source later] ∧
        Reaches source line [] init later [] := by
    intro line tokens h
    obtain ⟨t, rfl, ht⟩ := List.map_eq_singleton_iff.mp h.symm
    cases ht
    exact ⟨[], line, rfl, .refl⟩
  induction fuel generalizing line cs tokens with
  | zero =>
      have hcs : cs = [] := List.length_eq_zero_iff.mp (by omega)
      subst hcs
      exact hend h
  | succ fuel ih =>
      cases cs with
      | nil => exact hend h
      | cons c cs =>
          rw [itemsFrom, List.map_cons] at h
          cases tokens with
          | nil => exact absurd h (List.cons_ne_nil _ _)
          | cons t tokens =>
              rw [List.map_cons] at h
              obtain ⟨ht, hrest⟩ := List.cons.inj h
              have hlength := length_rest_le c cs
              rw [List.length_cons] at hf
              obtain ⟨init, later, rfl, hr⟩ := ih (by omega) hrest
              cases hfound : (step c cs).found with
              | error fault =>
                  rw [Step.item, hfound] at ht
                  cases ht
              | ok found =>
                  rw [Step.item, hfound] at ht
                  cases ht
                  exact ⟨_ :: init, later, rfl, .next hfound hr⟩

lemma itemsFrom_of_reaches {source : String} {fuel line later : Nat} {cs : List Char}
    {tokens : List Token} (hf : cs.length ≤ fuel)
    (h : Reaches source line cs tokens later []) :
    (itemsFrom source fuel line cs).map (·.token) =
      (tokens ++ [Token.endOf source later]).map .ok := by
  generalize hrest : ([] : List Char) = rest at h
  induction h generalizing fuel with
  | refl =>
      subst hrest
      cases fuel <;> rfl
  | @next line later c cs rest kind literal tokens h hr ih =>
      rw [List.length_cons] at hf
      obtain ⟨fuel, rfl⟩ : ∃ k, fuel = k + 1 := ⟨fuel - 1, by omega⟩
      have hlength := length_rest_le c cs
      rw [itemsFrom, List.map_cons, ih (by omega) hrest, Step.item, h]
      rfl

end Scan

end Tern
