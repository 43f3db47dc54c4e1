/-
Texts in nested parentheses. Such a text is a word, a quoted text or a row in parentheses with
blanks between its items. If no word contains a blank, a parenthesis or a quote, the text tells
where each item ends, so that no other row is written in the same way.

* `Text.quoteChars_append_inj`: a quoted text, read off the front of a longer one;
* `Nested`: words, quoted texts and rows; `Nested.chars`: how they are written;
* `Nested.Sound`: all words can be told from what stands around them;
* `Nested.chars_append_inj`: what is written can be read in one way only.
-/
import Mathlib.Tactic
import Tern.Text.Quoted

namespace Tern

/-! ### Quoted texts -/

namespace Text

/-- The value of hexadecimal digits. -/
def ofHex (cs : List Char) : Nat :=
  cs.foldl (fun n c => 16 * n + (if c.isDigit then c.toNat - 48 else c.toNat - 87)) 0

lemma toDigits_step {n : Nat} (h : 16 ≤ n) :
    Nat.toDigits 16 n = Nat.toDigits 16 (n / 16) ++ [(n % 16).digitChar] := by
  have happ := Nat.toDigits_append_toDigits (b := 16) (n := n / 16) (d := n % 16) (by omega)
    (by omega) (by omega)
  rw [Nat.div_add_mod, Nat.toDigits_of_lt_base (Nat.mod_lt n (by omega))] at happ
  exact happ.symm

lemma ofHex_toDigits (n : Nat) : ofHex (Nat.toDigits 16 n) = n := by
  have hdigit : ∀ d < 16, (if d.digitChar.isDigit then d.digitChar.toNat - 48
      else d.digitChar.toNat - 87) = d := by
    decide
  induction n using Nat.strong_induction_on with
  | _ n ih =>
      by_cases h : n < 16
      · rw [Nat.toDigits_of_lt_base h, ofHex, List.foldl_cons, List.foldl_nil, hdigit n h]
        omega
      · have hrest := ih (n / 16) (by omega)
        rw [ofHex] at hrest
        rw [toDigits_step (by omega), ofHex, List.foldl_append, hrest, List.foldl_cons,
          List.foldl_nil, hdigit _ (Nat.mod_lt n (by omega))]
        omega

lemma ne_brace_of_mem_toDigits {n : Nat} {c : Char} (h : c ∈ Nat.toDigits 16 n) :
    c ≠ '\x7d' := by
  have hdigit : ∀ d < 16, d.digitChar ≠ '\x7d' := by decide
  induction n using Nat.strong_induction_on with
  | _ n ih =>
      by_cases hn : n < 16
      · rw [Nat.toDigits_of_lt_base hn, List.mem_singleton] at h
        exact h ▸ hdigit n hn
      · rw [toDigits_step (by omega), List.mem_append, List.mem_singleton] at h
        rcases h with h | rfl
        · exact ih (n / 16) (by omega) h
        · exact hdigit _ (Nat.mod_lt n (by omega))

/-- What stands in front of the first character that ends it. -/
lemma append_cons_inj {p : Char → Bool} {w w' r r' : List Char} (hw : ∀ c ∈ w, p c = true)
    (hw' : ∀ c ∈ w', p c = true) (hr : ∀ c ∈ r.head?, p c = false)
    (hr' : ∀ c ∈ r'.head?, p c = false) (h : w ++ r = w' ++ r') : w = w' ∧ r = r' := by
  have hnone : ∀ {r : List Char}, (∀ c ∈ r.head?, p c = false) → r.takeWhile p = [] := by
    intro r hr
    cases r with
    | nil => rfl
    | cons c r => rw [List.takeWhile_cons, if_neg (by simp [hr c rfl])]
  have htake := congrArg (List.takeWhile p) h
  rw [List.takeWhile_append_of_pos hw, List.takeWhile_append_of_pos hw', hnone hr, hnone hr',
    List.append_nil, List.append_nil] at htake
  subst htake
  exact ⟨rfl, List.append_cancel_left h⟩

/-- The characters that have an escape of two characters. -/
def shortEscapes : List (Char × Char) :=
  [('\x00', '0'), ('\t', 't'), ('\r', 'r'), ('\n', 'n'), ('"', '"'), ('\\', '\\')]

/-- The ways in which a quoted text writes a character. -/
lemma escape_cases (c : Char) :
    (∃ x, (c, x) ∈ shortEscapes ∧ escape c = ['\\', x]) ∨
      (c ≠ '"' ∧ c ≠ '\\' ∧ escape c = [c]) ∨ escape c = escapeCode c := by
  unfold escape
  split
  · exact .inl ⟨_, by decide, rfl⟩
  · exact .inl ⟨_, by decide, rfl⟩
  · exact .inl ⟨_, by decide, rfl⟩
  · exact .inl ⟨_, by decide, rfl⟩
  · exact .inl ⟨_, by decide, rfl⟩
  · exact .inl ⟨_, by decide, rfl⟩
  · split
    · rename_i hq hb _
      exact .inr (.inl ⟨hq, hb, rfl⟩)
    · exact .inr (.inr rfl)

lemma shortEscapes_ne {c x : Char} (h : (c, x) ∈ shortEscapes) : x ≠ 'u' := by
  simp only [shortEscapes, List.mem_cons, List.not_mem_nil, or_false, Prod.mk.injEq] at h
  rcases h with ⟨-, rfl⟩ | ⟨-, rfl⟩ | ⟨-, rfl⟩ | ⟨-, rfl⟩ | ⟨-, rfl⟩ | ⟨-, rfl⟩ <;> decide

lemma shortEscapes_inj : ∀ p ∈ shortEscapes, ∀ q ∈ shortEscapes, p.2 = q.2 → p.1 = q.1 := by
  decide

lemma escapeCode_append_inj {c c' : Char} {r r' : List Char}
    (h : escapeCode c ++ r = escapeCode c' ++ r') : c = c' ∧ r = r' := by
  have hdigits : Nat.toDigits 16 c.toNat ++ '\x7d' :: r =
      Nat.toDigits 16 c'.toNat ++ '\x7d' :: r' := by
    simpa [escapeCode] using h
  have hne : ∀ {n : Nat}, ∀ d ∈ Nat.toDigits 16 n, decide (d ≠ '\x7d') = true :=
    fun d hd => decide_eq_true (ne_brace_of_mem_toDigits hd)
  have hstop : ∀ {r : List Char}, ∀ d ∈ ('\x7d' :: r).head?, decide (d ≠ '\x7d') = false := by
    intro r d hd
    cases hd
    rfl
  obtain ⟨hcode, hrest⟩ := append_cons_inj hne hne hstop hstop hdigits
  refine ⟨?_, (List.cons.inj hrest).2⟩
  have hvalue := congrArg ofHex hcode
  rw [ofHex_toDigits, ofHex_toDigits] at hvalue
  exact Char.toNat_inj.mp hvalue

/-- An escaped character is told from what follows it. -/
lemma escape_append_inj {c c' : Char} {r r' : List Char} (h : escape c ++ r = escape c' ++ r') :
    c = c' ∧ r = r' := by
  rcases escape_cases c with ⟨x, hx, he⟩ | ⟨hq, hb, he⟩ | he <;>
    rcases escape_cases c' with ⟨x', hx', he'⟩ | ⟨hq', hb', he'⟩ | he' <;> rw [he, he'] at h
  · obtain ⟨hxx, hr⟩ := List.cons.inj (List.cons.inj h).2
    exact ⟨shortEscapes_inj _ hx _ hx' hxx, hr⟩
  · exact absurd (List.cons.inj h).1.symm hb'
  · exact absurd (List.cons.inj (List.cons.inj h).2).1 (shortEscapes_ne hx)
  · exact absurd (List.cons.inj h).1 hb
  · exact List.cons.inj h
  · exact absurd (List.cons.inj h).1 hb
  · exact absurd (List.cons.inj (List.cons.inj h).2).1.symm (shortEscapes_ne hx')
  · exact absurd (List.cons.inj h).1.symm hb'
  · exact escapeCode_append_inj h

lemma escape_ne_quote {c : Char} {r r' : List Char} : escape c ++ r ≠ '"' :: r' := by
  intro h
  rcases escape_cases c with ⟨x, -, he⟩ | ⟨hq, -, he⟩ | he <;> rw [he] at h
  · exact absurd (List.cons.inj h).1 (by decide)
  · exact hq (List.cons.inj h).1
  · exact absurd (List.cons.inj h).1 (by decide)

/-- **A quoted text is told from what follows it**: its quotes are the first and the last of the
quotes in it that are not escaped. -/
theorem quoteChars_append_inj {cs cs' r r' : List Char}
    (h : quoteChars cs ++ r = quoteChars cs' ++ r') : cs = cs' ∧ r = r' := by
  simp only [quoteChars, List.cons_append, List.append_assoc, List.nil_append] at h
  replace h := (List.cons.inj h).2
  induction cs generalizing cs' with
  | nil =>
      cases cs' with
      | nil => exact ⟨rfl, (List.cons.inj h).2⟩
      | cons c' cs' =>
          rw [List.flatMap_cons, List.append_assoc] at h
          exact absurd h.symm escape_ne_quote
  | cons c cs ih =>
      cases cs' with
      | nil =>
          rw [List.flatMap_cons, List.append_assoc] at h
          exact absurd h escape_ne_quote
      | cons c' cs' =>
          rw [List.flatMap_cons, List.flatMap_cons, List.append_assoc, List.append_assoc] at h
          obtain ⟨rfl, hrest⟩ := escape_append_inj h
          obtain ⟨rfl, hr⟩ := ih hrest
          exact ⟨rfl, hr⟩

end Text

/-! ### Words, quoted texts and rows -/

/-- A text in nested parentheses. -/
inductive Nested where
  | word (text : String)
  | quoted (text : String)
  | row (items : List Nested)

namespace Nested

mutual

/-- How a text in nested parentheses is written. -/
def chars : Nested → List Char
  | .word text => text.toList
  | .quoted text => Text.quoteChars text.toList
  | .row [] => ['(', ')']
  | .row (first :: rest) => '(' :: (first.chars ++ (spaced rest ++ [')']))

/-- Items in a row, each behind a blank. -/
def spaced : List Nested → List Char
  | [] => []
  | item :: rest => ' ' :: (item.chars ++ spaced rest)

end

/-- Characters of words. -/
def inWord (c : Char) : Bool := c ∉ [' ', '(', ')', '"']

/-- Words that can be told from what stands around them. -/
def isWord (text : String) : Bool := !text.toList.isEmpty && text.toList.all inWord

/-- All words can be told from what stands around them. -/
inductive Sound : Nested → Prop
  | word {text : String} (h : isWord text = true) : Sound (.word text)
  | quoted (text : String) : Sound (.quoted text)
  | row {items : List Nested} (h : ∀ item ∈ items, Sound item) : Sound (.row items)

variable {s s' : Nested} {items items' : List Nested} {r r' : List Char}

lemma isWord_iff {text : String} :
    isWord text = true ↔ text.toList ≠ [] ∧ ∀ c ∈ text.toList, inWord c = true := by
  simp [isWord]

/-- What is written begins with a character of a word, a quote or a parenthesis. -/
lemma Sound.chars_eq_cons (h : s.Sound) :
    ∃ c cs, s.chars = c :: cs ∧ c ≠ ' ' ∧ c ≠ ')' ∧
      ((∃ text, s = .word text ∧ inWord c = true) ∨ (∃ text, s = .quoted text ∧ c = '"') ∨
        ∃ items, s = .row items ∧ c = '(') := by
  cases h with
  | @word text h =>
      obtain ⟨hne, hall⟩ := isWord_iff.mp h
      obtain ⟨c, cs, hcs⟩ := List.exists_cons_of_ne_nil hne
      have hc : inWord c = true := hall c (by rw [hcs]; exact List.mem_cons_self)
      refine ⟨c, cs, by rw [chars, hcs], ?_, ?_, .inl ⟨text, rfl, hc⟩⟩
      · rintro rfl
        exact absurd hc (by decide)
      · rintro rfl
        exact absurd hc (by decide)
  | quoted text =>
      exact ⟨'"', _, rfl, by decide, by decide, .inr (.inl ⟨text, rfl, rfl⟩)⟩
  | @row items h =>
      cases items with
      | nil => exact ⟨'(', _, rfl, by decide, by decide, .inr (.inr ⟨[], rfl, rfl⟩)⟩
      | cons first rest =>
          exact ⟨'(', _, rfl, by decide, by decide, .inr (.inr ⟨_, rfl, rfl⟩)⟩

/-- Whether nothing follows, or something that is no part of a word. -/
def Stops (r : List Char) : Prop := ∀ c ∈ r.head?, inWord c = false

lemma stops_spaced (items : List Nested) (r : List Char) : Stops (spaced items ++ ')' :: r) := by
  intro c hc
  cases items with
  | nil =>
      cases hc
      rfl
  | cons item items =>
      rw [spaced] at hc
      cases hc
      rfl

/-- An item can be read off the front in one way only. -/
def Readable (s : Nested) : Prop :=
  ∀ {s' : Nested} {r r' : List Char}, s'.Sound → Stops r → Stops r' →
    s.chars ++ r = s'.chars ++ r' → s = s' ∧ r = r'

/-- Items behind blanks, up to the parenthesis that closes their row. -/
lemma spaced_append_inj (hs : ∀ item ∈ items, Readable item) (hs' : ∀ item ∈ items', item.Sound)
    (h : spaced items ++ ')' :: r = spaced items' ++ ')' :: r') : items = items' ∧ r = r' := by
  induction items generalizing items' with
  | nil =>
      cases items' with
      | nil => exact ⟨rfl, (List.cons.inj h).2⟩
      | cons item' items' =>
          rw [spaced, spaced] at h
          exact absurd (List.cons.inj h).1 (by decide)
  | cons item items ih =>
      cases items' with
      | nil =>
          rw [spaced, spaced] at h
          exact absurd (List.cons.inj h).1 (by decide)
      | cons item' items' =>
          rw [spaced, spaced, List.cons_append, List.cons_append, List.append_assoc,
            List.append_assoc] at h
          obtain ⟨rfl, hrest⟩ := hs item List.mem_cons_self (hs' item' List.mem_cons_self)
            (stops_spaced items r) (stops_spaced items' r') (List.cons.inj h).2
          obtain ⟨rfl, hr⟩ := ih (fun i hi => hs i (List.mem_cons_of_mem _ hi))
            (fun i hi => hs' i (List.mem_cons_of_mem _ hi)) hrest
          exact ⟨rfl, hr⟩

/-- The items of a row, from the parenthesis that opens it to the one that closes it. -/
lemma row_append_inj (hs : ∀ item ∈ items, Readable item) (hsound : ∀ item ∈ items, item.Sound)
    (hs' : ∀ item ∈ items', item.Sound)
    (h : (Nested.row items).chars ++ r = (Nested.row items').chars ++ r') :
    items = items' ∧ r = r' := by
  -- A row with items in it does not go on with a closing parenthesis.
  have hclose : ∀ {item : Nested} {more r : List Char}, item.Sound →
      item.chars ++ more ≠ ')' :: r := by
    intro item more r hitem heq
    obtain ⟨c, cs, hcs, -, hc, -⟩ := hitem.chars_eq_cons
    rw [hcs] at heq
    exact hc (List.cons.inj heq).1
  cases items with
  | nil =>
      cases items' with
      | nil => exact ⟨rfl, (List.cons.inj (List.cons.inj h).2).2⟩
      | cons item' items' =>
          rw [chars, chars, List.cons_append (a := '('), List.cons_append (a := '('),
            List.append_assoc] at h
          exact absurd (List.cons.inj h).2.symm (hclose (hs' item' List.mem_cons_self))
  | cons item items =>
      cases items' with
      | nil =>
          rw [chars, chars, List.cons_append, List.cons_append, List.append_assoc] at h
          exact absurd (List.cons.inj h).2 (hclose (hsound item List.mem_cons_self))
      | cons item' items' =>
          refine spaced_append_inj hs hs' ?_
          rw [chars, chars] at h
          rw [spaced, spaced]
          simpa using h

/-- The first character tells words, quoted texts and rows apart. -/
lemma Sound.ctorIdx_eq (h : s.Sound) (h' : s'.Sound) (heq : s.chars ++ r = s'.chars ++ r') :
    s.ctorIdx = s'.ctorIdx := by
  obtain ⟨c, cs, hcs, -, -, hkind⟩ := h.chars_eq_cons
  obtain ⟨c', cs', hcs', -, -, hkind'⟩ := h'.chars_eq_cons
  rw [hcs, hcs'] at heq
  obtain rfl := (List.cons.inj heq).1
  rcases hkind with ⟨text, rfl, hc⟩ | ⟨text, rfl, rfl⟩ | ⟨items, rfl, rfl⟩ <;>
    rcases hkind' with ⟨text', rfl, hc'⟩ | ⟨text', rfl, hc'⟩ | ⟨items', rfl, hc'⟩ <;>
    first
    | rfl
    | exact absurd hc' (by decide)
    | exact absurd hc (by rw [hc']; decide)

/-- **Unique reading**: what is written determines the item and what follows it. -/
theorem chars_append_inj (h : s.Sound) : Readable s := by
  induction h with
  | @word text hword =>
      intro s' r r' h' hr hr' heq
      have hkind := (Sound.word hword).ctorIdx_eq h' heq
      cases h' with
      | @word text' hword' =>
          obtain ⟨htext, hrest⟩ := Text.append_cons_inj (isWord_iff.mp hword).2
            (isWord_iff.mp hword').2 hr hr' heq
          exact ⟨by rw [String.toList_inj.mp htext], hrest⟩
      | _ => cases hkind
  | quoted text =>
      intro s' r r' h' hr hr' heq
      have hkind := (Sound.quoted text).ctorIdx_eq h' heq
      cases h' with
      | quoted text' =>
          obtain ⟨htext, hrest⟩ := Text.quoteChars_append_inj heq
          exact ⟨by rw [String.toList_inj.mp htext], hrest⟩
      | _ => cases hkind
  | @row items hitems ih =>
      intro s' r r' h' hr hr' heq
      have hkind := (Sound.row hitems).ctorIdx_eq h' heq
      cases h' with
      | @row items' hitems' =>
          obtain ⟨rfl, hrest⟩ := row_append_inj ih hitems hitems' heq
          exact ⟨rfl, hrest⟩
      | _ => cases hkind

/-- Two texts that are written alike are the same. -/
theorem chars_inj (h : s.Sound) (h' : s'.Sound) (heq : s.chars = s'.chars) : s = s' := by
  have hstop : Stops [] := fun c hc => by cases hc
  have happ : s.chars ++ [] = s'.chars ++ [] := by rw [heq]
  exact (chars_append_inj h h' hstop hstop happ).1

end Nested

end Tern
