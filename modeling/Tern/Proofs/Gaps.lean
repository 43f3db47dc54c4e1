/-
The normal form of the tokens that are parsed. The tokens that mean something by themselves cut a
stream into gaps. What is left of a gap is its errors and at most one separator, and whether there
is one depends on the token before the gap and on the first mark in it.

* `TokenKind.isSignificant`: the kinds of tokens that mean something by themselves;
* `gaps`: the gaps of a stream, each with the significant token before it;
* `NormalGap`: what is left of a gap;
* `separated_normalForm`: the normal form of a stream, which is left as it is.
-/
import Mathlib.Tactic
import Tern.Proofs.Separation

namespace Tern

/-- Whether tokens of a kind mean something by themselves: all but blanks, comments, semicolons,
line ends, separators and continuation marks. -/
def TokenKind.isSignificant (kind : TokenKind) : Bool := !kind.isGap && kind ≠ .continuation

@[simp]
lemma TokenKind.isSignificant_separator : isSignificant .separator = false := rfl

section

variable {ε : Type}

/-- Whether an item of a stream stays as it is: errors and significant tokens. -/
def isKept : Except ε Token → Bool
  | .ok t => t.kind.isSignificant
  | .error _ => true

/-- Whether an item of a stream is an error. -/
def isError : Except ε Token → Bool
  | .ok _ => false
  | .error _ => true

/-- The gaps of a stream, each with the significant token before it, given that token and what
has been seen of the first gap. -/
def gapsFrom : Option Token → List (Except ε Token) → List (Except ε Token) →
    List (Option Token × List (Except ε Token))
  | before, gap, [] => [(before, gap)]
  | before, gap, .error e :: rest => gapsFrom before (gap ++ [.error e]) rest
  | before, gap, .ok t :: rest =>
    if t.kind.isSignificant then (before, gap) :: gapsFrom (some t) [] rest
    else gapsFrom before (gap ++ [.ok t]) rest

/-- The gaps of a stream, each with the significant token before it: one before the first
significant token and one behind each. -/
def gaps (items : List (Except ε Token)) : List (Option Token × List (Except ε Token)) :=
  gapsFrom none [] items

/-- The first token of a gap other than blanks and comments. -/
def firstMark? (gap : List (Except ε Token)) : Option Token :=
  (gap.filterMap Except.toOption).find? (!·.kind.isTrivia)

/-- What is left of a gap behind a token: its errors, and at most one separator. There is one if the
token, if any, does not swallow it and the first mark of the gap is a semicolon, a line end or a
separator; it is this mark, with its text and line. -/
structure NormalGap (before : Option Token) (gap left : List (Except ε Token)) : Prop where
  errors : left.filter isError = gap.filter isError
  atMostOne : (left.filterMap Except.toOption).length ≤ 1
  separator : ∀ u, .ok u ∈ left ↔ (∀ t ∈ before, t.kind.elides = false) ∧
    ∃ t, firstMark? gap = some t ∧ t.kind.unified = .separator ∧ u = { t with kind := .separator }

/-! ### One item of a gap -/

/-- The separator that is left of a gap, if there is one. -/
def separator? (before : Option Token) (gap : List (Except ε Token)) : Option Token :=
  if before.any (·.kind.elides) then none
  else (firstMark? gap).bind fun t =>
    if t.kind.unified = .separator then some { t with kind := .separator } else none

/-- The errors and the tokens that are left of a gap, each in order. -/
structure Leaves (before : Option Token) (gap left : List (Except ε Token)) : Prop where
  errors : left.filter isError = gap.filter isError
  tokens : left.filterMap Except.toOption = (separator? before gap).toList

section Step

variable {before : Option Token} {gap left : List (Except ε Token)} {t : Token}

lemma firstMark?_error (e : ε) : firstMark? (gap ++ [.error e]) = firstMark? gap := by
  simp [firstMark?, Except.toOption]

lemma firstMark?_ok : firstMark? (gap ++ [.ok t]) =
    (firstMark? gap).or (if t.kind.isTrivia then none else some t) := by
  cases h : t.kind.isTrivia <;> simp [firstMark?, Except.toOption, List.find?_append, h]

/-- A token behind the first mark, or behind one that swallows separators, changes nothing. -/
lemma separator?_of_flag (h : (before.any (·.kind.elides) || (firstMark? gap).isSome) = true) :
    separator? before (gap ++ [.ok t]) = separator? before gap := by
  unfold separator?
  split_ifs with hb
  · rfl
  · obtain ⟨u, hu⟩ := Option.isSome_iff_exists.mp ((Bool.or_eq_true _ _ |>.mp h).resolve_left hb)
    rw [firstMark?_ok, hu]
    rfl

/-- The first mark of a gap. -/
lemma separator?_of_first (h : (before.any (·.kind.elides) || (firstMark? gap).isSome) = false)
    (ht : t.kind.isTrivia = false) :
    separator? before gap = none ∧ separator? before (gap ++ [.ok t]) =
      if t.kind.unified = .separator then some { t with kind := .separator } else none := by
  obtain ⟨hb, hg⟩ := Bool.or_eq_false_iff.mp h
  rw [Option.isSome_eq_false_iff, Option.isNone_iff_eq_none] at hg
  simp [separator?, firstMark?_ok, hb, hg, ht]

lemma separator?_eq_some {u : Token} : separator? before gap = some u ↔
    (∀ p ∈ before, p.kind.elides = false) ∧ ∃ t, firstMark? gap = some t ∧
      t.kind.unified = .separator ∧ u = { t with kind := .separator } := by
  have hopen : before.any (·.kind.elides) = false ↔ ∀ p ∈ before, p.kind.elides = false := by
    cases before <;> simp
  rw [separator?, ← hopen]
  cases before.any (·.kind.elides) with
  | true => simp
  | false =>
      rw [if_neg (by decide), Option.bind_eq_some_iff]
      refine ⟨fun ⟨t, ht, hu⟩ => ⟨rfl, t, ht, ?_⟩, fun ⟨_, t, ht, hsep, hu⟩ => ⟨t, ht, ?_⟩⟩
      · split at hu
        · exact ⟨by assumption, (Option.some.inj hu).symm⟩
        · cases hu
      · rw [if_pos hsep, hu]

lemma Leaves.nil (before : Option Token) : Leaves before ([] : List (Except ε Token)) [] := by
  refine ⟨rfl, ?_⟩
  simp [separator?, firstMark?]

lemma Leaves.error (h : Leaves before gap left) (e : ε) :
    Leaves before (gap ++ [.error e]) (left ++ [.error e]) := by
  refine ⟨by simp [h.errors], ?_⟩
  rw [separator?, firstMark?_error, ← separator?, ← h.tokens]
  simp [Except.toOption]

/-- A token that does not change which separator is left. -/
lemma Leaves.skip (h : Leaves before gap left)
    (ht : separator? before (gap ++ [.ok t]) = separator? before gap) :
    Leaves before (gap ++ [.ok t]) left :=
  ⟨by simp [h.errors, isError], by rw [ht, h.tokens]⟩

/-- The first mark of a gap, if it is left. -/
lemma Leaves.mark (h : Leaves before gap left) (hgap : separator? before gap = none)
    (ht : separator? before (gap ++ [.ok t]) = some { t with kind := .separator }) :
    Leaves before (gap ++ [.ok t]) (left ++ [.ok { t with kind := .separator }]) := by
  refine ⟨by simp [h.errors, isError], ?_⟩
  rw [ht, List.filterMap_append, h.tokens, hgap]
  rfl

lemma Leaves.normalGap (h : Leaves before gap left) : NormalGap before gap left := by
  have hmem : ∀ u, .ok u ∈ left ↔ separator? before gap = some u := by
    intro u
    rw [← Option.mem_toList, ← h.tokens, List.mem_filterMap]
    constructor
    · exact fun hu => ⟨_, hu, rfl⟩
    · rintro ⟨item, hitem, hu⟩
      cases item with
      | error e => cases hu
      | ok v =>
          cases hu
          exact hitem
  refine ⟨h.errors, ?_, fun u => (hmem u).trans separator?_eq_some⟩
  rw [h.tokens]
  exact Option.length_toList_le

end Step

/-! ### One token of a stream -/

/-- What becomes of a token in front of a stream. -/
inductive Passage (elide : Bool) (t : Token) (raw : List (Except ε Token)) : Prop
  | significant (hs : t.kind.isSignificant = true)
      (h : separatedFrom elide (.ok t :: raw) = .ok t :: separatedFrom t.kind.elides raw)
  | trivia (hs : t.kind.isSignificant = false) (ht : t.kind.isTrivia = true)
      (h : separatedFrom elide (.ok t :: raw) = separatedFrom elide raw)
  | swallowed (hs : t.kind.isSignificant = false) (ht : t.kind.isTrivia = false)
      (he : t.kind.unified = .separator → elide = true)
      (h : separatedFrom elide (.ok t :: raw) = separatedFrom true raw)
  | separator (hs : t.kind.isSignificant = false) (ht : t.kind.isTrivia = false)
      (hu : t.kind.unified = .separator) (he : elide = false)
      (h : separatedFrom elide (.ok t :: raw) =
        .ok { t with kind := .separator } :: separatedFrom true raw)

lemma passage (elide : Bool) (t : Token) (raw : List (Except ε Token)) : Passage elide t raw := by
  have hout := separatedFrom_ok elide t raw
  by_cases htrivia : t.kind.isTrivia = true
  · rw [if_pos htrivia] at hout
    exact .trivia (by simp [TokenKind.isSignificant, TokenKind.isGap, htrivia]) htrivia hout
  · rw [if_neg htrivia] at hout
    rw [Bool.not_eq_true] at htrivia
    by_cases hsep : t.kind.unified = .separator
    · have hs : t.kind.isSignificant = false := by
        simp [TokenKind.isSignificant, TokenKind.isGap, hsep]
      rw [hsep] at hout
      cases elide with
      | true => exact .swallowed hs htrivia (fun _ => rfl) hout
      | false => exact .separator hs htrivia hsep rfl hout
    · have hu : t.kind.unified = t.kind := TokenKind.eq_of_unified hsep
      rw [hu] at hsep hout
      by_cases hcont : t.kind = .continuation
      · rw [if_pos (.inr hcont), hcont] at hout
        exact .swallowed (by simp [TokenKind.isSignificant, hcont]) htrivia
          (fun h => absurd (hu.symm.trans h) hsep) hout
      · rw [if_neg (by simp [hsep, hcont])] at hout
        refine .significant ?_ hout
        simp [TokenKind.isSignificant, TokenKind.isGap, htrivia, hu, hsep, hcont]

/-! ### All gaps of a stream -/

/-- Errors and significant tokens stay, in their order. -/
lemma filter_isKept_separatedFrom (elide : Bool) (raw : List (Except ε Token)) :
    (separatedFrom elide raw).filter isKept = raw.filter isKept := by
  induction raw generalizing elide with
  | nil => rfl
  | cons item raw ih =>
      cases item with
      | error e =>
          rw [separatedFrom, List.filter_cons_of_pos rfl, List.filter_cons_of_pos rfl, ih]
      | ok t =>
          cases passage elide t raw with
          | significant hs h =>
              have hkept : isKept (.ok t : Except ε Token) = true := hs
              rw [h, List.filter_cons_of_pos hkept, List.filter_cons_of_pos hkept, ih]
          | trivia hs ht h =>
              rw [h, ih, List.filter_cons_of_neg (by simp [isKept, hs])]
          | swallowed hs ht he h =>
              rw [h, ih, List.filter_cons_of_neg (by simp [isKept, hs])]
          | separator hs ht hu he h =>
              rw [h, List.filter_cons_of_neg (by simp [isKept]), ih,
                List.filter_cons_of_neg (by simp [isKept, hs])]

/-- What is left other than errors and significant tokens are separators. -/
lemma kind_of_mem_separatedFrom {elide : Bool} {raw : List (Except ε Token)} {t : Token}
    (h : .ok t ∈ separatedFrom elide raw) : t.kind.isSignificant = true ∨ t.kind = .separator := by
  induction raw generalizing elide with
  | nil => cases h
  | cons item raw ih =>
      cases item with
      | error e =>
          rw [separatedFrom] at h
          exact ih (List.mem_of_ne_of_mem (by simp) h)
      | ok u =>
          cases passage elide u raw with
          | significant hs hout =>
              rw [hout] at h
              rcases List.mem_cons.mp h with heq | h
              · cases heq
                exact .inl hs
              · exact ih h
          | trivia hs ht hout => exact ih (hout ▸ h)
          | swallowed hs ht he hout => exact ih (hout ▸ h)
          | separator hs ht hu he hout =>
              rw [hout] at h
              rcases List.mem_cons.mp h with heq | h
              · cases heq
                exact .inr rfl
              · exact ih h

/-- A stream in normal form is left as it is. The flag in front of it may have been set since. -/
lemma separatedFrom_separatedFrom {elide later : Bool} (he : elide = true → later = true)
    (raw : List (Except ε Token)) :
    separatedFrom elide (separatedFrom later raw) = separatedFrom later raw := by
  induction raw generalizing elide later with
  | nil => rfl
  | cons item raw ih =>
      cases item with
      | error e => rw [separatedFrom, separatedFrom, ih he]
      | ok t =>
          cases passage later t raw with
          | significant hs h =>
              rw [h]
              cases passage elide t (separatedFrom t.kind.elides raw) with
              | significant _ h' => rw [h', ih id]
              | trivia hs' => simp [hs] at hs'
              | swallowed hs' => simp [hs] at hs'
              | separator hs' => simp [hs] at hs'
          | trivia hs ht h => rw [h, ih he]
          | swallowed hs ht hl h => rw [h, ih fun _ => rfl]
          | separator hs ht hu hl h =>
              have hfirst : elide = false := by
                cases elide with
                | false => rfl
                | true => exact (he rfl).symm.trans hl
              rw [h, separatedFrom_ok, hfirst]
              exact congrArg (_ :: ·) (ih id)

/-- The gaps of a stream and of what is left of it, from inside a gap on. The flag is set behind a
token that swallows separators and behind the first mark of the gap. -/
lemma forall₂_gapsFrom {before : Option Token} {gap left : List (Except ε Token)} {elide : Bool}
    (hleaves : Leaves before gap left)
    (helide : elide = (before.any (·.kind.elides) || (firstMark? gap).isSome))
    (raw : List (Except ε Token)) :
    List.Forall₂ (fun g g' => g'.1 = g.1 ∧ NormalGap g.1 g.2 g'.2) (gapsFrom before gap raw)
      (gapsFrom before left (separatedFrom elide raw)) := by
  induction raw generalizing before gap left elide with
  | nil => exact .cons ⟨rfl, hleaves.normalGap⟩ .nil
  | cons item raw ih =>
      cases item with
      | error e =>
          rw [separatedFrom, gapsFrom, gapsFrom]
          exact ih (hleaves.error e) (by rw [helide, firstMark?_error])
      | ok t =>
          cases passage elide t raw with
          | significant hs h =>
              rw [h, gapsFrom, gapsFrom, if_pos hs, if_pos hs]
              exact .cons ⟨rfl, hleaves.normalGap⟩ (ih (.nil _) (by simp [firstMark?]))
          | trivia hs ht h =>
              have hfirst : firstMark? (gap ++ [.ok t]) = firstMark? gap := by
                simp [firstMark?_ok, ht]
              rw [h, gapsFrom, if_neg (by simp [hs])]
              exact ih (hleaves.skip (by rw [separator?, hfirst, separator?]))
                (by rw [helide, hfirst])
          | swallowed hs ht he h =>
              rw [h, gapsFrom, if_neg (by simp [hs])]
              refine ih (hleaves.skip ?_) (by simp [firstMark?_ok, ht])
              cases elide with
              | true => exact separator?_of_flag helide.symm
              | false =>
                  obtain ⟨hold, hnew⟩ := separator?_of_first helide.symm ht
                  rw [hold, hnew, if_neg fun hu => Bool.noConfusion (he hu)]
          | separator hs ht hu he h =>
              obtain ⟨hold, hnew⟩ := separator?_of_first (helide.symm.trans he) ht
              rw [if_pos hu] at hnew
              rw [h, gapsFrom, if_neg (by simp [hs]), gapsFrom, if_neg (by simp)]
              exact ih (hleaves.mark hold hnew) (by simp [firstMark?_ok, ht])

/-- **The normal form of the tokens that are parsed.** The errors and the significant tokens of a
stream are left as they are and in their order, and besides them nothing but separators: of each
gap at most one, the one that `NormalGap` tells. What is left is in normal form already. -/
theorem separated_normalForm (raw : List (Except ε Token)) :
    (separated raw).filter isKept = raw.filter isKept ∧
    (∀ t, .ok t ∈ separated raw → t.kind.isSignificant = true ∨ t.kind = .separator) ∧
    List.Forall₂ (fun g g' => g'.1 = g.1 ∧ NormalGap g.1 g.2 g'.2) (gaps raw)
      (gaps (separated raw)) ∧
    separated (separated raw) = separated raw :=
  ⟨filter_isKept_separatedFrom false raw, fun _ => kind_of_mem_separatedFrom,
    forall₂_gapsFrom (.nil none) rfl raw, separatedFrom_separatedFrom id raw⟩

end

end Tern
