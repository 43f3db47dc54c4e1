/-
Scanning tiles its text. The stretches of the items stand one behind the other and cover the text
without gaps and overlaps, and one end token comes last. What a token keeps of its stretch depends
on its kind only.

* `Scan.exists_pieces`: the items of a text are those of steps, each from where the last one ended;
* `Token.ReadFrom`: what a token keeps of its stretch;
* `Scan.items_tile`: the tiling of a text.
-/
import Mathlib.Tactic
import Tern.Proofs.Scanning

namespace Tern

/-- A token keeps its stretch as its text: a line end in one form, and an annotation without the
`@`. Exactly the numbers, strings and characters have a value. -/
structure Token.ReadFrom (t : Token) (stretch : List Char) : Prop where
  newline : t.kind = .newline → t.lexeme = "\n"
  annotated : t.kind = .annotated → stretch = '@' :: t.lexeme.toList
  other : t.kind ≠ .newline → t.kind ≠ .annotated → stretch = t.lexeme.toList
  literal : t.literal.isSome = true ↔ t.kind = .number ∨ t.kind = .string ∨ t.kind = .char

namespace Scan

/-- The item at the end of a text. -/
def endItem (source : String) (line : Nat) : Item := ⟨[], .ok (Token.endOf source line)⟩

/-! ### The tokens of steps -/

@[simp]
lemma Step.stretch_item (s : Step) (source : String) (line : Nat) :
    (s.item source line).stretch = s.stretch := rfl

lemma lexeme_of_ne {kind : TokenKind} (hn : kind ≠ .newline) (ha : kind ≠ .annotated)
    (stretch : List Char) : lexeme kind stretch = String.ofList stretch := by
  unfold lexeme
  split
  · exact absurd rfl hn
  · exact absurd rfl ha
  · rfl

/-- Only what begins with an `@` is an annotation. -/
lemma Finds.eq_at {c : Char} {kind : TokenKind} {literal : Option Literal}
    (h : Finds c kind literal) (hk : kind = .annotated) : c = '@' := by
  cases h with
  | plain hp =>
      subst hk
      cases hp
  | annotated hc => exact hc
  | number => cases hk
  | text ht =>
      rcases ht with rfl | rfl
      · cases hk
      · cases hk

lemma Finds.isSome_literal {c : Char} {kind : TokenKind} {literal : Option Literal}
    (h : Finds c kind literal) :
    literal.isSome = true ↔ kind = .number ∨ kind = .string ∨ kind = .char := by
  cases h with
  | plain hp => cases kind <;> simp_all [isPlain]
  | annotated => simp
  | number => simp
  | text ht => rcases ht with rfl | rfl <;> simp

/-- The token of a step is read from the stretch of the step. -/
lemma readFrom_step {c : Char} {cs : List Char} {source : String} {line : Nat} {t : Token}
    (h : ((step c cs).item source line).token = .ok t) :
    t.kind ≠ .eof ∧ t.ReadFrom (step c cs).stretch := by
  obtain ⟨s, hs, -⟩ := step_covers c cs
  cases hf : (step c cs).found with
  | error fault =>
      simp only [Step.item, hf] at h
      cases h
  | ok found =>
      obtain ⟨kind, literal⟩ := found
      simp only [Step.item, hf] at h
      cases h
      have hfinds : Finds c kind literal := step_finds hf
      refine ⟨(step_kind hf).1, ?_, ?_, ?_, hfinds.isSome_literal⟩
      · rintro rfl
        rfl
      · rintro rfl
        rw [lexeme, String.toList_ofList, hs, hfinds.eq_at rfl]
        rfl
      · intro hn ha
        rw [lexeme_of_ne hn ha, String.toList_ofList]

/-! ### The items of a text -/

/-- The items of a text are those of steps, each of which begins where the last one ended, and an
end. -/
lemma exists_pieces (source : String) {fuel : Nat} (line : Nat) {cs : List Char}
    (hf : cs.length ≤ fuel) :
    ∃ pieces last, itemsFrom source fuel line cs = pieces ++ [endItem source last] ∧
      (pieces.map (·.stretch)).flatten = cs ∧
      ∀ p ∈ pieces, ∃ c rest line, p = (step c rest).item source line := by
  induction fuel generalizing line cs with
  | zero =>
      have hcs : cs = [] := List.length_eq_zero_iff.mp (by omega)
      subst hcs
      exact ⟨[], line, rfl, rfl, by simp⟩
  | succ fuel ih =>
      cases cs with
      | nil => exact ⟨[], line, rfl, rfl, by simp⟩
      | cons c cs =>
          have hlength : (step c cs).rest.length ≤ cs.length := length_rest_le c cs
          rw [List.length_cons] at hf
          have hfuel : (step c cs).rest.length ≤ fuel := by omega
          obtain ⟨pieces, last, hitems, hflat, hsteps⟩ := ih (line + (step c cs).breaks) hfuel
          obtain ⟨s, hs, hrest⟩ := step_covers c cs
          refine ⟨(step c cs).item source line :: pieces, last, ?_, ?_, ?_⟩
          · rw [itemsFrom, hitems, List.cons_append]
          · rw [List.map_cons, List.flatten_cons, hflat, Step.stretch_item, hs, List.cons_append,
              hrest]
          · intro p hp
            rcases List.mem_cons.mp hp with rfl | hp
            · exact ⟨c, cs, line, rfl⟩
            · exact hsteps p hp

/-- **Scanning tiles its text.** The items of a text are finitely many with a stretch, and one end
token. The stretches are not empty, and one behind the other they are the text. A token is read
from its stretch, and none but the last ends the text. -/
theorem items_tile (source text : String) :
    ∃ pieces line, items source text = pieces ++ [endItem source line] ∧
      (pieces.map (·.stretch)).flatten = text.toList ∧
      ∀ p ∈ pieces, p.stretch ≠ [] ∧
        ∀ t, p.token = .ok t → t.kind ≠ .eof ∧ t.ReadFrom p.stretch := by
  obtain ⟨pieces, last, hitems, hflat, hsteps⟩ :=
    exists_pieces source 1 (le_refl text.toList.length)
  refine ⟨pieces, last, hitems, hflat, fun p hp => ?_⟩
  obtain ⟨c, rest, line, rfl⟩ := hsteps p hp
  obtain ⟨s, hs, -⟩ := step_covers c rest
  exact ⟨by simp [hs], fun t ht => readFrom_step ht⟩

end Scan

end Tern
