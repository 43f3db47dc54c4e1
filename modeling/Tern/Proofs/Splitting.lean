/-
Splitting texts and joining them again. A text is cut at the occurrences of a separator, from the
left and without overlaps, so that the parts with the separator between them are the text, and the
separator is in none of them.

* `Text.intercalate_split`, `Text.not_infix_of_mem_split`: these two facts about parts.
* `Session.PartsOf`: what a session answers about the parts of a text.
* `Session.split_join`: the result, for the members `split`, `join` and `chars` and for loops.
-/
import Mathlib.Tactic
import Tern.Proofs.MapHistory

namespace Tern

/-! ### Parts of a text -/

namespace Text

variable {sep cs part p : List Char} {skip : Nat}

lemma splitFrom_ne_nil : splitFrom sep cs skip part ≠ [] := by
  fun_induction splitFrom sep cs skip part with
  | case1 | case3 => exact List.cons_ne_nil _ _
  | case2 _ _ _ _ ih | case4 _ _ _ _ ih => exact ih

/-- What has been read and what is left, behind the occurrence that has been found, are the parts
with the separator between them. -/
lemma intercalate_splitFrom (hsep : sep ≠ []) :
    sep.intercalate (splitFrom sep cs skip part) = part.reverse ++ cs.drop skip := by
  fun_induction splitFrom sep cs skip part with
  | case1 => simp
  | case2 _ _ _ _ ih => rw [ih, List.drop_succ_cons]
  | case3 c cs part h ih =>
      obtain ⟨rest, hrest⟩ := List.isPrefixOf_iff_prefix.mp h
      have hdrop : cs.drop (sep.length - 1) = rest := by
        have hlen : sep.length - 1 + 1 = sep.length :=
          Nat.sub_add_cancel (List.length_pos_of_ne_nil hsep)
        rw [← List.drop_succ_cons (a := c), hlen, ← hrest, List.drop_left]
      rw [List.intercalate_cons_of_ne_nil splitFrom_ne_nil, ih, hdrop, List.drop_zero, ← hrest]
      simp
  | case4 _ _ _ _ ih => simpa using ih

/-- No occurrence of a separator starts inside what has been read, which `part` holds in reverse. -/
def NoneStarts (sep part cs : List Char) : Prop :=
  ∀ i < part.length, ¬ sep <+: (part.reverse ++ cs).drop i

lemma noneStarts_nil : NoneStarts sep [] cs := fun i hi => absurd hi (Nat.not_lt_zero i)

lemma NoneStarts.cons {c : Char} (h : NoneStarts sep part (c :: cs)) (hc : ¬ sep <+: c :: cs) :
    NoneStarts sep (c :: part) cs := by
  intro i hi
  rw [List.reverse_cons, List.append_assoc, List.singleton_append]
  rcases Nat.lt_succ_iff_lt_or_eq.mp hi with hi | rfl
  · exact h i hi
  · rwa [← List.length_reverse, List.drop_left]

/-- An occurrence inside what has been read would start there. -/
lemma NoneStarts.not_infix (h : NoneStarts sep part cs) (hsep : sep ≠ []) :
    ¬ sep <:+: part.reverse := by
  rintro ⟨before, after, heq⟩
  have hlen : before.length < part.length := by
    have hpos := List.length_pos_of_ne_nil hsep
    have hsum := congrArg List.length heq
    simp only [List.length_append, List.length_reverse] at hsum
    omega
  refine h before.length hlen ⟨after ++ cs, ?_⟩
  rw [← heq, List.append_assoc, List.append_assoc, List.drop_left]

/-- While characters of an occurrence are skipped, a new part is still empty. -/
lemma not_infix_of_mem_splitFrom (hsep : sep ≠ []) (hpart : NoneStarts sep part cs)
    (hskip : skip ≠ 0 → part = []) (hp : p ∈ splitFrom sep cs skip part) : ¬ sep <:+: p := by
  fun_induction splitFrom sep cs skip part with
  | case1 =>
      rw [List.mem_singleton.mp hp]
      exact hpart.not_infix hsep
  | case2 _ _ _ _ ih =>
      obtain rfl := hskip (Nat.succ_ne_zero _)
      exact ih noneStarts_nil (fun _ => rfl) hp
  | case3 _ _ _ _ ih =>
      rcases List.mem_cons.mp hp with rfl | hp
      · exact hpart.not_infix hsep
      · exact ih noneStarts_nil (fun _ => rfl) hp
  | case4 _ _ _ h ih =>
      have hnext := hpart.cons fun hc => h (List.isPrefixOf_iff_prefix.mpr hc)
      exact ih hnext (fun h => absurd rfl h) hp

/-- **The parts with the separator between them are the text.** -/
theorem intercalate_split (sep cs : List Char) : sep.intercalate (split sep cs) = cs := by
  cases sep with
  | nil =>
      rw [split, if_pos List.isEmpty_nil]
      induction cs with
      | nil => rfl
      | cons c cs ih =>
          cases cs with
          | nil => rfl
          | cons d ds => simpa [List.intercalate] using ih
  | cons d ds => exact intercalate_splitFrom (List.cons_ne_nil d ds)

/-- **The separator is in no part.** -/
theorem not_infix_of_mem_split (hsep : sep ≠ []) (hp : p ∈ split sep cs) : ¬ sep <:+: p := by
  rw [split, if_neg (by simpa using hsep)] at hp
  exact not_infix_of_mem_splitFrom hsep noneStarts_nil (fun h => absurd rfl h) hp

lemma occurs_iff : occurs sep cs = true ↔ sep <:+: cs := by
  induction cs with
  | nil => simp [occurs]
  | cons c cs ih => simp [occurs, ih, List.infix_cons_iff]

end Text

/-! ### Members of texts and lists -/

lemma Library.operation?_split :
    Library.heap.operation? BuiltinClass.string.ref "split" 1 = some .split := by
  decide +kernel

lemma Library.operation?_chars :
    Library.heap.operation? BuiltinClass.string.ref "chars" 0 = some .chars := by
  decide +kernel

lemma Library.operation?_containsText :
    Library.heap.operation? BuiltinClass.string.ref "contains" 1 = some .containsText := by
  decide +kernel

lemma Library.operation?_join :
    Library.heap.operation? BuiltinClass.list.ref "join" 1 = some .join := by
  decide +kernel

namespace Eval

variable {run : Runner} {s : Session} {r : ListRef}

/-- Splitting gives a fresh list of the parts. -/
lemma callMember_split (hl : s.HasLibrary) (text sep : String) :
    callMember run (.text text) "split" [.text sep] s =
      newList ((Text.split sep.toList text.toList).map (Value.text <| String.ofList ·)).toArray s :=
  callMember_of_operation? hl (.text text) "split" [.text sep] (fun _ h => by cases h)
    Library.operation?_split

/-- The member `chars` gives a fresh list of one-character texts. -/
lemma callMember_chars (hl : s.HasLibrary) (text : String) :
    callMember run (.text text) "chars" [] s = newList (Value.characters text).toArray s :=
  callMember_of_operation? hl (.text text) "chars" [] (fun _ h => by cases h)
    Library.operation?_chars

/-- The member `contains` looks for an occurrence. -/
lemma callMember_contains (hl : s.HasLibrary) (text sep : String) :
    callMember run (.text text) "contains" [.text sep] s =
      .ok (.bool (Text.occurs sep.toList text.toList)) s :=
  callMember_of_operation? hl (.text text) "contains" [.text sep] (fun _ h => by cases h)
    Library.operation?_containsText

/-- Joining shows the items with the separator between them. -/
lemma callMember_join (hl : s.HasLibrary) (sep : String) :
    callMember run (.list r) "join" [.text sep] s =
      .ok (.text (sep.intercalate ((s.heap.items r).toList.map s.heap.display))) s :=
  callMember_of_operation? hl (.list r) "join" [.text sep] (fun _ h => by cases h)
    Library.operation?_join

end Eval

/-! ### Splitting and joining -/

namespace Session

open Eval

/-- What a session answers about the parts of a text. Splitting the text gives a new list of them,
and joining this list gives the text back. The member `contains` finds the separator in none of
them, unless it is empty. If it is empty, the member `chars` gives the same list and a loop over
the text goes through the same items. -/
structure PartsOf (text sep : String) (parts : List String) (run : Runner) (s : Session) :
    Prop where
  joined : ∃ r s', callMember run (.text text) "split" [.text sep] s = .ok (.list r) s' ∧
    s'.heap.items r = (parts.map Value.text).toArray ∧
    callMember run (.list r) "join" [.text sep] s' = .ok (.text text) s'
  contains : sep ≠ "" → ∀ part ∈ parts,
    callMember run (.text part) "contains" [.text sep] s = .ok (.bool false) s
  chars : sep = "" → callMember run (.text text) "chars" [] s =
    callMember run (.text text) "split" [.text sep] s
  loop : sep = "" → ∀ rounds site pattern iterable body s₀,
    run (.expr iterable) s₀ = .ok (.text text) s →
      evalForm rounds run site (.forLoop pattern iterable body) s₀ =
        loopItems run site pattern body .null (parts.map Value.text) s

/-- The parts of a text. -/
def partsOf (text sep : String) : List String :=
  (Text.split sep.toList text.toList).map String.ofList

lemma partsOf_empty (text : String) : partsOf text "" = text.toList.map String.singleton := by
  simp only [partsOf, Text.split, String.toList_empty, List.isEmpty_nil, if_true, List.map_map]
  exact List.map_congr_left fun c _ => String.singleton_eq_ofList.symm

lemma not_infix_of_mem_partsOf {text sep part : String} (hsep : sep ≠ "")
    (hpart : part ∈ partsOf text sep) : ¬ sep.toList <:+: part.toList := by
  obtain ⟨p, hp, rfl⟩ := List.mem_map.mp hpart
  rw [String.toList_ofList]
  exact Text.not_infix_of_mem_split (String.toList_eq_nil_iff.not.mpr hsep) hp

lemma intercalate_partsOf (text sep : String) : sep.intercalate (partsOf text sep) = text := by
  rw [← String.toList_inj, String.toList_intercalate, partsOf, List.map_map]
  simpa [Function.comp_def] using Text.intercalate_split sep.toList text.toList

lemma characters_eq (text : String) :
    Value.characters text = (partsOf text "").map Value.text := by
  rw [partsOf_empty, List.map_map]
  rfl

lemma answers_partsOf {s : Session} (hl : s.HasLibrary) (run : Runner) (text sep : String) :
    s.PartsOf text sep (partsOf text sep) run := by
  let items := ((partsOf text sep).map Value.text).toArray
  have hsplit : callMember run (.text text) "split" [.text sep] s = newList items s := by
    rw [callMember_split hl]
    simp only [items, partsOf, List.map_map, Function.comp_def]
  refine ⟨?_, fun hsep part hpart => ?_, fun hsep => ?_, fun hsep => ?_⟩
  · let s' : Session := { s with heap := (s.heap.addList items).2 }
    have hl' : s'.HasLibrary := hl.trans (Heap.grows_addList s.heap items)
    have hitems : s'.heap.items ⟨s.heap.lists.size⟩ = items := by
      simp [s', Heap.items, Heap.addList]
    refine ⟨⟨s.heap.lists.size⟩, s', hsplit, hitems, ?_⟩
    have hshown : items.toList.map s'.heap.display = partsOf text sep := by
      simp [items, Function.comp_def, Heap.display]
    rw [callMember_join hl', hitems, hshown, intercalate_partsOf]
  · have hnone := Text.occurs_iff.not.mpr (not_infix_of_mem_partsOf hsep hpart)
    rw [callMember_contains hl, Bool.eq_false_of_not_eq_true hnone]
  · subst hsep
    rw [hsplit, callMember_chars hl, characters_eq]
  · subst hsep
    intro rounds site pattern iterable body s₀ hs
    simp only [evalForm, iterationItems, bind_apply, hs, pure_apply, characters_eq]

/-- **A text is what its parts are joined to.** Every text has parts for every separator: the
separator is in none of them or, if it is empty, they are the characters one by one. In every
session that a host can come across, splitting gives these parts and joining them gives the text. -/
theorem split_join (text sep : String) : ∃ parts : List String,
    (sep ≠ "" → ∀ part ∈ parts, ¬ sep.toList <:+: part.toList) ∧
      (sep = "" → parts = text.toList.map String.singleton) ∧
      ∀ (run : Runner) (s : Session), s.Reachable → s.PartsOf text sep parts run := by
  refine ⟨partsOf text sep, fun hsep part => not_infix_of_mem_partsOf hsep, fun hsep => ?_,
    fun run s hs => answers_partsOf hs.sound.heap.library run text sep⟩
  rw [hsep, partsOf_empty]

/-- The separator overlaps with itself, stands at both ends and comes twice in a row. -/
theorem split_join_overlapping : initial.Reachable ∧ ∃ parts : List String,
    (∀ part ∈ parts, ¬ "aa".toList <:+: part.toList) ∧
      initial.PartsOf "aaabaaaa" "aa" parts (perform 0 0 0) := by
  have hs : initial.Reachable := .between (.start none .none .idle)
  obtain ⟨parts, hnone, -, hparts⟩ := split_join "aaabaaaa" "aa"
  exact ⟨hs, parts, hnone (by decide), hparts _ _ hs⟩

end Session

end Tern
