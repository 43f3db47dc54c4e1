/-
String literals. Between double quotes every character is written as it is, or by its escape if it
has one, and all ways of writing a text are read as this text.

* `Scan.escapes`: the characters that have an escape;
* `Scan.Spelling`: the ways of writing a text between double quotes;
* `Scan.stringBody_of_spelling`, `Scan.spelling_of_stringBody`: these are what is read as a string;
* `Scan.scan_quoted`: scanning a string literal in front of any text.
-/
import Mathlib.Tactic
import Tern.Proofs.Scanning

namespace Tern

/-- An error some lines further down. -/
def SourceError.shift (k : Nat) : SourceError → SourceError
  | .lexical source line fault => .lexical source (line + k) fault
  | e => e

/-- A token or an error some lines further down. -/
def Scan.shift (k : Nat) : Except SourceError Token → Except SourceError Token
  | .ok t => .ok (t.shift k)
  | .error e => .error (e.shift k)

namespace Scan

/-! ### Ways of writing a text -/

/-- The characters that have an escape, each with the character behind the backslash. -/
def escapes : List (Char × Char) :=
  [('\n', 'n'), ('\r', 'r'), ('\x0c', 'f'), ('\t', 't'), ('\x00', '0'), ('\\', '\\'), ('\'', '\''),
    ('"', '"')]

lemma unescape?_eq_some_iff {c d : Char} : unescape? d = some c ↔ (c, d) ∈ escapes := by
  constructor
  · intro h
    unfold unescape? at h
    split at h <;> cases h <;> decide
  · intro h
    simp only [escapes, List.mem_cons, List.not_mem_nil, or_false, Prod.mk.injEq] at h
    rcases h with ⟨rfl, rfl⟩ | ⟨rfl, rfl⟩ | ⟨rfl, rfl⟩ | ⟨rfl, rfl⟩ | ⟨rfl, rfl⟩ | ⟨rfl, rfl⟩ |
      ⟨rfl, rfl⟩ | ⟨rfl, rfl⟩ <;> rfl

/-- A way of writing a text between double quotes. -/
inductive Spelling : List Char → List Char → Prop
  | nil : Spelling [] []
  | raw {c : Char} {text written : List Char} (hq : c ≠ '"') (hb : c ≠ '\\')
      (h : Spelling text written) : Spelling (c :: text) (c :: written)
  | escaped {c d : Char} {text written : List Char} (he : (c, d) ∈ escapes)
      (h : Spelling text written) : Spelling (c :: text) ('\\' :: d :: written)

/-- Every way of writing a text is read as the text, up to the closing quote. -/
lemma stringBody_of_spelling {text written : List Char} (h : Spelling text written)
    (rest : List Char) :
    stringBody (written ++ '"' :: rest) = (.ok text, written ++ ['"'], rest) := by
  induction h with
  | nil => rfl
  | raw hq hb _ ih =>
      rw [List.cons_append, stringBody_cons hq hb, ih]
      rfl
  | escaped he _ ih =>
      rw [List.cons_append, List.cons_append, stringBody_escape (unescape?_eq_some_iff.mpr he), ih]
      rfl

/-- What is read as a text is a way of writing it and the closing quote. -/
lemma spelling_of_stringBody {cs text : List Char} (h : (stringBody cs).1 = .ok text) :
    ∃ written, Spelling text written ∧ (stringBody cs).2.1 = written ++ ['"'] := by
  fun_induction stringBody cs generalizing text with
  | case1 => cases h
  | case2 cs =>
      cases h
      exact ⟨[], .nil, rfl⟩
  | case3 => cases h
  | case4 c cs d hd inner stretch rest heq ih =>
      rw [heq] at ih
      cases inner with
      | error fault => cases h
      | ok inner =>
          cases h
          obtain ⟨written, hspell, hstretch⟩ := ih rfl
          exact ⟨'\\' :: c :: written, .escaped (unescape?_eq_some_iff.mp hd) hspell,
            congrArg (fun s => '\\' :: c :: s) hstretch⟩
  | case5 c cs hd => cases h
  | case6 c cs hq hl hb inner stretch rest heq ih =>
      rw [heq] at ih
      cases inner with
      | error fault => cases h
      | ok inner =>
          cases h
          obtain ⟨written, hspell, hstretch⟩ := ih rfl
          have hb' : c ≠ '\\' := by
            rintro rfl
            cases cs with
            | nil => exact hl rfl rfl
            | cons d ds => exact hb d ds rfl rfl
          exact ⟨c :: written, .raw hq hb' hspell, congrArg (c :: ·) hstretch⟩

/-! ### Scanning a text behind another one -/

/-- As many steps as there are characters suffice. -/
lemma itemsFrom_of_le {source : String} {fuel fuel' line : Nat} {cs : List Char}
    (hf : cs.length ≤ fuel) (hf' : cs.length ≤ fuel') :
    itemsFrom source fuel line cs = itemsFrom source fuel' line cs := by
  induction fuel generalizing fuel' line cs with
  | zero =>
      cases List.length_eq_zero_iff.mp (Nat.le_zero.mp hf)
      cases fuel' <;> rfl
  | succ fuel ih =>
      cases cs with
      | nil => cases fuel' <;> rfl
      | cons c cs =>
          cases fuel' with
          | zero => cases hf'
          | succ fuel' =>
              have hrest : (step c cs).rest.length ≤ cs.length := length_rest_le c cs
              have h : cs.length ≤ fuel := Nat.le_of_succ_le_succ hf
              have h' : cs.length ≤ fuel' := Nat.le_of_succ_le_succ hf'
              rw [itemsFrom, itemsFrom, ih (hrest.trans h) (hrest.trans h')]

@[simp]
lemma token_item_add (s : Step) (source : String) (line k : Nat) :
    (s.item source (line + k)).token = shift k (s.item source line).token := by
  cases hf : s.found with
  | error fault => simp only [Step.item, hf, shift, SourceError.shift, Nat.add_right_comm]
  | ok found => simp only [Step.item, hf, shift, Token.shift]

/-- A text some lines further down. -/
lemma tokens_itemsFrom_add (source : String) (fuel line k : Nat) (cs : List Char) :
    (itemsFrom source fuel (line + k) cs).map (·.token) =
      ((itemsFrom source fuel line cs).map (·.token)).map (shift k) := by
  induction fuel generalizing line cs with
  | zero => cases cs <;> rfl
  | succ fuel ih =>
      cases cs with
      | nil => rfl
      | cons c cs =>
          simp only [itemsFrom, List.map_cons, token_item_add, Nat.add_right_comm _ k, ih]

/-- A string literal is one step. -/
lemma step_quoted {text written : List Char} (h : Spelling text written) (rest : List Char) :
    step '"' (written ++ '"' :: rest) =
      { stretch := '"' :: (written ++ ['"']), rest, breaks := lineBreaks written,
        found := .ok (.string, some (.text (String.ofList text))) } := by
  have hseam : Seamless written ['"'] := fun _ hhead => by cases hhead
  change scanString _ = _
  have hbody := stringBody_of_spelling h rest
  have hbreaks : stringBreaks (written ++ '"' :: rest) = lineBreaks written := by
    rw [stringBreaks_of_ok (congrArg Prod.fst hbody), hbody, lineBreaks_append hseam]
    rfl
  simp only [scanString, hbody, hbreaks]

/-- **String literals.** Every way of writing a text between double quotes is scanned as one string
with this text as its value, whatever follows; and what follows is scanned as it would be alone,
only as many lines further down as there are line ends in the string. -/
theorem scan_quoted {s written : String} (h : Spelling s.toList written.toList)
    (source rest : String) :
    scan source ("\"" ++ written ++ "\"" ++ rest) =
      .ok ⟨.string, "\"" ++ written ++ "\"", some (.text s), 1, source⟩ ::
        (scan source rest).map (shift (lineBreaks written.toList)) := by
  have htext : ("\"" ++ written ++ "\"" ++ rest).toList =
      '"' :: (written.toList ++ '"' :: rest.toList) := by simp
  have hlexeme : String.ofList ('"' :: (written.toList ++ ['"'])) = "\"" ++ written ++ "\"" := by
    rw [← String.toList_inj, String.toList_ofList]
    simp
  have hfuel : rest.toList.length ≤ (written.toList ++ '"' :: rest.toList).length := by
    rw [List.length_append, List.length_cons]
    omega
  rw [scan, items, htext, List.length_cons, itemsFrom, step_quoted h, List.map_cons,
    itemsFrom_of_le hfuel (le_refl _), tokens_itemsFrom_add, scan, items, ← hlexeme]
  simp only [Step.item, String.ofList_toList]
  rfl

theorem scan_quoted_mixed :
    Spelling "é\n\r\n\"\x00".toList "é\\n\r\n\\\"\\0".toList ∧
      scan "<test>" "\"é\\n\r\n\\\"\\0\"\"" =
        [.ok ⟨.string, "\"é\\n\r\n\\\"\\0\"", some (.text "é\n\r\n\"\x00"), 1, "<test>"⟩,
          .error (.lexical "<test>" 2 .openString), .ok (Token.endOf "<test>" 2)] := by
  have h : Spelling "é\n\r\n\"\x00".toList "é\\n\r\n\\\"\\0".toList :=
    .raw (by decide) (by decide) <| .escaped (by decide) <| .raw (by decide) (by decide) <|
      .raw (by decide) (by decide) <| .escaped (by decide) <| .escaped (by decide) .nil
  exact ⟨h, scan_quoted h "<test>" "\""⟩

end Scan

end Tern
