/-
Legible trees: names in them are names, numbers are finite and patterns are collections. What is
printed of such a tree is made of words that can be told from what stands around them.

* `Scan.isName`: the texts that are scanned as names;
* `Expr.isLegible`: legible trees;
* `Number.isNumeric_print`: the characters of a printed number;
* `Expr.sound_nested`: the words of a printed tree.
-/
import Mathlib.Tactic
import Tern.Proofs.Outline
import Tern.Proofs.Scanning

namespace Tern

namespace Scan

/-- Texts of the characters of names. -/
def isNameLike (text : String) : Bool :=
  match text.toList with
  | [] => false
  | c :: cs => startsName c && cs.all continuesName

/-- Texts that are scanned as names. -/
def isName (text : String) : Bool := isNameLike text && wordKind text = .identifier

end Scan

open Scan

/-- Whether a constant is not a number that is none, or too large to be one. -/
def Constant.isFinite : Constant → Bool
  | .number n => n.value.isFinite
  | _ => true

/-- Whether all parameters are names. -/
def Params.areNames (p : Params) : Bool := p.names.all isName && p.rest.all isName

/-- The forms of tuples, lists and maps. -/
def Form.isCollection : Form → Bool
  | .tuple _ | .list _ | .map _ => true
  | _ => false

mutual

/-- Trees in which names are names, numbers are finite and patterns are collections. -/
def Expr.isLegible : Expr → Bool
  | .node site form => site.annotations.all isNameLike && form.isLegible

/-- Forms in which names are names, numbers are finite and patterns are collections. -/
def Form.isLegible : Form → Bool
  | .constant c => c.isFinite
  | .name name => isName name
  | .group inner => inner.isLegible
  | .tuple items => areLegible items
  | .list items => areLegible items
  | .map entries => pairsAreLegible entries
  | .pair left right => left.isLegible && right.isLegible
  | .unary _ operand => operand.isLegible
  | .binary _ left right => left.isLegible && right.isLegible
  | .logical _ left right => left.isLegible && right.isLegible
  | .assign name value _ => isName name && value.isLegible
  | .destructure pattern value =>
    pattern.form.isCollection && pattern.isLegible && value.isLegible
  | .index target index => target.isLegible && index.isLegible
  | .setIndex target index value => target.isLegible && index.isLegible && value.isLegible
  | .member object name _ => object.isLegible && isName name
  | .setMember object name value => object.isLegible && isName name && value.isLegible
  | .call callee arguments => callee.isLegible && areLegible arguments
  | .spread inner => inner.isLegible
  | .function name params body _ => isName name && params.areNames && body.isLegible
  | .lambda params body => params.areNames && body.isLegible
  | .block body => areLegible body
  | .branch condition yes => condition.isLegible && yes.isLegible
  | .branchElse condition yes no => condition.isLegible && yes.isLegible && no.isLegible
  | .whileLoop condition body => condition.isLegible && body.isLegible
  | .forLoop pattern iterable body =>
    pattern.isLegible && iterable.isLegible && body.isLegible
  | .matching scrutinee clauses => scrutinee.isLegible && pairsAreLegible clauses
  | .attempt body clauses => body.isLegible && pairsAreLegible clauses
  | .raise value => value.isLegible
  | .leave => true
  | .leaveWith value => value.isLegible
  | .classDef name superclass members =>
    isName name && superclass.all isName && membersAreLegible members
  | .importing path => !path.isEmpty && path.all isName

/-- Legible trees in a row. -/
def areLegible : List Expr → Bool
  | [] => true
  | e :: rest => e.isLegible && areLegible rest

/-- Pairs of legible trees. -/
def pairsAreLegible : List (Expr × Expr) → Bool
  | [] => true
  | (e, e') :: rest => e.isLegible && e'.isLegible && pairsAreLegible rest

/-- Members of classes whose trees are legible. -/
def membersAreLegible : List Member → Bool
  | [] => true
  | m :: rest => m.isLegible && membersAreLegible rest

/-- A member of a class whose trees are legible. -/
def Member.isLegible : Member → Bool
  | .method name params body => isName name && params.areNames && body.isLegible
  | .field name => isName name
  | .fieldWith name default => isName name && default.isLegible

end

/-! ### Legible trees are printed with words -/

open Nested

lemma inWord_of_continuesName {c : Char} (h : continuesName c = true) : inWord c = true := by
  rw [inWord, decide_eq_true_eq]
  intro hc
  simp only [List.mem_cons, List.not_mem_nil, or_false] at hc
  rcases hc with rfl | rfl | rfl | rfl <;> exact absurd h (by decide)

lemma continuesName_of_startsName {c : Char} (h : startsName c = true) :
    continuesName c = true := by
  simp only [startsName, continuesName, Char.isAlphanum, Bool.or_eq_true] at h ⊢
  tauto

lemma Scan.isNameLike_iff {text : String} : isNameLike text = true ↔
    ∃ c cs, text.toList = c :: cs ∧ startsName c = true ∧ ∀ d ∈ cs, continuesName d = true := by
  unfold isNameLike
  split
  · rename_i h
    simp [h]
  · rename_i c cs h
    simp [h]

lemma continuesName_of_isNameLike {text : String} (h : isNameLike text = true) :
    text.toList ≠ [] ∧ ∀ c ∈ text.toList, continuesName c = true := by
  obtain ⟨c, cs, htext, hc, hcs⟩ := isNameLike_iff.mp h
  rw [htext]
  refine ⟨by simp, ?_⟩
  rintro d (_ | hd)
  · exact continuesName_of_startsName hc
  · exact hcs d (by assumption)

lemma isNameLike_of_isName {text : String} (h : isName text = true) : isNameLike text = true := by
  rw [isName, Bool.and_eq_true] at h
  exact h.1

/-- Words that are put together from words. -/
lemma isWord_append {text more : String} (h : text.toList ≠ [])
    (hall : ∀ c ∈ text.toList, inWord c = true) (hmore : ∀ c ∈ more.toList, inWord c = true) :
    isWord (text ++ more) = true := by
  rw [isWord_iff, String.toList_append]
  refine ⟨by simp [h], ?_⟩
  intro c hc
  rcases List.mem_append.mp hc with hc | hc
  · exact hall c hc
  · exact hmore c hc

lemma isWord_of_isNameLike {text : String} (h : isNameLike text = true) : isWord text = true := by
  obtain ⟨hne, hall⟩ := continuesName_of_isNameLike h
  exact isWord_iff.mpr ⟨hne, fun c hc => inWord_of_continuesName (hall c hc)⟩

lemma isWord_of_isName {text : String} (h : isName text = true) : isWord text = true :=
  isWord_of_isNameLike (isNameLike_of_isName h)

/-- The characters of printed numbers. -/
def isNumeric (c : Char) : Bool := c.isDigit || c = '.' || c = '-'

lemma inWord_of_isNumeric {c : Char} (h : isNumeric c = true) : inWord c = true := by
  rw [inWord, decide_eq_true_eq]
  intro hc
  simp only [List.mem_cons, List.not_mem_nil, or_false] at hc
  rcases hc with rfl | rfl | rfl | rfl <;> exact absurd h (by decide)

lemma not_startsName_of_isNumeric {c : Char} (h : isNumeric c = true) : startsName c = false := by
  by_contra hs
  have hdigit := isDigit_of_startsName (by simpa using hs)
  simp only [isNumeric, hdigit, Bool.false_or, Bool.or_eq_true, decide_eq_true_eq] at h
  rcases h with rfl | rfl <;> exact hs rfl

lemma Number.isNumeric_positional (d : Number.Decimal) :
    d.positional ≠ [] ∧ ∀ c ∈ d.positional, isNumeric c = true := by
  have hdigits : ∀ c ∈ Number.digitChars d.digits, isNumeric c = true := by
    intro c hc
    simp [isNumeric, Nat.isDigit_of_mem_toDigits (by omega) (by omega) hc]
  have hzeros : ∀ {n : Nat}, ∀ c ∈ Number.zeros n, isNumeric c = true := by
    intro n c hc
    rw [List.eq_of_mem_replicate hc]
    decide
  have hne : Number.digitChars d.digits ≠ [] := Nat.toDigits_ne_nil
  unfold Number.Decimal.positional
  dsimp only
  split
  · split
    · exact ⟨by simp, by simp; decide⟩
    · refine ⟨by simp [hne], fun c hc => ?_⟩
      exact (List.mem_append.mp hc).elim (hdigits c) (hzeros c)
  · split
    · refine ⟨by simp, fun c hc => ?_⟩
      rcases List.mem_append.mp hc with hc | hc
      · exact hdigits c (List.mem_of_mem_take hc)
      · rcases List.mem_cons.mp hc with rfl | hc
        · decide
        · exact hdigits c (List.mem_of_mem_drop hc)
    · refine ⟨by simp, fun c hc => ?_⟩
      rcases List.mem_cons.mp hc with rfl | hc
      · decide
      · rcases List.mem_cons.mp hc with rfl | hc
        · decide
        · exact (List.mem_append.mp hc).elim (hzeros c) (hdigits c)

lemma Float.isNaN_of_isFinite {x : Float} (h : x.isFinite = true) :
    x.isNaN = false ∧ x.isInf = false := by
  simp only [Float.isFinite, Float.isNaN, Float.isInf, Float.Model.isFinite, Float.Model.isNaN,
    Float.Model.isInf] at h ⊢
  cases hu : x.toModel.unpack with
  | zero => exact ⟨rfl, rfl⟩
  | finite => exact ⟨rfl, rfl⟩
  | _ =>
      rw [hu] at h
      cases h

/-- A finite number is printed with digits, a point and a minus. -/
lemma Number.isNumeric_print {x : Float} (h : x.isFinite = true) :
    (Number.print x).toList ≠ [] ∧ ∀ c ∈ (Number.print x).toList, isNumeric c = true := by
  obtain ⟨hnan, hinf⟩ := Float.isNaN_of_isFinite h
  obtain ⟨hne, hall⟩ := Number.isNumeric_positional (Number.magnitude x).shortest
  rw [Number.print, if_neg (Bool.eq_false_iff.mp hnan), if_neg (Bool.eq_false_iff.mp hinf)]
  split
  · exact ⟨List.cons_ne_nil _ _, List.forall_mem_singleton.mpr rfl⟩
  · dsimp only
    split
    · rw [String.toList_append,
        String.toList_ofList (l := (Number.magnitude x).shortest.positional)]
      exact ⟨List.cons_ne_nil _ _, List.forall_mem_cons.mpr ⟨rfl, hall⟩⟩
    · rw [String.toList_ofList]
      exact ⟨hne, hall⟩

lemma sound_word {text : String} : (Nested.word text).Sound ↔ isWord text = true :=
  ⟨fun h => by cases h; assumption, .word⟩

lemma sound_words {texts : List String} :
    (∀ item ∈ texts.map Nested.word, item.Sound) ↔ ∀ text ∈ texts, isWord text = true := by
  simp [sound_word]

lemma Constant.sound_nested {c : Constant} (h : c.isFinite = true) : c.nested.Sound := by
  cases c with
  | number n =>
      obtain ⟨hne, hall⟩ := Number.isNumeric_print h
      exact .word (isWord_iff.mpr ⟨hne, fun c hc => inWord_of_isNumeric (hall c hc)⟩)
  | text s => exact .quoted s
  | bool b => cases b <;> exact .word (by decide)
  | null => exact .word (by decide)

/-- All characters are those of words, if they are those of names or points. -/
lemma isWord_of_name_append {name more : String} (h : isName name = true)
    (hmore : ∀ c ∈ more.toList, inWord c = true) : isWord (name ++ more) = true := by
  obtain ⟨hne, hall⟩ := isWord_iff.mp (isWord_of_isName h)
  exact isWord_append hne hall hmore

lemma Params.isWord_words {p : Params} (h : p.areNames = true) :
    ∀ text ∈ p.words, isWord text = true := by
  obtain ⟨names, rest⟩ := p
  rw [Params.areNames, Bool.and_eq_true, List.all_eq_true] at h
  intro text ht
  rcases List.mem_append.mp ht with ht | ht
  · exact isWord_of_isName (h.1 text ht)
  · cases rest with
    | none => cases ht
    | some rest =>
        obtain rfl := List.mem_singleton.mp ht
        exact isWord_of_name_append h.2 (isWord_iff.mp (by decide : isWord "..." = true)).2

lemma isWord_path {path : List String} (hne : path ≠ []) (h : ∀ name ∈ path, isName name = true) :
    isWord (".".intercalate path) = true := by
  induction path with
  | nil => exact absurd rfl hne
  | cons name path ih =>
      have hname : isName name = true := h name List.mem_cons_self
      cases path with
      | nil =>
          rw [String.intercalate_singleton]
          exact isWord_of_isName hname
      | cons next path =>
          rw [String.intercalate_cons_cons, String.append_assoc]
          refine isWord_of_name_append hname ?_
          have hrest := isWord_iff.mp (ih (by simp) fun n hn => h n (List.mem_cons_of_mem _ hn))
          rw [String.toList_append]
          exact List.forall_mem_cons.mpr ⟨rfl, hrest.2⟩

lemma Site.sound_nested {site : Site} (h : site.annotations.all isNameLike = true) {inner : Nested}
    (hinner : inner.Sound) : (site.nested inner).Sound := by
  rw [Site.nested]
  split
  · exact hinner
  · refine .row fun item hitem => ?_
    rcases List.mem_append.mp hitem with hitem | hitem
    · refine sound_words.mpr ?_ item hitem
      intro text ht
      obtain ⟨mark, hmark, rfl⟩ := List.mem_map.mp ht
      have hword := isWord_iff.mp (isWord_of_isNameLike (List.all_eq_true.mp h mark hmark))
      have hat := isWord_iff.mp (by decide : isWord "@" = true)
      exact isWord_append hat.1 hat.2 hword.2
    · exact List.mem_singleton.mp hitem ▸ hinner

/-- A row with a head. -/
lemma sound_form {head : String} (hhead : isWord head = true) {parts : List Nested}
    (h : ∀ item ∈ parts, item.Sound) : (Nested.row (.word head :: parts)).Sound :=
  .row (List.forall_mem_cons.mpr ⟨.word hhead, h⟩)

lemma Params.sound_nested {p : Params} (h : p.areNames = true) :
    (Nested.row (p.words.map .word)).Sound :=
  .row (sound_words.mpr (Params.isWord_words h))

lemma isWord_parentWords {superclass : Option String} (h : superclass.all isName = true) :
    ∀ text ∈ parentWords superclass, isWord text = true := by
  cases superclass with
  | none => simp [parentWords]
  | some parent =>
      have hparent : isWord parent = true := isWord_of_isName h
      have hcolon : isWord ":" = true := by decide
      simp [parentWords, hparent, hcolon]

mutual

/-- A legible tree is printed with words that can be told from what stands around them. -/
theorem Expr.sound_nested : ∀ e : Expr, e.isLegible = true → e.nested.Sound
  | .node site form, h => by
    rw [Expr.isLegible, Bool.and_eq_true] at h
    rw [Expr.nested]
    exact Site.sound_nested h.1 (Form.sound_nested form h.2)

theorem Form.sound_nested (form : Form) (h : form.isLegible = true) : form.nested.Sound := by
  cases form with
  | constant c => exact Constant.sound_nested h
  | name name => exact .word (isWord_of_isName h)
  | unary op operand =>
      refine sound_form (by cases op <;> decide) ?_
      simpa using Expr.sound_nested operand h
  | binary op left right =>
      rw [Form.isLegible, Bool.and_eq_true] at h
      refine sound_form (by cases op <;> decide) ?_
      simpa using ⟨Expr.sound_nested left h.1, Expr.sound_nested right h.2⟩
  | logical op left right =>
      rw [Form.isLegible, Bool.and_eq_true] at h
      refine sound_form (by cases op <;> decide) ?_
      simpa using ⟨Expr.sound_nested left h.1, Expr.sound_nested right h.2⟩
  | assign name value declare =>
      rw [Form.isLegible, Bool.and_eq_true] at h
      refine sound_form (by cases declare <;> decide) ?_
      simpa [sound_word] using ⟨isWord_of_isName h.1, Expr.sound_nested value h.2⟩
  | member object name safe =>
      rw [Form.isLegible, Bool.and_eq_true] at h
      refine sound_form (by cases safe <;> decide) ?_
      simpa [sound_word] using ⟨Expr.sound_nested object h.1, isWord_of_isName h.2⟩
  | importing path =>
      rw [Form.isLegible, Bool.and_eq_true, List.all_eq_true] at h
      refine sound_form (by decide) ?_
      simpa [sound_word] using isWord_path (by simpa using h.1) h.2
  | classDef name superclass members =>
      simp only [Form.isLegible, Bool.and_eq_true] at h
      refine sound_form (by decide) ?_
      rw [List.forall_mem_cons, List.forall_mem_append]
      exact ⟨.word (isWord_of_isName h.1.1), sound_words.mpr (isWord_parentWords h.1.2),
        sound_nestMembers members h.2⟩
  | tuple items => exact sound_form (by decide) (sound_nestItems items h)
  | list items => exact sound_form (by decide) (sound_nestItems items h)
  | block body => exact sound_form (by decide) (sound_nestItems body h)
  | map entries => exact sound_form (by decide) (sound_nestPairs entries h).1
  | call callee arguments =>
      rw [Form.isLegible, Bool.and_eq_true] at h
      exact sound_form (by decide) (List.forall_mem_cons.mpr
        ⟨Expr.sound_nested callee h.1, sound_nestItems arguments h.2⟩)
  | matching scrutinee clauses =>
      rw [Form.isLegible, Bool.and_eq_true] at h
      exact sound_form (by decide) (List.forall_mem_cons.mpr
        ⟨Expr.sound_nested scrutinee h.1, (sound_nestPairs clauses h.2).2⟩)
  | attempt body clauses =>
      rw [Form.isLegible, Bool.and_eq_true] at h
      exact sound_form (by decide) (List.forall_mem_cons.mpr
        ⟨Expr.sound_nested body h.1, (sound_nestPairs clauses h.2).2⟩)
  | _ =>
      simp only [Form.isLegible, Bool.and_eq_true] at h
      refine sound_form (by decide) ?_
      simp [sound_word, Params.sound_nested, isWord_of_isName, Expr.sound_nested, h]

theorem sound_nestItems : ∀ es : List Expr, areLegible es = true →
    ∀ item ∈ nestItems es, item.Sound
  | [], _ => by simp [nestItems]
  | e :: rest, h => by
    rw [areLegible, Bool.and_eq_true] at h
    rw [nestItems, List.forall_mem_cons]
    exact ⟨Expr.sound_nested e h.1, sound_nestItems rest h.2⟩

theorem sound_nestPairs : ∀ es : List (Expr × Expr), pairsAreLegible es = true →
    (∀ item ∈ nestEntries es, item.Sound) ∧ ∀ item ∈ nestClauses es, item.Sound
  | [], _ => by simp [nestEntries, nestClauses]
  | (e, e') :: rest, h => by
    simp only [pairsAreLegible, Bool.and_eq_true] at h
    have hfirst := Expr.sound_nested e h.1.1
    have hsecond := Expr.sound_nested e' h.1.2
    obtain ⟨hentries, hclauses⟩ := sound_nestPairs rest h.2
    have harrow : isWord "->" = true := by decide
    rw [nestEntries, nestClauses, List.forall_mem_cons, List.forall_mem_cons]
    exact ⟨⟨.row (by simp [hfirst, hsecond]), hentries⟩,
      .row (by simp [hfirst, hsecond, sound_word, harrow]), hclauses⟩

theorem sound_nestMembers : ∀ ms : List Member, membersAreLegible ms = true →
    ∀ item ∈ nestMembers ms, item.Sound
  | [], _ => by simp [nestMembers]
  | m :: rest, h => by
    rw [membersAreLegible, Bool.and_eq_true] at h
    rw [nestMembers, List.forall_mem_cons]
    exact ⟨Member.sound_nested m h.1, sound_nestMembers rest h.2⟩

theorem Member.sound_nested (m : Member) (h : m.isLegible = true) : m.nested.Sound := by
  cases m <;>
    (simp only [Member.isLegible, Bool.and_eq_true] at h
     refine sound_form (by decide) ?_
     simp [sound_word, Params.sound_nested, isWord_of_isName, Expr.sound_nested, h])

end

end Tern
