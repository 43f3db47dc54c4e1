/-
Data as finite trees. A value built from null, booleans, strings, tuples, lists and maps is a
finite tree of data if it does not contain itself. The heap tells which value is which tree; two
values that are the same tree can be different cells.

* `Datum`, `Heap.Holds`: trees, and the values that are such trees in a heap;
* `Datum.IsKey`, `Datum.Legible`: data without identity, and data whose text can be read back;
* `Heap.Holds.unique`: a value is one tree at most;
* `Heap.Holds.equal`: values that are the same tree are equal;
* `Heap.Holds.prints`, `Heap.Holds.display`: plain recursion prints a value as the text of its tree,
  so this is how it is displayed.
-/
import Mathlib.Tactic
import Tern.Proofs.Showing
import Tern.Value.Equality

namespace Tern

/-! ### Trees -/

/-- Data as a tree. -/
inductive Datum where
  | null
  | bool (b : Bool)
  | text (s : String)
  | tuple (items : List Datum)
  | list (items : List Datum)
  | map (entries : List (Datum × Datum))

namespace Datum

lemma sizeOf_lt_tuple {d : Datum} {items : List Datum} (h : d ∈ items) :
    sizeOf d < sizeOf (Datum.tuple items) := by
  have hlt := List.sizeOf_lt_of_mem h
  rw [Datum.tuple.sizeOf_spec]
  omega

lemma sizeOf_lt_list {d : Datum} {items : List Datum} (h : d ∈ items) :
    sizeOf d < sizeOf (Datum.list items) := by
  have hlt := List.sizeOf_lt_of_mem h
  rw [Datum.list.sizeOf_spec]
  omega

lemma sizeOf_lt_map {e : Datum × Datum} {entries : List (Datum × Datum)} (h : e ∈ entries) :
    sizeOf e.1 < sizeOf (Datum.map entries) ∧ sizeOf e.2 < sizeOf (Datum.map entries) := by
  have hlt := List.sizeOf_lt_of_mem h
  obtain ⟨k, v⟩ := e
  rw [Prod.mk.sizeOf_spec] at hlt
  rw [Datum.map.sizeOf_spec]
  constructor <;> simp only <;> omega

/-- What holds of a tree if it holds of its parts holds of every tree. -/
@[elab_as_elim, induction_eliminator]
theorem ind {P : Datum → Prop} (null : P .null) (bool : ∀ b, P (.bool b)) (text : ∀ s, P (.text s))
    (tuple : ∀ items, (∀ d ∈ items, P d) → P (.tuple items))
    (list : ∀ items, (∀ d ∈ items, P d) → P (.list items))
    (map : ∀ entries, (∀ e ∈ entries, P e.1) → (∀ e ∈ entries, P e.2) → P (.map entries)) :
    ∀ d, P d
  | .null => null
  | .bool b => bool b
  | .text s => text s
  | .tuple items => tuple items fun d _ => ind null bool text tuple list map d
  | .list items => list items fun d _ => ind null bool text tuple list map d
  | .map entries =>
      map entries (fun e _ => ind null bool text tuple list map e.1)
        (fun e _ => ind null bool text tuple list map e.2)
termination_by d => sizeOf d
decreasing_by
  · exact sizeOf_lt_tuple ‹_›
  · exact sizeOf_lt_list ‹_›
  · exact (sizeOf_lt_map ‹_›).1
  · exact (sizeOf_lt_map ‹_›).2

/-- The text of a tree. -/
def shown : Datum → List Char
  | .null => "null".toList
  | .bool true => "true".toList
  | .bool false => "false".toList
  | .text s => Text.quoteChars s.toList
  | .tuple items =>
    '(' :: ([',', ' '].intercalate (items.map fun d => d.shown) ++
      ((if items.length = 1 then [','] else []) ++ [')']))
  | .list items => '[' :: ([',', ' '].intercalate (items.map fun d => d.shown) ++ [']'])
  | .map entries =>
    if entries.isEmpty then "[:]".toList
    else
      '[' :: ([',', ' '].intercalate (entries.map fun e => e.1.shown ++ ':' :: ' ' :: e.2.shown) ++
        [']'])
termination_by d => sizeOf d
decreasing_by
  · exact sizeOf_lt_tuple ‹_›
  · exact sizeOf_lt_list ‹_›
  · exact (sizeOf_lt_map ‹_›).1
  · exact (sizeOf_lt_map ‹_›).2

/-- Data in which nothing has an identity of its own: without lists and maps. -/
inductive IsKey : Datum → Prop
  | null : IsKey .null
  | bool (b : Bool) : IsKey (.bool b)
  | text (s : String) : IsKey (.text s)
  | tuple {items : List Datum} (h : ∀ d ∈ items, IsKey d) : IsKey (.tuple items)

end Datum

/-- Characters that a quoted text writes as they are or by one of the escapes `\0`, `\t`, `\n`,
`\r`, `\"` and `\\`. -/
def Text.Legible (c : Char) : Prop :=
  isVisible c = true ∨ c ∈ ['\x00', '\t', '\n', '\r', '"', '\\']

namespace Datum

/-- Data whose text can be read back: the characters of its strings are written as they are or by
an escape of two characters, and the keys of its maps, which are different from each other, contain
no lists and maps. -/
inductive Legible : Datum → Prop
  | null : Legible .null
  | bool (b : Bool) : Legible (.bool b)
  | text {s : String} (h : ∀ c ∈ s.toList, Text.Legible c) : Legible (.text s)
  | tuple {items : List Datum} (h : ∀ d ∈ items, Legible d) : Legible (.tuple items)
  | list {items : List Datum} (h : ∀ d ∈ items, Legible d) : Legible (.list items)
  | map {entries : List (Datum × Datum)} (hd : (entries.map (·.1)).Nodup)
      (hk : ∀ e ∈ entries, e.1.IsKey) (hkeys : ∀ e ∈ entries, Legible e.1)
      (hvalues : ∀ e ∈ entries, Legible e.2) : Legible (.map entries)

end Datum

/-! ### Values that are trees -/

namespace Heap

/-- The values that are a tree in a heap. Lists and maps are cells with the items, keys and values
of the tree in order. -/
inductive Holds (h : Heap) : Datum → Value → Prop
  | null : Holds h .null .null
  | bool (b : Bool) : Holds h (.bool b) (.bool b)
  | text (s : String) : Holds h (.text s) (.text s)
  | tuple {ds : List Datum} {vs : List Value} (hi : List.Forall₂ (Holds h) ds vs) :
      Holds h (.tuple ds) (.tuple vs)
  | list {ds : List Datum} {r : ListRef} {items : Array Value}
      (hr : h.lists[r.index]? = some items) (hi : List.Forall₂ (Holds h) ds items.toList) :
      Holds h (.list ds) (.list r)
  | map {es : List (Datum × Datum)} {r : MapRef} {entries : Entries}
      (hr : h.maps[r.index]? = some entries)
      (hk : List.Forall₂ (Holds h) (es.map (·.1)) entries.keys)
      (hv : List.Forall₂ (Holds h) (es.map (·.2)) entries.values) :
      Holds h (.map es) (.map r)

/-- The entries of a tree and those that a map has for them. -/
abbrev HoldsEntries (h : Heap) (es : List (Datum × Datum)) (entries : Entries) : Prop :=
  List.Forall₂ (fun e p => h.Holds e.1 p.1 ∧ h.Holds e.2 p.2) es entries

/-- A later heap in which the lists and maps of the earlier one are the same. -/
structure Extends (h h' : Heap) : Prop where
  lists : ∀ {i : Nat} {items : Array Value}, h.lists[i]? = some items → h'.lists[i]? = some items
  maps : ∀ {i : Nat} {entries : Entries}, h.maps[i]? = some entries → h'.maps[i]? = some entries

namespace Holds

variable {h h' : Heap} {d d' : Datum} {v w : Value}

/-- What holds of trees and their values holds of trees and values in a row. -/
lemma all {P : Datum → Value → Prop} {ds : List Datum} {vs : List Value}
    (ih : ∀ d ∈ ds, ∀ v, h.Holds d v → P d v) (hi : List.Forall₂ h.Holds ds vs) :
    List.Forall₂ P ds vs :=
  forall₂_imp_of_mem ih hi

lemma mono (hh : h.Extends h') (hv : h.Holds d v) : h'.Holds d v := by
  induction d generalizing v with
  | null => cases hv; exact .null
  | bool b => cases hv; exact .bool b
  | text s => cases hv; exact .text s
  | tuple ds ih =>
      cases hv with
      | tuple hi => exact .tuple (all (fun d hd v hv => ih d hd hv) hi)
  | list ds ih =>
      cases hv with
      | list hr hi => exact .list (hh.lists hr) (all (fun d hd v hv => ih d hd hv) hi)
  | map es ihk ihv =>
      cases hv with
      | map hr hk hv =>
          refine .map (hh.maps hr) (all (fun d hd v hv => ?_) hk) (all (fun d hd v hv => ?_) hv)
          · obtain ⟨e, he, rfl⟩ := List.mem_map.mp hd
            exact ihk e he hv
          · obtain ⟨e, he, rfl⟩ := List.mem_map.mp hd
            exact ihv e he hv

/-- Trees in a row are told by their values if each of them is. -/
lemma eq_of_all {ds ds' : List Datum} {vs : List Value}
    (h₁ : List.Forall₂ (fun d v => ∀ d', h.Holds d' v → d = d') ds vs)
    (h₂ : List.Forall₂ h.Holds ds' vs) : ds = ds' := by
  induction h₁ generalizing ds' with
  | nil =>
      cases h₂
      rfl
  | cons hd _ ih =>
      cases h₂ with
      | cons hd' h₂ => rw [hd _ hd', ih h₂]

/-- A value is one tree at most. -/
theorem unique (h₁ : h.Holds d v) (h₂ : h.Holds d' v) : d = d' := by
  induction d generalizing v d' with
  | null => cases h₁; cases h₂; rfl
  | bool b => cases h₁; cases h₂; rfl
  | text s => cases h₁; cases h₂; rfl
  | tuple ds ih =>
      cases h₁ with
      | tuple hi =>
          cases h₂ with
          | tuple hi' =>
              rw [eq_of_all (all (fun d hd v hv d' hv' => ih d hd hv hv') hi) hi']
  | list ds ih =>
      cases h₁ with
      | list hr hi =>
          cases h₂ with
          | list hr' hi' =>
              rw [hr] at hr'
              cases hr'
              rw [eq_of_all (all (fun d hd v hv d' hv' => ih d hd hv hv') hi) hi']
  | map es ihk ihv =>
      cases h₁ with
      | map hr hk hv =>
          cases h₂ with
          | @map es' _ _ hr' hk' hv' =>
              rw [hr] at hr'
              cases hr'
              have hkeys : es.map (·.1) = es'.map (·.1) := by
                refine eq_of_all (all (fun d hd v hv d' hv' => ?_) hk) hk'
                obtain ⟨e, he, rfl⟩ := List.mem_map.mp hd
                exact ihk e he hv hv'
              have hvalues : es.map (·.2) = es'.map (·.2) := by
                refine eq_of_all (all (fun d hd v hv d' hv' => ?_) hv) hv'
                obtain ⟨e, he, rfl⟩ := List.mem_map.mp hd
                exact ihv e he hv hv'
              exact congrArg _ ((List.zip_of_prod hkeys hvalues).trans
                (List.zip_of_prod rfl rfl).symm)

/-! ### Keys -/

/-- Values in a row are told by their trees if each of them is. -/
lemma values_eq_of_all {ds : List Datum} {vs ws : List Value}
    (h₁ : List.Forall₂ (fun d v => ∀ w, h.Holds d w → v = w) ds vs)
    (h₂ : List.Forall₂ h.Holds ds ws) : vs = ws := by
  induction h₁ generalizing ws with
  | nil =>
      cases h₂
      rfl
  | cons hd _ ih =>
      cases h₂ with
      | cons hw h₂ => rw [hd _ hw, ih h₂]

/-- Data without identity is the same value in every heap. -/
lemma eq_of_isKey (hd : d.IsKey) (h₁ : h.Holds d v) (h₂ : h'.Holds d w) : v = w := by
  induction hd generalizing v w with
  | null => cases h₁; cases h₂; rfl
  | bool b => cases h₁; cases h₂; rfl
  | text s => cases h₁; cases h₂; rfl
  | tuple _ ih =>
      cases h₁ with
      | tuple hi =>
          cases h₂ with
          | tuple hi' =>
              rw [values_eq_of_all (all (fun d hd v hv w hw => ih d hd hv hw) hi) hi']

lemma sameKeys_iff {ds ds' : List Datum} {vs ws : List Value}
    (h₁ : List.Forall₂
      (fun d v => ∀ d' w, h.Holds d' w → (v.sameKey w = true ↔ d = d')) ds vs)
    (h₂ : List.Forall₂ h.Holds ds' ws) : sameKeys vs ws = true ↔ ds = ds' := by
  induction h₁ generalizing ds' ws with
  | nil => cases h₂ <;> simp [sameKeys]
  | cons hd _ ih =>
      cases h₂ with
      | nil => simp [sameKeys]
      | cons hw h₂ => simp [sameKeys, hd _ _ hw, ih h₂]

/-- Keys are the same exactly if they are the same tree. -/
lemma sameKey_iff (hd : d.IsKey) (h₁ : h.Holds d v) (h₂ : h.Holds d' w) :
    v.sameKey w = true ↔ d = d' := by
  induction hd generalizing v w d' with
  | null => cases h₁; cases h₂ <;> simp [Value.sameKey, Value.sameRef]
  | bool b => cases h₁; cases h₂ <;> simp [Value.sameKey, Value.sameRef]
  | text s => cases h₁; cases h₂ <;> simp [Value.sameKey, Value.sameRef]
  | tuple _ ih =>
      cases h₁ with
      | tuple hi =>
          cases h₂ with
          | tuple hi' =>
              rw [Value.sameKey, Datum.tuple.injEq]
              exact sameKeys_iff (all (fun d hd v hv d' w hw => ih d hd hv hw) hi) hi'
          | _ => simp [Value.sameKey, Value.sameRef]

/-- The entries of a map and of its tree one by one. -/
lemma entries_iff {es : List (Datum × Datum)} {entries : Entries} :
    List.Forall₂ h.Holds (es.map (·.1)) entries.keys ∧
      List.Forall₂ h.Holds (es.map (·.2)) entries.values ↔ h.HoldsEntries es entries := by
  rw [Entries.keys, Entries.values]
  induction es generalizing entries with
  | nil => simp
  | cons e es ih =>
      cases entries with
      | nil => simp
      | cons p entries =>
          simp only [List.map_cons, List.forall₂_cons, ← ih]
          tauto

section Entries

variable {es : List (Datum × Datum)} {entries others : Entries} {p : Value × Value}

/-- The value under a key of a map is that of the entry with the key. -/
lemma find?_of_mem (hd : (es.map (·.1)).Nodup) (hk : ∀ e ∈ es, e.1.IsKey)
    (he : h.HoldsEntries es entries) (hp : p ∈ entries) : entries.find? p.1 = some p.2 := by
  induction he with
  | nil => cases hp
  | @cons e p' es entries hep he ih =>
      rw [List.map_cons, List.nodup_cons] at hd
      have hself : p'.1.sameKey p'.1 = true :=
        (sameKey_iff (hk e List.mem_cons_self) hep.1 hep.1).mpr rfl
      rcases List.mem_cons.mp hp with rfl | hp
      · rw [Entries.find?, if_pos hself]
      · -- An entry further down has another key.
        have hother : ∃ e' ∈ es, h.Holds e'.1 p.1 := by
          obtain ⟨i, hi, rfl⟩ := List.getElem_of_mem hp
          have hi' : i < es.length := he.length_eq ▸ hi
          exact ⟨es[i], List.getElem_mem hi', (he.get hi' hi).1⟩
        obtain ⟨e', he', hkey⟩ := hother
        have hne : ¬ p'.1.sameKey p.1 = true := by
          rw [sameKey_iff (hk e List.mem_cons_self) hep.1 hkey]
          rintro heq
          exact hd.1 (heq ▸ List.mem_map_of_mem he')
        rw [Entries.find?, if_neg hne]
        exact ih hd.2 (fun e he => hk e (List.mem_cons_of_mem _ he)) hp

/-- An entry with another key comes last. -/
lemma insert_of_notMem (hk : ∀ e ∈ es, e.1.IsKey) (he : h.HoldsEntries es entries)
    (hv : h.Holds d v) (hnew : d ∉ es.map (·.1)) (w : Value) :
    entries.insert v w = entries ++ [(v, w)] := by
  induction he with
  | nil => rfl
  | @cons e p es entries hep _ ih =>
      rw [List.map_cons, List.mem_cons, not_or] at hnew
      have hne : ¬ p.1.sameKey v = true := by
        rw [sameKey_iff (hk e List.mem_cons_self) hep.1 hv]
        exact Ne.symm hnew.1
      rw [Entries.insert, if_neg hne, ih (fun e he => hk e (List.mem_cons_of_mem _ he)) hnew.2]
      rfl

end Entries

/-! ### Equality -/

lemma equalItems {free : Nat} {pending : List (Container × Container)} {ds : List Datum}
    {vs ws : List Value}
    (ih : ∀ d ∈ ds, ∀ {v w : Value}, h.Holds d v → h.Holds d w → h.equalIn free pending v w = true)
    (h₁ : List.Forall₂ h.Holds ds vs) (h₂ : List.Forall₂ h.Holds ds ws) :
    h.equalItems free pending vs ws = true := by
  induction h₁ generalizing ws with
  | nil =>
      cases h₂
      rw [Heap.equalItems]
  | cons hv _ ihs =>
      cases h₂ with
      | cons hw h₂ =>
          rw [Heap.equalItems, ih _ List.mem_cons_self hv hw,
            ihs (fun d hd => ih d (List.mem_cons_of_mem _ hd)) h₂]
          rfl

lemma equalEntries {free : Nat} {pending : List (Container × Container)} {entries others : Entries}
    (hp : ∀ p ∈ entries, ∃ w, others.find? p.1 = some w ∧ h.equalIn free pending p.2 w = true) :
    h.equalEntries free pending others entries = true := by
  induction entries with
  | nil => rw [Heap.equalEntries]
  | cons p entries ih =>
      obtain ⟨w, hw, heq⟩ := hp p List.mem_cons_self
      rw [Heap.equalEntries, hw]
      simp only [heq, Bool.true_and]
      exact ih fun p h => hp p (List.mem_cons_of_mem _ h)

/-- Values that are the same tree are equal, whatever is under comparison. -/
lemma equalIn (hd : d.Legible) (h₁ : h.Holds d v) (h₂ : h.Holds d w) (free : Nat)
    (pending : List (Container × Container)) : h.equalIn free pending v w = true := by
  induction hd generalizing v w free pending with
  | null => cases h₁; cases h₂; rw [Heap.equalIn]
  | bool b => cases h₁; cases h₂; rw [Heap.equalIn]; exact beq_self_eq_true b
  | @text s hs => cases h₁; cases h₂; rw [Heap.equalIn]; exact beq_self_eq_true s
  | tuple hds ih =>
      cases h₁ with
      | tuple hi =>
          cases h₂ with
          | tuple hi' =>
              rw [Heap.equalIn]
              exact equalItems (fun d hd _ _ hv hw => ih d hd hv hw free pending) hi hi'
  | list hds ih =>
      cases h₁ with
      | list hr hi =>
          cases h₂ with
          | list hr' hi' =>
              cases free with
              | zero => rw [Heap.equalIn, ite_self]
              | succ free =>
                  rw [Heap.equalIn]
                  split
                  · rfl
                  · simp only [Heap.items, hr, hr', Option.getD_some]
                    exact equalItems (fun d hd _ _ hv hw => ih d hd hv hw _ _) hi hi'
  | @map es hnodup hk _ _ _ ihv =>
      cases h₁ with
      | @map _ a m hr hk₁ hv₁ =>
          cases h₂ with
          | @map _ b n hr' hk₂ hv₂ =>
              cases free with
              | zero => rw [Heap.equalIn, ite_self]
              | succ free =>
                  rw [Heap.equalIn]
                  split
                  · rfl
                  · have hm := entries_iff.mp ⟨hk₁, hv₁⟩
                    have hn := entries_iff.mp ⟨hk₂, hv₂⟩
                    simp only [Heap.entries, hr, hr', Option.getD_some]
                    rw [← hm.length_eq, ← hn.length_eq, beq_self_eq_true, Bool.true_and]
                    refine equalEntries fun p hp => ?_
                    obtain ⟨i, hi, rfl⟩ := List.getElem_of_mem hp
                    have hi₁ : i < es.length := hm.length_eq ▸ hi
                    have hi₂ : i < n.length := hn.length_eq ▸ hi₁
                    have hem := hm.get hi₁ hi
                    have hen := hn.get hi₁ hi₂
                    have he := List.getElem_mem hi₁
                    refine ⟨n[i].2, ?_, ihv _ he hem.2 hen.2 _ _⟩
                    have hkey : m[i].1 = n[i].1 := eq_of_isKey (hk _ he) hem.1 hen.1
                    rw [hkey]
                    exact find?_of_mem hnodup hk hn (List.getElem_mem hi₂)

lemma equal (hd : d.Legible) (h₁ : h.Holds d v) (h₂ : h.Holds d w) : h.equal v w = true :=
  h₁.equalIn hd h₂ _ _

end Holds

end Heap

/-! ### Display -/

namespace Heap

variable {h : Heap} {d : Datum} {v : Value}

lemma map_eq_of_all {α β γ : Type} {as : List α} {bs : List β} {f : β → γ} {g : α → γ}
    (hall : List.Forall₂ (fun a b => f b = g a) as bs) : bs.map f = as.map g := by
  induction hall with
  | nil => rfl
  | cons h _ ih => rw [List.map_cons, List.map_cons, h, ih]

/-- What is said of the members of two rows is said of each member of the second. -/
lemma forall_mem_of_all {α β : Type} {as : List α} {bs : List β} {P : β → Prop} {Q : α → β → Prop}
    (hall : List.Forall₂ (fun a b => Q a b ∧ P b) as bs) : ∀ b ∈ bs, P b := by
  induction hall with
  | nil => exact List.forall_mem_nil _
  | cons h _ ih => exact List.forall_mem_cons.mpr ⟨h.2, ih⟩

/-- A value is printed as a tree if its layout, with its parts as they are printed, is that of the
tree. -/
lemma prints_of_layout (text : Value → String) (hparts : ∀ w ∈ h.inside v, h.Prints w (text w))
    (heq : (h.layout text v).toList = d.shown) : h.Prints v (String.ofList d.shown) := by
  rw [← heq, String.ofList_toList]
  exact .inFull hparts

namespace Holds

/-- The texts of values that are trees, if these are printed as such. -/
lemma exists_text {ds : List Datum}
    (ih : ∀ d ∈ ds, ∀ {v}, h.Holds d v → h.Prints v (String.ofList d.shown)) :
    ∃ text : Value → String, ∀ d ∈ ds, ∀ w, h.Holds d w →
      (text w).toList = d.shown ∧ h.Prints w (text w) := by
  have hone : ∀ w, ∃ t : String, ∀ d ∈ ds, h.Holds d w → t.toList = d.shown ∧ h.Prints w t := by
    intro w
    by_cases hw : ∃ d ∈ ds, h.Holds d w
    · obtain ⟨d, hd, hw⟩ := hw
      refine ⟨String.ofList d.shown, fun d' _ hw' => ?_⟩
      rw [← hw.unique hw', String.toList_ofList]
      exact ⟨rfl, ih d hd hw⟩
    · exact ⟨"", fun d hd hw' => absurd ⟨d, hd, hw'⟩ hw⟩
  choose text htext using hone
  exact ⟨text, fun d hd w => htext w d hd⟩

/-- A value that is a tree is printed as the text of the tree. -/
lemma prints (hv : h.Holds d v) : h.Prints v (String.ofList d.shown) := by
  induction d generalizing v with
  | null =>
      cases hv
      exact prints_of_layout (fun _ => "") (List.forall_mem_nil _) (by rw [layout, Datum.shown])
  | bool b =>
      cases hv
      exact prints_of_layout (fun _ => "") (List.forall_mem_nil _)
        (by cases b <;> rw [layout, Datum.shown])
  | text s =>
      cases hv
      exact prints_of_layout (fun _ => "") (List.forall_mem_nil _)
        (by rw [layout, Datum.shown, Text.quote, String.toList_ofList])
  | tuple ds ih =>
      cases hv with
      | @tuple _ vs hi =>
          obtain ⟨text, htext⟩ := exists_text ih
          have hall := all htext hi
          have hitems : vs.map (fun w => (text w).toList) = ds.map fun d => d.shown :=
            map_eq_of_all (hall.imp fun _ _ hp => hp.1)
          refine prints_of_layout text (forall_mem_of_all hall) ?_
          rw [layout, Datum.shown, ← hi.length_eq, ← hitems]
          split <;> simp [Function.comp_def]
  | list ds ih =>
      cases hv with
      | @list _ r items hr hi =>
          obtain ⟨text, htext⟩ := exists_text ih
          have hall := all htext hi
          have hitems : items.toList.map (fun w => (text w).toList) = ds.map fun d => d.shown :=
            map_eq_of_all (hall.imp fun _ _ hp => hp.1)
          have hin : h.items r = items := by rw [Heap.items, hr, Option.getD_some]
          refine prints_of_layout text ?_ ?_
          · rw [inside, hin]
            exact forall_mem_of_all hall
          · rw [layout, Datum.shown, ← hitems, hin]
            simp [Function.comp_def]
  | map es ihk ihv =>
      cases hv with
      | @map _ r entries hr hk hv' =>
          have ih : ∀ d ∈ es.map (·.1) ++ es.map (·.2), ∀ {v}, h.Holds d v →
              h.Prints v (String.ofList d.shown) := by
            intro d hd v hv
            rcases List.mem_append.mp hd with hd | hd
            · obtain ⟨e, he, rfl⟩ := List.mem_map.mp hd
              exact ihk e he hv
            · obtain ⟨e, he, rfl⟩ := List.mem_map.mp hd
              exact ihv e he hv
          obtain ⟨text, htext⟩ := exists_text ih
          have hin : h.entries r = entries := by rw [Heap.entries, hr, Option.getD_some]
          have he := entries_iff.mp ⟨hk, hv'⟩
          have hempty : entries.isEmpty = es.isEmpty := by
            cases he <;> rfl
          have hkeys := forall_mem_of_all (all (fun d hd => htext d (List.mem_append_left _ hd)) hk)
          have hvalues :=
            forall_mem_of_all (all (fun d hd => htext d (List.mem_append_right _ hd)) hv')
          have hentries : entries.map (fun p => (text p.1).toList ++ ':' :: ' ' ::
              (text p.2).toList) = es.map fun e => e.1.shown ++ ':' :: ' ' :: e.2.shown := by
            refine map_eq_of_all (((List.forall₂_and_left es entries).mpr
              ⟨fun e he => he, he⟩).imp fun e p hep => ?_)
            obtain ⟨he, hp⟩ := hep
            rw [(htext e.1 (List.mem_append_left _ (List.mem_map_of_mem he)) _ hp.1).1,
              (htext e.2 (List.mem_append_right _ (List.mem_map_of_mem he)) _ hp.2).1]
          refine prints_of_layout text ?_ ?_
          · rw [inside, hin]
            intro w hw
            obtain ⟨p, hp, hw⟩ := List.mem_flatMap.mp hw
            rcases List.mem_cons.mp hw with rfl | hw
            · exact hkeys _ (List.mem_map_of_mem hp)
            · rw [List.mem_singleton.mp hw]
              exact hvalues _ (List.mem_map_of_mem hp)
          · rw [layout, Datum.shown, ← hentries, hin, hempty]
            split
            · rfl
            · simp [Function.comp_def]

/-- A value other than a string is displayed as its tree. -/
theorem display (hv : h.Holds d v) (hs : ∀ s, v ≠ .text s) : (h.display v).toList = d.shown := by
  rw [display_eq_bare, ← hv.prints.eq_showIn]
  cases v with
  | text s => exact absurd rfl (hs s)
  | _ => exact String.toList_ofList

end Holds

end Heap

end Tern
