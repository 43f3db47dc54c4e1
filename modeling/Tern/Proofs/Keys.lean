/-
Values as keys. To be the same key is an equivalence of values, so that a map whose keys are apart
has one entry at most for each key, whichever of the values that are this key it is asked for.
What there is on the equality of floating-point numbers comes with the whole of Mathlib only.

* `Value.ind`: induction over tuples and receivers.
* `Key`, `Value.key`, `Value.sameKey_iff`: what a value is as a key. Numbers are compared as numbers
  there, and those that are none are one key.
* `Value.hashPieces_eq_of_sameKey`, `Entries.find?_of_hash`: the same keys feed a hasher alike, so
  that a table that hashes them answers as the list of entries does.
* `Entries.find?_insert`, `Entries.keys_insert`: what is found, and in which order, after a value is
  written.
* `Entries.Apart`, `Heap.KeysApart`: maps with one entry at most for each key.
* `Entries.Apart.insert`, `Entries.Apart.find?_erase` and the like: such maps under changes.
* `Entries.exists_sameKey_of_length`: of two maps of the same size, if the second has all keys of
  the first, the first has all keys of the second.
-/
import Mathlib
import Tern.Heap

namespace Tern

section Lists

variable {α β γ : Type} {as : List α} {bs : List β} {cs : List γ}

/-- What follows for each item of a list follows for the list. -/
lemma forall₂_imp_of_mem {R S : α → β → Prop} (hi : ∀ a ∈ as, ∀ b, R a b → S a b)
    (h : List.Forall₂ R as bs) : List.Forall₂ S as bs :=
  ((List.forall₂_and_left as bs).mpr ⟨hi, h⟩).imp fun _ _ hp => hp.1 _ hp.2

/-- Lists that are related by way of a third one. -/
lemma forall₂_comp {R : α → β → Prop} {S : β → γ → Prop} (h₁ : List.Forall₂ R as bs)
    (h₂ : List.Forall₂ S bs cs) : List.Forall₂ (Relation.Comp R S) as cs := by
  induction h₁ generalizing cs with
  | nil =>
      cases h₂
      exact .nil
  | @cons a b _ _ hr _ ih =>
      cases h₂ with
      | cons hs h₂ => exact .cons ⟨b, hr, hs⟩ (ih h₂)

end Lists

namespace Value

/-- What holds of a tuple if it holds of its items, of a native function if it holds of its
receiver, and of all other values, holds of every value. -/
@[elab_as_elim]
theorem ind {P : Value → Prop} (tuple : ∀ items, (∀ v ∈ items, P v) → P (.tuple items))
    (bound : ∀ f x, P x → P (.bound f x))
    (other : ∀ v, (∀ items, v ≠ .tuple items) → (∀ f x, v ≠ .bound f x) → P v) : ∀ v, P v
  | .tuple items => tuple items fun v _ => ind tuple bound other v
  | .bound f x => bound f x (ind tuple bound other x)
  | .null | .bool _ | .number _ | .text _ | .list _ | .map _ | .object _ | .classOf _
  | .function _ | .native _ => other _ (fun _ h => by cases h) fun _ _ h => by cases h

end Value

/-! ### What a value is as a key -/

/-- The cells that have an identity, a native function being one whatever its receiver. -/
inductive Cell where
  | list (ref : ListRef)
  | map (ref : MapRef)
  | object (ref : ObjectRef)
  | classOf (ref : ClassRef)
  | function (ref : FunctionRef)
  | native (ref : NativeRef)

/-- What a value is as a key. -/
inductive Key where
  | null
  | bool (value : Bool)
  | number (value : Float)
  | text (value : String)
  | tuple (items : List Key)
  | cell (cell : Cell)

/-- The number that stands for a number as a key: the two zeros are one. -/
def Number.asKey (x : Float) : Float := if x = -0 then 0 else x

lemma Number.asKey_eq_iff {x y : Float} :
    asKey x = asKey y ↔ (x == y) = true ∨ x.isNaN = true ∧ y.isNaN = true := by
  have hzero : (0 : Float) ≠ .nan := by decide
  have hneg : (-0 : Float) ≠ .nan := by decide
  rw [Float.beq_iff_ne_nan_and_eq, Float.isNaN_eq_decide_eq_nan, Float.isNaN_eq_decide_eq_nan,
    asKey, asKey]
  grind

/-- Numbers that are the same key have the same bits as keys. -/
lemma Number.canonicalBits_congr {x y : Float}
    (h : (x == y) = true ∨ x.isNaN = true ∧ y.isNaN = true) :
    canonicalBits x = canonicalBits y := by
  simp only [canonicalBits, Float.beq_iff_ne_nan_and_eq,
    Float.isNaN_eq_decide_eq_nan] at h ⊢
  grind

namespace Value

/-- The cell that a value refers to. -/
def cell? : Value → Option Cell
  | .list r => some (.list r)
  | .map r => some (.map r)
  | .object r => some (.object r)
  | .classOf r => some (.classOf r)
  | .function r => some (.function r)
  | .native r | .bound r _ => some (.native r)
  | _ => none

/-- Values refer to the same cell exactly if there is a cell that both refer to. -/
lemma sameRef_iff {a b : Value} :
    a.sameRef b = true ↔ ∃ c, a.cell? = some c ∧ b.cell? = some c := by
  cases a <;> cases b <;> simp [sameRef, cell?, eq_comm]

lemma sameRef_symm {a b : Value} (h : a.sameRef b = true) : b.sameRef a = true := by
  obtain ⟨c, ha, hb⟩ := sameRef_iff.mp h
  exact sameRef_iff.mpr ⟨c, hb, ha⟩

lemma sameRef_trans {a b c : Value} (h₁ : a.sameRef b = true) (h₂ : b.sameRef c = true) :
    a.sameRef c = true := by
  obtain ⟨r, ha, hb⟩ := sameRef_iff.mp h₁
  obtain ⟨r', hb', hc⟩ := sameRef_iff.mp h₂
  cases hb.symm.trans hb'
  exact sameRef_iff.mpr ⟨r, ha, hc⟩

/-- What a value is as a key. -/
def key : Value → Key
  | .null => .null
  | .bool b => .bool b
  | .number x => .number (Number.asKey x)
  | .text s => .text s
  | .tuple items => .tuple (items.map fun v => v.key)
  | .list r => .cell (.list r)
  | .map r => .cell (.map r)
  | .object r => .cell (.object r)
  | .classOf r => .cell (.classOf r)
  | .function r => .cell (.function r)
  | .native r | .bound r _ => .cell (.native r)

/-- Tuples are the same key if their items are. -/
lemma sameKey_tuple_iff {vs ws : List Value} : (Value.tuple vs).sameKey (.tuple ws) = true ↔
    List.Forall₂ (fun v w => v.sameKey w = true) vs ws := by
  rw [sameKey]
  induction vs generalizing ws with
  | nil => cases ws <;> simp [sameKeys]
  | cons v vs ih => cases ws <;> simp [sameKeys, ih]

/-- Values are the same key exactly if they are equal as keys. -/
theorem sameKey_iff {a b : Value} : a.sameKey b = true ↔ a.key = b.key := by
  induction a using Value.ind generalizing b with
  | tuple items ih =>
      cases b with
      | tuple items' =>
          have hitems : ∀ v ∈ items, ∀ w, v.sameKey w = true ↔ v.key = w.key :=
            fun v hv w => ih v hv
          rw [sameKey_tuple_iff, key, key, Key.tuple.injEq, ← List.forall₂_eq_eq_eq,
            List.forall₂_map_left_iff, List.forall₂_map_right_iff]
          exact ⟨forall₂_imp_of_mem fun v hv w => (hitems v hv w).mp,
            forall₂_imp_of_mem fun v hv w => (hitems v hv w).mpr⟩
      | _ => simp [sameKey, sameRef, key]
  | bound f x _ => cases b <;> simp [sameKey, sameRef, key]
  | other v ht _ =>
      cases v with
      | tuple items => exact absurd rfl (ht items)
      | number x =>
          cases b with
          | number y => rw [sameKey, Bool.or_eq_true, Bool.and_eq_true, key, key, Key.number.injEq,
              Number.asKey_eq_iff]
          | _ => simp [sameKey, sameRef, key]
      | _ => cases b <;> simp [sameKey, sameRef, key]

lemma sameKey_refl (a : Value) : a.sameKey a = true := sameKey_iff.mpr rfl

lemma sameKey_comm (a b : Value) : a.sameKey b = b.sameKey a := by
  rw [Bool.eq_iff_iff, sameKey_iff, sameKey_iff, eq_comm]

/-- Values that are the same key are the same keys as the same values. -/
lemma sameKey_congr {a b : Value} (h : a.sameKey b = true) (c : Value) :
    a.sameKey c = b.sameKey c := by
  rw [Bool.eq_iff_iff, sameKey_iff, sameKey_iff, sameKey_iff.mp h]

/-- The same keys feed a hasher alike. -/
theorem hashPieces_eq_of_sameKey {a b : Value} (h : a.sameKey b = true) :
    a.hashPieces = b.hashPieces := by
  induction a using Value.ind generalizing b with
  | tuple items ih =>
      cases b with
      | tuple items' =>
          have hitems := sameKey_tuple_iff.mp h
          have hpieces : items.map (fun v => v.hashPieces) = items'.map fun v => v.hashPieces := by
            rw [← List.forall₂_eq_eq_eq, List.forall₂_map_left_iff, List.forall₂_map_right_iff]
            exact forall₂_imp_of_mem (fun v hv w => ih v hv) hitems
          rw [hashPieces, hashPieces, hitems.length_eq, hpieces]
      | _ => simp [sameKey, sameRef] at h
  | bound f x _ => cases b <;> simp_all [sameKey, sameRef, hashPieces]
  | other v ht _ =>
      cases v with
      | tuple items => exact absurd rfl (ht items)
      | number x =>
          cases b with
          | number y =>
              rw [sameKey, Bool.or_eq_true, Bool.and_eq_true] at h
              rw [hashPieces, hashPieces, Number.canonicalBits_congr h]
          | _ => simp [sameKey, sameRef] at h
      | _ => cases b <;> simp_all [sameKey, sameRef, hashPieces]

end Value

/-! ### Maps -/

namespace Entries

variable {m n : Entries} {k k' v : Value}

/-- A map answers alike for values that are the same key. -/
lemma find?_congr (h : k.sameKey k' = true) (m : Entries) : m.find? k = m.find? k' := by
  induction m with
  | nil => rfl
  | cons entry rest ih =>
      have hfirst : entry.1.sameKey k = entry.1.sameKey k' := by
        rw [Value.sameKey_comm, Value.sameKey_congr h, Value.sameKey_comm]
      rw [find?, find?, hfirst, ih]

/-- A table that looks only among the entries whose keys hash as the one that is asked for finds
what is in the list. -/
theorem find?_of_hash (hash : List HashPiece → UInt64) (k : Value) (m : Entries) :
    find? k (m.filter fun entry => hash entry.1.hashPieces = hash k.hashPieces) = m.find? k := by
  induction m with
  | nil => rfl
  | cons entry rest ih =>
      by_cases hhash : hash entry.1.hashPieces = hash k.hashPieces
      · rw [List.filter_cons_of_pos (by simpa using hhash), find?, find?, ih]
      · have hkey : ¬ entry.1.sameKey k = true := fun h =>
          hhash (congrArg hash (Value.hashPieces_eq_of_sameKey h))
        rw [List.filter_cons_of_neg (by simpa using hhash), ih, find?, if_neg hkey]

/-- What is found under a key is an entry whose key is the same. -/
lemma mem_of_find? (h : m.find? k = some v) : ∃ k', (k', v) ∈ m ∧ k'.sameKey k = true := by
  induction m with
  | nil => cases h
  | cons entry rest ih =>
      rw [find?] at h
      split at h
      · rename_i hkey
        cases h
        exact ⟨_, List.mem_cons_self, hkey⟩
      · obtain ⟨k', hmem, hkey⟩ := ih h
        exact ⟨k', List.mem_cons_of_mem _ hmem, hkey⟩

lemma keys_cons (entry : Value × Value) (m : Entries) : keys (entry :: m) = entry.1 :: m.keys := rfl

/-- Nothing is found under a key that no entry has. -/
lemma find?_eq_none_iff : m.find? k = none ↔ ∀ k' ∈ m.keys, k'.sameKey k = false := by
  induction m with
  | nil => exact ⟨fun _ => List.forall_mem_nil _, fun _ => rfl⟩
  | cons entry rest ih =>
      rw [find?, keys_cons, List.forall_mem_cons, ← ih]
      cases hfirst : entry.1.sameKey k with
      | true => simp
      | false => simp

/-- What is found after a value is written. -/
lemma find?_insert (m : Entries) (k v k' : Value) :
    (m.insert k v).find? k' = if k.sameKey k' then some v else m.find? k' := by
  induction m with
  | nil => rfl
  | cons entry rest ih =>
      rw [insert]
      split
      · rename_i hfirst
        rw [find?, find?, Value.sameKey_congr hfirst]
        split <;> rfl
      · rename_i hfirst
        rw [find?, find?, ih]
        -- The two keys are different, so only one of them can be the one that is asked for.
        cases hentry : entry.1.sameKey k' with
        | false => simp
        | true =>
            have hother : ¬ k.sameKey k' = true := by
              intro hk
              rw [Value.sameKey_comm, ← Value.sameKey_congr hk, Value.sameKey_comm] at hentry
              exact hfirst hentry
            rw [if_pos rfl, if_neg hother, if_pos rfl]

/-- A key keeps its place, and a new one comes last. -/
lemma keys_insert (m : Entries) (k v : Value) :
    (m.insert k v).keys = if (m.find? k).isSome then m.keys else m.keys ++ [k] := by
  induction m with
  | nil => rfl
  | cons entry rest ih =>
      rw [insert, find?]
      split
      · rfl
      · rw [keys_cons, ih]
        split <;> rfl

/-- No two entries have the same key. -/
def Apart (m : Entries) : Prop := m.Pairwise fun p q => p.1.sameKey q.1 = false

instance (m : Entries) : Decidable m.Apart :=
  inferInstanceAs (Decidable (m.Pairwise fun p q => p.1.sameKey q.1 = false))

/-- An entry is what is found under its key. -/
lemma Apart.find?_of_mem (hm : m.Apart) (h : (k, v) ∈ m) : m.find? k = some v := by
  induction m with
  | nil => cases h
  | cons entry rest ih =>
      obtain ⟨hfirst, hrest⟩ := List.pairwise_cons.mp hm
      rw [find?]
      obtain rfl | h := List.mem_cons.mp h
      · rw [if_pos (Value.sameKey_refl k)]
      · rw [if_neg (by rw [hfirst _ h]; exact Bool.false_ne_true), ih hrest h]

lemma apart_iff : m.Apart ↔ m.keys.Pairwise fun k k' => k.sameKey k' = false := by
  rw [keys, List.pairwise_map, Apart]

/-- Writing a value keeps the keys apart. -/
lemma Apart.insert (hm : m.Apart) (k v : Value) : (m.insert k v).Apart := by
  rw [apart_iff, keys_insert]
  cases hk : m.find? k with
  | some w => exact apart_iff.mp hm
  | none =>
      refine List.pairwise_append.mpr ⟨apart_iff.mp hm, List.pairwise_singleton _ _, ?_⟩
      intro k' hk' l hl
      rw [List.mem_singleton.mp hl]
      exact find?_eq_none_iff.mp hk k' hk'

/-- The keys that are left when one is taken out: all others, in the same order. -/
lemma Apart.keys_erase (hm : m.Apart) (k : Value) :
    (m.erase k).keys = m.keys.filter fun k' => !k'.sameKey k := by
  induction m with
  | nil => rfl
  | cons entry rest ih =>
      obtain ⟨hfirst, hrest⟩ := List.pairwise_cons.mp hm
      rw [Entries.erase, keys_cons]
      split
      · rename_i hentry
        -- The entries behind it have other keys.
        have hothers : ∀ k' ∈ keys rest, (!k'.sameKey k) = true := by
          intro k' hk'
          obtain ⟨e, he, rfl⟩ := List.mem_map.mp hk'
          rw [Value.sameKey_comm, ← Value.sameKey_congr hentry, hfirst e he]
          rfl
        rw [List.filter_cons, hentry, List.filter_eq_self.mpr hothers]
        rfl
      · rename_i hentry
        rw [List.filter_cons, Bool.eq_false_of_not_eq_true hentry, ← ih hrest]
        rfl

lemma Apart.erase (hm : m.Apart) (k : Value) : (m.erase k).Apart := by
  rw [apart_iff, hm.keys_erase]
  exact (apart_iff.mp hm).filter _

/-- What is found after a key is taken out. -/
lemma Apart.find?_erase (hm : m.Apart) (k k' : Value) :
    (m.erase k).find? k' = if k.sameKey k' then none else m.find? k' := by
  cases hk : k.sameKey k' with
  | true =>
      rw [if_pos rfl, ← find?_congr hk, find?_eq_none_iff, hm.keys_erase]
      intro l hl
      simpa using (List.mem_filter.mp hl).2
  | false =>
      rw [if_neg Bool.false_ne_true]
      induction m with
      | nil => rfl
      | cons entry rest ih =>
          obtain ⟨hfirst, hrest⟩ := List.pairwise_cons.mp hm
          rw [Entries.erase, find?]
          split
          · rename_i hentry
            rw [Value.sameKey_congr hentry, hk, if_neg Bool.false_ne_true]
          · rw [find?, ih hrest]

/-- Of two maps of the same size, if the second has all keys of the first, the first has all keys
of the second. -/
lemma exists_sameKey_of_length (hm : m.Apart) (hlen : m.length = n.length)
    (hall : ∀ p ∈ m, ∃ q ∈ n, q.1.sameKey p.1 = true) {q : Value × Value} (hq : q ∈ n) :
    ∃ p ∈ m, p.1.sameKey q.1 = true := by
  -- Different keys of the first map have different places in the second, so no place is left over.
  have hkeys : (m.map (·.1.key)).Nodup :=
    List.pairwise_map.mpr (hm.imp fun hne heq => by simp [Value.sameKey_iff.mpr heq] at hne)
  have hsub : m.map (·.1.key) ⊆ n.map (·.1.key) := by
    intro k hk
    obtain ⟨p, hp, rfl⟩ := List.mem_map.mp hk
    obtain ⟨q, hq, hkey⟩ := hall p hp
    exact List.mem_map.mpr ⟨q, hq, Value.sameKey_iff.mp hkey⟩
  have hperm : (m.map (·.1.key)).Perm (n.map (·.1.key)) :=
    (List.subperm_of_subset hkeys hsub).perm_of_length_le (by simp [hlen])
  obtain ⟨p, hp, hkey⟩ := List.mem_map.mp (hperm.mem_iff.mpr (List.mem_map_of_mem hq))
  exact ⟨p, hp, Value.sameKey_iff.mpr hkey⟩

end Entries

/-- Every map of a heap has one entry at most for each key. -/
def Heap.KeysApart (h : Heap) : Prop := ∀ m ∈ h.maps, m.Apart

lemma Heap.KeysApart.entries {h : Heap} (hk : h.KeysApart) (r : MapRef) : (h.entries r).Apart := by
  rw [Heap.entries]
  cases hm : h.maps[r.index]? with
  | none => exact List.Pairwise.nil
  | some m => exact hk m (Array.mem_of_getElem? hm)

end Tern
