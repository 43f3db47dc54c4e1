/-
Equality of values that may contain themselves. Two values are similar if no way of looking into
them tells them apart: similarity is the greatest relation whose pairs are alike outside and related
inside. The comparison only remembers the pairs of cells it is inside of, and takes those for equal
when it meets them again; it decides similarity all the same, and it always comes to an end.

* `Heap.AlikeBy`, `Heap.Bisimulation`: values that are alike outside and whose parts are related,
  and relations whose pairs are so.
* `Heap.compare?`, `Heap.Ends`: the comparison without a bound on the pairs it meets, and that it
  comes to an end: there is a depth beyond which it does not go.
* `Heap.Underway`: the pairs under comparison are different pairs of cells of the heap, so there is
  always one left that is not among them.
* `Heap.SimilarGiven`: values that are similar if the pairs under comparison are; a pair that is
  similar given itself is similar.
* `Heap.equal_isGreatest`: the comparison ends, and it decides the greatest bisimulation.
-/
import Mathlib.Data.List.ProdSigma
import Mathlib.Order.Bounds.Basic
import Mathlib.Order.Filter.AtTopBot.Basic
import Tern.Proofs.Datum
import Tern.Proofs.Keys

namespace Tern

/-- The cells that two values are, if both are lists or both are maps. -/
def Container.pair? : Value → Value → Option (Container × Container)
  | .list a, .list b => some (.list a, .list b)
  | .map a, .map b => some (.map a, .map b)
  | _, _ => none

lemma Container.pair?_eq_some {a b : Value} {p : Container × Container}
    (h : Container.pair? a b = some p) : a = p.1.value ∧ b = p.2.value := by
  unfold Container.pair? at h
  split at h <;> cases h <;> exact ⟨rfl, rfl⟩

namespace Heap

variable {h : Heap} {R S : Value → Value → Prop} {a b : Value} {free : Nat}
  {pending : List (Container × Container)} {p : Container × Container}

/-! ### Values that are alike -/

/-- Two values are alike outside, and what is inside them is related. -/
inductive AlikeBy (h : Heap) (R : Value → Value → Prop) : Value → Value → Prop where
  | null : AlikeBy h R .null .null
  | bool (b : Bool) : AlikeBy h R (.bool b) (.bool b)
  | number {x y : Float} : (x == y) = true → AlikeBy h R (.number x) (.number y)
  | text (s : String) : AlikeBy h R (.text s) (.text s)
  | tuple {xs ys : List Value} : List.Forall₂ R xs ys → AlikeBy h R (.tuple xs) (.tuple ys)
  | sameList (r : ListRef) : AlikeBy h R (.list r) (.list r)
  | list {a b : ListRef} : List.Forall₂ R (h.items a).toList (h.items b).toList →
      AlikeBy h R (.list a) (.list b)
  | sameMap (r : MapRef) : AlikeBy h R (.map r) (.map r)
  | map {a b : MapRef} : (h.entries a).length = (h.entries b).length →
      (∀ e ∈ h.entries a, ∃ w, (h.entries b).find? e.1 = some w ∧ R e.2 w) →
      AlikeBy h R (.map a) (.map b)
  | object (r : ObjectRef) : AlikeBy h R (.object r) (.object r)
  | classOf (r : ClassRef) : AlikeBy h R (.classOf r) (.classOf r)
  | function (r : FunctionRef) : AlikeBy h R (.function r) (.function r)
  | native (r : NativeRef) : AlikeBy h R (.native r) (.native r)
  | bound (r : NativeRef) {x y : Value} : x.sameRef y = true ∨ R x y →
      AlikeBy h R (.bound r x) (.bound r y)

/-- A relation whose pairs are alike outside and related inside. -/
def Bisimulation (h : Heap) (R : Value → Value → Prop) : Prop := ∀ a b, R a b → h.AlikeBy R a b

lemma AlikeBy.mono (hab : h.AlikeBy R a b) (hi : ∀ x y, R x y → S x y) : h.AlikeBy S a b := by
  cases hab with
  | null => exact .null
  | bool b => exact .bool b
  | number hxy => exact .number hxy
  | text s => exact .text s
  | tuple hitems => exact .tuple (hitems.imp hi)
  | sameList r => exact .sameList r
  | list hitems => exact .list (hitems.imp hi)
  | sameMap r => exact .sameMap r
  | map hlen hall =>
      refine .map hlen fun e he => ?_
      obtain ⟨w, hw, hr⟩ := hall e he
      exact ⟨w, hw, hi _ _ hr⟩
  | object r => exact .object r
  | classOf r => exact .classOf r
  | function r => exact .function r
  | native r => exact .native r
  | bound r hxy => exact .bound r (hxy.imp_right (hi _ _))

/-- What is inside values that are not cells is smaller than they are. -/
lemma AlikeBy.mono_of_lt (hab : h.AlikeBy R a b) (hp : Container.pair? a b = none)
    (hi : ∀ x y, sizeOf x < sizeOf a → R x y → S x y) : h.AlikeBy S a b := by
  cases hab with
  | tuple hitems =>
      refine .tuple (forall₂_imp_of_mem (fun x hx y => hi x y ?_) hitems)
      have hlt := List.sizeOf_lt_of_mem hx
      rw [Value.tuple.sizeOf_spec]
      omega
  | bound r hxy =>
      refine .bound r (hxy.imp_right (hi _ _ ?_))
      rw [Value.bound.sizeOf_spec]
      omega
  | sameList r => cases hp
  | list hitems => cases hp
  | sameMap r => cases hp
  | map hlen hall => cases hp
  | null => exact .null
  | bool b => exact .bool b
  | number hxy => exact .number hxy
  | text s => exact .text s
  | object r => exact .object r
  | classOf r => exact .classOf r
  | function r => exact .function r
  | native r => exact .native r

/-! ### The comparison, step by step -/

lemma equalItems_iff {xs ys : List Value} :
    h.equalItems free pending xs ys = true ↔
      List.Forall₂ (fun x y => h.equalIn free pending x y = true) xs ys := by
  induction xs generalizing ys with
  | nil =>
      cases ys with
      | nil => simp [equalItems]
      | cons y ys => simp [equalItems]
  | cons x xs ih =>
      cases ys with
      | nil => simp [equalItems]
      | cons y ys => simp [equalItems, ih]

lemma equalEntries_iff {other m : Entries} :
    h.equalEntries free pending other m = true ↔
      ∀ e ∈ m, ∃ w, other.find? e.1 = some w ∧ h.equalIn free pending e.2 w = true := by
  induction m with
  | nil => simp [equalEntries]
  | cons e rest ih =>
      obtain ⟨k, v⟩ := e
      rw [equalEntries, List.forall_mem_cons]
      cases other.find? k with
      | none => simp
      | some w => simp [ih]

/-- Values that are not both lists or both maps are equal if they are alike. -/
lemma equalIn_iff_of_pair?_eq_none (hp : Container.pair? a b = none) :
    h.equalIn free pending a b = true ↔
      h.AlikeBy (fun x y => h.equalIn free pending x y = true) a b := by
  constructor
  · intro heq
    rw [equalIn.eq_def] at heq
    split at heq
    · exact .null
    · exact eq_of_beq heq ▸ .bool _
    · exact .number heq
    · exact eq_of_beq heq ▸ .text _
    · exact .tuple (equalItems_iff.mp heq)
    · cases hp
    · cases hp
    · exact of_decide_eq_true heq ▸ .object _
    · exact of_decide_eq_true heq ▸ .classOf _
    · exact of_decide_eq_true heq ▸ .function _
    · exact of_decide_eq_true heq ▸ .native _
    · rw [Bool.and_eq_true, Bool.or_eq_true, decide_eq_true_eq] at heq
      exact heq.1 ▸ .bound _ heq.2
    · cases heq
  · intro hab
    cases hab with
    | sameList r => cases hp
    | list hitems => cases hp
    | sameMap r => cases hp
    | map hlen hall => cases hp
    | number hxy => rwa [equalIn]
    | tuple hitems => exact (equalIn.eq_def ..).trans (equalItems_iff.mpr hitems)
    | bound r hxy => simpa [equalIn] using hxy
    | _ => simp [equalIn]

lemma alikeBy_list_iff {a b : ListRef} : h.AlikeBy R (.list a) (.list b) ↔
    a = b ∨ List.Forall₂ R (h.items a).toList (h.items b).toList := by
  constructor
  · intro hab
    cases hab with
    | sameList => exact .inl rfl
    | list hitems => exact .inr hitems
  · rintro (rfl | hitems)
    · exact .sameList a
    · exact .list hitems

lemma alikeBy_map_iff {a b : MapRef} : h.AlikeBy R (.map a) (.map b) ↔
    a = b ∨ (h.entries a).length = (h.entries b).length ∧
      ∀ e ∈ h.entries a, ∃ w, (h.entries b).find? e.1 = some w ∧ R e.2 w := by
  constructor
  · intro hab
    cases hab with
    | sameMap => exact .inl rfl
    | map hlen hall => exact .inr ⟨hlen, hall⟩
  · rintro (rfl | ⟨hlen, hall⟩)
    · exact .sameMap a
    · exact .map hlen hall

/-- Cells are equal if they are the same, under comparison already, or else alike. -/
lemma equalIn_iff_of_pair?_eq_some (hp : Container.pair? a b = some p) :
    h.equalIn free pending a b = true ↔
      p ∈ pending ∨ free = 0 ∨ a = b ∨ ∃ k, free = k + 1 ∧
        h.AlikeBy (fun x y => h.equalIn k (p :: pending) x y = true) a b := by
  unfold Container.pair? at hp
  split at hp
  · cases hp
    cases free with
    | zero => simp [equalIn]
    | succ free => simp [equalIn, alikeBy_list_iff, equalItems_iff]; tauto
  · cases hp
    cases free with
    | zero => simp [equalIn]
    | succ free => simp [equalIn, alikeBy_map_iff, equalEntries_iff]; tauto
  · cases hp

/-- Induction along a comparison: inside cells the bound is smaller, and elsewhere the values
are. -/
@[elab_as_elim]
theorem comparison_induction {P : Nat → List (Container × Container) → Value → Value → Prop}
    (step : ∀ free pending a b, (∀ k < free, ∀ pending x y, P k pending x y) →
      (∀ x y, sizeOf x < sizeOf a → P free pending x y) → P free pending a b)
    (free : Nat) (pending : List (Container × Container)) (a b : Value) : P free pending a b := by
  induction free using Nat.strong_induction_on generalizing pending a b with
  | _ free ihfree =>
      induction hn : sizeOf a using Nat.strong_induction_on generalizing a b with
      | _ n ih => exact step free pending a b ihfree fun x y hlt => ih _ (hn ▸ hlt) x y rfl

/-- What is related by a bisimulation is equal, whatever is under comparison. -/
theorem equalIn_of_bisimulation (hR : h.Bisimulation R) (hab : R a b) (free : Nat)
    (pending : List (Container × Container)) : h.equalIn free pending a b = true := by
  induction free, pending, a, b using comparison_induction with
  | step free pending a b ihfree ih =>
      cases hp : Container.pair? a b with
      | none =>
          refine (equalIn_iff_of_pair?_eq_none hp).mpr ((hR a b hab).mono_of_lt hp ?_)
          exact fun x y hlt hxy => ih x y hlt hxy
      | some p =>
          refine (equalIn_iff_of_pair?_eq_some hp).mpr ?_
          cases free with
          | zero => exact .inr (.inl rfl)
          | succ k =>
              refine .inr (.inr (.inr ⟨k, rfl, (hR a b hab).mono fun x y hxy => ?_⟩))
              exact ihfree k (Nat.lt_succ_self k) _ x y hxy

/-! ### The pairs under comparison -/

/-- All pairs of lists and all pairs of maps. -/
def cellPairs (h : Heap) : List (Container × Container) :=
  (List.range h.lists.size ×ˢ List.range h.lists.size).map
      (fun ij => (.list ⟨ij.1⟩, .list ⟨ij.2⟩)) ++
    (List.range h.maps.size ×ˢ List.range h.maps.size).map
      fun ij => (.map ⟨ij.1⟩, .map ⟨ij.2⟩)

lemma length_cellPairs (h : Heap) :
    h.cellPairs.length = h.lists.size * h.lists.size + h.maps.size * h.maps.size := by
  simp [cellPairs, List.length_product]

lemma list_mem_cellPairs {a b : ListRef} : (Container.list a, Container.list b) ∈ h.cellPairs ↔
    a.index < h.lists.size ∧ b.index < h.lists.size := by
  obtain ⟨i⟩ := a
  obtain ⟨j⟩ := b
  simp [cellPairs]

lemma map_mem_cellPairs {a b : MapRef} : (Container.map a, Container.map b) ∈ h.cellPairs ↔
    a.index < h.maps.size ∧ b.index < h.maps.size := by
  obtain ⟨i⟩ := a
  obtain ⟨j⟩ := b
  simp [cellPairs]

/-- A cell with itself is a pair. -/
lemma self_mem_cellPairs (hp : p ∈ h.cellPairs) : (p.1, p.1) ∈ h.cellPairs := by
  simp only [cellPairs, List.mem_append, List.mem_map] at hp
  obtain ⟨⟨i, j⟩, hij, rfl⟩ | ⟨⟨i, j⟩, hij, rfl⟩ := hp
  · have hi := List.mem_range.mp (List.mem_product.mp hij).1
    exact list_mem_cellPairs.mpr ⟨hi, hi⟩
  · have hi := List.mem_range.mp (List.mem_product.mp hij).1
    exact map_mem_cellPairs.mpr ⟨hi, hi⟩

/-- The pairs under comparison are different pairs of different cells, and `free` is a bound on the
other pairs. -/
structure Underway (h : Heap) (free : Nat) (pending : List (Container × Container)) : Prop where
  nodup : pending.Nodup
  cells : pending ⊆ h.cellPairs
  apart : ∀ p ∈ pending, p.1 ≠ p.2
  count : h.cellPairs.length ≤ free + pending.length

namespace Underway

/-- No pair is under comparison at first. -/
lemma start (h : Heap) :
    h.Underway (h.lists.size * h.lists.size + h.maps.size * h.maps.size) [] where
  nodup := List.nodup_nil
  cells := List.nil_subset _
  apart := List.forall_mem_nil _
  count := by rw [length_cellPairs]; exact Nat.le_add_right _ _

/-- The bound is not reached while there is a pair that is not under comparison. -/
lemma free_pos (hu : h.Underway free pending) (hp : p ∈ h.cellPairs) (hnew : p ∉ pending) :
    0 < free := by
  have hsub : p :: pending ⊆ h.cellPairs := List.cons_subset.mpr ⟨hp, hu.cells⟩
  have hle := (List.subperm_of_subset (List.nodup_cons.mpr ⟨hnew, hu.nodup⟩) hsub).length_le
  have hcount := hu.count
  rw [List.length_cons] at hle
  omega

/-- So it is reached only if there are no cells at all. -/
lemma notMem_of_zero (hu : h.Underway 0 pending) : p ∉ h.cellPairs := by
  intro hp
  have hself : (p.1, p.1) ∉ pending := fun hmem => hu.apart _ hmem rfl
  exact lt_irrefl _ (hu.free_pos (self_mem_cellPairs hp) hself)

/-- One more pair comes under comparison. -/
lemma enter {k : Nat} (hu : h.Underway (k + 1) pending) (hp : p ∈ h.cellPairs) (hne : p.1 ≠ p.2)
    (hnew : p ∉ pending) : h.Underway k (p :: pending) where
  nodup := List.nodup_cons.mpr ⟨hnew, hu.nodup⟩
  cells := List.cons_subset.mpr ⟨hp, hu.cells⟩
  apart := List.forall_mem_cons.mpr ⟨hne, hu.apart⟩
  count := by
    have hcount := hu.count
    rw [List.length_cons]
    omega

end Underway

/-- A list that is not in the heap is empty. -/
lemma items_eq_nil_of_notMem {a b : ListRef}
    (hp : (Container.list a, Container.list b) ∉ h.cellPairs) :
    (h.items a).toList = [] ∨ (h.items b).toList = [] := by
  rw [list_mem_cellPairs, not_and_or, not_lt, not_lt] at hp
  refine hp.imp (fun ha => ?_) fun hb => ?_
  · rw [items, Array.getElem?_eq_none ha]; rfl
  · rw [items, Array.getElem?_eq_none hb]; rfl

/-- A map that is not in the heap is empty. -/
lemma entries_eq_nil_of_notMem {a b : MapRef}
    (hp : (Container.map a, Container.map b) ∉ h.cellPairs) :
    h.entries a = [] ∨ h.entries b = [] := by
  rw [map_mem_cellPairs, not_and_or, not_lt, not_lt] at hp
  refine hp.imp (fun ha => ?_) fun hb => ?_
  · rw [entries, Array.getElem?_eq_none ha]; rfl
  · rw [entries, Array.getElem?_eq_none hb]; rfl

/-! ### Similar if something else is -/

/-- The values are a pair of cells under comparison. -/
def Assumed (pending : List (Container × Container)) (a b : Value) : Prop :=
  ∃ p ∈ pending, a = p.1.value ∧ b = p.2.value

/-- The values are related by a relation whose pairs are alike outside and related inside, but for
those under comparison. -/
def SimilarGiven (h : Heap) (pending : List (Container × Container)) (a b : Value) : Prop :=
  ∃ R : Value → Value → Prop, (∀ x y, R x y → Assumed pending x y ∨ h.AlikeBy R x y) ∧ R a b

lemma similarGiven_of_assumed (hab : Assumed pending a b) : h.SimilarGiven pending a b :=
  ⟨Assumed pending, fun _ _ => .inl, hab⟩

lemma SimilarGiven.cases (hab : h.SimilarGiven pending a b) :
    Assumed pending a b ∨ h.AlikeBy (h.SimilarGiven pending) a b := by
  obtain ⟨R, hR, hab⟩ := hab
  exact (hR a b hab).imp_right fun halike => halike.mono fun x y hxy => ⟨R, hR, hxy⟩

lemma similarGiven_of_alikeBy (hab : h.AlikeBy (h.SimilarGiven pending) a b) :
    h.SimilarGiven pending a b := by
  refine ⟨fun x y => h.SimilarGiven pending x y ∨ x = a ∧ y = b, ?_, .inr ⟨rfl, rfl⟩⟩
  rintro x y (hxy | ⟨rfl, rfl⟩)
  · exact hxy.cases.imp_right fun halike => halike.mono fun _ _ => .inl
  · exact .inr (hab.mono fun _ _ => .inl)

/-- A pair of cells that are alike, given that they are similar, is similar. -/
lemma similarGiven_of_cons (hp : Container.pair? a b = some p)
    (hab : h.AlikeBy (h.SimilarGiven (p :: pending)) a b) : h.SimilarGiven pending a b := by
  obtain ⟨rfl, rfl⟩ := Container.pair?_eq_some hp
  refine ⟨h.SimilarGiven (p :: pending), fun x y hxy => ?_,
    similarGiven_of_assumed ⟨p, List.mem_cons_self, rfl, rfl⟩⟩
  obtain ⟨q, hq, rfl, rfl⟩ | halike := hxy.cases
  · obtain rfl | hq := List.mem_cons.mp hq
    · exact .inr hab
    · exact .inl ⟨q, hq, rfl, rfl⟩
  · exact .inr halike

/-- Cells that are not both in the heap are alike without anything inside them. -/
lemma AlikeBy.of_notMem (hab : h.AlikeBy R a b) (hp : Container.pair? a b = some p)
    (hmem : p ∉ h.cellPairs) : h.AlikeBy S a b := by
  unfold Container.pair? at hp
  split at hp
  · cases hp
    rw [alikeBy_list_iff] at hab ⊢
    refine hab.imp_right fun hitems => ?_
    obtain ha | hb := items_eq_nil_of_notMem hmem
    · rw [ha, List.forall₂_nil_left_iff] at hitems ⊢
      exact hitems
    · rw [hb, List.forall₂_nil_right_iff] at hitems ⊢
      exact hitems
  · cases hp
    rw [alikeBy_map_iff] at hab ⊢
    refine hab.imp_right fun hall => ⟨hall.1, fun e he => ?_⟩
    obtain ha | hb := entries_eq_nil_of_notMem hmem
    · rw [ha] at he
      cases he
    · obtain ⟨w, hw, -⟩ := hall.2 e he
      rw [hb] at hw
      cases hw
  · cases hp

/-- Without cells there is nothing inside a list or a map. -/
lemma alikeBy_of_forall_notMem (hp : Container.pair? a b = some p) (hnone : ∀ q, q ∉ h.cellPairs) :
    h.AlikeBy S a b := by
  have hlists : ∀ r : ListRef, (h.items r).toList = [] := fun r =>
    (items_eq_nil_of_notMem (hnone (.list r, .list r))).elim id id
  have hmaps : ∀ r : MapRef, h.entries r = [] := fun r =>
    (entries_eq_nil_of_notMem (hnone (.map r, .map r))).elim id id
  unfold Container.pair? at hp
  split at hp
  · exact alikeBy_list_iff.mpr (.inr (by rw [hlists, hlists]; exact .nil))
  · exact alikeBy_map_iff.mpr (.inr (by simp [hmaps]))
  · cases hp

/-- A cell is like itself. -/
lemma alikeBy_self (hp : Container.pair? a a = some p) : h.AlikeBy S a a := by
  cases a with
  | list r => exact .sameList r
  | map r => exact .sameMap r
  | _ => cases hp

/-- What the comparison takes for equal is similar if the pairs under comparison are. -/
theorem similarGiven_of_equalIn (hu : h.Underway free pending)
    (heq : h.equalIn free pending a b = true) : h.SimilarGiven pending a b := by
  induction free, pending, a, b using comparison_induction with
  | step free pending a b ihfree ih =>
      cases hp : Container.pair? a b with
      | none =>
          have hab := (equalIn_iff_of_pair?_eq_none hp).mp heq
          exact similarGiven_of_alikeBy (hab.mono_of_lt hp fun x y hlt => ih x y hlt hu)
      | some p =>
          have hvalues := Container.pair?_eq_some hp
          by_cases hmet : p ∈ pending
          · exact similarGiven_of_assumed ⟨p, hmet, hvalues⟩
          by_cases hsame : a = b
          · subst hsame
            exact similarGiven_of_alikeBy (alikeBy_self hp)
          obtain hmem | rfl | hab | ⟨k, rfl, hab⟩ := (equalIn_iff_of_pair?_eq_some hp).mp heq
          · exact absurd hmem hmet
          · exact similarGiven_of_alikeBy (alikeBy_of_forall_notMem hp fun q => hu.notMem_of_zero)
          · exact absurd hab hsame
          · by_cases hcells : p ∈ h.cellPairs
            · have hne : p.1 ≠ p.2 := fun he => hsame (by rw [hvalues.1, hvalues.2, he])
              have hin := hu.enter hcells hne hmet
              refine similarGiven_of_cons hp (hab.mono fun x y hxy => ?_)
              exact ihfree k (Nat.lt_succ_self k) _ x y hin hxy
            · exact similarGiven_of_alikeBy (hab.of_notMem hp hcells)

/-! ### The comparison without a bound on the pairs -/

/-- Compares two lists of values one by one. -/
def compareItemsBy (next : Value → Value → Option Bool) : List Value → List Value → Option Bool
  | [], [] => some true
  | x :: xs, y :: ys => do
    if ← next x y then compareItemsBy next xs ys else some false
  | _, _ => some false

/-- Compares the values under each key with those of another map. -/
def compareEntriesBy (next : Value → Value → Option Bool) (other : Entries) :
    Entries → Option Bool
  | [] => some true
  | (k, v) :: rest =>
    match other.find? k with
    | some w => do
      if ← next v w then compareEntriesBy next other rest else some false
    | none => some false

/-- Compares two values, given the pairs of cells under comparison and how the parts compare. -/
def compareBy (h : Heap) (next : List (Container × Container) → Value → Value → Option Bool)
    (pending : List (Container × Container)) (a b : Value) : Option Bool :=
  match a, b with
  | .null, .null => some true
  | .bool a, .bool b => some (a == b)
  | .number x, .number y => some (x == y)
  | .text s, .text t => some (s == t)
  | .tuple xs, .tuple ys =>
    if xs.length = ys.length then compareItemsBy (next pending) xs ys else some false
  | .list a, .list b =>
    if a = b || pending.contains (.list a, .list b) then some true
    else if (h.items a).toList.length = (h.items b).toList.length then
      compareItemsBy (next ((.list a, .list b) :: pending)) (h.items a).toList (h.items b).toList
    else some false
  | .map a, .map b =>
    if a = b || pending.contains (.map a, .map b) then some true
    else if (h.entries a).length = (h.entries b).length then
      compareEntriesBy (next ((.map a, .map b) :: pending)) (h.entries b) (h.entries a)
    else some false
  | .object a, .object b => some (a = b)
  | .classOf a, .classOf b => some (a = b)
  | .function a, .function b => some (a = b)
  | .native a, .native b => some (a = b)
  | .bound a x, .bound b y =>
    if a = b then if x.sameRef y then some true else next pending x y else some false
  | _, _ => some false

/-- Compares two values, given the pairs of cells under comparison. There is no answer if this goes
deeper than it is allowed to. -/
def compare? (h : Heap) : Nat → List (Container × Container) → Value → Value → Option Bool
  | 0 => fun _ _ _ => none
  | depth + 1 => h.compareBy (h.compare? depth)

/-- The comparison comes to an end with an answer: from some depth on, more makes no difference. -/
def Ends (h : Heap) (pending : List (Container × Container)) (a b : Value) (answer : Bool) : Prop :=
  ∀ᶠ depth in Filter.atTop, h.compare? depth pending a b = some answer

/-- The parts of a comparison take one level less. -/
lemma ends_of_compareBy {answer : Bool}
    (hev : ∀ᶠ depth in Filter.atTop,
      h.compareBy (h.compare? depth) pending a b = some answer) : h.Ends pending a b answer := by
  obtain ⟨n, hn⟩ := Filter.eventually_atTop.mp hev
  refine Filter.eventually_atTop.mpr ⟨n + 1, fun m hm => ?_⟩
  obtain ⟨k, rfl⟩ := Nat.exists_eq_add_of_le' hm
  exact hn (k + n) (Nat.le_add_left n k)

lemma ends_of_forall {answer : Bool}
    (hall : ∀ next, h.compareBy next pending a b = some answer) : h.Ends pending a b answer :=
  ends_of_compareBy (.of_forall fun _ => hall _)

/-- Lists are compared by their lengths first. -/
lemma compareItemsBy_eq {next : Value → Value → Option Bool} {xs ys : List Value}
    (hnext : ∀ x ∈ xs, ∀ y ∈ ys, next x y = some (h.equalIn free pending x y)) :
    (if xs.length = ys.length then compareItemsBy next xs ys else some false) =
      some (h.equalItems free pending xs ys) := by
  split
  · rename_i hlen
    induction xs generalizing ys with
    | nil => cases ys <;> simp [compareItemsBy, equalItems]
    | cons x xs ih =>
        cases ys with
        | nil => cases hlen
        | cons y ys =>
            have hx := hnext x List.mem_cons_self y List.mem_cons_self
            have hxs := ih (fun x hx y hy =>
              hnext x (List.mem_cons_of_mem _ hx) y (List.mem_cons_of_mem _ hy)) (Nat.succ.inj hlen)
            rw [compareItemsBy, hx, equalItems, hxs]
            cases h.equalIn free pending x y <;> rfl
  · rename_i hlen
    rw [eq_comm, Option.some.injEq, ← Bool.not_eq_true, equalItems_iff]
    exact fun hall => hlen hall.length_eq

lemma compareEntriesBy_eq {next : Value → Value → Option Bool} {other m : Entries}
    (hnext : ∀ e ∈ m, ∀ w, other.find? e.1 = some w →
      next e.2 w = some (h.equalIn free pending e.2 w)) :
    compareEntriesBy next other m = some (h.equalEntries free pending other m) := by
  induction m with
  | nil => simp [compareEntriesBy, equalEntries]
  | cons e rest ih =>
      have hrest := ih fun e he => hnext e (List.mem_cons_of_mem _ he)
      rw [compareEntriesBy, equalEntries]
      cases hw : other.find? e.1 with
      | none => rfl
      | some w =>
          dsimp only
          rw [hnext e List.mem_cons_self w hw, hrest]
          cases h.equalIn free pending e.2 w <;> rfl

/-- Finitely many comparisons come to an end together. -/
lemma eventually_items {xs ys : List Value}
    (hends : ∀ x ∈ xs, ∀ y ∈ ys, h.Ends pending x y (h.equalIn free pending x y)) :
    ∀ᶠ depth in Filter.atTop, ∀ x ∈ xs, ∀ y ∈ ys,
      h.compare? depth pending x y = some (h.equalIn free pending x y) :=
  (Filter.eventually_all_finite xs.finite_toSet).mpr fun x hx =>
    (Filter.eventually_all_finite ys.finite_toSet).mpr fun y hy => hends x hx y hy

section Cells

variable (ih : ∀ k < free, ∀ pending x y, h.Underway k pending →
  h.Ends pending x y (h.equalIn k pending x y))

include ih

lemma ends_list (hu : h.Underway free pending) (r s : ListRef) :
    h.Ends pending (.list r) (.list s) (h.equalIn free pending (.list r) (.list s)) := by
  by_cases hmet : (decide (r = s) || pending.contains (.list r, .list s)) = true
  · refine ends_of_forall fun next => ?_
    cases free <;> rw [compareBy, equalIn, if_pos hmet, if_pos hmet]
  have hnew : r ≠ s ∧ (Container.list r, Container.list s) ∉ pending := by simpa using hmet
  cases free with
  | zero =>
      -- There are no cells, so nothing is in the lists.
      have hnil : ∀ r : ListRef, (h.items r).toList = [] := fun r =>
        (items_eq_nil_of_notMem (hu.notMem_of_zero (p := (.list r, .list r)))).elim id id
      refine ends_of_forall fun next => ?_
      rw [compareBy, if_neg hmet]
      simp [hnil, equalIn, compareItemsBy]
  | succ k =>
      have hitems : ∀ x ∈ (h.items r).toList, ∀ y ∈ (h.items s).toList,
          h.Ends ((.list r, .list s) :: pending) x y
            (h.equalIn k ((.list r, .list s) :: pending) x y) := by
        intro x hx y hy
        by_cases hcells : (Container.list r, Container.list s) ∈ h.cellPairs
        · have hne : Container.list r ≠ .list s := fun he => hnew.1 (Container.list.inj he)
          exact ih k (Nat.lt_succ_self k) _ x y (hu.enter hcells hne hnew.2)
        · obtain hr | hs := items_eq_nil_of_notMem hcells
          · rw [hr] at hx
            cases hx
          · rw [hs] at hy
            cases hy
      refine ends_of_compareBy ((eventually_items hitems).mono fun depth hdepth => ?_)
      rw [compareBy, equalIn, if_neg hmet, if_neg hmet]
      exact compareItemsBy_eq hdepth

lemma ends_map (hu : h.Underway free pending) (r s : MapRef) :
    h.Ends pending (.map r) (.map s) (h.equalIn free pending (.map r) (.map s)) := by
  by_cases hmet : (decide (r = s) || pending.contains (.map r, .map s)) = true
  · refine ends_of_forall fun next => ?_
    cases free <;> rw [compareBy, equalIn, if_pos hmet, if_pos hmet]
  have hnew : r ≠ s ∧ (Container.map r, Container.map s) ∉ pending := by simpa using hmet
  cases free with
  | zero =>
      have hnil : ∀ r : MapRef, h.entries r = [] := fun r =>
        (entries_eq_nil_of_notMem (hu.notMem_of_zero (p := (.map r, .map r)))).elim id id
      refine ends_of_forall fun next => ?_
      rw [compareBy, if_neg hmet]
      simp [hnil, equalIn, compareEntriesBy]
  | succ k =>
      have hentries : ∀ e ∈ h.entries r, ∀ᶠ depth in Filter.atTop, ∀ w,
          (h.entries s).find? e.1 = some w →
          h.compare? depth ((.map r, .map s) :: pending) e.2 w =
            some (h.equalIn k ((.map r, .map s) :: pending) e.2 w) := by
        intro e he
        cases hw : (h.entries s).find? e.1 with
        | none => exact .of_forall fun _ _ hw' => by cases hw'
        | some w =>
            have hends : h.Ends ((.map r, .map s) :: pending) e.2 w
                (h.equalIn k ((.map r, .map s) :: pending) e.2 w) := by
              by_cases hcells : (Container.map r, Container.map s) ∈ h.cellPairs
              · have hne : Container.map r ≠ .map s := fun he => hnew.1 (Container.map.inj he)
                exact ih k (Nat.lt_succ_self k) _ e.2 w (hu.enter hcells hne hnew.2)
              · obtain hr | hs := entries_eq_nil_of_notMem hcells
                · rw [hr] at he
                  cases he
                · rw [hs] at hw
                  cases hw
            refine hends.mono fun depth hdepth w' hw' => ?_
            cases hw'
            exact hdepth
      have hall := (Filter.eventually_all_finite (h.entries r).finite_toSet).mpr hentries
      refine ends_of_compareBy (hall.mono fun depth hdepth => ?_)
      rw [compareBy, equalIn, if_neg hmet, if_neg hmet]
      dsimp only
      split
      · rename_i hlen
        rw [hlen, beq_self_eq_true, Bool.true_and]
        exact compareEntriesBy_eq hdepth
      · rename_i hlen
        rw [beq_false_of_ne hlen, Bool.false_and]

end Cells

/-- The comparison comes to an end, and its answer is the one that is found under a bound on the
pairs. -/
theorem ends_equalIn (hu : h.Underway free pending) :
    h.Ends pending a b (h.equalIn free pending a b) := by
  induction free, pending, a, b using comparison_induction with
  | step free pending a b ihfree ih =>
      unfold equalIn
      split
      · exact ends_of_forall fun _ => rfl
      · exact ends_of_forall fun _ => rfl
      · exact ends_of_forall fun _ => rfl
      · exact ends_of_forall fun _ => rfl
      · rename_i xs ys
        have hitems : ∀ x ∈ xs, ∀ y ∈ ys, h.Ends pending x y (h.equalIn free pending x y) := by
          intro x hx y _
          have hlt := List.sizeOf_lt_of_mem hx
          exact ih x y (by rw [Value.tuple.sizeOf_spec]; omega) hu
        exact ends_of_compareBy ((eventually_items hitems).mono fun depth hdepth =>
          compareItemsBy_eq hdepth)
      · rename_i r s
        have hlists := ends_list ihfree hu r s
        unfold equalIn at hlists
        exact hlists
      · rename_i r s
        have hmaps := ends_map ihfree hu r s
        unfold equalIn at hmaps
        exact hmaps
      · exact ends_of_forall fun _ => rfl
      · exact ends_of_forall fun _ => rfl
      · exact ends_of_forall fun _ => rfl
      · exact ends_of_forall fun _ => rfl
      · rename_i f x g y
        have hx := ih x y (by rw [Value.bound.sizeOf_spec]; omega) hu
        refine ends_of_compareBy (hx.mono fun depth hdepth => ?_)
        rw [compareBy, hdepth]
        by_cases hf : f = g <;> cases x.sameRef y <;> simp [hf]
      · refine ends_of_forall fun _ => ?_
        rw [compareBy] <;> assumption

/-! ### Equality is similarity -/

/-- Equal values are alike outside and equal inside. -/
lemma bisimulation_equal (h : Heap) : h.Bisimulation fun a b => h.equal a b = true := by
  intro a b heq
  have hsim : h.Bisimulation (h.SimilarGiven []) := by
    intro x y hxy
    obtain ⟨p, hp, -⟩ | halike := hxy.cases
    · cases hp
    · exact halike
  have hab : h.SimilarGiven [] a b := similarGiven_of_equalIn (.start h) heq
  exact (hsim a b hab).mono fun x y hxy => equalIn_of_bisimulation hsim hxy _ _

/-- What is related by a bisimulation is equal. -/
lemma Bisimulation.equal (hR : h.Bisimulation R) (hab : R a b) : h.equal a b = true :=
  equalIn_of_bisimulation hR hab _ _

/-- Values are equal exactly if they are alike outside and equal inside. -/
lemma equal_iff_alikeBy :
    h.equal a b = true ↔ h.AlikeBy (fun x y => h.equal x y = true) a b := by
  have hunfold : h.Bisimulation (h.AlikeBy fun x y => h.equal x y = true) :=
    fun _ _ hxy => hxy.mono h.bisimulation_equal
  exact ⟨h.bisimulation_equal a b, hunfold.equal⟩

/-- **Equality is the greatest bisimulation.** The comparison of any two values of any heap comes to
an end, and it finds equal exactly those that are related by some relation whose pairs are alike
outside and related inside. -/
theorem equal_isGreatest (h : Heap) :
    (∀ a b, h.Ends [] a b (h.equal a b)) ∧
    IsGreatest {R : Value → Value → Prop | h.Bisimulation R} fun a b => h.equal a b = true :=
  ⟨fun _ _ => ends_equalIn (.start h), h.bisimulation_equal,
    fun _ hR _ _ hab => Bisimulation.equal hR hab⟩

end Heap

end Tern
