/-
The laws of equality. Equality is symmetric and transitive, and every value without a number that is
none is equal to itself. The comparison is lopsided: it goes through the keys of the first map and
looks them up in the second, and it takes cells for equal before it looks into them.

Values that are the same key need not be equal: as a key a native function is the same whatever its
receiver. Everything else that makes a key makes equal values.

* `Value.HasNaN`: there is a number in a value that is none.
* `Heap.AlikeBy.symm`, `Heap.bisimulation_equalVia`: bisimulations can be turned round and composed.
* `Heap.equal_equivalence`: the three laws.
* `Heap.equal_iff_of_sameKey`: which values that are the same key are equal.
-/
import Tern.Proofs.Similarity

namespace Tern

/-- A number that is none stands in a value, as itself or inside tuples and receivers. Lists and
maps are not looked into: they are equal to themselves, whatever they hold. -/
inductive Value.HasNaN : Value → Prop where
  | number {x : Float} : x.isNaN = true → HasNaN (.number x)
  | tuple {items : List Value} {v : Value} : v ∈ items → HasNaN v → HasNaN (.tuple items)
  | bound {f : NativeRef} {x : Value} : HasNaN x → HasNaN (.bound f x)

namespace Number

variable {x y z : Float}

lemma beq_symm (h : (x == y) = true) : (y == x) = true := by
  rw [Float.beq_iff_ne_nan_and_eq] at h ⊢
  tauto

lemma beq_trans (h₁ : (x == y) = true) (h₂ : (y == z) = true) : (x == z) = true := by
  rw [Float.beq_iff_ne_nan_and_eq] at h₁ h₂ ⊢
  grind

lemma beq_self_of_not_isNaN (h : x.isNaN = false) : (x == x) = true := by
  rw [Float.isNaN_eq_decide_eq_nan, decide_eq_false_iff_not] at h
  exact Float.beq_self_iff.mpr h

end Number

namespace Heap

variable {h : Heap} {R : Value → Value → Prop} {a b c x y z : Value}

/-! ### The other way round -/

/-- Maps of the same size have the same keys if the second has those of the first. -/
lemma AlikeBy.symm (hk : h.KeysApart) (hab : h.AlikeBy R a b) :
    h.AlikeBy (fun x y => R y x) b a := by
  cases hab with
  | null => exact .null
  | bool b => exact .bool b
  | number hxy => exact .number (Number.beq_symm hxy)
  | text s => exact .text s
  | tuple hitems => exact .tuple hitems.flip
  | sameList r => exact .sameList r
  | list hitems => exact .list hitems.flip
  | sameMap r => exact .sameMap r
  | @map a b hlen hall =>
      refine .map hlen.symm fun e he => ?_
      have hfound : ∀ p ∈ h.entries a, ∃ q ∈ h.entries b, q.1.sameKey p.1 = true := by
        intro p hp
        obtain ⟨w, hw, -⟩ := hall p hp
        obtain ⟨k, hmem, hkey⟩ := Entries.mem_of_find? hw
        exact ⟨(k, w), hmem, hkey⟩
      obtain ⟨p, hp, hkey⟩ := Entries.exists_sameKey_of_length (hk.entries a) hlen hfound he
      obtain ⟨w, hw, hr⟩ := hall p hp
      rw [Entries.find?_congr hkey, (hk.entries b).find?_of_mem he] at hw
      cases hw
      exact ⟨p.2, by rw [← Entries.find?_congr hkey, (hk.entries a).find?_of_mem hp], hr⟩
  | object r => exact .object r
  | classOf r => exact .classOf r
  | function r => exact .function r
  | native r => exact .native r
  | bound r hxy => exact .bound r (hxy.imp_left Value.sameRef_symm)

/-! ### One after the other -/

/-- Values that refer to the same cell are the same, unless they are native functions. -/
lemma eq_or_native_of_sameRef (hxy : x.sameRef y = true) :
    x = y ∨ ∃ f, x.native? = some f ∧ y.native? = some f := by
  cases x <;> cases y <;> simp_all [Value.sameRef, Value.native?]

lemma sameRef_of_native {f : NativeRef} (hx : x.native? = some f) (hy : y.native? = some f) :
    x.sameRef y = true := by
  cases x <;> cases y <;> simp_all [Value.sameRef, Value.native?]

/-- Values that are alike are the same native function or none. -/
lemma AlikeBy.native?_eq (hxy : h.AlikeBy R x y) : x.native? = y.native? := by
  cases hxy <;> rfl

/-- Values that are equal, at once or by way of a third one. -/
def EqualVia (h : Heap) (a c : Value) : Prop :=
  h.equal a c = true ∨ ∃ b, h.equal a b = true ∧ h.equal b c = true

lemma EqualVia.of_comp (hac : Relation.Comp (fun a b => h.equal a b = true)
    (fun b c => h.equal b c = true) a c) : h.EqualVia a c :=
  .inr hac

/-- Receivers that refer to the same cell or are equal, one after the other. -/
lemma EqualVia.receiver (hxy : x.sameRef y = true ∨ h.equal x y = true)
    (hyz : y.sameRef z = true ∨ h.equal y z = true) : x.sameRef z = true ∨ h.EqualVia x z := by
  obtain hxy | hxy := hxy <;> obtain hyz | hyz := hyz
  · exact .inl (Value.sameRef_trans hxy hyz)
  · obtain rfl | ⟨f, hx, hy⟩ := eq_or_native_of_sameRef hxy
    · exact .inr (.inl hyz)
    · rw [(h.bisimulation_equal y z hyz).native?_eq] at hy
      exact .inl (sameRef_of_native hx hy)
  · obtain rfl | ⟨f, hy, hz⟩ := eq_or_native_of_sameRef hyz
    · exact .inr (.inl hxy)
    · rw [← (h.bisimulation_equal x y hxy).native?_eq] at hy
      exact .inl (sameRef_of_native hy hz)
  · exact .inr (.inr ⟨y, hxy, hyz⟩)

/-- Values that are equal by way of a third one are alike outside, and inside they are equal at once
or by way of a third one. -/
lemma bisimulation_equalVia (h : Heap) : h.Bisimulation h.EqualVia := by
  rintro a c (hac | ⟨b, hab, hbc⟩)
  · exact (h.bisimulation_equal a c hac).mono fun _ _ => .inl
  have hab := h.bisimulation_equal a b hab
  have hbc := h.bisimulation_equal b c hbc
  -- Where the first two are one and the same, the last two tell.
  have direct : h.AlikeBy h.EqualVia b c := hbc.mono fun _ _ => .inl
  cases hab with
  | null | bool | text | sameList | sameMap | object | classOf | function | native => exact direct
  | number hxy =>
      cases hbc with
      | number hyz => exact .number (Number.beq_trans hxy hyz)
  | tuple hitems =>
      cases hbc with
      | tuple hitems' => exact .tuple ((forall₂_comp hitems hitems').imp fun _ _ => .of_comp)
  | list hitems =>
      cases hbc with
      | sameList => exact .list (hitems.imp fun _ _ => .inl)
      | list hitems' => exact .list ((forall₂_comp hitems hitems').imp fun _ _ => .of_comp)
  | map hlen hall =>
      cases hbc with
      | sameMap => exact (AlikeBy.map hlen hall).mono fun _ _ => .inl
      | map hlen' hall' =>
          refine .map (hlen.trans hlen') fun e he => ?_
          obtain ⟨w, hw, hr⟩ := hall e he
          obtain ⟨k, hmem, hkey⟩ := Entries.mem_of_find? hw
          obtain ⟨u, hu, hr'⟩ := hall' (k, w) hmem
          exact ⟨u, by rw [← Entries.find?_congr hkey, hu], .inr ⟨w, hr, hr'⟩⟩
  | bound r hxy =>
      cases hbc with
      | bound _ hyz => exact .bound r (EqualVia.receiver hxy hyz)

/-! ### A value with itself -/

/-- A value without a number that is none is like itself, outside and inside. -/
lemma bisimulation_self (h : Heap) : h.Bisimulation fun a b => a = b ∧ ¬ a.HasNaN := by
  rintro a _ ⟨rfl, ha⟩
  cases a with
  | null => exact .null
  | bool b => exact .bool b
  | number x =>
      exact .number (Number.beq_self_of_not_isNaN (Bool.not_eq_true _ ▸ fun hx => ha (.number hx)))
  | text s => exact .text s
  | tuple items =>
      exact .tuple (List.forall₂_same.mpr fun v hv => ⟨rfl, fun hn => ha (.tuple hv hn)⟩)
  | list r => exact .sameList r
  | map r => exact .sameMap r
  | object r => exact .object r
  | classOf r => exact .classOf r
  | function r => exact .function r
  | native r => exact .native r
  | bound f x => exact .bound f (.inr ⟨rfl, fun hn => ha (.bound hn)⟩)

/-- **The laws of equality.** Equality is symmetric, as long as maps have one entry at most for each
key; it is transitive; and every value without a number that is none is equal to itself, however
lists and maps contain each other. -/
theorem equal_equivalence (h : Heap) :
    (h.KeysApart → ∀ a b, h.equal a b = true → h.equal b a = true) ∧
    (∀ a b c, h.equal a b = true → h.equal b c = true → h.equal a c = true) ∧
    ∀ a : Value, ¬ a.HasNaN → h.equal a a = true := by
  refine ⟨fun hk a b hab => ?_, fun a b c hab hbc => ?_, fun a ha => ?_⟩
  · have hsymm : h.Bisimulation fun a b => h.equal b a = true :=
      fun a b hba => (h.bisimulation_equal b a hba).symm hk
    exact hsymm.equal hab
  · exact h.bisimulation_equalVia.equal (.inr ⟨b, hab, hbc⟩)
  · exact h.bisimulation_self.equal ⟨rfl, ha⟩

/-- Two lists and two maps that contain themselves and each other. -/
def twins : Heap :=
  { empty with
    lists := #[#[.list ⟨0⟩, .null], #[.list ⟨1⟩, .null]]
    maps := #[[(.text "next", .map ⟨1⟩), (.text "items", .list ⟨0⟩)],
      [(.text "items", .list ⟨1⟩), (.text "next", .map ⟨0⟩)]] }

theorem equal_equivalence_twins : twins.KeysApart ∧
    twins.equal (.map ⟨0⟩) (.map ⟨1⟩) = true ∧ twins.equal (.map ⟨1⟩) (.map ⟨0⟩) = true := by
  have hk : twins.KeysApart := by
    unfold KeysApart
    decide
  have heq : twins.equal (.map ⟨0⟩) (.map ⟨1⟩) = true := by
    simp [twins, equal, equalIn, equalItems, equalEntries, entries, items, Entries.find?,
      Value.sameKey]
  exact ⟨hk, heq, twins.equal_equivalence.1 hk _ _ heq⟩

end Heap

/-! ### Values that are the same key -/

/-- The receivers of the native functions in a value, itself or inside tuples, in order. -/
def Value.receivers : Value → List (Option Value)
  | .tuple items => (items.map fun v => v.receivers).flatten
  | .native _ => [none]
  | .bound _ x => [some x]
  | _ => []

lemma forall₂_append_iff {α β : Type} {R : α → β → Prop} {as as' : List α} {bs bs' : List β}
    (hlen : as.length = bs.length) :
    List.Forall₂ R (as ++ as') (bs ++ bs') ↔ List.Forall₂ R as bs ∧ List.Forall₂ R as' bs' := by
  induction as generalizing bs with
  | nil => cases bs <;> simp_all
  | cons a as ih =>
      cases bs with
      | nil => cases hlen
      | cons b bs => simp [ih (Nat.succ.inj hlen), and_assoc]

namespace Value

/-- Values that are the same key have native functions at the same places. -/
lemma length_receivers {a b : Value} (hkey : a.sameKey b = true) :
    a.receivers.length = b.receivers.length := by
  induction a using Value.ind generalizing b with
  | tuple items ih =>
      cases b with
      | tuple items' =>
          have hlen := forall₂_imp_of_mem (S := fun v w => v.receivers.length = w.receivers.length)
            (fun v hv w => ih v hv) (sameKey_tuple_iff.mp hkey)
          rw [receivers, receivers, List.length_flatten, List.length_flatten]
          congr 1
          rw [List.map_map, List.map_map, ← List.forall₂_eq_eq_eq]
          simpa using hlen
      | _ => simp [sameKey, sameRef] at hkey
  | bound f x _ => cases b <;> simp_all [sameKey, sameRef, receivers]
  | other v ht hb =>
      cases v with
      | tuple items => exact absurd rfl (ht items)
      | bound f x => exact absurd rfl (hb f x)
      | _ => cases b <;> simp_all [sameKey, sameRef, receivers]

end Value

namespace Heap

/-- Two native functions have no receivers, or receivers that refer to the same cell or are
equal. -/
def SameReceiver (h : Heap) : Option Value → Option Value → Prop
  | none, none => True
  | some x, some y => x.sameRef y = true ∨ h.equal x y = true
  | _, _ => False

variable {h : Heap} {a b : Value}

lemma equal_tuple_iff {xs ys : List Value} : h.equal (.tuple xs) (.tuple ys) = true ↔
    List.Forall₂ (fun x y => h.equal x y = true) xs ys := by
  rw [equal_iff_alikeBy]
  constructor
  · intro halike
    cases halike with
    | tuple hitems => exact hitems
  · exact .tuple

lemma equal_bound_iff {f g : NativeRef} {x y : Value} : h.equal (.bound f x) (.bound g y) = true ↔
    f = g ∧ h.SameReceiver (some x) (some y) := by
  rw [equal_iff_alikeBy]
  constructor
  · intro halike
    cases halike with
    | bound _ hxy => exact ⟨rfl, hxy⟩
  · rintro ⟨rfl, hxy⟩
    exact .bound f hxy

/-- Native functions that are the same key are equal exactly if they have the same receiver. -/
lemma equal_iff_of_native {f : NativeRef} (ha : a.native? = some f) (hb : b.native? = some f) :
    h.equal a b = true ↔ List.Forall₂ h.SameReceiver a.receivers b.receivers := by
  have hmixed : ∀ {f g : NativeRef} {x : Value}, ¬ h.equal (.native f) (.bound g x) = true ∧
      ¬ h.equal (.bound g x) (.native f) = true := by
    intro f g x
    rw [equal_iff_alikeBy, equal_iff_alikeBy]
    constructor <;> rintro ⟨⟩
  cases a <;> cases ha <;> cases b <;> cases hb
  · exact iff_of_true (equal_iff_alikeBy.mpr (.native f)) (by simp [Value.receivers, SameReceiver])
  · simp [Value.receivers, SameReceiver, hmixed]
  · simp [Value.receivers, SameReceiver, hmixed]
  · simp [Value.receivers, equal_bound_iff]

/-- Values that are the same key, without a number that is none, are equal exactly if the native
functions in them have the same receivers. -/
lemma equal_iff_sameReceiver (hkey : a.sameKey b = true) (hnan : ¬ b.HasNaN) :
    h.equal a b = true ↔ List.Forall₂ h.SameReceiver a.receivers b.receivers := by
  induction a using Value.ind generalizing b with
  | tuple items ih =>
      cases b with
      | tuple items' =>
          have hkeys := Value.sameKey_tuple_iff.mp hkey
          have hitems : ∀ w ∈ items', ¬ w.HasNaN := fun w hw hn => hnan (.tuple hw hn)
          rw [equal_tuple_iff, Value.receivers, Value.receivers]
          clear hkey hnan
          induction hkeys with
          | nil => simp
          | @cons v w vs ws hvw _ ihs =>
              have hfirst := ih v List.mem_cons_self hvw (hitems w List.mem_cons_self)
              have hrest := ihs (fun v hv => ih v (List.mem_cons_of_mem _ hv))
                fun w hw => hitems w (List.mem_cons_of_mem _ hw)
              rw [List.forall₂_cons, List.map_cons, List.map_cons, List.flatten_cons,
                List.flatten_cons, forall₂_append_iff (Value.length_receivers hvw)]
              exact and_congr hfirst hrest
      | _ => simp [Value.sameKey, Value.sameRef] at hkey
  | bound f x _ =>
      refine equal_iff_of_native (f := f) rfl ?_
      cases b <;> simp_all [Value.sameKey, Value.sameRef, Value.native?]
  | other v ht hb =>
      cases v with
      | tuple items => exact absurd rfl (ht items)
      | bound f x => exact absurd rfl (hb f x)
      | native f =>
          refine equal_iff_of_native (f := f) rfl ?_
          cases b <;> simp_all [Value.sameKey, Value.sameRef, Value.native?]
      | number x =>
          cases b with
          | number y =>
              have hy : y.isNaN = false := Bool.not_eq_true _ ▸ fun hy => hnan (.number hy)
              have hxy : (x == y) = true := by
                simpa only [Value.sameKey, hy, Bool.and_false, Bool.or_false] using hkey
              simp only [Value.receivers]
              exact iff_of_true (equal_iff_alikeBy.mpr (.number hxy)) .nil
          | _ => simp [Value.sameKey, Value.sameRef] at hkey
      | _ =>
          -- All other values are the same key as themselves only.
          have hself := h.bisimulation_self.equal ⟨rfl, hnan⟩
          cases b <;> simp_all [Value.sameKey, Value.sameRef, Value.receivers]

/-- **Keys and equality.** A key is equal to every value that is the same key exactly if the native
functions in the two have the same receivers, and so is the key of the entry that a map answers
with. -/
theorem equal_iff_of_sameKey (h : Heap) {k : Value} (hk : ¬ k.HasNaN) :
    (∀ a : Value, a.sameKey k = true →
      (h.equal a k = true ↔ List.Forall₂ h.SameReceiver a.receivers k.receivers)) ∧
    ∀ r v, (h.entries r).find? k = some v →
      ∃ a, (a, v) ∈ h.entries r ∧ a.sameKey k = true ∧
        (h.equal a k = true ↔ List.Forall₂ h.SameReceiver a.receivers k.receivers) := by
  refine ⟨fun a hkey => equal_iff_sameReceiver hkey hk, fun r v hv => ?_⟩
  obtain ⟨a, hmem, hkey⟩ := Entries.mem_of_find? hv
  exact ⟨a, hmem, hkey, equal_iff_sameReceiver hkey hk⟩

/-- Two lists, and a map with an operation of the first one for a key. -/
def operations : Heap :=
  { empty with
    lists := #[#[.null], #[]]
    maps := #[[(.bound ⟨0⟩ (.list ⟨0⟩), .bool true)]]
    natives := #[⟨"List.push", [(.exactly 1, .push)]⟩] }

/-- An operation of a list holds no number. -/
lemma not_hasNaN_operation (f : NativeRef) (r : ListRef) : ¬ (Value.bound f (.list r)).HasNaN := by
  rintro (_ | _ | ⟨⟨⟩⟩)

/-- The operation of the first list is found, and it is equal to the key of its entry. -/
theorem equal_iff_of_sameKey_operations :
    ¬ (Value.bound ⟨0⟩ (.list ⟨0⟩)).HasNaN ∧
    ∃ a, (a, .bool true) ∈ operations.entries ⟨0⟩ ∧
      operations.equal a (.bound ⟨0⟩ (.list ⟨0⟩)) = true := by
  refine ⟨not_hasNaN_operation _ _, ?_⟩
  obtain ⟨a, hmem, -, heq⟩ := (operations.equal_iff_of_sameKey (not_hasNaN_operation ⟨0⟩ ⟨0⟩)).2
    ⟨0⟩ (.bool true) rfl
  obtain rfl : a = .bound ⟨0⟩ (.list ⟨0⟩) := by simpa [operations, entries] using hmem
  exact ⟨_, hmem, heq.mpr (by simp [Value.receivers, SameReceiver, Value.sameRef])⟩

/-- The operation of the second list is answered with the entry of the first one: they are the same
key, although they are not equal. -/
theorem not_equal_of_sameKey :
    (operations.entries ⟨0⟩).find? (.bound ⟨0⟩ (.list ⟨1⟩)) = some (.bool true) ∧
    ¬ ∀ (h : Heap) (a b : Value), ¬ a.HasNaN → ¬ b.HasNaN → a.sameKey b = true →
      h.equal a b = true := by
  refine ⟨rfl, fun hall => ?_⟩
  have heq := hall operations (.bound ⟨0⟩ (.list ⟨0⟩)) (.bound ⟨0⟩ (.list ⟨1⟩))
    (not_hasNaN_operation _ _) (not_hasNaN_operation _ _) (by decide)
  simp [operations, equal, equalIn, equalItems, items, Value.sameRef] at heq

end Heap

end Tern
