/-
The chains of a heap that is well made. A superclass is older than its subclasses and a super-object
older than the object that delegates to it, so chains come to an end, and the bound on their length
cuts nothing off. Level by level, the objects that an object delegates to are of the classes that
its class inherits from.

* `Heap.lineage_eq`, `Heap.delegates_eq`: chains, link by link.
* `Heap.Climbs`: classes each of which is the superclass of the one before.
* `Heap.Mirrored`: the chains of objects and those of classes agree; `Heap.WellMade.mirrored`: so
  they do in a heap that is well made.
-/
import Tern.Proofs.WellMade

namespace Tern

namespace Heap

/-! ### Links -/

/-- What a chain is made of, at most `fuel` links: `link` gives nothing where there is no cell, and
else the next cell if there is one. -/
def chainUpTo {α : Type} (link : α → Option (Option α)) : Nat → α → List α
  | 0, _ => []
  | fuel + 1, a =>
    match link a with
    | none => []
    | some none => [a]
    | some (some b) => a :: chainUpTo link fuel b

section

variable {α : Type} {link : α → Option (Option α)} {age : α → Nat}
  (hlink : ∀ a b, link a = some (some b) → age b < age a)

include hlink

/-- If links lead to what is older, it is enough that a bound exceeds the age. -/
lemma chainUpTo_congr {fuel fuel' : Nat} {a : α} (h : age a < fuel) (h' : age a < fuel') :
    chainUpTo link fuel a = chainUpTo link fuel' a := by
  induction fuel generalizing fuel' a with
  | zero => omega
  | succ fuel ih =>
      cases fuel' with
      | zero => omega
      | succ fuel' =>
          simp only [chainUpTo]
          cases hnext : link a with
          | none => rfl
          | some next =>
              cases next with
              | none => rfl
              | some b =>
                  have hb := hlink a b hnext
                  exact congrArg (a :: ·) (ih (by omega) (by omega))

lemma chainUpTo_eq {fuel : Nat} {a : α} (h : age a < fuel) {next : Option α}
    (hnext : link a = some next) :
    chainUpTo link fuel a = a :: next.elim [] (chainUpTo link fuel) := by
  cases fuel with
  | zero => omega
  | succ fuel =>
      rw [chainUpTo, hnext]
      cases next with
      | none => rfl
      | some b =>
          have hb := hlink a b hnext
          exact congrArg (a :: ·) (chainUpTo_congr hlink (by omega) (by omega))

end

variable {h h' : Heap}

lemma lineageUpTo_eq_chain (h : Heap) (fuel : Nat) (r : ClassRef) :
    h.lineageUpTo fuel r = chainUpTo (fun r => (h.class? r).map (·.superclass)) fuel r := by
  induction fuel generalizing r with
  | zero => rfl
  | succ fuel ih =>
      rw [lineageUpTo, chainUpTo]
      cases h.class? r with
      | none => rfl
      | some c =>
          simp only [Option.map_some]
          cases c.superclass with
          | none => rfl
          | some p => exact congrArg (r :: ·) (ih p)

lemma delegatesUpTo_eq_chain (h : Heap) (fuel : Nat) (r : ObjectRef) :
    h.delegatesUpTo fuel r = chainUpTo (fun r => (h.object? r).map (·.parent)) fuel r := by
  induction fuel generalizing r with
  | zero => rfl
  | succ fuel ih =>
      rw [delegatesUpTo, chainUpTo]
      cases h.object? r with
      | none => rfl
      | some o =>
          simp only [Option.map_some]
          cases o.parent with
          | none => rfl
          | some p => exact congrArg (r :: ·) (ih p)

namespace WellMade

lemma lineage_eq (hw : h.WellMade) {r : ClassRef} {c : Class} (hc : h.class? r = some c) :
    h.lineage r = r :: c.superclass.elim [] h.lineage := by
  have hlink : ∀ r p : ClassRef, (h.class? r).map (·.superclass) = some (some p) →
      p.index < r.index := by
    intro r p hp
    obtain ⟨c, hc, hp⟩ := Option.map_eq_some_iff.mp hp
    exact (hw.classes hc).older p hp
  have hr : r.index < h.classes.size := (Array.getElem?_eq_some_iff.mp hc).1
  have hchain : h.lineage = chainUpTo _ h.classes.size := funext (h.lineageUpTo_eq_chain _)
  rw [hchain]
  exact chainUpTo_eq hlink hr (by rw [hc]; rfl)

lemma delegates_eq (hw : h.WellMade) {r : ObjectRef} {o : Instance} (ho : h.object? r = some o) :
    h.delegates r = r :: o.parent.elim [] h.delegates := by
  have hlink : ∀ r p : ObjectRef, (h.object? r).map (·.parent) = some (some p) →
      p.index < r.index := by
    intro r p hp
    obtain ⟨o, ho, hp⟩ := Option.map_eq_some_iff.mp hp
    exact (hw.objects ho).older p hp
  have hr : r.index < h.objects.size := (Array.getElem?_eq_some_iff.mp ho).1
  have hchain : h.delegates = chainUpTo _ h.objects.size := funext (h.delegatesUpTo_eq_chain _)
  rw [hchain]
  exact chainUpTo_eq hlink hr (by rw [ho]; rfl)

end WellMade

lemma lineage_of_none {r : ClassRef} (hr : h.class? r = none) : h.lineage r = [] := by
  rw [lineage]
  cases h.classes.size with
  | zero => rfl
  | succ n => rw [lineageUpTo, hr]

/-! ### Chains of classes -/

/-- Classes, each with the next one as its superclass and the last one without. -/
def Climbs (h : Heap) : List ClassRef → Prop
  | [] => True
  | r :: rest => (∃ c, h.class? r = some c ∧ c.superclass = rest.head?) ∧ h.Climbs rest

namespace WellMade

lemma climbs_lineage (hw : h.WellMade) (r : ClassRef) : h.Climbs (h.lineage r) := by
  -- by induction on how old the class is
  induction hn : r.index using Nat.strong_induction_on generalizing r with
  | h n ih =>
      cases hc : h.class? r with
      | none =>
          rw [lineage_of_none hc]
          trivial
      | some c =>
          rw [hw.lineage_eq hc]
          cases hp : c.superclass with
          | none => exact ⟨⟨c, hc, hp⟩, trivial⟩
          | some p =>
              obtain ⟨c', hc'⟩ := Option.isSome_iff_exists.mp (hw.superclass hc hp)
              have hlt := (hw.classes hc).older p hp
              refine ⟨⟨c, hc, ?_⟩, ih p.index (hn ▸ hlt) p rfl⟩
              rw [hp, Option.elim_some, hw.lineage_eq hc']
              rfl

/-- There is no infinite chain of superclasses. -/
lemma not_endless (hw : h.WellMade) (chain : Nat → ClassRef) :
    ¬ ∀ n, (h.class? (chain n)).bind (·.superclass) = some (chain (n + 1)) := by
  intro hchain
  have hage : ∀ n, (chain n).index + n ≤ (chain 0).index := by
    intro n
    induction n with
    | zero => exact Nat.le_refl _
    | succ n ih =>
        obtain ⟨c, hc, hp⟩ := Option.bind_eq_some_iff.mp (hchain n)
        have hlt := (hw.classes hc).older _ hp
        omega
  have := hage ((chain 0).index + 1)
  omega

/-- The classes of the objects that an object delegates to. -/
lemma map_delegates (hw : h.WellMade) {r : ObjectRef} {o : Instance} (ho : h.object? r = some o) :
    (h.delegates r).map h.classOfObject? = (h.lineage o.ofClass).map some := by
  -- by induction on how old the object is
  induction hn : r.index using Nat.strong_induction_on generalizing r o with
  | h n ih =>
      obtain ⟨c, hc, hparent, -⟩ := (hw.objects ho).shape
      have hclass : h.classOfObject? r = some o.ofClass := by rw [classOfObject?, ho]; rfl
      rw [hw.delegates_eq ho, hw.lineage_eq hc, List.map_cons, List.map_cons, hclass]
      congr 1
      cases hp : o.parent with
      | none =>
          rw [hp] at hparent
          rw [Option.map_eq_none_iff.mp hparent.symm]
          rfl
      | some p =>
          rw [hp] at hparent
          obtain ⟨ref, hsuper, href⟩ := Option.map_eq_some_iff.mp hparent.symm
          obtain ⟨o', ho', rfl⟩ := Option.map_eq_some_iff.mp href.symm
          have hlt := (hw.objects ho).older p hp
          rw [hsuper]
          exact ih p.index (hn ▸ hlt) ho' rfl

end WellMade

/-! ### Chains of objects -/

/-- An object is an instance of the classes of the objects that it delegates to. -/
lemma WellMade.isInstance_iff (hw : h.WellMade) {r : ObjectRef} {o : Instance}
    (ho : h.object? r = some o) (ref : ClassRef) :
    h.isInstance (.object r) ref = true ↔
      ∃ r' ∈ h.delegates r, h.classOfObject? r' = some ref := by
  have hclass : h.classOf (.object r) = o.ofClass := by
    simp [Heap.classOf, Heap.classOfObject?, ho]
  have hmap := hw.map_delegates ho
  rw [isInstance, inherits, hclass, List.contains_iff_mem, ← List.mem_map, hmap, List.mem_map]
  simp

end Heap

/-- Delegation mirrors inheritance. -/
structure Heap.Mirrored (h : Heap) : Prop where
  /-- A chain of superclasses comes to an end. -/
  ends : ∀ chain : Nat → ClassRef,
    ¬ ∀ n, (h.class? (chain n)).bind (·.superclass) = some (chain (n + 1))
  /-- The lineage of a class is its chain of superclasses. -/
  lineage : ∀ r c, h.class? r = some c → h.lineage r = r :: c.superclass.elim [] h.lineage
  /-- The delegates of an object are its chain of super-objects. -/
  delegates : ∀ r o, h.object? r = some o → h.delegates r = r :: o.parent.elim [] h.delegates
  /-- An object has a super-object exactly if its class has a superclass, which then is the class of
  the super-object. -/
  parent : ∀ r o, h.object? r = some o → ∃ c, h.class? o.ofClass = some c ∧
    o.parent.map h.classOfObject? = c.superclass.map some ∧
    (o.parent.isSome = true ↔ c.superclass.isSome = true)
  /-- The two chains agree level by level. -/
  levels : ∀ r o, h.object? r = some o →
    (h.delegates r).map h.classOfObject? = (h.lineage o.ofClass).map some
  /-- The slots of an object are slots that its own class declares. -/
  slots : ∀ r o c, h.object? r = some o → h.class? o.ofClass = some c →
    ∀ b ∈ o.slots, ∃ default, c.fields.find? b.1 = some (.slot default)
  /-- An object is an instance of a class exactly if that is the class of an object on its chain. -/
  isInstance : ∀ r o ref, h.object? r = some o →
    (h.isInstance (.object r) ref = true ↔
      ∃ r' ∈ h.delegates r, h.classOfObject? r' = some ref)

lemma Class.exists_slot_of_hasSlot {c : Class} {name : String} (h : c.hasSlot name = true) :
    ∃ default, c.fields.find? name = some (.slot default) := by
  rw [Class.hasSlot] at h
  split at h
  · rename_i default hfind
    exact ⟨default, hfind⟩
  · cases h

theorem Heap.WellMade.mirrored {h : Heap} (hw : h.WellMade) : h.Mirrored where
  ends := hw.not_endless
  lineage _ _ := hw.lineage_eq
  delegates _ _ := hw.delegates_eq
  parent r o ho := by
    obtain ⟨c, hc, hparent, -⟩ := (hw.objects ho).shape
    refine ⟨c, hc, hparent, ?_⟩
    have hsome := congrArg Option.isSome hparent
    rw [Option.isSome_map, Option.isSome_map] at hsome
    rw [hsome]
  levels _ _ := hw.map_delegates
  slots r o c ho hc b hb := by
    obtain ⟨c', hc', -, hslots⟩ := (hw.objects ho).shape
    obtain rfl : c' = c := Option.some.inj (hc'.symm.trans hc)
    exact Class.exists_slot_of_hasSlot (hslots b hb)
  isInstance _ _ ref ho := hw.isInstance_iff ho ref

end Tern
