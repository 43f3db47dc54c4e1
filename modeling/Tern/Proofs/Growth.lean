/-
Growth of the heap. Cells are only ever added. A class, a function or a native function never
changes, and an object keeps its class and the object it delegates to, whatever happens to its
slots.

* `Heap.Grows`: one heap is a later state of another.
* `Heap.Grows.class?`, `Heap.Grows.native?`, `Heap.Grows.object?`: what is read off a heap can be
  read off every later one.
* `Heap.grows_addObject` and the like: what a single change does.
-/
import Mathlib.Tactic
import Tern.Heap

namespace Tern

/-- The second object is a later state of the first: only its slots can differ. -/
structure Instance.Grows (o o' : Instance) : Prop where
  ofClass : o'.ofClass = o.ofClass
  parent : o'.parent = o.parent

/-- The second heap is a later state of the first. -/
structure Heap.Grows (h h' : Heap) : Prop where
  class? : ∀ {r c}, h.class? r = some c → h'.class? r = some c
  native? : ∀ {r f}, h.native? r = some f → h'.native? r = some f
  object? : ∀ {r o}, h.object? r = some o → ∃ o', h'.object? r = some o' ∧ o.Grows o'

namespace Heap

lemma Grows.refl (h : Heap) : h.Grows h :=
  ⟨id, id, fun ho => ⟨_, ho, rfl, rfl⟩⟩

lemma Grows.trans {h h' h'' : Heap} (h₁ : h.Grows h') (h₂ : h'.Grows h'') : h.Grows h'' := by
  refine ⟨fun hc => h₂.class? (h₁.class? hc), fun hf => h₂.native? (h₁.native? hf), ?_⟩
  intro r o ho
  obtain ⟨o', ho', hg⟩ := h₁.object? ho
  obtain ⟨o'', ho'', hg'⟩ := h₂.object? ho'
  exact ⟨o'', ho'', hg'.ofClass.trans hg.ofClass, hg'.parent.trans hg.parent⟩

/-- A heap with the same classes, native functions and objects is a later state. -/
lemma grows_of_eq {h h' : Heap} (hc : h'.classes = h.classes) (hn : h'.natives = h.natives)
    (ho : h'.objects = h.objects) : h.Grows h' := by
  refine ⟨fun hr => ?_, fun hr => ?_, fun hr => ⟨_, ?_, rfl, rfl⟩⟩
  · rwa [Heap.class?, hc]
  · rwa [Heap.native?, hn]
  · rwa [Heap.object?, ho]

/-- A cell that is there stays where it is when one is added. -/
lemma getElem?_push_of_eq_some {α : Type} {cells : Array α} {i : Nat} {cell new : α}
    (h : cells[i]? = some cell) : (cells.push new)[i]? = some cell := by
  have hi : i < cells.size := (Array.getElem?_eq_some_iff.mp h).1
  rw [Array.getElem?_push, if_neg (by omega)]
  exact h

lemma grows_addList (h : Heap) (items : Array Value) : h.Grows (h.addList items).2 :=
  grows_of_eq rfl rfl rfl

lemma grows_addMap (h : Heap) (entries : Entries) : h.Grows (h.addMap entries).2 :=
  grows_of_eq rfl rfl rfl

lemma grows_addFunction (h : Heap) (f : Closure) : h.Grows (h.addFunction f).2 :=
  grows_of_eq rfl rfl rfl

lemma grows_modifyList (h : Heap) (r : ListRef) (f : Array Value → Array Value) :
    h.Grows (h.modifyList r f) :=
  grows_of_eq rfl rfl rfl

lemma grows_modifyMap (h : Heap) (r : MapRef) (f : Entries → Entries) :
    h.Grows (h.modifyMap r f) :=
  grows_of_eq rfl rfl rfl

lemma grows_addObject (h : Heap) (o : Instance) : h.Grows (h.addObject o).2 :=
  ⟨id, id, fun ho => ⟨_, getElem?_push_of_eq_some ho, rfl, rfl⟩⟩

lemma grows_addClass (h : Heap) (c : Class) : h.Grows (h.addClass c).2 :=
  ⟨fun hc => getElem?_push_of_eq_some hc, id, fun ho => ⟨_, ho, rfl, rfl⟩⟩

lemma grows_addNative (h : Heap) (f : Native) : h.Grows (h.addNative f).2 :=
  ⟨id, fun hf => getElem?_push_of_eq_some hf, fun ho => ⟨_, ho, rfl, rfl⟩⟩

/-- What an object is after a slot has been written. -/
lemma object?_setSlot (h : Heap) (r r' : ObjectRef) (name : String) (v : Value) :
    (h.setSlot r name v).object? r' =
      if r = r' then (h.object? r').map fun o => { o with slots := o.slots.put name v }
      else h.object? r' := by
  obtain ⟨i⟩ := r
  obtain ⟨j⟩ := r'
  simp only [object?, setSlot, Array.getElem?_modify, ObjectRef.mk.injEq]

lemma grows_setSlot (h : Heap) (r : ObjectRef) (name : String) (v : Value) :
    h.Grows (h.setSlot r name v) := by
  refine ⟨id, id, fun {r' o} ho => ?_⟩
  rw [object?_setSlot, ho]
  by_cases hr : r = r'
  · rw [if_pos hr]
    exact ⟨_, rfl, rfl, rfl⟩
  · rw [if_neg hr]
    exact ⟨_, rfl, rfl, rfl⟩

end Heap

end Tern
