/-
What tables, cells, environments and answers hold. A property of values that holds of everything in
a table holds of what is read off it, and of everything in it after a value with the property is
written.

* `Bindings.forall_put`, `Entries.Hold`: values under names, and the entries of maps.
* `Heap.forall_mem_push`, `Heap.forall_mem_modify`: the cells of a kind.
* `Environment.Hold`: the values under all names of all frames.
* `Host.Reply.hold`, `Host.Reply.holdAll`: the values in an answer of a host.
-/
import Mathlib.Tactic
import Tern.Environment
import Tern.Heap
import Tern.Host

namespace Tern

/-! ### Tables -/

namespace Bindings

variable {α : Type} {name : String} {v : α} {b : Bindings α}

/-- A value under a name is in the table. -/
lemma mem_of_find? (h : b.find? name = some v) : (name, v) ∈ b := by
  induction b with
  | nil => cases h
  | cons entry rest ih =>
      obtain ⟨key, old⟩ := entry
      rw [find?] at h
      split at h
      · rename_i hkey
        cases h
        rw [hkey]
        exact List.mem_cons_self
      · exact List.mem_cons_of_mem _ (ih h)

/-- What is in a table after a value is written is the new entry or was there before. -/
lemma mem_put {entry : String × α} (h : entry ∈ b.put name v) : entry = (name, v) ∨ entry ∈ b := by
  induction b with
  | nil => exact .inl (List.mem_singleton.mp h)
  | cons first rest ih =>
      obtain ⟨key, old⟩ := first
      rw [put] at h
      split at h
      · rename_i hkey
        obtain rfl | h := List.mem_cons.mp h
        · exact .inl (by rw [hkey])
        · exact .inr (List.mem_cons_of_mem _ h)
      · obtain rfl | h := List.mem_cons.mp h
        · exact .inr List.mem_cons_self
        · exact (ih h).imp_right (List.mem_cons_of_mem _)

/-- What holds of the values of a table and of a new one holds after the new one is written. -/
lemma forall_put {P : α → Prop} (hb : ∀ entry ∈ b, P entry.2) (hv : P v) :
    ∀ entry ∈ b.put name v, P entry.2 := by
  intro entry hentry
  obtain rfl | hentry := mem_put hentry
  · exact hv
  · exact hb entry hentry

/-- In a table without repetitions every entry is found. -/
lemma find?_of_mem (hb : b.names.Nodup) (h : (name, v) ∈ b) : b.find? name = some v := by
  induction b with
  | nil => cases h
  | cons first rest ih =>
      obtain ⟨key, old⟩ := first
      obtain ⟨hkey, hrest⟩ := List.nodup_cons.mp hb
      rw [find?]
      obtain heq | h := List.mem_cons.mp h
      · obtain ⟨rfl, rfl⟩ := Prod.mk.inj heq
        rw [if_pos rfl]
      · rw [if_neg, ih hrest h]
        rintro rfl
        exact hkey (List.mem_map.mpr ⟨(key, v), h, rfl⟩)

/-- Writing a value makes no repetition. -/
lemma nodup_put (hb : b.names.Nodup) (name : String) (v : α) : (b.put name v).names.Nodup := by
  rw [names_put]
  split
  · exact hb
  · rename_i hnew
    refine List.nodup_append.mpr ⟨hb, List.nodup_singleton name, ?_⟩
    rintro key hkey _ hname rfl
    rw [List.mem_singleton.mp hname] at hkey
    obtain ⟨entry, hentry, rfl⟩ := List.mem_map.mp hkey
    exact hnew (by rw [has, find?_of_mem hb hentry]; rfl)

end Bindings

/-- A property holds of all keys and values of a map. -/
def Entries.Hold (P : Value → Prop) (m : Entries) : Prop := ∀ e ∈ m, P e.1 ∧ P e.2

namespace Entries.Hold

variable {P : Value → Prop} {m : Entries}

lemma nil : Entries.Hold P [] := List.forall_mem_nil _

lemma mono {Q : Value → Prop} (hm : m.Hold P) (h : ∀ {v}, P v → Q v) : m.Hold Q :=
  fun e he => ⟨h (hm e he).1, h (hm e he).2⟩

lemma find? (hm : m.Hold P) {key v : Value} (h : m.find? key = some v) : P v := by
  induction m with
  | nil => cases h
  | cons entry rest ih =>
      obtain ⟨hentry, hrest⟩ := List.forall_mem_cons.mp hm
      rw [Entries.find?] at h
      split at h
      · cases h
        exact hentry.2
      · exact ih hrest h

lemma insert (hm : m.Hold P) {key v : Value} (hk : P key) (hv : P v) :
    (m.insert key v).Hold P := by
  induction m with
  | nil => exact List.forall_mem_singleton.mpr ⟨hk, hv⟩
  | cons entry rest ih =>
      obtain ⟨hentry, hrest⟩ := List.forall_mem_cons.mp hm
      rw [Entries.insert]
      split
      · exact List.forall_mem_cons.mpr ⟨⟨hentry.1, hv⟩, hrest⟩
      · exact List.forall_mem_cons.mpr ⟨hentry, ih hrest⟩

lemma erase (hm : m.Hold P) {key : Value} : (m.erase key).Hold P := by
  induction m with
  | nil => exact hm
  | cons entry rest ih =>
      obtain ⟨hentry, hrest⟩ := List.forall_mem_cons.mp hm
      rw [Entries.erase]
      split
      · exact hrest
      · exact List.forall_mem_cons.mpr ⟨hentry, ih hrest⟩

lemma keys (hm : m.Hold P) : ∀ v ∈ m.keys, P v := by
  intro v hv
  obtain ⟨e, he, rfl⟩ := List.mem_map.mp hv
  exact (hm e he).1

lemma values (hm : m.Hold P) : ∀ v ∈ m.values, P v := by
  intro v hv
  obtain ⟨e, he, rfl⟩ := List.mem_map.mp hv
  exact (hm e he).2

end Entries.Hold

/-! ### Cells -/

namespace Heap

variable {α : Type} {P : α → Prop} {cells : Array α}

/-- What holds of all cells and of what a change makes of them holds after one is changed. -/
lemma forall_mem_modify {f : α → α} (hcells : ∀ a ∈ cells, P a) (hf : ∀ a, P a → P (f a))
    (i : Nat) : ∀ a ∈ cells.modify i f, P a := by
  intro a ha
  obtain ⟨j, hj⟩ := Array.mem_iff_getElem?.mp ha
  rw [Array.getElem?_modify] at hj
  split at hj
  · obtain ⟨b, hb, rfl⟩ := Option.map_eq_some_iff.mp hj
    exact hf b (hcells b (Array.mem_of_getElem? hb))
  · exact hcells a (Array.mem_of_getElem? hj)

/-- What holds of all cells and of a new one holds after it is added. -/
lemma forall_mem_push {new : α} (hcells : ∀ a ∈ cells, P a) (hnew : P new) :
    ∀ a ∈ cells.push new, P a := by
  intro a ha
  obtain ha | rfl := Array.mem_push.mp ha
  · exact hcells a ha
  · exact hnew

end Heap

/-! ### Environments -/

/-- A property holds of the values under all names. -/
def Environment.Hold (P : Value → Prop) (e : Environment) : Prop :=
  ∀ f ∈ e.frames, ∀ b ∈ f.vars, P b.2

namespace Environment.Hold

variable {P : Value → Prop} {e : Environment}

lemma mono {Q : Value → Prop} (he : e.Hold P) (h : ∀ {v}, P v → Q v) : e.Hold Q :=
  fun f hf b hb => h (he f hf b hb)

lemma findIn? {fs : List Frame} (hfs : ∀ f ∈ fs, ∀ b ∈ f.vars, P b.2) {name : String} {v : Value}
    (h : Environment.findIn? name fs = some v) : P v := by
  induction fs with
  | nil => cases h
  | cons f rest ih =>
      obtain ⟨hf, hrest⟩ := List.forall_mem_cons.mp hfs
      rw [Environment.findIn?] at h
      split at h
      · rename_i w hw
        cases h
        exact hf _ (Bindings.mem_of_find? hw)
      · exact ih hrest h

lemma find? (he : e.Hold P) {name : String} {v : Value} (h : e.find? name = some v) : P v :=
  findIn? he h

lemma get (he : e.Hold P) {name : String} {v : Value} (h : e.get name = .ok v) : P v := by
  rw [Environment.get] at h
  split at h
  · rename_i w hw
    cases h
    exact he.find? hw
  · cases h

lemma push (he : e.Hold P) (name file : String) (line : Nat) : (e.push name file line).Hold P :=
  List.forall_mem_cons.mpr ⟨List.forall_mem_nil _, he⟩

lemma pop (he : e.Hold P) : e.pop.Hold P := by
  obtain ⟨top, below, snapshots⟩ := e
  cases below with
  | nil => exact he
  | cons f rest => exact (List.forall_mem_cons.mp he).2

lemma truncate (he : e.Hold P) (depth : Nat) : (e.truncate depth).Hold P := by
  rw [Environment.truncate]
  split
  · exact he
  · rename_i f rest hdrop
    intro g hg
    have hmem : g ∈ e.frames.drop (e.depth - max depth 1) := by rwa [hdrop]
    exact he g (List.mem_of_mem_drop hmem)

lemma mark (he : e.Hold P) (line : Nat) : (e.mark line).Hold P :=
  List.forall_mem_cons.mpr (List.forall_mem_cons.mp he)

lemma setFile (he : e.Hold P) (file : String) : (e.setFile file).Hold P :=
  List.forall_mem_cons.mpr (List.forall_mem_cons.mp he)

lemma pushSnapshot (he : e.Hold P) (trace : Trace) : (e.pushSnapshot trace).Hold P := he

lemma popSnapshot (he : e.Hold P) : e.popSnapshot.Hold P := he

section

variable {v : Value} (hv : P v) (name : String)

include hv

lemma bind (he : e.Hold P) : (e.bind name v).Hold P := by
  obtain ⟨htop, hbelow⟩ := List.forall_mem_cons.mp he
  exact List.forall_mem_cons.mpr ⟨Bindings.forall_put htop hv, hbelow⟩

lemma define (he : e.Hold P) {e' : Environment} (h : e.define name v = .ok e') : e'.Hold P := by
  rw [Environment.define] at h
  split at h
  · cases h
  · cases h
    exact he.bind hv name

lemma putIn? {fs fs' : List Frame} (hfs : ∀ f ∈ fs, ∀ b ∈ f.vars, P b.2)
    (h : Environment.putIn? name v fs = some fs') : ∀ f ∈ fs', ∀ b ∈ f.vars, P b.2 := by
  induction fs generalizing fs' with
  | nil => cases h
  | cons f rest ih =>
      obtain ⟨hf, hrest⟩ := List.forall_mem_cons.mp hfs
      rw [Environment.putIn?] at h
      split at h
      · cases h
        exact List.forall_mem_cons.mpr ⟨Bindings.forall_put hf hv, hrest⟩
      · obtain ⟨rest', hrest', rfl⟩ := Option.map_eq_some_iff.mp h
        exact List.forall_mem_cons.mpr ⟨hf, ih hrest hrest'⟩

lemma put (he : e.Hold P) : (e.put name v).Hold P := by
  obtain ⟨htop, hbelow⟩ := List.forall_mem_cons.mp he
  rw [Environment.put]
  split
  · exact he.bind hv name
  · split
    · rename_i below hput
      exact List.forall_mem_cons.mpr ⟨htop, putIn? hv name hbelow hput⟩
    · exact he.bind hv name

lemma bindLast {fs : List Frame} (hfs : ∀ f ∈ fs, ∀ b ∈ f.vars, P b.2) :
    ∀ f ∈ Environment.bindLast name v fs, ∀ b ∈ f.vars, P b.2 := by
  induction fs with
  | nil => exact hfs
  | cons f rest ih =>
      obtain ⟨hf, hrest⟩ := List.forall_mem_cons.mp hfs
      cases rest with
      | nil => exact List.forall_mem_singleton.mpr (Bindings.forall_put hf hv)
      | cons g rest => exact List.forall_mem_cons.mpr ⟨hf, ih hrest⟩

lemma defineGlobal (he : e.Hold P) : (e.defineGlobal name v).Hold P := by
  obtain ⟨htop, hbelow⟩ := List.forall_mem_cons.mp he
  rw [Environment.defineGlobal]
  split
  · exact he.bind hv name
  · exact List.forall_mem_cons.mpr ⟨htop, bindLast hv name hbelow⟩

end

end Environment.Hold

/-! ### Answers -/

/-- A property that constants have, and tuples of values that have it. -/
structure Value.Inherent (P : Value → Prop) : Prop where
  null : P .null
  bool : ∀ b, P (.bool b)
  number : ∀ x, P (.number x)
  text : ∀ t, P (.text t)
  tuple : ∀ {vs : List Value}, (∀ v ∈ vs, P v) → P (.tuple vs)

namespace Host.Reply

mutual

/-- What holds of the values at hand holds of a value in an answer, if constants bring it along. -/
theorem hold {P : Value → Prop} (hP : Value.Inherent P) {atHand : List Value}
    (h : ∀ v ∈ atHand, P v) (reply : Reply) : P (reply.value atHand) := by
  cases reply with
  | null => rw [value]; exact hP.null
  | bool b => rw [value]; exact hP.bool b
  | number x => rw [value]; exact hP.number x
  | text t => rw [value]; exact hP.text t
  | given place =>
      rw [value]
      cases hv : atHand[place]? with
      | none => exact hP.null
      | some v => exact h v (List.mem_of_getElem? hv)
  | tuple items => rw [value]; exact hP.tuple (holdAll hP h items)

theorem holdAll {P : Value → Prop} (hP : Value.Inherent P) {atHand : List Value}
    (h : ∀ v ∈ atHand, P v) (replies : List Reply) : ∀ v ∈ values atHand replies, P v := by
  cases replies with
  | nil => rw [values]; exact List.forall_mem_nil _
  | cons reply rest =>
      rw [values]
      exact List.forall_mem_cons.mpr ⟨hold hP h reply, holdAll hP h rest⟩

end

end Host.Reply

end Tern
