/-
Heaps that are well made. Superclasses are older than their subclasses, an object delegates to an
object of the superclass of its class, and it has only slots that its class declares; a map has one
entry at most for each key. The one operation that writes a slot without looking at a class is the
constructor of exceptions, so all that is there to be called has to be watched: it must not be that
operation, unless it was read off an object with a message.

* `Heap.Sound`: values that lead to nothing that writes a slot that is not declared.
* `Class.WellMade`, `Instance.WellMade`, `Entries.WellMade`, `Heap.WellMade`: cells, and all cells
  of a heap.
* `Heap.WellMade.grow`: a heap stays well made if every cell that is new or changed is.
* `Heap.WellMade.addClass`, `Heap.WellMade.setSlot` and the like: what a single change does.
-/
import Tern.Library
import Tern.Proofs.Contents
import Tern.Proofs.Growth
import Tern.Proofs.Keys

namespace Tern

/-- Whether a native function can be the constructor of exceptions. -/
def Native.writes (f : Native) : Bool := f.overloads.any (·.2 = .initException)

/-- The name of the slot that it writes. -/
def messageSlot : String := "message"

/-- Whether a class declares a slot. -/
def Class.hasSlot (c : Class) (name : String) : Bool :=
  match c.fields.find? name with
  | some (.slot _) => true
  | _ => false

/-- The native function that a function of a class is. -/
def Method.native? : Method → Option NativeRef
  | .user _ => none
  | .native ref => some ref

namespace Heap

/-- The class of an object declares a slot. -/
def Declares (h : Heap) (r : ObjectRef) (name : String) : Prop :=
  ∃ c, (h.classOfObject? r).bind h.class? = some c ∧ c.hasSlot name = true

/-- A value that leads to nothing that writes a slot that is not declared. Classes and native
functions that it leads to are there. -/
inductive Sound (h : Heap) : Value → Prop where
  | null : Sound h .null
  | bool (b : Bool) : Sound h (.bool b)
  | number (x : Float) : Sound h (.number x)
  | text (t : String) : Sound h (.text t)
  | tuple {items : List Value} : (∀ v ∈ items, Sound h v) → Sound h (.tuple items)
  | list (r : ListRef) : Sound h (.list r)
  | map (r : MapRef) : Sound h (.map r)
  | object (r : ObjectRef) : Sound h (.object r)
  | classOf {r : ClassRef} : (h.class? r).isSome = true → Sound h (.classOf r)
  | function (r : FunctionRef) : Sound h (.function r)
  | native {r : NativeRef} {f : Native} : h.native? r = some f → f.writes = false →
      Sound h (.native r)
  | bound {r : NativeRef} {f : Native} {receiver : Value} : h.native? r = some f →
      Sound h receiver →
      (f.writes = true → ∃ o, receiver = .object o ∧ h.Declares o messageSlot) →
      Sound h (.bound r receiver)

end Heap

/-- A class that is older than its subclasses. Of its native functions only those of a class with
messages may be the constructor of exceptions. -/
structure Class.WellMade (h : Heap) (r : ClassRef) (c : Class) : Prop where
  older : ∀ p ∈ c.superclass, p.index < r.index
  fields : c.fields.names.Nodup
  methods : ∀ b ∈ c.methods, ∀ n ∈ b.2.native?, ∃ f ∈ h.native? n,
    f.writes = true → c.hasSlot messageSlot = true
  init : ∀ n ∈ c.init, ∃ f ∈ h.native? n, f.writes = false

/-- An object whose class is there, which delegates to an older object of the superclass, if there
is one, and has declared slots only. -/
structure Instance.WellMade (h : Heap) (r : ObjectRef) (o : Instance) : Prop where
  older : ∀ p ∈ o.parent, p.index < r.index
  shape : ∃ c, h.class? o.ofClass = some c ∧
    o.parent.map h.classOfObject? = c.superclass.map some ∧
    ∀ b ∈ o.slots, c.hasSlot b.1 = true
  slots : ∀ b ∈ o.slots, h.Sound b.2

/-- A map with sound keys and values, and one entry at most for each key. -/
structure Entries.WellMade (h : Heap) (m : Entries) : Prop where
  sound : m.Hold h.Sound
  apart : m.Apart

/-- All cells are well made, and those of the library are there. -/
structure Heap.WellMade (h : Heap) : Prop where
  library : Library.heap.Grows h
  classes : ∀ {r c}, h.class? r = some c → c.WellMade h r
  objects : ∀ {r o}, h.object? r = some o → o.WellMade h r
  lists : ∀ vs ∈ h.lists, ∀ v ∈ vs, h.Sound v
  maps : ∀ m ∈ h.maps, m.WellMade h
  functions : ∀ f ∈ h.functions, ∀ p ∈ f.receiver, h.Sound p.1 ∧ h.Sound p.2

/-! ### Later heaps -/

namespace Heap

variable {h h' : Heap} {r : ObjectRef} {v : Value}

lemma Grows.classOfObject? (hg : h.Grows h') {c : ClassRef} (hc : h.classOfObject? r = some c) :
    h'.classOfObject? r = some c := by
  obtain ⟨o, ho, rfl⟩ := Option.map_eq_some_iff.mp hc
  obtain ⟨o', ho', hgrown⟩ := hg.object? ho
  rw [Heap.classOfObject?, ho', Option.map_some, hgrown.ofClass]

lemma Declares.later (hg : h.Grows h') {name : String} (hd : h.Declares r name) :
    h'.Declares r name := by
  obtain ⟨c, hc, hslot⟩ := hd
  obtain ⟨ref, hr, hc⟩ := Option.bind_eq_some_iff.mp hc
  refine ⟨c, ?_, hslot⟩
  rw [hg.classOfObject? hr]
  exact hg.class? hc

lemma Sound.later (hg : h.Grows h') (hv : h.Sound v) : h'.Sound v := by
  induction hv with
  | null => exact .null
  | bool b => exact .bool b
  | number x => exact .number x
  | text t => exact .text t
  | tuple _ ih => exact .tuple ih
  | list r => exact .list r
  | map r => exact .map r
  | object r => exact .object r
  | classOf hr =>
      obtain ⟨c, hc⟩ := Option.isSome_iff_exists.mp hr
      exact .classOf (by rw [hg.class? hc]; rfl)
  | function r => exact .function r
  | native hf hw => exact .native (hg.native? hf) hw
  | bound hf _ hw ih =>
      refine .bound (hg.native? hf) ih fun hwrites => ?_
      obtain ⟨o, ho, hd⟩ := hw hwrites
      exact ⟨o, ho, hd.later hg⟩

lemma sound_elim_object (r : Option ObjectRef) : h.Sound (r.elim .null .object) := by
  cases r with
  | none => exact .null
  | some r => exact .object r

lemma sound_characters (s : String) : ∀ v ∈ Value.characters s, h.Sound v := by
  intro v hv
  obtain ⟨c, -, rfl⟩ := List.mem_map.mp hv
  exact .text _

lemma Sound.items {items : List Value} (hv : h.Sound (.tuple items)) : ∀ v ∈ items, h.Sound v := by
  cases hv with
  | tuple hitems => exact hitems

end Heap

lemma Class.WellMade.later {h h' : Heap} {r : ClassRef} {c : Class} (hg : h.Grows h')
    (hc : c.WellMade h r) : c.WellMade h' r :=
  { hc with
    methods := fun b hb n hn => (hc.methods b hb n hn).imp fun _ hf => ⟨hg.native? hf.1, hf.2⟩
    init := fun n hn => (hc.init n hn).imp fun _ hf => ⟨hg.native? hf.1, hf.2⟩ }

/-- The classes of parents do not change. -/
lemma Heap.Grows.parent {h h' : Heap} (hg : h.Grows h') {parent : Option ObjectRef}
    {superclass : Option ClassRef} (hp : parent.map h.classOfObject? = superclass.map some) :
    parent.map h'.classOfObject? = superclass.map some := by
  cases parent with
  | none => exact hp
  | some p =>
      obtain ⟨c, rfl, hc⟩ := Option.map_eq_some_iff.mp hp.symm
      exact congrArg some (hg.classOfObject? hc.symm)

lemma Instance.WellMade.later {h h' : Heap} {r : ObjectRef} {o : Instance} (hg : h.Grows h')
    (ho : o.WellMade h r) : o.WellMade h' r where
  older := ho.older
  shape := by
    obtain ⟨c, hc, hparent, hslots⟩ := ho.shape
    exact ⟨c, hg.class? hc, hg.parent hparent, hslots⟩
  slots b hb := (ho.slots b hb).later hg

namespace Entries.WellMade

variable {h h' : Heap} {m : Entries} {k v : Value}

lemma nil : Entries.WellMade h [] := ⟨.nil, List.Pairwise.nil⟩

lemma later (hg : h.Grows h') (hm : m.WellMade h) : m.WellMade h' :=
  ⟨hm.sound.mono (.later hg), hm.apart⟩

lemma insert (hm : m.WellMade h) (hk : h.Sound k) (hv : h.Sound v) : (m.insert k v).WellMade h :=
  ⟨hm.sound.insert hk hv, hm.apart.insert k v⟩

lemma erase (hm : m.WellMade h) (k : Value) : (m.erase k).WellMade h :=
  ⟨hm.sound.erase, hm.apart.erase k⟩

end Entries.WellMade

namespace Heap.WellMade

variable {h h' : Heap}

/-- A heap stays well made if every cell of it was there before or is well made. -/
lemma grow (hw : h.WellMade) (hg : h.Grows h')
    (hclasses : ∀ {r c}, h'.class? r = some c → h.class? r = some c ∨ c.WellMade h' r)
    (hobjects : ∀ {r o}, h'.object? r = some o → h.object? r = some o ∨ o.WellMade h' r)
    (hlists : ∀ vs ∈ h'.lists, vs ∈ h.lists ∨ ∀ v ∈ vs, h'.Sound v)
    (hmaps : ∀ m ∈ h'.maps, m ∈ h.maps ∨ m.WellMade h')
    (hfunctions : ∀ f ∈ h'.functions, f ∈ h.functions ∨
      ∀ p ∈ f.receiver, h'.Sound p.1 ∧ h'.Sound p.2) : h'.WellMade where
  library := hw.library.trans hg
  classes hc := (hclasses hc).elim (fun hc => (hw.classes hc).later hg) id
  objects ho := (hobjects ho).elim (fun ho => (hw.objects ho).later hg) id
  lists vs hvs := (hlists vs hvs).elim (fun hvs v hv => (hw.lists vs hvs v hv).later hg) id
  maps m hm := (hmaps m hm).elim (fun hm => (hw.maps m hm).later hg) id
  functions f hf := (hfunctions f hf).elim
    (fun hf p hp => (hw.functions f hf p hp).imp (.later hg) (.later hg)) id

/-! ### What is read off a heap -/

lemma items (hw : h.WellMade) (r : ListRef) : ∀ v ∈ h.items r, h.Sound v := by
  rw [Heap.items]
  cases hvs : h.lists[r.index]? with
  | none => simp
  | some vs => exact hw.lists vs (Array.mem_of_getElem? hvs)

lemma entries (hw : h.WellMade) (r : MapRef) : (h.entries r).Hold h.Sound := by
  rw [Heap.entries]
  cases hm : h.maps[r.index]? with
  | none => exact .nil
  | some m => exact (hw.maps m (Array.mem_of_getElem? hm)).sound

/-- The keys of every map are apart. -/
lemma keysApart (hw : h.WellMade) : h.KeysApart := fun m hm => (hw.maps m hm).apart

/-- What a slot holds is sound, and so is null in its place. -/
lemma slot (hw : h.WellMade) (r : ObjectRef) (name : String) :
    h.Sound ((h.slot? r name).getD .null) := by
  cases hv : h.slot? r name with
  | none => exact .null
  | some v =>
      obtain ⟨o, ho, hslot⟩ := Option.bind_eq_some_iff.mp hv
      exact (hw.objects ho).slots _ (Bindings.mem_of_find? hslot)

lemma superclass (hw : h.WellMade) {r p : ClassRef} {c : Class} (hc : h.class? r = some c)
    (hp : c.superclass = some p) : (h.class? p).isSome = true := by
  have hr : r.index < h.classes.size := (Array.getElem?_eq_some_iff.mp hc).1
  have hlt : p.index < r.index := (hw.classes hc).older p hp
  have hin : p.index < h.classes.size := by omega
  simp [Heap.class?, hin]

/-- The class that answers for a value is there. -/
lemma classOf (hw : h.WellMade) (v : Value) : (h.class? (h.classOf v)).isSome = true := by
  have hlibrary : ∀ ref, (Library.heap.class? ref).isSome = true →
      (h.class? ref).isSome = true := by
    intro ref href
    obtain ⟨c, hc⟩ := Option.isSome_iff_exists.mp href
    rw [hw.library.class? hc]
    rfl
  cases v with
  | object r =>
      cases ho : h.object? r with
      | none =>
          have hclass : h.classOf (.object r) = BuiltinClass.null.ref := by
            simp [Heap.classOf, classOfObject?, ho]
          rw [hclass]
          exact hlibrary _ rfl
      | some o =>
          have hclass : h.classOf (.object r) = o.ofClass := by
            simp [Heap.classOf, classOfObject?, ho]
          obtain ⟨c, hc, -⟩ := (hw.objects ho).shape
          rw [hclass, hc]
          rfl
  | _ => exact hlibrary _ rfl

/-- The classes that answer for values that are no objects have no messages. -/
lemma hasSlot_classOf (hw : h.WellMade) {v : Value} (hv : ∀ r, v ≠ .object r) {c : Class}
    (hc : h.class? (h.classOf v) = some c) : c.hasSlot messageSlot = false := by
  have hlibrary : ∀ ref, (Library.heap.class? ref).map (·.hasSlot messageSlot) = some false →
      h.class? ref = some c → c.hasSlot messageSlot = false := by
    intro ref href hc
    obtain ⟨c', hc', hslot⟩ := Option.map_eq_some_iff.mp href
    rw [hw.library.class? hc'] at hc
    rwa [← Option.some.inj hc]
  cases v with
  | object r => exact absurd rfl (hv r)
  | _ => exact hlibrary _ rfl hc

/-! ### What changes leave -/

/-- The changes that touch neither classes nor objects. -/
lemma of_values (hw : h.WellMade) (hg : h.Grows h') (hc : h'.classes = h.classes)
    (ho : h'.objects = h.objects) (hlists : ∀ vs ∈ h'.lists, ∀ v ∈ vs, h.Sound v)
    (hmaps : ∀ m ∈ h'.maps, m.WellMade h)
    (hfunctions : ∀ f ∈ h'.functions, ∀ p ∈ f.receiver, h.Sound p.1 ∧ h.Sound p.2) :
    h'.WellMade := by
  refine hw.grow hg (fun hr => .inl ?_) (fun hr => .inl ?_)
    (fun vs hvs => .inr fun v hv => (hlists vs hvs v hv).later hg)
    (fun m hm => .inr ((hmaps m hm).later hg))
    fun f hf => .inr fun p hp => (hfunctions f hf p hp).imp (.later hg) (.later hg)
  · rwa [Heap.class?, ← hc]
  · rwa [Heap.object?, ← ho]

lemma addList (hw : h.WellMade) {vs : Array Value} (hvs : ∀ v ∈ vs, h.Sound v) :
    (h.addList vs).2.WellMade :=
  hw.of_values (h.grows_addList vs) rfl rfl (forall_mem_push hw.lists hvs) hw.maps hw.functions

lemma addMap (hw : h.WellMade) {m : Entries} (hm : m.WellMade h) : (h.addMap m).2.WellMade :=
  hw.of_values (h.grows_addMap m) rfl rfl hw.lists (forall_mem_push hw.maps hm) hw.functions

lemma addFunction (hw : h.WellMade) {f : Closure}
    (hf : ∀ p ∈ f.receiver, h.Sound p.1 ∧ h.Sound p.2) : (h.addFunction f).2.WellMade :=
  hw.of_values (h.grows_addFunction f) rfl rfl hw.lists hw.maps (forall_mem_push hw.functions hf)

lemma addNative (hw : h.WellMade) (f : Native) : (h.addNative f).2.WellMade :=
  hw.of_values (h.grows_addNative f) rfl rfl hw.lists hw.maps hw.functions

lemma modifyList (hw : h.WellMade) {f : Array Value → Array Value}
    (hf : ∀ vs, (∀ v ∈ vs, h.Sound v) → ∀ v ∈ f vs, h.Sound v) (r : ListRef) :
    (h.modifyList r f).WellMade :=
  hw.of_values (h.grows_modifyList r f) rfl rfl (forall_mem_modify hw.lists hf r.index) hw.maps
    hw.functions

lemma modifyMap (hw : h.WellMade) {f : Entries → Entries}
    (hf : ∀ m : Entries, m.WellMade h → (f m).WellMade h) (r : MapRef) :
    (h.modifyMap r f).WellMade :=
  hw.of_values (h.grows_modifyMap r f) rfl rfl hw.lists (forall_mem_modify hw.maps hf r.index)
    hw.functions

/-- A new class is younger than all others. -/
lemma addClass (hw : h.WellMade) {c : Class} (hc : c.WellMade h (h.addClass c).1) :
    (h.addClass c).2.WellMade := by
  have hg := h.grows_addClass c
  refine hw.grow hg (fun {r c'} hr => ?_) .inl (fun _ => .inl) (fun _ => .inl) (fun _ => .inl)
  obtain ⟨i⟩ := r
  rw [Heap.class?, Heap.addClass, Array.getElem?_push] at hr
  split at hr
  · rename_i hi
    cases hr
    subst hi
    exact .inr (hc.later hg)
  · exact .inl hr

/-- A new object has no slots yet. -/
lemma addObject (hw : h.WellMade) {ref : ClassRef} {c : Class} (hc : h.class? ref = some c)
    {parent : Option ObjectRef} (hp : parent.map h.classOfObject? = c.superclass.map some) :
    (h.addObject ⟨ref, parent, []⟩).2.WellMade := by
  have hg := h.grows_addObject ⟨ref, parent, []⟩
  have holder : ∀ p ∈ parent, p.index < h.objects.size := by
    rintro p rfl
    obtain ⟨ref', -, hclass⟩ := Option.map_eq_some_iff.mp hp.symm
    obtain ⟨o, ho, -⟩ := Option.map_eq_some_iff.mp hclass.symm
    exact (Array.getElem?_eq_some_iff.mp ho).1
  refine hw.grow hg .inl (fun {r o} hr => ?_) (fun _ => .inl) (fun _ => .inl) (fun _ => .inl)
  obtain ⟨i⟩ := r
  rw [Heap.object?, Heap.addObject, Array.getElem?_push] at hr
  split at hr
  · rename_i hi
    cases hr
    subst hi
    exact .inr ⟨holder, ⟨c, hg.class? hc, hg.parent hp, List.forall_mem_nil _⟩,
      List.forall_mem_nil _⟩
  · exact .inl hr

/-- A declared slot may be written. -/
lemma setSlot (hw : h.WellMade) {r : ObjectRef} {name : String} (hd : h.Declares r name)
    {v : Value} (hv : h.Sound v) : (h.setSlot r name v).WellMade := by
  have hg := h.grows_setSlot r name v
  refine hw.grow hg .inl (fun {r' o'} hr => ?_) (fun _ => .inl) (fun _ => .inl) (fun _ => .inl)
  rw [object?_setSlot] at hr
  split at hr
  · rename_i heq
    subst heq
    obtain ⟨o, ho, rfl⟩ := Option.map_eq_some_iff.mp hr
    have hmade := (hw.objects ho).later hg
    obtain ⟨c, hc, hparent, hslots⟩ := hmade.shape
    obtain ⟨c', hc', hslot⟩ := hd
    rw [classOfObject?, ho] at hc'
    obtain rfl : c' = c := Option.some.inj (hc'.symm.trans hc)
    refine .inr ⟨hmade.older, ⟨c', hc, hparent, fun b hb => ?_⟩,
      Bindings.forall_put hmade.slots (hv.later hg)⟩
    obtain rfl | hb := Bindings.mem_put hb
    · exact hslot
    · exact hslots b hb
  · exact .inl hr

end Heap.WellMade

/-! ### Classes with native members -/

instance (h : Heap) (r : ClassRef) (c : Class) : Decidable (c.WellMade h r) :=
  decidable_of_iff ((∀ p ∈ c.superclass, p.index < r.index) ∧ c.fields.names.Nodup ∧
      (∀ b ∈ c.methods, ∀ n ∈ b.2.native?, ∃ f ∈ h.native? n,
        f.writes = true → c.hasSlot messageSlot = true) ∧
      ∀ n ∈ c.init, ∃ f ∈ h.native? n, f.writes = false)
    ⟨fun hc => ⟨hc.1, hc.2.1, hc.2.2.1, hc.2.2.2⟩,
      fun hc => ⟨hc.older, hc.fields, hc.methods, hc.init⟩⟩

/-- The heap of the library is well made. -/
lemma Library.wellMade_heap : Library.heap.WellMade where
  library := .refl _
  classes {r c} hc := by
    have hall : ∀ i : Fin Library.heap.classes.size,
        Library.heap.classes[i].WellMade Library.heap ⟨i⟩ := by decide +kernel
    obtain ⟨hi, rfl⟩ := Array.getElem?_eq_some_iff.mp hc
    exact hall ⟨r.index, hi⟩
  objects {r o} ho := by
    have hnone : Library.heap.objects = #[] := rfl
    simp [Heap.object?, hnone] at ho
  lists := by
    have hnone : Library.heap.lists = #[] := rfl
    simp [hnone]
  maps := by
    have hnone : Library.heap.maps = #[] := rfl
    simp [hnone]
  functions := by
    have hnone : Library.heap.functions = #[] := rfl
    simp [hnone]

namespace Heap

variable {h : Heap}

/-- Overloads none of which is the constructor of exceptions. -/
def Harmless (overloads : List (Arity × Primitive)) : Prop :=
  ∀ o ∈ overloads, o.2 ≠ .initException

lemma Harmless.writes {overloads : List (Arity × Primitive)} (ho : Harmless overloads)
    (name : String) : Native.writes ⟨name, overloads⟩ = false := by
  simpa [Native.writes, Harmless] using ho

lemma harmless_overloads {natives : List (String × Arity × Primitive)}
    (hn : ∀ n ∈ natives, n.2.2 ≠ .initException) : ∀ e ∈ overloads natives, Harmless e.2 := by
  have hfold : ∀ table : Bindings (List (Arity × Primitive)), (∀ e ∈ table, Harmless e.2) →
      ∀ e ∈ natives.foldl (fun table n =>
        table.put n.1 ((table.find? n.1).getD [] ++ [n.2])) table, Harmless e.2 := by
    induction natives with
    | nil => exact fun _ htable => htable
    | cons n rest ih =>
        intro table htable
        obtain ⟨hfirst, hrest⟩ := List.forall_mem_cons.mp hn
        refine ih hrest _ (Bindings.forall_put htable fun o ho => ?_)
        obtain ho | ho := List.mem_append.mp ho
        · cases hfind : table.find? n.1 with
          | none =>
              rw [hfind] at ho
              cases ho
          | some old =>
              rw [hfind] at ho
              exact htable _ (Bindings.mem_of_find? hfind) o ho
        · rw [List.mem_singleton.mp ho]
          exact hfirst
  exact hfold [] (List.forall_mem_nil _)

/-- The functions of a class without the constructor of exceptions. -/
lemma WellMade.addMethods (className : String) {table : Bindings (List (Arity × Primitive))}
    (ht : ∀ e ∈ table, Harmless e.2) (hw : h.WellMade) :
    let made := h.addMethods className table
    h.Grows made.2 ∧ made.2.WellMade ∧ made.2.classes = h.classes ∧
      ∀ b ∈ made.1, ∀ n ∈ b.2.native?, ∃ f ∈ made.2.native? n, f.writes = false := by
  induction table generalizing h with
  | nil => exact ⟨.refl h, hw, rfl, List.forall_mem_nil _⟩
  | cons entry rest ih =>
      obtain ⟨name, overloads⟩ := entry
      obtain ⟨hfirst, hrest⟩ := List.forall_mem_cons.mp ht
      let f : Native := ⟨className ++ "." ++ name, overloads⟩
      obtain ⟨hg, hmade, hclasses, hmethods⟩ := ih hrest (hw.addNative f)
      have hnew : (h.addNative f).2.native? (h.addNative f).1 = some f := by
        simp [Heap.native?, Heap.addNative]
      refine ⟨(h.grows_addNative f).trans hg, hmade, hclasses,
        List.forall_mem_cons.mpr ⟨?_, hmethods⟩⟩
      rintro n hn
      cases hn
      exact ⟨f, hg.native? hnew, hfirst.writes _⟩

/-- The constructor of a class, if it has one. -/
lemma WellMade.addInit (className : String) {overloads : List (Arity × Primitive)}
    (ho : Harmless overloads) (hw : h.WellMade) :
    let made := h.addInit className overloads
    h.Grows made.2 ∧ made.2.WellMade ∧ made.2.classes = h.classes ∧
      ∀ n ∈ made.1, ∃ f ∈ made.2.native? n, f.writes = false := by
  cases overloads with
  | nil => exact ⟨.refl h, hw, rfl, fun n hn => by cases hn⟩
  | cons first rest =>
      let f : Native := ⟨className ++ ".init", first :: rest⟩
      refine ⟨h.grows_addNative f, hw.addNative f, rfl, fun n hn => ?_⟩
      cases hn
      exact ⟨f, by simp [Heap.native?, Heap.addInit, Heap.addNative, f], ho.writes _⟩

/-- A class with native members, none of which is the constructor of exceptions. -/
lemma WellMade.build (hw : h.WellMade) {b : Blueprint} (hinit : Harmless b.init)
    (hnatives : ∀ n ∈ b.natives, n.2.2 ≠ .initException)
    (hsuper : ∀ p ∈ b.superclass, (h.class? p).isSome = true) :
    h.Grows (h.build b).2 ∧ (h.build b).2.WellMade ∧
      ((h.build b).2.class? (h.build b).1).isSome = true := by
  obtain ⟨hg₁, hw₁, hc₁, hmethods⟩ := hw.addMethods b.name (harmless_overloads hnatives)
  obtain ⟨hg₂, hw₂, hc₂, hinits⟩ := hw₁.addInit b.name hinit
  have hfields : ∀ table : Bindings Field, table.names.Nodup →
      (b.fields.foldl (fun table f => table.put f.1 f.2) table).names.Nodup := by
    induction b.fields with
    | nil => exact fun _ htable => htable
    | cons f rest ih => exact fun table htable => ih _ (Bindings.nodup_put htable f.1 f.2)
  refine ⟨(hg₁.trans hg₂).trans (grows_addClass _ _), hw₂.addClass ⟨?_, hfields [] List.nodup_nil,
    fun e he n hn => ?_, hinits⟩, ?_⟩
  · intro p hp
    obtain ⟨c, hc⟩ := Option.isSome_iff_exists.mp (hsuper p hp)
    have hlt : p.index < h.classes.size := (Array.getElem?_eq_some_iff.mp hc).1
    rwa [← hc₁, ← hc₂] at hlt
  · obtain ⟨f, hf, hwrites⟩ := hmethods e he n hn
    exact ⟨f, hg₂.native? hf, fun htrue => absurd htrue (by simp [hwrites])⟩
  · simp [Heap.build, Heap.class?, Heap.addClass]

end Heap

end Tern
