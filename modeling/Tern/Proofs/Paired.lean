/-
Sessions that go together. Two runs of trees that are alike lead through sessions that differ in
tokens, places and traces only, as long as nothing in them can tell where the program stands. Only
one native function can, so the sessions that are looked at hold it nowhere.

* `Heap.quiet`: a value through which no native function is reached that tells where the program
  stands; `Session.isQuiet`: there are only such values in a session.
* `Heap.Paired`, `Session.Paired`: heaps and sessions that differ in tokens, places and traces
  only and are quiet. The heap at the start is a parameter; its classes and functions are in both.
* `Heap.Paired.display`, `Heap.Paired.equal`, `Heap.Paired.class?` and the like: what is read off
  heaps that go together.
* `Heap.Paired.addList`, `Environment.Paired.put` and the like: what single changes leave.
* `Session.Paired.bare`: such sessions have the same bare session.
-/
import Tern.Proofs.Bare
import Tern.Proofs.Contents
import Tern.Proofs.Growth

namespace Tern

/-! ### Quiet values -/

/-- Whether a native function tells where the program stands. -/
def Native.tells (f : Native) : Bool := f.overloads.any (·.2 = .stacktrace)

/-- Whether the native function of a cell tells where the program stands. -/
def Heap.tells (h : Heap) (r : NativeRef) : Bool := (h.native? r).any (·.tells)

mutual

/-- Whether a value neither is nor holds a native function that tells where the program stands. -/
def Heap.quiet (h : Heap) : Value → Bool
  | .native r => !h.tells r
  | .bound r receiver => !h.tells r && h.quiet receiver
  | .tuple items => h.quietAll items
  | .null | .bool _ | .number _ | .text _ | .list _ | .map _ | .object _ | .classOf _
  | .function _ => true

/-- Whether all of some values are quiet. -/
def Heap.quietAll (h : Heap) : List Value → Bool
  | [] => true
  | v :: rest => h.quiet v && h.quietAll rest

end

/-- Whether a function of a class is quiet. -/
def Method.isQuiet (h : Heap) : Method → Bool
  | .user _ => true
  | .native r => !h.tells r

/-- Whether the native functions of a class are quiet. -/
def Class.isQuiet (h : Heap) (c : Class) : Bool :=
  c.methods.all (·.2.isQuiet h) && c.init.all (!h.tells ·)

/-- Whether a function was read off quiet values, if off any. -/
def Closure.isQuiet (h : Heap) (f : Closure) : Bool :=
  f.receiver.all fun r => h.quiet r.1 && h.quiet r.2

/-- Whether all values in the cells of a heap are quiet. -/
def Heap.isQuiet (h : Heap) : Bool :=
  h.lists.all (·.all h.quiet) && h.maps.all (·.all fun e => h.quiet e.1 && h.quiet e.2) &&
    h.objects.all (·.slots.all fun b => h.quiet b.2) && h.classes.all (·.isQuiet h) &&
    h.functions.all (·.isQuiet h)

/-- Whether no cell of a session and no name in a frame leads to a native function that tells where
the program stands. -/
def Session.isQuiet (s : Session) : Bool :=
  s.heap.isQuiet && s.env.frames.all (·.vars.all fun b => s.heap.quiet b.2)

namespace Heap

variable {h₀ : Heap}

lemma quietAll_iff {vs : List Value} : h₀.quietAll vs = true ↔ ∀ v ∈ vs, h₀.quiet v := by
  induction vs with
  | nil => simp [quietAll]
  | cons v vs ih => simp [quietAll, ih]

@[simp]
lemma quiet_tuple {vs : List Value} : h₀.quiet (.tuple vs) = true ↔ ∀ v ∈ vs, h₀.quiet v := by
  rw [quiet, quietAll_iff]

@[simp]
lemma quiet_native {r : NativeRef} : h₀.quiet (.native r) = true ↔ h₀.tells r = false := by
  rw [quiet, Bool.not_eq_true']

@[simp]
lemma quiet_bound {r : NativeRef} {v : Value} :
    h₀.quiet (.bound r v) = true ↔ h₀.tells r = false ∧ h₀.quiet v := by
  rw [quiet, Bool.and_eq_true, Bool.not_eq_true']

/-- The characters of a text are quiet. -/
lemma quiet_characters {s : String} : ∀ v ∈ Value.characters s, h₀.quiet v := by
  intro v hv
  obtain ⟨c, _, rfl⟩ := List.mem_map.mp hv
  rfl

end Heap

/-! ### Quiet tables -/

/-- All keys and values of a map are quiet. -/
def Entries.Quiet (h₀ : Heap) (m : Entries) : Prop := ∀ e ∈ m, h₀.quiet e.1 ∧ h₀.quiet e.2

namespace Entries.Quiet

variable {h₀ : Heap} {m : Entries}

lemma find? (hm : Quiet h₀ m) {key v : Value} (h : m.find? key = some v) : h₀.quiet v :=
  Hold.find? (P := fun v => h₀.quiet v) hm h

lemma insert (hm : Quiet h₀ m) {key v : Value} (hk : h₀.quiet key) (hv : h₀.quiet v) :
    Quiet h₀ (m.insert key v) :=
  Hold.insert (P := fun v => h₀.quiet v) hm hk hv

lemma erase (hm : Quiet h₀ m) {key : Value} : Quiet h₀ (m.erase key) :=
  Hold.erase (P := fun v => h₀.quiet v) hm

end Entries.Quiet

/-! ### Tables and options that go together -/

/-- The same places hold items of a kind, or nothing. -/
lemma optionRel_getElem? {α β : Type} {R : α → β → Prop} {as : List α} {bs : List β}
    (h : as.Forall₂ R bs) (i : Nat) : Option.Rel R as[i]? bs[i]? := by
  induction h generalizing i with
  | nil => exact .none
  | cons hab _ ih =>
      cases i with
      | zero => exact .some hab
      | succ i => exact ih i

/-- Options that go together are both empty or both have values. -/
lemma optionRel_cases {α β : Type} {R : α → β → Prop} {o : Option α} {o' : Option β}
    (h : Option.Rel R o o') :
    (o = none ∧ o' = none) ∨ ∃ a b, o = some a ∧ o' = some b ∧ R a b := by
  cases h with
  | none => exact .inl ⟨rfl, rfl⟩
  | some hab => exact .inr ⟨_, _, rfl, rfl, hab⟩

/-- What two options that go together are mapped to is the same, if it is for their values. -/
lemma map_eq_of_optionRel {α β γ : Type} {R : α → β → Prop} {o : Option α} {o' : Option β}
    {f : α → γ} {g : β → γ} (h : Option.Rel R o o') (hfg : ∀ {a b}, R a b → g b = f a) :
    o'.map g = o.map f := by
  cases h with
  | none => rfl
  | some hab => exact congrArg some (hfg hab)

/-- Tables with the same names in the same order, and with values that go together. -/
def Bindings.Paired {α : Type} (R : α → α → Prop) (b b' : Bindings α) : Prop :=
  b.Forall₂ (fun x y => y.1 = x.1 ∧ R x.2 y.2) b'

namespace Bindings.Paired

variable {α : Type} {R : α → α → Prop} {b b' : Bindings α}

lemma find? (h : Bindings.Paired R b b') (name : String) :
    Option.Rel R (b.find? name) (b'.find? name) := by
  induction h with
  | nil => exact .none
  | @cons x y _ _ hxy _ ih =>
      obtain ⟨key, v⟩ := x
      obtain ⟨key', w⟩ := y
      obtain ⟨rfl, hvw⟩ := hxy
      rw [Bindings.find?, Bindings.find?]
      split
      · exact .some hvw
      · exact ih

lemma has (h : Bindings.Paired R b b') (name : String) : b'.has name = b.has name := by
  obtain ⟨hb, hb'⟩ | ⟨v, w, hb, hb', _⟩ := optionRel_cases (h.find? name)
  · rw [Bindings.has, Bindings.has, hb, hb']
  · rw [Bindings.has, Bindings.has, hb, hb']
    rfl

lemma put (h : Bindings.Paired R b b') (name : String) {v w : α} (hvw : R v w) :
    Bindings.Paired R (b.put name v) (b'.put name w) := by
  induction h with
  | nil => exact .cons ⟨rfl, hvw⟩ .nil
  | @cons x y _ _ hxy hrest ih =>
      obtain ⟨key, old⟩ := x
      obtain ⟨key', old'⟩ := y
      obtain ⟨rfl, hold⟩ := hxy
      rw [Bindings.put, Bindings.put]
      split
      · exact .cons ⟨rfl, hvw⟩ hrest
      · exact .cons ⟨rfl, hold⟩ ih

end Bindings.Paired

/-! ### Classes and functions that go together -/

/-- Functions that differ in the tokens of their bodies at most. -/
structure FunctionDef.Like (f f' : FunctionDef) : Prop where
  name : f'.name = f.name
  params : f'.params = f.params
  body : f.body.Like f'.body

/-- Functions of a class that go together. -/
inductive Method.Paired (h₀ : Heap) : Method → Method → Prop
  | user {f f' : FunctionDef} (h : f.Like f') : Paired h₀ (.user f) (.user f')
  | native (r : NativeRef) (h : h₀.tells r = false) : Paired h₀ (.native r) (.native r)

/-- Fields that differ in the tokens of their defaults at most. -/
inductive Field.Like : Field → Field → Prop
  | slot {e e' : Option Expr} (h : Option.Rel Expr.Like e e') : Like (.slot e) (.slot e')
  | computed (getter : Getter) : Like (.computed getter) (.computed getter)

/-- Classes that go together. -/
structure Class.Paired (h₀ : Heap) (c c' : Class) : Prop where
  name : c'.name = c.name
  methods : c.methods.Paired (Method.Paired h₀) c'.methods
  fields : c.fields.Paired Field.Like c'.fields
  superclass : c'.superclass = c.superclass
  synthetic : c'.synthetic = c.synthetic
  init : c'.init = c.init
  quiet : ∀ r ∈ c.init, h₀.tells r = false

/-- Function cells that go together. -/
structure Closure.Paired (h₀ : Heap) (f f' : Closure) : Prop where
  code : f.code.Like f'.code
  receiver : f'.receiver = f.receiver
  quiet : ∀ r ∈ f.receiver, h₀.quiet r.1 ∧ h₀.quiet r.2

/-! ### Heaps that go together -/

/-- Heaps that differ in the tokens inside their classes and functions at most, hold quiet values
only, and still have the classes and functions of the heap at the start. -/
structure Heap.Paired (h₀ h h' : Heap) : Prop where
  lists : h'.lists = h.lists
  maps : h'.maps = h.maps
  objects : h'.objects = h.objects
  natives : h'.natives = h.natives
  classes : h.classes.toList.Forall₂ (Class.Paired h₀) h'.classes.toList
  functions : h.functions.toList.Forall₂ (Closure.Paired h₀) h'.functions.toList
  quietLists : ∀ items ∈ h.lists, ∀ v ∈ items, h₀.quiet v
  quietMaps : ∀ m ∈ h.maps, Entries.Quiet h₀ m
  quietObjects : ∀ o ∈ h.objects, ∀ b ∈ o.slots, h₀.quiet b.2
  tells : h.natives = h₀.natives
  oldClass : ∀ {r c}, h₀.class? r = some c → h.class? r = some c ∧ h'.class? r = some c
  oldFunction : ∀ {r f}, h₀.function? r = some f →
    h.function? r = some f ∧ h'.function? r = some f

namespace Heap.Paired

variable {h₀ h h' : Heap}

/-! ### Reading -/

lemma items (hp : Paired h₀ h h') (r : ListRef) : h'.items r = h.items r := by
  rw [Heap.items, Heap.items, hp.lists]

lemma quiet_items (hp : Paired h₀ h h') (r : ListRef) : ∀ v ∈ h.items r, h₀.quiet v := by
  rw [Heap.items]
  cases hr : h.lists[r.index]? with
  | none => simp
  | some items => exact hp.quietLists items (Array.mem_of_getElem? hr)

lemma entries (hp : Paired h₀ h h') (r : MapRef) : h'.entries r = h.entries r := by
  rw [Heap.entries, Heap.entries, hp.maps]

lemma quiet_entries (hp : Paired h₀ h h') (r : MapRef) : Entries.Quiet h₀ (h.entries r) := by
  rw [Heap.entries]
  cases hr : h.maps[r.index]? with
  | none => exact List.forall_mem_nil _
  | some m => exact hp.quietMaps m (Array.mem_of_getElem? hr)

lemma object? (hp : Paired h₀ h h') (r : ObjectRef) : h'.object? r = h.object? r := by
  rw [Heap.object?, Heap.object?, hp.objects]

lemma slot? (hp : Paired h₀ h h') (r : ObjectRef) (name : String) :
    h'.slot? r name = h.slot? r name := by
  rw [Heap.slot?, Heap.slot?, hp.object?]

/-- What a slot holds is quiet, and so is null in its place. -/
lemma quiet_slot (hp : Paired h₀ h h') (r : ObjectRef) (name : String) :
    h₀.quiet ((h.slot? r name).getD .null) := by
  cases hv : h.slot? r name with
  | none => rfl
  | some v =>
      obtain ⟨o, ho, hslot⟩ := Option.bind_eq_some_iff.mp hv
      have hmem := Bindings.mem_of_find? hslot
      exact hp.quietObjects o (Array.mem_of_getElem? ho) (name, v) hmem

lemma native? (hp : Paired h₀ h h') (r : NativeRef) : h'.native? r = h.native? r := by
  rw [Heap.native?, Heap.native?, hp.natives]

/-- A native function whose cell does not tell where the program stands does not. -/
lemma not_tells (hp : Paired h₀ h h') {r : NativeRef} {f : Native} (hr : h₀.tells r = false)
    (hf : h.native? r = some f) : f.tells = false := by
  rw [Heap.native?, hp.tells] at hf
  rwa [Heap.tells, Heap.native?, hf] at hr

lemma class? (hp : Paired h₀ h h') (r : ClassRef) :
    Option.Rel (Class.Paired h₀) (h.class? r) (h'.class? r) := by
  have hrel := optionRel_getElem? hp.classes r.index
  rwa [Array.getElem?_toList, Array.getElem?_toList] at hrel

lemma function? (hp : Paired h₀ h h') (r : FunctionRef) :
    Option.Rel (Closure.Paired h₀) (h.function? r) (h'.function? r) := by
  have hrel := optionRel_getElem? hp.functions r.index
  rwa [Array.getElem?_toList, Array.getElem?_toList] at hrel

lemma className (hp : Paired h₀ h h') (r : ClassRef) : h'.className r = h.className r := by
  rw [Heap.className, Heap.className, map_eq_of_optionRel (hp.class? r) (·.name)]

lemma superclass? (hp : Paired h₀ h h') (r : ClassRef) :
    (h'.class? r).bind (·.superclass) = (h.class? r).bind (·.superclass) := by
  obtain ⟨hc, hc'⟩ | ⟨c, c', hc, hc', hcc⟩ := optionRel_cases (hp.class? r)
  · rw [hc, hc']
  · rw [hc, hc']
    exact hcc.superclass

lemma classOfObject? (hp : Paired h₀ h h') (r : ObjectRef) :
    h'.classOfObject? r = h.classOfObject? r := by
  rw [Heap.classOfObject?, Heap.classOfObject?, hp.object?]

lemma objectClassName (hp : Paired h₀ h h') (r : ObjectRef) :
    h'.objectClassName r = h.objectClassName r := by
  rw [Heap.objectClassName, Heap.objectClassName, hp.classOfObject?,
    funext fun c => hp.className c]

lemma functionName (hp : Paired h₀ h h') (r : FunctionRef) :
    h'.functionName r = h.functionName r := by
  rw [Heap.functionName, Heap.functionName,
    map_eq_of_optionRel (hp.function? r) (·.code.name)]

lemma nativeName (hp : Paired h₀ h h') (r : NativeRef) : h'.nativeName r = h.nativeName r := by
  rw [Heap.nativeName, Heap.nativeName, hp.native?]

lemma lineageUpTo (hp : Paired h₀ h h') (fuel : Nat) (r : ClassRef) :
    h'.lineageUpTo fuel r = h.lineageUpTo fuel r := by
  induction fuel generalizing r with
  | zero => rfl
  | succ fuel ih =>
      rw [Heap.lineageUpTo, Heap.lineageUpTo]
      obtain ⟨hc, hc'⟩ | ⟨c, c', hc, hc', hcc⟩ := optionRel_cases (hp.class? r)
      · rw [hc, hc']
      · simp only [hc, hc', hcc.superclass, ih]

lemma lineage (hp : Paired h₀ h h') (r : ClassRef) : h'.lineage r = h.lineage r := by
  have hsize : h'.classes.size = h.classes.size := hp.classes.length_eq.symm
  rw [Heap.lineage, Heap.lineage, hsize, hp.lineageUpTo]

lemma delegatesUpTo (hp : Paired h₀ h h') (fuel : Nat) (r : ObjectRef) :
    h'.delegatesUpTo fuel r = h.delegatesUpTo fuel r := by
  induction fuel generalizing r with
  | zero => rfl
  | succ fuel ih => simp only [Heap.delegatesUpTo, hp.object?, ih]

lemma delegates (hp : Paired h₀ h h') (r : ObjectRef) : h'.delegates r = h.delegates r := by
  rw [Heap.delegates, Heap.delegates, hp.objects, hp.delegatesUpTo]

lemma classOf (hp : Paired h₀ h h') (v : Value) : h'.classOf v = h.classOf v := by
  cases v with
  | object r => exact congrArg (·.getD BuiltinClass.null.ref) (hp.classOfObject? r)
  | _ => rfl

lemma isInstance (hp : Paired h₀ h h') (v : Value) (c : ClassRef) :
    h'.isInstance v c = h.isInstance v c := by
  rw [Heap.isInstance, Heap.isInstance, Heap.inherits, Heap.inherits, hp.classOf, hp.lineage]

lemma subject (hp : Paired h₀ h h') (v : Value) : h'.subject v = h.subject v := by
  cases v with
  | object r => exact congrArg Subject.instanceOf (hp.objectClassName r)
  | classOf r => exact congrArg Subject.theClass (hp.className r)
  | _ => rfl

mutual

theorem showIn (hp : Paired h₀ h h') (free : Nat) (seen : List Container) (v : Value) :
    h'.showIn free seen v = h.showIn free seen v := by
  cases v with
  | tuple vs => rw [Heap.showIn, Heap.showIn, showItems hp free seen vs]
  | list r =>
      cases free with
      | zero => rw [Heap.showIn, Heap.showIn]
      | succ free =>
          rw [Heap.showIn, Heap.showIn, hp.items, showItems hp free (.list r :: seen) _]
  | map r =>
      cases free with
      | zero => rw [Heap.showIn, Heap.showIn]
      | succ free =>
          rw [Heap.showIn, Heap.showIn]
          simp only [hp.entries, showEntries hp free (.map r :: seen) (h.entries r)]
  | object r => rw [Heap.showIn, Heap.showIn, hp.objectClassName]
  | classOf r => rw [Heap.showIn, Heap.showIn, hp.className]
  | function r => rw [Heap.showIn, Heap.showIn, hp.functionName]
  | native r => rw [Heap.showIn, Heap.showIn, hp.nativeName]
  | bound r v => rw [Heap.showIn, Heap.showIn, hp.nativeName]
  | bool b => cases b <;> rw [Heap.showIn, Heap.showIn]
  | _ => rw [Heap.showIn, Heap.showIn]
termination_by (free, sizeOf v)
decreasing_by
  · exact .right _ (by simp)
  · exact .left _ _ (by omega)
  · exact .left _ _ (by omega)

theorem showItems (hp : Paired h₀ h h') (free : Nat) (seen : List Container) (vs : List Value) :
    h'.showItems free seen vs = h.showItems free seen vs := by
  match vs with
  | [] => rw [Heap.showItems, Heap.showItems]
  | [v] => rw [Heap.showItems, Heap.showItems, showIn hp free seen v]
  | v :: w :: rest =>
      rw [Heap.showItems, Heap.showItems, showIn hp free seen v,
        showItems hp free seen (w :: rest)]
termination_by (free, sizeOf vs)
decreasing_by all_goals exact .right _ (by simp only [List.cons.sizeOf_spec]; omega)

theorem showEntries (hp : Paired h₀ h h') (free : Nat) (seen : List Container) (m : Entries) :
    h'.showEntries free seen m = h.showEntries free seen m := by
  match m with
  | [] => rw [Heap.showEntries, Heap.showEntries]
  | [(k, v)] =>
      rw [Heap.showEntries, Heap.showEntries, showIn hp free seen k, showIn hp free seen v]
  | (k, v) :: next :: rest =>
      rw [Heap.showEntries, Heap.showEntries, showIn hp free seen k, showIn hp free seen v,
        showEntries hp free seen (next :: rest)]
termination_by (free, sizeOf m)
decreasing_by
  all_goals exact .right _ (by simp only [List.cons.sizeOf_spec, Prod.mk.sizeOf_spec]; omega)

end

/-- Values are shown alike. -/
theorem display (hp : Paired h₀ h h') (v : Value) : h'.display v = h.display v := by
  cases v with
  | text s => rfl
  | _ => simp only [Heap.display, hp.lists, hp.maps, hp.showIn]

mutual

theorem equalIn (hp : Paired h₀ h h') (free : Nat) (pending : List (Container × Container))
    (v w : Value) : h'.equalIn free pending v w = h.equalIn free pending v w := by
  rw [Heap.equalIn.eq_def, Heap.equalIn.eq_def]
  split
  · rfl
  · rfl
  · rfl
  · rfl
  · rw [equalItems hp free pending _ _]
  · split
    · rfl
    · cases free with
      | zero => rfl
      | succ free => simp only [hp.items, equalItems hp free _ _ _]
  · split
    · rfl
    · cases free with
      | zero => rfl
      | succ free => simp only [hp.entries, equalEntries hp free _ _ _]
  · rfl
  · rfl
  · rfl
  · rfl
  · rw [equalIn hp free pending _ _]
  · rfl
termination_by (free, sizeOf v)
decreasing_by
  · exact .right _ (by subst_vars; simp)
  · exact .left _ _ (by omega)
  · exact .left _ _ (by omega)
  · exact .right _ (by subst_vars; simp)

theorem equalItems (hp : Paired h₀ h h') (free : Nat) (pending : List (Container × Container))
    (vs ws : List Value) : h'.equalItems free pending vs ws = h.equalItems free pending vs ws := by
  match vs, ws with
  | [], [] => rw [Heap.equalItems, Heap.equalItems]
  | v :: vs, w :: ws =>
      rw [Heap.equalItems, Heap.equalItems, equalIn hp free pending v w,
        equalItems hp free pending vs ws]
  | [], _ :: _ => rw [Heap.equalItems.eq_def, Heap.equalItems.eq_def]
  | _ :: _, [] => rw [Heap.equalItems.eq_def, Heap.equalItems.eq_def]
termination_by (free, sizeOf vs)
decreasing_by all_goals exact .right _ (by simp only [List.cons.sizeOf_spec]; omega)

theorem equalEntries (hp : Paired h₀ h h') (free : Nat)
    (pending : List (Container × Container)) (other m : Entries) :
    h'.equalEntries free pending other m = h.equalEntries free pending other m := by
  match m with
  | [] => rw [Heap.equalEntries, Heap.equalEntries]
  | (k, v) :: rest =>
      rw [Heap.equalEntries, Heap.equalEntries]
      split
      · rw [equalIn hp free pending v _, equalEntries hp free pending other rest]
      · rfl
termination_by (free, sizeOf m)
decreasing_by
  all_goals exact .right _ (by simp only [List.cons.sizeOf_spec, Prod.mk.sizeOf_spec]; omega)

end

/-- Values are equal in both heaps or in none. -/
theorem equal (hp : Paired h₀ h h') (v w : Value) : h'.equal v w = h.equal v w := by
  rw [Heap.equal, Heap.equal, hp.lists, hp.maps, hp.equalIn]

/-! ### Adding and changing cells

The heaps have as many cells of each kind, so a new cell has the same place in both. -/

lemma addList (hp : Paired h₀ h h') {vs : Array Value} (hvs : ∀ v ∈ vs, h₀.quiet v) :
    (h'.addList vs).1 = (h.addList vs).1 ∧ Paired h₀ (h.addList vs).2 (h'.addList vs).2 where
  left := congrArg (fun cells => ListRef.mk cells.size) hp.lists
  right :=
    { hp with
      lists := congrArg (·.push vs) hp.lists
      quietLists := forall_mem_push hp.quietLists hvs }

lemma addMap (hp : Paired h₀ h h') {m : Entries} (hm : m.Quiet h₀) :
    (h'.addMap m).1 = (h.addMap m).1 ∧ Paired h₀ (h.addMap m).2 (h'.addMap m).2 where
  left := congrArg (fun cells => MapRef.mk cells.size) hp.maps
  right :=
    { hp with
      maps := congrArg (·.push m) hp.maps
      quietMaps := forall_mem_push hp.quietMaps hm }

lemma addObject (hp : Paired h₀ h h') {o : Instance} (ho : ∀ b ∈ o.slots, h₀.quiet b.2) :
    (h'.addObject o).1 = (h.addObject o).1 ∧
      Paired h₀ (h.addObject o).2 (h'.addObject o).2 where
  left := congrArg (fun cells => ObjectRef.mk cells.size) hp.objects
  right :=
    { hp with
      objects := congrArg (·.push o) hp.objects
      quietObjects := forall_mem_push hp.quietObjects ho }

lemma addClass (hp : Paired h₀ h h') {c c' : Class} (hc : c.Paired h₀ c') :
    (h'.addClass c').1 = (h.addClass c).1 ∧
      Paired h₀ (h.addClass c).2 (h'.addClass c').2 where
  left := congrArg ClassRef.mk hp.classes.length_eq.symm
  right :=
    { hp with
      classes := by
        simp only [Heap.addClass, Array.toList_push]
        exact List.rel_append hp.classes (.cons hc .nil)
      oldClass := fun hr =>
        ⟨Heap.getElem?_push_of_eq_some (hp.oldClass hr).1,
          Heap.getElem?_push_of_eq_some (hp.oldClass hr).2⟩ }

lemma addFunction (hp : Paired h₀ h h') {f f' : Closure} (hf : f.Paired h₀ f') :
    (h'.addFunction f').1 = (h.addFunction f).1 ∧
      Paired h₀ (h.addFunction f).2 (h'.addFunction f').2 where
  left := congrArg FunctionRef.mk hp.functions.length_eq.symm
  right :=
    { hp with
      functions := by
        simp only [Heap.addFunction, Array.toList_push]
        exact List.rel_append hp.functions (.cons hf .nil)
      oldFunction := fun hr =>
        ⟨Heap.getElem?_push_of_eq_some (hp.oldFunction hr).1,
          Heap.getElem?_push_of_eq_some (hp.oldFunction hr).2⟩ }

lemma modifyList (hp : Paired h₀ h h') {f : Array Value → Array Value}
    (hf : ∀ vs, (∀ v ∈ vs, h₀.quiet v) → ∀ v ∈ f vs, h₀.quiet v) (r : ListRef) :
    Paired h₀ (h.modifyList r f) (h'.modifyList r f) :=
  { hp with
    lists := congrArg (·.modify r.index f) hp.lists
    quietLists := forall_mem_modify hp.quietLists hf r.index }

lemma modifyMap (hp : Paired h₀ h h') {f : Entries → Entries}
    (hf : ∀ m : Entries, m.Quiet h₀ → (f m).Quiet h₀) (r : MapRef) :
    Paired h₀ (h.modifyMap r f) (h'.modifyMap r f) :=
  { hp with
    maps := congrArg (·.modify r.index f) hp.maps
    quietMaps := forall_mem_modify hp.quietMaps hf r.index }

lemma setSlot (hp : Paired h₀ h h') {v : Value} (hv : h₀.quiet v) (r : ObjectRef)
    (name : String) : Paired h₀ (h.setSlot r name v) (h'.setSlot r name v) := by
  have hput : ∀ o : Instance, (∀ b ∈ o.slots, h₀.quiet b.2) →
      ∀ b ∈ ({ o with slots := o.slots.put name v } : Instance).slots, h₀.quiet b.2 :=
    fun _ ho => Bindings.forall_put (P := fun v => h₀.quiet v) ho hv
  exact
    { hp with
      objects := by simp only [Heap.setSlot, hp.objects]
      quietObjects := forall_mem_modify hp.quietObjects hput r.index }

end Heap.Paired

/-! ### Environments that go together -/

/-- Frames with the same name and the same quiet values under names. -/
structure Frame.Paired (h₀ : Heap) (f g : Frame) : Prop where
  name : g.name = f.name
  vars : g.vars = f.vars
  quiet : ∀ b ∈ f.vars, h₀.quiet b.2

/-- Frames still go together when the same value is written under a name of both. -/
lemma Frame.Paired.put {h₀ : Heap} {f g : Frame} (h : f.Paired h₀ g) (name : String) {v : Value}
    (hv : h₀.quiet v) :
    Frame.Paired h₀ { f with vars := f.vars.put name v } { g with vars := g.vars.put name v } :=
  ⟨h.name, congrArg (·.put name v) h.vars,
    Bindings.forall_put (P := fun v => h₀.quiet v) h.quiet hv⟩

/-- Environments that differ in the places of their frames and in the traces under handling at
most. -/
structure Environment.Paired (h₀ : Heap) (e e' : Environment) : Prop where
  top : e.top.Paired h₀ e'.top
  below : e.below.Forall₂ (Frame.Paired h₀) e'.below
  snapshots : e'.snapshots.length = e.snapshots.length

namespace Environment.Paired

variable {h₀ : Heap} {e e' : Environment}

lemma findIn? {fs gs : List Frame} (h : fs.Forall₂ (Frame.Paired h₀) gs) (name : String) :
    Environment.findIn? name gs = Environment.findIn? name fs ∧
      ∀ v ∈ Environment.findIn? name fs, h₀.quiet v := by
  induction h with
  | nil => exact ⟨rfl, by simp [Environment.findIn?]⟩
  | @cons f g _ _ hfg _ ih =>
      rw [Environment.findIn?, Environment.findIn?, hfg.vars]
      cases hv : f.vars.find? name with
      | none => exact ih
      | some v =>
          have hmem := Bindings.mem_of_find? hv
          refine ⟨rfl, fun w hw => ?_⟩
          cases hw
          exact hfg.quiet _ hmem

lemma find? (he : Paired h₀ e e') (name : String) :
    e'.find? name = e.find? name ∧ ∀ v ∈ e.find? name, h₀.quiet v :=
  findIn? (.cons he.top he.below) name

lemma depth (he : Paired h₀ e e') : e'.depth = e.depth := by
  rw [Environment.depth, Environment.depth, he.below.length_eq]

lemma push (he : Paired h₀ e e') (name file file' : String) (line line' : Nat) :
    Paired h₀ (e.push name file line) (e'.push name file' line') where
  top := ⟨rfl, rfl, List.forall_mem_nil _⟩
  below := .cons he.top he.below
  snapshots := he.snapshots

lemma pop (he : Paired h₀ e e') : Paired h₀ e.pop e'.pop := by
  have hb := he.below
  rw [Environment.pop, Environment.pop]
  cases hbelow : e.below with
  | nil =>
      rw [hbelow] at hb
      rw [List.forall₂_nil_left_iff.mp hb]
      exact he
  | cons f rest =>
      rw [hbelow] at hb
      obtain ⟨g, rest', hfg, hrest, hbelow'⟩ := List.forall₂_cons_left_iff.mp hb
      rw [hbelow']
      exact ⟨hfg, hrest, he.snapshots⟩

lemma mark (he : Paired h₀ e e') (line line' : Nat) : Paired h₀ (e.mark line) (e'.mark line') :=
  { he with top := ⟨he.top.name, he.top.vars, he.top.quiet⟩ }

lemma setFile (he : Paired h₀ e e') (file file' : String) :
    Paired h₀ (e.setFile file) (e'.setFile file') :=
  { he with top := ⟨he.top.name, he.top.vars, he.top.quiet⟩ }

lemma pushSnapshot (he : Paired h₀ e e') (trace trace' : Trace) :
    Paired h₀ (e.pushSnapshot trace) (e'.pushSnapshot trace') :=
  { he with snapshots := congrArg (· + 1) he.snapshots }

lemma popSnapshot (he : Paired h₀ e e') : Paired h₀ e.popSnapshot e'.popSnapshot :=
  { he with
    snapshots := by simp only [Environment.popSnapshot, List.length_drop, he.snapshots] }

lemma bind (he : Paired h₀ e e') (name : String) {v : Value} (hv : h₀.quiet v) :
    Paired h₀ (e.bind name v) (e'.bind name v) :=
  { he with top := he.top.put name hv }

/-- A name can be defined in both environments or in none. -/
lemma define (he : Paired h₀ e e') (name : String) {v : Value} (hv : h₀.quiet v) :
    (∃ cause, e.define name v = .error cause ∧ e'.define name v = .error cause) ∨
      ∃ f f', e.define name v = .ok f ∧ e'.define name v = .ok f' ∧ Paired h₀ f f' := by
  rw [Environment.define, Environment.define, he.top.vars]
  split
  · exact .inl ⟨_, rfl, rfl⟩
  · exact .inr ⟨_, _, rfl, rfl, he.bind name hv⟩

lemma putIn? {fs gs : List Frame} (h : fs.Forall₂ (Frame.Paired h₀) gs) (name : String)
    {v : Value} (hv : h₀.quiet v) :
    Option.Rel (List.Forall₂ (Frame.Paired h₀)) (Environment.putIn? name v fs)
      (Environment.putIn? name v gs) := by
  induction h with
  | nil => exact .none
  | @cons f g fs gs hfg hrest ih =>
      rw [Environment.putIn?, Environment.putIn?, hfg.vars]
      split
      · exact .some (.cons (hfg.vars ▸ hfg.put name hv) hrest)
      · obtain ⟨hf, hg⟩ | ⟨fs', gs', hf, hg, hfs⟩ := optionRel_cases ih
        · rw [hf, hg]
          exact .none
        · rw [hf, hg]
          exact .some (.cons hfg hfs)

lemma put (he : Paired h₀ e e') (name : String) {v : Value} (hv : h₀.quiet v) :
    Paired h₀ (e.put name v) (e'.put name v) := by
  rw [Environment.put, Environment.put, he.top.vars]
  split
  · exact he.bind name hv
  · obtain ⟨hf, hg⟩ | ⟨fs, gs, hf, hg, hfs⟩ := optionRel_cases (putIn? he.below name hv)
    · rw [hf, hg]
      exact he.bind name hv
    · rw [hf, hg]
      exact { he with below := hfs }

end Environment.Paired

/-! ### Sessions that go together -/

/-- Hosts that answer alike, in heaps too that differ in tokens only: their clocks give the same
readings, and their operations and members the same answers. -/
structure Host.Alike (a b : Host) : Prop where
  clock : ∀ asked, b.clock asked = a.clock asked
  operation : ∀ {h h' : Heap}, h'.bare = h.bare → ∀ asked number arguments,
    b.operation asked number arguments h' = a.operation asked number arguments h
  member : ∀ {h h' : Heap}, h'.bare = h.bare → ∀ number this,
    b.member number this h' = a.member number this h

/-- Sessions that differ in tokens, places and traces at most, hold quiet values only, and are run
by hosts that answer alike. -/
structure Session.Paired (h₀ : Heap) (s t : Session) : Prop where
  heap : h₀.Paired s.heap t.heap
  env : s.env.Paired h₀ t.env
  moduleRoot : t.moduleRoot = s.moduleRoot
  imported : t.imported = s.imported
  maxDepth : t.maxDepth = s.maxDepth
  files : t.files = s.files
  sought : t.sought = s.sought
  host : s.host.Alike t.host
  asked : t.asked = s.asked
  out : t.out = s.out
  err : t.err = s.err

/-- Signals that differ in their traces at most and hold quiet values only. -/
inductive Signal.Paired (h₀ : Heap) : Signal → Signal → Prop
  | fault (cause : Fault) (trace trace' : Trace) :
      Paired h₀ (.fault cause trace) (.fault cause trace')
  | thrown {v : Value} (hv : h₀.quiet v) (trace trace' : Trace) :
      Paired h₀ (.thrown v trace) (.thrown v trace')
  | leave {v : Value} (hv : h₀.quiet v) : Paired h₀ (.leave v) (.leave v)
  | fatal (error : SourceError) : Paired h₀ (.fatal error) (.fatal error)
  | outOfFuel (lacking : Shortage) : Paired h₀ (.outOfFuel lacking) (.outOfFuel lacking)

/-- Signals still go together when they are given the traces of environments. -/
lemma Signal.Paired.traced {h₀ : Heap} {signal signal' : Signal} (h : signal.Paired h₀ signal')
    (env env' : Environment) : (signal.traced env).Paired h₀ (signal'.traced env') := by
  cases h with
  | fault cause trace trace' =>
      cases trace <;> cases trace' <;> exact .fault cause _ _
  | thrown hv trace trace' =>
      cases trace <;> cases trace' <;> exact .thrown hv _ _
  | leave hv => exact .leave hv
  | fatal error => exact .fatal error
  | outOfFuel lacking => exact .outOfFuel lacking

/-! ### From quiet sessions to bare ones -/

/-- A list whose items go together with themselves does so as a whole. -/
lemma forall₂_self {α : Type} {R : α → α → Prop} {as : List α} (h : ∀ a ∈ as, R a a) :
    as.Forall₂ R as :=
  List.forall₂_same.mpr h

lemma Method.paired_self {h₀ : Heap} {m : Method} (h : m.isQuiet h₀ = true) : m.Paired h₀ m := by
  cases m with
  | user f => exact .user ⟨rfl, rfl, .refl _⟩
  | native r => exact .native r (by simpa [Method.isQuiet] using h)

lemma Field.like_self (f : Field) : f.Like f := by
  cases f with
  | computed getter => exact .computed getter
  | slot e =>
      cases e with
      | none => exact .slot .none
      | some e => exact .slot (.some (.refl e))

lemma Class.paired_self {h₀ : Heap} {c : Class} (h : c.isQuiet h₀ = true) : c.Paired h₀ c := by
  simp only [Class.isQuiet, Bool.and_eq_true, List.all_eq_true, Option.all_eq_true,
    Bool.not_eq_true'] at h
  refine ⟨rfl, forall₂_self fun m hm => ?_, forall₂_self fun f _ => ?_, rfl, rfl, rfl, h.2⟩
  · exact ⟨rfl, Method.paired_self (h.1 m hm)⟩
  · exact ⟨rfl, Field.like_self f.2⟩

lemma Closure.paired_self {h₀ : Heap} {f : Closure} (h : f.isQuiet h₀ = true) :
    f.Paired h₀ f := by
  simp only [Closure.isQuiet, Option.all_eq_true, Bool.and_eq_true] at h
  exact ⟨⟨rfl, rfl, .refl _⟩, rfl, h⟩

/-- A quiet session goes together with itself, run by another host that answers alike. -/
theorem Session.paired_self {s : Session} {host : Host} (hs : s.isQuiet = true)
    (hhost : s.host.Alike host) : s.Paired s.heap { s with host } := by
  simp only [Session.isQuiet, Heap.isQuiet, Bool.and_eq_true, List.all_eq_true,
    Array.all_eq_true_iff_forall_mem] at hs
  obtain ⟨⟨⟨⟨⟨hlists, hmaps⟩, hobjects⟩, hclasses⟩, hfunctions⟩, hframes⟩ := hs
  have hframe : ∀ f ∈ s.env.frames, f.Paired s.heap f := fun f hf => ⟨rfl, rfl, hframes f hf⟩
  refine ⟨?_, ⟨hframe _ List.mem_cons_self, ?_, rfl⟩, rfl, rfl, rfl, rfl, rfl, hhost, rfl, rfl, rfl⟩
  · refine ⟨rfl, rfl, rfl, rfl, ?_, ?_, hlists, hmaps, hobjects, rfl, ?_, ?_⟩
    · exact forall₂_self fun c hc => Class.paired_self (hclasses c (Array.mem_toList_iff.mp hc))
    · exact forall₂_self fun f hf => Closure.paired_self (hfunctions f (Array.mem_toList_iff.mp hf))
    · exact fun hr => ⟨hr, hr⟩
    · exact fun hr => ⟨hr, hr⟩
  · exact forall₂_self fun f hf => hframe f (List.mem_cons_of_mem _ hf)

/-- Lists that go together are mapped to the same list, if their items are to the same item. -/
lemma map_eq_of_forall₂ {α β : Type} {R : α → α → Prop} {f : α → β} {as bs : List α}
    (h : as.Forall₂ R bs) (hf : ∀ {a b}, R a b → f b = f a) : bs.map f = as.map f := by
  induction h with
  | nil => rfl
  | cons hab _ ih => rw [List.map_cons, List.map_cons, hf hab, ih]

lemma FunctionDef.Like.bare {f f' : FunctionDef} (h : f.Like f') : f'.bare = f.bare := by
  rw [FunctionDef.bare, FunctionDef.bare, h.name, h.params, h.body]

lemma Method.Paired.bare {h₀ : Heap} {m m' : Method} (h : m.Paired h₀ m') :
    m'.bare = m.bare := by
  cases h with
  | user hf => exact congrArg Method.user hf.bare
  | native r _ => rfl

lemma Field.Like.bare {f f' : Field} (h : f.Like f') : f'.bare = f.bare := by
  cases h with
  | slot he => exact congrArg Field.slot (map_eq_of_optionRel he id)
  | computed getter => rfl

lemma Class.Paired.bare {h₀ : Heap} {c c' : Class} (h : c.Paired h₀ c') : c'.bare = c.bare := by
  have hmethods : c'.methods.map (Prod.map id Method.bare) =
      c.methods.map (Prod.map id Method.bare) :=
    map_eq_of_forall₂ h.methods fun hm => Prod.ext hm.1 hm.2.bare
  have hfields : c'.fields.map (Prod.map id Field.bare) =
      c.fields.map (Prod.map id Field.bare) :=
    map_eq_of_forall₂ h.fields fun hf => Prod.ext hf.1 hf.2.bare
  rw [Class.bare, Class.bare, hmethods, hfields, h.name, h.superclass, h.synthetic, h.init]

lemma Closure.Paired.bare {h₀ : Heap} {f f' : Closure} (h : f.Paired h₀ f') :
    f'.bare = f.bare := by
  rw [Closure.bare, Closure.bare, h.code.bare, h.receiver]

lemma Heap.Paired.bare {h₀ h h' : Heap} (hp : h₀.Paired h h') : h'.bare = h.bare := by
  have hclasses : h'.classes.map Class.bare = h.classes.map Class.bare := by
    apply Array.toList_inj.mp
    rw [Array.toList_map, Array.toList_map]
    exact map_eq_of_forall₂ hp.classes (·.bare)
  have hfunctions : h'.functions.map Closure.bare = h.functions.map Closure.bare := by
    apply Array.toList_inj.mp
    rw [Array.toList_map, Array.toList_map]
    exact map_eq_of_forall₂ hp.functions (·.bare)
  rw [Heap.bare, Heap.bare, hclasses, hfunctions, hp.lists, hp.maps, hp.objects, hp.natives]

lemma Frame.Paired.bare {h₀ : Heap} {f g : Frame} (h : f.Paired h₀ g) : g.bare = f.bare := by
  rw [Frame.bare, Frame.bare, h.name, h.vars]

lemma Environment.Paired.bare {h₀ : Heap} {e e' : Environment} (h : e.Paired h₀ e') :
    e'.bare = e.bare := by
  rw [Environment.bare, Environment.bare, h.top.bare, map_eq_of_forall₂ h.below (·.bare),
    List.map_const', List.map_const', h.snapshots]

/-- Sessions that go together have the same bare session. -/
theorem Session.Paired.bare {h₀ : Heap} {s t : Session} (h : s.Paired h₀ t) : t.bare = s.bare := by
  rw [Session.bare, Session.bare, h.heap.bare, h.env.bare, h.moduleRoot, h.imported, h.maxDepth,
    h.files, h.sought, h.asked, h.out, h.err]

lemma Signal.Paired.bare {h₀ : Heap} {signal signal' : Signal} (h : signal.Paired h₀ signal') :
    signal'.bare = signal.bare := by
  cases h <;> rfl

end Tern
