/-
Members of objects. Reading and writing a member walk along the same chain of objects and stop at
the same one, the first whose class declares the name at all. There a reader takes the function of
that name first, and a writer the field.

* `Delegate`, `Heap.Chain`: the objects that an object delegates to, with their classes;
  `Heap.WellMade.exists_chain`: every object has such a chain.
* `Eval.Reads`: what the object that answers gives to a reader.
* `Eval.reads_getMember`, `Eval.getMember_of_undeclared`: reading a member of a chain.
* `Eval.Writes`, `Eval.writes_setMember`: writing one.
* `Session.member_lookup`: what the members of objects read as.
* `Session.read_after_write`: what is read after a member has been written.
* `Session.not_read_after_write`: a class that has a function and a field of one name.
-/
import Mathlib.Tactic
import Tern.Proofs.Delegation

namespace Tern

/-- Whether a class has a function or a field of a name. -/
def Class.declares (c : Class) (name : String) : Bool := c.methods.has name || c.fields.has name

/-- An object of a chain, and its class. -/
structure Delegate where
  object : ObjectRef
  ofClass : Class

/-- The super-object, given the part of the chain above. -/
def Delegate.super (above : List Delegate) : Value :=
  (above.head?.map (·.object)).elim .null .object

/-- The first object of a chain whose class declares a name. -/
def Delegate.first? (chain : List Delegate) (name : String) : Option Delegate :=
  chain.find? (·.ofClass.declares name)

namespace Delegate

variable {chain : List Delegate} {name : String} {d : Delegate}

lemma first?_eq_none_iff :
    first? chain name = none ↔ ∀ d ∈ chain, d.ofClass.declares name = false := by
  simp [first?]

lemma first?_eq_some_iff : first? chain name = some d ↔ d.ofClass.declares name = true ∧
    ∃ before above, chain = before ++ d :: above ∧
      ∀ d ∈ before, d.ofClass.declares name = false := by
  simp [first?, List.find?_eq_some_iff_append]

end Delegate

namespace Heap

/-- The chain of an object: the object itself, and the chain of the one that it delegates to. -/
inductive Chain (h : Heap) : ObjectRef → List Delegate → Prop where
  | last {r : ObjectRef} {o : Instance} {c : Class} : h.object? r = some o →
      h.class? o.ofClass = some c → o.parent = none → Chain h r [⟨r, c⟩]
  | link {r p : ObjectRef} {o : Instance} {c : Class} {above : List Delegate} :
      h.object? r = some o → h.class? o.ofClass = some c → o.parent = some p → Chain h p above →
      Chain h r (⟨r, c⟩ :: above)

/-- The objects of a chain are of the classes that it says. -/
def Classified (h : Heap) (chain : List Delegate) : Prop :=
  ∀ d ∈ chain, (h.classOfObject? d.object).bind h.class? = some d.ofClass

variable {h : Heap} {r : ObjectRef} {chain : List Delegate}

lemma classOf_object {o : Instance} {c : Class} (ho : h.object? r = some o)
    (hc : h.class? o.ofClass = some c) : (h.classOfObject? r).bind h.class? = some c := by
  rw [classOfObject?, ho]
  exact hc

lemma Chain.classified (hl : h.Chain r chain) : h.Classified chain := by
  induction hl with
  | last ho hc _ => exact List.forall_mem_singleton.mpr (classOf_object ho hc)
  | link ho hc _ _ ih => exact List.forall_mem_cons.mpr ⟨classOf_object ho hc, ih⟩

/-- An object has one chain only. -/
lemma Chain.unique {chain' : List Delegate} (hl : h.Chain r chain) (hl' : h.Chain r chain') :
    chain = chain' := by
  induction hl generalizing chain' with
  | last ho hc hp => cases hl' <;> grind
  | link ho hc hp _ ih => cases hl' <;> grind

/-- A chain is made of the objects that are asked. -/
lemma Chain.delegates (hw : h.WellMade) (hl : h.Chain r chain) :
    h.delegates r = chain.map (·.object) := by
  induction hl with
  | last ho _ hp => rw [hw.delegates_eq ho, hp]; rfl
  | link ho _ hp _ ih => rw [hw.delegates_eq ho, hp, Option.elim_some, ih]; rfl

/-- Every object has a chain. -/
lemma WellMade.exists_chain (hw : h.WellMade) {o : Instance} (ho : h.object? r = some o) :
    ∃ chain, h.Chain r chain := by
  -- by induction on how old the object is
  induction hn : r.index using Nat.strong_induction_on generalizing r o with
  | h n ih =>
      obtain ⟨c, hc, hparent, -⟩ := (hw.objects ho).shape
      cases hp : o.parent with
      | none => exact ⟨_, .last ho hc hp⟩
      | some p =>
          rw [hp] at hparent
          obtain ⟨ref, -, href⟩ := Option.map_eq_some_iff.mp hparent.symm
          obtain ⟨o', ho', -⟩ := Option.map_eq_some_iff.mp href.symm
          obtain ⟨above, habove⟩ := ih p.index (hn ▸ (hw.objects ho).older p hp) ho' rfl
          exact ⟨_, .link ho hc hp habove⟩

/-! ### Slots -/

/-- Writing a slot changes no class. -/
lemma classOfObject?_setSlot (h : Heap) (r r' : ObjectRef) (name : String) (v : Value) :
    (h.setSlot r name v).classOfObject? r' = h.classOfObject? r' := by
  rw [classOfObject?, object?_setSlot, classOfObject?]
  by_cases hr : r = r'
  · rw [if_pos hr, Option.map_map]
    rfl
  · rw [if_neg hr]

/-- What the slots of a chain hold after one has been written. -/
lemma Classified.slot?_setSlot (hc : h.Classified chain) {d : Delegate} (hd : d ∈ chain)
    (name : String) (v : Value) (r' : ObjectRef) (other : String) :
    (h.setSlot d.object name v).slot? r' other =
      if r' = d.object ∧ other = name then some v else h.slot? r' other := by
  obtain ⟨ref, href, -⟩ := Option.bind_eq_some_iff.mp (hc d hd)
  obtain ⟨o, ho, -⟩ := Option.map_eq_some_iff.mp href
  rw [slot?, object?_setSlot]
  by_cases hr : d.object = r'
  · subst hr
    rw [if_pos rfl, ho, Option.map_some, Option.bind_some]
    by_cases hother : other = name
    · rw [if_pos ⟨rfl, hother⟩, hother, Bindings.find?_put_self]
    · rw [if_neg fun hand => hother hand.2, Bindings.find?_put_of_ne hother, slot?, ho]
      rfl
  · rw [if_neg hr, if_neg fun hand => hr hand.1.symm]
    rfl

lemma Classified.setSlot (hc : h.Classified chain) (r : ObjectRef) (name : String) (v : Value) :
    (h.setSlot r name v).Classified chain := by
  intro d hl
  rw [classOfObject?_setSlot]
  exact hc d hl

/-- Nor does it change a chain. -/
lemma delegates_setSlot (h : Heap) (r r' : ObjectRef) (name : String) (v : Value) :
    (h.setSlot r name v).delegates r' = h.delegates r' := by
  have hlink : (fun q => ((h.setSlot r name v).object? q).map (·.parent)) =
      fun q => (h.object? q).map (·.parent) := by
    funext q
    rw [object?_setSlot]
    by_cases hq : r = q
    · rw [if_pos hq, Option.map_map]
      rfl
    · rw [if_neg hq]
  have hsize : (h.setSlot r name v).objects.size = h.objects.size := Array.size_modify
  rw [delegates, delegates, delegatesUpTo_eq_chain, delegatesUpTo_eq_chain, hlink, hsize]

end Heap

namespace Eval

variable {s : Session} {r : ObjectRef} {d : Delegate} {before above chain : List Delegate}
  {name : String} {v : Value}

/-! ### Objects that leave a member to the next one -/

/-- A class that does not declare a member leaves it to the super-object. -/
lemma classMember?_of_undeclared {c : Class} (hc : c.declares name = false) (this parent : Value) :
    classMember? c this parent name = pure none := by
  rw [Class.declares, Bool.or_eq_false_iff, Bindings.has, Bindings.has,
    Option.isSome_eq_false_iff, Option.isSome_eq_false_iff, Option.isNone_iff_eq_none,
    Option.isNone_iff_eq_none] at hc
  simp only [classMember?, hc.1, hc.2]

lemma setClassMember_of_undeclared {c : Class} (hc : c.declares name = false) (this : Value) :
    setClassMember c this name v = pure false := by
  rw [Class.declares, Bool.or_eq_false_iff] at hc
  have hfield : c.fields.find? name = none := by simpa [Bindings.has] using hc.2
  simp only [setClassMember, hfield, hc.1, Bool.false_eq_true, if_false]

lemma classOfObject?_apply {q : ObjectRef} {c : Class}
    (hc : (s.heap.classOfObject? q).bind s.heap.class? = some c) :
    classOfObject? q s = .ok (some c) s := by
  rw [← hc]
  rfl

/-- A reader passes over objects whose classes do not declare a member. -/
lemma chainMember?_of_skipped (hc : s.heap.Classified before)
    (hbefore : ∀ d ∈ before, d.ofClass.declares name = false) (more : List ObjectRef) :
    chainMember? name (before.map (·.object) ++ more) s = chainMember? name more s := by
  induction before with
  | nil => rfl
  | cons d rest ih =>
      obtain ⟨hl, hrest⟩ := List.forall_mem_cons.mp hc
      obtain ⟨hdeclares, hskipped⟩ := List.forall_mem_cons.mp hbefore
      rw [List.map_cons, List.cons_append, chainMember?, bind_apply, classOfObject?_apply hl]
      simp only [bind_apply, classMember?_of_undeclared hdeclares, pure_apply]
      exact ih hrest hskipped

/-- So does a writer. -/
lemma setChainMember_of_skipped (hc : s.heap.Classified before)
    (hbefore : ∀ d ∈ before, d.ofClass.declares name = false) (more : List ObjectRef) :
    setChainMember name v (before.map (·.object) ++ more) s = setChainMember name v more s := by
  induction before with
  | nil => rfl
  | cons d rest ih =>
      obtain ⟨hl, hrest⟩ := List.forall_mem_cons.mp hc
      obtain ⟨hdeclares, hskipped⟩ := List.forall_mem_cons.mp hbefore
      rw [List.map_cons, List.cons_append, setChainMember, bind_apply, classOfObject?_apply hl]
      simp only [bind_apply, setClassMember_of_undeclared hdeclares, pure_apply,
        Bool.false_eq_true, if_false]
      exact ih hrest hskipped

/-! ### Reading -/

/-- A function as it is read off an object of a chain. -/
def boundTo (code : FunctionDef) (d : Delegate) (above : List Delegate) : Closure :=
  ⟨code, some (.object d.object, Delegate.super above)⟩

/-- What an object whose class declares a member gives to a reader: the function, bound to the
object and its super-object, or else what the slot holds, or else what is computed. -/
inductive Reads (s : Session) (name : String) (d : Delegate) (above : List Delegate) :
    EStateM.Result Signal Session Value → Prop
  | user {code : FunctionDef} : d.ofClass.methods.find? name = some (.user code) →
      Reads s name d above (.ok (.function (s.heap.addFunction (boundTo code d above)).1)
        { s with heap := (s.heap.addFunction (boundTo code d above)).2 })
  | native {ref : NativeRef} : d.ofClass.methods.find? name = some (.native ref) →
      Reads s name d above (.ok (.bound ref (.object d.object)) s)
  | slot {default : Option Expr} : d.ofClass.methods.find? name = none →
      d.ofClass.fields.find? name = some (.slot default) →
      Reads s name d above (.ok ((s.heap.slot? d.object name).getD .null) s)
  | computed {getter : Getter} : d.ofClass.methods.find? name = none →
      d.ofClass.fields.find? name = some (.computed getter) →
      Reads s name d above (compute getter (.object d.object) s)

/-- A member that a host computes is there, and reading it changes nothing. -/
lemma hostMember_apply (number : Nat) (v : Value) (s : Session) :
    (∃ w, hostMember number v s = .ok w s) ∨
      ∃ cause, hostMember number v s = .error (.fault cause []) s ∧
        cause.kind ≠ .undefinedReference := by
  simp only [hostMember, bind_apply, get_apply]
  cases hreply : s.host.member number v s.heap with
  | ok reply => exact .inl ⟨_, rfl⟩
  | error cause => exact .inr ⟨cause, rfl, s.host.member_defined hreply⟩

/-- Computing a member changes nothing, and it never says that the member is not there. -/
lemma compute_apply (getter : Getter) (v : Value) (s : Session) :
    (∃ w, compute getter v s = .ok w s) ∨
      ∃ cause, compute getter v s = .error (.fault cause []) s ∧
        cause.kind ≠ .undefinedReference := by
  unfold compute
  split <;> first | exact .inl ⟨_, rfl⟩ | exact .inr ⟨_, rfl, ErrorKind.noConfusion⟩ |
    exact hostMember_apply _ _ s

namespace Reads

variable {result : EStateM.Result Signal Session Value}

/-- A member that is read is there. -/
lemma not_undefined (hr : Reads s name d above result) {cause : Fault} {trace : Trace}
    {s' : Session} (h : result = .error (.fault cause trace) s') :
    cause.kind ≠ .undefinedReference := by
  cases hr with
  | @computed getter _ _ =>
      obtain ⟨w, hw⟩ | ⟨cause', hcause, hkind⟩ := compute_apply getter (.object d.object) s
      · rw [hw] at h
        cases h
      · rw [hcause] at h
        cases h
        exact hkind
  | _ => cases h

/-- Reading adds a function at most. -/
lemma ending_eq (hr : Reads s name d above result) :
    ∃ functions, ending result = { s with heap := { s.heap with functions } } := by
  cases hr with
  | user _ => exact ⟨_, rfl⟩
  | native _ => exact ⟨s.heap.functions, rfl⟩
  | slot _ _ => exact ⟨s.heap.functions, rfl⟩
  | @computed getter _ _ =>
      obtain ⟨w, hw⟩ | ⟨cause, hcause, -⟩ := compute_apply getter (.object d.object) s
      · rw [hw]
        exact ⟨s.heap.functions, rfl⟩
      · rw [hcause]
        exact ⟨s.heap.functions, rfl⟩

/-- Where there is a function, that is what is read. -/
lemma of_method (hr : Reads s name d above result) (hm : d.ofClass.methods.has name = true) :
    ∃ f s', result = .ok f s' ∧ f.kind = .function := by
  cases hr with
  | user _ => exact ⟨_, _, rfl, rfl⟩
  | native _ => exact ⟨_, _, rfl, rfl⟩
  | slot hnone _ =>
      rw [Bindings.has, hnone] at hm
      cases hm
  | computed hnone _ =>
      rw [Bindings.has, hnone] at hm
      cases hm

/-- Where there is a slot and no function, the slot is read. -/
lemma of_slot (hr : Reads s name d above result) (hm : d.ofClass.methods.has name = false)
    (hslot : d.ofClass.hasSlot name = true) :
    result = .ok ((s.heap.slot? d.object name).getD .null) s := by
  cases hr with
  | user hsome =>
      rw [Bindings.has, hsome] at hm
      cases hm
  | native hsome =>
      rw [Bindings.has, hsome] at hm
      cases hm
  | slot _ _ => rfl
  | computed _ hcomputed =>
      rw [Class.hasSlot, hcomputed] at hslot
      cases hslot

end Reads

/-- A class that declares a member answers. -/
lemma exists_classMember? (hl : d.ofClass.declares name = true) (above : List Delegate)
    (s : Session) :
    ∃ read : Eval Value, Reads s name d above (read s) ∧
      classMember? d.ofClass (.object d.object) (Delegate.super above) name s =
        (some <$> read) s := by
  cases hm : d.ofClass.methods.find? name with
  | some method =>
      cases method with
      | user code =>
          refine ⟨newFunction (boundTo code d above), .user hm, ?_⟩
          simp only [classMember?, hm]
          rfl
      | native ref =>
          refine ⟨pure (.bound ref (.object d.object)), .native hm, ?_⟩
          simp only [classMember?, hm]
          rfl
  | none =>
      cases hf : d.ofClass.fields.find? name with
      | none =>
          rw [Class.declares, Bindings.has, Bindings.has, hm, hf] at hl
          cases hl
      | some field =>
          cases field with
          | slot default =>
              refine ⟨pure ((s.heap.slot? d.object name).getD .null), .slot hm hf, ?_⟩
              simp only [classMember?, hm, hf]
              rfl
          | computed getter =>
              refine ⟨compute getter (.object d.object), .computed hm hf, ?_⟩
              simp only [classMember?, hm, hf]

/-- The first object whose class declares a member answers a reader. -/
lemma reads_getMember (hd : s.heap.delegates r = (before ++ d :: above).map (·.object))
    (hc : s.heap.Classified (before ++ d :: above))
    (hbefore : ∀ d ∈ before, d.ofClass.declares name = false)
    (hl : d.ofClass.declares name = true) :
    Reads s name d above (getMember (.object r) name s) := by
  obtain ⟨read, hread, hmember⟩ := exists_classMember? hl above s
  have hskipped : s.heap.Classified before := fun q hq => hc q (List.mem_append_left _ hq)
  have hclass := hc d (List.mem_append_right _ List.mem_cons_self)
  have hsuper : (above.map (·.object)).head?.elim .null .object = Delegate.super above := by
    rw [List.head?_map]
    rfl
  have hfind : findMember? (.object r) name s = (some <$> read) s := by
    simp only [findMember?, bind_apply, heap_apply]
    rw [hd, List.map_append, List.map_cons, chainMember?_of_skipped hskipped hbefore, chainMember?,
      bind_apply, classOfObject?_apply hclass]
    simp only [bind_apply, hsuper, hmember, map_apply]
    cases read s <;> rfl
  have hget : getMember (.object r) name s = read s := by
    rw [getMember, bind_apply, hfind, map_apply]
    cases read s <;> rfl
  rwa [hget]

/-- If no class declares a member, it is not there. -/
lemma getMember_of_undeclared (hd : s.heap.delegates r = chain.map (·.object))
    (hc : s.heap.Classified chain) (hl : ∀ d ∈ chain, d.ofClass.declares name = false) :
    ∃ subject, getMember (.object r) name s = .error (.fault (.noMember subject name) []) s := by
  have hfind : findMember? (.object r) name s = .ok none s := by
    have hskip := chainMember?_of_skipped hc hl []
    rw [List.append_nil] at hskip
    simp only [findMember?, bind_apply, heap_apply, hd, hskip]
    rfl
  rw [getMember, bind_apply, hfind]
  exact ⟨_, rfl⟩

/-! ### Writing -/

/-- What becomes of a slot that is to be written: the first object whose class declares the name
has such a slot, or nothing happens. -/
inductive Writes (s : Session) (name : String) (v : Value) (chain : List Delegate) :
    EStateM.Result Signal Session Unit → Prop
  | written {d : Delegate} : Delegate.first? chain name = some d → d.ofClass.hasSlot name = true →
      Writes s name v chain (.ok () { s with heap := s.heap.setSlot d.object name v })
  | refused {signal : Signal} :
      (∀ d, Delegate.first? chain name = some d → d.ofClass.hasSlot name = false) →
      Writes s name v chain (.error signal s)

lemma writes_setMember (hd : s.heap.delegates r = chain.map (·.object))
    (hc : s.heap.Classified chain) :
    Writes s name v chain (setMember (.object r) name v s) := by
  simp only [setMember, bind_apply, heap_apply, hd]
  cases hfirst : Delegate.first? chain name with
  | none =>
      have hskip := setChainMember_of_skipped (v := v) hc (Delegate.first?_eq_none_iff.mp hfirst) []
      rw [List.append_nil] at hskip
      rw [hskip]
      exact .refused fun d h => by cases hfirst.symm.trans h
  | some d =>
      obtain ⟨hdeclares, before, above, rfl, hbefore⟩ := Delegate.first?_eq_some_iff.mp hfirst
      have hskipped : s.heap.Classified before := fun q hq => hc q (List.mem_append_left _ hq)
      have hclass := hc d (List.mem_append_right _ List.mem_cons_self)
      have hrefused : d.ofClass.hasSlot name = false → ∀ signal,
          Writes s name v (before ++ d :: above) (.error signal s) := by
        refine fun hslot signal => .refused fun d' h => ?_
        rwa [← Option.some.inj (hfirst.symm.trans h)]
      rw [List.map_append, List.map_cons, setChainMember_of_skipped hskipped hbefore,
        setChainMember, bind_apply, classOfObject?_apply hclass]
      simp only [bind_apply, setClassMember]
      cases hf : d.ofClass.fields.find? name with
      | some field =>
          cases field with
          | slot default => exact .written hfirst (by rw [Class.hasSlot, hf])
          | computed getter => exact hrefused (by rw [Class.hasSlot, hf]) _
      | none =>
          have hmethod : d.ofClass.methods.has name = true := by
            rwa [Class.declares, Bindings.has, Bindings.has, hf, Option.isSome_none,
              Bool.or_false] at hdeclares
          simp only [hmethod, if_true]
          exact hrefused (by rw [Class.hasSlot, hf]) _

end Eval

namespace Session

open Eval

variable {s : Session} {r : ObjectRef} {o : Instance}

/-- **Member lookup follows the chain of delegation.** In every session that a host can come across
and for every object: a member is missing exactly if no class of the chain has a function or a field
of that name. Otherwise the first object whose class has one answers, with the function bound to
that object and its super-object, or else with the slot. Reading adds a function to the heap at
most. -/
theorem member_lookup (hs : s.Reachable) (ho : s.heap.object? r = some o) (name : String) :
    ∃ chain, s.heap.Chain r chain ∧
      ((∃ cause trace s', getMember (.object r) name s = .error (.fault cause trace) s' ∧
          cause.kind = .undefinedReference) ↔
        ∀ d ∈ chain, d.ofClass.declares name = false) ∧
      (∀ before d above, chain = before ++ d :: above →
        (∀ d ∈ before, d.ofClass.declares name = false) → d.ofClass.declares name = true →
        Reads s name d above (getMember (.object r) name s)) ∧
      ∃ functions, s.after (getMember (.object r) name) =
        { s with heap := { s.heap with functions } } := by
  obtain ⟨chain, hchain⟩ := hs.sound.heap.exists_chain ho
  have hd := hchain.delegates hs.sound.heap
  have hc := hchain.classified
  have hreads : ∀ before d above, chain = before ++ d :: above →
      (∀ d ∈ before, d.ofClass.declares name = false) → d.ofClass.declares name = true →
      Reads s name d above (getMember (.object r) name s) := by
    rintro before d above rfl hbefore hdeclares
    exact reads_getMember hd hc hbefore hdeclares
  refine ⟨chain, hchain, ?_, hreads, ?_⟩
  · refine ⟨?_, fun hnone => ?_⟩
    · rintro ⟨cause, trace, s', hget, hkind⟩
      rw [← Delegate.first?_eq_none_iff, Option.eq_none_iff_forall_ne_some]
      intro d hfirst
      obtain ⟨hdeclares, before, above, hsplit, hbefore⟩ := Delegate.first?_eq_some_iff.mp hfirst
      exact (hreads before d above hsplit hbefore hdeclares).not_undefined hget hkind
    · obtain ⟨subject, hget⟩ := getMember_of_undeclared hd hc hnone
      exact ⟨_, _, _, hget, rfl⟩
  · rw [← ending_apply]
    cases hfirst : Delegate.first? chain name with
    | none =>
        obtain ⟨subject, hget⟩ :=
          getMember_of_undeclared hd hc (Delegate.first?_eq_none_iff.mp hfirst)
        rw [hget]
        exact ⟨s.heap.functions, rfl⟩
    | some d =>
        obtain ⟨hdeclares, before, above, hsplit, hbefore⟩ := Delegate.first?_eq_some_iff.mp hfirst
        exact (hreads before d above hsplit hbefore hdeclares).ending_eq

/-! ### An heir of a class with a function and a field of one name -/

/-- The function `m` of the class `A`. -/
def twofoldCode : FunctionDef := ⟨"m", ⟨[], none⟩, .plain default (.constant .null)⟩

/-- The class `A`, which has the fields `m` and `n` and the function `m`. -/
def twofoldClass : Class where
  name := "A"
  methods := [("m", .user twofoldCode)]
  fields := [("m", .slot none), ("n", .slot none)]
  superclass := none
  synthetic := false
  init := none

/-- The class `B`, which inherits from `A`. -/
def heirClass : Class := ⟨"B", [], [], some ⟨18⟩, false, none⟩

/-- A session in which `A` has been declared. -/
def withTwofold : Session :=
  { initial with
    heap := { Library.heap with classes := Library.heap.classes.push twofoldClass }
    env := (initial.atLine 0).env.put "A" (.classOf ⟨18⟩) }

/-- A session in which `B` has been declared too. -/
def withHeir : Session :=
  { withTwofold with
    heap := { withTwofold.heap with classes := withTwofold.heap.classes.push heirClass }
    env := (withTwofold.atLine 0).env.put "B" (.classOf ⟨19⟩) }

/-- A session with an object of `B`, which delegates to one of `A`. -/
def withObject : Session :=
  { withHeir with
    heap := { withHeir.heap with
      objects := #[⟨⟨18⟩, none, [("m", .null), ("n", .null)]⟩, ⟨⟨19⟩, some ⟨0⟩, []⟩] } }

/-- A host can have a class declared. -/
lemma hosted_classDef {got : List Value} {name : String} {superclass : Option String}
    {members : List Member} {s s' : Session} {v : Value} (hs : Hosted got s)
    (h : declareClass name superclass members (s.atLine 0) = .ok v s') : Hosted (v :: got) s' := by
  let e : Expr := .plain default (.classDef name superclass members)
  have hrun : Eval.run (.expr e) s = declareClass name superclass members (s.atLine 0) := by
    obtain ⟨n, hn⟩ : ∃ n, Eval.fuel = n + 1 := ⟨Eval.fuel - 1, by decide⟩
    rw [Eval.run, hn, perform_succ rfl]
    rfl
  have hanswer : (Request.host (.evaluate e)).answer s = ([v], s') := by
    rw [Request.answer, HostCall.carryOut, map_apply, hrun, h]
    rfl
  have hserved := hs.serve (.host (.evaluate e)) (List.forall_mem_nil _)
  rwa [serve, hanswer] at hserved

/-- A host can have the session with the object. -/
lemma reachable_withObject : withObject.Reachable := by
  have hA : declareClass "A" none
      [.field "m", .field "n", .method "m" twofoldCode.params twofoldCode.body]
      (initial.atLine 0) = .ok (.classOf ⟨18⟩) withTwofold := rfl
  have hB : declareClass "B" (some "A") [] (withTwofold.atLine 0) = .ok (.classOf ⟨19⟩) withHeir :=
    rfl
  have hobject : (Request.host (.instantiate ⟨19⟩ [])).answer withHeir =
      ([.object ⟨1⟩], withObject) := by
    have hnew : ∀ run, instantiate run ⟨19⟩ [] withHeir = .ok (.object ⟨1⟩) withObject :=
      fun _ => rfl
    rw [Request.answer, HostCall.carryOut, map_apply, hnew]
    rfl
  have hserved := (hosted_classDef (hosted_classDef (.start none .none .idle) hA) hB).serve
    (.host (.instantiate ⟨19⟩ [])) (List.forall_mem_singleton.mpr (.got List.mem_cons_self))
  rw [serve, hobject] at hserved
  exact .between hserved

/-- The object of `B` is asked first and that of `A` next. -/
lemma chain_withObject :
    withObject.heap.Chain ⟨1⟩ [⟨⟨1⟩, heirClass⟩, ⟨⟨0⟩, twofoldClass⟩] :=
  .link rfl rfl rfl (.last rfl rfl rfl)

/-- The function is bound to the object of `A`, which has no super-object. -/
theorem member_lookup_heir : withObject.Reachable ∧
    ∃ s', getMember (.object ⟨1⟩) "m" withObject = .ok (.function ⟨0⟩) s' ∧
      s'.heap.function? ⟨0⟩ = some ⟨twofoldCode, some (.object ⟨0⟩, .null)⟩ := by
  obtain ⟨chain, hchain, -, hreads, -⟩ := member_lookup (r := ⟨1⟩) reachable_withObject rfl "m"
  have h := hreads [⟨⟨1⟩, heirClass⟩] ⟨⟨0⟩, twofoldClass⟩ [] (hchain.unique chain_withObject)
    (List.forall_mem_singleton.mpr rfl) rfl
  have hm : twofoldClass.methods.find? "m" = some (.user twofoldCode) := rfl
  refine ⟨reachable_withObject, ?_⟩
  generalize getMember (.object ⟨1⟩) "m" withObject = result at h
  cases h with
  | user hfound =>
      cases hm.symm.trans hfound
      exact ⟨_, rfl, rfl⟩
  | native hfound => cases hm.symm.trans hfound
  | slot hfound _ => cases hm.symm.trans hfound
  | computed hfound _ => cases hm.symm.trans hfound

/-- **What is read after a member has been written.** In every session that a host can come across:
writing a member of an object changes one slot of that name, on the first object whose class
declares the name, or nothing. Afterwards the member reads as what was written, unless that class
has a function of the name too, which is read then. A name that reads as a function can be written
exactly if the class with the function has a slot of the name too. -/
theorem read_after_write (hs : s.Reachable) (ho : s.heap.object? r = some o) (name : String)
    (v : Value) :
    ∃ chain, s.heap.Chain r chain ∧
      (∀ s', setMember (.object r) name v s = .ok () s' → ∃ d ∈ chain,
        Delegate.first? chain name = some d ∧
        s' = { s with heap := s.heap.setSlot d.object name v } ∧
        (∀ r' other, s'.heap.slot? r' other =
          if r' = d.object ∧ other = name then some v else s.heap.slot? r' other) ∧
        (d.ofClass.methods.has name = false → getMember (.object r) name s' = .ok v s') ∧
        (d.ofClass.methods.has name = true →
          ∃ f s'', getMember (.object r) name s' = .ok f s'' ∧ f.kind = .function)) ∧
      (∀ signal s', setMember (.object r) name v s = .error signal s' → s' = s) ∧
      ∀ d, Delegate.first? chain name = some d → d.ofClass.methods.has name = true →
        ((∃ signal, setMember (.object r) name v s = .error signal s) ↔
          d.ofClass.hasSlot name = false) := by
  obtain ⟨chain, hchain⟩ := hs.sound.heap.exists_chain ho
  have hd := hchain.delegates hs.sound.heap
  have hc := hchain.classified
  have hwrites : Writes s name v chain (setMember (.object r) name v s) := writes_setMember hd hc
  refine ⟨chain, hchain, ?_⟩
  generalize setMember (.object r) name v s = result at hwrites
  cases hwrites with
  | refused hnone =>
      refine ⟨fun s' h => ?_, fun _ s' h => ?_, fun d hfirst _ => ?_⟩
      · cases h
      · cases h
        rfl
      · exact ⟨fun _ => hnone d hfirst, fun _ => ⟨_, rfl⟩⟩
  | @written d hfirst hslot =>
      refine ⟨fun s' h => ?_, fun _ s' h => ?_, fun d' hfirst' _ => ?_⟩
      · cases h
        have hmem : d ∈ chain := List.mem_of_find?_eq_some hfirst
        have hslots := hc.slot?_setSlot hmem name v
        -- the walk of the reader ends at the object that was written to
        obtain ⟨hdeclares, before, above, rfl, hbefore⟩ := Delegate.first?_eq_some_iff.mp hfirst
        have hreads : Reads { s with heap := s.heap.setSlot d.object name v } name d above
            (getMember (.object r) name { s with heap := s.heap.setSlot d.object name v }) :=
          reads_getMember ((s.heap.delegates_setSlot _ _ _ _).trans hd) (hc.setSlot _ _ _) hbefore
            hdeclares
        refine ⟨d, hmem, hfirst, rfl, hslots, fun hm => ?_, hreads.of_method⟩
        rw [hreads.of_slot hm hslot, hslots, if_pos ⟨rfl, rfl⟩, Option.getD_some]
      · cases h
      · obtain rfl : d = d' := Option.some.inj (hfirst.symm.trans hfirst')
        rw [hslot]
        refine ⟨?_, Bool.noConfusion⟩
        rintro ⟨signal, h⟩
        cases h

/-- The field `n` of the object of `A` is written through that of `B` and read back. -/
theorem read_after_write_heir : withObject.Reachable ∧
    ∃ s', setMember (.object ⟨1⟩) "n" (.bool true) withObject = .ok () s' ∧
      getMember (.object ⟨1⟩) "n" s' = .ok (.bool true) s' := by
  obtain ⟨chain, hchain, hwritten, -, -⟩ :=
    read_after_write (r := ⟨1⟩) reachable_withObject rfl "n" (.bool true)
  have hset : setMember (.object ⟨1⟩) "n" (.bool true) withObject =
      .ok () { withObject with heap := withObject.heap.setSlot ⟨0⟩ "n" (.bool true) } := rfl
  obtain ⟨d, -, hfirst, -, -, hread, -⟩ := hwritten _ hset
  rw [hchain.unique chain_withObject] at hfirst
  cases hfirst
  exact ⟨reachable_withObject, _, hset, hread rfl⟩

/-- A member can be written that reads as a function before and after. -/
theorem not_read_after_write :
    ¬ ∀ (s s' : Session) (r : ObjectRef) (name : String) (v : Value), s.Reachable →
      setMember (.object r) name v s = .ok () s' → getMember (.object r) name s' = .ok v s' := by
  intro hall
  have hread := hall withObject
    { withObject with heap := withObject.heap.setSlot ⟨0⟩ "m" (.bool true) } ⟨1⟩ "m" (.bool true)
    reachable_withObject rfl
  cases hread

end Session

end Tern
