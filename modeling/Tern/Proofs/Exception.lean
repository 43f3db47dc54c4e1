/-
The exceptions of the library. A failure becomes an exception by running the constructor of the
class of its kind, and what that comes to can be said outright: two objects are added to the heap,
and nothing else changes.

* `Session.HasLibrary`: the classes and functions of the library are where they were put.
* `Heap.addException`: the objects of a failure.
* `Eval.instantiate_error`: the constructor adds them, if there is room for a frame.
* `Eval.materialize_fault`: so the exception of a failure is known.
-/
import Tern.Proofs.Frames

namespace Tern

/-- The classes and functions of the library are where they were put. -/
def Session.HasLibrary (s : Session) : Prop := Library.heap.Grows s.heap

lemma Session.hasLibrary_initial : Session.initial.HasLibrary := .refl _

lemma Session.Follows.hasLibrary {s s' : Session} (h : s.Follows s') (hs : s.HasLibrary) :
    s'.HasLibrary :=
  Heap.Grows.trans hs h.heap

namespace Library

/-- The class of all exceptions. -/
def exceptionClass : Class where
  name := "Exception"
  methods := [("init", .native ⟨30⟩), ("toString", .native ⟨31⟩)]
  fields := [("message", .slot none)]
  superclass := none
  synthetic := false
  init := none

/-- The class of the failures of a kind. -/
def errorClass (kind : ErrorKind) : Class where
  name := kind.name
  methods := []
  fields := []
  superclass := some BuiltinClass.exception.ref
  synthetic := false
  init := none

/-- The constructor of exceptions. -/
def initException : Native where
  name := "Exception.init"
  overloads := [(.exactly 0, .initException), (.exactly 1, .initException)]

lemma class?_exception : heap.class? BuiltinClass.exception.ref = some exceptionClass := rfl

lemma class?_error (kind : ErrorKind) :
    heap.class? (BuiltinClass.error kind).ref = some (errorClass kind) := by
  cases kind <;> rfl

lemma native?_init : heap.native? ⟨30⟩ = some initException := rfl

end Library

namespace Heap

/-! ### The objects of a failure -/

/-- Adds the objects of an exception: one for the class of all exceptions, which has the message,
and one for the class of its kind, which delegates to the first. -/
def addException (h : Heap) (kind : ErrorKind) (message : Value) : ObjectRef × Heap :=
  let (parent, h) := h.addObject ⟨BuiltinClass.exception.ref, none, [("message", message)]⟩
  h.addObject ⟨(BuiltinClass.error kind).ref, some parent, []⟩

/-- An object whose slot is written as soon as it is there. -/
lemma setSlot_addObject (h : Heap) (o : Instance) (name : String) (v : Value) :
    (h.addObject o).2.setSlot (h.addObject o).1 name v =
      (h.addObject { o with slots := o.slots.put name v }).2 := by
  have hcells : ∀ f : Instance → Instance,
      (h.objects.push o).modify h.objects.size f = h.objects.push (f o) := by
    intro f
    apply Array.ext_getElem?
    intro i
    rw [Array.getElem?_modify, Array.getElem?_push, Array.getElem?_push]
    by_cases hi : i = h.objects.size
    · simp [hi]
    · simp [hi, Ne.symm hi]
  rw [addObject, setSlot, hcells]
  rfl

/-- An object whose slot is written after another object has been added. -/
lemma setSlot_addObject_addObject (h : Heap) (o p : Instance) (name : String) (v : Value) :
    ((h.addObject o).2.addObject p).2.setSlot (h.addObject o).1 name v =
      ((h.addObject { o with slots := o.slots.put name v }).2.addObject p).2 := by
  have hcells : ∀ f : Instance → Instance, ((h.objects.push o).push p).modify h.objects.size f =
      (h.objects.push (f o)).push p := by
    intro f
    apply Array.ext_getElem?
    intro i
    simp only [Array.getElem?_modify, Array.getElem?_push, Array.size_push]
    by_cases hi : i = h.objects.size
    · simp [hi]
    · simp [hi, Ne.symm hi]
  simp only [addObject, setSlot]
  rw [hcells]

/-- The exception is the second object that is added. -/
lemma fst_addException (h : Heap) (kind : ErrorKind) (message : Value) :
    (h.addException kind message).1 = ⟨h.objects.size + 1⟩ := by
  simp [addException, addObject]

/-- The two objects of an exception. -/
lemma object?_addException (h : Heap) (kind : ErrorKind) (message : Value) :
    (h.addException kind message).2.object? (h.addException kind message).1 =
        some ⟨(BuiltinClass.error kind).ref, some ⟨h.objects.size⟩, []⟩ ∧
      (h.addException kind message).2.object? ⟨h.objects.size⟩ =
        some ⟨BuiltinClass.exception.ref, none, [("message", message)]⟩ := by
  rw [fst_addException]
  simp only [object?, addException, addObject, Array.getElem?_push, Array.size_push]
  simp

/-- Nothing was where the exception is. -/
lemma object?_addException_eq_none (h : Heap) (kind : ErrorKind) (message : Value) :
    h.object? (h.addException kind message).1 = none := by
  simp [fst_addException, object?]

lemma delegates_addException (h : Heap) (kind : ErrorKind) (message : Value) :
    (h.addException kind message).2.delegates (h.addException kind message).1 =
      [(h.addException kind message).1, ⟨h.objects.size⟩] := by
  obtain ⟨hr, hp⟩ := h.object?_addException kind message
  have hn : (h.addException kind message).2.objects.size = h.objects.size + 2 := by
    simp [addException, addObject]
  simp [delegates, delegatesUpTo, hn, hr, hp]

lemma grows_addException (h : Heap) (kind : ErrorKind) (message : Value) :
    h.Grows (h.addException kind message).2 :=
  (h.grows_addObject _).trans (grows_addObject _ _)

end Heap

namespace Eval

variable {run : Runner} {s : Session}

/-! ### The constructor of an exception -/

lemma buildLevel_exception (hl : s.HasLibrary) (hd : s.env.depth < s.maxDepth) :
    buildLevel run BuiltinClass.exception.ref none s =
      .ok ⟨s.heap.objects.size⟩ { s with heap := (s.heap.addObject
        ⟨BuiltinClass.exception.ref, none, [("message", .null)]⟩).2 } := by
  have hc : (s.heap.addObject ⟨BuiltinClass.exception.ref, none, []⟩).2.class?
      BuiltinClass.exception.ref = some Library.exceptionClass := hl.class? Library.class?_exception
  have hslots : slotsOf Library.exceptionClass = [("message", none)] := rfl
  have hroom : ({ s with heap := (s.heap.addObject
      ⟨BuiltinClass.exception.ref, none, []⟩).2 } : Session).env.depth < s.maxDepth := hd
  simp only [buildLevel, bind_apply, newObject_apply, heap_apply, get_apply, hc, hslots,
    List.isEmpty_cons, Bool.false_eq_true, if_false, inFrame_apply _ _ _ _ hroom, bindName_apply,
    fillSlots, pure_apply, modifyHeap_apply, Heap.setSlot_addObject]
  rfl

lemma buildLevel_error (kind : ErrorKind) (parent : Option ObjectRef) (hl : s.HasLibrary) :
    buildLevel run (BuiltinClass.error kind).ref parent s =
      .ok ⟨s.heap.objects.size⟩ { s with heap := (s.heap.addObject
        ⟨(BuiltinClass.error kind).ref, parent, []⟩).2 } := by
  have hc : (s.heap.addObject ⟨(BuiltinClass.error kind).ref, parent, []⟩).2.class?
      (BuiltinClass.error kind).ref = some (Library.errorClass kind) :=
    hl.class? (Library.class?_error kind)
  simp only [buildLevel, bind_apply, newObject_apply, heap_apply, hc]
  rfl

/-- The lineage of the class of a kind of failures. -/
lemma lineage_error (kind : ErrorKind) (hl : s.HasLibrary) :
    s.heap.lineage (BuiltinClass.error kind).ref =
      [(BuiltinClass.error kind).ref, BuiltinClass.exception.ref] := by
  have hk := hl.class? (Library.class?_error kind)
  have he := hl.class? Library.class?_exception
  obtain ⟨n, hn⟩ : ∃ n, s.heap.classes.size = n + 2 := by
    have hsize : (BuiltinClass.error kind).ref.index < s.heap.classes.size :=
      (Array.getElem?_eq_some_iff.mp hk).1
    have hindex : 10 ≤ (BuiltinClass.error kind).ref.index := Nat.le_add_right _ _
    exact ⟨s.heap.classes.size - 2, by omega⟩
  simp [Heap.lineage, Heap.lineageUpTo, hn, hk, he, Library.errorClass, Library.exceptionClass]

/-- The classes of failures have no native superclass. -/
lemma nativeSuperclass?_error (kind : ErrorKind) (hl : s.HasLibrary) :
    nativeSuperclass? s.heap [(BuiltinClass.error kind).ref, BuiltinClass.exception.ref] =
      none := by
  have hk := hl.class? (Library.class?_error kind)
  have he := hl.class? Library.class?_exception
  simp [nativeSuperclass?, hk, he, Library.errorClass, Library.exceptionClass]

lemma construct_error (kind : ErrorKind) (hl : s.HasLibrary) (hd : s.env.depth < s.maxDepth) :
    construct run (BuiltinClass.error kind).ref s =
      .ok (.object (s.heap.addException kind .null).1)
        { s with heap := (s.heap.addException kind .null).2 } := by
  have hl' : Session.HasLibrary { s with heap := (s.heap.addObject
      ⟨BuiltinClass.exception.ref, none, [("message", .null)]⟩).2 } :=
    Heap.Grows.trans hl (s.heap.grows_addObject _)
  simp only [construct, bind_apply, heap_apply, lineage_error kind hl,
    nativeSuperclass?_error kind hl, buildChain, pure_apply,
    map_apply, buildLevel_exception hl hd, buildLevel_error kind _ hl']
  rfl

/-- The class of a kind of failures leaves all members to the class of all exceptions. -/
lemma findMember?_addException (kind : ErrorKind) (message : Value) (name : String)
    (hl : s.HasLibrary) :
    findMember? (.object (s.heap.addException kind message).1) name
        { s with heap := (s.heap.addException kind message).2 } =
      classMember? Library.exceptionClass (.object ⟨s.heap.objects.size⟩) .null name
        { s with heap := (s.heap.addException kind message).2 } := by
  obtain ⟨hr, hp⟩ := s.heap.object?_addException kind message
  have hg := Heap.Grows.trans hl (s.heap.grows_addException kind message)
  have hk := hg.class? (Library.class?_error kind)
  have he := hg.class? Library.class?_exception
  have hnone : ∀ this parent, classMember? (Library.errorClass kind) this parent name =
      Pure.pure none := fun _ _ => rfl
  simp only [findMember?, bind_apply, heap_apply, Heap.delegates_addException, chainMember?,
    classOfObject?, Heap.classOfObject?, hr, hp, Option.map_some, Option.bind_some, hk, he,
    pure_apply, hnone, List.head?_nil, Option.elim_none]
  cases classMember? Library.exceptionClass (.object ⟨s.heap.objects.size⟩) .null name
      { s with heap := (s.heap.addException kind message).2 } with
  | ok member s' => cases member <;> rfl
  | error signal s' => rfl

/-- The constructor of an exception is that of the class of all exceptions. -/
lemma findMember?_init (kind : ErrorKind) (message : Value) (hl : s.HasLibrary) :
    findMember? (.object (s.heap.addException kind message).1) "init"
        { s with heap := (s.heap.addException kind message).2 } =
      .ok (some (.bound ⟨30⟩ (.object ⟨s.heap.objects.size⟩)))
        { s with heap := (s.heap.addException kind message).2 } := by
  rw [findMember?_addException kind message "init" hl]
  rfl

/-- The message of an exception is what its constructor was given. -/
lemma getMember_message (kind : ErrorKind) (message : Value) (hl : s.HasLibrary) :
    getMember (.object (s.heap.addException kind message).1) "message"
        { s with heap := (s.heap.addException kind message).2 } =
      .ok message { s with heap := (s.heap.addException kind message).2 } := by
  have hp := (s.heap.object?_addException kind message).2
  have hm : (s.heap.addException kind message).2.slot? ⟨s.heap.objects.size⟩ "message" =
      some message := by
    rw [Heap.slot?, hp]
    rfl
  have hf : classMember? Library.exceptionClass (.object ⟨s.heap.objects.size⟩) .null "message" =
      (do return some (((← heap).slot? ⟨s.heap.objects.size⟩ "message").getD .null)) := rfl
  rw [getMember, bind_apply, findMember?_addException kind message "message" hl, hf]
  simp only [bind_apply, heap_apply, pure_apply, hm, Option.getD_some]

/-- The constructor writes the message. -/
lemma callValue_init (hl : s.HasLibrary) (r : ObjectRef) (message : Value) :
    callValue run (.bound ⟨30⟩ (.object r)) [message] s =
      .ok .null { s with heap := s.heap.setSlot r "message" message } := by
  have hi := hl.native? Library.native?_init
  simp only [callValue, bind_apply, heap_apply, hi]
  rfl

/-- The class of a kind of failures gives an exception with a message, by a runner that calls
natives. -/
theorem instantiate_error {run' : Runner} (kind : ErrorKind) (message : Value)
    (hl : s.HasLibrary) (hd : s.env.depth < s.maxDepth)
    (hrun : ∀ r s, run (.call (.bound ⟨30⟩ (.object r)) [message]) s =
      callValue run' (.bound ⟨30⟩ (.object r)) [message] s) :
    instantiate run (BuiltinClass.error kind).ref [message] s =
      .ok (.object (s.heap.addException kind message).1)
        { s with heap := (s.heap.addException kind message).2 } := by
  have hk := hl.class? (Library.class?_error kind)
  have hl' : Session.HasLibrary { s with heap := (s.heap.addException kind .null).2 } :=
    Heap.Grows.trans hl (s.heap.grows_addException kind .null)
  have hm : (s.heap.addException kind .null).2.setSlot ⟨s.heap.objects.size⟩ "message" message =
      (s.heap.addException kind message).2 := s.heap.setSlot_addObject_addObject _ _ _ _
  simp only [instantiate, bind_apply, heap_apply, hk, Library.errorClass, Bool.false_eq_true,
    if_false, construct_error kind hl hd, findMember?_init kind .null hl, hrun, callValue_init hl',
    hm, pure_apply]
  simp only [Heap.fst_addException]

/-- Without room for a frame the slot of the message can not be filled. -/
lemma buildLevel_exception_full (hl : s.HasLibrary) (hd : s.maxDepth ≤ s.env.depth) :
    buildLevel run BuiltinClass.exception.ref none s =
      .error (.fault (.tooManyFrames s.maxDepth) []) { s with heap := (s.heap.addObject
        ⟨BuiltinClass.exception.ref, none, []⟩).2 } := by
  have hc : (s.heap.addObject ⟨BuiltinClass.exception.ref, none, []⟩).2.class?
      BuiltinClass.exception.ref = some Library.exceptionClass := hl.class? Library.class?_exception
  have hslots : slotsOf Library.exceptionClass = [("message", none)] := rfl
  have hfull : ∀ h, ({ s with heap := h } : Session).maxDepth ≤
      ({ s with heap := h } : Session).env.depth := fun _ => hd
  simp only [buildLevel, bind_apply, newObject_apply, heap_apply, get_apply, hc, hslots,
    List.isEmpty_cons, Bool.false_eq_true, if_false, inFrame_full _ _ _ _ (hfull _)]

/-- Without room for a frame there is no exception, but a failure of its own. -/
theorem instantiate_error_full (kind : ErrorKind) (arguments : List Value) (hl : s.HasLibrary)
    (hd : s.maxDepth ≤ s.env.depth) :
    instantiate run (BuiltinClass.error kind).ref arguments s =
      .error (.fault (.tooManyFrames s.maxDepth) []) { s with heap := (s.heap.addObject
        ⟨BuiltinClass.exception.ref, none, []⟩).2 } := by
  have hk := hl.class? (Library.class?_error kind)
  simp only [instantiate, bind_apply, heap_apply, hk, Library.errorClass, Bool.false_eq_true,
    if_false, construct, lineage_error kind hl, nativeSuperclass?_error kind hl, buildChain,
    map_apply, pure_apply, buildLevel_exception_full hl hd]

/-- A runner of which tasks without a frame have a call left calls natives. -/
lemma perform_call_bound (rounds calls levels : Nat) (r : NativeRef) (this : Value)
    (arguments : List Value) :
    perform rounds (calls + 1) (levels + 1) (.call (.bound r this) arguments) =
      callValue (perform rounds calls levels) (.bound r this) arguments :=
  perform_frameless_succ rfl

/-- The exception of a failure, and its trace. -/
theorem materialize_fault (rounds calls levels : Nat) (cause : Fault) (trace : Trace)
    (hl : s.HasLibrary) (hd : s.env.depth < s.maxDepth) :
    materialize (perform rounds (calls + 1) (levels + 1)) (.fault cause trace) s =
      .ok (.object (s.heap.addException cause.kind (.text cause.message)).1,
          Signal.traceIn s.env (.fault cause trace))
        { s with heap := (s.heap.addException cause.kind (.text cause.message)).2 } := by
  have hrun := fun (r : ObjectRef) s => congrFun
    (perform_call_bound rounds calls levels ⟨30⟩ (.object r) [.text cause.message]) s
  rw [materialize, bind_apply, instantiate_error cause.kind (.text cause.message) hl hd hrun]
  rfl

/-- A failure that fills the stack, or comes when it is full, gives no exception. -/
theorem materialize_fault_full (cause : Fault) (trace : Trace) (hl : s.HasLibrary)
    (hd : s.maxDepth ≤ s.env.depth) :
    materialize run (.fault cause trace) s =
      .error (.fault (.tooManyFrames s.maxDepth) []) { s with heap := (s.heap.addObject
        ⟨BuiltinClass.exception.ref, none, []⟩).2 } := by
  rw [materialize, bind_apply, instantiate_error_full cause.kind _ hl hd]

end Eval

end Tern
