/-
Computations beside the stack. Operators, members and most operations of the library read the
session, change its heap and perhaps fail, but they leave the stack, the limit of frames, the
modules and the files alone, and they run nothing.

* `Session.Beside`: sessions that differ beside the stack only.
* `Eval.Local`: a computation that leaves such a session, and ends in a failure without a trace if
  it gives no value.
* `Eval.Local.bind` and the rules beside it; then one lemma for each such computation.
-/
import Tern.Eval.Perform
import Tern.Proofs.Growth

namespace Tern

/-- Sessions that differ beside the stack only; the heap of the second is later. -/
structure Session.Beside (s s' : Session) : Prop where
  env : s'.env = s.env
  maxDepth : s'.maxDepth = s.maxDepth
  imported : s'.imported = s.imported
  moduleRoot : s'.moduleRoot = s.moduleRoot
  files : s'.files = s.files
  heap : s.heap.Grows s'.heap

lemma Session.Beside.refl (s : Session) : s.Beside s :=
  ⟨rfl, rfl, rfl, rfl, rfl, .refl _⟩

lemma Session.Beside.trans {s s' s'' : Session} (h₁ : s.Beside s') (h₂ : s'.Beside s'') :
    s.Beside s'' where
  env := h₂.env.trans h₁.env
  maxDepth := h₂.maxDepth.trans h₁.maxDepth
  imported := h₂.imported.trans h₁.imported
  moduleRoot := h₂.moduleRoot.trans h₁.moduleRoot
  files := h₂.files.trans h₁.files
  heap := h₁.heap.trans h₂.heap

/-- The session with the innermost frame at a line. -/
def Session.atLine (s : Session) (line : Nat) : Session := { s with env := s.env.mark line }

/-- A later heap is beside the stack. -/
lemma Session.beside_heap (s : Session) {h : Heap} (hg : s.heap.Grows h) :
    s.Beside { s with heap := h } :=
  ⟨rfl, rfl, rfl, rfl, rfl, hg⟩

namespace Eval

variable {α β : Type}

/-- The second of two computations runs from where the first has ended, if that gave a value. -/
lemma bind_apply (x : Eval α) (f : α → Eval β) (s : Session) :
    (x >>= f) s = match x s with
      | .ok a s' => f a s'
      | .error signal s' => .error signal s' := by
  change EStateM.bind x f s = _
  rw [EStateM.bind]
  cases x s <;> rfl

@[simp]
lemma pure_apply (a : α) (s : Session) : (Pure.pure a : Eval α) s = .ok a s := rfl

lemma map_apply (f : α → β) (x : Eval α) (s : Session) :
    (f <$> x) s = match x s with
      | .ok a s' => .ok (f a) s'
      | .error signal s' => .error signal s' :=
  bind_apply x (fun a => Pure.pure (f a)) s

@[simp]
lemma get_apply (s : Session) : (MonadState.get : Eval Session) s = .ok s s := rfl

@[simp]
lemma heap_apply (s : Session) : heap s = .ok s.heap s := rfl

@[simp]
lemma modifyHeap_apply (f : Heap → Heap) (s : Session) :
    modifyHeap f s = .ok () { s with heap := f s.heap } := rfl

@[simp]
lemma newObject_apply (o : Instance) (s : Session) :
    newObject o s = .ok (s.heap.addObject o).1 { s with heap := (s.heap.addObject o).2 } := rfl

@[simp]
lemma mark_apply (line : Nat) (s : Session) : mark line s = .ok () (s.atLine line) := rfl

@[simp]
lemma bindName_apply (name : String) (v : Value) (s : Session) :
    bindName name v s = .ok () { s with env := s.env.bind name v } := rfl

/-- What leaving a frame makes of a result. -/
def leaveFrame : EStateM.Result Signal Session α → EStateM.Result Signal Session α
  | .ok a s => .ok a { s with env := s.env.pop }
  | .error signal s => .error (signal.traced s.env) { s with env := s.env.pop }

/-- What going back to a file makes of a result. -/
def leaveFile (previous : String) :
    EStateM.Result Signal Session α → EStateM.Result Signal Session α
  | .ok a s => .ok a { s with env := s.env.setFile previous }
  | .error signal s => .error (signal.traced s.env) { s with env := s.env.setFile previous }

/-- What the end of handling a failure makes of a result. -/
def leaveHandler : EStateM.Result Signal Session α → EStateM.Result Signal Session α
  | .ok a s => .ok a { s with env := s.env.popSnapshot }
  | .error signal s => .error signal { s with env := s.env.popSnapshot }

section

variable {result : EStateM.Result Signal Session α} {signal : Signal} {s : Session}

/-- A signal that leaves a frame was raised in it. -/
lemma exists_of_leaveFrame_eq_error (h : leaveFrame result = .error signal s) :
    ∃ raised s₁, result = .error raised s₁ ∧ signal = raised.traced s₁.env ∧
      s = { s₁ with env := s₁.env.pop } := by
  cases result with
  | ok a s₁ => cases h
  | error raised s₁ =>
      cases h
      exact ⟨raised, s₁, rfl, rfl, rfl⟩

lemma exists_of_leaveFile_eq_error {previous : String}
    (h : leaveFile previous result = .error signal s) :
    ∃ raised s₁, result = .error raised s₁ ∧ signal = raised.traced s₁.env ∧
      s = { s₁ with env := s₁.env.setFile previous } := by
  cases result with
  | ok a s₁ => cases h
  | error raised s₁ =>
      cases h
      exact ⟨raised, s₁, rfl, rfl, rfl⟩

lemma exists_of_leaveHandler_eq_error (h : leaveHandler result = .error signal s) :
    ∃ s₁, result = .error signal s₁ ∧ s = { s₁ with env := s₁.env.popSnapshot } := by
  cases result with
  | ok a s₁ => cases h
  | error raised s₁ =>
      cases h
      exact ⟨s₁, rfl, rfl⟩

end

/-- A body in a frame of its own, while there is room for the frame. -/
lemma inFrame_apply (name file : String) (line : Nat) (body : Eval α) {s : Session}
    (h : s.env.depth < s.maxDepth) :
    inFrame name file line body s =
      leaveFrame (body { s with env := s.env.push name file line }) :=
  if_neg (Nat.not_le.mpr h)

/-- There is no room for the frame. -/
lemma inFrame_full (name file : String) (line : Nat) (body : Eval α) {s : Session}
    (h : s.maxDepth ≤ s.env.depth) :
    inFrame name file line body s = .error (.fault (.tooManyFrames s.maxDepth) []) s :=
  if_pos h

lemma inFile_apply (file : String) (body : Eval α) (s : Session) :
    inFile file body s = leaveFile s.env.file (body { s with env := s.env.setFile file }) := rfl

lemma handling_apply (trace : Trace) (body : Eval α) (s : Session) :
    handling trace body s = leaveHandler (body { s with env := s.env.pushSnapshot trace }) := rfl

/-- The value of a name is what the environment has for it. -/
lemma perform_name (rounds calls levels : Nat) (site : Site) (name : String) (s : Session) :
    perform rounds calls (levels + 1) (.expr (.node site (.name name))) s =
      orFail (s.env.get name) (s.atLine site.token.line) := by
  rw [perform_succ rfl]
  rfl

/-- The computation leaves a session that differs beside the stack only, and if it gives no value
it ends in a failure without a trace. -/
def Local (x : Eval α) : Prop :=
  ∀ s, match x s with
    | .ok _ s' => s.Beside s'
    | .error signal s' => s.Beside s' ∧ ∃ fault, signal = .fault fault []

namespace Local

lemma pure (a : α) : Local (Pure.pure a : Eval α) := fun s => .refl s

lemma fail (fault : Fault) : Local (Eval.fail fault : Eval α) := fun s => ⟨.refl s, fault, rfl⟩

lemma bind {x : Eval α} {f : α → Eval β} (hx : Local x) (hf : ∀ a, Local (f a)) :
    Local (x >>= f) := by
  intro s
  have hxs := hx s
  rw [bind_apply]
  cases hr : x s with
  | error signal s' =>
      rw [hr] at hxs
      exact hxs
  | ok a s' =>
      rw [hr] at hxs
      have hfs := hf a s'
      simp only
      cases hr' : f a s' with
      | ok b s'' =>
          rw [hr'] at hfs
          exact hxs.trans hfs
      | error signal s'' =>
          rw [hr'] at hfs
          exact ⟨hxs.trans hfs.1, hfs.2⟩

lemma map {x : Eval α} (f : α → β) (hx : Local x) : Local (f <$> x) :=
  bind hx fun a => pure (f a)

lemma orFail (r : Except Fault α) : Local (Eval.orFail r) := by
  cases r with
  | ok a => exact pure a
  | error fault => exact fail fault

lemma get : Local (MonadState.get : Eval Session) := fun s => .refl s

lemma heap : Local Eval.heap := bind get fun s => pure s.heap

lemma modifyHeap {f : Heap → Heap} (hf : ∀ h : Heap, h.Grows (f h)) : Local (Eval.modifyHeap f) :=
  fun s => s.beside_heap (hf s.heap)

lemma display (v : Value) : Local (Eval.display v) := bind heap fun _ => pure _

lemma subject (v : Value) : Local (Eval.subject v) := bind heap fun _ => pure _

/-! ### New cells -/

lemma newList (items : Array Value) : Local (Eval.newList items) :=
  fun s => s.beside_heap (s.heap.grows_addList items)

lemma newMap (entries : Entries) : Local (Eval.newMap entries) :=
  fun s => s.beside_heap (s.heap.grows_addMap entries)

lemma newObject (o : Instance) : Local (Eval.newObject o) :=
  fun s => s.beside_heap (s.heap.grows_addObject o)

lemma newClass (c : Class) : Local (Eval.newClass c) :=
  fun s => s.beside_heap (s.heap.grows_addClass c)

lemma newFunction (f : Closure) : Local (Eval.newFunction f) :=
  fun s => s.beside_heap (s.heap.grows_addFunction f)

/-! ### The host -/

lemma ask (question : Host → Nat → α) : Local (Eval.ask question) :=
  fun _ => ⟨rfl, rfl, rfl, rfl, rfl, .refl _⟩

lemma addLists (atHand : List Value) (lists : List (List Host.Reply)) :
    Local (Eval.addLists atHand lists) := by
  induction lists generalizing atHand with
  | nil => exact pure _
  | cons items rest ih => exact bind (newList _) fun _ => ih _

lemma hostOperation (number : Nat) (arguments : List Value) :
    Local (Eval.hostOperation number arguments) :=
  bind heap fun _ => bind (ask _) fun _ => bind (orFail _) fun _ => bind (addLists _ _) fun _ =>
    pure _

lemma hostMember (number : Nat) (this : Value) : Local (Eval.hostMember number this) :=
  bind get fun _ => bind (orFail _) fun _ => pure _

/-! ### Operators -/

lemma unary (op : UnaryOp) (v : Value) : Local (Eval.unary op v) := by
  unfold Eval.unary
  split
  · exact pure _
  · exact fail _
  · exact pure _

lemma binary (op : BinaryOp) (v w : Value) : Local (Eval.binary op v w) := by
  unfold Eval.binary
  split
  · exact bind heap fun _ => pure _
  · exact bind heap fun _ => pure _
  · exact bind heap fun _ => pure _
  · exact orFail _
  · exact orFail _
  · exact bind heap fun _ => newList _
  · exact fail _

lemma position (index : Value) (length : Nat) : Local (Eval.position index length) := by
  unfold Eval.position
  split
  · split
    · split
      · exact pure _
      · exact bind heap fun _ => fail _
    · exact bind heap fun _ => fail _
  · exact fail _

lemma getIndex (target index : Value) : Local (Eval.getIndex target index) := by
  unfold Eval.getIndex
  split
  · exact bind heap fun _ => bind (position _ _) fun _ => pure _
  · exact bind (position _ _) fun _ => pure _
  · exact bind (position _ _) fun _ => pure _
  · refine bind heap fun h => ?_
    split
    · exact pure _
    · exact fail _
  · exact fail _

lemma setIndex (target index v : Value) : Local (Eval.setIndex target index v) := by
  unfold Eval.setIndex
  split
  · refine bind heap fun _ => bind (position _ _) fun _ => modifyHeap fun h => ?_
    exact h.grows_modifyList _ _
  · exact modifyHeap fun h => h.grows_modifyMap _ _
  · exact fail _
  · exact fail _
  · exact fail _

lemma iterationItems (v : Value) : Local (Eval.iterationItems v) := by
  unfold Eval.iterationItems
  split
  · exact bind heap fun _ => pure _
  · exact pure _
  · exact bind heap fun _ => pure _
  · exact pure _
  · exact fail _

lemma spreadItems (v : Value) : Local (Eval.spreadItems v) := by
  unfold Eval.spreadItems
  split
  · exact bind heap fun _ => pure _
  · exact pure _
  · exact fail _

/-! ### Members -/

lemma compute (getter : Getter) (v : Value) : Local (Eval.compute getter v) := by
  unfold Eval.compute
  split <;> first | exact pure _ | exact fail _ | exact hostMember _ _ |
    exact bind heap fun _ => pure _

lemma classMember? (c : Class) (this parent : Value) (name : String) :
    Local (Eval.classMember? c this parent name) := by
  unfold Eval.classMember?
  split
  · exact map some (newFunction _)
  · exact pure _
  · split
    · split
      · exact bind heap fun _ => pure _
      · exact pure _
    · exact map some (compute _ _)
    · exact pure _

lemma classOfObject? (r : ObjectRef) : Local (Eval.classOfObject? r) :=
  bind heap fun _ => pure _

lemma chainMember? (name : String) (chain : List ObjectRef) :
    Local (Eval.chainMember? name chain) := by
  induction chain with
  | nil => exact pure _
  | cons r rest ih =>
      refine bind (classOfObject? r) fun c => ?_
      cases c with
      | none => exact pure _
      | some c =>
          refine bind (classMember? c _ _ name) fun v => ?_
          cases v with
          | none => exact ih
          | some v => exact pure _

lemma findMember? (receiver : Value) (name : String) : Local (Eval.findMember? receiver name) := by
  refine bind heap fun h => ?_
  split
  · exact chainMember? name _
  · split
    · exact classMember? _ _ _ name
    · exact pure _

lemma lastAsked (receiver : Value) : Local (Eval.lastAsked receiver) := by
  unfold Eval.lastAsked
  split
  · exact bind heap fun _ => pure _
  · exact pure _

lemma getMember (receiver : Value) (name : String) : Local (Eval.getMember receiver name) := by
  refine bind (findMember? receiver name) fun v => ?_
  cases v with
  | some v => exact pure _
  | none => exact bind (lastAsked receiver) fun _ => bind (subject _) fun _ => fail _

lemma setClassMember (c : Class) (this : Value) (name : String) (v : Value) :
    Local (Eval.setClassMember c this name v) := by
  unfold Eval.setClassMember
  split
  · split
    · exact bind (modifyHeap fun h => h.grows_setSlot _ _ _) fun _ => pure _
    · exact bind (subject _) fun _ => fail _
  · exact bind (subject _) fun _ => fail _
  · split
    · exact bind (subject _) fun _ => fail _
    · exact pure _

lemma setChainMember (name : String) (v : Value) (chain : List ObjectRef) :
    Local (Eval.setChainMember name v chain) := by
  induction chain with
  | nil => exact pure _
  | cons r rest ih =>
      refine bind (classOfObject? r) fun c => ?_
      cases c with
      | none => exact pure _
      | some c =>
          refine bind (setClassMember c _ name v) fun done => ?_
          cases done with
          | false => exact ih
          | true => exact pure _

lemma setMember (receiver : Value) (name : String) (v : Value) :
    Local (Eval.setMember receiver name v) := by
  have refuse : Local (do
      Eval.fail (.noMember (← Eval.subject (← Eval.lastAsked receiver)) name) : Eval Unit) :=
    bind (lastAsked receiver) fun _ => bind (subject _) fun _ => fail _
  have settle : ∀ done : Bool, Local (if !done then do
      Eval.fail (.noMember (← Eval.subject (← Eval.lastAsked receiver)) name)
      else Pure.pure () : Eval Unit) := by
    intro done
    cases done with
    | false => exact refuse
    | true => exact pure _
  refine bind heap fun h => ?_
  split
  · exact bind (setChainMember name v _) settle
  · split
    · exact bind (setClassMember _ _ name v) settle
    · exact bind (pure _) settle

/-! ### Operations of the library -/

lemma textArgument (function : String) (v : Value) : Local (Eval.textArgument function v) := by
  cases v <;> first | exact pure _ | exact fail _

lemma numberArgument (function : String) (v : Value) : Local (Eval.numberArgument function v) := by
  cases v <;> first | exact pure _ | exact fail _

lemma listArgument (function : String) (v : Value) : Local (Eval.listArgument function v) := by
  cases v <;> first | exact pure _ | exact fail _

lemma itemsArgument (function : String) (v : Value) : Local (Eval.itemsArgument function v) :=
  bind (listArgument function v) fun _ => bind heap fun _ => pure _

lemma mapArgument (function : String) (v : Value) : Local (Eval.mapArgument function v) := by
  cases v <;> first | exact pure _ | exact fail _

lemma boundArgument (v : Value) : Local (Eval.boundArgument v) := by
  unfold Eval.boundArgument
  split
  · split
    · exact pure _
    · exact fail _
  · exact fail _

lemma joinItems (list : Value) (separator : String) : Local (Eval.joinItems list separator) :=
  bind (itemsArgument _ list) fun _ => bind heap fun _ => pure _

lemma toNumber (v : Value) : Local (Eval.toNumber v) := by
  unfold Eval.toNumber
  split
  · exact pure _
  · split
    · exact pure _
    · exact fail _
  · exact fail _

lemma readClock : Local Eval.readClock := bind (ask _) fun _ => pure _

lemma printLine (line : String) : Local (Eval.printLine line) :=
  fun _ => ⟨rfl, rfl, rfl, rfl, rfl, .refl _⟩

lemma scalarOperation (operation : Primitive) (arguments : List Value) :
    Local (Eval.scalarOperation operation arguments) := by
  unfold Eval.scalarOperation
  split
  · exact bind (display _) fun _ => pure _
  · exact bind (textArgument _ _) fun _ => pure _
  · exact bind (textArgument _ _) fun _ => pure _
  · exact bind (textArgument _ _) fun _ => pure _
  · exact bind (textArgument _ _) fun _ => bind (textArgument _ _) fun _ => newList _
  · exact bind (textArgument _ _) fun _ => bind (textArgument _ _) fun _ => pure _
  · exact bind (textArgument _ _) fun _ => newList _
  · exact toNumber _
  · exact bind (numberArgument _ _) fun _ => pure _
  · exact bind (numberArgument _ _) fun _ => pure _
  · exact bind (numberArgument _ _) fun _ => pure _
  · exact bind (numberArgument _ _) fun _ => pure _
  · exact pure _

lemma entryOperation (operation : Primitive) (arguments : List Value) :
    Local (Eval.entryOperation operation arguments) := by
  unfold Eval.entryOperation
  split
  · exact newMap _
  · exact bind (mapArgument _ _) fun _ => bind heap fun _ => newList _
  · exact bind (mapArgument _ _) fun _ => bind heap fun _ => newList _
  · exact bind (mapArgument _ _) fun _ => bind heap fun _ => pure _
  · exact bind (mapArgument _ _) fun _ => bind heap fun _ => pure _
  · exact bind (mapArgument _ _) fun _ => bind heap fun _ => pure _
  · refine bind (mapArgument _ _) fun _ => bind heap fun _ => ?_
    exact bind (modifyHeap fun h => h.grows_modifyMap _ _) fun _ => pure _
  · exact pure _
  · split
    · exact newList _
    · exact fail _
  · exact pure _

lemma exceptionOperation (operation : Primitive) (arguments : List Value) :
    Local (Eval.exceptionOperation operation arguments) := by
  unfold Eval.exceptionOperation
  split
  · split
    · exact bind (modifyHeap fun h => h.grows_setSlot _ _ _) fun _ => pure _
    · exact fail _
  · split
    · refine bind heap fun h => ?_
      split
      · exact pure _
      · exact pure _
    · exact fail _
  · exact pure _

/-! ### Classes and modules -/

lemma superclassNamed (className : String) (name : Option String) :
    Local (Eval.superclassNamed className name) := by
  cases name with
  | none => exact pure _
  | some name =>
      refine bind get fun s => bind (orFail _) fun v => ?_
      split
      · split
        · split
          · exact fail _
          · exact pure _
        · exact pure _
      · exact fail _

lemma loadModule (relative : String) : Local (Eval.loadModule relative) := by
  unfold Eval.loadModule
  split
  · exact pure _
  · have seek : ∀ path, Local (modify fun s : Session => { s with sought := path :: s.sought }) :=
      fun _ _ => ⟨rfl, rfl, rfl, rfl, rfl, .refl _⟩
    refine bind get fun s => bind (seek _) fun _ => ?_
    split
    · exact fail _
    · exact pure _
    · exact fail _

end Local

end Eval

end Tern
