/-
Computations that uphold what a session is made of. Started where the heap is well made and all
names are bound to sound values, they leave it so, and what they give or raise is sound. That is
said of two computations at once, which also have the same result there; so a runner may be replaced
by one that does something else in sessions that are not sound.

* `Session.Sound`, `Signal.Sound`: sessions and signals with sound values only.
* `Assertion`: what is said of a value in a heap and stays true as the heap grows.
* `Eval.Upholds`: the computations, from a heap on.
* `Eval.Upholds.bind`, `Eval.Upholds.inFrame` and the rules beside them; then one lemma for each
  computation that runs nothing: operators, members and most operations of the library.
-/
import Tern.Proofs.Chains
import Tern.Proofs.Local

namespace Tern

/-- The heap is well made, and names are bound to sound values. -/
structure Session.Sound (s : Session) : Prop where
  heap : s.heap.WellMade
  env : s.env.Hold s.heap.Sound

/-- What a signal carries is sound. -/
def Signal.Sound (h : Heap) : Signal → Prop
  | .thrown v _ | .leave v => h.Sound v
  | _ => True

/-- All values of a collection are sound. -/
def Heap.SoundAll {γ : Type} [Membership Value γ] (h : Heap) (vs : γ) : Prop := ∀ v ∈ vs, h.Sound v

lemma Heap.SoundAll.later {γ : Type} [Membership Value γ] {h h' : Heap} {vs : γ}
    (hg : h.Grows h') (hvs : h.SoundAll vs) : h'.SoundAll vs :=
  fun v hv => (hvs v hv).later hg

namespace Heap.SoundAll

variable {h : Heap} {v : Value}

lemma nil : h.SoundAll ([] : List Value) := List.forall_mem_nil _

lemma cons (hv : h.Sound v) {vs : List Value} (hvs : h.SoundAll vs) : h.SoundAll (v :: vs) :=
  List.forall_mem_cons.mpr ⟨hv, hvs⟩

lemma single (hv : h.Sound v) : h.SoundAll [v] := .cons hv .nil

lemma pair (hv : h.Sound v) {w : Value} (hw : h.Sound w) : h.SoundAll [v, w] :=
  .cons hv (.single hw)

lemma append {vs ws : List Value} (hvs : h.SoundAll vs) (hws : h.SoundAll ws) :
    h.SoundAll (vs ++ ws) := by
  intro v hv
  obtain hv | hv := List.mem_append.mp hv
  · exact hvs v hv
  · exact hws v hv

lemma none : h.SoundAll (Option.none : Option Value) := by
  rintro v ⟨⟩

lemma some (hv : h.Sound v) : h.SoundAll (Option.some v) := by
  rintro w ⟨⟩
  exact hv

lemma toArray {vs : List Value} (hvs : h.SoundAll vs) : h.SoundAll vs.toArray :=
  fun v hv => hvs v (List.mem_toArray.mp hv)

lemma toList {vs : Array Value} (hvs : h.SoundAll vs) : h.SoundAll vs.toList :=
  fun v hv => hvs v (Array.mem_toList_iff.mp hv)

lemma empty : h.SoundAll (#[] : Array Value) := toArray nil

lemma push {vs : Array Value} (hvs : h.SoundAll vs) (hv : h.Sound v) : h.SoundAll (vs.push v) :=
  Heap.forall_mem_push hvs hv

lemma pop {vs : Array Value} (hvs : h.SoundAll vs) : h.SoundAll vs.pop := by
  intro v hv
  rw [← Array.mem_toList_iff, Array.toList_pop] at hv
  exact hvs v (Array.mem_toList_iff.mp (List.mem_of_mem_dropLast hv))

lemma getD {vs : List Value} (hvs : h.SoundAll vs) (i : Nat) : h.Sound (vs[i]?.getD .null) := by
  cases hv : vs[i]? with
  | none => exact .null
  | some v => exact hvs v (List.mem_of_getElem? hv)

lemma texts {γ : Type} (f : γ → String) (cs : List γ) :
    h.SoundAll (cs.map fun c => Value.text (f c)).toArray := by
  refine toArray fun v hv => ?_
  obtain ⟨c, -, rfl⟩ := List.mem_map.mp hv
  exact .text _

end Heap.SoundAll

/-- What a map has under a key is sound, and so is a sound value in its place. -/
lemma Entries.Hold.getD {h : Heap} {m : Entries} (hm : m.Hold h.Sound) (key : Value)
    {default : Value} (hd : h.Sound default) : h.Sound ((m.find? key).getD default) := by
  cases hv : m.find? key with
  | none => exact hd
  | some v => exact hm.find? hv

/-! ### Assertions -/

/-- What is said of something in a heap and stays true as the heap grows. -/
structure Assertion (α : Type) where
  Holds : Heap → α → Prop
  later : ∀ {h h' : Heap} {a : α}, h.Grows h' → Holds h a → Holds h' a

namespace Assertion

/-- Nothing is said. -/
def any {α : Type} : Assertion α := ⟨fun _ _ => True, fun _ _ => trivial⟩

/-- A value is sound. -/
def sound : Assertion Value := ⟨Heap.Sound, .later⟩

/-- All values of a collection are sound. -/
def all {γ : Type} [Membership Value γ] : Assertion γ := ⟨Heap.SoundAll, .later⟩

/-- The entries of a map are well made. -/
def entries : Assertion Entries := ⟨Entries.WellMade, .later⟩

/-- An object is of a class. -/
def ofClass (ref : ClassRef) : Assertion ObjectRef :=
  ⟨fun h r => h.classOfObject? r = some ref, fun hg hr => hg.classOfObject? hr⟩

/-- A class, if it is there, is the well-made class of an object. -/
def classOf (r : ObjectRef) : Assertion (Option Class) where
  Holds h found := ∀ c ∈ found,
    (h.classOfObject? r).bind h.class? = some c ∧ ∃ ref, c.WellMade h ref
  later hg hfound c hc := by
    obtain ⟨hclass, ref, hmade⟩ := hfound c hc
    obtain ⟨own, hown, hclass⟩ := Option.bind_eq_some_iff.mp hclass
    refine ⟨?_, ref, hmade.later hg⟩
    rw [hg.classOfObject? hown]
    exact hg.class? hclass

/-- A class, if one is named, is there. -/
def present : Assertion (Option ClassRef) where
  Holds h found := ∀ r ∈ found, (h.class? r).isSome = true
  later hg hfound r hr := by
    obtain ⟨c, hc⟩ := Option.isSome_iff_exists.mp (hfound r hr)
    rw [hg.class? hc]
    rfl

/-- All names of an environment are bound to sound values. -/
def environment : Assertion Environment :=
  ⟨fun h e => e.Hold h.Sound, fun hg he => he.mono (.later hg)⟩

/-- An exception is sound, whatever its trace. -/
def exception : Assertion (Value × Trace) := ⟨fun h e => h.Sound e.1, fun hg he => he.later hg⟩

end Assertion

namespace Eval

variable {α β : Type} {h h' : Heap}

/-- A result that is left from a heap on: the heap has grown, and everything is sound. -/
inductive Upheld (h : Heap) (P : Assertion α) : EStateM.Result Signal Session α → Prop where
  | ok {a : α} {s : Session} (hg : h.Grows s.heap) (hs : s.Sound) (ha : P.Holds s.heap a) :
      Upheld h P (.ok a s)
  | error {signal : Signal} {s : Session} (hg : h.Grows s.heap) (hs : s.Sound)
      (hsignal : signal.Sound s.heap) : Upheld h P (.error signal s)

lemma Upheld.earlier {P : Assertion α} {r : EStateM.Result Signal Session α} (hg : h.Grows h')
    (hr : Upheld h' P r) : Upheld h P r := by
  cases hr with
  | ok hg' hs ha => exact .ok (hg.trans hg') hs ha
  | error hg' hs hsignal => exact .error (hg.trans hg') hs hsignal

/-- From a heap on, two computations have the same result in sound sessions, and that is left as it
should be. -/
def Upholds (h : Heap) (P : Assertion α) (x y : Eval α) : Prop :=
  ∀ ⦃s : Session⦄, h.Grows s.heap → s.Sound → y s = x s ∧ Upheld s.heap P (x s)

namespace Upholds

variable {P : Assertion α} {Q : Assertion β} {x y : Eval α}

/-! ### Rules -/

lemma pure {a : α} (ha : P.Holds h a) : Upholds h P (Pure.pure a) (Pure.pure a) :=
  fun _ hg hs => ⟨rfl, .ok (.refl _) hs (P.later hg ha)⟩

lemma throw {signal : Signal} (hsignal : ∀ {h'}, h.Grows h' → signal.Sound h') :
    Upholds h P (MonadExcept.throw signal) (MonadExcept.throw signal) :=
  fun _ hg hs => ⟨rfl, .error (.refl _) hs (hsignal hg)⟩

lemma fail (cause : Fault) : Upholds h P (Eval.fail cause) (Eval.fail cause) :=
  throw fun _ => trivial

lemma bind {f g : α → Eval β} (hx : Upholds h P x y)
    (hf : ∀ a h', h.Grows h' → P.Holds h' a → Upholds h' Q (f a) (g a)) :
    Upholds h Q (x >>= f) (y >>= g) := by
  intro s hg hs
  obtain ⟨heq, hr⟩ := hx hg hs
  rw [bind_apply, bind_apply, heq]
  generalize x s = r at hr
  cases hr with
  | ok hg' hs' ha =>
      obtain ⟨heq', hr'⟩ := hf _ _ (hg.trans hg') ha (.refl _) hs'
      exact ⟨heq', hr'.earlier hg'⟩
  | error hg' hs' hsignal => exact ⟨rfl, .error hg' hs' hsignal⟩

lemma map {f : α → β} (hx : Upholds h P x y)
    (hf : ∀ a h', h.Grows h' → P.Holds h' a → Q.Holds h' (f a)) : Upholds h Q (f <$> x) (f <$> y) :=
  bind hx fun a h' hg ha => pure (hf a h' hg ha)

lemma orFail {r : Except Fault α} (hr : ∀ a, r = .ok a → P.Holds h a) :
    Upholds h P (Eval.orFail r) (Eval.orFail r) := by
  cases r with
  | ok a => exact pure (hr a rfl)
  | error cause => exact fail cause

/-- What comes after a look at the session. -/
lemma bindGet {f g : Session → Eval α}
    (hf : ∀ s : Session, h.Grows s.heap → s.Sound → Upholds s.heap P (f s) (g s)) :
    Upholds h P (MonadState.get >>= f) (MonadState.get >>= g) :=
  fun s hg hs => hf s hg hs (.refl _) hs

/-- What comes after a look at the heap. -/
lemma bindHeap {f g : Heap → Eval α}
    (hf : ∀ h' : Heap, h.Grows h' → h'.WellMade → Upholds h' P (f h') (g h')) :
    Upholds h P (Eval.heap >>= f) (Eval.heap >>= g) :=
  fun s hg hs => hf s.heap hg hs.heap (.refl _) hs

/-- What is read off the heap. -/
lemma read {f : Heap → α} (hf : ∀ h' : Heap, h.Grows h' → h'.WellMade → P.Holds h' (f h')) :
    Upholds h P (Eval.heap >>= fun h => Pure.pure (f h)) (Eval.heap >>= fun h => Pure.pure (f h)) :=
  bindHeap fun h' hg hw => pure (hf h' hg hw)

/-- A handler for what the body ends in. -/
lemma recover {f g : Signal → Eval α} (hx : Upholds h P x y)
    (hf : ∀ signal h', h.Grows h' → signal.Sound h' → Upholds h' P (f signal) (g signal)) :
    Upholds h P (Eval.recover x f) (Eval.recover y g) := by
  intro s hg hs
  obtain ⟨heq, hr⟩ := hx hg hs
  rw [Eval.recover, Eval.recover, heq]
  generalize x s = r at hr
  cases hr with
  | ok hg' hs' ha => exact ⟨rfl, .ok hg' hs' ha⟩
  | error hg' hs' hsignal =>
      obtain ⟨heq', hr'⟩ := hf _ _ (hg.trans hg') hsignal (.refl _) hs'
      exact ⟨heq', hr'.earlier hg'⟩

lemma catchLeave {x y : Eval Value} (hx : Upholds h .sound x y) :
    Upholds h .sound (Eval.catchLeave x) (Eval.catchLeave y) := by
  refine recover hx fun signal h' _ hsignal => ?_
  cases signal with
  | leave v => exact pure hsignal
  | thrown v trace => exact throw fun hg => Heap.Sound.later hg hsignal
  | _ => exact throw fun _ => trivial

/-! ### Frames, files and handlers -/

/-- A trace holds no values. -/
lemma sound_traced {signal : Signal} (hsignal : signal.Sound h) (env : Environment) :
    (signal.traced env).Sound h := by
  cases signal with
  | thrown v trace => cases trace <;> exact hsignal
  | leave v => exact hsignal
  | fault cause trace => cases trace <;> trivial
  | _ => trivial

lemma inFrame (hx : Upholds h P x y) (name file : String) (line : Nat) :
    Upholds h P (Eval.inFrame name file line x) (Eval.inFrame name file line y) := by
  intro s hg hs
  by_cases hd : s.env.depth < s.maxDepth
  · obtain ⟨heq, hr⟩ := hx (s := { s with env := s.env.push name file line }) hg
      ⟨hs.heap, hs.env.push name file line⟩
    rw [inFrame_apply name file line x hd, inFrame_apply name file line y hd, heq]
    refine ⟨rfl, ?_⟩
    generalize x { s with env := s.env.push name file line } = r at hr
    cases hr with
    | ok hg' hs' ha => exact .ok hg' ⟨hs'.heap, hs'.env.pop⟩ ha
    | error hg' hs' hsignal =>
        exact .error hg' ⟨hs'.heap, hs'.env.pop⟩ (sound_traced hsignal _)
  · have hfull := Nat.le_of_not_lt hd
    rw [inFrame_full name file line x hfull, inFrame_full name file line y hfull]
    exact ⟨rfl, .error (.refl _) hs trivial⟩

lemma inFile (hx : Upholds h P x y) (file : String) :
    Upholds h P (Eval.inFile file x) (Eval.inFile file y) := by
  intro s hg hs
  obtain ⟨heq, hr⟩ := hx (s := { s with env := s.env.setFile file }) hg
    ⟨hs.heap, hs.env.setFile file⟩
  rw [inFile_apply, inFile_apply, heq]
  refine ⟨rfl, ?_⟩
  generalize x { s with env := s.env.setFile file } = r at hr
  cases hr with
  | ok hg' hs' ha => exact .ok hg' ⟨hs'.heap, hs'.env.setFile _⟩ ha
  | error hg' hs' hsignal =>
      exact .error hg' ⟨hs'.heap, hs'.env.setFile _⟩ (sound_traced hsignal _)

lemma handling (hx : Upholds h P x y) (trace : Trace) :
    Upholds h P (Eval.handling trace x) (Eval.handling trace y) := by
  intro s hg hs
  obtain ⟨heq, hr⟩ := hx (s := { s with env := s.env.pushSnapshot trace }) hg
    ⟨hs.heap, hs.env.pushSnapshot trace⟩
  rw [handling_apply, handling_apply, heq]
  refine ⟨rfl, ?_⟩
  generalize x { s with env := s.env.pushSnapshot trace } = r at hr
  cases hr with
  | ok hg' hs' ha => exact .ok hg' ⟨hs'.heap, hs'.env.popSnapshot⟩ ha
  | error hg' hs' hsignal => exact .error hg' ⟨hs'.heap, hs'.env.popSnapshot⟩ hsignal

/-! ### Names -/

/-- A change of the environment only. -/
lemma modifyEnv {f : Environment → Environment}
    (hf : ∀ {h'} {e : Environment}, h.Grows h' → e.Hold h'.Sound → (f e).Hold h'.Sound) :
    Upholds h .any (Eval.modifyEnv f) (Eval.modifyEnv f) :=
  fun _ hg hs => ⟨rfl, .ok (.refl _) ⟨hs.heap, hf hg hs.env⟩ trivial⟩

lemma mark (line : Nat) : Upholds h .any (Eval.mark line) (Eval.mark line) :=
  modifyEnv fun _ he => he.mark line

lemma bindName (name : String) {v : Value} (hv : h.Sound v) :
    Upholds h .any (Eval.bindName name v) (Eval.bindName name v) :=
  modifyEnv fun hg he => he.bind (hv.later hg) name

lemma assign (name : String) {v : Value} (hv : h.Sound v) (declare : Bool) :
    Upholds h .any (Eval.assign name v declare) (Eval.assign name v declare) := by
  cases declare with
  | false => exact modifyEnv fun hg he => he.put (hv.later hg) name
  | true =>
      refine bindGet fun s hg hs => bind (P := .environment) (orFail fun env henv => ?_)
        fun env h' _ henv => modifyEnv fun hg' _ => henv.mono (.later hg')
      exact hs.env.define (hv.later hg) name henv

/-! ### Cells -/

lemma modifyHeap {f : Heap → Heap}
    (hf : ∀ {h'}, h.Grows h' → h'.WellMade → h'.Grows (f h') ∧ (f h').WellMade) :
    Upholds h .any (Eval.modifyHeap f) (Eval.modifyHeap f) := by
  intro s hg hs
  obtain ⟨hgrown, hw⟩ := hf hg hs.heap
  exact ⟨rfl, .ok hgrown ⟨hw, hs.env.mono (.later hgrown)⟩ trivial⟩

/-- A new cell. -/
lemma newCell (add : Heap → α × Heap)
    (happly : ∀ s : Session, x s = .ok (add s.heap).1 { s with heap := (add s.heap).2 })
    (hadd : ∀ {h'}, h.Grows h' → h'.WellMade →
      h'.Grows (add h').2 ∧ (add h').2.WellMade ∧ P.Holds (add h').2 (add h').1) :
    Upholds h P x x := by
  intro s hg hs
  obtain ⟨hgrown, hw, ha⟩ := hadd hg hs.heap
  rw [happly]
  exact ⟨rfl, .ok hgrown ⟨hw, hs.env.mono (.later hgrown)⟩ ha⟩

lemma newList {vs : Array Value} (hvs : h.SoundAll vs) :
    Upholds h .sound (Eval.newList vs) (Eval.newList vs) :=
  newCell (fun h => (.list (h.addList vs).1, (h.addList vs).2)) (fun _ => rfl) fun hg hw =>
    ⟨Heap.grows_addList _ _, hw.addList (hvs.later hg), .list _⟩

lemma newMap {m : Entries} (hm : m.WellMade h) :
    Upholds h .sound (Eval.newMap m) (Eval.newMap m) :=
  newCell (fun h => (.map (h.addMap m).1, (h.addMap m).2)) (fun _ => rfl) fun hg hw =>
    ⟨Heap.grows_addMap _ _, hw.addMap (hm.later hg), .map _⟩

lemma newFunction {f : Closure} (hf : ∀ p ∈ f.receiver, h.Sound p.1 ∧ h.Sound p.2) :
    Upholds h .sound (Eval.newFunction f) (Eval.newFunction f) :=
  newCell (fun h => (.function (h.addFunction f).1, (h.addFunction f).2)) (fun _ => rfl)
    fun hg hw => ⟨Heap.grows_addFunction _ _,
      hw.addFunction fun p hp => (hf p hp).imp (.later hg) (.later hg), .function _⟩

/-- A new class, given its superclass. -/
lemma newClass {c : Class} (hsuper : ∀ p ∈ c.superclass, (h.class? p).isSome = true)
    (hc : ∀ r : ClassRef, (∀ p ∈ c.superclass, p.index < r.index) → c.WellMade h r) :
    Upholds h .sound (Eval.newClass c) (Eval.newClass c) := by
  refine newCell (fun h => (.classOf (h.addClass c).1, (h.addClass c).2)) (fun _ => rfl)
    fun hg hw => ⟨Heap.grows_addClass _ _,
      hw.addClass ((hc _ fun p hp => ?_).later hg), .classOf ?_⟩
  · obtain ⟨c', hc'⟩ := Option.isSome_iff_exists.mp (hsuper p hp)
    exact (Array.getElem?_eq_some_iff.mp (hg.class? hc')).1
  · simp [Heap.class?, Heap.addClass]

/-- A new object, given an object of its superclass, is of its class. -/
lemma newObject {ref : ClassRef} {c : Class} (hc : h.class? ref = some c)
    {parent : Option ObjectRef} (hp : parent.map h.classOfObject? = c.superclass.map some) :
    Upholds h (.ofClass ref) (Eval.newObject ⟨ref, parent, []⟩)
      (Eval.newObject ⟨ref, parent, []⟩) := by
  refine newCell (fun h => h.addObject ⟨ref, parent, []⟩) (fun _ => rfl) fun hg hw =>
    ⟨Heap.grows_addObject _ _, hw.addObject (hg.class? hc) (hg.parent hp), ?_⟩
  simp [Assertion.ofClass, Heap.classOfObject?, Heap.object?, Heap.addObject]

/-- A declared slot is written. -/
lemma setSlot {r : ObjectRef} {name : String} (hd : h.Declares r name) {v : Value}
    (hv : h.Sound v) : Upholds h .any (Eval.modifyHeap (·.setSlot r name v))
      (Eval.modifyHeap (·.setSlot r name v)) :=
  modifyHeap fun hg hw => ⟨Heap.grows_setSlot _ _ _ _, hw.setSlot (hd.later hg) (hv.later hg)⟩

lemma modifyList {f : Array Value → Array Value} (r : ListRef)
    (hf : ∀ {h'}, h.Grows h' → ∀ vs : Array Value, h'.SoundAll vs → h'.SoundAll (f vs)) :
    Upholds h .any (Eval.modifyHeap (·.modifyList r f)) (Eval.modifyHeap (·.modifyList r f)) :=
  modifyHeap fun hg hw => ⟨Heap.grows_modifyList _ _ _, hw.modifyList (hf hg) r⟩

lemma modifyMap {f : Entries → Entries} (r : MapRef)
    (hf : ∀ {h'}, h.Grows h' → ∀ m : Entries, m.WellMade h' → (f m).WellMade h') :
    Upholds h .any (Eval.modifyHeap (·.modifyMap r f)) (Eval.modifyHeap (·.modifyMap r f)) :=
  modifyHeap fun hg hw => ⟨Heap.grows_modifyMap _ _ _, hw.modifyMap (hf hg) r⟩

lemma display (v : Value) : Upholds h .any (Eval.display v) (Eval.display v) :=
  read fun _ _ _ => trivial

lemma subject (v : Value) : Upholds h .any (Eval.subject v) (Eval.subject v) :=
  read fun _ _ _ => trivial

/-! ### Operators -/

lemma sound_constant (c : Constant) : h.Sound (Eval.constant c) := by
  cases c with
  | number n => exact .number _
  | text s => exact .text s
  | bool b => exact .bool b
  | null => exact .null

lemma unary (op : UnaryOp) (v : Value) : Upholds h .sound (Eval.unary op v) (Eval.unary op v) := by
  unfold Eval.unary
  split
  · exact pure (.number _)
  · exact fail _
  · exact pure (.bool _)

lemma sound_onNumbers {op : BinaryOp} {a b : Float} {v : Value} (hv : onNumbers op a b = .ok v) :
    h.Sound v := by
  unfold onNumbers at hv
  split at hv <;> (try split at hv) <;> cases hv <;> first | exact .number _ | exact .bool _

lemma sound_onTexts {op : BinaryOp} {s t : String} {v : Value} (hv : onTexts op s t = .ok v) :
    h.Sound v := by
  unfold onTexts at hv
  split at hv <;> cases hv <;> first | exact .text _ | exact .bool _

lemma binary (op : BinaryOp) (v w : Value) :
    Upholds h .sound (Eval.binary op v w) (Eval.binary op v w) := by
  unfold Eval.binary
  split
  · exact read fun _ _ _ => .bool _
  · exact read fun _ _ _ => .bool _
  · exact read fun _ _ _ => .text _
  · exact orFail fun _ hv => sound_onNumbers hv
  · exact orFail fun _ hv => sound_onTexts hv
  · refine bindHeap fun h' _ hw => newList fun v hv => ?_
    obtain hv | hv := Array.mem_append.mp hv
    · exact hw.items _ v hv
    · exact hw.items _ v hv
  · exact fail _

lemma position (index : Value) (length : Nat) :
    Upholds h .any (Eval.position index length) (Eval.position index length) := by
  have refuse : Upholds h (.any : Assertion Nat)
      (do Eval.fail (.badIndex ((← Eval.heap).display index) length))
      (do Eval.fail (.badIndex ((← Eval.heap).display index) length)) :=
    bindHeap fun _ _ _ => fail _
  unfold Eval.position
  split
  · split
    · split
      · exact pure trivial
      · exact refuse
    · exact refuse
  · exact fail _

lemma getIndex {target : Value} (ht : h.Sound target) (index : Value) :
    Upholds h .sound (Eval.getIndex target index) (Eval.getIndex target index) := by
  unfold Eval.getIndex
  split
  · rename_i r
    refine bindHeap fun h' _ hw => bind (position _ _) fun i h'' hg _ => pure ?_
    have hitems : h'.SoundAll (h'.items r).toList := Heap.SoundAll.toList (hw.items r)
    rw [← Array.getElem?_toList]
    exact (hitems.later hg).getD i
  · exact bind (position _ _) fun i h' hg _ => pure (Heap.SoundAll.getD (ht.later hg).items i)
  · exact bind (position _ _) fun i h' _ _ =>
      pure (Heap.SoundAll.getD (Heap.sound_characters _) i)
  · refine bindHeap fun h' _ hw => ?_
    cases hv : (h'.entries _).find? index with
    | some v => exact pure ((hw.entries _).find? hv)
    | none => exact fail _
  · exact fail _

lemma setIndex {index v : Value} (target : Value) (hi : h.Sound index) (hv : h.Sound v) :
    Upholds h .any (Eval.setIndex target index v) (Eval.setIndex target index v) := by
  unfold Eval.setIndex
  split
  · refine bindHeap fun h' hg _ => bind (position _ _) fun i h'' hg' _ => ?_
    refine modifyList _ fun hg'' vs hvs w hw => ?_
    obtain hw | rfl := Array.mem_or_eq_of_mem_setIfInBounds hw
    · exact hvs w hw
    · exact hv.later ((hg.trans hg').trans hg'')
  · exact modifyMap _ fun hg _ hm => hm.insert (hi.later hg) (hv.later hg)
  · exact fail _
  · exact fail _
  · exact fail _

lemma iterationItems {v : Value} (hv : h.Sound v) :
    Upholds h .all (Eval.iterationItems v) (Eval.iterationItems v) := by
  unfold Eval.iterationItems
  split
  · exact read fun _ _ hw => Heap.SoundAll.toList (hw.items _)
  · exact pure hv.items
  · refine read fun h' _ hw w hmem => ?_
    obtain ⟨e, he, rfl⟩ := List.mem_map.mp hmem
    obtain ⟨hk, hvalue⟩ := hw.entries _ e he
    exact .tuple (Heap.SoundAll.pair hk hvalue)
  · exact pure (Heap.sound_characters _)
  · exact fail _

lemma spreadItems {v : Value} (hv : h.Sound v) :
    Upholds h .all (Eval.spreadItems v) (Eval.spreadItems v) := by
  unfold Eval.spreadItems
  split
  · exact read fun _ _ hw => Heap.SoundAll.toList (hw.items _)
  · exact pure hv.items
  · exact fail _

/-! ### The host -/

lemma inherent_sound (h : Heap) : Value.Inherent h.Sound := ⟨.null, .bool, .number, .text, .tuple⟩

lemma ask (question : Host → Nat → α) : Upholds h .any (Eval.ask question) (Eval.ask question) :=
  fun _ _ hs => ⟨rfl, .ok (.refl _) ⟨hs.heap, hs.env⟩ trivial⟩

lemma addLists {atHand : List Value} (ha : h.SoundAll atHand) (lists : List (List Host.Reply)) :
    Upholds h .all (Eval.addLists atHand lists) (Eval.addLists atHand lists) := by
  induction lists generalizing h atHand with
  | nil => exact pure ha
  | cons items rest ih =>
      have hitems : h.SoundAll (Host.Reply.values atHand items) :=
        Host.Reply.holdAll (inherent_sound h) ha items
      exact bind (newList hitems.toArray) fun list _ hg hlist =>
        ih ((ha.later hg).append (.single hlist))

lemma hostOperation (number : Nat) {arguments : List Value} (ha : h.SoundAll arguments) :
    Upholds h .sound (Eval.hostOperation number arguments)
      (Eval.hostOperation number arguments) := by
  refine bindHeap fun h₁ hg₁ _ => bind (ask _) fun answer h₂ hg₂ _ => ?_
  refine bind (P := .any) (orFail fun _ _ => trivial) fun answer h₃ hg₃ _ => ?_
  refine bind (addLists (ha.later (hg₁.trans (hg₂.trans hg₃))) answer.lists) fun _ h₄ _ hat => ?_
  exact pure (answer.value.hold (inherent_sound h₄) hat)

lemma hostMember (number : Nat) {this : Value} (ht : h.Sound this) :
    Upholds h .sound (Eval.hostMember number this) (Eval.hostMember number this) := by
  refine bindGet fun s hg _ => bind (P := .any) (orFail fun _ _ => trivial) fun reply h' hg' _ => ?_
  exact pure (reply.hold (inherent_sound h') (Heap.SoundAll.single (ht.later (hg.trans hg'))))

/-! ### Members -/

lemma compute (getter : Getter) {v : Value} (hv : h.Sound v) :
    Upholds h .sound (Eval.compute getter v) (Eval.compute getter v) := by
  unfold Eval.compute
  split
  case h_19 r =>
    -- the superclass of a class
    refine read fun h' _ hw => ?_
    cases hp : (h'.class? r).bind (·.superclass) with
    | none => exact .null
    | some p =>
        obtain ⟨c, hc, hp⟩ := Option.bind_eq_some_iff.mp hp
        exact .classOf (hw.superclass hc hp)
  case h_21 => exact hostMember _ hv
  all_goals first
    | exact fail _
    | exact pure (.number _)
    | exact pure .null
    | exact read fun _ _ _ => .number _
    | exact read fun _ _ _ => .text _

/-- A member of a class, read off an object of it or off a value that has no messages. -/
lemma classMember? {c : Class} {ref : ClassRef} (hc : c.WellMade h ref) {this parent : Value}
    (hthis : h.Sound this) (hparent : h.Sound parent)
    (hmessage : c.hasSlot messageSlot = true →
      ∃ o, this = .object o ∧ h.Declares o messageSlot) (name : String) :
    Upholds h .all (Eval.classMember? c this parent name)
      (Eval.classMember? c this parent name) := by
  unfold Eval.classMember?
  cases hm : c.methods.find? name with
  | some m =>
      cases m with
      | user code =>
          refine map (newFunction fun p hp => ?_) fun v _ _ hv => Heap.SoundAll.some hv
          cases hp
          exact ⟨hthis, hparent⟩
      | native n =>
          obtain ⟨f, hf, hwrites⟩ := hc.methods _ (Bindings.mem_of_find? hm) n rfl
          exact pure (Heap.SoundAll.some (.bound hf hthis fun htrue => hmessage (hwrites htrue)))
  | none =>
      cases hfield : c.fields.find? name with
      | none => exact pure Heap.SoundAll.none
      | some field =>
          cases field with
          | slot default =>
              cases this with
              | object r => exact read fun _ _ hw => Heap.SoundAll.some (hw.slot r name)
              | _ => exact pure (Heap.SoundAll.some .null)
          | computed getter =>
              exact map (compute getter hthis) fun v _ _ hv => Heap.SoundAll.some hv

lemma classOfObject? (r : ObjectRef) :
    Upholds h (.classOf r) (Eval.classOfObject? r) (Eval.classOfObject? r) := by
  refine read fun h' _ hw c hc => ⟨hc, ?_⟩
  obtain ⟨ref, -, hclass⟩ := Option.bind_eq_some_iff.mp hc
  exact ⟨ref, hw.classes hclass⟩

lemma chainMember? (name : String) (chain : List ObjectRef) :
    Upholds h .all (Eval.chainMember? name chain) (Eval.chainMember? name chain) := by
  induction chain generalizing h with
  | nil => exact pure Heap.SoundAll.none
  | cons r rest ih =>
      refine bind (classOfObject? r) fun found h' _ hfound => ?_
      cases found with
      | none => exact pure Heap.SoundAll.none
      | some c =>
          obtain ⟨hclass, ref, hmade⟩ := hfound c rfl
          refine bind (classMember? hmade (.object r) (Heap.sound_elim_object _)
            (fun hslot => ⟨r, rfl, c, hclass, hslot⟩) name) fun v h'' _ hv => ?_
          cases v with
          | none => exact ih
          | some v => exact pure hv

lemma findMember? {receiver : Value} (hr : h.Sound receiver) (name : String) :
    Upholds h .all (Eval.findMember? receiver name) (Eval.findMember? receiver name) := by
  refine bindHeap fun h' hg hw => ?_
  obtain ⟨c, hc⟩ := Option.isSome_iff_exists.mp (hw.classOf receiver)
  have plain : (∀ r, receiver ≠ .object r) → Upholds h' .all
      (Eval.classMember? c receiver .null name) (Eval.classMember? c receiver .null name) := by
    refine fun hno => classMember? (hw.classes hc) (hr.later hg) .null (fun hslot => ?_) name
    rw [hw.hasSlot_classOf hno hc] at hslot
    cases hslot
  cases receiver with
  | object r => exact chainMember? name _
  | _ =>
      simp only [hc]
      exact plain (by simp)

lemma lastAsked {receiver : Value} (hr : h.Sound receiver) :
    Upholds h .sound (Eval.lastAsked receiver) (Eval.lastAsked receiver) := by
  unfold Eval.lastAsked
  split
  · exact read fun _ _ _ => .object _
  · exact pure hr

/-- The refusal of a member that is not there. -/
lemma noMember {receiver : Value} (hr : h.Sound receiver) (name : String) :
    Upholds h P (do Eval.fail (.noMember (← Eval.subject (← Eval.lastAsked receiver)) name))
      (do Eval.fail (.noMember (← Eval.subject (← Eval.lastAsked receiver)) name)) :=
  bind (lastAsked hr) fun v _ _ _ => bind (subject v) fun _ _ _ _ => fail _

lemma getMember {receiver : Value} (hr : h.Sound receiver) (name : String) :
    Upholds h .sound (Eval.getMember receiver name) (Eval.getMember receiver name) := by
  refine bind (findMember? hr name) fun v h' hg hv => ?_
  cases v with
  | some v => exact pure (hv v rfl)
  | none => exact noMember (hr.later hg) name

lemma setClassMember {c : Class} {this : Value} {name : String}
    (hslot : ∀ r, this = .object r → c.hasSlot name = true → h.Declares r name) {v : Value}
    (hv : h.Sound v) : Upholds h .any (Eval.setClassMember c this name v)
      (Eval.setClassMember c this name v) := by
  have refuse : ∀ (cause : Subject → Fault) (w : Value), Upholds h (.any : Assertion Bool)
      (do Eval.fail (cause (← Eval.subject w))) (do Eval.fail (cause (← Eval.subject w))) :=
    fun cause w => bind (subject w) fun _ _ _ _ => fail _
  unfold Eval.setClassMember
  cases hfield : c.fields.find? name with
  | none =>
      dsimp only
      split
      · exact refuse (.functionMember name) this
      · exact pure trivial
  | some field =>
      cases field with
      | slot default =>
          cases this with
          | object r =>
              have hdeclared : c.hasSlot name = true := by rw [Class.hasSlot, hfield]
              exact bind (setSlot (hslot r rfl hdeclared) hv) fun _ _ _ _ => pure trivial
          | _ => exact refuse (.readOnly name) _
      | computed getter => exact refuse (.readOnly name) this

lemma setChainMember (name : String) {v : Value} (hv : h.Sound v) (chain : List ObjectRef) :
    Upholds h .any (Eval.setChainMember name v chain) (Eval.setChainMember name v chain) := by
  induction chain generalizing h with
  | nil => exact pure trivial
  | cons r rest ih =>
      refine bind (classOfObject? r) fun found h' hg hfound => ?_
      cases found with
      | none => exact pure trivial
      | some c =>
          have hdeclares : ∀ r', Value.object r = .object r' → c.hasSlot name = true →
              h'.Declares r' name := by
            rintro r' ⟨⟩ hslot
            exact ⟨c, (hfound c rfl).1, hslot⟩
          refine bind (setClassMember hdeclares (hv.later hg)) fun done h'' hg' _ => ?_
          cases done with
          | false => exact ih ((hv.later hg).later hg')
          | true => exact pure trivial

lemma setMember {receiver : Value} (hr : h.Sound receiver) (name : String) {v : Value}
    (hv : h.Sound v) :
    Upholds h .any (Eval.setMember receiver name v) (Eval.setMember receiver name v) := by
  have settle : ∀ (done : Bool) (h' : Heap), h.Grows h' → (.any : Assertion Bool).Holds h' done →
      Upholds h' (.any : Assertion Unit)
        (if !done then do
          Eval.fail (.noMember (← Eval.subject (← Eval.lastAsked receiver)) name)
          else Pure.pure ())
        (if !done then do
          Eval.fail (.noMember (← Eval.subject (← Eval.lastAsked receiver)) name)
          else Pure.pure ()) := by
    intro done h' hg _
    cases done with
    | false => exact noMember (hr.later hg) name
    | true => exact pure trivial
  refine bindHeap fun h' hg hw => ?_
  have hsettle := fun (done : Bool) h'' hg' => settle done h'' (hg.trans hg')
  obtain ⟨c, hc⟩ := Option.isSome_iff_exists.mp (hw.classOf receiver)
  cases receiver with
  | object r => exact bind (setChainMember name (hv.later hg) _) hsettle
  | _ =>
      simp only [hc]
      exact bind (setClassMember (by simp) (hv.later hg)) hsettle

/-! ### Operations of the library -/

lemma textArgument (function : String) (v : Value) :
    Upholds h .any (Eval.textArgument function v) (Eval.textArgument function v) := by
  cases v <;> first | exact pure trivial | exact fail _

lemma numberArgument (function : String) (v : Value) :
    Upholds h .any (Eval.numberArgument function v) (Eval.numberArgument function v) := by
  cases v <;> first | exact pure trivial | exact fail _

lemma listArgument (function : String) (v : Value) :
    Upholds h .any (Eval.listArgument function v) (Eval.listArgument function v) := by
  cases v <;> first | exact pure trivial | exact fail _

lemma itemsArgument (function : String) (v : Value) :
    Upholds h .all (Eval.itemsArgument function v) (Eval.itemsArgument function v) :=
  bind (listArgument function v) fun r _ _ _ => read fun _ _ hw => hw.items r

lemma mapArgument (function : String) (v : Value) :
    Upholds h .any (Eval.mapArgument function v) (Eval.mapArgument function v) := by
  cases v <;> first | exact pure trivial | exact fail _

lemma boundArgument (v : Value) : Upholds h .any (Eval.boundArgument v) (Eval.boundArgument v) := by
  unfold Eval.boundArgument
  split
  · split
    · exact pure trivial
    · exact fail _
  · exact fail _

lemma joinItems (list : Value) (separator : String) :
    Upholds h .sound (Eval.joinItems list separator) (Eval.joinItems list separator) :=
  bind (itemsArgument _ list) fun _ _ _ _ => read fun _ _ _ => .text _

lemma toNumber (v : Value) : Upholds h .sound (Eval.toNumber v) (Eval.toNumber v) := by
  unfold Eval.toNumber
  split
  · exact pure (.number _)
  · split
    · exact pure (.number _)
    · exact fail _
  · exact fail _

lemma readClock : Upholds h .sound Eval.readClock Eval.readClock :=
  bind (ask _) fun _ _ _ _ => pure (.number _)

lemma printLine (line : String) : Upholds h .any (Eval.printLine line) (Eval.printLine line) :=
  fun _ _ hs => ⟨rfl, .ok (.refl _) ⟨hs.heap, hs.env⟩ trivial⟩

lemma scalarOperation (operation : Primitive) (arguments : List Value) :
    Upholds h .sound (Eval.scalarOperation operation arguments)
      (Eval.scalarOperation operation arguments) := by
  unfold Eval.scalarOperation
  split
  · exact bind (display _) fun _ _ _ _ => pure (.text _)
  · exact bind (textArgument _ _) fun _ _ _ _ => pure (.text _)
  · exact bind (textArgument _ _) fun _ _ _ _ => pure (.text _)
  · exact bind (textArgument _ _) fun _ _ _ _ => pure (.text _)
  · refine bind (textArgument _ _) fun _ _ _ _ => bind (textArgument _ _) fun _ _ _ _ => ?_
    exact newList (.texts _ _)
  · refine bind (textArgument _ _) fun _ _ _ _ => bind (textArgument _ _) fun _ _ _ _ => ?_
    exact pure (.bool _)
  · refine bind (textArgument _ _) fun _ _ _ _ => newList ?_
    exact Heap.SoundAll.toArray (Heap.sound_characters _)
  · exact toNumber _
  · exact bind (numberArgument _ _) fun _ _ _ _ => pure (.number _)
  · exact bind (numberArgument _ _) fun _ _ _ _ => pure (.number _)
  · exact bind (numberArgument _ _) fun _ _ _ _ => pure (.number _)
  · exact bind (numberArgument _ _) fun _ _ _ _ => pure (.number _)
  · exact pure .null

lemma entryOperation (operation : Primitive) {arguments : List Value}
    (ha : h.SoundAll arguments) : Upholds h .sound (Eval.entryOperation operation arguments)
      (Eval.entryOperation operation arguments) := by
  unfold Eval.entryOperation
  split
  · exact newMap .nil
  · refine bind (mapArgument _ _) fun r _ _ _ => bindHeap fun h' _ hw => ?_
    exact newList (Heap.SoundAll.toArray (hw.entries r).keys)
  · refine bind (mapArgument _ _) fun r _ _ _ => bindHeap fun h' _ hw => ?_
    exact newList (Heap.SoundAll.toArray (hw.entries r).values)
  · exact bind (mapArgument _ _) fun r _ _ _ => read fun _ _ _ => .bool _
  · exact bind (mapArgument _ _) fun r _ _ _ => read fun _ _ hw => (hw.entries r).getD _ .null
  · refine bind (mapArgument _ _) fun r _ hg _ => read fun _ hg' hw => (hw.entries r).getD _ ?_
    exact (ha _ (by simp)).later (hg.trans hg')
  · refine bind (mapArgument _ _) fun r _ _ _ => bindHeap fun h' _ hw => ?_
    refine bind (modifyMap r fun _ _ hm => hm.erase _) fun _ _ hg _ => pure ?_
    exact ((hw.entries r).getD _ .null).later hg
  · exact pure (.tuple ha)
  · split
    · exact newList (Heap.SoundAll.toArray (ha _ (by simp)).items)
    · exact fail _
  · exact pure .null

/-- The constructor of exceptions takes an object with a message. -/
lemma exceptionOperation (operation : Primitive) {arguments : List Value}
    (ha : h.SoundAll arguments)
    (hinit : operation = .initException → ∀ r ∈ arguments.head?, ∀ o, r = .object o →
      h.Declares o messageSlot) :
    Upholds h .sound (Eval.exceptionOperation operation arguments)
      (Eval.exceptionOperation operation arguments) := by
  unfold Eval.exceptionOperation
  split
  · split
    · rename_i r
      refine bind (setSlot (hinit rfl _ rfl r rfl) (ha _ (by simp))) fun _ _ _ _ => ?_
      exact pure .null
    · exact fail _
  · split
    · refine bindHeap fun h' _ _ => ?_
      split
      · exact pure (.text _)
      · exact pure (.text _)
    · exact fail _
  · exact pure .null

/-! ### Classes and modules -/

lemma superclassNamed (className : String) (name : Option String) :
    Upholds h .present (Eval.superclassNamed className name)
      (Eval.superclassNamed className name) := by
  cases name with
  | none => exact pure (by rintro r ⟨⟩)
  | some name =>
      refine bindGet fun s hg hs => bind (P := .sound) (orFail fun _ => hs.env.get)
        fun v h' hg' hv => ?_
      cases v with
      | classOf r =>
          dsimp only
          cases hc : s.heap.class? r with
          | none => exact pure (by rintro r ⟨⟩)
          | some c =>
              dsimp only
              split
              · exact fail _
              · refine pure ?_
                rintro _ ⟨⟩
                rw [hg'.class? hc]
                rfl
      | _ => exact fail _

lemma loadModule (relative : String) :
    Upholds h .any (Eval.loadModule relative) (Eval.loadModule relative) := by
  have seek : ∀ (h' : Heap) path, Upholds h' .any
      (modify fun s : Session => { s with sought := path :: s.sought })
      (modify fun s : Session => { s with sought := path :: s.sought }) :=
    fun _ path _ _ hs => ⟨rfl, .ok (.refl _) ⟨hs.heap, hs.env⟩ trivial⟩
  unfold Eval.loadModule
  split
  · exact pure trivial
  · refine bindGet fun s _ _ => bind (seek _ _) fun _ _ _ _ => ?_
    split
    · exact fail _
    · exact pure trivial
    · exact fail _

end Upholds

end Eval

end Tern
