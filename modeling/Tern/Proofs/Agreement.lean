/-
Computations that agree: run in sessions that go together, they end in the same way and leave
sessions that go together again. Positions do not matter to such computations.

* `Eval.Agree`: two computations that agree, with a relation between their values.
* `Eval.Steady`: a computation that agrees with itself, with a property of its value.
* `Eval.Agree.bind`, `Eval.Agree.inFrame` and the rules beside them; then one lemma for each
  computation that runs nothing: operators, members and most operations of the library.
-/
import Tern.Proofs.Local
import Tern.Proofs.Paired

namespace Tern.Eval

variable {α β γ δ : Type} {h₀ : Heap}

/-- Ends of two computations that go together. -/
inductive Matched (h₀ : Heap) (R : α → β → Prop) :
    EStateM.Result Signal Session α → EStateM.Result Signal Session β → Prop
  | ok {a : α} {b : β} {s t : Session} (hab : R a b) (hst : s.Paired h₀ t) :
      Matched h₀ R (.ok a s) (.ok b t)
  | error {signal signal' : Signal} {s t : Session} (hsignal : signal.Paired h₀ signal')
      (hst : s.Paired h₀ t) : Matched h₀ R (.error signal s) (.error signal' t)

/-- Both ends are values or both are signals. -/
lemma Matched.cases {R : α → β → Prop} {r : EStateM.Result Signal Session α}
    {r' : EStateM.Result Signal Session β} (h : Matched h₀ R r r') :
    (∃ a b s t, r = .ok a s ∧ r' = .ok b t ∧ R a b ∧ s.Paired h₀ t) ∨
      ∃ signal signal' s t, r = .error signal s ∧ r' = .error signal' t ∧
        signal.Paired h₀ signal' ∧ s.Paired h₀ t := by
  cases h with
  | ok hab hst => exact .inl ⟨_, _, _, _, rfl, rfl, hab, hst⟩
  | error hsignal hst => exact .inr ⟨_, _, _, _, rfl, rfl, hsignal, hst⟩

/-- An end with another environment in its session, and with another trace if it is a signal. -/
def restored (back : Environment → Environment) (note : Environment → Signal → Signal) :
    EStateM.Result Signal Session α → EStateM.Result Signal Session α
  | .ok a s => .ok a { s with env := back s.env }
  | .error signal s => .error (note s.env signal) { s with env := back s.env }

/-- Ends still go together after that, if environments and signals do. -/
lemma Matched.restored {R : α → β → Prop} {r : EStateM.Result Signal Session α}
    {r' : EStateM.Result Signal Session β} (h : Matched h₀ R r r')
    {back back' : Environment → Environment} {note note' : Environment → Signal → Signal}
    (hback : ∀ e e', e.Paired h₀ e' → (back e).Paired h₀ (back' e'))
    (hnote : ∀ e e' signal signal', signal.Paired h₀ signal' →
      (note e signal).Paired h₀ (note' e' signal')) :
    Matched h₀ R (restored back note r) (restored back' note' r') := by
  cases h with
  | ok hab hst => exact .ok hab { hst with env := hback _ _ hst.env }
  | error hsignal hst =>
      exact .error (hnote _ _ _ _ hsignal) { hst with env := hback _ _ hst.env }

/-- The two computations agree, and so do their values by a relation. -/
def Agree (h₀ : Heap) (R : α → β → Prop) (x : Eval α) (y : Eval β) : Prop :=
  ∀ ⦃s t : Session⦄, s.Paired h₀ t → Matched h₀ R (x s) (y t)

/-- The same value on both sides, of which something holds. -/
def Same (P : α → Prop) (a b : α) : Prop := b = a ∧ P a

/-- The computation agrees with itself and gives a value of which something holds. -/
def Steady (h₀ : Heap) (P : α → Prop) (x : Eval α) : Prop := Agree h₀ (Same P) x x

/-! ### What holds of values -/

/-- Nothing is said of a value. -/
def Any (_ : α) : Prop := True

/-- A value is quiet. -/
def Quiet (h₀ : Heap) (v : Value) : Prop := h₀.quiet v = true

/-- Values are quiet. -/
def QuietList (h₀ : Heap) (vs : List Value) : Prop := ∀ v ∈ vs, h₀.quiet v

/-- The values of an array are quiet. -/
def QuietArray (h₀ : Heap) (vs : Array Value) : Prop := ∀ v ∈ vs, h₀.quiet v

/-- A value is quiet if there is one. -/
def QuietOption (h₀ : Heap) (v : Option Value) : Prop := ∀ w ∈ v, h₀.quiet w

lemma quiet_null : Quiet h₀ .null := rfl

lemma quiet_object (r : ObjectRef) : Quiet h₀ (.object r) := rfl

lemma quiet_elim_object (r : Option ObjectRef) : Quiet h₀ (r.elim .null .object) := by
  cases r <;> rfl

lemma quietOption_some {v : Value} (hv : Quiet h₀ v) : QuietOption h₀ (some v) := by
  intro w hw
  cases hw
  exact hv

lemma quietOption_none : QuietOption h₀ none := by
  intro w hw
  cases hw

lemma QuietList.toArray {vs : List Value} (h : QuietList h₀ vs) : QuietArray h₀ vs.toArray :=
  fun v hv => h v (List.mem_toArray.mp hv)

lemma QuietArray.toList {vs : Array Value} (h : QuietArray h₀ vs) : QuietList h₀ vs.toList :=
  fun v hv => h v (Array.mem_toList_iff.mp hv)

lemma QuietList.cons {v : Value} {vs : List Value} (hv : Quiet h₀ v) (hvs : QuietList h₀ vs) :
    QuietList h₀ (v :: vs) :=
  List.forall_mem_cons.mpr ⟨hv, hvs⟩

lemma QuietList.getD {vs : List Value} (h : QuietList h₀ vs) (i : Nat) :
    Quiet h₀ (vs[i]?.getD .null) := by
  cases hv : vs[i]? with
  | none => rfl
  | some v => exact h v (List.mem_of_getElem? hv)

lemma QuietArray.getD {vs : Array Value} (h : QuietArray h₀ vs) (i : Nat) :
    Quiet h₀ (vs[i]?.getD .null) := by
  cases hv : vs[i]? with
  | none => rfl
  | some v => exact h v (Array.mem_of_getElem? hv)

lemma QuietArray.push {vs : Array Value} {v : Value} (h : QuietArray h₀ vs) (hv : Quiet h₀ v) :
    QuietArray h₀ (vs.push v) :=
  Heap.forall_mem_push h hv

lemma QuietArray.pop {vs : Array Value} (h : QuietArray h₀ vs) : QuietArray h₀ vs.pop := by
  intro v hv
  rw [← Array.mem_toList_iff, Array.toList_pop] at hv
  exact h v (Array.mem_toList_iff.mp (List.mem_of_mem_dropLast hv))

lemma QuietList.pair {v w : Value} (hv : Quiet h₀ v) (hw : Quiet h₀ w) : QuietList h₀ [v, w] :=
  .cons hv (List.forall_mem_singleton.mpr hw)

/-! ### Rules for two computations -/

namespace Agree

variable {R : α → β → Prop} {x : Eval α} {y : Eval β}

lemma pure {a : α} {b : β} (h : R a b) : Agree h₀ R (Pure.pure a) (Pure.pure b) :=
  fun _ _ hst => .ok h hst

lemma throw {signal signal' : Signal} (h : signal.Paired h₀ signal') :
    Agree h₀ R (MonadExcept.throw signal) (MonadExcept.throw signal') :=
  fun _ _ hst => .error h hst

lemma fail (cause : Fault) : Agree h₀ R (Eval.fail cause) (Eval.fail cause) :=
  throw (.fault cause [] [])

/-- One computation after another, where the values of the first are related. -/
lemma bindRel {Q : γ → δ → Prop} {f : α → Eval γ} {g : β → Eval δ} (hx : Agree h₀ R x y)
    (hf : ∀ a b, R a b → Agree h₀ Q (f a) (g b)) : Agree h₀ Q (x >>= f) (y >>= g) := by
  intro s t hst
  rw [bind_apply, bind_apply]
  obtain ⟨a, b, s', t', hs, ht, hab, hst'⟩ | ⟨signal, signal', s', t', hs, ht, hsignal, hst'⟩ :=
    (hx hst).cases
  · rw [hs, ht]
    exact hf a b hab hst'
  · rw [hs, ht]
    exact .error hsignal hst'

/-- One computation after another, where the first gives the same value on both sides. -/
lemma bind {P : α → Prop} {Q : γ → δ → Prop} {x y : Eval α} {f : α → Eval γ} {g : α → Eval δ}
    (hx : Agree h₀ (Same P) x y) (hf : ∀ a, P a → Agree h₀ Q (f a) (g a)) :
    Agree h₀ Q (x >>= f) (y >>= g) := by
  refine bindRel hx fun a b hab => ?_
  obtain ⟨rfl, ha⟩ := hab
  exact hf _ ha

lemma map {P : α → Prop} {Q : γ → Prop} {x y : Eval α} {f : α → γ} (hx : Agree h₀ (Same P) x y)
    (hf : ∀ a, P a → Q (f a)) : Agree h₀ (Same Q) (f <$> x) (f <$> y) :=
  bind hx fun a ha => pure ⟨rfl, hf a ha⟩

/-- What comes after a look at the session. -/
lemma bindGet {Q : γ → δ → Prop} {f : Session → Eval γ} {g : Session → Eval δ}
    (hf : ∀ s t : Session, s.Paired h₀ t → Agree h₀ Q (f s) (g t)) :
    Agree h₀ Q (MonadState.get >>= f) (MonadState.get >>= g) :=
  bindRel (R := Session.Paired h₀) (fun _ _ hst => .ok hst hst) hf

/-- What comes after a look at the heap. -/
lemma bindHeap {Q : γ → δ → Prop} {f : Heap → Eval γ} {g : Heap → Eval δ}
    (hf : ∀ h h' : Heap, h₀.Paired h h' → Agree h₀ Q (f h) (g h')) :
    Agree h₀ Q (Eval.heap >>= f) (Eval.heap >>= g) :=
  bindRel (R := h₀.Paired) (fun _ _ hst => .ok hst.heap hst) hf

/-- A handler for what the body ends in. -/
lemma recover {x y : Eval α} {Q : α → α → Prop} {f g : Signal → Eval α} (hx : Agree h₀ Q x y)
    (hf : ∀ signal signal', signal.Paired h₀ signal' → Agree h₀ Q (f signal) (g signal')) :
    Agree h₀ Q (Eval.recover x f) (Eval.recover y g) := by
  intro s t hst
  rw [Eval.recover, Eval.recover]
  obtain ⟨a, b, s', t', hs, ht, hab, hst'⟩ | ⟨signal, signal', s', t', hs, ht, hsignal, hst'⟩ :=
    (hx hst).cases
  · rw [hs, ht]
    exact .ok hab hst'
  · rw [hs, ht]
    exact hf signal signal' hsignal hst'

lemma catchLeave {x y : Eval Value} (hx : Agree h₀ (Same (Quiet h₀)) x y) :
    Agree h₀ (Same (Quiet h₀)) (Eval.catchLeave x) (Eval.catchLeave y) := by
  refine recover hx fun signal signal' hsignal => ?_
  cases hsignal with
  | leave hv => exact pure ⟨rfl, hv⟩
  | fault cause trace trace' => exact throw (.fault cause trace trace')
  | thrown hv trace trace' => exact throw (.thrown hv trace trace')
  | fatal error => exact throw (.fatal error)
  | outOfFuel lacking => exact throw (.outOfFuel lacking)

/-! ### Frames, files and handlers

The frames of the two sides have the same name but may stand at different places. -/

lemma inFrame (hx : Agree h₀ R x y) (name file file' : String) (line line' : Nat) :
    Agree h₀ R (Eval.inFrame name file line x) (Eval.inFrame name file' line' y) := by
  intro s t hst
  have hdepth : t.env.depth = s.env.depth := hst.env.depth
  by_cases hd : s.env.depth < s.maxDepth
  · rw [inFrame_apply name file line x hd,
      inFrame_apply name file' line' y (by rwa [hdepth, hst.maxDepth])]
    have hpush : Session.Paired h₀ { s with env := s.env.push name file line }
        { t with env := t.env.push name file' line' } :=
      { hst with env := hst.env.push name file file' line line' }
    exact (hx hpush).restored (fun _ _ he => he.pop) fun e e' _ _ hsignal => hsignal.traced e e'
  · have hfull : s.maxDepth ≤ s.env.depth := Nat.le_of_not_lt hd
    rw [inFrame_full name file line x hfull,
      inFrame_full name file' line' y (by rwa [hdepth, hst.maxDepth]), hst.maxDepth]
    exact .error (.fault _ _ _) hst

lemma inFile (hx : Agree h₀ R x y) (file file' : String) :
    Agree h₀ R (Eval.inFile file x) (Eval.inFile file' y) := by
  intro s t hst
  rw [inFile_apply, inFile_apply]
  have hmove : Session.Paired h₀ { s with env := s.env.setFile file }
      { t with env := t.env.setFile file' } :=
    { hst with env := hst.env.setFile file file' }
  exact (hx hmove).restored (fun _ _ he => he.setFile s.env.file t.env.file)
    fun e e' _ _ hsignal => hsignal.traced e e'

lemma handling (hx : Agree h₀ R x y) (trace trace' : Trace) :
    Agree h₀ R (Eval.handling trace x) (Eval.handling trace' y) := by
  intro s t hst
  rw [handling_apply, handling_apply]
  have hpush : Session.Paired h₀ { s with env := s.env.pushSnapshot trace }
      { t with env := t.env.pushSnapshot trace' } :=
    { hst with env := hst.env.pushSnapshot trace trace' }
  exact (hx hpush).restored (fun _ _ he => he.popSnapshot) fun _ _ _ _ hsignal => hsignal

/-- A question that hosts which answer alike answer with the same. -/
lemma ask {question question' : Host → Nat → α}
    (h : ∀ {a b : Host}, a.Alike b → ∀ asked, question' b asked = question a asked) :
    Agree h₀ (Same Any) (Eval.ask question) (Eval.ask question') := by
  intro s t hst
  have hanswer : question' t.host t.asked = question s.host s.asked := by
    rw [hst.asked, h hst.host]
  exact .ok ⟨hanswer, trivial⟩ { hst with asked := congrArg (· + 1) hst.asked }

lemma mark (line line' : Nat) : Agree h₀ (Same Any) (Eval.mark line) (Eval.mark line') :=
  fun _ _ hst => .ok ⟨rfl, trivial⟩ { hst with env := hst.env.mark line line' }

/-! ### New classes and functions -/

lemma newClass {c c' : Class} (h : c.Paired h₀ c') :
    Agree h₀ (Same (Quiet h₀)) (Eval.newClass c) (Eval.newClass c') := by
  intro s t hst
  obtain ⟨href, hheap⟩ := hst.heap.addClass h
  exact .ok ⟨congrArg Value.classOf href, rfl⟩ { hst with heap := hheap }

lemma newFunction {f f' : Closure} (h : f.Paired h₀ f') :
    Agree h₀ (Same (Quiet h₀)) (Eval.newFunction f) (Eval.newFunction f') := by
  intro s t hst
  obtain ⟨href, hheap⟩ := hst.heap.addFunction h
  exact .ok ⟨congrArg Value.function href, rfl⟩ { hst with heap := hheap }

end Agree

namespace Steady

variable {P : α → Prop} {Q : β → Prop}

/-! ### Rules for one computation -/

lemma pure {a : α} (h : P a) : Steady h₀ P (Pure.pure a : Eval α) := Agree.pure ⟨rfl, h⟩

lemma fail (cause : Fault) : Steady h₀ P (Eval.fail cause : Eval α) := Agree.fail cause

lemma bind {x : Eval α} {f : α → Eval β} (hx : Steady h₀ P x)
    (hf : ∀ a, P a → Steady h₀ Q (f a)) : Steady h₀ Q (x >>= f) :=
  Agree.bind hx hf

lemma map {x : Eval α} {f : α → β} (hx : Steady h₀ P x) (hf : ∀ a, P a → Q (f a)) :
    Steady h₀ Q (f <$> x) :=
  Agree.map hx hf

lemma orFail {r : Except Fault α} (h : ∀ a, r = .ok a → P a) : Steady h₀ P (Eval.orFail r) := by
  cases r with
  | ok a => exact pure (h a rfl)
  | error cause => exact fail cause

/-- What is read off the heap is the same in heaps that go together. -/
lemma read {f : Heap → α} (hf : ∀ h h' : Heap, h₀.Paired h h' → f h' = f h ∧ P (f h)) :
    Steady h₀ P (Eval.heap >>= fun h => Pure.pure (f h)) :=
  Agree.bindHeap fun h h' hp => Agree.pure (hf h h' hp)

lemma modifyHeap {f : Heap → Heap} (hf : ∀ h h', h₀.Paired h h' → h₀.Paired (f h) (f h')) :
    Steady h₀ Any (Eval.modifyHeap f) :=
  fun _ _ hst => .ok ⟨rfl, trivial⟩ { hst with heap := hf _ _ hst.heap }

lemma display (v : Value) : Steady h₀ Any (Eval.display v) :=
  read fun _ _ hp => ⟨hp.display v, trivial⟩

lemma subject (v : Value) : Steady h₀ Any (Eval.subject v) :=
  read fun _ _ hp => ⟨hp.subject v, trivial⟩

lemma newList {vs : Array Value} (h : QuietArray h₀ vs) :
    Steady h₀ (Quiet h₀) (Eval.newList vs) := by
  intro s t hst
  obtain ⟨href, hheap⟩ := hst.heap.addList h
  exact .ok ⟨congrArg Value.list href, rfl⟩ { hst with heap := hheap }

lemma newMap {m : Entries} (h : m.Quiet h₀) : Steady h₀ (Quiet h₀) (Eval.newMap m) := by
  intro s t hst
  obtain ⟨href, hheap⟩ := hst.heap.addMap h
  exact .ok ⟨congrArg Value.map href, rfl⟩ { hst with heap := hheap }

/-- A new object has no slots yet. -/
lemma newObject (ref : ClassRef) (parent : Option ObjectRef) :
    Steady h₀ Any (Eval.newObject ⟨ref, parent, []⟩) := by
  intro s t hst
  obtain ⟨href, hheap⟩ := hst.heap.addObject (o := ⟨ref, parent, []⟩) (List.forall_mem_nil _)
  exact .ok ⟨href, trivial⟩ { hst with heap := hheap }

/-! ### Names -/

lemma bindName (name : String) {v : Value} (hv : Quiet h₀ v) :
    Steady h₀ Any (Eval.bindName name v) :=
  fun _ _ hst => .ok ⟨rfl, trivial⟩ { hst with env := hst.env.bind name hv }

lemma assign (name : String) {v : Value} (hv : Quiet h₀ v) (declare : Bool) :
    Steady h₀ Any (Eval.assign name v declare) := by
  cases declare with
  | false => exact fun _ _ hst => .ok ⟨rfl, trivial⟩ { hst with env := hst.env.put name hv }
  | true =>
      refine Agree.bindGet fun s t hst => ?_
      obtain ⟨cause, hs, ht⟩ | ⟨env, env', hs, ht, henv⟩ := hst.env.define name hv
      · simp only [hs, ht]
        exact Agree.bind (P := fun _ => False) (Agree.fail cause) fun _ hnone => hnone.elim
      · simp only [hs, ht]
        refine Agree.bindRel (R := Environment.Paired h₀) (Agree.pure henv) fun env env' henv => ?_
        exact fun _ _ hst' => .ok ⟨rfl, trivial⟩ { hst' with env := henv }

/-! ### Operators -/

lemma unary (op : UnaryOp) (v : Value) : Steady h₀ (Quiet h₀) (Eval.unary op v) := by
  unfold Eval.unary
  split
  · exact pure rfl
  · exact fail _
  · exact pure rfl

lemma quiet_onNumbers {op : BinaryOp} {x y : Float} {v : Value} (h : onNumbers op x y = .ok v) :
    Quiet h₀ v := by
  unfold onNumbers at h
  split at h <;> (try split at h) <;> cases h <;> rfl

lemma quiet_onTexts {op : BinaryOp} {s t : String} {v : Value} (h : onTexts op s t = .ok v) :
    Quiet h₀ v := by
  unfold onTexts at h
  split at h <;> cases h <;> rfl

lemma binary (op : BinaryOp) (v w : Value) : Steady h₀ (Quiet h₀) (Eval.binary op v w) := by
  unfold Eval.binary
  split
  · exact read fun _ _ hp => ⟨by rw [hp.equal], rfl⟩
  · exact read fun _ _ hp => ⟨by rw [hp.equal], rfl⟩
  · exact read fun _ _ hp => ⟨by rw [hp.display, hp.display], rfl⟩
  · exact orFail fun _ h => quiet_onNumbers h
  · exact orFail fun _ h => quiet_onTexts h
  · refine Agree.bindHeap fun h h' hp => ?_
    rw [hp.items, hp.items]
    refine newList fun v hv => ?_
    obtain hv | hv := Array.mem_append.mp hv
    · exact hp.quiet_items _ v hv
    · exact hp.quiet_items _ v hv
  · exact fail _

lemma position (index : Value) (length : Nat) : Steady h₀ Any (Eval.position index length) := by
  have refuse : Steady h₀ Any (do
      Eval.fail (.badIndex ((← Eval.heap).display index) length) : Eval Nat) :=
    Agree.bindHeap fun h h' hp => by
      rw [hp.display]
      exact Agree.fail _
  unfold Eval.position
  split
  · split
    · split
      · exact pure trivial
      · exact refuse
    · exact refuse
  · exact fail _

lemma getIndex {target : Value} (ht : Quiet h₀ target) (index : Value) :
    Steady h₀ (Quiet h₀) (Eval.getIndex target index) := by
  unfold Eval.getIndex
  split
  · refine Agree.bindHeap fun h h' hp => ?_
    rw [hp.items]
    exact bind (position _ _) fun i _ => pure (QuietArray.getD (hp.quiet_items _) i)
  · exact bind (position _ _) fun i _ => pure (QuietList.getD (Heap.quiet_tuple.mp ht) i)
  · exact bind (position _ _) fun i _ => pure (QuietList.getD Heap.quiet_characters i)
  · refine Agree.bindHeap fun h h' hp => ?_
    rw [hp.entries, hp.display]
    cases hv : (h.entries _).find? index with
    | some v => exact pure ((hp.quiet_entries _).find? hv)
    | none => exact fail _
  · exact fail _

lemma setIndex {index v : Value} (target : Value) (hi : Quiet h₀ index) (hv : Quiet h₀ v) :
    Steady h₀ Any (Eval.setIndex target index v) := by
  unfold Eval.setIndex
  split
  · refine Agree.bindHeap fun h h' hp => ?_
    rw [hp.items]
    refine bind (position _ _) fun i _ => modifyHeap fun h h' hp => hp.modifyList ?_ _
    intro vs hvs w hw
    obtain hw | rfl := Array.mem_or_eq_of_mem_setIfInBounds hw
    · exact hvs w hw
    · exact hv
  · exact modifyHeap fun h h' hp => hp.modifyMap (fun _ hm => hm.insert hi hv) _
  · exact fail _
  · exact fail _
  · exact fail _

lemma iterationItems {v : Value} (hv : Quiet h₀ v) :
    Steady h₀ (QuietList h₀) (Eval.iterationItems v) := by
  unfold Eval.iterationItems
  split
  · exact read fun _ _ hp => ⟨by rw [hp.items], QuietArray.toList (hp.quiet_items _)⟩
  · exact pure (Heap.quiet_tuple.mp hv)
  · refine read fun h h' hp => ⟨by rw [hp.entries], fun w hw => ?_⟩
    obtain ⟨e, he, rfl⟩ := List.mem_map.mp hw
    obtain ⟨hk, hv⟩ := hp.quiet_entries _ e he
    exact Heap.quiet_tuple.mpr (QuietList.pair hk hv)
  · exact pure Heap.quiet_characters
  · exact fail _

lemma spreadItems {v : Value} (hv : Quiet h₀ v) :
    Steady h₀ (QuietList h₀) (Eval.spreadItems v) := by
  unfold Eval.spreadItems
  split
  · exact read fun _ _ hp => ⟨by rw [hp.items], QuietArray.toList (hp.quiet_items _)⟩
  · exact pure (Heap.quiet_tuple.mp hv)
  · exact fail _

/-! ### The host -/

lemma inherent_quiet : Value.Inherent (Quiet h₀) :=
  ⟨rfl, fun _ => rfl, fun _ => rfl, fun _ => rfl, Heap.quiet_tuple.mpr⟩

lemma addLists {atHand : List Value} (h : QuietList h₀ atHand) (lists : List (List Host.Reply)) :
    Steady h₀ (QuietList h₀) (Eval.addLists atHand lists) := by
  induction lists generalizing atHand with
  | nil => exact pure h
  | cons items rest ih =>
      have hitems : QuietList h₀ (Host.Reply.values atHand items) :=
        Host.Reply.holdAll inherent_quiet h items
      refine bind (newList hitems.toArray) fun list hlist => ih ?_
      exact List.forall_mem_append.mpr ⟨h, List.forall_mem_singleton.mpr hlist⟩

lemma hostOperation (number : Nat) {arguments : List Value} (ha : QuietList h₀ arguments) :
    Steady h₀ (Quiet h₀) (Eval.hostOperation number arguments) := by
  refine Agree.bindHeap fun h h' hp => ?_
  refine Agree.bind (Agree.ask fun hab asked => hab.operation hp.bare asked number arguments)
    fun answer _ => ?_
  refine bind (P := Any) (orFail fun _ _ => trivial) fun answer _ => ?_
  exact bind (addLists ha answer.lists) fun _ hat => pure (answer.value.hold inherent_quiet hat)

lemma hostMember (number : Nat) {this : Value} (ht : Quiet h₀ this) :
    Steady h₀ (Quiet h₀) (Eval.hostMember number this) := by
  refine Agree.bindGet fun s t hst => ?_
  rw [hst.host.member hst.heap.bare]
  refine bind (P := Any) (orFail fun _ _ => trivial) fun reply _ =>
    pure (reply.hold inherent_quiet ?_)
  exact List.forall_mem_singleton.mpr ht

/-! ### Members -/

lemma compute (getter : Getter) {v : Value} (hv : Quiet h₀ v) :
    Steady h₀ (Quiet h₀) (Eval.compute getter v) := by
  unfold Eval.compute
  split
  · exact pure rfl
  · exact fail _
  · exact read fun _ _ hp => ⟨by rw [hp.items], rfl⟩
  · exact fail _
  · exact read fun _ _ hp => ⟨by rw [hp.entries], rfl⟩
  · exact fail _
  · exact pure rfl
  · exact fail _
  · exact read fun _ _ hp => ⟨by rw [hp.functionName], rfl⟩
  · exact read fun _ _ hp => ⟨by rw [hp.nativeName], rfl⟩
  · exact read fun _ _ hp => ⟨by rw [hp.nativeName], rfl⟩
  · exact fail _
  · refine read fun _ _ hp => ⟨?_, rfl⟩
    rw [map_eq_of_optionRel (hp.function? _) fun hf => by rw [hf.code.params]]
  · exact pure rfl
  · exact pure rfl
  · exact fail _
  · exact read fun _ _ hp => ⟨by rw [hp.className], rfl⟩
  · exact fail _
  · refine read fun h _ hp => ⟨by rw [hp.superclass?], ?_⟩
    cases (h.class? _).bind (·.superclass) <;> rfl
  · exact fail _
  · exact hostMember _ hv

end Steady

namespace Agree

lemma classMember? {c c' : Class} (hc : c.Paired h₀ c') {this parent : Value}
    (hthis : Quiet h₀ this) (hparent : Quiet h₀ parent) (name : String) :
    Agree h₀ (Same (QuietOption h₀)) (Eval.classMember? c this parent name)
      (Eval.classMember? c' this parent name) := by
  unfold Eval.classMember?
  obtain ⟨hm, hm'⟩ | ⟨m, m', hm, hm', hmm⟩ := optionRel_cases (hc.methods.find? name)
  · simp only [hm, hm']
    obtain ⟨hf, hf'⟩ | ⟨f, f', hf, hf', hff⟩ := optionRel_cases (hc.fields.find? name)
    · simp only [hf, hf']
      exact pure ⟨rfl, quietOption_none⟩
    · simp only [hf, hf']
      cases hff with
      | slot _ =>
          cases this with
          | object r =>
              refine bindHeap fun h h' hp => ?_
              rw [hp.slot?]
              exact pure ⟨rfl, quietOption_some (hp.quiet_slot r name)⟩
          | _ => exact pure ⟨rfl, quietOption_some rfl⟩
      | computed getter => exact map (Steady.compute getter hthis) fun _ => quietOption_some
  · simp only [hm, hm']
    cases hmm with
    | user hcode =>
        refine map (newFunction ⟨hcode, rfl, ?_⟩) fun _ => quietOption_some
        intro receiver hreceiver
        cases hreceiver
        exact ⟨hthis, hparent⟩
    | native r hr => exact pure ⟨rfl, quietOption_some (Heap.quiet_bound.mpr ⟨hr, hthis⟩)⟩

lemma classOfObject? (r : ObjectRef) :
    Agree h₀ (Option.Rel (Class.Paired h₀)) (Eval.classOfObject? r) (Eval.classOfObject? r) := by
  refine bindHeap fun h h' hp => pure ?_
  rw [hp.classOfObject?]
  cases h.classOfObject? r with
  | none => exact .none
  | some c => exact hp.class? c

end Agree

namespace Steady

lemma chainMember? (name : String) (chain : List ObjectRef) :
    Steady h₀ (QuietOption h₀) (Eval.chainMember? name chain) := by
  induction chain with
  | nil => exact pure quietOption_none
  | cons r rest ih =>
      refine Agree.bindRel (Agree.classOfObject? r) fun c c' hcc => ?_
      cases hcc with
      | none => exact pure quietOption_none
      | some hcc =>
          refine Agree.bind (Agree.classMember? hcc (quiet_object r) (quiet_elim_object _) name)
            fun v hv => ?_
          cases v with
          | none => exact ih
          | some v => exact pure hv

lemma findMember? {receiver : Value} (hr : Quiet h₀ receiver) (name : String) :
    Steady h₀ (QuietOption h₀) (Eval.findMember? receiver name) := by
  refine Agree.bindHeap fun h h' hp => ?_
  cases receiver with
  | object r =>
      simp only [hp.delegates]
      exact chainMember? name _
  | _ =>
      simp only [hp.classOf]
      generalize h.classOf _ = ref
      obtain ⟨hc, hc'⟩ | ⟨c, c', hc, hc', hcc⟩ := optionRel_cases (hp.class? ref)
      · simp only [hc, hc']
        exact pure quietOption_none
      · simp only [hc, hc']
        exact Agree.classMember? hcc hr quiet_null name

lemma lastAsked {receiver : Value} (hr : Quiet h₀ receiver) :
    Steady h₀ (Quiet h₀) (Eval.lastAsked receiver) := by
  unfold Eval.lastAsked
  split
  · exact read fun _ _ hp => ⟨by rw [hp.delegates], rfl⟩
  · exact pure hr

/-- The refusal of a member that is not there. -/
lemma noMember {P : α → Prop} {receiver : Value} (hr : Quiet h₀ receiver) (name : String) :
    Steady h₀ P (do
      Eval.fail (.noMember (← Eval.subject (← Eval.lastAsked receiver)) name) : Eval α) :=
  bind (lastAsked hr) fun v _ => bind (subject v) fun _ _ => fail _

lemma getMember {receiver : Value} (hr : Quiet h₀ receiver) (name : String) :
    Steady h₀ (Quiet h₀) (Eval.getMember receiver name) := by
  refine bind (findMember? hr name) fun v hv => ?_
  cases v with
  | some v => exact pure (hv v rfl)
  | none => exact noMember hr name

end Steady

lemma Agree.setClassMember {c c' : Class} (hc : c.Paired h₀ c') (this : Value) (name : String)
    {v : Value} (hv : Quiet h₀ v) :
    Agree h₀ (Same Any) (Eval.setClassMember c this name v)
      (Eval.setClassMember c' this name v) := by
  have refuse : ∀ (cause : Subject → Fault) (w : Value), Steady h₀ (Any : Bool → Prop) (do
      Eval.fail (cause (← Eval.subject w)) : Eval Bool) :=
    fun cause w => .bind (.subject w) fun _ _ => .fail _
  unfold Eval.setClassMember
  obtain ⟨hf, hf'⟩ | ⟨f, f', hf, hf', hff⟩ := optionRel_cases (hc.fields.find? name)
  · simp only [hf, hf', hc.methods.has]
    split
    · exact refuse (.functionMember name) this
    · exact Steady.pure trivial
  · simp only [hf, hf']
    cases hff with
    | slot _ =>
        cases this with
        | object r =>
            refine Steady.bind (Steady.modifyHeap fun h h' hp => hp.setSlot hv r name) fun _ _ => ?_
            exact Steady.pure trivial
        | _ => exact refuse (.readOnly name) _
    | computed getter => exact refuse (.readOnly name) this

namespace Steady

lemma setChainMember (name : String) {v : Value} (hv : Quiet h₀ v) (chain : List ObjectRef) :
    Steady h₀ Any (Eval.setChainMember name v chain) := by
  induction chain with
  | nil => exact pure trivial
  | cons r rest ih =>
      refine Agree.bindRel (Agree.classOfObject? r) fun c c' hcc => ?_
      cases hcc with
      | none => exact pure trivial
      | some hcc =>
          refine Agree.bind (Agree.setClassMember hcc _ name hv) fun done _ => ?_
          cases done with
          | false => exact ih
          | true => exact pure trivial

lemma setMember {receiver : Value} (hr : Quiet h₀ receiver) (name : String) {v : Value}
    (hv : Quiet h₀ v) : Steady h₀ Any (Eval.setMember receiver name v) := by
  have settle : ∀ done : Bool, Any done → Steady h₀ (Any : Unit → Prop) (if !done then do
      Eval.fail (.noMember (← Eval.subject (← Eval.lastAsked receiver)) name)
      else Pure.pure () : Eval Unit) := by
    intro done _
    cases done with
    | false => exact noMember hr name
    | true => exact pure trivial
  refine Agree.bindHeap fun h h' hp => ?_
  cases receiver with
  | object r =>
      simp only [hp.delegates]
      exact bind (setChainMember name hv _) settle
  | _ =>
      simp only [hp.classOf]
      generalize h.classOf _ = ref
      obtain ⟨hc, hc'⟩ | ⟨c, c', hc, hc', hcc⟩ := optionRel_cases (hp.class? ref)
      · simp only [hc, hc']
        exact bind (pure trivial) settle
      · simp only [hc, hc']
        exact Agree.bind (Agree.setClassMember hcc _ name hv) settle

/-! ### Operations of the library -/

lemma textArgument (function : String) (v : Value) :
    Steady h₀ Any (Eval.textArgument function v) := by
  cases v <;> first | exact pure trivial | exact fail _

lemma numberArgument (function : String) (v : Value) :
    Steady h₀ Any (Eval.numberArgument function v) := by
  cases v <;> first | exact pure trivial | exact fail _

lemma listArgument (function : String) (v : Value) :
    Steady h₀ Any (Eval.listArgument function v) := by
  cases v <;> first | exact pure trivial | exact fail _

lemma itemsArgument (function : String) (v : Value) :
    Steady h₀ (QuietArray h₀) (Eval.itemsArgument function v) :=
  bind (listArgument function v) fun r _ => read fun _ _ hp => ⟨hp.items r, hp.quiet_items r⟩

lemma mapArgument (function : String) (v : Value) :
    Steady h₀ Any (Eval.mapArgument function v) := by
  cases v <;> first | exact pure trivial | exact fail _

lemma boundArgument (v : Value) : Steady h₀ Any (Eval.boundArgument v) := by
  unfold Eval.boundArgument
  split
  · split
    · exact pure trivial
    · exact fail _
  · exact fail _

lemma joinItems (list : Value) (separator : String) :
    Steady h₀ (Quiet h₀) (Eval.joinItems list separator) := by
  refine bind (itemsArgument _ list) fun vs _ => read fun h h' hp => ⟨?_, rfl⟩
  rw [funext fun v => hp.display v]

lemma toNumber (v : Value) : Steady h₀ (Quiet h₀) (Eval.toNumber v) := by
  unfold Eval.toNumber
  split
  · exact pure rfl
  · split
    · exact pure rfl
    · exact fail _
  · exact fail _

lemma readClock : Steady h₀ (Quiet h₀) Eval.readClock :=
  bind (Agree.ask Host.Alike.clock) fun _ _ => pure rfl

lemma printLine (line : String) : Steady h₀ Any (Eval.printLine line) :=
  fun _ _ hst => .ok ⟨rfl, trivial⟩ { hst with out := congrArg (· ++ line ++ "\n") hst.out }

lemma quiet_texts {γ : Type} (f : γ → String) (cs : List γ) :
    QuietArray h₀ (cs.map fun c => Value.text (f c)).toArray := by
  refine QuietList.toArray fun v hv => ?_
  obtain ⟨c, _, rfl⟩ := List.mem_map.mp hv
  rfl

lemma scalarOperation (operation : Primitive) (arguments : List Value) :
    Steady h₀ (Quiet h₀) (Eval.scalarOperation operation arguments) := by
  unfold Eval.scalarOperation
  split
  · exact bind (display _) fun _ _ => pure rfl
  · exact bind (textArgument _ _) fun _ _ => pure rfl
  · exact bind (textArgument _ _) fun _ _ => pure rfl
  · exact bind (textArgument _ _) fun _ _ => pure rfl
  · refine bind (textArgument _ _) fun _ _ => bind (textArgument _ _) fun _ _ => newList ?_
    exact quiet_texts _ _
  · exact bind (textArgument _ _) fun _ _ => bind (textArgument _ _) fun _ _ => pure rfl
  · refine bind (textArgument _ _) fun _ _ => newList ?_
    exact QuietList.toArray Heap.quiet_characters
  · exact toNumber _
  · exact bind (numberArgument _ _) fun _ _ => pure rfl
  · exact bind (numberArgument _ _) fun _ _ => pure rfl
  · exact bind (numberArgument _ _) fun _ _ => pure rfl
  · exact bind (numberArgument _ _) fun _ _ => pure rfl
  · exact pure rfl

/-- What a map has under a key is quiet, and so is a quiet value in its place. -/
lemma quiet_findD {m : Entries} (hm : m.Quiet h₀) (key : Value) {default : Value}
    (hd : Quiet h₀ default) : Quiet h₀ ((m.find? key).getD default) := by
  cases hv : m.find? key with
  | none => exact hd
  | some v => exact hm.find? hv

lemma entryOperation (operation : Primitive) {arguments : List Value}
    (ha : QuietList h₀ arguments) :
    Steady h₀ (Quiet h₀) (Eval.entryOperation operation arguments) := by
  unfold Eval.entryOperation
  split
  · exact newMap (List.forall_mem_nil _)
  · refine bind (mapArgument _ _) fun r _ => Agree.bindHeap fun h h' hp => ?_
    rw [hp.entries]
    exact newList (QuietList.toArray
      (Entries.Hold.keys (P := fun v => h₀.quiet v) (hp.quiet_entries r)))
  · refine bind (mapArgument _ _) fun r _ => Agree.bindHeap fun h h' hp => ?_
    rw [hp.entries]
    exact newList (QuietList.toArray
      (Entries.Hold.values (P := fun v => h₀.quiet v) (hp.quiet_entries r)))
  · exact bind (mapArgument _ _) fun r _ => read fun _ _ hp => ⟨by rw [hp.entries], rfl⟩
  · exact bind (mapArgument _ _) fun r _ => read fun _ _ hp =>
      ⟨by rw [hp.entries], quiet_findD (hp.quiet_entries r) _ quiet_null⟩
  · exact bind (mapArgument _ _) fun r _ => read fun _ _ hp =>
      ⟨by rw [hp.entries], quiet_findD (hp.quiet_entries r) _ (ha _ (by simp))⟩
  · refine bind (mapArgument _ _) fun r _ => Agree.bindHeap fun h h' hp => ?_
    rw [hp.entries]
    refine bind (modifyHeap fun _ _ hp => hp.modifyMap (fun _ hm => hm.erase) _) fun _ _ => ?_
    exact pure (quiet_findD (hp.quiet_entries r) _ quiet_null)
  · exact pure (Heap.quiet_tuple.mpr ha)
  · split
    · exact newList (QuietList.toArray (Heap.quiet_tuple.mp (ha _ (by simp))))
    · exact fail _
  · exact pure rfl

lemma exceptionOperation (operation : Primitive) {arguments : List Value}
    (ha : QuietList h₀ arguments) :
    Steady h₀ (Quiet h₀) (Eval.exceptionOperation operation arguments) := by
  unfold Eval.exceptionOperation
  split
  · split
    · refine bind (modifyHeap fun _ _ hp => hp.setSlot (ha _ (by simp)) _ _) fun _ _ => ?_
      exact pure rfl
    · exact fail _
  · split
    · refine Agree.bindHeap fun h h' hp => ?_
      simp only [hp.slot?, hp.objectClassName, hp.display]
      change Steady h₀ (Quiet h₀) _
      split
      · exact pure rfl
      · exact pure rfl
    · exact fail _
  · exact pure rfl

/-! ### Classes and modules -/

lemma superclassNamed (className : String) (name : Option String) :
    Steady h₀ Any (Eval.superclassNamed className name) := by
  cases name with
  | none => exact pure trivial
  | some name =>
      refine Agree.bindGet fun s t hst => ?_
      obtain ⟨hfind, hquiet⟩ := hst.env.find? name
      rw [Environment.get, Environment.get, hfind]
      refine Agree.bind (P := Any) (orFail fun _ _ => trivial) fun v _ => ?_
      cases v with
      | classOf r =>
          obtain ⟨hc, hc'⟩ | ⟨c, c', hc, hc', hcc⟩ := optionRel_cases (hst.heap.class? r)
          · simp only [hc, hc']
            exact pure trivial
          · simp only [hc, hc', hcc.synthetic, hcc.name]
            change Steady h₀ Any _
            split
            · exact fail _
            · exact pure trivial
      | _ => exact fail _

lemma loadModule (relative : String) : Steady h₀ Any (Eval.loadModule relative) := by
  have seek : ∀ path, Steady h₀ Any
      (modify fun s : Session => { s with sought := path :: s.sought }) :=
    fun path _ _ hst => .ok ⟨rfl, trivial⟩ { hst with sought := congrArg (path :: ·) hst.sought }
  unfold Eval.loadModule
  split
  · exact pure trivial
  · refine Agree.bindGet fun s t hst => ?_
    rw [hst.moduleRoot, hst.files]
    refine bind (seek _) fun _ _ => ?_
    split
    · exact fail _
    · exact pure trivial
    · exact fail _

end Steady

end Tern.Eval
