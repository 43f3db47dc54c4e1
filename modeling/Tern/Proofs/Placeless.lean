/-
Positions do not influence results. Trees that differ in their tokens only run alike: from a quiet
session they end in the same way and leave the same session, up to places, traces and the tokens
inside new classes and functions.

* `Runner.Steady`: a runner that runs trees that are alike alike.
* `Runner.Steady.matchPattern`, `Runner.Steady.instantiate`, `Runner.Steady.evalForm` and the
  like: then each part of the evaluator does, too.
* `Eval.steady_perform`: so does the evaluator, whatever it is given.
* `Session.program_placeless`: the statement for programs.
-/
import Tern.Proofs.Agreement
import Tern.Proofs.Frames

namespace Tern

open Eval

/-- Trees that are alike run alike, and calls agree with themselves. -/
structure Runner.Steady (h₀ : Heap) (run : Runner) : Prop where
  expr : ∀ {e e' : Expr}, e.Like e' →
    Agree h₀ (Same (Quiet h₀)) (run (.expr e)) (run (.expr e'))
  call : ∀ {f : Value} {vs : List Value}, Quiet h₀ f → QuietList h₀ vs →
    Eval.Steady h₀ (Quiet h₀) (run (.call f vs))

namespace Runner.Steady

variable {h₀ : Heap} {run : Runner}

/-! ### Expressions in a row -/

lemma evalAll (hr : Runner.Steady h₀ run) {es es' : List Expr} (h : es.Forall₂ Expr.Like es') :
    Agree h₀ (Same (QuietList h₀)) (Eval.evalAll run es) (Eval.evalAll run es') := by
  induction h with
  | nil => exact .pure ⟨rfl, List.forall_mem_nil _⟩
  | cons he _ ih =>
      refine .bind (hr.expr he) fun v hv => .bind ih fun vs hvs => ?_
      exact .pure ⟨rfl, hvs.cons hv⟩

lemma sequenceFrom (hr : Runner.Steady h₀ run) {es es' : List Expr}
    (h : es.Forall₂ Expr.Like es') {last : Value} (hl : Quiet h₀ last) :
    Agree h₀ (Same (Quiet h₀)) (Eval.sequenceFrom run last es)
      (Eval.sequenceFrom run last es') := by
  induction h generalizing last with
  | nil => exact .pure ⟨rfl, hl⟩
  | cons he _ ih => exact .bind (hr.expr he) fun v hv => ih hv

lemma program (hr : Runner.Steady h₀ run) {es es' : List Expr} (h : es.Forall₂ Expr.Like es') :
    Agree h₀ (Same (Quiet h₀)) (Eval.program run es) (Eval.program run es') :=
  .catchLeave (hr.sequenceFrom h quiet_null)

lemma inPlace (hr : Runner.Steady h₀ run) (source text : String) :
    Eval.Steady h₀ (Quiet h₀) (Eval.inPlace run source text) := by
  unfold Eval.inPlace
  cases parse source text with
  | error e => exact Agree.throw (.fatal e)
  | ok body => exact hr.program (forall₂_self fun e _ => .refl e)

/-! ### Calling back -/

lemma callEach (hr : Runner.Steady h₀ run) {f : Value} (hf : Quiet h₀ f) {items : List Value}
    (hi : QuietList h₀ items) : Eval.Steady h₀ Any (Eval.callEach run f items) := by
  induction items with
  | nil => exact .pure trivial
  | cons item rest ih =>
      obtain ⟨hitem, hrest⟩ := List.forall_mem_cons.mp hi
      exact .bind (hr.call hf (List.forall_mem_singleton.mpr hitem)) fun _ _ => ih hrest

lemma callMap (hr : Runner.Steady h₀ run) {f : Value} (hf : Quiet h₀ f) {items : List Value}
    (hi : QuietList h₀ items) {done : Array Value} (hd : QuietArray h₀ done) :
    Eval.Steady h₀ (QuietArray h₀) (Eval.callMap run f done items) := by
  induction items generalizing done with
  | nil => exact .pure hd
  | cons item rest ih =>
      obtain ⟨hitem, hrest⟩ := List.forall_mem_cons.mp hi
      refine .bind (hr.call hf (List.forall_mem_singleton.mpr hitem)) fun v hv => ?_
      exact ih hrest (hd.push hv)

lemma callFilter (hr : Runner.Steady h₀ run) {f : Value} (hf : Quiet h₀ f) {items : List Value}
    (hi : QuietList h₀ items) {done : Array Value} (hd : QuietArray h₀ done) :
    Eval.Steady h₀ (QuietArray h₀) (Eval.callFilter run f done items) := by
  induction items generalizing done with
  | nil => exact .pure hd
  | cons item rest ih =>
      obtain ⟨hitem, hrest⟩ := List.forall_mem_cons.mp hi
      refine .bind (hr.call hf (List.forall_mem_singleton.mpr hitem)) fun v _ => ih hrest ?_
      split
      · exact hd.push hitem
      · exact hd

lemma callFold (hr : Runner.Steady h₀ run) {f : Value} (hf : Quiet h₀ f) {items : List Value}
    (hi : QuietList h₀ items) {acc : Value} (ha : Quiet h₀ acc) :
    Eval.Steady h₀ (Quiet h₀) (Eval.callFold run f acc items) := by
  induction items generalizing acc with
  | nil => exact .pure ha
  | cons item rest ih =>
      obtain ⟨hitem, hrest⟩ := List.forall_mem_cons.mp hi
      refine .bind (hr.call hf (.pair ha hitem)) fun v hv => ?_
      exact ih hrest hv

lemma quiet_numbersBetween (first last : Int) : QuietArray h₀ (numbersBetween first last) := by
  refine QuietList.toArray fun v hv => ?_
  obtain ⟨n, _, rfl⟩ := List.mem_map.mp hv
  rfl

/-- Of the functions of the global frame only one tells where the program stands. -/
lemma globalOperation (hr : Runner.Steady h₀ run) {operation : Primitive}
    (ho : operation ≠ .stacktrace) {arguments : List Value} :
    Eval.Steady h₀ (Quiet h₀) (Eval.globalOperation run operation arguments) := by
  unfold Eval.globalOperation
  split
  · refine Agree.bindHeap fun h h' hp => ?_
    rw [funext fun v => hp.display v]
    exact Steady.bind (.printLine _) fun _ _ => .pure rfl
  · exact .bind (.display _) fun _ _ => .pure rfl
  · exact .read fun _ _ hp => ⟨by rw [hp.classOf], rfl⟩
  · exact .bind (.textArgument _ _) fun text _ => hr.inPlace "<eval>" text
  · exact .readClock
  · exact .bind (.boundArgument _) fun _ _ => .newList (quiet_numbersBetween _ _)
  · refine .bind (.boundArgument _) fun _ _ => .bind (.boundArgument _) fun _ _ => ?_
    exact .newList (quiet_numbersBetween _ _)
  · split
    · exact .pure rfl
    · exact .fail _
  · split
    · exact .pure rfl
    · exact .bind (.display _) fun _ _ => .fail _
  -- the operation that reads the trace of the stack
  · exact absurd rfl ho
  · exact .pure rfl

lemma listOperation (hr : Runner.Steady h₀ run) (operation : Primitive) {arguments : List Value}
    (ha : QuietList h₀ arguments) :
    Eval.Steady h₀ (Quiet h₀) (Eval.listOperation run operation arguments) := by
  unfold Eval.listOperation
  split
  · exact .newList ha.toArray
  · refine .bind (.listArgument _ _) fun r _ => ?_
    refine .bind (.modifyHeap fun _ _ hp => hp.modifyList (fun vs hvs => ?_) r) fun _ _ => ?_
    · exact QuietArray.push hvs (ha _ (by simp))
    · exact .pure (ha _ (by simp))
  · refine .bind (.listArgument _ _) fun r _ => Agree.bindHeap fun h h' hp => ?_
    rw [hp.items]
    cases hv : (h.items r).back? with
    | none => exact Agree.fail _
    | some v =>
        refine Steady.bind (.modifyHeap fun _ _ hp => hp.modifyList (fun _ => QuietArray.pop) r)
          fun _ _ => .pure (hp.quiet_items r v (Array.mem_of_back? hv))
  · refine .bind (.itemsArgument _ _) fun vs _ => .read fun _ _ hp => ⟨?_, rfl⟩
    rw [funext fun v => hp.equal v _]
  · refine .bind (.itemsArgument _ _) fun vs hvs => ?_
    exact .bind (hr.callEach (ha _ (by simp)) hvs.toList) fun _ _ => .pure rfl
  · refine .bind (.itemsArgument _ _) fun vs hvs => ?_
    exact .bind (hr.callMap (ha _ (by simp)) hvs.toList (by simp [QuietArray])) fun _ => .newList
  · refine .bind (.itemsArgument _ _) fun vs hvs => ?_
    exact .bind (hr.callFilter (ha _ (by simp)) hvs.toList (by simp [QuietArray])) fun _ => .newList
  · refine .bind (.itemsArgument _ _) fun vs hvs => ?_
    exact hr.callFold (ha _ (by simp)) hvs.toList (ha _ (by simp))
  · exact .joinItems _ _
  · exact .bind (.textArgument _ _) fun _ _ => .joinItems _ _
  · refine .bind (.itemsArgument _ _) fun vs hvs => .newList fun v hv => ?_
    exact hvs v (Array.mem_reverse.mp hv)
  · exact .pure rfl

lemma primitive (hr : Runner.Steady h₀ run) {operation : Primitive}
    (ho : operation ≠ .stacktrace) {arguments : List Value} (ha : QuietList h₀ arguments) :
    Eval.Steady h₀ (Quiet h₀) (Eval.primitive run operation arguments) := by
  unfold Eval.primitive
  split
  all_goals first
    | exact hr.globalOperation ho
    | exact hr.listOperation _ ha
    | exact .scalarOperation _ _
    | exact .entryOperation _ ha
    | exact .exceptionOperation _ ha
    | exact .hostOperation _ ha

/-! ### Calls -/

lemma bindParams (rest : Option String) (names : List String) {vs : List Value}
    (hvs : QuietList h₀ vs) : Eval.Steady h₀ Any (Eval.bindParams rest names vs) := by
  induction names generalizing vs with
  | nil =>
      cases rest with
      | none => exact .pure trivial
      | some name => exact .bind (.newList hvs.toArray) fun _ => .bindName name
  | cons name names ih =>
      cases vs with
      | nil => exact .bind (.bindName name quiet_null) fun _ _ => ih hvs
      | cons v vs =>
          obtain ⟨hv, hvs⟩ := List.forall_mem_cons.mp hvs
          exact .bind (.bindName name hv) fun _ _ => ih hvs

lemma bindReceiver {receiver : Option (Value × Value)}
    (h : ∀ r ∈ receiver, h₀.quiet r.1 ∧ h₀.quiet r.2) :
    Eval.Steady h₀ Any (Eval.bindReceiver receiver) := by
  cases receiver with
  | none => exact .pure trivial
  | some receiver =>
      obtain ⟨hthis, hparent⟩ := h receiver rfl
      exact .bind (.bindName "self" hthis) fun _ _ => .bindName "super" hparent

/-- The frames of the two calls stand at the bodies of the two functions. -/
lemma callFunction (hr : Runner.Steady h₀ run) {f f' : Closure} (hf : f.Paired h₀ f')
    {arguments : List Value} (ha : QuietList h₀ arguments) :
    Agree h₀ (Same (Quiet h₀)) (Eval.callFunction run f arguments)
      (Eval.callFunction run f' arguments) := by
  simp only [Eval.callFunction, hf.code.name, hf.code.params, hf.receiver]
  split
  · refine Agree.inFrame ?_ _ _ _ _ _
    refine .bind (bindReceiver hf.quiet) fun _ _ => .bind (bindParams _ _ ha) fun _ _ => ?_
    exact .catchLeave (hr.expr hf.code.body)
  · exact .fail _

/-- The operation that is selected is one of the overloads. -/
lemma ne_stacktrace_of_select? {f : Native} {count : Nat} {operation : Primitive}
    (hf : f.tells = false) (h : f.select? count = some operation) : operation ≠ .stacktrace := by
  simp only [Native.tells, List.any_eq_false, decide_eq_true_eq] at hf
  rw [Native.select?] at h
  split at h
  · rename_i overload hfind
    cases h
    exact hf _ (List.mem_of_find?_eq_some hfind)
  · obtain ⟨overload, hfind, rfl⟩ := Option.map_eq_some_iff.mp h
    exact hf _ (List.mem_of_find?_eq_some hfind)

lemma callNative (hr : Runner.Steady h₀ run) {f : Native} (hf : f.tells = false)
    {receiver : Option Value} (hv : QuietOption h₀ receiver) {arguments : List Value}
    (ha : QuietList h₀ arguments) :
    Eval.Steady h₀ (Quiet h₀) (Eval.callNative run f receiver arguments) := by
  have hall : QuietList h₀ (receiver.toList ++ arguments) := by
    intro v hmem
    obtain hmem | hmem := List.mem_append.mp hmem
    · exact hv v (Option.mem_toList.mp hmem)
    · exact ha v hmem
  unfold Eval.callNative
  split
  · rename_i operation hselect
    exact hr.primitive (ne_stacktrace_of_select? hf hselect) hall
  · exact .fail _

/-- Slots with their defaults that differ in tokens at most. -/
def SlotLike (slot slot' : String × Option Expr) : Prop :=
  slot'.1 = slot.1 ∧ Option.Rel Expr.Like slot.2 slot'.2

lemma slotsOf {c c' : Class} (hc : c.Paired h₀ c') :
    (Eval.slotsOf c).Forall₂ SlotLike (Eval.slotsOf c') := by
  have hfields := hc.fields
  rw [Eval.slotsOf, Eval.slotsOf]
  generalize c.fields = fields at hfields ⊢
  generalize c'.fields = fields' at hfields ⊢
  induction hfields with
  | nil => exact .nil
  | @cons x y _ _ hxy _ ih =>
      obtain ⟨name, field⟩ := x
      obtain ⟨name', field'⟩ := y
      obtain ⟨rfl, hff⟩ := hxy
      cases hff with
      | slot he => exact .cons ⟨rfl, he⟩ ih
      | computed getter => exact ih

lemma fillSlots (hr : Runner.Steady h₀ run) (r : ObjectRef)
    {slots slots' : List (String × Option Expr)} (h : slots.Forall₂ SlotLike slots') :
    Agree h₀ (Same Any) (Eval.fillSlots run r slots) (Eval.fillSlots run r slots') := by
  induction h with
  | nil => exact .pure ⟨rfl, trivial⟩
  | @cons slot slot' _ _ hslot _ ih =>
      obtain ⟨other, default⟩ := slot
      obtain ⟨name, default'⟩ := slot'
      obtain ⟨rfl, hdefault⟩ := hslot
      have write : ∀ v, Quiet h₀ v → Agree h₀ (Same Any)
          (do Eval.modifyHeap (·.setSlot r name v); Eval.fillSlots run r _)
          (do Eval.modifyHeap (·.setSlot r name v); Eval.fillSlots run r _) :=
        fun v hv => .bind (Steady.modifyHeap fun _ _ hp => hp.setSlot hv r name) fun _ _ => ih
      cases hdefault with
      | none => exact .bind (.pure ⟨rfl, quiet_null⟩) write
      | some he => exact .bind (hr.expr he) write

lemma isEmpty_eq_of_forall₂ {α β : Type} {R : α → β → Prop} {as : List α} {bs : List β}
    (h : as.Forall₂ R bs) : bs.isEmpty = as.isEmpty := by
  cases h <;> rfl

lemma buildLevel (hr : Runner.Steady h₀ run) (ref : ClassRef) (parent : Option ObjectRef) :
    Eval.Steady h₀ Any (Eval.buildLevel run ref parent) := by
  refine Steady.bind (.newObject ref parent) fun r _ => Agree.bindHeap fun h h' hp => ?_
  obtain ⟨hc, hc'⟩ | ⟨c, c', hc, hc', hcc⟩ := optionRel_cases (hp.class? ref)
  · simp only [hc, hc']
    exact .pure ⟨rfl, trivial⟩
  · have hslots := slotsOf hcc
    simp only [hc, hc', isEmpty_eq_of_forall₂ hslots, hcc.name]
    split
    · exact .pure ⟨rfl, trivial⟩
    -- the frame stands in the file of the caller, which need not be the same on both sides
    · refine .bindGet fun s t hst => .bind (P := Any) (.inFrame ?_ _ _ _ _ _) fun _ _ => ?_
      · refine .bind (Steady.bindName "self" (quiet_object r)) fun _ _ => ?_
        refine .bind (Steady.bindName "super" (quiet_elim_object parent)) fun _ _ => ?_
        exact hr.fillSlots r hslots
      · exact .pure ⟨rfl, trivial⟩

lemma buildChain (hr : Runner.Steady h₀ run) (chain : List ClassRef) :
    Eval.Steady h₀ Any (Eval.buildChain run chain) := by
  induction chain with
  | nil => exact .pure trivial
  | cons ref rest ih =>
      exact .bind ih fun parent _ => .map (hr.buildLevel ref parent) fun _ _ => trivial

lemma nativeSuperclass? {h h' : Heap} (hp : h₀.Paired h h') (chain : List ClassRef) :
    Eval.nativeSuperclass? h' chain = Eval.nativeSuperclass? h chain := by
  induction chain with
  | nil => rfl
  | cons ref rest ih =>
      rw [Eval.nativeSuperclass?, Eval.nativeSuperclass?, hp.superclass?]
      cases (h.class? ref).bind (·.superclass) with
      | none => rfl
      | some parent =>
          obtain ⟨hc, hc'⟩ | ⟨c, c', hc, hc', hcc⟩ := optionRel_cases (hp.class? parent)
          · simp only [hc, hc']
          · simp only [hc, hc', hcc.synthetic, hcc.name, hp.className, ih]

lemma construct (hr : Runner.Steady h₀ run) (ref : ClassRef) :
    Eval.Steady h₀ (Quiet h₀) (Eval.construct run ref) := by
  refine Agree.bindHeap fun h h' hp => ?_
  simp only [hp.lineage, nativeSuperclass? hp]
  change Eval.Steady h₀ (Quiet h₀) _
  split
  · exact .fail _
  · exact .bind (hr.buildChain _) fun r _ => .pure (quiet_elim_object r)

lemma instantiate (hr : Runner.Steady h₀ run) (ref : ClassRef) {arguments : List Value}
    (ha : QuietList h₀ arguments) :
    Eval.Steady h₀ (Quiet h₀) (Eval.instantiate run ref arguments) := by
  refine Agree.bindHeap fun h h' hp => ?_
  obtain ⟨hc, hc'⟩ | ⟨c, c', hc, hc', hcc⟩ := optionRel_cases (hp.class? ref)
  · simp only [hc, hc']
    exact .fail _
  · simp only [hc, hc', hcc.synthetic, hcc.init, hcc.name, funext fun r => hp.native? r]
    change Eval.Steady h₀ (Quiet h₀) _
    split
    · split
      · rename_i init hinit
        obtain ⟨r, hr', hnative⟩ := Option.bind_eq_some_iff.mp hinit
        exact hr.callNative (hp.not_tells (hcc.quiet r hr') hnative) quietOption_none ha
      · exact .fail _
    · refine .bind (hr.construct ref) fun object hobject => ?_
      refine .bind (.findMember? hobject "init") fun init hinit => ?_
      cases init with
      | some init => exact .bind (hr.call (hinit init rfl) ha) fun _ _ => .pure hobject
      | none =>
          dsimp only
          split
          · exact .pure hobject
          · exact .fail _

lemma callValue (hr : Runner.Steady h₀ run) {callee : Value} (hc : Quiet h₀ callee)
    {arguments : List Value} (ha : QuietList h₀ arguments) :
    Eval.Steady h₀ (Quiet h₀) (Eval.callValue run callee arguments) := by
  refine Agree.bindHeap fun h h' hp => ?_
  simp only [hp.subject, hp.native?]
  cases callee with
  | function r =>
      obtain ⟨hf, hf'⟩ | ⟨f, f', hf, hf', hff⟩ := optionRel_cases (hp.function? r)
      · simp only [hf, hf']
        exact .fail _
      · simp only [hf, hf']
        exact hr.callFunction hff ha
  | native r =>
      cases hf : h.native? r with
      | none =>
          simp only [hf]
          exact .fail _
      | some f =>
          simp only [hf]
          exact hr.callNative (hp.not_tells (Heap.quiet_native.mp hc) hf) quietOption_none ha
  | bound r receiver =>
      obtain ⟨hr', hv⟩ := Heap.quiet_bound.mp hc
      cases hf : h.native? r with
      | none =>
          simp only [hf]
          exact .fail _
      | some f =>
          simp only [hf]
          exact hr.callNative (hp.not_tells hr' hf) (quietOption_some hv) ha
  | classOf r => exact hr.instantiate r ha
  | _ => exact .fail _

/-- The same exception on both sides, whatever the traces. -/
def SameException (h₀ : Heap) (a b : Value × Trace) : Prop := b.1 = a.1 ∧ h₀.quiet a.1

lemma withTrace {v : Value} (hv : Quiet h₀ v) (trace trace' : Trace) :
    Agree h₀ (SameException h₀) (Eval.withTrace v trace) (Eval.withTrace v trace') :=
  .bindGet fun _ _ _ => .pure ⟨rfl, hv⟩

lemma materialize (hr : Runner.Steady h₀ run) {signal signal' : Signal}
    (h : signal.Paired h₀ signal') :
    Agree h₀ (SameException h₀) (Eval.materialize run signal)
      (Eval.materialize run signal') := by
  cases h with
  | thrown hv trace trace' => exact withTrace hv trace trace'
  | fault cause trace trace' =>
      refine .bind (hr.instantiate _ (List.forall_mem_singleton.mpr rfl)) fun v hv => ?_
      exact withTrace hv trace trace'
  | leave hv => exact .throw (.leave hv)
  | fatal error => exact .throw (.fatal error)
  | outOfFuel lacking => exact .throw (.outOfFuel lacking)

/-! ### Patterns -/

lemma bindAs (mode : BindMode) (name : String) {v : Value} (hv : Quiet h₀ v) :
    Eval.Steady h₀ Any (Eval.bindAs mode name v) := by
  cases mode with
  | fresh => exact .bindName name hv
  | assign => exact .assign name hv false
  | declare => exact .assign name hv true

lemma classPattern? (hr : Runner.Steady h₀ run) {e e' : Expr} (h : e.Like e') :
    Agree h₀ (Same Any) (Eval.classPattern? run e) (Eval.classPattern? run e') := by
  obtain ⟨site, form⟩ := e
  obtain ⟨site', form'⟩ := e'
  cases h.form.2 with
  | name name =>
      refine .bindGet fun s t hst => ?_
      rw [(hst.env.find? name).1]
      cases s.env.find? name with
      | none => exact .pure ⟨rfl, trivial⟩
      | some v => cases v <;> exact .pure ⟨rfl, trivial⟩
  | member name safe he =>
      refine .bind (hr.expr h) fun v _ => ?_
      cases v <;> exact .pure ⟨rfl, trivial⟩
  | _ => exact .pure ⟨rfl, trivial⟩

mutual

theorem matchPattern (hr : Runner.Steady h₀ run) (mode : BindMode) {pattern pattern' : Expr}
    (h : pattern.Like pattern') {v : Value} (hv : Quiet h₀ v) :
    Agree h₀ (Same Any) (Eval.matchPattern run mode pattern v)
      (Eval.matchPattern run mode pattern' v) :=
  match pattern, pattern', h with
  | .node _ _, .node _ _, h => matchForm hr mode h h.form.1 h.form.2 hv
termination_by sizeOf pattern
decreasing_by simp

theorem matchForm (hr : Runner.Steady h₀ run) (mode : BindMode) {site site' : Site}
    {form form' : Form} (h : (Expr.node site form).Like (.node site' form'))
    (hsite : site'.annotations = site.annotations) (hform : form.Like form') {v : Value}
    (hv : Quiet h₀ v) :
    Agree h₀ (Same Any) (Eval.matchForm run mode site form v)
      (Eval.matchForm run mode site' form' v) := by
  cases hform with
  | name name =>
      simp only [Eval.matchForm, hsite]
      change Eval.Steady h₀ Any _
      split
      · exact .bind (bindAs _ name hv) fun _ _ => .pure trivial
      · exact .pure trivial
  | constant c => exact .pure ⟨rfl, trivial⟩
  | group he => exact matchPattern hr mode he hv
  | tuple hes =>
      cases v with
      | tuple items =>
          simp only [Eval.matchForm, hes.length_eq]
          split
          · exact matchItems hr mode hes (Heap.quiet_tuple.mp hv)
          · exact .pure ⟨rfl, trivial⟩
      | _ => exact .pure ⟨rfl, trivial⟩
  | list hes =>
      cases v with
      | list r =>
          simp only [Eval.matchForm, hes.length_eq]
          refine .bindHeap fun t t' hp => ?_
          simp only [hp.items]
          split
          · exact matchItems hr mode hes (QuietArray.toList (hp.quiet_items r))
          · exact .pure ⟨rfl, trivial⟩
      | _ => exact .pure ⟨rfl, trivial⟩
  | map hcs =>
      cases v with
      | map r => exact matchEntries hr mode r hcs
      | _ => exact .pure ⟨rfl, trivial⟩
  | pair ha hb =>
      simp only [Eval.matchForm]
      refine .bind (hr.classPattern? hb) fun c _ => ?_
      cases c with
      | some c =>
          refine .bindHeap fun t t' hp => ?_
          simp only [hp.isInstance]
          split
          · exact matchPattern hr mode ha hv
          · exact .pure ⟨rfl, trivial⟩
      | none =>
          cases v with
          | tuple items =>
              -- only a tuple of two values is taken apart
              rcases items with _ | ⟨a, _ | ⟨b, _ | ⟨c, rest⟩⟩⟩
              · exact .pure ⟨rfl, trivial⟩
              · exact .pure ⟨rfl, trivial⟩
              · have hitems := Heap.quiet_tuple.mp hv
                refine .bind (matchPattern hr mode ha (hitems a (by simp))) fun fits _ => ?_
                cases fits with
                | true => exact matchPattern hr mode hb (hitems b (by simp))
                | false => exact .pure ⟨rfl, trivial⟩
              · exact .pure ⟨rfl, trivial⟩
          | _ => exact .pure ⟨rfl, trivial⟩
  | _ =>
      -- every other form is evaluated and compared, so the whole node is needed
      refine .bind (hr.expr h) fun w _ => ?_
      exact Steady.read fun _ _ hp => ⟨by rw [hp.equal], trivial⟩
termination_by sizeOf form
decreasing_by
  all_goals
    subst_vars
    simp only [Form.group.sizeOf_spec, Form.tuple.sizeOf_spec, Form.list.sizeOf_spec,
      Form.map.sizeOf_spec, Form.pair.sizeOf_spec]
    omega

theorem matchItems (hr : Runner.Steady h₀ run) (mode : BindMode) {patterns patterns' : List Expr}
    (h : patterns.Forall₂ Expr.Like patterns') {vs : List Value} (hvs : QuietList h₀ vs) :
    Agree h₀ (Same Any) (Eval.matchItems run mode patterns vs)
      (Eval.matchItems run mode patterns' vs) := by
  cases h with
  | nil => exact .pure ⟨rfl, trivial⟩
  | cons hp hps =>
      cases vs with
      | nil => exact .pure ⟨rfl, trivial⟩
      | cons v vs =>
          obtain ⟨hv, hvs⟩ := List.forall_mem_cons.mp hvs
          refine .bind (matchPattern hr mode hp hv) fun fits _ => ?_
          cases fits with
          | true => exact matchItems hr mode hps hvs
          | false => exact .pure ⟨rfl, trivial⟩
termination_by sizeOf patterns
decreasing_by
  all_goals
    simp only [List.cons.sizeOf_spec]
    omega

theorem matchEntries (hr : Runner.Steady h₀ run) (mode : BindMode) (r : MapRef)
    {patterns patterns' : List (Expr × Expr)} (h : patterns.Forall₂ Expr.PairLike patterns') :
    Agree h₀ (Same Any) (Eval.matchEntries run mode r patterns)
      (Eval.matchEntries run mode r patterns') := by
  match patterns, patterns', h with
  | [], [], .nil => exact .pure ⟨rfl, trivial⟩
  | (key, pattern) :: rest, (key', pattern') :: rest', .cons hentry hrest =>
      refine .bind (hr.expr hentry.1) fun k _ => .bindHeap fun t t' hp => ?_
      rw [hp.entries]
      cases hv : (t.entries r).find? k with
      | none => exact .pure ⟨rfl, trivial⟩
      | some v =>
          refine .bind (matchPattern hr mode hentry.2 ((hp.quiet_entries r).find? hv))
            fun fits _ => ?_
          cases fits with
          | true => exact matchEntries hr mode r hrest
          | false => exact .pure ⟨rfl, trivial⟩
termination_by sizeOf patterns
decreasing_by
  all_goals
    simp only [List.cons.sizeOf_spec, Prod.mk.sizeOf_spec]
    omega

end

/-! ### Collections and arguments -/

lemma evalEntries (hr : Runner.Steady h₀ run) {cs cs' : List (Expr × Expr)}
    (h : cs.Forall₂ Expr.PairLike cs') {done : Entries} (hd : done.Quiet h₀) :
    Agree h₀ (Same (Entries.Quiet h₀)) (Eval.evalEntries run done cs)
      (Eval.evalEntries run done cs') := by
  induction h generalizing done with
  | nil => exact .pure ⟨rfl, hd⟩
  | cons hc _ ih =>
      refine .bind (hr.expr hc.1) fun k hk => .bind (hr.expr hc.2) fun v hv => ?_
      exact ih (hd.insert hk hv)

lemma evalArguments (hr : Runner.Steady h₀ run) {es es' : List Expr}
    (h : es.Forall₂ Expr.Like es') :
    Agree h₀ (Same (QuietList h₀)) (Eval.evalArguments run es) (Eval.evalArguments run es') := by
  induction h with
  | nil => exact .pure ⟨rfl, List.forall_mem_nil _⟩
  | @cons e e' _ _ he _ ih =>
      obtain ⟨site, form⟩ := e
      obtain ⟨site', form'⟩ := e'
      cases he.form.2 with
      | spread hinner =>
          refine .bind (hr.expr hinner) fun v hv => .bind (Steady.spreadItems hv) fun vs hvs => ?_
          refine .bind ih fun ws hws => .pure ⟨rfl, fun w hw => ?_⟩
          obtain hw | hw := List.mem_append.mp hw
          · exact hvs w hw
          · exact hws w hw
      | _ =>
          refine .bind (hr.expr he) fun v hv => .bind ih fun vs hvs => ?_
          exact .pure ⟨rfl, hvs.cons hv⟩

/-! ### Clauses and loops -/

lemma destructure (hr : Runner.Steady h₀ run) {pattern pattern' : Expr}
    (h : pattern.Like pattern') {v : Value} (hv : Quiet h₀ v) :
    Agree h₀ (Same Any) (Eval.destructure run pattern v) (Eval.destructure run pattern' v) := by
  have bindAll : Agree h₀ (Same Any)
      (do let _ ← Eval.matchPattern run (if pattern.declares then .declare else .assign) pattern v
        : Eval Unit)
      (do let _ ← Eval.matchPattern run (if pattern'.declares then .declare else .assign) pattern' v
        : Eval Unit) := by
    rw [h.declares]
    exact .bind (hr.matchPattern _ h hv) fun _ _ => .pure ⟨rfl, trivial⟩
  refine .bind (.inFrame (hr.matchPattern .fresh h hv) _ _ _ _ _) fun fits _ => ?_
  cases fits with
  | true => exact bindAll
  | false =>
      refine .bind (Steady.display v) fun shown _ => ?_
      exact .bind (P := Any) (.fail _) fun _ _ => bindAll

lemma tryClause (hr : Runner.Steady h₀ run) (frame : String) {v : Value} (hv : Quiet h₀ v)
    {clause clause' : Expr × Expr} (h : Expr.PairLike clause clause') :
    Agree h₀ (Same (QuietOption h₀)) (Eval.tryClause run frame v clause)
      (Eval.tryClause run frame v clause') := by
  refine .inFrame (.bind (hr.matchPattern .fresh h.1 hv) fun fits _ => ?_) _ _ _ _ _
  cases fits with
  | true => exact .map (hr.expr h.2) fun _ => quietOption_some
  | false => exact .pure ⟨rfl, quietOption_none⟩

lemma runClauses (hr : Runner.Steady h₀ run) (frame : String) {v : Value} (hv : Quiet h₀ v)
    {cs cs' : List (Expr × Expr)} (h : cs.Forall₂ Expr.PairLike cs') :
    Agree h₀ (Same (QuietOption h₀)) (Eval.runClauses run frame v cs)
      (Eval.runClauses run frame v cs') := by
  induction h with
  | nil => exact .pure ⟨rfl, quietOption_none⟩
  | cons hc _ ih =>
      refine .bind (hr.tryClause frame hv hc) fun outcome ho => ?_
      cases outcome with
      | some w => exact .pure ⟨rfl, ho⟩
      | none => exact ih

lemma loopItems (hr : Runner.Steady h₀ run) (site site' : Site) {pattern pattern' : Expr}
    (hp : pattern.Like pattern') {body body' : Expr} (hb : body.Like body') {items : List Value}
    (hi : QuietList h₀ items) {last : Value} (hl : Quiet h₀ last) :
    Agree h₀ (Same (Quiet h₀)) (Eval.loopItems run site pattern body last items)
      (Eval.loopItems run site' pattern' body' last items) := by
  induction items generalizing last with
  | nil => exact .pure ⟨rfl, hl⟩
  | cons item rest ih =>
      obtain ⟨hitem, hrest⟩ := List.forall_mem_cons.mp hi
      refine .bind (P := Quiet h₀) (.inFrame ?_ _ _ _ _ _) fun v hv => ih hrest hv
      refine .bind (hr.matchPattern .fresh hp hitem) fun fits _ => ?_
      cases fits with
      | true => exact hr.expr hb
      | false => exact .bind (Steady.display item) fun _ _ => .fail _

lemma loopWhile (hr : Runner.Steady h₀ run) {condition condition' : Expr}
    (hc : condition.Like condition') {body body' : Expr} (hb : body.Like body') (rounds : Nat)
    {last : Value} (hl : Quiet h₀ last) :
    Agree h₀ (Same (Quiet h₀)) (Eval.loopWhile run condition body rounds last)
      (Eval.loopWhile run condition' body' rounds last) := by
  induction rounds generalizing last with
  | zero => exact .throw (.outOfFuel .rounds)
  | succ rounds ih =>
      refine .bind (hr.expr hc) fun c _ => ?_
      split
      · exact .bind (hr.expr hb) fun v hv => ih hv
      · exact .pure ⟨rfl, hl⟩

/-- The handlers of both sides see the same exception. -/
lemma handle (hr : Runner.Steady h₀ run) {cs cs' : List (Expr × Expr)}
    (h : cs.Forall₂ Expr.PairLike cs') {signal signal' : Signal}
    (hs : signal.Paired h₀ signal') :
    Agree h₀ (Same (Quiet h₀)) (Eval.handle run cs signal) (Eval.handle run cs' signal') := by
  refine .bindRel (hr.materialize hs) fun a b hab => ?_
  obtain ⟨v, trace⟩ := a
  obtain ⟨w, trace'⟩ := b
  -- the traces may differ: they go to the stack of snapshots and on with the exception only
  obtain ⟨rfl, hv⟩ := hab
  refine .bind (.handling (hr.runClauses "<catch>" hv h) trace trace') fun outcome ho => ?_
  cases outcome with
  | some w => exact .pure ⟨rfl, ho w rfl⟩
  | none => exact .throw (.thrown hv trace trace')

lemma attempt (hr : Runner.Steady h₀ run) {body body' : Expr} (hb : body.Like body')
    {cs cs' : List (Expr × Expr)} (h : cs.Forall₂ Expr.PairLike cs') :
    Agree h₀ (Same (Quiet h₀)) (Eval.attempt run body cs) (Eval.attempt run body' cs') :=
  .recover (hr.expr hb) fun _ _ hs => hr.handle h hs

/-! ### Classes and modules -/

lemma addMember {c c' : Class} (hc : c.Paired h₀ c') {m m' : Member} (hm : m.Like m') :
    (Eval.addMember c m).Paired h₀ (Eval.addMember c' m') := by
  cases hm with
  | method name params hbody =>
      exact { hc with methods := hc.methods.put name (.user ⟨rfl, rfl, hbody⟩) }
  | field name => exact { hc with fields := hc.fields.put name (.slot .none) }
  | fieldWith name he => exact { hc with fields := hc.fields.put name (.slot (.some he)) }

lemma foldl_addMember {ms ms' : List Member} (h : ms.Forall₂ Member.Like ms') {c c' : Class}
    (hc : c.Paired h₀ c') :
    (ms.foldl Eval.addMember c).Paired h₀ (ms'.foldl Eval.addMember c') := by
  induction h generalizing c c' with
  | nil => exact hc
  | cons hm _ ih => exact ih (addMember hc hm)

lemma declareClass (name : String) (superclass : Option String) {ms ms' : List Member}
    (h : ms.Forall₂ Member.Like ms') :
    Agree h₀ (Same (Quiet h₀)) (Eval.declareClass name superclass ms)
      (Eval.declareClass name superclass ms') := by
  refine .bind (Steady.superclassNamed name superclass) fun parent _ => ?_
  have hblank : Class.Paired h₀ ⟨name, [], [], parent, false, none⟩
      ⟨name, [], [], parent, false, none⟩ :=
    ⟨rfl, .nil, .nil, rfl, rfl, rfl, fun _ hr => by cases hr⟩
  refine .bind (.newClass (foldl_addMember h hblank)) fun c hc => ?_
  exact .bind (Steady.assign name hc false) fun _ _ => .pure ⟨rfl, hc⟩

lemma importModule (hr : Runner.Steady h₀ run) (segments : List String) :
    Eval.Steady h₀ (Quiet h₀) (Eval.importModule run segments) := by
  have note : ∀ path, Eval.Steady h₀ Any
      (modify fun s : Session => { s with imported := path :: s.imported }) :=
    fun path _ _ hst =>
      .ok ⟨rfl, trivial⟩ { hst with imported := congrArg (path :: ·) hst.imported }
  refine Agree.bindGet fun s t hst => ?_
  rw [hst.imported]
  change Eval.Steady h₀ (Quiet h₀) _
  split
  · exact .pure rfl
  · refine .bind (.loadModule _) fun text _ => .bind (note _) fun _ _ => ?_
    exact .bind (Agree.inFile (hr.inPlace _ text) _ _) fun _ _ => .pure rfl

/-! ### Forms and tasks -/

/-- Functions that were not read off an object. -/
lemma paired_plain (name : String) (params : Params) {e e' : Expr} (he : e.Like e') :
    Closure.Paired h₀ ⟨⟨name, params, e⟩, none⟩ ⟨⟨name, params, e'⟩, none⟩ :=
  ⟨⟨rfl, rfl, he⟩, rfl, fun _ hreceiver => by cases hreceiver⟩

/-- Forms that are alike are evaluated alike, wherever they stand. -/
theorem evalForm (hr : Runner.Steady h₀ run) (rounds : Nat) (site site' : Site)
    {form form' : Form} (h : form.Like form') :
    Agree h₀ (Same (Quiet h₀)) (Eval.evalForm rounds run site form)
      (Eval.evalForm rounds run site' form') := by
  cases h with
  | constant c => cases c <;> exact .pure ⟨rfl, rfl⟩
  | name name =>
      refine .bindGet fun s t hst => ?_
      obtain ⟨hfind, hquiet⟩ := hst.env.find? name
      rw [Environment.get, Environment.get, hfind]
      cases hv : s.env.find? name with
      | none => exact .fail _
      | some v => exact .pure ⟨rfl, hquiet v hv⟩
  | group he => exact hr.expr he
  | tuple hes =>
      exact .bind (hr.evalAll hes) fun vs hvs => .pure ⟨rfl, Heap.quiet_tuple.mpr hvs⟩
  | list hes => exact .bind (hr.evalAll hes) fun vs hvs => Steady.newList hvs.toArray
  | map hcs =>
      exact .bind (hr.evalEntries hcs (List.forall_mem_nil _)) fun m hm => Steady.newMap hm
  | pair ha hb =>
      refine .bind (hr.expr ha) fun v hv => .bind (hr.expr hb) fun w hw => ?_
      exact .pure ⟨rfl, Heap.quiet_tuple.mpr (QuietList.pair hv hw)⟩
  | unary op he => exact .bind (hr.expr he) fun v _ => Steady.unary op v
  | binary op ha hb =>
      refine .bind (hr.expr ha) fun v _ => .bind (hr.expr hb) fun w _ => ?_
      exact .bind (.mark _ _) fun _ _ => Steady.binary op v w
  | logical op ha hb =>
      refine .bind (hr.expr ha) fun v hv => ?_
      cases op <;> cases v.isTruthy <;> first | exact .pure ⟨rfl, hv⟩ | exact hr.expr hb
  | assign name declare he =>
      refine .bind (hr.expr he) fun v hv => .bind (Steady.assign name hv declare) fun _ _ => ?_
      exact .pure ⟨rfl, hv⟩
  | destructure hp he =>
      refine .bind (hr.expr he) fun v hv => .bind (hr.destructure hp hv) fun _ _ => ?_
      exact .pure ⟨rfl, hv⟩
  | index ha hb =>
      refine .bind (hr.expr ha) fun v hv => .bind (hr.expr hb) fun i _ => ?_
      exact .bind (.mark _ _) fun _ _ => Steady.getIndex hv i
  | setIndex ha hb hc =>
      refine .bind (hr.expr ha) fun v _ => .bind (hr.expr hb) fun i hi => ?_
      refine .bind (hr.expr hc) fun w hw => .bind (.mark _ _) fun _ _ => ?_
      exact .bind (Steady.setIndex v hi hw) fun _ _ => .pure ⟨rfl, hw⟩
  | member name safe he =>
      refine .bind (hr.expr he) fun v hv => ?_
      split
      · exact .pure ⟨rfl, quiet_null⟩
      · exact .bind (.mark _ _) fun _ _ => Steady.getMember hv name
  | setMember name ha hb =>
      refine .bind (hr.expr ha) fun v hv => .bind (hr.expr hb) fun w hw => ?_
      refine .bind (.mark _ _) fun _ _ => .bind (Steady.setMember hv name hw) fun _ _ => ?_
      exact .pure ⟨rfl, hw⟩
  | call he hes =>
      refine .bind (hr.expr he) fun f hf => .bind (hr.evalArguments hes) fun vs hvs => ?_
      exact .bind (.mark _ _) fun _ _ => hr.call hf hvs
  | spread he => exact .fail _
  | function name params declare he =>
      refine .bind (.newFunction (paired_plain name params he)) fun f hf => ?_
      exact .bind (Steady.assign name hf declare) fun _ _ => .pure ⟨rfl, hf⟩
  | lambda params he => exact .newFunction (paired_plain lambdaName params he)
  | block hes => exact .inFrame (hr.sequenceFrom hes quiet_null) _ _ _ _ _
  | branch ha hb =>
      refine .bind (hr.expr ha) fun c _ => ?_
      split
      · exact hr.expr hb
      · exact .pure ⟨rfl, quiet_null⟩
  | branchElse ha hb hc =>
      refine .bind (hr.expr ha) fun c _ => ?_
      split
      · exact hr.expr hb
      · exact hr.expr hc
  | whileLoop ha hb => exact hr.loopWhile ha hb rounds quiet_null
  | forLoop hp hi hb =>
      refine .bind (hr.expr hi) fun v hv => .bind (Steady.iterationItems hv) fun items hitems => ?_
      exact hr.loopItems site site' hp hb hitems quiet_null
  | matching he hcs =>
      refine .bind (hr.expr he) fun v hv => .bind (hr.runClauses "<match>" hv hcs) fun w hw => ?_
      cases w with
      | some w => exact .pure ⟨rfl, hw w rfl⟩
      | none => exact .bind (Steady.display v) fun _ _ => .fail _
  | attempt he hcs => exact hr.attempt he hcs
  | raise he => exact .bind (hr.expr he) fun v hv => .throw (.thrown hv [] [])
  | leave => exact .throw (.leave quiet_null)
  | leaveWith he => exact .bind (hr.expr he) fun v hv => .throw (.leave hv)
  | classDef name superclass hms => exact declareClass name superclass hms
  | importing path => exact hr.importModule path

lemma evalExpr (hr : Runner.Steady h₀ run) (rounds : Nat) {e e' : Expr} (h : e.Like e') :
    Agree h₀ (Same (Quiet h₀)) (Eval.evalExpr rounds run e) (Eval.evalExpr rounds run e') := by
  obtain ⟨site, form⟩ := e
  obtain ⟨site', form'⟩ := e'
  exact .bind (.mark _ _) fun _ _ => hr.evalForm rounds site site' h.form.2

/-- One more level on top of a steady runner is steady. -/
lemma step (hr : Runner.Steady h₀ run) (rounds : Nat) :
    Runner.Steady h₀ (Eval.step rounds run) where
  expr := hr.evalExpr rounds
  call := fun hf hvs => hr.callValue hf hvs

end Runner.Steady

/-- The evaluator runs trees that are alike alike, whatever it is given. -/
theorem Eval.steady_perform (h₀ : Heap) (rounds calls levels : Nat) :
    Runner.Steady h₀ (perform rounds calls levels) := by
  -- a level hands its parts to the level below; alike tasks use up the same amounts
  induction levels generalizing calls with
  | zero => exact ⟨fun _ => .throw (.outOfFuel .levels), fun _ _ => .throw (.outOfFuel .levels)⟩
  | succ levels ih =>
      refine ⟨fun {e e'} he => ?_, fun {f vs} hf hvs => ?_⟩
      · rw [perform_succ rfl, perform_succ rfl]
        exact ((ih calls).step rounds).expr he
      · cases hframe : (Task.call f vs).isFrameless with
        | false =>
            rw [perform_succ hframe]
            exact ((ih calls).step rounds).call hf hvs
        | true =>
            cases calls with
            | zero =>
                rw [perform_frameless_zero hframe]
                exact Agree.throw (.outOfFuel .calls)
            | succ calls =>
                rw [perform_frameless_succ hframe]
                exact ((ih calls).step rounds).call hf hvs

namespace Session

/-- Ends that go together have the same bare end. -/
lemma bareResult_eq_of_matched {h₀ : Heap} {P : Value → Prop}
    {r r' : EStateM.Result Signal Session Value} (h : Matched h₀ (Same P) r r') :
    bareResult r' = bareResult r := by
  cases h with
  | ok hab hst =>
      obtain ⟨rfl, -⟩ := hab
      rw [bareResult, bareResult, hst.bare]
  | error hsignal hst => rw [bareResult, bareResult, hsignal.bare, hst.bare]

/-- Computations that agree leave sessions that go together. -/
lemma paired_after {h₀ : Heap} {R : Value → Value → Prop} {x y : Eval Value} {s t : Session}
    (h : Matched h₀ R (x s) (y t)) : (s.after x).Paired h₀ (t.after y) := by
  obtain ⟨a, b, s', t', hs, ht, _, hst⟩ | ⟨signal, signal', s', t', hs, ht, _, hst⟩ := h.cases
  · rwa [after, after, hs, ht]
  · rwa [after, after, hs, ht]

/-- Positions do not influence results. Take two programs whose trees differ in their tokens only,
and run them, `Eval.run` being one of the runners, from one session in which nothing leads to a
native function that tells where the program stands. The hosts of the two runs answer alike: both
clocks give the same readings, and operations and members of the hosts the same answers. Then both
programs end in the same way, with the same value, failure, raised value or error of a text, traces
aside. Both leave the same session, with the same output, modules, cells, and names in every frame;
only places, traces, and tokens inside classes and functions can differ, and these not in the
classes and functions that were there before. -/
theorem program_placeless (rounds calls levels : Nat) {body body' : List Expr} {s : Session}
    {host : Host} (hbody : body'.map Expr.bare = body.map Expr.bare) (hs : s.isQuiet = true)
    (hhost : s.host.Alike host) :
    let x := Eval.program (perform rounds calls levels) body
    let y := Eval.program (perform rounds calls levels) body'
    let t : Session := { s with host }
    bareResult (y t) = bareResult (x s) ∧
      (∀ r c, s.heap.class? r = some c →
        (s.after x).heap.class? r = some c ∧ (t.after y).heap.class? r = some c) ∧
      ∀ r f, s.heap.function? r = some f →
        (s.after x).heap.function? r = some f ∧ (t.after y).heap.function? r = some f := by
  intro x y t
  have hlike : body.Forall₂ Expr.Like body' := forall₂_of_map_eq id hbody
  have hends : Matched s.heap (Same (Quiet s.heap)) (x s) (y t) :=
    (steady_perform s.heap rounds calls levels).program hlike (paired_self hs hhost)
  have hheap : s.heap.Paired (s.after x).heap (t.after y).heap := (paired_after hends).heap
  exact ⟨bareResult_eq_of_matched hends, fun _ _ => hheap.oldClass, fun _ _ => hheap.oldFunction⟩

/-- A host with a clock that goes on by a second from each reading to the next. -/
def ticking : Host := { Host.idle with clock := Float.ofNat }

/-- The session at the start with the name of the function that tells where the program stands
bound to null. -/
def muted : Session := { initial with env := initial.env.put "stacktrace" .null, host := ticking }

/-- A function that fails, the time printed, and a call of the function, all at one line. -/
def failingCall (line : Nat) : List Expr :=
  let site : Site := ⟨{ (default : Token) with line }, []⟩
  let call (name : String) (arguments : List Expr) : Expr :=
    .node site (.call (.node site (.name name)) arguments)
  [.node site (.function "f" ⟨[], none⟩ (.node site (.name "missing")) false),
    call "print" [call "clock" []], call "f" []]

/-- The program at the first line and at the seventh, and two clocks that go alike. -/
theorem program_placeless_failingCall :
    (failingCall 7).map Expr.bare = (failingCall 1).map Expr.bare ∧ muted.isQuiet = true ∧
    muted.host.Alike ticking ∧
    bareResult (Eval.program (perform 0 2 4) (failingCall 7) { muted with host := ticking }) =
      bareResult (Eval.program (perform 0 2 4) (failingCall 1) muted) := by
  have hbody : (failingCall 7).map Expr.bare = (failingCall 1).map Expr.bare := rfl
  have hquiet : muted.isQuiet = true := by decide +kernel
  have hhost : muted.host.Alike ticking :=
    ⟨fun _ => rfl, fun _ _ _ _ => rfl, fun _ _ _ => rfl⟩
  exact ⟨hbody, hquiet, hhost, (program_placeless 0 2 4 hbody hquiet hhost).1⟩

end Session

end Tern
