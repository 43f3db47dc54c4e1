/-
The evaluator upholds what a session is made of. An object is built together with one object for
each superclass, the topmost first, and code of the program runs in between; all that this code can
do is uphold the heap, so the objects that are there already stay as they were made.

* `Runner.Upholds`: a runner of which each task upholds the session; and a second one beside it
  that does the same in sound sessions.
* `Runner.Upholds.buildChain`, `Runner.Upholds.matchPattern`, `Runner.Upholds.evalForm` and the
  like: then each part of the evaluator does.
* `Eval.upholds_performUntil`: the evaluator does, whatever it is given, and halting it at moments
  that are not sound makes no difference.
-/
import Tern.Proofs.Moments
import Tern.Proofs.Upholds

namespace Tern

open Eval

/-- The tasks of two runners uphold the session, and do the same if that is sound. -/
structure Runner.Upholds (run run' : Runner) : Prop where
  expr : ∀ (h : Heap) (e : Expr), Eval.Upholds h .sound (run (.expr e)) (run' (.expr e))
  call : ∀ {h : Heap} {f : Value} {vs : List Value}, h.Sound f → h.SoundAll vs →
    Eval.Upholds h .sound (run (.call f vs)) (run' (.call f vs))

namespace Runner.Upholds

variable {run run' : Runner} {h : Heap}

/-! ### Expressions in a row -/

lemma evalAll (hr : Runner.Upholds run run') (es : List Expr) :
    Eval.Upholds h .all (Eval.evalAll run es) (Eval.evalAll run' es) := by
  induction es generalizing h with
  | nil => exact .pure .nil
  | cons e rest ih =>
      refine .bind (hr.expr h e) fun v h' _ hv => .bind ih fun vs h'' hg hvs => ?_
      exact .pure (.cons (hv.later hg) hvs)

lemma sequenceFrom (hr : Runner.Upholds run run') (es : List Expr) {last : Value}
    (hl : h.Sound last) :
    Eval.Upholds h .sound (Eval.sequenceFrom run last es) (Eval.sequenceFrom run' last es) := by
  induction es generalizing h last with
  | nil => exact .pure hl
  | cons e rest ih => exact .bind (hr.expr h e) fun v h' _ hv => ih hv

lemma program (hr : Runner.Upholds run run') (es : List Expr) :
    Eval.Upholds h .sound (Eval.program run es) (Eval.program run' es) :=
  .catchLeave (hr.sequenceFrom es .null)

lemma inPlace (hr : Runner.Upholds run run') (source text : String) :
    Eval.Upholds h .sound (Eval.inPlace run source text) (Eval.inPlace run' source text) := by
  unfold Eval.inPlace
  cases parse source text with
  | error e => exact .throw fun _ => trivial
  | ok body => exact hr.program body

/-! ### Calling back -/

lemma callEach (hr : Runner.Upholds run run') {f : Value} (hf : h.Sound f) {items : List Value}
    (hi : h.SoundAll items) :
    Eval.Upholds h .any (Eval.callEach run f items) (Eval.callEach run' f items) := by
  induction items generalizing h with
  | nil => exact .pure trivial
  | cons item rest ih =>
      obtain ⟨hitem, hrest⟩ := List.forall_mem_cons.mp hi
      refine .bind (hr.call hf (.single hitem)) fun _ h' hg _ => ?_
      exact ih (hf.later hg) (Heap.SoundAll.later hg hrest)

lemma callMap (hr : Runner.Upholds run run') {f : Value} (hf : h.Sound f) {items : List Value}
    (hi : h.SoundAll items) {done : Array Value} (hd : h.SoundAll done) :
    Eval.Upholds h .all (Eval.callMap run f done items) (Eval.callMap run' f done items) := by
  induction items generalizing h done with
  | nil => exact .pure hd
  | cons item rest ih =>
      obtain ⟨hitem, hrest⟩ := List.forall_mem_cons.mp hi
      refine .bind (hr.call hf (.single hitem)) fun v h' hg hv => ?_
      exact ih (hf.later hg) (Heap.SoundAll.later hg hrest) ((hd.later hg).push hv)

lemma callFilter (hr : Runner.Upholds run run') {f : Value} (hf : h.Sound f) {items : List Value}
    (hi : h.SoundAll items) {done : Array Value} (hd : h.SoundAll done) :
    Eval.Upholds h .all (Eval.callFilter run f done items) (Eval.callFilter run' f done items) := by
  induction items generalizing h done with
  | nil => exact .pure hd
  | cons item rest ih =>
      obtain ⟨hitem, hrest⟩ := List.forall_mem_cons.mp hi
      refine .bind (hr.call hf (.single hitem)) fun v h' hg _ => ?_
      refine ih (hf.later hg) (Heap.SoundAll.later hg hrest) ?_
      split
      · exact (hd.later hg).push (hitem.later hg)
      · exact hd.later hg

lemma callFold (hr : Runner.Upholds run run') {f : Value} (hf : h.Sound f) {items : List Value}
    (hi : h.SoundAll items) {acc : Value} (ha : h.Sound acc) :
    Eval.Upholds h .sound (Eval.callFold run f acc items) (Eval.callFold run' f acc items) := by
  induction items generalizing h acc with
  | nil => exact .pure ha
  | cons item rest ih =>
      obtain ⟨hitem, hrest⟩ := List.forall_mem_cons.mp hi
      refine .bind (hr.call hf (.pair ha hitem)) fun v h' hg hv => ?_
      exact ih (hf.later hg) (Heap.SoundAll.later hg hrest) hv

/-! ### Operations of the library -/

lemma soundAll_numbersBetween (first last : Int) : h.SoundAll (numbersBetween first last) := by
  refine Heap.SoundAll.toArray fun v hv => ?_
  obtain ⟨n, -, rfl⟩ := List.mem_map.mp hv
  exact .number _

lemma globalOperation (hr : Runner.Upholds run run') (operation : Primitive)
    (arguments : List Value) : Eval.Upholds h .sound (Eval.globalOperation run operation arguments)
      (Eval.globalOperation run' operation arguments) := by
  unfold Eval.globalOperation
  split
  · exact .bindHeap fun _ _ _ => .bind (.printLine _) fun _ _ _ _ => .pure .null
  · exact .bind (.display _) fun _ _ _ _ => .pure (.text _)
  · exact .read fun _ _ hw => .classOf (hw.classOf _)
  · exact .bind (.textArgument _ _) fun text _ _ _ => hr.inPlace "<eval>" text
  · exact .readClock
  · exact .bind (.boundArgument _) fun _ _ _ _ => .newList (soundAll_numbersBetween _ _)
  · refine .bind (.boundArgument _) fun _ _ _ _ => .bind (.boundArgument _) fun _ _ _ _ => ?_
    exact .newList (soundAll_numbersBetween _ _)
  · split
    · exact .pure .null
    · exact .fail _
  · split
    · exact .pure .null
    · exact .bind (.display _) fun _ _ _ _ => .fail _
  · exact .bindGet fun _ _ _ => .newList (.texts _ _)
  · exact .pure .null

lemma listOperation (hr : Runner.Upholds run run') (operation : Primitive) {arguments : List Value}
    (ha : h.SoundAll arguments) :
    Eval.Upholds h .sound (Eval.listOperation run operation arguments)
      (Eval.listOperation run' operation arguments) := by
  unfold Eval.listOperation
  split
  · exact .newList ha.toArray
  · refine .bind (.listArgument _ _) fun r _ hg _ => .bind (.modifyList r fun hg' vs hvs => ?_)
      fun _ _ hg' _ => .pure ((ha _ (by simp)).later (hg.trans hg'))
    exact hvs.push ((ha _ (by simp)).later (hg.trans hg'))
  · refine .bind (.listArgument _ _) fun r _ _ _ => .bindHeap fun h' _ hw => ?_
    cases hv : (h'.items r).back? with
    | none => exact .fail _
    | some v =>
        refine .bind (.modifyList r fun _ _ => Heap.SoundAll.pop) fun _ _ hg _ => .pure ?_
        exact (hw.items r v (Array.mem_of_back? hv)).later hg
  · exact .bind (.itemsArgument _ _) fun _ _ _ _ => .read fun _ _ _ => .bool _
  · refine .bind (.itemsArgument _ _) fun vs _ hg hvs => ?_
    refine .bind (hr.callEach ((ha _ (by simp)).later hg) hvs.toList) fun _ _ _ _ => .pure .null
  · refine .bind (.itemsArgument _ _) fun vs _ hg hvs => ?_
    exact .bind (hr.callMap ((ha _ (by simp)).later hg) hvs.toList .empty) fun _ _ _ => .newList
  · refine .bind (.itemsArgument _ _) fun vs _ hg hvs => ?_
    exact .bind (hr.callFilter ((ha _ (by simp)).later hg) hvs.toList .empty) fun _ _ _ => .newList
  · refine .bind (.itemsArgument _ _) fun vs _ hg hvs => ?_
    exact hr.callFold ((ha _ (by simp)).later hg) hvs.toList ((ha _ (by simp)).later hg)
  · exact .joinItems _ _
  · exact .bind (.textArgument _ _) fun _ _ _ _ => .joinItems _ _
  · refine .bind (.itemsArgument _ _) fun vs _ _ hvs => .newList fun v hv => ?_
    exact hvs v (Array.mem_reverse.mp hv)
  · exact .pure .null

/-- An operation on sound arguments. Only the constructor of exceptions asks for more. -/
lemma primitive (hr : Runner.Upholds run run') (operation : Primitive) {arguments : List Value}
    (ha : h.SoundAll arguments)
    (hinit : operation = .initException → ∀ r ∈ arguments.head?, ∀ o, r = .object o →
      h.Declares o messageSlot) :
    Eval.Upholds h .sound (Eval.primitive run operation arguments)
      (Eval.primitive run' operation arguments) := by
  unfold Eval.primitive
  split
  all_goals first
    | exact hr.globalOperation _ _
    | exact hr.listOperation _ ha
    | exact .scalarOperation _ _
    | exact .entryOperation _ ha
    | exact .exceptionOperation _ ha hinit
    | exact .hostOperation _ ha

/-! ### Calls -/

lemma bindParams (rest : Option String) (names : List String) {vs : List Value}
    (hvs : h.SoundAll vs) :
    Eval.Upholds h .any (Eval.bindParams rest names vs) (Eval.bindParams rest names vs) := by
  induction names generalizing h vs with
  | nil =>
      cases rest with
      | none => exact .pure trivial
      | some name => exact .bind (.newList hvs.toArray) fun _ _ _ => .bindName name
  | cons name names ih =>
      cases vs with
      | nil => exact .bind (.bindName name .null) fun _ _ _ _ => ih .nil
      | cons v vs =>
          obtain ⟨hv, hvs⟩ := List.forall_mem_cons.mp hvs
          exact .bind (.bindName name hv) fun _ _ hg _ => ih (Heap.SoundAll.later hg hvs)

lemma bindReceiver {receiver : Option (Value × Value)}
    (hv : ∀ p ∈ receiver, h.Sound p.1 ∧ h.Sound p.2) :
    Eval.Upholds h .any (Eval.bindReceiver receiver) (Eval.bindReceiver receiver) := by
  cases receiver with
  | none => exact .pure trivial
  | some receiver =>
      obtain ⟨hthis, hparent⟩ := hv receiver rfl
      exact .bind (.bindName "self" hthis) fun _ _ hg _ => .bindName "super" (hparent.later hg)

lemma callFunction (hr : Runner.Upholds run run') {f : Closure}
    (hf : ∀ p ∈ f.receiver, h.Sound p.1 ∧ h.Sound p.2) {arguments : List Value}
    (ha : h.SoundAll arguments) :
    Eval.Upholds h .sound (Eval.callFunction run f arguments)
      (Eval.callFunction run' f arguments) := by
  unfold Eval.callFunction
  dsimp only
  split
  · refine .inFrame (.bind (bindReceiver hf) fun _ _ hg _ => ?_) _ _ _
    refine .bind (bindParams _ _ (ha.later hg)) fun _ h' _ _ => ?_
    exact .catchLeave (hr.expr h' f.code.body)
  · exact .fail _

/-- The operation that is selected is one of the overloads. -/
lemma writes_of_select? {f : Native} {count : Nat}
    (hselect : f.select? count = some .initException) : f.writes = true := by
  rw [Native.select?] at hselect
  split at hselect
  · rename_i overload hfind
    cases hselect
    exact List.any_eq_true.mpr ⟨_, List.mem_of_find?_eq_some hfind, by simp⟩
  · obtain ⟨overload, hfind, hoperation⟩ := Option.map_eq_some_iff.mp hselect
    exact List.any_eq_true.mpr ⟨overload, List.mem_of_find?_eq_some hfind, by simp [hoperation]⟩

/-- The constructor of exceptions is called with the object that it was read off. -/
lemma callNative (hr : Runner.Upholds run run') {f : Native} {receiver : Option Value}
    (hv : h.SoundAll receiver)
    (hwrites : f.writes = true → ∃ o, receiver = some (.object o) ∧ h.Declares o messageSlot)
    {arguments : List Value} (ha : h.SoundAll arguments) :
    Eval.Upholds h .sound (Eval.callNative run f receiver arguments)
      (Eval.callNative run' f receiver arguments) := by
  have hall : h.SoundAll (receiver.toList ++ arguments) :=
    .append (fun v hmem => hv v (Option.mem_toList.mp hmem)) ha
  unfold Eval.callNative
  split
  · rename_i operation hselect
    refine hr.primitive operation hall ?_
    rintro rfl this hthis o rfl
    obtain ⟨o', rfl, hdeclares⟩ := hwrites (writes_of_select? hselect)
    cases hthis
    exact hdeclares
  · exact .fail _

/-! ### Instances -/

/-- The slots that are filled are declared. -/
lemma hasSlot_of_mem_slotsOf {c : Class} (hfields : c.fields.names.Nodup)
    {slot : String × Option Expr} (hslot : slot ∈ slotsOf c) : c.hasSlot slot.1 = true := by
  obtain ⟨entry, hentry, hslot⟩ := List.mem_filterMap.mp hslot
  obtain ⟨name, field⟩ := entry
  cases field with
  | slot default =>
      cases hslot
      rw [Class.hasSlot, Bindings.find?_of_mem hfields hentry]
  | computed getter => cases hslot

/-- Code that runs in between leaves the slots declared. -/
lemma fillSlots (hr : Runner.Upholds run run') (r : ObjectRef) {slots : List (String × Option Expr)}
    (hslots : ∀ slot ∈ slots, h.Declares r slot.1) :
    Eval.Upholds h .any (Eval.fillSlots run r slots) (Eval.fillSlots run' r slots) := by
  induction slots generalizing h with
  | nil => exact .pure trivial
  | cons slot rest ih =>
      obtain ⟨name, default⟩ := slot
      obtain ⟨hfirst, hrest⟩ := List.forall_mem_cons.mp hslots
      have write : ∀ (v : Value) (h' : Heap), h.Grows h' → h'.Sound v → Eval.Upholds h' .any
          (do Eval.modifyHeap (·.setSlot r name v); Eval.fillSlots run r rest)
          (do Eval.modifyHeap (·.setSlot r name v); Eval.fillSlots run' r rest) := by
        intro v h' hg hv
        refine .bind (.setSlot (hfirst.later hg) hv) fun _ _ hg' _ => ih fun slot hslot => ?_
        exact (hrest slot hslot).later (hg.trans hg')
      cases default with
      | none => exact .bind (P := .sound) (.pure .null) write
      | some e => exact .bind (hr.expr h e) write

/-- The object of one class, on top of the one of the superclass. -/
lemma buildLevel (hr : Runner.Upholds run run') {ref : ClassRef} {c : Class}
    (hc : h.class? ref = some c) {parent : Option ObjectRef}
    (hp : parent.map h.classOfObject? = c.superclass.map some) :
    Eval.Upholds h (.ofClass ref) (Eval.buildLevel run ref parent)
      (Eval.buildLevel run' ref parent) := by
  refine .bind (.newObject hc hp) fun r h₁ hg₁ hclass => .bindHeap fun h₂ hg₂ hw => ?_
  have hc₂ := (hg₁.trans hg₂).class? hc
  have hr₂ : h₂.classOfObject? r = some ref := hg₂.classOfObject? hclass
  have hslots : ∀ slot ∈ slotsOf c, h₂.Declares r slot.1 := by
    refine fun slot hslot => ⟨c, ?_, hasSlot_of_mem_slotsOf (hw.classes hc₂).fields hslot⟩
    rw [hr₂]
    exact hc₂
  simp only [hc₂]
  split
  · exact .pure hr₂
  · refine .bindGet fun s hg₃ _ => .bind (P := .any) (.inFrame ?_ _ _ _) fun _ _ hg₄ _ => ?_
    · refine .bind (.bindName "self" (.object r)) fun _ _ hg₄ _ => ?_
      refine .bind (.bindName "super" (Heap.sound_elim_object parent)) fun _ _ hg₅ _ => ?_
      refine hr.fillSlots r fun slot hslot => ?_
      exact (hslots slot hslot).later ((hg₃.trans hg₄).trans hg₅)
    · exact .pure ((hg₃.trans hg₄).classOfObject? hr₂)

/-- The object that is built is of the first class of the chain. -/
def Topped (chain : List ClassRef) : Assertion (Option ObjectRef) where
  Holds h parent := parent.map h.classOfObject? = chain.head?.map some
  later hg hp := hg.parent hp

lemma buildChain (hr : Runner.Upholds run run') {chain : List ClassRef} (hc : h.Climbs chain) :
    Eval.Upholds h (Topped chain) (Eval.buildChain run chain) (Eval.buildChain run' chain) := by
  induction chain generalizing h with
  | nil => exact .pure rfl
  | cons ref rest ih =>
      obtain ⟨⟨c, hclass, hsuper⟩, hrest⟩ := hc
      refine .bind (ih hrest) fun parent h' hg hparent => ?_
      refine .map (hr.buildLevel (hg.class? hclass) ?_) fun r _ _ hr' => ?_
      · rw [hsuper]
        exact hparent
      · exact congrArg some hr'

lemma construct (hr : Runner.Upholds run run') (ref : ClassRef) :
    Eval.Upholds h .sound (Eval.construct run ref) (Eval.construct run' ref) := by
  refine .bindHeap fun h' _ hw => ?_
  dsimp only
  split
  · exact .fail _
  · refine .bind (hr.buildChain (hw.climbs_lineage ref)) fun r _ _ _ => ?_
    exact .pure (Heap.sound_elim_object r)

lemma instantiate (hr : Runner.Upholds run run') (ref : ClassRef) {arguments : List Value}
    (ha : h.SoundAll arguments) :
    Eval.Upholds h .sound (Eval.instantiate run ref arguments)
      (Eval.instantiate run' ref arguments) := by
  refine .bindHeap fun h' hg hw => ?_
  cases hc : h'.class? ref with
  | none => exact .fail _
  | some c =>
      dsimp only
      split
      · cases hinit : c.init.bind h'.native? with
        | none => exact .fail _
        | some init =>
            obtain ⟨n, hn, hnative⟩ := Option.bind_eq_some_iff.mp hinit
            obtain ⟨f, hf, hwrites⟩ := (hw.classes hc).init n hn
            obtain rfl : f = init := Option.some.inj (hf.symm.trans hnative)
            refine hr.callNative .none (fun htrue => ?_) (ha.later hg)
            rw [hwrites] at htrue
            cases htrue
      · refine .bind (hr.construct ref) fun object h₁ hg₁ hobject => ?_
        refine .bind (.findMember? hobject "init") fun init h₂ hg₂ hinit => ?_
        have ha₂ := ha.later ((hg.trans hg₁).trans hg₂)
        cases init with
        | some init =>
            refine .bind (hr.call (hinit init rfl) ha₂) fun _ _ hg₃ _ => ?_
            exact .pure (hobject.later (hg₂.trans hg₃))
        | none =>
            dsimp only
            split
            · exact .pure (hobject.later hg₂)
            · exact .fail _

lemma callValue (hr : Runner.Upholds run run') {callee : Value} (hc : h.Sound callee)
    {arguments : List Value} (ha : h.SoundAll arguments) :
    Eval.Upholds h .sound (Eval.callValue run callee arguments)
      (Eval.callValue run' callee arguments) := by
  refine .bindHeap fun h' hg hw => ?_
  have ha' := ha.later hg
  cases callee with
  | function r =>
      cases hf : h'.function? r with
      | none =>
          simp only [hf]
          exact .fail _
      | some f =>
          simp only [hf]
          exact hr.callFunction (hw.functions f (Array.mem_of_getElem? hf)) ha'
  | native r =>
      cases hc with
      | native hf hwrites =>
          simp only [hg.native? hf]
          refine hr.callNative .none (fun htrue => ?_) ha'
          rw [hwrites] at htrue
          cases htrue
  | bound r receiver =>
      cases hc with
      | bound hf hreceiver hwrites =>
          simp only [hg.native? hf]
          refine hr.callNative (.some (hreceiver.later hg)) (fun htrue => ?_) ha'
          obtain ⟨o, rfl, hdeclares⟩ := hwrites htrue
          exact ⟨o, rfl, hdeclares.later hg⟩
  | classOf r => exact hr.instantiate r ha'
  | _ => exact .fail _

lemma withTrace {v : Value} (hv : h.Sound v) (trace : Trace) :
    Eval.Upholds h .exception (Eval.withTrace v trace) (Eval.withTrace v trace) :=
  .bindGet fun _ hg _ => .pure (hv.later hg)

lemma materialize (hr : Runner.Upholds run run') {signal : Signal} (hs : signal.Sound h) :
    Eval.Upholds h .exception (Eval.materialize run signal) (Eval.materialize run' signal) := by
  cases signal with
  | thrown v trace => exact withTrace hs trace
  | fault cause trace =>
      exact .bind (hr.instantiate _ (.single (.text _))) fun v _ _ hv => withTrace hv trace
  | leave v => exact .throw fun hg => Heap.Sound.later hg hs
  | _ => exact .throw fun _ => trivial

/-! ### Patterns -/

lemma bindAs (mode : BindMode) (name : String) {v : Value} (hv : h.Sound v) :
    Eval.Upholds h .any (Eval.bindAs mode name v) (Eval.bindAs mode name v) := by
  cases mode with
  | fresh => exact .bindName name hv
  | assign => exact .assign name hv false
  | declare => exact .assign name hv true

lemma classPattern? (hr : Runner.Upholds run run') (e : Expr) :
    Eval.Upholds h .any (Eval.classPattern? run e) (Eval.classPattern? run' e) := by
  obtain ⟨site, form⟩ := e
  cases form with
  | name name =>
      refine .bindGet fun s _ _ => ?_
      cases s.env.find? name with
      | none => exact .pure trivial
      | some v => cases v <;> exact .pure trivial
  | member object name safe =>
      refine .bind (hr.expr h _) fun v _ _ _ => ?_
      cases v <;> exact .pure trivial
  | _ => exact .pure trivial

mutual

theorem matchPattern (hr : Runner.Upholds run run') (mode : BindMode) {h : Heap} (pattern : Expr)
    {v : Value} (hv : h.Sound v) :
    Eval.Upholds h .any (Eval.matchPattern run mode pattern v)
      (Eval.matchPattern run' mode pattern v) :=
  match pattern with
  | .node site form => matchForm hr mode site form hv
termination_by sizeOf pattern
decreasing_by simp

theorem matchForm (hr : Runner.Upholds run run') (mode : BindMode) {h : Heap} (site : Site)
    (form : Form) {v : Value} (hv : h.Sound v) :
    Eval.Upholds h .any (Eval.matchForm run mode site form v)
      (Eval.matchForm run' mode site form v) := by
  cases form with
  | name name =>
      simp only [Eval.matchForm]
      split
      · exact .bind (bindAs _ name hv) fun _ _ _ _ => .pure trivial
      · exact .pure trivial
  | constant c => exact .pure trivial
  | group inner => exact matchPattern hr mode inner hv
  | tuple patterns =>
      cases v with
      | tuple items =>
          simp only [Eval.matchForm]
          split
          · exact matchItems hr mode patterns hv.items
          · exact .pure trivial
      | _ => exact .pure trivial
  | list patterns =>
      cases v with
      | list r =>
          simp only [Eval.matchForm]
          refine .bindHeap fun h' _ hw => ?_
          split
          · exact matchItems hr mode patterns (Heap.SoundAll.toList (hw.items r))
          · exact .pure trivial
      | _ => exact .pure trivial
  | map patterns =>
      cases v with
      | map r => exact matchEntries hr mode r patterns
      | _ => exact .pure trivial
  | pair left right =>
      simp only [Eval.matchForm]
      refine .bind (hr.classPattern? right) fun c h' hg _ => ?_
      cases c with
      | some c =>
          refine .bindHeap fun h'' hg' _ => ?_
          split
          · exact matchPattern hr mode left (hv.later (hg.trans hg'))
          · exact .pure trivial
      | none =>
          cases v with
          | tuple items =>
              -- only a tuple of two values is taken apart
              rcases items with _ | ⟨a, _ | ⟨b, _ | ⟨c, rest⟩⟩⟩
              · exact .pure trivial
              · exact .pure trivial
              · have hitems := (hv.later hg).items
                refine .bind (matchPattern hr mode left (hitems a (by simp))) fun fits _ hg' _ => ?_
                cases fits with
                | true => exact matchPattern hr mode right ((hitems b (by simp)).later hg')
                | false => exact .pure trivial
              · exact .pure trivial
          | _ => exact .pure trivial
  | _ =>
      -- every other form is evaluated and compared
      exact .bind (hr.expr h _) fun w _ _ _ => .read fun _ _ _ => trivial
termination_by sizeOf form
decreasing_by
  all_goals
    subst_vars
    simp only [Form.group.sizeOf_spec, Form.tuple.sizeOf_spec, Form.list.sizeOf_spec,
      Form.map.sizeOf_spec, Form.pair.sizeOf_spec]
    omega

theorem matchItems (hr : Runner.Upholds run run') (mode : BindMode) {h : Heap}
    (patterns : List Expr) {vs : List Value} (hvs : h.SoundAll vs) :
    Eval.Upholds h .any (Eval.matchItems run mode patterns vs)
      (Eval.matchItems run' mode patterns vs) := by
  cases patterns with
  | nil => exact .pure trivial
  | cons p ps =>
      cases vs with
      | nil => exact .pure trivial
      | cons v vs =>
          obtain ⟨hv, hvs⟩ := List.forall_mem_cons.mp hvs
          refine .bind (matchPattern hr mode p hv) fun fits _ hg _ => ?_
          cases fits with
          | true => exact matchItems hr mode ps (Heap.SoundAll.later hg hvs)
          | false => exact .pure trivial
termination_by sizeOf patterns
decreasing_by
  all_goals
    simp only [List.cons.sizeOf_spec]
    omega

theorem matchEntries (hr : Runner.Upholds run run') (mode : BindMode) {h : Heap} (r : MapRef)
    (patterns : List (Expr × Expr)) :
    Eval.Upholds h .any (Eval.matchEntries run mode r patterns)
      (Eval.matchEntries run' mode r patterns) := by
  cases patterns with
  | nil => exact .pure trivial
  | cons entry rest =>
      cases entry with
      | mk key pattern =>
          refine .bind (hr.expr h key) fun k _ _ _ => .bindHeap fun h' _ hw => ?_
          cases hv : (h'.entries r).find? k with
          | none => exact .pure trivial
          | some v =>
              refine .bind (matchPattern hr mode pattern ((hw.entries r).find? hv))
                fun fits _ _ _ => ?_
              cases fits with
              | true => exact matchEntries hr mode r rest
              | false => exact .pure trivial
termination_by sizeOf patterns
decreasing_by
  all_goals
    simp only [List.cons.sizeOf_spec, Prod.mk.sizeOf_spec]
    omega

end

/-! ### Collections and arguments -/

lemma evalEntries (hr : Runner.Upholds run run') (pairs : List (Expr × Expr)) {done : Entries}
    (hd : done.WellMade h) :
    Eval.Upholds h .entries (Eval.evalEntries run done pairs)
      (Eval.evalEntries run' done pairs) := by
  induction pairs generalizing h done with
  | nil => exact .pure hd
  | cons pair rest ih =>
      refine .bind (hr.expr h pair.1) fun k h₁ hg₁ hk => ?_
      refine .bind (hr.expr h₁ pair.2) fun v h₂ hg₂ hv => ih ?_
      exact (hd.later (hg₁.trans hg₂)).insert (hk.later hg₂) hv

lemma evalArguments (hr : Runner.Upholds run run') (es : List Expr) :
    Eval.Upholds h .all (Eval.evalArguments run es) (Eval.evalArguments run' es) := by
  induction es generalizing h with
  | nil => exact .pure .nil
  | cons e rest ih =>
      obtain ⟨site, form⟩ := e
      cases form with
      | spread inner =>
          refine .bind (hr.expr h inner) fun v _ _ hv =>
            .bind (.spreadItems hv) fun vs _ _ hvs => ?_
          exact .bind ih fun ws _ hg hws => .pure (.append (hvs.later hg) hws)
      | _ =>
          refine .bind (hr.expr h _) fun v _ _ hv => .bind ih fun vs _ hg hvs => ?_
          exact .pure (.cons (hv.later hg) hvs)

/-! ### Clauses and loops -/

lemma destructure (hr : Runner.Upholds run run') (pattern : Expr) {v : Value} (hv : h.Sound v) :
    Eval.Upholds h .any (Eval.destructure run pattern v) (Eval.destructure run' pattern v) := by
  have bindAll : ∀ h', h.Grows h' → Eval.Upholds h' .any
      (do let _ ← Eval.matchPattern run (if pattern.declares then .declare else .assign) pattern v
        : Eval Unit)
      (do let _ ← Eval.matchPattern run' (if pattern.declares then .declare else .assign) pattern v
        : Eval Unit) := fun h' hg =>
    .bind (hr.matchPattern _ pattern (hv.later hg)) fun _ _ _ _ => .pure trivial
  refine .bind (.inFrame (hr.matchPattern .fresh pattern hv) _ _ _) fun fits h' hg _ => ?_
  cases fits with
  | true => exact bindAll h' hg
  | false =>
      refine .bind (.display v) fun _ h'' hg' _ => ?_
      exact .bind (P := .any) (.fail _) fun _ h₃ hg'' _ => bindAll h₃ ((hg.trans hg').trans hg'')

lemma tryClause (hr : Runner.Upholds run run') (frame : String) {v : Value} (hv : h.Sound v)
    (clause : Expr × Expr) :
    Eval.Upholds h .all (Eval.tryClause run frame v clause)
      (Eval.tryClause run' frame v clause) := by
  refine .inFrame (.bind (hr.matchPattern .fresh clause.1 hv) fun fits h' _ _ => ?_) _ _ _
  cases fits with
  | true => exact .map (hr.expr h' clause.2) fun _ _ _ hw => Heap.SoundAll.some hw
  | false => exact .pure Heap.SoundAll.none

lemma runClauses (hr : Runner.Upholds run run') (frame : String) {v : Value} (hv : h.Sound v)
    (clauses : List (Expr × Expr)) :
    Eval.Upholds h .all (Eval.runClauses run frame v clauses)
      (Eval.runClauses run' frame v clauses) := by
  induction clauses generalizing h with
  | nil => exact .pure Heap.SoundAll.none
  | cons clause rest ih =>
      refine .bind (hr.tryClause frame hv clause) fun outcome _ hg ho => ?_
      cases outcome with
      | some w => exact .pure ho
      | none => exact ih (hv.later hg)

lemma loopItems (hr : Runner.Upholds run run') (site : Site) (pattern body : Expr)
    {items : List Value} (hi : h.SoundAll items) {last : Value} (hl : h.Sound last) :
    Eval.Upholds h .sound (Eval.loopItems run site pattern body last items)
      (Eval.loopItems run' site pattern body last items) := by
  induction items generalizing h last with
  | nil => exact .pure hl
  | cons item rest ih =>
      obtain ⟨hitem, hrest⟩ := List.forall_mem_cons.mp hi
      refine .bind (P := .sound) (.inFrame ?_ _ _ _) fun v _ hg hv =>
        ih (Heap.SoundAll.later hg hrest) hv
      refine .bind (hr.matchPattern .fresh pattern hitem) fun fits h' _ _ => ?_
      cases fits with
      | true => exact hr.expr h' body
      | false => exact .bind (.display item) fun _ _ _ _ => .fail _

lemma loopWhile (hr : Runner.Upholds run run') (condition body : Expr) (rounds : Nat)
    {last : Value} (hl : h.Sound last) :
    Eval.Upholds h .sound (Eval.loopWhile run condition body rounds last)
      (Eval.loopWhile run' condition body rounds last) := by
  induction rounds generalizing h last with
  | zero => exact .throw fun _ => trivial
  | succ rounds ih =>
      refine .bind (hr.expr h condition) fun c h' hg _ => ?_
      split
      · exact .bind (hr.expr h' body) fun v _ _ hv => ih hv
      · exact .pure (hl.later hg)

lemma handle (hr : Runner.Upholds run run') (clauses : List (Expr × Expr)) {signal : Signal}
    (hs : signal.Sound h) :
    Eval.Upholds h .sound (Eval.handle run clauses signal) (Eval.handle run' clauses signal) := by
  refine .bind (hr.materialize hs) fun e h' _ he => ?_
  obtain ⟨exception, trace⟩ := e
  refine .bind (.handling (hr.runClauses "<catch>" he clauses) trace) fun outcome _ hg ho => ?_
  cases outcome with
  | some w => exact .pure (ho w rfl)
  | none => exact .throw fun hg' => Heap.Sound.later (hg.trans hg') he

lemma attempt (hr : Runner.Upholds run run') (body : Expr) (clauses : List (Expr × Expr)) :
    Eval.Upholds h .sound (Eval.attempt run body clauses) (Eval.attempt run' body clauses) :=
  .recover (hr.expr h body) fun _ _ _ hs => hr.handle clauses hs

/-! ### Classes and modules -/

/-- A class of a program has no native functions, and no field twice. -/
lemma wellMade_foldl_addMember (members : List Member) {c : Class} {r : ClassRef}
    (hc : c.WellMade h r) (huser : ∀ b ∈ c.methods, b.2.native? = none) :
    (members.foldl addMember c).WellMade h r ∧
      (members.foldl addMember c).superclass = c.superclass := by
  induction members generalizing c with
  | nil => exact ⟨hc, rfl⟩
  | cons m rest ih =>
      have plain : ∀ methods : Bindings Method, (∀ b ∈ methods, b.2.native? = none) →
          ∀ fields : Bindings Field, fields.names.Nodup →
          Class.WellMade h r { c with methods := methods, fields := fields } := by
        refine fun methods hmethods fields hfields =>
          ⟨hc.older, hfields, fun b hb n hn => ?_, hc.init⟩
        rw [hmethods b hb] at hn
        cases hn
      cases m with
      | method name params body =>
          have hput : ∀ b ∈ c.methods.put name (.user ⟨name, params, body⟩), b.2.native? = none :=
            Bindings.forall_put (P := fun m : Method => m.native? = none) huser rfl
          exact ih (plain _ hput _ hc.fields) hput
      | field name => exact ih (plain _ huser _ (Bindings.nodup_put hc.fields _ _)) huser
      | fieldWith name default =>
          exact ih (plain _ huser _ (Bindings.nodup_put hc.fields _ _)) huser

lemma declareClass (name : String) (superclass : Option String) (members : List Member) :
    Eval.Upholds h .sound (Eval.declareClass name superclass members)
      (Eval.declareClass name superclass members) := by
  refine .bind (.superclassNamed name superclass) fun parent h' _ hparent => ?_
  have hblank : ∀ r : ClassRef, (∀ p ∈ parent, p.index < r.index) →
      Class.WellMade h' r ⟨name, [], [], parent, false, none⟩ :=
    fun r holder => ⟨holder, List.nodup_nil, List.forall_mem_nil _, fun n hn => by cases hn⟩
  have hsuper : (members.foldl addMember ⟨name, [], [], parent, false, none⟩).superclass = parent :=
    (wellMade_foldl_addMember (r := ⟨parent.elim 0 (·.index + 1)⟩) members
      (hblank _ fun p hp => by cases hp; exact Nat.lt_succ_self _) (List.forall_mem_nil _)).2
  refine .bind (.newClass ?_ fun r holder => ?_) fun c _ _ hc => ?_
  · rw [hsuper]
    exact hparent
  · rw [hsuper] at holder
    exact (wellMade_foldl_addMember members (hblank r holder) (List.forall_mem_nil _)).1
  · exact .bind (.assign name hc false) fun _ _ hg _ => .pure (hc.later hg)

lemma importModule (hr : Runner.Upholds run run') (segments : List String) :
    Eval.Upholds h .sound (Eval.importModule run segments) (Eval.importModule run' segments) := by
  have note : ∀ (h' : Heap) path, Eval.Upholds h' .any
      (modify fun s : Session => { s with imported := path :: s.imported })
      (modify fun s : Session => { s with imported := path :: s.imported }) :=
    fun _ path _ _ hs => ⟨rfl, .ok (.refl _) ⟨hs.heap, hs.env⟩ trivial⟩
  refine .bindGet fun s _ _ => ?_
  split
  · exact .pure .null
  · refine .bind (.loadModule _) fun text _ _ _ => .bind (note _ _) fun _ _ _ _ => ?_
    exact .bind (.inFile (hr.inPlace _ text) _) fun _ _ _ _ => .pure .null

/-! ### Forms and tasks -/

theorem evalForm (hr : Runner.Upholds run run') (rounds : Nat) (site : Site) (form : Form) :
    Eval.Upholds h .sound (Eval.evalForm rounds run site form)
      (Eval.evalForm rounds run' site form) := by
  cases form with
  | constant c => exact .pure (Eval.Upholds.sound_constant c)
  | name name => exact .bindGet fun s _ hs => .orFail fun _ => hs.env.get
  | group inner => exact hr.expr h inner
  | tuple items => exact .bind (hr.evalAll items) fun vs _ _ hvs => .pure (.tuple hvs)
  | list items => exact .bind (hr.evalAll items) fun vs _ _ hvs => .newList hvs.toArray
  | map entries => exact .bind (hr.evalEntries entries .nil) fun m _ _ hm => .newMap hm
  | pair left right =>
      refine .bind (hr.expr h left) fun v h' _ hv => .bind (hr.expr h' right) fun w _ hg hw => ?_
      exact .pure (.tuple (Heap.SoundAll.pair (hv.later hg) hw))
  | unary op operand => exact .bind (hr.expr h operand) fun v _ _ _ => .unary op v
  | binary op left right =>
      refine .bind (hr.expr h left) fun v h' _ _ => .bind (hr.expr h' right) fun w _ _ _ => ?_
      exact .bind (.mark _) fun _ _ _ _ => .binary op v w
  | logical op left right =>
      refine .bind (hr.expr h left) fun v h' _ hv => ?_
      cases op <;> cases v.isTruthy <;> first | exact .pure hv | exact hr.expr h' right
  | assign name value declare =>
      refine .bind (hr.expr h value) fun v _ _ hv =>
        .bind (.assign name hv declare) fun _ _ hg _ => ?_
      exact .pure (hv.later hg)
  | destructure pattern value =>
      refine .bind (hr.expr h value) fun v _ _ hv =>
        .bind (hr.destructure pattern hv) fun _ _ hg _ => ?_
      exact .pure (hv.later hg)
  | index target index =>
      refine .bind (hr.expr h target) fun v h' _ hv => .bind (hr.expr h' index) fun i _ hg _ => ?_
      exact .bind (.mark _) fun _ _ hg' _ => .getIndex (hv.later (hg.trans hg')) i
  | setIndex target index value =>
      refine .bind (hr.expr h target) fun v h₁ _ _ => .bind (hr.expr h₁ index) fun i h₂ _ hi => ?_
      refine .bind (hr.expr h₂ value) fun w _ hg hw => .bind (.mark _) fun _ _ hg' _ => ?_
      refine .bind (.setIndex v (hi.later (hg.trans hg')) (hw.later hg')) fun _ _ hg'' _ => ?_
      exact .pure (hw.later (hg'.trans hg''))
  | member object name safe =>
      refine .bind (hr.expr h object) fun v _ _ hv => ?_
      split
      · exact .pure .null
      · exact .bind (.mark _) fun _ _ hg _ => .getMember (hv.later hg) name
  | setMember object name value =>
      refine .bind (hr.expr h object) fun v h' _ hv => .bind (hr.expr h' value) fun w _ hg hw => ?_
      refine .bind (.mark _) fun _ _ hg' _ => ?_
      refine .bind (.setMember (hv.later (hg.trans hg')) name (hw.later hg')) fun _ _ hg'' _ => ?_
      exact .pure (hw.later (hg'.trans hg''))
  | call callee arguments =>
      refine .bind (hr.expr h callee) fun f _ _ hf => .bind (hr.evalArguments arguments)
        fun vs _ hg hvs => .bind (.mark _) fun _ _ hg' _ => ?_
      exact hr.call (hf.later (hg.trans hg')) (hvs.later hg')
  | spread inner => exact .fail _
  | function name params body declare =>
      refine .bind (.newFunction fun p hp => by cases hp) fun f _ _ hf => ?_
      exact .bind (.assign name hf declare) fun _ _ hg _ => .pure (hf.later hg)
  | lambda params body => exact .newFunction fun p hp => by cases hp
  | block body => exact .inFrame (hr.sequenceFrom body .null) _ _ _
  | branch condition yes =>
      refine .bind (hr.expr h condition) fun c h' _ _ => ?_
      split
      · exact hr.expr h' yes
      · exact .pure .null
  | branchElse condition yes no =>
      refine .bind (hr.expr h condition) fun c h' _ _ => ?_
      split
      · exact hr.expr h' yes
      · exact hr.expr h' no
  | whileLoop condition body => exact hr.loopWhile condition body rounds .null
  | forLoop pattern iterable body =>
      refine .bind (hr.expr h iterable) fun v _ _ hv => ?_
      refine .bind (.iterationItems hv) fun items _ _ hitems => ?_
      exact hr.loopItems site pattern body hitems .null
  | matching scrutinee clauses =>
      refine .bind (hr.expr h scrutinee) fun v _ _ hv => ?_
      refine .bind (hr.runClauses "<match>" hv clauses) fun w _ _ hw => ?_
      cases w with
      | some w => exact .pure (hw w rfl)
      | none => exact .bind (.display v) fun _ _ _ _ => .fail _
  | attempt body clauses => exact hr.attempt body clauses
  | raise value =>
      exact .bind (hr.expr h value) fun v _ _ hv => .throw fun hg => Heap.Sound.later hg hv
  | leave => exact .throw fun _ => Heap.Sound.null
  | leaveWith value =>
      exact .bind (hr.expr h value) fun v _ _ hv => .throw fun hg => Heap.Sound.later hg hv
  | classDef name superclass members => exact declareClass name superclass members
  | importing path => exact hr.importModule path

/-- One more level on top of runners that uphold the session. -/
lemma step (hr : Runner.Upholds run run') (rounds : Nat) :
    Runner.Upholds (Eval.step rounds run) (Eval.step rounds run') where
  expr _ _ := .bind (.mark _) fun _ _ _ _ => hr.evalForm rounds _ _
  call hf hvs := hr.callValue hf hvs

lemma descend {run run' : Nat → Runner} (hr : ∀ calls, Runner.Upholds (run calls) (run' calls))
    (rounds calls : Nat) :
    Runner.Upholds (Eval.descend rounds run calls) (Eval.descend rounds run' calls) where
  expr h e := ((hr calls).step rounds).expr h e
  call {h f vs} hf hvs := by
    unfold Eval.descend
    split
    · cases calls with
      | zero => exact .throw fun _ => trivial
      | succ calls => exact ((hr calls).step rounds).call hf hvs
    · exact ((hr calls).step rounds).call hf hvs

end Runner.Upholds

/-- The evaluator upholds the session, and it makes no difference to halt it where a session is not
sound. -/
theorem Eval.upholds_performUntil {halts : Moment → Option Shortage}
    (hhalts : ∀ task s, s.Sound → halts ⟨task, s⟩ = none) (rounds calls levels : Nat) :
    Runner.Upholds (perform rounds calls levels) (performUntil halts rounds calls levels) := by
  -- a level hands its parts to the level below, which is asked in sound sessions only
  induction levels generalizing calls with
  | zero => exact ⟨fun _ _ => .throw fun _ => trivial, fun _ _ => .throw fun _ => trivial⟩
  | succ levels ih =>
      have hdescend := Runner.Upholds.descend ih rounds calls
      have same : ∀ task {h : Heap}, Eval.Upholds h .sound
          (Eval.descend rounds (fun calls => perform rounds calls levels) calls task)
          (Eval.descend rounds (fun calls => performUntil halts rounds calls levels) calls task) →
          Eval.Upholds h .sound (perform rounds calls (levels + 1) task)
            (performUntil halts rounds calls (levels + 1) task) := by
        intro task h hx s hg hs
        rw [perform_eq_descend, performUntil_onward (hhalts task s hs)]
        exact hx hg hs
      exact ⟨fun h e => same _ (hdescend.expr h e), fun hf hvs => same _ (hdescend.call hf hvs)⟩

/-- The evaluator upholds the session. -/
theorem Eval.upholds_perform (rounds calls levels : Nat) :
    Runner.Upholds (perform rounds calls levels) (perform rounds calls levels) := by
  have h : Runner.Upholds (perform rounds calls levels)
      (performUntil (fun _ => none) rounds calls levels) :=
    upholds_performUntil (fun _ _ _ => rfl) rounds calls levels
  rwa [performUntil_none] at h

end Tern
