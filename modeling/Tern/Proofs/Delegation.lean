/-
Delegation mirrors inheritance in every session that a host can come across: after any requests, and
at any moment of a further one, also while objects are being built.

* `Session.Reachable`: the sessions that are meant.
* `Hosted.sound`: between requests they are sound, and so are the values that the host has got.
* `Request.sound_of_comes`: at every moment of a request they are.
* `Session.delegation_mirrors_inheritance`: what follows for objects, classes and typed patterns.
-/
import Tern.Proofs.Hosting
import Tern.Proofs.Reporting
import Tern.Proofs.Upkeep

namespace Tern

/-! ### The session at the start -/

namespace Library

lemma sound_globals : ∀ b ∈ globals, Library.heap.Sound b.2 := by
  have hclasses : ∀ c ∈ BuiltinClass.all, (Library.heap.class? c.ref).isSome = true := by
    decide +kernel
  have hnatives : ∀ p ∈ functions.zipIdx,
      ∃ f ∈ Library.heap.native? ⟨classHeap.natives.size + p.2⟩, f.writes = false := by
    decide +kernel
  intro b hb
  obtain hb | hb := List.mem_append.mp hb
  · obtain ⟨c, hc, rfl⟩ := List.mem_map.mp hb
    exact .classOf (hclasses c hc)
  · obtain ⟨p, hp, rfl⟩ := List.mem_map.mp hb
    obtain ⟨f, hf, hwrites⟩ := hnatives p hp
    exact .native hf hwrites

lemma hold_install {e : Environment} (he : e.Hold Library.heap.Sound) :
    (install e).Hold Library.heap.Sound := by
  have hfold : ∀ (bs : List (String × Value)) (e : Environment),
      (∀ b ∈ bs, Library.heap.Sound b.2) → e.Hold Library.heap.Sound →
      (bs.foldl (fun e b => e.defineGlobal b.1 b.2) e).Hold Library.heap.Sound := by
    intro bs
    induction bs with
    | nil => exact fun _ _ he => he
    | cons b rest ih =>
        intro e hbs he
        obtain ⟨hb, hrest⟩ := List.forall_mem_cons.mp hbs
        exact ih _ hrest (he.defineGlobal hb b.1)
  exact hfold globals e sound_globals he

end Library

/-- A new session is sound. -/
lemma Session.sound_initial : Session.initial.Sound := by
  have hempty : Environment.initial.Hold Library.heap.Sound :=
    List.forall_mem_singleton.mpr (List.forall_mem_nil _)
  have henv := Library.hold_install hempty
  exact ⟨Library.wellMade_heap, henv⟩

/-! ### Calls of the host -/

namespace Heap

variable {h : Heap} {v : Value}

/-- What a sound value is made of is sound. -/
lemma WellMade.parts (hw : h.WellMade) (hv : h.Sound v) : h.SoundAll (h.parts v) := by
  cases hv with
  | tuple hitems => exact hitems
  | list r => exact SoundAll.toList (hw.items r)
  | map r => exact .append (hw.entries r).keys (hw.entries r).values
  | object r =>
      simp only [Heap.parts]
      cases ho : h.object? r with
      | none => exact .nil
      | some o =>
          obtain ⟨c, hc, -⟩ := (hw.objects ho).shape
          refine .append (.cons (.classOf (by rw [hc]; rfl)) fun w hmem => ?_) fun w hmem => ?_
          · obtain ⟨p, -, rfl⟩ := Option.map_eq_some_iff.mp (Option.mem_toList.mp hmem)
            exact .object p
          · obtain ⟨b, hb, rfl⟩ := List.mem_map.mp hmem
            exact (hw.objects ho).slots b hb
  | @classOf r hr =>
      intro w hmem
      obtain ⟨p, hp, rfl⟩ := Option.map_eq_some_iff.mp (Option.mem_toList.mp hmem)
      obtain ⟨c, hc, hp⟩ := Option.bind_eq_some_iff.mp hp
      exact .classOf (hw.superclass hc hp)
  | bound hf hreceiver hwrites => exact .single hreceiver
  | _ => exact .nil

end Heap

/-- A change of the heap that comes with a name in the global frame. -/
lemma Eval.Upholds.defineGlobal {h : Heap} (name : String) (add : Heap → Value × Heap)
    (hadd : ∀ {h'}, h.Grows h' → h'.WellMade →
      h'.Grows (add h').2 ∧ (add h').2.WellMade ∧ (add h').2.Sound (add h').1) :
    Eval.Upholds h .any
      (modify fun s : Session =>
        { s with heap := (add s.heap).2, env := s.env.defineGlobal name (add s.heap).1 })
      (modify fun s : Session =>
        { s with heap := (add s.heap).2, env := s.env.defineGlobal name (add s.heap).1 }) := by
  intro s hg hs
  obtain ⟨hgrown, hw, hv⟩ := hadd hg hs.heap
  exact ⟨rfl, .ok hgrown ⟨hw, (hs.env.mono (.later hgrown)).defineGlobal hv name⟩ trivial⟩

namespace Runner.Upholds

variable {run run' : Runner} {h : Heap}

/-- A call that gives the host one value. -/
lemma single {x y : Eval Value} (hx : Eval.Upholds h .sound x y) :
    Eval.Upholds h .all (([·]) <$> x) (([·]) <$> y) :=
  .map hx fun _ _ _ hv => .single hv

/-- A call that gives the host nothing. -/
lemma silent {α : Type} {P : Assertion α} {x y : Eval α} (hx : Eval.Upholds h P x y) :
    Eval.Upholds h .all ((fun _ => ([] : List Value)) <$> x) ((fun _ => []) <$> y) :=
  .map hx fun _ _ _ _ => .nil

/-- Operations of the host do not construct exceptions. -/
lemma harmless_init (c : HostClass) : Heap.Harmless c.blueprint.init := by
  intro o ho
  obtain ⟨f, -, rfl⟩ := List.mem_map.mp ho
  simp

lemma harmless_natives (c : HostClass) : ∀ n ∈ c.blueprint.natives, n.2.2 ≠ .initException := by
  intro n hn
  obtain ⟨f, -, rfl⟩ := List.mem_map.mp hn
  simp

lemma wellMade_foldl_insert (pairs : List (Value × Value)) {m : Entries} (hm : m.WellMade h)
    (hpairs : ∀ pair ∈ pairs, h.Sound pair.1 ∧ h.Sound pair.2) :
    (pairs.foldl (fun m pair => m.insert pair.1 pair.2) m).WellMade h := by
  induction pairs generalizing m with
  | nil => exact hm
  | cons pair rest ih =>
      obtain ⟨hpair, hrest⟩ := List.forall_mem_cons.mp hpairs
      exact ih (hm.insert hpair.1 hpair.2) hrest

/-- What a host calls with sound values upholds the session. -/
theorem carryOut (hr : Runner.Upholds run run') {call : HostCall} (hv : h.SoundAll call.values) :
    Eval.Upholds h .all (call.carryOut run) (call.carryOut run') := by
  cases call with
  | evaluate e => exact single (hr.expr h e)
  | call callee arguments =>
      obtain ⟨hcallee, harguments⟩ := List.forall_mem_cons.mp hv
      exact single (hr.call hcallee harguments)
  | instantiate ref arguments => exact single (hr.instantiate ref (List.forall_mem_cons.mp hv).2)
  | getMember receiver name => exact single (.getMember (hv _ List.mem_cons_self) name)
  | setMember receiver name value =>
      exact silent (.setMember (hv _ List.mem_cons_self) name (hv _ (by simp [HostCall.values])))
  | matchPattern mode pattern value =>
      exact silent (hr.matchPattern mode pattern (hv _ List.mem_cons_self))
  | inPlace source text => exact single (hr.inPlace source text)
  | lookup name =>
      refine .bindGet fun s _ hs => .pure fun v hmem => ?_
      exact hs.env.find? (Option.mem_toList.mp hmem)
  | define name value =>
      refine silent (.modifyEnv fun hg he => ?_)
      exact he.defineGlobal ((hv _ List.mem_cons_self).later hg) name
  | defineNative name overloads =>
      have hharmless : Heap.Harmless (overloads.map fun f => (f.1, Primitive.host f.2)) := by
        intro o ho
        obtain ⟨f, -, rfl⟩ := List.mem_map.mp ho
        simp
      let f : Native := ⟨name, overloads.map fun f => (f.1, .host f.2)⟩
      refine silent (.defineGlobal name (fun h => (.native (h.addNative f).1, (h.addNative f).2))
        fun {h'} _ hw => ⟨h'.grows_addNative f, hw.addNative f, .native (f := f) ?_ ?_⟩)
      · simp [Heap.native?, Heap.addNative]
      · exact hharmless.writes name
  | defineClass c =>
      refine silent (.defineGlobal c.name
        (fun h => (.classOf (h.build c.blueprint).1, (h.build c.blueprint).2)) fun {h'} hg hw => ?_)
      have hsuper : ∀ p ∈ c.superclass, (h'.class? p).isSome = true := by
        intro p hp
        have hp : h.Sound (.classOf p) :=
          hv _ (Option.mem_toList.mpr (Option.map_eq_some_iff.mpr ⟨p, hp, rfl⟩))
        cases hp.later hg with
        | classOf hclass => exact hclass
      obtain ⟨hgrown, hmade, hclass⟩ := hw.build (harmless_init c) (harmless_natives c) hsuper
      exact ⟨hgrown, hmade, .classOf hclass⟩
  | newList items => exact single (.newList hv.toArray)
  | newMap pairs =>
      obtain ⟨hkeys, hvalues⟩ := List.forall_mem_append.mp hv
      refine single (.newMap (wellMade_foldl_insert pairs .nil fun pair hpair => ⟨?_, ?_⟩))
      · exact hkeys _ (List.mem_map.mpr ⟨pair, hpair, rfl⟩)
      · exact hvalues _ (List.mem_map.mpr ⟨pair, hpair, rfl⟩)
  | inspect value =>
      have hvalue := hv value List.mem_cons_self
      exact .read fun h' hg hw => .cons (.classOf (hw.classOf value)) (hw.parts (hvalue.later hg))
  | limitDepth depth =>
      exact silent (P := .any) fun s _ hs => ⟨rfl, .ok (.refl _) ⟨hs.heap, hs.env⟩ trivial⟩

end Runner.Upholds

/-! ### Units -/

namespace Session

variable {s : Session}

/-- What a request leaves: a later session that is sound, and sound values. -/
def Yields (s : Session) (a : List Value × Session) : Prop :=
  s.heap.Grows a.2.heap ∧ a.2.Sound ∧ a.2.heap.SoundAll a.1

namespace Sound

lemma describe (hs : s.Sound) {v : Value} (hv : s.heap.Sound v) :
    s.Yields ([], (s.describe v).2) := by
  have same : s.Yields ([], s) := ⟨.refl _, hs, .nil⟩
  cases v with
  | object r =>
      obtain ⟨-, hr⟩ := Eval.Upholds.getMember hv "message" (.refl _) hs
      simp only [Session.describe]
      cases hget : Eval.getMember (.object r) "message" s with
      | ok message s' =>
          rw [hget] at hr
          cases hr with
          | ok hg hs' _ => cases message <;> exact ⟨hg, hs', .nil⟩
      | error signal s' =>
          rw [hget] at hr
          cases hr with
          | error hg hs' _ => exact ⟨hg, hs', .nil⟩
  | _ => exact same

lemma report (hs : s.Sound) {signal : Signal} (hsignal : signal.Sound s.heap) :
    s.Yields ([], (s.report signal).2) := by
  obtain ⟨-, hr⟩ :=
    (Eval.upholds_perform Eval.fuel Eval.fuel Eval.fuel).materialize hsignal (.refl _) hs
  rw [← Eval.run] at hr
  simp only [Session.report]
  generalize Eval.materialize Eval.run signal s = r at hr
  cases hr with
  | @error signal' s' hg hs' _ => cases signal' <;> exact ⟨hg, hs', .nil⟩
  | @ok e s' hg hs' ha =>
      obtain ⟨exception, trace⟩ := e
      have hs'' : Session.Sound { s' with env := s'.env.pushSnapshot trace } :=
        ⟨hs'.heap, hs'.env.pushSnapshot trace⟩
      obtain ⟨hg', hs'', -⟩ := hs''.describe ha
      exact ⟨hg.trans hg', ⟨hs''.heap, hs''.env.popSnapshot⟩, .nil⟩

lemma evalSource (hs : s.Sound) (name text : String) :
    s.Yields (unitAnswer (s.evalSource name text)) := by
  cases hparse : parse name text with
  | error e =>
      simp only [Session.evalSource, hparse]
      exact ⟨.refl _, hs, .nil⟩
  | ok body =>
      obtain ⟨-, hr⟩ := (Eval.upholds_perform Eval.fuel Eval.fuel Eval.fuel).program body
        (s := { s with env := s.env.setFile name }) (.refl _) ⟨hs.heap, hs.env.setFile name⟩
      rw [← Eval.run] at hr
      simp only [Session.evalSource, hparse]
      generalize Eval.program Eval.run body { s with env := s.env.setFile name } = r at hr
      cases hr with
      | ok hg hs' ha =>
          exact ⟨hg, ⟨hs'.heap, (hs'.env.truncate _).setFile _⟩, .single ha⟩
      | error hg hs' hsignal =>
          obtain ⟨hg', hs'', -⟩ := hs'.report hsignal
          exact ⟨hg.trans hg', ⟨hs''.heap, (hs''.env.truncate _).setFile _⟩, .nil⟩

lemma runFile (hs : s.Sound) (path : String) : s.Yields (unitAnswer (s.runFile path)) := by
  cases hread : s.files.read path with
  | error e =>
      rw [runFile_of_error hread]
      exact ⟨.refl _, ⟨hs.heap, hs.env⟩, .nil⟩
  | ok text =>
      rw [runFile_of_read hread]
      exact evalSource (s := s.forScript path) ⟨hs.heap, hs.env⟩ path text

/-- A request with sound values leaves a sound session and gives sound values. -/
theorem answer (hs : s.Sound) {r : Request} (hv : s.heap.SoundAll r.values) :
    s.Yields (r.answer s) := by
  cases r with
  | source name text => exact hs.evalSource name text
  | script path => exact hs.runFile path
  | host call =>
      have hcall : s.heap.SoundAll call.values := hv
      obtain ⟨-, hr⟩ :=
        (Eval.upholds_perform Eval.fuel Eval.fuel Eval.fuel).carryOut hcall (.refl _) hs
      rw [← Eval.run] at hr
      simp only [Request.answer]
      generalize call.carryOut Eval.run s = r at hr
      cases hr with
      | ok hg hs' ha => exact ⟨hg, hs', ha⟩
      | @error signal s' hg hs' hsignal =>
          cases signal with
          | thrown v trace => exact ⟨hg, hs', .single hsignal⟩
          | leave v => exact ⟨hg, hs', .single hsignal⟩
          | _ => exact ⟨hg, hs', .nil⟩

end Sound

end Session

/-! ### Sessions of hosts -/

lemma Known.sound {h : Heap} {got : List Value} (hgot : h.SoundAll got) {v : Value}
    (hv : Known got v) : h.Sound v := by
  induction hv with
  | got hmem => exact hgot _ hmem
  | null => exact .null
  | bool b => exact .bool b
  | number x => exact .number x
  | text t => exact .text t
  | tuple _ ih => exact .tuple ih

/-- Between requests, a session and the values that the host has got are sound. -/
theorem Hosted.sound {got : List Value} {s : Session} (h : Hosted got s) :
    s.Sound ∧ s.heap.SoundAll got := by
  induction h with
  | start root files host =>
      exact ⟨⟨Session.sound_initial.heap, Session.sound_initial.env⟩, .nil⟩
  | serve r _ hvalues ih =>
      obtain ⟨hg, hs, hanswer⟩ := ih.1.answer fun v hv => (hvalues v hv).sound ih.2
      exact ⟨hs, .append hanswer (ih.2.later hg)⟩

namespace Request

variable {r : Request} {s : Session}

/-- What is evaluated for a request starts in a sound session and upholds it. -/
lemma upholds_evaluation {run run' : Runner} (hr : Runner.Upholds run run') (hs : s.Sound)
    (hv : s.heap.SoundAll r.values) :
    (r.evaluation s).2.Sound ∧ Eval.Upholds (r.evaluation s).2.heap .any
      ((r.evaluation s).1 run) ((r.evaluation s).1 run') := by
  have hunit : ∀ (u : Session) name text, u.Sound → (u.unitEvaluation name text).2.Sound ∧
      Eval.Upholds (u.unitEvaluation name text).2.heap .any
        ((u.unitEvaluation name text).1 run) ((u.unitEvaluation name text).1 run') := by
    intro u name text hu
    unfold Session.unitEvaluation
    cases parse name text with
    | error e => exact ⟨hu, .pure trivial⟩
    | ok body =>
        refine ⟨⟨hu.heap, hu.env.setFile name⟩, .recover ?_ fun signal _ _ hsignal => ?_⟩
        · exact .map (hr.program body) fun _ _ _ _ => trivial
        · exact .map (hr.materialize hsignal) fun _ _ _ _ => trivial
  cases r with
  | source name text => exact hunit s name text hs
  | script path =>
      simp only [evaluation]
      cases s.files.read path with
      | error e => exact ⟨hs, .pure trivial⟩
      | ok text => exact hunit (s.forScript path) path text ⟨hs.heap, hs.env⟩
  | host call => exact ⟨hs, .map (hr.carryOut hv) fun _ _ _ _ => trivial⟩

/-- At every moment of a request the session is sound. -/
theorem sound_of_comes (hs : s.Sound) (hv : s.heap.SoundAll r.values) {m : Moment}
    (hm : r.Comes s m) : m.session.Sound := by
  by_contra hunsound
  obtain ⟨lacking, hne⟩ := hm
  -- Halting at the moment makes no difference, so it does not come.
  have hhalts : ∀ task s, s.Sound → Eval.haltAt m lacking ⟨task, s⟩ = none := by
    intro task s hsound
    refine if_neg fun heq => hunsound ?_
    rwa [← heq]
  obtain ⟨hstart, hupholds⟩ := upholds_evaluation
    (Eval.upholds_performUntil hhalts Eval.fuel Eval.fuel Eval.fuel) hs hv
  exact hne (hupholds (.refl _) hstart).1

end Request

namespace Session

/-- The sessions that a host can come across: between requests, and at the moments of a request. -/
inductive Reachable : Session → Prop where
  | between {got : List Value} {s : Session} : Hosted got s → Reachable s
  | during {got : List Value} {s : Session} {r : Request} {m : Moment} : Hosted got s →
      (∀ v ∈ r.values, Known got v) → r.Comes s m → Reachable m.session

variable {s : Session}

lemma Reachable.sound (hs : s.Reachable) : s.Sound := by
  cases hs with
  | between h => exact h.sound.1
  | during h hvalues hm =>
      exact Request.sound_of_comes h.sound.1 (fun v hv => (hvalues v hv).sound h.sound.2) hm

/-- A typed pattern asks whether the class is that of an object on the chain. -/
lemma Sound.matchPattern_pair (hs : s.Sound) {rounds calls levels : Nat} {r : ObjectRef}
    {o : Instance} (ho : s.heap.object? r = some o) {right : Expr} {ref : ClassRef} {s' : Session}
    (hclass : Eval.classPattern? (Eval.perform rounds calls levels) right s = .ok (some ref) s')
    (mode : Eval.BindMode) (site : Site) (left : Expr) :
    Eval.matchPattern (Eval.perform rounds calls levels) mode (.node site (.pair left right))
        (.object r) s =
      if ∃ r' ∈ s'.heap.delegates r, s'.heap.classOfObject? r' = some ref then
        Eval.matchPattern (Eval.perform rounds calls levels) mode left (.object r) s'
      else .ok false s' := by
  obtain ⟨-, hr⟩ := (Eval.upholds_perform rounds calls levels).classPattern? right (.refl _) hs
  rw [hclass] at hr
  cases hr with
  | ok hg hs' _ =>
      obtain ⟨o', ho', -⟩ := hg.object? ho
      have hiff := hs'.heap.isInstance_iff ho' ref
      simp only [Eval.matchPattern, Eval.matchForm, Eval.bind_apply, hclass, Eval.heap_apply]
      by_cases hmem : ∃ r' ∈ s'.heap.delegates r, s'.heap.classOfObject? r' = some ref
      · rw [if_pos hmem, if_pos (hiff.mpr hmem)]
      · rw [if_neg hmem, if_neg (fun h => hmem (hiff.mp h))]
        rfl

/-- **Delegation mirrors inheritance.** In every session that a host can come across: chains of
superclasses come to an end; an object has a super-object exactly if its class has a superclass,
and the super-object is of that class, so that the two chains agree level by level; the slots of an
object are declared by its own class. So an object is an instance of a class exactly if that is the
class of an object on its chain, and this is what a typed pattern asks for. -/
theorem delegation_mirrors_inheritance (hs : s.Reachable) :
    s.heap.Mirrored ∧
      ∀ (rounds calls levels : Nat) (r : ObjectRef) (o : Instance) (right : Expr) (ref : ClassRef)
        (s' : Session), s.heap.object? r = some o →
        Eval.classPattern? (Eval.perform rounds calls levels) right s = .ok (some ref) s' →
        ∀ (mode : Eval.BindMode) (site : Site) (left : Expr),
          Eval.matchPattern (Eval.perform rounds calls levels) mode (.node site (.pair left right))
              (.object r) s =
            if ∃ r' ∈ s'.heap.delegates r, s'.heap.classOfObject? r' = some ref then
              Eval.matchPattern (Eval.perform rounds calls levels) mode left (.object r) s'
            else .ok false s' :=
  ⟨hs.sound.heap.mirrored, fun _ _ _ _ _ _ _ _ ho hclass => hs.sound.matchPattern_pair ho hclass⟩

/-- The session after the unit `missing`. -/
lemma exists_reachable_missing : ∃ s : Session, s.Reachable ∧
    s.heap = (Library.heap.addException .undefinedReference
      (.text (Fault.undefinedVariable "missing").message)).2 ∧
    s.env.find? "Exception" = some (.classOf BuiltinClass.exception.ref) := by
  have hstart : Hosted [] initial := .start none .none .idle
  have hhosted := hstart.serve (.source "<test>" "missing") (List.forall_mem_nil _)
  refine ⟨_, .between hhosted, ?_⟩
  let started : Session := { initial with env := initial.env.setFile "<test>" }
  have hget : started.env.get "missing" = .error (.undefinedVariable "missing") := rfl
  have hprogram := @program_of_get_eq_error started
    ⟨⟨.identifier, "missing", none, 1, "<test>"⟩, []⟩ _ _ hget
  have hlibrary : (started.atLine 1).HasLibrary := ready_initial.library
  have hreport := report_fault (.undefinedVariable "missing") [] hlibrary (by decide)
  simp only [started] at hprogram hreport
  rw [serve_source, after, evalSource, parse_missing]
  simp only [hprogram, hreport]
  exact ⟨rfl, rfl⟩

/-- The exception of the unit `missing` delegates to an object of the class of all exceptions. -/
theorem delegation_mirrors_inheritance_missing : ∃ (s : Session) (r : ObjectRef), s.Reachable ∧
    s.heap.classOfObject? r = some (BuiltinClass.error .undefinedReference).ref ∧
    s.heap.isInstance (.object r) BuiltinClass.exception.ref = true ∧
    ∀ (rounds calls levels : Nat) (mode : Eval.BindMode) (site left right : Site),
      Eval.matchPattern (Eval.perform rounds calls levels) mode
        (.node site (.pair (.node left (.name "_")) (.node right (.name "Exception"))))
        (.object r) s = .ok true s := by
  obtain ⟨s, hs, hheap, hname⟩ := exists_reachable_missing
  let message : Value := .text (Fault.undefinedVariable "missing").message
  let r := (Library.heap.addException .undefinedReference message).1
  obtain ⟨ho, hp⟩ := Library.heap.object?_addException .undefinedReference message
  have hdelegates := Library.heap.delegates_addException .undefinedReference message
  rw [← hheap] at ho hp hdelegates
  obtain ⟨hmirrored, hpattern⟩ := delegation_mirrors_inheritance hs
  have hmem : ∃ r' ∈ s.heap.delegates r,
      s.heap.classOfObject? r' = some BuiltinClass.exception.ref := by
    refine ⟨⟨Library.heap.objects.size⟩, by rw [hdelegates]; simp, ?_⟩
    rw [Heap.classOfObject?, hp]
    rfl
  refine ⟨s, r, hs, by rw [Heap.classOfObject?, ho]; rfl,
    (hmirrored.isInstance r _ _ ho).mpr hmem, fun rounds calls levels mode site left right => ?_⟩
  have hclass : Eval.classPattern? (Eval.perform rounds calls levels)
      (.node right (.name "Exception")) s = .ok (some BuiltinClass.exception.ref) s := by
    simp only [Eval.classPattern?, Expr.form, Eval.bind_apply, Eval.get_apply, hname]
    rfl
  rw [hpattern rounds calls levels r _ _ _ s ho hclass, if_pos hmem]
  rfl

end Session

end Tern
