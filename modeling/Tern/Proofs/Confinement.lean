/-
Code that assigns only certain names. All other variables of its callers keep their values, as long
as the foreign calls that it makes keep them.

* `Eval.Reliable`: runners that are sparing on all tasks of which the effect is known. For each part
  of the evaluator that confined code uses there is one lemma.
* `Eval.reliable_performOutside`: every task of which the effect is known is sparing.
* `Eval.retains_of_call`: so a call of a confined function keeps the variables that it finds.
-/
import Tern.Proofs.Retention

namespace Tern

namespace Eval

variable {rounds d : Nat} {names : List String}

/-! ### The parts of confined code -/

/-- Runners, one for each way to halt, that are sparing on all tasks of which the effect is
known. -/
def Reliable (rounds d : Nat) (names : List String) (run : Option Moment → Runner) : Prop :=
  ∀ ⦃task s⦄, Task.isConfined names task = true → Ready d s →
    Spare rounds d names (fun i => run i task) s

namespace Reliable

variable {run : Option Moment → Runner} {s : Session}

lemma evalAll (hrun : Reliable rounds d names run) (es : List Expr)
    (he : Expr.areConfined names es = true) (hs : Ready d s) :
    Spare rounds d names (fun i => Eval.evalAll (run i) es) s := by
  induction es generalizing s with
  | nil => exact .pure _
  | cons e rest ih =>
      simp only [Expr.areConfined, Bool.and_eq_true] at he
      refine .bind (hrun he.1 hs) fun v s₁ h₁ => ?_
      exact .bind (ih he.2 (hs.later h₁)) fun vs s₂ _ => .pure _

lemma evalArguments (hrun : Reliable rounds d names run) (es : List Expr)
    (he : Expr.areConfined names es = true) (hs : Ready d s) :
    Spare rounds d names (fun i => Eval.evalArguments (run i) es) s := by
  induction es generalizing s with
  | nil => exact .pure _
  | cons e rest ih =>
      simp only [Expr.areConfined, Bool.and_eq_true] at he
      unfold Eval.evalArguments
      split
      · rename_i heq
        cases heq
      · rename_i site inner rest' heq
        cases heq
        refine .bind (hrun he.1 hs) fun v s₁ h₁ => ?_
        refine .bindLocal (.spreadItems v) fun items s₂ h₂ => ?_
        exact .bind (ih he.2 (hs.later (h₁.trans h₂))) fun vs s₃ _ => .pure _
      · rename_i heq
        cases heq
        refine .bind (hrun he.1 hs) fun v s₁ h₁ => ?_
        exact .bind (ih he.2 (hs.later h₁)) fun vs s₂ _ => .pure _

lemma sequenceFrom (hrun : Reliable rounds d names run) (last : Value) (es : List Expr)
    (he : Expr.areConfined names es = true) (hs : Ready d s) :
    Spare rounds d names (fun i => Eval.sequenceFrom (run i) last es) s := by
  induction es generalizing s last with
  | nil => exact .pure _
  | cons e rest ih =>
      simp only [Expr.areConfined, Bool.and_eq_true] at he
      exact .bind (hrun he.1 hs) fun v s₁ h₁ => ih v he.2 (hs.later h₁)

/-! ### Patterns, clauses and loops -/

/-- A name of a pattern is bound in the innermost frame. -/
lemma matchPattern_name {site : Site} (hsite : site.annotations.isEmpty = true) (name : String)
    (v : Value) (s : Session) : ∃ env, s.env.Balanced env ∧ env.below = s.env.below ∧
      ∀ run, matchPattern run .fresh (.node site (.name name)) v s = .ok true { s with env } := by
  have hannotations := List.isEmpty_iff.mp hsite
  by_cases hname : name = "_"
  · refine ⟨s.env, .refl _, rfl, fun run => ?_⟩
    rw [hname]
    rfl
  · refine ⟨s.env.bind name v, s.env.balanced_bind name v, rfl, fun run => ?_⟩
    simp only [matchPattern, matchForm, hannotations, List.contains_nil, Bool.false_eq_true,
      if_false, ne_eq, hname, not_false_eq_true, if_true, bindAs, bind_apply, bindName_apply,
      pure_apply]

lemma matchPattern_pair (run : Runner) (mode : BindMode) (site : Site) (left right : Expr)
    (v : Value) : Eval.matchPattern run mode (.node site (.pair left right)) v = (do
      match ← classPattern? run right with
      | some c =>
        if (← heap).isInstance v c then Eval.matchPattern run mode left v else return false
      | none =>
        match v with
        | .tuple [v, w] =>
          if ← Eval.matchPattern run mode left v then Eval.matchPattern run mode right w
          else return false
        | _ => return false) := by
  rw [Eval.matchPattern]
  exact matchForm.eq_def _ _ _ _ _

/-- So are the names of a pattern that asks for a class. -/
lemma matchPattern_target {p : Expr} (hp : p.isTarget = true) (v : Value) (s : Session) :
    ∃ b env, s.env.Balanced env ∧ env.below = s.env.below ∧
      ∀ run, Eval.matchPattern run .fresh p v s = .ok b { s with env } := by
  unfold Expr.isTarget at hp
  split at hp
  · obtain ⟨env, hbalanced, hbelow, h⟩ := matchPattern_name hp _ v s
    exact ⟨true, env, hbalanced, hbelow, h⟩
  · rename_i site left site' right
    rw [Bool.and_eq_true] at hp
    have hclass : ∀ run, classPattern? run (.node site' (.name right)) s =
        .ok ((s.env.find? right).bind Value.class?) s := by
      intro run
      simp only [classPattern?, Expr.form, bind_apply, get_apply]
      cases s.env.find? right with
      | none => rfl
      | some w => cases w <;> rfl
    simp only [matchPattern_pair, bind_apply, hclass]
    cases (s.env.find? right).bind Value.class? with
    | some c =>
        simp only [bind_apply, heap_apply]
        split
        · obtain ⟨env, hbalanced, hbelow, h⟩ := matchPattern_name hp.1 left v s
          exact ⟨true, env, hbalanced, hbelow, h⟩
        · exact ⟨false, s.env, .refl _, rfl, fun _ => rfl⟩
    | none =>
        dsimp only
        split
        · rename_i v w
          obtain ⟨env, hbalanced, hbelow, h⟩ := matchPattern_name hp.1 left v s
          obtain ⟨env', hbalanced', hbelow', h'⟩ := matchPattern_name hp.2 right w { s with env }
          refine ⟨true, env', hbalanced.trans hbalanced', hbelow'.trans hbelow, fun run => ?_⟩
          simp only [bind_apply, h, if_true, h']
        · exact ⟨false, s.env, .refl _, rfl, fun _ => rfl⟩
  · cases hp

lemma matchPattern {p : Expr} (hp : p.isTarget = true) (v : Value) (hd : d < s.env.depth) :
    Spare rounds d names (fun i => Eval.matchPattern (run i) .fresh p v) s := by
  obtain ⟨b, env, hbalanced, hbelow, h⟩ := matchPattern_target hp v s
  simp only [Spare, h]
  exact .const (Session.follows_env hbalanced) (Environment.retains_of_below hd hbelow)

lemma loopItems (hrun : Reliable rounds d names run) (site : Site) {pattern body : Expr}
    (hpattern : pattern.isTarget = true) (hbody : body.isConfined names = true) (last : Value)
    (items : List Value) (hs : Ready d s) :
    Spare rounds d names (fun i => Eval.loopItems (run i) site pattern body last items) s := by
  induction items generalizing s last with
  | nil => exact .pure _
  | cons item rest ih =>
      refine .bind (.inFrame hs.depth.le ?_) fun v s₁ h₁ => ih v (hs.later h₁)
      have hs' := ready_push hs.depth.le hs.library "<for>" site.token.source site.token.line
      refine .bind (matchPattern hpattern item hs'.depth) fun fits s₁ h₁ => ?_
      cases fits with
      | true => exact hrun hbody (hs'.later h₁)
      | false => exact .beside (.bind (.display item) fun _ => .fail _)

lemma loopWhile (hrun : Reliable rounds d names run) {condition body : Expr}
    (hcondition : condition.isConfined names = true) (hbody : body.isConfined names = true)
    (count : Nat) (last : Value) (hs : Ready d s) :
    Spare rounds d names (fun i => Eval.loopWhile (run i) condition body count last) s := by
  induction count generalizing s last with
  | zero => exact .raise _
  | succ count ih =>
      refine .bind (hrun hcondition hs) fun c s₁ h₁ => ?_
      split
      · exact .bind (hrun hbody (hs.later h₁)) fun v s₂ h₂ => ih v (hs.later (h₁.trans h₂))
      · exact .pure _

lemma runClauses (hrun : Reliable rounds d names run) (frame : String) (v : Value)
    (clauses : List (Expr × Expr)) (hc : Expr.clausesConfined names clauses = true)
    (hs : Ready d s) :
    Spare rounds d names (fun i => Eval.runClauses (run i) frame v clauses) s := by
  induction clauses generalizing s with
  | nil => exact .pure _
  | cons clause rest ih =>
      obtain ⟨pattern, body⟩ := clause
      simp only [Expr.clausesConfined, Bool.and_eq_true] at hc
      refine .bind (.inFrame hs.depth.le ?_) fun outcome s₁ h₁ => ?_
      · have hs' := ready_push hs.depth.le hs.library frame pattern.source pattern.line
        refine .bind (matchPattern hc.1.1 v hs'.depth) fun fits s₁ h₁ => ?_
        cases fits with
        | true => exact .map some (hrun hc.1.2 (hs'.later h₁))
        | false => exact .pure _
      · cases outcome with
        | some w => exact .pure _
        | none => exact ih hc.2 (hs.later h₁)

/-! ### Calls -/

lemma callEach (hrun : Reliable rounds d names run) (f : Value) (items : List Value)
    (hs : Ready d s) : Spare rounds d names (fun i => Eval.callEach (run i) f items) s := by
  induction items generalizing s with
  | nil => exact .pure _
  | cons item rest ih => exact .bind (hrun rfl hs) fun _ _ h => ih (hs.later h)

lemma callMap (hrun : Reliable rounds d names run) (f : Value) (done : Array Value)
    (items : List Value) (hs : Ready d s) :
    Spare rounds d names (fun i => Eval.callMap (run i) f done items) s := by
  induction items generalizing s done with
  | nil => exact .pure _
  | cons item rest ih => exact .bind (hrun rfl hs) fun _ _ h => ih _ (hs.later h)

lemma callFilter (hrun : Reliable rounds d names run) (f : Value) (done : Array Value)
    (items : List Value) (hs : Ready d s) :
    Spare rounds d names (fun i => Eval.callFilter (run i) f done items) s := by
  induction items generalizing s done with
  | nil => exact .pure _
  | cons item rest ih => exact .bind (hrun rfl hs) fun _ _ h => ih _ (hs.later h)

lemma callFold (hrun : Reliable rounds d names run) (f acc : Value) (items : List Value)
    (hs : Ready d s) : Spare rounds d names (fun i => Eval.callFold (run i) f acc items) s := by
  induction items generalizing s acc with
  | nil => exact .pure _
  | cons item rest ih => exact .bind (hrun rfl hs) fun _ _ h => ih _ (hs.later h)

lemma globalOperation {operation : Primitive} (hoperation : operation ≠ .eval)
    (arguments : List Value) :
    Spare rounds d names (fun i => Eval.globalOperation (run i) operation arguments) s := by
  unfold Eval.globalOperation
  split
  · exact .beside (.bind .heap fun _ => .bind (.printLine _) fun _ => .pure _)
  · exact .beside (.bind (.display _) fun _ => .pure _)
  · exact .beside (.bind .heap fun _ => .pure _)
  · exact absurd rfl hoperation
  · exact .beside .readClock
  · exact .beside (.bind (.boundArgument _) fun _ => .newList _)
  · exact .beside (.bind (.boundArgument _) fun _ => .bind (.boundArgument _) fun _ => .newList _)
  · split
    · exact .pure _
    · exact .beside (.fail _)
  · split
    · exact .pure _
    · exact .beside (.bind (.display _) fun _ => .fail _)
  · exact .beside (.bind .get fun _ => .newList _)
  · exact .pure _

lemma listOperation (hrun : Reliable rounds d names run) (operation : Primitive)
    (arguments : List Value) (hs : Ready d s) :
    Spare rounds d names (fun i => Eval.listOperation (run i) operation arguments) s := by
  have items : ∀ function v, Eval.Local (Eval.itemsArgument function v) := .itemsArgument
  unfold Eval.listOperation
  split
  · exact .beside (.newList _)
  · refine .beside (.bind (.listArgument _ _) fun _ => ?_)
    exact .bind (.modifyHeap fun h => h.grows_modifyList _ _) fun _ => .pure _
  · refine .beside (.bind (.listArgument _ _) fun _ => .bind .heap fun h => ?_)
    split
    · exact .bind (.modifyHeap fun h => h.grows_modifyList _ _) fun _ => .pure _
    · exact .fail _
  · exact .beside (.bind (items _ _) fun _ => .bind .heap fun _ => .pure _)
  · refine .bindLocal (items _ _) fun xs s₁ h₁ => ?_
    exact .bind (hrun.callEach _ _ (hs.later h₁)) fun _ _ _ => .pure _
  · refine .bindLocal (items _ _) fun xs s₁ h₁ => ?_
    exact .bind (hrun.callMap _ _ _ (hs.later h₁)) fun _ _ _ => .beside (.newList _)
  · refine .bindLocal (items _ _) fun xs s₁ h₁ => ?_
    exact .bind (hrun.callFilter _ _ _ (hs.later h₁)) fun _ _ _ => .beside (.newList _)
  · refine .bindLocal (items _ _) fun xs s₁ h₁ => ?_
    exact hrun.callFold _ _ _ (hs.later h₁)
  · exact .beside (.joinItems _ _)
  · exact .beside (.bind (.textArgument _ _) fun _ => .joinItems _ _)
  · exact .beside (.bind (items _ _) fun _ => .newList _)
  · exact .pure _

/-- Operations that evaluate no text call back at most. -/
lemma primitive (hrun : Reliable rounds d names run) {operation : Primitive}
    (hoperation : operation ≠ .eval) (arguments : List Value) (hs : Ready d s) :
    Spare rounds d names (fun i => Eval.primitive (run i) operation arguments) s := by
  unfold Eval.primitive
  split
  all_goals first
    | exact globalOperation hoperation _
    | exact hrun.listOperation _ _ hs
    | exact .beside (.scalarOperation _ _)
    | exact .beside (.entryOperation _ _)
    | exact .beside (.exceptionOperation _ _)
    | exact .beside (.hostOperation _ _)

lemma bindParams (rest : Option String) (params : List String) (vs : List Value)
    (hd : d < s.env.depth) :
    Spare rounds d names (fun _ => Eval.bindParams rest params vs) s := by
  induction params generalizing s vs with
  | nil =>
      cases rest with
      | none => exact .pure _
      | some name =>
          exact .bindLocal (.newList _) fun v s₁ h₁ => .bindName (h₁.depth_eq ▸ hd) name v
  | cons name params ih =>
      cases vs with
      | nil => exact .bind (.bindName hd name _) fun _ s₁ h₁ => ih [] (h₁.depth_eq ▸ hd)
      | cons v vs => exact .bind (.bindName hd name v) fun _ s₁ h₁ => ih vs (h₁.depth_eq ▸ hd)

lemma bindReceiver (receiver : Option (Value × Value)) (hd : d < s.env.depth) :
    Spare rounds d names (fun _ => Eval.bindReceiver receiver) s := by
  cases receiver with
  | none => exact .pure _
  | some receiver =>
      obtain ⟨this, parent⟩ := receiver
      exact .bind (.bindName hd "self" this) fun _ s₁ h₁ =>
        .bindName (h₁.depth_eq ▸ hd) "super" parent

/-- A function that is confined runs in a frame of its own, also if it is called from the highest of
the frames in question. -/
lemma callFunction (hrun : Reliable rounds d names run) {f : Closure}
    (hf : f.code.body.isConfined names = true) (arguments : List Value) (hd : d ≤ s.env.depth)
    (hl : s.HasLibrary) :
    Spare rounds d names (fun i => Eval.callFunction (run i) f arguments) s := by
  unfold Eval.callFunction
  dsimp only
  split
  · refine .inFrame hd ?_
    have hs := ready_push hd hl f.code.name f.code.body.source f.code.body.line
    refine .bind (bindReceiver f.receiver hs.depth) fun _ s₁ h₁ => ?_
    refine .bind (bindParams _ _ arguments (hs.later h₁).depth) fun _ s₂ h₂ => ?_
    refine .recover (hrun hf (hs.later (h₁.trans h₂))) (fun _ _ => rfl) fun signal s₃ _ => ?_
    cases signal with
    | leave v => exact .pure v
    | _ => exact .raise _
  · exact .beside (.fail _)

lemma callNative (hrun : Reliable rounds d names run) {f : Native} (receiver : Option Value)
    {arguments : List Value} (hf : f.select? arguments.length ≠ some .eval) (hs : Ready d s) :
    Spare rounds d names (fun i => Eval.callNative (run i) f receiver arguments) s := by
  unfold Eval.callNative
  split
  · rename_i operation hselect
    exact hrun.primitive (fun h => hf (h ▸ hselect)) _ hs
  · exact .beside (.fail _)

/-- A call that is not foreign. -/
lemma callValue (hrun : Reliable rounds d names run) {callee : Value} {arguments : List Value}
    (hm : Moment.isForeign names ⟨.call callee arguments, s⟩ = false) (hs : Ready d s) :
    Spare rounds d names (fun i => Eval.callValue (run i) callee arguments) s := by
  cases callee with
  | function r =>
      simp only [Spare, Eval.callValue, bind_apply, heap_apply]
      cases hf : s.heap.function? r with
      | none => exact Spare.beside (.fail _)
      | some f =>
          simp only [Moment.isForeign, hf, Option.any_some, Bool.not_eq_false'] at hm
          exact hrun.callFunction hm arguments hs.depth.le hs.library
  | native r =>
      simp only [Spare, Eval.callValue, bind_apply, heap_apply]
      cases hf : s.heap.native? r with
      | none => exact Spare.beside (.fail _)
      | some f =>
          simp only [Moment.isForeign, hf, Option.any_some, decide_eq_false_iff_not] at hm
          exact hrun.callNative none hm hs
  | bound r receiver =>
      simp only [Spare, Eval.callValue, bind_apply, heap_apply]
      cases hf : s.heap.native? r with
      | none => exact Spare.beside (.fail _)
      | some f =>
          simp only [Moment.isForeign, hf, Option.any_some, decide_eq_false_iff_not] at hm
          exact hrun.callNative (some receiver) hm hs
  | classOf r => cases hm
  | _ => exact .beside (.fail _)

/-! ### Exceptions -/

/-- The class of a kind of failures calls nothing but the constructor of all exceptions. -/
lemma instantiate_error (hrun : Reliable rounds d names run) (kind : ErrorKind) (message : Value)
    (hs : Ready d s) : Spare rounds d names
      (fun i => Eval.instantiate (run i) (BuiltinClass.error kind).ref [message]) s := by
  by_cases hroom : s.env.depth < s.maxDepth
  · have hk := hs.library.class? (Library.class?_error kind)
    have hgrows := (s.beside_heap (s.heap.grows_addException kind .null)).follows
    refine Sparing.earlier hgrows (.refl _) ?_
    simp only [instantiate, bind_apply, heap_apply, hk, Library.errorClass, Bool.false_eq_true,
      if_false, construct_error kind hs.library hroom, findMember?_init kind .null hs.library]
    have hinit := @hrun (.call (.bound ⟨30⟩ (.object ⟨s.heap.objects.size⟩)) [message]) _ rfl
      (hs.later hgrows)
    have hbuilt := hinit.bind fun _ _ _ =>
      .pure (Value.object (s.heap.addException kind .null).1)
    simpa only [Spare, bind_apply] using hbuilt
  · simp only [Spare, instantiate_error_full kind [message] hs.library (Nat.le_of_not_lt hroom)]
    exact .const (s.beside_heap (s.heap.grows_addObject _)).follows (.refl _)

lemma materialize (hrun : Reliable rounds d names run) (signal : Signal) (hs : Ready d s) :
    Spare rounds d names (fun i => Eval.materialize (run i) signal) s := by
  have htrace : ∀ v trace {s'}, Spare rounds d names (fun _ => withTrace v trace) s' :=
    fun v trace _ => .beside (.bind .get fun _ => .pure _)
  cases signal with
  | thrown v trace => exact htrace v trace
  | fault cause trace =>
      exact .bind (hrun.instantiate_error cause.kind _ hs) fun v _ _ => htrace v trace
  | _ => exact .raise _

lemma attempt (hrun : Reliable rounds d names run) {body : Expr} {clauses : List (Expr × Expr)}
    (hbody : body.isConfined names = true) (hc : Expr.clausesConfined names clauses = true)
    (hs : Ready d s) : Spare rounds d names (fun i => Eval.attempt (run i) body clauses) s := by
  refine .recover (hrun hbody hs) (fun _ _ => rfl) fun signal s₁ h₁ => ?_
  refine .bind (hrun.materialize signal (hs.later h₁)) fun raised s₂ h₂ => ?_
  obtain ⟨v, trace⟩ := raised
  have hs₂ := hs.later (h₁.trans h₂)
  refine .bind (.handling (hrun.runClauses "<catch>" v clauses hc ⟨hs₂.depth, hs₂.library⟩))
    fun outcome s₃ _ => ?_
  cases outcome with
  | some w => exact .pure _
  | none => exact .raise _

/-! ### Tasks -/

lemma evalForm (hrun : Reliable rounds d names run) (site : Site) {form : Form}
    (hform : form.isConfined names = true) (hs : Ready d s) :
    Spare rounds d names (fun i => Eval.evalForm rounds (run i) site form) s := by
  cases form with
  | constant c => exact .pure _
  | name name => exact .beside (.bind .get fun _ => .orFail _)
  | lambda params body => exact .beside (.newFunction _)
  | spread inner => exact .beside (.fail _)
  | group inner => exact hrun hform hs
  | tuple items => exact .bind (hrun.evalAll items hform hs) fun _ _ _ => .pure _
  | list items => exact .bind (hrun.evalAll items hform hs) fun _ _ _ => .beside (.newList _)
  | binary op left right =>
      simp only [Form.isConfined, Bool.and_eq_true] at hform
      refine .bind (hrun hform.1 hs) fun v s₁ h₁ => ?_
      refine .bind (hrun hform.2 (hs.later h₁)) fun w s₂ h₂ => ?_
      exact .bind (.mark (hs.later (h₁.trans h₂)).depth _) fun _ _ _ => .beside (.binary op v w)
  | logical op left right =>
      simp only [Form.isConfined, Bool.and_eq_true] at hform
      refine .bind (hrun hform.1 hs) fun v s₁ h₁ => ?_
      split
      · exact .pure _
      · exact .pure _
      · exact hrun hform.2 (hs.later h₁)
  | assign name value declare =>
      simp only [Form.isConfined, Bool.and_eq_true] at hform
      refine .bind (hrun hform.2 hs) fun v s₁ h₁ => ?_
      exact .bind (.assign (hs.later h₁).depth hform.1 v) fun _ _ _ => .pure _
  | index target index =>
      simp only [Form.isConfined, Bool.and_eq_true] at hform
      refine .bind (hrun hform.1 hs) fun v s₁ h₁ => ?_
      refine .bind (hrun hform.2 (hs.later h₁)) fun w s₂ h₂ => ?_
      exact .bind (.mark (hs.later (h₁.trans h₂)).depth _) fun _ _ _ => .beside (.getIndex v w)
  | member object name safe =>
      refine .bind (hrun hform hs) fun v s₁ h₁ => ?_
      split
      · exact .pure _
      · exact .bind (.mark (hs.later h₁).depth _) fun _ _ _ => .beside (.getMember v name)
  | call callee arguments =>
      simp only [Form.isConfined, Bool.and_eq_true] at hform
      refine .bind (hrun hform.1 hs) fun f s₁ h₁ => ?_
      refine .bind (hrun.evalArguments arguments hform.2 (hs.later h₁)) fun vs s₂ h₂ => ?_
      have hs₂ := hs.later (h₁.trans h₂)
      exact .bind (.mark hs₂.depth _) fun _ s₃ h₃ => hrun rfl (hs₂.later h₃)
  | block body =>
      exact .inFrame hs.depth.le
        (hrun.sequenceFrom .null body hform (ready_push hs.depth.le hs.library _ _ _))
  | whileLoop condition body =>
      simp only [Form.isConfined, Bool.and_eq_true] at hform
      exact hrun.loopWhile hform.1 hform.2 rounds .null hs
  | forLoop pattern iterable body =>
      simp only [Form.isConfined, Bool.and_eq_true] at hform
      refine .bind (hrun hform.1.2 hs) fun v s₁ h₁ => ?_
      refine .bindLocal (.iterationItems v) fun items s₂ h₂ => ?_
      exact hrun.loopItems site hform.1.1 hform.2 .null items (hs.later (h₁.trans h₂))
  | attempt body clauses =>
      simp only [Form.isConfined, Bool.and_eq_true] at hform
      exact hrun.attempt hform.1 hform.2 hs
  | _ => cases hform

/-- A task that is not foreign is carried out from its parts. -/
lemma step (hrun : Reliable rounds d names run) {task : Task}
    (htask : task.isConfined names = true) (hm : Moment.isForeign names ⟨task, s⟩ = false)
    (hs : Ready d s) : Spare rounds d names (fun i => Eval.step rounds (run i) task) s := by
  cases task with
  | expr e =>
      obtain ⟨site, form⟩ := e
      exact .bind (.mark hs.depth _) fun _ s₁ h₁ => hrun.evalForm site htask (hs.later h₁)
  | call callee arguments => exact hrun.callValue hm hs

end Reliable

/-! ### All tasks -/

section

variable {calls levels : Nat} {task : Task} {s : Session}

/-- A task that is not foreign is sparing if it is from its parts. -/
lemma spare_of_descend (hm : Moment.isForeign names ⟨task, s⟩ = false)
    (h : Spare rounds d names (fun i => descend rounds (fun calls =>
      performOutside (Moment.isForeign names) (haltAt? i) rounds calls levels) calls task) s) :
    Sparing rounds d names s fun i =>
      performOutside (Moment.isForeign names) (haltAt? i) rounds calls (levels + 1) task s := by
  have hsame : ∀ {i}, i ≠ some ⟨task, s⟩ → performOutside (Moment.isForeign names) (haltAt? i)
      rounds calls (levels + 1) task s = descend rounds (fun calls =>
        performOutside (Moment.isForeign names) (haltAt? i) rounds calls levels) calls task s := by
    intro i hi
    rw [performOutside_of_ne hi, hm]
    rfl
  have hnone := hsame (Option.some_ne_none _).symm
  refine ⟨by rw [hnone]; exact h.follows, fun m => ?_, fun hend => ?_⟩
  · by_cases hi : some m = some ⟨task, s⟩
    · rw [hi]
      exact .inr short_performOutside
    · simp only [hsame hi, hnone]
      exact h.halted m
  · simp only [hnone] at hend ⊢
    refine (h.retains hend).imp_right fun ⟨m, hforeign, hspares, hs⟩ => ⟨m, hforeign, hspares, ?_⟩
    -- a foreign moment is not this one
    have hi : some m ≠ some ⟨task, s⟩ := fun hi => by
      rw [Option.some.inj hi, hm] at hforeign
      cases hforeign
    rwa [hsame hi]

/-- A foreign call keeps the variables or is one that does not. -/
lemma spare_of_foreign (hm : Moment.isForeign names ⟨task, s⟩ = true) :
    Sparing rounds d names s fun i =>
      performOutside (Moment.isForeign names) (haltAt? i) rounds calls (levels + 1) task s := by
  have hsame : ∀ {i}, i ≠ some ⟨task, s⟩ → performOutside (Moment.isForeign names) (haltAt? i)
      rounds calls (levels + 1) task s = perform rounds calls (levels + 1) task s := by
    intro i hi
    rw [performOutside_of_ne hi, hm, if_pos rfl]
  have hnone := hsame (Option.some_ne_none _).symm
  refine ⟨?_, fun m => ?_, fun hend => ?_⟩
  · rw [hnone, ending_apply]
    exact keeps_perform _ _ _ _ _
  · by_cases hi : some m = some ⟨task, s⟩
    · rw [hi]
      exact .inr short_performOutside
    · exact .inl ((hsame hi).trans hnone.symm)
  · by_cases hspares : Moment.Spares rounds d names ⟨task, s⟩
    · rw [hnone] at hend ⊢
      rw [ending_apply]
      exact .inl (hspares _ _ hend)
    · exact .inr ⟨_, hm, hspares, short_performOutside⟩

/-- Every task that is confined is sparing. -/
theorem reliable_performOutside (calls levels : Nat) : Reliable rounds d names fun i =>
    performOutside (Moment.isForeign names) (haltAt? i) rounds calls levels := by
  induction levels generalizing calls with
  | zero => exact fun _ _ _ _ => .raise _
  | succ levels ih =>
      intro task s htask hs
      cases hm : Moment.isForeign names ⟨task, s⟩ with
      | true => exact spare_of_foreign hm
      | false =>
          refine spare_of_descend hm ?_
          unfold descend
          split
          · cases calls with
            | zero => exact .raise _
            | succ calls => exact (ih calls).step htask hm hs
          · exact (ih calls).step htask hm hs

/-- What a call of a confined function leaves of the variables that it finds. -/
theorem retains_of_call {r : FunctionRef} {f : Closure} {arguments : List Value}
    (hr : s.heap.function? r = some f) (hf : f.code.body.isConfined names = true)
    (hl : s.HasLibrary)
    (hforeign : ∀ m : Moment, m.isForeign names = true →
      ComesOutside (Moment.isForeign names) rounds calls levels
        (fun run => run (.call (.function r) arguments)) s m →
      m.Spares rounds s.env.depth names)
    (hend : Ended (perform rounds calls levels (.call (.function r) arguments) s)) :
    s.env.Retains s.env.depth names
      (s.after (perform rounds calls levels (.call (.function r) arguments))).env := by
  cases levels with
  | zero => exact absurd ⟨s, rfl⟩ (hend .levels)
  | succ levels =>
      have hm : Moment.isForeign names ⟨.call (.function r) arguments, s⟩ = false := by
        simp [Moment.isForeign, hr, hf]
      have hcall : ∀ run : Nat → Runner,
          descend rounds run calls (.call (.function r) arguments) s =
            callFunction (run calls) f arguments s := by
        intro run
        change callValue (run calls) (.function r) arguments s = _
        simp only [callValue, bind_apply, heap_apply, hr]
      have hspare : Sparing rounds s.env.depth names s fun i => performOutside
          (Moment.isForeign names) (haltAt? i) rounds calls (levels + 1)
          (.call (.function r) arguments) s := by
        have hf := (@reliable_performOutside rounds s.env.depth names calls levels).callFunction hf
          arguments le_rfl hl
        refine spare_of_descend hm ?_
        simpa only [Spare, hcall] using hf
      have hnone : performOutside (Moment.isForeign names) (haltAt? none) rounds calls
          (levels + 1) = perform rounds calls (levels + 1) := performOutside_none _ _ _ _
      obtain hkept | ⟨m, hforeign', hspares, s', hs'⟩ :=
        hspare.retains (by rw [hnone]; exact hend)
      · rwa [hnone, ending_apply] at hkept
      · -- the call that did not keep them comes, since the evaluation is halted there
        refine absurd (hforeign m hforeign' ⟨.levels, fun heq => ?_⟩) hspares
        exact hend .levels ⟨s', heq.symm.trans hs'⟩

end

end Eval

end Tern
