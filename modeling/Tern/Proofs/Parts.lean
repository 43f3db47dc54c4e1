/-
The parts of the evaluator in a logic. For each part there is one lemma: if the runner can be
relied on for the tasks that the part asks for, then what the logic says holds of the part. The
proofs follow the definitions, and at the end stand the two kinds of tasks.

* `Logic.matchPattern`, `Logic.runClauses`, `Logic.instantiate`, `Logic.materialize`,
  `Logic.importModule`: the larger parts.
* `Logic.evalExpr`: an expression, given its parts.
* `Logic.callValue`: a call, given what it runs.
-/
import Tern.Proofs.Logic

namespace Tern

/-- A task that stays below a size: expressions of a smaller size, and all calls. -/
def Task.Below (size : Nat) : Task → Prop
  | .expr e => sizeOf e < size
  | .call _ _ => True

@[simp]
lemma Task.below_expr {size : Nat} {e : Expr} : Task.Below size (.expr e) ↔ sizeOf e < size :=
  .rfl

/-- The tasks that may come up in the innermost frame while a task is carried out. -/
def Task.Part : Task → Task → Prop
  | .expr e => Task.Below (sizeOf e)
  | .call _ _ => fun _ => False

/-- Whether an operation of the library runs a text or calls a function. -/
def Primitive.callsBack : Primitive → Bool
  | .eval | .each | .mapItems | .filter | .fold => true
  | _ => false

namespace Logic

variable {ι : Type} {L : Logic ι} {run : ι → Runner} {P : Task → Prop} {s : Session}

/-! ### Expressions in a row -/

lemma evalAll (es : List Expr) (hs : L.Grants run P s) (h : ∀ e ∈ es, P (.expr e)) :
    L.Holds (fun i => Eval.evalAll (run i) es) s := by
  induction es generalizing s with
  | nil => exact L.pure _ s
  | cons e rest ih =>
      refine L.bind (hs.now (h e (by simp))) fun v s' _ hl => ?_
      refine L.bind (ih (hs.later hl) fun e' he => h e' (by simp [he])) fun vs s'' _ _ => ?_
      exact L.pure _ s''

lemma sequenceFrom (last : Value) (es : List Expr) (hs : L.Grants run P s)
    (h : ∀ e ∈ es, P (.expr e)) : L.Holds (fun i => Eval.sequenceFrom (run i) last es) s := by
  induction es generalizing s last with
  | nil => exact L.pure _ s
  | cons e rest ih =>
      refine L.bind (hs.now (h e (by simp))) fun v s' _ hl => ?_
      exact ih v (hs.later hl) fun e' he => h e' (by simp [he])

/-- Nothing but a return is taken by the end of a function or a program. -/
lemma catchLeave {x : ι → Eval Value} (hx : L.Holds x s) :
    L.Holds (fun i => Eval.catchLeave (x i)) s := by
  refine L.recover hx (fun i lacking => rfl) fun signal s' ha _ => ?_
  cases signal with
  | leave v => exact L.pure v s'
  | fault => exact L.raise ha
  | thrown => exact L.raise ha
  | fatal => exact L.raise ha
  | outOfFuel => exact L.raise ha

lemma program (es : List Expr) (hs : L.Grants run P s) (h : ∀ e ∈ es, P (.expr e)) :
    L.Holds (fun i => Eval.program (run i) es) s :=
  catchLeave (sequenceFrom .null es hs h)

lemma inPlace (source text : String) (hs : L.Grants run P s) (h : ∀ e, P (.expr e)) :
    L.Holds (fun i => Eval.inPlace (run i) source text) s := by
  unfold Eval.inPlace
  cases parse source text with
  | error e => exact L.raise (L.allows_fatal e s)
  | ok body => exact program body hs fun e _ => h e

/-! ### Calling back -/

lemma callEach (f : Value) (items : List Value) (hs : L.Grants run P s)
    (h : ∀ vs, P (.call f vs)) : L.Holds (fun i => Eval.callEach (run i) f items) s := by
  induction items generalizing s with
  | nil => exact L.pure _ s
  | cons item rest ih => exact L.bind (hs.now (h _)) fun _ s' _ hl => ih (hs.later hl)

lemma callMap (f : Value) (done : Array Value) (items : List Value) (hs : L.Grants run P s)
    (h : ∀ vs, P (.call f vs)) : L.Holds (fun i => Eval.callMap (run i) f done items) s := by
  induction items generalizing s done with
  | nil => exact L.pure _ s
  | cons item rest ih => exact L.bind (hs.now (h _)) fun _ s' _ hl => ih _ (hs.later hl)

lemma callFilter (f : Value) (done : Array Value) (items : List Value) (hs : L.Grants run P s)
    (h : ∀ vs, P (.call f vs)) : L.Holds (fun i => Eval.callFilter (run i) f done items) s := by
  induction items generalizing s done with
  | nil => exact L.pure _ s
  | cons item rest ih => exact L.bind (hs.now (h _)) fun _ s' _ hl => ih _ (hs.later hl)

lemma callFold (f acc : Value) (items : List Value) (hs : L.Grants run P s)
    (h : ∀ vs, P (.call f vs)) : L.Holds (fun i => Eval.callFold (run i) f acc items) s := by
  induction items generalizing s acc with
  | nil => exact L.pure _ s
  | cons item rest ih => exact L.bind (hs.now (h _)) fun _ s' _ hl => ih _ (hs.later hl)

lemma globalOperation (operation : Primitive) (arguments : List Value)
    (hs : operation.callsBack = true → L.Open run s) :
    L.Holds (fun i => Eval.globalOperation (run i) operation arguments) s := by
  unfold Eval.globalOperation
  split
  · exact L.beside (.bind .heap fun _ => .bind (.printLine _) fun _ => .pure _)
  · exact L.beside (.bind (.display _) fun _ => .pure _)
  · exact L.beside (.bind .heap fun _ => .pure _)
  · refine bindLocal (.textArgument _ _) fun text s' _ hl => ?_
    exact inPlace "<eval>" text ((hs rfl).later hl) fun _ => trivial
  · exact L.beside .readClock
  · exact L.beside (.bind (.boundArgument _) fun _ => .newList _)
  · exact L.beside (.bind (.boundArgument _) fun _ => .bind (.boundArgument _) fun _ => .newList _)
  · split
    · exact L.pure _ s
    · exact L.fail _ s
  · split
    · exact L.pure _ s
    · exact L.beside (.bind (.display _) fun _ => .fail _)
  · exact L.beside (.bind .get fun _ => .newList _)
  · exact L.pure _ s

lemma listOperation (operation : Primitive) (arguments : List Value)
    (hs : operation.callsBack = true → L.Open run s) :
    L.Holds (fun i => Eval.listOperation (run i) operation arguments) s := by
  have items : ∀ function v, Eval.Local (Eval.itemsArgument function v) := .itemsArgument
  unfold Eval.listOperation
  split
  · exact L.beside (.newList _)
  · refine L.beside (.bind (.listArgument _ _) fun _ => ?_)
    exact .bind (.modifyHeap fun h => h.grows_modifyList _ _) fun _ => .pure _
  · refine L.beside (.bind (.listArgument _ _) fun _ => .bind .heap fun h => ?_)
    split
    · exact .bind (.modifyHeap fun h => h.grows_modifyList _ _) fun _ => .pure _
    · exact .fail _
  · exact L.beside (.bind (items _ _) fun _ => .bind .heap fun _ => .pure _)
  · refine bindLocal (items _ _) fun xs s' _ hl => ?_
    refine L.bind (callEach _ _ ((hs rfl).later hl) fun _ => trivial) fun _ s'' _ _ => ?_
    exact L.pure _ s''
  · refine bindLocal (items _ _) fun xs s' _ hl => ?_
    refine L.bind (callMap _ _ _ ((hs rfl).later hl) fun _ => trivial) fun _ s'' _ _ => ?_
    exact L.beside (.newList _)
  · refine bindLocal (items _ _) fun xs s' _ hl => ?_
    refine L.bind (callFilter _ _ _ ((hs rfl).later hl) fun _ => trivial) fun _ s'' _ _ => ?_
    exact L.beside (.newList _)
  · refine bindLocal (items _ _) fun xs s' _ hl => ?_
    exact callFold _ _ _ ((hs rfl).later hl) fun _ => trivial
  · exact L.beside (.joinItems _ _)
  · exact L.beside (.bind (.textArgument _ _) fun _ => .joinItems _ _)
  · exact L.beside (.bind (items _ _) fun _ => .newList _)
  · exact L.pure _ s

/-- An operation asks for something only if it runs a text or calls a function. -/
lemma primitive (operation : Primitive) (arguments : List Value)
    (hs : operation.callsBack = true → L.Open run s) :
    L.Holds (fun i => Eval.primitive (run i) operation arguments) s := by
  unfold Eval.primitive
  split
  all_goals first
    | exact globalOperation _ _ hs
    | exact listOperation _ _ hs
    | exact L.beside (.scalarOperation _ _)
    | exact L.beside (.entryOperation _ _)
    | exact L.beside (.exceptionOperation _ _)
    | exact L.beside (.hostOperation _ _)

/-! ### Calls -/

lemma bindParams (rest : Option String) (names : List String) (vs : List Value) :
    L.Holds (fun _ => Eval.bindParams rest names vs) s := by
  induction names generalizing s vs with
  | nil =>
      cases rest with
      | none => exact L.pure _ s
      | some name => exact bindLocal (.newList _) fun _ s' _ _ => L.bindName name _ s'
  | cons name names ih =>
      cases vs with
      | nil => exact L.bind (L.bindName name _ s) fun _ s' _ _ => ih []
      | cons v vs => exact L.bind (L.bindName name v s) fun _ s' _ _ => ih vs

lemma bindReceiver (receiver : Option (Value × Value)) :
    L.Holds (fun _ => Eval.bindReceiver receiver) s := by
  cases receiver with
  | none => exact L.pure _ s
  | some receiver =>
      obtain ⟨this, parent⟩ := receiver
      exact L.bind (L.bindName "self" this s) fun _ s' _ _ => L.bindName "super" parent s'

/-- The body of a function runs in a frame of its own. -/
lemma callFunction (f : Closure) (arguments : List Value) (hf : L.Framed run s) :
    L.Holds (fun i => Eval.callFunction (run i) f arguments) s := by
  unfold Eval.callFunction
  dsimp only
  split
  · refine L.inFrame fun hd => ?_
    have ho := hf f.code.name f.code.body.source f.code.body.line (L.later_refl s) hd
    refine L.bind (bindReceiver f.receiver) fun _ s₁ _ hl₁ => ?_
    refine L.bind (bindParams _ _ arguments) fun _ s₂ _ hl₂ => ?_
    exact catchLeave ((ho.later (L.later_trans hl₁ hl₂)).now trivial)
  · exact L.fail _ s

lemma callNative (f : Native) (receiver : Option Value) (arguments : List Value)
    (hs : ∀ operation, f.select? arguments.length = some operation →
      operation.callsBack = true → L.Open run s) :
    L.Holds (fun i => Eval.callNative (run i) f receiver arguments) s := by
  unfold Eval.callNative
  split
  · rename_i operation hop
    exact primitive _ _ (hs operation hop)
  · exact L.fail _ s

lemma fillSlots (r : ObjectRef) (slots : List (String × Option Expr)) (ho : L.Open run s) :
    L.Holds (fun i => Eval.fillSlots (run i) r slots) s := by
  induction slots generalizing s with
  | nil => exact L.pure _ s
  | cons slot rest ih =>
      obtain ⟨name, default⟩ := slot
      have write : ∀ v s', L.Later s s' → L.Holds (fun i => do
          Eval.modifyHeap (·.setSlot r name v)
          Eval.fillSlots (run i) r rest) s' := by
        intro v s' hl
        refine bindLocal (.modifyHeap fun h => h.grows_setSlot r name v) fun _ s'' _ hl' => ?_
        exact ih (ho.later (L.later_trans hl hl'))
      cases default with
      | none => exact L.bind (L.pure _ s) fun v s' _ hl => write v s' hl
      | some e => exact L.bind (ho.now trivial) fun v s' _ hl => write v s' hl

lemma buildLevel (ref : ClassRef) (parent : Option ObjectRef) (hf : L.Framed run s) :
    L.Holds (fun i => Eval.buildLevel (run i) ref parent) s := by
  refine bindLocal (.newObject _) fun r s₁ _ hl₁ => bindLocal .heap fun h s₂ _ hl₂ => ?_
  split
  · rename_i c _
    dsimp only
    split
    · exact L.pure r s₂
    · refine bindLocal .get fun t s₃ _ hl₃ => ?_
      have hl : L.Later s s₃ := L.later_trans hl₁ (L.later_trans hl₂ hl₃)
      refine L.bind (L.inFrame fun hd => ?_) fun _ s₄ _ _ => L.pure r s₄
      have ho := hf ("<init " ++ c.name ++ ">") t.env.file 0 hl hd
      refine L.bind (L.bindName "self" _ _) fun _ s₅ _ hl₅ => ?_
      refine L.bind (L.bindName "super" _ _) fun _ s₆ _ hl₆ => ?_
      exact fillSlots r _ (ho.later (L.later_trans hl₅ hl₆))
  · exact L.pure r s₂

lemma buildChain (chain : List ClassRef) (hf : L.Framed run s) :
    L.Holds (fun i => Eval.buildChain (run i) chain) s := by
  induction chain with
  | nil => exact L.pure _ s
  | cons ref rest ih =>
      exact L.bind ih fun parent s' _ hl => map some (buildLevel ref parent (hf.later hl))

lemma construct (ref : ClassRef) (hf : L.Framed run s) :
    L.Holds (fun i => Eval.construct (run i) ref) s := by
  refine bindLocal .heap fun h s' _ hl => ?_
  dsimp only
  split
  · exact L.fail _ s'
  · exact L.bind (buildChain _ (hf.later hl)) fun _ s'' _ _ => L.pure _ s''

/-- A class that is not synthetic calls `init` on what it has built, and one that is calls a native
function. -/
lemma instantiate (ref : ClassRef) (arguments : List Value) (hs : L.Serves run P s)
    (hcall : ∀ f, P (.call f arguments))
    (hnative : ∀ c s', L.Later s s' → s.heap.class? ref = some c → c.synthetic = true →
      L.Open run s') :
    L.Holds (fun i => Eval.instantiate (run i) ref arguments) s := by
  refine bindLocal .heap fun h s₁ hh hl₁ => ?_
  cases hh
  split
  · rename_i c hc
    split
    · rename_i hsyn
      split
      · exact callNative _ none arguments fun _ _ _ => hnative c s (L.later_refl s) hc hsyn
      · exact L.fail _ s
    · refine L.bind (construct ref hs.frame) fun object s₂ _ hl₂ => ?_
      refine bindLocal (.findMember? object "init") fun init s₃ _ hl₃ => ?_
      cases init with
      | some init =>
          refine L.bind (hs.task (hcall init) (L.later_trans hl₂ hl₃)) fun _ s₄ _ _ => ?_
          exact L.pure object s₄
      | none =>
          dsimp only
          split
          · exact L.pure object s₃
          · exact L.fail _ s₃
  · exact L.fail _ s

/-- A function is called in a frame of its own; anything else may ask for every task. -/
lemma callValue (callee : Value) (arguments : List Value) (hs : L.Serves run P s)
    (hopen : (Task.call callee arguments).isFrameless = true → L.Open run s) :
    L.Holds (fun i => Eval.callValue (run i) callee arguments) s := by
  refine bindLocal .heap fun h s₁ hh hl₁ => ?_
  cases hh
  cases callee with
  | function r =>
      dsimp only
      split
      · exact callFunction _ arguments hs.frame
      · exact L.fail _ s
  | native r =>
      dsimp only
      split
      · exact callNative _ none arguments fun _ _ _ => hopen rfl
      · exact L.fail _ s
  | bound r receiver =>
      dsimp only
      split
      · exact callNative _ (some receiver) arguments fun _ _ _ => hopen rfl
      · exact L.fail _ s
  | classOf r =>
      have ho : L.Open run s := hopen rfl
      have hall : L.Serves run (fun _ => True) s := { hs with task := ho }
      exact instantiate r arguments hall (fun _ => trivial) fun _ _ hl _ _ => ho.later hl
  | null => exact L.fail _ s
  | bool => exact L.fail _ s
  | number => exact L.fail _ s
  | text => exact L.fail _ s
  | tuple => exact L.fail _ s
  | list => exact L.fail _ s
  | map => exact L.fail _ s
  | object => exact L.fail _ s

lemma withTrace (exception : Value) (trace : Trace) :
    L.Holds (fun _ => Eval.withTrace exception trace) s :=
  L.beside (.bind .get fun _ => .pure _)

/-- The exception of a failure is built by the class of its kind. -/
lemma materialize (signal : Signal) (ha : L.Allows signal s) (hs : L.Serves run P s)
    (hcall : ∀ f vs, P (.call f vs)) : L.Holds (fun i => Eval.materialize (run i) signal) s := by
  cases signal with
  | thrown v trace => exact withTrace v trace
  | fault cause trace =>
      refine L.bind (instantiate _ _ hs (fun f => hcall f _) ?_) fun v s' _ _ => withTrace v trace
      exact fun c s' hl hc hsyn => (hs.native (L.later_refl s) hc hsyn).later hl
  | leave v => exact L.raise ha
  | fatal e => exact L.raise ha
  | outOfFuel lacking => exact L.raise ha

/-! ### Patterns -/

lemma bindAs (mode : Eval.BindMode) (name : String) (v : Value) :
    L.Holds (fun _ => Eval.bindAs mode name v) s := by
  cases mode with
  | fresh => exact L.bindName name v s
  | assign => exact L.assign name v false s
  | declare => exact L.assign name v true s

lemma classPattern? (e : Expr) (hs : L.Grants run P s) (h : P (.expr e)) :
    L.Holds (fun i => Eval.classPattern? (run i) e) s := by
  unfold Eval.classPattern?
  split
  · refine L.beside (.bind .get fun t => ?_)
    split
    · exact .pure _
    · exact .pure _
  · refine L.bind (hs.now h) fun v s' _ _ => ?_
    cases v with
    | classOf r => exact L.pure _ s'
    | _ => exact L.pure _ s'
  · exact L.pure _ s

mutual

/-- A pattern asks for itself and for expressions inside it at most. -/
theorem matchPattern (mode : Eval.BindMode) (pattern : Expr) (v : Value) {s : Session}
    (hs : L.Grants run P s) (h : ∀ e, sizeOf e ≤ sizeOf pattern → P (.expr e)) :
    L.Holds (fun i => Eval.matchPattern (run i) mode pattern v) s :=
  match pattern, h with
  | .node site form, h => matchForm mode site form v hs h

theorem matchForm (mode : Eval.BindMode) (site : Site) (form : Form) (v : Value) {s : Session}
    (hs : L.Grants run P s) (h : ∀ e, sizeOf e ≤ sizeOf (Expr.node site form) → P (.expr e)) :
    L.Holds (fun i => Eval.matchForm (run i) mode site form v) s := by
  cases form with
  | name name =>
      simp only [Eval.matchForm]
      split
      · exact L.bind (bindAs _ name v) fun _ s' _ _ => L.pure _ s'
      · exact L.pure _ s
  | constant c => exact L.pure _ s
  | group inner => exact matchPattern mode inner v hs fun e he => h e (by simp; omega)
  | tuple patterns =>
      simp only [Eval.matchForm]
      split
      · split
        · exact matchItems mode patterns _ hs fun e he => h e (by simp; omega)
        · exact L.pure _ s
      · exact L.pure _ s
  | list patterns =>
      simp only [Eval.matchForm]
      split
      · refine bindLocal .heap fun t s' _ hl => ?_
        split
        · exact matchItems mode patterns _ (hs.later hl) fun e he => h e (by simp; omega)
        · exact L.pure _ s'
      · exact L.pure _ s
  | map patterns =>
      simp only [Eval.matchForm]
      split
      · exact matchEntries mode _ patterns hs fun e he => h e (by simp; omega)
      · exact L.pure _ s
  | pair left right =>
      have hleft : ∀ e, sizeOf e ≤ sizeOf left → P (.expr e) := fun e he => h e (by simp; omega)
      have hright : ∀ e, sizeOf e ≤ sizeOf right → P (.expr e) := fun e he => h e (by simp; omega)
      simp only [Eval.matchForm]
      refine L.bind (classPattern? right hs (hright right le_rfl)) fun c s' _ hl => ?_
      cases c with
      | some c =>
          refine bindLocal .heap fun t s'' _ hl' => ?_
          split
          · exact matchPattern mode left v (hs.later (L.later_trans hl hl')) hleft
          · exact L.pure _ s''
      | none =>
          dsimp only
          split
          · refine L.bind (matchPattern mode left _ (hs.later hl) hleft) fun fits s'' _ hl' => ?_
            cases fits with
            | true => exact matchPattern mode right _ (hs.later (L.later_trans hl hl')) hright
            | false => exact L.pure _ s''
          · exact L.pure _ s'
  | _ =>
      exact L.bind (hs.now (h _ le_rfl)) fun w s' _ _ => L.beside (.bind .heap fun _ => .pure _)

theorem matchItems (mode : Eval.BindMode) (patterns : List Expr) (vs : List Value) {s : Session}
    (hs : L.Grants run P s) (h : ∀ e, sizeOf e ≤ sizeOf patterns → P (.expr e)) :
    L.Holds (fun i => Eval.matchItems (run i) mode patterns vs) s := by
  match patterns, vs with
  | [], _ => exact L.pure _ s
  | _ :: _, [] => exact L.pure _ s
  | p :: ps, v :: vs =>
      refine L.bind (matchPattern mode p v hs fun e he => h e (by simp; omega))
        fun fits s' _ hl => ?_
      cases fits with
      | true => exact matchItems mode ps vs (hs.later hl) fun e he => h e (by simp; omega)
      | false => exact L.pure _ s'

theorem matchEntries (mode : Eval.BindMode) (r : MapRef) (patterns : List (Expr × Expr))
    {s : Session} (hs : L.Grants run P s)
    (h : ∀ e, sizeOf e ≤ sizeOf patterns → P (.expr e)) :
    L.Holds (fun i => Eval.matchEntries (run i) mode r patterns) s := by
  match patterns with
  | [] => exact L.pure _ s
  | (key, pattern) :: rest =>
      refine L.bind (hs.now (h key (by simp; omega))) fun k s₁ _ hl₁ => ?_
      refine bindLocal .heap fun t s₂ _ hl₂ => ?_
      have hl := L.later_trans hl₁ hl₂
      split
      · refine L.bind (matchPattern mode pattern _ (hs.later hl) fun e he => h e (by simp; omega))
          fun fits s₃ _ hl₃ => ?_
        cases fits with
        | true =>
            exact matchEntries mode r rest (hs.later (L.later_trans hl hl₃)) fun e he =>
              h e (by simp; omega)
        | false => exact L.pure _ s₃
      · exact L.pure _ s₂

end

/-! ### Collections and arguments -/

lemma evalEntries (done : Entries) (entries : List (Expr × Expr)) (hs : L.Grants run P s)
    (h : ∀ e, sizeOf e < sizeOf entries → P (.expr e)) :
    L.Holds (fun i => Eval.evalEntries (run i) done entries) s := by
  induction entries generalizing s done with
  | nil => exact L.pure _ s
  | cons entry rest ih =>
      obtain ⟨key, value⟩ := entry
      refine L.bind (hs.now (h key (by simp; omega))) fun k s₁ _ hl₁ => ?_
      refine L.bind (hs (h value (by simp; omega)) hl₁) fun v s₂ _ hl₂ => ?_
      exact ih _ (hs.later (L.later_trans hl₁ hl₂)) fun e he => h e (by simp; omega)

lemma evalArguments (arguments : List Expr) (hs : L.Grants run P s)
    (h : ∀ e, sizeOf e < sizeOf arguments → P (.expr e)) :
    L.Holds (fun i => Eval.evalArguments (run i) arguments) s := by
  induction arguments generalizing s with
  | nil => exact L.pure _ s
  | cons argument rest ih =>
      have hrest : ∀ e, sizeOf e < sizeOf rest → P (.expr e) := fun e he => h e (by simp; omega)
      unfold Eval.evalArguments
      split
      · rename_i heq
        cases heq
      · rename_i site inner rest' heq
        cases heq
        refine L.bind (hs.now (h inner (by simp; omega))) fun v s₁ _ hl₁ => ?_
        refine bindLocal (.spreadItems v) fun items s₂ _ hl₂ => ?_
        refine L.bind (ih (hs.later (L.later_trans hl₁ hl₂)) hrest) fun vs s₃ _ _ => ?_
        exact L.pure _ s₃
      · rename_i heq
        cases heq
        refine L.bind (hs.now (h argument (by simp; omega))) fun v s₁ _ hl₁ => ?_
        exact L.bind (ih (hs.later hl₁) hrest) fun vs s₂ _ _ => L.pure _ s₂

/-! ### Clauses and loops -/

lemma destructure (pattern : Expr) (v : Value) (hs : L.Serves run P s)
    (h : ∀ e, sizeOf e ≤ sizeOf pattern → P (.expr e)) :
    L.Holds (fun i => Eval.destructure (run i) pattern v) s := by
  have bindAll : ∀ {s'}, L.Later s s' → L.Holds (fun i => do
      let _ ← Eval.matchPattern (run i) (if pattern.declares then .declare else .assign) pattern v
      : ι → Eval Unit) s' := fun hl =>
    L.bind (matchPattern _ pattern v (hs.task.later hl) h) fun _ s'' _ _ => L.pure _ s''
  refine L.bind (L.inFrame fun hd => ?_) fun fits s₁ _ hl₁ => ?_
  · have ho := hs.frame "<destructure>" pattern.source pattern.line (L.later_refl s) hd
    exact matchPattern .fresh pattern v ho fun _ _ => trivial
  · cases fits with
    | false =>
        refine bindLocal (.display v) fun shown s₂ _ hl₂ => ?_
        exact L.bind (L.fail _ s₂) fun _ s₃ _ hl₃ =>
          bindAll (L.later_trans hl₁ (L.later_trans hl₂ hl₃))
    | true => exact bindAll hl₁

lemma tryClause (frame : String) (v : Value) (clause : Expr × Expr) (hf : L.Framed run s) :
    L.Holds (fun i => Eval.tryClause (run i) frame v clause) s := by
  refine L.inFrame fun hd => ?_
  have ho := hf frame clause.1.source clause.1.line (L.later_refl s) hd
  refine L.bind (matchPattern .fresh clause.1 v ho fun _ _ => trivial) fun fits s' _ hl => ?_
  cases fits with
  | true => exact map some (ho trivial hl)
  | false => exact L.pure _ s'

lemma runClauses (frame : String) (v : Value) (clauses : List (Expr × Expr))
    (hf : L.Framed run s) : L.Holds (fun i => Eval.runClauses (run i) frame v clauses) s := by
  induction clauses generalizing s with
  | nil => exact L.pure _ s
  | cons clause rest ih =>
      refine L.bind (tryClause frame v clause hf) fun outcome s' _ hl => ?_
      cases outcome with
      | some w => exact L.pure _ s'
      | none => exact ih (hf.later hl)

lemma loopItems (site : Site) (pattern body : Expr) (last : Value) (items : List Value)
    (hf : L.Framed run s) :
    L.Holds (fun i => Eval.loopItems (run i) site pattern body last items) s := by
  induction items generalizing s last with
  | nil => exact L.pure _ s
  | cons item rest ih =>
      refine L.bind (L.inFrame fun hd => ?_) fun v s' _ hl => ih v (hf.later hl)
      have ho := hf "<for>" site.token.source site.token.line (L.later_refl s) hd
      refine L.bind (matchPattern .fresh pattern item ho fun _ _ => trivial) fun fits s' _ hl => ?_
      cases fits with
      | true => exact ho trivial hl
      | false => exact L.beside (.bind (.display item) fun _ => .fail _)

/-- A loop that may have some rounds and then more, if what is said of the further rounds holds. -/
lemma loopWhile (more : ι → Nat) (condition body : Expr) (rounds : Nat) (last : Value)
    (hs : L.Grants run P s) (hcondition : P (.expr condition)) (hbody : P (.expr body))
    (hmore : ∀ {s'} v, L.Later s s' →
      L.Holds (fun i => Eval.loopWhile (run i) condition body (more i) v) s') :
    L.Holds (fun i => Eval.loopWhile (run i) condition body (more i + rounds) last) s := by
  induction rounds generalizing s last with
  | zero => exact hmore last (L.later_refl s)
  | succ rounds ih =>
      refine L.bind (hs.now hcondition) fun c s₁ _ hl₁ => ?_
      split
      · refine L.bind (hs hbody hl₁) fun v s₂ _ hl₂ => ?_
        have hl := L.later_trans hl₁ hl₂
        exact ih v (hs.later hl) fun w hl' => hmore w (L.later_trans hl hl')
      · exact L.pure _ s₁

/-! ### Exceptions -/

/-- The trace that a handler is given. -/
lemma trace_of_materialize {run : Runner} {signal : Signal} {s s' : Session} {v : Value}
    {trace : Trace} (h : Eval.materialize run signal s = .ok (v, trace) s') :
    trace = signal.traceIn s'.env := by
  cases signal with
  | thrown w t =>
      cases h
      rfl
  | fault cause t =>
      rw [Eval.materialize, Eval.bind_apply] at h
      split at h
      · cases h
        rfl
      · cases h
  | leave => cases h
  | fatal => cases h
  | outOfFuel => cases h

lemma handle (hc : L.Carries) (clauses : List (Expr × Expr)) (signal : Signal)
    (ha : L.Allows signal s) (hs : L.Serves run P s) (hcall : ∀ f vs, P (.call f vs)) :
    L.Holds (fun i => Eval.handle (run i) clauses signal) s := by
  refine L.bind (materialize signal ha hs hcall) fun raised s₁ hr hl₁ => ?_
  obtain ⟨v, trace⟩ := raised
  obtain ⟨i, hr⟩ := hr
  refine L.bind (L.handling (runClauses "<catch>" v clauses (hs.handler trace hl₁)))
    fun outcome s₂ _ hl₂ => ?_
  cases outcome with
  | some w => exact L.pure _ s₂
  | none =>
      have hv := hc.again v (hc.later ha hl₁)
      rw [← trace_of_materialize hr] at hv
      exact L.raise (hc.later hv hl₂)

lemma attempt (hc : L.Carries) (body : Expr) (clauses : List (Expr × Expr))
    (hs : L.Serves run P s) (hbody : P (.expr body)) (hcall : ∀ f vs, P (.call f vs)) :
    L.Holds (fun i => Eval.attempt (run i) body clauses) s := by
  refine L.recover (hs.task.now hbody) (fun i lacking => rfl) fun signal s' ha hl => ?_
  exact handle hc clauses signal ha (hs.later hl) hcall

/-- An attempt that is the task, in a logic that carries exceptions. -/
lemma attempt_of_task (hc : L.Carries) {task : Task} (hs : L.Serves run task.Part s)
    {s' : Session} (site : Site) (body : Expr) (clauses : List (Expr × Expr))
    (htask : task = .expr (.node site (.attempt body clauses))) (hl : L.Later s s') :
    L.Holds (fun i => Eval.attempt (run i) body clauses) s' := by
  subst htask
  exact attempt hc body clauses (hs.later hl) (by simp +arith [Task.Part]) fun _ _ => trivial

/-! ### Classes and modules -/

lemma declareClass (name : String) (superclass : Option String) (members : List Member) :
    L.Holds (fun _ => Eval.declareClass name superclass members) s := by
  refine bindLocal (.superclassNamed name superclass) fun superclass s₁ _ _ => ?_
  refine bindLocal (.newClass _) fun c s₂ _ _ => ?_
  exact L.bind (L.assign name c false s₂) fun _ s₃ _ _ => L.pure _ s₃

/-- A module that was loaded can be imported. -/
lemma importable_of_loadModule {relative text : String} {s s' : Session}
    (h : Eval.loadModule relative s = .ok text s') : s'.Importable relative := by
  have hb := Eval.Local.loadModule relative s
  rw [h] at hb
  unfold Session.Importable
  rw [hb.files, hb.moduleRoot]
  unfold Eval.loadModule at h
  cases hm : Module.bundled? relative with
  | some text => exact .inl rfl
  | none =>
      refine .inr ?_
      cases hf : s.files.isFile (Path.join (s.moduleRoot.getD "") relative) with
      | true => rfl
      | false =>
          simp only [hm, Eval.bind_apply, Eval.get_apply, hf] at h
          cases h

lemma importModule (segments : List String) (hs : L.Serves run P s)
    (hfile : ∀ {s'}, L.Later s s' → L.Enters s') :
    L.Holds (fun i => Eval.importModule (run i) segments) s := by
  refine bindLocal .get fun t s₁ ht hl₁ => ?_
  cases ht
  split
  · exact L.pure _ s
  · rename_i hnew
    refine bindLocal (.loadModule _) fun text s₂ hload hl₂ => ?_
    have hb := Eval.Local.loadModule (Module.path segments) s
    rw [hload] at hb
    refine L.bind (L.importing _ s₂) fun _ s₃ h₃ hl₃ => ?_
    have he := hfile (L.later_trans hl₂ hl₃)
    obtain ⟨i, h₃⟩ := h₃
    cases h₃
    refine L.bind (L.inFile he (inPlace (P := fun _ => True) _ text ?_ fun _ => trivial))
      fun _ s₄ _ _ => L.pure _ s₄
    exact hs.module hl₂ (by simpa [hb.imported] using hnew) (importable_of_loadModule hload)

/-! ### Forms -/

/-- A form is evaluated from the expressions inside it and from calls. -/
theorem evalForm (rounds : ι → Nat) (site : Site) (form : Form)
    (hs : L.Serves run (Task.Below (sizeOf form)) s)
    (hloop : ∀ condition body, form = .whileLoop condition body →
      L.Holds (fun i => Eval.loopWhile (run i) condition body (rounds i) .null) s)
    (hattempt : ∀ body clauses, form = .attempt body clauses →
      L.Holds (fun i => Eval.attempt (run i) body clauses) s)
    (hfile : ∀ {s'} path, form = .importing path → L.Later s s' → L.Enters s') :
    L.Holds (fun i => Eval.evalForm (rounds i) (run i) site form) s := by
  have ht := hs.task
  have hmark : ∀ {α : Type} {f : ι → Eval α} {s'}, L.Later s s' →
      (∀ {s''}, L.Later s s'' → L.Holds f s'') →
      L.Holds (fun i => Eval.mark site.token.line >>= fun _ => f i) s' := fun hl hf =>
    L.bind (L.mark _ _) fun _ _ _ hl' => hf (L.later_trans hl hl')
  cases form with
  | constant c => exact L.pure _ s
  | name name => exact L.beside (.bind .get fun _ => .orFail _)
  | group inner => exact ht.now (by simp +arith)
  | tuple items =>
      exact L.bind (evalAll items ht fun e he => by
        have := List.sizeOf_lt_of_mem he
        simp; omega) fun _ s' _ _ => L.pure _ s'
  | list items =>
      exact L.bind (evalAll items ht fun e he => by
        have := List.sizeOf_lt_of_mem he
        simp; omega) fun _ _ _ _ => L.beside (.newList _)
  | map entries =>
      exact L.bind (evalEntries [] entries ht fun e he => by simp; omega)
        fun _ _ _ _ => L.beside (.newMap _)
  | pair left right =>
      refine L.bind (ht.now (by simp +arith)) fun v s₁ _ hl₁ => ?_
      exact L.bind (ht (by simp +arith) hl₁) fun w s₂ _ _ => L.pure _ s₂
  | unary op operand =>
      exact L.bind (ht.now (by simp +arith)) fun v _ _ _ => L.beside (.unary op v)
  | binary op left right =>
      refine L.bind (ht.now (by simp +arith)) fun v s₁ _ hl₁ => ?_
      refine L.bind (ht (by simp +arith) hl₁) fun w s₂ _ hl₂ => ?_
      exact hmark (L.later_trans hl₁ hl₂) fun _ => L.beside (.binary op v w)
  | logical op left right =>
      refine L.bind (ht.now (by simp +arith)) fun v s₁ _ hl₁ => ?_
      split
      · exact L.pure _ s₁
      · exact L.pure _ s₁
      · exact ht (by simp +arith) hl₁
  | assign name value declare =>
      refine L.bind (ht.now (by simp +arith)) fun v s₁ _ _ => ?_
      exact L.bind (L.assign name v declare s₁) fun _ s₂ _ _ => L.pure _ s₂
  | destructure pattern value =>
      refine L.bind (ht.now (by simp +arith)) fun v s₁ _ hl₁ => ?_
      exact L.bind (destructure pattern v (hs.later hl₁) fun e he => by simp; omega)
        fun _ s₂ _ _ => L.pure _ s₂
  | index target index =>
      refine L.bind (ht.now (by simp +arith)) fun v s₁ _ hl₁ => ?_
      refine L.bind (ht (by simp +arith) hl₁) fun i s₂ _ hl₂ => ?_
      exact hmark (L.later_trans hl₁ hl₂) fun _ => L.beside (.getIndex v i)
  | setIndex target index value =>
      refine L.bind (ht.now (by simp +arith)) fun v s₁ _ hl₁ => ?_
      refine L.bind (ht (by simp +arith) hl₁) fun i s₂ _ hl₂ => ?_
      have hl := L.later_trans hl₁ hl₂
      refine L.bind (ht (by simp +arith) hl) fun w s₃ _ hl₃ => ?_
      refine hmark (L.later_trans hl hl₃) fun _ => ?_
      exact bindLocal (.setIndex v i w) fun _ s₅ _ _ => L.pure _ s₅
  | member object name safe =>
      refine L.bind (ht.now (by simp +arith)) fun v s₁ _ hl₁ => ?_
      split
      · exact L.pure _ s₁
      · exact hmark hl₁ fun _ => L.beside (.getMember v name)
  | setMember object name value =>
      refine L.bind (ht.now (by simp +arith)) fun v s₁ _ hl₁ => ?_
      refine L.bind (ht (by simp +arith) hl₁) fun w s₂ _ hl₂ => ?_
      refine hmark (L.later_trans hl₁ hl₂) fun _ => ?_
      exact bindLocal (.setMember v name w) fun _ s₄ _ _ => L.pure _ s₄
  | call callee arguments =>
      refine L.bind (ht.now (by simp +arith)) fun f s₁ _ hl₁ => ?_
      refine L.bind (evalArguments arguments (ht.later hl₁) fun e he => by
        simp; omega) fun vs s₂ _ hl₂ => ?_
      exact hmark (L.later_trans hl₁ hl₂) fun hl => ht trivial hl
  | spread inner => exact L.fail _ s
  | function name params body declare =>
      refine bindLocal (.newFunction _) fun f s₁ _ _ => ?_
      exact L.bind (L.assign name f declare s₁) fun _ s₂ _ _ => L.pure _ s₂
  | lambda params body => exact L.beside (.newFunction _)
  | block body =>
      refine L.inFrame fun hd => ?_
      have ho := hs.frame "<block>" site.token.source site.token.line (L.later_refl s) hd
      exact sequenceFrom .null body ho fun _ _ => trivial
  | branch condition yes =>
      refine L.bind (ht.now (by simp +arith)) fun c s₁ _ hl₁ => ?_
      split
      · exact ht (by simp +arith) hl₁
      · exact L.pure _ s₁
  | branchElse condition yes no =>
      refine L.bind (ht.now (by simp +arith)) fun c s₁ _ hl₁ => ?_
      split
      · exact ht (by simp +arith) hl₁
      · exact ht (by simp +arith) hl₁
  | whileLoop condition body => exact hloop condition body rfl
  | forLoop pattern iterable body =>
      refine L.bind (ht.now (by simp +arith)) fun v s₁ _ hl₁ => ?_
      refine bindLocal (.iterationItems v) fun items s₂ _ hl₂ => ?_
      exact loopItems site pattern body .null items (hs.frame.later (L.later_trans hl₁ hl₂))
  | matching scrutinee clauses =>
      refine L.bind (ht.now (by simp +arith)) fun v s₁ _ hl₁ => ?_
      refine L.bind (runClauses "<match>" v clauses (hs.frame.later hl₁)) fun outcome s₂ _ _ => ?_
      cases outcome with
      | some w => exact L.pure _ s₂
      | none => exact L.beside (.bind (.display v) fun _ => .fail _)
  | attempt body clauses => exact hattempt body clauses rfl
  | raise value =>
      refine L.bind (ht.now (by simp +arith)) fun v s₁ _ _ => ?_
      exact L.raise (L.allows_thrown v s₁)
  | leave => exact L.raise (L.allows_leave _ s)
  | leaveWith value =>
      refine L.bind (ht.now (by simp +arith)) fun v s₁ _ _ => ?_
      exact L.raise (L.allows_leave v s₁)
  | classDef name superclass members => exact declareClass name superclass members
  | importing path => exact importModule path hs (hfile path rfl)

/-- An expression is evaluated from the expressions inside it and from calls. -/
theorem evalExpr (rounds : ι → Nat) (e : Expr) (hs : L.Serves run (Task.Below (sizeOf e)) s)
    (hloop : ∀ {s'} site condition body, e = .node site (.whileLoop condition body) →
      L.Later s s' → L.Holds (fun i => Eval.loopWhile (run i) condition body (rounds i) .null) s')
    (hattempt : ∀ {s'} site body clauses, e = .node site (.attempt body clauses) →
      L.Later s s' → L.Holds (fun i => Eval.attempt (run i) body clauses) s')
    (hfile : ∀ {s'} site path, e = .node site (.importing path) → L.Later s s' → L.Enters s') :
    L.Holds (fun i => Eval.evalExpr (rounds i) (run i) e) s := by
  obtain ⟨site, form⟩ := e
  refine L.bind (L.mark _ s) fun _ s₁ _ hl₁ =>
    evalForm rounds site form ?_ (fun c b hf => hloop site c b (by rw [hf]) hl₁)
      (fun b c hf => hattempt site b c (by rw [hf]) hl₁)
      fun p hf hl => hfile site p (by rw [hf]) (L.later_trans hl₁ hl)
  have hs₁ := hs.later hl₁
  refine { hs₁ with task := fun task s₂ hb hl₂ => hs₁.task ?_ hl₂ }
  cases task with
  | call => trivial
  | expr e => exact Nat.lt_of_lt_of_le hb (by simp)

/-- A task is carried out from its parts. A call without a frame may ask for anything. -/
theorem step (rounds : ι → Nat) (task : Task) (hs : L.Serves run task.Part s)
    (hopen : task.isFrameless = true → L.Open run s)
    (hloop : ∀ {s'} site condition body, task = .expr (.node site (.whileLoop condition body)) →
      L.Later s s' → L.Holds (fun i => Eval.loopWhile (run i) condition body (rounds i) .null) s')
    (hattempt : ∀ {s'} site body clauses, task = .expr (.node site (.attempt body clauses)) →
      L.Later s s' → L.Holds (fun i => Eval.attempt (run i) body clauses) s')
    (hfile : ∀ {s'} site path, task = .expr (.node site (.importing path)) → L.Later s s' →
      L.Enters s') :
    L.Holds (fun i => Eval.step (rounds i) (run i) task) s := by
  cases task with
  | expr e =>
      exact evalExpr rounds e hs (fun site c b he => hloop site c b (by rw [he]))
        (fun site b c he => hattempt site b c (by rw [he]))
        fun site p he => hfile site p (by rw [he])
  | call callee arguments => exact callValue callee arguments hs hopen

end Logic

end Tern
