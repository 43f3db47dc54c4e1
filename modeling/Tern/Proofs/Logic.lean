/-
A logic of the evaluator. What is to be shown of every evaluation (that it keeps the stack in
balance, that more fuel does not change it, that it comes to an end) is shown of its parts first,
and the way from the parts to the whole is always the same. A `Logic` has one rule for each
construct that the evaluator is made of; whatever has these rules holds of every evaluation.

The statements are about families of computations. A family of one member speaks about a single
evaluation, a family of two compares evaluations, and one with a member for each amount of fuel
says what happens in the long run.

* `Logic`: the rules.
* `Logic.Carries`: a logic in which an exception can be raised again as it was.
* `Logic.Serves`: the tasks that a runner can be relied on for, at the place where it is asked.
* `Logic.serves_of_forall`: a runner that can be relied on everywhere serves all tasks.
-/
import Tern.Proofs.Local

namespace Tern

/-- The path of a module leads to a text. -/
def Session.Importable (s : Session) (relative : String) : Prop :=
  (Module.bundled? relative).isSome = true ∨
    s.files.isFile (Path.join (s.moduleRoot.getD "") relative) = true

/-- The trace that a handler in an environment sees. -/
def Signal.traceIn (env : Environment) : Signal → Trace
  | .fault _ trace | .thrown _ trace => if trace.isEmpty then env.trace else trace
  | _ => []

/-- Rules for the constructs of the evaluator. -/
structure Logic (ι : Type) where
  /-- What is said of a family of computations, all of them started in one session. -/
  Holds : {α : Type} → (ι → Eval α) → Session → Prop
  /-- The sessions that such computations may leave. -/
  Later : Session → Session → Prop
  /-- The signals that may be raised in a session. -/
  Allows : Signal → Session → Prop
  /-- The sessions in which the innermost frame may go over to another file. -/
  Enters : Session → Prop
  later_refl : ∀ s, Later s s
  later_trans : ∀ {s s' s''}, Later s s' → Later s' s'' → Later s s''
  allows_thrown : ∀ value s, Allows (.thrown value []) s
  allows_leave : ∀ value s, Allows (.leave value) s
  allows_fatal : ∀ error s, Allows (.fatal error) s
  beside : ∀ {α} {x : Eval α} {s}, Eval.Local x → Holds (fun _ => x) s
  raise : ∀ {α signal s}, Allows signal s → Holds (fun _ => (throw signal : Eval α)) s
  bind : ∀ {α β} {x : ι → Eval α} {f : ι → α → Eval β} {s}, Holds x s →
    (∀ a s', (∃ i, x i s = .ok a s') → Later s s' → Holds (fun i => f i a) s') →
    Holds (fun i => x i >>= f i) s
  recover : ∀ {α} {x : ι → Eval α} {handler : ι → Signal → Eval α} {s}, Holds x s →
    (∀ i lacking, handler i (.outOfFuel lacking) = throw (.outOfFuel lacking)) →
    (∀ signal s', Allows signal s' → Later s s' → Holds (fun i => handler i signal) s') →
    Holds (fun i => Eval.recover (x i) (handler i)) s
  mark : ∀ line s, Holds (fun _ => Eval.mark line) s
  bindName : ∀ name value s, Holds (fun _ => Eval.bindName name value) s
  assign : ∀ name value declare s, Holds (fun _ => Eval.assign name value declare) s
  inFrame : ∀ {α} {name file line} {body : ι → Eval α} {s},
    (s.env.depth < s.maxDepth → Holds body { s with env := s.env.push name file line }) →
    Holds (fun i => Eval.inFrame name file line (body i)) s
  inFile : ∀ {α file} {body : ι → Eval α} {s}, Enters s →
    Holds body { s with env := s.env.setFile file } →
    Holds (fun i => Eval.inFile file (body i)) s
  handling : ∀ {α trace} {body : ι → Eval α} {s},
    Holds body { s with env := s.env.pushSnapshot trace } →
    Holds (fun i => Eval.handling trace (body i)) s
  importing : ∀ relative s,
    Holds (fun _ => (modify fun s => { s with imported := relative :: s.imported } : Eval Unit)) s

namespace Logic

/-- What is allowed of a signal stays so later on, and an exception can be raised again with the
trace that its handler saw. -/
structure Carries {ι : Type} (L : Logic ι) : Prop where
  later : ∀ {signal s s'}, L.Allows signal s → L.Later s s' → L.Allows signal s'
  again : ∀ {signal s} value, L.Allows signal s →
    L.Allows (.thrown value (signal.traceIn s.env)) s

variable {ι α β : Type} (L : Logic ι)

lemma pure (a : α) (s : Session) : L.Holds (fun _ => (Pure.pure a : Eval α)) s :=
  L.beside (.pure a)

lemma fail (fault : Fault) (s : Session) : L.Holds (fun _ => (Eval.fail fault : Eval α)) s :=
  L.beside (.fail fault)

variable {L}

lemma map {x : ι → Eval α} {s : Session} (f : α → β) (hx : L.Holds x s) :
    L.Holds (fun i => f <$> x i) s :=
  L.bind hx fun a s' _ _ => L.pure (f a) s'

/-- A computation beside the stack, and what comes after it. -/
lemma bindLocal {x : Eval α} {f : ι → α → Eval β} {s : Session} (hx : Eval.Local x)
    (hf : ∀ a s', x s = .ok a s' → L.Later s s' → L.Holds (fun i => f i a) s') :
    L.Holds (fun i => x >>= f i) s :=
  L.bind (L.beside hx) fun a s' h hl => h.elim fun _ h => hf a s' h hl

/-! ### What a runner can be relied on for -/

/-- Tasks of a kind can be asked for from a session on. -/
def Grants (L : Logic ι) (run : ι → Runner) (P : Task → Prop) (s : Session) : Prop :=
  ∀ ⦃task s'⦄, P task → L.Later s s' → L.Holds (fun i => run i task) s'

/-- Every task can be asked for from a session on. -/
abbrev Open (L : Logic ι) (run : ι → Runner) (s : Session) : Prop :=
  L.Grants run (fun _ => True) s

/-- Every task can be asked for in a frame that is put on from a session on. -/
def Framed (L : Logic ι) (run : ι → Runner) (s : Session) : Prop :=
  ∀ ⦃s'⦄ name file line, L.Later s s' → s'.env.depth < s'.maxDepth →
    L.Open run { s' with env := s'.env.push name file line }

/-- From a session on, tasks of a kind can be asked for in the innermost frame, and all tasks in a
frame above it, in a module that is imported for the first time, and by the constructor of a class
of exceptions if that is native. -/
structure Serves (L : Logic ι) (run : ι → Runner) (P : Task → Prop) (s : Session) : Prop where
  task : L.Grants run P s
  frame : L.Framed run s
  handler : ∀ {s'} trace, L.Later s s' →
    L.Framed run { s' with env := s'.env.pushSnapshot trace }
  module : ∀ {s' relative}, L.Later s s' → s'.imported.contains relative = false →
    s'.Importable relative →
    L.Open run { s' with imported := relative :: s'.imported, env := s'.env.setFile relative }
  native : ∀ {s' kind c}, L.Later s s' →
    s'.heap.class? (BuiltinClass.error kind).ref = some c → c.synthetic = true → L.Open run s'

variable {run : ι → Runner} {P : Task → Prop} {s s' : Session}

lemma Grants.later (h : L.Grants run P s) (hl : L.Later s s') : L.Grants run P s' :=
  fun _ _ hP hl' => h hP (L.later_trans hl hl')

lemma Grants.now (h : L.Grants run P s) {task : Task} (hP : P task) :
    L.Holds (fun i => run i task) s :=
  h hP (L.later_refl s)

lemma Framed.later (h : L.Framed run s) (hl : L.Later s s') : L.Framed run s' :=
  fun _ name file line hl' hd => h name file line (L.later_trans hl hl') hd

lemma Serves.later (h : L.Serves run P s) (hl : L.Later s s') : L.Serves run P s' where
  task := h.task.later hl
  frame := h.frame.later hl
  handler trace hl' := h.handler trace (L.later_trans hl hl')
  module hl' hn hi := h.module (L.later_trans hl hl') hn hi
  native hl' hc hn := h.native (L.later_trans hl hl') hc hn

/-- A runner that can be relied on everywhere serves all tasks. -/
lemma serves_of_forall (h : ∀ task s, L.Holds (fun i => run i task) s) : L.Serves run P s where
  task _ _ _ _ := h _ _
  frame _ _ _ _ _ _ _ _ _ _ := h _ _
  handler _ _ _ _ _ _ _ _ _ _ _ _ := h _ _
  module _ _ _ _ _ _ _ := h _ _
  native _ _ _ _ _ _ _ := h _ _

end Logic

end Tern
