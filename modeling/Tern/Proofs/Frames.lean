/-
Frame accounting. Whatever is evaluated, and however it ends, the stack is left as it was found:
as many frames, those below the innermost one alike, the innermost one with all the names it had,
and the same failures under handling.

* `Session.Follows`: what one session may have become of another while something ran in its
  innermost frame.
* `Logic.following`: the logic in which this is shown.
* `Eval.keeps_perform`: every task leaves a session that follows.
* `Session.follows_evalSource`: so does every unit of text.
* `Session.accounted_after_any_outcome`: the account of the frames, for all that can be run.
-/
import Tern.Proofs.Balance
import Tern.Proofs.Parts
import Tern.Run

namespace Tern

/-- The second session is one that the first may have become while something ran in its innermost
frame. -/
structure Session.Follows (s s' : Session) : Prop where
  env : s.env.Balanced s'.env
  maxDepth : s'.maxDepth = s.maxDepth
  moduleRoot : s'.moduleRoot = s.moduleRoot
  files : s'.files = s.files
  imported : s.imported ⊆ s'.imported
  heap : s.heap.Grows s'.heap

namespace Session

/-- The session that a computation leaves, however it ends. -/
def after {ε α : Type} (s : Session) (x : EStateM ε Session α) : Session :=
  match x s with
  | .ok _ s' => s'
  | .error _ s' => s'

namespace Follows

variable {s s' s'' : Session}

lemma refl (s : Session) : s.Follows s :=
  ⟨.refl _, rfl, rfl, rfl, fun _ h => h, .refl _⟩

lemma trans (h₁ : s.Follows s') (h₂ : s'.Follows s'') : s.Follows s'' where
  env := h₁.env.trans h₂.env
  maxDepth := h₂.maxDepth.trans h₁.maxDepth
  moduleRoot := h₂.moduleRoot.trans h₁.moduleRoot
  files := h₂.files.trans h₁.files
  imported := List.Subset.trans h₁.imported h₂.imported
  heap := h₁.heap.trans h₂.heap

/-- There are as many frames as before. -/
lemma depth_eq (h : s.Follows s') : s'.env.depth = s.env.depth := h.env.depth_eq

/-- Another environment in both sessions, if it is balanced too. -/
lemma withEnv {e e' : Environment} (h : Session.Follows { s with env := e } s')
    (he : s.env.Balanced e') : s.Follows { s' with env := e' } :=
  { h with env := he }

end Follows

/-- A change beside the stack is one that follows. -/
lemma Beside.follows {s s' : Session} (h : s.Beside s') : s.Follows s' where
  env := h.env ▸ .refl _
  maxDepth := h.maxDepth
  moduleRoot := h.moduleRoot
  files := h.files
  imported := h.imported ▸ fun _ h => h
  heap := h.heap

/-- A change of the environment alone. -/
lemma follows_env {s : Session} {e : Environment} (h : s.env.Balanced e) :
    s.Follows { s with env := e } :=
  (Follows.refl s).withEnv (e := s.env) h

end Session

/-! ### The logic of sessions that follow -/

/-- A computation leaves a session that follows. -/
def Eval.Keeps {α : Type} (x : Eval α) (s : Session) : Prop := s.Follows (s.after x)

namespace Eval.Keeps

variable {α β : Type} {x : Eval α} {s : Session}

/-- The session that is left with a value. -/
lemma ok {a : α} {s' : Session} (h : Keeps x s) (hx : x s = .ok a s') : s.Follows s' := by
  rwa [Keeps, Session.after, hx] at h

/-- The session that is left with a signal. -/
lemma error {signal : Signal} {s' : Session} (h : Keeps x s) (hx : x s = .error signal s') :
    s.Follows s' := by
  rwa [Keeps, Session.after, hx] at h

lemma of_ok {a : α} {s' : Session} (hx : x s = .ok a s') (h : s.Follows s') : Keeps x s := by
  rwa [Keeps, Session.after, hx]

lemma of_error {signal : Signal} {s' : Session} (hx : x s = .error signal s')
    (h : s.Follows s') : Keeps x s := by
  rwa [Keeps, Session.after, hx]

/-- A computation that leaves what another one leaves. -/
lemma of_eq {y : Eval β} {s' : Session} (hy : s.after y = s'.after x) (hs : s.Follows s')
    (hx : Keeps x s') : Keeps y s := by
  rw [Keeps, hy]
  exact hs.trans hx

lemma of_local (h : Eval.Local x) : Keeps x s := by
  have hs := h s
  cases hx : x s with
  | ok a s' =>
      rw [hx] at hs
      exact of_ok hx hs.follows
  | error signal s' =>
      rw [hx] at hs
      exact of_error hx hs.1.follows

lemma bind {f : α → Eval β} (hx : Keeps x s)
    (hf : ∀ a s', x s = .ok a s' → s.Follows s' → Keeps (f a) s') : Keeps (x >>= f) s := by
  cases h : x s with
  | ok a s' =>
      have hs := hx.ok h
      exact of_eq (by simp only [Session.after, Eval.bind_apply, h]) hs (hf a s' h hs)
  | error signal s' => exact of_error (by rw [Eval.bind_apply, h]) (hx.error h)

lemma recover {handler : Signal → Eval α} (hx : Keeps x s)
    (hh : ∀ signal s', s.Follows s' → Keeps (handler signal) s') :
    Keeps (Eval.recover x handler) s := by
  cases h : x s with
  | ok a s' => exact of_ok (a := a) (by simp only [Eval.recover, h]) (hx.ok h)
  | error signal s' =>
      have hs := hx.error h
      exact of_eq (by simp only [Session.after, Eval.recover, h]) hs (hh signal s' hs)

/-- A construct that runs its body in another environment, and afterwards changes the environment
back. -/
lemma lift {y : Eval α} {env : Environment} {back : Environment → Environment}
    (hx : Keeps x { s with env := env })
    (hback : ∀ {env'}, env.Balanced env' → s.env.Balanced (back env'))
    (hok : ∀ {a s'}, x { s with env := env } = .ok a s' →
      y s = .ok a { s' with env := back s'.env })
    (herror : ∀ {signal s'}, x { s with env := env } = .error signal s' →
      ∃ signal', y s = .error signal' { s' with env := back s'.env }) : Keeps y s := by
  cases h : x { s with env := env } with
  | ok a s' =>
      have hs := hx.ok h
      exact of_ok (hok h) (hs.withEnv (hback hs.env))
  | error signal s' =>
      have hs := hx.error h
      obtain ⟨signal', hy⟩ := herror h
      exact of_error hy (hs.withEnv (hback hs.env))

lemma modifyEnv {f : Environment → Environment} (h : s.env.Balanced (f s.env)) :
    Keeps (Eval.modifyEnv f) s :=
  Session.follows_env h

lemma assign (name : String) (v : Value) (declare : Bool) :
    Keeps (Eval.assign name v declare) s := by
  cases declare with
  | false => exact modifyEnv (f := (·.put name v)) (s.env.balanced_put name v)
  | true =>
      refine bind (of_local .get) fun t s₁ ht _ => ?_
      cases ht
      refine bind (of_local (.orFail (s.env.define name v))) fun env s₂ hd _ => ?_
      cases h : s.env.define name v with
      | error fault =>
          simp only [h] at hd
          cases hd
      | ok env =>
          simp only [h] at hd
          cases hd
          exact modifyEnv (f := fun _ => env) (Environment.balanced_of_define h)

lemma inFrame {name file : String} {line : Nat}
    (hx : s.env.depth < s.maxDepth → Keeps x { s with env := s.env.push name file line }) :
    Keeps (Eval.inFrame name file line x) s := by
  by_cases hd : s.env.depth < s.maxDepth
  · have hframe := Eval.inFrame_apply name file line x hd
    exact lift (hx hd) .pop (fun h => by rw [hframe, h]; rfl)
      fun h => ⟨_, by rw [hframe, h]; rfl⟩
  · exact of_error (Eval.inFrame_full name file line x (Nat.le_of_not_lt hd)) (.refl s)

lemma inFile {file : String} (hx : Keeps x { s with env := s.env.setFile file }) :
    Keeps (Eval.inFile file x) s := by
  have hfile := Eval.inFile_apply file x s
  exact lift hx .setFile (fun h => by rw [hfile, h]; rfl) fun h => ⟨_, by rw [hfile, h]; rfl⟩

lemma handling {trace : Trace} (hx : Keeps x { s with env := s.env.pushSnapshot trace }) :
    Keeps (Eval.handling trace x) s := by
  have hhandler := Eval.handling_apply trace x s
  exact lift hx .popSnapshot (fun h => by rw [hhandler, h]; rfl)
    fun h => ⟨_, by rw [hhandler, h]; rfl⟩

end Eval.Keeps

/-- Families of one computation, which leaves a session that follows. -/
def Logic.following : Logic Unit where
  Holds x s := Eval.Keeps (x ()) s
  Later := Session.Follows
  Allows _ _ := True
  Enters _ := True
  later_refl := .refl
  later_trans := .trans
  allows_thrown _ _ := trivial
  allows_leave _ _ := trivial
  allows_fatal _ _ := trivial
  beside := .of_local
  raise _ := Session.Follows.refl _
  bind hx hf := .bind hx fun a s' h => hf a s' ⟨(), h⟩
  recover hx _ hh := .recover hx fun signal s' => hh signal s' trivial
  mark line s := .modifyEnv (s.env.balanced_mark line)
  bindName name v s := .modifyEnv (s.env.balanced_bind name v)
  assign name v declare _ := .assign name v declare
  inFrame := .inFrame
  inFile _ := .inFile
  handling := .handling
  importing _ s := { Session.Follows.refl s with imported := List.subset_cons_self _ _ }

lemma Logic.carries_following : Logic.following.Carries :=
  ⟨fun _ _ => trivial, fun _ _ => trivial⟩

namespace Eval

/-- A loop of any number of rounds. -/
lemma keeps_loopWhile {run : Runner} (h : ∀ task s, Keeps (run task) s) (condition body : Expr)
    (rounds : Nat) (v : Value) (s : Session) : Keeps (loopWhile run condition body rounds v) s := by
  have hs : Logic.following.Open (fun _ => run) s := fun _ _ _ _ => h _ _
  have hl := Logic.loopWhile (fun _ => 0) condition body rounds v hs trivial trivial
    fun {s'} _ _ => Session.Follows.refl s'
  rwa [Nat.zero_add] at hl

/-- Every task leaves a session that follows, whatever the amounts it is given. -/
theorem keeps_perform (rounds calls levels : Nat) (task : Task) (s : Session) :
    Keeps (perform rounds calls levels task) s := by
  induction levels generalizing calls task s with
  | zero => exact Session.Follows.refl s
  | succ levels ih =>
      have hstep : ∀ calls, Keeps (step rounds (perform rounds calls levels) task) s := by
        intro calls
        have hs : Logic.following.Serves (fun _ => perform rounds calls levels) task.Part s :=
          Logic.serves_of_forall (ih calls)
        exact Logic.step (fun _ => rounds) task hs (fun _ _ _ _ _ => ih calls _ _)
          (fun _ c b _ _ => keeps_loopWhile (ih calls) c b rounds .null _)
          (Logic.attempt_of_task Logic.carries_following hs) fun _ _ _ _ => trivial
      cases hf : task.isFrameless with
      | false =>
          rw [perform_succ hf]
          exact hstep calls
      | true =>
          cases calls with
          | zero =>
              rw [perform_frameless_zero hf]
              exact Session.Follows.refl s
          | succ calls =>
              rw [perform_frameless_succ hf]
              exact hstep calls

/-- Every task that a session runs leaves a session that follows. -/
lemma keeps_run (task : Task) (s : Session) : Keeps (run task) s := by
  rw [run]
  exact keeps_perform _ _ _ task s

/-- So does every program. -/
lemma keeps_program (body : List Expr) (s : Session) : Keeps (program run body) s := by
  have hs : Logic.following.Open (fun _ => run) s := fun task s' _ _ => keeps_run task s'
  exact Logic.program body hs fun _ _ => trivial

end Eval

/-! ### Units of text -/

namespace Session

/-- Describing an exception changes nothing but the heap. -/
lemma beside_describe (exception : Value) (s : Session) : s.Beside (describe exception s).2 := by
  cases exception with
  | object r =>
      have hb := Eval.Local.getMember (.object r) "message" s
      simp only [describe]
      cases h : Eval.getMember (.object r) "message" s with
      | ok v s' =>
          rw [h] at hb
          cases v <;> exact hb
      | error signal s' =>
          rw [h] at hb
          exact hb.1
  | _ => exact .refl s

/-- Reporting a signal leaves a session that follows. -/
lemma follows_report (signal : Signal) (s : Session) : s.Follows (report signal s).2 := by
  have hs : Logic.following.Serves (fun _ => Eval.run) (fun _ => True) s :=
    Logic.serves_of_forall Eval.keeps_run
  have hm : Eval.Keeps (Eval.materialize Eval.run signal) s :=
    Logic.materialize signal trivial hs fun _ _ => trivial
  rw [report]
  cases h : Eval.materialize Eval.run signal s with
  | error signal' s' =>
      have hs' := hm.error h
      cases signal' <;> exact hs'
  | ok raised s' =>
      obtain ⟨exception, trace⟩ := raised
      have hd := beside_describe exception { s' with env := s'.env.pushSnapshot trace }
      have hf := hd.follows.withEnv hd.follows.env.popSnapshot
      exact (hm.ok h).trans { hf with }

/-- A unit of text leaves a session that follows, however it ends. -/
theorem follows_evalSource (name text : String) (s : Session) :
    s.Follows (s.after (evalSource name text)) := by
  rw [after, evalSource]
  cases parse name text with
  | error e => exact .refl s
  | ok body =>
      have hp := Eval.keeps_program body { s with env := s.env.setFile name }
      -- The unit is balanced, so that no frame is left to be taken off.
      have restore : ∀ s', Session.Follows { s with env := s.env.setFile name } s' →
          s.Follows { s' with env := (s'.env.truncate s.env.depth).setFile s.env.file } := by
        intro s' h
        have hd : s'.env.depth = s.env.depth := h.depth_eq
        rw [← hd, Environment.truncate_depth]
        exact h.withEnv h.env.setFile
      cases h : Eval.program Eval.run body { s with env := s.env.setFile name } with
      | ok v s' =>
          simp only [h]
          exact restore s' (hp.ok h)
      | error signal s' =>
          simp only [h]
          exact restore _ ((hp.error h).trans (follows_report signal s'))

/-! ### The account of the frames -/

/-- What the end of an evaluation owes to the stack it began with. -/
structure Accounted (s s' : Session) : Prop where
  depth : s'.env.depth = s.env.depth
  snapshots : s'.env.snapshots = s.env.snapshots
  /-- The frames below the innermost one differ in the values of their names at most. -/
  below : List.Forall₂ Frame.Alike s.env.below s'.env.below
  name : s'.env.top.name = s.env.top.name
  file : s'.env.top.file = s.env.top.file
  /-- The innermost frame has lost no name. -/
  names : ∀ name, s.env.top.vars.has name = true → s'.env.top.vars.has name = true
  maxDepth : s'.maxDepth = s.maxDepth

lemma Follows.accounted {s s' : Session} (h : s.Follows s') : s.Accounted s' :=
  ⟨h.depth_eq, h.env.snapshots, h.env.below, h.env.name, h.env.file, h.env.names, h.maxDepth⟩

/-- **Frame accounting.** Whatever is evaluated or called, whichever class is instantiated, pattern
matched, text run or module imported, and whichever amounts it is given: however it ends, the
frames add up. After a unit of text the global frame still has all its names. -/
theorem accounted_after_any_outcome (rounds calls levels : Nat) (s : Session) :
    let run := Eval.perform rounds calls levels
    (∀ e, s.Accounted (s.after (run (.expr e)))) ∧
    (∀ callee arguments, s.Accounted (s.after (run (.call callee arguments)))) ∧
    (∀ ref arguments, s.Accounted (s.after (Eval.instantiate run ref arguments))) ∧
    (∀ mode pattern v, s.Accounted (s.after (Eval.matchPattern run mode pattern v))) ∧
    (∀ source text, s.Accounted (s.after (Eval.inPlace run source text))) ∧
    (∀ segments, s.Accounted (s.after (Eval.importModule run segments))) ∧
    ∀ name text, s.Accounted (s.after (evalSource name text)) ∧
      ∀ n, s.env.global.vars.has n = true →
        (s.after (evalSource name text)).env.global.vars.has n = true := by
  intro run
  have hs : Logic.following.Serves (fun _ => run) (fun _ => True) s :=
    Logic.serves_of_forall (Eval.keeps_perform rounds calls levels)
  refine ⟨fun e => ?_, fun callee arguments => ?_, fun ref arguments => ?_,
    fun mode pattern v => ?_, fun source text => ?_, fun segments => ?_, fun name text => ?_⟩
  · exact (Eval.keeps_perform rounds calls levels _ s).accounted
  · exact (Eval.keeps_perform rounds calls levels _ s).accounted
  · exact (Logic.instantiate ref arguments hs (fun _ => trivial)
      fun _ _ hl _ _ => hs.task.later hl).accounted
  · exact (Logic.matchPattern mode pattern v hs.task fun _ _ => trivial).accounted
  · exact (Logic.inPlace source text hs.task fun _ => trivial).accounted
  · exact (Logic.importModule segments hs fun _ => trivial).accounted
  · have hf := follows_evalSource name text s
    exact ⟨hf.accounted, fun n hn => hf.env.global_names hn⟩

end Session

end Tern
