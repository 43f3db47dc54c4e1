/-
Traces and the stack. The trace of a failure is taken once, where the first frame is left, and is
then carried through the frames below and through every handler that passes the failure on. When it
arrives, its last entries are still those of the stack that it arrives at: each frame by its name,
by its file and by the line at which it stands. Only the innermost frame may have been in another
file meanwhile, that of a module whose import failed in it.

* `Session.Shows`: the end of a trace shows the stack, and the trace is within the limit.
* `Eval.env_materialize`, `Eval.trace_runClauses`: handling a failure leaves every frame where it
  stands.
* `Logic.tracing`: the logic in which this is shown.
* `Eval.traces_perform`: whatever trace a task ends with shows the stack.
* `Session.Importing`: an import in the innermost frame that failed on the way.
* `Session.trace_shows_stack`: what the trace of an expression tells of the stack, and the trace
  that a handler is given.
-/
import Tern.Proofs.Attempt
import Tern.Proofs.TraceFiles

namespace Tern

namespace Environment

variable {e e' : Environment}

/-- Stacks with the same trace have the same one in every other file. -/
lemma trace_setFile_congr (h : e'.trace = e.trace) (file : String) :
    (e'.setFile file).trace = (e.setFile file).trace := by
  have htop : e'.top.entry = e.top.entry := (List.cons.inj h).1
  have hbelow : e'.below.map (·.entry) = e.below.map (·.entry) := (List.cons.inj h).2
  calc (e'.setFile file).trace
      = { e'.top.entry with file } :: e'.below.map (·.entry) := rfl
    _ = { e.top.entry with file } :: e.below.map (·.entry) := by rw [htop, hbelow]
    _ = (e.setFile file).trace := rfl

/-- A frame that was put on and taken off again has left the others where they stand. -/
lemma Balanced.trace_pop {name file : String} {line : Nat}
    (h : (e.push name file line).Balanced e') : e'.pop.trace = e.trace := by
  obtain ⟨top, below, snapshots⟩ := e'
  have hbelow : List.Forall₂ Frame.Alike (e.top :: e.below) below := h.below
  cases hbelow with
  | cons htop hrest =>
      refine Frame.map_of_forall₂ (fun hf => ?_) (.cons htop hrest)
      rw [Frame.entry, hf.name, hf.file, hf.line]
      rfl

end Environment

/-! ### Traces that show a stack -/

/-- The last entries of a trace are those of all frames, but for the file of the innermost one, and
the trace has no more entries than there may be frames. -/
structure Session.Shows (s : Session) (trace : Trace) : Prop where
  entries : ∃ file, (s.env.setFile file).trace <:+ trace
  limit : trace.length ≤ s.maxDepth

/-- The trace of a signal, if it has one, shows the stack. -/
def Signal.Fits (s : Session) (signal : Signal) : Prop :=
  signal.trace ≠ [] → s.Shows signal.trace

/-- A session with the library and with no more frames than there may be. -/
structure Session.Orderly (s : Session) : Prop where
  library : s.HasLibrary
  depth : s.env.depth ≤ s.maxDepth

namespace Session

variable {s s' : Session} {trace : Trace}

/-- The trace of the stack itself shows it. -/
lemma shows_trace (h : s.env.depth ≤ s.maxDepth) : s.Shows s.env.trace :=
  ⟨⟨s.env.file, List.suffix_refl _⟩, by rwa [Environment.length_trace]⟩

/-- What shows a stack shows every stack whose frames stand at the same places. -/
lemma Shows.of_trace (h : s.Shows trace) (ht : s'.env.trace = s.env.trace)
    (hm : s'.maxDepth = s.maxDepth) : s'.Shows trace := by
  obtain ⟨file, hsuffix⟩ := h.entries
  exact ⟨⟨file, by rwa [Environment.trace_setFile_congr ht]⟩, hm ▸ h.limit⟩

/-- It shows the stack without the innermost frame. -/
lemma Shows.pop (h : s.Shows trace) : Shows { s with env := s.env.pop } trace := by
  obtain ⟨file, hsuffix⟩ := h.entries
  refine ⟨?_, h.limit⟩
  cases hb : s.env.below with
  | nil =>
      rw [Environment.pop, hb]
      exact ⟨file, hsuffix⟩
  | cons f rest =>
      rw [Environment.pop, hb]
      have hbelow := (s.env.map_entry_below_suffix file).trans hsuffix
      rw [hb] at hbelow
      exact ⟨f.file, hbelow⟩

lemma Orderly.follows (h : s.Orderly) (hf : s.Follows s') : s'.Orderly :=
  ⟨hf.hasLibrary h.library, by rw [hf.depth_eq, hf.maxDepth]; exact h.depth⟩

lemma Orderly.push (h : s.Orderly) (hd : s.env.depth < s.maxDepth) (name file : String)
    (line : Nat) : Orderly { s with env := s.env.push name file line } :=
  ⟨h.library, hd⟩

lemma Orderly.setFile (h : s.Orderly) (file : String) :
    Orderly { s with env := s.env.setFile file } :=
  ⟨h.library, h.depth⟩

lemma Orderly.pushSnapshot (h : s.Orderly) (trace : Trace) :
    Orderly { s with env := s.env.pushSnapshot trace } :=
  ⟨h.library, h.depth⟩

end Session

namespace Signal

variable {s s' : Session} {signal : Signal}

/-- A signal without a trace. -/
lemma fits_of_nil (h : signal.trace = []) : signal.Fits s := fun ht => absurd h ht

/-- A signal that gets the trace of the stack fits it. -/
lemma Fits.traced (h : signal.Fits s) (hd : s.env.depth ≤ s.maxDepth) :
    (signal.traced s.env).Fits s := by
  intro ht
  obtain heq | heq := signal.trace_traced s.env
  · rw [heq] at ht ⊢
    exact h ht
  · rw [heq]
    exact Session.shows_trace hd

end Signal

/-! ### Handling a failure moves no frame -/

namespace Eval

variable {α β : Type} {s s' : Session}

/-- A body in a frame of its own leaves the frames below where they stand. -/
lemma trace_inFrame {x : Eval α} {name file : String} {line : Nat} {a : α}
    (hx : Keeps x { s with env := s.env.push name file line })
    (h : inFrame name file line x s = .ok a s') : s'.env.trace = s.env.trace := by
  by_cases hd : s.env.depth < s.maxDepth
  · rw [inFrame_apply name file line x hd] at h
    cases hb : x { s with env := s.env.push name file line } with
    | error signal s₁ =>
        rw [hb] at h
        cases h
    | ok b s₁ =>
        rw [hb] at h
        cases h
        exact (hx.ok hb).env.trace_pop
  · rw [inFrame_full name file line x (Nat.le_of_not_lt hd)] at h
    cases h

/-- So do clauses, each of which is tried in a frame of its own. -/
lemma trace_runClauses {run : Runner} (hrun : ∀ task s, Keeps (run task) s) {frame : String}
    {v : Value} {clauses : List (Expr × Expr)} {outcome : Option Value}
    (h : runClauses run frame v clauses s = .ok outcome s') : s'.env.trace = s.env.trace := by
  induction clauses generalizing s with
  | nil =>
      cases h
      rfl
  | cons clause rest ih =>
      rw [runClauses, bind_apply] at h
      cases hc : tryClause run frame v clause s with
      | error signal s₁ =>
          rw [hc] at h
          cases h
      | ok tried s₁ =>
          have hkeeps : Keeps (do
              if ← matchPattern run .fresh clause.1 v then some <$> run (.expr clause.2)
              else return none)
              { s with env := s.env.push frame clause.1.source clause.1.line } := by
            refine (Attempt.keeps_matchPattern hrun clause.1 _).bind fun fits s₂ _ _ => ?_
            cases fits with
            | true =>
                exact Logic.map (L := Logic.following) (x := fun _ => run (.expr clause.2)) some
                  (hrun (.expr clause.2) s₂)
            | false => exact Session.Follows.refl s₂
          have hp := trace_inFrame hkeeps hc
          rw [hc] at h
          cases tried with
          | some w =>
              cases h
              exact hp
          | none => exact (ih h).trans hp

/-- Without a way to call the constructor there is no exception. -/
lemma instantiate_error_of_throw {run : Runner} {signal : Signal} (kind : ErrorKind)
    (message : Value) (hl : s.HasLibrary) (hd : s.env.depth < s.maxDepth)
    (hrun : ∀ r, run (.call (.bound ⟨30⟩ (.object r)) [message]) = throw signal) :
    instantiate run (BuiltinClass.error kind).ref [message] s =
      .error signal { s with heap := (s.heap.addException kind .null).2 } := by
  have hk := hl.class? (Library.class?_error kind)
  simp only [instantiate, bind_apply, heap_apply, hk, Library.errorClass, Bool.false_eq_true,
    if_false, construct_error kind hl hd, findMember?_init kind .null hl, hrun]
  rfl

/-- The exception of a failure is made beside the stack. -/
lemma env_materialize {rounds calls levels : Nat} {signal : Signal} {v : Value} {trace : Trace}
    (hl : s.HasLibrary)
    (h : materialize (perform rounds calls levels) signal s = .ok (v, trace) s') :
    s'.env = s.env := by
  cases signal with
  | thrown w t =>
      cases h
      rfl
  | leave => cases h
  | fatal => cases h
  | outOfFuel => cases h
  | fault cause t =>
      by_cases hd : s.env.depth < s.maxDepth
      · cases levels with
        | zero =>
            rw [materialize, bind_apply, instantiate_error_of_throw _ _ hl hd fun _ => rfl] at h
            cases h
        | succ levels =>
            cases calls with
            | zero =>
                rw [materialize, bind_apply, instantiate_error_of_throw _ _ hl hd fun r =>
                  perform_frameless_zero rfl] at h
                cases h
            | succ calls =>
                rw [materialize_fault rounds calls levels cause t hl hd] at h
                cases h
                rfl
      · rw [materialize_fault_full cause t hl (Nat.le_of_not_lt hd)] at h
        cases h

/-! ### The logic of traces -/

/-- From an orderly session on, a computation leaves a session that follows, and a signal that it
ends in fits the stack. -/
def Traces (x : Eval α) (s : Session) : Prop :=
  s.Orderly → Keeps x s ∧ ∀ signal s', x s = .error signal s' → signal.Fits s'

namespace Traces

variable {x : Eval α}

lemma of_local (h : Local x) : Traces x s := by
  refine fun _ => ⟨.of_local h, fun signal s' hx => ?_⟩
  have hs := h s
  rw [hx] at hs
  obtain ⟨-, fault, rfl⟩ := hs
  exact Signal.fits_of_nil rfl

lemma raise {signal : Signal} (h : signal.Fits s) : Traces (throw signal : Eval α) s := by
  refine fun _ => ⟨Session.Follows.refl s, fun signal' s' hx => ?_⟩
  cases hx
  exact h

/-- A computation that always has a value. -/
lemma of_ok {a : α} (hx : x s = .ok a s') (h : s.Follows s') : Traces x s := by
  refine fun _ => ⟨.of_ok hx h, fun signal s'' hx' => ?_⟩
  rw [hx] at hx'
  cases hx'

lemma bind {f : α → Eval β} (hx : Traces x s)
    (hf : ∀ a s', x s = .ok a s' → s.Follows s' → Traces (f a) s') : Traces (x >>= f) s := by
  intro ho
  obtain ⟨hk, hfits⟩ := hx ho
  refine ⟨hk.bind fun a s' h hl => (hf a s' h hl (ho.follows hl)).1, fun signal s' h => ?_⟩
  rw [bind_apply] at h
  cases hr : x s with
  | ok a s₁ =>
      rw [hr] at h
      have hl := hk.ok hr
      exact (hf a s₁ hr hl (ho.follows hl)).2 signal s' h
  | error signal₁ s₁ =>
      rw [hr] at h
      cases h
      exact hfits _ _ hr

lemma recover {handler : Signal → Eval α} (hx : Traces x s)
    (hh : ∀ signal s', signal.Fits s' → s.Follows s' → Traces (handler signal) s') :
    Traces (Eval.recover x handler) s := by
  intro ho
  obtain ⟨hk, hfits⟩ := hx ho
  cases hr : x s with
  | ok a s₁ => exact of_ok (a := a) (by simp only [Eval.recover, hr]) (hk.ok hr) ho
  | error signal₁ s₁ =>
      have hl := hk.error hr
      have hrec : Eval.recover x handler s = handler signal₁ s₁ := by
        simp only [Eval.recover, hr]
      obtain ⟨hk', hfits'⟩ := hh signal₁ s₁ (hfits _ _ hr) hl (ho.follows hl)
      refine ⟨.of_eq (by simp only [Session.after, hrec]) hl hk', fun signal s' h => ?_⟩
      rw [hrec] at h
      exact hfits' signal s' h

/-- Assigning fails at most because a name is not new. -/
lemma assign (name : String) (v : Value) (declare : Bool) :
    Traces (Eval.assign name v declare) s := by
  cases declare with
  | false => exact of_ok rfl (Session.follows_env (s.env.balanced_put name v))
  | true =>
      refine bind (of_local .get) fun t s₁ ht _ => ?_
      cases ht
      refine bind (of_local (.orFail (s.env.define name v))) fun env s₂ hd _ => ?_
      cases h : s.env.define name v with
      | error fault =>
          simp only [h] at hd
          cases hd
      | ok env =>
          simp only [h] at hd
          cases hd
          exact of_ok rfl (Session.follows_env (Environment.balanced_of_define h))

lemma inFrame {name file : String} {line : Nat}
    (hx : s.env.depth < s.maxDepth → Traces x { s with env := s.env.push name file line }) :
    Traces (Eval.inFrame name file line x) s := by
  intro ho
  by_cases hd : s.env.depth < s.maxDepth
  · have hp := ho.push hd name file line
    obtain ⟨hk, hfits⟩ := hx hd hp
    refine ⟨.inFrame fun _ => hk, fun signal s' h => ?_⟩
    rw [inFrame_apply name file line x hd] at h
    obtain ⟨raised, s₁, hr, rfl, rfl⟩ := exists_of_leaveFrame_eq_error h
    have ho₁ := hp.follows (hk.error hr)
    exact fun ht => ((hfits _ _ hr).traced ho₁.depth ht).pop
  · have hfull := Eval.inFrame_full name file line x (Nat.le_of_not_lt hd)
    refine ⟨.of_error hfull (.refl s), fun signal s' h => ?_⟩
    rw [hfull] at h
    cases h
    exact Signal.fits_of_nil rfl

lemma inFile {file : String} (hx : Traces x { s with env := s.env.setFile file }) :
    Traces (Eval.inFile file x) s := by
  intro ho
  have hf := ho.setFile file
  obtain ⟨hk, hfits⟩ := hx hf
  refine ⟨.inFile hk, fun signal s' h => ?_⟩
  rw [inFile_apply] at h
  obtain ⟨raised, s₁, hr, rfl, rfl⟩ := exists_of_leaveFile_eq_error h
  have ho₁ := hf.follows (hk.error hr)
  intro ht
  have hshows := (hfits _ _ hr).traced ho₁.depth ht
  exact ⟨hshows.entries, hshows.limit⟩

lemma handling {trace : Trace} (hx : Traces x { s with env := s.env.pushSnapshot trace }) :
    Traces (Eval.handling trace x) s := by
  intro ho
  obtain ⟨hk, hfits⟩ := hx (ho.pushSnapshot trace)
  refine ⟨.handling hk, fun signal s' h => ?_⟩
  rw [handling_apply] at h
  obtain ⟨s₁, hr, rfl⟩ := exists_of_leaveHandler_eq_error h
  exact fun ht => (hfits _ _ hr ht).of_trace rfl rfl

end Traces

end Eval

/-- Families of one computation whose traces show the stack. -/
def Logic.tracing : Logic Unit where
  Holds x s := Eval.Traces (x ()) s
  Later := Session.Follows
  Allows signal s := signal.Fits s
  Enters _ := True
  later_refl := .refl
  later_trans := .trans
  allows_thrown _ _ := Signal.fits_of_nil rfl
  allows_leave _ _ := Signal.fits_of_nil rfl
  allows_fatal _ _ := Signal.fits_of_nil rfl
  beside := .of_local
  raise := .raise
  bind hx hf := .bind hx fun a s' h => hf a s' ⟨(), h⟩
  recover hx _ hh := .recover hx hh
  mark line s := .of_ok rfl (Session.follows_env (s.env.balanced_mark line))
  bindName name v s := .of_ok rfl (Session.follows_env (s.env.balanced_bind name v))
  assign name v declare _ := .assign name v declare
  inFrame := .inFrame
  inFile _ := .inFile
  handling := .handling
  importing relative s := .of_ok rfl (Logic.following.importing relative s)

namespace Eval

/-- The trace that a handler is given shows the stack. -/
lemma shows_of_materialize {rounds calls levels : Nat} {signal : Signal} {v : Value}
    {trace : Trace} {s s' : Session} (hfits : signal.Fits s) (ho : s.Orderly)
    (h : materialize (perform rounds calls levels) signal s = .ok (v, trace) s') :
    s.Shows trace := by
  have henv := env_materialize ho.library h
  have ht := Logic.trace_of_materialize h
  rw [henv] at ht
  subst ht
  cases signal with
  | fault cause trace =>
      cases trace with
      | nil => exact Session.shows_trace ho.depth
      | cons => exact hfits (List.cons_ne_nil _ _)
  | thrown w trace =>
      cases trace with
      | nil => exact Session.shows_trace ho.depth
      | cons => exact hfits (List.cons_ne_nil _ _)
  | leave => cases h
  | fatal => cases h
  | outOfFuel => cases h

section Attempts

variable {rounds calls levels : Nat} {s : Session}
  (h : ∀ task s, Traces (perform rounds calls levels task) s)

include h

/-- A failure that is passed on leaves the handler with the trace it came with, and with every
frame where it stood. -/
lemma traces_handle (clauses : List (Expr × Expr)) {signal : Signal} (hfits : signal.Fits s) :
    Traces (handle (perform rounds calls levels) clauses signal) s := by
  intro ho
  have hs : Logic.tracing.Serves (fun _ => perform rounds calls levels) (fun _ => True) s :=
    Logic.serves_of_forall h
  refine Traces.bind (Logic.materialize signal hfits hs fun _ _ => trivial)
    (fun raised s₁ hr hl₁ => ?_) ho
  obtain ⟨v, trace⟩ := raised
  refine Traces.bind (.handling (Logic.runClauses "<catch>" v clauses (hs.handler trace hl₁)))
    fun outcome s₂ hout hl₂ => ?_
  cases outcome with
  | some w => exact .of_ok rfl (.refl s₂)
  | none =>
      have hshows := shows_of_materialize hfits ho hr
      have henv := env_materialize ho.library hr
      have htrace : s₂.env.trace = s₁.env.trace := by
        rw [handling_apply] at hout
        cases hc : runClauses (perform rounds calls levels) "<catch>" v clauses
            { s₁ with env := s₁.env.pushSnapshot trace } with
        | error signal s₃ =>
            rw [hc] at hout
            cases hout
        | ok outcome s₃ =>
            rw [hc] at hout
            cases hout
            have hp := trace_runClauses (keeps_perform rounds calls levels) hc
            exact hp
      refine .raise fun _ => hshows.of_trace ?_ (hl₁.trans hl₂).maxDepth
      rw [htrace, henv]

/-- So an attempt ends with traces that show the stack. -/
lemma traces_attempt (body : Expr) (clauses : List (Expr × Expr)) :
    Traces (attempt (perform rounds calls levels) body clauses) s :=
  .recover (h (.expr body) s) fun _ _ hfits _ => traces_handle h clauses hfits

lemma traces_loopWhile (condition body : Expr) (v : Value) :
    Traces (loopWhile (perform rounds calls levels) condition body rounds v) s := by
  have hs : Logic.tracing.Open (fun _ => perform rounds calls levels) s := fun _ _ _ _ => h _ _
  have hnone : ∀ s', Traces (throw (.outOfFuel .rounds) : Eval Value) s' := fun _ =>
    .raise (Signal.fits_of_nil rfl)
  have hl := Logic.loopWhile (fun _ => 0) condition body rounds v hs trivial trivial
    fun {s'} _ _ => hnone s'
  rwa [Nat.zero_add] at hl

end Attempts

/-- Whatever trace a task ends with shows the stack. -/
theorem traces_perform (rounds calls levels : Nat) (task : Task) (s : Session) :
    Traces (perform rounds calls levels task) s := by
  induction levels generalizing calls task s with
  | zero => exact .raise (Signal.fits_of_nil rfl)
  | succ levels ih =>
      have hstep : ∀ calls, Traces (step rounds (perform rounds calls levels) task) s := by
        intro calls
        have hs : Logic.tracing.Serves (fun _ => perform rounds calls levels) task.Part s :=
          Logic.serves_of_forall (ih calls)
        exact Logic.step (fun _ => rounds) task hs (fun _ _ _ _ _ => ih calls _ _)
          (fun _ c b _ _ => traces_loopWhile (ih calls) c b .null)
          (fun _ b c _ _ => traces_attempt (ih calls) b c) fun _ _ _ _ => trivial
      cases hf : task.isFrameless with
      | false =>
          rw [perform_succ hf]
          exact hstep calls
      | true =>
          cases calls with
          | zero =>
              rw [perform_frameless_zero hf]
              exact .raise (Signal.fits_of_nil rfl)
          | succ calls =>
              rw [perform_frameless_succ hf]
              exact hstep calls

end Eval

/-! ### Traces of expressions, and traces under handling -/

namespace Session

/-- While an expression is evaluated, a module is imported in the innermost frame, and its import
ends with a trace. -/
def Importing (rounds calls levels : Nat) (s : Session) (e : Expr) (trace : Trace)
    (file : String) : Prop :=
  ∃ m segments text, Eval.Comes rounds calls levels (fun run => run (.expr e)) s m ∧
    m.session.env.depth = s.env.depth ∧ m.Runs segments text ∧ Module.path segments = file ∧
    m.EndsWith rounds trace

/-- What a trace tells of a stack with which something was begun, by the time it has ended. The
innermost frame may have been in the file of an import meanwhile. -/
structure Tells (s s' : Session) (trace : Trace) (importing : String → Prop) : Prop where
  /-- There are as many frames as at the beginning, under the same names and in the same files. -/
  names : s'.env.frames.map (·.name) = s.env.frames.map (·.name)
  files : s'.env.frames.map (·.file) = s.env.frames.map (·.file)
  depth_le : s.env.depth ≤ trace.length
  length_le : trace.length ≤ s.maxDepth
  /-- The last entry tells of the global frame and of the line at which it stands now. -/
  last : trace.getLast?.map (fun entry => (entry.function, entry.line)) =
    some (s'.env.global.name, s'.env.global.line)
  /-- The last entries are those of the frames as they stand now, with their names, files and lines;
  the innermost one is in its own file, unless an import failed in it. -/
  entries : ∃ file, trace.drop (trace.length - s.env.depth) = (s'.env.setFile file).trace ∧
    (file = s'.env.file ∨ importing file)

/-- The last entry of the trace of a stack is that of the global frame. -/
lemma getLast?_trace_setFile (e : Environment) (file : String) :
    (e.setFile file).trace.getLast?.map (fun entry => (entry.function, entry.line)) =
      some (e.global.name, e.global.line) := by
  obtain ⟨top, below, snapshots⟩ := e
  cases hb : below.getLast? with
  | none =>
      rw [List.getLast?_eq_none_iff] at hb
      subst hb
      rfl
  | some f => simp [Environment.trace, Environment.frames, Environment.setFile, Environment.global,
      List.getLast?_cons, List.getLast?_map, hb, Frame.entry]

/-- What a trace tells that shows the stack. -/
lemma Shows.tells {s s' : Session} {trace : Trace} {importing : String → Prop}
    (h : s'.Shows trace) (hf : s.Follows s')
    (hfile : ∀ file, trace.fileAt? s.env.below.length = some file →
      file = s'.env.file ∨ importing file) : s.Tells s' trace importing := by
  obtain ⟨file, hsuffix⟩ := h.entries
  have hlen : (s'.env.setFile file).trace.length = s.env.depth := by
    rw [Environment.length_trace]
    exact hf.depth_eq
  refine ⟨hf.env.names_eq, hf.env.files_eq, hlen ▸ hsuffix.length_le, hf.maxDepth ▸ h.limit, ?_,
    file, ?_, hfile file ?_⟩
  · obtain ⟨inner, rfl⟩ := hsuffix
    rw [List.getLast?_append, ← getLast?_trace_setFile s'.env file]
    rfl
  · rw [← hlen]
    exact (List.suffix_iff_eq_drop.mp hsuffix).symm
  · rw [← Trace.fileAt?_of_suffix hsuffix (hlen ▸ Nat.lt_succ_self _)]
    exact Environment.fileAt?_top hf.depth_eq

lemma Tells.handling {s s' : Session} {trace : Trace} {importing : String → Prop}
    (h : s.Tells s' trace importing) : s.Tells (Attempt.beginHandling s' trace) trace importing :=
  ⟨h.names, h.files, h.depth_le, h.length_le, h.last, h.entries⟩

section

variable {rounds calls levels : Nat} {s s' : Session} {e : Expr} {signal : Signal} {trace : Trace}

/-- The innermost frame has the file that a trace tells of, unless an import failed in it. -/
lemma file_eq_or_importing
    (h : Eval.perform rounds calls levels (.expr e) s = .error signal s') (hf : s.Follows s')
    (ht : trace ≠ []) (heq : signal.trace = trace) {file : String}
    (hfile : trace.fileAt? s.env.below.length = some file) :
    file = s'.env.file ∨ s.Importing rounds calls levels e trace file := by
  have hcases : s'.Filed trace s.env.below.length ∨ _ := Eval.file_of_perform ht h heq
  obtain hfiled | ⟨m, hm, hcomes⟩ := hcases
  · have hsame := hfiled (hf.depth_eq ▸ Nat.lt_succ_self _)
    rw [Environment.fileAt?_top hf.depth_eq, hfile] at hsame
    exact .inl (Option.some.inj hsame).symm
  · obtain ⟨⟨segments, text, hruns, hpath⟩, hdepth, hends⟩ := hm
    have hpath : Module.path segments = file := Option.some.inj (hpath.symm.trans hfile)
    exact .inr ⟨m, segments, text, hcomes, hdepth, hruns, hpath, hends⟩

/-- What the trace tells that an expression ends with. -/
lemma tells_of_perform (ho : s.Orderly)
    (h : Eval.perform rounds calls levels (.expr e) s = .error signal s') (ht : trace ≠ [])
    (heq : signal.trace = trace) :
    s.Tells s' trace (s.Importing rounds calls levels e trace) := by
  obtain ⟨hk, hfits⟩ := Eval.traces_perform rounds calls levels (.expr e) s ho
  have hf := hk.error h
  have hshows := hfits signal s' h
  rw [Signal.Fits, heq] at hshows
  exact (hshows ht).tells hf fun _ => file_eq_or_importing h hf ht heq

/-- What the trace tells that a handler is given. -/
lemma tells_of_materialize {v : Value} {s₁ s₂ : Session} (ho : s.Orderly)
    (hb : Eval.perform rounds calls levels (.expr e) s = .error signal s₁)
    (hm : Eval.materialize (Eval.perform rounds calls levels) signal s₁ = .ok (v, trace) s₂) :
    s.Tells s₂ trace (s.Importing rounds calls levels e trace) := by
  obtain ⟨hk, hfits⟩ := Eval.traces_perform rounds calls levels (.expr e) s ho
  have hf := hk.error hb
  have ho₁ := ho.follows hf
  have henv := Eval.env_materialize ho₁.library hm
  have hs : Logic.following.Serves (fun _ => Eval.perform rounds calls levels) (fun _ => True) s₁ :=
    Logic.serves_of_forall (Eval.keeps_perform rounds calls levels)
  have hk' : Eval.Keeps (Eval.materialize (Eval.perform rounds calls levels) signal) s₁ :=
    Logic.materialize signal trivial hs fun _ _ => trivial
  have hf₂ := hf.trans (hk'.ok hm)
  have hshows : s₂.Shows trace := (Eval.shows_of_materialize (hfits signal s₁ hb) ho₁ hm).of_trace
    (by rw [henv]) (hk'.ok hm).maxDepth
  refine hshows.tells hf₂ fun file hfile => ?_
  -- The failure brought its trace with it, or it was taken from the stack as it is.
  have hin := Logic.trace_of_materialize hm
  obtain heq | heq := signal.traceIn_eq s₂.env
  · have ht : trace ≠ [] := by
      rintro rfl
      cases hfile
    rw [henv]
    exact file_eq_or_importing hb hf ht (hin.trans heq).symm hfile
  · rw [hin, heq, Environment.fileAt?_top hf₂.depth_eq] at hfile
    exact .inl (Option.some.inj hfile).symm

end

/-- **Traces extend the stack and keep to the limit.** An expression is evaluated on a stack within
the limit. If it ends in a failure or a raised value with a trace, the trace has at least as many
entries as there are frames and no more than there may be, and its last entries are those of the
frames as they stand at the end, each by its name, file and line; only for the innermost frame the
file may be another, that of a module whose import in this frame ended with this very trace. The
same holds of the trace that lies on top of the traces under handling while the clauses of an
attempt are tried. -/
theorem trace_shows_stack (rounds calls levels : Nat) (s : Session) (hl : s.HasLibrary)
    (hd : s.env.depth ≤ s.maxDepth) :
    let run := Eval.perform rounds calls levels
    (∀ e cause trace s', run (.expr e) s = .error (.fault cause trace) s' → trace ≠ [] →
      s.Tells s' trace (s.Importing rounds calls levels e trace)) ∧
    (∀ e v trace s', run (.expr e) s = .error (.thrown v trace) s' → trace ≠ [] →
      s.Tells s' trace (s.Importing rounds calls levels e trace)) ∧
    ∀ body clauses signal s₁ v trace s₂, run (.expr body) s = .error signal s₁ →
      Eval.materialize run signal s₁ = .ok (v, trace) s₂ →
      let handler := Attempt.beginHandling s₂ trace
      Eval.attempt run body clauses s =
        Attempt.concluded v trace (Eval.runClauses run "<catch>" v clauses handler) ∧
      handler.env.snapshots = trace :: s.env.snapshots ∧
      s.Tells handler trace (s.Importing rounds calls levels body trace) := by
  intro run
  have ho : s.Orderly := ⟨hl, hd⟩
  refine ⟨fun e cause trace s' h ht => tells_of_perform ho h ht rfl,
    fun e v trace s' h ht => tells_of_perform ho h ht rfl,
    fun body clauses signal s₁ v trace s₂ hb hm => ?_⟩
  have hf : s.Follows s₁ := (Eval.keeps_perform rounds calls levels (.expr body) s).error hb
  refine ⟨?_, ?_, (tells_of_materialize ho hb hm).handling⟩
  · simp only [Eval.attempt, Eval.recover, hb]
    exact Attempt.handle_of_materialize hm
  · change trace :: s₂.env.snapshots = _
    rw [Eval.env_materialize (ho.follows hf).library hm, hf.env.snapshots]

/-- A block with a name that is not bound. -/
def missingInBlock : Expr := .node default (.block [.node default (.name "missing")])

/-- A name that is not bound, in a block: the trace has an entry for the block and one for the
global frame. -/
theorem trace_shows_stack_block :
    initial.HasLibrary ∧ initial.env.depth ≤ initial.maxDepth ∧
    ∃ cause trace s',
      Eval.perform 0 0 2 (.expr missingInBlock) initial = .error (.fault cause trace) s' ∧
      trace ≠ [] ∧ trace.length = 2 ∧
      initial.Tells s' trace (initial.Importing 0 0 2 missingInBlock trace) := by
  have hd : initial.env.depth ≤ initial.maxDepth := by decide
  have he : ∃ cause trace s',
      Eval.perform 0 0 2 (.expr missingInBlock) initial = .error (.fault cause trace) s' ∧
      trace ≠ [] ∧ trace.length = 2 := ⟨_, _, _, rfl, List.cons_ne_nil _ _, rfl⟩
  obtain ⟨cause, trace, s', he, ht, hlen⟩ := he
  exact ⟨hasLibrary_initial, hd, cause, trace, s', he, ht, hlen,
    (trace_shows_stack 0 0 2 initial hasLibrary_initial hd).1 _ _ _ _ he ht⟩

end Session

end Tern
