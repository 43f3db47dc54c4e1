/-
The files that a trace tells of. A frame stands in one file as long as it is there, but for a module
that is imported in it: while that is run, the frame stands in the file of the module. A trace that
is taken meanwhile says so, and the frame may have gone back to its own file by the time the failure
arrives. So the entry for a frame has the file of the frame, unless an import in that frame failed
with this very trace.

* `Trace.fileAt?`: the file of a frame in a trace, by the level of the frame.
* `Moment.ImportFails`: an import, in the frame at a level, that ends with a trace in whose entry
  for that frame its own path stands.
* `Watch.filing`: evaluations are watched with regard to such imports.
* `Eval.filing_performUntil`: whatever a task ends with has the file of the frame, or there was such
  an import.
* `Eval.file_of_perform`: so for a single evaluation.
-/
import Tern.Proofs.Watching

namespace Tern

/-! ### The file at a level -/

/-- The file of a frame in a trace. The level of the global frame is zero. -/
def Trace.fileAt? (trace : Trace) (level : Nat) : Option String :=
  (trace.map (·.file)).reverse[level]?

/-- The end of a trace has the files of the frames that it tells of. -/
lemma Trace.fileAt?_of_suffix {inner trace : Trace} {level : Nat} (h : inner <:+ trace)
    (hl : level < inner.length) : inner.fileAt? level = trace.fileAt? level := by
  obtain ⟨front, rfl⟩ := h
  rw [fileAt?, fileAt?, List.map_append, List.reverse_append, List.getElem?_append_left]
  simpa using hl

namespace Environment

variable {e e' : Environment} {level : Nat}

@[simp]
lemma length_trace (e : Environment) : e.trace.length = e.depth := by
  simp [trace, frames, depth]

/-- The entries of the frames below the innermost one end the trace, whatever file that one is
in. -/
lemma map_entry_below_suffix (e : Environment) (file : String) :
    e.below.map (·.entry) <:+ (e.setFile file).trace :=
  List.suffix_cons _ _

/-- At its own level, the innermost frame stands in its file. -/
lemma fileAt?_top (h : e.depth = level + 1) : e.trace.fileAt? level = some e.file := by
  have hl : level = (e.below.map (·.entry.file)).reverse.length := by
    simpa [depth] using h.symm
  simp [Trace.fileAt?, trace, frames, hl, file, Frame.entry]

/-- Moving the innermost frame to another file moves no frame below it. -/
lemma fileAt?_setFile (h : level < e.below.length) (file : String) :
    (e.setFile file).trace.fileAt? level = e.trace.fileAt? level := by
  have hl : level < (e.below.map (·.entry)).length := by simpa using h
  have hbelow := fun file => Trace.fileAt?_of_suffix (e.map_entry_below_suffix file) hl
  exact (hbelow file).symm.trans (hbelow e.file)

lemma trace_pop_suffix (e : Environment) : e.pop.trace <:+ e.trace := by
  obtain ⟨top, below, snapshots⟩ := e
  cases below with
  | nil => exact List.suffix_refl _
  | cons f rest => exact List.suffix_cons _ _

/-- A balanced environment has its frames in the same files. -/
lemma Balanced.fileAt?_eq (h : e.Balanced e') (level : Nat) :
    e'.trace.fileAt? level = e.trace.fileAt? level := by
  have hfiles : ∀ e : Environment, e.trace.map (·.file) = e.frames.map (·.file) := fun e => by
    rw [trace, List.map_map]
    rfl
  rw [Trace.fileAt?, Trace.fileAt?, hfiles, hfiles, h.files_eq]

end Environment

/-! ### Traces that have the file of a frame -/

namespace Signal

/-- The trace of a signal; none is as good as an empty one. -/
def trace : Signal → Trace
  | .fault _ trace | .thrown _ trace => trace
  | _ => []

/-- A signal that gets a trace has its own or that of the stack. -/
lemma trace_traced (signal : Signal) (env : Environment) :
    (signal.traced env).trace = signal.trace ∨ (signal.traced env).trace = env.trace := by
  unfold traced
  split
  · exact .inr rfl
  · exact .inr rfl
  · exact .inl rfl

/-- So has the one that a handler sees. -/
lemma traceIn_eq (signal : Signal) (env : Environment) :
    signal.traceIn env = signal.trace ∨ signal.traceIn env = env.trace := by
  unfold traceIn
  split
  · split
    · exact .inr rfl
    · exact .inl rfl
  · split
    · exact .inr rfl
    · exact .inl rfl
  · cases signal with
    | fault cause trace => rename_i h _; exact absurd rfl (h cause trace)
    | thrown v trace => rename_i _ h; exact absurd rfl (h v trace)
    | leave => exact .inl rfl
    | fatal => exact .inl rfl
    | outOfFuel => exact .inl rfl

end Signal

/-- The frame at a level, if there is one, stands in the file that a trace tells of. -/
def Session.Filed (s : Session) (trace : Trace) (level : Nat) : Prop :=
  level < s.env.depth → s.env.trace.fileAt? level = trace.fileAt? level

/-- A signal with a certain trace has it in a session where the frame at a level stands in the file
that the trace tells of. -/
def Signal.Filed (trace : Trace) (level : Nat) (signal : Signal) (s : Session) : Prop :=
  signal.trace = trace → s.Filed trace level

section

variable {trace : Trace} {level : Nat} {signal : Signal} {s s' : Session}

/-- The trace of the stack itself has the files of the frames. -/
lemma Session.filed_trace (h : s.env.trace = trace) : s.Filed trace level := fun _ => by rw [h]

lemma Session.Filed.follows (h : s.Filed trace level) (hf : s.Follows s') :
    s'.Filed trace level := by
  intro hl
  rw [hf.env.fileAt?_eq]
  exact h (hf.depth_eq ▸ hl)

/-- The frames below the innermost one stay where they are when it is left. -/
lemma Session.Filed.pop (h : s.Filed trace level) :
    Session.Filed { s with env := s.env.pop } trace level := by
  intro hl
  change level < s.env.pop.depth at hl
  have hsuffix := s.env.trace_pop_suffix
  have hle := hsuffix.length_le
  rw [Environment.length_trace, Environment.length_trace] at hle
  change s.env.pop.trace.fileAt? level = _
  rw [Trace.fileAt?_of_suffix hsuffix (by rwa [Environment.length_trace])]
  exact h (Nat.lt_of_lt_of_le hl hle)

/-- They stay there when the innermost one goes over to another file. -/
lemma Session.Filed.setFile (h : s.Filed trace level) (hd : s.env.depth ≠ level + 1)
    (file : String) : Session.Filed { s with env := s.env.setFile file } trace level := by
  intro hl
  change level < s.env.depth at hl
  have hbelow : level < s.env.below.length := by
    rw [Environment.depth] at hd hl
    omega
  exact (Environment.fileAt?_setFile hbelow file).trans (h hl)

/-- A signal that gets the trace of the stack. -/
lemma Signal.Filed.traced (h : signal.Filed trace level s) :
    (signal.traced s.env).Filed trace level s := by
  intro ht
  obtain heq | heq := signal.trace_traced s.env
  · exact h (heq.symm.trans ht)
  · exact Session.filed_trace (heq.symm.trans ht)

/-- A signal that is raised again with the trace that its handler saw. -/
lemma Signal.Filed.again (h : signal.Filed trace level s) (v : Value) :
    Signal.Filed trace level (.thrown v (signal.traceIn s.env)) s := by
  intro ht
  obtain heq | heq := signal.traceIn_eq s.env
  · exact h (heq.symm.trans ht)
  · exact Session.filed_trace (heq.symm.trans ht)

end

/-! ### Imports that fail -/

/-- What is carried out at this moment ends with a trace. -/
def Moment.EndsWith (rounds : Nat) (trace : Trace) (m : Moment) : Prop :=
  ∃ calls levels signal s',
    Eval.perform rounds calls levels m.task m.session = .error signal s' ∧ signal.trace = trace

/-- A module is run in the frame at a level, and this ends with a trace that tells of its file
there. -/
structure Moment.ImportFails (rounds : Nat) (trace : Trace) (level : Nat) (m : Moment) : Prop where
  runs : ∃ segments text, m.Runs segments text ∧
    trace.fileAt? level = some (Module.path segments)
  depth : m.session.env.depth = level + 1
  ends : m.EndsWith rounds trace

/-- Signals that come with a certain trace where the frame at a level has the file of the trace. -/
def Watch.filing {trace : Trace} (ht : trace ≠ []) (level : Nat) : Watch where
  Allows signal s := signal.Filed trace level s
  Enters s := s.env.depth ≠ level + 1
  fault _ _ h := absurd h.symm ht
  thrown _ _ h := absurd h.symm ht
  leave _ _ h := absurd h.symm ht
  fatal _ _ h := absurd h.symm ht
  frame h heq := (h.traced heq).pop
  file hd hf h heq := (h.traced heq).setFile (fun hd' => hd (hf.depth_eq.symm.trans hd')) _
  handler h := h

section

variable {rounds : Nat} {trace : Trace} {ht : trace ≠ []} {level : Nat}

lemma Logic.carries_filing {K : Moment → Prop} :
    (Logic.watching (Watch.filing ht level) K).Carries :=
  ⟨fun h hl heq => (h heq).follows hl, fun v h => h.again v⟩

/-! ### Every task -/

namespace Eval

/-- A task is watched with regard to the imports that fail with a trace in the frame at a level. -/
abbrev Filing (rounds : Nat) (ht : trace ≠ []) (level : Nat) (s : Session)
    (r : Option Moment → EStateM.Result Signal Session Value) : Prop :=
  Watched (Watch.filing ht level) (Moment.ImportFails rounds trace level) s r

/-- A lack of something has no trace. -/
lemma filed_outOfFuel (ht : trace ≠ []) (lacking : Shortage) (s : Session) :
    Signal.Filed trace level (.outOfFuel lacking) s := fun h => absurd h.symm ht

/-- An import in the frame at the level that does not end with this trace and its own file. -/
lemma filing_importModule {run : Option Moment → Runner}
    (hrun : ∀ task s, Filing rounds ht level s fun i => run i task s) {segments : List String}
    {s : Session} (hd : s.env.depth = level + 1)
    (hother : ∀ text signal s', Module.path segments ∉ s.imported →
      s.moduleText? (Module.path segments) = some text →
      importModule (run none) segments s = .error signal s' → signal.trace = trace →
      trace.fileAt? level ≠ some (Module.path segments)) :
    Filing rounds ht level s fun i => importModule (run i) segments s := by
  by_cases hmem : Module.path segments ∈ s.imported
  · simp only [importModule_of_mem _ hmem]
    exact .ok (.refl s)
  · cases htext : s.moduleText? (Module.path segments) with
    | none =>
        obtain ⟨fault, hi⟩ := importModule_of_none hmem htext
        simp only [hi]
        exact .error (s.beside_seeking _).follows (Watch.fault _ _ _)
    | some text =>
        have hfollows : s.Follows (s.entering (Module.path segments)) :=
          (s.beside_seeking _).follows.trans (Logic.following.importing _ _)
        have hopen : ∀ u, (Logic.watching (Watch.filing ht level)
            (Moment.ImportFails rounds trace level)).Open run u := fun _ task u _ _ => hrun task u
        simp only [importModule_of_text _ hmem htext] at hother ⊢
        refine .earlier hfollows (.bind (.inFile_of_allows
          (Logic.inPlace _ text (hopen _) fun _ => trivial) fun {signal s'} h hf ha heq => ?_)
          fun _ u _ _ => .ok (.refl u))
        -- The trace would tell of the file of the module, in which the frame was.
        have hdepth : s'.env.depth = level + 1 := hf.depth_eq.trans (hfollows.depth_eq.trans hd)
        have hfile : s'.env.file = Module.path segments := hf.env.file
        have hend : moduleBody (Module.path segments) text (run none)
            (s.entering (Module.path segments)) = .error (signal.traced s'.env)
              { s' with env := s'.env.setFile (s.entering (Module.path segments)).env.file } := by
          simp only [moduleBody, bind_apply, inFile_apply, h]
          rfl
        refine absurd ?_ (hother text _ _ hmem htext hend heq)
        rw [← ha.traced heq (by omega), Environment.fileAt?_top hdepth, hfile]

/-- A task is carried out from its parts. -/
lemma filing_step {run : Option Moment → Runner}
    (hrun : ∀ task s, Filing rounds ht level s fun i => run i task s) {task : Task} {s : Session}
    (hother : ∀ segments text signal s', Moment.Runs ⟨task, s⟩ segments text →
      s.env.depth = level + 1 → step rounds (run none) task s = .error signal s' →
      signal.trace = trace → trace.fileAt? level ≠ some (Module.path segments)) :
    Filing rounds ht level s fun i => step rounds (run i) task s := by
  let L := Logic.watching (Watch.filing ht level) (Moment.ImportFails rounds trace level)
  have hs : L.Serves run task.Part s := Logic.serves_of_forall hrun
  have hopen : ∀ s, L.Open run s := fun _ task s _ _ => hrun task s
  have hloop : ∀ c b s', L.Holds (fun i => loopWhile (run i) c b rounds .null) s' := by
    intro c b s'
    have hl := Logic.loopWhile (fun _ => 0) c b rounds .null (hopen s') trivial trivial
      fun {u} _ _ => .error (.refl u) (filed_outOfFuel ht .rounds u)
    rwa [Nat.zero_add] at hl
  have hwhole : (∀ site segments, task = .expr (.node site (.importing segments)) →
      s.env.depth ≠ level + 1) → L.Holds (fun i => step rounds (run i) task) s :=
    fun h => Logic.step (fun _ => rounds) task hs (fun _ => hopen s)
      (fun _ c b _ _ => hloop c b _) (Logic.attempt_of_task Logic.carries_filing hs)
      fun site segments htask hl hd => h site segments htask (hl.depth_eq.symm.trans hd)
  by_cases hd : s.env.depth = level + 1
  · by_cases himport : ∃ site segments, task = .expr (.node site (.importing segments))
    · obtain ⟨site, segments, rfl⟩ := himport
      have hline : s.Follows (s.atLine site.token.line) :=
        Session.follows_env (s.env.balanced_mark _)
      exact .earlier hline (filing_importModule hrun (hline.depth_eq.trans hd)
        fun text signal s' hnew htext h =>
          hother segments text signal s' ⟨⟨site, rfl⟩, hnew, htext⟩ hd h)
    · exact hwhole fun site segments h => absurd ⟨site, segments, h⟩ himport
  · exact hwhole fun _ _ _ => hd

lemma filing_descend {run : Option Moment → Nat → Runner}
    (hrun : ∀ calls task s, Filing rounds ht level s fun i => run i calls task s) {calls : Nat}
    {task : Task} {s : Session}
    (hother : ∀ segments text signal s', Moment.Runs ⟨task, s⟩ segments text →
      s.env.depth = level + 1 → descend rounds (run none) calls task s = .error signal s' →
      signal.trace = trace → trace.fileAt? level ≠ some (Module.path segments)) :
    Filing rounds ht level s fun i => descend rounds (run i) calls task s := by
  cases hf : task.isFrameless with
  | false =>
      simp only [descend, hf, Bool.false_eq_true, if_false] at hother ⊢
      exact filing_step (hrun calls) hother
  | true =>
      simp only [descend, hf, if_true] at hother ⊢
      cases calls with
      | zero => exact .error (.refl s) (filed_outOfFuel ht .calls s)
      | succ calls => exact filing_step (hrun calls) hother

/-- Whatever a task ends with, the frame at the level has the file that the trace tells of, or there
was an import in it that failed. -/
theorem filing_performUntil (calls levels : Nat) (task : Task) (s : Session) :
    Filing rounds ht level s fun i =>
      performUntil (haltAt? i) rounds calls levels task s := by
  induction levels generalizing calls task s with
  | zero => exact .error (.refl s) (filed_outOfFuel ht .levels s)
  | succ levels ih =>
      refine .of_descend fun hm => filing_descend ih
        fun segments text signal s' hruns hd h heq hfile => hm ?_
      refine ⟨⟨segments, text, hruns, hfile⟩, hd, calls, levels + 1, signal, s', ?_, heq⟩
      rw [perform_eq_descend, ← h]
      simp only [performUntil_haltAt?_none]

/-- A task that ends with a trace ends where the frame at a level has the file that the trace tells
of, unless an import that failed there has come. -/
theorem file_of_perform (ht : trace ≠ []) {calls levels : Nat} {task : Task} {signal : Signal}
    {s s' : Session} (h : perform rounds calls levels task s = .error signal s')
    (heq : signal.trace = trace) :
    s'.Filed trace level ∨ ∃ m : Moment, m.ImportFails rounds trace level ∧
      Comes rounds calls levels (fun run => run task) s m := by
  refine ((filing_performUntil calls levels task s).allows_or_comes
    (W := Watch.filing ht level) (x := fun run => run task) h fun hlack => ?_).imp_left
    fun ha => ha heq
  rw [hlack] at heq
  exact ht heq.symm

end Eval

end

end Tern
