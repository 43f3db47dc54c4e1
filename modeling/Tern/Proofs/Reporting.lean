/-
Reporting a failure. The report of a failure that no clause takes runs the constructor of its
exception, which itself needs a frame. Between two units only the global frame is there, so that a
limit of two frames is enough for every failure to be reported as what it is. A limit of one frame
leaves no room, and whatever failed, another failure is reported in its place.

* `Session.Ready`: a session between two units; `Session.Reached.ready`: every session that units
  and limits lead to.
* `Session.report_fault`, `Session.report_fault_full`: the two reports that a failure can have.
* `Session.reports_itself_iff`: which of them a unit ends in.
-/
import Mathlib.Tactic
import Tern.Proofs.Exception

namespace Tern

/-- No kind of failure has the name that a report falls back on. -/
lemma ErrorKind.name_ne_error (kind : ErrorKind) : kind.name ≠ "Error" := by
  cases kind <;> decide

namespace Session

/-! ### Sessions between units -/

/-- A session between two units: it has the library, the global frame and no other, and a limit
that allows for this frame. -/
structure Ready (s : Session) : Prop where
  library : s.HasLibrary
  global : s.env.below = []
  limit : 1 ≤ s.maxDepth

/-- The sessions that units and limits lead to. -/
inductive Reached : Session → Prop where
  | initial (root : Option String) (files : Files) (host : Host) :
      Reached { initial with moduleRoot := root, files := files, host := host }
  | limitDepth {s : Session} (depth : Nat) : Reached s → Reached (s.limitDepth depth)
  | evalSource {s : Session} (name text : String) :
      Reached s → Reached (s.after (evalSource name text))
  | runFile {s : Session} (path : String) : Reached s → Reached (s.after (runFile path))

namespace Ready

variable {s s' : Session}

/-- There is one frame. -/
lemma depth_eq (h : s.Ready) : s.env.depth = 1 := by
  rw [Environment.depth, h.global]
  rfl

lemma limitDepth (h : s.Ready) (depth : Nat) : (s.limitDepth depth).Ready :=
  ⟨h.library, h.global, le_max_right depth 1⟩

/-- What runs in the global frame leaves a session between two units. -/
lemma follows (h : s.Ready) (hf : s.Follows s') : s'.Ready where
  library := hf.hasLibrary h.library
  global := by
    have hb := hf.env.below
    rw [h.global] at hb
    exact List.forall₂_nil_left_iff.mp hb
  limit := by
    rw [hf.maxDepth]
    exact h.limit

lemma evalSource (h : s.Ready) (name text : String) : (s.after (evalSource name text)).Ready :=
  h.follows (follows_evalSource name text s)

lemma runFile (h : s.Ready) (path : String) : (s.after (runFile path)).Ready := by
  have hs : ∀ root, Ready { s with sought := path :: s.sought, moduleRoot := root } :=
    fun _ => ⟨h.library, h.global, h.limit⟩
  cases hr : s.files.read path with
  | error e =>
      simp only [after, Session.runFile, hr]
      exact hs s.moduleRoot
  | ok text =>
      simp only [after, Session.runFile, hr]
      exact (hs _).evalSource path text

end Ready

/-- Every session that is reached is one between two units. -/
theorem Reached.ready {s : Session} (h : s.Reached) : s.Ready := by
  induction h with
  | initial root files host => exact ⟨hasLibrary_initial, rfl, (by decide : 1 ≤ defaultDepth)⟩
  | limitDepth depth _ ih => exact ih.limitDepth depth
  | evalSource name text _ ih => exact ih.evalSource name text
  | runFile path _ ih => exact ih.runFile path

lemma ready_initial : initial.Ready := (Reached.initial none .none .idle).ready

/-! ### The report of a failure -/

section

variable {s : Session}

/-- An exception of the library is described by the name of its kind and by its message. -/
lemma describe_addException (kind : ErrorKind) (message : String) (hl : s.HasLibrary) :
    describe (.object (s.heap.addException kind (.text message)).1)
        { s with heap := (s.heap.addException kind (.text message)).2 } =
      ((kind.name, message), { s with heap := (s.heap.addException kind (.text message)).2 }) := by
  have hr := (s.heap.object?_addException kind (.text message)).1
  have hg := Heap.Grows.trans hl (s.heap.grows_addException kind (.text message))
  have hk := hg.class? (Library.class?_error kind)
  have hname : (s.heap.addException kind (.text message)).2.objectClassName
      (s.heap.addException kind (.text message)).1 = kind.name := by
    rw [Heap.objectClassName, Heap.classOfObject?, hr]
    simp only [Option.map_some, Option.getD_some, Heap.className, hk]
    rfl
  rw [describe, Eval.getMember_message kind (.text message) hl, hname]
  rfl

/-- The lines of a report. -/
def reportText (className message : String) (trace : Trace) : String :=
  String.join ((reportLines className message trace).map (· ++ "\n"))

/-- With room for a frame, a failure is reported as itself. -/
theorem report_fault (cause : Fault) (trace : Trace) (hl : s.HasLibrary)
    (hd : s.env.depth < s.maxDepth) :
    let seen := Signal.traceIn s.env (.fault cause trace)
    report (.fault cause trace) s =
      (.uncaught cause.kind.name cause.message seen,
        { s with
          heap := (s.heap.addException cause.kind (.text cause.message)).2
          err := s.err ++ reportText cause.kind.name cause.message seen }) := by
  intro seen
  obtain ⟨n, hn⟩ : ∃ n, Eval.fuel = n + 1 := ⟨Eval.fuel - 1, by decide⟩
  have hm := Eval.materialize_fault Eval.fuel n n cause trace hl hd
  rw [← hn, ← Eval.run] at hm
  let handling : Session :=
    { s with env := s.env.pushSnapshot (Signal.traceIn s.env (.fault cause trace)) }
  have hdescribe := describe_addException (s := handling) cause.kind cause.message hl
  rw [report, hm]
  simp only [handling] at hdescribe
  simp only [hdescribe]
  rfl

/-- Without room for a frame, whatever failed, the report is that there are too many. -/
theorem report_fault_full (cause : Fault) (trace : Trace) (hl : s.HasLibrary)
    (hd : s.maxDepth ≤ s.env.depth) :
    report (.fault cause trace) s =
      (.uncaught "Error" ("InvalidOperation: " ++ (Fault.tooManyFrames s.maxDepth).message)
          s.env.trace,
        { s with heap := (s.heap.addObject ⟨BuiltinClass.exception.ref, none, []⟩).2 }) := by
  rw [report, Eval.materialize_fault_full cause trace hl hd]
  rfl

end

/-! ### Units that fail -/

/-- Running a text as a unit ends in a failure. -/
def Fails (s : Session) (name text : String) (cause : Fault) : Prop :=
  ∃ body trace s', parse name text = .ok body ∧
    Eval.program Eval.run body { s with env := s.env.setFile name } =
      .error (.fault cause trace) s'

/-- A unit is reported as an uncaught exception of a class, with a message. -/
def Reports (s : Session) (name text className message : String) : Prop :=
  ∃ trace s', evalSource name text s = .error (.uncaught className message trace) s'

section

variable {s : Session} {name text : String} {cause : Fault}

/-- There is one report only. -/
lemma reports_iff_of_error {c m : String} {trace : Trace} {s' : Session}
    (h : evalSource name text s = .error (.uncaught c m trace) s') {className message : String} :
    s.Reports name text className message ↔ (className, message) = (c, m) := by
  constructor
  · rintro ⟨_, _, h'⟩
    rw [h] at h'
    cases h'
    rfl
  · rintro ⟨⟩
    exact ⟨trace, s', h⟩

/-- What a unit that fails is reported as: itself if the limit allows for a second frame, and
otherwise as having too many frames. -/
lemma reports_of_fails (hs : s.Ready) (hf : s.Fails name text cause) {className message : String} :
    s.Reports name text className message ↔
      (className, message) = if 2 ≤ s.maxDepth then (cause.kind.name, cause.message)
        else ("Error", "InvalidOperation: " ++ (Fault.tooManyFrames s.maxDepth).message) := by
  obtain ⟨body, trace, s₁, hparse, hrun⟩ := hf
  obtain ⟨s₂, hsource⟩ : ∃ s₂, evalSource name text s =
      .error (report (.fault cause trace) s₁).1 s₂ := by
    rw [evalSource, hparse]
    simp only [hrun]
    exact ⟨_, rfl⟩
  -- The unit has left a session with the global frame and no other.
  have hready : Ready { s with env := s.env.setFile name } := ⟨hs.library, hs.global, hs.limit⟩
  have hfollows := (Eval.keeps_program body _).error hrun
  have hs₁ := hready.follows hfollows
  have hlimit : s₁.maxDepth = s.maxDepth := hfollows.maxDepth
  split
  next htwo =>
    have hroom : s₁.env.depth < s₁.maxDepth := by rw [hs₁.depth_eq]; omega
    rw [report_fault cause trace hs₁.library hroom] at hsource
    exact reports_iff_of_error hsource
  next hone =>
    have hfull : s₁.maxDepth ≤ s₁.env.depth := by rw [hs₁.depth_eq]; omega
    rw [report_fault_full cause trace hs₁.library hfull, hlimit] at hsource
    exact reports_iff_of_error hsource

/-- A program that is a name that stands for nothing fails. -/
lemma program_of_get_eq_error {s : Session} {site : Site} {name : String} {cause : Fault}
    (hget : s.env.get name = .error cause) :
    Eval.program Eval.run [.node site (.name name)] s =
      .error (.fault cause []) (s.atLine site.token.line) := by
  obtain ⟨n, hn⟩ : ∃ n, Eval.fuel = n + 1 := ⟨Eval.fuel - 1, by decide⟩
  have hrun : Eval.run (.expr (.node site (.name name))) s =
      .error (.fault cause []) (s.atLine site.token.line) := by
    rw [Eval.run]
    nth_rewrite 3 [hn]
    rw [Eval.perform_name, hget]
    rfl
  simp only [Eval.program, Eval.catchLeave, Eval.recover, Eval.sequence, Eval.sequenceFrom,
    Eval.bind_apply, hrun]
  rfl

/-- A name that stands for nothing makes the unit fail. -/
lemma fails_of_get_eq_error {s : Session} {source text name : String} {site : Site} {cause : Fault}
    (hparse : parse source text = .ok [.node site (.name name)])
    (hget : s.env.get name = .error cause) : s.Fails source text cause := by
  have hget : ({ s with env := s.env.setFile source } : Session).env.get name = .error cause := hget
  exact ⟨_, [], _, hparse, program_of_get_eq_error hget⟩

/-- The text `missing`. -/
lemma parse_missing : parse "<test>" "missing" =
    .ok [.node ⟨⟨.identifier, "missing", none, 1, "<test>"⟩, []⟩ (.name "missing")] := by
  have htokens : tokensOf "<test>" "missing" =
      .ok [⟨.identifier, "missing", none, 1, "<test>"⟩, .endOf "<test>" 1] := rfl
  exact (parse_of_tokensOf htokens).trans rfl

/-- **An uncaught failure is reported as itself** exactly if the limit allows for a frame above the
global one. With a limit of one frame, and only then, the class that a report falls back on takes
the place of its own. -/
theorem reports_itself_iff (hs : s.Ready) (hf : s.Fails name text cause) :
    (s.Reports name text cause.kind.name cause.message ↔ 2 ≤ s.maxDepth) ∧
      ((∃ message, s.Reports name text "Error" message) ↔ s.maxDepth = 1) := by
  have hkind := cause.kind.name_ne_error
  have hlimit := hs.limit
  simp only [reports_of_fails hs hf]
  by_cases htwo : 2 ≤ s.maxDepth
  · simp only [if_pos htwo]
    refine ⟨⟨fun _ => htwo, fun _ => trivial⟩, ⟨fun ⟨_, h⟩ => ?_, fun hone => by omega⟩⟩
    exact absurd (congrArg Prod.fst h).symm hkind
  · simp only [if_neg htwo]
    refine ⟨⟨fun h => ?_, fun h => absurd h htwo⟩, ⟨fun _ => by omega, fun _ => ⟨_, rfl⟩⟩⟩
    exact absurd (congrArg Prod.fst h) hkind

end

/-- The failure of an unknown name is reported as itself under a limit of two frames. -/
theorem reports_itself_missing :
    (initial.limitDepth 2).Ready ∧
      (initial.limitDepth 2).Fails "<test>" "missing" (.undefinedVariable "missing") ∧
      (initial.limitDepth 2).Reports "<test>" "missing" "UndefinedReference"
        "undefined variable 'missing'" := by
  have hs := ready_initial.limitDepth 2
  have hf : (initial.limitDepth 2).Fails "<test>" "missing" (.undefinedVariable "missing") :=
    fails_of_get_eq_error parse_missing rfl
  exact ⟨hs, hf, (reports_itself_iff hs hf).1.mpr le_rfl⟩

/-- Under a limit of one frame it is reported as something else. -/
theorem not_reports_itself_missing :
    (initial.limitDepth 1).Ready ∧
      (initial.limitDepth 1).Fails "<test>" "missing" (.undefinedVariable "missing") ∧
      (initial.limitDepth 1).Reports "<test>" "missing" "Error"
        "InvalidOperation: stack overflow: more than 1 frames" ∧
      ¬ (initial.limitDepth 1).Reports "<test>" "missing" "UndefinedReference"
        "undefined variable 'missing'" := by
  have hs := ready_initial.limitDepth 1
  have hf : (initial.limitDepth 1).Fails "<test>" "missing" (.undefinedVariable "missing") :=
    fails_of_get_eq_error parse_missing rfl
  refine ⟨hs, hf, (reports_of_fails hs hf).mpr rfl, fun h => ?_⟩
  have hpair := (reports_of_fails hs hf).mp h
  exact absurd (congrArg Prod.fst hpair) (by decide)

end Session

end Tern
