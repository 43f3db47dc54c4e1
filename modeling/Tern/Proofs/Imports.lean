/-
Imports over the whole of a session. A module is run once at most, whatever imports it and however
that ends. A module whose text does not parse is no exception: the first import of it ends in the
error of the parser, and all others do nothing.

* `Session.Settled`: a module whose imports do nothing.
* `Request.InProgress`: modules that are being imported, one inside the other.
* `Session.modules_run_at_most_once`: what comes of a module once it is run.
* `Session.import_of_unparsable`: the imports of a module that does not parse.
-/
import Mathlib.Tactic
import Tern.Proofs.Hosting
import Tern.Proofs.Recursion

namespace Tern

namespace Session

/-- An import of the module gives null at once: no task is asked for, and nothing changes but the
line at which the innermost frame stands. -/
def Settled (s : Session) (segments : List String) : Prop :=
  ∀ rounds run site, Eval.step rounds run (.expr (.node site (.importing segments))) s =
    .ok .null (s.atLine site.token.line)

/-- A module that has been imported is settled. -/
lemma settled_of_mem {s : Session} {segments : List String}
    (h : Module.path segments ∈ s.imported) : s.Settled segments :=
  fun _ run _ => Eval.importModule_of_mem run h

end Session

/-- Nothing comes inside a computation that asks for nothing. -/
lemma Eval.not_comes_of_eq {x : Runner → Eval Value} {rounds calls levels : Nat} {s : Session}
    {m : Moment} (h : ∀ run run', x run s = x run' s) :
    ¬ Eval.Comes rounds calls levels x s m := by
  rintro ⟨lacking, hne⟩
  exact hne (h _ _)

/-- What comes inside an import comes while the module is run, and the module counts as imported
there. -/
lemma Moment.entered {m m' : Moment} {rounds calls levels : Nat} {site : Site}
    {segments : List String} (htask : m.task = .expr (.node site (.importing segments)))
    (h : Eval.Comes rounds calls levels (fun run => Eval.step rounds run m.task) m.session m') :
    Module.path segments ∉ m.session.imported ∧ m.session.Importable (Module.path segments) ∧
      m.session.Onward m'.session ∧ Module.path segments ∈ m'.session.imported := by
  have hl : m.session.Onward (m.session.atLine site.token.line) := m.session.onward_env _
  by_cases hmem : Module.path segments ∈ m.session.imported
  · refine absurd h (Eval.not_comes_of_eq fun run run' => ?_)
    rw [htask]
    have hs := Session.settled_of_mem hmem rounds
    exact (hs run site).trans (hs run' site).symm
  cases htext : m.session.moduleText? (Module.path segments) with
  | none =>
      obtain ⟨fault, hfail⟩ := Eval.importModule_of_none (s := m.session.atLine site.token.line)
        hmem ((hl.moduleText? _).trans htext)
      refine absurd h (Eval.not_comes_of_eq fun run run' => ?_)
      rw [htask]
      exact (hfail run).trans (hfail run').symm
  | some text =>
      obtain ⟨s, hs, hin, hstep⟩ := Moment.Runs.step_eq ⟨⟨site, htask⟩, hmem, htext⟩
      have ho := Eval.onward_of_comes (Eval.ofTasks_moduleBody _ text) (h.congr (hstep rounds))
      exact ⟨hmem, Session.importable_of_moduleText? htext, hs.trans ho, ho.imported hin⟩

/-- Modules that are being imported at a moment of a request, each of them from inside the next one,
by their paths. -/
inductive Request.InProgress (r : Request) (s : Session) : List String → Moment → Prop where
  | outset {m : Moment} : r.Comes s m → InProgress r s [] m
  | inside {opened : List String} {m m' : Moment} {site : Site} {segments : List String}
      (rounds calls levels : Nat) : InProgress r s opened m →
      m.task = .expr (.node site (.importing segments)) →
      Eval.Comes rounds calls levels (fun run => Eval.step rounds run m.task) m.session m' →
      InProgress r s (Module.path segments :: opened) m'

/-- Modules that are being imported differ from one another; they count as imported and can be. -/
lemma Request.InProgress.distinct {r : Request} {s : Session} {opened : List String} {m : Moment}
    (h : r.InProgress s opened m) : opened.Nodup ∧
      ∀ p ∈ opened, p ∈ m.session.imported ∧ m.session.Importable p := by
  induction h with
  | outset _ => exact ⟨.nil, fun _ hp => absurd hp List.not_mem_nil⟩
  | inside rounds calls levels _ htask hcomes ih =>
      obtain ⟨hfresh, himportable, ho, hin⟩ := Moment.entered htask hcomes
      refine ⟨List.nodup_cons.mpr ⟨fun hp => hfresh (ih.2 _ hp).1, ih.1⟩, fun p hp => ?_⟩
      rw [ho.importable]
      obtain rfl | hp := List.mem_cons.mp hp
      · exact ⟨hin, himportable⟩
      · exact ⟨ho.imported (ih.2 p hp).1, (ih.2 p hp).2⟩

namespace Session

section

variable {r : Request} {s : Session} {m : Moment} {segments : List String} {text : String}

/-- A module that was run, or was imported already, at some moment of a request is imported after
the request. -/
lemma imported_of_leadsTo (hm : m.LeadsTo fun u => Module.path segments ∈ u.imported)
    (h : r.Comes s m) : Module.path segments ∈ (s.serve r).imported :=
  (r.onward_after_evaluation s).imported
    (Eval.holds_after_comes (r.ofTasks_evaluation s) (fun ho hb => ho.imported hb) hm h)

/-- From then on it is settled at every moment of every further request. -/
lemma settled_of_leadsTo (hm : m.LeadsTo fun u => Module.path segments ∈ u.imported)
    (h : r.Comes s m) (rs : List Request) {r' : Request} {m' : Moment}
    (h' : r'.Comes ((s.serve r).serveAll rs) m') : m'.session.Settled segments := by
  have ho := Eval.onward_of_comes (r'.ofTasks_evaluation _) h'
  refine settled_of_mem (ho.imported ?_)
  rw [r'.imported_evaluation]
  exact imported_serveAll rs _ (imported_of_leadsTo hm h)

end

/-- **A module is run at most once.** No request makes a session forget an imported module. Once a
module is run, an import of it does nothing: at every moment that comes after, and at every moment
of every later request. Modules that are imported one from inside the other are different ones, so
there are no more of them than modules that can be imported, and they are settled. -/
theorem modules_run_at_most_once (s : Session) (r : Request) :
    s.imported ⊆ (s.serve r).imported ∧
    (∀ (m : Moment) (segments : List String) (text : String), r.Comes s m →
      m.Runs segments text →
      (∀ m' : Moment, r.ComesAfter s m m' → m'.session.Settled segments) ∧
      ∀ (rs : List Request) (r' : Request) (m' : Moment),
        r'.Comes ((s.serve r).serveAll rs) m' → m'.session.Settled segments) ∧
    ∀ opened m, r.InProgress s opened m →
      (∀ segments, Module.path segments ∈ opened → m.session.Settled segments) ∧
      opened.Nodup ∧ ∀ modules : Finset String, (∀ p, m.session.Importable p → p ∈ modules) →
        opened.length ≤ modules.card := by
  refine ⟨imported_serve r s, fun m segments text hcomes hruns => ⟨fun m' h => ?_, ?_⟩,
    fun opened m h => ?_⟩
  · exact settled_of_mem (Eval.holds_of_comesAfter (r.ofTasks_evaluation s)
      (fun ho hb => ho.imported hb) hruns.leadsTo h)
  · exact fun rs r' m' => settled_of_leadsTo hruns.leadsTo hcomes rs
  · obtain ⟨hnodup, hin⟩ := h.distinct
    refine ⟨fun segments hp => settled_of_mem (hin _ hp).1, hnodup, fun modules hall => ?_⟩
    rw [← List.toFinset_card_of_nodup hnodup]
    exact Finset.card_le_card fun p hp => hall p (hin p (List.mem_toFinset.mp hp)).2

/-! ### A module that imports itself -/

end Session

namespace Eval

/-- A module of one expression lacks what the expression lacks. -/
lemma Short.moduleBody {relative text : String} {e : Expr} {run : Runner} {lacking : Shortage}
    {s : Session} (hparse : parse relative text = .ok [e])
    (h : Short lacking (run (.expr e) { s with env := s.env.setFile relative })) :
    Short lacking (moduleBody relative text run s) := by
  refine Short.bind ?_
  rw [inFile_apply, inPlace, hparse, short_leaveFile]
  exact h.program

section

variable {α : Type} {x : Runner → Eval α} {m : Moment}
  (hx : ∀ run run' : Runner, run m.task m.session = run' m.task m.session →
    x run m.session = x run' m.session)
  (hshort : ∀ {lacking} {run : Runner}, Short lacking (run m.task m.session) →
    Short lacking (x run m.session))

include hshort in
/-- What asks for a task first comes to it. -/
lemma comes_of_asks (rounds calls levels : Nat) :
    Comes rounds calls (levels + 1) x m.session m :=
  comes_of_short fun _ => hshort ⟨m.session, performUntil_halted (if_pos rfl)⟩

include hx hshort in
/-- If the task is to run a module of one expression, then this expression comes after it. -/
lemma comesAfter_of_asks {segments : List String} {text : String} {e : Expr}
    (hruns : m.Runs segments text) (hparse : parse (Module.path segments) text = .ok [e])
    (rounds calls levels : Nat) :
    ∃ s, ComesAfter rounds calls (levels + 2) x m.session m ⟨.expr e, s⟩ := by
  obtain ⟨s, -, hin, hstep⟩ := hruns.step_eq
  have hne : (⟨.expr e, { s with env := s.env.setFile (Module.path segments) }⟩ : Moment) ≠ m := by
    rintro rfl
    exact hruns.fresh hin
  refine ⟨_, hne, ?_⟩
  obtain ⟨lacking', hcomes⟩ : Comes rounds calls (levels + 2) x m.session
      ⟨.expr e, { s with env := s.env.setFile (Module.path segments) }⟩ := by
    refine comes_of_short fun lacking => hshort ?_
    rw [performUntil_onward (if_neg (Ne.symm hne)), hruns.descend_eq, hstep]
    exact Short.moduleBody hparse ⟨_, performUntil_halted (if_pos rfl)⟩
  obtain ⟨lacking, hlacking⟩ : ∃ lacking : Shortage, lacking ≠ lacking' := by
    cases lacking' with
    | levels => exact ⟨.calls, nofun⟩
    | calls => exact ⟨.levels, nofun⟩
    | rounds => exact ⟨.levels, nofun⟩
  refine ⟨lacking, lacking', hlacking, hcomes, hx _ _ ?_⟩
  have hhalt : haltAt m lacking ⟨m.task, m.session⟩ = some lacking := if_pos rfl
  rw [performUntil_halted (by rw [hhalt]; rfl), performUntil_halted hhalt]

end

end Eval

namespace Request

/-- What the evaluation of an expression by a host lacks. -/
lemma short_evaluate {run : Runner} {e : Expr} {s : Session} {lacking : Shortage}
    (h : Eval.Short lacking (run (.expr e) s)) :
    Eval.Short lacking (((Request.host (.evaluate e)).evaluation s).1 run s) :=
  Eval.Short.bind (Eval.Short.bind h)

/-- It depends on the task alone. -/
lemma evaluate_congr {run run' : Runner} {e : Expr} {s : Session}
    (h : run (.expr e) s = run' (.expr e) s) :
    ((Request.host (.evaluate e)).evaluation s).1 run s =
      ((Request.host (.evaluate e)).evaluation s).1 run' s := by
  simp only [evaluation, HostCall.carryOut, Eval.map_apply, h]

/-- A host that has an expression evaluated comes to it. -/
lemma comes_evaluate (e : Expr) (s : Session) :
    (Request.host (.evaluate e)).Comes s ⟨.expr e, s⟩ := by
  obtain ⟨n, hn⟩ : ∃ n, Eval.fuel = n + 1 := ⟨Eval.fuel - 1, by decide⟩
  have h := Eval.comes_of_asks (x := ((Request.host (.evaluate e)).evaluation s).1)
    (m := ⟨.expr e, s⟩) short_evaluate Eval.fuel Eval.fuel n
  rw [← hn] at h
  exact h

/-- If that imports a module of one expression, then this expression comes after it. -/
lemma comesAfter_evaluate {e e' : Expr} {s : Session} {segments : List String} {text : String}
    (hruns : Moment.Runs ⟨.expr e, s⟩ segments text)
    (hparse : parse (Module.path segments) text = .ok [e']) :
    ∃ s', (Request.host (.evaluate e)).ComesAfter s ⟨.expr e, s⟩ ⟨.expr e', s'⟩ := by
  obtain ⟨n, hn⟩ : ∃ n, Eval.fuel = n + 2 := ⟨Eval.fuel - 2, by decide⟩
  have h := Eval.comesAfter_of_asks (x := ((Request.host (.evaluate e)).evaluation s).1)
    (fun _ _ => evaluate_congr) short_evaluate hruns hparse Eval.fuel Eval.fuel n
  rw [← hn] at h
  exact h

end Request

namespace Session

/-- A session with one module, by its path and the bytes of its text. -/
def withModule (path : String) (bytes : List UInt8) : Session :=
  { initial with files := fun p => if p = path then .ok (.file bytes) else .error .notFound }

/-- The expression `import a`, as it stands in the module `a`. -/
def importA : Expr :=
  .node ⟨⟨.importWord, "import", none, 1, "a.tern"⟩, []⟩ (.importing ["a"])

lemma parse_importA : parse (Module.path ["a"]) "import a" = .ok [importA] := by
  have htokens : tokensOf (Module.path ["a"]) "import a" = .ok
      [⟨.importWord, "import", none, 1, "a.tern"⟩, ⟨.identifier, "a", none, 1, "a.tern"⟩,
        .endOf "a.tern" 1] := rfl
  exact (parse_of_tokensOf htokens).trans rfl

/-- A session with a module that imports itself. -/
def cyclic : Session := withModule "a.tern" [105, 109, 112, 111, 114, 116, 32, 97]

lemma runs_cyclic : Moment.Runs ⟨.expr importA, cyclic⟩ ["a"] "import a" :=
  ⟨⟨_, rfl⟩, by decide, rfl⟩

/-- A module that imports itself is run once: when it comes to import itself it is settled, and so
it is when the host imports it again. -/
theorem modules_run_at_most_once_cyclic :
    ∃ u, (Request.host (.evaluate importA)).ComesAfter cyclic ⟨.expr importA, cyclic⟩
        ⟨.expr importA, u⟩ ∧
      u.Settled ["a"] ∧ (cyclic.serve (.host (.evaluate importA))).Settled ["a"] := by
  obtain ⟨u, hu⟩ := Request.comesAfter_evaluate runs_cyclic parse_importA
  have h := (modules_run_at_most_once cyclic (.host (.evaluate importA))).2.1 _ _ _
    (Request.comes_evaluate importA cyclic) runs_cyclic
  refine ⟨u, hu, h.1 _ hu, ?_⟩
  have hlater := h.2 []
  generalize cyclic.serve (.host (.evaluate importA)) = t at hlater ⊢
  exact hlater _ ⟨.expr importA, t⟩ (Request.comes_evaluate importA t)

/-! ### Modules that do not parse -/

/-- **Imports of a module that does not parse.** The first one ends in the error of the parser, but
the module counts as imported all the same: a repeated import gives null and does nothing, and so
does every import of it in later requests. -/
theorem import_of_unparsable {r : Request} {s : Session} {m : Moment} {site : Site}
    {segments : List String} {text : String} {error : SourceError} (hcomes : r.Comes s m)
    (htask : m.task = .expr (.node site (.importing segments)))
    (htext : m.session.moduleText? (Module.path segments) = some text)
    (hparse : parse (Module.path segments) text = .error error) :
    (∀ rounds run, Eval.step rounds run m.task m.session =
      if Module.path segments ∈ m.session.imported then .ok .null (m.session.atLine site.token.line)
      else .error (.fatal error)
        ((m.session.atLine site.token.line).entering (Module.path segments))) ∧
    ∀ (rs : List Request) (r' : Request) (m' : Moment),
      r'.Comes ((s.serve r).serveAll rs) m' → m'.session.Settled segments := by
  have hl : m.session.Onward (m.session.atLine site.token.line) := m.session.onward_env _
  by_cases hmem : Module.path segments ∈ m.session.imported
  · refine ⟨fun rounds run => ?_, fun rs r' m' => settled_of_leadsTo (.inl hmem) hcomes rs⟩
    rw [if_pos hmem, htask]
    exact settled_of_mem hmem rounds run site
  · have hruns : m.Runs segments text := ⟨⟨site, htask⟩, hmem, htext⟩
    refine ⟨fun rounds run => ?_, fun rs r' m' => settled_of_leadsTo hruns.leadsTo hcomes rs⟩
    rw [if_neg hmem, htask, Eval.step_importing]
    rw [Eval.importModule_of_text (s := m.session.atLine site.token.line) run hmem
      ((hl.moduleText? _).trans htext)]
    exact Eval.moduleBody_of_error hparse run _

/-- A session with a module that is a parenthesis. -/
def unparsable : Session := withModule "bad.tern" [40]

/-- The error of its parser. -/
def unparsableError : SourceError :=
  .parse ⟨.eof, "", none, 1, "bad.tern"⟩ .unexpectedToken

lemma moduleText?_unparsable : unparsable.moduleText? (Module.path ["bad"]) = some "(" :=
  rfl

lemma parse_unparsable : parse (Module.path ["bad"]) "(" = .error unparsableError := by
  have htokens : tokensOf (Module.path ["bad"]) "(" = .ok
      [⟨.leftParen, "(", none, 1, "bad.tern"⟩, .endOf "bad.tern" 1] := rfl
  exact (parse_of_tokensOf htokens).trans rfl

/-- The expression `import bad`. -/
def importBad : Expr :=
  .node ⟨⟨.importWord, "import", none, 1, "<test>"⟩, []⟩ (.importing ["bad"])

lemma parse_importBad : parse "<test>" "import bad" = .ok [importBad] := by
  have htokens : tokensOf "<test>" "import bad" = .ok
      [⟨.importWord, "import", none, 1, "<test>"⟩, ⟨.identifier, "bad", none, 1, "<test>"⟩,
        .endOf "<test>" 1] := rfl
  exact (parse_of_tokensOf htokens).trans rfl

/-- The module that is a parenthesis is settled once a host has tried to import it. -/
theorem import_of_unparsable_parenthesis :
    (Request.host (.evaluate importBad)).Comes unparsable ⟨.expr importBad, unparsable⟩ ∧
      unparsable.moduleText? (Module.path ["bad"]) = some "(" ∧
      parse (Module.path ["bad"]) "(" = .error unparsableError ∧
      (∀ rounds run, Eval.step rounds run (.expr importBad) unparsable =
        .error (.fatal unparsableError) ((unparsable.atLine 1).entering "bad.tern")) ∧
      (unparsable.serve (.host (.evaluate importBad))).Settled ["bad"] := by
  have hcomes := Request.comes_evaluate importBad unparsable
  have h := import_of_unparsable hcomes rfl moduleText?_unparsable parse_unparsable
  refine ⟨hcomes, moduleText?_unparsable, parse_unparsable, fun rounds run => ?_, ?_⟩
  · exact h.1 rounds run
  · have hlater := h.2 []
    generalize unparsable.serve (.host (.evaluate importBad)) = t at hlater ⊢
    exact hlater _ ⟨.expr importBad, t⟩ (Request.comes_evaluate importBad t)

/-! ### Units that import a module -/

section

variable {name text : String} {site : Site} {segments : List String} {s s' : Session}

/-- A program that is an import ends as the import does, which never is a return. -/
lemma program_importing {result : EStateM.Result Signal Session Value}
    (h : ∀ run, Eval.importModule run segments (s.atLine site.token.line) = result)
    (hleave : ∀ v s', result ≠ .error (.leave v) s') :
    Eval.program Eval.run [.node site (.importing segments)] s = result := by
  obtain ⟨n, hn⟩ : ∃ n, Eval.fuel = n + 1 := ⟨Eval.fuel - 1, by decide⟩
  have hrun : Eval.run (.expr (.node site (.importing segments))) s = result := by
    rw [Eval.run]
    nth_rewrite 3 [hn]
    rw [Eval.perform_succ rfl]
    exact h _
  simp only [Eval.program, Eval.catchLeave, Eval.recover, Eval.sequence, Eval.sequenceFrom,
    Eval.bind_apply, hrun]
  cases result with
  | ok v s' => rfl
  | error signal s' =>
      cases signal with
      | leave v => exact absurd rfl (hleave v s')
      | _ => rfl

/-- A unit whose program has a value. -/
lemma evalSource_of_ok {body : List Expr} {v : Value} (hparse : parse name text = .ok body)
    (h : Eval.program Eval.run body { s with env := s.env.setFile name } = .ok v s') :
    evalSource name text s =
      .ok v { s' with env := (s'.env.truncate s.env.depth).setFile s.env.file } := by
  simp only [evalSource, hparse, h]

/-- A unit whose program ends in a signal. -/
lemma evalSource_of_error {body : List Expr} {signal : Signal} (hparse : parse name text = .ok body)
    (h : Eval.program Eval.run body { s with env := s.env.setFile name } = .error signal s') :
    evalSource name text s = .error (report signal s').1 { (report signal s').2 with
      env := ((report signal s').2.env.truncate s.env.depth).setFile s.env.file } := by
  simp only [evalSource, hparse, h]

/-- A unit that imports a module for the first time, which does not parse. -/
lemma evalSource_import_unparsable
    (hparse : parse name text = .ok [.node site (.importing segments)])
    (hnew : Module.path segments ∉ s.imported) {source : String} {error : SourceError}
    (hsource : s.moduleText? (Module.path segments) = some source)
    (herror : parse (Module.path segments) source = .error error) :
    ∃ s', evalSource name text s = .error (.source error) s' ∧
      Module.path segments ∈ s'.imported := by
  let started := Session.atLine { s with env := s.env.setFile name } site.token.line
  have ho : s.Onward started := ⟨fun _ h => h, rfl, rfl⟩
  have himport : ∀ run, Eval.importModule run segments started =
      .error (.fatal error) (started.entering (Module.path segments)) := fun run =>
    (Eval.importModule_of_text (s := started) run hnew ((ho.moduleText? _).trans hsource)).trans
      (Eval.moduleBody_of_error herror run _)
  exact ⟨_, evalSource_of_error hparse (program_importing himport nofun),
    started.mem_imported_entering (Module.path segments)⟩

/-- A unit that imports a module again. -/
lemma evalSource_import_again
    (hparse : parse name text = .ok [.node site (.importing segments)])
    (h : Module.path segments ∈ s.imported) : ∃ s', evalSource name text s = .ok .null s' :=
  ⟨_, evalSource_of_ok hparse
    (program_importing (fun run => Eval.importModule_of_mem run h) nofun)⟩

end

/-- Of two units that import a module that does not parse, only the first ends in the error. -/
theorem not_import_of_unparsable_again :
    parse (Module.path ["bad"]) "(" = .error unparsableError ∧
      unparsable.moduleText? (Module.path ["bad"]) = some "(" ∧
      ∃ s s', evalSource "<test>" "import bad" unparsable = .error (.source unparsableError) s ∧
        evalSource "<test>" "import bad" s = .ok .null s' := by
  obtain ⟨s, hfirst, hmem⟩ := evalSource_import_unparsable parse_importBad
    (List.not_mem_nil : Module.path ["bad"] ∉ unparsable.imported) moduleText?_unparsable
    parse_unparsable
  obtain ⟨s', hsecond⟩ := evalSource_import_again parse_importBad hmem
  exact ⟨parse_unparsable, moduleText?_unparsable, s, s', hfirst, hsecond⟩

end Session

end Tern
