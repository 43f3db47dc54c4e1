/-
The directory of modules. A session that is started without one gets that of the first script that
can be read, and keeps it. Scripts that are run later look for their modules there, and not beside
themselves.

* `firstDirectory?`: the directory that requests give to a session.
* `Session.moduleRoot_serveAll`: it is the first one that sticks.
* `Session.script_modules_directory`: where the modules of a script are looked for.
-/
import Mathlib.Tactic
import Tern.Proofs.Imports

namespace Tern

/-- The directory that a request gives to a session without one: that of a script that can be
read. -/
def Request.directory? (files : Files) : Request → Option String
  | .script path => if (files.read path).isOk then Path.parent? path else none
  | _ => none

/-- The directory that the first of some requests gives that gives one. -/
def firstDirectory? (files : Files) (rs : List Request) : Option String :=
  rs.findSome? (Request.directory? files)

namespace Request

variable (r : Request) (s : Session)

/-- The modules of a request are looked for in the directory of the session, or else in the one that
the request gives. -/
lemma evaluation_moduleRoot :
    (r.evaluation s).2.moduleRoot = s.moduleRoot.or (r.directory? s.files) ∧
      (r.evaluation s).2.files = s.files := by
  have hunit : ∀ name text (u : Session), (u.unitEvaluation name text).2.moduleRoot = u.moduleRoot ∧
      (u.unitEvaluation name text).2.files = u.files := by
    intro name text u
    unfold Session.unitEvaluation
    cases parse name text <;> exact ⟨rfl, rfl⟩
  cases r with
  | source name text =>
      simp only [directory?, Option.or_none]
      exact hunit name text s
  | script path =>
      simp only [evaluation, directory?]
      cases s.files.read path with
      | error e => exact ⟨Option.or_none.symm, rfl⟩
      | ok text => exact hunit path text (s.forScript path)
  | host call => exact ⟨Option.or_none.symm, rfl⟩

/-- A moment comes only in a script that can be read. -/
lemma isOk_of_comes {path : String} {m : Moment} (h : (Request.script path).Comes s m) :
    (s.files.read path).isOk = true := by
  cases hr : s.files.read path with
  | ok text => rfl
  | error e =>
      obtain ⟨lacking, hne⟩ := h
      simp only [evaluation, hr] at hne
      exact absurd rfl hne

end Request

namespace Session

lemma moduleRoot_serve (r : Request) (s : Session) :
    (s.serve r).moduleRoot = s.moduleRoot.or (r.directory? s.files) ∧
      (s.serve r).files = s.files := by
  have ho := r.onward_evaluation s
  rw [ho.moduleRoot, ho.files]
  exact r.evaluation_moduleRoot s

/-- The first directory that a session gets sticks. -/
theorem moduleRoot_serveAll (rs : List Request) (s : Session) :
    (s.serveAll rs).moduleRoot = s.moduleRoot.or (firstDirectory? s.files rs) ∧
      (s.serveAll rs).files = s.files := by
  induction rs generalizing s with
  | nil => exact ⟨Option.or_none.symm, rfl⟩
  | cons r rs ih =>
      obtain ⟨hroot, hfiles⟩ := moduleRoot_serve r s
      obtain ⟨hroots, hfiless⟩ := ih (s.serve r)
      refine ⟨?_, hfiless.trans hfiles⟩
      rw [hroot, hfiles, Option.or_assoc] at hroots
      rw [show s.serveAll (r :: rs) = (s.serve r).serveAll rs from rfl, hroots, firstDirectory?,
        firstDirectory?, List.findSome?_cons]
      cases r.directory? s.files <;> rfl

/-- The text of a file, if there is one at the path. -/
def fileText? (files : Files) (path : String) : Option String :=
  if files.isFile path then (files.read path).toOption else none

/-- **Where scripts find their modules.** In a session that was started without a directory of
modules, the modules of a script are looked for in the directory of the first script that could be
read. That is the script's own directory exactly if no script was read before or the first one
lies there too. -/
theorem script_modules_directory {s : Session} (hroot : s.moduleRoot = none) (rs : List Request)
    (path : String) {m : Moment} (h : (Request.script path).Comes (s.serveAll rs) m) :
    let directory := (firstDirectory? s.files rs).or (Path.parent? path)
    m.session.moduleRoot = directory ∧
      (∀ relative, Module.bundled? relative = none →
        m.session.moduleText? relative =
          fileText? s.files (Path.join (directory.getD "") relative)) ∧
      (directory = Path.parent? path ↔
        ∀ d ∈ firstDirectory? s.files rs, Path.parent? path = some d) := by
  obtain ⟨hroots, hfiles⟩ := moduleRoot_serveAll rs s
  obtain ⟨hstart, hstart'⟩ := (Request.script path).evaluation_moduleRoot (s.serveAll rs)
  have hread := Request.isOk_of_comes _ h
  have ho := Eval.onward_of_comes (Request.ofTasks_evaluation _ _) h
  rw [Request.directory?, if_pos hread, hroots, hroot, Option.none_or] at hstart
  have hdirectory := ho.moduleRoot.trans hstart
  have hsame := ho.files.trans (hstart'.trans hfiles)
  refine ⟨hdirectory, fun relative hb => ?_, ?_⟩
  · simp only [Session.moduleText?, hb, hdirectory, hsame, fileText?]
  · cases firstDirectory? s.files rs with
    | none => simp
    | some d => simp [eq_comm]

end Session

/-! ### Two scripts in two directories -/

/-- A unit lacks what its program lacks. -/
lemma Eval.Short.unit {body : List Expr} {run : Runner} {s : Session} {lacking : Shortage}
    (h : Eval.Short lacking (Eval.program run body s)) :
    Eval.Short lacking (Eval.unit body run s) := by
  obtain ⟨s', hs'⟩ := h
  refine ⟨s', ?_⟩
  simp only [Eval.unit, Eval.recover, Eval.map_apply, hs']
  rfl

/-- A script of one expression comes to it. -/
lemma Request.comes_script {path text : String} {e : Expr} {s : Session}
    (hread : s.files.read path = .ok text) (hparse : parse path text = .ok [e]) :
    ∃ m, (Request.script path).Comes s m := by
  obtain ⟨n, hn⟩ : ∃ n, Eval.fuel = n + 1 := ⟨Eval.fuel - 1, by decide⟩
  have hevaluation : (Request.script path).evaluation s =
      (Eval.unit [e], { s.forScript path with env := s.env.setFile path }) := by
    simp only [evaluation, hread, Session.unitEvaluation, hparse]
    rfl
  have h := Eval.comes_of_asks (x := Eval.unit [e])
    (m := ⟨.expr e, { s.forScript path with env := s.env.setFile path }⟩)
    (fun h => h.program.unit) Eval.fuel Eval.fuel n
  rw [← hn] at h
  refine ⟨⟨.expr e, { s.forScript path with env := s.env.setFile path }⟩, ?_⟩
  rw [Request.Comes, hevaluation]
  exact h

namespace Session

/-- A session with an empty script in one directory, and in another one a script that imports the
module beside it. -/
def twoScripts : Session :=
  { initial with files := fun path =>
      if path = "b/main.tern" then .ok (.file [105, 109, 112, 111, 114, 116, 32, 108, 105, 98])
      else if path = "a/main.tern" || path = "b/lib.tern" then .ok (.file [])
      else .error .notFound }

/-- The expression `import lib`. -/
def importLib : Expr :=
  .node ⟨⟨.importWord, "import", none, 1, "b/main.tern"⟩, []⟩ (.importing ["lib"])

lemma read_main : twoScripts.files.read "b/main.tern" = .ok "import lib" :=
  rfl

lemma parse_main : parse "b/main.tern" "import lib" = .ok [importLib] := by
  have htokens : tokensOf "b/main.tern" "import lib" = .ok
      [⟨.importWord, "import", none, 1, "b/main.tern"⟩,
        ⟨.identifier, "lib", none, 1, "b/main.tern"⟩, .endOf "b/main.tern" 1] := rfl
  exact (parse_of_tokensOf htokens).trans rfl

lemma parent_a : Path.parent? "a/main.tern" = some "a" := by
  simp [Path.parent?, Path.trimEnd]

lemma parent_b : Path.parent? "b/main.tern" = some "b" := by
  simp [Path.parent?, Path.trimEnd]

lemma firstDirectory_main :
    firstDirectory? twoScripts.files [.script "a/main.tern"] = some "a" := by
  have hread : twoScripts.files.read "a/main.tern" = .ok "" := rfl
  simp only [firstDirectory?, Request.directory?, List.findSome?_cons, hread, parent_a]
  rfl

/-- The second script looks for its modules where the first one lies. -/
theorem script_modules_directory_second :
    twoScripts.moduleRoot = none ∧
      ∃ m, (Request.script "b/main.tern").Comes (twoScripts.serveAll [.script "a/main.tern"]) m ∧
        m.session.moduleRoot = some "a" ∧ Path.parent? "b/main.tern" = some "b" := by
  have hroot : twoScripts.moduleRoot = none := rfl
  have hread : (twoScripts.serveAll [.script "a/main.tern"]).files.read "b/main.tern" =
      .ok "import lib" := by
    rw [(moduleRoot_serveAll _ _).2]
    exact read_main
  obtain ⟨m, hm⟩ := Request.comes_script hread parse_main
  have h := (script_modules_directory hroot [.script "a/main.tern"] "b/main.tern" hm).1
  rw [firstDirectory_main] at h
  exact ⟨hroot, m, hm, h, parent_b⟩

section

variable {path text : String} {site : Site} {segments : List String} {s : Session}
  (hread : s.files.read path = .ok text)
  (hparse : parse path text = .ok [.node site (.importing segments)])
  (hnew : Module.path segments ∉ s.imported)

include hread hparse hnew

/-- A script that imports an empty module gives null. -/
lemma runFile_import_empty
    (htext : (s.forScript path).moduleText? (Module.path segments) = some "")
    (hempty : parse (Module.path segments) "" = .ok []) :
    ∃ s', runFile path s = .ok .null s' := by
  let started := Session.atLine
    { s.forScript path with env := (s.forScript path).env.setFile path } site.token.line
  have ho : (s.forScript path).Onward started := ⟨fun _ h => h, rfl, rfl⟩
  obtain ⟨s', hbody⟩ : ∃ s', ∀ run, Eval.moduleBody (Module.path segments) "" run
      (started.entering (Module.path segments)) = .ok .null s' := by
    simp only [Eval.moduleBody, Eval.bind_apply, Eval.inFile_apply, Eval.inPlace, hempty]
    exact ⟨_, fun _ => rfl⟩
  have himport : ∀ run, Eval.importModule run segments started = .ok .null s' := fun run =>
    (Eval.importModule_of_text (s := started) run hnew ((ho.moduleText? _).trans htext)).trans
      (hbody run)
  rw [runFile_of_read hread]
  exact ⟨_, evalSource_of_ok hparse (program_importing himport fun _ _ h => by cases h)⟩

/-- A script that imports a module that can not be loaded fails. -/
lemma runFile_import_missing
    (htext : (s.forScript path).moduleText? (Module.path segments) = none) :
    ∃ failure s', runFile path s = .error failure s' := by
  let started := Session.atLine
    { s.forScript path with env := (s.forScript path).env.setFile path } site.token.line
  have ho : (s.forScript path).Onward started := ⟨fun _ h => h, rfl, rfl⟩
  obtain ⟨fault, himport⟩ := Eval.importModule_of_none (s := started) hnew
    ((ho.moduleText? _).trans htext)
  rw [runFile_of_read hread]
  exact ⟨_, _, evalSource_of_error hparse (program_importing himport nofun)⟩

end

/-- An empty script gives null, and the session a directory of modules. -/
lemma runFile_empty {path : String} {s : Session} (hread : s.files.read path = .ok "")
    (hempty : parse path "" = .ok []) :
    ∃ s', runFile path s = .ok .null s' ∧ s'.files = s.files ∧ s'.imported = s.imported ∧
      s'.moduleRoot = s.moduleRoot.or (Path.parent? path) := by
  have hprogram : Eval.program Eval.run [] { s.forScript path with env := s.env.setFile path } =
      .ok .null { s.forScript path with env := s.env.setFile path } := rfl
  rw [runFile_of_read hread]
  exact ⟨_, evalSource_of_ok hempty hprogram, rfl, rfl, rfl⟩

/-- A script imports the module beside it if it is the first one, and fails to if a script of
another directory was run before. -/
theorem not_script_modules_beside :
    (∃ s, runFile "b/main.tern" twoScripts = .ok .null s) ∧
      ∃ s, runFile "a/main.tern" twoScripts = .ok .null s ∧
        ∃ failure s', runFile "b/main.tern" s = .error failure s' := by
  obtain ⟨s, hfirst, hfiles, himported, hroot⟩ := runFile_empty
    (rfl : twoScripts.files.read "a/main.tern" = .ok "") rfl
  refine ⟨runFile_import_empty read_main parse_main List.not_mem_nil ?_ rfl, s, hfirst,
    runFile_import_missing (hfiles ▸ read_main) parse_main (himported ▸ List.not_mem_nil) ?_⟩
  · simp only [moduleText?, forScript, parent_b]
    decide +kernel
  · rw [parent_a] at hroot
    simp only [moduleText?, forScript, hfiles, hroot, parent_b]
    decide +kernel

end Session

end Tern
