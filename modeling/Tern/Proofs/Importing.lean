/-
What an import does. A module that has been imported is not run again; one that has not is run if it
can be loaded, and it counts as imported from there on.

* `Session.Onward`: what stays of the modules of a session while something runs in it.
* `Session.moduleText?`: the text of a module.
* `Eval.importModule_of_mem`, `Eval.importModule_of_text`, `Eval.importModule_of_none`: the three
  ways that an import can go.
-/
import Tern.Proofs.Fuel

namespace Tern

/-! ### The modules of a session -/

/-- The second session has all imported modules of the first, and finds modules where it does. -/
structure Session.Onward (s s' : Session) : Prop where
  imported : s.imported ⊆ s'.imported
  moduleRoot : s'.moduleRoot = s.moduleRoot
  files : s'.files = s.files

namespace Session

lemma Onward.refl (s : Session) : s.Onward s := ⟨fun _ h => h, rfl, rfl⟩

lemma Onward.trans {s s' s'' : Session} (h₁ : s.Onward s') (h₂ : s'.Onward s'') : s.Onward s'' where
  imported := List.Subset.trans h₁.imported h₂.imported
  moduleRoot := h₂.moduleRoot.trans h₁.moduleRoot
  files := h₂.files.trans h₁.files

/-- Another environment changes nothing about modules. -/
lemma onward_env (s : Session) (env : Environment) : s.Onward { s with env } :=
  ⟨fun _ h => h, rfl, rfl⟩

lemma Follows.onward {s s' : Session} (h : s.Follows s') : s.Onward s' :=
  ⟨h.imported, h.moduleRoot, h.files⟩

lemma Onward.importable {s s' : Session} (h : s.Onward s') {relative : String} :
    s'.Importable relative ↔ s.Importable relative := by
  rw [Importable, Importable, h.moduleRoot, h.files]

/-- The text of a module, if it is there and can be read. -/
def moduleText? (s : Session) (relative : String) : Option String :=
  match Module.bundled? relative with
  | some text => some text
  | none =>
    let path := Path.join (s.moduleRoot.getD "") relative
    if s.files.isFile path then (s.files.read path).toOption else none

lemma Onward.moduleText? {s s' : Session} (h : s.Onward s') (relative : String) :
    s'.moduleText? relative = s.moduleText? relative := by
  rw [Session.moduleText?, Session.moduleText?, h.moduleRoot, h.files]

/-- A module with a text can be imported. -/
lemma importable_of_moduleText? {s : Session} {relative text : String}
    (h : s.moduleText? relative = some text) : s.Importable relative := by
  unfold Session.moduleText? at h
  split at h
  · rename_i hb
    exact .inl (by rw [hb]; rfl)
  · dsimp only at h
    split at h
    · rename_i hf
      exact .inr hf
    · cases h

/-- The session after a module was looked for. -/
def seeking (s : Session) (relative : String) : Session :=
  match Module.bundled? relative with
  | some _ => s
  | none => { s with sought := Path.join (s.moduleRoot.getD "") relative :: s.sought }

lemma beside_seeking (s : Session) (relative : String) : s.Beside (s.seeking relative) := by
  unfold seeking
  split
  · exact .refl s
  · exact ⟨rfl, rfl, rfl, rfl, rfl, .refl _⟩

/-- The session in which the text of a module is run. -/
def entering (s : Session) (relative : String) : Session :=
  { s.seeking relative with imported := relative :: (s.seeking relative).imported }

lemma onward_entering (s : Session) (relative : String) : s.Onward (s.entering relative) := by
  have hb := s.beside_seeking relative
  refine ⟨fun p hp => List.mem_cons_of_mem _ ?_, hb.moduleRoot, hb.files⟩
  rwa [hb.imported]

lemma mem_imported_entering (s : Session) (relative : String) :
    relative ∈ (s.entering relative).imported :=
  List.mem_cons_self

end Session

namespace Eval

/-- A text that can be loaded is. -/
lemma loadModule_of_text {s : Session} {relative text : String}
    (h : s.moduleText? relative = some text) :
    loadModule relative s = .ok text (s.seeking relative) := by
  unfold Session.moduleText? at h
  unfold loadModule Session.seeking
  split at h
  · rename_i hb
    cases h
    simp only [hb]
    rfl
  · rename_i hb
    dsimp only at h
    split at h
    · rename_i hf
      cases hr : s.files.read (Path.join (s.moduleRoot.getD "") relative) with
      | error e =>
          rw [hr] at h
          cases h
      | ok text' =>
          rw [hr] at h
          cases h
          simp only [hb, bind_apply, get_apply, hf, hr]
          rfl
    · cases h

/-- A module without a text is a failure. -/
lemma loadModule_of_none {s : Session} {relative : String} (h : s.moduleText? relative = none) :
    ∃ fault, loadModule relative s = .error (.fault fault []) (s.seeking relative) := by
  unfold Session.moduleText? at h
  unfold loadModule Session.seeking
  split at h
  · cases h
  · rename_i hb
    dsimp only at h
    split at h
    · rename_i hf
      cases hr : s.files.read (Path.join (s.moduleRoot.getD "") relative) with
      | ok text' =>
          rw [hr] at h
          cases h
      | error e =>
          simp only [hb, bind_apply, get_apply, hf, hr]
          exact ⟨_, rfl⟩
    · rename_i hf
      simp only [Bool.not_eq_true] at hf
      simp only [hb, bind_apply, get_apply, hf]
      exact ⟨_, rfl⟩

/-! ### What an import does -/

/-- The text of a module, run in the innermost frame. -/
def moduleBody (relative text : String) (run : Runner) : Eval Value := do
  let _ ← inFile relative (inPlace run relative text)
  return .null

/-- A module that does not parse ends in the error of the parser. -/
lemma moduleBody_of_error {relative text : String} {error : SourceError}
    (hparse : parse relative text = .error error) (run : Runner) (s : Session) :
    moduleBody relative text run s = .error (.fatal error) s := by
  simp only [moduleBody, bind_apply, inFile_apply, inPlace, hparse]
  rfl

/-- A module that has been imported is not run again. -/
lemma importModule_of_mem (run : Runner) {segments : List String} {s : Session}
    (h : Module.path segments ∈ s.imported) : importModule run segments s = .ok .null s := by
  have hc : s.imported.contains (Module.path segments) = true := by simpa using h
  simp only [importModule, bind_apply, get_apply, hc]
  rfl

/-- A module that has not been imported is run in the innermost frame. -/
lemma importModule_of_text (run : Runner) {segments : List String} {s : Session} {text : String}
    (h : Module.path segments ∉ s.imported)
    (htext : s.moduleText? (Module.path segments) = some text) :
    importModule run segments s =
      moduleBody (Module.path segments) text run (s.entering (Module.path segments)) := by
  have hc : s.imported.contains (Module.path segments) = false := by simpa using h
  simp only [importModule, moduleBody, bind_apply, get_apply, hc, Bool.false_eq_true, if_false,
    loadModule_of_text htext]
  rfl

/-- A module that can not be loaded is a failure, and not imported. -/
lemma importModule_of_none {segments : List String} {s : Session}
    (h : Module.path segments ∉ s.imported)
    (htext : s.moduleText? (Module.path segments) = none) :
    ∃ fault, ∀ run, importModule run segments s =
      .error (.fault fault []) (s.seeking (Module.path segments)) := by
  have hc : s.imported.contains (Module.path segments) = false := by simpa using h
  obtain ⟨fault, hload⟩ := loadModule_of_none htext
  refine ⟨fault, fun run => ?_⟩
  simp only [importModule, bind_apply, get_apply, hc, Bool.false_eq_true, if_false, hload]

/-- An import as a task. -/
lemma step_importing (rounds : Nat) (run : Runner) (site : Site) (segments : List String)
    (s : Session) : step rounds run (.expr (.node site (.importing segments))) s =
      importModule run segments (s.atLine site.token.line) := rfl

end Eval

end Tern
