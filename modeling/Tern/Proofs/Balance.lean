/-
Balanced environments: what the evaluation of something in the innermost frame may have done to
the stack by the time it ends.

* `Frame.Alike`: two frames that differ in the values of names at most.
* `Environment.Balanced`: the frames below the innermost one are alike, the innermost one has the
  same name and file and has lost no name, and the same failures are being handled.
* `Environment.Balanced.pop`, `.setFile`, `.popSnapshot`: taking off what was put on leaves a
  balanced environment if what happened in between was balanced.
* `Environment.balanced_mark`, `balanced_bind`, `balanced_put`: the single changes.
-/
import Mathlib.Tactic
import Mathlib.Data.List.Forall2
import Tern.Environment

namespace Tern

/-- A name has a value exactly if it is among the names. -/
lemma Bindings.has_iff_mem_names {α : Type} {name : String} {b : Bindings α} :
    b.has name = true ↔ name ∈ b.names := by
  induction b with
  | nil => simp [Bindings.has, Bindings.find?, Bindings.names]
  | cons entry rest ih =>
      obtain ⟨key, value⟩ := entry
      simp only [Bindings.has, Bindings.names] at ih ⊢
      by_cases h : key = name
      · simp [Bindings.find?, h]
      · simp [Bindings.find?, h, ih, Ne.symm h]

/-- Frames that differ at most in the values of their names. -/
structure Frame.Alike (f g : Frame) : Prop where
  name : g.name = f.name
  file : g.file = f.file
  line : g.line = f.line
  names : g.vars.names = f.vars.names

lemma Frame.Alike.refl (f : Frame) : f.Alike f := ⟨rfl, rfl, rfl, rfl⟩

lemma Frame.Alike.trans {f g k : Frame} (h₁ : f.Alike g) (h₂ : g.Alike k) : f.Alike k :=
  ⟨h₂.name.trans h₁.name, h₂.file.trans h₁.file, h₂.line.trans h₁.line, h₂.names.trans h₁.names⟩

/-- Frames that are alike have the same names. -/
lemma Frame.Alike.has {f g : Frame} (h : f.Alike g) {name : String}
    (hf : f.vars.has name = true) : g.vars.has name = true := by
  rw [Bindings.has_iff_mem_names] at hf ⊢
  exact h.names.symm ▸ hf

/-- Stacks that are alike have outermost frames that are alike, if they have any. -/
lemma Frame.getLast?_of_forall₂ {fs gs : List Frame} (h : List.Forall₂ Frame.Alike fs gs) :
    fs.getLast? = none ∧ gs.getLast? = none ∨
      ∃ f g, fs.getLast? = some f ∧ gs.getLast? = some g ∧ f.Alike g := by
  induction h with
  | nil => exact .inl ⟨rfl, rfl⟩
  | @cons f g fs gs hfg _ ih =>
      obtain ⟨hf, hg⟩ | ⟨f', g', hf, hg, hfg'⟩ := ih
      · exact .inr ⟨f, g, by simp [List.getLast?_cons, hf], by simp [List.getLast?_cons, hg], hfg⟩
      · exact .inr
          ⟨f', g', by simp [List.getLast?_cons, hf], by simp [List.getLast?_cons, hg], hfg'⟩

/-- Stacks that are alike frame by frame. -/
lemma Frame.forall₂_alike_trans {fs gs ks : List Frame} (h₁ : List.Forall₂ Frame.Alike fs gs)
    (h₂ : List.Forall₂ Frame.Alike gs ks) : List.Forall₂ Frame.Alike fs ks := by
  induction h₁ generalizing ks with
  | nil => exact h₂
  | cons h _ ih =>
      cases h₂ with
      | cons h' t' => exact .cons (h.trans h') (ih t')

/-- What is the same of all frames that are alike is the same of stacks of them. -/
lemma Frame.map_of_forall₂ {β : Type} {g : Frame → β} (hg : ∀ {f f'}, f.Alike f' → g f' = g f)
    {fs gs : List Frame} (h : List.Forall₂ Frame.Alike fs gs) : gs.map g = fs.map g := by
  induction h with
  | nil => rfl
  | cons hff' _ ih => rw [List.map_cons, List.map_cons, ih, hg hff']

namespace Environment

/-- The global frame. -/
def global (e : Environment) : Frame := e.below.getLast?.getD e.top

/-- The second environment is one in which the innermost frame of the first has run on. -/
structure Balanced (e e' : Environment) : Prop where
  name : e'.top.name = e.top.name
  file : e'.top.file = e.top.file
  names : ∀ name, e.top.vars.has name = true → e'.top.vars.has name = true
  below : List.Forall₂ Frame.Alike e.below e'.below
  snapshots : e'.snapshots = e.snapshots

namespace Balanced

variable {e e' e'' : Environment}

lemma refl (e : Environment) : e.Balanced e :=
  ⟨rfl, rfl, fun _ h => h, List.forall₂_same.mpr fun f _ => Frame.Alike.refl f, rfl⟩

lemma trans (h₁ : e.Balanced e') (h₂ : e'.Balanced e'') : e.Balanced e'' where
  name := h₂.name.trans h₁.name
  file := h₂.file.trans h₁.file
  names name h := h₂.names name (h₁.names name h)
  below := Frame.forall₂_alike_trans h₁.below h₂.below
  snapshots := h₂.snapshots.trans h₁.snapshots

/-- There are as many frames as before. -/
lemma depth_eq (h : e.Balanced e') : e'.depth = e.depth := by
  rw [depth, depth, h.below.length_eq]

/-- The frames stand in the same files as before. -/
lemma files_eq (h : e.Balanced e') : e'.frames.map (·.file) = e.frames.map (·.file) := by
  rw [frames, frames, List.map_cons, List.map_cons, h.file,
    Frame.map_of_forall₂ Frame.Alike.file h.below]

/-- The frames have the same names as before. -/
lemma names_eq (h : e.Balanced e') : e'.frames.map (·.name) = e.frames.map (·.name) := by
  rw [frames, frames, List.map_cons, List.map_cons, h.name,
    Frame.map_of_forall₂ Frame.Alike.name h.below]

/-- The global frame has lost no name. -/
lemma global_names (h : e.Balanced e') {name : String} (hn : e.global.vars.has name = true) :
    e'.global.vars.has name = true := by
  rw [global] at hn ⊢
  obtain hb | ⟨f, g, hf, hg, hfg⟩ := Frame.getLast?_of_forall₂ h.below
  · rw [hb.1] at hn
    rw [hb.2]
    exact h.names name hn
  · rw [hf] at hn
    rw [hg]
    exact hfg.has hn

/-- A frame that was put on is taken off again. -/
lemma pop {name file : String} {line : Nat} (h : (e.push name file line).Balanced e') :
    e.Balanced e'.pop := by
  obtain ⟨top, below, snapshots⟩ := e'
  have hbelow : List.Forall₂ Frame.Alike (e.top :: e.below) below := h.below
  cases hbelow with
  | cons htop hrest =>
      exact ⟨htop.name, htop.file, fun _ hn => htop.has hn, hrest, h.snapshots⟩

/-- A file that was moved to is left again. -/
lemma setFile {file : String} (h : (e.setFile file).Balanced e') :
    e.Balanced (e'.setFile e.file) :=
  ⟨h.name, rfl, h.names, h.below, h.snapshots⟩

/-- The handling that was started is ended. -/
lemma popSnapshot {trace : Trace} (h : (e.pushSnapshot trace).Balanced e') :
    e.Balanced e'.popSnapshot := by
  refine ⟨h.name, h.file, h.names, h.below, ?_⟩
  have hs : e'.snapshots = trace :: e.snapshots := h.snapshots
  rw [Environment.popSnapshot, hs]
  rfl

end Balanced

/-- Taking frames off until as many are left as there are changes nothing. -/
lemma truncate_depth (e : Environment) : e.truncate e.depth = e := by
  have h : max e.depth 1 = e.depth := max_eq_left e.depth_pos
  rw [truncate, h, Nat.sub_self, List.drop_zero]
  rfl

/-! ### Single changes -/

lemma balanced_mark (e : Environment) (line : Nat) : e.Balanced (e.mark line) :=
  ⟨rfl, rfl, fun _ h => h, (Balanced.refl e).below, rfl⟩

lemma balanced_bind (e : Environment) (name : String) (v : Value) : e.Balanced (e.bind name v) := by
  refine ⟨rfl, rfl, fun other h => ?_, (Balanced.refl e).below, rfl⟩
  rw [bind, Bindings.has_put, h, Bool.or_true]

/-- A name that is defined is bound in the innermost frame. -/
lemma balanced_of_define {e e' : Environment} {name : String} {v : Value}
    (h : e.define name v = .ok e') : e.Balanced e' := by
  rw [define] at h
  split at h
  · cases h
  · cases h
    exact balanced_bind e name v

/-- Changing the value of a name leaves frames that are alike. -/
lemma forall₂_alike_of_putIn? {name : String} {v : Value} {fs gs : List Frame}
    (h : putIn? name v fs = some gs) : List.Forall₂ Frame.Alike fs gs := by
  induction fs generalizing gs with
  | nil => cases h
  | cons f rest ih =>
      rw [putIn?] at h
      split at h
      · rename_i hf
        cases h
        refine .cons ⟨rfl, rfl, rfl, ?_⟩ (List.forall₂_same.mpr fun f _ => Frame.Alike.refl f)
        rw [Bindings.names_put, if_pos hf]
      · obtain ⟨gs', hgs, rfl⟩ := Option.map_eq_some_iff.mp h
        exact .cons (Frame.Alike.refl f) (ih hgs)

lemma balanced_put (e : Environment) (name : String) (v : Value) : e.Balanced (e.put name v) := by
  rw [put]
  split
  · exact balanced_bind e name v
  · split
    · rename_i below hbelow
      exact ⟨rfl, rfl, fun _ h => h, forall₂_alike_of_putIn? hbelow, rfl⟩
    · exact balanced_bind e name v

end Environment

end Tern
