/-
Moments of an evaluation. An evaluation gives its result only, and what happens on the way can not
be read off. So an evaluation is halted at a moment: it lacks something there, which nothing in a
program can catch. The moment comes if this makes a difference, and it comes after another one if it
makes none any more once the evaluation is halted at the other one.

* `Eval.performUntil`: a runner that is halted at certain moments.
* `Eval.Comes`, `Eval.ComesAfter`: which moments come, and in which order.
* `Eval.Staged`: the results of an evaluation that is halted at neither, one or both of two kinds
  of moments; `Logic.staging` is the logic in which they are compared.
* `Eval.onward_of_comes`: every moment that comes is onward from the start.
* `Eval.holds_of_comesAfter`, `Eval.holds_after_comes`: what a moment brings about for good holds at
  each moment after it and in the end.
-/
import Tern.Proofs.Importing

namespace Tern

/-- A task, and the session in which it is carried out. -/
structure Moment where
  task : Task
  session : Session

namespace Eval

variable {α β : Type}

/-- A task for which there is a level: a call that gets no frame takes one call. -/
def descend (rounds : Nat) (run : Nat → Runner) (calls : Nat) (task : Task) : Eval Value :=
  if task.isFrameless then
    match calls with
    | 0 => throw (.outOfFuel .calls)
    | calls + 1 => step rounds (run calls) task
  else step rounds (run calls) task

lemma perform_eq_descend (rounds calls levels : Nat) (task : Task) :
    perform rounds calls (levels + 1) task =
      descend rounds (fun calls => perform rounds calls levels) calls task := rfl

/-- Carries out a task as `perform` does, but lacks something at certain moments. -/
def performUntil (halts : Moment → Option Shortage) (rounds : Nat) : (calls levels : Nat) → Runner
  | _, 0, _ => throw (.outOfFuel .levels)
  | calls, levels + 1, task => fun s =>
    match halts ⟨task, s⟩ with
    | some lacking => .error (.outOfFuel lacking) s
    | none => descend rounds (fun calls => performUntil halts rounds calls levels) calls task s

variable {halts : Moment → Option Shortage} {rounds calls levels : Nat} {task : Task} {s : Session}

lemma performUntil_halted {lacking : Shortage} (h : halts ⟨task, s⟩ = some lacking) :
    performUntil halts rounds calls (levels + 1) task s = .error (.outOfFuel lacking) s := by
  simp only [performUntil, h]

lemma performUntil_onward (h : halts ⟨task, s⟩ = none) :
    performUntil halts rounds calls (levels + 1) task s =
      descend rounds (fun calls => performUntil halts rounds calls levels) calls task s := by
  simp only [performUntil, h]

/-- Without a moment to halt at, the task is carried out. -/
lemma performUntil_none (rounds calls levels : Nat) :
    performUntil (fun _ => none) rounds calls levels = perform rounds calls levels := by
  induction levels generalizing calls with
  | zero => rfl
  | succ levels ih =>
      funext task s
      rw [performUntil_onward rfl, perform_eq_descend]
      simp only [ih]

open Classical in
/-- Halts at one moment. -/
noncomputable def haltAt (m : Moment) (lacking : Shortage) (m' : Moment) : Option Shortage :=
  if m' = m then some lacking else none

/-- Halts at a moment, if there is one. -/
noncomputable def haltAt? (i : Option Moment) : Moment → Option Shortage :=
  i.elim (fun _ => none) (haltAt · .levels)

/-- At any other moment it does not. -/
lemma haltAt?_of_ne {i : Option Moment} {m : Moment} (hi : i ≠ some m) : haltAt? i m = none := by
  cases i with
  | none => rfl
  | some m' => exact if_neg fun h => hi (congrArg some h.symm)

/-- A moment comes while something is carried out with amounts of rounds, calls and levels. -/
def Comes (rounds calls levels : Nat) (x : Runner → Eval α) (s : Session) (m : Moment) : Prop :=
  ∃ lacking, x (performUntil (haltAt m lacking) rounds calls levels) s ≠
    x (perform rounds calls levels) s

/-- A moment comes, and not before another one: if the evaluation is halted there, it does not come
any more. -/
def ComesAfter (rounds calls levels : Nat) (x : Runner → Eval α) (s : Session) (m m' : Moment) :
    Prop :=
  m' ≠ m ∧ ∃ lacking lacking', lacking ≠ lacking' ∧
    x (performUntil (haltAt m' lacking') rounds calls levels) s ≠
      x (perform rounds calls levels) s ∧
    x (performUntil (fun q => (haltAt m lacking q).or (haltAt m' lacking' q)) rounds calls levels) s
      = x (performUntil (haltAt m lacking) rounds calls levels) s

/-! ### Evaluations halted at neither, one or both of two kinds of moments -/

/-- The session of a result. -/
def ending : EStateM.Result Signal Session α → Session
  | .ok _ s => s
  | .error _ s => s

lemma ending_apply (x : Eval α) (s : Session) : ending (x s) = s.after x := by
  rw [Session.after]
  cases x s <;> rfl

/-- The results of an evaluation that is halted at moments of a first kind, of a second kind, or
both, as the index says. Moments of the second kind lie in sessions without a property, which those
of the first kind bring about for good. -/
structure Staged (B : Session → Prop) (l₁ l₂ : Shortage) (s : Session)
    (r : Bool × Bool → EStateM.Result Signal Session α) : Prop where
  onward : ∀ i, s.Onward (ending (r i))
  /-- A moment of the second kind comes or does not. -/
  second : r (false, true) = r (false, false) ∨ Short l₂ (r (false, true))
  /-- It does not where the property holds. -/
  past : B s → r (false, true) = r (false, false)
  /-- Either no moment of the first kind comes, or one does; then none of the second kind comes
  after it, but one may have come before. -/
  first : (r (true, false) = r (false, false) ∧ r (true, true) = r (false, true)) ∨
    (Short l₁ (r (true, false)) ∧ B (ending (r (false, false))) ∧
      ((r (true, true) = r (true, false) ∧ r (false, true) = r (false, false)) ∨
        (r (true, true) = r (false, true) ∧ Short l₂ (r (false, true)))))

namespace Staged

variable {B : Session → Prop} {l₁ l₂ : Shortage} {s s' : Session}
  {r : Bool × Bool → EStateM.Result Signal Session α}

/-- Where nothing depends on halting. -/
lemma const {r : EStateM.Result Signal Session α} (h : s.Onward (ending r)) :
    Staged B l₁ l₂ s fun _ => r :=
  ⟨fun _ => h, .inl rfl, fun _ => rfl, .inl ⟨rfl, rfl⟩⟩

/-- The same results, from an earlier session. -/
lemma earlier (hB : ∀ {s s' : Session}, s.Onward s' → B s → B s') (hs : s.Onward s')
    (h : Staged B l₁ l₂ s' r) : Staged B l₁ l₂ s r :=
  { h with
    onward := fun i => hs.trans (h.onward i)
    past := fun hb => h.past (hB hs hb) }

/-- What is made of a result, if it passes on what the result is short of. -/
lemma andThen {c : Bool × Bool → EStateM.Result Signal Session α → EStateM.Result Signal Session β}
    (hB : ∀ {s s' : Session}, s.Onward s' → B s → B s') (hr : Staged B l₁ l₂ s r)
    (hshort : ∀ lacking s', ∃ s'', ∀ i,
      c i (.error (.outOfFuel lacking) s') = .error (.outOfFuel lacking) s'')
    (hnext : ∀ i, Staged B l₁ l₂ (ending (r i)) fun j => c j (r i)) :
    Staged B l₁ l₂ s fun i => c i (r i) := by
  have short : ∀ {lacking i}, Short lacking (r i) → Short lacking (c i (r i)) := by
    rintro lacking i ⟨s', hs'⟩
    obtain ⟨s'', hc⟩ := hshort lacking s'
    exact ⟨s'', by rw [hs', hc]⟩
  have same : ∀ {lacking i j}, Short lacking (r j) → r i = r j → c i (r i) = c j (r j) := by
    rintro lacking i j ⟨s', hs'⟩ hij
    obtain ⟨s'', hc⟩ := hshort lacking s'
    rw [hij, hs', hc, hc]
  have later : ∀ i, (ending (r i)).Onward (ending (c i (r i))) := fun i => (hnext i).onward i
  have h₀ := hnext (false, false)
  refine ⟨fun i => (hr.onward i).trans (later i), ?_, fun hb => ?_, ?_⟩
  · obtain heq | hs := hr.second
    · simp only [heq]
      exact h₀.second
    · exact .inr (short hs)
  · simp only [hr.past hb]
    exact h₀.past (hB (hr.onward _) hb)
  · obtain ⟨h₁, h₁₂⟩ | ⟨h₁, hb, h⟩ := hr.first
    · -- Up to here no moment of the first kind has come.
      obtain h₂ | h₂ := hr.second
      · simp only [h₁₂, h₂, h₁]
        exact h₀.first
      · have hsame : c (true, true) (r (true, true)) = c (false, true) (r (false, true)) :=
          same h₂ h₁₂
        simp only [hsame, h₁]
        obtain ⟨h, -⟩ | ⟨hs, hb, -⟩ := h₀.first
        · exact .inl ⟨h, trivial⟩
        · exact .inr ⟨hs, hb, .inr ⟨trivial, short h₂⟩⟩
    · refine .inr ⟨short h₁, hB (later _) hb, ?_⟩
      obtain ⟨h₁₂, h₂⟩ | ⟨h₁₂, h₂⟩ := h
      · refine .inl ⟨same h₁ h₁₂, ?_⟩
        simp only [h₂]
        exact h₀.past hb
      · exact .inr ⟨same h₂ h₁₂, short h₂⟩

end Staged

end Eval

/-- Families of four computations, one for each way to halt. -/
def Logic.staging (B : Session → Prop) (l₁ l₂ : Shortage)
    (hB : ∀ {s s' : Session}, s.Onward s' → B s → B s') : Logic (Bool × Bool) where
  Holds x s := Eval.Staged B l₁ l₂ s fun i => x i s
  Later := Session.Onward
  Allows _ _ := True
  Enters _ := True
  later_refl := .refl
  later_trans := .trans
  allows_thrown _ _ := trivial
  allows_leave _ _ := trivial
  allows_fatal _ _ := trivial
  beside {_ x s} hx := .const (by
    rw [Eval.ending_apply]
    exact (Eval.Keeps.of_local hx).onward)
  raise _ := .const (.refl _)
  bind {α β x f s} hx hf := by
    simp only [Eval.bind_apply]
    refine Eval.Staged.andThen (c := fun i r => match r with
      | .ok a s' => f i a s'
      | .error signal s' => .error signal s') hB hx (fun _ s' => ⟨s', fun _ => rfl⟩) fun i => ?_
    cases h : x i s with
    | error signal s' => exact .const (.refl s')
    | ok a s' =>
        have hl := hx.onward i
        rw [h] at hl
        exact hf a s' ⟨i, h⟩ hl
  recover {α x handler s} hx hshort hh := by
    refine Eval.Staged.andThen (c := fun i r => match r with
      | .ok a s' => .ok a s'
      | .error signal s' => handler i signal s') hB hx
      (fun lacking s' => ⟨s', fun i => by simp only [hshort]; rfl⟩) fun i => ?_
    cases h : x i s with
    | ok a s' => exact .const (.refl s')
    | error signal s' =>
        have hl := hx.onward i
        rw [h] at hl
        exact hh signal s' trivial hl
  mark line s := .const (s.onward_env _)
  bindName name v s := .const (s.onward_env _)
  assign name v declare s := .const (by
    rw [Eval.ending_apply]
    exact (Eval.Keeps.assign name v declare).onward)
  inFrame {α name file line body s} h := by
    by_cases hd : s.env.depth < s.maxDepth
    · simp only [Eval.inFrame_apply name file line _ hd]
      refine ((h hd).earlier hB (s.onward_env _)).andThen (c := fun _ => Eval.leaveFrame) hB
        (fun _ s' => ⟨_, fun _ => rfl⟩) fun i => .const ?_
      cases body i { s with env := s.env.push name file line } <;> exact Session.onward_env _ _
    · simp only [Eval.inFrame_full name file line _ (Nat.le_of_not_lt hd)]
      exact .const (.refl s)
  inFile {α file body s} _ h := by
    simp only [Eval.inFile_apply]
    refine (h.earlier hB (s.onward_env _)).andThen (c := fun _ => Eval.leaveFile s.env.file) hB
      (fun _ s' => ⟨_, fun _ => rfl⟩) fun i => .const ?_
    cases body i { s with env := s.env.setFile file } <;> exact Session.onward_env _ _
  handling {α trace body s} h := by
    simp only [Eval.handling_apply]
    refine (h.earlier hB (s.onward_env _)).andThen (c := fun _ => Eval.leaveHandler) hB
      (fun _ s' => ⟨_, fun _ => rfl⟩) fun i => .const ?_
    cases body i { s with env := s.env.pushSnapshot trace } <;> exact Session.onward_env _ _
  importing relative s := .const ⟨List.subset_cons_self _ _, rfl, rfl⟩

lemma Logic.carries_staging {B : Session → Prop} {l₁ l₂ : Shortage}
    {hB : ∀ {s s' : Session}, s.Onward s' → B s → B s'} : (Logic.staging B l₁ l₂ hB).Carries :=
  ⟨fun _ _ => trivial, fun _ _ => trivial⟩

namespace Eval

variable {B : Session → Prop} {l₁ l₂ : Shortage}

/-- A loop of any number of rounds. -/
lemma staged_loopWhile (hB : ∀ {s s' : Session}, s.Onward s' → B s → B s')
    {run : Bool × Bool → Runner} (h : ∀ task s, Staged B l₁ l₂ s fun i => run i task s)
    (condition body : Expr) (rounds : Nat) (v : Value) (s : Session) :
    Staged B l₁ l₂ s fun i => loopWhile (run i) condition body rounds v s := by
  have hs : (Logic.staging B l₁ l₂ hB).Open run s := fun task s' _ _ => h task s'
  have hl := Logic.loopWhile (fun _ => 0) condition body rounds v hs trivial trivial
    fun {s'} _ _ => .const (.refl s')
  rwa [Nat.zero_add] at hl

/-- A task is carried out from its parts. -/
lemma staged_step (hB : ∀ {s s' : Session}, s.Onward s' → B s → B s')
    {run : Bool × Bool → Runner} (h : ∀ task s, Staged B l₁ l₂ s fun i => run i task s)
    (rounds : Nat) (task : Task) (s : Session) :
    Staged B l₁ l₂ s fun i => step rounds (run i) task s := by
  have hs : (Logic.staging B l₁ l₂ hB).Serves run task.Part s := Logic.serves_of_forall h
  exact Logic.step (fun _ => rounds) task hs (fun _ _ _ _ _ => h _ _)
    (fun _ c b _ _ => staged_loopWhile hB h c b rounds .null _)
    (Logic.attempt_of_task Logic.carries_staging hs) fun _ _ _ _ => trivial

lemma staged_descend (rounds : Nat) (hB : ∀ {s s' : Session}, s.Onward s' → B s → B s')
    {run : Bool × Bool → Nat → Runner}
    (h : ∀ calls task s, Staged B l₁ l₂ s fun i => run i calls task s) (calls : Nat) (task : Task)
    (s : Session) : Staged B l₁ l₂ s fun i => descend rounds (run i) calls task s := by
  unfold descend
  split
  · cases calls with
    | zero => exact .const (.refl s)
    | succ calls => exact staged_step hB (h calls) rounds task s
  · exact staged_step hB (h calls) rounds task s

/-- A computation that is made of tasks, so that halting tells in it as it does in them. -/
def OfTasks {α : Type} (x : Runner → Eval α) : Prop :=
  ∀ ⦃B : Session → Prop⦄ ⦃l₁ l₂ : Shortage⦄
    (_ : ∀ {s s' : Session}, s.Onward s' → B s → B s') (run : Bool × Bool → Runner),
    (∀ task s, Staged B l₁ l₂ s fun i => run i task s) →
    ∀ s, Staged B l₁ l₂ s fun i => x (run i) s

variable {α β : Type}

/-- What holds in every logic with a runner that serves all tasks holds of tasks that are halted. -/
lemma ofTasks_of_serves {x : Runner → Eval α}
    (h : ∀ {ι : Type} {L : Logic ι} {run : ι → Runner} {s : Session},
      L.Serves run (fun _ => True) s → L.Holds (fun i => x (run i)) s) : OfTasks x :=
  fun B l₁ l₂ hB _ hrun _ => h (L := Logic.staging B l₁ l₂ hB) (Logic.serves_of_forall hrun)

/-- What asks for no task. -/
lemma ofTasks_const {x : Eval α} (h : ∀ s : Session, s.Onward (s.after x)) : OfTasks fun _ => x :=
  fun _ _ _ _ _ _ s => .const (by rw [ending_apply]; exact h s)

lemma ofTasks_local {x : Eval α} (h : Eval.Local x) : OfTasks fun _ => x :=
  ofTasks_const fun _ => (Keeps.of_local h).onward

lemma OfTasks.map {x : Runner → Eval α} (f : α → β) (h : OfTasks x) :
    OfTasks fun run => f <$> x run :=
  fun _ _ _ hB run hrun s => Logic.map (L := Logic.staging _ _ _ hB) f (h hB run hrun s)

lemma ofTasks_task (task : Task) : OfTasks fun run => run task :=
  fun _ _ _ _ _ h s => h task s

lemma ofTasks_moduleBody (relative text : String) : OfTasks (moduleBody relative text) := by
  intro B l₁ l₂ hB run hrun s
  have hs : ∀ u, (Logic.staging B l₁ l₂ hB).Open run u := fun _ task u _ _ => hrun task u
  exact (Logic.staging B l₁ l₂ hB).bind
    (Logic.inFile _ trivial (Logic.inPlace relative text (hs _) fun _ => trivial))
    fun _ u _ _ => Logic.pure _ Value.null u

/-- A computation leaves a session that is onward from its start. -/
lemma OfTasks.onward {x : Runner → Eval α} (h : OfTasks x) (rounds calls levels : Nat)
    (s : Session) : s.Onward (s.after (x (perform rounds calls levels))) := by
  have hs : Staged (fun _ => False) .levels .levels s fun _ =>
      x (perform rounds calls levels) s := by
    refine h (fun _ hb => hb) (fun _ => perform rounds calls levels) (fun task u => .const ?_) s
    rw [ending_apply]
    exact (keeps_perform _ _ _ task u).onward
  have ho := hs.onward (false, false)
  rwa [ending_apply] at ho

end Eval

/-- A module is run at this moment: it is imported for the first time, and there is a text of it. -/
structure Moment.Runs (m : Moment) (segments : List String) (text : String) : Prop where
  importing : ∃ site, m.task = .expr (.node site (.importing segments))
  fresh : Module.path segments ∉ m.session.imported
  text : m.session.moduleText? (Module.path segments) = some text

/-- The text is run in a session onward from here in which the module is imported. -/
lemma Moment.Runs.step_eq {m : Moment} {segments : List String} {text : String}
    (h : m.Runs segments text) : ∃ s, m.session.Onward s ∧ Module.path segments ∈ s.imported ∧
      ∀ rounds run, Eval.step rounds run m.task m.session =
        Eval.moduleBody (Module.path segments) text run s := by
  obtain ⟨site, htask⟩ := h.importing
  have hl : m.session.Onward (m.session.atLine site.token.line) := m.session.onward_env _
  refine ⟨(m.session.atLine site.token.line).entering (Module.path segments),
    hl.trans (Session.onward_entering _ _), Session.mem_imported_entering _ _, fun rounds run => ?_⟩
  rw [htask]
  exact Eval.importModule_of_text run h.fresh ((hl.moduleText? _).trans h.text)

/-- An import is no call. -/
lemma Moment.Runs.descend_eq {m : Moment} {segments : List String} {text : String}
    (h : m.Runs segments text) (rounds : Nat) (run : Nat → Runner) (calls : Nat) :
    Eval.descend rounds run calls m.task = Eval.step rounds (run calls) m.task := by
  obtain ⟨site, htask⟩ := h.importing
  rw [htask]
  rfl

/-- A property holds at this moment, or a module is run that brings it about. -/
def Moment.LeadsTo (m : Moment) (B : Session → Prop) : Prop :=
  B m.session ∨ ∃ segments text, m.Runs segments text ∧
    ∀ {s}, m.session.Onward s → Module.path segments ∈ s.imported → B s

lemma Moment.Runs.leadsTo {m : Moment} {segments : List String} {text : String}
    (h : m.Runs segments text) : m.LeadsTo fun s => Module.path segments ∈ s.imported :=
  .inr ⟨segments, text, h, fun _ hmem => hmem⟩

namespace Eval

/-- From a moment that leads to a property on, all that is asked for is asked for where the property
holds. -/
lemma staged_leadsTo {B : Session → Prop} {l₁ l₂ : Shortage}
    (hB : ∀ {s s' : Session}, s.Onward s' → B s → B s') {run : Bool × Bool → Nat → Runner}
    (hrun : ∀ calls task s, Staged B l₁ l₂ s fun i => run i calls task s) (rounds calls : Nat)
    {task : Task} {s : Session} (h : Moment.LeadsTo ⟨task, s⟩ B) :
    descend rounds (run (false, true)) calls task s =
        descend rounds (run (false, false)) calls task s ∧
      B (ending (descend rounds (run (false, false)) calls task s)) := by
  obtain hb | ⟨segments, text, hruns, hafter⟩ := h
  · have hnext := staged_descend rounds hB hrun calls task s
    exact ⟨hnext.past hb, hB (hnext.onward _) hb⟩
  · obtain ⟨s', hs', hmem, hstep⟩ := hruns.step_eq
    have hb := hafter hs' hmem
    have hbody := ofTasks_moduleBody (Module.path segments) text hB (fun i => run i calls)
      (hrun calls) s'
    have heq : ∀ i, descend rounds (run i) calls task s =
        moduleBody (Module.path segments) text (run i calls) s' := fun i =>
      (congrFun (hruns.descend_eq rounds (run i) calls) s).trans (hstep rounds (run i calls))
    rw [heq, heq]
    exact ⟨hbody.past hb, hB (hbody.onward _) hb⟩

/-- Halts at the moments of two kinds, of one or of none. -/
def haltBoth (first second : Moment → Option Shortage) (i : Bool × Bool) (m : Moment) :
    Option Shortage :=
  (cond i.1 (first m) none).or (cond i.2 (second m) none)

@[simp]
lemma haltBoth_neither (first second : Moment → Option Shortage) :
    haltBoth first second (false, false) = fun _ => none := rfl

@[simp]
lemma haltBoth_first (first second : Moment → Option Shortage) :
    haltBoth first second (true, false) = first :=
  funext fun _ => Option.or_none

@[simp]
lemma haltBoth_second (first second : Moment → Option Shortage) :
    haltBoth first second (false, true) = second := rfl

section

variable {B : Session → Prop} {l₁ l₂ : Shortage} (first second : Moment → Option Shortage)
  (hB : ∀ {s s' : Session}, s.Onward s' → B s → B s')
  (hfirst : ∀ {m l}, first m = some l → l = l₁ ∧ second m = none ∧ m.LeadsTo B)
  (hsecond : ∀ {m l}, second m = some l → l = l₂ ∧ ¬ B m.session)

include hB hfirst hsecond

/-- Every task, halted at moments that bring a property about and at moments without it. -/
theorem staged_performUntil (rounds calls levels : Nat) (task : Task) (s : Session) :
    Staged B l₁ l₂ s fun i =>
      performUntil (haltBoth first second i) rounds calls levels task s := by
  induction levels generalizing calls task s with
  | zero => exact .const (.refl s)
  | succ levels ih =>
      have hnext := staged_descend rounds hB ih calls task s
      cases h₁ : first ⟨task, s⟩ with
      | some l =>
          obtain ⟨rfl, h₂, hleads⟩ := hfirst h₁
          have hhalt : ∀ b, performUntil (haltBoth first second (true, b)) rounds calls (levels + 1)
              task s = .error (.outOfFuel l) s :=
            fun b => performUntil_halted (by simp [haltBoth, h₁])
          have hgo : ∀ b, performUntil (haltBoth first second (false, b)) rounds calls (levels + 1)
              task s = _ :=
            fun b => performUntil_onward (by simp [haltBoth, h₂])
          obtain ⟨hsame, hb⟩ := staged_leadsTo hB ih rounds calls hleads
          have heq := (hgo true).trans (hsame.trans (hgo false).symm)
          refine ⟨?_, .inl heq, fun _ => heq, .inr ⟨⟨s, hhalt false⟩, ?_, .inl ⟨?_, heq⟩⟩⟩
          · rintro ⟨b, b'⟩
            cases b with
            | true =>
                rw [hhalt]
                exact .refl s
            | false =>
                rw [hgo]
                exact hnext.onward (false, b')
          · rwa [hgo]
          · rw [hhalt, hhalt]
      | none =>
          cases h₂ : second ⟨task, s⟩ with
          | some l =>
              obtain ⟨rfl, hb⟩ := hsecond h₂
              have hhalt : ∀ b, performUntil (haltBoth first second (b, true)) rounds calls
                  (levels + 1) task s = .error (.outOfFuel l) s :=
                fun b => performUntil_halted (by simp [haltBoth, h₁, h₂])
              have hgo : ∀ b, performUntil (haltBoth first second (b, false)) rounds calls
                  (levels + 1) task s = _ :=
                fun b => performUntil_onward (by simp [haltBoth, h₁])
              refine ⟨?_, .inr ⟨s, hhalt false⟩, fun h => absurd h hb, ?_⟩
              · rintro ⟨b, b'⟩
                cases b' with
                | false =>
                    rw [hgo]
                    exact hnext.onward (b, false)
                | true =>
                    rw [hhalt]
                    exact .refl s
              · rw [hgo, hgo, hhalt, hhalt]
                obtain ⟨h, -⟩ | ⟨hs, hb, -⟩ := hnext.first
                · exact .inl ⟨h, rfl⟩
                · exact .inr ⟨hs, hb, .inr ⟨rfl, s, rfl⟩⟩
          | none =>
              have hgo : ∀ i, haltBoth first second i ⟨task, s⟩ = none := by
                intro i
                simp [haltBoth, h₁, h₂]
              simp only [performUntil_onward (hgo _)]
              exact hnext

end

/-! ### Which moments come -/

section

variable {α : Type} {x : Runner → Eval α} {rounds calls levels : Nat} {s : Session} {m m' : Moment}
  {segments : List String} {text : String}

/-- Computations with the same results have the same moments. -/
lemma Comes.congr {y : Runner → Eval α} {s' : Session} (hxy : ∀ run, x run s = y run s')
    (h : Comes rounds calls levels x s m) : Comes rounds calls levels y s' m := by
  obtain ⟨lacking, hne⟩ := h
  refine ⟨lacking, ?_⟩
  rwa [hxy, hxy] at hne

/-- A moment comes if the computation lacks whatever is lacking there. -/
lemma comes_of_short (h : ∀ lacking,
    Short lacking (x (performUntil (haltAt m lacking) rounds calls levels) s)) :
    Comes rounds calls levels x s m := by
  by_contra hn
  have same : ∀ lacking, Short lacking (x (perform rounds calls levels) s) := by
    intro lacking
    have heq := not_not.mp fun hne => hn ⟨lacking, hne⟩
    exact heq ▸ h lacking
  obtain ⟨u, hu⟩ := same .levels
  obtain ⟨u', hu'⟩ := same .calls
  cases hu.symm.trans hu'

/-- A moment is halted at with what is lacking there. -/
lemma eq_of_haltAt {q : Moment} {lacking l : Shortage} (h : haltAt m lacking q = some l) :
    q = m ∧ l = lacking := by
  unfold haltAt at h
  split at h
  · rename_i hq
    exact ⟨hq, (Option.some.inj h).symm⟩
  · cases h

/-- What comes while a computation is carried out is onward from its start. -/
theorem onward_of_comes (hx : OfTasks x) (h : Comes rounds calls levels x s m) :
    s.Onward m.session := by
  by_contra hn
  obtain ⟨lacking, hne⟩ := h
  have hB : ∀ {u u' : Session}, u.Onward u' → s.Onward u → s.Onward u' := fun h hb => hb.trans h
  have hs : Staged s.Onward lacking lacking s _ :=
    hx hB _ (staged_performUntil (fun _ => none) (haltAt m lacking) hB (fun h => nomatch h)
      (fun h => ?_) rounds calls levels) s
  · have heq := hs.past (.refl s)
    rw [haltBoth_second, haltBoth_neither, performUntil_none] at heq
    exact hne heq
  · obtain ⟨hq, hl⟩ := eq_of_haltAt h
    exact ⟨hl, hq ▸ hn⟩

/-- What a moment leads to holds in the end. -/
theorem holds_after_comes {B : Session → Prop} (hx : OfTasks x)
    (hB : ∀ {s s' : Session}, s.Onward s' → B s → B s') (hm : m.LeadsTo B)
    (h : Comes rounds calls levels x s m) : B (s.after (x (perform rounds calls levels))) := by
  obtain ⟨lacking, hne⟩ := h
  have hs : Staged B lacking lacking s _ :=
    hx hB _ (staged_performUntil (haltAt m lacking) (fun _ => none) hB (fun h => ?_)
      (fun h => nomatch h) rounds calls levels) s
  · obtain ⟨heq, -⟩ | ⟨-, hb, -⟩ := hs.first
    · rw [haltBoth_first, haltBoth_neither, performUntil_none] at heq
      exact absurd heq hne
    · rwa [haltBoth_neither, performUntil_none, ending_apply] at hb
  · obtain ⟨rfl, hl⟩ := eq_of_haltAt h
    exact ⟨hl, rfl, hm⟩

/-- What a moment leads to holds at all moments that come after it. -/
theorem holds_of_comesAfter {B : Session → Prop} (hx : OfTasks x)
    (hB : ∀ {s s' : Session}, s.Onward s' → B s → B s') (hm : m.LeadsTo B)
    (h : ComesAfter rounds calls levels x s m m') : B m'.session := by
  by_contra hn
  obtain ⟨hmm, lacking, lacking', hl, hne, heq⟩ := h
  have hs : Staged B lacking lacking' s _ :=
    hx hB _ (staged_performUntil (haltAt m lacking) (haltAt m' lacking') hB (fun h => ?_)
      (fun h => ?_) rounds calls levels) s
  · have hboth : haltBoth (haltAt m lacking) (haltAt m' lacking') (true, true) =
        fun q => (haltAt m lacking q).or (haltAt m' lacking' q) := rfl
    have hfirst := hs.first
    rw [haltBoth_first, haltBoth_second, haltBoth_neither, hboth, performUntil_none, heq] at hfirst
    obtain ⟨h₁, h₂⟩ | ⟨h₁, -, ⟨-, h⟩ | ⟨h, h₂⟩⟩ := hfirst
    · exact hne (h₂.symm.trans h₁)
    · exact hne h
    · -- It would have been halted at both moments at once.
      rw [← h] at h₂
      obtain ⟨u, hu⟩ := h₁
      obtain ⟨u', hu'⟩ := h₂
      cases hu.symm.trans hu'
      exact hl rfl
  · obtain ⟨rfl, hl⟩ := eq_of_haltAt h
    exact ⟨hl, if_neg (Ne.symm hmm), hm⟩
  · obtain ⟨rfl, hl⟩ := eq_of_haltAt h
    exact ⟨hl, hn⟩

end

end Eval

end Tern
