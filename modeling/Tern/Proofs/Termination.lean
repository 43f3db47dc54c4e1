/-
Recursion meets the limit of frames. With a bound on the rounds of every loop, and a bound on the
calls without a frame that are inside one another, every evaluation comes to an end: it settles once
it is given levels enough.

What makes it end is, in this order of importance: the frames that are still allowed, the calls
without a frame that are still allowed, the modules that have not been imported yet, and the size
of the task.

* `Eval.Settles`: levels enough make a result that more levels do not change.
* `Logic.settling`: the logic in which this is shown.
* `Session.Stage`: a session with bounds on the frames and the modules that are left.
* `Eval.settled`: every task settles.
-/
import Tern.Proofs.Exception
import Tern.Proofs.Fuel

namespace Tern

namespace Eval

variable {α β : Type}

/-- From some number of levels on, the computations of a family come to one and the same result,
which is not short of levels. All of them leave a session that follows. -/
structure Settles (x : Nat → Eval α) (s : Session) : Prop where
  keeps : ∀ i, Keeps (x i) s
  settles : ∃ n, ¬ Short .levels (x n s) ∧ ∀ m, n ≤ m → x m s = x n s

namespace Settles

variable {x : Nat → Eval α} {s : Session}

/-- A computation that does not depend on the levels. -/
lemma const {y : Eval α} (hk : Keeps y s) (hs : ¬ Short .levels (y s)) :
    Settles (fun _ => y) s :=
  ⟨fun _ => hk, 0, hs, fun _ _ => rfl⟩

lemma of_local {y : Eval α} (h : Local y) : Settles (fun _ => y) s := by
  refine const (.of_local h) fun ⟨s', hs⟩ => ?_
  have hl := h s
  rw [hs] at hl
  obtain ⟨-, fault, hf⟩ := hl
  cases hf

/-- A computation on the environment, which has a value. -/
lemma modifyEnv {f : Environment → Environment} (h : s.env.Balanced (f s.env)) :
    Settles (fun _ => Eval.modifyEnv f) s :=
  const (.modifyEnv h) not_short_ok

lemma bind {f : Nat → α → Eval β} (hx : Settles x s)
    (hf : ∀ a s', (∃ i, x i s = .ok a s') → s.Follows s' → Settles (fun i => f i a) s') :
    Settles (fun i => x i >>= f i) s := by
  refine ⟨fun i => (hx.keeps i).bind fun a s' h hl => (hf a s' ⟨i, h⟩ hl).keeps i, ?_⟩
  obtain ⟨n, hn, hconst⟩ := hx.settles
  cases hr : x n s with
  | error signal s' =>
      have hbind : ∀ m, n ≤ m → (x m >>= f m) s = .error signal s' := by
        intro m hm
        rw [bind_apply, hconst m hm, hr]
      refine ⟨n, ?_, fun m hm => by rw [hbind m hm, hbind n le_rfl]⟩
      rw [hbind n le_rfl, short_error]
      rwa [hr, short_error] at hn
  | ok a s' =>
      obtain ⟨k, hk, hconst'⟩ := (hf a s' ⟨n, hr⟩ ((hx.keeps n).ok hr)).settles
      have hbind : ∀ m, max n k ≤ m → (x m >>= f m) s = f k a s' := by
        intro m hm
        rw [bind_apply, hconst m (le_trans (le_max_left n k) hm), hr]
        exact hconst' m (le_trans (le_max_right n k) hm)
      refine ⟨max n k, ?_, fun m hm => by rw [hbind m hm, hbind _ le_rfl]⟩
      rwa [hbind _ le_rfl]

lemma recover {f : Nat → Signal → Eval α} (hx : Settles x s)
    (hf : ∀ signal s', signal ≠ .outOfFuel .levels → s.Follows s' →
      Settles (fun i => f i signal) s')
    (hshort : ∀ i lacking, f i (.outOfFuel lacking) = throw (.outOfFuel lacking)) :
    Settles (fun i => Eval.recover (x i) (f i)) s := by
  refine ⟨fun i => (hx.keeps i).recover fun signal s' hl => ?_, ?_⟩
  · by_cases hs : signal = .outOfFuel .levels
    · rw [hs, hshort]
      exact Session.Follows.refl s'
    · exact (hf signal s' hs hl).keeps i
  · obtain ⟨n, hn, hconst⟩ := hx.settles
    cases hr : x n s with
    | ok a s' =>
        have hrec : ∀ m, n ≤ m → Eval.recover (x m) (f m) s = .ok a s' := by
          intro m hm
          simp only [Eval.recover, hconst m hm, hr]
        refine ⟨n, ?_, fun m hm => by rw [hrec m hm, hrec n le_rfl]⟩
        rw [hrec n le_rfl]
        exact not_short_ok
    | error signal s' =>
        have hs : signal ≠ .outOfFuel .levels := by rwa [hr, short_error] at hn
        obtain ⟨k, hk, hconst'⟩ := (hf signal s' hs ((hx.keeps n).error hr)).settles
        have hrec : ∀ m, max n k ≤ m → Eval.recover (x m) (f m) s = f k signal s' := by
          intro m hm
          simp only [Eval.recover, hconst m (le_trans (le_max_left n k) hm), hr]
          exact hconst' m (le_trans (le_max_right n k) hm)
        refine ⟨max n k, ?_, fun m hm => by rw [hrec m hm, hrec _ le_rfl]⟩
        rwa [hrec _ le_rfl]

/-- A construct whose result depends on that of its body alone, and is short of levels only if
that is. -/
lemma lift {y : Nat → Eval β} {s' : Session}
    {c : EStateM.Result Signal Session α → EStateM.Result Signal Session β}
    (hk : ∀ i, Keeps (y i) s) (hy : ∀ i, y i s = c (x i s'))
    (hc : ∀ result, Short .levels (c result) → Short .levels result) (hx : Settles x s') :
    Settles y s := by
  refine ⟨hk, ?_⟩
  obtain ⟨n, hn, hconst⟩ := hx.settles
  refine ⟨n, ?_, fun m hm => by rw [hy, hy, hconst m hm]⟩
  rw [hy]
  exact fun h => hn (hc _ h)

lemma inFrame {name file : String} {line : Nat}
    (hx : s.env.depth < s.maxDepth → Settles x { s with env := s.env.push name file line }) :
    Settles (fun i => Eval.inFrame name file line (x i)) s := by
  by_cases hd : s.env.depth < s.maxDepth
  · exact lift (fun i => .inFrame fun _ => (hx hd).keeps i)
      (fun i => inFrame_apply name file line (x i) hd) (fun _ => short_leaveFrame.mp) (hx hd)
  · have hfull := fun i => inFrame_full name file line (x i) (Nat.le_of_not_lt hd)
    refine ⟨fun i => .inFrame fun h => absurd h hd, 0, ?_, fun m _ => by rw [hfull, hfull]⟩
    rw [hfull, short_error]
    exact Signal.noConfusion

lemma inFile {file : String} (hx : Settles x { s with env := s.env.setFile file }) :
    Settles (fun i => Eval.inFile file (x i)) s :=
  lift (fun i => .inFile (hx.keeps i)) (fun i => inFile_apply file (x i) s)
    (fun _ => short_leaveFile.mp) hx

lemma handling {trace : Trace} (hx : Settles x { s with env := s.env.pushSnapshot trace }) :
    Settles (fun i => Eval.handling trace (x i)) s :=
  lift (fun i => .handling (hx.keeps i)) (fun i => handling_apply trace (x i) s)
    (fun _ => short_leaveHandler.mp) hx

lemma assign (name : String) (v : Value) (declare : Bool) :
    Settles (fun _ => Eval.assign name v declare) s := by
  refine const (.assign name v declare) ?_
  cases declare with
  | false => exact not_short_ok
  | true =>
      have hd : Eval.assign name v true s = (Eval.orFail (s.env.define name v) >>=
          fun env => Eval.modifyEnv fun _ => env) s := rfl
      rw [hd]
      cases s.env.define name v with
      | ok env => exact not_short_ok
      | error fault => exact fun h => Signal.noConfusion (short_error.mp h)

/-- One level less at the start does not matter. -/
lemma of_succ (hx : Settles (fun i => x (i + 1)) s) (h₀ : Keeps (x 0) s) : Settles x s := by
  refine ⟨fun i => ?_, ?_⟩
  · cases i with
    | zero => exact h₀
    | succ i => exact hx.keeps i
  · obtain ⟨n, hn, hconst⟩ := hx.settles
    refine ⟨n + 1, hn, fun m hm => ?_⟩
    obtain ⟨k, rfl⟩ := Nat.exists_eq_add_of_le' (Nat.le_trans (Nat.le_add_left 1 n) hm)
    exact hconst k (by omega)

end Settles

end Eval

/-- Families with a member for each number of levels, which settle. -/
def Logic.settling : Logic Nat where
  Holds := Eval.Settles
  Later := Session.Follows
  Allows signal _ := signal ≠ .outOfFuel .levels
  Enters _ := True
  later_refl := .refl
  later_trans := .trans
  allows_thrown _ _ := Signal.noConfusion
  allows_leave _ _ := Signal.noConfusion
  allows_fatal _ _ := Signal.noConfusion
  beside := .of_local
  raise hs := .const (Session.Follows.refl _) fun h => hs (Eval.short_error.mp h)
  bind := .bind
  recover hx hshort hh := .recover hx hh hshort
  mark line s := .modifyEnv (s.env.balanced_mark line)
  bindName name v s := .modifyEnv (s.env.balanced_bind name v)
  assign name v declare _ := .assign name v declare
  inFrame := .inFrame
  inFile _ := .inFile
  handling := .handling
  importing relative s := .const (Logic.following.importing relative s) Eval.not_short_ok

lemma Logic.carries_settling : Logic.settling.Carries :=
  ⟨fun h _ => h, fun _ _ => Signal.noConfusion⟩

/-! ### What is left -/

namespace Session

/-- How many of some modules have not been imported. -/
def unimported (modules : Finset String) (s : Session) : Nat :=
  (modules.filter (· ∉ s.imported)).card

/-- A session with the library that can import some modules only, and bounds on the frames and the
modules that are left. -/
structure Stage (modules : Finset String) (room unimported : Nat) (s : Session) : Prop where
  library : s.HasLibrary
  importable : ∀ relative, s.Importable relative → relative ∈ modules
  depth : s.maxDepth ≤ s.env.depth + room
  imports : s.unimported modules ≤ unimported

namespace Stage

variable {modules : Finset String} {room unimported : Nat} {s s' : Session}

lemma follows (h : s.Stage modules room unimported) (hf : s.Follows s') :
    s'.Stage modules room unimported where
  library := hf.hasLibrary h.library
  importable relative hr := by
    unfold Importable at hr
    rw [hf.files, hf.moduleRoot] at hr
    exact h.importable relative hr
  depth := by
    rw [hf.maxDepth, hf.depth_eq]
    exact h.depth
  imports := by
    refine le_trans (Finset.card_le_card fun relative hr => ?_) h.imports
    rw [Finset.mem_filter] at hr ⊢
    exact ⟨hr.1, fun hi => hr.2 (hf.imported hi)⟩

lemma mono {room' unimported' : Nat} (h : s.Stage modules room unimported) (hr : room ≤ room')
    (hu : unimported ≤ unimported') : s.Stage modules room' unimported' :=
  { h with
    depth := le_trans h.depth (Nat.add_le_add_left hr _)
    imports := le_trans h.imports hu }

/-- There is a frame less once one has been put on. -/
lemma push (h : s.Stage modules room unimported) (hd : s.env.depth < s.maxDepth)
    (name file : String) (line : Nat) :
    ∃ room', room = room' + 1 ∧
      Stage modules room' unimported { s with env := s.env.push name file line } := by
  have hroom := h.depth
  refine ⟨room - 1, by omega, { h with depth := ?_ }⟩
  rw [Environment.depth_push]
  change s.maxDepth ≤ _
  omega

/-- The handling of a failure takes no frame. -/
lemma pushSnapshot (h : s.Stage modules room unimported) (trace : Trace) :
    Stage modules room unimported { s with env := s.env.pushSnapshot trace } :=
  { h with }

/-- There is a module less once one has been imported. -/
lemma importing (h : s.Stage modules room unimported) {relative : String}
    (hnew : s.imported.contains relative = false) (hi : s.Importable relative) :
    ∃ unimported', unimported = unimported' + 1 ∧ Stage modules room unimported'
      { s with imported := relative :: s.imported, env := s.env.setFile relative } := by
  have hnew : relative ∉ s.imported := by simpa using hnew
  have hmem := h.importable relative hi
  have hless : Session.unimported modules { s with
      imported := relative :: s.imported, env := s.env.setFile relative } <
      s.unimported modules := by
    refine Finset.card_lt_card ⟨fun m hm => ?_, fun hsub => ?_⟩
    · rw [Finset.mem_filter] at hm ⊢
      exact ⟨hm.1, fun him => hm.2 (List.mem_cons_of_mem _ him)⟩
    · have hr := hsub (Finset.mem_filter.mpr ⟨hmem, hnew⟩)
      exact (Finset.mem_filter.mp hr).2 (List.mem_cons_self)
  have hbound := h.imports
  exact ⟨unimported - 1, by omega, { h with imports := by omega }⟩

end Stage

end Session

/-! ### Every task settles -/

namespace Eval

/-- Every task settles in the sessions of a stage. -/
def Settled (rounds calls : Nat) (modules : Finset String) (room unimported : Nat) : Prop :=
  ∀ task s, s.Stage modules room unimported → Settles (fun i => perform rounds calls i task) s

section Step

variable {rounds calls : Nat} {modules : Finset String} {room unimported : Nat} {s : Session}

lemma Settled.mono {room' unimported' : Nat} (h : Settled rounds calls modules room unimported)
    (hr : room' ≤ room) (hu : unimported' ≤ unimported) :
    Settled rounds calls modules room' unimported' :=
  fun task s hs => h task s (hs.mono hr hu)

variable
  (hframe : ∀ room', room = room' + 1 → Settled rounds calls modules room' unimported)
  (hmodule : ∀ unimported', unimported = unimported' + 1 →
    Settled rounds calls modules room unimported')

include hframe hmodule

/-- What a runner serves at a stage, if it can be relied on with a frame or a module less. -/
lemma serves_of_stage {P : Task → Prop} (hs : s.Stage modules room unimported)
    (htask : Logic.settling.Grants (fun i => perform rounds calls i) P s) :
    Logic.settling.Serves (fun i => perform rounds calls i) P s where
  task := htask
  frame s₁ name file line hl hd task s₂ _ hl' := by
    obtain ⟨room', hr, hp⟩ := (hs.follows hl).push hd name file line
    exact hframe room' hr task s₂ (hp.follows hl')
  handler trace hl s₁ name file line hl₁ hd task s₂ _ hl₂ := by
    obtain ⟨room', hr, hp⟩ :=
      (((hs.follows hl).pushSnapshot trace).follows hl₁).push hd name file line
    exact hframe room' hr task s₂ (hp.follows hl₂)
  module hl hnew hi task s₁ _ hl₁ := by
    obtain ⟨unimported', hu, hm⟩ := (hs.follows hl).importing hnew hi
    exact hmodule unimported' hu task s₁ (hm.follows hl₁)
  native {s₁ kind c} hl hc hnative := by
    -- The classes of failures are still those of the library, and none of them is native.
    have hk := (hs.follows hl).library.class? (Library.class?_error kind)
    rw [hc] at hk
    cases hk
    cases hnative

variable (hcalls : ∀ calls', calls = calls' + 1 → Settled rounds calls' modules room unimported)

include hcalls

/-- A call settles: a function puts on a frame, and any other call is one of those without. -/
lemma settles_call (callee : Value) (arguments : List Value)
    (hs : s.Stage modules room unimported) :
    Settles (fun i => perform rounds calls i (.call callee arguments)) s := by
  refine .of_succ ?_ (keeps_perform rounds calls 0 _ s)
  cases hf : (Task.call callee arguments).isFrameless with
  | false =>
      simp only [perform_succ hf]
      refine Logic.step (fun _ => rounds) (.call callee arguments)
        (serves_of_stage hframe hmodule hs fun _ _ h _ => False.elim h) (fun h => ?_)
        (fun _ _ _ h => ?_) (fun _ _ _ h => ?_) fun _ _ _ _ => trivial
      · rw [hf] at h
        cases h
      · cases h
      · cases h
  | true =>
      cases calls with
      | zero =>
          simp only [perform_frameless_zero hf]
          exact .const (Session.Follows.refl s) fun h => by cases short_error.mp h
      | succ calls =>
          have hc := hcalls calls rfl
          simp only [perform_frameless_succ hf]
          have hopen : Logic.settling.Open (fun i => perform rounds calls i) s :=
            fun task s₁ _ hl => hc task s₁ (hs.follows hl)
          refine Logic.step (fun _ => rounds) _ (serves_of_stage
            (fun room' hr => hc.mono (by omega) le_rfl) (fun _ hu => hc.mono le_rfl (by omega))
            hs fun task s₁ _ hl => hopen trivial hl) (fun _ => hopen) (fun _ _ _ h => ?_)
            (fun _ _ _ h => ?_) fun _ _ _ _ => trivial
          · cases h
          · cases h

/-- An expression settles, by its size: what it asks for in its own frame is smaller or a call. -/
lemma settles_expr (e : Expr) (hs : s.Stage modules room unimported) :
    Settles (fun i => perform rounds calls i (.expr e)) s := by
  induction hn : sizeOf e using Nat.strong_induction_on generalizing e s with
  | _ n ih =>
      subst hn
      have hparts : Logic.settling.Grants (fun i => perform rounds calls i)
          (Task.Below (sizeOf e)) s := by
        intro task s₁ hb hl
        cases task with
        | call callee arguments =>
            exact settles_call hframe hmodule hcalls callee arguments (hs.follows hl)
        | expr e' => exact ih _ hb e' (hs.follows hl) rfl
      refine .of_succ ?_ (keeps_perform rounds calls 0 _ s)
      have hsucc : ∀ i, perform rounds calls (i + 1) (.expr e) =
          step rounds (perform rounds calls i) (.expr e) := fun _ => perform_succ rfl
      simp only [hsucc]
      have hserves := serves_of_stage hframe hmodule hs hparts
      refine Logic.step (fun _ => rounds) (.expr e) hserves (fun h => by cases h)
        (fun {s₁} site c b he hl => ?_) (Logic.attempt_of_task Logic.carries_settling hserves)
        fun _ _ _ _ => trivial
      cases he
      have hloop := Logic.loopWhile (fun _ => 0) c b rounds .null (hparts.later hl)
        (by simp +arith) (by simp +arith) fun {s₂} _ _ =>
          Settles.const (Session.Follows.refl s₂) fun h => by cases short_error.mp h
      simpa only [Nat.zero_add] using hloop

end Step

/-- With bounds on rounds and on calls without a frame, every task settles. -/
theorem settled (rounds calls : Nat) (modules : Finset String) (room unimported : Nat) :
    Settled rounds calls modules room unimported := by
  intro task s hs
  have hframe : ∀ room', room = room' + 1 → Settled rounds calls modules room' unimported :=
    fun room' _ => settled rounds calls modules room' unimported
  have hmodule : ∀ unimported', unimported = unimported' + 1 →
      Settled rounds calls modules room unimported' :=
    fun unimported' _ => settled rounds calls modules room unimported'
  have hcalls : ∀ calls', calls = calls' + 1 → Settled rounds calls' modules room unimported :=
    fun calls' _ => settled rounds calls' modules room unimported
  cases task with
  | expr e => exact settles_expr hframe hmodule hcalls e hs
  | call callee arguments => exact settles_call hframe hmodule hcalls callee arguments hs
termination_by (room, calls, unimported)

end Eval

end Tern
