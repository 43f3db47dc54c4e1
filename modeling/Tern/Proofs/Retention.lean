/-
What evaluations keep of the variables in lower frames. A function sees the names of its callers,
and an assignment to a name that a caller has changes it there. So code that assigns only certain
names keeps all other variables, unless it makes a foreign call that does not.

* `Environment.Retains`: all variables in the lower frames keep their values, certain names apart.
* `Expr.isConfined`: expressions that assign only certain names.
* `Moment.isForeign`: the calls that may run other code; `Moment.Spares`: those that keep variables.
* `Eval.Sparing`, `Eval.Spare`: variables are kept, or a foreign call has come that did not keep
  them; there is one rule for each construct of the evaluator.
-/
import Tern.Proofs.Exception
import Tern.Proofs.Outside
import Tern.Proofs.Shapes

namespace Tern

/-! ### Variables of the lower frames -/

namespace Environment

variable {d : Nat} {names : List String} {e e' e'' : Environment}

/-- The value of a name in the frame at a height; the global frame is at height 0. -/
def valueAt? (e : Environment) (height : Nat) (name : String) : Option Value :=
  e.frames.reverse[height]?.bind (·.vars.find? name)

/-- Every variable that is bound in one of the lowest `d` frames has the same value afterwards,
unless its name is one of `names`. -/
def Retains (d : Nat) (names : List String) (e e' : Environment) : Prop :=
  ∀ height < d, ∀ name ∉ names, ∀ v, e.valueAt? height name = some v →
    e'.valueAt? height name = some v

lemma Retains.refl (e : Environment) : e.Retains d names e := fun _ _ _ _ _ h => h

lemma Retains.trans (h₁ : e.Retains d names e') (h₂ : e'.Retains d names e'') :
    e.Retains d names e'' :=
  fun height hd name hn v hv => h₂ height hd name hn v (h₁ height hd name hn v hv)

/-- The frames below the innermost one are those of lower height. -/
lemma valueAt?_of_lt {height : Nat} (h : height < e.below.length) (name : String) :
    e.valueAt? height name = e.below.reverse[height]?.bind (·.vars.find? name) := by
  rw [valueAt?, frames, List.reverse_cons, List.getElem?_append_left (by simpa using h)]

/-- A change of the innermost frame. -/
lemma retains_of_below (hd : d < e.depth) (h : e'.below = e.below) : e.Retains d names e' := by
  rw [depth] at hd
  intro height hh name _ v hv
  rw [valueAt?_of_lt (by omega)] at hv
  rwa [valueAt?_of_lt (by rw [h]; omega), h]

lemma retains_push (hd : d ≤ e.depth) (name file : String) (line : Nat) :
    e.Retains d names (e.push name file line) := by
  intro height hh other _ v hv
  have hlt : height < (e.push name file line).below.length := Nat.lt_of_lt_of_le hh hd
  rwa [valueAt?_of_lt hlt]

lemma retains_pop (hd : d < e.depth) : e.Retains d names e.pop := by
  rw [depth] at hd
  intro height hh name _ v hv
  rw [valueAt?_of_lt (by omega)] at hv
  cases hbelow : e.below with
  | nil =>
      rw [hbelow] at hv
      cases hv
  | cons f rest =>
      rw [hbelow] at hv
      rwa [valueAt?, pop, hbelow]

/-- An assignment changes the value of its name only. -/
lemma retains_put {name : String} (hname : name ∈ names) (v : Value) :
    e.Retains d names (e.put name v) := by
  intro height _ other hother w hw
  have hne : other ≠ name := fun h => hother (h ▸ hname)
  rw [valueAt?, Option.bind_eq_some_iff] at hw ⊢
  obtain ⟨f, hf, hw⟩ := hw
  have hlt : height < e.frames.length := by
    simpa using (List.getElem?_eq_some_iff.mp hf).1
  rw [List.getElem?_reverse hlt] at hf
  rw [frames_put, List.getElem?_reverse (by simpa using hlt), List.length_modify,
    List.getElem?_modify, hf]
  refine ⟨_, rfl, ?_⟩
  split
  · exact (Bindings.find?_put_of_ne hne v f.vars).trans hw
  · exact hw

end Environment

/-! ### Code that assigns only certain names -/

/-- Whether a pattern is a name, or a name with a class. -/
def Expr.isTarget : Expr → Bool
  | .node site (.name _) => site.annotations.isEmpty
  | .node _ (.pair (.node site (.name _)) (.node site' (.name _))) =>
    site.annotations.isEmpty && site'.annotations.isEmpty
  | _ => false

mutual

/-- Whether an expression assigns no names but certain ones, or such that it declares. Many forms
are left out; what they do is not considered. -/
def Expr.isConfined (names : List String) : Expr → Bool
  | .node _ form => form.isConfined names

def Form.isConfined (names : List String) : Form → Bool
  | .constant _ => true
  | .name _ => true
  | .group inner => inner.isConfined names
  | .tuple items => Expr.areConfined names items
  | .list items => Expr.areConfined names items
  | .binary _ left right => left.isConfined names && right.isConfined names
  | .logical _ left right => left.isConfined names && right.isConfined names
  | .assign name value declare =>
    (declare || names.contains name) && value.isConfined names
  | .index target index => target.isConfined names && index.isConfined names
  | .member object _ _ => object.isConfined names
  | .call callee arguments => callee.isConfined names && Expr.areConfined names arguments
  | .spread inner => inner.isConfined names
  | .lambda _ _ => true
  | .block body => Expr.areConfined names body
  | .whileLoop condition body => condition.isConfined names && body.isConfined names
  | .forLoop pattern iterable body =>
    pattern.isTarget && iterable.isConfined names && body.isConfined names
  | .attempt body clauses => body.isConfined names && Expr.clausesConfined names clauses
  | _ => false

def Expr.areConfined (names : List String) : List Expr → Bool
  | [] => true
  | e :: rest => e.isConfined names && Expr.areConfined names rest

def Expr.clausesConfined (names : List String) : List (Expr × Expr) → Bool
  | [] => true
  | (pattern, body) :: rest =>
    pattern.isTarget && body.isConfined names && Expr.clausesConfined names rest

end

/-- Whether a task is one of which the effect on variables is known: an expression that is confined,
or any call. -/
def Task.isConfined (names : List String) : Task → Bool
  | .expr e => e.isConfined names
  | .call _ _ => true

/-- Whether a task calls other code: a class, a function that is not confined, or the evaluation of
a text. -/
def Moment.isForeign (names : List String) (m : Moment) : Bool :=
  match m.task with
  | .expr _ => false
  | .call (.function r) _ => (m.session.heap.function? r).any (!·.code.body.isConfined names)
  | .call (.native r) arguments | .call (.bound r _) arguments =>
    (m.session.heap.native? r).any (·.select? arguments.length = some .eval)
  | .call (.classOf _) _ => true
  | .call _ _ => false

/-- What is carried out at a moment keeps the variables of the lowest `d` frames, certain names
apart, whenever it is given enough to come to an end. -/
def Moment.Spares (rounds d : Nat) (names : List String) (m : Moment) : Prop :=
  ∀ calls levels, Eval.Ended (Eval.perform rounds calls levels m.task m.session) →
    m.session.env.Retains d names
      (m.session.after (Eval.perform rounds calls levels m.task)).env

namespace Eval

variable {α β : Type} {rounds d : Nat} {names : List String}

/-- The results of an evaluation, as it is and halted at each moment. It keeps the variables of the
lowest `d` frames, unless a foreign call comes that does not. -/
structure Sparing (rounds d : Nat) (names : List String) (s : Session)
    (r : Option Moment → EStateM.Result Signal Session α) : Prop where
  follows : s.Follows (ending (r none))
  /-- A moment comes or does not. -/
  halted : ∀ m, r (some m) = r none ∨ Short .levels (r (some m))
  retains : Ended (r none) → s.env.Retains d names (ending (r none)).env ∨
    ∃ m : Moment, m.isForeign names = true ∧ ¬ m.Spares rounds d names ∧
      Short .levels (r (some m))

namespace Sparing

variable {s s' : Session} {r : Option Moment → EStateM.Result Signal Session α}

/-- Where nothing depends on halting. -/
lemma const {r : EStateM.Result Signal Session α} (hs : s.Follows (ending r))
    (h : s.env.Retains d names (ending r).env) : Sparing rounds d names s fun _ => r :=
  ⟨hs, fun _ => .inl rfl, fun _ => .inl h⟩

/-- The same results, from an earlier session. -/
lemma earlier (hs : s.Follows s') (henv : s.env.Retains d names s'.env)
    (h : Sparing rounds d names s' r) : Sparing rounds d names s r :=
  ⟨hs.trans h.follows, h.halted, fun hr => (h.retains hr).imp_left henv.trans⟩

/-- A construct that runs its body in another environment, and afterwards changes the environment
back. -/
lemma restored {c : EStateM.Result Signal Session α → EStateM.Result Signal Session β}
    (hr : Sparing rounds d names s' r) (hs : s.Follows (ending (c (r none))))
    (hshort : ∀ {lacking result}, Short lacking result → Short lacking (c result))
    (henv : s.env.Retains d names s'.env)
    (hback : (ending (r none)).env.Retains d names (ending (c (r none))).env) :
    Sparing rounds d names s fun i => c (r i) := by
  refine ⟨hs, fun m => (hr.halted m).imp (congrArg c) hshort, fun hend => ?_⟩
  obtain hkept | ⟨m, hm, hspares, h⟩ := hr.retains fun lacking h => hend lacking (hshort h)
  · exact .inl (henv.trans (hkept.trans hback))
  · exact .inr ⟨m, hm, hspares, hshort h⟩

/-- What is made of a result, if it passes on what the result is short of. -/
lemma andThen
    {c : Option Moment → EStateM.Result Signal Session α → EStateM.Result Signal Session β}
    (hr : Sparing rounds d names s r)
    (hshort : ∀ lacking s', ∃ s'', ∀ i,
      c i (.error (.outOfFuel lacking) s') = .error (.outOfFuel lacking) s'')
    (hnext : Sparing rounds d names (ending (r none)) fun i => c i (r none)) :
    Sparing rounds d names s fun i => c i (r i) := by
  have short : ∀ {lacking i} {result : EStateM.Result Signal Session α},
      Short lacking result → Short lacking (c i result) := by
    rintro lacking i result ⟨s', rfl⟩
    obtain ⟨s'', hc⟩ := hshort lacking s'
    exact ⟨s'', hc i⟩
  refine ⟨hr.follows.trans hnext.follows, fun m => ?_, fun hend => ?_⟩
  · obtain heq | hs := hr.halted m
    · rw [heq]
      exact hnext.halted m
    · exact .inr (short hs)
  · have hend₁ : Ended (r none) := fun lacking hs => hend lacking (short hs)
    obtain hkept | ⟨m, hm, hspares, hs⟩ := hr.retains hend₁
    · obtain hkept' | ⟨m, hm, hspares, hs⟩ := hnext.retains hend
      · exact .inl (hkept.trans hkept')
      · refine .inr ⟨m, hm, hspares, ?_⟩
        obtain heq | hs' := hr.halted m
        · rwa [heq]
        · exact short hs'
    · exact .inr ⟨m, hm, hspares, short hs⟩

end Sparing

/-- A family of computations, one for each way to halt, is sparing from a session on. -/
def Spare (rounds d : Nat) (names : List String) (x : Option Moment → Eval α) (s : Session) :
    Prop :=
  Sparing rounds d names s fun i => x i s

/-- A session in which there is a frame above the lowest `d`, and the library. -/
structure Ready (d : Nat) (s : Session) : Prop where
  depth : d < s.env.depth
  library : s.HasLibrary

lemma Ready.later {s s' : Session} (hs : Ready d s) (h : s.Follows s') : Ready d s' :=
  ⟨h.depth_eq ▸ hs.depth, h.hasLibrary hs.library⟩

/-- A frame is put above the lowest ones. -/
lemma ready_push {s : Session} (hd : d ≤ s.env.depth) (hl : s.HasLibrary) (name file : String)
    (line : Nat) : Ready d { s with env := s.env.push name file line } :=
  ⟨Nat.lt_succ_of_le hd, hl⟩

namespace Spare

variable {x : Option Moment → Eval α} {s : Session}

lemma beside {x : Eval α} (hx : Eval.Local x) : Spare rounds d names (fun _ => x) s := by
  have hs := hx s
  cases h : x s with
  | ok a s' =>
      rw [h] at hs
      simp only [Spare, h]
      exact .const hs.follows (hs.env ▸ .refl _)
  | error signal s' =>
      rw [h] at hs
      simp only [Spare, h]
      exact .const hs.1.follows (hs.1.env ▸ .refl _)

lemma pure (a : α) : Spare rounds d names (fun _ => (Pure.pure a : Eval α)) s := beside (.pure a)

lemma raise (signal : Signal) : Spare rounds d names (fun _ => (throw signal : Eval α)) s :=
  .const (.refl s) (.refl _)

lemma bind {f : Option Moment → α → Eval β} (hx : Spare rounds d names x s)
    (hf : ∀ a s', s.Follows s' → Spare rounds d names (fun i => f i a) s') :
    Spare rounds d names (fun i => x i >>= f i) s := by
  refine Sparing.andThen (c := fun i r => ((fun _ => r : Eval α) >>= f i) s) hx
    (fun _ s' => ⟨s', fun _ => rfl⟩) ?_
  have hs := hx.follows
  cases h : x none s with
  | error signal s' => exact .const (.refl s') (.refl _)
  | ok a s' =>
      rw [h] at hs
      exact hf a s' hs

/-- A computation beside the stack, and what comes after it. -/
lemma bindLocal {x : Eval α} {f : Option Moment → α → Eval β} (hx : Eval.Local x)
    (hf : ∀ a s', s.Follows s' → Spare rounds d names (fun i => f i a) s') :
    Spare rounds d names (fun i => x >>= f i) s :=
  bind (beside hx) hf

lemma map (f : α → β) (hx : Spare rounds d names x s) :
    Spare rounds d names (fun i => f <$> x i) s :=
  bind hx fun a _ _ => pure (f a)

lemma recover {handler : Option Moment → Signal → Eval α} (hx : Spare rounds d names x s)
    (hshort : ∀ i lacking, handler i (.outOfFuel lacking) = throw (.outOfFuel lacking))
    (hh : ∀ signal s', s.Follows s' → Spare rounds d names (fun i => handler i signal) s') :
    Spare rounds d names (fun i => Eval.recover (x i) (handler i)) s := by
  refine Sparing.andThen (c := fun i r => Eval.recover (fun _ => r) (handler i) s) hx
    (fun lacking s' => ⟨s', fun i => congrFun (hshort i lacking) s'⟩) ?_
  have hs := hx.follows
  cases h : x none s with
  | ok a s' => exact .const (.refl s') (.refl _)
  | error signal s' =>
      rw [h] at hs
      exact hh signal s' hs

/-- A change of the innermost frame. -/
lemma modifyEnv {f : Environment → Environment} (hd : d < s.env.depth)
    (hf : s.env.Balanced (f s.env)) (hbelow : (f s.env).below = s.env.below) :
    Spare rounds d names (fun _ => Eval.modifyEnv f) s :=
  .const (Session.follows_env hf) (Environment.retains_of_below hd hbelow)

lemma mark (hd : d < s.env.depth) (line : Nat) :
    Spare rounds d names (fun _ => Eval.mark line) s :=
  modifyEnv hd (s.env.balanced_mark line) rfl

lemma bindName (hd : d < s.env.depth) (name : String) (v : Value) :
    Spare rounds d names (fun _ => Eval.bindName name v) s :=
  modifyEnv hd (s.env.balanced_bind name v) rfl

lemma assign {name : String} {declare : Bool} (hd : d < s.env.depth)
    (h : (declare || names.contains name) = true) (v : Value) :
    Spare rounds d names (fun _ => Eval.assign name v declare) s := by
  cases declare with
  | false =>
      have hname : name ∈ names := by simpa using h
      exact .const (Session.follows_env (s.env.balanced_put name v))
        (Environment.retains_put hname v)
  | true =>
      refine .const ?_ ?_
      · rw [ending_apply]
        exact Keeps.assign name v true
      · simp only [Eval.assign, if_true, tryEnv, bind_apply, get_apply]
        cases hdef : s.env.define name v with
        | error fault => exact .refl _
        | ok env =>
            refine Environment.retains_of_below hd ?_
            rw [Environment.define] at hdef
            split at hdef
            · cases hdef
            · cases hdef
              rfl

lemma inFrame {name file : String} {line : Nat} (hd : d ≤ s.env.depth)
    (h : Spare rounds d names x { s with env := s.env.push name file line }) :
    Spare rounds d names (fun i => Eval.inFrame name file line (x i)) s := by
  by_cases hroom : s.env.depth < s.maxDepth
  · simp only [Spare, inFrame_apply name file line _ hroom]
    have hpush := @Environment.retains_push d names s.env hd name file line
    refine Sparing.restored h ?_ short_leaveFrame.mpr hpush ?_
    · rw [← inFrame_apply name file line _ hroom, ending_apply]
      exact Keeps.inFrame fun _ => by rw [Keeps, ← ending_apply]; exact h.follows
    · have hdepth := h.follows.depth_eq
      rw [Environment.depth_push] at hdepth
      cases hx : x none { s with env := s.env.push name file line } <;>
        exact Environment.retains_pop (by rw [hx] at hdepth; exact hdepth ▸ Nat.lt_succ_of_le hd)
  · simp only [Spare, inFrame_full name file line _ (Nat.le_of_not_lt hroom)]
    exact .const (.refl s) (.refl _)

lemma handling {trace : Trace}
    (h : Spare rounds d names x { s with env := s.env.pushSnapshot trace }) :
    Spare rounds d names (fun i => Eval.handling trace (x i)) s := by
  simp only [Spare, handling_apply]
  refine Sparing.restored h ?_ short_leaveHandler.mpr (.refl _) ?_
  · rw [← handling_apply, ending_apply]
    exact Keeps.handling (by rw [Keeps, ← ending_apply]; exact h.follows)
  · cases x none { s with env := s.env.pushSnapshot trace } <;> exact .refl _

end Spare

end Eval

end Tern
