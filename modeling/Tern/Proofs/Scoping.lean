/-
Scopes. Whatever is done in frames above a stack, the stack keeps its frames where they stand, and
all that can happen to their names is that an assignment reaches one or that one is defined
globally.

* `Environment.Op`: the operations on environments; `Environment.run`: operations in a row;
* `Environment.Innermost`: the frame in which a name is found;
* `Environment.frameAt?_perform`: what one operation does to a frame below the innermost one;
* `Environment.Leaves`: what operations in a row leave of the lower frames, `leaves_run` that they
  do;
* `Environment.scope_effect`: the effect of a scope on the frames below it.
-/
import Tern.Proofs.Retention

namespace Tern.Environment

/-! ### Operations -/

/-- The operations on an environment. -/
inductive Op where
  | define (name : String) (value : Value)
  | update (name : String) (value : Value)
  | put (name : String) (value : Value)
  | bind (name : String) (value : Value)
  | defineGlobal (name : String) (value : Value)
  | get (name : String)
  | has (name : String)
  | mark (line : Nat)
  | setFile (file : String)
  | push (name file : String) (line : Nat)
  | pop
  | pushSnapshot (trace : Trace)
  | popSnapshot

/-- What an operation answers. -/
inductive Answer where
  | done
  | value (v : Value)
  | truth (b : Bool)
  | previous (file : String)

/-- Carries out a change that can fail. -/
def tryChange (e : Environment) (change : Except Fault Environment) :
    Except Fault Answer × Environment :=
  match change with
  | .ok e' => (.ok .done, e')
  | .error fault => (.error fault, e)

/-- Carries out an operation: its answer or failure, and the environment behind it. -/
def Op.perform (e : Environment) : Op → Except Fault Answer × Environment
  | .define name value => e.tryChange (e.define name value)
  | .update name value => e.tryChange (e.update name value)
  | .put name value => (.ok .done, e.put name value)
  | .bind name value => (.ok .done, e.bind name value)
  | .defineGlobal name value => (.ok .done, e.defineGlobal name value)
  | .get name => ((e.get name).map .value, e)
  | .has name => (.ok (.truth (e.has name)), e)
  | .mark line => (.ok .done, e.mark line)
  | .setFile file => (.ok (.previous e.file), e.setFile file)
  | .push name file line => (.ok .done, e.push name file line)
  | .pop => (.ok .done, e.pop)
  | .pushSnapshot trace => (.ok .done, e.pushSnapshot trace)
  | .popSnapshot => (.ok .done, e.popSnapshot)

/-- The environment behind operations in a row. -/
def run (e : Environment) (ops : List Op) : Environment :=
  ops.foldl (fun e op => (op.perform e).2) e

variable {e e' : Environment} {height : Nat} {name : String}

/-- An operation that fails changes nothing. -/
lemma perform_of_error {op : Op} {fault : Fault} (h : (op.perform e).1 = .error fault) :
    (op.perform e).2 = e := by
  have htry : ∀ change, (e.tryChange change).1 = .error fault → (e.tryChange change).2 = e := by
    rintro (_ | _) h
    · rfl
    · cases h
  cases op with
  | define name value => exact htry _ h
  | update name value => exact htry _ h
  | get name => rfl
  | has name => rfl
  | _ => cases h

/-- A name is there exactly if it can be read. -/
lemma perform_has_iff : ((Op.has name).perform e).1 = .ok (.truth true) ↔
    ∃ v, ((Op.get name).perform e).1 = .ok (.value v) := by
  have hget : ∀ v, ((Op.get name).perform e).1 = .ok (.value v) ↔ e.get name = .ok v := by
    intro v
    simp only [Op.perform]
    cases e.get name <;> simp [Except.map]
  simp only [hget, ← has_eq_true_iff]
  simp [Op.perform]

/-! ### Frames by their height -/

/-- The frame at a height; the global frame is at height 0. -/
def frameAt? (e : Environment) (height : Nat) : Option Frame := e.frames.reverse[height]?

/-- The frame at a height has a name, and none above it does. -/
def Innermost (e : Environment) (name : String) (height : Nat) : Prop :=
  (e.valueAt? height name).isSome = true ∧ ∀ above, height < above → e.valueAt? above name = none

lemma valueAt?_eq (e : Environment) (height : Nat) (name : String) :
    e.valueAt? height name = (e.frameAt? height).bind (·.vars.find? name) := rfl

lemma frameAt?_eq_none (h : e.depth ≤ height) : e.frameAt? height = none := by
  rw [frameAt?, List.getElem?_eq_none]
  rwa [List.length_reverse]

lemma frameAt?_eq_below (h : height + 1 < e.depth) :
    e.frameAt? height = e.below.reverse[height]? := by
  rw [depth] at h
  rw [frameAt?, frames, List.reverse_cons, List.getElem?_append_left (by simpa using by omega)]

lemma frameAt?_of_below (h : height + 1 < e.depth) (h' : height + 1 < e'.depth)
    (hbelow : e'.below = e.below) : e'.frameAt? height = e.frameAt? height := by
  rw [frameAt?_eq_below h, frameAt?_eq_below h', hbelow]

lemma frameAt?_eq_getElem? (h : height < e.depth) :
    e.frameAt? height = e.frames[e.depth - 1 - height]? := by
  rw [frameAt?, List.getElem?_reverse (by simpa [frames, depth] using h)]
  rfl

lemma frameAt?_push (h : height < e.depth) (name file : String) (line : Nat) :
    (e.push name file line).frameAt? height = e.frameAt? height :=
  frameAt?_eq_below (Nat.succ_lt_succ h)

lemma frameAt?_pop (h : height + 1 < e.depth) : e.pop.frameAt? height = e.frameAt? height := by
  rw [frameAt?_eq_below h]
  cases hbelow : e.below with
  | nil => simp [depth, hbelow] at h
  | cons f rest =>
      rw [pop, hbelow]
      rfl

lemma modify_zero_append {fs : List Frame} (hfs : fs ≠ []) (f : Frame) (change : Frame → Frame) :
    (fs ++ [f]).modify 0 change = fs.modify 0 change ++ [f] := by
  cases fs with
  | nil => exact absurd rfl hfs
  | cons g rest => rfl

lemma reverse_bindLast (name : String) (v : Value) (fs : List Frame) :
    (bindLast name v fs).reverse = fs.reverse.modify 0 (write name v) := by
  fun_induction bindLast name v fs with
  | case1 => rfl
  | case2 f => rfl
  | case3 f g rest ih =>
      rw [List.reverse_cons, ih, @List.reverse_cons _ f, modify_zero_append (by simp)]

/-- A global definition writes the frame at height 0. -/
lemma frameAt?_defineGlobal (e : Environment) (name : String) (v : Value) (height : Nat) :
    (e.defineGlobal name v).frameAt? height =
      (e.frameAt? height).map fun f => if height = 0 then write name v f else f := by
  have hframes : (e.defineGlobal name v).frames.reverse =
      e.frames.reverse.modify 0 (write name v) := by
    rw [defineGlobal]
    cases hbelow : e.below with
    | nil => simp [Environment.bind, frames, hbelow, write]
    | cons f rest =>
        rw [if_neg (by simp), frames, frames, hbelow, List.reverse_cons, reverse_bindLast,
          @List.reverse_cons _ e.top, modify_zero_append (by simp)]
  rw [frameAt?, hframes, List.getElem?_modify, frameAt?]
  simp only [@eq_comm _ 0 height]
  rfl

/-- A name is found at a height if it is at home there, below the innermost frame. -/
lemma home_eq_iff (h : height + 1 < e.depth) :
    e.home name = e.depth - 1 - height ↔ e.Innermost name height := by
  have hhas : ∀ h, h < e.depth → ((e.valueAt? h name).isSome = true ↔
      ∃ f, e.frames[e.depth - 1 - h]? = some f ∧ f.vars.has name = true) := by
    intro h hh
    rw [valueAt?_eq, frameAt?_eq_getElem? hh]
    cases e.frames[e.depth - 1 - h]? <;> simp [Bindings.has]
  have hlength : e.frames.length = e.depth := rfl
  have hindex : e.home name = e.depth - 1 - height ↔
      e.frames.findIdx? (·.vars.has name) = some (e.depth - 1 - height) := by
    rw [home]
    cases e.frames.findIdx? (·.vars.has name) with
    | none => simp only [Option.getD_none, reduceCtorEq, iff_false]; omega
    | some i => simp
  rw [hindex, List.findIdx?_eq_some_iff_getElem, Innermost, hhas height (by omega)]
  constructor
  · rintro ⟨hlt, hfound, hnone⟩
    refine ⟨⟨_, List.getElem?_eq_getElem hlt, hfound⟩, fun above habove => ?_⟩
    by_cases hdepth : above < e.depth
    · rw [← Option.not_isSome_iff_eq_none, hhas above hdepth]
      rintro ⟨f, hf, hfhas⟩
      obtain ⟨hlt', rfl⟩ := List.getElem?_eq_some_iff.mp hf
      exact hnone (e.depth - 1 - above) (by omega) hfhas
    · rw [valueAt?_eq, frameAt?_eq_none (Nat.le_of_not_lt hdepth)]
      rfl
  · rintro ⟨⟨f, hf, hfhas⟩, habove⟩
    obtain ⟨hlt, rfl⟩ := List.getElem?_eq_some_iff.mp hf
    refine ⟨hlt, hfhas, fun j hj => ?_⟩
    have hnone := habove (e.depth - 1 - j) (by omega)
    have hsome := hhas (e.depth - 1 - j) (by omega)
    rw [hnone, show e.depth - 1 - (e.depth - 1 - j) = j by omega] at hsome
    intro hj'
    exact absurd (hsome.mpr ⟨_, List.getElem?_eq_getElem (by omega), hj'⟩) (by simp)

open Classical in
/-- An assignment writes the frame in which the name is found, if that is not the innermost one. -/
lemma frameAt?_put (h : height + 1 < e.depth) (v : Value) :
    (e.put name v).frameAt? height =
      (e.frameAt? height).map fun f => if e.Innermost name height then write name v f else f := by
  have hlength : (e.put name v).depth = e.depth := by
    have := congrArg List.length (frames_put e name v)
    simpa [frames, depth] using this
  rw [frameAt?_eq_getElem? (by omega), frameAt?_eq_getElem? (by omega), hlength, frames_put,
    List.getElem?_modify]
  congr 1
  funext f
  simp only [← home_eq_iff h]

/-! ### One operation -/

open Classical in
/-- What an operation writes in the frame at a height below the innermost one: an assignment where
its name is found, and a global definition in the global frame. -/
noncomputable def Op.effect (e : Environment) (height : Nat) : Op → Frame → Frame
  | .put name value, f => if e.Innermost name height then write name value f else f
  | .defineGlobal name value, f => if height = 0 then write name value f else f
  | _, f => f

lemma tryChange_below {change : Except Fault Environment}
    (h : ∀ e', change = .ok e' → e'.below = e.below) : (e.tryChange change).2.below = e.below := by
  cases change with
  | ok e' => exact h e' rfl
  | error fault => rfl

lemma below_of_define {v : Value} (h : e.define name v = .ok e') : e'.below = e.below := by
  rw [define] at h
  split at h
  · cases h
  · cases h
    rfl

lemma below_of_update {v : Value} (h : e.update name v = .ok e') : e'.below = e.below := by
  rw [update] at h
  split at h
  · cases h
    rfl
  · cases h

lemma depth_eq (h : e'.below = e.below) : e'.depth = e.depth := by rw [depth, depth, h]

lemma depth_put (e : Environment) (name : String) (v : Value) : (e.put name v).depth = e.depth := by
  have h := congrArg List.length (trace_put e name v)
  simpa [trace, frames, depth] using h

lemma length_bindLast (name : String) (v : Value) (fs : List Frame) :
    (bindLast name v fs).length = fs.length := by
  fun_induction bindLast name v fs <;> simp_all

lemma depth_defineGlobal (e : Environment) (name : String) (v : Value) :
    (e.defineGlobal name v).depth = e.depth := by
  rw [defineGlobal]
  split
  · rfl
  · rw [depth, depth, length_bindLast]

/-- **One operation** keeps the frames below the innermost one, up to its effect on them. -/
theorem frameAt?_perform {op : Op} {d : Nat} (hd : d < e.depth)
    (hpop : op = .pop → d + 1 < e.depth) :
    d < (op.perform e).2.depth ∧
      ∀ height < d,
        (op.perform e).2.frameAt? height = (e.frameAt? height).map (op.effect e height) := by
  -- what touches the innermost frame only
  have htop : ∀ e' : Environment, e'.below = e.below →
      d < e'.depth ∧ ∀ height < d, e'.frameAt? height = (e.frameAt? height).map id := by
    intro e' hbelow
    have hdepth := depth_eq hbelow
    refine ⟨by omega, fun height hh => ?_⟩
    rw [Option.map_id_fun, id, frameAt?_of_below (by omega) (by omega) hbelow]
  cases op with
  | define name value => exact htop _ (tryChange_below fun _ h => below_of_define h)
  | update name value => exact htop _ (tryChange_below fun _ h => below_of_update h)
  | put name value =>
      refine ⟨by rw [Op.perform, depth_put]; exact hd, fun height hh => ?_⟩
      exact frameAt?_put (by omega) value
  | defineGlobal name value =>
      refine ⟨by rw [Op.perform, depth_defineGlobal]; exact hd, fun height _ => ?_⟩
      exact frameAt?_defineGlobal e name value height
  | push name file line =>
      refine ⟨Nat.lt_succ_of_lt hd, fun height hh => ?_⟩
      exact (frameAt?_push (by omega) name file line).trans (Option.map_id' (x := _)).symm
  | pop =>
      have hroom := hpop rfl
      have hdepth : e.pop.depth + 1 = e.depth := by
        cases hbelow : e.below with
        | nil => simp [depth, hbelow] at hroom
        | cons f rest => simp [pop, depth, hbelow]
      have hlower : d < e.pop.depth := by omega
      refine ⟨hlower, fun height hh => ?_⟩
      exact (frameAt?_pop (by omega)).trans (Option.map_id' (x := _)).symm
  | _ => exact htop _ rfl

/-! ### Operations in a row -/

/-- The names that operations define globally. -/
def Globally (ops : List Op) (name : String) : Prop := ∃ v, .defineGlobal name v ∈ ops

/-- At some moment of a row of operations a name is assigned while it is found at a height. -/
def Assigns (e : Environment) (ops : List Op) (name : String) (height : Nat) : Prop :=
  ∃ before v after, ops = before ++ .put name v :: after ∧ (e.run before).Innermost name height

/-- What operations in a row leave of the `d` lowest frames. -/
structure Leaves (d : Nat) (e : Environment) (ops : List Op) : Prop where
  /-- There are frames above them. -/
  depth : d < (e.run ops).depth
  /-- They stand where they stood. -/
  entry : ∀ height < d,
    ((e.run ops).frameAt? height).map (·.entry) = (e.frameAt? height).map (·.entry)
  /-- Only a global definition adds a name. -/
  bound : ∀ height < d, ∀ name, ((e.run ops).valueAt? height name).isSome = true ↔
    (e.valueAt? height name).isSome = true ∨ height = 0 ∧ Globally ops name
  /-- Only an assignment or a global definition changes a value. -/
  changed : ∀ height < d, ∀ name,
    (e.run ops).valueAt? height name ≠ e.valueAt? height name →
      e.Assigns ops name height ∨ height = 0 ∧ Globally ops name

lemma find?_write (name other : String) (v : Value) (f : Frame) :
    (write name v f).vars.find? other = if other = name then some v else f.vars.find? other := by
  by_cases h : other = name
  · rw [if_pos h, h, write, Bindings.find?_put_self]
  · rw [if_neg h, write, Bindings.find?_put_of_ne h]

variable {op : Op} {ops : List Op} {d : Nat}

/-- The step: what one operation leaves. -/
lemma leaves_single (hd : d < e.depth) (hpop : op = .pop → d + 1 < e.depth) : Leaves d e [op] := by
  obtain ⟨hdepth, hframe⟩ := @frameAt?_perform e op d hd hpop
  have hexists : ∀ height < d, ∃ f, e.frameAt? height = some f ∧
      (e.run [op]).frameAt? height = some (op.effect e height f) := by
    intro height hh
    have hlt : height < e.frames.reverse.length := by
      rw [List.length_reverse]
      exact Nat.lt_trans hh hd
    refine ⟨_, List.getElem?_eq_getElem hlt, (hframe height hh).trans ?_⟩
    rw [frameAt?, List.getElem?_eq_getElem hlt, Option.map_some]
  refine ⟨hdepth, fun height hh => ?_, fun height hh name => ?_, fun height hh name hne => ?_⟩
  · obtain ⟨f, hf, hf'⟩ := hexists height hh
    rw [hf, hf']
    cases op <;> simp only [Op.effect, Option.map_some] <;> split_ifs <;> rfl
  · obtain ⟨f, hf, hf'⟩ := hexists height hh
    have hold : e.valueAt? height name = f.vars.find? name := by rw [valueAt?_eq, hf]; rfl
    have hnew : (e.run [op]).valueAt? height name = (op.effect e height f).vars.find? name := by
      rw [valueAt?_eq, hf']
      rfl
    rw [hold, hnew]
    cases op with
    | put other v =>
        have hno : ¬ Globally [.put other v] name := by simp [Globally]
        simp only [Op.effect, hno, and_false, or_false]
        split_ifs with hin
        · rw [find?_write]
          split_ifs with hname
          · -- the name was found there
            rw [← hold, hname]
            simpa using hin.1
          · rfl
        · rfl
    | defineGlobal other v =>
        simp only [Op.effect, Globally, List.mem_singleton, Op.defineGlobal.injEq]
        split_ifs with hzero
        · rw [find?_write]
          split_ifs with hname <;> simp [hname, hzero]
        · simp [hzero]
    | _ => simp [Op.effect, Globally]
  · obtain ⟨f, hf, hf'⟩ := hexists height hh
    rw [valueAt?_eq, valueAt?_eq, hf, hf'] at hne
    simp only [Option.bind_some] at hne
    cases op with
    | put other v =>
        simp only [Op.effect] at hne
        split_ifs at hne with hin
        · rw [find?_write] at hne
          split_ifs at hne with hname
          · subst hname
            exact .inl ⟨[], v, [], rfl, hin⟩
          · exact absurd rfl hne
        · exact absurd rfl hne
    | defineGlobal other v =>
        simp only [Op.effect] at hne
        split_ifs at hne with hzero
        · rw [find?_write] at hne
          split_ifs at hne with hname
          · subst hname
            exact .inr ⟨hzero, v, List.mem_singleton.mpr rfl⟩
          · exact absurd rfl hne
        · exact absurd rfl hne
    | _ => exact absurd rfl hne

lemma Globally.cons_iff {name : String} :
    Globally (op :: ops) name ↔ Globally [op] name ∨ Globally ops name := by
  simp only [Globally, List.mem_cons, List.not_mem_nil, or_false]
  constructor
  · rintro ⟨v, h | h⟩
    · exact .inl ⟨v, h⟩
    · exact .inr ⟨v, h⟩
  · rintro (⟨v, h⟩ | ⟨v, h⟩)
    · exact ⟨v, .inl h⟩
    · exact ⟨v, .inr h⟩

/-- What is left by an operation and then by the operations behind it. -/
lemma Leaves.cons (hfirst : Leaves d e [op]) (hrest : Leaves d (op.perform e).2 ops) :
    Leaves d e (op :: ops) := by
  refine ⟨hrest.depth, fun height hh => ?_, fun height hh name => ?_, fun height hh name hne => ?_⟩
  · exact (hrest.entry height hh).trans (hfirst.entry height hh)
  · have h₁ := hfirst.bound height hh name
    have h₂ := hrest.bound height hh name
    rw [Globally.cons_iff, and_or_left, ← or_assoc, ← h₁]
    exact h₂
  · rw [Globally.cons_iff]
    by_cases hstep : (e.run [op]).valueAt? height name = e.valueAt? height name
    · have hne' : ((op.perform e).2.run ops).valueAt? height name ≠
          (op.perform e).2.valueAt? height name := fun h => hne (h.trans hstep)
      rcases hrest.changed height hh name hne' with ⟨before, v, after, hops, hin⟩ | ⟨hzero, hg⟩
      · exact .inl ⟨op :: before, v, after, by rw [hops, List.cons_append], hin⟩
      · exact .inr ⟨hzero, .inr hg⟩
    · rcases hfirst.changed height hh name hstep with ⟨before, v, after, hops, hin⟩ | ⟨hzero, hg⟩
      · obtain ⟨rfl, rfl, rfl⟩ : before = [] ∧ op = .put name v ∧ after = [] := by
          cases before with
          | nil =>
              obtain ⟨rfl, rfl⟩ := List.cons.inj hops
              exact ⟨rfl, rfl, rfl⟩
          | cons _ _ => simp at hops
        exact .inl ⟨[], v, ops, rfl, hin⟩
      · exact .inr ⟨hzero, .inl hg⟩

/-- The run: what operations in a row leave that never take off the frame above the `d` lowest. -/
theorem leaves_run (hd : d < e.depth)
    (hpop : ∀ before after, ops = before ++ .pop :: after → d + 1 < (e.run before).depth) :
    Leaves d e ops := by
  induction ops generalizing e with
  | nil =>
      exact ⟨hd, fun _ _ => rfl, fun _ _ _ => by simp [Globally, run],
        fun _ _ _ hne => absurd rfl hne⟩
  | cons op ops ih =>
      have hfirst : Leaves d e [op] := leaves_single hd fun hop => hpop [] ops (by rw [hop]; rfl)
      refine hfirst.cons (ih hfirst.depth fun before after hops => ?_)
      exact hpop (op :: before) after (by rw [hops, List.cons_append])

/-! ### The scope -/

/-- Taking frames off leaves the lowest ones. -/
lemma frameAt?_truncate (hd : 0 < d) (h : d ≤ e.depth) (height : Nat) :
    (e.truncate d).depth = d ∧
      (e.truncate d).frameAt? height = if height < d then e.frameAt? height else none := by
  have hlength : e.frames.length = e.depth := rfl
  have hframes : (e.truncate d).frames = e.frames.drop (e.depth - d) := by
    rw [truncate, Nat.max_eq_left hd]
    cases hdrop : e.frames.drop (e.depth - d) with
    | nil =>
        have := congrArg List.length hdrop
        rw [List.length_drop, List.length_nil] at this
        omega
    | cons f rest => rfl
  have hdepth : (e.truncate d).depth = d := by
    have := congrArg List.length hframes
    rw [List.length_drop, hlength] at this
    exact this.trans (by omega)
  refine ⟨hdepth, ?_⟩
  split_ifs with hh
  · rw [frameAt?_eq_getElem? (by omega), frameAt?_eq_getElem? (by omega), hdepth, hframes,
      List.getElem?_drop]
    congr 1
    omega
  · exact frameAt?_eq_none (by omega)

lemma trace_eq_of_frameAt? (hdepth : e'.depth = e.depth)
    (h : ∀ height < e.depth,
      (e'.frameAt? height).map (·.entry) = (e.frameAt? height).map (·.entry)) :
    e'.trace = e.trace := by
  apply List.reverse_injective
  rw [trace, trace, ← List.map_reverse, ← List.map_reverse]
  refine List.ext_getElem? fun height => ?_
  rw [List.getElem?_map, List.getElem?_map]
  by_cases hh : height < e.depth
  · exact h height hh
  · have hout : e'.frameAt? height = none := frameAt?_eq_none (by omega)
    have hout' : e.frameAt? height = none := frameAt?_eq_none (by omega)
    rw [frameAt?] at hout hout'
    rw [hout, hout']

/-- **The effect of a scope.** A frame is put on a stack, operations follow that never take it off,
and then all frames above the stack go. The stack has its frames as they stood. A frame has the
names it had, and the global frame those that were defined globally besides. A value differs only
if its name was assigned at a moment when it was found in that frame, or if it was defined globally
and the frame is the global one. At every moment a name is there exactly if it can be read, and an
operation that fails changes nothing. -/
theorem scope_effect (e : Environment) (name file : String) (line : Nat) (ops : List Op)
    (hpop : ∀ before after, ops = before ++ .pop :: after →
      e.depth + 1 < ((e.push name file line).run before).depth) :
    let left := ((e.push name file line).run ops).truncate e.depth
    left.depth = e.depth ∧ left.trace = e.trace ∧
    (∀ height x, (left.valueAt? height x).isSome = true ↔
      (e.valueAt? height x).isSome = true ∨ height = 0 ∧ Globally ops x) ∧
    (∀ height x, left.valueAt? height x ≠ e.valueAt? height x →
      (e.push name file line).Assigns ops x height ∨ height = 0 ∧ Globally ops x) ∧
    ∀ before after, ops = before ++ after → let now := (e.push name file line).run before
      (∀ x, ((Op.has x).perform now).1 = .ok (.truth true) ↔
        ∃ v, ((Op.get x).perform now).1 = .ok (.value v)) ∧
      ∀ op fault, (Op.perform now op).1 = .error fault → (Op.perform now op).2 = now := by
  have hleaves : Leaves e.depth (e.push name file line) ops := leaves_run (Nat.lt_succ_self _) hpop
  have hpos := e.depth_pos
  have htruncate := fun height => @frameAt?_truncate ((e.push name file line).run ops) e.depth hpos
    (Nat.le_of_lt hleaves.depth) height
  have hpush : ∀ height < e.depth, (e.push name file line).frameAt? height = e.frameAt? height :=
    fun height hh => frameAt?_push hh name file line
  have hvalue : ∀ height < e.depth, ∀ x,
      (((e.push name file line).run ops).truncate e.depth).valueAt? height x =
        ((e.push name file line).run ops).valueAt? height x := by
    intro height hh x
    rw [valueAt?_eq, (htruncate height).2, if_pos hh, valueAt?_eq]
  have hvalue' : ∀ height < e.depth, ∀ x,
      (e.push name file line).valueAt? height x = e.valueAt? height x := by
    intro height hh x
    rw [valueAt?_eq, hpush height hh, valueAt?_eq]
  -- above the stack there is nothing, neither before nor after
  have hout : ∀ height, ¬ height < e.depth → ∀ x,
      (((e.push name file line).run ops).truncate e.depth).valueAt? height x = none ∧
        e.valueAt? height x = none := by
    intro height hh x
    refine ⟨by rw [valueAt?_eq, (htruncate height).2, if_neg hh]; rfl, ?_⟩
    rw [valueAt?_eq, frameAt?_eq_none (Nat.le_of_not_lt hh)]
    rfl
  refine ⟨(htruncate 0).1, ?_, fun height x => ?_, fun height x hne => ?_,
    fun before after _ => ⟨fun x => perform_has_iff, fun op fault h => perform_of_error h⟩⟩
  · refine trace_eq_of_frameAt? (htruncate 0).1 fun height hh => ?_
    rw [(htruncate height).2, if_pos hh, hleaves.entry height hh, hpush height hh]
  · by_cases hh : height < e.depth
    · rw [hvalue height hh, hleaves.bound height hh, hvalue' height hh]
    · have hzero : height ≠ 0 := fun h => hh (h ▸ hpos)
      simp [hout height hh x, hzero]
  · by_cases hh : height < e.depth
    · rw [hvalue height hh, ← hvalue' height hh] at hne
      exact hleaves.changed height hh x hne
    · exact absurd ((hout height hh x).1.trans (hout height hh x).2.symm) hne

/-- Two frames, the outer of which has `y`. -/
def twoFrames : Environment := (initial.bind "y" .null).push "f" "<input>" 3

/-- Operations in a frame and, between the third and the seventh, in a frame above it. -/
def busy : List Op :=
  [.define "x" .null, .define "x" (.bool true), .put "y" (.bool true), .push "g" "<input>" 5,
    .bind "y" .null, .put "y" (.bool false), .pop, .defineGlobal "z" .null, .mark 7,
    .setFile "other", .update "w" .null]

/-- The first assignment to `y` reaches the global frame and the second one does not; `z` is new
there, and `x` went with its frame. -/
theorem scope_effect_busy :
    let left := ((twoFrames.push "h" "<input>" 4).run busy).truncate twoFrames.depth
    (∀ before after, busy = before ++ .pop :: after →
      twoFrames.depth + 1 < ((twoFrames.push "h" "<input>" 4).run before).depth) ∧
    left.depth = 2 ∧ left.trace = twoFrames.trace ∧
    (twoFrames.push "h" "<input>" 4).Assigns busy "y" 0 ∧
    left.scope = [[], [("y", .bool true), ("z", .null)]] := by
  have hpop : ∀ before after, busy = before ++ .pop :: after →
      twoFrames.depth + 1 < ((twoFrames.push "h" "<input>" 4).run before).depth := by
    intro before after h
    have hget : busy[before.length]? = some .pop := by simp [h]
    have htake : before = busy.take before.length := by simp [h]
    have hlength : before.length < busy.length := by simp [h]
    rw [htake]
    generalize before.length = n at hget hlength
    replace hlength : n < 11 := hlength
    interval_cases n <;> first | decide | cases hget
  obtain ⟨hdepth, htrace, -, hchanged, -⟩ := scope_effect twoFrames "h" "<input>" 4 busy hpop
  refine ⟨hpop, hdepth, htrace, (hchanged 0 "y" ?_).resolve_right ?_, rfl⟩
  · have hnew : (((twoFrames.push "h" "<input>" 4).run busy).truncate twoFrames.depth).valueAt? 0
        "y" = some (.bool true) := rfl
    have hold : twoFrames.valueAt? 0 "y" = some .null := rfl
    rw [hnew, hold]
    rintro ⟨⟩
  · rintro ⟨-, v, hv⟩
    simp [busy] at hv

end Tern.Environment
