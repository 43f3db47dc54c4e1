/-
Patterns that only take apart. A pattern made of names, blanks, constants, parentheses, tuples and
lists describes a shape, and a value of that shape has a part for every name of the pattern.

* `Expr.isPlain`: patterns of this kind, without annotations.
* `Heap.Fits`: the values of a shape and their parts; `Heap.Fits.unique`: there is one way to take a
  value apart.
* `Eval.shaped_matchPattern`: matching binds the parts in order, or some names on the way to where
  the shapes differ.
* `Environment.Assigned`: the environment after an assignment of parts, each in the nearest frame
  that has the name.
* `Eval.destructure_of_fits`, `Eval.destructure_of_misfit`: destructuring assigns the parts of a
  value of the shape, and fails without a change on any other.
-/
import Tern.Proofs.Destructuring

namespace Tern

/-! ### Shapes -/

mutual

/-- Whether a pattern is made of names, constants, parentheses, tuples and lists and has no
annotations. -/
def Expr.isPlain : Expr → Bool
  | .node site form => site.annotations.isEmpty && form.isPlain

def Form.isPlain : Form → Bool
  | .name _ => true
  | .constant _ => true
  | .group inner => inner.isPlain
  | .tuple patterns => Expr.arePlain patterns
  | .list patterns => Expr.arePlain patterns
  | _ => false

def Expr.arePlain : List Expr → Bool
  | [] => true
  | p :: ps => p.isPlain && Expr.arePlain ps

end

/-- A value is equal to a constant in kind and value. -/
inductive Constant.Equals : Constant → Value → Prop
  | number {n : Numeral} {x : Float} : (n.value == x) = true → Equals (.number n) (.number x)
  | text (t : String) : Equals (.text t) (.text t)
  | bool (b : Bool) : Equals (.bool b) (.bool b)
  | null : Equals .null .null

lemma Constant.equals_iff {c : Constant} {v : Value} :
    c.Equals v ↔ Eval.fitsConstant c v = true := by
  constructor
  · rintro (h | _ | _ | _)
    · exact h
    · exact beq_self_eq_true _
    · exact beq_self_eq_true _
    · rfl
  · intro h
    cases c <;> cases v <;> try cases h
    · exact .number h
    · obtain rfl := eq_of_beq h
      exact .text _
    · obtain rfl := eq_of_beq h
      exact .bool _
    · exact .null

mutual

/-- A value has the shape of a pattern, with the parts that the names of the pattern stand for, from
left to right. -/
inductive Heap.Fits (h : Heap) : Expr → Value → Bindings Value → Prop
  | blank {site : Site} {v : Value} : Fits h (.node site (.name "_")) v []
  | name {site : Site} {name : String} {v : Value} :
      name ≠ "_" → Fits h (.node site (.name name)) v [(name, v)]
  | constant {site : Site} {c : Constant} {v : Value} :
      c.Equals v → Fits h (.node site (.constant c)) v []
  | group {site : Site} {inner : Expr} {v : Value} {parts : Bindings Value} :
      Fits h inner v parts → Fits h (.node site (.group inner)) v parts
  | tuple {site : Site} {ps : List Expr} {items : List Value} {parts : Bindings Value} :
      FitsAll h ps items parts → Fits h (.node site (.tuple ps)) (.tuple items) parts
  | list {site : Site} {ps : List Expr} {r : ListRef} {parts : Bindings Value} :
      FitsAll h ps (h.items r).toList parts → Fits h (.node site (.list ps)) (.list r) parts

/-- As many values as patterns, each of the shape of its pattern. -/
inductive Heap.FitsAll (h : Heap) : List Expr → List Value → Bindings Value → Prop
  | nil : FitsAll h [] [] []
  | cons {p : Expr} {ps : List Expr} {v : Value} {vs : List Value} {first rest : Bindings Value} :
      Fits h p v first → FitsAll h ps vs rest → FitsAll h (p :: ps) (v :: vs) (first ++ rest)

end

namespace Heap

variable {h : Heap}

lemma FitsAll.length_eq {ps : List Expr} {vs : List Value} {parts : Bindings Value}
    (hfits : h.FitsAll ps vs parts) : ps.length = vs.length := by
  induction ps generalizing vs parts with
  | nil =>
      cases hfits
      rfl
  | cons p ps ih =>
      obtain _ | ⟨-, hrest⟩ := hfits
      exact congrArg (· + 1) (ih hrest)

mutual

/-- The parts of a value are determined by the pattern. -/
theorem Fits.unique {p : Expr} {v : Value} {parts parts' : Bindings Value}
    (hfits : h.Fits p v parts) (hfits' : h.Fits p v parts') : parts = parts' := by
  cases hfits with
  | blank =>
      cases hfits' with
      | blank => rfl
      | name hne => exact absurd rfl hne
  | name hne =>
      cases hfits' with
      | blank => exact absurd rfl hne
      | name _ => rfl
  | constant _ =>
      cases hfits'
      rfl
  | group hinner =>
      cases hfits' with
      | group hinner' => exact hinner.unique hinner'
  | tuple hall =>
      cases hfits' with
      | tuple hall' => exact hall.unique hall'
  | list hall =>
      cases hfits' with
      | list hall' => exact hall.unique hall'

theorem FitsAll.unique {ps : List Expr} {vs : List Value} {parts parts' : Bindings Value}
    (hfits : h.FitsAll ps vs parts) (hfits' : h.FitsAll ps vs parts') : parts = parts' := by
  cases hfits with
  | nil =>
      cases hfits'
      rfl
  | cons hfirst hrest =>
      cases hfits' with
      | cons hfirst' hrest' => rw [hfirst.unique hfirst', hrest.unique hrest']

end

end Heap

/-! ### Matching -/

namespace Eval

/-- How a match ends that binds one name after another by `set`: all parts are bound, or some names
are and the value cannot be taken apart. -/
inductive Shaped (set : Environment → String × Value → Environment) (s : Session)
    (fits : Bindings Value → Prop) : EStateM.Result Signal Session Bool → Prop
  | fit {parts : Bindings Value} :
      fits parts → Shaped set s fits (.ok true { s with env := parts.foldl set s.env })
  | misfit {done : Bindings Value} :
      (∀ parts, ¬ fits parts) → Shaped set s fits (.ok false { s with env := done.foldl set s.env })

section Matching

variable {run : Runner} {mode : BindMode} {set : Environment → String × Value → Environment}
  {s : Session} {fits fits' : Bindings Value → Prop}

namespace Shaped

lemma congr {r : EStateM.Result Signal Session Bool} (h : ∀ parts, fits parts ↔ fits' parts)
    (hr : Shaped set s fits r) : Shaped set s fits' r := by
  cases hr with
  | fit hparts => exact .fit ((h _).mp hparts)
  | misfit hnone => exact .misfit fun parts hparts => hnone parts ((h parts).mpr hparts)

/-- Nothing is bound. -/
lemma pure {b : Bool} (hyes : b = true → fits []) (hno : b = false → ∀ parts, ¬ fits parts) :
    Shaped set s fits (.ok b s) := by
  cases b with
  | true => exact @fit set s fits [] (hyes rfl)
  | false => exact @misfit set s fits [] (hno rfl)

/-- A second pattern is matched if the first one fits. -/
lemma andThen {x y : Eval Bool} {rest : Bindings Value → Prop} (hx : Shaped set s fits (x s))
    (hy : ∀ s' : Session, s'.heap = s.heap → Shaped set s' rest (y s')) :
    Shaped set s (fun parts => ∃ a b, fits a ∧ rest b ∧ parts = a ++ b)
      ((x >>= fun b => if b = true then y else Pure.pure false) s) := by
  rw [bind_apply]
  generalize x s = r at hx
  cases hx with
  | @fit first hfirst =>
      have hsecond := hy { s with env := first.foldl set s.env } rfl
      simp only [if_true]
      generalize y { s with env := first.foldl set s.env } = r at hsecond
      cases hsecond with
      | @fit second hsecond =>
          have h := @fit set s (fun parts => ∃ a b, fits a ∧ rest b ∧ parts = a ++ b)
            (first ++ second) ⟨first, second, hfirst, hsecond, rfl⟩
          rwa [List.foldl_append] at h
      | @misfit done hnone =>
          have h := @misfit set s (fun parts => ∃ a b, fits a ∧ rest b ∧ parts = a ++ b)
            (first ++ done) (by rintro parts ⟨a, b, -, hb, -⟩; exact hnone b hb)
          rwa [List.foldl_append] at h
  | @misfit done hnone =>
      refine .misfit ?_
      rintro parts ⟨a, b, ha, -, -⟩
      exact hnone a ha

end Shaped

/-- Values are matched one by one if there are as many as patterns. -/
lemma Shaped.ofLength {ps : List Expr} {vs : List Value} {x : Eval Bool}
    (hx : ps.length = vs.length → Shaped set s (s.heap.FitsAll ps vs) (x s)) :
    Shaped set s (s.heap.FitsAll ps vs)
      ((if ps.length = vs.length then x else Pure.pure false : Eval Bool) s) := by
  by_cases hlength : ps.length = vs.length
  · rw [if_pos hlength]
    exact hx hlength
  · rw [if_neg hlength]
    exact .pure (fun h => by cases h) fun _ parts hfits => hlength hfits.length_eq

/-- What it is to bind a name in a way that cannot fail. -/
def BindsBy (mode : BindMode) (set : Environment → String × Value → Environment) : Prop :=
  ∀ name v s, bindAs mode name v s = .ok () { s with env := set s.env (name, v) }

mutual

/-- Matching binds the parts of a value that fits. -/
theorem shaped_matchPattern (hset : BindsBy mode set) (p : Expr) (v : Value) (s : Session)
    (hp : p.isPlain = true) :
    Shaped set s (s.heap.Fits p v) (matchPattern run mode p v s) :=
  match p, hp with
  | .node site form, hp => by
      simp only [Expr.isPlain, Bool.and_eq_true, List.isEmpty_iff] at hp
      exact shaped_matchForm hset site form v s hp.1 hp.2

theorem shaped_matchForm (hset : BindsBy mode set) (site : Site) (form : Form) (v : Value)
    (s : Session) (hsite : site.annotations = []) (hp : form.isPlain = true) :
    Shaped set s (s.heap.Fits (.node site form) v) (matchForm run mode site form v s) := by
  cases form with
  | name name =>
      by_cases hname : name = "_"
      · subst hname
        exact .pure (fun _ => .blank) (fun h => by cases h)
      · have hbind : matchForm run mode site (.name name) v s =
            .ok true { s with env := set s.env (name, v) } := by
          simp only [matchForm, hsite, List.contains_nil, Bool.false_eq_true, if_false, ne_eq,
            hname, not_false_eq_true, if_true, bind_apply, hset name v s, pure_apply]
        rw [hbind]
        exact @Shaped.fit set s _ [(name, v)] (.name hname)
  | constant c =>
      refine .pure (fun h => .constant (Constant.equals_iff.mpr h)) fun h parts hfits => ?_
      cases hfits with
      | constant hc => exact Bool.false_ne_true (h.symm.trans (Constant.equals_iff.mp hc))
  | group inner =>
      refine (shaped_matchPattern hset inner v s hp).congr fun parts => ⟨.group, fun hfits => ?_⟩
      cases hfits with
      | group hinner => exact hinner
  | tuple patterns =>
      cases v with
      | tuple items =>
          have hiff : ∀ parts, s.heap.FitsAll patterns items parts ↔
              s.heap.Fits (.node site (.tuple patterns)) (.tuple items) parts := by
            refine fun parts => ⟨.tuple, fun hfits => ?_⟩
            cases hfits with
            | tuple hall => exact hall
          exact (Shaped.ofLength (shaped_matchItems hset patterns items s hp)).congr hiff
      | _ => exact .pure (fun h => by cases h) fun _ parts hfits => by cases hfits
  | list patterns =>
      cases v with
      | list r =>
          have hiff : ∀ parts, s.heap.FitsAll patterns (s.heap.items r).toList parts ↔
              s.heap.Fits (.node site (.list patterns)) (.list r) parts := by
            refine fun parts => ⟨.list, fun hfits => ?_⟩
            cases hfits with
            | list hall => exact hall
          exact (Shaped.ofLength (shaped_matchItems hset patterns _ s hp)).congr hiff
      | _ => exact .pure (fun h => by cases h) fun _ parts hfits => by cases hfits
  | _ => cases hp

theorem shaped_matchItems (hset : BindsBy mode set) (ps : List Expr) (vs : List Value)
    (s : Session) (hp : Expr.arePlain ps = true) (hlength : ps.length = vs.length) :
    Shaped set s (s.heap.FitsAll ps vs) (matchItems run mode ps vs s) := by
  match ps, vs with
  | [], [] => exact .pure (fun _ => .nil) (fun h => by cases h)
  | [], _ :: _ => cases hlength
  | _ :: _, [] => cases hlength
  | p :: ps, v :: vs =>
      simp only [Expr.arePlain, Bool.and_eq_true] at hp
      have hrest : ∀ s' : Session, s'.heap = s.heap →
          Shaped set s' (s.heap.FitsAll ps vs) (matchItems run mode ps vs s') := by
        intro s' hs
        rw [← hs]
        exact shaped_matchItems hset ps vs s' hp.2 (Nat.succ.inj hlength)
      refine ((shaped_matchPattern hset p v s hp.1).andThen hrest).congr fun parts => ⟨?_, ?_⟩
      · rintro ⟨a, b, ha, hb, rfl⟩
        exact .cons ha hb
      · rintro (_ | ⟨ha, hb⟩)
        exact ⟨_, _, ha, hb, rfl⟩

end

end Matching

end Eval

/-! ### Assigning parts -/

/-- The value that was entered under a name last. -/
def Bindings.last? (name : String) (b : Bindings Value) : Option Value := find? name b.reverse

lemma Bindings.find?_append {α : Type} (name : String) (b b' : Bindings α) :
    find? name (b ++ b') = (find? name b).or (find? name b') := by
  induction b with
  | nil => rfl
  | cons entry rest ih =>
      obtain ⟨key, old⟩ := entry
      rw [List.cons_append, find?, find?]
      split
      · rfl
      · exact ih

lemma Bindings.last?_cons (name key : String) (v : Value) (b : Bindings Value) :
    last? name ((key, v) :: b) = (b.last? name).or (if key = name then some v else none) := by
  rw [last?, List.reverse_cons, find?_append]
  rfl

namespace Environment

variable {e e' : Environment}

/-- The place of the frame in which an assignment to a name takes effect, counted from the innermost
one: the nearest frame that has the name, or else the innermost one. -/
def home (e : Environment) (name : String) : Nat :=
  (e.frames.findIdx? (·.vars.has name)).getD 0

/-- The environment after an assignment of parts. -/
structure Assigned (e : Environment) (parts : Bindings Value) (e' : Environment) : Prop where
  /-- All names read as their parts, the last one where a name is repeated, and all others as
  before. -/
  find? : ∀ name, e'.find? name = (parts.last? name).or (e.find? name)
  /-- There are the same frames, each where it was. -/
  trace : e'.trace = e.trace
  snapshots : e'.snapshots = e.snapshots
  /-- A part is written in the frame where its name is at home, and nothing else is written. -/
  vars : ∀ i f f', e.frames[i]? = some f → e'.frames[i]? = some f' → ∀ name,
    f'.vars.find? name =
      if i = e.home name then (parts.last? name).or (f.vars.find? name) else f.vars.find? name

/-- Writes a name in a frame. -/
def write (name : String) (v : Value) (f : Frame) : Frame :=
  { f with vars := f.vars.put name v }

lemma putIn?_eq (name : String) (v : Value) (fs : List Frame) :
    putIn? name v fs =
      (fs.findIdx? (·.vars.has name)).map fun i => fs.modify i (write name v) := by
  induction fs with
  | nil => rfl
  | cons f fs ih =>
      rw [putIn?, List.findIdx?_cons]
      by_cases hf : f.vars.has name = true
      · rw [if_pos hf, if_pos hf]
        rfl
      · rw [if_neg hf, if_neg hf, ih, Option.map_map, Option.map_map]
        rfl

/-- An assignment writes the frame where the name is at home. -/
lemma frames_put (e : Environment) (name : String) (v : Value) :
    (e.put name v).frames = e.frames.modify (e.home name) (write name v) := by
  have hframes : e.frames = e.top :: e.below := rfl
  rw [put, home, hframes, List.findIdx?_cons, putIn?_eq]
  by_cases ht : e.top.vars.has name = true
  · rw [if_pos ht, if_pos ht]
    rfl
  · rw [if_neg ht, if_neg ht]
    cases e.below.findIdx? (·.vars.has name) <;> rfl

lemma snapshots_put (e : Environment) (name : String) (v : Value) :
    (e.put name v).snapshots = e.snapshots := by
  rw [put]
  split
  · rfl
  · split <;> rfl

lemma trace_put (e : Environment) (name : String) (v : Value) : (e.put name v).trace = e.trace := by
  rw [trace, trace, frames_put]
  refine List.ext_getElem? fun i => ?_
  rw [List.getElem?_map, List.getElem?_map, List.getElem?_modify]
  cases e.frames[i]? with
  | none => rfl
  | some f =>
      by_cases hi : e.home name = i
      · simp [hi, write, Frame.entry]
      · simp [hi]

/-- A name is where it was after an assignment to another one or to one that was bound. -/
lemma map_has_put {name other : String} (e : Environment) (v : Value)
    (h : other = name → e.frames.findIdx? (·.vars.has name) ≠ none) :
    (e.put name v).frames.map (·.vars.has other) = e.frames.map (·.vars.has other) := by
  rw [frames_put]
  refine List.ext_getElem? fun i => ?_
  rw [List.getElem?_map, List.getElem?_map, List.getElem?_modify]
  cases hf : e.frames[i]? with
  | none => rfl
  | some f =>
      by_cases hi : e.home name = i
      · by_cases hother : other = name
        · -- the frame is the one in which the name was found
          obtain ⟨j, hj⟩ := Option.ne_none_iff_exists'.mp (h hother)
          obtain rfl : j = i := by rw [← hi, home, hj, Option.getD_some]
          obtain ⟨hlt, hhas, -⟩ := List.findIdx?_eq_some_iff_getElem.mp hj
          obtain ⟨hlt', rfl⟩ := List.getElem?_eq_some_iff.mp hf
          simp [hi, write, hother, hhas]
        · simp [hi, write, hother]
      · simp [hi]

/-- An assignment moves no name. -/
lemma home_put (e : Environment) (name other : String) (v : Value) :
    (e.put name v).home other = e.home other := by
  have hmap : ∀ fs : List Frame, fs.findIdx? (·.vars.has other) =
      (fs.map (·.vars.has other)).findIdx? id := fun fs => by rw [List.findIdx?_map]; rfl
  by_cases h : other = name → e.frames.findIdx? (·.vars.has name) ≠ none
  · rw [home, home, hmap, hmap, map_has_put e v h]
  · -- a name that was not bound comes in the innermost frame
    push Not at h
    obtain ⟨rfl, hnone⟩ := h
    have hhome : e.home other = 0 := by rw [home, hnone, Option.getD_none]
    have hframes : e.frames = e.top :: e.below := rfl
    rw [hhome, home, frames_put, hhome, hframes, List.modify_zero_cons, List.findIdx?_cons,
      if_pos (by simp [write]), Option.getD_some]

lemma assigned_foldl (e : Environment) (parts : Bindings Value) :
    e.Assigned parts (parts.foldl (fun e part => e.put part.1 part.2) e) := by
  induction parts generalizing e with
  | nil =>
      refine ⟨fun name => rfl, rfl, rfl, fun i f f' hf hf' name => ?_⟩
      obtain rfl := Option.some.inj (hf.symm.trans hf')
      split <;> rfl
  | cons part parts ih =>
      obtain ⟨key, v⟩ := part
      obtain ⟨hfind, htrace, hsnapshots, hvars⟩ := ih (e.put key v)
      refine ⟨fun name => ?_, ?_, ?_, ?_⟩
      · rw [List.foldl_cons, hfind, find?_put, Bindings.last?_cons, Option.or_assoc]
        by_cases hname : name = key
        · rw [hname, Function.update_self, if_pos rfl, Option.some_or]
        · rw [Function.update_of_ne hname, if_neg (Ne.symm hname), Option.none_or]
      · exact htrace.trans (trace_put e key v)
      · exact hsnapshots.trans (snapshots_put e key v)
      · intro i f f' hf hf' name
        have hwritten : (e.put key v).frames[i]? =
            some (if e.home key = i then write key v f else f) := by
          rw [frames_put, List.getElem?_modify, hf]
          rfl
        rw [hvars i _ f' hwritten hf' name, home_put, Bindings.last?_cons, Option.or_assoc]
        by_cases hname : name = key
        · subst hname
          by_cases hi : i = e.home name
          · rw [if_pos hi, if_pos hi, if_pos hi.symm, if_pos rfl, Option.some_or]
            simp only [write, Bindings.find?_put_self]
          · rw [if_neg hi, if_neg hi, if_neg (Ne.symm hi)]
        · rw [if_neg (Ne.symm hname), Option.none_or]
          by_cases hi : e.home key = i
          · rw [if_pos hi]
            simp only [write, Bindings.find?_put_of_ne hname]
          · rw [if_neg hi]

/-- What is bound in a frame of its own goes with it. -/
lemma pop_foldl_bind (e : Environment) (parts : Bindings Value) (name file : String) (line : Nat) :
    (parts.foldl (fun e part => e.bind part.1 part.2) (e.push name file line)).pop = e := by
  have hrest : ∀ e' : Environment,
      (parts.foldl (fun e part => e.bind part.1 part.2) e').below = e'.below ∧
      (parts.foldl (fun e part => e.bind part.1 part.2) e').snapshots = e'.snapshots := by
    induction parts with
    | nil => exact fun e' => ⟨rfl, rfl⟩
    | cons part parts ih => exact fun e' => ih (e'.bind part.1 part.2)
  obtain ⟨hbelow, hsnapshots⟩ := hrest (e.push name file line)
  have hbelow' : (parts.foldl (fun e part => e.bind part.1 part.2)
      (e.push name file line)).below = e.top :: e.below := hbelow
  rw [pop, hbelow']
  simp only [hsnapshots]
  rfl

end Environment

/-! ### Destructuring -/

lemma Expr.not_declares_of_isPlain {p : Expr} (hp : p.isPlain = true) : p.declares = false := by
  obtain ⟨site, form⟩ := p
  simp only [isPlain, Bool.and_eq_true, List.isEmpty_iff] at hp
  rw [declares, Expr.site, hp.1]
  rfl

namespace Eval

variable {run : Runner} {p : Expr} {v : Value} {s : Session} {parts : Bindings Value}

/-- A trial tells whether a value has the shape of the pattern, and leaves nothing. -/
lemma trial_of_isPlain (hp : p.isPlain = true) (hroom : s.env.depth < s.maxDepth)
    (name file : String) (line : Nat) : ∃ b,
    inFrame name file line (matchPattern run .fresh p v) s = .ok b s ∧
      (b = true ↔ ∃ parts, s.heap.Fits p v parts) := by
  have hmatch := @shaped_matchPattern run .fresh (fun e part => e.bind part.1 part.2)
    (fun _ _ _ => rfl) p v { s with env := s.env.push name file line } hp
  rw [inFrame_apply name file line _ hroom]
  generalize matchPattern run .fresh p v { s with env := s.env.push name file line } = r
    at hmatch
  cases hmatch with
  | fit hparts =>
      refine ⟨true, ?_, fun _ => ⟨_, hparts⟩, fun _ => rfl⟩
      simp only [leaveFrame, Environment.pop_foldl_bind]
  | misfit hnone =>
      refine ⟨false, ?_, fun h => (Bool.false_ne_true h).elim, fun ⟨_, hparts⟩ => ?_⟩
      · simp only [leaveFrame, Environment.pop_foldl_bind]
      · exact absurd hparts (hnone _)

/-- The parts of a value of the shape are assigned one by one. -/
lemma destructure_of_fits (hp : p.isPlain = true) (hroom : s.env.depth < s.maxDepth)
    (hfits : s.heap.Fits p v parts) : destructure run p v s =
      .ok () { s with env := parts.foldl (fun e part => e.put part.1 part.2) s.env } := by
  obtain ⟨b, htrial, hb⟩ := @trial_of_isPlain run p v s hp hroom "<destructure>" p.source p.line
  obtain rfl := hb.mpr ⟨parts, hfits⟩
  have hmatch := @shaped_matchPattern run .assign (fun e part => e.put part.1 part.2)
    (fun _ _ _ => rfl) p v s hp
  simp only [destructure, bind_apply, htrial, Bool.not_true, Bool.false_eq_true, if_false,
    Expr.not_declares_of_isPlain hp, pure_apply]
  generalize matchPattern run .assign p v s = r at hmatch
  cases hmatch with
  | fit hparts => rw [hparts.unique hfits]
  | misfit hnone => exact absurd hfits (hnone parts)

/-- A value of another shape is refused. -/
lemma destructure_of_misfit (hp : p.isPlain = true) (hroom : s.env.depth < s.maxDepth)
    (hmisfit : ∀ parts, ¬ s.heap.Fits p v parts) : destructure run p v s =
      .error (.fault (.noMatch .destructuring (s.heap.display v)) []) s := by
  obtain ⟨b, htrial, hb⟩ := @trial_of_isPlain run p v s hp hroom "<destructure>" p.source p.line
  have hno : b = false := by
    cases b with
    | false => rfl
    | true =>
        obtain ⟨parts, hparts⟩ := hb.mp rfl
        exact absurd hparts (hmisfit parts)
  subst hno
  simp only [destructure, bind_apply, htrial]
  rfl

/-- Destructuring succeeds exactly for the values that have the shape of the pattern. Then it
assigns the parts and changes nothing else, and otherwise it fails and changes nothing at all. -/
theorem destructure_iff_fits (run : Runner) (p : Expr) (v : Value) (s : Session)
    (hp : p.isPlain = true) (hroom : s.env.depth < s.maxDepth) :
    ((∃ s', destructure run p v s = .ok () s') ↔ ∃ parts, s.heap.Fits p v parts) ∧
    (∀ s', destructure run p v s = .ok () s' → ∃ parts env,
      s.heap.Fits p v parts ∧ (∀ parts', s.heap.Fits p v parts' → parts' = parts) ∧
      s' = { s with env } ∧ s.env.Assigned parts env) ∧
    ∀ signal s', destructure run p v s = .error signal s' →
      s' = s ∧ ∃ fault, signal = .fault fault [] ∧ fault.kind = .noMatchingClause := by
  by_cases hfits : ∃ parts, s.heap.Fits p v parts
  · obtain ⟨parts, hparts⟩ := hfits
    rw [destructure_of_fits hp hroom hparts]
    refine ⟨⟨fun _ => ⟨parts, hparts⟩, fun _ => ⟨_, rfl⟩⟩, ?_, fun signal s' h => by cases h⟩
    rintro s' ⟨⟩
    exact ⟨parts, _, hparts, fun parts' hparts' => hparts'.unique hparts, rfl,
      s.env.assigned_foldl parts⟩
  · have hmisfit : ∀ parts, ¬ s.heap.Fits p v parts := fun parts hparts => hfits ⟨parts, hparts⟩
    rw [destructure_of_misfit hp hroom hmisfit]
    refine ⟨⟨?_, fun h => absurd h hfits⟩, ?_, ?_⟩
    · rintro ⟨s', ⟨⟩⟩
    · rintro s' ⟨⟩
    · rintro signal s' ⟨⟩
      exact ⟨rfl, _, rfl, rfl⟩

/-- The pattern `(a, [((b, true)), _, a])`. -/
def nested : Expr :=
  .plain default (.tuple [.plain default (.name "a"), .plain default (.list [
    .plain default (.group (.plain default (.tuple [.plain default (.name "b"),
      .plain default (.constant (.bool true))]))),
    .plain default (.name "_"), .plain default (.name "a")])])

/-- A session with a list `[("x", true), null, "y"]` and two frames, the outer of which has `b`. -/
def layered : Session :=
  { Session.initial with
    heap := { Heap.empty with lists := #[#[.tuple [.text "x", .bool true], .null, .text "y"]] }
    env := (Environment.initial.bind "b" .null).push "f" "<input>" 3 }

/-- The last `a` counts and is new in the inner frame; `b` is written in the outer one. -/
theorem destructure_iff_fits_nested : ∃ env,
    nested.isPlain = true ∧ layered.env.depth < layered.maxDepth ∧
    destructure Eval.run nested (.tuple [.null, .list ⟨0⟩]) layered =
      .ok () { layered with env } ∧
    layered.env.Assigned [("a", .null), ("b", .text "x"), ("a", .text "y")] env ∧
    env.scope = [[("a", .text "y")], [("b", .text "x")]] := by
  have hp : nested.isPlain = true := by decide
  have hroom : layered.env.depth < layered.maxDepth := by decide
  have hfits : layered.heap.Fits nested (.tuple [.null, .list ⟨0⟩])
      [("a", .null), ("b", .text "x"), ("a", .text "y")] := by
    refine .tuple (.cons (.name (by decide)) (@Heap.FitsAll.cons _ _ _ _ _
      [("b", .text "x"), ("a", .text "y")] [] (.list ?_) .nil))
    exact .cons (.group (.tuple (.cons (.name (by decide)) (.cons (.constant (.bool true)) .nil))))
      (.cons .blank (.cons (.name (by decide)) .nil))
  obtain ⟨-, hok, -⟩ := destructure_iff_fits Eval.run nested (.tuple [.null, .list ⟨0⟩]) layered
    hp hroom
  have hrun : ∃ env, destructure Eval.run nested (.tuple [.null, .list ⟨0⟩]) layered =
      .ok () { layered with env } ∧ env.scope = [[("a", .text "y")], [("b", .text "x")]] :=
    ⟨_, rfl, rfl⟩
  obtain ⟨env, hrun, hscope⟩ := hrun
  obtain ⟨parts, env', -, hunique, henv, hassigned⟩ := hok _ hrun
  obtain rfl : env = env' := congrArg Session.env henv
  rw [← hunique _ hfits] at hassigned
  exact ⟨env, hp, hroom, hrun, hassigned, hscope⟩

end Eval

end Tern
