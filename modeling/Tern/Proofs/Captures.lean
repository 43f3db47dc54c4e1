/-
What patterns capture. Matching binds names one by one while it goes through a pattern, and it may
look names up and evaluate expressions on the way. Where these expressions only read, all of it is
told by a function of the pattern, the value and the values of names: the captures, or that the
pattern does not fit.

* `Expr.captures?`: what a pattern captures from a value that fits.
* `Environment.capture`: binding what a name takes, in each of the ways in which patterns bind.
* `Eval.Answers`: evaluating an expression only reads.
* `Eval.Captured`: how a match with known captures ends: all are bound, or those in front of one
  that cannot be, or the pattern does not fit.
* `Eval.captured_matchPattern`: matching ends as the captures say.
-/
import Mathlib.Logic.Function.Basic
import Tern.Proofs.Local

namespace Tern

/-- What a name of a pattern takes; a name that is `declared` has to be new. -/
structure Capture where
  declared : Bool
  name : String
  value : Value

/-- The values of names. -/
abbrev Lookup := String → Option Value

/-- The values of names after captures. -/
def Lookup.after (look : Lookup) (cs : List Capture) : Lookup :=
  cs.foldl (fun look c => Function.update look c.name (some c.value)) look

/-! ### The captures of a pattern -/

/-- The class that a value is. -/
def Value.class? : Value → Option ClassRef
  | .classOf r => some r
  | _ => none

section Definitions

variable (h : Heap) (ask : Lookup → Expr → Option Value)

/-- The class that the right side of a pair asks for, if it asks for one; nothing at all if
evaluating it fails. -/
def Expr.asksClass? (look : Lookup) (e : Expr) : Option (Option ClassRef) :=
  match e.form with
  | .name name => some ((look name).bind Value.class?)
  | .member .. => (ask look e).map Value.class?
  | _ => some none

mutual

/-- What a pattern captures from a value, in order, given how expressions evaluate. -/
def Expr.captures? : Expr → Value → Lookup → Option (List Capture)
  | .node site form, value, look => form.captures? site value look

/-- What a pattern that is taken apart captures. -/
def Form.captures? (site : Site) : Form → Value → Lookup → Option (List Capture)
  | .name name, value, _ =>
    some (if name = "_" then [] else
      [⟨site.annotations.contains Expr.newName, name, value⟩])
  | .constant c, value, _ => if Eval.fitsConstant c value then some [] else none
  | .group inner, value, look => inner.captures? value look
  | .tuple patterns, value, look =>
    match value with
    | .tuple items =>
      if patterns.length = items.length then Expr.itemCaptures? patterns items look else none
    | _ => none
  | .list patterns, value, look =>
    match value with
    | .list r =>
      if patterns.length = (h.items r).toList.length then
        Expr.itemCaptures? patterns (h.items r).toList look
      else none
    | _ => none
  | .map patterns, value, look =>
    match value with
    | .map r => Expr.entryCaptures? (h.entries r) patterns look
    | _ => none
  | .pair left right, value, look =>
    (right.asksClass? ask look).bind fun
      | some c => if h.isInstance value c then left.captures? value look else none
      | none =>
        match value with
        | .tuple [v, w] =>
          (left.captures? v look).bind fun cs => (right.captures? w (look.after cs)).map (cs ++ ·)
        | _ => none
  | form, value, look =>
    (ask look (.node site form)).bind fun expected =>
      if h.equal expected value then some [] else none

/-- What patterns capture from values, one by one. -/
def Expr.itemCaptures? : List Expr → List Value → Lookup → Option (List Capture)
  | p :: ps, v :: vs, look =>
    (p.captures? v look).bind fun cs => (Expr.itemCaptures? ps vs (look.after cs)).map (cs ++ ·)
  | _, _, _ => some []

/-- What patterns capture from the values under keys. -/
def Expr.entryCaptures? (entries : Entries) :
    List (Expr × Expr) → Lookup → Option (List Capture)
  | [], _ => some []
  | (key, pattern) :: rest, look =>
    (ask look key).bind fun k => (entries.find? k).bind fun v =>
      (pattern.captures? v look).bind fun cs =>
        (Expr.entryCaptures? entries rest (look.after cs)).map (cs ++ ·)

end

end Definitions

mutual

/-- The expressions that matching with a pattern may evaluate. -/
def Expr.asked : Expr → List Expr
  | .node site form => form.asked site

def Form.asked (site : Site) : Form → List Expr
  | .name _ => []
  | .constant _ => []
  | .group inner => inner.asked
  | .tuple patterns => Expr.itemsAsked patterns
  | .list patterns => Expr.itemsAsked patterns
  | .map patterns => Expr.entriesAsked patterns
  | .pair left right => left.asked ++ right.asked
  | form => [.node site form]

def Expr.itemsAsked : List Expr → List Expr
  | [] => []
  | p :: ps => p.asked ++ Expr.itemsAsked ps

def Expr.entriesAsked : List (Expr × Expr) → List Expr
  | [] => []
  | (key, pattern) :: rest => key :: (pattern.asked ++ Expr.entriesAsked rest)

end

/-! ### Binding captures -/

namespace Environment

variable {mode : Eval.BindMode} {e e' : Environment} {c : Capture}

/-- The bindings of every frame, the innermost first. -/
def scope (e : Environment) : List (Bindings Value) := e.frames.map (·.vars)

/-- Binds what a name takes. -/
def capture (mode : Eval.BindMode) (e : Environment) (c : Capture) : Except Fault Environment :=
  match if c.declared then .declare else mode with
  | .fresh => .ok (e.bind c.name c.value)
  | .assign => .ok (e.put c.name c.value)
  | .declare => e.define c.name c.value

/-- Binds captures in order, if all of them can be bound. -/
def captureAll (mode : Eval.BindMode) (cs : List Capture) (e : Environment) :
    Except Fault Environment :=
  cs.foldlM (capture mode) e

lemma captureAll_cons (cs : List Capture) :
    captureAll mode (c :: cs) e = (e.capture mode c).bind (captureAll mode cs) :=
  List.foldlM_cons

lemma captureAll_cons_eq_ok_iff {cs : List Capture} : captureAll mode (c :: cs) e = .ok e' ↔
    ∃ e₁, e.capture mode c = .ok e₁ ∧ captureAll mode cs e₁ = .ok e' := by
  rw [captureAll_cons]
  cases e.capture mode c <;> simp [Except.bind]

lemma captureAll_append (cs ds : List Capture) :
    captureAll mode (cs ++ ds) e = (captureAll mode cs e).bind (captureAll mode ds) :=
  List.foldlM_append

/-- A name cannot be bound exactly if it has to be new and is taken. -/
lemma capture_eq_error_iff {fault : Fault} : e.capture mode c = .error fault ↔
    (c.declared = true ∨ mode = .declare) ∧ e.top.vars.has c.name = true ∧
      fault = .alreadyInScope c.name := by
  have hdefine : e.define c.name c.value = .error fault ↔
      e.top.vars.has c.name = true ∧ fault = .alreadyInScope c.name := by
    rw [define]
    split <;> simp [*, eq_comm]
  cases hc : c.declared <;> cases mode <;> simp [capture, hc, hdefine]

/-! ### Values of names -/

lemma findIn?_cons (name : String) (f : Frame) (fs : List Frame) :
    findIn? name (f :: fs) = (f.vars.find? name).or (findIn? name fs) := by
  rw [findIn?]
  cases f.vars.find? name <;> rfl

lemma find?_bind (e : Environment) (name : String) (v : Value) :
    (e.bind name v).find? = Function.update e.find? name (some v) := by
  funext other
  simp only [find?, frames, findIn?_cons, bind]
  by_cases h : other = name
  · rw [h, Bindings.find?_put_self, Function.update_self, Option.some_or]
  · rw [Bindings.find?_put_of_ne h, Function.update_of_ne h, find?, frames, findIn?_cons]

/-- The frame that is changed is the one in which the name is found. -/
lemma findIn?_putIn? {name : String} {v : Value} {fs gs : List Frame}
    (h : putIn? name v fs = some gs) (other : String) :
    findIn? other gs = if other = name then some v else findIn? other fs := by
  induction fs generalizing gs with
  | nil => cases h
  | cons f rest ih =>
      rw [putIn?] at h
      by_cases hf : f.vars.has name = true
      · rw [if_pos hf] at h
        cases h
        by_cases ho : other = name
        · rw [findIn?_cons, ho, Bindings.find?_put_self, if_pos rfl, Option.some_or]
        · rw [findIn?_cons, Bindings.find?_put_of_ne ho, if_neg ho, findIn?_cons]
      · rw [if_neg hf] at h
        obtain ⟨gs', hgs, rfl⟩ := Option.map_eq_some_iff.mp h
        have hnone : f.vars.find? name = none := by
          rwa [Bindings.has, Option.isSome_iff_ne_none, not_not] at hf
        rw [findIn?_cons, ih hgs, findIn?_cons]
        by_cases ho : other = name
        · rw [if_pos ho, if_pos ho, ho, hnone, Option.none_or]
        · rw [if_neg ho, if_neg ho]

lemma find?_put (e : Environment) (name : String) (v : Value) :
    (e.put name v).find? = Function.update e.find? name (some v) := by
  rw [put]
  by_cases ht : e.top.vars.has name = true
  · rw [if_pos ht, find?_bind]
  · rw [if_neg ht]
    cases hp : putIn? name v e.below with
    | none => exact find?_bind e name v
    | some below =>
        have hnone : e.top.vars.find? name = none := by
          rwa [Bindings.has, Option.isSome_iff_ne_none, not_not] at ht
        funext other
        simp only [find?, frames, findIn?_cons, findIn?_putIn? hp]
        by_cases ho : other = name
        · rw [if_pos ho, ho, hnone, Option.none_or, Function.update_self]
        · rw [if_neg ho, Function.update_of_ne ho, find?, frames, findIn?_cons]

/-- Whichever way a name is bound, it has the value then. -/
lemma find?_capture (h : e.capture mode c = .ok e') :
    e'.find? = Function.update e.find? c.name (some c.value) := by
  rw [capture] at h
  split at h
  · cases h
    exact find?_bind e _ _
  · cases h
    exact find?_put e _ _
  · rw [define] at h
    split at h
    · cases h
    · cases h
      exact find?_bind e _ _

lemma find?_captureAll {cs : List Capture} (h : captureAll mode cs e = .ok e') :
    e'.find? = Lookup.after e.find? cs := by
  induction cs generalizing e with
  | nil =>
      cases h
      rfl
  | cons c cs ih =>
      obtain ⟨e₁, hc, hcs⟩ := captureAll_cons_eq_ok_iff.mp h
      rw [ih hcs, find?_capture hc]
      rfl

/-! ### Lines -/

/-- The line of a frame plays no part in what is bound. -/
lemma capture_mark (e : Environment) (line : Nat) (c : Capture) :
    (e.mark line).capture mode c = (e.capture mode c).map (·.mark line) := by
  have hvars : (e.mark line).top.vars = e.top.vars := rfl
  have hbelow : (e.mark line).below = e.below := rfl
  have hput : (e.mark line).put c.name c.value = (e.put c.name c.value).mark line := by
    rw [put, put, hvars, hbelow]
    by_cases h : e.top.vars.has c.name = true
    · rw [if_pos h, if_pos h]
      rfl
    · rw [if_neg h, if_neg h]
      cases putIn? c.name c.value e.below <;> rfl
  have hdefine : (e.mark line).define c.name c.value =
      (e.define c.name c.value).map (·.mark line) := by
    rw [define, define, hvars]
    by_cases h : e.top.vars.has c.name = true
    · rw [if_pos h, if_pos h]
      rfl
    · rw [if_neg h, if_neg h]
      rfl
  rw [capture, capture]
  split
  · rfl
  · rw [hput]
    rfl
  · exact hdefine

lemma captureAll_mark (e : Environment) (line : Nat) (cs : List Capture) :
    captureAll mode cs (e.mark line) = (captureAll mode cs e).map (·.mark line) := by
  induction cs generalizing e with
  | nil => rfl
  | cons c cs ih =>
      rw [captureAll_cons, captureAll_cons, capture_mark]
      cases e.capture mode c with
      | error fault => rfl
      | ok e₁ => exact ih e₁

end Environment

/-! ### Matching -/

namespace Eval

/-- Evaluating the expression on a heap only reads: it gives the value that is told, which may
depend on the values of names, or fails if none is told, and moves the innermost frame to a line
at most. -/
def Answers (run : Runner) (h : Heap) (ask : Lookup → Expr → Option Value) (e : Expr) : Prop :=
  ∀ s : Session, s.heap = h → ∃ line, match ask s.env.find? e with
    | some v => run (.expr e) s = .ok v (s.atLine line)
    | none => ∃ signal, run (.expr e) s = .error signal (s.atLine line)

/-- How a match ends whose captures are known. Without captures the pattern does not fit, which
may come out after some names were bound. -/
inductive Captured (mode : BindMode) (s : Session) :
    Option (List Capture) → EStateM.Result Signal Session Bool → Prop
  | all {cs : List Capture} {env : Environment} (line : Nat) :
      s.env.captureAll mode cs = .ok env →
      Captured mode s (some cs) (.ok true { s with env := env.mark line })
  | upTo {done rest : List Capture} {c : Capture} {env : Environment} {fault : Fault} (line : Nat) :
      s.env.captureAll mode done = .ok env → env.capture mode c = .error fault →
      Captured mode s (some (done ++ c :: rest))
        (.error (.fault fault []) { s with env := env.mark line })
  | misfit {done : List Capture} {env : Environment} (line : Nat) :
      s.env.captureAll mode done = .ok env →
      Captured mode s none (.ok false { s with env := env.mark line })
  | failure {done : List Capture} {env : Environment} (line : Nat) (signal : Signal) :
      s.env.captureAll mode done = .ok env →
      Captured mode s none (.error signal { s with env := env.mark line })

section Matching

variable {run : Runner} {h : Heap} {ask : Lookup → Expr → Option Value} {mode : BindMode}
  {s : Session}

/-- Whether a pattern fits is known without captures. -/
lemma captured_of_fits (fits : Bool) :
    Captured mode s (if fits then some [] else none) (.ok fits s) := by
  cases fits with
  | true => exact .all s.env.top.line rfl
  | false => exact @Captured.misfit mode s [] s.env s.env.top.line rfl

namespace Captured

/-- Captures that were bound before. -/
lemma prepend {cs : List Capture} {env : Environment} {line : Nat} {o : Option (List Capture)}
    {r : EStateM.Result Signal Session Bool} (hcs : s.env.captureAll mode cs = .ok env)
    (hr : Captured mode { s with env := env.mark line } o r) :
    Captured mode s (o.map (cs ++ ·)) r := by
  -- what is bound from the marked frame is bound from the frame itself, up to the mark
  have hthen : ∀ {ds : List Capture} {env' : Environment},
      (env.mark line).captureAll mode ds = .ok env' →
      ∃ env'', s.env.captureAll mode (cs ++ ds) = .ok env'' ∧ env' = env''.mark line := by
    intro ds env' hds
    rw [Environment.captureAll_mark] at hds
    cases hd : env.captureAll mode ds with
    | error fault =>
        rw [hd] at hds
        cases hds
    | ok env'' =>
        rw [hd] at hds
        cases hds
        exact ⟨env'', by rw [Environment.captureAll_append, hcs]; exact hd, rfl⟩
  cases hr with
  | all line' hds =>
      obtain ⟨env'', h, rfl⟩ := hthen hds
      exact @all mode s _ env'' line' h
  | @upTo done rest c env' fault line' hds hc =>
      obtain ⟨env'', h, rfl⟩ := hthen hds
      -- whether a name is taken does not depend on the line
      have htaken := Environment.capture_eq_error_iff.mp hc
      have hc' : env''.capture mode c = .error fault :=
        Environment.capture_eq_error_iff.mpr htaken
      rw [Option.map_some, ← List.append_assoc]
      exact @upTo mode s _ _ c env'' _ line' h hc'
  | misfit line' hds =>
      obtain ⟨env'', h, rfl⟩ := hthen hds
      exact @misfit mode s _ env'' line' h
  | failure line' signal hds =>
      obtain ⟨env'', h, rfl⟩ := hthen hds
      exact @failure mode s _ env'' line' signal h

/-- The line at which the innermost frame stands plays no part. -/
lemma of_atLine {line : Nat} {o : Option (List Capture)}
    {r : EStateM.Result Signal Session Bool} (hr : Captured mode (s.atLine line) o r) :
    Captured mode s o r := by
  have h := @prepend mode s [] s.env line o r rfl hr
  simpa using h

/-- A second pattern is matched if the first one fits, with the names of the first one bound. -/
lemma andThen {x y : Eval Bool} {o : Option (List Capture)}
    {next : List Capture → Option (List Capture)} (hx : Captured mode s o (x s))
    (hy : ∀ cs s', s'.heap = s.heap → s'.env.find? = Lookup.after s.env.find? cs →
      Captured mode s' (next cs) (y s')) :
    Captured mode s (o.bind fun cs => (next cs).map (cs ++ ·))
      ((x >>= fun fits => if fits = true then y else pure false) s) := by
  rw [bind_apply]
  cases hr : x s with
  | ok fits s₁ =>
      rw [hr] at hx
      cases hx with
      | all line hcs =>
          have hfind := Environment.find?_captureAll hcs
          exact prepend hcs (hy _ _ rfl hfind)
      | misfit line hdone => exact .misfit line hdone
  | error signal s₁ =>
      rw [hr] at hx
      cases hx with
      | @upTo done rest c env fault line hdone hc =>
          -- the second pattern is not reached, whatever it would capture
          cases hn : next (done ++ c :: rest) with
          | none =>
              simp only [Option.bind_some, hn, Option.map_none]
              exact .failure line _ hdone
          | some ds =>
              simp only [Option.bind_some, hn, Option.map_some, List.append_assoc, List.cons_append]
              exact .upTo line hdone hc
      | failure line signal hdone => exact .failure line signal hdone

/-- An expression that only reads is evaluated first. -/
lemma afterExpr {e : Expr} (he : Answers run s.heap ask e) {f : Value → Eval Bool}
    {o : Value → Option (List Capture)}
    (hf : ∀ v line, Captured mode (s.atLine line) (o v) (f v (s.atLine line))) :
    Captured mode s ((ask s.env.find? e).bind o) ((run (.expr e) >>= f) s) := by
  obtain ⟨line, hline⟩ := he s rfl
  rw [bind_apply]
  cases ha : ask s.env.find? e with
  | some v =>
      rw [ha] at hline
      rw [hline]
      exact of_atLine (hf v line)
  | none =>
      rw [ha] at hline
      obtain ⟨signal, hsignal⟩ := hline
      rw [hsignal]
      exact @failure mode s [] s.env line signal rfl

/-- The class that a pattern may ask for is found first. -/
lemma afterClass {e : Expr} (he : ∀ e' ∈ e.asked, Answers run s.heap ask e')
    {f : Option ClassRef → Eval Bool} {o : Option ClassRef → Option (List Capture)}
    (hf : ∀ c line, Captured mode (s.atLine line) (o c) (f c (s.atLine line))) :
    Captured mode s ((e.asksClass? ask s.env.find?).bind o) ((classPattern? run e >>= f) s) := by
  obtain ⟨site, form⟩ := e
  -- apart from a member, nothing is evaluated
  have hnow : ∀ c, classPattern? run (.node site form) s = .ok c s →
      Captured mode s (o c) ((classPattern? run (.node site form) >>= f) s) := by
    intro c hc
    rw [bind_apply, hc]
    exact hf c s.env.top.line
  cases form with
  | name name =>
      refine hnow _ ?_
      simp only [classPattern?, Expr.form, bind_apply, get_apply]
      cases hv : s.env.find? name with
      | none => rfl
      | some v => cases v <;> rfl
  | member object name safe =>
      have hx : (classPattern? run (.node site (.member object name safe)) >>= f) =
          run (.expr (.node site (.member object name safe))) >>= fun v => f v.class? := by
        simp only [classPattern?, Expr.form, bind_assoc]
        congr 1
        funext v
        cases v <;> rfl
      have hmember := he (.node site (.member object name safe)) (List.mem_singleton.mpr rfl)
      rw [hx, Expr.asksClass?, Expr.form, Option.bind_map]
      exact afterExpr hmember fun v line => hf v.class? line
  | _ => exact hnow none rfl

end Captured

/-- A name is bound, or nothing is changed. -/
lemma bindAs_apply (mode : BindMode) (c : Capture) (s : Session) :
    bindAs (if c.declared then .declare else mode) c.name c.value s =
      match s.env.capture mode c with
      | .ok env => .ok () { s with env }
      | .error fault => .error (.fault fault []) s := by
  rw [Environment.capture]
  cases (if c.declared then BindMode.declare else mode) with
  | fresh => rfl
  | assign => rfl
  | declare =>
      simp only [bindAs, assign, if_true, tryEnv, bind_apply, get_apply]
      cases s.env.define c.name c.value <;> rfl

lemma captured_bindAs (mode : BindMode) (c : Capture) (s : Session) :
    Captured mode s (some [c])
      ((bindAs (if c.declared then .declare else mode) c.name c.value >>= fun _ => pure true)
        s) := by
  rw [bind_apply, bindAs_apply]
  cases hc : s.env.capture mode c with
  | ok env =>
      refine .all env.top.line ?_
      rw [Environment.captureAll_cons, hc]
      rfl
  | error fault => exact @Captured.upTo mode s [] [] c s.env fault s.env.top.line rfl hc

mutual

/-- A match ends as the captures of the pattern say. -/
theorem captured_matchPattern (mode : BindMode) (p : Expr) (v : Value) {s : Session}
    (hs : s.heap = h) (hp : ∀ e ∈ p.asked, Answers run h ask e) :
    Captured mode s (p.captures? h ask v s.env.find?) (matchPattern run mode p v s) :=
  match p, hp with
  | .node site form, hp => captured_matchForm mode site form v hs hp

theorem captured_matchForm (mode : BindMode) (site : Site) (form : Form) (v : Value)
    {s : Session} (hs : s.heap = h) (hp : ∀ e ∈ form.asked site, Answers run h ask e) :
    Captured mode s (form.captures? h ask site v s.env.find?)
      (matchForm run mode site form v s) := by
  cases form with
  | name name =>
      simp only [matchForm, Form.captures?]
      by_cases hname : name = "_"
      · rw [if_pos hname, if_neg (not_not.mpr hname)]
        exact captured_of_fits true
      · rw [if_neg hname, if_pos hname]
        exact captured_bindAs mode ⟨site.annotations.contains Expr.newName, name, v⟩ s
  | constant c => exact captured_of_fits _
  | group inner => exact captured_matchPattern mode inner v hs hp
  | tuple patterns =>
      cases v with
      | tuple items =>
          simp only [matchForm, Form.captures?]
          by_cases hlength : patterns.length = items.length
          · rw [if_pos hlength, if_pos hlength]
            exact captured_matchItems mode patterns items hs hp
          · rw [if_neg hlength, if_neg hlength]
            exact captured_of_fits false
      | _ => exact captured_of_fits false
  | list patterns =>
      cases v with
      | list r =>
          simp only [matchForm, Form.captures?, bind_apply, heap_apply, hs]
          by_cases hlength : patterns.length = (h.items r).toList.length
          · rw [if_pos hlength, if_pos hlength]
            exact captured_matchItems mode patterns _ hs hp
          · rw [if_neg hlength, if_neg hlength]
            exact captured_of_fits false
      | _ => exact captured_of_fits false
  | map patterns =>
      cases v with
      | map r => exact captured_matchEntries mode r patterns hs hp
      | _ => exact captured_of_fits false
  | pair left right =>
      have hleft : ∀ e ∈ left.asked, Answers run h ask e := fun e he =>
        hp e (List.mem_append_left _ he)
      have hright : ∀ e ∈ right.asked, Answers run h ask e := fun e he =>
        hp e (List.mem_append_right _ he)
      refine Captured.afterClass (hs ▸ hright) fun c line => ?_
      have hs' : (s.atLine line).heap = h := hs
      cases c with
      | some c =>
          simp only [bind_apply, heap_apply, hs']
          by_cases hc : h.isInstance v c = true
          · rw [if_pos hc, if_pos hc]
            exact captured_matchPattern mode left v hs' hleft
          · rw [if_neg hc, if_neg hc]
            exact captured_of_fits false
      | none =>
          cases v with
          | tuple items =>
              obtain _ | ⟨v, _ | ⟨w, _ | ⟨_, _⟩⟩⟩ := items
              · exact captured_of_fits false
              · exact captured_of_fits false
              · refine Captured.andThen (captured_matchPattern mode left v hs' hleft)
                  fun cs s' hheap hfind => ?_
                rw [← show s'.env.find? = Lookup.after s.env.find? cs from hfind]
                exact captured_matchPattern mode right w (hheap.trans hs') hright
              · exact captured_of_fits false
          | _ => exact captured_of_fits false
  | _ =>
      refine Captured.afterExpr (hs ▸ hp _ (List.mem_singleton.mpr rfl)) fun w line => ?_
      have hs' : (s.atLine line).heap = h := hs
      simp only [bind_apply, heap_apply, hs']
      exact captured_of_fits _

theorem captured_matchItems (mode : BindMode) (ps : List Expr) (vs : List Value) {s : Session}
    (hs : s.heap = h) (hp : ∀ e ∈ Expr.itemsAsked ps, Answers run h ask e) :
    Captured mode s (Expr.itemCaptures? h ask ps vs s.env.find?) (matchItems run mode ps vs s) := by
  match ps, vs with
  | [], _ => exact captured_of_fits true
  | _ :: _, [] => exact captured_of_fits true
  | p :: ps, v :: vs =>
      refine Captured.andThen (captured_matchPattern mode p v hs fun e he =>
        hp e (List.mem_append_left _ he)) fun cs s' hheap hfind => ?_
      rw [← hfind]
      exact captured_matchItems mode ps vs (hheap.trans hs) fun e he =>
        hp e (List.mem_append_right _ he)

theorem captured_matchEntries (mode : BindMode) (r : MapRef) (patterns : List (Expr × Expr))
    {s : Session} (hs : s.heap = h) (hp : ∀ e ∈ Expr.entriesAsked patterns, Answers run h ask e) :
    Captured mode s (Expr.entryCaptures? h ask (h.entries r) patterns s.env.find?)
      (matchEntries run mode r patterns s) := by
  match patterns with
  | [] => exact captured_of_fits true
  | (key, pattern) :: rest =>
      have hpattern : ∀ e ∈ pattern.asked, Answers run h ask e := fun e he =>
        hp e (List.mem_cons_of_mem _ (List.mem_append_left _ he))
      have hrest : ∀ e ∈ Expr.entriesAsked rest, Answers run h ask e := fun e he =>
        hp e (List.mem_cons_of_mem _ (List.mem_append_right _ he))
      refine Captured.afterExpr (hs ▸ hp key List.mem_cons_self) fun k line => ?_
      have hs' : (s.atLine line).heap = h := hs
      rw [bind_apply, heap_apply]
      simp only [hs']
      cases hv : (h.entries r).find? k with
      | none => exact captured_of_fits false
      | some v =>
          refine Captured.andThen (captured_matchPattern mode pattern v hs' hpattern)
            fun cs s' hheap hfind => ?_
          rw [← show s'.env.find? = Lookup.after s.env.find? cs from hfind]
          exact captured_matchEntries mode r rest (hheap.trans hs') hrest

end

end Matching

end Eval

end Tern
