/-
What the limit of frames does for programs. Of the calls that get no frame, few ask for more: the
evaluation of a text, the functions that call a function back, and the construction of an object,
which calls `init`. Where none of the first two is called, and `init` never is a class itself, every
recursion puts on frames. So a program that runs no loop comes to an end.

* `Moment.Reenters`: the calls from which calls without a frame may go on.
* `Task.need`: how many calls without a frame a task may take inside one another, for the frames
  that are left.
* `Eval.enough_performUntil`: as many are enough, unless such a call comes.
* `Eval.existsUnique_endsIn_of_not_reenters`: a program without such calls comes to one end.
-/
import Tern.Proofs.Recursion
import Tern.Proofs.Watching

namespace Tern

/-! ### Calls that ask for more -/

/-- The native function that a call runs, whether it is called itself or by a synthetic class. -/
def Moment.native? (m : Moment) : Option Native :=
  match m.task with
  | .call (.native r) _ | .call (.bound r _) _ => m.session.heap.native? r
  | .call (.classOf r) _ => do
    let c ← m.session.heap.class? r
    if c.synthetic then c.init.bind m.session.heap.native? else none
  | _ => none

/-- A call that gets no frame, and from which such calls may go on. -/
inductive Moment.Reenters (m : Moment) : Prop where
  /-- An operation of the library runs a text or calls a function. -/
  | operation {callee : Value} {arguments : List Value} {f : Native} {operation : Primitive} :
      m.task = .call callee arguments → m.native? = some f →
      f.select? arguments.length = some operation → operation.callsBack = true → Reenters m
  /-- A class makes an object that has a class for `init`. -/
  | construction {r init : ClassRef} {arguments : List Value} {object : Value} {s s' : Session}
      {calls levels : Nat} :
      m.task = .call (.classOf r) arguments →
      Eval.construct (Eval.perform 0 calls levels) r m.session = .ok object s →
      Eval.findMember? object "init" s = .ok (some (.classOf init)) s' → Reenters m

/-- How many calls without a frame a task may take inside one another, where there is room for a
number of frames. A function needs less, since it takes a frame; most other calls ask for
nothing. -/
def Task.need (room : Nat) : Task → Nat
  | .expr _ => room + 2
  | .call (.function _) _ => room + 1
  | .call (.classOf _) _ => room + 2
  | .call _ _ => 1

lemma Task.need_le (room : Nat) (task : Task) : task.need room ≤ room + 2 := by
  unfold need
  split <;> omega

lemma Task.one_le_need {room : Nat} {task : Task} : 1 ≤ task.need room := by
  unfold need
  split <;> omega

lemma Task.need_call_le (room : Nat) {callee : Value} (h : ∀ r, callee ≠ .classOf r)
    (arguments : List Value) : (Task.call callee arguments).need room ≤ room + 1 := by
  cases callee with
  | classOf r => exact absurd rfl (h r)
  | _ => simp [need]

/-- Of all calls only those of functions get a frame. -/
lemma Task.isFrameless_call {callee : Value} (h : ∀ r, callee ≠ .function r)
    (arguments : List Value) : (Task.call callee arguments).isFrameless = true := by
  cases callee with
  | function r => exact absurd rfl (h r)
  | _ => rfl

/-- There is room for no more than a number of frames. -/
def Session.HasRoom (room : Nat) (s : Session) : Prop := s.maxDepth ≤ s.env.depth + room

namespace Session.HasRoom

variable {room : Nat} {s s' : Session}

lemma follows (h : s.HasRoom room) (hf : s.Follows s') : s'.HasRoom room := by
  rw [HasRoom, hf.maxDepth, hf.depth_eq]
  exact h

lemma push (h : s.HasRoom room) (hd : s.env.depth < s.maxDepth) (name file : String) (line : Nat) :
    ∃ room', room = room' + 1 ∧ HasRoom room' { s with env := s.env.push name file line } := by
  unfold HasRoom at h ⊢
  refine ⟨room - 1, by omega, ?_⟩
  rw [Environment.depth_push]
  change s.maxDepth ≤ _
  omega

end Session.HasRoom

/-! ### Calls enough -/

/-- All signals but a lack of calls. -/
def Watch.enough : Watch where
  Allows signal _ := signal ≠ .outOfFuel .calls
  Enters _ := True
  fault _ _ := Signal.noConfusion
  thrown _ _ := Signal.noConfusion
  leave _ _ := Signal.noConfusion
  fatal _ _ := Signal.noConfusion
  frame h hs := h (Eval.traced_eq_outOfFuel.mp hs)
  file _ _ h hs := h (Eval.traced_eq_outOfFuel.mp hs)
  handler h := h

/-- Evaluations that have calls enough, unless a call comes that asks for more. -/
abbrev Logic.sufficing : Logic (Option Moment) := Logic.watching Watch.enough Moment.Reenters

lemma Logic.carries_sufficing : Logic.sufficing.Carries :=
  ⟨fun h _ => h, fun _ _ => Signal.noConfusion⟩

namespace Eval

/-- A lack of anything else. -/
lemma enough_outOfFuel {α : Type} {lacking : Shortage} (h : lacking ≠ .calls) (s : Session) :
    Logic.sufficing.Holds (fun _ => (throw (.outOfFuel lacking) : Eval α)) s :=
  .error (.refl s) fun hs => h (Signal.outOfFuel.inj hs)

section

variable {run : Option Moment → Runner} {room : Nat} {s : Session}

/-- What can be relied on wherever there is some room serves all tasks. -/
lemma serves_of_room {P : Task → Prop} (hs : s.HasRoom room)
    (hrun : ∀ task s, s.HasRoom room → Logic.sufficing.Holds (fun i => run i task) s) :
    Logic.sufficing.Serves run P s where
  task _ _ _ hl := hrun _ _ (hs.follows hl)
  frame s₁ name file line hl hd task s₂ _ hl₂ := by
    obtain ⟨room', rfl, hp⟩ := (hs.follows hl).push hd name file line
    exact hrun _ _ (Nat.le_succ_of_le (hp.follows hl₂))
  handler {s₁} trace hl s₂ name file line hl₂ hd task s₃ _ hl₃ := by
    have hs₁ : s₁.HasRoom room := hs.follows hl
    have hs₂ : Session.HasRoom room { s₁ with env := s₁.env.pushSnapshot trace } := hs₁
    obtain ⟨room', rfl, hp⟩ := (hs₂.follows hl₂).push hd name file line
    exact hrun _ _ (Nat.le_succ_of_le (hp.follows hl₃))
  module {s₁ relative} hl _ _ task s₂ _ hl₂ := by
    have hs₁ : s₁.HasRoom room := hs.follows hl
    have hs₂ : Session.HasRoom room { s₁ with
      imported := relative :: s₁.imported, env := s₁.env.setFile relative } := hs₁
    exact hrun _ _ (hs₂.follows hl₂)
  native hl _ _ task s₂ _ hl₂ := hrun _ _ (hs.follows (hl.trans hl₂))

/-- An expression is evaluated from its parts. -/
lemma enough_expr (e : Expr) (hs : s.HasRoom room)
    (hrun : ∀ task s, s.HasRoom room → Logic.sufficing.Holds (fun i => run i task) s) :
    Logic.sufficing.Holds (fun i => step 0 (run i) (.expr e)) s := by
  have hserves : Logic.sufficing.Serves run (Task.expr e).Part s := serves_of_room hs hrun
  exact Logic.step (fun _ => 0) (.expr e) hserves (fun h => nomatch h)
    (fun _ _ _ _ _ => enough_outOfFuel (by decide) _)
    (Logic.attempt_of_task Logic.carries_sufficing hserves) fun _ _ _ _ => trivial

/-- What can be relied on where there is room for a frame less can be relied on in a frame. -/
lemma framed_of_room (hs : s.HasRoom room) (hrun : ∀ room' task s, room = room' + 1 →
    s.HasRoom room' → Logic.sufficing.Holds (fun i => run i task) s) :
    Logic.sufficing.Framed run s := by
  intro s₁ name file line hl hd task s₂ _ hl₂
  obtain ⟨room', hroom, hp⟩ := (hs.follows hl).push hd name file line
  exact hrun room' task s₂ hroom (hp.follows hl₂)

/-- A native function that neither runs a text nor calls a function asks for nothing. -/
lemma enough_native {f : Native} {callee : Value} {arguments : List Value}
    (hm : ¬ Moment.Reenters ⟨.call callee arguments, s⟩)
    (hf : Moment.native? ⟨.call callee arguments, s⟩ = some f) (receiver : Option Value) :
    Logic.sufficing.Holds (fun i => callNative (run i) f receiver arguments) s :=
  Logic.callNative f receiver arguments fun _ hop hback =>
    absurd (.operation rfl hf hop hback) hm

/-- A class makes an object in frames, and then calls `init`, which is no class. -/
lemma enough_instantiate {r : ClassRef} {arguments : List Value}
    (hm : ¬ Moment.Reenters ⟨.call (.classOf r) arguments, s⟩) (hs : s.HasRoom room)
    (hframe : Logic.sufficing.Framed run s)
    (hnone : ∃ calls levels, run none = perform 0 calls levels)
    (hinit : ∀ init s, (∀ q, init ≠ .classOf q) → s.HasRoom room →
      Logic.sufficing.Holds (fun i => run i (.call init arguments)) s) :
    Logic.sufficing.Holds (fun i => instantiate (run i) r arguments) s := by
  refine Logic.bindLocal .heap fun h s₁ hh _ => ?_
  cases hh
  cases hc : s.heap.class? r with
  | none => exact Logic.fail Logic.sufficing _ s
  | some c =>
      cases hsyn : c.synthetic with
      | true =>
          simp only [hsyn, if_true]
          cases hn : c.init.bind s.heap.native? with
          | none => exact Logic.fail Logic.sufficing _ s
          | some f => exact enough_native hm (by simp [Moment.native?, hc, hsyn, hn]) none
      | false =>
          simp only [hsyn, Bool.false_eq_true, if_false]
          refine Logic.bindWatched (Logic.construct r hframe) fun object s₂ hobject hl₂ => ?_
          refine Logic.bindLocal (L := Logic.sufficing) (.findMember? object "init")
            fun found s₃ hfound hl₃ => ?_
          cases found with
          | none =>
              dsimp only
              split
              · exact Logic.pure Logic.sufficing object s₃
              · exact Logic.fail Logic.sufficing _ s₃
          | some init =>
              obtain ⟨calls, levels, hnone⟩ := hnone
              have hclass : ∀ q, init ≠ .classOf q := by
                rintro q rfl
                exact hm (.construction rfl (hnone ▸ hobject) hfound)
              exact Logic.sufficing.bind (hinit init s₃ hclass (hs.follows (hl₂.trans hl₃)))
                fun _ s₄ _ _ => Logic.pure Logic.sufficing object s₄

/-- A function is called in a frame. -/
lemma enough_function {r : FunctionRef} {arguments : List Value}
    (hframe : Logic.sufficing.Framed run s) :
    Logic.sufficing.Holds (fun i => callValue (run i) (.function r) arguments) s := by
  refine Logic.bindLocal .heap fun h s₁ hh _ => ?_
  cases hh
  dsimp only
  split
  · exact Logic.callFunction _ arguments hframe
  · exact Logic.fail Logic.sufficing _ s

/-- A call that gets no frame. -/
lemma enough_frameless {callee : Value} {arguments : List Value}
    (hm : ¬ Moment.Reenters ⟨.call callee arguments, s⟩)
    (hcallee : ∀ r, callee ≠ .function r)
    (hclass : ∀ r, callee = .classOf r →
      Logic.sufficing.Holds (fun i => instantiate (run i) r arguments) s) :
    Logic.sufficing.Holds (fun i => callValue (run i) callee arguments) s := by
  refine Logic.bindLocal .heap fun h s₁ hh _ => ?_
  cases hh
  cases callee with
  | function r => exact absurd rfl (hcallee r)
  | native r =>
      dsimp only
      split
      · rename_i f hf
        exact enough_native hm hf none
      · exact Logic.fail Logic.sufficing _ s
  | bound r receiver =>
      dsimp only
      split
      · rename_i f hf
        exact enough_native hm hf (some receiver)
      · exact Logic.fail Logic.sufficing _ s
  | classOf r => exact hclass r rfl
  | null | bool | number | text | tuple | list | map | object =>
      exact Logic.fail Logic.sufficing _ s

end

/-- As many calls without a frame as a task may need are enough for it, unless a call comes that
asks for more. -/
theorem enough_performUntil (calls levels room : Nat) (task : Task) (s : Session)
    (hs : s.HasRoom room) (hneed : task.need room ≤ calls) :
    Logic.sufficing.Holds (fun i => performUntil (haltAt? i) 0 calls levels task) s := by
  induction levels generalizing calls room task s with
  | zero => exact enough_outOfFuel (by decide) s
  | succ levels ih =>
      refine Watched.of_descend fun hm => ?_
      cases task with
      | expr e =>
          refine enough_expr e hs fun task u hu => ih calls room task u hu ?_
          exact (task.need_le room).trans hneed
      | call callee arguments =>
          by_cases hcallee : ∃ r, callee = .function r
          · obtain ⟨r, rfl⟩ := hcallee
            change Logic.sufficing.Holds (fun i =>
              callValue (performUntil (haltAt? i) 0 calls levels) (.function r) arguments) s
            refine enough_function (framed_of_room hs fun room' task u hroom hu => ?_)
            subst hroom
            exact ih calls room' task u hu ((task.need_le room').trans hneed)
          · have hcallee : ∀ r, callee ≠ .function r := fun r h => hcallee ⟨r, h⟩
            obtain ⟨left, rfl⟩ := Nat.exists_eq_add_of_le' (Task.one_le_need.trans hneed)
            simp only [descend, Task.isFrameless_call hcallee, if_true]
            change Logic.sufficing.Holds (fun i =>
              callValue (performUntil (haltAt? i) 0 left levels) callee arguments) s
            refine enough_frameless hm hcallee fun r hr => ?_
            subst hr
            have hleft : room + 1 ≤ left := Nat.le_of_succ_le_succ hneed
            refine enough_instantiate hm hs (framed_of_room hs fun room' task u hroom hu => ?_)
              ⟨left, levels, performUntil_haltAt?_none 0 left levels⟩ fun init u hinit hu => ?_
            · subst hroom
              exact ih left room' task u hu ((task.need_le room').trans hleft)
            · exact ih left room _ u hu ((Task.need_call_le room hinit arguments).trans hleft)

/-- **Recursion that puts on frames meets their limit.** A program comes to one end if it runs no
loop, evaluates no text, calls no function of the library that calls back, and makes no object that
has a class for `init`. -/
theorem existsUnique_endsIn_of_not_reenters (body : List Expr) (s : Session) (hl : s.HasLibrary)
    (hm : s.FiniteModules)
    (hloop : ∀ calls levels, ¬ Short .rounds (program (perform 0 calls levels) body s))
    (hcalls : ∀ calls levels m, Comes 0 calls levels (fun run => program run body) s m →
      ¬ m.Reenters) : ∃! result, EndsIn body s result := by
  refine existsUnique_endsIn hl hm (hloop (s.maxDepth + 2)) fun levels hs => ?_
  have hroom : s.HasRoom s.maxDepth := Nat.le_add_left _ _
  have hopen : Logic.sufficing.Open
      (fun i => performUntil (haltAt? i) 0 (s.maxDepth + 2) levels) s := fun task u _ hf =>
    enough_performUntil _ levels s.maxDepth task u (hroom.follows hf) (task.need_le _)
  have hwatched := Logic.program body hopen fun _ _ => trivial
  obtain ⟨u, hu⟩ := hs
  obtain ha | ⟨m, hm, hcomes⟩ := hwatched.allows_or_comes (x := fun run => program run body) hu
    (fun h => by cases h)
  · exact ha rfl
  · exact hcalls _ _ m hcomes hm

end Eval

end Tern
