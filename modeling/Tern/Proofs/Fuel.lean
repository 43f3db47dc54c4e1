/-
More rounds, more calls and more levels. An evaluation that did not lack what it is given more of
ends as before.

* `Eval.Short`: a result that lacks something.
* `Eval.Refines`: a computation that comes to the same as another, unless that one was short.
* `Logic.refining`: the logic in which this is shown.
* `Eval.refines_perform`, `Eval.refines_program`: more of everything refines every task and every
  program.
-/
import Tern.Proofs.Frames

namespace Tern

namespace Eval

variable {α β : Type}

/-- A result that lacks something. -/
def Short (lacking : Shortage) (result : EStateM.Result Signal Session α) : Prop :=
  ∃ s, result = .error (.outOfFuel lacking) s

/-- A failure that gets a trace lacks something only if it did. -/
lemma traced_eq_outOfFuel {env : Environment} {signal : Signal} {lacking : Shortage} :
    signal.traced env = .outOfFuel lacking ↔ signal = .outOfFuel lacking := by
  refine ⟨fun h => ?_, fun h => by rw [h]; rfl⟩
  unfold Signal.traced at h
  split at h
  · cases h
  · cases h
  · exact h

lemma short_error {lacking : Shortage} {signal : Signal} {s : Session} :
    Short (α := α) lacking (.error signal s) ↔ signal = .outOfFuel lacking :=
  ⟨fun ⟨_, h⟩ => (EStateM.Result.error.inj h).1, fun h => ⟨s, by rw [h]⟩⟩

lemma not_short_ok {lacking : Shortage} {a : α} {s : Session} : ¬ Short lacking (.ok a s) := by
  rintro ⟨s', h⟩
  cases h

lemma short_leaveFrame {lacking : Shortage} {result : EStateM.Result Signal Session α} :
    Short lacking (leaveFrame result) ↔ Short lacking result := by
  cases result with
  | ok a s => exact iff_of_false not_short_ok not_short_ok
  | error signal s => rw [leaveFrame, short_error, short_error, traced_eq_outOfFuel]

lemma short_leaveFile {lacking : Shortage} {previous : String}
    {result : EStateM.Result Signal Session α} :
    Short lacking (leaveFile previous result) ↔ Short lacking result := by
  cases result with
  | ok a s => exact iff_of_false not_short_ok not_short_ok
  | error signal s => rw [leaveFile, short_error, short_error, traced_eq_outOfFuel]

lemma short_leaveHandler {lacking : Shortage} {result : EStateM.Result Signal Session α} :
    Short lacking (leaveHandler result) ↔ Short lacking result := by
  cases result with
  | ok a s => exact iff_of_false not_short_ok not_short_ok
  | error signal s => rw [leaveHandler, short_error, short_error]

/-- The second computation comes to the same as the first, unless that lacked something that the
second was given more of. -/
def Refines (grown : Shortage → Prop) (x y : Eval α) (s : Session) : Prop :=
  (∃ lacking, grown lacking ∧ Short lacking (x s)) ∨ y s = x s

namespace Refines

variable {grown : Shortage → Prop} {x y : Eval α} {s : Session}

lemma refl (x : Eval α) (s : Session) : Refines grown x x s := .inr rfl

lemma bind {f g : α → Eval β} (h : Refines grown x y s)
    (hf : ∀ a s', x s = .ok a s' → Refines grown (f a) (g a) s') :
    Refines grown (x >>= f) (y >>= g) s := by
  rw [Refines, bind_apply, bind_apply]
  obtain ⟨lacking, hg, s', hx⟩ | hxy := h
  · exact .inl ⟨lacking, hg, s', by rw [hx]⟩
  · rw [hxy]
    cases hx : x s with
    | ok a s' => exact hf a s' hx
    | error signal s' => exact .inr rfl

lemma recover {f g : Signal → Eval α} (h : Refines grown x y s)
    (hshort : ∀ lacking, f (.outOfFuel lacking) = throw (.outOfFuel lacking))
    (hf : ∀ signal s', Refines grown (f signal) (g signal) s') :
    Refines grown (Eval.recover x f) (Eval.recover y g) s := by
  simp only [Refines, Eval.recover]
  obtain ⟨lacking, hg, s', hx⟩ | hxy := h
  · refine .inl ⟨lacking, hg, s', ?_⟩
    rw [hx]
    simp only [hshort]
    rfl
  · rw [hxy]
    cases x s with
    | ok a s' => exact .inr rfl
    | error signal s' => exact hf signal s'

/-- A construct that passes on what its body is short of, and else depends on its result alone. -/
lemma lift {c : EStateM.Result Signal Session α → EStateM.Result Signal Session β} {s' : Session}
    {x' y' : Eval β} (hx : x' s = c (x s')) (hy : y' s = c (y s'))
    (hc : ∀ {lacking result}, Short lacking result → Short lacking (c result))
    (h : Refines grown x y s') : Refines grown x' y' s := by
  rw [Refines, hx, hy]
  obtain ⟨lacking, hg, h⟩ | h := h
  · exact .inl ⟨lacking, hg, hc h⟩
  · exact .inr (by rw [h])

lemma inFrame {name file : String} {line : Nat}
    (h : s.env.depth < s.maxDepth → Refines grown x y { s with env := s.env.push name file line }) :
    Refines grown (Eval.inFrame name file line x) (Eval.inFrame name file line y) s := by
  by_cases hd : s.env.depth < s.maxDepth
  · exact lift (inFrame_apply name file line x hd) (inFrame_apply name file line y hd)
      short_leaveFrame.mpr (h hd)
  · have hfull := Nat.le_of_not_lt hd
    exact .inr (by rw [inFrame_full name file line x hfull, inFrame_full name file line y hfull])

lemma inFile {file : String} (h : Refines grown x y { s with env := s.env.setFile file }) :
    Refines grown (Eval.inFile file x) (Eval.inFile file y) s :=
  lift (inFile_apply file x s) (inFile_apply file y s) short_leaveFile.mpr h

lemma handling {trace : Trace}
    (h : Refines grown x y { s with env := s.env.pushSnapshot trace }) :
    Refines grown (Eval.handling trace x) (Eval.handling trace y) s :=
  lift (handling_apply trace x s) (handling_apply trace y s) short_leaveHandler.mpr h

end Refines

end Eval

/-- Families of two computations, the second of which refines the first. -/
def Logic.refining (grown : Shortage → Prop) : Logic Bool where
  Holds x s := Eval.Refines grown (x false) (x true) s
  Later _ _ := True
  Allows _ _ := True
  Enters _ := True
  later_refl _ := trivial
  later_trans _ _ := trivial
  allows_thrown _ _ := trivial
  allows_leave _ _ := trivial
  allows_fatal _ _ := trivial
  beside _ := .refl _ _
  raise _ := .refl _ _
  bind hx hf := .bind hx fun a s' h => hf a s' ⟨false, h⟩ trivial
  recover hx hshort hh := .recover hx (hshort false) fun signal s' => hh signal s' trivial trivial
  mark _ _ := .refl _ _
  bindName _ _ _ := .refl _ _
  assign _ _ _ _ := .refl _ _
  inFrame := .inFrame
  inFile _ := .inFile
  handling := .handling
  importing _ _ := .refl _ _

lemma Logic.carries_refining (grown : Shortage → Prop) : (Logic.refining grown).Carries :=
  ⟨fun _ _ => trivial, fun _ _ => trivial⟩

namespace Eval

variable {grown : Shortage → Prop} {more further deeper : Nat}

/-- More rounds of a loop refine it. -/
lemma refines_loopWhile {run run' : Runner} (hr : more = 0 ∨ grown .rounds)
    (h : ∀ task s, Refines grown (run task) (run' task) s) (condition body : Expr) (rounds : Nat)
    (v : Value) (s : Session) :
    Refines grown (loopWhile run condition body rounds v)
      (loopWhile run' condition body (more + rounds) v) s := by
  have hs : (Logic.refining grown).Open (fun i => cond i run' run) s := fun task s' _ _ => h task s'
  have hl : Refines grown (loopWhile run condition body (0 + rounds) v)
      (loopWhile run' condition body (more + rounds) v) s := by
    refine Logic.loopWhile (fun i => cond i more 0) condition body rounds v hs trivial trivial
      fun {s'} w _ => ?_
    obtain rfl | hg := hr
    · exact .inr rfl
    · exact .inl ⟨.rounds, hg, s', rfl⟩
  rwa [Nat.zero_add] at hl

/-- More rounds, calls and levels refine every task. -/
theorem refines_perform (grown : Shortage → Prop) (rounds calls levels : Nat)
    (hr : more = 0 ∨ grown .rounds) (hc : further = 0 ∨ grown .calls)
    (hl : deeper = 0 ∨ grown .levels) (task : Task) (s : Session) :
    Refines grown (perform rounds calls levels task)
      (perform (more + rounds) (further + calls) (deeper + levels) task) s := by
  induction levels generalizing calls task s with
  | zero =>
      obtain rfl | hg := hl
      · exact .inr rfl
      · exact .inl ⟨.levels, hg, s, rfl⟩
  | succ levels ih =>
      have hstep : ∀ calls, Refines grown (step rounds (perform rounds calls levels) task)
          (step (more + rounds) (perform (more + rounds) (further + calls) (deeper + levels)) task)
          s := by
        intro calls
        have hall : ∀ task s, (Logic.refining grown).Holds (fun i => (cond i
            (perform (more + rounds) (further + calls) (deeper + levels))
            (perform rounds calls levels) : Runner) task) s := fun task s => ih calls task s
        have hs : (Logic.refining grown).Serves (fun i => cond i
            (perform (more + rounds) (further + calls) (deeper + levels))
            (perform rounds calls levels)) task.Part s := Logic.serves_of_forall hall
        exact Logic.step (fun i => cond i (more + rounds) rounds) task hs
          (fun _ task s _ _ => hall task s)
          (fun _ c b _ _ => refines_loopWhile hr (ih calls) c b rounds .null _)
          (Logic.attempt_of_task (Logic.carries_refining grown) hs) fun _ _ _ _ => trivial
      rw [← Nat.add_assoc]
      cases hf : task.isFrameless with
      | false =>
          rw [perform_succ hf, perform_succ hf]
          exact hstep calls
      | true =>
          cases calls with
          | zero =>
              rw [perform_frameless_zero hf]
              obtain rfl | hg := hc
              · rw [perform_frameless_zero hf]
                exact .refl _ s
              · exact .inl ⟨.calls, hg, s, rfl⟩
          | succ calls =>
              rw [← Nat.add_assoc, perform_frameless_succ hf, perform_frameless_succ hf]
              exact hstep calls

/-- More rounds, calls and levels refine every program. -/
theorem refines_program (grown : Shortage → Prop) (rounds calls levels : Nat)
    (hr : more = 0 ∨ grown .rounds) (hc : further = 0 ∨ grown .calls)
    (hl : deeper = 0 ∨ grown .levels) (body : List Expr) (s : Session) :
    Refines grown (program (perform rounds calls levels) body)
      (program (perform (more + rounds) (further + calls) (deeper + levels)) body) s := by
  have hs : (Logic.refining grown).Open (fun i => cond i
      (perform (more + rounds) (further + calls) (deeper + levels))
      (perform rounds calls levels)) s :=
    fun task s' _ _ => refines_perform grown rounds calls levels hr hc hl task s'
  exact Logic.program body hs fun _ _ => trivial

end Eval

end Tern
