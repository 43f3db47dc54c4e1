/-
Moments outside foreign calls. Which moments come in an evaluation is told by halting it there. Here
calls of a kind count as foreign: they are carried out, but what comes inside them is not looked at.

* `Eval.performOutside`: a runner that is halted at certain moments, but not inside foreign calls.
* `Eval.ComesOutside`: which moments come.
* `Eval.refines_performOutside`: an evaluation that stops at fewer moments comes to the same.
* `Eval.not_comesOutside`: where an evaluation comes to an end though it stops at certain moments,
  none of these comes.
-/
import Tern.Proofs.Moments

namespace Tern

namespace Eval

variable {α : Type}

/-- Carries out a task as `performUntil` does, but foreign calls without a halt inside them. -/
def performOutside (foreign : Moment → Bool) (halts : Moment → Option Shortage) (rounds : Nat) :
    (calls levels : Nat) → Runner
  | _, 0, _ => throw (.outOfFuel .levels)
  | calls, levels + 1, task => fun s =>
    match halts ⟨task, s⟩ with
    | some lacking => .error (.outOfFuel lacking) s
    | none =>
      if foreign ⟨task, s⟩ then perform rounds calls (levels + 1) task s
      else
        descend rounds (fun calls => performOutside foreign halts rounds calls levels) calls task s

/-- A moment comes while something is carried out, and not inside a foreign call. -/
def ComesOutside (foreign : Moment → Bool) (rounds calls levels : Nat) (x : Runner → Eval α)
    (s : Session) (m : Moment) : Prop :=
  ∃ lacking, x (performOutside foreign (haltAt m lacking) rounds calls levels) s ≠
    x (perform rounds calls levels) s

/-- Without a moment to halt at, the task is carried out. -/
lemma performOutside_none (foreign : Moment → Bool) (rounds calls levels : Nat) :
    performOutside foreign (fun _ => none) rounds calls levels = perform rounds calls levels := by
  induction levels generalizing calls with
  | zero => rfl
  | succ levels ih =>
      funext task s
      simp only [performOutside, ih, perform_eq_descend, ite_self]

/-- A result that lacks nothing. -/
def Ended (result : EStateM.Result Signal Session α) : Prop := ∀ lacking, ¬ Short lacking result

section

variable {foreign : Moment → Bool} {rounds calls levels : Nat} {task : Task} {s : Session}

/-- A task is halted at its own moment. -/
lemma short_performOutside : Short .levels
    (performOutside foreign (haltAt? (some ⟨task, s⟩)) rounds calls (levels + 1) task s) :=
  ⟨s, by simp only [performOutside, haltAt?, Option.elim_some, haltAt, if_true]⟩

/-- At any other moment it is not. -/
lemma performOutside_of_ne {i : Option Moment} (hi : i ≠ some ⟨task, s⟩) :
    performOutside foreign (haltAt? i) rounds calls (levels + 1) task s =
      if foreign ⟨task, s⟩ then perform rounds calls (levels + 1) task s
      else
        descend rounds (fun calls => performOutside foreign (haltAt? i) rounds calls levels) calls
          task s := by
  simp only [performOutside, haltAt?_of_ne hi]

end

/-! ### Moments that do not come -/

section

variable {foreign : Moment → Bool} {stops halts : Moment → Option Shortage}

/-- An evaluation that stops at fewer moments comes to the same, unless it was stopped before. -/
theorem refines_performOutside (h : ∀ m, stops m = none → halts m = none)
    (rounds calls levels : Nat) (task : Task) (s : Session) :
    Refines (fun _ => True) (performOutside foreign stops rounds calls levels task)
      (performOutside foreign halts rounds calls levels task) s := by
  induction levels generalizing calls task s with
  | zero => exact .refl _ s
  | succ levels ih =>
      have hstep : ∀ calls, Refines (fun _ => True)
          (step rounds (performOutside foreign stops rounds calls levels) task)
          (step rounds (performOutside foreign halts rounds calls levels) task) s := by
        intro calls
        have hall : ∀ task s, (Logic.refining fun _ => True).Holds (fun i => (cond i
            (performOutside foreign halts rounds calls levels)
            (performOutside foreign stops rounds calls levels) : Runner) task) s :=
          fun task s => ih calls task s
        have hloop : ∀ c b s, Refines (fun _ => True)
            (loopWhile (performOutside foreign stops rounds calls levels) c b rounds .null)
            (loopWhile (performOutside foreign halts rounds calls levels) c b rounds .null) s := by
          intro c b s
          have hl := refines_loopWhile (show 0 = 0 ∨ True from .inl rfl) (ih calls) c b rounds
            .null s
          rwa [Nat.zero_add] at hl
        have hs := Logic.serves_of_forall (P := task.Part) (s := s) hall
        exact Logic.step (fun _ => rounds) task hs (fun _ task s _ _ => hall task s)
          (fun _ c b _ _ => hloop c b _) (Logic.attempt_of_task (Logic.carries_refining _) hs)
          fun _ _ _ _ => trivial
      simp only [Refines, performOutside]
      cases hstops : stops ⟨task, s⟩ with
      | some lacking => exact .inl ⟨lacking, trivial, s, rfl⟩
      | none =>
          simp only [h _ hstops]
          split
          · exact .inr rfl
          · unfold descend
            split
            · cases calls with
              | zero => exact .inr rfl
              | succ calls => exact hstep calls
            · exact hstep calls

section

variable {rounds calls levels : Nat} {task : Task} {s : Session}
  (hend : Ended (performOutside foreign stops rounds calls levels task s))

include hend

/-- An evaluation that comes to an end though it stops at certain moments. -/
lemma performOutside_eq_of_ended (h : ∀ m, stops m = none → halts m = none) :
    performOutside foreign halts rounds calls levels task s =
      performOutside foreign stops rounds calls levels task s := by
  obtain ⟨lacking, -, hs⟩ | heq := refines_performOutside h rounds calls levels task s
  · exact absurd hs (hend lacking)
  · exact heq

lemma perform_eq_of_ended : perform rounds calls levels task s =
    performOutside foreign stops rounds calls levels task s := by
  have hfree := @performOutside_eq_of_ended foreign stops (fun _ => none) _ _ _ _ _ hend
    fun _ _ => rfl
  rwa [performOutside_none] at hfree

/-- None of the moments at which it stops comes. -/
lemma not_comesOutside {m : Moment} (hm : stops m ≠ none) :
    ¬ ComesOutside foreign rounds calls levels (fun run => run task) s m := by
  rintro ⟨lacking, hne⟩
  have hhalted := @performOutside_eq_of_ended foreign stops (haltAt m lacking) _ _ _ _ _ hend
    fun q hq => if_neg fun (h : q = m) => hm (h ▸ hq)
  exact hne (hhalted.trans (perform_eq_of_ended hend).symm)

end

end

end Eval

end Tern
