/-
The evaluator: expressions and calls, tied together. An evaluation is given three amounts: the
levels of tasks inside one another, the calls inside one another that get no frame, and the rounds
of each loop. A task that needs more ends in `Signal.outOfFuel`, which nothing in a program can
catch.
-/
import Tern.Eval.Form

namespace Tern

/-- Whether a task is a call that gets no frame. Of all that can be called only functions have a
frame of their own. -/
def Task.isFrameless : Task → Bool
  | .call (.function _) _ => false
  | .call _ _ => true
  | .expr _ => false

namespace Eval

/-- Carries out a task whose parts are left to a runner. -/
def step (rounds : Nat) (run : Runner) : Task → Eval Value
  | .expr e => evalExpr rounds run e
  | .call callee arguments => callValue run callee arguments

/-- Carries out a task with amounts of rounds, of calls without a frame, and of levels. -/
def perform (rounds : Nat) : (calls levels : Nat) → Runner
  | _, 0, _ => throw (.outOfFuel .levels)
  | calls, levels + 1, task =>
    if task.isFrameless then
      match calls with
      | 0 => throw (.outOfFuel .calls)
      | calls + 1 => step rounds (perform rounds calls levels) task
    else step rounds (perform rounds calls levels) task

/-- Without levels nothing is done. -/
@[simp]
theorem perform_zero (rounds calls : Nat) (task : Task) :
    perform rounds calls 0 task = throw (.outOfFuel .levels) := rfl

/-- A task with a frame, or without a call, takes one level. -/
theorem perform_succ {rounds calls levels : Nat} {task : Task} (h : task.isFrameless = false) :
    perform rounds calls (levels + 1) task = step rounds (perform rounds calls levels) task := by
  simp [perform, h]

/-- A call without a frame also takes one call. -/
theorem perform_frameless_succ {rounds calls levels : Nat} {task : Task}
    (h : task.isFrameless = true) :
    perform rounds (calls + 1) (levels + 1) task =
      step rounds (perform rounds calls levels) task := by
  simp [perform, h]

/-- Without calls nothing is called that gets no frame. -/
theorem perform_frameless_zero {rounds levels : Nat} {task : Task} (h : task.isFrameless = true) :
    perform rounds 0 (levels + 1) task = throw (.outOfFuel .calls) := by
  simp [perform, h]

/-- The amount of everything that sessions run with. -/
def fuel : Nat := 1000000000000000000

/-- Carries out a task. -/
def run : Runner := perform fuel fuel fuel

end Eval

end Tern
