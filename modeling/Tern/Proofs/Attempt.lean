/-
What `try body catch { clauses }` means. The rules say which clause decides, on which exception,
and with which trace; the evaluator follows exactly these rules.

* `Attempt.Raised`: the exception that the clauses are given for a failure.
* `Attempt.Passes`: clauses that were tried in order and did not fit.
* `Attempt.Decides`: how a clause that fits, or whose pattern fails, ends.
* `Attempt.Ends`: how the whole ends.
* `Attempt.Asks`: the places in a computation from which an exception gets out.
* `Attempt.Carried`: an exception on its way out through any number of attempts, and through blocks,
  calls and whatever else is around them.
* `Attempt.perform_attempt_iff_ends`: the evaluator and the rules agree.
-/
import Tern.Proofs.Exception

namespace Tern.Attempt

open Eval

/-! ### The rules -/

/-- The exception that is handled for a failure that left a session, and the session in which it
is. A value that was raised is that very value; any other failure gives a new exception. -/
inductive Raised (s : Session) : Signal → Value → Session → Prop where
  | thrown (v : Value) (trace : Trace) : Raised s (.thrown v trace) v s
  | fault (cause : Fault) (trace : Trace) :
      Raised s (.fault cause trace)
        (.object (s.heap.addException cause.kind (.text cause.message)).1)
        { s with heap := (s.heap.addException cause.kind (.text cause.message)).2 }

/-- The session in which a clause is tried. -/
def inClause (s : Session) (pattern : Expr) : Session :=
  { s with env := s.env.push "<catch>" pattern.source pattern.line }

/-- The session that a clause leaves. -/
def leaveClause (s : Session) : Session := { s with env := s.env.pop }

/-- Clauses whose patterns do not fit a value, tried one after the other. -/
inductive Passes (run : Runner) (v : Value) : List (Expr × Expr) → Session → Session → Prop where
  | nil (s : Session) : Passes run v [] s s
  | cons {pattern body : Expr} {rest : List (Expr × Expr)} {s s₁ s₂ : Session} :
      matchPattern run .fresh pattern v (inClause s pattern) = .ok false s₁ →
      Passes run v rest (leaveClause s₁) s₂ → Passes run v ((pattern, body) :: rest) s s₂

/-- How a clause ends that is not passed over. -/
inductive Decides (run : Runner) (v : Value) (s : Session) :
    Expr × Expr → EStateM.Result Signal Session Value → Prop where
  /-- The pattern fits, and the body has a value. -/
  | value {pattern body : Expr} {w : Value} {s₁ s₂ : Session} :
      matchPattern run .fresh pattern v (inClause s pattern) = .ok true s₁ →
      run (.expr body) s₁ = .ok w s₂ → Decides run v s (pattern, body) (.ok w (leaveClause s₂))
  /-- The pattern fits, and the body fails. -/
  | body {pattern body : Expr} {signal : Signal} {s₁ s₂ : Session} :
      matchPattern run .fresh pattern v (inClause s pattern) = .ok true s₁ →
      run (.expr body) s₁ = .error signal s₂ →
      Decides run v s (pattern, body) (.error (signal.traced s₂.env) (leaveClause s₂))
  /-- The pattern itself fails. -/
  | pattern {pattern body : Expr} {signal : Signal} {s₁ : Session} :
      matchPattern run .fresh pattern v (inClause s pattern) = .error signal s₁ →
      Decides run v s (pattern, body) (.error (signal.traced s₁.env) (leaveClause s₁))

/-- The session in which clauses are tried, with the trace of the failure on top. -/
def beginHandling (s : Session) (trace : Trace) : Session :=
  { s with env := s.env.pushSnapshot trace }

/-- The session after the clauses. -/
def endHandling (s : Session) : Session := { s with env := s.env.popSnapshot }

/-- How an attempt ends that begins in a session. -/
inductive Ends (run : Runner) (body : Expr) (clauses : List (Expr × Expr)) (s : Session) :
    EStateM.Result Signal Session Value → Prop where
  /-- The body has a value. -/
  | value {v : Value} {s₁ : Session} :
      run (.expr body) s = .ok v s₁ → Ends run body clauses s (.ok v s₁)
  /-- A return goes on. -/
  | leave {v : Value} {s₁ : Session} :
      run (.expr body) s = .error (.leave v) s₁ →
      Ends run body clauses s (.error (.leave v) s₁)
  /-- A text that does not parse goes on. -/
  | fatal {e : SourceError} {s₁ : Session} :
      run (.expr body) s = .error (.fatal e) s₁ →
      Ends run body clauses s (.error (.fatal e) s₁)
  /-- So does the lack of fuel. -/
  | outOfFuel {lacking : Shortage} {s₁ : Session} :
      run (.expr body) s = .error (.outOfFuel lacking) s₁ →
      Ends run body clauses s (.error (.outOfFuel lacking) s₁)
  /-- The first clause that is not passed over has a value. -/
  | handled {signal : Signal} {v w : Value} {passed rest : List (Expr × Expr)}
      {clause : Expr × Expr} {s₁ s₂ s₃ s₄ : Session} :
      run (.expr body) s = .error signal s₁ → Raised s₁ signal v s₂ →
      clauses = passed ++ clause :: rest →
      Passes run v passed (beginHandling s₂ (signal.traceIn s₁.env)) s₃ →
      Decides run v s₃ clause (.ok w s₄) → Ends run body clauses s (.ok w (endHandling s₄))
  /-- The first clause that is not passed over fails. -/
  | failed {signal signal' : Signal} {v : Value} {passed rest : List (Expr × Expr)}
      {clause : Expr × Expr} {s₁ s₂ s₃ s₄ : Session} :
      run (.expr body) s = .error signal s₁ → Raised s₁ signal v s₂ →
      clauses = passed ++ clause :: rest →
      Passes run v passed (beginHandling s₂ (signal.traceIn s₁.env)) s₃ →
      Decides run v s₃ clause (.error signal' s₄) →
      Ends run body clauses s (.error signal' (endHandling s₄))
  /-- All clauses are passed over: the exception goes on with its trace. -/
  | unhandled {signal : Signal} {v : Value} {s₁ s₂ s₃ : Session} :
      run (.expr body) s = .error signal s₁ → Raised s₁ signal v s₂ →
      Passes run v clauses (beginHandling s₂ (signal.traceIn s₁.env)) s₃ →
      Ends run body clauses s (.error (.thrown v (signal.traceIn s₁.env)) (endHandling s₃))

/-! ### The clauses -/

section Clauses

/-- The result of trying clauses, from that of the clause that decided. -/
def decided : EStateM.Result Signal Session Value → EStateM.Result Signal Session (Option Value)
  | .ok w s => .ok (some w) s
  | .error signal s => .error signal s

variable {run : Runner} {v : Value} {clauses : List (Expr × Expr)} {s s' : Session}

/-- A clause that is tried while there is room for a frame. -/
lemma tryClause_apply (pattern body : Expr) (hd : s.env.depth < s.maxDepth) :
    tryClause run "<catch>" v (pattern, body) s =
      match matchPattern run .fresh pattern v (inClause s pattern) with
      | .ok true s₁ =>
        match run (.expr body) s₁ with
        | .ok w s₂ => .ok (some w) (leaveClause s₂)
        | .error signal s₂ => .error (signal.traced s₂.env) (leaveClause s₂)
      | .ok false s₁ => .ok none (leaveClause s₁)
      | .error signal s₁ => .error (signal.traced s₁.env) (leaveClause s₁) := by
  simp only [tryClause, inFrame_apply _ _ _ _ hd, bind_apply]
  unfold inClause
  cases matchPattern run .fresh pattern v
      { s with env := s.env.push "<catch>" pattern.source pattern.line } with
  | error signal s₁ => rfl
  | ok fits s₁ =>
      cases fits with
      | false => rfl
      | true =>
          simp only [if_true, map_apply]
          cases run (.expr body) s₁ with
          | ok w s₂ => rfl
          | error signal s₂ => rfl

/-- A clause whose pattern has been matched leaves a session that follows. -/
lemma follows_leaveClause {α : Type} {x : Eval α} {pattern : Expr} {a : α}
    (hx : Keeps x (inClause s pattern)) (h : x (inClause s pattern) = .ok a s') :
    s.Follows (leaveClause s') :=
  (hx.ok h).withEnv (hx.ok h).env.pop

/-- A clause that decides, tried first. -/
lemma runClauses_of_decides {clause : Expr × Expr} {rest : List (Expr × Expr)}
    {result : EStateM.Result Signal Session Value} (h : Decides run v s clause result)
    (hd : s.env.depth < s.maxDepth) :
    runClauses run "<catch>" v (clause :: rest) s = decided result := by
  cases h with
  | value hm hb => simp only [runClauses, bind_apply, tryClause_apply _ _ hd, hm, hb]; rfl
  | body hm hb => simp only [runClauses, bind_apply, tryClause_apply _ _ hd, hm, hb]; rfl
  | pattern hm => simp only [runClauses, bind_apply, tryClause_apply _ _ hd, hm]; rfl

/-- Clauses are passed over, all of them or up to one that decides. -/
lemma passes_or_decides (run : Runner) (v : Value) (clauses : List (Expr × Expr)) (s : Session) :
    (∃ s', Passes run v clauses s s') ∨
      ∃ passed clause rest s₁ result, clauses = passed ++ clause :: rest ∧
        Passes run v passed s s₁ ∧ Decides run v s₁ clause result := by
  induction clauses generalizing s with
  | nil => exact .inl ⟨s, .nil s⟩
  | cons clause rest ih =>
      obtain ⟨pattern, body⟩ := clause
      cases hm : matchPattern run .fresh pattern v (inClause s pattern) with
      | error signal s₁ =>
          exact .inr ⟨[], (pattern, body), rest, s, _, rfl, .nil s, .pattern hm⟩
      | ok fits s₁ =>
          cases fits with
          | true =>
              cases hb : run (.expr body) s₁ with
              | ok w s₂ => exact .inr ⟨[], (pattern, body), rest, s, _, rfl, .nil s, .value hm hb⟩
              | error signal s₂ =>
                  exact .inr ⟨[], (pattern, body), rest, s, _, rfl, .nil s, .body hm hb⟩
          | false =>
              obtain ⟨s', hp⟩ | ⟨passed, clause, rest', s', result, rfl, hp, hr⟩ :=
                ih (leaveClause s₁)
              · exact .inl ⟨s', .cons hm hp⟩
              · exact .inr ⟨(pattern, body) :: passed, clause, rest', s', result, rfl,
                  .cons hm hp, hr⟩

variable (hrun : ∀ task s, Keeps (run task) s)

include hrun

lemma keeps_matchPattern (pattern : Expr) (s : Session) :
    Keeps (matchPattern run .fresh pattern v) s := by
  have hs : Logic.following.Open (fun _ => run) s := fun _ _ _ _ => hrun _ _
  exact Logic.matchPattern .fresh pattern v hs fun _ _ => trivial

/-- Clauses that are passed over leave a session that follows. -/
lemma Passes.follows (h : Passes run v clauses s s') : s.Follows s' := by
  induction h with
  | nil s => exact .refl s
  | cons hm _ ih => exact (follows_leaveClause (keeps_matchPattern hrun _ _) hm).trans ih

/-- Clauses that are passed over lead on to the next one. -/
lemma runClauses_append (h : Passes run v clauses s s') (rest : List (Expr × Expr))
    (hd : s.env.depth < s.maxDepth) :
    runClauses run "<catch>" v (clauses ++ rest) s = runClauses run "<catch>" v rest s' := by
  induction h with
  | nil s => rfl
  | @cons pattern body _ s s₁ _ hm _ ih =>
      have hf := follows_leaveClause (keeps_matchPattern hrun _ _) hm
      rw [List.cons_append, runClauses, bind_apply, tryClause_apply pattern body hd, hm]
      exact ih (by rw [hf.depth_eq, hf.maxDepth]; exact hd)

end Clauses

/-! ### The whole -/

section Whole

variable {rounds calls levels : Nat} {body : Expr} {clauses : List (Expr × Expr)} {v : Value}
  {signal : Signal} {s s' : Session}

/-- The exception of the rules is the one that the evaluator makes. -/
lemma materialize_of_raised (h : Raised s signal v s') (hl : s.HasLibrary)
    (hd : s.env.depth < s.maxDepth) :
    materialize (perform rounds (calls + 1) (levels + 1)) signal s =
      .ok (v, signal.traceIn s.env) s' := by
  cases h with
  | thrown => rfl
  | fault cause trace => exact materialize_fault rounds calls levels cause trace hl hd

/-- A new exception leaves the stack and its limit alone, and the library where it is. -/
lemma Raised.follows (h : Raised s signal v s') : s.Follows s' := by
  cases h with
  | thrown => exact .refl s
  | fault cause trace => exact (s.beside_heap (s.heap.grows_addException _ _)).follows

/-- The result of an attempt from that of its clauses. -/
def concluded (v : Value) (trace : Trace) :
    EStateM.Result Signal Session (Option Value) → EStateM.Result Signal Session Value
  | .ok (some w) s => .ok w (endHandling s)
  | .ok none s => .error (.thrown v trace) (endHandling s)
  | .error signal s => .error signal (endHandling s)

/-- The clauses are tried on the exception, with its trace on top. -/
lemma handle_of_materialize {run : Runner} {trace : Trace}
    (h : materialize run signal s = .ok (v, trace) s') :
    handle run clauses signal s =
      concluded v trace (runClauses run "<catch>" v clauses (beginHandling s' trace)) := by
  rw [handle, bind_apply, h]
  simp only [bind_apply, handling]
  unfold beginHandling
  cases runClauses run "<catch>" v clauses { s' with env := s'.env.pushSnapshot trace } with
  | error signal s₁ => rfl
  | ok outcome s₁ => cases outcome <;> rfl

lemma handle_of_raised (h : Raised s signal v s') (hl : s.HasLibrary)
    (hd : s.env.depth < s.maxDepth) :
    handle (perform rounds (calls + 1) (levels + 1)) clauses signal s =
      concluded v (signal.traceIn s.env)
        (runClauses (perform rounds (calls + 1) (levels + 1)) "<catch>" v clauses
          (beginHandling s' (signal.traceIn s.env))) :=
  handle_of_materialize (materialize_of_raised h hl hd)

/-- The rules foresee every case. -/
lemma exists_ends (run : Runner) (body : Expr) (clauses : List (Expr × Expr)) (s : Session) :
    ∃ result, Ends run body clauses s result := by
  -- A failure has an exception, which the clauses are tried on.
  have hraised : ∀ {signal v s₁ s₂}, run (.expr body) s = .error signal s₁ →
      Raised s₁ signal v s₂ → ∃ result, Ends run body clauses s result := by
    intro signal v s₁ s₂ hb hr
    obtain ⟨s₃, hp⟩ | ⟨passed, clause, rest, s₃, result, hc, hp, hdec⟩ :=
      passes_or_decides run v clauses (beginHandling s₂ (signal.traceIn s₁.env))
    · exact ⟨_, .unhandled hb hr hp⟩
    · cases result with
      | ok w s₄ => exact ⟨_, .handled hb hr hc hp hdec⟩
      | error signal' s₄ => exact ⟨_, .failed hb hr hc hp hdec⟩
  cases hb : run (.expr body) s with
  | ok w s₁ => exact ⟨_, .value hb⟩
  | error signal s₁ =>
      cases signal with
      | fault cause trace => exact hraised hb (.fault cause trace)
      | thrown v trace => exact hraised hb (.thrown v trace)
      | leave v => exact ⟨_, .leave hb⟩
      | fatal e => exact ⟨_, .fatal hb⟩
      | outOfFuel lacking => exact ⟨_, .outOfFuel hb⟩

/-- A runner that ended in a failure had a level. -/
lemma levels_pos_of_raised {task : Task} {s₁ : Session}
    (h : perform rounds calls levels task s = .error signal s₁) (hr : Raised s₁ signal v s') :
    ∃ n, levels = n + 1 := by
  cases levels with
  | zero =>
      cases h
      cases hr
  | succ n => exact ⟨n, rfl⟩

/-- The clauses of a body that failed, tried with its trace on top. -/
lemma attempt_of_raised {s₁ s₂ : Session} (hl : s.HasLibrary) (hd : s.env.depth < s.maxDepth)
    (hb : perform rounds (calls + 1) levels (.expr body) s = .error signal s₁)
    (hr : Raised s₁ signal v s₂) :
    attempt (perform rounds (calls + 1) levels) body clauses s =
      concluded v (signal.traceIn s₁.env)
        (runClauses (perform rounds (calls + 1) levels) "<catch>" v clauses
          (beginHandling s₂ (signal.traceIn s₁.env))) := by
  have hf := (keeps_perform rounds (calls + 1) levels (.expr body) s).error hb
  obtain ⟨n, rfl⟩ := levels_pos_of_raised hb hr
  simp only [attempt, recover, hb]
  exact handle_of_raised hr (hf.hasLibrary hl) (by rwa [hf.depth_eq, hf.maxDepth])

/-- There is as much room for the clauses as there was for the attempt. -/
lemma room_of_raised {s₁ s₂ : Session} (trace : Trace) (hd : s.env.depth < s.maxDepth)
    (hb : perform rounds calls levels (.expr body) s = .error signal s₁)
    (hr : Raised s₁ signal v s₂) :
    (beginHandling s₂ trace).env.depth < (beginHandling s₂ trace).maxDepth := by
  have hf := ((keeps_perform rounds calls levels (.expr body) s).error hb).trans hr.follows
  have hdepth : (beginHandling s₂ trace).env.depth = s₂.env.depth := rfl
  have hmax : (beginHandling s₂ trace).maxDepth = s₂.maxDepth := rfl
  rwa [hdepth, hmax, hf.depth_eq, hf.maxDepth]

/-- If all clauses are passed over, the exception goes on. -/
lemma attempt_of_passes {s₁ s₂ s₃ : Session} (hl : s.HasLibrary) (hd : s.env.depth < s.maxDepth)
    (hb : perform rounds (calls + 1) levels (.expr body) s = .error signal s₁)
    (hr : Raised s₁ signal v s₂)
    (hp : Passes (perform rounds (calls + 1) levels) v clauses
      (beginHandling s₂ (signal.traceIn s₁.env)) s₃) :
    attempt (perform rounds (calls + 1) levels) body clauses s =
      .error (.thrown v (signal.traceIn s₁.env)) (endHandling s₃) := by
  have hnone := runClauses_append (keeps_perform _ _ _) hp [] (room_of_raised _ hd hb hr)
  rw [List.append_nil] at hnone
  rw [attempt_of_raised hl hd hb hr, hnone]
  rfl

/-- If clauses are passed over up to one that decides, it ends as that one does. -/
lemma attempt_of_decides {passed rest : List (Expr × Expr)} {clause : Expr × Expr}
    {s₁ s₂ s₃ : Session} {result : EStateM.Result Signal Session Value} (hl : s.HasLibrary)
    (hd : s.env.depth < s.maxDepth)
    (hb : perform rounds (calls + 1) levels (.expr body) s = .error signal s₁)
    (hr : Raised s₁ signal v s₂) (hc : clauses = passed ++ clause :: rest)
    (hp : Passes (perform rounds (calls + 1) levels) v passed
      (beginHandling s₂ (signal.traceIn s₁.env)) s₃)
    (hdec : Decides (perform rounds (calls + 1) levels) v s₃ clause result) :
    attempt (perform rounds (calls + 1) levels) body clauses s =
      concluded v (signal.traceIn s₁.env) (decided result) := by
  have hrun := keeps_perform rounds (calls + 1) levels
  have hroom := room_of_raised (signal.traceIn s₁.env) hd hb hr
  have hf := hp.follows hrun
  rw [attempt_of_raised hl hd hb hr, hc, runClauses_append hrun hp _ hroom,
    runClauses_of_decides hdec (by rwa [hf.depth_eq, hf.maxDepth])]

/-- The rules leave the evaluator no choice. -/
lemma attempt_of_ends {result : EStateM.Result Signal Session Value} (hl : s.HasLibrary)
    (hd : s.env.depth < s.maxDepth)
    (h : Ends (perform rounds (calls + 1) levels) body clauses s result) :
    attempt (perform rounds (calls + 1) levels) body clauses s = result := by
  cases h with
  | value hb => simp only [attempt, recover, hb]
  | leave hb => simp only [attempt, recover, hb]; rfl
  | fatal hb => simp only [attempt, recover, hb]; rfl
  | outOfFuel hb => simp only [attempt, recover, hb]; rfl
  | handled hb hr hc hp hdec => exact attempt_of_decides hl hd hb hr hc hp hdec
  | failed hb hr hc hp hdec => exact attempt_of_decides hl hd hb hr hc hp hdec
  | unhandled hb hr hp => exact attempt_of_passes hl hd hb hr hp

end Whole

/-! ### Exceptions on their way out -/

/-- A computation comes to ask a runner for a task, and nothing around the task stops an exception:
parts that come after it, frames and files that are left with it, functions that are called, and
clauses that are handling another failure. What is around makes `back s` of the session `s` that the
exception leaves. -/
inductive Asks (run : Runner) (task : Task) (asked : Session) :
    {α : Type} → Eval α → Session → (Session → Session) → Prop where
  /-- The task itself is asked for. -/
  | task : Asks run task asked (run task) asked id
  /-- More is to come after it. -/
  | bind {α β : Type} {x : Eval α} {f : α → Eval β} {s : Session} {back : Session → Session} :
      Asks run task asked x s back → Asks run task asked (x >>= f) s back
  /-- Something has come before it. -/
  | after {α β : Type} {x : Eval α} {f : α → Eval β} {a : α} {s s' : Session}
      {back : Session → Session} :
      x s = .ok a s' → s.Follows s' → Asks run task asked (f a) s' back →
      Asks run task asked (x >>= f) s back
  /-- It is asked for in a frame that was put on. -/
  | inFrame {α : Type} {x : Eval α} {name file : String} {line : Nat} {s : Session}
      {back : Session → Session} :
      s.env.depth < s.maxDepth →
      Asks run task asked x { s with env := s.env.push name file line } back →
      Asks run task asked (Eval.inFrame name file line x) s fun u => leaveClause (back u)
  /-- It is asked for in the text of a module. -/
  | inFile {α : Type} {x : Eval α} {file : String} {s : Session} {back : Session → Session} :
      Asks run task asked x { s with env := s.env.setFile file } back →
      Asks run task asked (Eval.inFile file x) s fun u =>
        { back u with env := (back u).env.setFile s.env.file }
  /-- It is asked for in the body of a function, or in a text that is run. -/
  | catchLeave {x : Eval Value} {s : Session} {back : Session → Session} :
      Asks run task asked x s back → Asks run task asked (Eval.catchLeave x) s back
  /-- It is asked for by what is done about another failure. -/
  | recovered {α : Type} {x : Eval α} {handler : Signal → Eval α} {signal : Signal}
      {s s' : Session} {back : Session → Session} :
      x s = .error signal s' → s.Follows s' → Asks run task asked (handler signal) s' back →
      Asks run task asked (recover x handler) s back
  /-- It is asked for while another failure is being handled. -/
  | handling {α : Type} {x : Eval α} {trace : Trace} {s : Session} {back : Session → Session} :
      Asks run task asked x (beginHandling s trace) back →
      Asks run task asked (Eval.handling trace x) s fun u => endHandling (back u)

/-- An exception with a trace leaves a task: an attempt none of whose clauses fits it, and around it
any number of further attempts none of whose clauses fits it, and between them whatever else a
program may be made of. -/
inductive Carried (rounds : Nat) (v : Value) (trace : Trace) :
    (calls levels : Nat) → Task → Session → Session → Prop where
  | innermost {calls levels : Nat} {site : Site} {body : Expr} {clauses : List (Expr × Expr)}
      {signal : Signal} {s s₁ s₂ s₃ : Session} :
      s.env.depth < s.maxDepth →
      perform rounds (calls + 1) levels (.expr body) (s.atLine site.token.line) =
        .error signal s₁ →
      Raised s₁ signal v s₂ → trace = signal.traceIn s₁.env →
      Passes (perform rounds (calls + 1) levels) v clauses (beginHandling s₂ trace) s₃ →
      Carried rounds v trace (calls + 1) (levels + 1) (.expr (.node site (.attempt body clauses))) s
        (endHandling s₃)
  | attempt {calls levels : Nat} {site : Site} {body : Expr} {clauses : List (Expr × Expr)}
      {s s₁ s₂ : Session} :
      s.env.depth < s.maxDepth →
      Carried rounds v trace (calls + 1) levels (.expr body) (s.atLine site.token.line) s₁ →
      Passes (perform rounds (calls + 1) levels) v clauses (beginHandling s₁ trace) s₂ →
      Carried rounds v trace (calls + 1) (levels + 1) (.expr (.node site (.attempt body clauses))) s
        (endHandling s₂)
  /-- Another expression, or a call; a call that gets no frame takes one of the calls. -/
  | within {calls left levels : Nat} {task inner : Task} {back : Session → Session}
      {s s₁ s₂ : Session} :
      calls = (if task.isFrameless then left + 1 else left) →
      Asks (perform rounds left levels) inner s₁ (step rounds (perform rounds left levels) task) s
        back →
      Carried rounds v trace left levels inner s₁ s₂ →
      Carried rounds v trace calls (levels + 1) task s (back s₂)

section Carried

variable {rounds calls levels : Nat} {site : Site} {body e : Expr} {task : Task}
  {clauses : List (Expr × Expr)} {v : Value} {trace : Trace} {s s' : Session}

lemma perform_attempt (rounds calls levels : Nat) (site : Site) (body : Expr)
    (clauses : List (Expr × Expr)) (s : Session) :
    perform rounds calls (levels + 1) (.expr (.node site (.attempt body clauses))) s =
      attempt (perform rounds calls levels) body clauses (s.atLine site.token.line) := by
  rw [perform_succ rfl]
  rfl

/-- A task is carried out by a runner with the calls that are left for it. -/
lemma perform_of_calls {left : Nat} (h : calls = if task.isFrameless then left + 1 else left) :
    perform rounds calls (levels + 1) task = step rounds (perform rounds left levels) task := by
  subst h
  cases hf : task.isFrameless with
  | false => exact perform_succ hf
  | true => exact perform_frameless_succ hf

/-- An exception that has a trace keeps it. -/
lemma traceIn_thrown (v : Value) (env : Environment) (h : trace ≠ []) :
    Signal.traceIn env (.thrown v trace) = trace := by
  cases trace with
  | nil => exact absurd rfl h
  | cons => rfl

lemma traced_thrown (v : Value) (env : Environment) (h : trace ≠ []) :
    Signal.traced env (.thrown v trace) = .thrown v trace := by
  cases trace with
  | nil => exact absurd rfl h
  | cons => rfl

lemma traceIn_ne_nil {s₁ s₂ : Session} {signal : Signal} (h : Raised s₁ signal v s₂) :
    signal.traceIn s₁.env ≠ [] := by
  have hnil : s₁.env.trace ≠ [] := by simp [Environment.trace, Environment.frames]
  cases h with
  | thrown _ trace =>
      cases trace with
      | nil => exact hnil
      | cons => exact List.cons_ne_nil _ _
  | fault cause trace =>
      cases trace with
      | nil => exact hnil
      | cons => exact List.cons_ne_nil _ _

lemma Carried.trace_ne_nil (h : Carried rounds v trace calls levels task s s') : trace ≠ [] := by
  induction h with
  | innermost _ _ hr ht _ => exact ht ▸ traceIn_ne_nil hr
  | attempt _ _ _ ih => exact ih
  | within _ _ _ ih => exact ih

/-- The task is asked for in a session that has the library. -/
lemma Asks.hasLibrary {α : Type} {run : Runner} {asked : Session} {x : Eval α}
    {back : Session → Session} (h : Asks run task asked x s back) (hl : s.HasLibrary) :
    asked.HasLibrary := by
  induction h with
  | task => exact hl
  | bind _ ih => exact ih hl
  | after _ hf _ ih => exact ih (hf.hasLibrary hl)
  | inFrame _ _ ih => exact ih hl
  | inFile _ ih => exact ih hl
  | catchLeave _ ih => exact ih hl
  | recovered _ hf _ ih => exact ih (hf.hasLibrary hl)
  | handling _ ih => exact ih hl

/-- An exception that ends the task ends the computation, with the same value and trace. -/
theorem Asks.apply_eq {α : Type} {run : Runner} {asked : Session} {x : Eval α}
    {back : Session → Session} (h : Asks run task asked x s back) (ht : trace ≠ [])
    (hrun : run task asked = .error (.thrown v trace) s') :
    x s = .error (.thrown v trace) (back s') := by
  induction h with
  | task => exact hrun
  | bind _ ih => rw [bind_apply, ih]
  | after hx _ _ ih =>
      rw [bind_apply, hx]
      exact ih
  | inFrame hd _ ih =>
      rw [inFrame_apply _ _ _ _ hd, ih, leaveFrame, traced_thrown v _ ht]
      rfl
  | inFile _ ih => rw [inFile_apply, ih, leaveFile, traced_thrown v _ ht]
  | catchLeave _ ih =>
      rw [Eval.catchLeave, recover, ih]
      rfl
  | recovered hx _ _ ih => simp only [recover, hx, ih]
  | handling _ ih =>
      unfold beginHandling at ih
      rw [handling_apply, ih]
      rfl

/-- Whatever it has passed, an exception leaves with the value and the trace it had at the
innermost attempt. -/
theorem Carried.perform_eq (h : Carried rounds v trace calls levels task s s')
    (hl : s.HasLibrary) : perform rounds calls levels task s = .error (.thrown v trace) s' := by
  induction h with
  | innermost hd hb hr ht hp =>
      rw [perform_attempt]
      subst ht
      exact attempt_of_passes hl hd hb hr hp
  | @attempt calls levels site body clauses s s₁ s₂ hd hc hp ih =>
      have hb := ih hl
      have ht : Signal.traceIn s₁.env (.thrown v trace) = trace :=
        traceIn_thrown v s₁.env hc.trace_ne_nil
      rw [← ht] at hp
      have hpass := attempt_of_passes (s := s.atLine site.token.line) hl hd hb (.thrown v trace) hp
      rw [ht] at hpass
      rw [perform_attempt]
      exact hpass
  | within hcalls hasks hc ih =>
      rw [perform_of_calls hcalls]
      exact hasks.apply_eq hc.trace_ne_nil (ih (hasks.hasLibrary hl))

/-! What is around a task in a block, in a call and in a function. -/

/-- The session in which a block is run. -/
def inBlock (s : Session) (site : Site) : Session :=
  { s.atLine site.token.line with
    env := (s.atLine site.token.line).env.push "<block>" site.token.source site.token.line }

/-- Expressions in a row come to one of them. -/
lemma asks_sequenceFrom {run : Runner} (hrun : ∀ task s, Keeps (run task) s) {first last : Value}
    {before after : List Expr} (h : sequenceFrom run first before s = .ok last s') :
    Asks run (.expr e) s' (sequenceFrom run first (before ++ e :: after)) s id := by
  induction before generalizing first s with
  | nil =>
      cases h
      exact .bind .task
  | cons e' before ih =>
      rw [sequenceFrom, bind_apply] at h
      cases he : run (.expr e') s with
      | error signal s₁ =>
          rw [he] at h
          cases h
      | ok w s₁ =>
          rw [he] at h
          exact .after he ((hrun (.expr e') s).ok he) (ih h)

/-- So does a block, in its frame. -/
lemma asks_block {run : Runner} (hrun : ∀ task s, Keeps (run task) s) (rounds : Nat)
    {before after : List Expr} {last : Value} (hd : s.env.depth < s.maxDepth)
    (h : Eval.sequence run before (inBlock s site) = .ok last s') :
    Asks run (.expr e) s' (step rounds run (.expr (.node site (.block (before ++ e :: after))))) s
      leaveClause :=
  .after (mark_apply _ s) (Session.follows_env (s.env.balanced_mark _))
    (.inFrame hd (asks_sequenceFrom hrun h))

/-- A call is asked for when what is called and the arguments have been evaluated. -/
lemma asks_call {run : Runner} (hrun : ∀ task s, Keeps (run task) s) (rounds : Nat) {callee : Expr}
    {arguments : List Expr} {f : Value} {vs : List Value} {s₁ s₂ : Session}
    (hf : run (.expr callee) (s.atLine site.token.line) = .ok f s₁)
    (hvs : evalArguments run arguments s₁ = .ok vs s₂) :
    Asks run (.call f vs) (s₂.atLine site.token.line)
      (step rounds run (.expr (.node site (.call callee arguments)))) s id := by
  have hopen : Logic.following.Open (fun _ => run) s₁ := fun task u _ _ => hrun task u
  have hk : Keeps (evalArguments run arguments) s₁ :=
    Logic.evalArguments arguments hopen fun _ _ => trivial
  exact .after (mark_apply _ s) (Session.follows_env (s.env.balanced_mark _))
    (.after hf ((hrun _ _).ok hf) (.after hvs (hk.ok hvs)
      (.after (mark_apply _ s₂) (Session.follows_env (s₂.env.balanced_mark _)) .task)))

/-- The body of a function is asked for in its frame, once the parameters are bound. -/
lemma asks_function {run : Runner} (rounds : Nat) {r : FunctionRef} {f : Closure}
    {arguments : List Value} {s₁ s₂ : Session} (hf : s.heap.function? r = some f)
    (ha : accepts f.code.params arguments.length = true) (hd : s.env.depth < s.maxDepth)
    (hreceiver : bindReceiver f.receiver { s with
      env := s.env.push f.code.name f.code.body.source f.code.body.line } = .ok () s₁)
    (hparams : bindParams f.code.params.rest f.code.params.names arguments s₁ = .ok () s₂) :
    Asks run (.expr f.code.body) s₂ (step rounds run (.call (.function r) arguments)) s
      leaveClause := by
  have hk₁ : ∀ u, Keeps (bindReceiver f.receiver) u := fun _ =>
    Logic.bindReceiver (L := Logic.following) f.receiver
  have hk₂ : ∀ u, Keeps (bindParams f.code.params.rest f.code.params.names arguments) u := fun _ =>
    Logic.bindParams (L := Logic.following) _ _ _
  refine .after (heap_apply s) (.refl s) ?_
  simp only [hf, callFunction, ha, if_true]
  exact .inFrame hd (.after hreceiver ((hk₁ _).ok hreceiver)
    (.after hparams ((hk₂ _).ok hparams) (.catchLeave .task)))

end Carried

/-! ### The meaning of an attempt -/

/-- The exception of a failure is new, is an instance of the class of its kind, and has the text of
the failure for its message. -/
lemma Raised.of_fault {s s' : Session} {cause : Fault} {trace : Trace} {v : Value}
    (h : Raised s (.fault cause trace) v s') (hl : s.HasLibrary) :
    ∃ r, v = .object r ∧ s.heap.object? r = none ∧
      s'.heap.classOfObject? r = some (BuiltinClass.error cause.kind).ref ∧
      getMember v "message" s' = .ok (.text cause.message) s' := by
  cases h
  refine ⟨_, rfl, s.heap.object?_addException_eq_none _ _, ?_, getMember_message _ _ hl⟩
  rw [Heap.classOfObject?, (s.heap.object?_addException _ _).1]
  rfl

/-- **The meaning of an attempt**, evaluated while there is room for a frame. It ends exactly as
the rules say; what the rules call the exception of a failure is a new instance of the class of its
kind; every clause is tried with the trace of the failure on top of the traces, which are as before
when the attempt has ended; and through any number of attempts whose clauses do not fit, and
through whatever is between them, an exception is carried with the value and the trace that it had
at the innermost one. -/
theorem perform_attempt_iff_ends (rounds calls levels : Nat) (site : Site) (body : Expr)
    (clauses : List (Expr × Expr)) (s : Session) (hd : s.env.depth < s.maxDepth)
    (hl : s.HasLibrary) :
    let run := perform rounds (calls + 1) levels
    let attempted := perform rounds (calls + 1) (levels + 1)
      (.expr (.node site (.attempt body clauses)))
    (∀ result, attempted s = result ↔ Ends run body clauses (s.atLine site.token.line) result) ∧
    (∀ cause trace s₁ v s₂,
      run (.expr body) (s.atLine site.token.line) = .error (.fault cause trace) s₁ →
      Raised s₁ (.fault cause trace) v s₂ →
      ∃ r, v = .object r ∧ s₁.heap.object? r = none ∧
        s₂.heap.classOfObject? r = some (BuiltinClass.error cause.kind).ref ∧
        getMember v "message" s₂ = .ok (.text cause.message) s₂) ∧
    (∀ signal s₁ v s₂ passed s₃, run (.expr body) (s.atLine site.token.line) = .error signal s₁ →
      Raised s₁ signal v s₂ →
      Passes run v passed (beginHandling s₂ (signal.traceIn s₁.env)) s₃ →
      s₃.env.snapshots = signal.traceIn s₁.env :: s.env.snapshots) ∧
    (s.after attempted).env.snapshots = s.env.snapshots ∧
    ∀ v trace s', Carried rounds v trace (calls + 1) (levels + 1)
        (.expr (.node site (.attempt body clauses))) s s' →
      attempted s = .error (.thrown v trace) s' := by
  intro run attempted
  have hfollows : ∀ {signal s₁}, run (.expr body) (s.atLine site.token.line) = .error signal s₁ →
      (s.atLine site.token.line).Follows s₁ :=
    (keeps_perform rounds (calls + 1) levels (.expr body) (s.atLine site.token.line)).error
  refine ⟨fun result => ?_, fun cause trace s₁ v s₂ hb hr => ?_,
    fun signal s₁ v s₂ passed s₃ hb hr hp => ?_, ?_, fun v trace s' hc => hc.perform_eq hl⟩
  · have hends : attempted s = attempt run body clauses (s.atLine site.token.line) :=
      perform_attempt rounds (calls + 1) levels site body clauses s
    have hrules : ∀ {result}, Ends run body clauses (s.atLine site.token.line) result →
        attempted s = result := fun h => hends.trans (attempt_of_ends hl hd h)
    refine ⟨fun h => ?_, hrules⟩
    obtain ⟨result', hresult'⟩ := exists_ends run body clauses (s.atLine site.token.line)
    rwa [← h, hrules hresult']
  · exact hr.of_fault ((hfollows hb).hasLibrary hl)
  · have hf := (hfollows hb).trans hr.follows
    calc s₃.env.snapshots = (beginHandling s₂ (signal.traceIn s₁.env)).env.snapshots :=
          (hp.follows (keeps_perform _ _ _)).env.snapshots
      _ = signal.traceIn s₁.env :: s₂.env.snapshots := rfl
      _ = signal.traceIn s₁.env :: s.env.snapshots := by rw [hf.env.snapshots]; rfl
  · exact (keeps_perform rounds (calls + 1) (levels + 1) _ s).env.snapshots

/-- A clause for null. -/
def nullClause : Expr × Expr := (.node default (.constant .null), .node default (.constant .null))

/-- A clause for everything. -/
def anyClause : Expr × Expr :=
  (.node default (.name "e"), .node default (.constant (.bool true)))

/-- An attempt around a name that is not bound. -/
def missingName : Expr := .node default (.attempt (.node default (.name "missing")) [nullClause])

/-- A function that makes this attempt in a block is called. -/
def missingInCall : Expr :=
  .node default
    (.call (.node default (.lambda ⟨[], none⟩ (.node default (.block [missingName])))) [])

/-- An attempt around the call of a function that makes an attempt itself. The clause for null is
passed over twice, and then the clause for everything decides. -/
theorem perform_attempt_iff_ends_nested :
    Session.initial.env.depth < Session.initial.maxDepth ∧ Session.initial.HasLibrary ∧
    ∃ s', perform 0 1 6 (.expr (.node default (.attempt missingInCall [nullClause, anyClause])))
      Session.initial = .ok (.bool true) s' := by
  have hd : Session.initial.env.depth < Session.initial.maxDepth := by decide
  have hl := Session.hasLibrary_initial
  have hblock : ∀ {s}, s.env.depth < s.maxDepth → Asks (perform 0 1 2) (.expr missingName)
      (inBlock s default) (step 0 (perform 0 1 2) (.expr (.node default (.block [missingName])))) s
      leaveClause := fun {s} hd =>
    asks_block (keeps_perform 0 1 2) 0 hd (rfl : Eval.sequence _ [] (inBlock s default) = _)
  have hb : ∃ r trace s₁, perform 0 1 5 (.expr missingInCall) (Session.initial.atLine 0) =
      .error (.thrown (.object r) trace) s₁ := by
    refine ⟨_, _, _, Carried.perform_eq (.within rfl (asks_call (keeps_perform 0 1 4) 0 rfl rfl)
      (.within rfl (asks_function 0 rfl rfl ?_ rfl rfl) (.within rfl (hblock ?_)
        (.innermost ?_ rfl (.fault _ _) rfl (.cons rfl (.nil _)))))) hl⟩
    · decide
    · decide
    · decide
  obtain ⟨r, trace, s₁, hb⟩ := hb
  exact ⟨hd, hl, _, ((perform_attempt_iff_ends 0 0 5 default missingInCall [nullClause, anyClause]
    Session.initial hd hl).1 _).mpr (.handled hb (.thrown _ _)
      (rfl : _ = [nullClause] ++ anyClause :: []) (.cons rfl (.nil _)) (.value rfl rfl))⟩

end Tern.Attempt
