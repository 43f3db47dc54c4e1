/-
Destructuring that fails. The pattern is tried in a frame of its own first, and what the trial binds
goes with that frame. Then the pattern is matched again to assign its names, and this can fail only
where a name has to be new and is taken; the names in front of it have been assigned by then, and
stay so.

* `Session.trial?`: the captures of a pattern whose trial succeeds.
* `Eval.trial_apply`: a trial leaves the session as it was and succeeds exactly if there are such.
* `Eval.destructure_of_trial?_eq_none`, `Eval.captured_destructure`: without them destructuring
  fails at once, and otherwise they are bound from the session itself.
* `Eval.scope_of_destructure_error`: the bindings after a failure.
* `Eval.not_scope_eq_of_destructure_error`: a failure that leaves a name behind.
-/
import Tern.Proofs.Captures

namespace Tern

/-- No name that has to be new comes a second time. -/
def Capture.Unrepeated (cs : List Capture) : Prop :=
  cs.Pairwise fun c d => d.declared = true → d.name ≠ c.name

instance (cs : List Capture) : Decidable (Capture.Unrepeated cs) :=
  inferInstanceAs (Decidable (cs.Pairwise _))

namespace Environment

variable {mode : Eval.BindMode} {e e' : Environment} {c : Capture} {cs : List Capture}

/-! ### Binding in a frame of its own -/

lemma capture_fresh_eq_ok_iff : e.capture .fresh c = .ok e' ↔
    (c.declared = true → e.top.vars.has c.name = false) ∧ e' = e.bind c.name c.value := by
  have hdefine : e.define c.name c.value = .ok e' ↔
      e.top.vars.has c.name = false ∧ e' = e.bind c.name c.value := by
    rw [define]
    split <;> simp [*, eq_comm]
  cases hc : c.declared with
  | true => simpa [capture, hc] using hdefine
  | false =>
      have hok : e.capture .fresh c = .ok (e.bind c.name c.value) := by
        rw [capture, hc]
        rfl
      rw [hok, Except.ok.injEq, eq_comm]
      simp

/-- Fresh names change the innermost frame only. -/
lemma below_captureAll_fresh (h : captureAll .fresh cs e = .ok e') :
    e'.below = e.below ∧ e'.snapshots = e.snapshots := by
  induction cs generalizing e with
  | nil =>
      cases h
      exact ⟨rfl, rfl⟩
  | cons c cs ih =>
      obtain ⟨e₁, hc, hcs⟩ := captureAll_cons_eq_ok_iff.mp h
      obtain ⟨-, rfl⟩ := capture_fresh_eq_ok_iff.mp hc
      obtain ⟨hbelow, hsnapshots⟩ := ih hcs
      exact ⟨hbelow, hsnapshots⟩

/-- Captures are bound in the innermost frame unless a name has to be new and is taken there or
comes a second time. -/
lemma exists_captureAll_fresh_iff : (∃ e', captureAll .fresh cs e = .ok e') ↔
    (∀ c ∈ cs, c.declared = true → e.top.vars.has c.name = false) ∧ Capture.Unrepeated cs := by
  induction cs generalizing e with
  | nil => exact ⟨fun _ => ⟨List.forall_mem_nil _, .nil⟩, fun _ => ⟨e, rfl⟩⟩
  | cons c cs ih =>
      have hnext : (∃ e', captureAll .fresh (c :: cs) e = .ok e') ↔
          (c.declared = true → e.top.vars.has c.name = false) ∧
            ∃ e', captureAll .fresh cs (e.bind c.name c.value) = .ok e' := by
        simp only [captureAll_cons_eq_ok_iff, capture_fresh_eq_ok_iff]
        grind
      have hbound : ∀ d : Capture, (e.bind c.name c.value).top.vars.has d.name = false ↔
          d.name ≠ c.name ∧ e.top.vars.has d.name = false := by
        intro d
        simp [bind]
      rw [hnext, ih, List.forall_mem_cons]
      simp only [hbound, Capture.Unrepeated, List.pairwise_cons]
      grind

/-- What is bound in a frame of its own goes with it. -/
lemma pop_of_captureAll_push {name file : String} {line : Nat}
    (h : (e.push name file line).captureAll .fresh cs = .ok e') (line' : Nat) :
    (e'.mark line').pop = e := by
  obtain ⟨hbelow, hsnapshots⟩ := below_captureAll_fresh h
  have hbelow' : (e'.mark line').below = e.top :: e.below := hbelow
  rw [pop, hbelow']
  simp only [mark, hsnapshots, push]

/-- In a frame of its own a name can only be taken by one that came before it. -/
lemma exists_captureAll_push_iff (e : Environment) (name file : String) (line : Nat) :
    (∃ e', (e.push name file line).captureAll .fresh cs = .ok e') ↔ Capture.Unrepeated cs := by
  rw [exists_captureAll_fresh_iff]
  exact ⟨And.right, fun h => ⟨fun _ _ _ => rfl, h⟩⟩

/-! ### Binding up to a name that is taken -/

/-- Binds captures in order, up to the first one that cannot be bound. -/
def captureUpTo (mode : Eval.BindMode) : List Capture → Environment → Environment
  | [], e => e
  | c :: cs, e =>
    match e.capture mode c with
    | .ok e' => captureUpTo mode cs e'
    | .error _ => e

lemma captureUpTo_eq {fault : Fault} {done rest : List Capture}
    (hdone : captureAll mode done e = .ok e') (hc : e'.capture mode c = .error fault) :
    captureUpTo mode (done ++ c :: rest) e = e' := by
  induction done generalizing e with
  | nil =>
      cases hdone
      rw [List.nil_append, captureUpTo, hc]
  | cons d done ih =>
      obtain ⟨e₁, hd, hdone⟩ := captureAll_cons_eq_ok_iff.mp hdone
      rw [List.cons_append, captureUpTo, hd]
      exact ih hdone

lemma scope_mark (e : Environment) (line : Nat) : (e.mark line).scope = e.scope := rfl

end Environment

/-- The captures of a pattern whose trial succeeds: there is room for the frame of the trial, the
pattern fits, and no name that has to be new comes a second time. -/
def Session.trial? (s : Session) (ask : Lookup → Expr → Option Value) (p : Expr) (v : Value) :
    Option (List Capture) :=
  if s.env.depth < s.maxDepth then
    (p.captures? s.heap ask v s.env.find?).filter fun cs => Capture.Unrepeated cs
  else none

namespace Eval

variable {run : Runner} {ask : Lookup → Expr → Option Value} {p : Expr} {v : Value}
  {s s' : Session}

/-- A trial leaves the session as it was, and it succeeds exactly if it has captures. -/
lemma trial_apply (hp : ∀ e ∈ p.asked, Answers run s.heap ask e) (name file : String)
    (line : Nat) :
    match s.trial? ask p v with
    | some cs => p.captures? s.heap ask v s.env.find? = some cs ∧
        inFrame name file line (matchPattern run .fresh p v) s = .ok true s
    | none => inFrame name file line (matchPattern run .fresh p v) s = .ok false s ∨
        ∃ signal, inFrame name file line (matchPattern run .fresh p v) s = .error signal s := by
  rw [Session.trial?]
  by_cases hroom : s.env.depth < s.maxDepth
  · rw [if_pos hroom, inFrame_apply _ _ _ _ hroom]
    have hmatch : Captured .fresh { s with env := s.env.push name file line }
        (p.captures? s.heap ask v s.env.find?)
        (matchPattern run .fresh p v { s with env := s.env.push name file line }) :=
      captured_matchPattern .fresh p v rfl hp
    -- what the trial binds goes with its frame
    have hpop : ∀ {done : List Capture} {env : Environment} (line' : Nat),
        (s.env.push name file line).captureAll .fresh done = .ok env →
        { s with env := (env.mark line').pop } = s := by
      intro done env line' hdone
      rw [Environment.pop_of_captureAll_push hdone]
    generalize p.captures? s.heap ask v s.env.find? = o at hmatch ⊢
    generalize matchPattern run .fresh p v { s with env := s.env.push name file line } = r
      at hmatch ⊢
    cases hmatch with
    | @all cs env line' hcs =>
        have hcs' : Capture.Unrepeated cs :=
          (Environment.exists_captureAll_push_iff _ _ _ _).mp ⟨env, hcs⟩
        rw [Option.filter_some, if_pos (decide_eq_true hcs')]
        exact ⟨rfl, congrArg (EStateM.Result.ok true) (hpop line' hcs)⟩
    | @upTo done rest c env fault line' hdone hc =>
        have hcs : ¬ Capture.Unrepeated (done ++ c :: rest) := by
          rw [← Environment.exists_captureAll_push_iff s.env name file line]
          rintro ⟨env', henv⟩
          rw [Environment.captureAll_append, hdone] at henv
          obtain ⟨_, hok, -⟩ := Environment.captureAll_cons_eq_ok_iff.mp henv
          rw [hc] at hok
          cases hok
        rw [Option.filter_some, if_neg (by simpa using hcs)]
        exact .inr ⟨_, congrArg (EStateM.Result.error _) (hpop line' hdone)⟩
    | misfit line' hdone => exact .inl (congrArg (EStateM.Result.ok false) (hpop line' hdone))
    | failure line' signal hdone =>
        exact .inr ⟨_, congrArg (EStateM.Result.error _) (hpop line' hdone)⟩
  · rw [if_neg hroom, inFrame_full _ _ _ _ (Nat.not_lt.mp hroom)]
    exact .inr ⟨_, rfl⟩

/-- If the trial has no captures, destructuring fails and changes nothing. -/
lemma destructure_of_trial?_eq_none (hp : ∀ e ∈ p.asked, Answers run s.heap ask e)
    (htrial : s.trial? ask p v = none) : ∃ signal, destructure run p v s = .error signal s := by
  have h := @trial_apply run ask p v s hp "<destructure>" p.source p.line
  rw [htrial] at h
  simp only [destructure, bind_apply]
  obtain h | ⟨signal, h⟩ := h
  · rw [h]
    exact ⟨_, rfl⟩
  · rw [h]
    exact ⟨_, rfl⟩

/-- If the trial has captures, they are bound from the session as it was. -/
lemma captured_destructure {cs : List Capture} (hp : ∀ e ∈ p.asked, Answers run s.heap ask e)
    (htrial : s.trial? ask p v = some cs) :
    Captured (if p.declares then .declare else .assign) s (some cs)
      ((destructure run p v >>= fun _ => pure true) s) := by
  obtain ⟨hcs, h⟩ : _ ∧ _ := by
    have h := @trial_apply run ask p v s hp "<destructure>" p.source p.line
    rwa [htrial] at h
  have hmatch := captured_matchPattern (if p.declares then .declare else .assign) p v rfl hp
  rw [hcs] at hmatch
  simp only [destructure, bind_apply, h, Bool.not_true, Bool.false_eq_true, if_false]
  generalize matchPattern run (if p.declares then .declare else .assign) p v s = r at hmatch ⊢
  cases hmatch with
  | all line hcs => exact .all line hcs
  | upTo line hdone hc => exact .upTo line hdone hc

/-- What a failure leaves. If the trial of the pattern fails, nothing is changed. Otherwise a name
that has to be new is taken, and the names up to that one have been assigned. -/
theorem scope_of_destructure_error {signal : Signal}
    (hp : ∀ e ∈ p.asked, Answers run s.heap ask e)
    (herr : destructure run p v s = .error signal s') :
    (s.trial? ask p v = none → s' = s) ∧
    ∀ cs, s.trial? ask p v = some cs →
      s'.env.scope =
        (s.env.captureUpTo (if p.declares then .declare else .assign) cs).scope ∧
      ∃ c ∈ cs, (c.declared = true ∨ p.declares = true) ∧
        signal = .fault (.alreadyInScope c.name) [] := by
  constructor
  · intro htrial
    obtain ⟨signal', h⟩ := destructure_of_trial?_eq_none hp htrial
    rw [h] at herr
    cases herr
    rfl
  · intro cs htrial
    have hcs := captured_destructure hp htrial
    rw [bind_apply, herr] at hcs
    cases hcs with
    | @upTo done rest c env fault line hdone hc =>
        obtain ⟨hmode, -, rfl⟩ := Environment.capture_eq_error_iff.mp hc
        rw [Environment.captureUpTo_eq hdone hc, Environment.scope_mark]
        refine ⟨rfl, c, by simp, hmode.imp_right fun h => ?_, rfl⟩
        by_contra hne
        rw [if_neg hne] at h
        cases h

/-! ### Patterns that evaluate names and constants -/

/-- Whether an expression is a name or a constant. -/
def isAtom (e : Expr) : Bool :=
  match e.form with
  | .name _ => true
  | .constant _ => true
  | _ => false

/-- The value of a name or a constant. -/
def atom? (look : Lookup) (e : Expr) : Option Value :=
  match e.form with
  | .name name => look name
  | .constant c => some (constant c)
  | _ => none

/-- Names and constants only read. -/
lemma answers_of_isAtom {e : Expr} (he : isAtom e = true) (rounds calls levels : Nat) (h : Heap) :
    Answers (perform rounds calls (levels + 1)) h atom? e := by
  intro s _
  obtain ⟨site, form⟩ := e
  refine ⟨site.token.line, ?_⟩
  cases form with
  | name name =>
      rw [perform_name, Environment.get]
      simp only [atom?, Expr.form]
      cases s.env.find? name with
      | some v => rfl
      | none => exact ⟨_, rfl⟩
  | constant c =>
      rw [perform_succ rfl]
      rfl
  | _ => cases he

/-- The pattern `@var (first, b)`. -/
def declaring (first : Form) : Expr :=
  .node ⟨default, [Expr.newName]⟩ (.tuple [.plain default first, .plain default (.name "b")])

/-- The pattern `["k": a]`. -/
def underKey : Form :=
  .map [(.plain default (.constant (.text "k")), .plain default (.name "a"))]

/-- A session with a map, in which the name `b` is taken. -/
def occupied : Session :=
  { Session.initial with
    heap := { Heap.empty with maps := #[[(.text "k", .bool true)]] }
    env := Environment.initial.bind "b" .null }

/-- The name in front of the one that is taken stays. -/
theorem scope_of_destructure_error_occupied : ∃ signal s',
    (∀ e ∈ (declaring underKey).asked, Answers Eval.run occupied.heap atom? e) ∧
    destructure Eval.run (declaring underKey) (.tuple [.map ⟨0⟩, .null]) occupied =
      .error signal s' ∧
    s'.env.scope = [[("b", .null), ("a", .bool true)]] := by
  obtain ⟨n, hn⟩ : ∃ n, fuel = n + 1 := ⟨fuel - 1, by decide⟩
  have hrun : Eval.run = perform (n + 1) (n + 1) (n + 1) := by rw [Eval.run, hn]
  rw [hrun]
  have hp : ∀ e ∈ (declaring underKey).asked,
      Answers (perform (n + 1) (n + 1) (n + 1)) occupied.heap atom? e := by
    intro e he
    obtain rfl := List.mem_singleton.mp he
    exact answers_of_isAtom rfl (n + 1) (n + 1) n _
  have htrial : occupied.trial? atom? (declaring underKey) (.tuple [.map ⟨0⟩, .null]) =
      some [⟨false, "a", .bool true⟩, ⟨false, "b", .null⟩] := rfl
  refine ⟨_, _, hp, rfl, ?_⟩
  exact ((scope_of_destructure_error hp rfl).2 _ htrial).1

/-- A destructuring can fail and leave a name behind. -/
theorem not_scope_eq_of_destructure_error :
    ¬ ∀ (p : Expr) (v : Value) (s s' : Session) (signal : Signal),
      destructure Eval.run p v s = .error signal s' → s'.env.scope = s.env.scope := by
  intro hall
  have hscope := hall (declaring (.name "a")) (.tuple [.null, .null]) occupied _ _ rfl
  cases hscope

end Eval

end Tern
