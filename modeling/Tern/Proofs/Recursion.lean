/-
Runaway recursion. Functions, blocks, clauses and the slots of objects put on frames, so that
recursion through them meets the limit of frames. Native functions and the constructors of classes
put on none of their own: recursion through these alone meets no limit.

* `Session.FiniteModules`: there are finitely many modules, as in every tree of files.
* `Eval.EndsIn`: how a program ends when it lacks nothing.
* `Eval.exists_endsIn_iff_calls_bounded`: a program that runs no loop comes to an end exactly if
  its calls without a frame are nested to a bounded depth.
* `Eval.not_endsIn_eval_itself`: a text that evaluates itself does not come to an end, whatever
  the limit of frames.
-/
import Mathlib.Data.Set.Finite.List
import Mathlib.Tactic
import Tern.Proofs.Termination

namespace Tern

/-! ### Finitely many modules -/

/-- Finitely many modules can be imported. -/
def Session.FiniteModules (s : Session) : Prop := {relative | s.Importable relative}.Finite

/-- There are finitely many texts up to a length in bytes. -/
lemma finite_utf8ByteSize_le (n : Nat) : {text : String | text.utf8ByteSize ≤ n}.Finite := by
  have hbyte : Finite UInt8 := Finite.of_injective UInt8.toFin fun _ _ h => UInt8.toFin_inj.mp h
  let bytes : String → List UInt8 := fun text => text.toByteArray.data.toList
  have hinj : Function.Injective bytes := fun a b h =>
    String.toByteArray_inj.mp (ByteArray.ext (Array.toList_inj.mp h))
  exact (List.finite_length_le UInt8 n).preimage (f := bytes) hinj.injOn

/-- A path to a file is not longer than paths can be. -/
lemma FileTree.utf8ByteSize_le_of_isFile {t : FileTree} {path : String}
    (h : t.files.isFile path = true) : path.utf8ByteSize ≤ FileTree.pathLimit := by
  by_contra hlong
  have hlong : FileTree.pathLimit < path.utf8ByteSize := Nat.lt_of_not_le hlong
  unfold Files.isFile FileTree.files at h
  split_ifs at h

lemma Path.utf8ByteSize_le_join (base path : String) :
    path.utf8ByteSize ≤ (Path.join base path).utf8ByteSize := by
  unfold Path.join
  split
  · rw [String.utf8ByteSize_append]
    omega
  · rw [String.utf8ByteSize_append]
    omega

/-- The modules that are always there are two. -/
lemma Module.finite_bundled : {relative | (Module.bundled? relative).isSome = true}.Finite := by
  refine (Set.toFinite {"std/functional.tern", "std/assert.tern"}).subset fun relative h => ?_
  by_contra hr
  simp only [Set.mem_insert_iff, Set.mem_singleton_iff, not_or] at hr
  simp [Module.bundled?, hr.1, hr.2] at h

/-- A tree of files has finitely many modules. -/
lemma Session.finiteModules_of_tree {s : Session} (t : FileTree) (h : s.files = t.files) :
    s.FiniteModules := by
  have hfiles :
      {relative | s.files.isFile (Path.join (s.moduleRoot.getD "") relative) = true}.Finite := by
    refine (finite_utf8ByteSize_le FileTree.pathLimit).subset fun relative hr => ?_
    rw [Set.mem_ofPred_eq, h] at hr
    exact le_trans (Path.utf8ByteSize_le_join _ relative) (FileTree.utf8ByteSize_le_of_isFile hr)
  exact Module.finite_bundled.union hfiles

lemma Session.finiteModules_initial : Session.initial.FiniteModules := by
  refine Module.finite_bundled.subset fun relative h => ?_
  obtain h | h := h
  · exact h
  · cases h

namespace Eval

/-! ### Programs that come to an end -/

/-- A program ends in a result for which it lacked nothing. -/
def EndsIn (body : List Expr) (s : Session) (result : EStateM.Result Signal Session Value) : Prop :=
  ∃ rounds calls levels, program (perform rounds calls levels) body s = result ∧
    ∀ lacking, ¬ Short lacking result

section

variable {rounds rounds' calls calls' levels levels' : Nat} {body : List Expr} {s : Session}

/-- A program that lacks nothing does not need more. -/
lemma program_eq_of_le (hr : rounds ≤ rounds') (hc : calls ≤ calls') (hl : levels ≤ levels')
    (h : ∀ lacking, ¬ Short lacking (program (perform rounds calls levels) body s)) :
    program (perform rounds' calls' levels') body s =
      program (perform rounds calls levels) body s := by
  obtain ⟨more, rfl⟩ := Nat.exists_eq_add_of_le' hr
  obtain ⟨further, rfl⟩ := Nat.exists_eq_add_of_le' hc
  obtain ⟨deeper, rfl⟩ := Nat.exists_eq_add_of_le' hl
  obtain ⟨lacking, -, hs⟩ | heq := refines_program (fun _ => True) rounds calls levels
    (.inr (trivial : True)) (.inr (trivial : True)) (.inr (trivial : True)) body s
  · exact absurd hs (h lacking)
  · exact heq

/-- A program that lacks neither rounds nor levels needs no more of these. -/
lemma program_eq_of_le_levels (hr : rounds ≤ rounds') (hl : levels ≤ levels')
    (hrounds : ¬ Short .rounds (program (perform rounds calls levels) body s))
    (hlevels : ¬ Short .levels (program (perform rounds calls levels) body s)) :
    program (perform rounds' calls levels') body s =
      program (perform rounds calls levels) body s := by
  obtain ⟨more, rfl⟩ := Nat.exists_eq_add_of_le' hr
  obtain ⟨deeper, rfl⟩ := Nat.exists_eq_add_of_le' hl
  have href : Refines (· ≠ .calls) (program (perform rounds calls levels) body)
      (program (perform (more + rounds) (0 + calls) (deeper + levels)) body) s :=
    refines_program _ rounds calls levels (.inr (by decide)) (.inl rfl) (.inr (by decide)) body s
  rw [Nat.zero_add] at href
  obtain ⟨lacking, hg, hs⟩ | heq := href
  · cases lacking with
    | rounds => exact absurd hs hrounds
    | levels => exact absurd hs hlevels
    | calls => exact absurd rfl hg
  · exact heq

/-- A program ends in one way only. -/
lemma EndsIn.unique {result result' : EStateM.Result Signal Session Value}
    (h : EndsIn body s result) (h' : EndsIn body s result') : result = result' := by
  obtain ⟨rounds, calls, levels, rfl, hn⟩ := h
  obtain ⟨rounds', calls', levels', rfl, hn'⟩ := h'
  have h₁ := program_eq_of_le (le_max_left rounds rounds') (le_max_left calls calls')
    (le_max_left levels levels') hn
  have h₂ := program_eq_of_le (le_max_right rounds rounds') (le_max_right calls calls')
    (le_max_right levels levels') hn'
  exact h₁.symm.trans h₂

/-- With bounds on rounds and on calls without a frame, every program settles. -/
lemma settles_program (rounds calls : Nat) (body : List Expr) (hl : s.HasLibrary)
    (hm : s.FiniteModules) : Settles (fun i => program (perform rounds calls i) body) s := by
  have hs : s.Stage hm.toFinset s.maxDepth (s.unimported hm.toFinset) :=
    ⟨hl, fun relative hr => hm.mem_toFinset.mpr hr, by omega, le_rfl⟩
  have hopen : Logic.settling.Open (fun i => perform rounds calls i) s :=
    fun task s' _ hf => settled rounds calls _ _ _ task s' (hs.follows hf)
  exact Logic.program body hopen fun _ _ => trivial

/-- A program that runs no loop, and whose calls without a frame are inside one another to a bounded
depth, comes to one end. -/
lemma existsUnique_endsIn (hl : s.HasLibrary) (hm : s.FiniteModules)
    (hloop : ∀ levels, ¬ Short .rounds (program (perform 0 calls levels) body s))
    (hcalls : ∀ levels, ¬ Short .calls (program (perform 0 calls levels) body s)) :
    ∃! result, EndsIn body s result := by
  obtain ⟨levels, hlevels, -⟩ := (settles_program 0 calls body hl hm).settles
  have hend : EndsIn body s (program (perform 0 calls levels) body s) := by
    refine ⟨0, calls, levels, rfl, fun lacking => ?_⟩
    cases lacking with
    | levels => exact hlevels
    | calls => exact hcalls levels
    | rounds => exact hloop levels
  exact ⟨_, hend, fun result h => h.unique hend⟩

end

/-- **Recursion and the limit of frames.** A program that runs no loop comes to an end, in one way
only, exactly if there is a bound on the calls without a frame that are inside one another. All
other recursion meets the limit of frames. -/
theorem exists_endsIn_iff_calls_bounded (body : List Expr) (s : Session) (hl : s.HasLibrary)
    (hm : s.FiniteModules)
    (hloop : ∀ calls levels, ¬ Short .rounds (program (perform 0 calls levels) body s)) :
    (∃! result, EndsIn body s result) ↔
      ∃ calls, ∀ levels, ¬ Short .calls (program (perform 0 calls levels) body s) := by
  constructor
  · rintro ⟨_, ⟨rounds, calls, levels, rfl, hn⟩, -⟩
    refine ⟨calls, fun levels' hs => ?_⟩
    -- With more of the rest, what lacked calls still lacks them, and what ended still has.
    have hlevels : ¬ Short .levels (program (perform 0 calls levels') body s) := by
      obtain ⟨s', hs⟩ := hs
      rw [hs, short_error]
      exact fun h => by cases h
    have h₁ := program_eq_of_le_levels (Nat.zero_le rounds) (le_max_right levels levels')
      (hloop calls levels') hlevels
    have h₂ := program_eq_of_le (le_refl rounds) (le_refl calls) (le_max_left levels levels') hn
    rw [← h₁, h₂] at hs
    exact hn .calls hs
  · rintro ⟨calls, hcalls⟩
    exact existsUnique_endsIn hl hm (hloop calls) hcalls

/-- The program `f() = f(); f()`. -/
def runaway : List Expr :=
  let call : Expr := .node default (.call (.node default (.name "f")) [])
  [.node default (.function "f" ⟨[], none⟩ call false), call]

/-- A function that calls itself comes to an end at the limit of frames. -/
theorem exists_endsIn_runaway :
    (Session.initial.limitDepth 2).HasLibrary ∧ (Session.initial.limitDepth 2).FiniteModules ∧
      (∀ calls levels, ¬ Short .rounds
        (program (perform 0 calls levels) runaway (Session.initial.limitDepth 2))) ∧
      ∃! result, EndsIn runaway (Session.initial.limitDepth 2) result := by
  have hl : (Session.initial.limitDepth 2).HasLibrary := Session.hasLibrary_initial
  have hm : (Session.initial.limitDepth 2).FiniteModules := Session.finiteModules_initial
  have hnot : ∀ calls levels lacking, lacking ≠ .levels → ¬ Short lacking
      (program (perform 0 calls levels) runaway (Session.initial.limitDepth 2)) := by
    rintro calls levels lacking hlacking ⟨s, hs⟩
    match levels with
    | 0 => cases hs; exact hlacking rfl
    | 1 => cases hs; exact hlacking rfl
    | 2 => cases hs; exact hlacking rfl
    | 3 => cases hs; exact hlacking rfl
    | n + 4 => cases hs
  have hloop := fun calls levels => hnot calls levels .rounds (by decide)
  exact ⟨hl, hm, hloop, (exists_endsIn_iff_calls_bounded runaway _ hl hm hloop).mpr
    ⟨0, fun levels => hnot 0 levels .calls (by decide)⟩⟩

/-! ### A text that evaluates itself -/

/-- The expression `eval(s)`. -/
def evalCall (site callee argument : Site) : Expr :=
  .node site (.call (.node callee (.name "eval")) [.node argument (.name "s")])

/-- The name `s` stands for the text `eval(s)`, and `eval` for the function of the library. -/
structure EvaluatesItself (s : Session) : Prop where
  text : s.env.get "s" = .ok (.text "eval(s)")
  native : ∃ r, s.env.get "eval" = .ok (.native r) ∧
    s.heap.native? r = some ⟨"eval", [(.exactly 1, .eval)]⟩

/-- Noting a line changes no name. -/
lemma EvaluatesItself.mark {s : Session} (h : EvaluatesItself s) (line : Nat) :
    EvaluatesItself (s.atLine line) :=
  ⟨h.text, h.native⟩

section

variable {α β : Type} {lacking : Shortage} {s : Session}

lemma Short.bind {x : Eval α} {f : α → Eval β} (h : Short lacking (x s)) :
    Short lacking ((x >>= f) s) := by
  obtain ⟨s', h⟩ := h
  exact ⟨s', by rw [bind_apply, h]⟩

lemma Short.catchLeave {x : Eval Value} (h : Short lacking (x s)) :
    Short lacking (catchLeave x s) := by
  obtain ⟨s', h⟩ := h
  refine ⟨s', ?_⟩
  simp only [Eval.catchLeave, recover, h]
  rfl

lemma Short.program {run : Runner} {e : Expr} (h : Short lacking (run (.expr e) s)) :
    Short lacking (program run [e] s) := by
  have hseq : Short lacking (sequenceFrom run .null [e] s) := h.bind
  exact hseq.catchLeave

/-- The value of a name that stands for one. -/
lemma perform_name_of_get (rounds calls levels : Nat) (site : Site) {name : String} {v : Value}
    (h : s.env.get name = .ok v) :
    perform rounds calls (levels + 1) (.expr (.node site (.name name))) s =
      .ok v (s.atLine site.token.line) := by
  rw [perform_name, h]
  rfl

/-- What `eval` runs. -/
lemma parse_eval : ∃ site callee argument,
    parse "<eval>" "eval(s)" = .ok [evalCall site callee argument] := by
  refine ⟨⟨⟨.leftParen, "(", none, 1, "<eval>"⟩, []⟩,
    ⟨⟨.identifier, "eval", none, 1, "<eval>"⟩, []⟩,
    ⟨⟨.identifier, "s", none, 1, "<eval>"⟩, []⟩, ?_⟩
  have htokens : tokensOf "<eval>" "eval(s)" = .ok
      [⟨.identifier, "eval", none, 1, "<eval>"⟩, ⟨.leftParen, "(", none, 1, "<eval>"⟩,
        ⟨.identifier, "s", none, 1, "<eval>"⟩, ⟨.rightParen, ")", none, 1, "<eval>"⟩,
        .endOf "<eval>" 1] := rfl
  exact (parse_of_tokensOf htokens).trans rfl

end

/-- A call is the evaluation of its parts, and then the call of a value. -/
lemma perform_evalCall (rounds calls levels : Nat) (site callee argument : Site) (s : Session) :
    perform rounds calls (levels + 1) (.expr (evalCall site callee argument)) s =
      (do
        let f ← perform rounds calls levels (.expr (.node callee (.name "eval")))
        let v ← perform rounds calls levels (.expr (.node argument (.name "s")))
        mark site.token.line
        perform rounds calls levels (.call f [v]) : Eval Value) (s.atLine site.token.line) := by
  rw [perform_succ rfl]
  change (perform rounds calls levels (.expr (.node callee (.name "eval"))) >>= fun f =>
    evalArguments (perform rounds calls levels) [.node argument (.name "s")] >>= fun vs =>
      mark site.token.line >>= fun _ => perform rounds calls levels (.call f vs))
        (s.atLine site.token.line) = _
  simp only [evalArguments, bind_assoc, pure_bind]

/-- `eval` runs the text it is given. -/
lemma callValue_eval (run : Runner) {r : NativeRef} {s : Session}
    (h : s.heap.native? r = some ⟨"eval", [(.exactly 1, .eval)]⟩) (text : String) :
    callValue run (.native r) [.text text] s = inPlace run "<eval>" text s := by
  simp only [callValue, bind_apply, heap_apply, h]
  rfl

/-- However much it is given, `eval(s)` comes to nothing but `eval(s)` with less of it. -/
lemma short_evalCall (rounds calls levels : Nat) (site callee argument : Site) {s : Session}
    (h : EvaluatesItself s) : ∃ lacking, lacking ≠ .rounds ∧
      Short lacking (perform rounds calls levels (.expr (evalCall site callee argument)) s) := by
  induction levels using Nat.strong_induction_on generalizing calls site callee argument s with
  | _ levels ih =>
      match levels with
      | 0 => exact ⟨.levels, by decide, s, rfl⟩
      | 1 =>
          rw [perform_evalCall]
          exact ⟨.levels, by decide, Short.bind ⟨_, rfl⟩⟩
      | n + 2 =>
          obtain ⟨a, b, c, hparse⟩ := parse_eval
          have h₁ := h.mark site.token.line
          have h₂ := h₁.mark callee.token.line
          have h₃ := (h₂.mark argument.token.line).mark site.token.line
          obtain ⟨r, hr, hnative⟩ := h₁.native
          rw [perform_evalCall]
          simp only [bind_apply, perform_name_of_get rounds calls n callee hr,
            perform_name_of_get rounds calls n argument h₂.text, mark_apply]
          generalize hs₃ : (((s.atLine _).atLine _).atLine _).atLine _ = s₃ at h₃ ⊢
          have hn : s₃.heap.native? r = some ⟨"eval", [(.exactly 1, .eval)]⟩ := hs₃ ▸ hnative
          cases calls with
          | zero => exact ⟨.calls, by decide, _, rfl⟩
          | succ calls =>
              rw [perform_frameless_succ rfl]
              change ∃ lacking, lacking ≠ .rounds ∧ Short lacking (callValue
                (perform rounds calls n) (.native r) [.text "eval(s)"] _)
              rw [callValue_eval _ hn, inPlace, hparse]
              obtain ⟨lacking, hl, hs⟩ := ih n (by omega) calls a b c h₃
              exact ⟨lacking, hl, hs.program⟩

/-- The expression that assigns the text `eval(s)` to `s`. -/
def assignText (site text : Site) : Expr :=
  .node site (.assign "s" (.node text (.constant (.text "eval(s)"))) false)

/-- The session after the assignment. -/
def assigned (s : Session) (site text : Site) : Session :=
  let s := (s.atLine site.token.line).atLine text.token.line
  { s with env := s.env.put "s" (.text "eval(s)") }

/-- The assignment has its value, if there are levels enough. -/
lemma perform_assignText (rounds calls levels : Nat) (site text : Site) (s : Session) :
    Short .levels (perform rounds calls levels (.expr (assignText site text)) s) ∨
      perform rounds calls levels (.expr (assignText site text)) s =
        .ok (.text "eval(s)") (assigned s site text) := by
  match levels with
  | 0 => exact .inl ⟨s, rfl⟩
  | 1 => exact .inl ⟨_, rfl⟩
  | n + 2 =>
      refine .inr ?_
      rw [perform_succ rfl]
      rfl

/-- Neither does the program that first assigns the text to its name. -/
lemma short_program_evalCall (rounds calls levels : Nat) (assign text site callee argument : Site)
    {s : Session} (h : EvaluatesItself (assigned s assign text)) :
    ∃ lacking, lacking ≠ .rounds ∧ Short lacking (program (perform rounds calls levels)
      [assignText assign text, evalCall site callee argument] s) := by
  have hseq : ∃ lacking, lacking ≠ .rounds ∧ Short lacking (sequenceFrom
      (perform rounds calls levels) .null [assignText assign text, evalCall site callee argument]
      s) := by
    obtain hs | hs := perform_assignText rounds calls levels assign text s
    · exact ⟨.levels, by decide, hs.bind⟩
    · obtain ⟨lacking, hl, hcall⟩ := short_evalCall rounds calls levels site callee argument h
      rw [sequenceFrom, bind_apply, hs]
      exact ⟨lacking, hl, hcall.bind⟩
  obtain ⟨lacking, hl, hs⟩ := hseq
  exact ⟨lacking, hl, hs.catchLeave⟩

/-- The program of two lines. -/
lemma parse_assign_eval : ∃ assign text site callee argument : Site,
    parse "<test>" "s = \"eval(s)\"\neval(s)" =
      .ok [assignText assign text, evalCall site callee argument] := by
  refine ⟨⟨⟨.equal, "=", none, 1, "<test>"⟩, []⟩,
    ⟨⟨.string, "\"eval(s)\"", some (.text "eval(s)"), 1, "<test>"⟩, []⟩,
    ⟨⟨.leftParen, "(", none, 2, "<test>"⟩, []⟩,
    ⟨⟨.identifier, "eval", none, 2, "<test>"⟩, []⟩,
    ⟨⟨.identifier, "s", none, 2, "<test>"⟩, []⟩, ?_⟩
  have htokens : tokensOf "<test>" "s = \"eval(s)\"\neval(s)" = .ok
      [⟨.identifier, "s", none, 1, "<test>"⟩, ⟨.equal, "=", none, 1, "<test>"⟩,
        ⟨.string, "\"eval(s)\"", some (.text "eval(s)"), 1, "<test>"⟩,
        ⟨.separator, "\n", none, 1, "<test>"⟩, ⟨.identifier, "eval", none, 2, "<test>"⟩,
        ⟨.leftParen, "(", none, 2, "<test>"⟩, ⟨.identifier, "s", none, 2, "<test>"⟩,
        ⟨.rightParen, ")", none, 2, "<test>"⟩, .endOf "<test>" 2] := rfl
  exact (parse_of_tokensOf htokens).trans rfl

/-- **A text that evaluates itself** runs no loop and does not come to an end, although there is a
limit of ten frames. -/
theorem not_endsIn_eval_itself :
    ∃ body, parse "<test>" "s = \"eval(s)\"\neval(s)" = .ok body ∧
      (Session.initial.limitDepth 10).HasLibrary ∧ (Session.initial.limitDepth 10).FiniteModules ∧
      (∀ calls levels, ¬ Short .rounds
        (program (perform 0 calls levels) body (Session.initial.limitDepth 10))) ∧
      ¬ ∃ result, EndsIn body (Session.initial.limitDepth 10) result := by
  obtain ⟨assign, text, site, callee, argument, hparse⟩ := parse_assign_eval
  have hself : EvaluatesItself (assigned (Session.initial.limitDepth 10) assign text) :=
    ⟨rfl, ⟨35⟩, rfl, rfl⟩
  refine ⟨_, hparse, Session.hasLibrary_initial, Session.finiteModules_initial,
    fun calls levels hs => ?_, ?_⟩
  · obtain ⟨lacking, hl, s₁, hs₁⟩ :=
      short_program_evalCall 0 calls levels assign text site callee argument hself
    rw [hs₁, short_error] at hs
    cases hs
    exact hl rfl
  · rintro ⟨_, rounds, calls, levels, rfl, hn⟩
    obtain ⟨lacking, -, hs⟩ :=
      short_program_evalCall rounds calls levels assign text site callee argument hself
    exact hn lacking hs

end Eval

end Tern
