/-
Clauses. Each clause is tried in a frame of its own, so what a pattern binds before it turns out not
to fit is gone when the next clause is tried. What is left of all trials is that of the first clause
that fits.

* `Environment.bindAll`: parts of a value under their names in the innermost frame;
* `Eval.tryClause_of_fits`, `Eval.tryClause_of_misfit`: the trial of one clause;
* `Eval.runClauses_append`: clauses that do not fit might as well not be there;
* `Eval.runClauses_first_fit`: the first clause that fits is the one that runs.
-/
import Tern.Eval.Perform
import Tern.Proofs.Shapes

namespace Tern

/-- Binds parts under their names in the innermost frame, from left to right. -/
def Environment.bindAll (e : Environment) (parts : Bindings Value) : Environment :=
  parts.foldl (fun e part => e.bind part.1 part.2) e

namespace Eval

variable {run : Runner} {frame : String} {v : Value} {s : Session} {clause : Expr × Expr}
  {parts : Bindings Value}

/-- Matching in the innermost frame binds the parts of a value that fits there. -/
lemma shaped_fresh {p : Expr} (hp : p.isPlain = true) (v : Value) (s : Session) :
    Shaped (fun e part => e.bind part.1 part.2) s (s.heap.Fits p v)
      (matchPattern run .fresh p v s) :=
  shaped_matchPattern (fun _ _ _ => rfl) p v s hp

/-- The body of a clause that fits runs with the parts of the value, in the frame of the clause. -/
lemma tryClause_of_fits (hp : clause.1.isPlain = true) (hroom : s.env.depth < s.maxDepth)
    (hfits : s.heap.Fits clause.1 v parts) : tryClause run frame v clause s =
      leaveFrame ((some <$> run (.expr clause.2)) { s with
        env := (s.env.push frame clause.1.source clause.1.line).bindAll parts }) := by
  have hmatch := @shaped_fresh run clause.1 hp v
    { s with env := s.env.push frame clause.1.source clause.1.line }
  rw [tryClause, inFrame_apply _ _ _ _ hroom, bind_apply]
  generalize matchPattern run .fresh clause.1 v _ = r at hmatch
  cases hmatch with
  | fit hparts =>
      rw [hparts.unique hfits]
      rfl
  | misfit hnone => exact absurd hfits (hnone parts)

/-- A clause that does not fit leaves nothing behind. -/
lemma tryClause_of_misfit (hp : clause.1.isPlain = true) (hroom : s.env.depth < s.maxDepth)
    (hmisfit : ∀ parts, ¬ s.heap.Fits clause.1 v parts) :
    tryClause run frame v clause s = .ok none s := by
  have hmatch := @shaped_fresh run clause.1 hp v
    { s with env := s.env.push frame clause.1.source clause.1.line }
  rw [tryClause, inFrame_apply _ _ _ _ hroom, bind_apply]
  generalize matchPattern run .fresh clause.1 v _ = r at hmatch
  cases hmatch with
  | fit hparts => exact absurd hparts (hmisfit _)
  | misfit =>
      -- whatever was bound on the way went with the frame
      simp only [Bool.false_eq_true, if_false, pure_apply, leaveFrame, Environment.pop_foldl_bind]

/-- Clauses that do not fit might as well not be there. -/
lemma runClauses_append {before : List (Expr × Expr)} (hp : ∀ c ∈ before, c.1.isPlain = true)
    (hroom : s.env.depth < s.maxDepth)
    (hmisfit : ∀ c ∈ before, ∀ parts, ¬ s.heap.Fits c.1 v parts) (rest : List (Expr × Expr)) :
    runClauses run frame v (before ++ rest) s = runClauses run frame v rest s := by
  induction before with
  | nil => rfl
  | cons c before ih =>
      have htry : tryClause run frame v c s = .ok none s :=
        tryClause_of_misfit (hp c List.mem_cons_self) hroom (hmisfit c List.mem_cons_self)
      rw [List.cons_append, runClauses, bind_apply, htry]
      exact ih (fun d hd => hp d (List.mem_cons_of_mem c hd))
        fun d hd => hmisfit d (List.mem_cons_of_mem c hd)

/-- A clause that has run ends the search with its value, or with its signal. -/
lemma runClauses_cons_of_fits (hp : clause.1.isPlain = true) (hroom : s.env.depth < s.maxDepth)
    (hfits : s.heap.Fits clause.1 v parts) (rest : List (Expr × Expr)) :
    runClauses run frame v (clause :: rest) s =
      leaveFrame ((some <$> run (.expr clause.2)) { s with
        env := (s.env.push frame clause.1.source clause.1.line).bindAll parts }) := by
  rw [runClauses, bind_apply, tryClause_of_fits hp hroom hfits, map_apply]
  cases run (.expr clause.2) _ <;> rfl

/-- **The first clause that fits is the one that runs.** If the value has the shape of no pattern,
there is no result and nothing has changed. Otherwise the result is that of the first clause whose
pattern has the shape of the value: its body runs in one frame more than there were, with the parts
of the value under the names of the pattern, and the frame goes when it ends. -/
theorem runClauses_first_fit (run : Runner) (frame : String) (v : Value) (s : Session)
    (clauses : List (Expr × Expr)) (hp : ∀ c ∈ clauses, c.1.isPlain = true)
    (hroom : s.env.depth < s.maxDepth) :
    ((∀ c ∈ clauses, ∀ parts, ¬ s.heap.Fits c.1 v parts) →
      runClauses run frame v clauses s = .ok none s) ∧
    ∀ before p body after parts, clauses = before ++ (p, body) :: after →
      (∀ c ∈ before, ∀ parts, ¬ s.heap.Fits c.1 v parts) → s.heap.Fits p v parts →
      runClauses run frame v clauses s = leaveFrame ((some <$> run (.expr body)) { s with
        env := (s.env.push frame p.source p.line).bindAll parts }) := by
  refine ⟨fun hnone => ?_, ?_⟩
  · have h := @runClauses_append run frame v s clauses hp hroom hnone []
    rwa [List.append_nil] at h
  · rintro before p body after parts rfl hnone hfits
    have hbefore : ∀ c ∈ before, c.1.isPlain = true := fun c hc =>
      hp c (List.mem_append_left _ hc)
    have hfirst : p.isPlain = true :=
      hp (p, body) (List.mem_append_right _ List.mem_cons_self)
    rw [runClauses_append hbefore hroom hnone]
    exact @runClauses_cons_of_fits run frame v s (p, body) parts hfirst hroom hfits after

/-- The clauses `(a, [true]) -> a`, `(b, [_]) -> b` and `_ -> null`. -/
def overlapping : List (Expr × Expr) :=
  let name (x : String) := Expr.plain default (.name x)
  let pair (x : String) (item : Expr) :=
    Expr.plain default (.tuple [name x, .plain default (.list [item])])
  [(pair "a" (.plain default (.constant (.bool true))), name "a"),
    (pair "b" (name "_"), name "b"),
    (name "_", .plain default (.constant .null))]

/-- A session with a list `[false]`. -/
def listed : Session :=
  { Session.initial with heap := { Heap.empty with lists := #[#[.bool false]] } }

/-- The first clause binds `a` before the list turns out not to fit. The second one runs, although
the third would fit as well, and nothing of `a` and `b` is left. -/
theorem runClauses_first_fit_second :
    (∀ c ∈ overlapping, c.1.isPlain = true) ∧ listed.env.depth < listed.maxDepth ∧
    runClauses (perform 1 1 1) "<match>" (.tuple [.text "x", .list ⟨0⟩]) overlapping listed =
      leaveFrame ((some <$> perform 1 1 1 (.expr (.plain default (.name "b")))) { listed with
        env := (listed.env.push "<match>" "" 0).bindAll [("b", .text "x")] }) ∧
    runClauses (perform 1 1 1) "<match>" (.tuple [.text "x", .list ⟨0⟩]) overlapping listed =
      .ok (some (.text "x")) listed := by
  have hp : ∀ c ∈ overlapping, c.1.isPlain = true := by decide
  have hroom : listed.env.depth < listed.maxDepth := by decide
  have h := (runClauses_first_fit (perform 1 1 1) "<match>" (.tuple [.text "x", .list ⟨0⟩]) listed
    overlapping hp hroom).2 [overlapping[0]] overlapping[1].1 overlapping[1].2 [overlapping[2]]
    [("b", .text "x")] rfl ?_ ?_
  · exact ⟨hp, hroom, h, h.trans rfl⟩
  · intro c hc parts hfits
    obtain rfl := List.mem_singleton.mp hc
    cases hfits with
    | tuple hall =>
        cases hall with
        | cons _ hrest =>
            cases hrest with
            | cons hlist _ =>
                cases hlist with
                | list hitems =>
                    cases hitems with
                    | cons hitem _ =>
                        cases hitem with
                        | constant hc => cases hc
  · have hitems : listed.heap.FitsAll [.plain default (.name "_")] [.bool false] [] :=
      @Heap.FitsAll.cons _ _ _ _ _ [] [] .blank .nil
    exact .tuple (.cons (.name (by decide))
      (@Heap.FitsAll.cons _ _ _ _ _ [] [] (.list hitems) .nil))

end Eval

end Tern
