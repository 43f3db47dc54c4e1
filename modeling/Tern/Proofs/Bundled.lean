/-
The variables around the modules that are always there. Their functions are confined: each keeps all
variables of its callers as long as its callbacks do, apart from the names that it assigns itself.
Two of them assign names without declaring them, and so change a caller's variable of such a name.

* `Module.assigned`: the names that the functions assign.
* `Module.declares_iff`: the functions that these modules declare, from their lines.
* `Module.isConfined_of_declares`: all of them are confined.
* `Session.variables_after_bundled_call`: what a call of one of them keeps.
* `Session.not_variables_after_bundled_call`: a call that changes a variable.
-/
import Tern.Proofs.Confinement

namespace Tern

/-! ### The functions of the modules -/

/-- The expressions that characters spell. -/
def parseCharacters (source : String) (cs : List Char) : Except SourceError (List Expr) :=
  match collect (separated ((Scan.itemsFrom source cs.length 1 cs).map (·.token))) with
  | .error e => .error e
  | .ok tokens => parseTokens tokens

lemma parse_eq_parseCharacters (source text : String) :
    parse source text = parseCharacters source text.toList := rfl

namespace Module

/-- The names that a function of the modules that are always there assigns. -/
def assigned : String → List String
  | "zip" => ["pairs", "i"]
  | "assertThrows" => ["raised"]
  | _ => []

/-- The functions that expressions declare. -/
def declared (body : List Expr) : List FunctionDef :=
  body.filterMap fun e =>
    match e.form with
    | .function name params body _ => some ⟨name, params, body⟩
    | _ => none

/-- A function is declared by a module that is always there. -/
def Declares (code : FunctionDef) : Prop :=
  ∃ path text body, bundled? path = some text ∧ parse path text = .ok body ∧ code ∈ declared body

/-- The functions that lines declare, each line read on its own. -/
def functions (path : String) (lines : List String) : List FunctionDef :=
  match parseCharacters path (lines.flatMap fun line => line.toList ++ ['\n']) with
  | .ok body => declared body
  | .error _ => []

lemma parse_ofLines (path : String) (lines : List String) :
    parse path (ofLines lines) =
      parseCharacters path (lines.flatMap fun line => line.toList ++ ['\n']) := by
  rw [parse_eq_parseCharacters, ofLines, String.toList_join, List.flatMap_map]
  simp only [String.toList_append]
  rfl

lemma mem_functions {path : String} {lines : List String} {code : FunctionDef} :
    code ∈ functions path lines ↔
      ∃ body, parse path (ofLines lines) = .ok body ∧ code ∈ declared body := by
  rw [parse_ofLines, functions]
  cases parseCharacters path (lines.flatMap fun line => line.toList ++ ['\n']) with
  | error e => simp
  | ok body => simp

/-- There are two such modules. -/
lemma declares_iff {code : FunctionDef} : Declares code ↔
    code ∈ functions "std/functional.tern" functional ∨
      code ∈ functions "std/assert.tern" assertion := by
  rw [mem_functions, mem_functions]
  constructor
  · rintro ⟨path, text, body, htext, hbody, hcode⟩
    rw [bundled?] at htext
    split_ifs at htext with hpath hpath
    · cases htext
      subst hpath
      exact .inl ⟨body, hbody, hcode⟩
    · cases htext
      subst hpath
      exact .inr ⟨body, hbody, hcode⟩
  · rintro (⟨body, hbody, hcode⟩ | ⟨body, hbody, hcode⟩)
    · exact ⟨_, _, body, rfl, hbody, hcode⟩
    · exact ⟨_, _, body, rfl, hbody, hcode⟩

lemma isConfined_functional : ∀ code ∈ functions "std/functional.tern" functional,
    code.body.isConfined (assigned code.name) = true := by
  rw [← List.all_eq_true]
  decide +kernel

lemma isConfined_assertion : ∀ code ∈ functions "std/assert.tern" assertion,
    code.body.isConfined (assigned code.name) = true := by
  rw [← List.all_eq_true]
  decide +kernel

/-- The functions of these modules assign only the names that are listed. -/
lemma isConfined_of_declares {code : FunctionDef} (h : Declares code) :
    code.body.isConfined (assigned code.name) = true := by
  obtain h | h := declares_iff.mp h
  · exact isConfined_functional code h
  · exact isConfined_assertion code h

end Module

namespace Session

/-- A call of a function of the modules that are always there, if it comes to an end and each
callback that it makes keeps the variables of the frames that were live at the call. However it
ends, it keeps them too, apart from the names that the function itself assigns. -/
theorem variables_after_bundled_call {rounds calls levels : Nat} {s : Session} {r : FunctionRef}
    {f : Closure} {arguments : List Value} (hl : s.HasLibrary)
    (hr : s.heap.function? r = some f) (hf : Module.Declares f.code)
    (hcallbacks : ∀ m : Moment, m.isForeign (Module.assigned f.code.name) = true →
      Eval.ComesOutside (Moment.isForeign (Module.assigned f.code.name)) rounds calls levels
        (fun run => run (.call (.function r) arguments)) s m →
      m.Spares rounds s.env.depth (Module.assigned f.code.name))
    (hend : Eval.Ended (Eval.perform rounds calls levels (.call (.function r) arguments) s)) :
    ∀ height < s.env.depth, ∀ name ∉ Module.assigned f.code.name, ∀ v,
      s.env.valueAt? height name = some v →
      (s.after (Eval.perform rounds calls levels (.call (.function r) arguments))).env.valueAt?
        height name = some v :=
  Eval.retains_of_call hr (Module.isConfined_of_declares hf) hl hcallbacks hend

/-! ### A call that calls back, and a call that changes a variable -/

/-- A session with a function, in which the number ten is bound to `i`. -/
def counting (code : FunctionDef) : Session :=
  { initial with
    heap := (initial.heap.addFunction ⟨code, none⟩).2
    env := initial.env.bind "i" (.number 10) }

lemma hasLibrary_counting (code : FunctionDef) : (counting code).HasLibrary :=
  initial.heap.grows_addFunction _

lemma function?_counting (code : FunctionDef) :
    (counting code).heap.function? ⟨0⟩ = some ⟨code, none⟩ := rfl

/-- The function that evaluates a text. -/
def evalFunction : Value := (initial.env.find? "eval").getD .null

/-- Stops at all foreign calls but the evaluation of the empty text. -/
def stopping (names : List String) (m : Moment) : Option Shortage :=
  match m.task with
  | .call (.native _) [.text ""] => none
  | _ => if m.isForeign names then some .levels else none

/-- The evaluation of the empty text keeps all variables. -/
lemma spares_of_stopping {names names' : List String} {rounds d : Nat} {m : Moment}
    (hm : m.isForeign names = true) (hstop : stopping names m = none) :
    m.Spares rounds d names' := by
  obtain ⟨task, s⟩ := m
  unfold stopping at hstop
  split at hstop
  · rename_i r htask
    cases htask
    obtain ⟨f, hf, hselect⟩ := (Option.any_eq_true _ _).mp hm
    have hselect : f.select? 1 = some .eval := of_decide_eq_true hselect
    intro calls levels hend
    cases levels with
    | zero => exact absurd ⟨s, rfl⟩ (hend .levels)
    | succ levels =>
        cases calls with
        | zero => exact absurd ⟨s, rfl⟩ (hend .calls)
        | succ calls =>
            have hresult : Eval.perform rounds (calls + 1) (levels + 1)
                (.call (.native r) [.text ""]) s = .ok .null s := by
              rw [Eval.perform_frameless_succ rfl]
              simp only [Eval.step, Eval.callValue, Eval.bind_apply, Eval.heap_apply, hf,
                Eval.callNative, List.length_singleton, hselect]
              rfl
            rw [after, hresult]
            exact .refl _
  · rw [if_pos hm] at hstop
    cases hstop

/-- The result of a call of a function in such a session, stopped at foreign calls. -/
def outcome (code : FunctionDef) (arguments : List Value) : EStateM.Result Signal Session Value :=
  Eval.performOutside (Moment.isForeign (Module.assigned code.name))
    (stopping (Module.assigned code.name)) 2 3 20 (.call (.function ⟨0⟩) arguments) (counting code)

/-- If it comes to an end, its callbacks keep all variables. -/
lemma spares_of_outcome {names : List String} {code : FunctionDef} {arguments : List Value}
    (hend : Eval.Ended (outcome code arguments)) {m : Moment}
    (hm : m.isForeign (Module.assigned code.name) = true)
    (hcomes : Eval.ComesOutside (Moment.isForeign (Module.assigned code.name)) 2 3 20
      (fun run => run (.call (.function ⟨0⟩) arguments)) (counting code) m) :
    m.Spares 2 (counting code).env.depth names := by
  by_cases hstop : stopping (Module.assigned code.name) m = none
  · exact spares_of_stopping hm hstop
  · exact absurd hcomes (Eval.not_comesOutside hend hstop)

/-- Whether a call ends in a value, with zero under `i` or not. -/
def resets (code : FunctionDef) (arguments : List Value) : Option Bool :=
  match outcome code arguments with
  | .ok _ s =>
    match s.env.valueAt? 0 "i" with
    | some (.number x) => some (x == 0)
    | _ => none
  | .error _ _ => none

lemma exists_apply : ∃ code ∈ Module.functions "std/functional.tern" Module.functional,
    code.name = "apply" ∧ resets code [evalFunction, .text ""] = some false := by
  decide +kernel

lemma exists_zip : ∃ code ∈ Module.functions "std/functional.tern" Module.functional,
    code.name = "zip" ∧ resets code [.tuple [], .tuple []] = some true := by
  decide +kernel

/-- What is so of the call that is stopped is so of the call itself. -/
lemma outcome_of_resets {code : FunctionDef} {arguments : List Value} {b : Bool}
    (h : resets code arguments = some b) :
    Eval.Ended (outcome code arguments) ∧
      Eval.perform 2 3 20 (.call (.function ⟨0⟩) arguments) (counting code) =
        outcome code arguments ∧
      ∃ x, (Eval.ending (outcome code arguments)).env.valueAt? 0 "i" = some (.number x) ∧
        (x == 0) = b := by
  rw [resets] at h
  split at h
  · rename_i v s' hok
    have hend : Eval.Ended (outcome code arguments) := by
      rw [hok]
      exact fun _ => Eval.not_short_ok
    refine ⟨hend, Eval.perform_eq_of_ended hend, ?_⟩
    rw [hok]
    split at h
    · rename_i x hx
      exact ⟨x, hx, Option.some.inj h⟩
    · cases h
  · cases h

/-- A call that evaluates a text and keeps the variable `i`. -/
theorem variables_after_bundled_call_apply : ∃ code, Module.Declares code ∧ code.name = "apply" ∧
    (counting code).env.valueAt? 0 "i" = some (.number 10) ∧
    ((counting code).after (Eval.perform 2 3 20
      (.call (.function ⟨0⟩) [evalFunction, .text ""]))).env.valueAt? 0 "i" =
        some (.number 10) := by
  obtain ⟨code, hcode, hname, hresets⟩ := exists_apply
  have hdeclares := Module.declares_iff.mpr (.inl hcode)
  obtain ⟨hend, heq, -⟩ := outcome_of_resets hresets
  have hi : "i" ∉ Module.assigned code.name := by
    rw [hname]
    decide
  refine ⟨code, hdeclares, hname, rfl, ?_⟩
  exact variables_after_bundled_call (hasLibrary_counting code) (function?_counting code) hdeclares
    (fun _ hm hcomes => spares_of_outcome hend hm hcomes) (heq ▸ hend) 0
    (Environment.depth_pos _) "i" hi _ rfl

/-- Functions of these modules change variables of their callers, though their callbacks keep
them all. -/
theorem not_variables_after_bundled_call : ¬ ∀ (rounds calls levels : Nat) (s : Session)
    (r : FunctionRef) (f : Closure) (arguments : List Value), s.HasLibrary →
    s.heap.function? r = some f → Module.Declares f.code →
    (∀ m : Moment, m.isForeign (Module.assigned f.code.name) = true →
      Eval.ComesOutside (Moment.isForeign (Module.assigned f.code.name)) rounds calls levels
        (fun run => run (.call (.function r) arguments)) s m → m.Spares rounds s.env.depth []) →
    Eval.Ended (Eval.perform rounds calls levels (.call (.function r) arguments) s) →
    ∀ height < s.env.depth, ∀ name v, s.env.valueAt? height name = some v →
      (s.after (Eval.perform rounds calls levels (.call (.function r) arguments))).env.valueAt?
        height name = some v := by
  intro hall
  obtain ⟨code, hcode, -, hresets⟩ := exists_zip
  obtain ⟨hend, heq, x, hx, hzero⟩ := outcome_of_resets hresets
  have hkept := hall 2 3 20 (counting code) ⟨0⟩ ⟨code, none⟩ [.tuple [], .tuple []]
    (hasLibrary_counting code) (function?_counting code) (Module.declares_iff.mpr (.inl hcode))
    (fun _ hm hcomes => spares_of_outcome hend hm hcomes) (heq ▸ hend) 0
    (Environment.depth_pos _) "i" (.number 10) rfl
  rw [← Eval.ending_apply, heq, hx] at hkept
  -- ten would be zero
  cases hkept
  exact absurd hzero (by decide)

end Session

end Tern
