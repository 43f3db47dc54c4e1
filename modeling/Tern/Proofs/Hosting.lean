/-
Hosts. A host starts a session, has units of text run in it and calls into it, and may use the
values that it gets back. Whatever holds of a session at any time holds after each sequence of
requests.

* `HostCall`, `Request`: what a host can ask for; `Request.answer` is what it gets.
* `Hosted`: the sessions that a host can have, with the values that it has got.
* `Request.evaluation`: what is evaluated for a request, and where this starts.
* `Request.Comes`, `Request.ComesAfter`: the moments of a request.
* `Session.imported_serve`: no request makes a session forget an imported module.
-/
import Tern.Proofs.Moments

namespace Tern

/-! ### Requests -/

/-- A class that a host makes. Its native functions are operations of the host, by number. -/
structure HostClass where
  name : String
  superclass : Option ClassRef
  synthetic : Bool
  init : List (Arity × Nat)
  natives : List (String × Arity × Nat)
  fields : List (String × Field)

/-- What such a class is made of. -/
def HostClass.blueprint (c : HostClass) : Blueprint where
  name := c.name
  superclass := c.superclass
  synthetic := c.synthetic
  init := c.init.map fun f => (f.1, .host f.2)
  natives := c.natives.map fun f => (f.1, f.2.1, .host f.2.2)
  fields := c.fields

/-- The values that a value is made of. -/
def Heap.parts (h : Heap) : Value → List Value
  | .tuple items => items
  | .list r => (h.items r).toList
  | .map r => (h.entries r).keys ++ (h.entries r).values
  | .object r =>
    match h.object? r with
    | some o => .classOf o.ofClass :: (o.parent.map Value.object).toList ++ o.slots.map (·.2)
    | none => []
  | .classOf r => (((h.class? r).bind (·.superclass)).map Value.classOf).toList
  | .bound _ receiver => [receiver]
  | _ => []

/-- What a host can call. -/
inductive HostCall where
  | evaluate (e : Expr)
  | call (callee : Value) (arguments : List Value)
  | instantiate (ref : ClassRef) (arguments : List Value)
  | getMember (receiver : Value) (name : String)
  | setMember (receiver : Value) (name : String) (value : Value)
  | matchPattern (mode : Eval.BindMode) (pattern : Expr) (value : Value)
  | inPlace (source text : String)
  | lookup (name : String)
  | define (name : String) (value : Value)
  | defineNative (name : String) (overloads : List (Arity × Nat))
  | defineClass (c : HostClass)
  | newList (items : List Value)
  | newMap (pairs : List (Value × Value))
  /-- The class of a value, and the values that it is made of. -/
  | inspect (value : Value)
  | limitDepth (depth : Nat)

/-- The values that a call hands to the session. -/
def HostCall.values : HostCall → List Value
  | .call callee arguments => callee :: arguments
  | .instantiate ref arguments => .classOf ref :: arguments
  | .getMember receiver _ => [receiver]
  | .setMember receiver _ value => [receiver, value]
  | .matchPattern _ _ value => [value]
  | .define _ value => [value]
  | .defineClass c => (c.superclass.map Value.classOf).toList
  | .newList items => items
  | .newMap pairs => pairs.map (·.1) ++ pairs.map (·.2)
  | .inspect value => [value]
  | _ => []

namespace Eval

/-- Binds a native function of the host in the global frame. -/
def defineNative (name : String) (overloads : List (Arity × Nat)) : Eval Unit :=
  modify fun s =>
    let added := s.heap.addNative ⟨name, overloads.map fun f => (f.1, .host f.2)⟩
    { s with heap := added.2, env := s.env.defineGlobal name (.native added.1) }

/-- Binds a class of the host in the global frame. -/
def defineClass (c : HostClass) : Eval Unit :=
  modify fun s =>
    let added := s.heap.build c.blueprint
    { s with heap := added.2, env := s.env.defineGlobal c.name (.classOf added.1) }

end Eval

/-- Carries out a call, with a runner for its tasks, and gives the values that the host gets. -/
def HostCall.carryOut (run : Runner) : HostCall → Eval (List Value)
  | .evaluate e => ([·]) <$> run (.expr e)
  | .call callee arguments => ([·]) <$> run (.call callee arguments)
  | .instantiate ref arguments => ([·]) <$> Eval.instantiate run ref arguments
  | .getMember receiver name => ([·]) <$> Eval.getMember receiver name
  | .setMember receiver name value => (fun _ => []) <$> Eval.setMember receiver name value
  | .matchPattern mode pattern value =>
    (fun _ => []) <$> Eval.matchPattern run mode pattern value
  | .inPlace source text => ([·]) <$> Eval.inPlace run source text
  | .lookup name => return ((← get).env.find? name).toList
  | .define name value => (fun _ => []) <$> Eval.modifyEnv (·.defineGlobal name value)
  | .defineNative name overloads => (fun _ => []) <$> Eval.defineNative name overloads
  | .defineClass c => (fun _ => []) <$> Eval.defineClass c
  | .newList items => ([·]) <$> Eval.newList items.toArray
  | .newMap pairs =>
    ([·]) <$> Eval.newMap (pairs.foldl (fun entries pair => entries.insert pair.1 pair.2) [])
  | .inspect value => do
    let h ← Eval.heap
    return .classOf (h.classOf value) :: h.parts value
  | .limitDepth depth => (fun _ => []) <$> (modify (·.limitDepth depth) : Eval Unit)

/-- What a host asks of a session. -/
inductive Request where
  /-- To run a text as a unit. -/
  | source (name text : String)
  /-- To run a file as a unit. -/
  | script (path : String)
  | host (call : HostCall)

/-- The values that a request hands to the session. -/
def Request.values : Request → List Value
  | .host call => call.values
  | _ => []

/-- What a host gets from a unit. -/
def Session.unitAnswer : EStateM.Result Failure Session Value → List Value × Session
  | .ok v s => ([v], s)
  | .error _ s => ([], s)

/-- What a host gets from a call: the values of its result or the one that was raised. -/
def Session.callAnswer : EStateM.Result Signal Session (List Value) → List Value × Session
  | .ok vs s => (vs, s)
  | .error (.thrown v _) s => ([v], s)
  | .error (.leave v) s => ([v], s)
  | .error _ s => ([], s)

/-- What a host gets, and the session that is left. -/
def Request.answer : Request → Session → List Value × Session
  | .source name text, s => Session.unitAnswer (Session.evalSource name text s)
  | .script path, s => Session.unitAnswer (Session.runFile path s)
  | .host call, s => Session.callAnswer (call.carryOut Eval.run s)

namespace Session

/-- The session after a request. -/
def serve (s : Session) (r : Request) : Session := (r.answer s).2

/-- The session after requests. -/
def serveAll (s : Session) (rs : List Request) : Session := rs.foldl serve s

lemma serve_source (name text : String) (s : Session) :
    s.serve (.source name text) = s.after (evalSource name text) := by
  rw [serve, Request.answer, after]
  cases evalSource name text s <;> rfl

lemma serve_script (path : String) (s : Session) :
    s.serve (.script path) = s.after (runFile path) := by
  rw [serve, Request.answer, after]
  cases runFile path s <;> rfl

lemma serve_host (call : HostCall) (s : Session) :
    s.serve (.host call) = s.after (call.carryOut Eval.run) := by
  rw [serve, Request.answer, after]
  cases call.carryOut Eval.run s with
  | ok vs s' => rfl
  | error signal s' => cases signal <;> rfl

end Session

/-- The values that a host can name: constants, those it has got, and tuples of such. -/
inductive Known (got : List Value) : Value → Prop where
  | got {v : Value} : v ∈ got → Known got v
  | null : Known got .null
  | bool (b : Bool) : Known got (.bool b)
  | number (x : Float) : Known got (.number x)
  | text (t : String) : Known got (.text t)
  | tuple {items : List Value} : (∀ v ∈ items, Known got v) → Known got (.tuple items)

/-- The sessions that a host can have, with the values that it has got. -/
inductive Hosted : List Value → Session → Prop where
  | start (root : Option String) (files : Files) (host : Host) :
      Hosted [] { Session.initial with moduleRoot := root, files := files, host := host }
  | serve {got : List Value} {s : Session} (r : Request) : Hosted got s →
      (∀ v ∈ r.values, Known got v) → Hosted ((r.answer s).1 ++ got) (s.serve r)

/-! ### What is evaluated for a request -/

namespace Eval

/-- The evaluation of a unit: its program and, should that end in a signal, the exception that is
reported for it. -/
def unit (body : List Expr) (run : Runner) : Eval Unit :=
  recover ((fun _ => ()) <$> program run body) fun signal =>
    (fun _ => ()) <$> materialize run signal

/-- Nothing is evaluated. -/
def nothing (_ : Runner) : Eval Unit := pure ()

end Eval

namespace Session

/-- What is evaluated for a unit, and the session in which this starts. -/
def unitEvaluation (name text : String) (s : Session) : (Runner → Eval Unit) × Session :=
  match parse name text with
  | .error _ => (Eval.nothing, s)
  | .ok body => (Eval.unit body, { s with env := s.env.setFile name })

/-- The session in which a script is run. Without a directory of modules, that of the script
becomes it. -/
def forScript (s : Session) (path : String) : Session :=
  { s with sought := path :: s.sought, moduleRoot := s.moduleRoot.or (Path.parent? path) }

lemma runFile_of_read {path text : String} {s : Session} (h : s.files.read path = .ok text) :
    runFile path s = evalSource path text (s.forScript path) := by
  simp only [runFile, h, forScript]
  cases s.moduleRoot <;> rfl

lemma after_runFile_of_read {path text : String} {s : Session}
    (h : s.files.read path = .ok text) :
    s.after (runFile path) = (s.forScript path).after (evalSource path text) := by
  rw [after, after, runFile_of_read h]

lemma runFile_of_error {path : String} {e : FileError} {s : Session}
    (h : s.files.read path = .error e) :
    runFile path s = .error (.file e) { s with sought := path :: s.sought } := by
  simp only [runFile, h]

end Session

namespace Request

/-- What is evaluated for a request, and the session in which this starts. -/
def evaluation : Request → Session → (Runner → Eval Unit) × Session
  | .source name text, s => s.unitEvaluation name text
  | .script path, s =>
    match s.files.read path with
    | .error _ => (Eval.nothing, s)
    | .ok text => (s.forScript path).unitEvaluation path text
  | .host call, s => (fun run => (fun _ => ()) <$> call.carryOut run, s)

/-- A moment comes while a request is answered. -/
def Comes (r : Request) (s : Session) (m : Moment) : Prop :=
  Eval.Comes Eval.fuel Eval.fuel Eval.fuel (r.evaluation s).1 (r.evaluation s).2 m

/-- A moment comes while a request is answered, and not before another one. -/
def ComesAfter (r : Request) (s : Session) (m m' : Moment) : Prop :=
  Eval.ComesAfter Eval.fuel Eval.fuel Eval.fuel (r.evaluation s).1 (r.evaluation s).2 m m'

end Request

lemma Eval.ofTasks_unit (body : List Expr) : Eval.OfTasks (Eval.unit body) := by
  refine Eval.ofTasks_of_serves fun {ι L run s} hs => ?_
  refine L.recover (Logic.map _ (Logic.program body hs.task fun _ _ => trivial))
    (fun _ _ => rfl) fun signal s' ha hl => ?_
  exact Logic.map _ (Logic.materialize signal ha (hs.later hl) fun _ _ => trivial)

lemma HostCall.ofTasks_carryOut (call : HostCall) : Eval.OfTasks fun run => call.carryOut run := by
  cases call with
  | evaluate e => exact .map _ (Eval.ofTasks_task _)
  | call callee arguments => exact .map _ (Eval.ofTasks_task _)
  | instantiate ref arguments =>
      exact .map _ (Eval.ofTasks_of_serves fun hs =>
        Logic.instantiate ref arguments hs (fun _ => trivial) fun _ _ hl _ _ => hs.task.later hl)
  | getMember receiver name => exact .map _ (Eval.ofTasks_local (.getMember receiver name))
  | setMember receiver name value =>
      exact .map _ (Eval.ofTasks_local (.setMember receiver name value))
  | matchPattern mode pattern value =>
      exact .map _ (Eval.ofTasks_of_serves fun hs =>
        Logic.matchPattern mode pattern value hs.task fun _ _ => trivial)
  | inPlace source text =>
      exact .map _ (Eval.ofTasks_of_serves fun hs =>
        Logic.inPlace source text hs.task fun _ => trivial)
  | lookup name => exact Eval.ofTasks_local (.bind .get fun _ => .pure _)
  | define name value => exact .map _ (Eval.ofTasks_const fun s => s.onward_env _)
  | defineNative name overloads =>
      exact .map _ (Eval.ofTasks_const fun s => ⟨fun _ h => h, rfl, rfl⟩)
  | defineClass c => exact .map _ (Eval.ofTasks_const fun s => ⟨fun _ h => h, rfl, rfl⟩)
  | newList items => exact .map _ (Eval.ofTasks_local (.newList _))
  | newMap pairs => exact .map _ (Eval.ofTasks_local (.newMap _))
  | inspect value =>
      simp only [HostCall.carryOut]
      exact Eval.ofTasks_local (.bind .heap fun _ => .pure _)
  | limitDepth depth => exact .map _ (Eval.ofTasks_const fun s => ⟨fun _ h => h, rfl, rfl⟩)

namespace Session

lemma ofTasks_unitEvaluation (name text : String) (s : Session) :
    Eval.OfTasks (s.unitEvaluation name text).1 := by
  unfold unitEvaluation
  cases parse name text with
  | error e => exact Eval.ofTasks_local (.pure ())
  | ok body => exact Eval.ofTasks_unit body

/-- The report of a signal goes on from where the exception was built. -/
lemma onward_report (signal : Signal) (s : Session) :
    (s.after (Eval.materialize Eval.run signal)).Onward (report signal s).2 := by
  rw [after, report]
  cases Eval.materialize Eval.run signal s with
  | error signal' s' => cases signal' <;> exact .refl s'
  | ok raised s' =>
      have hd := beside_describe raised.1 { s' with env := s'.env.pushSnapshot raised.2 }
      exact ⟨hd.imported.symm ▸ fun _ h => h, hd.moduleRoot, hd.files⟩

/-- The session at the end of the evaluation of a unit. -/
lemma after_unit (body : List Expr) (run : Runner) (s : Session) :
    s.after (Eval.unit body run) = match Eval.program run body s with
      | .ok _ s' => s'
      | .error signal s' => s'.after (Eval.materialize run signal) := by
  rw [after, Eval.unit, Eval.recover, Eval.map_apply]
  cases Eval.program run body s with
  | ok v s' => rfl
  | error signal s' =>
      simp only [after, Eval.map_apply]
      cases Eval.materialize run signal s' <;> rfl

/-- A unit leaves a session that is onward from the end of its evaluation. -/
lemma onward_after_unit (name text : String) (s : Session) :
    ((s.unitEvaluation name text).2.after ((s.unitEvaluation name text).1 Eval.run)).Onward
      (s.after (evalSource name text)) := by
  unfold unitEvaluation
  cases hp : parse name text with
  | error e =>
      rw [after, after, evalSource, hp]
      exact .refl s
  | ok body =>
      rw [after_unit, after, evalSource, hp]
      cases h : Eval.program Eval.run body { s with env := s.env.setFile name } with
      | ok v s' => simpa only [h] using s'.onward_env _
      | error signal s' => simpa only [h] using (onward_report signal s').trans (onward_env _ _)

end Session

namespace Request

variable (r : Request) (s : Session)

lemma ofTasks_evaluation : Eval.OfTasks (r.evaluation s).1 := by
  cases r with
  | source name text => exact s.ofTasks_unitEvaluation name text
  | script path =>
      simp only [evaluation]
      cases s.files.read path with
      | error e => exact Eval.ofTasks_local (.pure ())
      | ok text => exact (s.forScript path).ofTasks_unitEvaluation path text
  | host call => exact call.ofTasks_carryOut.map _

/-- The answer leaves a session that is onward from the end of the evaluation. -/
lemma onward_after_evaluation :
    ((r.evaluation s).2.after ((r.evaluation s).1 Eval.run)).Onward (s.serve r) := by
  cases r with
  | source name text =>
      rw [Session.serve_source]
      exact Session.onward_after_unit name text s
  | script path =>
      rw [Session.serve_script]
      simp only [evaluation]
      cases h : s.files.read path with
      | error e =>
          rw [Session.after, Session.after, Session.runFile_of_error h]
          exact ⟨fun _ h => h, rfl, rfl⟩
      | ok text =>
          rw [Session.after_runFile_of_read h]
          exact Session.onward_after_unit path text (s.forScript path)
  | host call =>
      have hmap : s.after ((fun _ => ()) <$> call.carryOut Eval.run) =
          s.after (call.carryOut Eval.run) := by
        rw [Session.after, Session.after, Eval.map_apply]
        cases call.carryOut Eval.run s <;> rfl
      rw [Session.serve_host, ← hmap]
      exact .refl _

/-- The answer leaves a session that is onward from the start of the evaluation. -/
lemma onward_evaluation : (r.evaluation s).2.Onward (s.serve r) :=
  ((r.ofTasks_evaluation s).onward _ _ _ _).trans (r.onward_after_evaluation s)

lemma imported_evaluation : (r.evaluation s).2.imported = s.imported := by
  cases r with
  | source name text =>
      simp only [evaluation, Session.unitEvaluation]
      cases parse name text <;> rfl
  | script path =>
      simp only [evaluation]
      cases s.files.read path with
      | error e => rfl
      | ok text =>
          simp only [Session.unitEvaluation]
          cases parse path text <;> rfl
  | host call => rfl

end Request

namespace Session

/-- No request makes a session forget a module. -/
theorem imported_serve (r : Request) (s : Session) : s.imported ⊆ (s.serve r).imported := by
  rw [← r.imported_evaluation s]
  exact (r.onward_evaluation s).imported

/-- Nor do several. -/
theorem imported_serveAll (rs : List Request) (s : Session) :
    s.imported ⊆ (s.serveAll rs).imported := by
  induction rs generalizing s with
  | nil => exact fun _ h => h
  | cons r rs ih => exact List.Subset.trans (imported_serve r s) (ih (s.serve r))

end Session

end Tern
