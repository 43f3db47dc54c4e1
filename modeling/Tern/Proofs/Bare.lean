/-
Trees, cells and sessions without their positions. A tree keeps a token in every node, a frame the
file and the line at which it stands, and a failure the trace of the frames it went through. What
is left when all these are taken away is called bare.

* `Expr.bare`, `Heap.bare`, `Session.bare`, `Signal.bare`: the bare forms.
* `Expr.Like`: trees that differ in their tokens at most.
* `Form.Like`: the same for forms, one case for each; `Expr.Like.form` opens two trees that are
  alike together.
-/
import Mathlib.Data.List.Forall2
import Mathlib.Tactic
import Tern.Eval.Basic
import Tern.Proofs.Relabel

namespace Tern

/-! ### Trees -/

/-- A tree without its tokens. -/
def Expr.bare (e : Expr) : Expr := e.mapTokens fun _ => default

/-- Trees that differ in their tokens at most. -/
def Expr.Like (e e' : Expr) : Prop := e'.bare = e.bare

lemma Expr.Like.refl (e : Expr) : e.Like e := rfl

/-- Pairs of trees that differ in their tokens at most. -/
def Expr.PairLike (c c' : Expr × Expr) : Prop := c.1.Like c'.1 ∧ c.2.Like c'.2

/-- Members of classes that differ in their tokens at most. -/
inductive Member.Like : Member → Member → Prop
  | method (name : String) (params : Params) {body body' : Expr} (h : body.Like body') :
      Like (.method name params body) (.method name params body')
  | field (name : String) : Like (.field name) (.field name)
  | fieldWith (name : String) {e e' : Expr} (h : e.Like e') :
      Like (.fieldWith name e) (.fieldWith name e')

/-- Forms that differ in the tokens inside them at most. -/
inductive Form.Like : Form → Form → Prop
  | constant (c : Constant) : Like (.constant c) (.constant c)
  | name (name : String) : Like (.name name) (.name name)
  | group {e e' : Expr} (h : e.Like e') : Like (.group e) (.group e')
  | tuple {es es' : List Expr} (h : es.Forall₂ Expr.Like es') : Like (.tuple es) (.tuple es')
  | list {es es' : List Expr} (h : es.Forall₂ Expr.Like es') : Like (.list es) (.list es')
  | map {cs cs' : List (Expr × Expr)} (h : cs.Forall₂ Expr.PairLike cs') :
      Like (.map cs) (.map cs')
  | pair {a b a' b' : Expr} (ha : a.Like a') (hb : b.Like b') : Like (.pair a b) (.pair a' b')
  | unary (op : UnaryOp) {e e' : Expr} (h : e.Like e') : Like (.unary op e) (.unary op e')
  | binary (op : BinaryOp) {a b a' b' : Expr} (ha : a.Like a') (hb : b.Like b') :
      Like (.binary op a b) (.binary op a' b')
  | logical (op : LogicalOp) {a b a' b' : Expr} (ha : a.Like a') (hb : b.Like b') :
      Like (.logical op a b) (.logical op a' b')
  | assign (name : String) (declare : Bool) {e e' : Expr} (h : e.Like e') :
      Like (.assign name e declare) (.assign name e' declare)
  | destructure {a b a' b' : Expr} (ha : a.Like a') (hb : b.Like b') :
      Like (.destructure a b) (.destructure a' b')
  | index {a b a' b' : Expr} (ha : a.Like a') (hb : b.Like b') : Like (.index a b) (.index a' b')
  | setIndex {a b c a' b' c' : Expr} (ha : a.Like a') (hb : b.Like b') (hc : c.Like c') :
      Like (.setIndex a b c) (.setIndex a' b' c')
  | member (name : String) (safe : Bool) {e e' : Expr} (h : e.Like e') :
      Like (.member e name safe) (.member e' name safe)
  | setMember (name : String) {a b a' b' : Expr} (ha : a.Like a') (hb : b.Like b') :
      Like (.setMember a name b) (.setMember a' name b')
  | call {e e' : Expr} {es es' : List Expr} (h : e.Like e') (hs : es.Forall₂ Expr.Like es') :
      Like (.call e es) (.call e' es')
  | spread {e e' : Expr} (h : e.Like e') : Like (.spread e) (.spread e')
  | function (name : String) (params : Params) (declare : Bool) {e e' : Expr} (h : e.Like e') :
      Like (.function name params e declare) (.function name params e' declare)
  | lambda (params : Params) {e e' : Expr} (h : e.Like e') :
      Like (.lambda params e) (.lambda params e')
  | block {es es' : List Expr} (h : es.Forall₂ Expr.Like es') : Like (.block es) (.block es')
  | branch {a b a' b' : Expr} (ha : a.Like a') (hb : b.Like b') :
      Like (.branch a b) (.branch a' b')
  | branchElse {a b c a' b' c' : Expr} (ha : a.Like a') (hb : b.Like b') (hc : c.Like c') :
      Like (.branchElse a b c) (.branchElse a' b' c')
  | whileLoop {a b a' b' : Expr} (ha : a.Like a') (hb : b.Like b') :
      Like (.whileLoop a b) (.whileLoop a' b')
  | forLoop {a b c a' b' c' : Expr} (ha : a.Like a') (hb : b.Like b') (hc : c.Like c') :
      Like (.forLoop a b c) (.forLoop a' b' c')
  | matching {e e' : Expr} {cs cs' : List (Expr × Expr)} (h : e.Like e')
      (hs : cs.Forall₂ Expr.PairLike cs') : Like (.matching e cs) (.matching e' cs')
  | attempt {e e' : Expr} {cs cs' : List (Expr × Expr)} (h : e.Like e')
      (hs : cs.Forall₂ Expr.PairLike cs') : Like (.attempt e cs) (.attempt e' cs')
  | raise {e e' : Expr} (h : e.Like e') : Like (.raise e) (.raise e')
  | leave : Like .leave .leave
  | leaveWith {e e' : Expr} (h : e.Like e') : Like (.leaveWith e) (.leaveWith e')
  | classDef (name : String) (superclass : Option String) {ms ms' : List Member}
      (h : ms.Forall₂ Member.Like ms') :
      Like (.classDef name superclass ms) (.classDef name superclass ms')
  | importing (path : List String) : Like (.importing path) (.importing path)

/-- Lists that a function maps to the same list agree item by item. -/
lemma forall₂_of_map_eq {α β : Type} {f : α → β} {R : α → α → Prop}
    (hR : ∀ {a a'}, f a' = f a → R a a') {as as' : List α} (h : as'.map f = as.map f) :
    as.Forall₂ R as' := by
  induction as generalizing as' with
  | nil =>
      rw [List.map_eq_nil_iff.mp h]
      exact .nil
  | cons a as ih =>
      obtain ⟨a', rest, rfl, ha, hrest⟩ := List.map_eq_cons_iff.mp h
      exact .cons (hR ha) (ih hrest)

lemma Expr.forall₂_like {es es' : List Expr}
    (h : mapItems (fun _ => default) es' = mapItems (fun _ => default) es) :
    es.Forall₂ Expr.Like es' := by
  rw [mapItems_eq_map, mapItems_eq_map] at h
  exact forall₂_of_map_eq id h

lemma Expr.forall₂_pairLike {cs cs' : List (Expr × Expr)}
    (h : mapPairs (fun _ => default) cs' = mapPairs (fun _ => default) cs) :
    cs.Forall₂ Expr.PairLike cs' := by
  rw [mapPairs_eq_map, mapPairs_eq_map] at h
  exact forall₂_of_map_eq (fun hc => Prod.ext_iff.mp hc) h

lemma Member.like_of_bare {m m' : Member}
    (h : m'.mapTokens (fun _ => default) = m.mapTokens fun _ => default) : m.Like m' := by
  cases m <;> cases m' <;> injection h
  case method.method hname hparams hbody =>
    subst hname hparams
    exact .method _ _ hbody
  case field.field hname =>
    subst hname
    exact .field _
  case fieldWith.fieldWith hname hdefault =>
    subst hname
    exact .fieldWith _ hdefault

lemma Member.forall₂_like {ms ms' : List Member}
    (h : mapMembers (fun _ => default) ms' = mapMembers (fun _ => default) ms) :
    ms.Forall₂ Member.Like ms' := by
  rw [mapMembers_eq_map, mapMembers_eq_map] at h
  exact forall₂_of_map_eq Member.like_of_bare h

/-- Forms with the same bare form are alike. -/
theorem Form.like_of_bare {form form' : Form}
    (h : form'.mapTokens (fun _ => default) = form.mapTokens fun _ => default) :
    form.Like form' := by
  cases form <;> cases form' <;> injection h
  case constant.constant hc =>
    subst hc
    exact .constant _
  case name.name hname =>
    subst hname
    exact .name _
  case group.group h => exact .group h
  case tuple.tuple h => exact .tuple (Expr.forall₂_like h)
  case list.list h => exact .list (Expr.forall₂_like h)
  case map.map h => exact .map (Expr.forall₂_pairLike h)
  case pair.pair ha hb => exact .pair ha hb
  case unary.unary hop h =>
    subst hop
    exact .unary _ h
  case binary.binary hop ha hb =>
    subst hop
    exact .binary _ ha hb
  case logical.logical hop ha hb =>
    subst hop
    exact .logical _ ha hb
  case assign.assign hname h hdeclare =>
    subst hname hdeclare
    exact .assign _ _ h
  case destructure.destructure ha hb => exact .destructure ha hb
  case index.index ha hb => exact .index ha hb
  case setIndex.setIndex ha hb hc => exact .setIndex ha hb hc
  case member.member h hname hsafe =>
    subst hname hsafe
    exact .member _ _ h
  case setMember.setMember ha hname hb =>
    subst hname
    exact .setMember _ ha hb
  case call.call h hs => exact .call h (Expr.forall₂_like hs)
  case spread.spread h => exact .spread h
  case function.function hname hparams h hdeclare =>
    subst hname hparams hdeclare
    exact .function _ _ _ h
  case lambda.lambda hparams h =>
    subst hparams
    exact .lambda _ h
  case block.block h => exact .block (Expr.forall₂_like h)
  case branch.branch ha hb => exact .branch ha hb
  case branchElse.branchElse ha hb hc => exact .branchElse ha hb hc
  case whileLoop.whileLoop ha hb => exact .whileLoop ha hb
  case forLoop.forLoop ha hb hc => exact .forLoop ha hb hc
  case matching.matching h hs => exact .matching h (Expr.forall₂_pairLike hs)
  case attempt.attempt h hs => exact .attempt h (Expr.forall₂_pairLike hs)
  case raise.raise h => exact .raise h
  case leave.leave => exact .leave
  case leaveWith.leaveWith h => exact .leaveWith h
  case classDef.classDef hname hsuper h =>
    subst hname hsuper
    exact .classDef _ _ (Member.forall₂_like h)
  case importing.importing hpath =>
    subst hpath
    exact .importing _

/-- Trees that are alike have the same annotations, and forms that are alike. -/
lemma Expr.Like.form {site site' : Site} {form form' : Form}
    (h : (Expr.node site form).Like (.node site' form')) :
    site'.annotations = site.annotations ∧ form.Like form' := by
  injection h with hsite hform
  exact ⟨(Site.mk.inj hsite).2, Form.like_of_bare hform⟩

lemma Expr.Like.declares {e e' : Expr} (h : e.Like e') : e'.declares = e.declares := by
  have hbare : e'.bare.declares = e.bare.declares := congrArg Expr.declares h
  rwa [Expr.bare, Expr.bare, declares_mapTokens, declares_mapTokens] at hbare

/-! ### Cells -/

/-- What a function does, without the tokens of its body. -/
def FunctionDef.bare (f : FunctionDef) : FunctionDef := { f with body := f.body.bare }

/-- A function without the tokens of its body. -/
def Closure.bare (f : Closure) : Closure := { f with code := f.code.bare }

/-- A function of a class without the tokens of its body. -/
def Method.bare : Method → Method
  | .user code => .user code.bare
  | .native ref => .native ref

/-- A field without the tokens of its default. -/
def Field.bare : Field → Field
  | .slot default => .slot (default.map Expr.bare)
  | .computed getter => .computed getter

/-- A class without the tokens inside its members. -/
def Class.bare (c : Class) : Class :=
  { c with
    methods := c.methods.map (Prod.map id Method.bare)
    fields := c.fields.map (Prod.map id Field.bare) }

/-- A heap without the tokens inside its classes and functions. -/
def Heap.bare (h : Heap) : Heap :=
  { h with classes := h.classes.map Class.bare, functions := h.functions.map Closure.bare }

/-! ### Sessions -/

/-- A frame without the place at which it stands. -/
def Frame.bare (f : Frame) : Frame := { f with file := "", line := 0 }

/-- An environment without places: neither those of its frames nor those in the traces of the
failures that are being handled. -/
def Environment.bare (e : Environment) : Environment :=
  { top := e.top.bare
    below := e.below.map Frame.bare
    snapshots := e.snapshots.map fun _ => [] }

/-- A session without places and tokens, and without the host that it is run by. -/
def Session.bare (s : Session) : Session :=
  { s with heap := s.heap.bare, env := s.env.bare, host := .idle }

/-- A signal without its trace. -/
def Signal.bare : Signal → Signal
  | .fault cause _ => .fault cause []
  | .thrown value _ => .thrown value []
  | .leave value => .leave value
  | .fatal error => .fatal error
  | .outOfFuel lacking => .outOfFuel lacking

/-- The end of a run without places, tokens and traces. -/
def Eval.bareResult {α : Type} :
    EStateM.Result Signal Session α → EStateM.Result Signal Session α
  | .ok a s => .ok a s.bare
  | .error signal s => .error signal.bare s.bare

end Tern
