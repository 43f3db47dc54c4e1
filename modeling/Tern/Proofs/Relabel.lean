/-
Trees under a change of their tokens. A node keeps the token that introduced it, and nothing that is
built from trees depends on more of it than its kind, its text and its value. So trees whose tokens
are changed without touching these are built in the same way.

* `Expr.mapTokens`: a tree with all its tokens changed.
* `Token.Faithful`: a change of tokens that leaves kind, text and value.
* `Expr.print_mapTokens`: a printed tree does not show its tokens.
* `assignment_mapTokens`, `lambdaParams_mapTokens` and the like: what the parser makes of trees.
-/
import Mathlib.Tactic
import Tern.Expr.Parser
import Tern.Expr.Printer

namespace Tern

/-- A change of tokens that leaves what a parser reads off them. -/
structure Token.Faithful (f : Token → Token) : Prop where
  kind : ∀ t, (f t).kind = t.kind
  lexeme : ∀ t, (f t).lexeme = t.lexeme
  literal : ∀ t, (f t).literal = t.literal

lemma Token.Faithful.id : Token.Faithful id := ⟨fun _ => rfl, fun _ => rfl, fun _ => rfl⟩

mutual

/-- A tree with its tokens changed. -/
def Expr.mapTokens (f : Token → Token) : Expr → Expr
  | .node site form => .node { site with token := f site.token } (form.mapTokens f)

/-- A form with the tokens inside it changed. -/
def Form.mapTokens (f : Token → Token) : Form → Form
  | .constant c => .constant c
  | .name name => .name name
  | .group inner => .group (inner.mapTokens f)
  | .tuple items => .tuple (mapItems f items)
  | .list items => .list (mapItems f items)
  | .map entries => .map (mapPairs f entries)
  | .pair left right => .pair (left.mapTokens f) (right.mapTokens f)
  | .unary op operand => .unary op (operand.mapTokens f)
  | .binary op left right => .binary op (left.mapTokens f) (right.mapTokens f)
  | .logical op left right => .logical op (left.mapTokens f) (right.mapTokens f)
  | .assign name value declare => .assign name (value.mapTokens f) declare
  | .destructure pattern value => .destructure (pattern.mapTokens f) (value.mapTokens f)
  | .index target index => .index (target.mapTokens f) (index.mapTokens f)
  | .setIndex target index value =>
    .setIndex (target.mapTokens f) (index.mapTokens f) (value.mapTokens f)
  | .member object name safe => .member (object.mapTokens f) name safe
  | .setMember object name value => .setMember (object.mapTokens f) name (value.mapTokens f)
  | .call callee arguments => .call (callee.mapTokens f) (mapItems f arguments)
  | .spread inner => .spread (inner.mapTokens f)
  | .function name params body declare => .function name params (body.mapTokens f) declare
  | .lambda params body => .lambda params (body.mapTokens f)
  | .block body => .block (mapItems f body)
  | .branch condition yes => .branch (condition.mapTokens f) (yes.mapTokens f)
  | .branchElse condition yes no =>
    .branchElse (condition.mapTokens f) (yes.mapTokens f) (no.mapTokens f)
  | .whileLoop condition body => .whileLoop (condition.mapTokens f) (body.mapTokens f)
  | .forLoop pattern iterable body =>
    .forLoop (pattern.mapTokens f) (iterable.mapTokens f) (body.mapTokens f)
  | .matching scrutinee clauses => .matching (scrutinee.mapTokens f) (mapPairs f clauses)
  | .attempt body clauses => .attempt (body.mapTokens f) (mapPairs f clauses)
  | .raise value => .raise (value.mapTokens f)
  | .leave => .leave
  | .leaveWith value => .leaveWith (value.mapTokens f)
  | .classDef name superclass members => .classDef name superclass (mapMembers f members)
  | .importing path => .importing path

/-- Trees in a row with their tokens changed. -/
def mapItems (f : Token → Token) : List Expr → List Expr
  | [] => []
  | e :: rest => e.mapTokens f :: mapItems f rest

/-- Pairs of trees with their tokens changed. -/
def mapPairs (f : Token → Token) : List (Expr × Expr) → List (Expr × Expr)
  | [] => []
  | (e, e') :: rest => (e.mapTokens f, e'.mapTokens f) :: mapPairs f rest

/-- The members of a class with the tokens inside them changed. -/
def mapMembers (f : Token → Token) : List Member → List Member
  | [] => []
  | m :: rest => m.mapTokens f :: mapMembers f rest

/-- A member of a class with the tokens inside it changed. -/
def Member.mapTokens (f : Token → Token) : Member → Member
  | .method name params body => .method name params (body.mapTokens f)
  | .field name => .field name
  | .fieldWith name default => .fieldWith name (default.mapTokens f)

end

mutual

/-- A tree whose tokens stay is the same. -/
theorem Expr.mapTokens_id : ∀ e : Expr, e.mapTokens id = e
  | .node site form => by rw [Expr.mapTokens, Form.mapTokens_id form, id]

theorem Form.mapTokens_id (form : Form) : form.mapTokens id = form := by
  cases form <;> simp only [Form.mapTokens, Expr.mapTokens_id, mapItems_id, mapPairs_id,
    mapMembers_id]

theorem mapItems_id : ∀ es : List Expr, mapItems id es = es
  | [] => rfl
  | e :: rest => by rw [mapItems, Expr.mapTokens_id e, mapItems_id rest]

theorem mapPairs_id : ∀ es : List (Expr × Expr), mapPairs id es = es
  | [] => rfl
  | (e, e') :: rest => by
    rw [mapPairs, Expr.mapTokens_id e, Expr.mapTokens_id e', mapPairs_id rest]

theorem mapMembers_id : ∀ ms : List Member, mapMembers id ms = ms
  | [] => rfl
  | m :: rest => by rw [mapMembers, Member.mapTokens_id m, mapMembers_id rest]

theorem Member.mapTokens_id (m : Member) : m.mapTokens id = m := by
  cases m <;> simp only [Member.mapTokens, Expr.mapTokens_id]

end

variable {f : Token → Token}

@[simp]
lemma mapItems_eq_map (es : List Expr) : mapItems f es = es.map (·.mapTokens f) := by
  induction es with
  | nil => rfl
  | cons e rest ih => rw [mapItems, ih, List.map_cons]

@[simp]
lemma mapPairs_eq_map (ps : List (Expr × Expr)) :
    mapPairs f ps = ps.map (Prod.map (·.mapTokens f) (·.mapTokens f)) := by
  induction ps with
  | nil => rfl
  | cons p rest ih =>
      obtain ⟨e, e'⟩ := p
      rw [mapPairs, ih, List.map_cons, Prod.map_apply]

@[simp]
lemma mapMembers_eq_map (ms : List Member) : mapMembers f ms = ms.map (·.mapTokens f) := by
  induction ms with
  | nil => rfl
  | cons m rest ih => rw [mapMembers, ih, List.map_cons]

namespace Expr

@[simp]
lemma token_mapTokens (e : Expr) : (e.mapTokens f).token = f e.token := by
  obtain ⟨site, form⟩ := e
  rfl

@[simp]
lemma declares_mapTokens (e : Expr) : (e.mapTokens f).declares = e.declares := by
  obtain ⟨site, form⟩ := e
  rfl

@[simp]
lemma mapTokens_plain (token : Token) (form : Form) :
    (plain token form).mapTokens f = plain (f token) (form.mapTokens f) := by
  rw [plain, mapTokens, plain]

@[simp]
lemma mapTokens_annotate (mark : String) (e : Expr) :
    (e.annotate mark).mapTokens f = (e.mapTokens f).annotate mark := by
  obtain ⟨site, form⟩ := e
  simp only [annotate, mapTokens]

/-- A bare name stays one, and nothing else becomes one. -/
@[simp]
lemma asName?_mapTokens (e : Expr) : (e.mapTokens f).asName? = e.asName? := by
  obtain ⟨site, form⟩ := e
  cases form <;> rfl

@[simp]
lemma ungroup_mapTokens (e : Expr) : (e.mapTokens f).ungroup = e.ungroup.mapTokens f := by
  obtain ⟨site, form⟩ := e
  cases form <;> rfl

@[simp]
lemma isCompoundTarget_mapTokens (e : Expr) :
    (e.mapTokens f).isCompoundTarget = e.isCompoundTarget := by
  obtain ⟨site, form⟩ := e
  cases form with
  | member object name safe => cases safe <;> rfl
  | _ => rfl

end Expr

/-! ### Printed trees -/

section Print

mutual

/-- A printed tree does not show its tokens. -/
theorem Expr.print_mapTokens (f : Token → Token) : ∀ e : Expr, (e.mapTokens f).print = e.print
  | .node site form => by
    rw [Expr.mapTokens, Expr.print, Expr.print, Form.print_mapTokens f form]
    rfl

theorem Form.print_mapTokens (f : Token → Token) : ∀ form : Form,
    (form.mapTokens f).print = form.print
  | .constant c => rfl
  | .name name => rfl
  | .group inner => by simp only [Form.mapTokens, Form.print, Expr.print_mapTokens f inner]
  | .tuple items => by simp only [Form.mapTokens, Form.print, printItems_mapItems f items]
  | .list items => by simp only [Form.mapTokens, Form.print, printItems_mapItems f items]
  | .map entries => by simp only [Form.mapTokens, Form.print, printEntries_mapPairs f entries]
  | .pair left right => by
    simp only [Form.mapTokens, Form.print, Expr.print_mapTokens f left,
      Expr.print_mapTokens f right]
  | .unary op operand => by simp only [Form.mapTokens, Form.print, Expr.print_mapTokens f operand]
  | .binary op left right => by
    simp only [Form.mapTokens, Form.print, Expr.print_mapTokens f left,
      Expr.print_mapTokens f right]
  | .logical op left right => by
    simp only [Form.mapTokens, Form.print, Expr.print_mapTokens f left,
      Expr.print_mapTokens f right]
  | .assign name value declare => by
    simp only [Form.mapTokens, Form.print, Expr.print_mapTokens f value]
  | .destructure pattern value => by
    simp only [Form.mapTokens, Form.print, Expr.print_mapTokens f pattern,
      Expr.print_mapTokens f value]
  | .index target index => by
    simp only [Form.mapTokens, Form.print, Expr.print_mapTokens f target,
      Expr.print_mapTokens f index]
  | .setIndex target index value => by
    simp only [Form.mapTokens, Form.print, Expr.print_mapTokens f target,
      Expr.print_mapTokens f index, Expr.print_mapTokens f value]
  | .member object name safe => by
    simp only [Form.mapTokens, Form.print, Expr.print_mapTokens f object]
  | .setMember object name value => by
    simp only [Form.mapTokens, Form.print, Expr.print_mapTokens f object,
      Expr.print_mapTokens f value]
  | .call callee arguments => by
    simp only [Form.mapTokens, Form.print, Expr.print_mapTokens f callee,
      printItems_mapItems f arguments]
  | .spread inner => by simp only [Form.mapTokens, Form.print, Expr.print_mapTokens f inner]
  | .function name params body declare => by
    simp only [Form.mapTokens, Form.print, Expr.print_mapTokens f body]
  | .lambda params body => by simp only [Form.mapTokens, Form.print, Expr.print_mapTokens f body]
  | .block body => by simp only [Form.mapTokens, Form.print, printItems_mapItems f body]
  | .branch condition yes => by
    simp only [Form.mapTokens, Form.print, Expr.print_mapTokens f condition,
      Expr.print_mapTokens f yes]
  | .branchElse condition yes no => by
    simp only [Form.mapTokens, Form.print, Expr.print_mapTokens f condition,
      Expr.print_mapTokens f yes, Expr.print_mapTokens f no]
  | .whileLoop condition body => by
    simp only [Form.mapTokens, Form.print, Expr.print_mapTokens f condition,
      Expr.print_mapTokens f body]
  | .forLoop pattern iterable body => by
    simp only [Form.mapTokens, Form.print, Expr.print_mapTokens f pattern,
      Expr.print_mapTokens f iterable, Expr.print_mapTokens f body]
  | .matching scrutinee clauses => by
    simp only [Form.mapTokens, Form.print, Expr.print_mapTokens f scrutinee,
      printClauses_mapPairs f clauses]
  | .attempt body clauses => by
    simp only [Form.mapTokens, Form.print, Expr.print_mapTokens f body,
      printClauses_mapPairs f clauses]
  | .raise value => by simp only [Form.mapTokens, Form.print, Expr.print_mapTokens f value]
  | .leave => rfl
  | .leaveWith value => by simp only [Form.mapTokens, Form.print, Expr.print_mapTokens f value]
  | .classDef name superclass members => by
    simp only [Form.mapTokens, Form.print, printMembers_mapMembers f members]
  | .importing path => rfl

theorem printItems_mapItems (f : Token → Token) : ∀ es : List Expr,
    printItems (mapItems f es) = printItems es
  | [] => rfl
  | e :: rest => by
    rw [mapItems, printItems, printItems, Expr.print_mapTokens f e, printItems_mapItems f rest]

theorem printEntries_mapPairs (f : Token → Token) : ∀ es : List (Expr × Expr),
    printEntries (mapPairs f es) = printEntries es
  | [] => rfl
  | (key, value) :: rest => by
    rw [mapPairs, printEntries, printEntries, Expr.print_mapTokens f key,
      Expr.print_mapTokens f value, printEntries_mapPairs f rest]

theorem printClauses_mapPairs (f : Token → Token) : ∀ es : List (Expr × Expr),
    printClauses (mapPairs f es) = printClauses es
  | [] => rfl
  | (pattern, body) :: rest => by
    rw [mapPairs, printClauses, printClauses, Expr.print_mapTokens f pattern,
      Expr.print_mapTokens f body, printClauses_mapPairs f rest]

theorem printMembers_mapMembers (f : Token → Token) : ∀ ms : List Member,
    printMembers (mapMembers f ms) = printMembers ms
  | [] => rfl
  | m :: rest => by
    rw [mapMembers, printMembers, printMembers, Member.print_mapTokens f m,
      printMembers_mapMembers f rest]

theorem Member.print_mapTokens (f : Token → Token) : ∀ m : Member,
    (m.mapTokens f).print = m.print
  | .method name params body => by
    simp only [Member.mapTokens, Member.print, Expr.print_mapTokens f body]
  | .field name => rfl
  | .fieldWith name default => by
    simp only [Member.mapTokens, Member.print, Expr.print_mapTokens f default]

end

end Print

/-! ### What the parser makes of trees -/

lemma Params.ofExprs_mapTokens (f : Token → Token) (es : List Expr) {params : Params}
    (h : Params.ofExprs es = .ok params) :
    Params.ofExprs (es.map (·.mapTokens f)) = .ok params := by
  induction es generalizing params with
  | nil => exact h
  | cons e rest ih =>
      obtain ⟨site, form⟩ := e
      cases form with
      | name name =>
          rw [Params.ofExprs] at h
          cases hr : Params.ofExprs rest with
          | error e =>
              rw [hr] at h
              cases h
          | ok p =>
              rw [hr] at h
              cases h
              rw [List.map_cons, Expr.mapTokens, Form.mapTokens, Params.ofExprs, ih hr]
              rfl
      | spread inner =>
          cases rest with
          | nil =>
              rw [Params.ofExprs] at h
              rw [List.map_cons, List.map_nil, Expr.mapTokens, Form.mapTokens, Params.ofExprs,
                Expr.asName?_mapTokens]
              cases hn : inner.asName? with
              | none =>
                  rw [hn] at h
                  cases h
              | some name =>
                  rw [hn] at h
                  exact h
          | cons => cases h
      | _ => simp [Params.ofExprs] at h

/-- An assignment is made of changed trees as it is of the trees. -/
lemma assignment_mapTokens {value target e : Expr} {token : Token}
    (h : assignment value token target = .ok e) :
    assignment (value.mapTokens f) (f token) (target.mapTokens f) = .ok (e.mapTokens f) := by
  match target with
  | .node site (.group inner) =>
      rw [assignment] at h
      rw [Expr.mapTokens, Form.mapTokens, assignment]
      exact assignment_mapTokens h
  | .node site (.name name) =>
      cases h
      simp [assignment, Expr.mapTokens, Form.mapTokens, Expr.plain]
  | .node site (.call callee arguments) =>
      rw [assignment] at h
      rw [Expr.mapTokens, Form.mapTokens, assignment]
      simp only [Expr.asName?_mapTokens, Expr.declares_mapTokens, mapItems_eq_map]
      cases hn : callee.asName? with
      | none =>
          simp only [hn] at h
          cases h
      | some name =>
          cases hp : Params.ofExprs arguments with
          | error e =>
              simp only [hn, hp] at h
              cases h
          | ok params =>
              simp only [hn, hp] at h
              cases h
              simp [Params.ofExprs_mapTokens f arguments hp, Expr.plain, Expr.mapTokens,
                Form.mapTokens]
  | .node site (.member object name safe) =>
      cases safe with
      | true => cases h
      | false =>
          cases h
          simp [assignment, Expr.mapTokens, Form.mapTokens, Expr.plain]
  | .node site (.index target index) =>
      cases h
      simp [assignment, Expr.mapTokens, Form.mapTokens, Expr.plain]
  | .node site (.tuple items) =>
      cases h
      simp [assignment, Expr.mapTokens, Form.mapTokens, Expr.plain]
  | .node site (.list items) =>
      cases h
      simp [assignment, Expr.mapTokens, Form.mapTokens, Expr.plain]
  | .node site (.map entries) =>
      cases h
      simp [assignment, Expr.mapTokens, Form.mapTokens, Expr.plain]

lemma compoundAssignment_mapTokens {op : BinaryOp} {target value e : Expr} {token : Token}
    (h : compoundAssignment op target value token = .ok e) :
    compoundAssignment op (target.mapTokens f) (value.mapTokens f) (f token) =
      .ok (e.mapTokens f) := by
  simp only [compoundAssignment, Expr.ungroup_mapTokens, Expr.isCompoundTarget_mapTokens] at h ⊢
  split at h
  · rename_i ht
    rw [if_pos ht]
    have ha := assignment_mapTokens (f := f) h
    rwa [Expr.mapTokens_plain, Form.mapTokens] at ha
  · cases h

lemma lambdaParams_mapTokens {e : Expr} {params : Params} (h : lambdaParams e = .ok params) :
    lambdaParams (e.mapTokens f) = .ok params := by
  obtain ⟨site, form⟩ := e
  cases form with
  | name name => exact Params.ofExprs_mapTokens f [.node site (.name name)] h
  | spread inner => exact Params.ofExprs_mapTokens f [.node site (.spread inner)] h
  | group inner => exact Params.ofExprs_mapTokens f [inner] h
  | tuple items =>
      rw [Expr.mapTokens, Form.mapTokens, mapItems_eq_map]
      exact Params.ofExprs_mapTokens f items h
  | _ => cases h

namespace Parse

lemma entriesOf_mapTokens {es : List Expr} {entries : List (Expr × Expr)}
    (h : entriesOf es = .ok entries) :
    entriesOf (es.map (·.mapTokens f)) = .ok (mapPairs f entries) := by
  induction es generalizing entries with
  | nil =>
      cases h
      rfl
  | cons e rest ih =>
      obtain ⟨site, form⟩ := e
      cases form with
      | pair key value =>
          rw [entriesOf] at h
          cases hr : entriesOf rest with
          | error e =>
              rw [hr] at h
              cases h
          | ok more =>
              rw [hr] at h
              cases h
              rw [List.map_cons, Expr.mapTokens, Form.mapTokens, entriesOf, ih hr, mapPairs]
              rfl
      | _ => cases h

@[simp]
lemma isPair_mapTokens (e : Expr) : isPair (e.mapTokens f) = isPair e := by
  obtain ⟨site, form⟩ := e
  cases form <;> rfl

lemma find?_isPair_mapTokens (es : List Expr) :
    (es.map (·.mapTokens f)).find? isPair = (es.find? isPair).map (·.mapTokens f) := by
  rw [List.find?_map]
  congr 2
  exact funext isPair_mapTokens

lemma collectionOf_mapTokens {es : List Expr} {form : Form} (h : collectionOf es = .ok form) :
    collectionOf (es.map (·.mapTokens f)) = .ok (form.mapTokens f) := by
  cases es with
  | nil =>
      cases h
      rfl
  | cons e rest =>
      obtain ⟨site, first⟩ := e
      have hfind := find?_isPair_mapTokens (f := f) (.node site first :: rest)
      rw [List.map_cons, Expr.mapTokens] at hfind ⊢
      cases first with
      | pair key value =>
          rw [collectionOf] at h
          cases he : entriesOf (.node site (.pair key value) :: rest) with
          | error e =>
              rw [he] at h
              cases h
          | ok entries =>
              rw [he] at h
              cases h
              have hm := entriesOf_mapTokens (f := f) he
              rw [List.map_cons, Expr.mapTokens, Form.mapTokens] at hm
              change collectionOf (.node _ (.pair _ _) :: _) = _
              rw [collectionOf, hm]
              rfl
      | _ =>
          rw [Form.mapTokens] at hfind ⊢
          unfold collectionOf at h ⊢
          dsimp only at h ⊢
          rw [hfind]
          split at h
          · cases h
          · rename_i hp
            cases h
            rw [hp]
            simp [Form.mapTokens, Expr.mapTokens]

lemma membersOf_mapTokens {es : List Expr} {members : List Member}
    (h : membersOf es = .ok members) :
    membersOf (es.map (·.mapTokens f)) = .ok (mapMembers f members) := by
  induction es generalizing members with
  | nil =>
      cases h
      rfl
  | cons e rest ih =>
      obtain ⟨site, form⟩ := e
      -- Each kind of member goes in front of the members that follow.
      have hcons : ∀ {m : Member}, (membersOf rest).map (m :: ·) = .ok members →
          (membersOf (rest.map (·.mapTokens f))).map (m.mapTokens f :: ·) =
            .ok (mapMembers f members) := by
        intro m h
        cases hr : membersOf rest with
        | error e =>
            rw [hr] at h
            cases h
        | ok more =>
            rw [hr] at h
            cases h
            rw [ih hr, mapMembers]
            rfl
      cases form with
      | function name params body declare => exact hcons h
      | assign name value declare => exact hcons h
      | name name => exact hcons h
      | _ => cases h

lemma duplicate?_mapTokens {seen : List Constant} {clauses : List (Expr × Expr)}
    (h : duplicate? seen clauses = none) : duplicate? seen (mapPairs f clauses) = none := by
  induction clauses generalizing seen with
  | nil => rfl
  | cons clause rest ih =>
      obtain ⟨⟨site, form⟩, body⟩ := clause
      cases form with
      | constant c =>
          rw [duplicate?] at h
          rw [mapPairs, Expr.mapTokens, Form.mapTokens, duplicate?]
          split at h
          · cases h
          · rename_i hs
            rw [if_neg hs]
            exact ih h
      | _ => exact ih h

end Parse

end Tern
