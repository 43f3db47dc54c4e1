/-
Expressions of a source are determined by how they are printed. Names and annotations in a source
have the characters of names; the parser puts nothing else in the places of names, so what it
makes of a source with finite numbers is legible.

* `Expr.isLegible_annotate`, `isLegible_assignment`: legible trees made of legible ones;
* `Parse.legible_expression`: the parser makes legible trees;
* `Scan.Reaches.isName_of_mem`: names and annotations in a scanned text;
* `Expr.ParsedFrom`: the expressions of a source;
* `Expr.resembles_of_print`: expressions that are printed alike.
-/
import Mathlib.Tactic
import Tern.Proofs.Composition
import Tern.Proofs.Makes
import Tern.Proofs.Targets
import Tern.Proofs.Tiling
import Tern.Proofs.Unambiguous

namespace Tern

open Scan

/-! ### What trees are made of -/

lemma areLegible_iff {es : List Expr} :
    areLegible es = true ↔ ∀ e ∈ es, e.isLegible = true := by
  induction es with
  | nil => simp [areLegible]
  | cons e es ih => simp [areLegible, ih]

lemma Expr.isLegible_plain (token : Token) (form : Form) :
    (Expr.plain token form).isLegible = form.isLegible := by
  simp [Expr.plain, Expr.isLegible]

lemma Expr.isLegible_form {e : Expr} (h : e.isLegible = true) : e.form.isLegible = true := by
  obtain ⟨site, form⟩ := e
  rw [Expr.isLegible, Bool.and_eq_true] at h
  exact h.2

lemma Expr.isLegible_annotate {mark : String} {e : Expr} (hmark : isNameLike mark = true)
    (h : e.isLegible = true) : (e.annotate mark).isLegible = true := by
  obtain ⟨site, form⟩ := e
  rw [Expr.isLegible, Bool.and_eq_true] at h
  simp [Expr.annotate, Expr.isLegible, List.all_append, h.1, h.2, hmark]

lemma Expr.isName_of_asName? {e : Expr} {name : String} (h : e.isLegible = true)
    (hname : e.asName? = some name) : isName name = true := by
  obtain ⟨site, form⟩ := e
  cases form with
  | name x =>
      cases hname
      exact Expr.isLegible_form h
  | _ => cases hname

/-- Parameters are names. -/
lemma Params.areNames_ofExprs {es : List Expr} {params : Params}
    (h : ∀ e ∈ es, e.isLegible = true) (hp : Params.ofExprs es = .ok params) :
    params.areNames = true := by
  induction es generalizing params with
  | nil =>
      cases hp
      rfl
  | cons e es ih =>
      obtain ⟨site, form⟩ := e
      rw [List.forall_mem_cons] at h
      have hform := Expr.isLegible_form h.1
      cases form with
      | name x =>
          have hrest : Params.ofExprs (.node site (.name x) :: es) =
              (Params.ofExprs es).map fun p => { p with names := x :: p.names } := by
            simp [Params.ofExprs]
          rw [hrest] at hp
          cases hes : Params.ofExprs es with
          | error e =>
              rw [hes] at hp
              cases hp
          | ok params' =>
              rw [hes] at hp
              cases hp
              have hnames := ih h.2 hes
              rw [Params.areNames, Bool.and_eq_true] at hnames
              simp only [Params.areNames, List.all_cons, hnames.1, hnames.2, Bool.and_true]
              exact hform
      | spread inner =>
          cases es with
          | nil =>
              rw [Params.ofExprs] at hp
              cases hn : inner.asName? with
              | none =>
                  rw [hn] at hp
                  cases hp
              | some x =>
                  rw [hn] at hp
                  cases hp
                  exact Expr.isName_of_asName? hform hn
          | cons => cases hp
      | _ => simp [Params.ofExprs] at hp

lemma Expr.isLegible_core {e : Expr} (h : e.isLegible = true) : e.core.isLegible = true := by
  fun_induction Expr.core e with
  | case1 site inner ih => exact ih (Expr.isLegible_form h)
  | case2 e _ => exact h

lemma isLegible_assignment {value target e : Expr} {token : Token} (hv : value.isLegible = true)
    (ht : target.isLegible = true) (h : assignment value token target = .ok e) :
    e.isLegible = true := by
  rw [assignment_core] at h
  have hpairs := target.pairs_core
  have hcore := Expr.isLegible_core ht
  generalize target.core = target at h hpairs hcore
  obtain ⟨site, form⟩ := target
  have hform : form.isLegible = true := Expr.isLegible_form hcore
  cases form with
  | group inner => cases hpairs
  | name x =>
      cases h
      rw [Expr.isLegible_plain, Form.isLegible, Bool.and_eq_true]
      exact ⟨hform, hv⟩
  | call callee arguments =>
      rw [Form.isLegible, Bool.and_eq_true] at hform
      simp only [assignment] at h
      cases hn : callee.asName? with
      | none =>
          rw [hn] at h
          cases h
      | some x =>
          cases hp : Params.ofExprs arguments with
          | error err =>
              rw [hn, hp] at h
              cases h
          | ok params =>
              rw [hn, hp] at h
              cases h
              have hnames := Params.areNames_ofExprs (areLegible_iff.mp hform.2) hp
              have hname := Expr.isName_of_asName? hform.1 hn
              simp [Expr.isLegible_plain, Form.isLegible, hname, hnames, hv]
  | index target index =>
      cases h
      rw [Expr.isLegible_plain, Form.isLegible, Bool.and_eq_true]
      exact ⟨hform, hv⟩
  | member object x safe =>
      cases safe with
      | true => cases h
      | false =>
          cases h
          rw [Expr.isLegible_plain, Form.isLegible, Bool.and_eq_true]
          exact ⟨hform, hv⟩
  | tuple items =>
      cases h
      simp [Expr.isLegible_plain, Form.isLegible, Expr.form, Form.isCollection, hcore, hv]
  | list items =>
      cases h
      simp [Expr.isLegible_plain, Form.isLegible, Expr.form, Form.isCollection, hcore, hv]
  | map entries =>
      cases h
      simp [Expr.isLegible_plain, Form.isLegible, Expr.form, Form.isCollection, hcore, hv]
  | _ => cases h

lemma isLegible_compoundAssignment {op : BinaryOp} {target value e : Expr} {token : Token}
    (hv : value.isLegible = true) (ht : target.isLegible = true)
    (h : compoundAssignment op target value token = .ok e) : e.isLegible = true := by
  have hungroup : target.ungroup.isLegible = true := by
    unfold Expr.ungroup
    split
    · exact Expr.isLegible_form ht
    · exact ht
  simp only [compoundAssignment] at h
  split at h
  · refine isLegible_assignment ?_ hungroup h
    rw [Expr.isLegible_plain, Form.isLegible, Bool.and_eq_true]
    exact ⟨hungroup, hv⟩
  · cases h

lemma areNames_lambdaParams {e : Expr} {params : Params} (h : e.isLegible = true)
    (hp : lambdaParams e = .ok params) : params.areNames = true := by
  obtain ⟨site, form⟩ := e
  have hform : form.isLegible = true := Expr.isLegible_form h
  cases form with
  | name x => exact Params.areNames_ofExprs (by simpa using h) hp
  | spread inner => exact Params.areNames_ofExprs (by simpa using h) hp
  | group inner =>
      rw [Form.isLegible] at hform
      exact Params.areNames_ofExprs (by simpa using hform) hp
  | tuple items => exact Params.areNames_ofExprs (areLegible_iff.mp hform) hp
  | _ => cases hp

lemma TokenKind.eq_identifier {kind : TokenKind} (h : kind.start? = some .name) :
    kind = .identifier := by
  cases kind <;> first | rfl | cases h

lemma TokenKind.eq_annotated {kind : TokenKind} (h : kind.start? = some .annotated) :
    kind = .annotated := by
  cases kind <;> first | rfl | cases h

namespace Parse

lemma pairsAreLegible_entriesOf {es : List Expr} {entries : List (Expr × Expr)}
    (h : areLegible es = true) (he : entriesOf es = .ok entries) :
    pairsAreLegible entries = true := by
  induction es generalizing entries with
  | nil =>
      cases he
      rfl
  | cons e es ih =>
      obtain ⟨site, form⟩ := e
      rw [areLegible, Bool.and_eq_true] at h
      have hform := Expr.isLegible_form h.1
      cases form with
      | pair key value =>
          rw [entriesOf] at he
          cases hes : entriesOf es with
          | error err =>
              rw [hes] at he
              cases he
          | ok rest =>
              rw [hes] at he
              cases he
              rw [pairsAreLegible, Bool.and_eq_true]
              exact ⟨hform, ih h.2 hes⟩
      | _ => simp [entriesOf] at he

lemma isLegible_collectionOf {es : List Expr} {form : Form} (h : areLegible es = true)
    (hf : collectionOf es = .ok form) : form.isLegible = true := by
  unfold collectionOf at hf
  split at hf
  · rename_i site key value rest
    cases hentries : entriesOf (.node site (.pair key value) :: rest) with
    | error err =>
        rw [hentries] at hf
        cases hf
    | ok entries =>
        rw [hentries] at hf
        cases hf
        exact pairsAreLegible_entriesOf h hentries
  · split at hf
    · cases hf
    · cases hf
      exact h

lemma membersAreLegible_membersOf {es : List Expr} {members : List Member}
    (h : areLegible es = true) (hm : membersOf es = .ok members) :
    membersAreLegible members = true := by
  induction es generalizing members with
  | nil =>
      cases hm
      rfl
  | cons e es ih =>
      obtain ⟨site, form⟩ := e
      rw [areLegible, Bool.and_eq_true] at h
      have hform := Expr.isLegible_form h.1
      -- Each member is made of a form that has the same parts.
      have hcons : ∀ {m : Member}, m.isLegible = true →
          (membersOf es).map (m :: ·) = .ok members → membersAreLegible members = true := by
        intro m hm' hmap
        cases hes : membersOf es with
        | error err =>
            rw [hes] at hmap
            cases hmap
        | ok rest =>
            rw [hes] at hmap
            cases hmap
            rw [membersAreLegible, hm', ih h.2 hes]
            rfl
      cases form with
      | function x params body declare =>
          have hmethod : (Member.method x params body).isLegible = true := hform
          exact hcons hmethod hm
      | assign x value declare =>
          have hfield : (Member.fieldWith x value).isLegible = true := hform
          exact hcons hfield hm
      | name x =>
          have hfield : (Member.field x).isLegible = true := hform
          exact hcons hfield hm
      | _ => cases hm

/-! ### What parsers make -/

/-- Tokens whose names are names and whose numbers are finite. -/
structure Spelled (t : Token) : Prop where
  name : t.kind = .identifier → isName t.lexeme = true
  mark : t.kind = .annotated → isNameLike t.lexeme = true
  number : ∀ n, t.literal = some (.number n) → n.value.isFinite = true

section Makes

variable {expr : Level → Parse Expr} {n : Nat} {token : Token}
  (hexpr : ∀ least, Makes Spelled (expr least) (·.isLegible = true))

include hexpr

lemma makes_sequence : Makes Spelled (sequence expr n) (areLegible · = true) := by
  induction n with
  | zero => exact .failing
  | succ n ih =>
      refine .bind .skipSeparators fun _ _ => .cond (.accept (by decide)) (.pure rfl) <|
        .cond .check .failing <| .bind (hexpr 0) fun e he => .bind .endOfExpr fun _ _ =>
          .map ih fun es hes => ?_
      rw [areLegible, he, hes]
      rfl

lemma makes_commaList {close : TokenKind} (hc : close ≠ .eof) {item : ListItem} :
    Makes Spelled (commaList expr close item n) (areLegible · = true) := by
  induction n with
  | zero => exact .failing
  | succ n ih =>
      refine .bind (hexpr 0) fun e he => .bind .skipSeparators fun _ _ =>
        .cond (.accept (by decide)) (.map ih fun es hes => ?_) (.map (.expect hc) fun _ _ => ?_)
      · rw [areLegible, he, hes]
        rfl
      · rw [areLegible, he]
        rfl

lemma makes_delimited {close : TokenKind} (hc : close ≠ .eof) {item : ListItem} :
    Makes Spelled (delimited expr n close item) (areLegible · = true) :=
  .bind .skipSeparators fun _ _ => .cond (.accept hc) (.pure rfl) (makes_commaList hexpr hc)

lemma makes_clauseList : Makes Spelled (clauseList expr n) (pairsAreLegible · = true) := by
  induction n with
  | zero => exact .failing
  | succ n ih =>
      refine .bind .skipSeparators fun _ _ => .cond (.accept (by decide)) (.pure rfl) <|
        .bind (hexpr _) fun a ha => .bind (.expect (by decide)) fun _ _ =>
          .bind (hexpr 0) fun b hb => .bind .endOfExpr fun _ _ => .map ih fun cs hcs => ?_
      rw [pairsAreLegible, ha, hb, hcs]
      rfl

lemma makes_clauses {owner : ClauseOwner} :
    Makes Spelled (clauses expr n owner) (pairsAreLegible · = true) :=
  .bind .skipSeparators fun _ _ => .bind (.expect (by decide)) fun _ _ => makes_clauseList hexpr

lemma legible_group : Makes Spelled (group expr n) (·.isLegible = true) := by
  refine .bind .skipSeparators fun _ _ => .cond (.accept (by decide)) (.pure rfl) <|
    .bind (hexpr 0) fun e he => .bind .skipSeparators fun _ _ => .cond (.accept (by decide))
      (.map (makes_delimited hexpr (by decide)) fun es hes => ?_)
      (.map (.expect (by decide)) fun _ _ => he)
  rw [Form.isLegible, areLegible, he, hes]
  rfl

lemma legible_collection : Makes Spelled (collection expr n) (·.isLegible = true) :=
  .bind .skipSeparators fun _ _ => .cond (.accept (by decide))
    (.map (.expect (by decide)) fun _ _ => rfl)
    (.bind (makes_delimited hexpr (by decide)) fun _ hes =>
      .lifted fun _ => isLegible_collectionOf hes)

lemma legible_branch : Makes Spelled (branch expr) (·.isLegible = true) := by
  refine .bind (hexpr 0) fun a ha => .bind (hexpr 0) fun b hb =>
    .cond (.acceptBehindSeparator (by decide) (by decide)) (.map (hexpr 0) fun c hc => ?_)
      (.pure ?_)
  · rw [Form.isLegible, ha, hb, hc]
    rfl
  · rw [Form.isLegible, ha, hb]
    rfl

lemma legible_forLoop : Makes Spelled (forLoop expr) (·.isLegible = true) := by
  refine .bind (hexpr 0) fun a ha => .bind (.expect (by decide)) fun _ _ =>
    .bind (hexpr 0) fun b hb => .map (hexpr 0) fun c hc => ?_
  rw [Form.isLegible, ha, hb, hc]
  rfl

lemma legible_attempt : Makes Spelled (attempt expr n) (·.isLegible = true) := by
  refine .bind (hexpr 0) fun e he =>
    .cond (.acceptBehindSeparator (by decide) (by decide))
      (.map (makes_clauses hexpr) fun cs hcs => ?_) .failing
  rw [Form.isLegible, he, hcs]
  rfl

lemma legible_classDef : Makes Spelled (classDef expr n) (·.isLegible = true) := by
  unfold classDef
  simp only [pure_bind]
  have hbody : ∀ {name : Token} {parent : Option String}, isName name.lexeme = true →
      parent.all isName = true → Makes Spelled
        (skipSeparators >>= fun _ => expect .leftBrace .expectedClassBody >>= fun _ =>
          sequence expr n >>= fun body => lift (membersOf body) >>= fun members =>
            pure (Form.classDef name.lexeme parent members)) (·.isLegible = true) := by
    intro name parent hname hparent
    refine .bind .skipSeparators fun _ _ => .bind (.expect (by decide)) fun _ _ =>
      .bind (makes_sequence hexpr) fun body hb =>
        .map (.lifted fun _ => membersAreLegible_membersOf hb) fun members hm => ?_
    rw [Form.isLegible, hname, hparent, hm]
    rfl
  exact .bind (.expect (by decide)) fun name hname => .cond (.accept (by decide))
    (.bind (.expect (by decide)) fun parent hp =>
      hbody (hname.1.name hname.2) (hp.1.name hp.2))
    (hbody (hname.1.name hname.2) rfl)

omit hexpr in
lemma makes_dottedNames : Makes Spelled (dottedNames n) (·.all isName = true) := by
  induction n with
  | zero => exact .failing
  | succ n ih =>
      refine .cond (.accept (by decide)) (.bind (.expect (by decide)) fun name hname =>
        .map ih fun names hnames => ?_) (.pure rfl)
      rw [List.all_cons, hname.1.name hname.2, hnames]
      rfl

omit hexpr in
lemma legible_importing : Makes Spelled (importing n) (·.isLegible = true) := by
  refine .bind (.expect (by decide)) fun name hname =>
    .map makes_dottedNames fun names hnames => ?_
  rw [Form.isLegible, List.all_cons, hname.1.name hname.2, hnames]
  rfl

omit hexpr in
lemma makes_constant (ht : Spelled token) : Makes Spelled (constant token) (·.isFinite = true) := by
  unfold constant
  split
  · exact .pure rfl
  · exact .pure rfl
  · exact .pure rfl
  · exact .pure (ht.number _ (by assumption))
  · exact .pure rfl
  · exact .failingAt

/-- What a token starts is legible. -/
lemma legible_startWith {start : Start} (ht : Spelled token) (hs : token.kind.start? = some start) :
    Makes Spelled (startWith expr n token start) (·.isLegible = true) := by
  -- A node is as legible as its form.
  have hplain : ∀ {p : Parse Form}, Makes Spelled p (·.isLegible = true) →
      Makes Spelled (p >>= fun form => pure (Expr.plain token form)) (·.isLegible = true) :=
    fun hp => hp.map fun form hform => (Expr.isLegible_plain token form).trans hform
  cases start with
  | literal =>
      exact (makes_constant ht).map fun c hc => (Expr.isLegible_plain token _).trans hc
  | name =>
      have hkind : token.kind = .identifier := TokenKind.eq_identifier hs
      exact .pure ((Expr.isLegible_plain token _).trans (ht.name hkind))
  | group => exact hplain (legible_group hexpr)
  | collection => exact hplain (legible_collection hexpr)
  | block =>
      exact (makes_sequence hexpr).map fun es hes => (Expr.isLegible_plain token _).trans hes
  | unary op => exact (hexpr _).map fun e he => (Expr.isLegible_plain token _).trans he
  | annotated =>
      have hkind : token.kind = .annotated := TokenKind.eq_annotated hs
      exact (hexpr _).map fun e he => Expr.isLegible_annotate (ht.mark hkind) he
  | branch => exact hplain (legible_branch hexpr)
  | whileLoop =>
      refine .bind (hexpr 0) fun a ha => .map (hexpr 0) fun b hb => ?_
      rw [Expr.isLegible_plain, Form.isLegible, ha, hb]
      rfl
  | forLoop => exact hplain (legible_forLoop hexpr)
  | attempt => exact hplain (legible_attempt hexpr)
  | raise => exact (hexpr 0).map fun e he => (Expr.isLegible_plain token _).trans he
  | leave => exact hplain (.leave (hexpr 0) rfl fun e he => he)
  | classDef => exact hplain (legible_classDef hexpr)
  | importing => exact hplain legible_importing

/-- What a token makes of a legible expression is legible. -/
lemma legible_continueWith {left : Expr} {link : Link} (hl : left.isLegible = true) :
    Makes Spelled (continueWith expr n left token link) (·.isLegible = true) := by
  have hjoined : ∀ {form : Expr → Form} {least : Level},
      (∀ e, e.isLegible = true → (form e).isLegible = true) →
      Makes Spelled (expr least >>= fun e => pure (Expr.plain token (form e)))
        (·.isLegible = true) :=
    fun hform => (hexpr _).map fun e he => (Expr.isLegible_plain token _).trans (hform e he)
  cases link with
  | assign op =>
      cases op with
      | none => exact .bind (hexpr _) fun value hv => .lifted fun _ => isLegible_assignment hv hl
      | some op =>
          exact .bind (hexpr _) fun value hv => .lifted fun _ => isLegible_compoundAssignment hv hl
  | lambda =>
      refine .bind (.lifted fun _ => areNames_lambdaParams hl) fun params hp =>
        hjoined fun e he => ?_
      rw [Form.isLegible, hp, he]
      rfl
  | pair => exact hjoined fun e he => by rw [Form.isLegible, hl, he]; rfl
  | logical op => exact hjoined fun e he => by rw [Form.isLegible, hl, he]; rfl
  | matching =>
      refine .bind (makes_clauses hexpr) fun arms harms => ?_
      split
      · exact .failingAt
      · refine .pure ?_
        rw [Expr.isLegible_plain, Form.isLegible, hl, harms]
        rfl
  | binary op => exact hjoined fun e he => by rw [Form.isLegible, hl, he]; rfl
  | call =>
      refine (makes_delimited hexpr (by decide)).map fun es hes => ?_
      rw [Expr.isLegible_plain, Form.isLegible, hl, hes]
      rfl
  | index =>
      refine .bind (hexpr 0) fun e he => .bind .skipSeparators fun _ _ =>
        .map (.expect (by decide)) fun _ _ => ?_
      rw [Expr.isLegible_plain, Form.isLegible, hl, he]
      rfl
  | member safe =>
      refine .map (.expect (by decide)) fun name hname => ?_
      rw [Expr.isLegible_plain, Form.isLegible, hl, hname.1.name hname.2]
      rfl
  | spread => exact .pure ((Expr.isLegible_plain token _).trans hl)

end Makes

/-- **The parser makes legible trees** of tokens whose names are names and whose numbers are
finite. -/
theorem legible_expression (n : Nat) (least : Level) :
    Makes Spelled (expression n least) (·.isLegible = true) := by
  induction n generalizing least with
  | zero => exact .failing
  | succ n ih =>
      rw [expression_succ]
      exact .bind .skipSeparators fun _ _ => .starting fun ht hs =>
        .bind (legible_startWith ih ht hs) fun left hleft =>
          .links hleft fun hl _ _ => legible_continueWith ih hl

/-- The next expression of a source is legible. -/
lemma legible_next? (n : Nat) :
    Makes Spelled (next? n) (fun found => ∀ e ∈ found, e.isLegible = true) := by
  refine .bind .skipSeparators fun _ _ => .cond .check (.pure fun e he => by cases he) <|
    .bind (legible_expression n 0) fun e he => .map .endOfExpr fun _ _ e' he' => ?_
  cases he'
  exact he

lemma legible_program (n count : Nat) :
    Makes Spelled (program n count) (fun es => ∀ e ∈ es, e.isLegible = true) := by
  induction count with
  | zero => exact .failing
  | succ count ih =>
      refine .bind (legible_next? n) fun found hfound => ?_
      cases found with
      | none => exact .pure fun e he => by cases he
      | some e => exact .map ih fun es hes => List.forall_mem_cons.mpr ⟨hfound e rfl, hes⟩

lemma spelled_endOf (source : String) (line : Nat) : Spelled (Token.endOf source line) where
  name hk := by cases hk
  mark hk := by cases hk
  number n hn := by cases hn

lemma spelled_closed {tokens : List Token} (h : ∀ t ∈ tokens, Spelled t) :
    ∀ t ∈ closed tokens, Spelled t := by
  unfold closed
  split
  · exact List.forall_mem_singleton.mpr (spelled_endOf _ _)
  · split
    · exact h
    · exact List.forall_mem_append.mpr ⟨h, List.forall_mem_singleton.mpr (spelled_endOf _ _)⟩

lemma legible_parseTokens {tokens : List Token} {es : List Expr} (h : ∀ t ∈ tokens, Spelled t)
    (hp : parseTokens tokens = .ok es) : ∀ e ∈ es, e.isLegible = true := by
  cases hr : program (budgetFor (closed tokens)) (budgetFor (closed tokens)) (closed tokens) with
  | error err =>
      simp only [parseTokens, hr] at hp
      cases hp
  | ok out =>
      simp only [parseTokens, hr] at hp
      cases hp
      exact (legible_program _ _ (spelled_closed h) hr).1

/-- Expressions read one by one are legible. -/
lemma legible_parseEach {tokens : List Token} {e : Expr} (h : ∀ t ∈ tokens, Spelled t)
    (he : .ok e ∈ parseEach tokens) : e.isLegible = true := by
  have hgo : ∀ {budget count : Nat} {ts : List Token}, (∀ t ∈ ts, Spelled t) →
      .ok e ∈ parseEach.go budget count ts → e.isLegible = true := by
    intro budget count
    induction count with
    | zero =>
        intro ts _ hmem
        cases hmem
    | succ count ih =>
        intro ts hts hmem
        rw [parseEach.go] at hmem
        split at hmem
        · cases List.mem_singleton.mp hmem
        · cases hmem
        · rename_i e₀ rest hn
          obtain ⟨hfirst, hrest⟩ := legible_next? budget hts hn
          rcases List.mem_cons.mp hmem with heq | hmem
          · cases heq
            exact hfirst _ rfl
          · exact ih hrest hmem
  exact hgo (spelled_closed h) he

end Parse

/-! ### Tokens of a source -/

/-- Whether the value of a token is finite, if it is a number. -/
def Token.isFinite (t : Token) : Bool :=
  match t.literal with
  | some (.number n) => n.value.isFinite
  | _ => true

/-- Whether all numbers written in a source are finite. -/
def finiteNumbers (source text : String) : Bool :=
  (scan source text).all fun item => item.toOption.all Token.isFinite

namespace Scan

lemma isNameLike_ofList {c : Char} {cs : List Char} (h : startsName c = true) :
    isNameLike (String.ofList (c :: cs.takeWhile continuesName)) = true := by
  rw [isNameLike_iff]
  exact ⟨c, _, String.toList_ofList, h, fun d hd => List.mem_takeWhile_imp hd⟩

/-- The names and annotations that a step finds have the characters of names. -/
lemma isName_of_step {c : Char} {cs : List Char} {kind : TokenKind} {literal : Option Literal}
    (h : (step c cs).found = .ok (kind, literal)) :
    (kind = .identifier → isName (lexeme kind (step c cs).stretch) = true) ∧
      (kind = .annotated → isNameLike (lexeme kind (step c cs).stretch) = true) := by
  have hfinds := step_finds h
  constructor
  · rintro rfl
    have hc : startsName c = true := by
      cases hfinds with
      | plain _ hn => exact hn rfl
      | text hk => rcases hk with hk | hk <;> cases hk
    have hstep := step_of_startsName hc cs
    rw [hstep] at h ⊢
    have hkind : wordKind (String.ofList (c :: cs.takeWhile continuesName)) = .identifier :=
      congrArg Prod.fst (Except.ok.inj h)
    rw [isName, Bool.and_eq_true, decide_eq_true_eq]
    exact ⟨isNameLike_ofList hc, hkind⟩
  · rintro rfl
    obtain rfl := hfinds.eq_at rfl
    have hstep : step '@' cs = scanAnnotated cs := rfl
    rw [hstep] at h ⊢
    cases cs with
    | nil => cases h
    | cons d ds =>
        rw [scanAnnotated] at h ⊢
        by_cases hd : startsName d = true
        · rw [if_pos hd]
          exact isNameLike_ofList hd
        · rw [if_neg hd] at h
          cases h

/-- Names and annotations in a scanned text have the characters of names. -/
lemma Reaches.isName_of_mem {source : String} {line later : Nat} {cs rest : List Char}
    {raw : List Token} (h : Reaches source line cs raw later rest) :
    ∀ t ∈ raw, (t.kind = .identifier → isName t.lexeme = true) ∧
      (t.kind = .annotated → isNameLike t.lexeme = true) := by
  induction h with
  | refl => exact List.forall_mem_nil _
  | next h _ ih => exact List.forall_mem_cons.mpr ⟨isName_of_step h, ih⟩

end Scan

/-- The tokens of a source with finite numbers that are parsed. -/
lemma spelled_tokensOf {source text : String} {tokens : List Token}
    (hf : finiteNumbers source text = true) (h : tokensOf source text = .ok tokens) :
    ∀ t ∈ tokens, Parse.Spelled t := by
  obtain ⟨raw, later, hr⟩ := reaches_of_tokensOf h
  rw [tokensOf_of_reaches hr] at h
  cases h
  have hraw : ∀ u ∈ raw, Parse.Spelled u := by
    intro u hu
    have hname := hr.isName_of_mem u hu
    have hfinite : u.isFinite = true := by
      rw [finiteNumbers, scan_of_reaches hr, List.all_map, List.all_eq_true] at hf
      exact hf u (List.mem_append_left _ hu)
    refine ⟨hname.1, hname.2, fun n hn => ?_⟩
    rwa [Token.isFinite, hn] at hfinite
  rw [List.forall_mem_append, List.forall_mem_singleton]
  constructor
  · intro t ht
    obtain ⟨u, hu, rfl⟩ := exists_of_mem_separate ht
    have hsame : ∀ {kind : TokenKind}, u.kind.unified = kind → kind ≠ .separator →
        u.kind = kind := by
      intro kind hk hne
      rw [← hk] at hne ⊢
      exact (TokenKind.eq_of_unified hne).symm
    exact ⟨fun hk => (hraw u hu).name (hsame hk (by decide)),
      fun hk => (hraw u hu).mark (hsame hk (by decide)), (hraw u hu).number⟩
  · exact Parse.spelled_endOf source later

/-! ### Expressions of a source -/

/-- The expressions that a source is parsed to: all of it, one by one up to the first error, or
one expression at its front. -/
inductive Expr.ParsedFrom (source text : String) : Expr → Prop
  | all {es : List Expr} {e : Expr} (h : parse source text = .ok es) (he : e ∈ es) :
      ParsedFrom source text e
  | each {tokens : List Token} {e : Expr} (h : tokensOf source text = .ok tokens)
      (he : .ok e ∈ parseEach tokens) : ParsedFrom source text e
  | front {least : Level} {e : Expr} (h : parseLevel source text least = .ok e) :
      ParsedFrom source text e

/-- What is parsed of a source with finite numbers is legible. -/
lemma Expr.ParsedFrom.isLegible {source text : String} {e : Expr} (h : ParsedFrom source text e)
    (hf : finiteNumbers source text = true) : e.isLegible = true := by
  cases h with
  | @all es e h he =>
      cases ht : tokensOf source text with
      | error err =>
          rw [parse, ht] at h
          cases h
      | ok tokens =>
          rw [parse_of_tokensOf ht] at h
          exact Parse.legible_parseTokens (spelled_tokensOf hf ht) h e he
  | each h he => exact Parse.legible_parseEach (spelled_tokensOf hf h) he
  | @front least e h =>
      rw [parseLevel] at h
      cases ht : tokensOf source text with
      | error err =>
          rw [ht] at h
          cases h
      | ok tokens =>
          rw [ht] at h
          cases hr : Parse.expression (Parse.budgetFor (Parse.closed tokens)) least
              (Parse.closed tokens) with
          | error err =>
              simp only [hr] at h
              cases h
          | ok out =>
              simp only [hr] at h
              cases h
              exact (Parse.legible_expression _ _
                (Parse.spelled_closed (spelled_tokensOf hf ht)) hr).1

/-- **The printed text of a tree determines it.** Two parsed expressions that are printed alike
differ in their tokens, in which functions are declared, and in numbers that are printed alike. -/
theorem Expr.resembles_of_print {source text source' text' : String} {e e' : Expr}
    (h : ParsedFrom source text e) (h' : ParsedFrom source' text' e')
    (hf : finiteNumbers source text = true) (hf' : finiteNumbers source' text' = true)
    (hp : e.print = e'.print) : e.Resembles e' := by
  have hl := h.isLegible hf
  have hl' := h'.isLegible hf'
  have hchars := congrArg String.toList hp
  rw [Expr.toList_print, Expr.toList_print] at hchars
  exact e.recovered hl hl' (Nested.chars_inj (e.sound_nested hl) (e'.sound_nested hl') hchars)

/-- A function that is declared and one that is not, with one number written in two ways. -/
theorem Expr.resembles_of_print_function :
    ∃ e e', parse "<test>" "f(x) = 1.5" = .ok [e] ∧
      parse "<test>" "@var f(x) = 1.50" = .ok [e'] ∧ e.print = e'.print ∧ e.Resembles e' := by
  have htokens : tokensOf "<test>" "f(x) = 1.5" = .ok
      ([⟨.identifier, "f", none, 1, "<test>"⟩, ⟨.leftParen, "(", none, 1, "<test>"⟩,
        ⟨.identifier, "x", none, 1, "<test>"⟩, ⟨.rightParen, ")", none, 1, "<test>"⟩,
        ⟨.equal, "=", none, 1, "<test>"⟩,
        ⟨.number, "1.5", some (.number ⟨false, Number.ofDecimal 15 (-1)⟩), 1, "<test>"⟩] ++
        [Token.endOf "<test>" 1]) := by
    rfl
  have htokens' : tokensOf "<test>" "@var f(x) = 1.50" = .ok
      ([⟨.annotated, "var", none, 1, "<test>"⟩, ⟨.identifier, "f", none, 1, "<test>"⟩,
        ⟨.leftParen, "(", none, 1, "<test>"⟩, ⟨.identifier, "x", none, 1, "<test>"⟩,
        ⟨.rightParen, ")", none, 1, "<test>"⟩, ⟨.equal, "=", none, 1, "<test>"⟩,
        ⟨.number, "1.50", some (.number ⟨false, Number.ofDecimal 150 (-2)⟩), 1, "<test>"⟩] ++
        [Token.endOf "<test>" 1]) := by
    rfl
  -- The parser does not look at the value of a number.
  have hparse : ∀ n : Numeral, parseTokens
      ([⟨.identifier, "f", none, 1, "<test>"⟩, ⟨.leftParen, "(", none, 1, "<test>"⟩,
        ⟨.identifier, "x", none, 1, "<test>"⟩, ⟨.rightParen, ")", none, 1, "<test>"⟩,
        ⟨.equal, "=", none, 1, "<test>"⟩, ⟨.number, "1.5", some (.number n), 1, "<test>"⟩] ++
        [Token.endOf "<test>" 1]) = .ok
      [.node ⟨⟨.equal, "=", none, 1, "<test>"⟩, []⟩
        (.function "f" ⟨["x"], none⟩
          (.node ⟨⟨.number, "1.5", some (.number n), 1, "<test>"⟩, []⟩ (.constant (.number n)))
          false)] :=
    fun _ => parseTokens_of_single rfl
  have hparse' : ∀ n : Numeral, parseTokens
      ([⟨.annotated, "var", none, 1, "<test>"⟩, ⟨.identifier, "f", none, 1, "<test>"⟩,
        ⟨.leftParen, "(", none, 1, "<test>"⟩, ⟨.identifier, "x", none, 1, "<test>"⟩,
        ⟨.rightParen, ")", none, 1, "<test>"⟩, ⟨.equal, "=", none, 1, "<test>"⟩,
        ⟨.number, "1.50", some (.number n), 1, "<test>"⟩] ++ [Token.endOf "<test>" 1]) = .ok
      [.node ⟨⟨.equal, "=", none, 1, "<test>"⟩, []⟩
        (.function "f" ⟨["x"], none⟩
          (.node ⟨⟨.number, "1.50", some (.number n), 1, "<test>"⟩, []⟩ (.constant (.number n)))
          true)] :=
    fun _ => parseTokens_of_single rfl
  have h := (parse_of_tokensOf htokens).trans (hparse _)
  have h' := (parse_of_tokensOf htokens').trans (hparse' _)
  refine ⟨_, _, h, h', by decide +kernel, ?_⟩
  exact Expr.resembles_of_print (.all h List.mem_cons_self) (.all h' List.mem_cons_self)
    (by decide +kernel) (by decide +kernel) (by decide +kernel)

end Tern
