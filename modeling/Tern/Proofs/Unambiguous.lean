/-
Trees that are printed alike. Each form is printed in a shape of its own, with the trees inside it
in fixed places, so the printed text of a legible tree determines the tree but for what is not
printed: tokens, the spelling of numbers and whether a function is declared.

* `Expr.ind`: induction over trees by the trees directly inside;
* `Expr.Resembles`: trees that are the same but for what is not printed;
* `Nested.kind`, `Form.ctorIdx_kind`: the printed text shows the kind of a form;
* `Expr.recovered`: it shows the whole tree.
-/
import Mathlib.Tactic
import Tern.Proofs.Legible

namespace Tern

open Scan Nested

/-! ### Trees inside a tree -/

/-- The trees inside a member of a class. -/
def Member.trees : Member → List Expr
  | .method _ _ e | .fieldWith _ e => [e]
  | .field _ => []

/-- The trees directly inside a form, from left to right. -/
def Form.trees : Form → List Expr
  | .constant _ | .name _ | .leave | .importing _ => []
  | .group e | .unary _ e | .assign _ e _ | .member e _ _ | .spread e | .function _ _ e _
  | .lambda _ e | .raise e | .leaveWith e => [e]
  | .pair a b | .binary _ a b | .logical _ a b | .destructure a b | .index a b | .setMember a _ b
  | .branch a b | .whileLoop a b => [a, b]
  | .setIndex a b c | .branchElse a b c | .forLoop a b c => [a, b, c]
  | .tuple es | .list es | .block es => es
  | .call e es => e :: es
  | .map cs => cs.flatMap fun c => [c.1, c.2]
  | .matching e cs | .attempt e cs => e :: cs.flatMap fun c => [c.1, c.2]
  | .classDef _ _ ms => ms.flatMap Member.trees

mutual

/-- Induction over trees: a property holds of every tree once it is inherited from the trees
directly inside. -/
@[elab_as_elim]
theorem Expr.ind {P : Expr → Prop}
    (h : ∀ site form, (∀ e ∈ form.trees, P e) → P (.node site form)) : ∀ e : Expr, P e
  | .node site form => h site form (Form.ind h form)

theorem Form.ind {P : Expr → Prop}
    (h : ∀ site form, (∀ e ∈ form.trees, P e) → P (.node site form)) (form : Form) :
    ∀ e ∈ form.trees, P e := by
  cases form with
  | constant _ | name _ | leave | importing _ => exact List.forall_mem_nil _
  | group e | unary _ e | assign _ e _ | member e _ _ | spread e | function _ _ e _ | lambda _ e
  | raise e | leaveWith e => exact List.forall_mem_singleton.mpr (Expr.ind h e)
  | pair a b | binary _ a b | logical _ a b | destructure a b | index a b | setMember a _ b
  | branch a b | whileLoop a b =>
      exact List.forall_mem_cons.mpr ⟨Expr.ind h a, List.forall_mem_singleton.mpr (Expr.ind h b)⟩
  | setIndex a b c | branchElse a b c | forLoop a b c =>
      exact List.forall_mem_cons.mpr ⟨Expr.ind h a, List.forall_mem_cons.mpr
        ⟨Expr.ind h b, List.forall_mem_singleton.mpr (Expr.ind h c)⟩⟩
  | tuple es | list es | block es => exact items_ind h es
  | call e es => exact List.forall_mem_cons.mpr ⟨Expr.ind h e, items_ind h es⟩
  | map cs => exact pairs_ind h cs
  | matching e cs | attempt e cs =>
      exact List.forall_mem_cons.mpr ⟨Expr.ind h e, pairs_ind h cs⟩
  | classDef x superclass ms => exact members_ind h ms

theorem items_ind {P : Expr → Prop}
    (h : ∀ site form, (∀ e ∈ form.trees, P e) → P (.node site form)) :
    ∀ es : List Expr, ∀ e ∈ es, P e
  | [] => List.forall_mem_nil _
  | e :: es => List.forall_mem_cons.mpr ⟨Expr.ind h e, items_ind h es⟩

theorem pairs_ind {P : Expr → Prop}
    (h : ∀ site form, (∀ e ∈ form.trees, P e) → P (.node site form)) :
    ∀ cs : List (Expr × Expr), ∀ e ∈ cs.flatMap fun c => [c.1, c.2], P e
  | [] => List.forall_mem_nil _
  | (a, b) :: cs =>
    List.forall_mem_cons.mpr ⟨Expr.ind h a, List.forall_mem_cons.mpr
      ⟨Expr.ind h b, pairs_ind h cs⟩⟩

theorem members_ind {P : Expr → Prop}
    (h : ∀ site form, (∀ e ∈ form.trees, P e) → P (.node site form)) :
    ∀ ms : List Member, ∀ e ∈ ms.flatMap Member.trees, P e
  | [] => List.forall_mem_nil _
  | m :: ms => List.forall_mem_append.mpr ⟨Member.ind h m, members_ind h ms⟩

theorem Member.ind {P : Expr → Prop}
    (h : ∀ site form, (∀ e ∈ form.trees, P e) → P (.node site form)) (m : Member) :
    ∀ e ∈ m.trees, P e := by
  cases m with
  | method _ _ e | fieldWith _ e => exact List.forall_mem_singleton.mpr (Expr.ind h e)
  | field _ => exact List.forall_mem_nil _

end

/-! ### Trees that are the same but for what is not printed -/

/-- Constants that are the same, but for numbers that are printed alike. -/
inductive Constant.Resembles : Constant → Constant → Prop
  | refl (c : Constant) : Resembles c c
  | number {n n' : Numeral} (h : Number.print n.value = Number.print n'.value) :
      Resembles (.number n) (.number n')

mutual

/-- Trees that are the same but for their tokens, for numbers that are printed alike and for
whether functions are declared. -/
inductive Expr.Resembles : Expr → Expr → Prop
  | node {token token' : Token} {annotations : List String} {form form' : Form}
      (h : Form.Resembles form form') :
      Expr.Resembles (.node ⟨token, annotations⟩ form) (.node ⟨token', annotations⟩ form')

/-- Forms that are the same but for tokens inside them, for numbers that are printed alike and for
whether functions are declared. -/
inductive Form.Resembles : Form → Form → Prop
  | constant {c c' : Constant} (h : Constant.Resembles c c') :
      Form.Resembles (.constant c) (.constant c')
  | name (name : String) : Form.Resembles (.name name) (.name name)
  | group {e e' : Expr} (h : Expr.Resembles e e') : Form.Resembles (.group e) (.group e')
  | tuple {es es' : List Expr} (h : ItemsResemble es es') :
      Form.Resembles (.tuple es) (.tuple es')
  | list {es es' : List Expr} (h : ItemsResemble es es') : Form.Resembles (.list es) (.list es')
  | map {cs cs' : List (Expr × Expr)} (h : PairsResemble cs cs') :
      Form.Resembles (.map cs) (.map cs')
  | pair {a b a' b' : Expr} (ha : Expr.Resembles a a') (hb : Expr.Resembles b b') :
      Form.Resembles (.pair a b) (.pair a' b')
  | unary (op : UnaryOp) {e e' : Expr} (h : Expr.Resembles e e') :
      Form.Resembles (.unary op e) (.unary op e')
  | binary (op : BinaryOp) {a b a' b' : Expr} (ha : Expr.Resembles a a')
      (hb : Expr.Resembles b b') : Form.Resembles (.binary op a b) (.binary op a' b')
  | logical (op : LogicalOp) {a b a' b' : Expr} (ha : Expr.Resembles a a')
      (hb : Expr.Resembles b b') : Form.Resembles (.logical op a b) (.logical op a' b')
  | assign (name : String) (declare : Bool) {e e' : Expr} (h : Expr.Resembles e e') :
      Form.Resembles (.assign name e declare) (.assign name e' declare)
  | destructure {a b a' b' : Expr} (ha : Expr.Resembles a a') (hb : Expr.Resembles b b') :
      Form.Resembles (.destructure a b) (.destructure a' b')
  | index {a b a' b' : Expr} (ha : Expr.Resembles a a') (hb : Expr.Resembles b b') :
      Form.Resembles (.index a b) (.index a' b')
  | setIndex {a b c a' b' c' : Expr} (ha : Expr.Resembles a a') (hb : Expr.Resembles b b')
      (hc : Expr.Resembles c c') : Form.Resembles (.setIndex a b c) (.setIndex a' b' c')
  | member (name : String) (safe : Bool) {e e' : Expr} (h : Expr.Resembles e e') :
      Form.Resembles (.member e name safe) (.member e' name safe)
  | setMember (name : String) {a b a' b' : Expr} (ha : Expr.Resembles a a')
      (hb : Expr.Resembles b b') : Form.Resembles (.setMember a name b) (.setMember a' name b')
  | call {e e' : Expr} {es es' : List Expr} (h : Expr.Resembles e e')
      (hs : ItemsResemble es es') : Form.Resembles (.call e es) (.call e' es')
  | spread {e e' : Expr} (h : Expr.Resembles e e') : Form.Resembles (.spread e) (.spread e')
  | function (name : String) (params : Params) {declare declare' : Bool} {e e' : Expr}
      (h : Expr.Resembles e e') :
      Form.Resembles (.function name params e declare) (.function name params e' declare')
  | lambda (params : Params) {e e' : Expr} (h : Expr.Resembles e e') :
      Form.Resembles (.lambda params e) (.lambda params e')
  | block {es es' : List Expr} (h : ItemsResemble es es') :
      Form.Resembles (.block es) (.block es')
  | branch {a b a' b' : Expr} (ha : Expr.Resembles a a') (hb : Expr.Resembles b b') :
      Form.Resembles (.branch a b) (.branch a' b')
  | branchElse {a b c a' b' c' : Expr} (ha : Expr.Resembles a a') (hb : Expr.Resembles b b')
      (hc : Expr.Resembles c c') : Form.Resembles (.branchElse a b c) (.branchElse a' b' c')
  | whileLoop {a b a' b' : Expr} (ha : Expr.Resembles a a') (hb : Expr.Resembles b b') :
      Form.Resembles (.whileLoop a b) (.whileLoop a' b')
  | forLoop {a b c a' b' c' : Expr} (ha : Expr.Resembles a a') (hb : Expr.Resembles b b')
      (hc : Expr.Resembles c c') : Form.Resembles (.forLoop a b c) (.forLoop a' b' c')
  | matching {e e' : Expr} {cs cs' : List (Expr × Expr)} (h : Expr.Resembles e e')
      (hs : PairsResemble cs cs') : Form.Resembles (.matching e cs) (.matching e' cs')
  | attempt {e e' : Expr} {cs cs' : List (Expr × Expr)} (h : Expr.Resembles e e')
      (hs : PairsResemble cs cs') : Form.Resembles (.attempt e cs) (.attempt e' cs')
  | raise {e e' : Expr} (h : Expr.Resembles e e') : Form.Resembles (.raise e) (.raise e')
  | leave : Form.Resembles .leave .leave
  | leaveWith {e e' : Expr} (h : Expr.Resembles e e') :
      Form.Resembles (.leaveWith e) (.leaveWith e')
  | classDef (name : String) (superclass : Option String) {ms ms' : List Member}
      (h : MembersResemble ms ms') :
      Form.Resembles (.classDef name superclass ms) (.classDef name superclass ms')
  | importing (path : List String) : Form.Resembles (.importing path) (.importing path)

/-- Trees in a row, one by one. -/
inductive ItemsResemble : List Expr → List Expr → Prop
  | nil : ItemsResemble [] []
  | cons {e e' : Expr} {es es' : List Expr} (h : Expr.Resembles e e')
      (hs : ItemsResemble es es') : ItemsResemble (e :: es) (e' :: es')

/-- Pairs of trees, one by one. -/
inductive PairsResemble : List (Expr × Expr) → List (Expr × Expr) → Prop
  | nil : PairsResemble [] []
  | cons {a b a' b' : Expr} {cs cs' : List (Expr × Expr)} (ha : Expr.Resembles a a')
      (hb : Expr.Resembles b b') (hs : PairsResemble cs cs') :
      PairsResemble ((a, b) :: cs) ((a', b') :: cs')

/-- Members of classes, one by one. -/
inductive MembersResemble : List Member → List Member → Prop
  | nil : MembersResemble [] []
  | cons {m m' : Member} {ms ms' : List Member} (h : Member.Resembles m m')
      (hs : MembersResemble ms ms') : MembersResemble (m :: ms) (m' :: ms')

/-- Members of classes that are the same but for tokens inside them, for numbers that are printed
alike and for whether functions are declared. -/
inductive Member.Resembles : Member → Member → Prop
  | method (name : String) (params : Params) {e e' : Expr} (h : Expr.Resembles e e') :
      Member.Resembles (.method name params e) (.method name params e')
  | field (name : String) : Member.Resembles (.field name) (.field name)
  | fieldWith (name : String) {e e' : Expr} (h : Expr.Resembles e e') :
      Member.Resembles (.fieldWith name e) (.fieldWith name e')

end

/-! ### The kind of a form -/

/-- A form of the kind that is printed as a row with a head, without its parts. -/
def kindOf (head : String) (parts : List Nested) : Form :=
  match head with
  | "group" => .group default
  | "tuple" => .tuple []
  | "list" => .list []
  | "map" => .map []
  | ":" => .pair default default
  | "!" => .unary .not default
  | "-" => if parts.length = 1 then .unary .negate default else .binary .subtract default default
  | "and" | "or" => .logical .and default default
  | "var" => .assign "" default true
  | "=" =>
    match parts with
    | .word _ :: _ => .assign "" default false
    | _ => .destructure default default
  | "index" => .index default default
  | "index=" => .setIndex default default default
  | "." | "?." => .member default "" false
  | ".=" => .setMember default "" default
  | "call" => .call default []
  | "..." => .spread default
  | "fn" => .function "" default default false
  | "lambda" => .lambda default default
  | "block" => .block []
  | "if" =>
    if parts.length = 2 then .branch default default else .branchElse default default default
  | "while" => .whileLoop default default
  | "for" => .forLoop default default default
  | "match" => .matching default []
  | "try" => .attempt default []
  | "throw" => .raise default
  | "return" => if parts.length = 0 then .leave else .leaveWith default
  | "class" => .classDef "" none []
  | "import" => .importing []
  | _ => .binary .add default default

/-- A form of the kind that is printed, without its parts. -/
def Nested.kind : Nested → Form
  | .word text => if isName text then .name text else .constant .null
  | .quoted _ => .constant .null
  | .row (.word head :: parts) => kindOf head parts
  | .row _ => .leave

lemma not_isName_of_isNumeric {text : String} (h : ∀ c ∈ text.toList, isNumeric c = true) :
    isName text = false := by
  by_contra hname
  obtain ⟨c, cs, hcs, hc, -⟩ := isNameLike_iff.mp (isNameLike_of_isName (by simpa using hname))
  rw [hcs] at h
  rw [not_startsName_of_isNumeric (h c List.mem_cons_self)] at hc
  cases hc

lemma Constant.kind_nested {c : Constant} (h : c.isFinite = true) :
    c.nested.kind = .constant .null := by
  have hword : ∀ {text : String}, isName text = false →
      (Nested.word text).kind = .constant .null := by
    intro text htext
    rw [Nested.kind, htext]
    rfl
  cases c with
  | number n => exact hword (not_isName_of_isNumeric (Number.isNumeric_print h).2)
  | text s => rfl
  | bool b => cases b <;> exact hword (by decide)
  | null => exact hword (by decide)

/-- A collection is printed as a row, with or without annotations. -/
lemma Expr.exists_row_of_isCollection {e : Expr} (h : e.form.isCollection = true) :
    ∃ items, e.nested = .row items := by
  obtain ⟨site, form⟩ := e
  have hform : ∃ items, form.nested = .row items := by
    cases form with
    | tuple items => exact ⟨_, rfl⟩
    | list items => exact ⟨_, rfl⟩
    | map entries => exact ⟨_, rfl⟩
    | _ => cases h
  obtain ⟨items, hform⟩ := hform
  rw [Expr.nested, Site.nested, hform]
  split
  · exact ⟨items, rfl⟩
  · exact ⟨_, rfl⟩

/-- What is printed shows the kind of a form. -/
lemma Form.ctorIdx_kind {form : Form} (h : form.isLegible = true) :
    form.nested.kind.ctorIdx = form.ctorIdx := by
  cases form with
  | constant c =>
      rw [Form.isLegible] at h
      rw [Form.nested, Constant.kind_nested h]
      rfl
  | name name => exact congrArg Form.ctorIdx (if_pos h)
  | unary op operand => cases op <;> rfl
  | binary op left right => cases op <;> rfl
  | logical op left right => cases op <;> rfl
  | assign name value declare => cases declare <;> rfl
  | member object name safe => cases safe <;> rfl
  | destructure pattern value =>
      simp only [Form.isLegible, Bool.and_eq_true] at h
      obtain ⟨items, hitems⟩ := Expr.exists_row_of_isCollection h.1.1
      rw [Form.nested, hitems]
      rfl
  | _ => rfl

/-! ### Parts of printed trees -/

lemma ne_point_of_isName {text : String} (h : isName text = true) :
    ∀ c ∈ text.toList, c ≠ '.' := by
  rintro c hc rfl
  exact absurd ((continuesName_of_isNameLike (isNameLike_of_isName h)).2 _ hc) (by decide)

/-- Parameters can be told by their words. -/
lemma Params.eq_of_words {p p' : Params} (h : p.areNames = true) (h' : p'.areNames = true)
    (heq : p.words = p'.words) : p = p' := by
  have hpoints : ∀ rest : String, isName (rest ++ "...") = false := by
    intro rest
    by_contra hname
    exact ne_point_of_isName (by simpa using hname) '.' (by simp) rfl
  have hnames : ∀ {p : Params}, p.areNames = true → p.words.filter isName = p.names := by
    rintro ⟨names, rest⟩ h
    rw [Params.areNames, Bool.and_eq_true, List.all_eq_true] at h
    rw [Params.words, List.filter_append, List.filter_eq_self.mpr h.1]
    cases rest <;> simp [hpoints]
  have hnames' : p.names = p'.names := by rw [← hnames h, ← hnames h', heq]
  obtain ⟨names, rest⟩ := p
  obtain ⟨names', rest'⟩ := p'
  obtain rfl : names = names' := hnames'
  have hrest := List.append_cancel_left heq
  cases rest <;> cases rest' <;> simp at hrest ⊢
  exact hrest

/-- The names of a path are told apart by the points between them. -/
lemma path_inj {path path' : List String} (hne : path ≠ []) (hne' : path' ≠ [])
    (h : ∀ name ∈ path, isName name = true) (h' : ∀ name ∈ path', isName name = true)
    (heq : ".".intercalate path = ".".intercalate path') : path = path' := by
  -- The text behind a name is empty or begins with a point.
  have hsplit : ∀ {path : List String}, path ≠ [] → (∀ name ∈ path, isName name = true) →
      ∃ name more rest, path = name :: more ∧ isName name = true ∧
        (".".intercalate path).toList = name.toList ++ rest ∧
        (more = [] ∧ rest = [] ∨
          more ≠ [] ∧ rest = '.' :: (".".intercalate more).toList) := by
    intro path hne h
    obtain ⟨name, more, rfl⟩ := List.exists_cons_of_ne_nil hne
    refine ⟨name, more, ?_⟩
    cases more with
    | nil => exact ⟨[], rfl, h name List.mem_cons_self, by simp, .inl ⟨rfl, rfl⟩⟩
    | cons next more =>
        refine ⟨_, rfl, h name List.mem_cons_self, ?_, .inr ⟨by simp, rfl⟩⟩
        rw [String.intercalate_cons_cons, String.toList_append, String.toList_append,
          List.append_assoc]
        rfl
  have hword : ∀ {name : String}, isName name = true →
      ∀ c ∈ name.toList, decide (c ≠ '.') = true :=
    fun hn c hc => decide_eq_true (ne_point_of_isName hn c hc)
  have hstop : ∀ {more : List String} {rest : List Char}, (more = [] ∧ rest = [] ∨
      more ≠ [] ∧ rest = '.' :: (".".intercalate more).toList) →
      ∀ c ∈ rest.head?, decide (c ≠ '.') = false := by
    rintro more rest (⟨-, rfl⟩ | ⟨-, rfl⟩) c hc <;> cases hc
    rfl
  induction path generalizing path' with
  | nil => exact absurd rfl hne
  | cons name more ih =>
      obtain ⟨_, _, rest, hpath, hname, htext, hrest⟩ := hsplit hne h
      obtain ⟨name', more', rest', rfl, hname', htext', hrest'⟩ := hsplit hne' h'
      cases hpath
      have hchars := congrArg String.toList heq
      rw [htext, htext'] at hchars
      obtain ⟨hfirst, hlast⟩ := Text.append_cons_inj (hword hname) (hword hname') (hstop hrest)
        (hstop hrest') hchars
      obtain rfl := String.toList_inj.mp hfirst
      subst hlast
      rcases hrest with ⟨rfl, rfl⟩ | ⟨hmore, rfl⟩
      · rcases hrest' with ⟨rfl, -⟩ | ⟨-, hnil⟩
        · rfl
        · cases hnil
      · rcases hrest' with ⟨-, hnil⟩ | ⟨hmore', hpoint⟩
        · cases hnil
        · rw [ih hmore hmore' (fun n hn => h n (List.mem_cons_of_mem _ hn))
            (fun n hn => h' n (List.mem_cons_of_mem _ hn))
            (String.toList_inj.mp (List.cons.inj hpoint).2)]

/-- No head of a form looks like an annotation. -/
lemma Form.head_ne_mark {form : Form} {text : String} {parts : List Nested}
    (h : form.nested = .row (.word text :: parts)) (mark : String) : text ≠ "@" ++ mark := by
  have hhead : text.toList.head? ≠ some '@' := by
    cases form with
    | constant c =>
        cases c with
        | bool b => cases b <;> cases h
        | _ => cases h
    | name name => cases h
    | unary op operand => cases h; cases op <;> decide
    | binary op left right => cases h; cases op <;> decide
    | logical op left right => cases h; cases op <;> decide
    | assign name value declare => cases h; cases declare <;> decide
    | member object name safe => cases h; cases safe <;> decide
    | _ => cases h; decide
  rintro rfl
  exact hhead (by simp)

/-- Annotations can be told from the form that they stand in front of. -/
lemma Site.nested_inj {site site' : Site} {form form' : Form}
    (h : site.nested form.nested = site'.nested form'.nested) :
    site.annotations = site'.annotations ∧ form.nested = form'.nested := by
  have hmarked : ∀ {form : Form} {marks : List String} {inner : Nested}, marks.isEmpty = false →
      form.nested ≠ .row ((marks.map ("@" ++ ·)).map .word ++ [inner]) := by
    intro form marks inner hne heq
    cases marks with
    | nil => cases hne
    | cons mark marks => exact Form.head_ne_mark heq mark rfl
  rw [Site.nested, Site.nested] at h
  cases hs : site.annotations.isEmpty with
  | true =>
      cases hs' : site'.annotations.isEmpty with
      | true =>
          rw [hs, hs'] at h
          exact ⟨by rw [List.isEmpty_iff.mp hs, List.isEmpty_iff.mp hs'], h⟩
      | false =>
          rw [hs, hs'] at h
          exact absurd h (hmarked hs')
  | false =>
      cases hs' : site'.annotations.isEmpty with
      | true =>
          rw [hs, hs'] at h
          exact absurd h.symm (hmarked hs)
      | false =>
          rw [hs, hs'] at h
          injection h with hitems
          obtain ⟨hmarks, hinner⟩ := List.append_inj' hitems rfl
          refine ⟨?_, List.singleton_inj.mp hinner⟩
          have hword : Function.Injective fun mark : String => Nested.word ("@" ++ mark) := by
            intro mark mark' heq
            injection heq with htext
            exact String.toList_inj.mp (by simpa using congrArg String.toList htext)
          rw [List.map_map, List.map_map] at hmarks
          exact List.map_injective_iff.mpr hword hmarks

/-- Constants that are printed alike. -/
lemma Constant.resembles_of_nested {c c' : Constant} (h : c.isFinite = true)
    (h' : c'.isFinite = true) (heq : c.nested = c'.nested) : c.Resembles c' := by
  -- No number is printed as a word of letters.
  have hword : ∀ {n : Numeral} {text : String}, n.value.isFinite = true →
      Number.print n.value = text → ∀ c ∈ text.toList.head?, startsName c = false := by
    rintro n text hn rfl c hc
    exact not_startsName_of_isNumeric ((Number.isNumeric_print hn).2 c (List.mem_of_mem_head? hc))
  have hletters : ∀ {n : Numeral} {text : String}, n.value.isFinite = true →
      text ∈ ["true", "false", "null"] → Number.print n.value ≠ text := by
    intro n text hn htext heq
    have hhead := hword hn heq
    simp only [List.mem_cons, List.not_mem_nil, or_false] at htext
    rcases htext with rfl | rfl | rfl <;> exact absurd (hhead _ rfl) (by decide)
  cases c with
  | number n =>
      cases c' with
      | number n' => exact .number (Nested.word.inj heq)
      | text s => cases heq
      | bool b => cases b <;> exact absurd (Nested.word.inj heq) (hletters h (by decide))
      | null => exact absurd (Nested.word.inj heq) (hletters h (by decide))
  | text s =>
      cases c' with
      | text s' =>
          cases heq
          exact .refl _
      | bool b => cases b <;> cases heq
      | _ => cases heq
  | bool b =>
      cases c' with
      | number n' =>
          cases b <;> exact absurd (Nested.word.inj heq).symm (hletters h' (by decide))
      | text s => cases b <;> cases heq
      | bool b' =>
          cases b <;> cases b' <;>
            first
            | exact .refl _
            | exact absurd (Nested.word.inj heq) (by decide)
      | null => cases b <;> exact absurd (Nested.word.inj heq) (by decide)
  | null =>
      cases c' with
      | number n' => exact absurd (Nested.word.inj heq).symm (hletters h' (by decide))
      | text s => cases heq
      | bool b => cases b <;> exact absurd (Nested.word.inj heq) (by decide)
      | null => exact .refl _

lemma UnaryOp.symbol_inj {op op' : UnaryOp} (h : op.symbol = op'.symbol) : op = op' := by
  cases op <;> cases op' <;> first | rfl | exact absurd h (by decide)

lemma BinaryOp.symbol_inj {op op' : BinaryOp} (h : op.symbol = op'.symbol) : op = op' := by
  cases op <;> cases op' <;> first | rfl | exact absurd h (by decide)

lemma LogicalOp.symbol_inj {op op' : LogicalOp} (h : op.symbol = op'.symbol) : op = op' := by
  cases op <;> cases op' <;> first | rfl | exact absurd h (by decide)

lemma words_inj {texts texts' : List String}
    (h : texts.map Nested.word = texts'.map Nested.word) : texts = texts' :=
  List.map_injective_iff.mpr (fun _ _ heq => Nested.word.inj heq) h

/-- Members of classes are rows, so that the words for a superclass can be told from them. -/
lemma classParts_inj {superclass superclass' : Option String} {ms ms' : List Member}
    (h : (parentWords superclass).map .word ++ nestMembers ms =
      (parentWords superclass').map .word ++ nestMembers ms') :
    superclass = superclass' ∧ nestMembers ms = nestMembers ms' := by
  have hrow : ∀ {ms : List Member} {text : String} {rest : List Nested},
      nestMembers ms ≠ .word text :: rest := by
    intro ms text rest heq
    cases ms with
    | nil => cases heq
    | cons m ms =>
        rw [nestMembers] at heq
        cases m <;> cases (List.cons.inj heq).1
  cases superclass with
  | none =>
      cases superclass' with
      | none => exact ⟨rfl, h⟩
      | some parent' => exact absurd h hrow
  | some parent =>
      cases superclass' with
      | none => exact absurd h.symm hrow
      | some parent' =>
          simp only [parentWords, List.map_cons, List.map_nil, List.cons_append, List.nil_append,
            List.cons.injEq, true_and, Nested.word.injEq] at h
          exact ⟨by rw [h.1], h.2⟩

/-- A legible tree is determined, but for what is not printed, by what is printed of it. -/
def Expr.Recovered (e : Expr) : Prop :=
  ∀ ⦃e' : Expr⦄, e.isLegible = true → e'.isLegible = true → e.nested = e'.nested → e.Resembles e'

lemma itemsResemble_of_nested {es es' : List Expr} (ih : ∀ e ∈ es, e.Recovered)
    (h : areLegible es = true) (h' : areLegible es' = true) (heq : nestItems es = nestItems es') :
    ItemsResemble es es' := by
  induction es generalizing es' with
  | nil =>
      cases es' with
      | nil => exact .nil
      | cons e' es' => cases heq
  | cons e es hes =>
      cases es' with
      | nil => cases heq
      | cons e' es' =>
          rw [areLegible, Bool.and_eq_true] at h h'
          rw [List.forall_mem_cons] at ih
          rw [nestItems, nestItems] at heq
          injection heq with hfirst hrest
          exact .cons (ih.1 h.1 h'.1 hfirst) (hes ih.2 h.2 h'.2 hrest)

lemma pairsResemble_of_nested {cs cs' : List (Expr × Expr)}
    (ih : ∀ e ∈ cs.flatMap fun c => [c.1, c.2], e.Recovered) (h : pairsAreLegible cs = true)
    (h' : pairsAreLegible cs' = true)
    (heq : nestEntries cs = nestEntries cs' ∨ nestClauses cs = nestClauses cs') :
    PairsResemble cs cs' := by
  induction cs generalizing cs' with
  | nil =>
      cases cs' with
      | nil => exact .nil
      | cons c' cs' => rcases heq with heq | heq <;> cases heq
  | cons c cs hcs =>
      cases cs' with
      | nil => rcases heq with heq | heq <;> cases heq
      | cons c' cs' =>
          simp only [pairsAreLegible, Bool.and_eq_true] at h h'
          simp only [List.flatMap_cons, List.cons_append, List.nil_append,
            List.forall_mem_cons] at ih
          have hparts : (c.1.nested = c'.1.nested ∧ c.2.nested = c'.2.nested) ∧
              (nestEntries cs = nestEntries cs' ∨ nestClauses cs = nestClauses cs') := by
            rcases heq with heq | heq
            · simp only [nestEntries, List.cons.injEq, Nested.row.injEq, and_true] at heq
              exact ⟨heq.1, .inl heq.2⟩
            · simp only [nestClauses, List.cons.injEq, Nested.row.injEq, true_and,
                and_true] at heq
              exact ⟨heq.1, .inr heq.2⟩
          exact .cons (ih.1 h.1.1 h'.1.1 hparts.1.1) (ih.2.1 h.1.2 h'.1.2 hparts.1.2)
            (hcs ih.2.2 h.2 h'.2 hparts.2)

lemma Member.resembles_of_nested {m m' : Member} (ih : ∀ e ∈ m.trees, e.Recovered)
    (h : m.isLegible = true) (h' : m'.isLegible = true) (heq : m.nested = m'.nested) :
    m.Resembles m' := by
  cases m <;> cases m' <;>
    simp only [Member.isLegible, Bool.and_eq_true] at h h' <;>
    simp only [Member.nested, Nested.row.injEq, List.cons.injEq, Nested.word.injEq, true_and,
      and_true, reduceCtorEq, and_false, List.ne_cons_self, String.reduceEq] at heq
  case method.method x params e x' params' e' =>
    obtain ⟨rfl, hparams, hbody⟩ := heq
    obtain rfl := Params.eq_of_words h.1.2 h'.1.2 (words_inj hparams)
    exact .method x params (ih e List.mem_cons_self h.2 h'.2 hbody)
  case field.field x x' =>
    subst heq
    exact .field x
  case fieldWith.fieldWith x e x' e' =>
    obtain ⟨rfl, hdefault⟩ := heq
    exact .fieldWith x (ih e List.mem_cons_self h.2 h'.2 hdefault)

lemma membersResemble_of_nested {ms ms' : List Member}
    (ih : ∀ e ∈ ms.flatMap Member.trees, e.Recovered) (h : membersAreLegible ms = true)
    (h' : membersAreLegible ms' = true) (heq : nestMembers ms = nestMembers ms') :
    MembersResemble ms ms' := by
  induction ms generalizing ms' with
  | nil =>
      cases ms' with
      | nil => exact .nil
      | cons m' ms' => cases heq
  | cons m ms hms =>
      cases ms' with
      | nil => cases heq
      | cons m' ms' =>
          rw [membersAreLegible, Bool.and_eq_true] at h h'
          rw [List.flatMap_cons, List.forall_mem_append] at ih
          rw [nestMembers, nestMembers] at heq
          injection heq with hfirst hrest
          exact .cons (Member.resembles_of_nested ih.1 h.1 h'.1 hfirst) (hms ih.2 h.2 h'.2 hrest)

/-- One form: its kind is printed, and the trees inside it are told apart by their places. -/
lemma Form.resembles_of_nested {form form' : Form} (ih : ∀ e ∈ form.trees, e.Recovered)
    (h : form.isLegible = true) (h' : form'.isLegible = true)
    (heq : form.nested = form'.nested) : form.Resembles form' := by
  have hkind : form.ctorIdx = form'.ctorIdx := by
    rw [← Form.ctorIdx_kind h, ← Form.ctorIdx_kind h', heq]
  cases form <;> cases form' <;> cases hkind
  case constant.constant c c' => exact .constant (Constant.resembles_of_nested h h' heq)
  case name.name =>
    cases heq
    exact .name _
  all_goals
    simp only [Form.isLegible, Bool.and_eq_true] at h h'
    simp only [Form.nested, Nested.row.injEq, List.cons.injEq, Nested.word.injEq, true_and,
      and_true] at heq
    simp only [Form.trees, List.forall_mem_cons, List.not_mem_nil, false_imp_iff, implies_true,
      and_true] at ih
  case group.group e e' => exact .group (ih h h' heq)
  case tuple.tuple es es' => exact .tuple (itemsResemble_of_nested ih h h' heq)
  case list.list es es' => exact .list (itemsResemble_of_nested ih h h' heq)
  case map.map cs cs' => exact .map (pairsResemble_of_nested ih h h' (.inl heq))
  case pair.pair a b a' b' => exact .pair (ih.1 h.1 h'.1 heq.1) (ih.2 h.2 h'.2 heq.2)
  case unary.unary op e op' e' =>
    obtain rfl := UnaryOp.symbol_inj heq.1
    exact .unary op (ih h h' heq.2)
  case binary.binary op a b op' a' b' =>
    obtain rfl := BinaryOp.symbol_inj heq.1
    exact .binary op (ih.1 h.1 h'.1 heq.2.1) (ih.2 h.2 h'.2 heq.2.2)
  case logical.logical op a b op' a' b' =>
    obtain rfl := LogicalOp.symbol_inj heq.1
    exact .logical op (ih.1 h.1 h'.1 heq.2.1) (ih.2 h.2 h'.2 heq.2.2)
  case assign.assign x e declare x' e' declare' =>
    obtain ⟨hsign, rfl, hvalue⟩ := heq
    obtain rfl : declare = declare' := by
      cases declare <;> cases declare' <;> first | rfl | exact absurd hsign (by decide)
    exact .assign x declare (ih h.2 h'.2 hvalue)
  case destructure.destructure a b a' b' =>
    exact .destructure (ih.1 h.1.2 h'.1.2 heq.1) (ih.2 h.2 h'.2 heq.2)
  case index.index a b a' b' => exact .index (ih.1 h.1 h'.1 heq.1) (ih.2 h.2 h'.2 heq.2)
  case setIndex.setIndex a b c a' b' c' =>
    exact .setIndex (ih.1 h.1.1 h'.1.1 heq.1) (ih.2.1 h.1.2 h'.1.2 heq.2.1)
      (ih.2.2 h.2 h'.2 heq.2.2)
  case member.member e x safe e' x' safe' =>
    obtain ⟨hsign, hobject, rfl⟩ := heq
    obtain rfl : safe = safe' := by
      cases safe <;> cases safe' <;> first | rfl | exact absurd hsign (by decide)
    exact .member x safe (ih h.1 h'.1 hobject)
  case setMember.setMember a x b a' x' b' =>
    obtain ⟨hobject, rfl, hvalue⟩ := heq
    exact .setMember x (ih.1 h.1.1 h'.1.1 hobject) (ih.2 h.2 h'.2 hvalue)
  case call.call e es e' es' =>
    exact .call (ih.1 h.1 h'.1 heq.1) (itemsResemble_of_nested ih.2 h.2 h'.2 heq.2)
  case spread.spread e e' => exact .spread (ih h h' heq)
  case function.function x params e declare x' params' e' declare' =>
    obtain ⟨rfl, hparams, hbody⟩ := heq
    obtain rfl := Params.eq_of_words h.1.2 h'.1.2 (words_inj hparams)
    exact .function x params (ih h.2 h'.2 hbody)
  case lambda.lambda params e params' e' =>
    obtain rfl := Params.eq_of_words h.1 h'.1 (words_inj heq.1)
    exact .lambda params (ih h.2 h'.2 heq.2)
  case block.block es es' => exact .block (itemsResemble_of_nested ih h h' heq)
  case branch.branch a b a' b' => exact .branch (ih.1 h.1 h'.1 heq.1) (ih.2 h.2 h'.2 heq.2)
  case branchElse.branchElse a b c a' b' c' =>
    exact .branchElse (ih.1 h.1.1 h'.1.1 heq.1) (ih.2.1 h.1.2 h'.1.2 heq.2.1)
      (ih.2.2 h.2 h'.2 heq.2.2)
  case whileLoop.whileLoop a b a' b' => exact .whileLoop (ih.1 h.1 h'.1 heq.1) (ih.2 h.2 h'.2 heq.2)
  case forLoop.forLoop a b c a' b' c' =>
    exact .forLoop (ih.1 h.1.1 h'.1.1 heq.1) (ih.2.1 h.1.2 h'.1.2 heq.2.1)
      (ih.2.2 h.2 h'.2 heq.2.2)
  case matching.matching e cs e' cs' =>
    exact .matching (ih.1 h.1 h'.1 heq.1) (pairsResemble_of_nested ih.2 h.2 h'.2 (.inr heq.2))
  case attempt.attempt e cs e' cs' =>
    exact .attempt (ih.1 h.1 h'.1 heq.1) (pairsResemble_of_nested ih.2 h.2 h'.2 (.inr heq.2))
  case raise.raise e e' => exact .raise (ih h h' heq)
  case leave.leave => exact .leave
  case leaveWith.leaveWith e e' => exact .leaveWith (ih h h' heq)
  case classDef.classDef x superclass ms x' superclass' ms' =>
    obtain ⟨rfl, hparts⟩ := heq
    obtain ⟨rfl, hmembers⟩ := classParts_inj hparts
    exact .classDef x superclass (membersResemble_of_nested ih h.2 h'.2 hmembers)
  case importing.importing path path' =>
    rw [List.all_eq_true] at h h'
    obtain rfl := path_inj (by simpa using h.1) (by simpa using h'.1) h.2 h'.2 heq
    exact .importing path

/-- **What is printed of a legible tree determines it**, but for tokens, for numbers that are
printed alike and for whether functions are declared. -/
theorem Expr.recovered (e : Expr) : e.Recovered := by
  induction e using Expr.ind with
  | h site form ih =>
      intro e' h h' heq
      obtain ⟨site', form'⟩ := e'
      obtain ⟨token, annotations⟩ := site
      obtain ⟨token', annotations'⟩ := site'
      rw [Expr.isLegible, Bool.and_eq_true] at h h'
      rw [Expr.nested, Expr.nested] at heq
      obtain ⟨hmarks, hform⟩ := Site.nested_inj heq
      obtain rfl : annotations = annotations' := hmarks
      exact .node (Form.resembles_of_nested ih h.2 h'.2 hform)

end Tern
