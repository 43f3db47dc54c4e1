/-
Compound assignment. A target, a compound sign and a value are read as the assignment to the
target of the operator applied to the target and the value in parentheses, parentheses and the
places of tokens apart, if the target has one pair of parentheses at most; with more of them the
sign is refused.

* `Parse.Operand`: the tokens of a target, and what a sign behind them makes of it;
* `Parse.Alignment.closedBy`: an expression in front of a closing parenthesis;
* `parse_compound_assignment`: compound assignments and the assignments they stand for.
-/
import Mathlib.Tactic
import Tern.Proofs.Bare
import Tern.Proofs.Pieces
import Tern.Proofs.Targets

namespace Tern

namespace Parse

/-! ### Programs of one expression -/

section Single

variable {source : String} {n c line : Nat} {ts ws rest : List Token} {e : Expr}

lemma program_of_single (h : expression n 0 ts = .ok (e, rest)) (hrest : AtEnd rest) :
    ∃ r, program n (c + 2) ts = .ok ([e], r) := by
  have hend : ∃ after, endOfExpr .eof rest = .ok ((), after) ∧ AtEnd after := by
    rcases accept_cases (by decide : TokenKind.separator ≠ .eof) rest with
      ⟨t, us, rfl, ht, -⟩ | ⟨hne, -⟩
    · exact ⟨us, endOfExpr_of_separator ht us, (atEnd_cons ht).mp hrest⟩
    · refine ⟨rest, ?_, hrest⟩
      rw [endOfExpr_of_ne hne, if_pos (.inr (hrest.front_kind.resolve_right hne))]
  obtain ⟨after, hafter, hat⟩ := hend
  exact ⟨_, program_of_expression h hafter (program_of_atEnd hat)⟩

lemma expression_of_program {es : List Expr} (h : program n c ts = .ok (e :: es, rest)) :
    ∃ mid, expression n 0 ts = .ok (e, mid) ∧ (es = [] → AtEnd mid) := by
  cases c with
  | zero => cases h
  | succ c =>
      rcases program_cases h with ⟨-, hes⟩ | ⟨e', mid, after, more, he, hend, hp, hes⟩
      · cases hes
      · cases hes
        refine ⟨mid, he, ?_⟩
        rintro rfl
        cases c with
        | zero => cases hp
        | succ c =>
            rcases program_cases hp with ⟨hat, -⟩ | ⟨_, _, _, _, -, -, -, hes⟩
            · rcases endOfExpr_cases hend with ⟨t, rfl, ht⟩ | ⟨rfl, -⟩
              · exact (atEnd_cons ht).mpr hat
              · exact hat
            · cases hes

/-- A list in which something stands in front of its end token. -/
lemma not_atEnd_append {t : Token} (hne : ∀ u ∈ ts, u.kind ≠ .eof) (ht : t.kind ≠ .eof)
    (hsep : t.kind ≠ .separator) : ¬ AtEnd (ts ++ t :: ws) := by
  induction ts with
  | nil => exact fun h => absurd h.front_kind (by simp [ht, hsep])
  | cons u ts ih =>
      intro h
      have hu := h.front_kind.resolve_left (hne u List.mem_cons_self)
      exact ih (fun v hv => hne v (List.mem_cons_of_mem u hv)) ((atEnd_cons hu).mp h)

lemma expression_of_parseTokens (h : parseTokens (ts ++ [Token.endOf source line]) = .ok [e]) :
    ∃ mid, expression (ts.length + 2) 0 (ts ++ [Token.endOf source line]) = .ok (e, mid) := by
  rw [parseTokens_endOf] at h
  cases hp : program (ts.length + 2) (ts.length + 2) (ts ++ [Token.endOf source line]) with
  | error err =>
      rw [hp] at h
      cases h
  | ok out =>
      rw [hp] at h
      obtain ⟨es, rest⟩ := out
      cases h
      obtain ⟨mid, hmid, -⟩ := expression_of_program hp
      exact ⟨mid, hmid⟩

/-- The program of a list that is one expression or where the first one fails. -/
lemma parseTokens_of_expression {result : Except SourceError Expr} (hn : n = ts.length + 1)
    (h : expression (n + 1) 0 (ts ++ [Token.endOf source line]) = result.map (·, rest))
    (hrest : AtEnd rest) (hne : ¬ AtEnd (ts ++ [Token.endOf source line])) :
    parseTokens (ts ++ [Token.endOf source line]) = result.map ([·]) := by
  subst hn
  rw [parseTokens_endOf]
  cases result with
  | ok e =>
      obtain ⟨r, hr⟩ := program_of_single (c := ts.length) h hrest
      rw [hr]
      rfl
  | error err =>
      have hskip : expression (ts.length + 2) 0
          ((ts ++ [Token.endOf source line]).dropWhile (·.kind = .separator)) =
          expression (ts.length + 2) 0 (ts ++ [Token.endOf source line]) := by
        rw [expression_succ, bind_apply, bind_apply, skipSeparators_apply, skipSeparators_apply,
          List.dropWhile_idempotent]
      have hnext : next? (ts.length + 2) (ts ++ [Token.endOf source line]) = .error err := by
        rw [AtEnd] at hne
        rw [next?_apply, if_neg hne, bind_apply, hskip, h]
        rfl
      rw [program, bind_apply, hnext]
      rfl

end Single

/-! ### A target and a sign -/

/-- Tokens that are read as a name, an index, a member or a group up to their end. -/
structure Operand (ts : List Token) (t : Expr) (n : Nat) : Prop where
  noEnd : ∀ u ∈ ts, u.kind ≠ .eof
  isOperand : t.form.isOperand = true
  read : ∃ eof last, eof.kind = .eof ∧ expression n 0 (ts ++ [eof]) = .ok (t, last) ∧
    (front last).kind = .eof

/-- Two lists that are relabelled up to the end of both. -/
def Alignment.mapped {f : Token → Token} (hf : Token.Faithful f) : Alignment where
  relabel := f
  faithful := hf
  Ending ts us := (front ts).kind = .eof ∧ us = ts.map f
  atEnd h := atEnd_of_eof h.1

/-- An expression is read from relabelled tokens with the relabelled tree and rest. -/
lemma expression_map {f : Token → Token} (hf : Token.Faithful f) {n m : Nat} (hn : n ≤ m)
    {least : Level} {ts rest : List Token} {e : Expr} (h : expression n least ts = .ok (e, rest)) :
    expression m least (ts.map f) = .ok (e.mapTokens f, rest.map f) := by
  have hfront : ∀ ts : List Token, (front ts).kind = .eof → (front (ts.map f)).kind = .eof := by
    intro ts hts
    cases ts with
    | nil => rfl
    | cons t ts => rwa [List.map_cons, front_cons, hf.kind]
  have hcalm : (Alignment.mapped hf).Calm := by
    rintro ts us ⟨hts, rfl⟩
    have hus := hfront ts hts
    exact ⟨.inl hus, fun hsep => absurd (hus.symm.trans hsep) (by decide)⟩
  have hmatch : ∀ ts : List Token, (Alignment.mapped hf).Match ts (ts.map f) := by
    intro ts
    induction ts with
    | nil => exact .ending ⟨rfl, rfl⟩
    | cons t ts ih =>
        by_cases ht : t.kind = .eof
        · exact .ending ⟨ht, rfl⟩
        · exact .cons ht ih
  obtain ⟨vs, hvs, hm⟩ := (Alignment.reads_expression hn least).follows (hmatch ts) h
    fun _ => hcalm
  have heq : ∀ {ts us : List Token}, (Alignment.mapped hf).Match ts us → us = ts.map f := by
    intro ts us hm
    induction hm with
    | ending hE => exact hE.2
    | cons _ _ ih => rw [ih, List.map_cons]; rfl
  rw [heq hm] at hvs
  exact hvs

/-- A larger budget does not matter. -/
lemma expression_mono {n m : Nat} (hn : n ≤ m) {least : Level} {ts rest : List Token} {e : Expr}
    (h : expression n least ts = .ok (e, rest)) : expression m least ts = .ok (e, rest) := by
  have hmap := expression_map Token.Faithful.id hn h
  rwa [List.map_id, List.map_id, Expr.mapTokens_id] at hmap

namespace Operand

variable {ts ws rest : List Token} {t e : Expr} {n b : Nat} {token : Token} {link : Link}

lemma map {f : Token → Token} (hf : Token.Faithful f) (h : Operand ts t n) :
    Operand (ts.map f) (t.mapTokens f) n := by
  obtain ⟨eof, last, heof, hread, hlast⟩ := h.read
  refine ⟨?_, ?_, f eof, last.map f, by rw [hf.kind, heof], ?_, ?_⟩
  · intro u hu
    obtain ⟨v, hv, rfl⟩ := List.mem_map.mp hu
    rw [hf.kind]
    exact h.noEnd v hv
  · have ht := h.isOperand
    cases t with
    | node site form => cases form <;> first | rfl | cases ht
  · have hmap := expression_map hf (le_refl n) hread
    rwa [List.map_append] at hmap
  · cases last with
    | nil => rfl
    | cons u last => rwa [List.map_cons, front_cons, hf.kind]

lemma ne_nil (h : Operand ts t n) : ts ≠ [] := by
  rintro rfl
  obtain ⟨eof, last, heof, hread, -⟩ := h.read
  exact (expression_passes hread).not_atEnd (atEnd_of_eof heof)

/-- A target and a sign: the sign makes something of the target, and the loop goes on. -/
lemma sign (h : Operand ts t n) (hl : token.kind.link? = some link) (hpos : 0 < link.level)
    (hlevel : link.level ≤ Level.leading) (hn : n ≤ b + 1) (hb : (ts ++ token :: ws).length ≤ b) :
    ∃ k, 0 < k ∧ expression (b + 1) 0 (ts ++ token :: ws) =
      (continueWith (expression b) b t token link >>= links (expression b) b 0 k) ws := by
  obtain ⟨eof, last, heof, hread, hlast⟩ := h.read
  have hmatch : (Alignment.inFrontOf (token :: ws)).Match (ts ++ [eof]) (ts ++ token :: ws) := by
    have hend : (Alignment.inFrontOf (token :: ws)).Match [eof] (token :: ws) :=
      .ending ⟨heof, rfl⟩
    have happ := hend.append h.noEnd
    rwa [show ts.map (Alignment.inFrontOf (token :: ws)).relabel = ts from List.map_id ts] at happ
  have htoken : token.kind.level = link.level := by rw [TokenKind.level, hl]
  obtain ⟨k, hk, heq⟩ := expression_operand hmatch hread hlast h.isOperand
    (by rwa [front_cons, htoken]) hn hb
  rw [List.length_cons] at hk
  obtain ⟨k, rfl⟩ : ∃ j, k = j + 1 := ⟨k - 1, by omega⟩
  exact ⟨k, by omega, by rw [heq, links_step hl hpos]⟩

/-- A target, a sign and what the sign makes of the target, up to an end. -/
lemma sign_of_ok (h : Operand ts t n) (hl : token.kind.link? = some link) (hpos : 0 < link.level)
    (hlevel : link.level ≤ Level.leading) (hn : n ≤ b + 1) (hb : (ts ++ token :: ws).length ≤ b)
    (hcont : continueWith (expression b) b t token link ws = .ok (e, rest))
    (hrest : (front rest).kind.level = 0) :
    expression (b + 1) 0 (ts ++ token :: ws) = .ok (e, rest) := by
  obtain ⟨k, hk, heq⟩ := h.sign hl hpos hlevel hn hb
  rw [heq, bind_of_ok hcont, links_stop hrest.le hk]

end Operand

/-! ### In front of a closing parenthesis -/

section Closing

variable {n b least : Nat} {ts ws mid last rest gap : List Token} {e : Expr} {close token : Token}
  {f : Token → Token}

/-- A list that goes on, where the first one ends, with separators and something behind them. -/
def Alignment.closedBy (hf : Token.Faithful f) (tail : List Token) : Alignment where
  relabel := f
  faithful := hf
  Ending ts us := AtEnd ts ∧ Quiet us ∧ us.dropWhile (·.kind = .separator) = tail
  atEnd h := h.1

lemma Alignment.Match.closed {hf : Token.Faithful f} {us tail : List Token}
    (hm : (Alignment.closedBy hf tail).Match ts us) (h : AtEnd ts) :
    us.dropWhile (·.kind = .separator) = tail := by
  induction hm with
  | ending hE => exact hE.2.2
  | @cons t ts us ht _ ih =>
      have hsep : t.kind = .separator := h.front_kind.resolve_left ht
      have hkind : ((Alignment.closedBy hf tail).relabel t).kind = .separator :=
        (hf.kind t).trans hsep
      rw [List.dropWhile_cons_of_pos (by simpa using hkind)]
      exact ih ((atEnd_cons hsep).mp h)

/-- An expression that is followed by nothing but separators is read in front of separators and a
token that goes on with nothing. -/
lemma expression_closedBy (hf : Token.Faithful f) (hne : ∀ t ∈ ts, t.kind ≠ .eof)
    (hlast : AtEnd last) (h : expression n least (ts ++ last) = .ok (e, mid))
    (hmid : AtEnd mid) (hn : n ≤ b) {tail : List Token} (hquiet : Quiet ws)
    (htail : ws.dropWhile (·.kind = .separator) = tail) :
    ∃ rest, expression b least (ts.map f ++ ws) = .ok (e.mapTokens f, rest) ∧
      rest.dropWhile (·.kind = .separator) = tail := by
  have hend : (Alignment.closedBy hf tail).Match last ws := .ending ⟨hlast, hquiet, htail⟩
  obtain ⟨rest, hrest, hm⟩ := (Alignment.reads_expression hn least).follows (hend.append hne) h
    fun _ _ _ hE => hE.2.1
  exact ⟨rest, hrest, hm.closed hmid⟩

/-- A closing parenthesis goes on with nothing, and neither do separators in front of it or of an
equals sign. -/
lemma quiet_gap (hgap : ∀ t ∈ gap, t.kind = .separator)
    (hclose : close.kind = .rightParen ∨ gap ≠ [] ∧ close.kind = .equal) :
    Quiet (gap ++ close :: rest) ∧
      (gap ++ close :: rest).dropWhile (·.kind = .separator) = close :: rest := by
  have hne : close.kind ≠ .separator ∧ close.kind ≠ .elseWord ∧ close.kind ≠ .catchWord := by
    rcases hclose with hk | ⟨-, hk⟩ <;> simp [hk]
  refine ⟨?_, by rw [dropWhile_separators hgap, List.dropWhile_cons_of_neg (by simp [hne.1])]⟩
  cases gap with
  | nil =>
      have hparen : close.kind = .rightParen := hclose.resolve_right fun h => h.1 rfl
      exact ⟨.inr (.inr hparen), fun hsep => absurd hsep hne.1⟩
  | cons t gap =>
      refine ⟨.inr (.inl (hgap t List.mem_cons_self)), fun _ => ?_⟩
      cases gap with
      | nil => exact hne.2
      | cons u gap => simp [hgap u (List.mem_cons_of_mem t List.mem_cons_self)]

/-- An expression in parentheses. -/
lemma expression_enclosed (ht : token.kind = .leftParen) (hclose : close.kind = .rightParen)
    (h : expression (b + 1) 0 ws = .ok (e, mid))
    (hmid : mid.dropWhile (·.kind = .separator) = close :: rest)
    (hrest : (front rest).kind.level ≤ least) :
    expression (b + 2) least (token :: ws) = .ok (.plain token (.group e), rest) := by
  have hgroup := group_eq_ok (b := b + 1).mpr ⟨mid, close, h, hmid, hclose⟩
  have hs : token.kind.start? = some .group := by rw [ht]; rfl
  rw [expression_start hs, startWith, bind_of_ok (bind_of_ok hgroup _), links_stop hrest (by omega)]

end Closing

/-! ### Compound and plain assignments, token by token -/

section Tokens

variable {n b : Nat} {ts us ws mid rest : List Token} {t t' v : Expr}
  {token sign opening close : Token}

lemma AtEnd.level (h : AtEnd rest) : (front rest).kind.level = 0 := by
  rcases h.front_kind with hk | hk <;> rw [hk] <;> rfl

/-- What an assignment sign makes of a target and a value. -/
def assigned (o : Option BinaryOp) (token : Token) (t v : Expr) : Except SourceError Expr :=
  match o with
  | none => assignment v token t
  | some op => compoundAssignment op t v token

/-- A target, an assignment sign and a value. -/
lemma Operand.assign (h : Operand ts t n) {o : Option BinaryOp}
    (hl : token.kind.link? = some (.assign o)) (hn : n ≤ b + 1)
    (hb : (ts ++ token :: ws).length ≤ b) (hv : expression b 0 ws = .ok (v, rest))
    (hrest : AtEnd rest) :
    expression (b + 1) 0 (ts ++ token :: ws) = (assigned o token t v).map (·, rest) := by
  obtain ⟨k, hk, heq⟩ := h.sign hl (Nat.le_of_ble_eq_true rfl) (Nat.le_of_ble_eq_true rfl) hn hb
  have hcont : continueWith (expression b) b t token (.assign o) ws =
      (assigned o token t v).map (·, rest) := by
    cases o <;> exact bind_of_ok hv _
  rw [heq, bind_apply, hcont]
  cases assigned o token t v with
  | error err => rfl
  | ok e => exact links_stop hrest.level.le hk

/-- The program of a target, an assignment sign and a value. -/
lemma Operand.parseTokens_assign {source : String} {line m : Nat} {vs : List Token}
    (h : Operand ts t n) {o : Option BinaryOp} (hl : token.kind.link? = some (.assign o))
    (hn : n ≤ ts.length + 3)
    (hv : expression m 0 (vs ++ [Token.endOf source line]) = .ok (v, rest))
    (hm : m ≤ vs.length + 3) (hrest : AtEnd rest) :
    parseTokens (ts ++ token :: vs ++ [Token.endOf source line]) =
      (assigned o token t v).map ([·]) := by
  have hnil := List.length_pos_iff.mpr h.ne_nil
  have htoken : token.kind ≠ .eof ∧ token.kind ≠ .separator := by
    constructor <;> intro hk <;> rw [hk] at hl <;> cases hl
  have hlist : ts ++ token :: vs ++ [Token.endOf source line] =
      ts ++ token :: (vs ++ [Token.endOf source line]) := by
    simp
  refine parseTokens_of_expression rfl ?_ hrest ?_
  · rw [hlist]
    refine h.assign hl ?_ ?_ (expression_mono ?_ hv) hrest
    all_goals simp only [List.length_append, List.length_cons, List.length_nil]; omega
  · rw [hlist]
    exact not_atEnd_append h.noEnd htoken.1 htoken.2

/-- A target, an equals sign, a target again, an operator and a value in parentheses. -/
lemma Operand.assign_binary (h : Operand ts t n) (h' : Operand us t' n) {op : BinaryOp}
    (ht : token.kind = .equal) (hs : sign.kind = op.kind) (ho : opening.kind = .leftParen)
    (hc : close.kind = .rightParen) (hn : n ≤ b + 3)
    (hb : (ts ++ token :: (us ++ sign :: opening :: ws)).length ≤ b + 3)
    (hv : expression (b + 1) 0 ws = .ok (v, mid))
    (hmid : mid.dropWhile (·.kind = .separator) = close :: rest) (hrest : AtEnd rest) :
    expression (b + 4) 0 (ts ++ token :: (us ++ sign :: opening :: ws)) =
      (assignment (.plain sign (.binary op t' (.plain opening (.group v)))) token t).map
        (·, rest) := by
  have hlink : sign.kind.link? = some (.binary op) := by
    rw [hs]
    cases op <;> rfl
  have hlevel : 0 < op.level ∧ op.level ≤ Level.leading := by cases op <;> decide
  have hgroup : expression (b + 2) op.rightLevel (opening :: ws) =
      .ok (.plain opening (.group v), rest) :=
    expression_enclosed ho hc hv hmid (by rw [hrest.level]; exact Nat.zero_le _)
  have hvalue : expression (b + 3) 0 (us ++ sign :: opening :: ws) =
      .ok (.plain sign (.binary op t' (.plain opening (.group v))), rest) := by
    simp only [List.length_append, List.length_cons] at hb
    refine h'.sign_of_ok hlink hlevel.1 hlevel.2 (by omega)
      (by simp only [List.length_append, List.length_cons]; omega) ?_ hrest.level
    rw [continueWith, bind_of_ok hgroup]
    rfl
  have hequal : token.kind.link? = some (.assign none) := by rw [ht]; rfl
  exact h.assign hequal (by omega) hb hvalue hrest

/-- The program of a target, an equals sign, a target again, an operator and a value in
parentheses. -/
lemma Operand.parseTokens_assign_binary {source : String} {line : Nat} {vs : List Token}
    (h : Operand ts t n) (h' : Operand us t' n) {op : BinaryOp} (ht : token.kind = .equal)
    (hs : sign.kind = op.kind) (ho : opening.kind = .leftParen) (hc : close.kind = .rightParen)
    (hn : n ≤ ts.length + us.length + 2)
    (hv : expression (vs.length + 3) 0 (vs ++ [close, Token.endOf source line]) = .ok (v, mid))
    (hmid : mid.dropWhile (·.kind = .separator) = [close, Token.endOf source line]) :
    parseTokens (ts ++ token :: (us ++ sign :: opening :: (vs ++ [close])) ++
        [Token.endOf source line]) =
      (assignment (.plain sign (.binary op t' (.plain opening (.group v)))) token t).map ([·]) := by
  have hlist : ts ++ token :: (us ++ sign :: opening :: (vs ++ [close])) ++
      [Token.endOf source line] = ts ++ token :: (us ++ sign :: opening ::
        (vs ++ [close, Token.endOf source line])) := by
    simp
  have hlength : (ts ++ token :: (us ++ sign :: opening :: (vs ++ [close]))).length =
      ts.length + us.length + vs.length + 4 := by
    simp only [List.length_append, List.length_cons, List.length_nil]
    omega
  have hpos := List.length_pos_iff.mpr h.ne_nil
  have hat : AtEnd [Token.endOf source line] := atEnd_of_eof rfl
  refine parseTokens_of_expression (n := ts.length + us.length + vs.length + 5) (by omega) ?_
    hat ?_
  · rw [hlist]
    refine h.assign_binary (b := ts.length + us.length + vs.length + 2) h' ht hs ho hc (by omega)
      ?_ (expression_mono (by omega) hv) hmid hat
    simp only [List.length_append, List.length_cons, List.length_nil]
    omega
  · rw [hlist]
    exact not_atEnd_append h.noEnd (by simp [ht]) (by simp [ht])

end Tokens

end Parse

/-! ### Compound and plain assignments as texts -/

/-- The sign that joins an operator with assignment, for the seven operators that have one. -/
def BinaryOp.compoundKind? : BinaryOp → Option TokenKind
  | .add => some .plusEqual
  | .subtract => some .minusEqual
  | .multiply => some .starEqual
  | .divide => some .slashEqual
  | .remainder => some .percentEqual
  | .power => some .caretEqual
  | .concat => some .tildeEqual
  | _ => none

/-- An assignment to a name, an index or a member. -/
def Form.isAssignment : Form → Bool
  | .assign _ _ _ | .setIndex _ _ _ | .setMember _ _ _ => true
  | _ => false

lemma Form.isAssignment_of_isOperand {form : Form} (h : form.isOperand = true) :
    form.isAssignment = false := by
  cases form <;> first | rfl | cases h

/-- How an operator is scanned in front of an equals sign and of a blank. -/
lemma BinaryOp.scan_symbol {op : BinaryOp} {kind : TokenKind} (h : op.compoundKind? = some kind) :
    kind.link? = some (.assign (some op)) ∧ Scan.isSign kind = true ∧
      Scan.isSign op.kind = true ∧ kind.elides = true ∧ op.kind.elides = true ∧
      ∃ c, op.symbol.toList = [c] ∧ Scan.isSpace c = false ∧
        (∀ cs, Scan.step c ('=' :: cs) = .plain kind [c, '='] cs) ∧
        ∀ cs, Scan.step c (' ' :: cs) = .plain op.kind [c] (' ' :: cs) := by
  cases op <;> cases h <;>
    exact ⟨rfl, rfl, rfl, rfl, rfl, _, rfl, rfl, fun _ => rfl, fun _ => rfl⟩

/-- A tree with other tokens is the same, parentheses and tokens apart. -/
lemma Expr.bare_ungrouped_mapTokens (f : Token → Token) (e : Expr) :
    (e.mapTokens f).ungrouped.bare = e.ungrouped.bare :=
  Expr.ungrouped_mapTokens (fun _ => default) f e

/-- Whether a form is an expression in parentheses. -/
def Form.isGroup : Form → Bool
  | .group _ => true
  | _ => false

lemma Form.ne_group {form : Form} (h : form.isGroup = false) (inner : Expr) :
    form ≠ .group inner := by
  rintro rfl
  cases h

lemma Expr.bare_ungrouped_plain (token token' : Token) {form form' : Form}
    (hg : form.isGroup = false) (hg' : form'.isGroup = false)
    (h : form.ungrouped.mapTokens (fun _ => default) =
      form'.ungrouped.mapTokens (fun _ => default)) :
    (Expr.plain token form).ungrouped.bare = (Expr.plain token' form').ungrouped.bare := by
  rw [Expr.plain, Expr.plain, Expr.ungrouped_node (Form.ne_group hg),
    Expr.ungrouped_node (Form.ne_group hg'), Expr.bare, Expr.bare, Expr.mapTokens, Expr.mapTokens,
    h]

/-- Values that are alike, parentheses and tokens apart, are assigned to a target alike. -/
lemma assignment_alike {target value value' : Expr} (h : target.isCompoundTarget = true)
    (hv : value.ungrouped.bare = value'.ungrouped.bare) (token token' : Token) :
    ∃ e e', assignment value token target = .ok e ∧ assignment value' token' target = .ok e' ∧
      e.ungrouped.bare = e'.ungrouped.bare := by
  rw [Expr.bare, Expr.bare] at hv
  cases target with
  | node site form =>
      cases form with
      | name x =>
          refine ⟨_, _, rfl, rfl, Expr.bare_ungrouped_plain token token' rfl rfl ?_⟩
          simp only [Form.ungrouped, Form.mapTokens, hv]
      | index target index =>
          refine ⟨_, _, rfl, rfl, Expr.bare_ungrouped_plain token token' rfl rfl ?_⟩
          simp only [Form.ungrouped, Form.mapTokens, hv]
      | member object x safe =>
          cases safe with
          | false =>
              refine ⟨_, _, rfl, rfl, Expr.bare_ungrouped_plain token token' rfl rfl ?_⟩
              simp only [Form.ungrouped, Form.mapTokens, hv]
          | true => cases h
      | _ => cases h

section Texts

open Parse Scan

variable {source T V : String} {t v e : Expr} {raw rawV : List Token} {later laterV : Nat}

lemma parse_of_lexes {text : String} {ts : List Token}
    (h : Lexes source 1 false text.toList ts later) :
    parse source text = parseTokens (ts ++ [Token.endOf source later]) := by
  obtain ⟨raw, hr, rfl⟩ := h
  exact parse_of_reaches hr

/-- How the one expression of a text is read, whether or not separators in front are swallowed. -/
lemma expression_of_parse (hr : Reaches source 1 T.toList raw later [])
    (h : parse source T = .ok [e]) :
    ∃ mid, AtEnd mid ∧ ∀ elide, expression ((separate false raw).length + 2) 0
      (separate elide raw ++ [Token.endOf source later]) = .ok (e, mid) := by
  obtain ⟨rest, hp⟩ := program_of_parse hr h
  obtain ⟨mid, he, hmid⟩ := expression_of_program hp
  refine ⟨mid, hmid rfl, fun elide => ?_⟩
  cases elide with
  | false => exact he
  | true =>
      rw [← expression_dropWhile, ← separate_endOf] at he ⊢
      rwa [← dropWhile_separate]

/-- A text that is a target of a plain assignment. -/
structure TargetText (source T : String) (t : Expr) (raw : List Token) (later : Nat) : Prop where
  reaches : Reaches source 1 T.toList raw later []
  noComment : ∀ u, raw.getLast? = some u → u.isLineComment = false
  operand : ∀ elide, Operand (separate elide raw) t ((separate false raw).length + 2)

lemma map_shift_zero (ts : List Token) : ts.map (.shift 0) = ts :=
  (List.map_congr_left fun _ _ => rfl).trans (List.map_id ts)

/-- The tokens of a target, a sign and a text that goes on behind it on the same line. -/
lemma lexes_sign {cs stretch more : List Char} {c : Char} {kind : TokenKind} {ts : List Token}
    {last : Nat} (hr : Reaches source 1 T.toList raw later [])
    (hline : ∀ u, raw.getLast? = some u → u.isLineComment = false) (hspace : isSpace c = false)
    (hstep : step c (cs ++ ' ' :: more) = .plain kind stretch (' ' :: more))
    (hk : isSign kind = true) (k : Nat) (elide : Bool)
    (hmore : Lexes source (later + k) kind.elides more ts last) :
    Lexes source (1 + k) elide (T.toList ++ ' ' :: c :: (cs ++ ' ' :: more))
      ((separate elide raw).map (.shift k) ++
        ⟨kind, lexeme kind stretch, none, later + k, source⟩ :: ts) last := by
  refine Lexes.behind hr hline ?_ k fun elide => Lexes.sign hstep hk hmore.blank
  rintro d hd
  cases hd
  exact hspace

/-- The first line is below no other. -/
lemma exists_line (hr : Reaches source 1 T.toList raw later []) : ∃ k, later = 1 + k :=
  ⟨later - 1, by have := hr.line_le; omega⟩

/-- The program of a target, an assignment sign and a value. -/
lemma parse_sign {cs stretch : List Char} {c : Char} {kind : TokenKind} {text : String}
    (hr : Reaches source 1 T.toList raw later [])
    (hline : ∀ u, raw.getLast? = some u → u.isLineComment = false)
    (hrV : Reaches source 1 V.toList rawV laterV [])
    (hstep : step c (cs ++ ' ' :: V.toList) = .plain kind stretch (' ' :: V.toList))
    (hspace : isSpace c = false) (hk : isSign kind = true) (helides : kind.elides = true)
    (htext : text.toList = T.toList ++ ' ' :: c :: (cs ++ ' ' :: V.toList)) :
    ∃ token k, token.kind = kind ∧ parse source text = parseTokens
      (separate false raw ++ token :: (separate true rawV).map (.shift k) ++
        [Token.endOf source (laterV + k)]) := by
  obtain ⟨k, rfl⟩ := exists_line hr
  have hmore : Lexes source (1 + k + 0) kind.elides V.toList
      ((separate true rawV).map (.shift k)) (laterV + k) := by
    rw [helides]
    exact Lexes.of_reaches hrV k true
  have hlexes := lexes_sign hr hline hspace hstep hk 0 false hmore
  rw [map_shift_zero, ← htext] at hlexes
  exact ⟨_, k, rfl, parse_of_lexes hlexes⟩

/-- **A target that a plain sign accepts** has nothing behind it. -/
lemma targetText_of_plain {e₀ : Expr} (hr : Reaches source 1 T.toList raw later [])
    (hline : ∀ u, raw.getLast? = some u → u.isLineComment = false)
    (hrV : Reaches source 1 V.toList rawV laterV []) (hT : parse source T = .ok [t])
    (ht : t.form.isOperand = true) (hplain : parse source (T ++ " = " ++ V) = .ok [e₀])
    (h₀ : e₀.form.isAssignment = true) : TargetText source T t raw later := by
  have hne : ∀ {elide}, ∀ u ∈ separate elide raw, u.kind ≠ .eof :=
    kind_ne_eof_of_mem_separate fun u hu => (hr.kind_ne u hu).1
  obtain ⟨mid, hmid, hread⟩ := expression_of_parse hr hT
  refine ⟨hr, hline, fun elide => ⟨hne, ht, _, mid, rfl, hread elide, ?_⟩⟩
  by_contra hfront
  -- Otherwise separators stand behind the target, and the plain sign behind them.
  obtain ⟨taken, seps, hts, rfl, -, htaken⟩ :=
    (expression_passes (hread false)).exists_taken_endOf rfl
  have hseps : ∀ u ∈ seps, u.kind = .separator :=
    hmid.separators fun u hu => hne u (hts ▸ List.mem_append_right taken hu)
  have hnil : seps ≠ [] := by
    rintro rfl
    exact hfront rfl
  have hstep : step '=' ([] ++ ' ' :: V.toList) = .plain .equal ['='] (' ' :: V.toList) := rfl
  obtain ⟨token, k, htoken, hparse⟩ := parse_sign hr hline hrV hstep rfl rfl rfl
    (by simp : (T ++ " = " ++ V).toList = _)
  rw [hparse] at hplain
  obtain ⟨rest, hwhole⟩ := expression_of_parseTokens hplain
  have hlist : separate false raw ++ token :: (separate true rawV).map (.shift k) ++
      [Token.endOf source (laterV + k)] = taken ++ (seps ++ token ::
        ((separate true rawV).map (.shift k) ++ [Token.endOf source (laterV + k)])) := by
    simp [hts]
  have htarget : expression ((separate false raw).length + 2) 0
      (taken ++ (seps ++ [Token.endOf source later])) =
        .ok (t, seps ++ [Token.endOf source later]) := by
    rw [← List.append_assoc, ← hts]
    exact hread false
  obtain ⟨hquiet, hdrop⟩ := quiet_gap hseps (.inr ⟨hnil, htoken⟩)
  have hn : (separate false raw).length + 2 ≤
      (separate false raw ++ token :: (separate true rawV).map (.shift k)).length + 2 := by
    rw [List.length_append]
    omega
  obtain ⟨rest', hfirst, -⟩ := expression_closedBy Token.Faithful.id htaken hmid htarget hmid hn
    hquiet hdrop
  rw [hlist] at hwhole
  rw [List.map_id, Expr.mapTokens_id] at hfirst
  cases hfirst.symm.trans hwhole
  rw [Form.isAssignment_of_isOperand ht] at h₀
  cases h₀

lemma atEnd_map {f : Token → Token} (hf : Token.Faithful f) {ts : List Token} (h : AtEnd ts) :
    AtEnd (ts.map f) := by
  induction ts with
  | nil => exact h
  | cons u ts ih =>
      by_cases hu : u.kind = .separator
      · rw [List.map_cons, atEnd_cons ((hf.kind u).trans hu)]
        exact ih ((atEnd_cons hu).mp h)
      · refine atEnd_of_eof ?_
        rw [List.map_cons, front_cons, hf.kind]
        exact h.front_kind.resolve_right hu

/-- The program of a target, a compound sign and a value. -/
lemma parse_compound {op : BinaryOp} {kind : TokenKind} (hop : op.compoundKind? = some kind)
    (hT : TargetText source T t raw later) (hrV : Reaches source 1 V.toList rawV laterV [])
    (hV : parse source V = .ok [v]) :
    ∃ token k, token.kind = kind ∧ parse source (T ++ " " ++ op.symbol ++ "= " ++ V) =
      (compoundAssignment op t (v.mapTokens (.shift k)) token).map ([·]) := by
  obtain ⟨hlink, hk, -, helides, -, c, hc, hspace, hstep, -⟩ := op.scan_symbol hop
  have htext : (T ++ " " ++ op.symbol ++ "= " ++ V).toList =
      T.toList ++ ' ' :: c :: (['='] ++ ' ' :: V.toList) := by
    simp [hc]
  obtain ⟨token, k, htoken, hparse⟩ := parse_sign hT.reaches hT.noComment hrV (hstep _) hspace hk
    helides htext
  refine ⟨token, k, htoken, ?_⟩
  rw [hparse]
  obtain ⟨mid, hmid, hread⟩ := expression_of_parse hrV hV
  have hlength := length_separate_le rawV
  have hvalue := expression_map (Token.faithful_shift k) (le_refl _) (hread true)
  rw [List.map_append] at hvalue
  refine (hT.operand false).parseTokens_assign (by rw [htoken, hlink]) (by omega) hvalue ?_
    (atEnd_map (Token.faithful_shift k) hmid)
  rw [List.length_map]
  omega

/-- A text in parentheses; behind a comment the closing one is on a line of its own. -/
def enclosed (source text : String) : String :=
  if endsInLineComment source text then "(" ++ text ++ "\n)" else "(" ++ text ++ ")"

lemma isLineComment_eq_false (hr : Reaches source 1 T.toList raw later [])
    (h : endsInLineComment source T = false) :
    ∀ u, raw.getLast? = some u → u.isLineComment = false := by
  intro u hu
  simpa [endsInLineComment, scan_of_reaches hr, hu] using h

lemma toList_enclosed (hr : Reaches source 1 V.toList rawV laterV []) :
    ∃ close, (enclosed source V).toList = '(' :: (V.toList ++ close) ∧
      (close = ['\n', ')'] ∨
        close = [')'] ∧ ∀ u, rawV.getLast? = some u → u.isLineComment = false) := by
  cases h : endsInLineComment source V with
  | true => exact ⟨_, by simp [enclosed, h], .inl rfl⟩
  | false => exact ⟨_, by simp [enclosed, h], .inr ⟨rfl, isLineComment_eq_false hr h⟩⟩

/-- The program of a target, an equals sign, the target again, an operator and a value in
parentheses. -/
lemma parse_desugared {op : BinaryOp} {kind : TokenKind} (hop : op.compoundKind? = some kind)
    (hT : TargetText source T t raw later) (hrV : Reaches source 1 V.toList rawV laterV [])
    (hV : parse source V = .ok [v]) :
    ∃ token sign opening k j,
      parse source (T ++ " = " ++ T ++ " " ++ op.symbol ++ " " ++ enclosed source V) =
        (assignment (.plain sign (.binary op (t.mapTokens (.shift k))
          (.plain opening (.group (v.mapTokens (.shift j)))))) token t).map ([·]) := by
  obtain ⟨-, -, hk, -, helides, c, hc, hspace, -, hstep⟩ := op.scan_symbol hop
  obtain ⟨k, rfl⟩ := exists_line hT.reaches
  obtain ⟨close, htext, hclose⟩ := toList_enclosed hrV
  obtain ⟨gap, paren, last, hgap, hparen, hvalue⟩ := Lexes.closing hrV hclose (k + k) true
  -- The tokens, from the parenthesis at the end to the target in front.
  have hopened : Lexes source (1 + k + k) op.kind.elides ('(' :: (V.toList ++ close))
      (⟨.leftParen, "(", none, 1 + k + k, source⟩ ::
        ((separate true rawV).map (.shift (k + k)) ++ (gap ++ [paren]))) last := by
    rw [Nat.add_assoc]
    exact Lexes.sign rfl rfl hvalue
  have hsymbol : step c ([] ++ ' ' :: '(' :: (V.toList ++ close)) = .plain op.kind [c] _ := hstep _
  have hbinary := lexes_sign hT.reaches hT.noComment hspace hsymbol hk k true hopened
  have hequal : step '=' ([] ++ ' ' :: (T.toList ++ ' ' :: c :: ' ' :: '(' ::
    (V.toList ++ close))) = .plain .equal ['='] _ := rfl
  have hwhole := lexes_sign hT.reaches hT.noComment rfl hequal rfl 0 false hbinary
  have hwritten : (T ++ " = " ++ T ++ " " ++ op.symbol ++ " " ++ enclosed source V).toList =
      T.toList ++ ' ' :: '=' :: ([] ++ ' ' :: (T.toList ++ ' ' :: c :: ' ' :: '(' ::
        (V.toList ++ close))) := by
    simp [hc, htext]
  rw [map_shift_zero, ← hwritten, ← List.append_assoc ((separate true rawV).map _)] at hwhole
  rw [parse_of_lexes hwhole]
  -- The value is read in front of the closing parenthesis as it is in front of the end.
  obtain ⟨mid, hmid, hread⟩ := expression_of_parse hrV hV
  have hgap : Quiet (gap ++ [paren, Token.endOf source last]) ∧ _ = _ :=
    quiet_gap hgap (.inl hparen)
  have hne : ∀ u ∈ separate true rawV, u.kind ≠ .eof :=
    kind_ne_eof_of_mem_separate fun u hu => (hrV.kind_ne u hu).1
  have hlength := length_separate_le rawV
  obtain ⟨rest, hvalue, hrest⟩ := expression_closedBy (Token.faithful_shift (k + k)) hne
    (atEnd_of_eof rfl) (hread true) hmid
    (b := ((separate true rawV).map (Token.shift (k + k)) ++ gap).length + 3)
    (by rw [List.length_append, List.length_map]; omega) hgap.1 hgap.2
  rw [← List.append_assoc] at hvalue
  exact ⟨_, _, _, k, k + k, (hT.operand false).parseTokens_assign_binary
    ((hT.operand true).map (Token.faithful_shift k)) rfl rfl rfl hparen (by omega) hvalue hrest⟩

/-- **A compound assignment is the assignment it stands for.** A target that an equals sign accepts
and that ends in no comment, which the sign would be part of, is assigned the operator applied to
the target and the value in parentheses. A compound sign in place of the equals sign gives the same
tree, parentheses and tokens apart, if the target has one pair of parentheses around it at most;
with more it is refused. -/
theorem parse_compound_assignment {op : BinaryOp} {kind : TokenKind} {e₀ : Expr}
    (hop : op.compoundKind? = some kind) (hT : parse source T = .ok [t])
    (ht : t.core.isCompoundTarget = true) (hc : endsInLineComment source T = false)
    (hV : parse source V = .ok [v]) (hplain : parse source (T ++ " = " ++ V) = .ok [e₀])
    (h₀ : e₀.form.isAssignment = true) :
    ∃ e', parse source (T ++ " = " ++ T ++ " " ++ op.symbol ++ " " ++ enclosed source V) =
        .ok [e'] ∧
      (t.pairs ≤ 1 → ∃ e, parse source (T ++ " " ++ op.symbol ++ "= " ++ V) = .ok [e] ∧
        e.ungrouped.bare = e'.ungrouped.bare) ∧
      (1 < t.pairs → ∃ token, token.kind = kind ∧
        parse source (T ++ " " ++ op.symbol ++ "= " ++ V) =
          .error (.parse token .invalidCompoundTarget)) := by
  obtain ⟨raw, later, hr⟩ := reaches_of_parse hT
  obtain ⟨rawV, laterV, hrV⟩ := reaches_of_parse hV
  have htarget := targetText_of_plain hr (isLineComment_eq_false hr hc) hrV hT
    (Expr.isOperand_of_core ht) hplain h₀
  obtain ⟨token, k, htoken, hcompound⟩ := parse_compound hop htarget hrV hV
  obtain ⟨token', sign, opening, j, i, hdesugared⟩ := parse_desugared hop htarget hrV hV
  rw [compoundAssignment_eq op ht] at hcompound
  rw [assignment_core] at hdesugared
  have hvalues : (Expr.plain token (.binary op t.core (v.mapTokens (.shift k)))).ungrouped.bare =
      (Expr.plain sign (.binary op (t.mapTokens (.shift j))
        (.plain opening (.group (v.mapTokens (.shift i)))))).ungrouped.bare := by
    have htargets : t.core.ungrouped.bare = (t.mapTokens (.shift j)).ungrouped.bare := by
      rw [Expr.ungrouped_core, Expr.bare_ungrouped_mapTokens]
    have hright : (v.mapTokens (.shift k)).ungrouped.bare =
        (Expr.plain opening (.group (v.mapTokens (.shift i)))).ungrouped.bare := by
      rw [Expr.plain, Expr.ungrouped, Expr.bare_ungrouped_mapTokens, Expr.bare_ungrouped_mapTokens]
    rw [Expr.bare, Expr.bare] at htargets hright
    refine Expr.bare_ungrouped_plain token sign rfl rfl ?_
    simp only [Form.ungrouped, Form.mapTokens, htargets, hright]
  obtain ⟨e, e', he, he', heq⟩ := assignment_alike ht hvalues token token'
  rw [he'] at hdesugared
  refine ⟨e', hdesugared, fun hp => ⟨e, ?_, heq⟩, fun hp => ⟨token, htoken, ?_⟩⟩
  · rw [hcompound, if_pos hp, he]
    rfl
  · rw [hcompound, if_neg (by omega)]
    rfl

/-- A target in one pair of parentheses, and an assignment as its value. -/
theorem parse_compound_assignment_enclosed :
    ∃ e e', parse "<test>" "(a) += b = c" = .ok [e] ∧
      parse "<test>" "(a) = (a) + (b = c)" = .ok [e'] ∧
      e.ungrouped.bare = e'.ungrouped.bare := by
  have hT : parse "<test>" "(a)" = .ok
      [.node ⟨⟨.leftParen, "(", none, 1, "<test>"⟩, []⟩
        (.group (.node ⟨⟨.identifier, "a", none, 1, "<test>"⟩, []⟩ (.name "a")))] := by
    have htokens : tokensOf "<test>" "(a)" = .ok
        [⟨.leftParen, "(", none, 1, "<test>"⟩, ⟨.identifier, "a", none, 1, "<test>"⟩,
          ⟨.rightParen, ")", none, 1, "<test>"⟩, .endOf "<test>" 1] := rfl
    exact (parse_of_tokensOf htokens).trans rfl
  have hV : parse "<test>" "b = c" = .ok
      [.node ⟨⟨.equal, "=", none, 1, "<test>"⟩, []⟩
        (.assign "b" (.node ⟨⟨.identifier, "c", none, 1, "<test>"⟩, []⟩ (.name "c")) false)] := by
    have htokens : tokensOf "<test>" "b = c" = .ok
        [⟨.identifier, "b", none, 1, "<test>"⟩, ⟨.equal, "=", none, 1, "<test>"⟩,
          ⟨.identifier, "c", none, 1, "<test>"⟩, .endOf "<test>" 1] := rfl
    exact (parse_of_tokensOf htokens).trans rfl
  have hplain : parse "<test>" ("(a)" ++ " = " ++ "b = c") = .ok
      [.node ⟨⟨.equal, "=", none, 1, "<test>"⟩, []⟩
        (.assign "a" (.node ⟨⟨.equal, "=", none, 1, "<test>"⟩, []⟩
          (.assign "b" (.node ⟨⟨.identifier, "c", none, 1, "<test>"⟩, []⟩ (.name "c")) false))
          false)] := by
    have htokens : tokensOf "<test>" ("(a)" ++ " = " ++ "b = c") = .ok
        [⟨.leftParen, "(", none, 1, "<test>"⟩, ⟨.identifier, "a", none, 1, "<test>"⟩,
          ⟨.rightParen, ")", none, 1, "<test>"⟩, ⟨.equal, "=", none, 1, "<test>"⟩,
          ⟨.identifier, "b", none, 1, "<test>"⟩, ⟨.equal, "=", none, 1, "<test>"⟩,
          ⟨.identifier, "c", none, 1, "<test>"⟩, .endOf "<test>" 1] := rfl
    exact (parse_of_tokensOf htokens).trans rfl
  have hcomment : endsInLineComment "<test>" "(a)" = false := rfl
  have hcomment' : endsInLineComment "<test>" "b = c" = false := rfl
  have henclosed : enclosed "<test>" "b = c" = "(" ++ "b = c" ++ ")" := by
    rw [enclosed, hcomment']
    rfl
  have hadd : BinaryOp.add.compoundKind? = some .plusEqual := rfl
  obtain ⟨e', he', hsame, -⟩ := parse_compound_assignment hadd hT rfl hcomment hV hplain rfl
  obtain ⟨e, he, heq⟩ := hsame (by decide)
  rw [henclosed] at he'
  exact ⟨e, e', he, he', heq⟩

/-- Two pairs of parentheses are accepted by an equals sign, and not by a compound one. -/
theorem not_parse_compound_assignment :
    ∃ t v e₀, parse "<test>" "((a))" = .ok [t] ∧ t.core.isCompoundTarget = true ∧
      parse "<test>" "b" = .ok [v] ∧ parse "<test>" "((a)) = b" = .ok [e₀] ∧
      e₀.form.isAssignment = true ∧ ∀ e, parse "<test>" "((a)) += b" ≠ .ok [e] := by
  have hT : parse "<test>" "((a))" = .ok
      [.node ⟨⟨.leftParen, "(", none, 1, "<test>"⟩, []⟩
        (.group (.node ⟨⟨.leftParen, "(", none, 1, "<test>"⟩, []⟩
          (.group (.node ⟨⟨.identifier, "a", none, 1, "<test>"⟩, []⟩ (.name "a")))))] := by
    have htokens : tokensOf "<test>" "((a))" = .ok
        [⟨.leftParen, "(", none, 1, "<test>"⟩, ⟨.leftParen, "(", none, 1, "<test>"⟩,
          ⟨.identifier, "a", none, 1, "<test>"⟩, ⟨.rightParen, ")", none, 1, "<test>"⟩,
          ⟨.rightParen, ")", none, 1, "<test>"⟩, .endOf "<test>" 1] := rfl
    exact (parse_of_tokensOf htokens).trans rfl
  have hV : parse "<test>" "b" = .ok
      [.node ⟨⟨.identifier, "b", none, 1, "<test>"⟩, []⟩ (.name "b")] := by
    have htokens : tokensOf "<test>" "b" = .ok
        [⟨.identifier, "b", none, 1, "<test>"⟩, .endOf "<test>" 1] := rfl
    exact (parse_of_tokensOf htokens).trans rfl
  have hplain : parse "<test>" "((a)) = b" = .ok
      [.node ⟨⟨.equal, "=", none, 1, "<test>"⟩, []⟩
        (.assign "a" (.node ⟨⟨.identifier, "b", none, 1, "<test>"⟩, []⟩ (.name "b")) false)] := by
    have htokens : tokensOf "<test>" "((a)) = b" = .ok
        [⟨.leftParen, "(", none, 1, "<test>"⟩, ⟨.leftParen, "(", none, 1, "<test>"⟩,
          ⟨.identifier, "a", none, 1, "<test>"⟩, ⟨.rightParen, ")", none, 1, "<test>"⟩,
          ⟨.rightParen, ")", none, 1, "<test>"⟩, ⟨.equal, "=", none, 1, "<test>"⟩,
          ⟨.identifier, "b", none, 1, "<test>"⟩, .endOf "<test>" 1] := rfl
    exact (parse_of_tokensOf htokens).trans rfl
  have hcompound : parse "<test>" "((a)) += b" =
      .error (.parse ⟨.plusEqual, "+=", none, 1, "<test>"⟩ .invalidCompoundTarget) := by
    have htokens : tokensOf "<test>" "((a)) += b" = .ok
        [⟨.leftParen, "(", none, 1, "<test>"⟩, ⟨.leftParen, "(", none, 1, "<test>"⟩,
          ⟨.identifier, "a", none, 1, "<test>"⟩, ⟨.rightParen, ")", none, 1, "<test>"⟩,
          ⟨.rightParen, ")", none, 1, "<test>"⟩, ⟨.plusEqual, "+=", none, 1, "<test>"⟩,
          ⟨.identifier, "b", none, 1, "<test>"⟩, .endOf "<test>" 1] := rfl
    exact (parse_of_tokensOf htokens).trans rfl
  refine ⟨_, _, _, hT, rfl, hV, hplain, rfl, fun e he => ?_⟩
  rw [hcompound] at he
  cases he

end Texts

end Tern
