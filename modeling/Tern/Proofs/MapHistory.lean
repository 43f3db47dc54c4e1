/-
Maps keep the order of insertion. Whatever a program does with a map, the map answers as the log of
what was put into it and dropped from it says; what else happens in the session, also to lists and
maps that are its keys, makes no difference.

* `Eval.callMember`, `Eval.callMember_of_operation?`: operations of the library, called by their
  names; `Eval.callMember_map`: those of maps.
* `Eval.evalPairs`, `Eval.evalEntries_eq`: a map that is written out is put together in order.
* `Session.MapHistory`: what was done to a map up to a session.
* `Session.AnswersMap`: a session in which a map answers as a log says.
* `Session.maps_keep_insertion_order`: the result.
-/
import Mathlib.Tactic
import Tern.Proofs.ChangeLog
import Tern.Proofs.Delegation

namespace Tern

/-! ### Operations by their names -/

/-- The operation that a class has under a name for a number of arguments. -/
def Heap.operation? (h : Heap) (ref : ClassRef) (name : String) (count : Nat) :
    Option Primitive := do
  let c ← h.class? ref
  let m ← c.methods.find? name
  let n ← m.native?
  let f ← h.native? n
  f.select? count

/-- The operations of maps, with their names and the numbers of their arguments. -/
def Library.mapOperations : List (String × Nat × Primitive) :=
  [("keys", 0, .keys), ("values", 0, .values), ("has", 1, .hasKey), ("get", 1, .getKey),
    ("get", 2, .getKey), ("remove", 1, .removeKey)]

lemma Library.operation?_map : ∀ o ∈ mapOperations,
    Library.heap.operation? BuiltinClass.map.ref o.1 o.2.1 = some o.2.2 := by
  decide +kernel

namespace Eval

variable {run : Runner} {s s' : Session} {r : MapRef}

/-- Calls a member of a value. -/
def callMember (run : Runner) (receiver : Value) (name : String) (arguments : List Value) :
    Eval Value := do
  callValue run (← getMember receiver name) arguments

lemma primitive_map {o : String × Nat × Primitive} (ho : o ∈ Library.mapOperations)
    (arguments : List Value) :
    primitive run o.2.2 arguments = entryOperation o.2.2 arguments := by
  simp only [Library.mapOperations, List.mem_cons, List.not_mem_nil, or_false] at ho
  rcases ho with rfl | rfl | rfl | rfl | rfl | rfl <;> rfl

/-- A member of a value that is no object is the operation that the class of the value has in the
library. -/
lemma callMember_of_operation? {operation : Primitive} (hl : s.HasLibrary) (v : Value)
    (name : String) (arguments : List Value) (hv : ∀ r, v ≠ .object r)
    (hop : Library.heap.operation? (s.heap.classOf v) name arguments.length = some operation) :
    callMember run v name arguments s = primitive run operation (v :: arguments) s := by
  simp only [Heap.operation?, Option.bind_eq_bind, Option.bind_eq_some_iff] at hop
  obtain ⟨c, hc, m, hm, n, hn, f, hf, hselect⟩ := hop
  cases m with
  | user code => cases hn
  | native n' =>
      cases hn
      have hclass : s.heap.class? (s.heap.classOf v) = some c := hl.class? hc
      have hmember : getMember v name s = .ok (.bound n v) s := by
        cases v with
        | object r => exact absurd rfl (hv r)
        | _ =>
            simp only [getMember, findMember?, classMember?, bind_apply, heap_apply, hclass, hm,
              pure_apply]
      simp only [callMember, callValue, callNative, bind_apply, hmember, heap_apply,
        hl.native? hf, hselect]
      rfl

/-- The members of maps are the operations of the library. -/
lemma callMember_map (hl : s.HasLibrary) (o : String × Nat × Primitive) {arguments : List Value}
    (ho : o ∈ Library.mapOperations) (hcount : arguments.length = o.2.1) :
    callMember run (.map r) o.1 arguments s = entryOperation o.2.2 (.map r :: arguments) s := by
  have hop := Library.operation?_map o ho
  rw [← hcount] at hop
  rw [callMember_of_operation? hl (.map r) o.1 arguments (fun _ h => by cases h) hop,
    primitive_map ho]

/-- The class of maps makes an empty one. -/
lemma instantiate_map (hl : s.HasLibrary) :
    instantiate run BuiltinClass.map.ref [] s = newMap [] s := by
  have hinit : ((Library.heap.class? BuiltinClass.map.ref).map fun c =>
      (c.synthetic, ((c.init.bind Library.heap.native?).bind (·.select? 0)))) =
        some (true, some .newMap) := by
    decide +kernel
  obtain ⟨c, hc, hmade⟩ := Option.map_eq_some_iff.mp hinit
  obtain ⟨hsynthetic, hselect⟩ := Prod.mk.inj hmade
  obtain ⟨f, hf, hselect⟩ := Option.bind_eq_some_iff.mp hselect
  obtain ⟨n, hn, hf⟩ := Option.bind_eq_some_iff.mp hf
  have hnative : c.init.bind s.heap.native? = some f := by
    rw [hn]
    exact hl.native? hf
  simp only [instantiate, bind_apply, heap_apply, hl.class? hc, hsynthetic, if_true, hnative,
    callNative, List.length_nil, hselect]
  rfl

/-! ### Maps that are written out -/

/-- The keys and values of a map that is written out, in order. -/
def evalPairs (run : Runner) : List (Expr × Expr) → Eval (List (Value × Value))
  | [] => pure []
  | (key, value) :: rest => do
    let k ← run (.expr key)
    let v ← run (.expr value)
    let pairs ← evalPairs run rest
    return (k, v) :: pairs

/-- They are put in one after the other. -/
lemma evalEntries_eq (run : Runner) (done : Entries) (pairs : List (Expr × Expr)) :
    evalEntries run done pairs =
      (fun found => found.foldl (fun m e => m.insert e.1 e.2) done) <$> evalPairs run pairs := by
  induction pairs generalizing done with
  | nil => simp [evalEntries, evalPairs]
  | cons pair rest ih => simp [evalEntries, evalPairs, ih]

end Eval

/-! ### Histories -/

namespace Session

open Eval

/-- What was done to a map up to a session. The map was written out or made by its class; since
then values were put under keys by assignment, and keys were removed. What else happened left the
cell of the map as it was. -/
inductive MapHistory (r : MapRef) : Log → Session → Prop
  | literal {rounds : Nat} {run : Runner} {site : Site} {pairs : List (Expr × Expr)}
      {found : List (Value × Value)} {s s₁ s' : Session}
      (hparts : evalPairs run pairs s = .ok found s₁)
      (h : evalForm rounds run site (.map pairs) s = .ok (.map r) s') :
      MapHistory r (found.map fun e => .put e.1 e.2) s'
  | made {run : Runner} {s s' : Session} (hl : s.HasLibrary)
      (h : instantiate run BuiltinClass.map.ref [] s = .ok (.map r) s') : MapHistory r [] s'
  | assign {log : Log} {s s' : Session} {k v : Value} (hh : MapHistory r log s)
      (h : setIndex (.map r) k v s = .ok () s') : MapHistory r (log ++ [.put k v]) s'
  | remove {run : Runner} {log : Log} {s s' : Session} {k old : Value} (hh : MapHistory r log s)
      (hl : s.HasLibrary) (h : callMember run (.map r) "remove" [k] s = .ok old s') :
      MapHistory r (log ++ [.drop k]) s'
  | elsewhere {log : Log} {s s' : Session} (hh : MapHistory r log s)
      (h : s'.heap.maps[r.index]? = s.heap.maps[r.index]?) : MapHistory r log s'

variable {r : MapRef} {log : Log} {s s' : Session}

/-- A map that is written out records what it is written with. -/
lemma records_foldl_insert {log : Log} {m : Entries} (hm : m.Records log)
    (found : List (Value × Value)) :
    (found.foldl (fun m e => m.insert e.1 e.2) m).Records
      (log ++ found.map fun e => .put e.1 e.2) := by
  induction found generalizing log m with
  | nil => rwa [List.map_nil, List.append_nil]
  | cons e rest ih =>
      rw [List.map_cons, List.append_cons]
      exact ih (hm.put e.1 e.2)

lemma getElem?_modify_of_eq_some {α : Type} {cells : Array α} {i : Nat} {a : α}
    (h : cells[i]? = some a) (f : α → α) : (cells.modify i f)[i]? = some (f a) := by
  rw [Array.getElem?_modify, if_pos rfl, h, Option.map_some]

/-- The cell of a map records its history. -/
theorem MapHistory.records (hh : MapHistory r log s) :
    ∃ m, s.heap.maps[r.index]? = some m ∧ m.Records log := by
  induction hh with
  | @literal rounds run site pairs found s s₁ s' hparts h =>
      simp only [evalForm, evalEntries_eq, bind_apply, map_apply, hparts] at h
      cases h
      refine ⟨_, Array.getElem?_push_size, ?_⟩
      exact records_foldl_insert .nil found
  | made hl h =>
      rw [instantiate_map hl] at h
      cases h
      exact ⟨_, Array.getElem?_push_size, .nil⟩
  | @assign log s s' k v _ h ih =>
      obtain ⟨m, hm, hrecords⟩ := ih
      cases h
      exact ⟨_, getElem?_modify_of_eq_some hm _, hrecords.put k v⟩
  | @remove run log s s' k old _ hl h ih =>
      obtain ⟨m, hm, hrecords⟩ := ih
      rw [callMember_map hl ("remove", 1, .removeKey) (by decide) rfl] at h
      cases h
      exact ⟨_, getElem?_modify_of_eq_some hm _, hrecords.drop k⟩
  | elsewhere _ h ih =>
      rwa [h]

/-- A history goes on with any assignment. -/
lemma MapHistory.exists_assign (hh : MapHistory r log s) (hl : s.HasLibrary) (k v : Value) :
    ∃ s', MapHistory r (log ++ [.put k v]) s' ∧ s'.HasLibrary :=
  ⟨_, .assign hh rfl, hl.trans (Heap.grows_modifyMap _ _ _)⟩

/-- A history goes on with any removal. -/
lemma MapHistory.exists_remove (hh : MapHistory r log s) (hl : s.HasLibrary) (run : Runner)
    (k : Value) : ∃ s', MapHistory r (log ++ [.drop k]) s' ∧ s'.HasLibrary := by
  have hremove : callMember run (.map r) "remove" [k] s =
      .ok (((s.heap.entries r).find? k).getD .null)
        { s with heap := s.heap.modifyMap r (·.erase k) } :=
    callMember_map hl ("remove", 1, .removeKey) (by decide) rfl
  exact ⟨_, .remove hh hl hremove, hl.trans (Heap.grows_modifyMap _ _ _)⟩

/-! ### What a map answers -/

/-- In a session a map answers as a log says. Its keys are different as keys, and there is a value
under each of them. Indexing and the members `has` and `get` find what is stored, and no more. The
members `keys` and `values` and loops go through what is listed, in its order. Assignment and the
member `remove` succeed for every key. -/
structure AnswersMap (s : Session) (r : MapRef) (log : Log) : Prop where
  apart : log.entered.Pairwise fun k k' => k.sameKey k' = false
  present : ∀ k, (log.stored? k).isSome = true ↔ ∃ k' ∈ log.entered, k'.sameKey k = true
  index : ∀ k, getIndex (.map r) k s = match log.stored? k with
    | some v => .ok v s
    | none => .error (.fault (.noKey (s.heap.display k)) []) s
  has : ∀ run k, callMember run (.map r) "has" [k] s = .ok (.bool (log.stored? k).isSome) s
  get : ∀ run k, callMember run (.map r) "get" [k] s = .ok ((log.stored? k).getD .null) s
  getOr : ∀ run k default,
    callMember run (.map r) "get" [k, default] s = .ok ((log.stored? k).getD default) s
  keys : ∀ run, callMember run (.map r) "keys" [] s = newList log.entered.toArray s
  values : ∀ run, callMember run (.map r) "values" [] s = newList log.listing.values.toArray s
  loop : ∀ rounds run site pattern iterable body s₀, run (.expr iterable) s₀ = .ok (.map r) s →
    evalForm rounds run site (.forLoop pattern iterable body) s₀ =
      loopItems run site pattern body .null (log.listing.map fun e => .tuple [e.1, e.2]) s
  assign : ∀ k v, ∃ s', setIndex (.map r) k v s = .ok () s'
  remove : ∀ run k, ∃ s',
    callMember run (.map r) "remove" [k] s = .ok ((log.stored? k).getD .null) s'

/-- A map whose cell records a log answers as the log says. -/
lemma answersMap_of_records (hl : s.HasLibrary) (hr : (s.heap.entries r).Records log) :
    s.AnswersMap r log where
  apart := by
    rw [← hr.keys]
    exact Entries.apart_iff.mp hr.apart
  present k := by
    rw [← hr.find, ← hr.keys, ← not_iff_not, Bool.not_eq_true, Option.isSome_eq_false_iff,
      Option.isNone_iff_eq_none, Entries.find?_eq_none_iff]
    simp
  index k := by
    simp only [getIndex, bind_apply, heap_apply, hr.find]
    cases log.stored? k <;> rfl
  has run k := by
    rw [callMember_map hl ("has", 1, .hasKey) (by decide) rfl, ← hr.find]
    rfl
  get run k := by
    rw [callMember_map hl ("get", 1, .getKey) (by decide) rfl, ← hr.find]
    rfl
  getOr run k default := by
    rw [callMember_map hl ("get", 2, .getKey) (by decide) rfl, ← hr.find]
    rfl
  keys run := by
    rw [callMember_map hl ("keys", 0, .keys) (by decide) rfl, ← hr.keys]
    rfl
  values run := by
    rw [callMember_map hl ("values", 0, .values) (by decide) rfl, ← hr.eq_listing]
    rfl
  loop rounds run site pattern iterable body s₀ hs := by
    simp only [evalForm, iterationItems, bind_apply, hs, heap_apply, pure_apply, ← hr.eq_listing]
  assign k v := ⟨_, rfl⟩
  remove run k := by
    rw [callMember_map hl ("remove", 1, .removeKey) (by decide) rfl, ← hr.find]
    exact ⟨_, rfl⟩

/-- **Maps keep the order of insertion.** To be the same key is an equivalence, and in every session
that a host can come across no map has two entries with the same key. After everything that was
done to a map, the map answers as the log of what was put into it and removed from it says. -/
theorem maps_keep_insertion_order :
    Equivalence (fun a b : Value => a.sameKey b = true) ∧
      (∀ s : Session, s.Reachable → s.HasLibrary ∧ s.heap.KeysApart) ∧
      ∀ (r : MapRef) (log : Log) (s : Session), MapHistory r log s → s.HasLibrary →
        s.AnswersMap r log := by
  refine ⟨⟨Value.sameKey_refl, fun {a b} h => ?_, fun {a b c} h₁ h₂ => ?_⟩, fun s hs => ?_,
    fun r log s hh hl => ?_⟩
  · rwa [Value.sameKey_comm]
  · rwa [Value.sameKey_congr h₁]
  · exact ⟨hs.sound.heap.library, hs.sound.heap.keysApart⟩
  · obtain ⟨m, hm, hrecords⟩ := hh.records
    refine answersMap_of_records hl ?_
    rwa [Heap.entries, hm]

/-- A history in which a list is a key, alone and in a tuple, and `-0` is put where `0` is. -/
def mixedLog : Log :=
  [.put (.list ⟨0⟩) (.text "a"), .put (.number 0) (.text "b"), .drop (.list ⟨0⟩),
    .put (.tuple [.list ⟨0⟩]) .null, .put (.number (-0)) (.text "c"), .put (.list ⟨0⟩) (.text "d")]

lemma exists_mapHistory_mixedLog : ∃ s : Session, MapHistory ⟨0⟩ mixedLog s ∧ s.HasLibrary := by
  let s₀ : Session := { initial with heap := (initial.heap.addList #[]).2 }
  have hl₀ : s₀.HasLibrary := hasLibrary_initial.trans (Heap.grows_addList _ _)
  have hmade : instantiate (perform 0 0 0) BuiltinClass.map.ref [] s₀ =
      .ok (.map ⟨0⟩) { s₀ with heap := (s₀.heap.addMap []).2 } := instantiate_map hl₀
  have h : MapHistory ⟨0⟩ [] { s₀ with heap := (s₀.heap.addMap []).2 } := .made hl₀ hmade
  have hl : Session.HasLibrary { s₀ with heap := (s₀.heap.addMap []).2 } :=
    hl₀.trans (Heap.grows_addMap _ _)
  obtain ⟨s₁, h₁, hl₁⟩ := h.exists_assign hl (.list ⟨0⟩) (.text "a")
  obtain ⟨s₂, h₂, hl₂⟩ := h₁.exists_assign hl₁ (.number 0) (.text "b")
  obtain ⟨s₃, h₃, hl₃⟩ := h₂.exists_remove hl₂ (perform 0 0 0) (.list ⟨0⟩)
  obtain ⟨s₄, h₄, hl₄⟩ := h₃.exists_assign hl₃ (.tuple [.list ⟨0⟩]) .null
  -- The list that is a key comes to contain the map.
  let s₅ : Session := { s₄ with heap := s₄.heap.modifyList ⟨0⟩ (·.push (.map ⟨0⟩)) }
  have h₅ : MapHistory ⟨0⟩ _ s₅ := .elsewhere h₄ rfl
  have hl₅ : s₅.HasLibrary := hl₄.trans (Heap.grows_modifyList _ _ _)
  obtain ⟨s₆, h₆, hl₆⟩ := h₅.exists_assign hl₅ (.number (-0)) (.text "c")
  exact h₆.exists_assign hl₆ (.list ⟨0⟩) (.text "d")

theorem maps_keep_insertion_order_mixed : ∃ s : Session, MapHistory ⟨0⟩ mixedLog s ∧
    s.HasLibrary ∧ getIndex (.map ⟨0⟩) (.number 0) s = .ok (.text "c") s ∧
    (∀ run, callMember run (.map ⟨0⟩) "keys" [] s =
      newList #[.number 0, .tuple [.list ⟨0⟩], .list ⟨0⟩] s) ∧
    ∀ run, callMember run (.map ⟨0⟩) "values" [] s =
      newList #[.text "c", .null, .text "d"] s := by
  obtain ⟨s, hh, hl⟩ := exists_mapHistory_mixedLog
  have hanswers : s.AnswersMap ⟨0⟩ mixedLog := maps_keep_insertion_order.2.2 _ _ s hh hl
  exact ⟨s, hh, hl, hanswers.index _, hanswers.keys, hanswers.values⟩

end Session

end Tern
