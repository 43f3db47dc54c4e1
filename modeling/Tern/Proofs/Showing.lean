/-
How values are shown, by rules. A list or map is abbreviated where it stands inside itself and
written out everywhere else, however often that is. There is a text for every value by these rules,
and only one; and for a value without cycles it is the one that plain recursion over its parts
gives.

* `Heap.inside`, `Heap.layout`: what is written inside a value, and how it is laid out;
* `Heap.Shows`: the texts of a value inside the collections that are open around it;
* `Heap.Prints`: the texts of a value by plain recursion;
* `Heap.Opened`: the open collections are different cells of the heap, so there is always room for
  another one;
* `Heap.display_shows`: values are displayed by the rules.
-/
import Mathlib.Tactic
import Tern.Proofs.Keys
import Tern.Value.Display

namespace Tern

/-- A cell as a value. -/
def Container.value : Container → Value
  | .list r => .list r
  | .map r => .map r

/-- The cell that a value is, if it is a list or a map. -/
def Value.container? : Value → Option Container
  | .list r => some (.list r)
  | .map r => some (.map r)
  | _ => none

/-- The text of a value on its own, given its text inside a collection: a string has no quotes. -/
def Value.bare : Value → String → String
  | .text s, _ => s
  | _, t => t

lemma Value.eq_value_of_container? {v : Value} {c : Container} (hv : v.container? = some c) :
    v = c.value := by
  cases v <;> cases hv <;> rfl

namespace Heap

/-! ### The rules -/

/-- The values that are written inside a value. -/
def inside (h : Heap) : Value → List Value
  | .tuple items => items
  | .list r => (h.items r).toList
  | .map r => (h.entries r).flatMap fun e => [e.1, e.2]
  | _ => []

/-- The text of a value that is written out, given the texts of its parts. -/
def layout (h : Heap) (text : Value → String) : Value → String
  | .null => "null"
  | .bool true => "true"
  | .bool false => "false"
  | .number x => Number.print x
  | .text s => Text.quote s
  | .tuple items =>
    "(" ++ ", ".intercalate (items.map text) ++ (if items.length = 1 then "," else "") ++ ")"
  | .list r => "[" ++ ", ".intercalate ((h.items r).toList.map text) ++ "]"
  | .map r =>
    if (h.entries r).isEmpty then "[:]"
    else
      "[" ++ ", ".intercalate ((h.entries r).map fun e => text e.1 ++ ": " ++ text e.2) ++ "]"
  | .object r => "<" ++ h.objectClassName r ++ " instance>"
  | .classOf r => "<class " ++ h.className r ++ ">"
  | .function r => "<fn " ++ h.functionName r ++ ">"
  | .native r | .bound r _ => "<native fn " ++ h.nativeName r ++ ">"

/-- The texts of a value inside the collections of a path. A collection of the path is abbreviated,
and everything else is written out, with its parts one collection further inside. -/
inductive Shows (h : Heap) : List Container → Value → String → Prop
  | again {path : List Container} {v : Value} {c : Container} (hv : v.container? = some c)
      (hc : c ∈ path) : Shows h path v "[...]"
  | inFull {path : List Container} {v : Value} {text : Value → String}
      (hv : ∀ c, v.container? = some c → c ∉ path)
      (hparts : ∀ w ∈ h.inside v, Shows h (v.container?.toList ++ path) w (text w)) :
      Shows h path v (h.layout text v)

/-- The texts of a value by plain recursion over its parts. -/
inductive Prints (h : Heap) : Value → String → Prop
  | inFull {v : Value} {text : Value → String} (hparts : ∀ w ∈ h.inside v, Prints h w (text w)) :
      Prints h v (h.layout text v)

/-- A value is written directly inside another one. -/
def Has (h : Heap) (v w : Value) : Prop := w ∈ h.inside v

/-- No collection that is reached from a value is reached from itself. -/
def Acyclic (h : Heap) (v : Value) : Prop :=
  ∀ c : Container, Relation.ReflTransGen h.Has v c.value → ¬ Relation.TransGen h.Has c.value c.value

variable {h : Heap} {v w : Value} {c : Container} {free : Nat} {path : List Container}
  {t t' : String}

lemma layout_congr {text text' : Value → String} (heq : ∀ w ∈ h.inside v, text w = text' w) :
    h.layout text v = h.layout text' v := by
  cases v with
  | tuple items =>
      rw [inside] at heq
      rw [layout, layout, List.map_congr_left heq]
  | list r =>
      rw [inside] at heq
      rw [layout, layout, List.map_congr_left heq]
  | map r =>
      have hentries : ∀ e ∈ h.entries r,
          text e.1 ++ ": " ++ text e.2 = text' e.1 ++ ": " ++ text' e.2 := by
        intro e he
        rw [heq e.1 (List.mem_flatMap.mpr ⟨e, he, List.mem_cons_self⟩),
          heq e.2 (List.mem_flatMap.mpr ⟨e, he, List.mem_cons_of_mem _ List.mem_cons_self⟩)]
      rw [layout, layout, List.map_congr_left hentries]
  | bool b => cases b <;> rfl
  | _ => rfl

/-- There is one text at most. -/
lemma Shows.unique (h₁ : h.Shows path v t) (h₂ : h.Shows path v t') : t = t' := by
  induction h₁ generalizing t' with
  | again hv hc =>
      cases h₂ with
      | again => rfl
      | inFull hnew => exact absurd hc (hnew _ hv)
  | inFull hnew _ ih =>
      cases h₂ with
      | again hv hc => exact absurd hc (hnew _ hv)
      | inFull _ hparts => exact layout_congr fun w hw => ih w hw (hparts w hw)

lemma Prints.unique (h₁ : h.Prints v t) (h₂ : h.Prints v t') : t = t' := by
  induction h₁ generalizing t' with
  | inFull _ ih =>
      cases h₂ with
      | inFull hparts => exact layout_congr fun w hw => ih w hw (hparts w hw)

/-! ### Showing by the rules -/

lemma showItems_eq (h : Heap) (free : Nat) (path : List Container) (vs : List Value) :
    h.showItems free path vs = ", ".intercalate (vs.map (h.showIn free path)) := by
  induction vs with
  | nil => rw [showItems, List.map_nil, String.intercalate_nil]
  | cons v vs ih =>
      cases vs with
      | nil => rw [showItems, List.map_singleton, String.intercalate_singleton]
      | cons w vs =>
          rw [showItems, ih, List.map_cons, List.map_cons, List.map_cons,
            String.intercalate_cons_cons]

lemma showEntries_eq (h : Heap) (free : Nat) (path : List Container) (es : Entries) :
    h.showEntries free path es = ", ".intercalate
      (es.map fun e => h.showIn free path e.1 ++ ": " ++ h.showIn free path e.2) := by
  induction es with
  | nil => rw [showEntries, List.map_nil, String.intercalate_nil]
  | cons e es ih =>
      cases es with
      | nil => rw [showEntries, List.map_singleton, String.intercalate_singleton]
      | cons e' es =>
          rw [showEntries, ih, List.map_cons, List.map_cons, List.map_cons,
            String.intercalate_cons_cons]

lemma showIn_of_mem (hv : v.container? = some c) (hc : c ∈ path) :
    h.showIn free path v = ellipsis := by
  have hmem : path.contains c = true := List.contains_iff_mem.mpr hc
  cases v <;> cases hv
  · rw [showIn.eq_def]
    exact if_pos hmem
  · rw [showIn.eq_def]
    exact if_pos hmem

lemma showIn_of_notMem (hv : v.container? = some c) (hc : c ∉ path) :
    h.showIn (free + 1) path v = h.layout (h.showIn free (c :: path)) v := by
  have hnew : ¬ path.contains c = true := mt List.contains_iff_mem.mp hc
  cases v <;> cases hv
  · rw [showIn, if_neg hnew, layout, showItems_eq]
  · rw [showIn, if_neg hnew, layout, ← showEntries_eq]

lemma showIn_of_eq_none (hv : v.container? = none) :
    h.showIn free path v = h.layout (h.showIn free path) v := by
  cases v with
  | list r => cases hv
  | map r => cases hv
  | bool b => cases b <;> rw [showIn, layout]
  | tuple items => rw [showIn, layout, showItems_eq]
  | _ => rw [showIn, layout]

lemma inside_eq_nil (hv : v.container? = none) (ht : ∀ items, v ≠ .tuple items) :
    h.inside v = [] := by
  cases v with
  | tuple items => exact absurd rfl (ht items)
  | list r => cases hv
  | map r => cases hv
  | _ => rfl

/-- The lists and maps of a heap. -/
def containers (h : Heap) : List Container :=
  (List.range h.lists.size).map (fun i => .list ⟨i⟩) ++
    (List.range h.maps.size).map fun i => .map ⟨i⟩

/-- Nothing is inside a collection that is not in the heap. -/
lemma inside_of_notMem (hc : c ∉ h.containers) : h.inside c.value = [] := by
  cases c with
  | list r =>
      have hr : h.lists.size ≤ r.index := by
        by_contra hlt
        refine hc (List.mem_append_left _ (List.mem_map.mpr ⟨r.index, ?_, rfl⟩))
        exact List.mem_range.mpr (not_le.mp hlt)
      change (h.items r).toList = []
      rw [items, Array.getElem?_eq_none hr]
      rfl
  | map r =>
      have hr : h.maps.size ≤ r.index := by
        by_contra hlt
        refine hc (List.mem_append_right _ (List.mem_map.mpr ⟨r.index, ?_, rfl⟩))
        exact List.mem_range.mpr (not_le.mp hlt)
      change (h.entries r).flatMap _ = []
      rw [entries, Array.getElem?_eq_none hr]
      rfl

/-- The collections of a path are different cells of the heap, and `free` is more than the number
of the other ones. -/
structure Opened (h : Heap) (free : Nat) (path : List Container) : Prop where
  nodup : path.Nodup
  cells : path ⊆ h.containers
  count : h.containers.length < free + path.length

namespace Opened

/-- No collection is open at first. -/
lemma start (h : Heap) : h.Opened (h.lists.size + h.maps.size + 1) [] where
  nodup := List.nodup_nil
  cells := List.nil_subset _
  count := by simp [containers]

lemma free_pos (ho : h.Opened free path) : 0 < free := by
  have hle := (List.subperm_of_subset ho.nodup ho.cells).length_le
  have hcount := ho.count
  omega

/-- One more collection is opened. -/
lemma enter (ho : h.Opened (free + 1) path) (hc : c ∈ h.containers) (hnew : c ∉ path) :
    h.Opened free (c :: path) where
  nodup := List.nodup_cons.mpr ⟨hnew, ho.nodup⟩
  cells := List.cons_subset.mpr ⟨hc, ho.cells⟩
  count := by
    have hcount := ho.count
    rw [List.length_cons]
    omega

end Opened

/-- Values are shown by the rules as long as there is room for the collections to be opened. -/
theorem shows_showIn (ho : h.Opened free path) (v : Value) :
    h.Shows path v (h.showIn free path v) := by
  induction free generalizing path v with
  | zero => exact absurd ho.free_pos (lt_irrefl 0)
  | succ free ih =>
      -- A collection is written out with less room for its parts, and a tuple with the same.
      have hcell : ∀ v c, v.container? = some c → h.Shows path v (h.showIn (free + 1) path v) := by
        intro v c hv
        by_cases hc : c ∈ path
        · rw [showIn_of_mem hv hc]
          exact .again hv hc
        · rw [showIn_of_notMem hv hc]
          refine .inFull (fun c' hv' => ?_) fun w hw => ?_
          · cases hv.symm.trans hv'
            exact hc
          · rw [hv]
            by_cases hcell : c ∈ h.containers
            · exact ih (ho.enter hcell hc) w
            · rw [Value.eq_value_of_container? hv, inside_of_notMem hcell] at hw
              cases hw
      induction v using Value.ind with
      | tuple items ihv =>
          rw [showIn_of_eq_none rfl]
          exact .inFull (fun c hv => by cases hv) ihv
      | bound f x _ =>
          rw [showIn_of_eq_none rfl]
          exact .inFull (fun c hv => by cases hv) (List.forall_mem_nil _)
      | other v ht _ =>
          cases hv : v.container? with
          | some c => exact hcell v c hv
          | none =>
              rw [showIn_of_eq_none hv]
              refine .inFull (fun c hv' => ?_) ?_
              · cases hv.symm.trans hv'
              · rw [inside_eq_nil hv ht]
                exact List.forall_mem_nil _

/-! ### Values without cycles -/

lemma Acyclic.part (ha : h.Acyclic v) (hw : h.Has v w) : h.Acyclic w :=
  fun c hc => ha c (.head hw hc)

/-- Without cycles nothing is abbreviated: a value does not reach the collections around it. -/
lemma Shows.prints (hs : h.Shows path v t)
    (hpath : ∀ c ∈ path, Relation.TransGen h.Has c.value v) (ha : h.Acyclic v) : h.Prints v t := by
  induction hs with
  | @again path v c hv hc =>
      have hcycle : Relation.TransGen h.Has c.value v := hpath c hc
      rw [Value.eq_value_of_container? hv] at hcycle ha
      exact absurd hcycle (ha c .refl)
  | @inFull path v text hnew _ ih =>
      refine .inFull fun w hw => ih w hw (fun c hc => ?_) (ha.part hw)
      rcases List.mem_append.mp hc with hc | hc
      · have hv : v = c.value := Value.eq_value_of_container? (Option.mem_toList.mp hc)
        rw [← hv]
        exact .single hw
      · exact (hpath c hc).tail hw

/-- Plain recursion comes to an end only without cycles. -/
lemma Prints.acyclic (hp : h.Prints v t) : h.Acyclic v := by
  induction hp with
  | @inFull v text _ ih =>
      intro c hc hcycle
      have hpart : ∃ w, h.Has v w ∧ Relation.ReflTransGen h.Has w c.value := by
        rcases hc.cases_head with rfl | hc
        · exact Relation.TransGen.head'_iff.mp hcycle
        · exact hc
      obtain ⟨w, hw, hwc⟩ := hpart
      exact ih w hw c hwc hcycle

/-- The text of plain recursion, if there is one, is what is shown. -/
lemma Prints.eq_showIn (hp : h.Prints v t) :
    t = h.showIn (h.lists.size + h.maps.size + 1) [] v :=
  hp.unique ((shows_showIn (Opened.start h) v).prints (List.forall_mem_nil _) hp.acyclic)

lemma display_eq_bare (h : Heap) (v : Value) :
    h.display v = v.bare (h.showIn (h.lists.size + h.maps.size + 1) [] v) := by
  cases v <;> rfl

/-- **Values are displayed by the rules.** Every value has exactly one text in which a list or map
is abbreviated where it stands inside itself and is written out everywhere else. The value is
displayed as this text, a string without its quotes. Plain recursion over the parts gives a text
exactly if no collection is reached from itself, and then it is the same. -/
theorem display_shows (h : Heap) (v : Value) :
    ∃ t, h.display v = v.bare t ∧ (∀ t', h.Shows [] v t' ↔ t' = t) ∧
      ∀ t', h.Prints v t' ↔ h.Acyclic v ∧ t' = t := by
  have hs : h.Shows [] v (h.showIn (h.lists.size + h.maps.size + 1) [] v) :=
    shows_showIn (Opened.start h) v
  refine ⟨_, h.display_eq_bare v, fun t' => ⟨fun hs' => hs'.unique hs, ?_⟩,
    fun t' => ⟨fun hp => ⟨hp.acyclic, hp.eq_showIn⟩, ?_⟩⟩
  · rintro rfl
    exact hs
  · rintro ⟨ha, rfl⟩
    exact hs.prints (List.forall_mem_nil _) ha

-- A list that contains itself once and another one twice.
example : display { empty with lists := #[#[.list ⟨0⟩, .list ⟨1⟩, .list ⟨1⟩], #[]] } (.list ⟨0⟩) =
    "[[...], [], []]" := by
  cbv

end Heap

end Tern
