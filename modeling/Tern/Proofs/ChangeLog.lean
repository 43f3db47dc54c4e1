/-
Maps and what was done to them. A log tells which values were put under which keys and which keys
were dropped, in order. It determines what a map has under a key and in which order it has its keys,
whatever became of the keys themselves since.

* `Change`, `Log`: the changes of a map, the oldest first.
* `Log.stored?`: what was last put under a key and is still there.
* `Log.entrant?`, `Log.entered`: the keys, in the order in which they came in and stayed.
* `Entries.Records`: a map records a log if it answers as the log says.
* `Entries.Records.put`, `Entries.Records.drop`: a change of a map is recorded.
-/
import Mathlib.Tactic
import Tern.Proofs.Keys

namespace Tern

/-- A change of a map. -/
inductive Change where
  | put (key value : Value)
  | drop (key : Value)

namespace Change

/-- The key that a change is about. -/
def key : Change → Value
  | .put k _ | .drop k => k

/-- What is under the key of a change after it. -/
def value? : Change → Option Value
  | .put _ v => some v
  | .drop _ => none

/-- Whether a change drops a key. -/
def drops (k : Value) : Change → Bool
  | .put _ _ => false
  | .drop k' => k'.sameKey k

end Change

/-- The changes of a map, the oldest first. -/
abbrev Log := List Change

namespace Log

/-- The value that was last put under a key, if the key was not dropped since. -/
def stored? (log : Log) (k : Value) : Option Value :=
  (log.reverse.find? fun c => c.key.sameKey k).bind Change.value?

/-- The key that came in at a place of the log and stayed: there was nothing under it before, and
it was not dropped later. -/
def entrant? (log : Log) (place : Nat) : Option Value :=
  match log[place]? with
  | some (.put k _) =>
    if (stored? (log.take place) k).isNone && (log.drop (place + 1)).all (!·.drops k) then some k
    else none
  | _ => none

/-- The keys in the order in which they came in and stayed. -/
def entered (log : Log) : List Value := (List.range log.length).filterMap log.entrant?

/-- The keys in that order, with what is stored under them. -/
def listing (log : Log) : Entries := log.entered.map fun k => (k, (log.stored? k).getD .null)

variable {log : Log} {k v : Value}

/-! ### One more change -/

lemma stored?_concat (log : Log) (c : Change) (k : Value) :
    stored? (log ++ [c]) k = if c.key.sameKey k then c.value? else stored? log k := by
  rw [stored?, List.reverse_append, List.reverse_singleton, List.singleton_append, List.find?_cons]
  cases c.key.sameKey k with
  | true => rfl
  | false => rfl

/-- At an earlier place, only a key that is dropped makes a difference. -/
lemma entrant?_concat_of_lt {place : Nat} (h : place < log.length) (c : Change) :
    entrant? (log ++ [c]) place = (log.entrant? place).filter (!c.drops ·) := by
  rw [entrant?, entrant?, List.getElem?_append_left h, List.take_append_of_le_length h.le,
    List.drop_append_of_le_length h]
  cases log[place]? with
  | none => rfl
  | some entry =>
      cases entry with
      | drop k => rfl
      | put k v =>
          simp only [List.all_append, List.all_cons, List.all_nil, Bool.and_true]
          rw [← Bool.and_assoc]
          generalize ((stored? (List.take place log) k).isNone &&
            (List.drop (place + 1) log).all (!·.drops k)) = stays
          cases stays with
          | false => rfl
          | true => cases hd : c.drops k <;> simp [Option.filter, hd]

/-- At the last place, a key comes in if there was nothing under it. -/
lemma entrant?_concat_length (log : Log) (c : Change) : entrant? (log ++ [c]) log.length =
    match c with
    | .put k _ => if (stored? log k).isNone then some k else none
    | .drop _ => none := by
  rw [entrant?, List.getElem?_concat_length, List.take_left, List.drop_eq_nil_of_le (by simp)]
  cases c with
  | put k v => simp
  | drop k => rfl

lemma entered_concat (log : Log) (c : Change) : entered (log ++ [c]) =
    log.entered.filter (!c.drops ·) ++ (entrant? (log ++ [c]) log.length).toList := by
  have hearlier : (List.range log.length).filterMap (entrant? (log ++ [c])) =
      log.entered.filter (!c.drops ·) := by
    rw [entered, List.filter_filterMap]
    refine List.filterMap_congr fun place hplace => ?_
    exact entrant?_concat_of_lt (List.mem_range.mp hplace) c
  rw [entered, List.length_append, List.length_singleton, List.range_succ, List.filterMap_append,
    hearlier]
  cases hlast : entrant? (log ++ [c]) log.length with
  | none => simp [hlast]
  | some k => simp [hlast]

/-- A key keeps its place, and a new one comes last. -/
lemma entered_put (log : Log) (k v : Value) : entered (log ++ [.put k v]) =
    if (log.stored? k).isSome then log.entered else log.entered ++ [k] := by
  have hall : log.entered.filter (!(Change.put k v).drops ·) = log.entered :=
    List.filter_eq_self.mpr fun _ _ => rfl
  rw [entered_concat, entrant?_concat_length, hall]
  cases hk : log.stored? k with
  | none => simp [hk]
  | some w => simp [hk]

/-- The other keys keep their order. -/
lemma entered_drop (log : Log) (k : Value) :
    entered (log ++ [.drop k]) = log.entered.filter (!k.sameKey ·) := by
  rw [entered_concat, entrant?_concat_length, Option.toList_none, List.append_nil]
  rfl

end Log

namespace Entries

/-- A map that answers as a log says. -/
structure Records (log : Log) (m : Entries) : Prop where
  apart : m.Apart
  find : ∀ k, m.find? k = log.stored? k
  keys : m.keys = log.entered

namespace Records

variable {log : Log} {m : Entries}

lemma nil : Records [] [] := ⟨List.Pairwise.nil, fun _ => rfl, rfl⟩

/-- A value is put under a key. -/
lemma put (hm : Records log m) (k v : Value) :
    Records (log ++ [.put k v]) (m.insert k v) where
  apart := hm.apart.insert k v
  find k' := by rw [find?_insert, Log.stored?_concat, hm.find]; rfl
  keys := by rw [keys_insert, Log.entered_put, hm.find, hm.keys]

/-- A key is dropped. -/
lemma drop (hm : Records log m) (k : Value) : Records (log ++ [.drop k]) (m.erase k) where
  apart := hm.apart.erase k
  find k' := by rw [hm.apart.find?_erase, Log.stored?_concat, hm.find]; rfl
  keys := by
    rw [hm.apart.keys_erase, Log.entered_drop, hm.keys]
    exact List.filter_congr fun k' _ => by rw [Value.sameKey_comm]

/-- The map is the listing of the log. -/
lemma eq_listing (hm : Records log m) : m = log.listing := by
  have hentry : ∀ e ∈ m, (e.1, (log.stored? e.1).getD .null) = e := by
    intro e he
    rw [← hm.find, hm.apart.find?_of_mem he, Option.getD_some]
  rw [Log.listing, ← hm.keys, Entries.keys, List.map_map]
  exact (List.map_id m).symm.trans (List.map_congr_left fun e he => (hentry e he).symm)

end Records

end Entries

end Tern
