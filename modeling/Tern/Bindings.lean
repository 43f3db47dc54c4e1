/-
Values under names, in the order in which the names first came in. Writing a name that is there
keeps its place.
-/
namespace Tern

/-- Values under names. -/
abbrev Bindings (α : Type) := List (String × α)

namespace Bindings

variable {α : Type}

/-- The value under a name. -/
def find? (name : String) : Bindings α → Option α
  | [] => none
  | (key, value) :: rest => if key = name then some value else find? name rest

/-- Whether there is a value under a name. -/
def has (name : String) (b : Bindings α) : Bool := (b.find? name).isSome

/-- Writes a value under a name, at the end if the name is new. -/
def put (name : String) (value : α) : Bindings α → Bindings α
  | [] => [(name, value)]
  | (key, old) :: rest =>
    if key = name then (key, value) :: rest else (key, old) :: put name value rest

/-- The names in order. -/
def names (b : Bindings α) : List String := b.map (·.1)

/-! ### Looking up after writing -/

/-- A name that has been written has the value that was written. -/
@[simp]
theorem find?_put_self (name : String) (value : α) (b : Bindings α) :
    (b.put name value).find? name = some value := by
  induction b with
  | nil => simp [put, find?]
  | cons entry rest ih =>
    obtain ⟨key, old⟩ := entry
    by_cases h : key = name <;> simp [put, find?, h, ih]

/-- Writing a name changes no other one. -/
theorem find?_put_of_ne {name other : String} (h : other ≠ name) (value : α) (b : Bindings α) :
    (b.put name value).find? other = b.find? other := by
  induction b with
  | nil => simp [put, find?, h.symm]
  | cons entry rest ih =>
    obtain ⟨key, old⟩ := entry
    by_cases hk : key = name
    · simp [put, find?, hk, h.symm]
    · simp only [put, hk, if_false, find?, ih]

/-- After writing a name, there are the old names and that one. -/
@[simp]
theorem has_put (name other : String) (value : α) (b : Bindings α) :
    (b.put name value).has other = (decide (other = name) || b.has other) := by
  by_cases h : other = name
  · simp [has, h]
  · simp [has, find?_put_of_ne h, h]

/-- A name that is there keeps its place, and a new one comes last. -/
theorem names_put (name : String) (value : α) (b : Bindings α) :
    (b.put name value).names = if b.has name then b.names else b.names ++ [name] := by
  induction b with
  | nil => simp [put, names, has, find?]
  | cons entry rest ih =>
    obtain ⟨key, old⟩ := entry
    by_cases h : key = name
    · simp [put, names, has, find?, h]
    · simp only [names, has] at ih
      by_cases hr : (find? name rest).isSome <;> simp [put, names, has, find?, h, ih, hr]

end Bindings

end Tern
