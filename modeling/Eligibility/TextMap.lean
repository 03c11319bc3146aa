import Std.Data.ExtTreeMap

/-!
# Maps from texts

A `TextMap` gives values to finitely many texts. It is what its look-ups say (`TextMap.ext`);
each operation is described by what it does to them.
-/

namespace Eligibility

/-- Values of texts. -/
structure TextMap (α : Type) where
  entries : Std.ExtTreeMap String α compare

namespace TextMap

variable {α : Type}

/-- The map without texts. -/
def empty : TextMap α := ⟨∅⟩

/-- The value of a text. -/
def get? (map : TextMap α) (key : String) : Option α := map.entries[key]?

/-- Whether a text has a value. -/
def contains (map : TextMap α) (key : String) : Bool := map.entries.contains key

/-- The number of texts with a value. -/
def size (map : TextMap α) : Nat := map.entries.size

/-- Gives a value to a text. -/
def insert (map : TextMap α) (key : String) (value : α) : TextMap α :=
  ⟨map.entries.insert key value⟩

/-- Takes the value from a text. -/
def erase (map : TextMap α) (key : String) : TextMap α :=
  ⟨map.entries.erase key⟩

theorem ext {map map' : TextMap α} (h : ∀ key, map.get? key = map'.get? key) : map = map' := by
  cases map
  cases map'
  exact congrArg TextMap.mk (Std.ExtTreeMap.ext_getElem? h)

theorem get?_empty (key : String) : (empty : TextMap α).get? key = none :=
  Std.ExtTreeMap.getElem?_empty

theorem get?_insert (map : TextMap α) (key other : String) (value : α) :
    (map.insert key value).get? other = if key = other then some value else map.get? other := by
  simp [get?, insert, Std.ExtTreeMap.getElem?_insert]

theorem get?_erase (map : TextMap α) (key other : String) :
    (map.erase key).get? other = if key = other then none else map.get? other := by
  simp [get?, erase, Std.ExtTreeMap.getElem?_erase]

theorem contains_eq_isSome_get? (map : TextMap α) (key : String) :
    map.contains key = (map.get? key).isSome :=
  Std.ExtTreeMap.contains_eq_isSome_getElem?

/-- A map has at least as many texts as different ones are found in it. -/
theorem length_le_size {map : TextMap α} {keys : List String} (hkeys : keys.Nodup)
    (h : ∀ key ∈ keys, map.contains key = true) : keys.length ≤ map.size := by
  have hsubset : ∀ key ∈ keys, key ∈ map.entries.keys :=
    fun key hkey => Std.ExtTreeMap.mem_keys.mpr (Std.ExtTreeMap.mem_iff_contains.mpr (h key hkey))
  have hle := hkeys.length_le_of_subset hsubset
  rwa [Std.ExtTreeMap.length_keys] at hle

/-- The texts with a value, each once, are as many as the size says. -/
theorem exists_keys (map : TextMap α) : ∃ keys : List String, keys.Nodup ∧
    (∀ key, key ∈ keys ↔ map.contains key = true) ∧ keys.length = map.size :=
  ⟨map.entries.keys, Std.ExtTreeMap.nodup_keys,
    fun _ => Std.ExtTreeMap.mem_keys.trans Std.ExtTreeMap.mem_iff_contains,
    Std.ExtTreeMap.length_keys⟩

end TextMap

end Eligibility
