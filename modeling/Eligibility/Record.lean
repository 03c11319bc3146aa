import Eligibility.Number.Rounding

/-!
# Records

A record gives values to fields. It lists its entries in the order in which the fields were
first given (`Record.insert` replaces the value of a field that is there), and no field twice.
`Record.get?` looks a field up.
-/

namespace Eligibility

/-- What a record holds for a field. -/
inductive FieldValue where
  | truth (value : Bool)
  | number (value : Binary64)
  | text (value : String)
  deriving DecidableEq

/-- An integer as a field value: the nearest number. -/
def FieldValue.ofInt (n : Int) : FieldValue :=
  number (.ofInt n)

/-- Fields with their values. -/
structure Record where
  entries : List (String × FieldValue)
  nodup : (entries.map Prod.fst).Nodup
  deriving DecidableEq

namespace Record

/-- The record without fields. -/
def empty : Record := ⟨[], List.nodup_nil⟩

/-- The value of a field. -/
def get? (record : Record) (field : String) : Option FieldValue :=
  record.entries.lookup field

/-- Gives a value to a field in a list of entries: in its place, or at the end. -/
def put (field : String) (value : FieldValue) :
    List (String × FieldValue) → List (String × FieldValue)
  | [] => [(field, value)]
  | entry :: entries =>
    if entry.1 = field then (field, value) :: entries else entry :: put field value entries

theorem mem_fields_put {field name : String} {value : FieldValue} :
    ∀ {entries : List (String × FieldValue)},
      name ∈ (put field value entries).map Prod.fst ↔ name = field ∨ name ∈ entries.map Prod.fst
  | [] => by simp [put]
  | entry :: entries => by
    unfold put
    split
    · rename_i h
      simp [h]
    · simp only [List.map_cons, List.mem_cons, mem_fields_put]
      constructor <;> rintro (h | h | h) <;> simp [h]

theorem nodup_put {field : String} {value : FieldValue} :
    ∀ {entries : List (String × FieldValue)}, (entries.map Prod.fst).Nodup →
      ((put field value entries).map Prod.fst).Nodup
  | [], _ => by simp [put]
  | entry :: entries, h => by
    simp only [List.map_cons, List.nodup_cons] at h
    unfold put
    split
    · rename_i he
      simpa [← he] using h
    · rename_i he
      simp only [List.map_cons, List.nodup_cons, mem_fields_put]
      exact ⟨by rintro (h' | h') <;> simp_all, nodup_put h.2⟩

/-- Gives a value to a field, in place of an earlier one. -/
def insert (record : Record) (field : String) (value : FieldValue) : Record :=
  ⟨put field value record.entries, nodup_put record.nodup⟩

theorem get?_empty (field : String) : empty.get? field = none := rfl

theorem lookup_put {field name : String} {value : FieldValue} :
    ∀ {entries : List (String × FieldValue)},
      (put field value entries).lookup name =
        if field = name then some value else entries.lookup name
  | [] => by
    by_cases h : name = field
    · simp [put, h]
    · simp [put, List.lookup_cons, beq_false_of_ne h, Ne.symm h]
  | (key, old) :: entries => by
    unfold put
    by_cases hk : key = field
    · by_cases h : name = field
      · simp [hk, h]
      · simp [List.lookup_cons, hk, beq_false_of_ne h, Ne.symm h]
    · by_cases hn : name = key
      · simp [hk, hn, Ne.symm hk]
      · simp [List.lookup_cons, hk, beq_false_of_ne hn, lookup_put]

theorem get?_insert (record : Record) (field name : String) (value : FieldValue) :
    (record.insert field value).get? name =
      if field = name then some value else record.get? name :=
  lookup_put

/-- The record of a list of entries; of two for the same field the later counts. -/
def ofList (entries : List (String × FieldValue)) : Record :=
  entries.foldl (fun record entry => record.insert entry.1 entry.2) empty

end Record

end Eligibility
