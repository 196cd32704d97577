/-!
# Tables

A table maps keys to values.  Setting a key replaces its value, and a key that was never set
or was removed has none.  The entries keep the order in which their keys came in.
-/

namespace LuaFold

/-- A finite map as a list of keys with their values. -/
structure Table (Key Value : Type) where
  entries : List (Key × Value)
deriving Repr

namespace Table

variable {Key Value : Type} [DecidableEq Key]

/-- The table without entries. -/
def empty : Table Key Value :=
  ⟨[]⟩

/-- The value of a key. -/
def get? (table : Table Key Value) (key : Key) : Option Value :=
  (table.entries.find? fun entry => entry.1 = key).map Prod.snd

/-- Whether a key has a value. -/
def contains (table : Table Key Value) (key : Key) : Bool :=
  (table.get? key).isSome

/-- Give a key a value in a list of entries. -/
def setEntry (key : Key) (value : Value) : List (Key × Value) → List (Key × Value)
  | [] => [(key, value)]
  | entry :: rest =>
    if entry.1 = key then (key, value) :: rest else entry :: setEntry key value rest

/-- Give a key a value. -/
def set (table : Table Key Value) (key : Key) (value : Value) : Table Key Value :=
  ⟨setEntry key value table.entries⟩

/-- Take away the value of a key. -/
def remove (table : Table Key Value) (key : Key) : Table Key Value :=
  ⟨table.entries.filter fun entry => entry.1 ≠ key⟩

/-- The values in the order in which their keys came in. -/
def values (table : Table Key Value) : List Value :=
  table.entries.map Prod.snd

@[simp]
theorem get?_empty (key : Key) : (empty : Table Key Value).get? key = none :=
  rfl

theorem get?_set
    (table : Table Key Value)
    (key other : Key)
    (value : Value) :
    (table.set key value).get? other = if key = other then some value else table.get? other := by
  obtain ⟨entries⟩ := table
  simp only [get?, set]
  induction entries with
  | nil => by_cases same : key = other <;> simp [setEntry, same]
  | cons entry rest ih =>
    simp only [setEntry]
    by_cases found : entry.1 = key
    · by_cases same : key = other <;> simp_all
    · simp only [found, ↓reduceIte, List.find?_cons]
      by_cases here : entry.1 = other
      · have different : key ≠ other := fun same => found (here.trans same.symm)
        simp [here, different]
      · simpa [here] using ih

@[simp]
theorem get?_set_self
    (table : Table Key Value)
    (key : Key)
    (value : Value) :
    (table.set key value).get? key = some value := by
  rw [get?_set, if_pos rfl]

theorem get?_set_of_ne
    (table : Table Key Value)
    {key other : Key}
    (different : key ≠ other)
    (value : Value) :
    (table.set key value).get? other = table.get? other := by
  rw [get?_set, if_neg different]

theorem get?_remove
    (table : Table Key Value)
    (key other : Key) :
    (table.remove key).get? other = if key = other then none else table.get? other := by
  obtain ⟨entries⟩ := table
  simp only [get?, remove]
  induction entries with
  | nil => simp
  | cons entry rest ih =>
    simp only [List.filter_cons]
    by_cases found : entry.1 = key
    · by_cases same : key = other <;> simp_all
    · by_cases here : entry.1 = other
      · have different : key ≠ other := fun same => found (here.trans same.symm)
        simp [here, different, different.symm]
      · simpa [found, here] using ih

@[simp]
theorem get?_remove_self
    (table : Table Key Value)
    (key : Key) :
    (table.remove key).get? key = none := by
  rw [get?_remove, if_pos rfl]

theorem get?_remove_of_ne
    (table : Table Key Value)
    {key other : Key}
    (different : key ≠ other) :
    (table.remove key).get? other = table.get? other := by
  rw [get?_remove, if_neg different]

end Table

end LuaFold
