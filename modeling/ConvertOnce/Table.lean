/-!
# Finite tables

A `Table` assigns a value to each of finitely many keys.  `Table.get?` is the view; each of the
edits has one law that says what it does to the view of every key.  No key has two values, which
is a field of the structure.
-/

namespace ConvertOnce

/-- Values under finitely many keys. -/
structure Table (κ ν : Type) where
  /-- The keys with their values, the latest first. -/
  entries : List (κ × ν)
  /-- No key occurs twice. -/
  nodup_keys : (entries.map Prod.fst).Nodup

namespace Table

variable {κ ν : Type} [DecidableEq κ]

/-- The first value that stands beside the key. -/
def lookup : List (κ × ν) → κ → Option ν
  | [], _ => none
  | (k, v) :: rest, key => if key = k then some v else lookup rest key

/-- The value of a key. -/
def get? (t : Table κ ν) (key : κ) : Option ν := lookup t.entries key

/-- The table with no key. -/
def empty : Table κ ν := ⟨[], .nil⟩

instance : Inhabited (Table κ ν) := ⟨empty⟩

/-- Keeps the keys that pass a test. -/
def filterKeys (t : Table κ ν) (keep : κ → Bool) : Table κ ν :=
  ⟨t.entries.filter fun e => keep e.1,
    t.nodup_keys.sublist (List.filter_sublist.map Prod.fst)⟩

/-- Takes a key out. -/
def erase (t : Table κ ν) (key : κ) : Table κ ν := t.filterKeys (· ≠ key)

/-- Gives a key a value, in place of the one it has, if any. -/
def insert (t : Table κ ν) (key : κ) (value : ν) : Table κ ν :=
  ⟨(key, value) :: (t.erase key).entries, List.nodup_cons.2 ⟨by
    simp [erase, filterKeys], (t.erase key).nodup_keys⟩⟩

/-- A key that has a value. -/
def contains (t : Table κ ν) (key : κ) : Bool := (t.get? key).isSome

/-! ### Entries -/

theorem lookup_eq_some_iff {entries : List (κ × ν)} {key : κ} {value : ν}
    (h : (entries.map Prod.fst).Nodup) :
    lookup entries key = some value ↔ (key, value) ∈ entries := by
  induction entries with
  | nil => simp [lookup]
  | cons e rest ih =>
    obtain ⟨k, v⟩ := e
    rw [List.map_cons, List.nodup_cons] at h
    rw [lookup, List.mem_cons, Prod.mk.injEq]
    by_cases hkey : key = k
    · subst hkey
      have hrest : (key, value) ∉ rest := fun hmem =>
        have hfirst : key ∈ rest.map Prod.fst := List.mem_map_of_mem hmem
        h.1 hfirst
      simp [hrest, eq_comm]
    · simp [hkey, ih h.2]

/-- A key has the value that stands beside it. -/
theorem get?_eq_some_iff {t : Table κ ν} {key : κ} {value : ν} :
    t.get? key = some value ↔ (key, value) ∈ t.entries :=
  lookup_eq_some_iff t.nodup_keys

/-! ### What the edits do to the view -/

theorem lookup_filter (keep : κ → Bool) (entries : List (κ × ν)) (key : κ) :
    lookup (entries.filter fun e => keep e.1) key =
      if keep key then lookup entries key else none := by
  induction entries with
  | nil => simp [lookup]
  | cons e rest ih =>
    obtain ⟨k, v⟩ := e
    by_cases hk : keep k
    · by_cases hl : key = k
      · subst hl; simp [lookup, hk]
      · simp [lookup, hk, hl, ih]
    · by_cases hl : key = k
      · subst hl; simp [hk, ih]
      · simp [lookup, hk, hl, ih]

@[simp] theorem get?_empty (key : κ) : (empty : Table κ ν).get? key = none := rfl

/-- A key that passes the test keeps its value; any other has none. -/
theorem get?_filterKeys (t : Table κ ν) (keep : κ → Bool) (key : κ) :
    (t.filterKeys keep).get? key = if keep key then t.get? key else none :=
  lookup_filter keep t.entries key

/-- Erasing takes one key out and leaves every other. -/
theorem get?_erase (t : Table κ ν) (gone key : κ) :
    (t.erase gone).get? key = if key = gone then none else t.get? key := by
  simp only [erase, get?_filterKeys]
  by_cases h : key = gone <;> simp [h]

/-- Inserting gives one key its value and leaves every other. -/
theorem get?_insert (t : Table κ ν) (new : κ) (value : ν) (key : κ) :
    (t.insert new value).get? key = if key = new then some value else t.get? key := by
  by_cases h : key = new
  · simp [get?, insert, lookup, h]
  · have := get?_erase t new key
    simp only [h, if_false] at this ⊢
    simpa [get?, insert, lookup, h] using this

end Table

end ConvertOnce
