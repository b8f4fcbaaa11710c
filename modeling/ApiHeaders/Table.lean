/-!
# Tables in order of first insertion

A table maps keys to values and remembers the order in which the keys came in. Writing a key again
changes its value and leaves its place.

## Main definitions

* `Table` is a list of entries with pairwise different keys.
* `Table.get?` looks a key up, `Table.upsert` and `Table.insert` write an entry, `Table.modify`
  changes an existing one.
* `Table.keys` and `Table.values` list a table in order.

## Main statements

* `Table.get?_upsert` says what a look-up finds after a write.
* `Table.keys_upsert` says that a new key goes to the end and an old one keeps its place.
-/

namespace ApiHeaders

/-- Entries in order of first insertion. -/
structure Table (κ : Type u) (ν : Type v) where
  entries : List (κ × ν) := []
  nodup_keys : (entries.map Prod.fst).Nodup := by exact List.nodup_nil

namespace Table

variable {κ : Type u} {ν : Type v}

instance : EmptyCollection (Table κ ν) := ⟨{}⟩

instance : Inhabited (Table κ ν) := ⟨∅⟩

@[simp] theorem entries_empty : (∅ : Table κ ν).entries = [] := rfl

def keys (t : Table κ ν) : List κ := t.entries.map Prod.fst

def values (t : Table κ ν) : List ν := t.entries.map Prod.snd

def size (t : Table κ ν) : Nat := t.entries.length

theorem nodup (t : Table κ ν) : t.keys.Nodup := t.nodup_keys

@[simp] theorem keys_empty : (∅ : Table κ ν).keys = [] := rfl

/-- Among entries with different keys, each is found. -/
theorem lookup_of_mem [BEq κ] [LawfulBEq κ] {l : List (κ × ν)} {k : κ} {v : ν}
    (hnodup : (l.map Prod.fst).Nodup) (h : (k, v) ∈ l) : l.lookup k = some v := by
  obtain ⟨before, after, rfl⟩ := List.append_of_mem h
  refine List.lookup_eq_some_iff.2 ⟨before, after, rfl, fun e he => ?_⟩
  rw [List.map_append, List.nodup_append] at hnodup
  simpa using (hnodup.2.2 e.1 (List.mem_map_of_mem he) k (by simp)).symm

variable [DecidableEq κ]

/-- Replaces the value of the first entry for a key, or appends an entry. -/
def upsertEntry (k : κ) (f : Option ν → ν) : List (κ × ν) → List (κ × ν)
  | [] => [(k, f none)]
  | (k', v) :: r => if k' = k then (k', f (some v)) :: r else (k', v) :: upsertEntry k f r

theorem map_fst_upsertEntry (k : κ) (f : Option ν → ν) (l : List (κ × ν)) :
    (upsertEntry k f l).map Prod.fst =
      if k ∈ l.map Prod.fst then l.map Prod.fst else l.map Prod.fst ++ [k] := by
  induction l with
  | nil => simp [upsertEntry]
  | cons e r ih =>
    obtain ⟨k', v⟩ := e
    by_cases h : k' = k
    · simp [upsertEntry, h]
    · simp only [upsertEntry, h, if_false, List.map_cons, ih, List.mem_cons, Ne.symm h, false_or]
      split <;> simp

theorem nodup_upsertEntry {l : List (κ × ν)} (h : (l.map Prod.fst).Nodup) (k : κ)
    (f : Option ν → ν) : ((upsertEntry k f l).map Prod.fst).Nodup := by
  rw [map_fst_upsertEntry]
  split
  · exact h
  · next hk =>
    refine List.nodup_append.2 ⟨h, by simp, fun a ha b hb hab => hk ?_⟩
    rw [List.mem_singleton] at hb
    exact hb ▸ hab ▸ ha

theorem lookup_cons (k k' : κ) (v : ν) (l : List (κ × ν)) :
    ((k, v) :: l).lookup k' = if k = k' then some v else l.lookup k' := by
  by_cases h : k = k'
  · simp [h]
  · simp [List.lookup_cons, beq_false_of_ne (Ne.symm h), h]

theorem lookup_upsertEntry (k k' : κ) (f : Option ν → ν) (l : List (κ × ν)) :
    (upsertEntry k f l).lookup k' =
      if k = k' then some (f (l.lookup k)) else l.lookup k' := by
  induction l with
  | nil => simp [upsertEntry, lookup_cons]
  | cons e r ih =>
    obtain ⟨j, v⟩ := e
    by_cases h : j = k
    · by_cases h' : k = k' <;> simp [upsertEntry, lookup_cons, h, h']
    · by_cases h' : j = k'
      · subst h'
        simp [upsertEntry, h, Ne.symm h]
      · simp [upsertEntry, lookup_cons, h, h', ih]

/-- The value of a key. -/
def get? (t : Table κ ν) (k : κ) : Option ν := t.entries.lookup k

def contains (t : Table κ ν) (k : κ) : Bool := (t.get? k).isSome

@[simp] theorem get?_empty (k : κ) : (∅ : Table κ ν).get? k = none := rfl

/-- Writes the value `f` gives for a key, from the old value if there is one. -/
def upsert (t : Table κ ν) (k : κ) (f : Option ν → ν) : Table κ ν where
  entries := upsertEntry k f t.entries
  nodup_keys := nodup_upsertEntry t.nodup_keys k f

/-- Writes an entry. An entry for the same key is replaced in its place. -/
def insert (t : Table κ ν) (k : κ) (v : ν) : Table κ ν := t.upsert k fun _ => v

/-- Changes the value of a key that is there. -/
def modify (t : Table κ ν) (k : κ) (f : ν → ν) : Table κ ν :=
  match t.get? k with
  | some v => t.insert k (f v)
  | none => t

theorem keys_upsert (t : Table κ ν) (k : κ) (f : Option ν → ν) :
    (t.upsert k f).keys = if k ∈ t.keys then t.keys else t.keys ++ [k] :=
  map_fst_upsertEntry k f t.entries

@[simp] theorem get?_upsert (t : Table κ ν) (k k' : κ) (f : Option ν → ν) :
    (t.upsert k f).get? k' = if k = k' then some (f (t.get? k)) else t.get? k' :=
  lookup_upsertEntry k k' f t.entries

theorem keys_insert (t : Table κ ν) (k : κ) (v : ν) :
    (t.insert k v).keys = if k ∈ t.keys then t.keys else t.keys ++ [k] :=
  t.keys_upsert k _

@[simp] theorem get?_insert (t : Table κ ν) (k k' : κ) (v : ν) :
    (t.insert k v).get? k' = if k = k' then some v else t.get? k' :=
  t.get?_upsert k k' _

@[simp] theorem get?_modify (t : Table κ ν) (k k' : κ) (f : ν → ν) :
    (t.modify k f).get? k' = if k = k' then (t.get? k).map f else t.get? k' := by
  unfold modify
  split
  · next v h => simp [h]
  · next h =>
    split
    · next hk => simp [← hk, h]
    · rfl

end Table

end ApiHeaders
