/-!
Finite tables: keys with one value each. A table is seen through `get?`; the order of its entries
has no meaning.
-/

namespace SpendingLedger

/-- A table from keys to values. -/
structure Table (κ ν : Type) where
  entries : List (κ × ν)
  nodup_keys : (entries.map Prod.fst).Nodup

namespace Table

variable {κ ν : Type}

def empty : Table κ ν := ⟨[], by simp⟩

instance : EmptyCollection (Table κ ν) := ⟨empty⟩

instance : Inhabited (Table κ ν) := ⟨empty⟩

/-- The keys that have a value. -/
def keys (t : Table κ ν) : List κ := t.entries.map Prod.fst

def values (t : Table κ ν) : List ν := t.entries.map Prod.snd

def size (t : Table κ ν) : Nat := t.entries.length

/-- The same keys with other values. -/
def mapValues {ν' : Type} (t : Table κ ν) (f : κ → ν → ν') : Table κ ν' where
  entries := t.entries.map fun e => (e.1, f e.1 e.2)
  nodup_keys := by
    rw [List.map_map]
    exact t.nodup_keys

theorem size_eq_of_mem_keys_iff {t : Table κ ν} {keys : List κ} (hnodup : keys.Nodup)
    (h : ∀ k, k ∈ t.keys ↔ k ∈ keys) : t.size = keys.length := by
  have hperm := (List.perm_ext_iff_of_nodup t.nodup_keys hnodup).2 h
  simpa only [List.length_map, size] using hperm.length_eq

variable [DecidableEq κ]

def lookup (k : κ) : List (κ × ν) → Option ν
  | [] => none
  | (k', v) :: rest => if k' = k then some v else lookup k rest

def get? (t : Table κ ν) (k : κ) : Option ν := lookup k t.entries

/-- Gives a key its value in a list of entries, in place or else at the end. -/
def put (k : κ) (v : ν) : List (κ × ν) → List (κ × ν)
  | [] => [(k, v)]
  | (k', v') :: rest => if k' = k then (k, v) :: rest else (k', v') :: put k v rest

theorem keys_put (k : κ) (v : ν) (l : List (κ × ν)) :
    (put k v l).map Prod.fst =
      if k ∈ l.map Prod.fst then l.map Prod.fst else l.map Prod.fst ++ [k] := by
  induction l with
  | nil => simp [put]
  | cons e rest ih =>
    obtain ⟨k', v'⟩ := e
    by_cases h : k' = k
    · simp [put, h]
    · by_cases hm : k ∈ rest.map Prod.fst
      · simp only [put, h, ↓reduceIte, List.map_cons, ih, hm, List.mem_cons, or_true]
      · have h' : ¬k = k' := fun e => h e.symm
        simp only [put, h, h', ↓reduceIte, List.map_cons, ih, hm, List.mem_cons, or_false,
          List.cons_append]

def insert (t : Table κ ν) (k : κ) (v : ν) : Table κ ν where
  entries := put k v t.entries
  nodup_keys := by
    rw [keys_put]
    split
    · exact t.nodup_keys
    · next h => exact List.nodup_append.2 ⟨t.nodup_keys, by simp, by
        intro a ha b hb
        simp only [List.mem_singleton] at hb
        subst hb
        exact fun e => h (e ▸ ha)⟩

/-! ### Laws -/

theorem lookup_put (k k' : κ) (v : ν) (l : List (κ × ν)) :
    lookup k' (put k v l) = if k = k' then some v else lookup k' l := by
  induction l with
  | nil => simp [put, lookup]
  | cons e rest ih =>
    obtain ⟨a, b⟩ := e
    by_cases h : a = k
    · subst h
      by_cases h' : a = k' <;> simp [put, lookup, h']
    · by_cases h' : a = k'
      · subst h'
        have : ¬k = a := fun e => h e.symm
        simp [put, lookup, h, this]
      · simp [put, lookup, h, h', ih]

theorem lookup_map {ν' : Type} (f : κ → ν → ν') (k : κ) (l : List (κ × ν)) :
    lookup k (l.map fun e => (e.1, f e.1 e.2)) = (lookup k l).map (f k) := by
  induction l with
  | nil => rfl
  | cons e rest ih =>
    obtain ⟨a, b⟩ := e
    by_cases h : a = k
    · subst h
      simp [lookup]
    · simp [lookup, h, ih]

@[simp] theorem get?_mapValues {ν' : Type} (t : Table κ ν) (f : κ → ν → ν') (k : κ) :
    (t.mapValues f).get? k = (t.get? k).map (f k) :=
  lookup_map f k t.entries

@[simp] theorem get?_empty (k : κ) : (∅ : Table κ ν).get? k = none := rfl

/-- Only the key that is inserted changes its value. -/
theorem get?_insert (t : Table κ ν) (k k' : κ) (v : ν) :
    (t.insert k v).get? k' = if k = k' then some v else t.get? k' :=
  lookup_put k k' v t.entries

@[simp] theorem get?_insert_self (t : Table κ ν) (k : κ) (v : ν) :
    (t.insert k v).get? k = some v := by
  simp [get?_insert]

theorem getD_get?_insert (t : Table κ ν) (k k' : κ) (v d : ν) :
    ((t.insert k v).get? k').getD d = if k = k' then v else (t.get? k').getD d := by
  rw [get?_insert]
  split <;> rfl

theorem get?_insert_eq_none_iff (t : Table κ ν) (k k' : κ) (v : ν) :
    (t.insert k v).get? k' = none ↔ k ≠ k' ∧ t.get? k' = none := by
  rw [get?_insert]
  split <;> simp [*]

theorem get?_insert_of_ne (t : Table κ ν) {k k' : κ} (v : ν) (h : k ≠ k') :
    (t.insert k v).get? k' = t.get? k' := by
  simp [get?_insert, h]

theorem lookup_eq_none_iff (k : κ) (l : List (κ × ν)) :
    lookup k l = none ↔ k ∉ l.map Prod.fst := by
  induction l with
  | nil => simp [lookup]
  | cons e rest ih =>
    obtain ⟨k', v⟩ := e
    by_cases h : k' = k
    · simp [lookup, h]
    · have h' : ¬ k = k' := fun e => h e.symm
      simp [lookup, h, h', ih]

theorem mem_keys_iff (t : Table κ ν) (k : κ) : k ∈ t.keys ↔ t.get? k ≠ none := by
  rw [get?, ne_eq, lookup_eq_none_iff, Decidable.not_not]
  rfl

theorem lookup_eq_some_of_mem {k : κ} {v : ν} {l : List (κ × ν)} (hnodup : (l.map Prod.fst).Nodup)
    (h : (k, v) ∈ l) : lookup k l = some v := by
  induction l with
  | nil => cases h
  | cons e rest ih =>
    obtain ⟨k', v'⟩ := e
    rw [List.map_cons, List.nodup_cons] at hnodup
    rw [lookup]
    rcases List.mem_cons.1 h with heq | hrest
    · obtain ⟨rfl, rfl⟩ := Prod.mk.inj heq
      exact if_pos rfl
    · rw [if_neg, ih hnodup.2 hrest]
      rintro rfl
      exact hnodup.1 (List.mem_map.2 ⟨_, hrest, rfl⟩)

/-- The values are what is found under the keys. -/
theorem values_eq (t : Table κ ν) (d : ν) :
    t.values = t.keys.map fun k => (t.get? k).getD d := by
  rw [values, keys, List.map_map]
  refine List.map_congr_left fun e he => ?_
  show e.2 = (lookup e.1 t.entries).getD d
  rw [lookup_eq_some_of_mem t.nodup_keys he]
  rfl

theorem size_eq_of_get?_eq_none_iff {ν' : Type} {t : Table κ ν} {t' : Table κ ν'}
    (h : ∀ k, t.get? k = none ↔ t'.get? k = none) : t.size = t'.size := by
  have hmem : ∀ k, k ∈ t.keys ↔ k ∈ t'.keys := fun k => by
    rw [mem_keys_iff, mem_keys_iff, ne_eq, ne_eq, h]
  rw [size_eq_of_mem_keys_iff t'.nodup_keys hmem, List.length_map]
  rfl

end Table

end SpendingLedger
