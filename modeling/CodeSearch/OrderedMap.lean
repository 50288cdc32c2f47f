/-! # Maps that remember insertion order

An `OrderedMap` is a list of entries with distinct keys. Storing under a known key replaces the
value in place, so the order of `keys` is the order in which the keys were first stored.
-/

namespace CodeSearch

/-- Entries in the order in which their keys were first stored; no key occurs twice. -/
structure OrderedMap (κ ν : Type) where
  entries : List (κ × ν)
  distinct : (entries.map Prod.fst).Nodup

namespace OrderedMap

variable {κ ν : Type}

/-- A map is determined by its entries. -/
@[ext] theorem ext {first second : OrderedMap κ ν} (same : first.entries = second.entries) :
    first = second := by
  cases first
  cases second
  cases same
  rfl

/-- The map without entries. -/
def empty : OrderedMap κ ν := ⟨[], List.nodup_nil⟩

instance : EmptyCollection (OrderedMap κ ν) := ⟨empty⟩

instance : Inhabited (OrderedMap κ ν) := ⟨empty⟩

def keys (m : OrderedMap κ ν) : List κ := m.entries.map Prod.fst

@[simp] theorem keys_empty : (empty : OrderedMap κ ν).keys = [] := rfl

def values (m : OrderedMap κ ν) : List ν := m.entries.map Prod.snd

def size (m : OrderedMap κ ν) : Nat := m.entries.length

def isEmpty (m : OrderedMap κ ν) : Bool := m.entries.isEmpty

/-- Only a sublist of the entries is kept, so the keys stay distinct. -/
def filter (m : OrderedMap κ ν) (keep : κ → ν → Bool) : OrderedMap κ ν :=
  ⟨m.entries.filter fun entry => keep entry.1 entry.2,
    m.distinct.sublist (List.filter_sublist.map Prod.fst)⟩

variable [DecidableEq κ]

/-- The value stored under a key, the first of the entries that match. -/
def lookup (key : κ) : List (κ × ν) → Option ν
  | [] => none
  | (k, v) :: rest => if k = key then some v else lookup key rest

def get? (m : OrderedMap κ ν) (key : κ) : Option ν := lookup key m.entries

def contains (m : OrderedMap κ ν) (key : κ) : Bool := (m.get? key).isSome

/-- Replaces the value of a known key where it stands and appends a new one. -/
def store (key : κ) (value : ν) : List (κ × ν) → List (κ × ν)
  | [] => [(key, value)]
  | (k, v) :: rest => if k = key then (key, value) :: rest else (k, v) :: store key value rest

theorem keys_store (key : κ) (value : ν) (entries : List (κ × ν)) :
    (store key value entries).map Prod.fst =
      if key ∈ entries.map Prod.fst then entries.map Prod.fst
      else entries.map Prod.fst ++ [key] := by
  induction entries with
  | nil => simp [store]
  | cons entry rest ih =>
    obtain ⟨k, v⟩ := entry
    by_cases same : k = key
    · simp [store, same]
    · have other : ¬ key = k := fun equal => same equal.symm
      by_cases member : key ∈ rest.map Prod.fst
      · simp only [store, same, if_false, List.map_cons, ih, member, if_true, List.mem_cons, other,
          false_or]
      · simp only [store, same, if_false, List.map_cons, ih, member, List.mem_cons, other,
          or_self, List.cons_append]

theorem nodup_keys_store (key : κ) (value : ν) (entries : List (κ × ν))
    (distinct : (entries.map Prod.fst).Nodup) : ((store key value entries).map Prod.fst).Nodup := by
  rw [keys_store]
  split
  · exact distinct
  · next absent =>
    rw [List.nodup_append]
    refine ⟨distinct, by simp, ?_⟩
    intro k member other single
    rw [List.mem_singleton] at single
    subst single
    intro equal
    subst equal
    exact absent member

def insert (m : OrderedMap κ ν) (key : κ) (value : ν) : OrderedMap κ ν :=
  ⟨store key value m.entries, nodup_keys_store key value m.entries m.distinct⟩

def erase (m : OrderedMap κ ν) (key : κ) : OrderedMap κ ν :=
  m.filter fun k _ => decide (k ≠ key)

/-- Entries are stored one after another, so a later one wins and an earlier one keeps its place. -/
def ofList (entries : List (κ × ν)) : OrderedMap κ ν :=
  entries.foldl (fun m entry => m.insert entry.1 entry.2) empty

theorem keys_insert (m : OrderedMap κ ν) (key : κ) (value : ν) :
    (m.insert key value).keys = if key ∈ m.keys then m.keys else m.keys ++ [key] :=
  keys_store key value m.entries

theorem lookup_store (key other : κ) (value : ν) (entries : List (κ × ν)) :
    lookup other (store key value entries) =
      if key = other then some value else lookup other entries := by
  induction entries with
  | nil => simp [store, lookup]
  | cons entry rest ih =>
    obtain ⟨k, v⟩ := entry
    by_cases same : k = key
    · subst same
      by_cases hit : k = other <;> simp [store, lookup, hit]
    · by_cases hit : k = other
      · subst hit
        simp [store, lookup, same, Ne.symm same]
      · simp [store, lookup, same, hit, ih]

theorem get?_insert (m : OrderedMap κ ν) (key other : κ) (value : ν) :
    (m.insert key value).get? other = if key = other then some value else m.get? other :=
  lookup_store key other value m.entries

theorem keys_erase (m : OrderedMap κ ν) (key : κ) :
    (m.erase key).keys = m.keys.filter fun k => decide (k ≠ key) := by
  simp only [keys, erase, filter, List.filter_map]
  rfl

theorem lookup_eq_none_iff (key : κ) (entries : List (κ × ν)) :
    lookup key entries = none ↔ key ∉ entries.map Prod.fst := by
  induction entries with
  | nil => simp [lookup]
  | cons entry rest ih =>
    obtain ⟨k, v⟩ := entry
    by_cases same : k = key
    · simp [lookup, same]
    · simp only [lookup, if_neg same, ih, List.map_cons, List.mem_cons, not_or]
      exact ⟨fun absent => ⟨Ne.symm same, absent⟩, fun absent => absent.2⟩

/-- Where keys are distinct, an entry is found under its key. -/
theorem lookup_eq_some_iff (key : κ) (value : ν) (entries : List (κ × ν))
    (distinct : (entries.map Prod.fst).Nodup) :
    lookup key entries = some value ↔ (key, value) ∈ entries := by
  induction entries with
  | nil => simp [lookup]
  | cons entry rest ih =>
    obtain ⟨k, v⟩ := entry
    rw [List.map_cons, List.nodup_cons] at distinct
    by_cases same : k = key
    · subst same
      have absent : (k, value) ∉ rest := fun member =>
        distinct.1 (List.mem_map.mpr ⟨(k, value), member, rfl⟩)
      simp [lookup, absent, eq_comm]
    · simp [lookup, same, Ne.symm same, ih distinct.2]

theorem get?_eq_some_iff (m : OrderedMap κ ν) (key : κ) (value : ν) :
    m.get? key = some value ↔ (key, value) ∈ m.entries :=
  lookup_eq_some_iff key value m.entries m.distinct

theorem get?_eq_none_iff (m : OrderedMap κ ν) (key : κ) : m.get? key = none ↔ key ∉ m.keys :=
  lookup_eq_none_iff key m.entries

theorem contains_iff (m : OrderedMap κ ν) (key : κ) : m.contains key = true ↔ key ∈ m.keys := by
  rw [contains, Option.isSome_iff_ne_none, ne_eq, get?_eq_none_iff, Decidable.not_not]

@[simp] theorem get?_empty (key : κ) : (empty : OrderedMap κ ν).get? key = none := rfl

theorem get?_filter (m : OrderedMap κ ν) (keep : κ → ν → Bool) (key : κ) :
    (m.filter keep).get? key = (m.get? key).filter (keep key) := by
  apply Option.ext
  intro value
  rw [get?_eq_some_iff, Option.filter_eq_some_iff, get?_eq_some_iff]
  simp [filter]

theorem get?_erase (m : OrderedMap κ ν) (key other : κ) :
    (m.erase key).get? other = if other = key then none else m.get? other := by
  rw [erase, get?_filter]
  by_cases same : other = key
  · simp [same]
  · simp only [same, not_false_eq_true, decide_true, if_false, ne_eq]
    cases m.get? other <;> rfl

end OrderedMap

end CodeSearch
