import Donna.Base.Tables

/-! A `Map`: its entries in the order in which their keys were first set, with no key twice.
Setting a key anew leaves its entry where it stands. -/

namespace Donna.Js

structure OrderedMap (κ ν : Type) where
  entries : List (κ × ν)
  distinct : (entries.map Prod.fst).Nodup

namespace OrderedMap

variable {κ ν : Type} [DecidableEq κ]

def empty : OrderedMap κ ν := ⟨[], List.nodup_nil⟩

def get (map : OrderedMap κ ν) (key : κ) : Option ν := map.entries.lookup key

/-- The entries with another value for a key that has one. -/
def replace (entries : List (κ × ν)) (key : κ) (value : ν) : List (κ × ν) :=
  entries.map fun entry => if entry.1 = key then (key, value) else entry

theorem keys_replace (entries : List (κ × ν)) (key : κ) (value : ν) :
    (replace entries key value).map Prod.fst = entries.map Prod.fst := by
  rw [replace, List.map_map]
  refine List.map_congr_left fun entry _ => ?_
  by_cases same : entry.1 = key
  · simp [same]
  · simp [same]

def set (map : OrderedMap κ ν) (key : κ) (value : ν) : OrderedMap κ ν :=
  if listed : key ∈ map.entries.map Prod.fst then
    ⟨replace map.entries key value, (keys_replace map.entries key value).symm ▸ map.distinct⟩
  else
    ⟨map.entries ++ [(key, value)], by
      rw [List.map_append]
      exact map.distinct.append (List.nodup_singleton key) (by simpa using listed)⟩

variable {map : OrderedMap κ ν} {key other : κ} {value : ν}

theorem mem_entries : (key, value) ∈ map.entries ↔ map.get key = some value :=
  (Tables.lookup_eq_some map.distinct).symm

@[simp] theorem get_empty : (empty : OrderedMap κ ν).get key = none := rfl

theorem get_eq_none_iff : map.get key = none ↔ key ∉ map.entries.map Prod.fst := by
  rw [get, List.lookup_eq_none_iff]
  simp only [bne_iff_ne, List.mem_map, not_exists, not_and]
  exact forall₂_congr fun entry _ => ne_comm

theorem lookup_replace (entries : List (κ × ν)) :
    (replace entries key value).lookup other =
      if other = key ∧ key ∈ entries.map Prod.fst then some value else entries.lookup other := by
  induction entries with
  | nil => simp [replace]
  | cons entry entries ih =>
    obtain ⟨first, held⟩ := entry
    by_cases same : other = first
    · subst same
      by_cases here : other = key
      · simp [replace, here]
      · simp [replace, here]
    · rw [replace] at ih ⊢
      by_cases here : first = key
      · subst here
        simpa [same, List.lookup_cons, beq_false_of_ne same] using ih
      · have later : key ∈ List.map Prod.fst ((first, held) :: entries) ↔
            key ∈ List.map Prod.fst entries := by
          rw [List.map_cons, List.mem_cons]
          exact or_iff_right (Ne.symm here)
        simp only [later]
        simpa [here, List.lookup_cons, beq_false_of_ne same] using ih

theorem get_set : (map.set key value).get other =
    if other = key then some value else map.get other := by
  unfold set
  split
  next listed =>
    simp only [get, lookup_replace, listed, and_true]
  next fresh =>
    have absent := get_eq_none_iff.mpr fresh
    simp only [get] at absent ⊢
    rw [List.lookup_append]
    by_cases same : other = key
    · simp [same, absent]
    · simp [same, List.lookup_cons, beq_false_of_ne same]

theorem entries_set_of_none (absent : map.get key = none) :
    (map.set key value).entries = map.entries ++ [(key, value)] := by
  rw [set, dif_neg (get_eq_none_iff.mp absent)]

/-- Setting a key does not show among the entries that are kept without it. -/
theorem filter_set {keep : κ × ν → Bool} (dropped : ∀ held, keep (key, held) = false) :
    (map.set key value).entries.filter keep = map.entries.filter keep := by
  unfold set
  split
  next listed =>
    show (replace map.entries key value).filter keep = map.entries.filter keep
    induction map.entries with
    | nil => rfl
    | cons entry entries ih =>
      obtain ⟨first, held⟩ := entry
      rw [replace] at ih ⊢
      by_cases same : first = key
      · simp [same, dropped, ih]
      · simp [same, List.filter_cons, ih]
  next unlisted => simp [dropped]

/-- Setting entries with distinct keys, one after the other: the values of the keys that are there
already are replaced where they stand, and the new keys follow. -/
theorem entries_foldl_set {more : List (κ × ν)} (fresh : (more.map Prod.fst).Nodup) :
    (more.foldl (fun map entry => map.set entry.1 entry.2) map).entries =
      map.entries.map (fun entry => (entry.1, (more.lookup entry.1).getD entry.2)) ++
        more.filter fun entry => decide (entry.1 ∉ map.entries.map Prod.fst) := by
  induction more generalizing map with
  | nil => simp
  | cons first more ih =>
    obtain ⟨key, value⟩ := first
    obtain ⟨absent, later⟩ := List.nodup_cons.mp fresh
    have missing : more.lookup key = none := by
      rw [List.lookup_eq_none_iff]
      intro entry present
      rw [bne_iff_ne]
      intro same
      exact absent (List.mem_map.mpr ⟨entry, present, same.symm⟩)
    rw [List.foldl_cons, ih later]
    unfold set
    split
    next listed =>
      -- The key keeps its place, so the later entries see the same keys.
      simp only [keys_replace]
      congr 1
      · rw [replace, List.map_map]
        refine List.map_congr_left fun entry _ => ?_
        by_cases same : entry.1 = key
        · simp [same, missing]
        · simp [same, List.lookup_cons, beq_false_of_ne same]
      · exact (List.filter_cons_of_neg (by simpa using listed)).symm
    next unlisted =>
      have others : ∀ entry ∈ map.entries, entry.1 ≠ key :=
        fun entry present same => unlisted (List.mem_map.mpr ⟨entry, present, same⟩)
      rw [List.map_append, List.append_assoc, List.filter_cons_of_pos (by simpa using unlisted)]
      congr 1
      · refine List.map_congr_left fun entry present => ?_
        simp [List.lookup_cons, beq_false_of_ne (others entry present)]
      · simp only [List.map_cons, List.map_nil, missing, Option.getD_none, List.singleton_append]
        congr 1
        refine List.filter_congr fun entry present => ?_
        have differs : entry.1 ≠ key :=
          fun same => absent (List.mem_map.mpr ⟨entry, present, same⟩)
        simp [differs]

section MapValues

variable {ν' : Type} (f : ν → ν')

/-- The map with other values at its keys. -/
def mapValues (map : OrderedMap κ ν) : OrderedMap κ ν' where
  entries := map.entries.map fun entry => (entry.1, f entry.2)
  distinct := by
    rw [List.map_map]
    exact map.distinct

theorem get_mapValues : (map.mapValues f).get key = (map.get key).map f := by
  obtain ⟨entries, distinct⟩ := map
  simp only [get, mapValues]
  clear distinct
  induction entries with
  | nil => rfl
  | cons entry entries ih =>
    obtain ⟨first, held⟩ := entry
    by_cases same : key = first
    · simp [same]
    · simp [List.lookup_cons, beq_false_of_ne same, ih]

theorem mapValues_set : (map.set key value).mapValues f = (map.mapValues f).set key (f value) := by
  have keys : (map.mapValues f).entries.map Prod.fst = map.entries.map Prod.fst :=
    List.map_map.trans rfl
  unfold set
  simp only [keys]
  split
  next listed =>
    simp only [mapValues, replace, List.map_map, mk.injEq]
    refine List.map_congr_left fun entry _ => ?_
    by_cases same : entry.1 = key
    · simp [same]
    · simp [same]
  next unlisted => simp [mapValues]

omit [DecidableEq κ] in
theorem mapValues_mapValues {ν'' : Type} (g : ν' → ν'') :
    (map.mapValues f).mapValues g = map.mapValues (g ∘ f) := by
  simp [mapValues]

omit [DecidableEq κ] in
theorem mapValues_id : map.mapValues id = map := by
  simp [mapValues]

end MapValues

/-- A key has one entry or none. -/
theorem filter_entries (map : OrderedMap κ ν) (key : κ) :
    map.entries.filter (fun entry => entry.1 = key) = (map.get key).toList.map (Prod.mk key) := by
  cases found : map.get key with
  | none =>
    have absent := get_eq_none_iff.mp found
    refine List.filter_eq_nil_iff.mpr fun entry present same => absent ?_
    exact List.mem_map.mpr ⟨entry, present, by simpa using same⟩
  | some value =>
    have unique : Tables.Unique (fun entry : κ × ν => some entry.1) map.entries := by
      simpa [Tables.Unique] using map.distinct
    exact unique.filter_eq_singleton (k := key) (mem_entries.mpr found) (by simp) (by simp)

end OrderedMap

end Donna.Js
