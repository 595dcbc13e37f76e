import AgentTree.Table
import Mathlib.Data.List.Sort

/-!
Dictionaries: tables of keys and values, in the order in which the keys were first set.
-/

namespace Relational

abbrev Dict (κ ν : Type) := Table κ (κ × ν) Prod.fst

namespace Dict

variable {κ ν μ : Type}

def keys (dict : Dict κ ν) : List κ := dict.rows.map Prod.fst

def values (dict : Dict κ ν) : List ν := dict.rows.map Prod.snd

/-- The same keys with other values. -/
def mapValues (change : κ → ν → μ) (dict : Dict κ ν) : Dict κ μ where
  rows := dict.rows.map fun entry => (entry.1, change entry.1 entry.2)
  unique := by simpa [List.map_map, Function.comp_def] using dict.unique

/-- The same entries in the order of their keys. -/
def sorted [LinearOrder κ] (dict : Dict κ ν) : Dict κ ν where
  rows := dict.rows.insertionSort fun a b => a.1 ≤ b.1
  unique := ((List.perm_insertionSort _ dict.rows).map Prod.fst).nodup_iff.mpr dict.unique

theorem mem_sorted [LinearOrder κ] {dict : Dict κ ν} {entry : κ × ν} :
    entry ∈ dict.sorted.rows ↔ entry ∈ dict.rows := List.mem_insertionSort _

theorem sorted_sorted [LinearOrder κ] (dict : Dict κ ν) :
    (dict.sorted.rows.insertionSort fun a b => a.1 ≤ b.1) = dict.sorted.rows :=
  (List.pairwise_insertionSort (fun (a b : κ × ν) => a.1 ≤ b.1) dict.rows).insertionSort_eq

variable [DecidableEq κ]

def get? (dict : Dict κ ν) (k : κ) : Option ν := (dict.find? k).map Prod.snd

def contains (dict : Dict κ ν) (k : κ) : Bool := (dict.get? k).isSome

def set (dict : Dict κ ν) (k : κ) (value : ν) : Dict κ ν :=
  dict.upsert (k, value) (fun entry => (entry.1, value)) fun _ => rfl

/-- A display or a comprehension: a later entry replaces an earlier one of its key. -/
def ofList (entries : List (κ × ν)) : Dict κ ν :=
  entries.foldl (fun dict entry => dict.set entry.1 entry.2) Table.empty

variable {dict : Dict κ ν} {k : κ} {value : ν}

theorem get?_eq_some : dict.get? k = some value ↔ (k, value) ∈ dict.rows := by
  simp only [get?, Option.map_eq_some_iff]
  constructor
  · rintro ⟨⟨key, other⟩, found, rfl⟩
    obtain ⟨member, rfl⟩ := Table.find?_eq_some.mp found
    exact member
  · intro member
    exact ⟨(k, value), Table.find?_eq_some.mpr ⟨member, rfl⟩, rfl⟩

theorem contains_iff : dict.contains k = true ↔ k ∈ dict.keys := by
  simp only [contains, Option.isSome_iff_exists, get?_eq_some, keys, List.mem_map]
  constructor
  · rintro ⟨value, member⟩
    exact ⟨_, member, rfl⟩
  · rintro ⟨⟨key, value⟩, member, rfl⟩
    exact ⟨value, member⟩

theorem get?_set (other : κ) :
    (dict.set k value).get? other = if other = k then some value else dict.get? other := by
  simp only [get?, set, Table.find?_upsert]
  split
  next => cases dict.find? k <;> rfl
  next => rfl

theorem rows_set : (dict.set k value).rows =
    if dict.contains k then dict.rows.map fun entry => if entry.1 = k then (entry.1, value) else entry
    else dict.rows ++ [(k, value)] := by
  unfold set Table.upsert
  split
  next after inserted =>
    obtain ⟨fresh, rows⟩ := Table.insert_eq_some.mp inserted
    have absent : dict.contains k = false := by simp [contains, get?, fresh]
    simp [absent, rows]
  next taken =>
    obtain ⟨old, found⟩ := Table.insert_eq_none.mp taken
    have present : dict.contains k = true := by simp [contains, get?, found]
    simp [present, Table.updateAt, Table.update]

theorem set_set (other : ν) : (dict.set k other).set k value = dict.set k value := by
  have present : (dict.set k other).contains k = true := by simp [contains, get?_set]
  refine Table.ext ?_
  rw [rows_set, if_pos present, rows_set, rows_set]
  split
  next => simp only [List.map_map, Function.comp_def]; congr 1; funext entry; split <;> simp_all
  next absent =>
    have fresh : ∀ entry ∈ dict.rows, entry.1 ≠ k := by
      intro entry member same
      exact absent (contains_iff.mpr (List.mem_map.mpr ⟨entry, member, same⟩))
    rw [List.map_append, List.map_congr_left (g := id) fun entry member => by simp [fresh entry member]]
    simp

theorem mem_set {entry : κ × ν} (member : entry ∈ (dict.set k value).rows) :
    entry = (k, value) ∨ entry ∈ dict.rows := by
  obtain ⟨other, held⟩ := entry
  rw [← get?_eq_some, get?_set] at member
  split at member
  next same => exact .inl (by rw [same, Option.some.inj member])
  next => exact .inr (get?_eq_some.mp member)

/-- The value of a key is that of its last entry. -/
theorem get?_foldl (entries : List (κ × ν)) (dict : Dict κ ν) (k : κ) :
    (entries.foldl (fun dict entry => dict.set entry.1 entry.2) dict).get? k =
      ((entries.reverse.find? fun entry => entry.1 = k).map Prod.snd).or (dict.get? k) := by
  induction entries generalizing dict with
  | nil => simp
  | cons entry rest ih =>
      rw [List.foldl_cons, ih, get?_set, List.reverse_cons, List.find?_append]
      by_cases same : k = entry.1
      · subst same
        cases rest.reverse.find? fun other => other.1 = entry.1 <;> simp
      · cases rest.reverse.find? fun other => other.1 = k <;> simp [same, Ne.symm same]

theorem get?_ofList (entries : List (κ × ν)) (k : κ) :
    (ofList entries).get? k = (entries.reverse.find? fun entry => entry.1 = k).map Prod.snd := by
  rw [ofList, get?_foldl]
  simp [get?, Table.find?, Table.empty]

theorem mem_ofList {entries : List (κ × ν)} {entry : κ × ν} (member : entry ∈ (ofList entries).rows) :
    entry ∈ entries := by
  have found := get?_eq_some.mpr member
  rw [get?_ofList] at found
  obtain ⟨other, inside, same⟩ := Option.map_eq_some_iff.mp found
  have named := List.find?_some inside
  obtain rfl : other = entry := Prod.ext (of_decide_eq_true named) same
  simpa using List.mem_of_find?_eq_some inside

theorem get?_ofList_some {entries : List (κ × ν)} {k : κ} (member : k ∈ entries.map Prod.fst) :
    ∃ value, (ofList entries).get? k = some value := by
  rw [get?_ofList]
  obtain ⟨entry, there, rfl⟩ := List.mem_map.mp member
  cases found : entries.reverse.find? fun other => other.1 = entry.1 with
  | none =>
      have absent := List.find?_eq_none.mp found entry (by simpa using there)
      simp at absent
  | some other => exact ⟨other.2, rfl⟩

/-- Distinct keys keep their entries as they are. -/
theorem rows_ofList {entries : List (κ × ν)} (distinct : (entries.map Prod.fst).Nodup) :
    (ofList entries).rows = entries := by
  have appended : ∀ (rest : List (κ × ν)) (dict : Dict κ ν),
      ((dict.rows ++ rest).map Prod.fst).Nodup →
      (rest.foldl (fun dict entry => dict.set entry.1 entry.2) dict).rows = dict.rows ++ rest := by
    intro rest
    induction rest with
    | nil => simp
    | cons entry rest ih =>
        intro dict distinct
        have fresh : dict.find? entry.1 = none := by
          rw [Table.find?_eq_none]
          intro other member same
          simp only [List.map_append, List.map_cons, List.nodup_append] at distinct
          exact distinct.2.2 _ (List.mem_map_of_mem member) _ (by simp) same
        have inserted : (dict.set entry.1 entry.2).rows = dict.rows ++ [entry] := by
          unfold set Table.upsert
          split
          next after inserted => exact (Table.insert_eq_some.mp inserted).2
          next taken =>
            obtain ⟨other, found⟩ := Table.insert_eq_none.mp taken
            simp [fresh] at found
        rw [List.foldl_cons, ih _ (by rw [inserted]; simpa using distinct), inserted]
        simp
  have spelled := appended entries Table.empty (by simpa [Table.empty] using distinct)
  simpa [ofList, Table.empty] using spelled

theorem get?_eq_none : dict.get? k = none ↔ k ∉ dict.keys := by
  rw [← contains_iff, contains, Option.isSome_iff_ne_none, not_not]

/-- A dictionary is what it holds under each key. -/
theorem get?_congr {first second : Dict κ ν} (same : ∀ entry, entry ∈ first.rows ↔ entry ∈ second.rows) (k : κ) :
    first.get? k = second.get? k := by
  cases found : first.get? k with
  | some value => exact (get?_eq_some.mpr ((same _).mp (get?_eq_some.mp found))).symm
  | none =>
      cases other : second.get? k with
      | none => rfl
      | some value => exact absurd (get?_eq_some.mpr ((same _).mpr (get?_eq_some.mp other))) (by simp [found])

/-- Dictionaries that hold the same are the same once they are sorted. -/
theorem sorted_congr [LinearOrder κ] {first second : Dict κ ν} (same : ∀ k, first.get? k = second.get? k) :
    first.sorted = second.sorted := by
  have entries : ∀ entry, entry ∈ first.rows ↔ entry ∈ second.rows := fun entry => by
    rw [← Prod.mk.eta (p := entry), ← get?_eq_some, ← get?_eq_some, same]
  have perm : first.sorted.rows.Perm second.sorted.rows :=
    (List.perm_ext_iff_of_nodup first.sorted.unique.of_map second.sorted.unique.of_map).mpr fun entry => by
      rw [mem_sorted, mem_sorted, entries]
  refine Table.ext (perm.eq_of_pairwise ?_ (List.pairwise_insertionSort _ _) (List.pairwise_insertionSort _ _))
  intro a b member other below above
  exact List.inj_on_of_nodup_map first.sorted.unique member (perm.mem_iff.mpr other) (le_antisymm below above)

theorem get?_mapValues (change : κ → ν → μ) (dict : Dict κ ν) (k : κ) :
    (dict.mapValues change).get? k = (dict.get? k).map (change k) := by
  cases found : dict.get? k with
  | some value =>
      rw [Option.map_some, get?_eq_some]
      exact List.mem_map.mpr ⟨_, get?_eq_some.mp found, rfl⟩
  | none =>
      rw [Option.map_none, ← Option.not_isSome_iff_eq_none]
      intro there
      obtain ⟨value, spelled⟩ := Option.isSome_iff_exists.mp there
      obtain ⟨entry, member, same⟩ := List.mem_map.mp (get?_eq_some.mp spelled)
      obtain rfl : entry.1 = k := congrArg Prod.fst same
      have listed := get?_eq_some.mpr member
      simp [found] at listed

end Dict

end Relational
