import LedgerNode.OrderedMap

namespace LedgerNode

/-!
# What an ordered map answers

Every operation on an ordered map is described here by what the map answers
afterwards.  The entries are the answers and nothing else: a pair is an entry
exactly when the map answers its key with its value, and two maps with the
same answers are the same map.  The representation is not opened again after
this file.
-/

open Std (TransOrd LawfulEqOrd)

namespace OrderedMap

variable {Key : Type u} {Value : Type v} [Ord Key]

theorem contains_iff {map : OrderedMap Key Value} {key : Key} :
    map.contains key = true ↔ ∃ value, map.get? key = some value := by
  rw [contains, Option.isSome_iff_exists]

@[simp]
theorem get?_empty (key : Key) : (∅ : OrderedMap Key Value).get? key = none := rfl

variable [LawfulEqOrd Key]

private theorem ne_of_compare_ne_eq {first second : Key}
    (unequal : compare first second ≠ .eq) : first ≠ second := by
  intro same
  rw [same] at unequal
  exact unequal Std.ReflOrd.compare_self

/-! ## Looking up in a list of entries -/

theorem lookup_cons_self (key : Key) (value : Value) (rest : List (Key × Value)) :
    lookup key ((key, value) :: rest) = some value := by
  rw [lookup, if_pos Std.ReflOrd.compare_self]

theorem lookup_cons_of_ne {key : Key} {entry : Key × Value} (different : key ≠ entry.1)
    (rest : List (Key × Value)) : lookup key (entry :: rest) = lookup key rest := by
  rw [lookup, if_neg]
  intro same
  exact different (LawfulEqOrd.eq_of_compare same)

theorem mem_of_lookup {key : Key} {value : Value} {entries : List (Key × Value)}
    (found : lookup key entries = some value) : (key, value) ∈ entries := by
  induction entries with
  | nil => cases found
  | cons head rest ih =>
      by_cases same : key = head.1
      · subst same
        rw [lookup_cons_self] at found
        cases found
        exact List.mem_cons_self
      · rw [lookup_cons_of_ne same] at found
        exact List.mem_cons_of_mem _ (ih found)

theorem lookup_of_mem {key : Key} {value : Value} {entries : List (Key × Value)}
    (increasing : entries.Pairwise fun earlier later => compare earlier.1 later.1 = .lt)
    (member : (key, value) ∈ entries) : lookup key entries = some value := by
  induction entries with
  | nil => cases member
  | cons head rest ih =>
      rcases List.pairwise_cons.mp increasing with ⟨before, tail⟩
      rcases List.mem_cons.mp member with here | there
      · subst here
        exact lookup_cons_self key value rest
      · have different : head.1 ≠ key := by
          apply ne_of_compare_ne_eq
          rw [before _ there]
          decide
        rw [lookup_cons_of_ne different.symm]
        exact ih tail there

/-! ## Entries and answers -/

/-- The entries of a map are its answers. -/
theorem mem_entries_iff {map : OrderedMap Key Value} {key : Key} {value : Value} :
    (key, value) ∈ map.entries ↔ map.get? key = some value :=
  ⟨lookup_of_mem map.increasing, mem_of_lookup⟩

theorem get?_eq_none_iff {map : OrderedMap Key Value} {key : Key} :
    map.get? key = none ↔ ∀ value, (key, value) ∉ map.entries := by
  constructor
  · intro missing value member
    rw [mem_entries_iff.mp member] at missing
    cases missing
  · intro absent
    cases found : map.get? key with
    | none => rfl
    | some value => exact absurd (mem_entries_iff.mpr found) (absent value)

theorem nodup_entries (map : OrderedMap Key Value) : map.entries.Nodup := by
  apply map.increasing.imp
  intro earlier later less same
  rw [same, Std.ReflOrd.compare_self] at less
  cases less

/-- No key occurs twice. -/
theorem nodup_keys (map : OrderedMap Key Value) : map.keys.Nodup := by
  rw [keys, List.Nodup, List.pairwise_map]
  apply map.increasing.imp
  intro earlier later less same
  rw [same, Std.ReflOrd.compare_self] at less
  cases less

theorem mem_values_iff {map : OrderedMap Key Value} {value : Value} :
    value ∈ map.values ↔ ∃ key, map.get? key = some value := by
  simp [values, ← mem_entries_iff]

theorem mem_keys_iff {map : OrderedMap Key Value} {key : Key} :
    key ∈ map.keys ↔ map.contains key = true := by
  simp [keys, contains_iff, ← mem_entries_iff]

/-- Increasing lists with the same members are the same list. -/
theorem eq_of_perm [TransOrd Key] {first second : List (Key × Value)}
    (permuted : first.Perm second)
    (increasing : first.Pairwise fun earlier later => compare earlier.1 later.1 = .lt)
    (other : second.Pairwise fun earlier later => compare earlier.1 later.1 = .lt) :
    first = second := by
  apply permuted.eq_of_pairwise _ increasing other
  intro earlier later _ _ less greater
  have impossible := Std.TransCmp.lt_trans less greater
  rw [Std.ReflOrd.compare_self] at impossible
  cases impossible

/-- A map is determined by its answers. -/
theorem ext_get? [TransOrd Key] {first second : OrderedMap Key Value}
    (same : ∀ key, first.get? key = second.get? key) : first = second := by
  apply OrderedMap.ext
  apply eq_of_perm _ first.increasing second.increasing
  apply (List.perm_ext_iff_of_nodup first.nodup_entries second.nodup_entries).mpr
  intro entry
  rw [mem_entries_iff, mem_entries_iff, same]

private theorem length_le_of_increasing {entries : List (Nat × Value)} {low high : Nat}
    (increasing : entries.Pairwise fun earlier later => compare earlier.1 later.1 = .lt)
    (within : ∀ entry ∈ entries, low ≤ entry.1 ∧ entry.1 < high) :
    entries.length ≤ high - low := by
  induction entries generalizing low with
  | nil => exact Nat.zero_le _
  | cons head rest ih =>
      rcases List.pairwise_cons.mp increasing with ⟨before, tail⟩
      rcases List.forall_mem_cons.mp within with ⟨here, others⟩
      have above : ∀ entry ∈ rest, head.1 + 1 ≤ entry.1 ∧ entry.1 < high := by
        intro entry member
        exact ⟨Nat.compare_eq_lt.mp (before entry member), (others entry member).2⟩
      have few := ih tail above
      rw [List.length_cons]
      omega

/-- A map has no more entries than there is room for its keys. -/
theorem length_entries_le {map : OrderedMap Nat Value} {low high : Nat}
    (within : ∀ key value, map.get? key = some value → low ≤ key ∧ key < high) :
    map.entries.length ≤ high - low := by
  apply length_le_of_increasing map.increasing
  intro entry member
  exact within entry.1 entry.2 (mem_entries_iff.mp member)

/-! ## Operations -/

theorem lookup_place_self (key : Key) (value : Value) (entries : List (Key × Value)) :
    lookup key (place key value entries) = some value := by
  induction entries with
  | nil => exact lookup_cons_self key value []
  | cons head rest ih =>
      rw [place]
      split
      next => exact lookup_cons_self key value _
      next => exact lookup_cons_self key value _
      next greater =>
        have different : key ≠ head.1 := by
          apply ne_of_compare_ne_eq
          rw [greater]
          decide
        rw [lookup_cons_of_ne different]
        exact ih

theorem lookup_place_of_ne {key other : Key} (different : other ≠ key) (value : Value)
    (entries : List (Key × Value)) :
    lookup other (place key value entries) = lookup other entries := by
  induction entries with
  | nil => exact lookup_cons_of_ne different []
  | cons head rest ih =>
      rw [place]
      split
      next => exact lookup_cons_of_ne different _
      next same =>
        have here : head.1 = key := (LawfulEqOrd.eq_of_compare same).symm
        rw [lookup_cons_of_ne different, lookup_cons_of_ne (here ▸ different)]
      next =>
        by_cases found : other = head.1
        · subst found
          rw [lookup_cons_self, lookup_cons_self]
        · rw [lookup_cons_of_ne found, lookup_cons_of_ne found, ih]

section Insert

variable [TransOrd Key]

@[simp]
theorem get?_insert_self (map : OrderedMap Key Value) (key : Key) (value : Value) :
    (map.insert key value).get? key = some value :=
  lookup_place_self key value map.entries

theorem get?_insert_of_ne (map : OrderedMap Key Value) {key other : Key}
    (different : other ≠ key) (value : Value) :
    (map.insert key value).get? other = map.get? other :=
  lookup_place_of_ne different value map.entries

/-- A map after an insertion answers the new key with the new value, and every
other key as before. -/
theorem get?_insert [DecidableEq Key] (map : OrderedMap Key Value) (key other : Key)
    (value : Value) :
    (map.insert key value).get? other = if other = key then some value else map.get? other := by
  split
  next same =>
    rw [same]
    exact get?_insert_self map key value
  next different => exact get?_insert_of_ne map different value

/-- A map after a change answers the changed key with the changed value, if it
answers it, and every other key as before. -/
theorem get?_modify [DecidableEq Key] (map : OrderedMap Key Value) (key other : Key)
    (change : Value → Value) :
    (map.modify key change).get? other =
      if other = key then (map.get? key).map change else map.get? other := by
  rw [modify]
  split
  next value found => rw [get?_insert, found, Option.map_some]
  next missing =>
    split
    next same => rw [same, missing, Option.map_none]
    next => rfl

/-- Inserting under a new key adds one entry. -/
theorem perm_entries_insert {map : OrderedMap Key Value} {key : Key}
    (fresh : map.get? key = none) (value : Value) :
    (map.insert key value).entries.Perm ((key, value) :: map.entries) := by
  have absent : (key, value) ∉ map.entries := get?_eq_none_iff.mp fresh value
  have nodup := List.nodup_cons.mpr ⟨absent, map.nodup_entries⟩
  apply (List.perm_ext_iff_of_nodup (nodup_entries _) nodup).mpr
  rintro ⟨other, found⟩
  rw [List.mem_cons, mem_entries_iff, mem_entries_iff]
  by_cases same : other = key
  · subst same
    rw [get?_insert_self, fresh]
    simp [eq_comm]
  · rw [get?_insert_of_ne _ same]
    simp [same]

theorem contains_insert (map : OrderedMap Key Value) (key other : Key) (value : Value) :
    (map.insert key value).contains other = true ↔ other = key ∨ map.contains other = true := by
  by_cases same : other = key
  · rw [same, contains, get?_insert_self]
    exact iff_of_true rfl (.inl rfl)
  · rw [contains, get?_insert_of_ne _ same]
    exact (or_iff_right same).symm

/-- Inserting under a known key leaves the size alone, and under a new key it adds one. -/
theorem size_insert (map : OrderedMap Key Value) (key : Key) (value : Value) :
    (map.insert key value).size = map.size + (!map.contains key).toNat := by
  cases known : map.contains key with
  | false =>
      have fresh : map.get? key = none :=
        Option.isNone_iff_eq_none.mp (Option.isSome_eq_false_iff.mp known)
      exact (perm_entries_insert fresh value).length_eq
  | true =>
      have same : (map.insert key value).keys.Perm map.keys := by
        apply (List.perm_ext_iff_of_nodup (nodup_keys _) map.nodup_keys).mpr
        intro other
        rw [mem_keys_iff, mem_keys_iff, contains_insert]
        constructor
        · rintro (rfl | before)
          · exact known
          · exact before
        · exact .inr
      have lengths := same.length_eq
      rw [keys, keys, List.length_map, List.length_map] at lengths
      exact lengths

end Insert

omit [LawfulEqOrd Key] in
theorem lookup_map (change : Value → Other) (key : Key) (entries : List (Key × Value)) :
    lookup key (entries.map fun entry => (entry.1, change entry.2)) =
      (lookup key entries).map change := by
  induction entries with
  | nil => rfl
  | cons head rest ih =>
      rw [List.map_cons, lookup, lookup, ih]
      split <;> rfl

omit [LawfulEqOrd Key] in
/-- Changing every value changes every answer. -/
theorem get?_map (map : OrderedMap Key Value) (change : Value → Other) (key : Key) :
    (map.map change).get? key = (map.get? key).map change :=
  lookup_map change key map.entries

/-- Filtering keeps the answers that pass the test. -/
theorem get?_filter (map : OrderedMap Key Value) (test : Key → Value → Bool) (key : Key) :
    (map.filter test).get? key = (map.get? key).filter (test key) := by
  cases found : (map.filter test).get? key with
  | some value =>
      rcases List.mem_filter.mp (mem_entries_iff.mpr found) with ⟨member, passes⟩
      rw [mem_entries_iff.mp member]
      exact (Option.filter_some_pos passes).symm
  | none =>
      cases old : map.get? key with
      | none => rfl
      | some value =>
          have fails : test key value = false := by
            apply Bool.eq_false_iff.mpr
            intro passes
            apply get?_eq_none_iff.mp found value
            exact List.mem_filter.mpr ⟨mem_entries_iff.mpr old, passes⟩
          exact (Option.filter_some_neg fails).symm

theorem get?_erase_of_ne (map : OrderedMap Key Value) {key other : Key}
    (different : other ≠ key) : (map.erase key).get? other = map.get? other := by
  rw [erase, get?_filter]
  cases map.get? other with
  | none => rfl
  | some value =>
      apply Option.filter_some_pos
      rw [bne_iff_ne]
      intro same
      exact different (LawfulEqOrd.eq_of_compare same).symm

/-- A map after an erasure does not answer the erased key, and answers every
other key as before. -/
theorem get?_erase [DecidableEq Key] (map : OrderedMap Key Value) (key other : Key) :
    (map.erase key).get? other = if other = key then none else map.get? other := by
  split
  next same =>
    rw [same, erase, get?_filter, Std.ReflOrd.compare_self]
    cases map.get? key <;> rfl
  next different => exact get?_erase_of_ne map different

end OrderedMap

end LedgerNode
