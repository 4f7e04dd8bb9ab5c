namespace LedgerNode

/-!
# Ordered maps

A finite map is kept as its list of entries in strictly increasing order of
the keys.  The list is determined by what the map answers, so two maps that
answer alike are equal; no representation of one map can differ from another.

The order is the one of the key type's `compare`.  For byte strings this is
the order of their first difference, with a shorter string before its
extensions.
-/

open Std (TransOrd LawfulEqOrd)

/-- Entries whose keys strictly increase. -/
@[ext]
structure OrderedMap (Key : Type u) (Value : Type v) [Ord Key] where
  entries : List (Key × Value)
  increasing : entries.Pairwise fun earlier later => compare earlier.1 later.1 = .lt

namespace OrderedMap

variable {Key : Type u} {Value : Type v} [Ord Key]

/-- The map without entries. -/
def empty : OrderedMap Key Value := ⟨[], .nil⟩

instance : EmptyCollection (OrderedMap Key Value) := ⟨empty⟩

instance : Inhabited (OrderedMap Key Value) := ⟨empty⟩

/-- The value of the first entry under a key. -/
def lookup (key : Key) : List (Key × Value) → Option Value
  | [] => none
  | entry :: rest => if compare key entry.1 = .eq then some entry.2 else lookup key rest

def get? (map : OrderedMap Key Value) (key : Key) : Option Value :=
  lookup key map.entries

def contains (map : OrderedMap Key Value) (key : Key) : Bool := (map.get? key).isSome

/-- The keys in increasing order. -/
def keys (map : OrderedMap Key Value) : List Key := map.entries.map (·.1)

/-- The values in the order of their keys. -/
def values (map : OrderedMap Key Value) : List Value := map.entries.map (·.2)

/-- How many entries the map has. -/
def size (map : OrderedMap Key Value) : Nat := map.entries.length

/-- Place an entry in front of the first greater key, instead of an entry
under the same key if there is one. -/
def place (key : Key) (value : Value) : List (Key × Value) → List (Key × Value)
  | [] => [(key, value)]
  | entry :: rest =>
    match compare key entry.1 with
    | .lt => (key, value) :: entry :: rest
    | .eq => (key, value) :: rest
    | .gt => entry :: place key value rest

theorem mem_place {key : Key} {value : Value} {entries : List (Key × Value)}
    {entry : Key × Value} (member : entry ∈ place key value entries) :
    entry = (key, value) ∨ entry ∈ entries := by
  induction entries with
  | nil => simpa [place] using member
  | cons head rest ih =>
    rw [place] at member
    split at member
    · simpa using member
    · rcases List.mem_cons.mp member with here | there
      · exact .inl here
      · exact .inr (List.mem_cons_of_mem _ there)
    · rcases List.mem_cons.mp member with here | there
      · exact .inr (here ▸ List.mem_cons_self)
      · exact (ih there).imp_right (List.mem_cons_of_mem _)

theorem increasing_place [TransOrd Key] [LawfulEqOrd Key] (key : Key) (value : Value)
    {entries : List (Key × Value)}
    (increasing : entries.Pairwise fun earlier later => compare earlier.1 later.1 = .lt) :
    (place key value entries).Pairwise
      fun earlier later => compare earlier.1 later.1 = .lt := by
  induction entries with
  | nil => simp [place]
  | cons head rest ih =>
    have ⟨before, tail⟩ := List.pairwise_cons.mp increasing
    rw [place]
    split
    next smaller =>
      refine List.pairwise_cons.mpr ⟨fun entry member => ?_, increasing⟩
      rcases List.mem_cons.mp member with here | there
      · exact here ▸ smaller
      · exact Std.TransCmp.lt_trans smaller (before entry there)
    next same =>
      refine List.pairwise_cons.mpr ⟨fun entry member => ?_, tail⟩
      exact LawfulEqOrd.eq_of_compare same ▸ before entry member
    next greater =>
      refine List.pairwise_cons.mpr ⟨fun entry member => ?_, ih tail⟩
      rcases mem_place member with here | there
      · exact here ▸ Std.OrientedCmp.lt_of_gt greater
      · exact before entry there

/-- Put a value under a key, instead of the value that was there. -/
def insert [TransOrd Key] [LawfulEqOrd Key] (map : OrderedMap Key Value) (key : Key)
    (value : Value) : OrderedMap Key Value :=
  ⟨place key value map.entries, increasing_place key value map.increasing⟩

/-- Keep the entries that satisfy a test. -/
def filter (map : OrderedMap Key Value) (test : Key → Value → Bool) :
    OrderedMap Key Value :=
  ⟨map.entries.filter fun entry => test entry.1 entry.2, map.increasing.filter _⟩

/-- Change every value, each under its key. -/
def map (map : OrderedMap Key Value) (change : Value → Other) : OrderedMap Key Other :=
  ⟨map.entries.map fun entry => (entry.1, change entry.2),
    List.pairwise_map.mpr map.increasing⟩

/-- Remove the entry under a key, if there is one. -/
def erase (map : OrderedMap Key Value) (key : Key) : OrderedMap Key Value :=
  map.filter fun other _ => compare key other != .eq

/-- Change the value under a key, if there is one. -/
def modify [TransOrd Key] [LawfulEqOrd Key] (map : OrderedMap Key Value) (key : Key)
    (change : Value → Value) : OrderedMap Key Value :=
  match map.get? key with
  | some value => map.insert key (change value)
  | none => map

/-- The entries whose keys are at least `first` and below `bound`. -/
def range (map : OrderedMap Key Value) (first bound : Key) : List (Key × Value) :=
  map.entries.filter fun entry =>
    compare first entry.1 != .gt && compare entry.1 bound == .lt

/-- The map that results from inserting entries one after another, so that a
later entry under a key wins. -/
def ofList [TransOrd Key] [LawfulEqOrd Key] (entries : List (Key × Value)) :
    OrderedMap Key Value :=
  entries.foldl (fun map entry => map.insert entry.1 entry.2) empty

instance [DecidableEq Key] [DecidableEq Value] : DecidableEq (OrderedMap Key Value) :=
  fun first second =>
    if same : first.entries = second.entries then
      isTrue (OrderedMap.ext same)
    else isFalse fun equal => same (congrArg entries equal)

end OrderedMap

end LedgerNode
