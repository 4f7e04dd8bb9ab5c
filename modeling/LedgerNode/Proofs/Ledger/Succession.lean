import LedgerNode.Proofs.Ledger.Acceptance

namespace LedgerNode

/-!
# Blocks that follow one another

Blocks that extend a chain one after another stand at successive heights, so a
height names at most one of them.  Those of them that wait are stored from the
tip up to the first one that is missing.
-/

namespace Ledger

/-- The cursor of a chain after these parcels were stored. -/
def endOf (tip : Cursor) (parcels : List WaitingBlock) : Cursor :=
  parcels.foldl (fun _ parcel => .ofBlock parcel.block) tip

theorem tip_append_map {chain : List Block} {tip : Cursor} (last : Chain.tip chain = some tip)
    (parcels : List WaitingBlock) :
    Chain.tip (chain ++ parcels.map (·.block)) = some (endOf tip parcels) := by
  induction parcels generalizing chain tip with
  | nil =>
      rw [List.map_nil, List.append_nil]
      exact last
  | cons parcel rest ih =>
      rw [List.map_cons, List.append_cons]
      exact ih (Chain.tip_append_singleton chain parcel.block)

namespace Follows

variable {tip : Cursor} {front back parcels : List WaitingBlock}

theorem front_back (follows : Follows tip (front ++ back)) :
    Follows tip front ∧ Follows (endOf tip front) back := by
  induction front generalizing tip with
  | nil => exact ⟨trivial, follows⟩
  | cons parcel rest ih =>
      rcases ih follows.2 with ⟨first, last⟩
      exact ⟨⟨follows.1, first⟩, last⟩

theorem height_endOf (follows : Follows tip parcels) :
    (endOf tip parcels).height.toNat = tip.height.toNat + parcels.length := by
  induction parcels generalizing tip with
  | nil => rfl
  | cons parcel rest ih =>
      have next : (Cursor.ofBlock parcel.block).height.toNat = tip.height.toNat + 1 :=
        follows.1.1
      have last : (endOf tip (parcel :: rest)).height.toNat =
          (Cursor.ofBlock parcel.block).height.toNat + rest.length := ih follows.2
      rw [last, next, List.length_cons]
      omega

/-- The heights count up from the tip. -/
theorem height_getElem (follows : Follows tip parcels) {index : Nat}
    (inside : index < parcels.length) :
    parcels[index].block.height.toNat = tip.height.toNat + 1 + index := by
  induction parcels generalizing tip index with
  | nil => cases inside
  | cons parcel rest ih =>
      have next : (Cursor.ofBlock parcel.block).height.toNat = tip.height.toNat + 1 :=
        follows.1.1
      cases index with
      | zero => exact next
      | succ index =>
          have later := ih follows.2 (Nat.lt_of_succ_lt_succ inside)
          rw [List.getElem_cons_succ, later, next]
          omega

theorem height_mem (follows : Follows tip parcels) {parcel : WaitingBlock}
    (member : parcel ∈ parcels) :
    tip.height.toNat < parcel.block.height.toNat ∧
      parcel.block.height.toNat ≤ tip.height.toNat + parcels.length := by
  rcases List.getElem_of_mem member with ⟨index, inside, same⟩
  have height := follows.height_getElem inside
  rw [same] at height
  omega

/-- A height names at most one of the blocks. -/
theorem eq_of_height (follows : Follows tip parcels) {first second : WaitingBlock}
    (one : first ∈ parcels) (other : second ∈ parcels)
    (same : first.block.height.toNat = second.block.height.toNat) : first = second := by
  rcases List.getElem_of_mem one with ⟨index, inside, here⟩
  rcases List.getElem_of_mem other with ⟨position, within, there⟩
  have low := follows.height_getElem inside
  have high := follows.height_getElem within
  rw [here] at low
  rw [there] at high
  have equal : index = position := by omega
  subst equal
  exact here.symm.trans there

end Follows

/-! ## Waiting blocks that follow the tip -/

private theorem lookup_of_above {entries : List (Nat × WaitingBlock)} {height : Nat}
    (above : ∀ entry ∈ entries, height < entry.1) :
    OrderedMap.lookup height entries = none := by
  cases found : OrderedMap.lookup height entries with
  | none => rfl
  | some parcel =>
      have less := above _ (OrderedMap.mem_of_lookup found)
      exact absurd less (Nat.lt_irrefl _)

/-- What is stored behind a tip is the waiting block above it, if it extends the
tip, and what is stored behind that block. -/
theorem linkedTo_eq (tip : Cursor) {entries : List (Nat × WaitingBlock)}
    (increasing : entries.Pairwise fun earlier later => compare earlier.1 later.1 = .lt) :
    linkedTo tip entries =
      match OrderedMap.lookup (tip.height.toNat + 1) entries with
      | none => []
      | some next =>
        if tip.ExtendedBy next.block then next :: linkedTo (.ofBlock next.block) entries
        else [] := by
  induction entries with
  | nil => rfl
  | cons entry rest ih =>
      rcases entry with ⟨height, parcel⟩
      rcases List.pairwise_cons.mp increasing with ⟨before, tail⟩
      have stale (later : Cursor) (below : height ≤ later.height.toNat) :
          linkedTo later ((height, parcel) :: rest) = linkedTo later rest := by
        rw [linkedTo, if_pos below]
      rcases Nat.lt_trichotomy height (tip.height.toNat + 1) with less | equal | greater
      · -- an entry below is passed over, for this tip and for every later one
        have different : tip.height.toNat + 1 ≠ height := by omega
        rw [stale tip (by omega), ih tail, OrderedMap.lookup_cons_of_ne different]
        cases found : OrderedMap.lookup (tip.height.toNat + 1) rest with
        | none => rfl
        | some next =>
            dsimp only
            by_cases links : tip.ExtendedBy next.block
            · have next_height : (Cursor.ofBlock next.block).height.toNat =
                  tip.height.toNat + 1 := links.1
              rw [if_pos links, if_pos links, stale _ (by omega)]
            · rw [if_neg links, if_neg links]
      · subst equal
        rw [OrderedMap.lookup_cons_self]
        dsimp only
        by_cases links : tip.ExtendedBy parcel.block
        · have next_height : (Cursor.ofBlock parcel.block).height.toNat =
              tip.height.toNat + 1 := links.1
          have stored : linkedTo tip ((tip.height.toNat + 1, parcel) :: rest) =
              parcel :: linkedTo (.ofBlock parcel.block) rest := by
            rw [linkedTo, if_neg (by omega), if_pos ⟨rfl, links⟩]
          rw [stored, if_pos links, stale _ (by omega)]
        · rw [if_neg links, linkedTo, if_neg (by omega), if_neg fun both => links both.2]
      · have absent : OrderedMap.lookup (tip.height.toNat + 1) ((height, parcel) :: rest) =
            none := by
          apply lookup_of_above
          intro other member
          rcases List.mem_cons.mp member with here | there
          · rw [here]
            exact greater
          · have further := Nat.compare_eq_lt.mp (before other there)
            exact Nat.lt_trans greater further
        rw [absent, linkedTo, if_neg (by omega), if_neg fun both => by omega]

/-- Of blocks that follow the tip, those are stored that wait without a gap. -/
theorem linkedTo_eq_takeWhile {waiting : WaitingBlocks} {tip : Cursor}
    {parcels delivered : List WaitingBlock} (follows : Follows tip parcels)
    (waits : ∀ parcel ∈ parcels, waiting.get? parcel.block.height.toNat =
      if parcel ∈ delivered then some parcel else none)
    (beyond : waiting.get? ((endOf tip parcels).height.toNat + 1) = none) :
    linkedTo tip waiting.entries = parcels.takeWhile (· ∈ delivered) := by
  induction parcels generalizing tip with
  | nil =>
      have absent : OrderedMap.lookup (tip.height.toNat + 1) waiting.entries = none := beyond
      rw [linkedTo_eq tip waiting.increasing, absent]
      rfl
  | cons parcel rest ih =>
      rcases follows with ⟨links, others⟩
      rcases List.forall_mem_cons.mp waits with ⟨head, tail⟩
      have found : OrderedMap.lookup (tip.height.toNat + 1) waiting.entries =
          if parcel ∈ delivered then some parcel else none := by
        rw [← links.1]
        exact head
      rw [linkedTo_eq tip waiting.increasing, found]
      by_cases arrived : parcel ∈ delivered
      · rw [if_pos arrived, List.takeWhile_cons_of_pos (by simpa using arrived)]
        dsimp only
        rw [if_pos links, ih others tail beyond]
      · rw [if_neg arrived, List.takeWhile_cons_of_neg (by simpa using arrived)]

end Ledger

end LedgerNode
