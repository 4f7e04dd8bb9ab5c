import LedgerNode.Ledger.Chain

namespace LedgerNode

/-!
# Chains grow at their tip

Checking a list of blocks and checking it block by block come to the same.  A
checked list continues by one block exactly when the block extends its tip, or
is a genesis block if the list is empty.  The blocks of a checked list stand
at their heights.
-/

namespace Chain

/-- The cursor of the last block. -/
def tip (blocks : List Block) : Option Cursor := blocks.getLast?.map Cursor.ofBlock

@[simp]
theorem tip_append_singleton (blocks : List Block) (block : Block) :
    tip (blocks ++ [block]) = some (Cursor.ofBlock block) := by
  rw [tip, List.getLast?_append, List.getLast?_singleton]
  rfl

theorem tip_eq_none_iff {blocks : List Block} : tip blocks = none ↔ blocks = [] := by
  rw [tip, Option.map_eq_none_iff, List.getLast?_eq_none_iff]

theorem ne_nil_of_tip {blocks : List Block} {cursor : Cursor} (last : tip blocks = some cursor) :
    blocks ≠ [] := by
  rintro rfl
  cases last

theorem mem_of_tip {blocks : List Block} {cursor : Cursor} (last : tip blocks = some cursor) :
    ∃ block ∈ blocks, Cursor.ofBlock block = cursor := by
  rcases Option.map_eq_some_iff.mp last with ⟨block, found, same⟩
  exact ⟨block, List.mem_of_getLast? found, same⟩

/-- Blocks that pass the check. -/
def Linked (blocks : List Block) : Prop := verify blocks = .ok (tip blocks)

theorem linked_nil : Linked [] := rfl

/-! ## Checking block by block -/

theorem verifyFrom_append (start : Option Cursor) (length : Nat) (first second : List Block) :
    verifyFrom start length (first ++ second) = (do
      let middle ← verifyFrom start length first
      verifyFrom middle (length + first.length) second) := by
  induction first generalizing start length with
  | nil => rfl
  | cons block first ih =>
      rw [List.cons_append, verifyFrom, verifyFrom, List.length_cons]
      cases checkNext start length block with
      | error defect => rfl
      | ok _ =>
          have shift : length + (first.length + 1) = length + 1 + first.length := by omega
          rw [shift]
          exact ih _ _

/-- A check that succeeds answers the cursor of the last block. -/
theorem verifyFrom_eq_tip {start answer : Option Cursor} {length : Nat} {blocks : List Block}
    (checked : verifyFrom start length blocks = .ok answer) :
    answer = (tip blocks).or start := by
  induction blocks generalizing start length with
  | nil =>
      cases checked
      rfl
  | cons block blocks ih =>
      rw [verifyFrom] at checked
      cases next : checkNext start length block with
      | error defect =>
          rw [next] at checked
          cases checked
      | ok _ =>
          rw [next] at checked
          rw [ih checked]
          cases blocks with
          | nil => rfl
          | cons second blocks =>
              rw [tip, tip, List.getLast?_cons_cons]
              cases last : (second :: blocks).getLast? with
              | none => cases List.getLast?_eq_none_iff.mp last
              | some _ => rfl

theorem linked_of_verify {answer : Option Cursor} {blocks : List Block}
    (checked : verify blocks = .ok answer) : Linked blocks := by
  have tips := verifyFrom_eq_tip checked
  rw [Option.or_none] at tips
  rw [Linked, checked, tips]

theorem checkNext_some {cursor : Cursor} {height : Nat} {block : Block}
    (expected : block.height.toNat = height) (links : block.previousHash = cursor.hash) :
    checkNext (some cursor) height block = .ok () := by
  rw [checkNext, if_neg (by omega)]
  exact if_neg (fun unequal => unequal links)

theorem height_of_checkNext {start : Option Cursor} {height : Nat} {block : Block}
    (checked : checkNext start height block = .ok ()) : block.height.toNat = height := by
  by_cases expected : block.height.toNat = height
  · exact expected
  · unfold checkNext at checked
    rw [if_pos expected] at checked
    cases checked

/-! ## Heights -/

theorem height_of_verifyFrom {start answer : Option Cursor} {length index : Nat}
    {blocks : List Block} (checked : verifyFrom start length blocks = .ok answer)
    (inside : index < blocks.length) : blocks[index].height.toNat = length + index := by
  induction blocks generalizing start length index with
  | nil => cases inside
  | cons block blocks ih =>
      rw [verifyFrom] at checked
      cases next : checkNext start length block with
      | error defect =>
          rw [next] at checked
          cases checked
      | ok _ =>
          rw [next] at checked
          cases index with
          | zero => exact height_of_checkNext next
          | succ index =>
              have rest := ih checked (Nat.lt_of_succ_lt_succ inside)
              rw [List.getElem_cons_succ, rest]
              omega

/-- The blocks of a chain stand at their heights. -/
theorem Linked.height_eq {blocks : List Block} (linked : Linked blocks) {index : Nat}
    (inside : index < blocks.length) : blocks[index].height.toNat = index := by
  have height := height_of_verifyFrom linked inside
  rwa [Nat.zero_add] at height

theorem Linked.height_lt {blocks : List Block} (linked : Linked blocks) {block : Block}
    (member : block ∈ blocks) : block.height.toNat < blocks.length := by
  rcases List.getElem_of_mem member with ⟨index, inside, same⟩
  rw [← same, linked.height_eq inside]
  exact inside

/-- A block of a chain is found at its height. -/
theorem Linked.getElem_height {blocks : List Block} (linked : Linked blocks) {block : Block}
    (member : block ∈ blocks) (inside : block.height.toNat < blocks.length) :
    blocks[block.height.toNat] = block := by
  rcases List.getElem_of_mem member with ⟨index, within, same⟩
  have height := linked.height_eq within
  subst same
  simp only [height]

/-- The last block of a chain stands above all others. -/
theorem Linked.height_last {blocks : List Block} {block : Block}
    (linked : Linked (blocks ++ [block])) : block.height.toNat = blocks.length := by
  have inside : blocks.length < (blocks ++ [block]).length := by simp
  have height := linked.height_eq inside
  rw [List.getElem_append_right (Nat.le_refl _)] at height
  simpa using height

/-- The tip of a chain is one below its length. -/
theorem Linked.tip_height {blocks : List Block} (linked : Linked blocks) {cursor : Cursor}
    (last : tip blocks = some cursor) : cursor.height.toNat + 1 = blocks.length := by
  rcases Option.map_eq_some_iff.mp last with ⟨block, found, same⟩
  rcases List.getLast?_eq_some_iff.mp found with ⟨nonempty, value⟩
  subst value
  rw [← same, List.length_append, ← linked.height_last]
  rfl

/-! ## Links -/

theorem link_of_checkNext {cursor : Cursor} {height : Nat} {block : Block}
    (checked : checkNext (some cursor) height block = .ok ()) :
    block.previousHash = cursor.hash := by
  have expected := height_of_checkNext checked
  rw [checkNext, if_neg fun unequal => unequal expected] at checked
  by_cases links : block.previousHash = cursor.hash
  · exact links
  · rw [if_pos links] at checked
    cases checked

theorem link_of_verifyFrom {start answer : Option Cursor} {length index : Nat}
    {blocks : List Block} (checked : verifyFrom start length blocks = .ok answer)
    (inside : index + 1 < blocks.length) :
    blocks[index + 1].previousHash = blocks[index].hash := by
  induction blocks generalizing start length index with
  | nil => cases inside
  | cons block blocks ih =>
      rw [verifyFrom] at checked
      cases next : checkNext start length block with
      | error defect =>
          rw [next] at checked
          cases checked
      | ok _ =>
          rw [next] at checked
          cases index with
          | succ index => exact ih checked (Nat.lt_of_succ_lt_succ inside)
          | zero =>
              cases blocks with
              | nil => exact absurd inside (Nat.lt_irrefl _)
              | cons second rest =>
                  change verifyFrom (some (.ofBlock block)) (length + 1) (second :: rest) = _
                    at checked
                  rw [verifyFrom] at checked
                  cases later : checkNext (some (.ofBlock block)) (length + 1) second with
                  | ok _ => exact link_of_checkNext later
                  | error defect =>
                      rw [later] at checked
                      cases checked

/-- A block of a chain names the hash of the one before it. -/
theorem Linked.previousHash_eq {blocks : List Block} (linked : Linked blocks) {index : Nat}
    (first : index < blocks.length) (inside : index + 1 < blocks.length) :
    blocks[index + 1].previousHash = blocks[index].hash :=
  link_of_verifyFrom linked inside

/-! ## Growth -/

theorem linked_genesis : Linked [Block.genesis] := rfl

/-- A chain continues by a block that extends its tip. -/
theorem Linked.append {blocks : List Block} (linked : Linked blocks) {cursor : Cursor}
    (last : tip blocks = some cursor) {block : Block} (follows : cursor.ExtendedBy block) :
    Linked (blocks ++ [block]) := by
  have height : block.height.toNat = 0 + blocks.length := by
    rw [follows.1, linked.tip_height last, Nat.zero_add]
  rw [Linked, verify, verifyFrom_append, show verifyFrom none 0 blocks = .ok (tip blocks) from
    linked, last]
  change verifyFrom (some cursor) (0 + blocks.length) [block] = _
  rw [verifyFrom, checkNext_some height follows.2, tip_append_singleton]
  rfl

/-- The front of a chain is a chain. -/
theorem Linked.front {front back : List Block} (linked : Linked (front ++ back)) :
    Linked front := by
  have checked : verifyFrom none 0 (front ++ back) = .ok (tip (front ++ back)) := linked
  rw [verifyFrom_append] at checked
  cases first : verifyFrom none 0 front with
  | ok answer => exact linked_of_verify first
  | error defect =>
      rw [first] at checked
      cases checked

end Chain

end LedgerNode
