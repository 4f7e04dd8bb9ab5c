import Mathlib.Data.List.Induction
import Mathlib.Logic.Basic
import LedgerNode.Proofs.Ledger.Chain

namespace LedgerNode

/-!
# The first defect of a list of blocks

Two parts of the ledger decide which block may follow which.  Whoever stores a
block compares it with the cursor; the check of a list counts the blocks and
remembers the hash of the one before.  They accept the same blocks.  A list
passes if each of its blocks would have been stored behind those before it.

If it does not pass, the check reports the first block that would not have been
stored, with what was expected at its place and what was found there.  What
stands behind that block does not matter.
-/

namespace Chain

/-- The block may be the first of a chain. -/
structure Begins (block : Block) : Prop where
  height : block.height = 0
  previousHash : block.previousHash = ""
  hash : block.hash = Block.genesisHash

/-- The block may stand behind these: as the first of all, or as the one that
extends their tip. -/
def ContinuedBy (blocks : List Block) (block : Block) : Prop :=
  blocks = [] ∧ Begins block ∨ ∃ tip, verify blocks = .ok (some tip) ∧ tip.ExtendedBy block

/-- What is wrong with a block behind some others.  Only a block of the right
height is compared with the one before it. -/
inductive DefectAt (front : List Block) (block : Block) : ChainDefect → Prop where
  | height (wrong : block.height.toNat ≠ front.length) :
    DefectAt front block (.heightMismatch front.length block.height.toNat)
  /-- The first block names a predecessor. -/
  | predecessor (first : front = []) (height : block.height.toNat = front.length)
    (wrong : block.previousHash ≠ "") :
    DefectAt front block (.badGenesis "" block.previousHash)
  /-- The first block has another hash than the genesis block. -/
  | word (first : front = []) (height : block.height.toNat = front.length)
    (previousHash : block.previousHash = "") (wrong : block.hash ≠ Block.genesisHash) :
    DefectAt front block (.badGenesis Block.genesisHash block.hash)
  /-- A later block does not name the hash of the one before it. -/
  | link {last : Block} (before : front.getLast? = some last)
    (height : block.height.toNat = front.length) (wrong : block.previousHash ≠ last.hash) :
    DefectAt front block (.brokenLink block.height last.hash block.previousHash)

/-! ## One block -/

theorem checkNext_none_eq_ok_iff {block : Block} :
    checkNext none 0 block = .ok () ↔ Begins block := by
  constructor
  · intro checked
    have height := height_of_checkNext checked
    rw [checkNext, if_neg (not_not.mpr height)] at checked
    split at checked
    next => cases checked
    next bare =>
      split at checked
      next => cases checked
      next word => exact ⟨UInt64.toNat_inj.mp height, not_not.mp bare, not_not.mp word⟩
  · rintro ⟨height, bare, word⟩
    rw [checkNext, height, bare, word]
    rfl

/-- The check of one block accepts what may stand behind a chain. -/
theorem Linked.checkNext_eq_ok_iff {blocks : List Block} (linked : Linked blocks)
    {block : Block} :
    checkNext (tip blocks) blocks.length block = .ok () ↔ ContinuedBy blocks block := by
  have passed : verify blocks = .ok (tip blocks) := linked
  rw [ContinuedBy, passed]
  cases last : tip blocks with
  | none =>
      have empty := tip_eq_none_iff.mp last
      subst empty
      rw [List.length_nil, checkNext_none_eq_ok_iff]
      constructor
      · exact fun begins => .inl ⟨rfl, begins⟩
      · rintro (⟨_, begins⟩ | ⟨_, same, _⟩)
        · exact begins
        · cases same
  | some cursor =>
      constructor
      · intro checked
        refine .inr ⟨cursor, rfl, ?_, link_of_checkNext checked⟩
        rw [height_of_checkNext checked, linked.tip_height last]
      · rintro (⟨empty, _⟩ | ⟨_, same, follows⟩)
        · exact absurd empty (ne_nil_of_tip last)
        · cases same
          exact checkNext_some (follows.1.trans (linked.tip_height last)) follows.2

/-- The check of one block reports what is wrong with it. -/
theorem checkNext_eq_error_iff {front : List Block} {block : Block} {defect : ChainDefect} :
    checkNext (tip front) front.length block = .error defect ↔ DefectAt front block defect := by
  constructor
  · intro failed
    unfold checkNext at failed
    split at failed
    next wrong =>
      cases failed
      exact .height wrong
    next height =>
      have height := not_not.mp height
      cases before : front.getLast? with
      | none =>
          have first := List.getLast?_eq_none_iff.mp before
          rw [tip, before] at failed
          dsimp only [Option.map_none] at failed
          split at failed
          next wrong =>
            cases failed
            exact .predecessor first height wrong
          next bare =>
            split at failed
            next wrong =>
              cases failed
              exact .word first height (not_not.mp bare) wrong
            next => cases failed
      | some last =>
          rw [tip, before] at failed
          dsimp only [Option.map_some] at failed
          split at failed
          next wrong =>
            cases failed
            exact .link before height wrong
          next => cases failed
  · intro defective
    unfold checkNext
    cases defective with
    | height wrong => exact if_pos wrong
    | predecessor first height wrong =>
        rw [if_neg (not_not.mpr height), first]
        exact if_pos wrong
    | word first height previousHash wrong =>
        rw [if_neg (not_not.mpr height), first]
        exact (if_neg (not_not.mpr previousHash)).trans (if_pos wrong)
    | link before height wrong =>
        rw [if_neg (not_not.mpr height), tip, before]
        exact if_pos wrong

/-! ## One block more -/

theorem verify_append (blocks more : List Block) :
    verify (blocks ++ more) = (do
      let middle ← verify blocks
      verifyFrom middle blocks.length more) := by
  have steps := verifyFrom_append none 0 blocks more
  rwa [Nat.zero_add] at steps

theorem verify_append_of_error {blocks : List Block} {defect : ChainDefect}
    (failed : verify blocks = .error defect) (more : List Block) :
    verify (blocks ++ more) = .error defect := by
  rw [verify_append, failed]
  rfl

/-- Behind a list that passes, the check goes on from its tip. -/
theorem Linked.verify_append {blocks : List Block} (linked : Linked blocks) (block : Block)
    (more : List Block) :
    verify (blocks ++ block :: more) = (do
      checkNext (tip blocks) blocks.length block
      verifyFrom (some (.ofBlock block)) (blocks.length + 1) more) := by
  have passed : verify blocks = .ok (tip blocks) := linked
  rw [Chain.verify_append, passed]
  rfl

/-- One more block passes if it is accepted, and is the new tip. -/
theorem Linked.verify_append_singleton {blocks : List Block} (linked : Linked blocks)
    (block : Block) :
    verify (blocks ++ [block]) =
      (checkNext (tip blocks) blocks.length block).map fun _ => some (.ofBlock block) := by
  rw [linked.verify_append]
  cases checkNext (tip blocks) blocks.length block <;> rfl

/-- A list passes with one more block if it passes without it and the block may
stand behind it. -/
theorem verify_append_singleton_eq_ok_iff {blocks : List Block} {block : Block}
    {answer : Option Cursor} :
    verify (blocks ++ [block]) = .ok answer ↔
      (∃ before, verify blocks = .ok before) ∧ ContinuedBy blocks block ∧
        answer = some (.ofBlock block) := by
  cases passed : verify blocks with
  | error defect =>
      rw [verify_append_of_error passed]
      constructor
      · intro same
        cases same
      · rintro ⟨⟨_, same⟩, _⟩
        cases same
  | ok before =>
      have linked := linked_of_verify passed
      rw [linked.verify_append_singleton, ← linked.checkNext_eq_ok_iff]
      cases checkNext (tip blocks) blocks.length block with
      | ok _ => exact ⟨fun same => ⟨⟨_, rfl⟩, rfl, (Except.ok.inj same).symm⟩,
          fun ⟨_, _, same⟩ => congrArg Except.ok same.symm⟩
      | error defect =>
          constructor
          · intro same
            cases same
          · rintro ⟨_, same, _⟩
            cases same

/-- The check fails exactly at the first block that is wrong behind those before
it. -/
theorem verify_eq_error_iff {blocks : List Block} {defect : ChainDefect} :
    verify blocks = .error defect ↔
      ∃ front block back, blocks = front ++ block :: back ∧
        (∃ answer, verify front = .ok answer) ∧ DefectAt front block defect := by
  constructor
  · intro failed
    induction blocks using List.reverseRecOn with
    | nil => cases failed
    | append_singleton front block ih =>
        cases passed : verify front with
        | error earlier =>
            rw [verify_append_of_error passed] at failed
            cases failed
            rcases ih passed with ⟨before, wrong, back, split, verified, defective⟩
            refine ⟨before, wrong, back ++ [block], ?_, verified, defective⟩
            rw [split, List.append_assoc, List.cons_append]
        | ok answer =>
            rw [(linked_of_verify passed).verify_append_singleton] at failed
            refine ⟨front, block, [], rfl, ⟨answer, passed⟩, checkNext_eq_error_iff.mp ?_⟩
            cases checked : checkNext (tip front) front.length block with
            | ok _ =>
                rw [checked] at failed
                cases failed
            | error found =>
                rw [checked] at failed
                cases failed
                rfl
  · rintro ⟨front, block, back, rfl, ⟨answer, passed⟩, wrong⟩
    rw [(linked_of_verify passed).verify_append, checkNext_eq_error_iff.mpr wrong]
    rfl

/-! ## Lists of blocks -/

/-- The check of a list accepts one block after another as a writer does, and
reports the first one that a writer would refuse. -/
theorem verify_reports_first_defect (blocks : List Block) :
    (∀ block answer, verify (blocks ++ [block]) = .ok answer ↔
      (∃ before, verify blocks = .ok before) ∧
        (blocks = [] ∧ Begins block ∨
          ∃ tip, verify blocks = .ok (some tip) ∧ tip.ExtendedBy block) ∧
        answer = some (.ofBlock block)) ∧
    (∀ defect, verify blocks = .error defect →
      ∀ more, verify (blocks ++ more) = .error defect) ∧
    (∀ defect, verify blocks = .error defect ↔
      ∃ front block back, blocks = front ++ block :: back ∧
        (∃ before, verify front = .ok before) ∧ DefectAt front block defect) :=
  ⟨fun _ _ => verify_append_singleton_eq_ok_iff, fun _ => verify_append_of_error,
    fun _ => verify_eq_error_iff⟩

end Chain

end LedgerNode
