import Mathlib
import LedgerNode.Proofs.Ledger.Chain
import LedgerNode.Proofs.Ledger.RecordHash

namespace LedgerNode

/-!
# What the hash of the tip says

The text under the digest of a block has no separators.  It can be taken apart
nevertheless.  The height ends at the letter of the previous hash.  The previous
hash is the word of the genesis block, or has the one length of all others and
differs from that word in its second letter.  The time ends at the letter of the
root that a block without a root is given.

So blocks with equal hashes have equal headers, or two different texts have one
digest.  The argument goes down both chains from their tips, and takes nothing
for granted about their lengths: it is the word of the genesis block that tells
where they end.

Transactions are not part of the text, and nothing is said about them.
-/

/-! ## Hashes of blocks as texts -/

theorem Hex.length_upper (bytes : Bytes) : (upper bytes).toList.length = 2 * bytes.length := by
  rw [upper, String.toList_ofList]
  induction bytes with
  | nil => rfl
  | cons byte rest ih =>
      rw [List.flatMap_cons, List.length_append, ih, List.length_cons, List.length_cons,
        List.length_cons, List.length_nil]
      omega

namespace RecordHash

/-- A hash of a block above genesis begins with two letters and goes on with seventy-one. -/
theorem toList_tagged (input : String) :
    ∃ digits : List Char, (tagged blockTag input).toList = 'B' :: '4' :: digits ∧
      digits.length = 71 := by
  have salted : salt = [78, 111, 115, 111] := by decide
  have letters (bytes : Bytes) : (Hex.upper (78 :: bytes)).toList =
      '4' :: 'E' :: (Hex.upper bytes).toList := by
    simp [Hex.upper, Hex.upperDigit]
  refine ⟨'E' :: (Hex.upper ([111, 115, 111] ++ Sha256.digest (Bytes.ofText input))).toList,
    ?_, ?_⟩
  · rw [tagged, String.toList_append, salted]
    exact congrArg ('B' :: ·) (letters _)
  · rw [List.length_cons, Hex.length_upper, List.length_append, Sha256.length_digest]
    rfl

end RecordHash

namespace Block

/-- A text that can be the hash of a block. -/
def CanBeHash (text : String) : Prop :=
  text = genesisHash ∨ ∃ input, text = RecordHash.tagged RecordHash.blockTag input

/-- The word of the genesis block differs from all other hashes in its second letter. -/
theorem genesisHash_append_ne (input : String) (left right : List Char) :
    genesisHash.toList ++ left ≠
      (RecordHash.tagged RecordHash.blockTag input).toList ++ right := by
  rcases RecordHash.toList_tagged input with ⟨digits, letters, -⟩
  intro same
  rw [letters] at same
  have second : 'Z' = '4' := (List.cons.inj (List.cons.inj same).2).1
  cases second

theorem genesisHash_ne_tagged (input : String) :
    genesisHash ≠ RecordHash.tagged RecordHash.blockTag input :=
  fun same => genesisHash_append_ne input [] [] (by rw [same])

theorem CanBeHash.front {text : String} (canBe : CanBeHash text) :
    ∃ rest, text.toList = 'B' :: rest := by
  rcases canBe with rfl | ⟨input, rfl⟩
  · exact ⟨['Z', 'E', 'R', 'O'], rfl⟩
  · rcases RecordHash.toList_tagged input with ⟨digits, letters, -⟩
    exact ⟨_, letters⟩

/-- Where a hash ends is known from the hash itself. -/
theorem CanBeHash.append_inj {first second : String} (one : CanBeHash first)
    (other : CanBeHash second) {left right : List Char}
    (same : first.toList ++ left = second.toList ++ right) : first = second ∧ left = right := by
  rcases one with rfl | ⟨input, rfl⟩
  · rcases other with rfl | ⟨text, rfl⟩
    · exact ⟨rfl, List.append_cancel_left same⟩
    · exact absurd same (genesisHash_append_ne text left right)
  · rcases other with rfl | ⟨text, rfl⟩
    · exact absurd same.symm (genesisHash_append_ne input right left)
    · rcases RecordHash.toList_tagged input with ⟨digits, letters, length⟩
      rcases RecordHash.toList_tagged text with ⟨others, others_letters, others_length⟩
      have lengths : (RecordHash.tagged RecordHash.blockTag input).toList.length =
          (RecordHash.tagged RecordHash.blockTag text).toList.length := by
        rw [letters, others_letters, List.length_cons, List.length_cons, List.length_cons,
          List.length_cons, length, others_length]
      rcases List.append_inj same lengths with ⟨hashes, behind⟩
      exact ⟨String.toList_inj.mp hashes, behind⟩

/-! ## Taking the text apart -/

theorem letter_not_mem_height (height : Nat) : 'B' ∉ (toString height).toList := by
  intro member
  rw [Nat.toString_eq_repr, Nat.toList_repr] at member
  cases Nat.isDigit_of_mem_toDigits (by decide) (by decide) member

theorem letter_not_mem_time (time : Int) : 'M' ∉ (toString time).toList := by
  have digits (number : Nat) : 'M' ∉ number.repr.toList := by
    intro member
    rw [Nat.toList_repr] at member
    cases Nat.isDigit_of_mem_toDigits (by decide) (by decide) member
  rw [Int.toString_eq_repr, Int.repr_eq_if]
  split
  next => exact digits _
  next =>
    rw [String.toList_append, List.mem_append]
    rintro (sign | member)
    · cases List.mem_singleton.mp sign
    · exact digits _ member

/-- A block without a root, with the hash that belongs to its other fields. -/
def Built (block : Block) : Prop :=
  block = build block.height block.previousHash block.timestamp block.transactions

theorem Built.merkleRoot_eq {block : Block} (built : block.Built) : block.merkleRoot = "" :=
  congrArg Block.merkleRoot built

theorem Built.hash_eq {block : Block} (built : block.Built) (above : block.isGenesis = false) :
    block.hash = RecordHash.tagged RecordHash.blockTag block.hashInput := by
  have hash : block.hash = (build block.height block.previousHash block.timestamp
      block.transactions).hash := congrArg Block.hash built
  have input : hashInput block = (build block.height block.previousHash block.timestamp
      block.transactions).hashInput := congrArg Block.hashInput built
  rw [hash, input]
  exact if_neg (Bool.eq_false_iff.mp above)

/-- The text under the digest of a block without a root, with its two separators. -/
theorem toList_hashInput {block : Block} (bare : block.merkleRoot = "") :
    ∃ rest, block.hashInput.toList = (toString block.height.toNat).toList ++
      (block.previousHash.toList ++ ((toString block.timestamp.toInt).toList ++ 'M' :: rest)) := by
  refine ⟨"erkleFor:".toList ++ (toString block.height.toNat).toList, ?_⟩
  have root : block.effectiveRoot.toList =
      'M' :: ("erkleFor:".toList ++ (toString block.height.toNat).toList) := by
    rw [effectiveRoot, bare]
    exact String.toList_append
  rw [hashInput, String.toList_append, String.toList_append, String.toList_append, root,
    List.append_assoc, List.append_assoc]

/-- Blocks without a root have different texts if their headers differ. -/
theorem hashInput_inj {first second : Block} (bare : first.merkleRoot = "")
    (plain : second.merkleRoot = "") (one : CanBeHash first.previousHash)
    (other : CanBeHash second.previousHash) (same : first.hashInput = second.hashInput) :
    first.height = second.height ∧ first.previousHash = second.previousHash ∧
      first.timestamp = second.timestamp := by
  rcases toList_hashInput bare with ⟨left, one_text⟩
  rcases toList_hashInput plain with ⟨right, other_text⟩
  rcases one.front with ⟨hash, one_front⟩
  rcases other.front with ⟨text, other_front⟩
  have texts := congrArg String.toList same
  rw [one_text, other_text, one_front, other_front, List.cons_append, List.cons_append] at texts
  rcases (separated_inj (letter_not_mem_height _) (letter_not_mem_height _)).mp texts with
    ⟨heights, behind⟩
  have hashes : first.previousHash.toList ++
        ((toString first.timestamp.toInt).toList ++ 'M' :: left) =
      second.previousHash.toList ++
        ((toString second.timestamp.toInt).toList ++ 'M' :: right) := by
    rw [one_front, other_front, List.cons_append, List.cons_append, behind]
  rcases one.append_inj other hashes with ⟨previous, further⟩
  rcases (separated_inj (letter_not_mem_time _) (letter_not_mem_time _)).mp further with
    ⟨times, -⟩
  refine ⟨?_, previous, ?_⟩
  · exact UInt64.toNat_inj.mp (Nat.repr_injective (String.toList_inj.mp heights))
  · exact Int64.toInt_inj.mp (Int.repr_injective (String.toList_inj.mp times))

end Block

/-! ## Two chains -/

namespace Chain

/-- What a hash says of a block: its header, but for the time of the genesis block. -/
structure SameHeader (first second : Block) : Prop where
  height : first.height = second.height
  previousHash : first.previousHash = second.previousHash
  hash : first.hash = second.hash
  timestamp : first.isGenesis = false → first.timestamp = second.timestamp

/-- Two blocks above genesis, one of each chain, whose texts differ and have one digest. -/
def Collision (first second : List Block) : Prop :=
  ∃ left ∈ first, ∃ right ∈ second, left.isGenesis = false ∧ right.isGenesis = false ∧
    left.hashInput ≠ right.hashInput ∧
      Sha256.digest (Bytes.ofText left.hashInput) = Sha256.digest (Bytes.ofText right.hashInput)

theorem Collision.longer {first second : List Block} {left right : Block}
    (collision : Collision first second) : Collision (first ++ [left]) (second ++ [right]) := by
  rcases collision with ⟨one, here, other, there, differ⟩
  exact ⟨one, List.mem_append_left _ here, other, List.mem_append_left _ there, differ⟩

/-- Every block above genesis was built. -/
def AllBuilt (blocks : List Block) : Prop :=
  ∀ block ∈ blocks, block.isGenesis = false → block.Built

theorem AllBuilt.front {front back : List Block} (built : AllBuilt (front ++ back)) :
    AllBuilt front :=
  fun block member => built block (List.mem_append_left _ member)

/-- The last block of a chain, which is the genesis block or names the one before it. -/
inductive Last : List Block → Block → Prop where
  | genesis {last : Block} (height : last.height = 0) (previousHash : last.previousHash = "")
      (hash : last.hash = Block.genesisHash) : Last [] last
  | above {front : List Block} {last : Block} {cursor : Cursor} (tipped : tip front = some cursor)
      (above : last.isGenesis = false) (links : last.previousHash = cursor.hash) : Last front last

theorem last_of_singleton {block : Block} (linked : Linked [block]) : Last [] block := by
  have checked : checkNext none 0 block = .ok () := by
    rw [Linked, verify, verifyFrom] at linked
    cases next : checkNext none 0 block with
    | ok _ => rfl
    | error defect =>
        rw [next] at linked
        cases linked
  have height : block.height.toNat = 0 := height_of_checkNext checked
  rw [checkNext, if_neg fun unequal => unequal height] at checked
  by_cases bare : block.previousHash = ""
  · by_cases word : block.hash = Block.genesisHash
    · exact .genesis (UInt64.toNat_inj.mp height) bare word
    · rw [if_neg fun unequal => unequal bare, if_pos word] at checked
      cases checked
  · rw [if_pos bare] at checked
    cases checked

theorem Linked.last {front : List Block} {last : Block} (linked : Linked (front ++ [last])) :
    Last front last := by
  cases tipped : tip front with
  | none =>
      have empty : front = [] := tip_eq_none_iff.mp tipped
      subst empty
      exact last_of_singleton linked
  | some cursor =>
      have before : verifyFrom none 0 front = .ok (some cursor) := linked.front.trans
        (congrArg Except.ok tipped)
      have checked : verifyFrom none 0 (front ++ [last]) = .ok (tip (front ++ [last])) := linked
      rw [verifyFrom_append, before] at checked
      change verifyFrom (some cursor) (0 + front.length) [last] = _ at checked
      rw [verifyFrom] at checked
      cases next : checkNext (some cursor) (0 + front.length) last with
      | error defect =>
          rw [next] at checked
          cases checked
      | ok _ =>
          refine .above tipped ?_ (link_of_checkNext next)
          have positive : 0 < front.length := List.length_pos_iff.mpr (ne_nil_of_tip tipped)
          have height := linked.height_last
          apply Bool.eq_false_iff.mpr
          intro zero
          rw [beq_iff_eq.mp zero] at height
          change 0 = front.length at height
          omega

theorem canBeHash_of_tip {blocks : List Block} {cursor : Cursor} (linked : Linked blocks)
    (built : AllBuilt blocks) (tipped : tip blocks = some cursor) :
    Block.CanBeHash cursor.hash := by
  rcases Option.map_eq_some_iff.mp tipped with ⟨last, found, same⟩
  rcases List.getLast?_eq_some_iff.mp found with ⟨front, rfl⟩
  subst same
  cases linked.last with
  | genesis _ _ hash => exact .inl hash
  | above _ above _ => exact .inr ⟨_, (built last (by simp) above).hash_eq above⟩

/-- Down two chains from tips with one hash, the headers are the same. -/
theorem sameHeaders {first second : List Block} {one other : Cursor} (linked : Linked first)
    (checked : Linked second) (built : AllBuilt first) (made : AllBuilt second)
    (apart : ¬Collision first second) (tipped : tip first = some one)
    (topped : tip second = some other) (same : one.hash = other.hash) :
    List.Forall₂ SameHeader first second := by
  induction first using List.reverseRecOn generalizing second one other with
  | nil => cases tipped
  | append_singleton front last ih =>
      rcases Option.map_eq_some_iff.mp topped with ⟨peak, found, top⟩
      rcases List.getLast?_eq_some_iff.mp found with ⟨back, rfl⟩
      rw [tip_append_singleton] at tipped
      have hashes : last.hash = peak.hash := by
        rw [← Option.some.inj tipped, ← top] at same
        exact same
      cases linked.last with
      | genesis height previousHash hash =>
          cases checked.last with
          | genesis zero bare word =>
              refine .cons ⟨height.trans zero.symm, previousHash.trans bare.symm, hashes, ?_⟩ .nil
              intro above
              rw [Block.isGenesis, height] at above
              cases above
          | above _ above _ =>
              rw [hash, (made peak (by simp) above).hash_eq above] at hashes
              exact absurd hashes (Block.genesisHash_ne_tagged _)
      | above tip_front above links =>
          have here := built last (by simp) above
          cases checked.last with
          | genesis _ _ word =>
              rw [word, here.hash_eq above] at hashes
              exact absurd hashes.symm (Block.genesisHash_ne_tagged _)
          | above tip_back high names =>
              have there := made peak (by simp) high
              rw [here.hash_eq above, there.hash_eq high, RecordHash.tagged_inj] at hashes
              have texts : last.hashInput = peak.hashInput := by
                by_contra differ
                exact apart ⟨last, by simp, peak, by simp, above, high, differ, hashes⟩
              rcases Block.hashInput_inj here.merkleRoot_eq there.merkleRoot_eq
                (links ▸ canBeHash_of_tip linked.front built.front tip_front)
                (names ▸ canBeHash_of_tip checked.front made.front tip_back) texts with
                ⟨height, previousHash, timestamp⟩
              have below := ih linked.front checked.front built.front made.front
                (mt Collision.longer apart) tip_front tip_back
                (links.symm.trans (previousHash.trans names))
              refine List.rel_append below (.cons ⟨height, previousHash, ?_, fun _ => timestamp⟩ .nil)
              rw [here.hash_eq above, there.hash_eq high, texts]

/-- The hash of the tip commits to the headers of the whole chain.  Two chains whose tips
have one hash are equally long and agree in height, previous hash and hash everywhere,
and above genesis in time, or the digest fails to tell two of their texts apart. -/
theorem tip_commits {first second : List Block} {one other : Cursor}
    (verified : verify first = .ok (some one)) (checked : verify second = .ok (some other))
    (built : ∀ block ∈ first, block.isGenesis = false → block.Built)
    (made : ∀ block ∈ second, block.isGenesis = false → block.Built)
    (same : one.hash = other.hash) :
    (first.length = second.length ∧
      ∀ (index : Nat) (inside : index < first.length) (within : index < second.length),
        first[index].height = second[index].height ∧
        first[index].previousHash = second[index].previousHash ∧
        first[index].hash = second[index].hash ∧
        (0 < index → first[index].timestamp = second[index].timestamp)) ∨
      Collision first second := by
  by_cases collision : Collision first second
  · exact .inr collision
  · left
    have linked := linked_of_verify verified
    have joined := linked_of_verify checked
    have headers := sameHeaders linked joined built made collision
      (Except.ok.inj (linked.symm.trans verified)) (Except.ok.inj (joined.symm.trans checked)) same
    refine ⟨headers.length_eq, ?_⟩
    intro index inside within
    have header : SameHeader first[index] second[index] := headers.get inside within
    refine ⟨header.height, header.previousHash, header.hash, ?_⟩
    intro positive
    apply header.timestamp
    apply Bool.eq_false_iff.mpr
    intro zero
    have height := linked.height_eq inside
    rw [beq_iff_eq.mp zero] at height
    exact absurd height (Nat.ne_of_lt positive)

/-- A chain of three blocks.  The time of its genesis block and the transactions of the
other two are left open. -/
def sampleChain (start : Int64) (transactions : List Transaction) : List Block :=
  let lower := Block.build 1 Block.genesisHash 1000000000 transactions
  [{ Block.genesis with timestamp := start }, lower,
    Block.build 2 lower.hash (-7) transactions]

theorem verify_sampleChain (start : Int64) (transactions : List Transaction) :
    verify (sampleChain start transactions) =
      .ok (tip (sampleChain start transactions)) := by
  let genesis := { Block.genesis with timestamp := start }
  let lower := Block.build 1 Block.genesisHash 1000000000 transactions
  have first : Linked [genesis] := rfl
  have second : Linked ([genesis] ++ [lower]) := first.append rfl ⟨rfl, rfl⟩
  exact second.append rfl ⟨rfl, rfl⟩

theorem allBuilt_sampleChain (start : Int64) (transactions : List Transaction) :
    AllBuilt (sampleChain start transactions) := by
  intro block member above
  rcases List.mem_cons.mp member with rfl | member
  · cases above
  · rcases List.mem_cons.mp member with rfl | member
    · rfl
    · rw [List.mem_singleton.mp member]
      rfl

/-- Two chains with different transactions and one tip, which agree in their headers. -/
theorem tip_commits_sample :
    let first := sampleChain 0 []
    let second := sampleChain 5 [default]
    verify first = .ok (tip first) ∧ verify second = .ok (tip second) ∧ first ≠ second ∧
    ((first.length = second.length ∧
      ∀ (index : Nat) (_ : index < first.length) (_ : index < second.length),
        first[index].height = second[index].height ∧
        first[index].previousHash = second[index].previousHash ∧
        first[index].hash = second[index].hash ∧
        (0 < index → first[index].timestamp = second[index].timestamp)) ∨
      Collision first second) := by
  intro first second
  refine ⟨verify_sampleChain _ _, verify_sampleChain _ _, ?_, ?_⟩
  · intro same
    have times : (0 : Int64) = 5 := congrArg Block.timestamp (List.cons.inj same).1
    cases times
  · exact tip_commits (verify_sampleChain 0 []) (verify_sampleChain 5 [default])
      (allBuilt_sampleChain 0 []) (allBuilt_sampleChain 5 [default]) rfl

end Chain

end LedgerNode
