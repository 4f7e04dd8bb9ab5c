import LedgerNode.Account.Address
import LedgerNode.Proofs.Base58

namespace LedgerNode

/-!
# Which generated addresses are valid

The test for validity cuts off two characters and makes them again from what is
left.  So the valid texts are a letter, a body and the checksum of the body, where
the checksum has two symbols and the whole has at least twenty-one characters.

A generated address is such a text as soon as its body adds up to fifty-eight or
more, since no digest of twenty bytes adds up to so much that three symbols were
needed.  If it adds up to less, then the two characters that are cut off hold a
symbol of the body, and what is left adds up to less still.  Its checksum has one
symbol at most and cannot fill the place of two.
-/

namespace Ripemd160

@[simp]
theorem length_digest (message : Bytes) : (digest message).length = 20 := by
  simp [digest, State.bytes]

end Ripemd160

namespace AccountKind

theorem ofLetter?_eq_some_iff {letter : Char} {kind : AccountKind} :
    ofLetter? letter = some kind ↔ kind.letter = letter := by
  rw [ofLetter?]
  split
  next normal =>
      rw [normal]
      cases kind <;> decide
  next other =>
      split
      next multisig =>
          rw [multisig]
          cases kind <;> decide
      next neither =>
          cases kind with
          | normal => exact ⟨nofun, fun same => absurd same.symm other⟩
          | multisig => exact ⟨nofun, fun same => absurd same.symm neither⟩

end AccountKind

namespace Address

open Base58 (numeral)

/-! ## Sums of symbols -/

theorem symbolSum?_eq_some_iff {characters : List Char} {sum : Nat} :
    symbolSum? characters = some sum ↔
      ∃ values : List Nat, (∀ value ∈ values, value < 58) ∧
        characters = values.map Base58.symbol ∧ values.sum = sum := by
  rw [symbolSum?, Option.map_eq_some_iff]
  constructor
  · rintro ⟨values, read, total⟩
    rcases Base58.mapM_value?_eq_some_iff.mp read with ⟨below, same⟩
    exact ⟨values, below, same, (List.sum_eq_foldl ..).trans total⟩
  · rintro ⟨values, below, same, total⟩
    exact ⟨values, Base58.mapM_value?_eq_some_iff.mpr ⟨below, same⟩,
      (List.sum_eq_foldl ..).symm.trans total⟩

/-- The beginning of a body adds up to no more than the body. -/
theorem symbolSum?_le_of_prefix {front body : List Char} {first sum : Nat}
    (begins : front <+: body) (part : symbolSum? front = some first)
    (whole : symbolSum? body = some sum) : first ≤ sum := by
  rcases begins with ⟨rest, rfl⟩
  rcases symbolSum?_eq_some_iff.mp whole with ⟨values, below, same, total⟩
  rcases List.append_eq_map_iff.mp same with ⟨left, right, both, here, _⟩
  subst both here
  rw [List.sum_append] at total
  have known : symbolSum? (left.map Base58.symbol) = some left.sum :=
    symbolSum?_eq_some_iff.mpr
      ⟨left, fun value member => below value (List.mem_append_left _ member), rfl, rfl⟩
  rw [part] at known
  cases known
  omega

theorem ascii_of_symbolSum? {characters : List Char} {sum : Nat}
    (whole : symbolSum? characters = some sum) :
    ∀ character ∈ characters, character.toNat < 128 := by
  have ascii : ∀ value < 58, (Base58.symbol value).toNat < 128 := by decide
  rcases symbolSum?_eq_some_iff.mp whole with ⟨values, below, rfl, _⟩
  intro character member
  rcases List.mem_map.mp member with ⟨value, inside, rfl⟩
  exact ascii value (below value inside)

theorem assemble_eq {body : List Char} {sum : Nat} (whole : symbolSum? body = some sum)
    (kind : AccountKind) : assemble kind body = kind.letter :: (body ++ numeral sum) := by
  rw [assemble, whole]
  rfl

/-! ## Valid texts -/

/-- The text is a letter, a body and a checksum of two symbols. -/
structure Spells (text : String) (kind : AccountKind) (body : List Char) (sum : Nat) : Prop where
  whole : symbolSum? body = some sum
  characters : text.toList = kind.letter :: (body ++ numeral sum)
  two : (numeral sum).length = checksumLength
  long : leastLength ≤ text.toList.length

theorem Spells.ascii {text : String} {kind : AccountKind} {body : List Char} {sum : Nat}
    (spells : Spells text kind body sum) : ∀ character ∈ text.toList, character.toNat < 128 := by
  have letter : kind.letter.toNat < 128 := by cases kind <;> decide
  have digits : symbolSum? (numeral sum) = some (Nat.digits 58 sum).reverse.sum := by
    refine symbolSum?_eq_some_iff.mpr ⟨_, ?_, Base58.numeral_eq sum, rfl⟩
    intro value member
    exact Nat.digits_lt_base (by decide) (List.mem_reverse.mp member)
  rw [spells.characters]
  refine List.forall_mem_cons.mpr ⟨letter, List.forall_mem_append.mpr ⟨?_, ?_⟩⟩
  · exact ascii_of_symbolSum? spells.whole
  · exact ascii_of_symbolSum? digits

theorem isValid_iff {text : String} :
    isValid text = true ↔ ∃ kind body sum, Spells text kind body sum := by
  constructor
  · intro valid
    rw [isValid] at valid
    dsimp only at valid
    split at valid
    next => cases valid
    next admitted =>
        have long : leastLength ≤ text.toList.length := by
          simp only [Bool.or_eq_true, decide_eq_true_eq, not_or, Nat.not_lt] at admitted
          exact admitted.1
        split at valid
        next => cases valid
        next letter rest characters =>
            split at valid
            next => cases valid
            next kind known =>
                rcases Bool.and_eq_true_iff.mp valid with ⟨sums, same⟩
                rcases Option.isSome_iff_exists.mp sums with ⟨sum, whole⟩
                have assembled := eq_of_beq same
                rw [assemble_eq whole] at assembled
                refine ⟨kind, _, sum, whole, assembled.symm, ?_, long⟩
                -- the checksum fills the place of the characters that were cut off
                have lengths := congrArg List.length assembled
                rw [characters] at lengths long
                simp only [List.length_cons, List.length_append, List.length_take,
                  leastLength, checksumLength] at lengths long ⊢
                omega
  · rintro ⟨kind, body, sum, spells⟩
    have admitted : ¬ (text.toList.length < leastLength ||
        text.toList.any (128 ≤ ·.toNat)) = true := by
      have ascii := spells.ascii
      have long := spells.long
      simp only [Bool.or_eq_true, decide_eq_true_eq, List.any_eq_true, not_or, not_exists,
        not_and, Nat.not_lt, Nat.not_le]
      exact ⟨long, ascii⟩
    have kept : (body ++ numeral sum).take ((body ++ numeral sum).length - checksumLength) =
        body := by
      rw [List.length_append, spells.two, Nat.add_sub_cancel, List.take_left]
    rw [isValid]
    dsimp only
    rw [if_neg admitted, spells.characters]
    dsimp only
    rw [AccountKind.ofLetter?_eq_some_iff.mpr rfl]
    dsimp only
    rw [kept, spells.whole, assemble_eq spells.whole]
    exact beq_self_eq_true _

/-! ## Generated addresses -/

/-- The address that shows a digest. -/
def ofDigest (digest : Bytes) (kind : AccountKind) : String :=
  String.ofList (assemble kind (Base58.encode digest).toList)

theorem symbolSum?_encode (digest : Bytes) :
    symbolSum? (Base58.encode digest).toList = some (Base58.values digest).sum :=
  symbolSum?_eq_some_iff.mpr
    ⟨_, fun _ => Base58.lt_of_mem_values, Base58.toList_encode digest, rfl⟩

theorem toList_ofDigest (digest : Bytes) (kind : AccountKind) :
    (ofDigest digest kind).toList =
      kind.letter ::
        ((Base58.encode digest).toList ++ numeral (Base58.values digest).sum) := by
  rw [ofDigest, String.toList_ofList, assemble_eq (symbolSum?_encode digest)]

section Digest

variable {digest : Bytes} (size : digest.length = 20)

include size

/-- Twenty bytes need twenty-eight symbols at most. -/
theorem sum_values_lt : (Base58.values digest).sum < 58 * 58 := by
  have few : Bytes.toNatBigEndian digest < 58 ^ 28 := by
    have bound := Bytes.toNatBigEndian_lt digest
    rw [size] at bound
    exact bound.trans (by decide)
  have small := Base58.sum_values_le few
  omega

theorem length_checksum_le : (numeral (Base58.values digest).sum).length ≤ 2 :=
  (Base58.length_numeral_le_iff _ 2).mpr (sum_values_lt size)

theorem spells_ofDigest (large : 58 ≤ (Base58.values digest).sum) (kind : AccountKind) :
    Spells (ofDigest digest kind) kind (Base58.encode digest).toList
      (Base58.values digest).sum := by
  have two : (numeral (Base58.values digest).sum).length = 2 := by
    have few := length_checksum_le size
    have more : ¬ (numeral (Base58.values digest).sum).length ≤ 1 := by
      rw [Base58.length_numeral_le_iff]
      omega
    omega
  refine ⟨symbolSum?_encode digest, toList_ofDigest digest kind, two, ?_⟩
  have symbols := Base58.length_le_values digest
  rw [toList_ofDigest, List.length_cons, List.length_append, two, Base58.toList_encode,
    List.length_map, leastLength]
  omega

omit size in
/-- The sum of a body whose address is valid is no smaller than the sum that the
test makes, which needs two symbols. -/
theorem le_sum_of_spells {kind other : AccountKind} {body : List Char} {sum : Nat}
    (spells : Spells (ofDigest digest kind) other body sum) :
    58 ≤ (Base58.values digest).sum := by
  by_contra less
  have short : (numeral (Base58.values digest).sum).length ≤ 1 := by
    rw [Base58.length_numeral_le_iff]
    omega
  have same := (toList_ofDigest digest kind).symm.trans spells.characters
  have rests := (List.cons.inj same).2
  have lengths := congrArg List.length rests
  rw [List.length_append, List.length_append, spells.two, checksumLength] at lengths
  have begins : body <+: (Base58.encode digest).toList := by
    have front := List.prefix_append body (numeral sum)
    rw [← rests] at front
    exact List.prefix_of_prefix_length_le front (List.prefix_append _ _) (by omega)
  have below := symbolSum?_le_of_prefix begins spells.whole (symbolSum?_encode digest)
  have one : (numeral sum).length ≤ 1 := by
    rw [Base58.length_numeral_le_iff]
    omega
  rw [spells.two] at one
  cases Nat.not_succ_le_self 1 one

theorem isValid_ofDigest_iff (kind : AccountKind) :
    isValid (ofDigest digest kind) = true ↔ 58 ≤ (Base58.values digest).sum := by
  rw [isValid_iff]
  constructor
  · rintro ⟨other, body, sum, spells⟩
    exact le_sum_of_spells spells
  · intro large
    exact ⟨kind, _, _, spells_ofDigest size large kind⟩

end Digest

/-- The address of a public key is valid if and only if the symbols of its digest add
up to fifty-eight or more.  It is so for every digest of twenty bytes, and none of
them needs a checksum of more than two symbols. -/
theorem generated_valid_iff (kind : AccountKind) :
    (∀ publicKey : String, ∃ sum,
      symbolSum? (Base58.encode (keyDigest publicKey)).toList = some sum ∧
        sum < 58 * 58 ∧ (numeral sum).length ≤ 2 ∧
        (isValid (ofPublicKey publicKey kind) = true ↔ 58 ≤ sum)) ∧
    ∀ digest : Bytes, digest.length = 20 → ∃ sum,
      symbolSum? (Base58.encode digest).toList = some sum ∧
        sum < 58 * 58 ∧ (numeral sum).length ≤ 2 ∧
        (isValid (ofDigest digest kind) = true ↔ 58 ≤ sum) := by
  constructor
  · intro publicKey
    have size : (keyDigest publicKey).length = 20 := Ripemd160.length_digest _
    exact ⟨_, symbolSum?_encode _, sum_values_lt size, length_checksum_le size,
      isValid_ofDigest_iff size kind⟩
  · intro digest size
    exact ⟨_, symbolSum?_encode digest, sum_values_lt size, length_checksum_le size,
      isValid_ofDigest_iff size kind⟩

/-- Of the digests of twenty equal bytes, the one of zeros has an address that is not
valid, and the one of ones has a valid address. -/
theorem generated_valid_iff_equal_bytes :
    (List.replicate 20 (0 : UInt8)).length = 20 ∧
      isValid (ofDigest (List.replicate 20 0) .normal) = false ∧
      (List.replicate 20 (1 : UInt8)).length = 20 ∧
      isValid (ofDigest (List.replicate 20 1) .multisig) = true := by
  have zeros : (List.replicate 20 (0 : UInt8)).length = 20 := rfl
  have ones : (List.replicate 20 (1 : UInt8)).length = 20 := rfl
  rcases (generated_valid_iff .normal).2 _ zeros with ⟨little, lesser, -, -, invalid⟩
  rcases (generated_valid_iff .multisig).2 _ ones with ⟨much, greater, -, -, valid⟩
  rw [symbolSum?_encode] at lesser greater
  cases lesser
  cases greater
  have nothing : ¬ 58 ≤ (Base58.values (List.replicate 20 0)).sum := by decide +kernel
  have enough : 58 ≤ (Base58.values (List.replicate 20 1)).sum := by decide +kernel
  exact ⟨zeros, Bool.eq_false_iff.mpr (mt invalid.mp nothing), ones, valid.mpr enough⟩

end Address

end LedgerNode
