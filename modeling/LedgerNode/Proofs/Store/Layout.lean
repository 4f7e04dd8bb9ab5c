import LedgerNode.Proofs.Bytes
import LedgerNode.Proofs.Store.RecordStore
import LedgerNode.Store.Layout

namespace LedgerNode

/-!
# Keys of the store

A padded number determines the number, whatever its width, so no two heights
share a key and no two transactions do.  As long as the numbers fit into the
width, the order of their bytes is their own order, and a number that leaves
its first digit free stands before every number that is too long.  The five
keyspaces are told apart by their first letters.
-/

namespace StoreKey

/-! ## Padded numbers -/

/-- A padded number ends in its last digit. -/
theorem padded_succ (width number : Nat) :
    padded (width + 1) number = padded width (number / 10) ++ [digit (number % 10)] := by
  unfold padded
  by_cases zero : number = 0
  · subst zero
    have empty : Radix.digits 10 0 = [] := by rw [Radix.digits, if_pos (Or.inl rfl)]
    simp [empty, List.replicate_succ]
  · have digits : Radix.digits 10 number = number % 10 :: Radix.digits 10 (number / 10) := by
      rw [Radix.digits, if_neg (by omega)]
    simp [digits]

/-- Beyond its width a number has as many digits as it needs. -/
theorem padded_zero_of_pos {number : Nat} (positive : 0 < number) :
    padded 0 number = padded 0 (number / 10) ++ [digit (number % 10)] := by
  have digits : Radix.digits 10 number = number % 10 :: Radix.digits 10 (number / 10) := by
    rw [Radix.digits, if_neg (by omega)]
  simp [padded, digits]

theorem padded_zero_zero : padded 0 0 = [] := by
  simp [padded, Radix.digits]

/-- The number that decimal digits show. -/
def shown (characters : List Char) : Nat :=
  characters.foldl (fun number character => 10 * number + (character.toNat - 48)) 0

theorem shown_append_digit (characters : List Char) {value : Nat} (small : value < 10) :
    shown (characters ++ [digit value]) = 10 * shown characters + value := by
  have digits : ∀ value < 10, (digit value).toNat - 48 = value := by decide
  rw [shown, List.foldl_append, List.foldl_cons, List.foldl_nil, digits value small, shown]

/-- A padded number shows the number. -/
theorem shown_padded (width number : Nat) : shown (padded width number) = number := by
  induction width generalizing number with
  | zero =>
      induction number using Nat.strongRecOn with
      | ind number ih =>
          by_cases zero : number = 0
          · rw [zero, padded_zero_zero]
            rfl
          · rw [padded_zero_of_pos (by omega), shown_append_digit _ (by omega), ih _ (by omega)]
            omega
  | succ width ih =>
      rw [padded_succ, shown_append_digit _ (by omega), ih]
      omega

theorem padded_inj {width first second : Nat} :
    padded width first = padded width second ↔ first = second := by
  constructor
  · intro same
    rw [← shown_padded width first, same, shown_padded]
  · exact fun same => congrArg _ same

/-- Padded numbers are made of digits. -/
theorem isDigit_of_mem_padded {width number : Nat} {character : Char}
    (member : character ∈ padded width number) : character.isDigit = true := by
  have digits : ∀ value < 10, (digit value).isDigit = true := by decide
  induction width generalizing number with
  | zero =>
      induction number using Nat.strongRecOn with
      | ind number ih =>
          by_cases zero : number = 0
          · rw [zero, padded_zero_zero] at member
            cases member
          · rw [padded_zero_of_pos (by omega)] at member
            rcases List.mem_append.mp member with before | last
            · exact ih _ (by omega) before
            · rw [List.mem_singleton.mp last]
              exact digits _ (by omega)
  | succ width ih =>
      rw [padded_succ] at member
      rcases List.mem_append.mp member with before | last
      · exact ih before
      · rw [List.mem_singleton.mp last]
        exact digits _ (by omega)

/-! ## The order of padded numbers -/

/-- The bytes of a padded number. -/
def paddedBytes (width number : Nat) : Bytes :=
  (padded width number).flatMap String.utf8EncodeChar

theorem paddedBytes_succ (width number : Nat) :
    paddedBytes (width + 1) number =
      paddedBytes width (number / 10) ++ [UInt8.ofNat (48 + number % 10)] := by
  have digits : ∀ value < 10,
      String.utf8EncodeChar (digit value) = [UInt8.ofNat (48 + value)] := by decide
  rw [paddedBytes, padded_succ, List.flatMap_append, List.flatMap_singleton,
    digits _ (by omega), paddedBytes]

theorem length_paddedBytes {width number : Nat} (fits : number < 10 ^ width) :
    (paddedBytes width number).length = width := by
  induction width generalizing number with
  | zero =>
      have zero : number = 0 := by simpa using fits
      rw [zero, paddedBytes, padded_zero_zero]
      rfl
  | succ width ih =>
      rw [paddedBytes_succ, List.length_append, ih (by rw [Nat.pow_succ] at fits; omega)]
      rfl

theorem compare_append_of_lt {first second : Bytes} (length : first.length = second.length)
    (less : compare first second = .lt) (left right : Bytes) :
    compare (first ++ left) (second ++ right) = .lt := by
  induction first generalizing second with
  | nil =>
      rw [List.eq_nil_of_length_eq_zero length.symm] at less
      cases less
  | cons byte first ih =>
      cases second with
      | nil => cases length
      | cons other second =>
          rw [List.compare_cons_cons] at less
          rw [List.cons_append, List.cons_append, List.compare_cons_cons]
          cases head : compare byte other with
          | lt => rfl
          | eq =>
              rw [head] at less
              exact ih (Nat.succ.inj length) less
          | gt =>
              rw [head] at less
              cases less

/-- Within the width, greater numbers have greater bytes. -/
theorem compare_paddedBytes_of_lt {width first second : Nat} (less : first < second)
    (fits : second < 10 ^ width) :
    compare (paddedBytes width first) (paddedBytes width second) = .lt := by
  induction width generalizing first second with
  | zero =>
      have impossible : second < 1 := fits
      omega
  | succ width ih =>
      have room : second / 10 < 10 ^ width := by
        rw [Nat.pow_succ] at fits
        omega
      rw [paddedBytes_succ, paddedBytes_succ]
      by_cases same : first / 10 = second / 10
      · have last : compare (UInt8.ofNat (48 + first % 10)) (UInt8.ofNat (48 + second % 10)) =
            .lt := by
          apply Std.compare_eq_lt.mpr
          rw [UInt8.lt_iff_toNat_lt, UInt8.toNat_ofNat', UInt8.toNat_ofNat']
          omega
        rw [same, Bytes.compare_append_left, List.compare_cons_cons, last]
        rfl
      · apply compare_append_of_lt _ (ih (by omega) room)
        rw [length_paddedBytes room, length_paddedBytes (by omega)]

/-- A number that needs fewer digits begins with a zero. -/
theorem padded_of_short {width number : Nat} (short : number < 10 ^ width) :
    padded (width + 1) number = '0' :: padded width number := by
  induction width generalizing number with
  | zero =>
      have zero : number = 0 := by simpa using short
      rw [zero, padded_succ, padded_zero_zero]
      rfl
  | succ width ih =>
      have shorter : number / 10 < 10 ^ width := by
        rw [Nat.pow_succ] at short
        omega
      rw [padded_succ, ih shorter, padded_succ width]
      rfl

/-- A number that needs more digits begins with another digit than zero. -/
theorem padded_of_long {width number : Nat} (long : 10 ^ width ≤ number) :
    ∃ value rest, 0 < value ∧ value < 10 ∧ padded width number = digit value :: rest := by
  induction width generalizing number with
  | zero =>
      induction number using Nat.strongRecOn with
      | ind number ih =>
          rw [padded_zero_of_pos long]
          by_cases small : number < 10
          · refine ⟨number, [], long, small, ?_⟩
            rw [Nat.div_eq_of_lt small, Nat.mod_eq_of_lt small, padded_zero_zero]
            rfl
          · rcases ih (number / 10) (by omega) (by omega) with
              ⟨value, rest, positive, one, front⟩
            rw [front]
            exact ⟨value, _, positive, one, rfl⟩
  | succ width ih =>
      have longer : 10 ^ width ≤ number / 10 := by
        rw [Nat.pow_succ] at long
        omega
      rcases ih longer with ⟨value, rest, positive, one, front⟩
      rw [padded_succ, front]
      exact ⟨value, _, positive, one, rfl⟩

/-- A number that leaves its first digit free has smaller bytes than one that
needs more digits than there are. -/
theorem compare_paddedBytes_of_long {width short long : Nat} (room : short < 10 ^ width)
    (overflow : 10 ^ (width + 1) ≤ long) :
    compare (paddedBytes (width + 1) short) (paddedBytes (width + 1) long) = .lt := by
  have digits : ∀ value < 10, 0 < value →
      (String.utf8EncodeChar '0').length = (String.utf8EncodeChar (digit value)).length ∧
        compare (String.utf8EncodeChar '0') (String.utf8EncodeChar (digit value)) = .lt := by
    decide
  rcases padded_of_long overflow with ⟨value, rest, positive, one, front⟩
  rw [paddedBytes, paddedBytes, padded_of_short room, front, List.flatMap_cons,
    List.flatMap_cons]
  rcases digits value one positive with ⟨length, less⟩
  exact compare_append_of_lt length less _ _

/-! ## Keys of blocks and transactions -/

/-- No two heights share a key. -/
theorem block_inj {first second : UInt64} : block first = block second ↔ first = second := by
  rw [block, block, String.ofList_inj, padded_inj, UInt64.toNat_inj]

theorem ofText_block (height : UInt64) :
    Bytes.ofText (block height) = paddedBytes 16 height.toNat :=
  Bytes.ofText_ofList _

theorem compare_block_of_lt {first second : UInt64} (less : first.toNat < second.toNat)
    (fits : second.toNat < 10 ^ 16) :
    compare (Bytes.ofText (block first)) (Bytes.ofText (block second)) = .lt := by
  rw [ofText_block, ofText_block]
  exact compare_paddedBytes_of_lt less fits

/-- Up to fifteen digits a height compares with every other as the bytes of
their keys do, however long the other is. -/
theorem compare_block {height : UInt64} (low : height.toNat < 10 ^ 15) (other : UInt64) :
    compare (Bytes.ofText (block height)) (Bytes.ofText (block other)) =
      compare height.toNat other.toNat := by
  rcases Nat.lt_trichotomy height.toNat other.toNat with less | same | greater
  · rw [Nat.compare_eq_lt.mpr less]
    by_cases fits : other.toNat < 10 ^ 16
    · exact compare_block_of_lt less fits
    · rw [ofText_block, ofText_block]
      exact compare_paddedBytes_of_long low (Nat.le_of_not_lt fits)
  · rw [UInt64.toNat_inj.mp same, Std.ReflOrd.compare_self, Std.ReflOrd.compare_self]
  · rw [Nat.compare_eq_gt.mpr greater]
    exact Std.OrientedCmp.gt_of_lt (compare_block_of_lt greater (by omega))

theorem colon_not_mem_padded (width number : Nat) : ':' ∉ padded width number := by
  intro member
  cases isDigit_of_mem_padded member

/-- No two pairs of a height and a hash share a key. -/
theorem transaction_inj {first second : UInt64} {left right : String} :
    transaction first left = transaction second right ↔ first = second ∧ left = right := by
  constructor
  · intro same
    have characters := congrArg String.toList same
    simp only [transaction, block, String.toList_append, String.toList_ofList,
      List.append_assoc] at characters
    have ⟨heights, hashes⟩ := (separated_inj (colon_not_mem_padded _ _)
      (colon_not_mem_padded _ _)).mp characters
    exact ⟨UInt64.toNat_inj.mp (padded_inj.mp heights), String.toList_inj.mp hashes⟩
  · rintro ⟨rfl, rfl⟩
    rfl

/-! ## Keys of peers -/

/-- The address of a peer may have any number of colons.  As long as its id has none,
the last colon of the key stands between them. -/
theorem peer_inj {first second : Peer} (one : ':' ∉ first.id.toList)
    (other : ':' ∉ second.id.toList) :
    peer first = peer second ↔ first.address = second.address ∧ first.id = second.id := by
  constructor
  · intro same
    have backwards (peer : Peer) : (StoreKey.peer peer).toList.reverse =
        peer.id.toList.reverse ++ ':' :: peer.address.toList.reverse := by
      have colon : ":".toList = [':'] := rfl
      rw [StoreKey.peer, String.toList_append, String.toList_append, colon, List.reverse_append,
        List.reverse_append]
      rfl
    have characters := congrArg (·.toList.reverse) same
    simp only [backwards] at characters
    have ⟨ids, addresses⟩ := (separated_inj (mt List.mem_reverse.mp one)
      (mt List.mem_reverse.mp other)).mp characters
    exact ⟨String.toList_inj.mp (List.reverse_inj.mp addresses),
      String.toList_inj.mp (List.reverse_inj.mp ids)⟩
  · rintro ⟨addresses, ids⟩
    rw [peer, peer, addresses, ids]

end StoreKey

/-! ## Keyspaces -/

/-- The record stores of a node. -/
inductive NodeStore where
  | cursors | blocks | confirmed | pending | peers
deriving DecidableEq

namespace NodeStore

abbrev Record : NodeStore → Type
  | cursors => Cursor
  | blocks => Block
  | confirmed => Transaction
  | pending => Transaction
  | peers => Peer

def store : (index : NodeStore) → RecordStore index.Record
  | cursors => RecordStore.cursors
  | blocks => RecordStore.blocks
  | confirmed => RecordStore.confirmed
  | pending => RecordStore.pending
  | peers => RecordStore.peers

/-- No keyspace begins with another. -/
theorem apart : ∀ first second : NodeStore, first ≠ second → first.store.Apart second.store := by
  intro first second different
  cases first <;> cases second <;>
    first | exact absurd rfl different | (constructor <;> decide)

end NodeStore

end LedgerNode
