import Mathlib.Algebra.Order.BigOperators.Group.List
import Mathlib.Data.List.GetD
import Mathlib.Data.Nat.Digits.Lemmas
import LedgerNode.Base58
import LedgerNode.Proofs.Bytes

namespace LedgerNode

/-!
# Numbers and byte strings in base 58

The digits of a number are those of Mathlib, so that their count and their size
are known from there.  The symbols of base 58 stand for their values and for
nothing else.  A byte string never has fewer symbols than bytes: each zero byte
in front has a symbol of its own, and behind them one symbol says less than one
byte.
-/

namespace Radix

theorem digits_eq_natDigits {base : Nat} (large : 1 < base) (number : Nat) :
    digits base number = Nat.digits base number := by
  induction number using Nat.strongRecOn with
  | ind number ih =>
      rw [digits]
      by_cases zero : number = 0
      · rw [if_pos (.inl zero), zero, Nat.digits_zero]
      · have smaller : number / base < number := Nat.div_lt_self (Nat.pos_of_ne_zero zero) large
        rw [if_neg (by omega), ih _ smaller, ← Nat.digits_def' large (Nat.pos_of_ne_zero zero)]

end Radix

theorem Bytes.toNatLittleEndian_append (first second : Bytes) :
    toNatLittleEndian (first ++ second) =
      toNatLittleEndian first + 256 ^ first.length * toNatLittleEndian second := by
  induction first with
  | nil => rw [List.nil_append, toNatLittleEndian, List.length_nil, Nat.pow_zero, Nat.one_mul,
      Nat.zero_add]
  | cons byte first ih =>
      rw [List.cons_append, toNatLittleEndian, ih, toNatLittleEndian, List.length_cons,
        Nat.pow_succ', Nat.mul_add, Nat.add_assoc, Nat.mul_assoc]

theorem Bytes.toNatBigEndian_cons (byte : UInt8) (rest : Bytes) :
    toNatBigEndian (byte :: rest) = toNatBigEndian rest + 256 ^ rest.length * byte.toNat := by
  rw [toNatBigEndian, List.reverse_cons, toNatLittleEndian_append, List.length_reverse]
  rfl

theorem Bytes.toNatBigEndian_lt (bytes : Bytes) : toNatBigEndian bytes < 256 ^ bytes.length := by
  have bound := toNatLittleEndian_lt bytes.reverse
  rwa [List.length_reverse] at bound

namespace Base58

/-! ## Symbols -/

theorem value?_symbol {value : Nat} (small : value < 58) : value? (symbol value) = some value := by
  have each : ∀ value < 58, value? (symbol value) = some value := by decide
  exact each value small

/-- A character with a value is the symbol for it. -/
theorem symbol_of_value? {character : Char} {value : Nat}
    (found : value? character = some value) : value < 58 ∧ symbol value = character := by
  rcases List.idxOf?_eq_some_iff.mp found with ⟨inside, same, -⟩
  refine ⟨inside, ?_⟩
  rw [symbol, List.getD_eq_getElem _ _ inside]
  exact same

/-- The values of characters are read if and only if the characters are the symbols
for them. -/
theorem mapM_value?_eq_some_iff {characters : List Char} {values : List Nat} :
    characters.mapM value? = some values ↔
      (∀ value ∈ values, value < 58) ∧ characters = values.map symbol := by
  induction characters generalizing values with
  | nil =>
      constructor
      · rintro ⟨⟩
        exact ⟨List.forall_mem_nil _, rfl⟩
      · rintro ⟨-, same⟩
        rw [List.map_eq_nil_iff.mp same.symm]
        rfl
  | cons character rest ih =>
      constructor
      · intro read
        rw [List.mapM_cons] at read
        rcases Option.bind_eq_some_iff.mp read with ⟨value, first, more⟩
        rcases Option.bind_eq_some_iff.mp more with ⟨others, tail, all⟩
        cases all
        rcases symbol_of_value? first with ⟨small, here⟩
        rcases ih.mp tail with ⟨below, there⟩
        exact ⟨List.forall_mem_cons.mpr ⟨small, below⟩, by rw [List.map_cons, here, there]⟩
      · rintro ⟨below, same⟩
        cases values with
        | nil => cases same
        | cons value others =>
            rcases List.forall_mem_cons.mp below with ⟨small, below⟩
            rcases List.cons.inj same with ⟨here, there⟩
            rw [List.mapM_cons, here, value?_symbol small, ih.mpr ⟨below, there⟩]
            rfl

/-! ## Numerals -/

theorem numeral_eq (number : Nat) :
    numeral number = (Nat.digits 58 number).reverse.map symbol := by
  rw [numeral, Radix.digits_eq_natDigits (by decide)]

theorem length_numeral_le_iff (number count : Nat) :
    (numeral number).length ≤ count ↔ number < 58 ^ count := by
  rw [numeral_eq, List.length_map, List.length_reverse]
  exact Nat.digits_length_le_iff (by decide) number

/-! ## Byte strings -/

/-- The values of the symbols that a byte string is written in. -/
def values (bytes : Bytes) : List Nat :=
  List.replicate (bytes.takeWhile (· == 0)).length 0 ++
    (Nat.digits 58 (Bytes.toNatBigEndian bytes)).reverse

theorem toList_encode (bytes : Bytes) : (encode bytes).toList = (values bytes).map symbol := by
  rw [encode, String.toList_ofList, numeral_eq, values, List.map_append, List.map_replicate]
  rfl

theorem lt_of_mem_values {bytes : Bytes} {value : Nat} (member : value ∈ values bytes) :
    value < 58 := by
  rcases List.mem_append.mp member with zero | digit
  · rw [List.eq_of_mem_replicate zero]
    decide
  · exact Nat.digits_lt_base (by decide) (List.mem_reverse.mp digit)

/-- A byte string has at least as many symbols as bytes. -/
theorem length_le_values (bytes : Bytes) : bytes.length ≤ (values bytes).length := by
  rw [values, List.length_append, List.length_replicate, List.length_reverse]
  induction bytes with
  | nil => exact Nat.zero_le _
  | cons byte rest ih =>
      by_cases zero : byte = 0
      · subst zero
        have front : ((0 : UInt8) :: rest).takeWhile (· == 0) = 0 :: rest.takeWhile (· == 0) := rfl
        have number : Bytes.toNatBigEndian ((0 : UInt8) :: rest) = Bytes.toNatBigEndian rest := by
          rw [Bytes.toNatBigEndian_cons]
          rfl
        rw [front, number, List.length_cons, List.length_cons]
        omega
      · have positive : 0 < byte.toNat :=
          Nat.pos_of_ne_zero fun none => zero (UInt8.toNat_inj.mp none)
        have large : 58 ^ rest.length ≤ Bytes.toNatBigEndian (byte :: rest) := by
          calc 58 ^ rest.length
              ≤ 256 ^ rest.length := Nat.pow_le_pow_left (by decide) _
            _ ≤ 256 ^ rest.length * byte.toNat := Nat.le_mul_of_pos_right _ positive
            _ ≤ Bytes.toNatBigEndian (byte :: rest) := by
                rw [Bytes.toNatBigEndian_cons]
                exact Nat.le_add_left _ _
        have digits := (Nat.lt_digits_length_iff (by decide) _).mpr large
        rw [List.length_cons]
        omega

/-- The values of a byte string add up to less than fifty-eight for each symbol of
its number. -/
theorem sum_values_le {bytes : Bytes} {count : Nat}
    (few : Bytes.toNatBigEndian bytes < 58 ^ count) : (values bytes).sum ≤ count * 57 := by
  have each : ∀ digit ∈ Nat.digits 58 (Bytes.toNatBigEndian bytes), digit ≤ 57 :=
    fun digit member => Nat.le_of_lt_succ (Nat.digits_lt_base (by decide) member)
  have total : (Nat.digits 58 (Bytes.toNatBigEndian bytes)).sum ≤
      (Nat.digits 58 (Bytes.toNatBigEndian bytes)).length * 57 :=
    List.sum_le_card_nsmul _ _ each
  have length := (Nat.digits_length_le_iff (by decide) _).mpr few
  rw [values, List.sum_append, List.sum_replicate_nat, Nat.mul_zero, Nat.zero_add,
    List.sum_reverse]
  exact total.trans (Nat.mul_le_mul_right 57 length)

end Base58

end LedgerNode
