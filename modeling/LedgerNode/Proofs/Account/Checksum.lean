import LedgerNode.Proofs.Account.Address

namespace LedgerNode

/-!
# The checksum finds every single fault

A valid text is a letter, a body and the checksum of the body.  A fault in the
checksum is found because the body has one checksum only.  A fault in the body is
found because it changes the sum by the difference of two symbols' values, and
numbers have different numerals.  Two faults may cancel each other out, as two
symbols that change places do.  The letter does not count, since the checksum does
not depend on it.
-/

namespace Base58

/-- A number is known from its numeral. -/
theorem numeral_inj {first second : Nat} : numeral first = numeral second ↔ first = second := by
  have reads (number : Nat) :
      (numeral number).mapM value? = some (Nat.digits 58 number).reverse := by
    refine mapM_value?_eq_some_iff.mpr ⟨?_, numeral_eq number⟩
    intro value member
    exact Nat.digits_lt_base (by decide) (List.mem_reverse.mp member)
  constructor
  · intro same
    have digits := (reads first).symm.trans (same ▸ reads second)
    exact Nat.digits_inj_iff.mp (List.reverse_inj.mp (Option.some.inj digits))
  · exact congrArg numeral

/-- A character is known from its value. -/
theorem eq_of_value? {first second : Char} {value : Nat} (one : value? first = some value)
    (other : value? second = some value) : first = second :=
  (symbol_of_value? one).2.symm.trans (symbol_of_value? other).2

end Base58

namespace Address

open Base58 (numeral)

/-! ## One place of a body -/

theorem symbolSum?_append_cons {front back : List Char} {character : Char} {sum : Nat}
    (whole : symbolSum? (front ++ character :: back) = some sum) :
    ∃ before value after, symbolSum? front = some before ∧
      Base58.value? character = some value ∧ symbolSum? back = some after ∧
      sum = before + (value + after) := by
  rcases symbolSum?_eq_some_iff.mp whole with ⟨values, below, same, rfl⟩
  rcases List.append_eq_map_iff.mp same with ⟨earlier, others, rfl, rfl, rest⟩
  rcases List.map_eq_cons_iff.mp rest with ⟨value, later, rfl, rfl, rfl⟩
  rcases List.forall_mem_append.mp below with ⟨left, right⟩
  rcases List.forall_mem_cons.mp right with ⟨here, right⟩
  refine ⟨earlier.sum, value, later.sum, symbolSum?_eq_some_iff.mpr ⟨earlier, left, rfl, rfl⟩,
    Base58.value?_symbol here, symbolSum?_eq_some_iff.mpr ⟨later, right, rfl, rfl⟩, ?_⟩
  rw [List.sum_append, List.sum_cons]

/-- Bodies with one sum that differ in one place at most do not differ. -/
theorem eq_of_symbolSum? {front back : List Char} {first second : Char} {sum : Nat}
    (one : symbolSum? (front ++ first :: back) = some sum)
    (other : symbolSum? (front ++ second :: back) = some sum) : first = second := by
  rcases symbolSum?_append_cons one with ⟨before, value, after, front, here, back, total⟩
  rcases symbolSum?_append_cons other with ⟨_, value', _, frontToo, there, backToo, totalToo⟩
  cases front.symm.trans frontToo
  cases back.symm.trans backToo
  have same : value = value' := by omega
  exact Base58.eq_of_value? here (same ▸ there)

/-! ## One place of a text -/

/-- A place of a body with its checksum is in the body or in the checksum. -/
theorem place_cases {body check front back : List Char} {character : Char}
    (same : body ++ check = front ++ character :: back) :
    (∃ middle, body = front ++ character :: middle ∧ back = middle ++ check) ∨
      ∃ middle, front = body ++ middle ∧ check = middle ++ character :: back := by
  rcases List.append_eq_append_iff.mp same with ⟨middle, here, there⟩ | ⟨middle, here, there⟩
  · exact .inr ⟨middle, here, there⟩
  · cases middle with
    | nil => exact .inr ⟨[], by rw [here, List.append_nil, List.append_nil], there.symm⟩
    | cons head middle =>
        rcases List.cons.inj there with ⟨rfl, rest⟩
        exact .inl ⟨middle, here, rest⟩

/-- Valid texts that differ in one place behind the letter at most do not differ. -/
theorem Spells.eq_of_replaced {first second : String} {kind kind' : AccountKind}
    {body body' : List Char} {sum sum' : Nat} (one : Spells first kind body sum)
    (other : Spells second kind' body' sum') {letter : Char} {front back : List Char}
    {character replaced : Char} (here : first.toList = letter :: (front ++ character :: back))
    (there : second.toList = letter :: (front ++ replaced :: back)) : character = replaced := by
  have two := one.two
  have twoToo := other.two
  have left := (List.cons.inj (one.characters.symm.trans here)).2
  have right := (List.cons.inj (other.characters.symm.trans there)).2
  rw [checksumLength] at two twoToo
  rcases place_cases left with ⟨middle, same, behind⟩ | ⟨middle, same, check⟩ <;>
    rcases place_cases right with ⟨middle', same', behind'⟩ | ⟨middle', same', check'⟩
  · -- the place is in the body, and the checksums are the same
    rcases List.append_inj' (behind.symm.trans behind') (two.trans twoToo.symm) with
      ⟨rfl, numerals⟩
    cases Base58.numeral_inj.mp numerals
    exact eq_of_symbolSum? (same ▸ one.whole) (same' ▸ other.whole)
  · have behind := congrArg List.length behind
    have check := congrArg List.length check'
    rw [List.length_append] at behind check
    rw [List.length_cons] at check
    omega
  · have behind := congrArg List.length behind'
    have check := congrArg List.length check
    rw [List.length_append] at behind check
    rw [List.length_cons] at check
    omega
  · -- the place is in the checksum, and the bodies are the same
    have lengths : body.length = body'.length := by
      have all := congrArg List.length left
      have allToo := congrArg List.length right
      simp only [List.length_append, List.length_cons] at all allToo
      omega
    rcases List.append_inj (same.symm.trans same') lengths with ⟨rfl, rfl⟩
    cases one.whole.symm.trans other.whole
    have checks := List.append_cancel_left (check.symm.trans check')
    exact (List.cons.inj checks).1

theorem isValid_set {text : String} (valid : isValid text = true) {position : Nat}
    {character : Char} (behind : 0 < position) (inside : position < text.toList.length)
    (different : character ≠ text.toList[position]) :
    isValid (String.ofList (text.toList.set position character)) = false := by
  apply Bool.eq_false_iff.mpr
  intro validToo
  rcases isValid_iff.mp valid with ⟨kind, body, sum, one⟩
  rcases isValid_iff.mp validToo with ⟨kind', body', sum', other⟩
  -- both texts are cut at the place, and the letter is in front of it
  cases position with
  | zero => cases behind
  | succ place =>
      rcases List.exists_cons_of_length_pos (Nat.zero_lt_of_lt inside) with ⟨letter, rest, shape⟩
      have within : place < rest.length := by
        rw [shape] at inside
        exact Nat.lt_of_succ_lt_succ inside
      have found : text.toList[place + 1] = rest[place] := by
        simp only [shape, List.getElem_cons_succ]
      have here : text.toList =
          letter :: (rest.take place ++ rest[place] :: rest.drop (place + 1)) := by
        rw [shape, List.getElem_cons_drop, List.take_append_drop]
      have there : (String.ofList (text.toList.set (place + 1) character)).toList =
          letter :: (rest.take place ++ character :: rest.drop (place + 1)) := by
        rw [String.toList_ofList, shape, List.set_cons_succ, List.set_eq_take_append_cons_drop,
          if_pos within]
      exact different (found.trans (one.eq_of_replaced other here there)).symm

/-! ## Two texts -/

/-- Lists of one length that agree everywhere else differ by one replacement. -/
theorem eq_set_of_agree {first second : List Char} (lengths : first.length = second.length)
    {position : Nat} (inside : position < second.length)
    (agree : ∀ other : Nat, other ≠ position → first[other]? = second[other]?) :
    second = first.set position second[position] := by
  apply List.ext_getElem?
  intro other
  rw [List.getElem?_set]
  split
  next here =>
    subst here
    rw [if_pos (lengths ▸ inside), List.getElem?_eq_getElem inside]
  next there => exact (agree other (Ne.symm there)).symm

/-- A valid text is not valid any more when one character behind the letter is
replaced by whatever other character.  So two valid texts of one length with one
letter differ in two places at least, if they differ at all. -/
theorem single_faults_found :
    (∀ text : String, isValid text = true →
      ∀ (position : Nat) (character : Char), 0 < position →
        ∀ inside : position < text.toList.length, character ≠ text.toList[position] →
          isValid (String.ofList (text.toList.set position character)) = false) ∧
    ∀ first second : String, isValid first = true → isValid second = true →
      first.toList.head? = second.toList.head? →
      first.toList.length = second.toList.length → first ≠ second →
      ∃ place later : Nat, 0 < place ∧ place < later ∧ later < first.toList.length ∧
        first.toList[place]? ≠ second.toList[place]? ∧
        first.toList[later]? ≠ second.toList[later]? := by
  refine ⟨fun _ valid _ _ => isValid_set valid, ?_⟩
  intro first second valid validToo letters lengths different
  have within {place : Nat} (differ : first.toList[place]? ≠ second.toList[place]?) :
      0 < place ∧ place < first.toList.length := by
    refine ⟨Nat.pos_of_ne_zero ?_, Nat.lt_of_not_le ?_⟩
    · rintro rfl
      rw [← List.head?_eq_getElem?, ← List.head?_eq_getElem?] at differ
      exact differ letters
    · intro beyond
      apply differ
      rw [List.getElem?_eq_none beyond, List.getElem?_eq_none (lengths ▸ beyond)]
  have one : ∃ place : Nat, first.toList[place]? ≠ second.toList[place]? := by
    by_contra nowhere
    apply different
    apply String.toList_inj.mp
    apply List.ext_getElem?
    intro place
    exact not_not.mp fun differ => nowhere ⟨place, differ⟩
  rcases one with ⟨place, differ⟩
  rcases within differ with ⟨behind, inside⟩
  have more : ∃ other : Nat, other ≠ place ∧ first.toList[other]? ≠ second.toList[other]? := by
    by_contra alone
    have agree : ∀ other : Nat, other ≠ place → first.toList[other]? = second.toList[other]? :=
      fun other elsewhere => not_not.mp fun differ => alone ⟨other, elsewhere, differ⟩
    have there : place < second.toList.length := lengths ▸ inside
    have replaced : second.toList[place] ≠ first.toList[place] := by
      intro same
      rw [List.getElem?_eq_getElem inside, List.getElem?_eq_getElem there, same] at differ
      exact differ rfl
    have invalid := isValid_set valid behind inside replaced
    rw [← eq_set_of_agree lengths there agree, String.ofList_toList, validToo] at invalid
    cases invalid
  rcases more with ⟨other, elsewhere, differToo⟩
  rcases within differToo with ⟨behindToo, insideToo⟩
  rcases Nat.lt_or_gt_of_ne elsewhere with earlier | later
  · exact ⟨other, place, behindToo, earlier, inside, differToo, differ⟩
  · exact ⟨place, other, behind, later, insideToo, differ, differToo⟩

/-- A symbol of the checksum replaced by another one, and a symbol of the body
replaced by a character of another script, are found.  Two symbols of the body that
change places are not. -/
theorem single_faults_found_known :
    isValid "NuxYnPPYEqFMw3UM8j3hLppXsF8dEk" = true ∧
      isValid "NuxYnPPYEqFMw3UM8j3hLppXsF8dEx" = false ∧
      isValid "NéxYnPPYEqFMw3UM8j3hLppXsF8dEk" = false ∧
      isValid "NxuYnPPYEqFMw3UM8j3hLppXsF8dEk" = true ∧
      ∃ place later : Nat, 0 < place ∧ place < later ∧ later < 30 ∧
        "NuxYnPPYEqFMw3UM8j3hLppXsF8dEk".toList[place]? ≠
          "NxuYnPPYEqFMw3UM8j3hLppXsF8dEk".toList[place]? ∧
        "NuxYnPPYEqFMw3UM8j3hLppXsF8dEk".toList[later]? ≠
          "NxuYnPPYEqFMw3UM8j3hLppXsF8dEk".toList[later]? := by
  have valid : isValid "NuxYnPPYEqFMw3UM8j3hLppXsF8dEk" = true := by decide +kernel
  have validToo : isValid "NxuYnPPYEqFMw3UM8j3hLppXsF8dEk" = true := by decide +kernel
  have length : "NuxYnPPYEqFMw3UM8j3hLppXsF8dEk".toList.length = 30 := by decide +kernel
  have checked := single_faults_found.1 _ valid 29 'x' (by decide) (by decide +kernel)
    (by decide +kernel)
  have foreign := single_faults_found.1 _ valid 1 'é' (by decide) (by decide +kernel)
    (by decide +kernel)
  have twice := single_faults_found.2 _ _ valid validToo (by decide +kernel)
    (by decide +kernel) (by decide +kernel)
  rw [length] at twice
  exact ⟨valid, checked, foreign, validToo, twice⟩

end Address

end LedgerNode
