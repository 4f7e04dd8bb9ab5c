import Mathlib.Data.List.TakeWhile
import LedgerNode.Json.Reader

namespace LedgerNode

/-!
# Blanks, strings and numbers

What a string and a number look like is said here without the reader.  The
bytes between two quotes are plain ones and escapes.  A number has a sign, a
whole part, a fraction and an exponent, and all but the whole part may be
missing.  The reader takes these and nothing else from the front of a byte
string.  Behind a number something must stand that does not continue it.
-/

namespace Json

/-! ## Blanks -/

/-- Blanks and nothing else. -/
def Blank (bytes : Bytes) : Prop := ∀ byte ∈ bytes, isBlank byte = true

instance (bytes : Bytes) : Decidable (Blank bytes) :=
  decidable_of_iff (bytes.all isBlank = true) List.all_eq_true

variable {blanks bytes rest : Bytes}

theorem blank_nil : Blank [] := List.forall_mem_nil _

theorem blank_append : Blank (bytes ++ rest) ↔ Blank bytes ∧ Blank rest :=
  List.forall_mem_append

theorem skipBlanks_append (blank : Blank blanks) (rest : Bytes) :
    skipBlanks (blanks ++ rest) = skipBlanks rest :=
  List.dropWhile_append_of_pos blank

theorem skipBlanks_eq_nil_iff : skipBlanks bytes = [] ↔ Blank bytes :=
  List.dropWhile_eq_nil_iff

theorem isEmpty_skipBlanks_iff : (skipBlanks bytes).isEmpty = true ↔ Blank bytes :=
  List.isEmpty_iff.trans skipBlanks_eq_nil_iff

theorem skipBlanks_cons {byte : UInt8} (visible : isBlank byte = false) (rest : Bytes) :
    skipBlanks (byte :: rest) = byte :: rest :=
  List.dropWhile_cons_of_neg (by rw [visible]; exact Bool.false_ne_true)

theorem skipBlanks_cons_of_blank {byte : UInt8} (blank : isBlank byte = true) (rest : Bytes) :
    skipBlanks (byte :: rest) = skipBlanks rest :=
  List.dropWhile_cons_of_pos blank

/-- The blanks in front of a visible byte are skipped, and nothing else. -/
theorem skipBlanks_append_cons (blank : Blank blanks) (byte : UInt8)
    (visible : isBlank byte = false) (rest : Bytes) :
    skipBlanks (blanks ++ byte :: rest) = byte :: rest := by
  rw [skipBlanks_append blank, skipBlanks_cons visible]

/-- What is skipped is blank. -/
theorem exists_blank (bytes : Bytes) : ∃ blanks, Blank blanks ∧
    bytes = blanks ++ skipBlanks bytes :=
  ⟨bytes.takeWhile isBlank, fun _ member => List.mem_takeWhile_imp member,
    List.takeWhile_append_dropWhile.symm⟩

/-- What passes over one blank passes over all of them. -/
theorem apply_skipBlanks {read : Bytes → Found}
    (passes : ∀ byte bytes, isBlank byte = true → read (byte :: bytes) = read bytes)
    (bytes : Bytes) : read (skipBlanks bytes) = read bytes := by
  induction bytes with
  | nil => rfl
  | cons byte bytes ih =>
      cases blank : isBlank byte with
      | true =>
          rw [passes byte bytes blank, skipBlanks_cons_of_blank blank, ih]
      | false => rw [skipBlanks_cons blank]

/-! ## Strings -/

/-- The bytes that may stand between two quotes. -/
inductive Quotable : Bytes → Prop where
  | nil : Quotable []
  | unicode {a b c d : UInt8} {text : Bytes} (digits : (ofHexDigits? a b c d).isSome = true)
      (rest : Quotable text) : Quotable (0x5C :: 0x75 :: a :: b :: c :: d :: text)
  | simple {letter : UInt8} {text : Bytes} (known : (simpleEscape? letter).isSome = true)
      (rest : Quotable text) : Quotable (0x5C :: letter :: text)
  | plain {byte : UInt8} {text : Bytes} (visible : ¬byte < 0x20) (noQuote : byte ≠ 0x22)
      (noBackslash : byte ≠ 0x5C) (rest : Quotable text) : Quotable (byte :: text)

variable {text : Bytes}

theorem readString_append (quotable : Quotable text) (rest : Bytes) :
    readString (text ++ 0x22 :: rest) = some (text, rest) := by
  induction quotable with
  | nil => rfl
  | @unicode a b c d text digits _ ih =>
      rcases Option.isSome_iff_exists.mp digits with ⟨unit, digits⟩
      simp [readString, ih, digits]
  | @simple letter text known _ ih =>
      rcases Option.isSome_iff_exists.mp known with ⟨byte, known⟩
      have other : letter ≠ 0x75 := by
        rintro rfl
        cases known
      simp [readString, ih, known, other]
  | @plain byte text visible noQuote noBackslash _ ih =>
      simp [readString, ih, visible, noBackslash]

theorem quotable_of_readString (read : readString bytes = some (text, rest)) :
    bytes = text ++ 0x22 :: rest ∧ Quotable text := by
  fun_induction readString bytes generalizing text rest with
  | case1 => cases read
  | case2 rest =>
      cases read
      exact ⟨rfl, .nil⟩
  | case3 a b c d behind ih =>
      simp only [Option.bind_eq_bind, Option.bind_eq_some_iff] at read
      rcases read with ⟨unit, digits, ⟨spelling, after⟩, inner, same⟩
      cases same
      rcases ih inner with ⟨rfl, quotable⟩
      exact ⟨rfl, .unicode (Option.isSome_of_eq_some digits) quotable⟩
  | case4 letter behind _ ih =>
      simp only [Option.bind_eq_bind, Option.bind_eq_some_iff] at read
      rcases read with ⟨byte, known, ⟨spelling, after⟩, inner, same⟩
      cases same
      rcases ih inner with ⟨rfl, quotable⟩
      exact ⟨rfl, .simple (Option.isSome_of_eq_some known) quotable⟩
  | case5 => cases read
  | case6 byte behind noQuote _ noEscape visible ih =>
      simp only [Option.bind_eq_bind, Option.bind_eq_some_iff] at read
      rcases read with ⟨⟨spelling, after⟩, inner, same⟩
      cases same
      rcases ih inner with ⟨rfl, quotable⟩
      -- A backslash would have been read together with what stands behind it.
      have noBackslash : byte ≠ 0x5C := by
        rintro rfl
        cases spelling with
        | nil => exact noEscape 0x22 after rfl rfl
        | cons letter spelling => exact noEscape letter _ rfl rfl
      exact ⟨rfl, .plain visible noQuote noBackslash quotable⟩

/-! ## Numbers -/

/-- One digit or more. -/
def Digits (text : Bytes) : Prop := text ≠ [] ∧ ∀ byte ∈ text, isDigit byte = true

/-- The part of a number before the point, with a zero in front only if it is zero. -/
inductive Whole : Bytes → Prop where
  | zero : Whole [0x30]
  | digits {text : Bytes} (digits : Digits text) (noZero : text.head? ≠ some 0x30) : Whole text

inductive Fraction : Bytes → Prop where
  | none : Fraction []
  | digits {text : Bytes} (digits : Digits text) : Fraction (0x2E :: text)

inductive Exponent : Bytes → Prop where
  | none : Exponent []
  | digits {letter : UInt8} {sign text : Bytes} (marked : letter = 0x65 ∨ letter = 0x45)
      (signed : sign = [] ∨ sign = [0x2B] ∨ sign = [0x2D]) (digits : Digits text) :
      Exponent (letter :: (sign ++ text))

inductive Numeral : Bytes → Prop where
  | parts {sign whole fraction exponent : Bytes} (signed : sign = [] ∨ sign = [0x2D])
      (first : Whole whole) (second : Fraction fraction) (third : Exponent exponent) :
      Numeral (sign ++ whole ++ fraction ++ exponent)

/-- A byte that may go on with a number. -/
def continues (byte : UInt8) : Bool :=
  isDigit byte || byte == 0x2E || byte == 0x65 || byte == 0x45

theorem continues_eq_false_iff {byte : UInt8} : continues byte = false ↔
    isDigit byte = false ∧ byte ≠ 0x2E ∧ byte ≠ 0x65 ∧ byte ≠ 0x45 := by
  simp [continues, and_assoc]

/-- What stands behind a number does not continue it. -/
def Ends (rest : Bytes) : Prop := ∀ byte ∈ rest.head?, continues byte = false

theorem readDigits_append (digits : Digits text)
    (ends : ∀ byte ∈ rest.head?, isDigit byte = false) :
    readDigits (text ++ rest) = some (text, rest) := by
  have stops : rest.takeWhile isDigit = [] ∧ rest.dropWhile isDigit = rest := by
    cases rest with
    | nil => exact ⟨rfl, rfl⟩
    | cons byte rest =>
        have other : isDigit byte = false := ends byte rfl
        rw [List.takeWhile_cons, List.dropWhile_cons, other]
        exact ⟨rfl, rfl⟩
  have some_digit : text.isEmpty = false := List.isEmpty_eq_false_iff.mpr digits.1
  rw [readDigits, List.takeWhile_append_of_pos digits.2, List.dropWhile_append_of_pos digits.2,
    stops.1, stops.2, List.append_nil]
  simp [some_digit]

theorem digits_of_readDigits (read : readDigits bytes = some (text, rest)) :
    bytes = text ++ rest ∧ Digits text := by
  rw [readDigits] at read
  split at read
  next => cases read
  next some_digit =>
    cases read
    refine ⟨List.takeWhile_append_dropWhile.symm, ?_, fun _ => List.mem_takeWhile_imp⟩
    simpa using some_digit

theorem readWhole_append (whole : Whole text) (ends : ∀ byte ∈ rest.head?, isDigit byte = false) :
    readWhole (text ++ rest) = some (text, rest) := by
  cases whole with
  | zero =>
      cases rest with
      | nil => rfl
      | cons byte rest => simp [readWhole, ends byte rfl]
  | digits digits noZero =>
      cases text with
      | nil => exact absurd rfl digits.1
      | cons byte text =>
          have other : byte ≠ 0x30 := fun same => noZero (congrArg some same)
          have other : readWhole (byte :: text ++ rest) = readDigits (byte :: text ++ rest) := by
            simp [readWhole, other]
          rw [other, readDigits_append digits ends]

theorem whole_of_readWhole (read : readWhole bytes = some (text, rest)) :
    bytes = text ++ rest ∧ Whole text := by
  fun_cases readWhole bytes with
  | case1 next behind digit =>
      rw [readWhole, if_pos digit] at read
      cases read
  | case2 next behind other =>
      rw [readWhole, if_neg other] at read
      cases read
      exact ⟨rfl, .zero⟩
  | case3 =>
      cases read
      exact ⟨rfl, .zero⟩
  | case4 _ noZero =>
      rw [readWhole.eq_3 _ noZero] at read
      rcases digits_of_readDigits read with ⟨rfl, digits⟩
      refine ⟨rfl, .digits digits ?_⟩
      intro zero
      cases text with
      | nil => cases zero
      | cons byte text =>
          cases zero
          exact noZero _ rfl

theorem readFraction_append (fraction : Fraction text)
    (ends : ∀ byte ∈ rest.head?, isDigit byte = false ∧ byte ≠ 0x2E) :
    readFraction (text ++ rest) = some (text, rest) := by
  cases fraction with
  | none =>
      cases rest with
      | nil => rfl
      | cons byte rest => simp [readFraction, (ends byte rfl).2]
  | @digits text digits =>
      have read := readDigits_append digits fun byte member => (ends byte member).1
      simp [readFraction, read]

theorem fraction_of_readFraction (read : readFraction bytes = some (text, rest)) :
    bytes = text ++ rest ∧ Fraction text := by
  fun_cases readFraction bytes with
  | case1 behind =>
      rw [readFraction] at read
      rcases Option.map_eq_some_iff.mp read with ⟨⟨digits, after⟩, inner, same⟩
      cases same
      rcases digits_of_readDigits inner with ⟨rfl, digits⟩
      exact ⟨rfl, .digits digits⟩
  | case2 _ noPoint =>
      rw [readFraction.eq_2 _ noPoint] at read
      cases read
      exact ⟨rfl, .none⟩

theorem readSign_append (signed : text = [] ∨ text = [0x2B] ∨ text = [0x2D])
    (unsigned : ∀ byte ∈ rest.head?, isDigit byte = true) :
    readSign (text ++ rest) = (text, rest) := by
  rcases signed with rfl | rfl | rfl
  · cases rest with
    | nil => rfl
    | cons byte rest =>
        have digit := unsigned byte rfl
        rw [List.nil_append, readSign]
        · rintro _ ⟨⟩
          cases digit
        · rintro _ ⟨⟩
          cases digit
  · rfl
  · rfl

theorem sign_of_readSign (read : readSign bytes = (text, rest)) :
    bytes = text ++ rest ∧ (text = [] ∨ text = [0x2B] ∨ text = [0x2D]) := by
  fun_cases readSign bytes with
  | case1 =>
      cases read
      exact ⟨rfl, .inr (.inl rfl)⟩
  | case2 =>
      cases read
      exact ⟨rfl, .inr (.inr rfl)⟩
  | case3 _ noPlus noMinus =>
      rw [readSign.eq_3 _ noPlus noMinus] at read
      cases read
      exact ⟨rfl, .inl rfl⟩

theorem readExponent_append (exponent : Exponent text) (ends : Ends rest) :
    readExponent (text ++ rest) = some (text, rest) := by
  cases exponent with
  | none =>
      cases rest with
      | nil => rfl
      | cons byte rest =>
          rcases continues_eq_false_iff.mp (ends byte rfl) with ⟨_, _, small, capital⟩
          rw [List.nil_append, readExponent, if_neg (not_or.mpr ⟨small, capital⟩)]
  | @digits letter sign text marked signed digits =>
      have behind : ∀ byte ∈ (text ++ rest).head?, isDigit byte = true := by
        intro byte member
        cases text with
        | nil => exact absurd rfl digits.1
        | cons first text =>
            cases member
            exact digits.2 _ List.mem_cons_self
      have read := readDigits_append digits fun byte member =>
        (continues_eq_false_iff.mp (ends byte member)).1
      rw [List.cons_append, List.append_assoc, readExponent, if_pos marked,
        readSign_append signed behind]
      simp [read]

theorem exponent_of_readExponent (read : readExponent bytes = some (text, rest)) :
    bytes = text ++ rest ∧ Exponent text := by
  fun_cases readExponent bytes with
  | case1 letter behind marked =>
      rw [readExponent, if_pos marked] at read
      cases sign : readSign behind with
      | mk sign unsigned =>
          rw [sign] at read
          rcases Option.bind_eq_some_iff.mp read with ⟨⟨digits, after⟩, inner, same⟩
          cases same
          rcases sign_of_readSign sign with ⟨rfl, signed⟩
          rcases digits_of_readDigits inner with ⟨rfl, digits⟩
          refine ⟨?_, .digits marked signed digits⟩
          rw [List.cons_append, List.append_assoc]
  | case2 letter behind unmarked =>
      rw [readExponent, if_neg unmarked] at read
      cases read
      exact ⟨rfl, .none⟩
  | case3 =>
      cases read
      exact ⟨rfl, .none⟩

theorem head?_of_whole (whole : Whole text) (rest : Bytes) :
    ∃ byte ∈ (text ++ rest).head?, isDigit byte = true := by
  cases whole with
  | zero => exact ⟨0x30, rfl, rfl⟩
  | digits digits _ =>
      cases text with
      | nil => exact absurd rfl digits.1
      | cons byte text => exact ⟨byte, rfl, digits.2 byte List.mem_cons_self⟩

theorem readMinus_append (signed : text = [] ∨ text = [0x2D])
    (digit : ∃ byte ∈ rest.head?, isDigit byte = true) :
    readMinus (text ++ rest) = (text, rest) := by
  rcases signed with rfl | rfl
  · rcases digit with ⟨byte, first, digit⟩
    rw [List.nil_append, readMinus]
    rintro behind rfl
    cases first
    cases digit
  · rfl

theorem sign_of_readMinus (read : readMinus bytes = (text, rest)) :
    bytes = text ++ rest ∧ (text = [] ∨ text = [0x2D]) := by
  fun_cases readMinus bytes with
  | case1 =>
      cases read
      exact ⟨rfl, .inr rfl⟩
  | case2 _ noMinus =>
      rw [readMinus.eq_2 _ noMinus] at read
      cases read
      exact ⟨rfl, .inl rfl⟩

theorem readNumber_append (numeral : Numeral text) (ends : Ends rest) :
    readNumber (text ++ rest) = some (text, rest) := by
  rcases numeral with ⟨signed, whole, fraction, exponent⟩
  next sign first second third =>
    -- A fraction is followed by an exponent or by what ends the number.
    have third_head : ∀ byte ∈ (third ++ rest).head?, isDigit byte = false ∧ byte ≠ 0x2E := by
      intro byte member
      cases exponent with
      | none =>
          rcases continues_eq_false_iff.mp (ends byte member) with ⟨digit, point, _⟩
          exact ⟨digit, point⟩
      | digits marked _ _ =>
          cases member
          rcases marked with rfl | rfl <;> exact ⟨rfl, by decide⟩
    have second_head : ∀ byte ∈ (second ++ (third ++ rest)).head?, isDigit byte = false := by
      intro byte member
      cases fraction with
      | none => exact (third_head byte member).1
      | digits _ =>
          cases member
          rfl
    simp only [List.append_assoc, readNumber]
    rw [readMinus_append signed (head?_of_whole whole _)]
    simp [readWhole_append whole second_head, readFraction_append fraction third_head,
      readExponent_append exponent ends]

theorem numeral_of_readNumber (read : readNumber bytes = some (text, rest)) :
    bytes = text ++ rest ∧ Numeral text := by
  unfold readNumber at read
  cases sign : readMinus bytes with
  | mk sign unsigned =>
      rw [sign] at read
      rcases Option.bind_eq_some_iff.mp read with ⟨⟨whole, _⟩, first, read⟩
      rcases Option.bind_eq_some_iff.mp read with ⟨⟨fraction, _⟩, second, read⟩
      rcases Option.bind_eq_some_iff.mp read with ⟨⟨exponent, _⟩, third, same⟩
      cases same
      rcases sign_of_readMinus sign with ⟨rfl, signed⟩
      rcases whole_of_readWhole first with ⟨rfl, whole⟩
      rcases fraction_of_readFraction second with ⟨rfl, fraction⟩
      rcases exponent_of_readExponent third with ⟨rfl, exponent⟩
      refine ⟨?_, .parts signed whole fraction exponent⟩
      simp only [List.append_assoc]

end Json

end LedgerNode
