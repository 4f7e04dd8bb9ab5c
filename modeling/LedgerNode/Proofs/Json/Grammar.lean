import LedgerNode.Proofs.Json.Tokens

namespace LedgerNode

/-!
# The grammar of documents

A text of the grammar is a document as it may be written, with blanks around
every token.  The items of an array and the members of an object are phrases of
their own, together with the bracket behind them.

The reader takes the texts of the grammar and no others.  It takes them wherever
they stand, so that a text cannot be cut off or continued and still be read,
unless it is a number.
-/

namespace Json

/-- What the grammar has rules for. -/
inductive Phrase where
  | value (document : Json)
  /-- The items of an array, at least one, and the bracket behind them. -/
  | items (items : List Json)
  /-- The members of an object, at least one, and the brace behind them. -/
  | members (members : List (Bytes × Json))

/-- The name of a member with the colon behind it. -/
inductive Label (name : Bytes) : Bytes → Prop where
  | colon {blanks : Bytes} (quotable : Quotable name) (blank : Blank blanks) :
      Label name (0x22 :: (name ++ 0x22 :: (blanks ++ [0x3A])))

namespace Phrase

inductive Spelled : Phrase → Bytes → Prop where
  | blank {phrase : Phrase} {byte : UInt8} {text : Bytes} (blank : isBlank byte = true)
      (rest : Spelled phrase text) : Spelled phrase (byte :: text)
  | null : Spelled (.value .null) (Bytes.ofText "null")
  | bool (value : Bool) :
      Spelled (.value (.bool value)) (Bytes.ofText (if value then "true" else "false"))
  | string {spelling : Bytes} (quotable : Quotable spelling) :
      Spelled (.value (.string spelling)) (0x22 :: (spelling ++ [0x22]))
  | number {spelling : Bytes} (numeral : Numeral spelling) :
      Spelled (.value (.number spelling)) spelling
  | noItems {blanks : Bytes} (blank : Blank blanks) :
      Spelled (.value (.array [])) (0x5B :: (blanks ++ [0x5D]))
  | array {items : List Json} {text : Bytes} (content : Spelled (.items items) text) :
      Spelled (.value (.array items)) (0x5B :: text)
  | noMembers {blanks : Bytes} (blank : Blank blanks) :
      Spelled (.value (.object [])) (0x7B :: (blanks ++ [0x7D]))
  | object {members : List (Bytes × Json)} {text : Bytes}
      (content : Spelled (.members members) text) :
      Spelled (.value (.object members)) (0x7B :: text)
  | lastItem {item : Json} {text blanks : Bytes} (first : Spelled (.value item) text)
      (blank : Blank blanks) : Spelled (.items [item]) (text ++ (blanks ++ [0x5D]))
  | item {item : Json} {items : List Json} {text blanks rest : Bytes}
      (first : Spelled (.value item) text) (blank : Blank blanks)
      (others : Spelled (.items items) rest) :
      Spelled (.items (item :: items)) (text ++ (blanks ++ 0x2C :: rest))
  | lastMember {name label : Bytes} {value : Json} {text blanks : Bytes}
      (named : Label name label) (first : Spelled (.value value) text) (blank : Blank blanks) :
      Spelled (.members [(name, value)]) (label ++ (text ++ (blanks ++ [0x7D])))
  | member {name label : Bytes} {value : Json} {members : List (Bytes × Json)}
      {text blanks rest : Bytes} (named : Label name label)
      (first : Spelled (.value value) text) (blank : Blank blanks)
      (others : Spelled (.members members) rest) :
      Spelled (.members ((name, value) :: members))
        (label ++ (text ++ (blanks ++ 0x2C :: rest)))

end Phrase

open Phrase

variable {fuel : Nat} {byte : UInt8} {blanks bytes text rest : Bytes} {phrase : Phrase}

/-! ## Every text of the grammar is read -/

theorem readName_append {name : Bytes} (named : Label name text) (rest : Bytes) :
    readName (text ++ rest) = some (name, rest) := by
  rcases named with ⟨quotable, blank⟩
  next blanks =>
    have read := readString_append quotable (blanks ++ 0x3A :: rest)
    have colon := skipBlanks_append_cons blank 0x3A rfl rest
    simp only [List.cons_append, List.append_assoc, List.nil_append, readName]
    rw [skipBlanks_cons rfl]
    simp [read, colon]

/-- Blanks in front of a phrase are passed over. -/
theorem readValue_blank (blank : isBlank byte = true) (fuel : Nat) (bytes : Bytes) :
    readValue fuel (byte :: bytes) = readValue fuel bytes := by
  cases fuel with
  | zero => rw [readValue, readValue]
  | succ fuel => rw [readValue, readValue, skipBlanks_cons_of_blank blank]

theorem readItems_blank (blank : isBlank byte = true) (fuel : Nat) (bytes : Bytes) :
    readItems fuel (byte :: bytes) = readItems fuel bytes := by
  cases fuel with
  | zero => rw [readItems, readItems]
  | succ fuel => rw [readItems, readItems, readValue_blank blank]

theorem readMembers_blank (blank : isBlank byte = true) (fuel : Nat) (bytes : Bytes) :
    readMembers fuel (byte :: bytes) = readMembers fuel bytes := by
  have named : readName (byte :: bytes) = readName bytes := by
    rw [readName, readName, skipBlanks_cons_of_blank blank]
  cases fuel with
  | zero => rw [readMembers, readMembers]
  | succ fuel => rw [readMembers, readMembers, named]

theorem readItems_skipBlanks (fuel : Nat) (bytes : Bytes) :
    readItems fuel (skipBlanks bytes) = readItems fuel bytes :=
  apply_skipBlanks (fun _ bytes blank => readItems_blank blank fuel bytes) bytes

theorem readMembers_skipBlanks (fuel : Nat) (bytes : Bytes) :
    readMembers fuel (skipBlanks bytes) = readMembers fuel bytes :=
  apply_skipBlanks (fun _ bytes blank => readMembers_blank blank fuel bytes) bytes

/-- A byte that can be the first one of a number. -/
def startsNumber (byte : UInt8) : Bool := isDigit byte || byte == 0x2D

theorem Numeral.exists_cons (numeral : Numeral text) :
    ∃ byte behind, text = byte :: behind ∧ startsNumber byte = true := by
  rcases numeral with @⟨sign, whole, fraction, exponent, signed, first, _, _⟩
  rcases signed with rfl | rfl
  · rcases head?_of_whole first (fraction ++ exponent) with ⟨byte, head, digit⟩
    rcases List.head?_eq_some_iff.mp head with ⟨behind, shape⟩
    refine ⟨byte, behind, ?_, by rw [startsNumber, digit]; rfl⟩
    rw [← shape, List.nil_append, List.append_assoc]
  · exact ⟨0x2D, _, rfl, rfl⟩

theorem isBlank_of_startsNumber (starts : startsNumber byte = true) : isBlank byte = false := by
  rw [Bool.eq_false_iff]
  intro blank
  simp only [isBlank, Bool.or_eq_true, beq_iff_eq] at blank
  rcases blank with ((rfl | rfl) | rfl) | rfl <;> cases starts

theorem readValue_number (starts : startsNumber byte = true) (fuel : Nat) (bytes : Bytes) :
    readValue (fuel + 1) (byte :: bytes) =
      (readNumber (byte :: bytes)).map fun (spelling, rest) => (.number spelling, rest) := by
  rw [readValue, skipBlanks_cons (isBlank_of_startsNumber starts)]
  -- No other document begins with the first byte of a number.
  split
  case h_1 shape => cases shape
  case h_8 => rfl
  all_goals
    next shape =>
      cases shape
      cases starts

/-- A phrase begins with no closing bracket. -/
theorem Phrase.Spelled.exists_visible (spelled : phrase.Spelled text) (rest : Bytes) :
    ∃ byte behind, skipBlanks (text ++ rest) = byte :: behind ∧ byte ≠ 0x5D ∧ byte ≠ 0x7D := by
  induction spelled generalizing rest with
  | @blank phrase byte text blank _ ih =>
      rw [List.cons_append, skipBlanks_cons_of_blank blank]
      exact ih rest
  | null => exact ⟨0x6E, _, skipBlanks_cons rfl _, by decide, by decide⟩
  | bool value =>
      cases value with
      | true => exact ⟨0x74, _, skipBlanks_cons rfl _, by decide, by decide⟩
      | false => exact ⟨0x66, _, skipBlanks_cons rfl _, by decide, by decide⟩
  | string => exact ⟨0x22, _, skipBlanks_cons rfl _, by decide, by decide⟩
  | number numeral =>
      rcases numeral.exists_cons with ⟨byte, behind, rfl, starts⟩
      refine ⟨byte, _, skipBlanks_cons (isBlank_of_startsNumber starts) _, ?_, ?_⟩
      all_goals
        rintro rfl
        cases starts
  | noItems | array => exact ⟨0x5B, _, skipBlanks_cons rfl _, by decide, by decide⟩
  | noMembers | object => exact ⟨0x7B, _, skipBlanks_cons rfl _, by decide, by decide⟩
  | lastItem _ _ ih =>
      rw [List.append_assoc]
      exact ih _
  | item _ _ _ ih =>
      rw [List.append_assoc]
      exact ih _
  | lastMember named | member named =>
      rcases named with ⟨_, _⟩
      exact ⟨0x22, _, skipBlanks_cons rfl _, by decide, by decide⟩

/-- The reader takes a phrase from wherever it stands, as long as it may call itself often
enough.  What stands behind a number ends it. -/
def Phrase.Readable : Phrase → Bytes → Prop
  | .value document, text => ∀ fuel rest, text.length ≤ fuel →
      (∀ spelling, document = .number spelling → Ends rest) →
      readValue fuel (text ++ rest) = some (document, rest)
  | .items contents, text => ∀ fuel rest, text.length ≤ fuel →
      readItems fuel (text ++ rest) = some (contents, rest)
  | .members contents, text => ∀ fuel rest, text.length ≤ fuel →
      readMembers fuel (text ++ rest) = some (contents, rest)

theorem ends_of_blank (blank : Blank blanks) (other : continues byte = false) (rest : Bytes) :
    Ends (blanks ++ byte :: rest) := by
  intro next member
  cases blanks with
  | nil =>
      cases member
      exact other
  | cons first blanks =>
      cases member
      have blank := blank _ List.mem_cons_self
      simp only [isBlank, Bool.or_eq_true, beq_iff_eq] at blank
      rcases blank with ((rfl | rfl) | rfl) | rfl <;> rfl

theorem readWord_append (word : String) (document : Json) (rest : Bytes) :
    readWord word document (Bytes.ofText word ++ rest) = some (document, rest) := by
  rw [readWord, if_pos (List.isPrefixOf_iff_prefix.mpr (List.prefix_append _ _)),
    List.drop_left]

theorem Phrase.Readable.blank_cons (readable : phrase.Readable text)
    (blank : isBlank byte = true) : phrase.Readable (byte :: text) := by
  cases phrase with
  | value document =>
      intro fuel rest enough ends
      rw [List.cons_append, readValue_blank blank]
      exact readable fuel rest (Nat.le_of_succ_le enough) ends
  | items found =>
      intro fuel rest enough
      rw [List.cons_append, readItems_blank blank]
      exact readable fuel rest (Nat.le_of_succ_le enough)
  | members found =>
      intro fuel rest enough
      rw [List.cons_append, readMembers_blank blank]
      exact readable fuel rest (Nat.le_of_succ_le enough)

/-- Every rule takes a byte at least, so the bytes of a phrase are calls enough for it. -/
theorem Phrase.Spelled.readable (spelled : phrase.Spelled text) : phrase.Readable text := by
  induction spelled with
  | blank blank _ ih => exact ih.blank_cons blank
  | null =>
      rintro (_ | fuel) rest enough _
      · cases enough
      · exact readWord_append "null" .null rest
  | bool value =>
      rintro (_ | fuel) rest enough _
      · cases value <;> cases enough
      · cases value with
        | true => exact readWord_append "true" (.bool true) rest
        | false => exact readWord_append "false" (.bool false) rest
  | @string spelling quotable =>
      rintro (_ | fuel) rest enough _
      · cases enough
      · have read := readString_append quotable rest
        rw [List.cons_append, readValue, skipBlanks_cons rfl]
        simp [read]
  | @number spelling numeral =>
      rintro (_ | fuel) rest enough ends
      · rcases numeral.exists_cons with ⟨_, _, rfl, _⟩
        cases enough
      · have read := readNumber_append numeral (ends spelling rfl)
        rcases numeral.exists_cons with ⟨byte, behind, rfl, starts⟩
        rw [List.cons_append] at read ⊢
        rw [readValue_number starts, read]
        rfl
  | @noItems blanks blank =>
      rintro (_ | fuel) rest enough _
      · cases enough
      · have bracket := skipBlanks_append_cons blank 0x5D rfl rest
        rw [List.cons_append, readValue, skipBlanks_cons rfl]
        simp [bracket]
  | @array found text content ih =>
      rintro (_ | fuel) rest enough _
      · cases enough
      · rcases content.exists_visible rest with ⟨byte, behind, visible, noBracket, _⟩
        have read := ih fuel rest (Nat.le_of_succ_le_succ enough)
        rw [← readItems_skipBlanks, visible] at read
        rw [List.cons_append, readValue, skipBlanks_cons rfl]
        simp [visible, noBracket, read]
  | @noMembers blanks blank =>
      rintro (_ | fuel) rest enough _
      · cases enough
      · have brace := skipBlanks_append_cons blank 0x7D rfl rest
        rw [List.cons_append, readValue, skipBlanks_cons rfl]
        simp [brace]
  | @object found text content ih =>
      rintro (_ | fuel) rest enough _
      · cases enough
      · rcases content.exists_visible rest with ⟨byte, behind, visible, _, noBrace⟩
        have read := ih fuel rest (Nat.le_of_succ_le_succ enough)
        rw [← readMembers_skipBlanks, visible] at read
        rw [List.cons_append, readValue, skipBlanks_cons rfl]
        simp [visible, noBrace, read]
  | @lastItem item text blanks first blank ih =>
      rintro (_ | fuel) rest enough
      · simp at enough
      · have read := ih fuel (blanks ++ 0x5D :: rest) (by simp at enough; omega)
          fun _ _ => ends_of_blank blank rfl rest
        have bracket := skipBlanks_append_cons blank 0x5D rfl rest
        simp [readItems, read, bracket]
  | @item item found text blanks others first blank _ ih ihOthers =>
      rintro (_ | fuel) rest enough
      · simp at enough
      · simp only [List.length_append, List.length_cons] at enough
        have read := ih fuel (blanks ++ 0x2C :: (others ++ rest)) (by omega)
          fun _ _ => ends_of_blank blank rfl _
        have comma := skipBlanks_append_cons blank 0x2C rfl (others ++ rest)
        have next := ihOthers fuel rest (by omega)
        simp [readItems, read, comma, next]
  | @lastMember name label value text blanks named first blank ih =>
      rintro (_ | fuel) rest enough
      · simp at enough
      · have read := ih fuel (blanks ++ 0x7D :: rest) (by simp at enough; omega)
          fun _ _ => ends_of_blank blank rfl rest
        have brace := skipBlanks_append_cons blank 0x7D rfl rest
        simp [readMembers, readName_append named, read, brace]
  | @member name label value found text blanks others named first blank _ ih ihOthers =>
      rintro (_ | fuel) rest enough
      · simp at enough
      · simp only [List.length_append, List.length_cons] at enough
        have read := ih fuel (blanks ++ 0x2C :: (others ++ rest)) (by omega)
          fun _ _ => ends_of_blank blank rfl _
        have comma := skipBlanks_append_cons blank 0x2C rfl (others ++ rest)
        have next := ihOthers fuel rest (by omega)
        simp [readMembers, readName_append named, read, comma, next]

/-! ## Nothing else is read -/

/-- What a reader takes from the front of a byte string is a phrase. -/
def Recognizes (read : Bytes → Option (Found × Bytes)) (phrase : Found → Phrase) : Prop :=
  ∀ ⦃bytes found rest⦄, read bytes = some (found, rest) →
    ∃ text, bytes = text ++ rest ∧ (phrase found).Spelled text

theorem Phrase.Spelled.blank_append (spelled : phrase.Spelled text) (blank : Blank blanks) :
    phrase.Spelled (blanks ++ text) := by
  induction blanks with
  | nil => exact spelled
  | cons byte blanks ih =>
      have ⟨first, others⟩ := List.forall_mem_cons.mp blank
      exact .blank first (ih others)

theorem label_of_readName {name : Bytes} (read : readName bytes = some (name, rest)) :
    ∃ blanks label, Blank blanks ∧ Label name label ∧ bytes = blanks ++ (label ++ rest) := by
  rcases exists_blank bytes with ⟨blanks, blank, split⟩
  unfold readName at read
  split at read
  next behind quote =>
    rcases Option.bind_eq_some_iff.mp read with ⟨⟨spelling, after⟩, string, ended⟩
    rcases quotable_of_readString string with ⟨rfl, quotable⟩
    rcases exists_blank after with ⟨between, blankBetween, joined⟩
    dsimp only at ended
    split at ended
    next last colon =>
      cases ended
      refine ⟨blanks, _, blank, .colon quotable blankBetween, ?_⟩
      rw [split, quote, joined, colon]
      simp
    next => cases ended
  next => cases read

theorem eq_of_readWord {word : String} {document found : Json}
    (read : readWord word document bytes = some (found, rest)) :
    found = document ∧ bytes = Bytes.ofText word ++ rest := by
  rw [readWord] at read
  split at read
  next starts =>
    cases read
    exact ⟨rfl, (List.prefix_iff_eq_append.mp (List.isPrefixOf_iff_prefix.mp starts)).symm⟩
  next => cases read

theorem recognizes_value (items : Recognizes (readItems fuel) .items)
    (members : Recognizes (readMembers fuel) .members) :
    Recognizes (readValue (fuel + 1)) .value := by
  intro bytes document rest read
  rcases exists_blank bytes with ⟨blanks, blank, joined⟩
  -- The blanks in front aside, the first byte tells which rule was used.
  suffices spelled : ∃ text, skipBlanks bytes = text ++ rest ∧
      (Phrase.value document).Spelled text by
    rcases spelled with ⟨text, visible, spelled⟩
    exact ⟨blanks ++ text, by rw [joined, visible, List.append_assoc],
      spelled.blank_append blank⟩
  rw [readValue] at read
  split at read
  next => cases read
  next behind first =>
    rcases eq_of_readWord read with ⟨rfl, shape⟩
    exact ⟨_, first.trans shape, .null⟩
  next behind first =>
    rcases eq_of_readWord read with ⟨rfl, shape⟩
    exact ⟨_, first.trans shape, .bool true⟩
  next behind first =>
    rcases eq_of_readWord read with ⟨rfl, shape⟩
    exact ⟨_, first.trans shape, .bool false⟩
  next behind first =>
    rcases Option.map_eq_some_iff.mp read with ⟨⟨spelling, after⟩, string, same⟩
    cases same
    rcases quotable_of_readString string with ⟨rfl, quotable⟩
    exact ⟨_, by rw [first]; simp, .string quotable⟩
  next behind first =>
    rcases exists_blank behind with ⟨between, blankBetween, inside⟩
    split at read
    next after bracket =>
      cases read
      exact ⟨_, by rw [first, inside, bracket]; simp, .noItems blankBetween⟩
    next =>
      rcases Option.map_eq_some_iff.mp read with ⟨⟨found, after⟩, read, same⟩
      cases same
      rw [readItems_skipBlanks] at read
      rcases items read with ⟨text, rfl, content⟩
      exact ⟨_, first, .array content⟩
  next behind first =>
    rcases exists_blank behind with ⟨between, blankBetween, inside⟩
    split at read
    next after brace =>
      cases read
      exact ⟨_, by rw [first, inside, brace]; simp, .noMembers blankBetween⟩
    next =>
      rcases Option.map_eq_some_iff.mp read with ⟨⟨found, after⟩, read, same⟩
      cases same
      rw [readMembers_skipBlanks] at read
      rcases members read with ⟨text, rfl, content⟩
      exact ⟨_, first, .object content⟩
  next =>
    rcases Option.map_eq_some_iff.mp read with ⟨⟨spelling, after⟩, read, same⟩
    cases same
    rcases numeral_of_readNumber read with ⟨shape, numeral⟩
    exact ⟨_, shape, .number numeral⟩

theorem recognizes_items (value : Recognizes (readValue fuel) .value)
    (items : Recognizes (readItems fuel) .items) :
    Recognizes (readItems (fuel + 1)) .items := by
  intro bytes found rest read
  rw [readItems] at read
  rcases Option.bind_eq_some_iff.mp read with ⟨⟨item, after⟩, first, ended⟩
  rcases value first with ⟨text, rfl, spelled⟩
  rcases exists_blank after with ⟨blanks, blank, joined⟩
  dsimp only at ended
  split at ended
  next behind comma =>
    rcases Option.bind_eq_some_iff.mp ended with ⟨⟨others, last⟩, next, same⟩
    cases same
    rcases items next with ⟨text, rfl, content⟩
    exact ⟨_, by rw [joined, comma]; simp, .item spelled blank content⟩
  next behind bracket =>
    cases ended
    exact ⟨_, by rw [joined, bracket]; simp, .lastItem spelled blank⟩
  next => cases ended

theorem recognizes_members (value : Recognizes (readValue fuel) .value)
    (members : Recognizes (readMembers fuel) .members) :
    Recognizes (readMembers (fuel + 1)) .members := by
  intro bytes found rest read
  rw [readMembers] at read
  rcases Option.bind_eq_some_iff.mp read with ⟨⟨name, unnamed⟩, named, unlabelled⟩
  rcases Option.bind_eq_some_iff.mp unlabelled with ⟨⟨item, after⟩, first, ended⟩
  rcases label_of_readName named with ⟨before, label, blankBefore, labelled, rfl⟩
  rcases value first with ⟨text, rfl, spelled⟩
  rcases exists_blank after with ⟨blanks, blank, joined⟩
  dsimp only at ended
  split at ended
  next behind comma =>
    rcases Option.bind_eq_some_iff.mp ended with ⟨⟨others, last⟩, next, same⟩
    cases same
    rcases members next with ⟨rest, rfl, content⟩
    exact ⟨_, by rw [joined, comma]; simp,
      (Spelled.member labelled spelled blank content).blank_append blankBefore⟩
  next behind brace =>
    cases ended
    exact ⟨_, by rw [joined, brace]; simp,
      (Spelled.lastMember labelled spelled blank).blank_append blankBefore⟩
  next => cases ended

/-- However often the readers may call themselves, they take phrases only. -/
theorem recognizes (fuel : Nat) : Recognizes (readValue fuel) .value ∧
    Recognizes (readItems fuel) .items ∧ Recognizes (readMembers fuel) .members := by
  induction fuel with
  | zero =>
      refine ⟨?_, ?_, ?_⟩
      · intro _ _ _ read
        rw [readValue] at read
        cases read
      · intro _ _ _ read
        rw [readItems] at read
        cases read
      · intro _ _ _ read
        rw [readMembers] at read
        cases read
  | succ fuel ih =>
      rcases ih with ⟨value, items, members⟩
      exact ⟨recognizes_value items members, recognizes_items value items,
        recognizes_members value members⟩

/-! ## Documents wherever they stand -/

/-- A document that ends itself.  Only a number does not. -/
def Closed (document : Json) : Prop := ∀ spelling, document ≠ .number spelling

variable {document found : Json}

/-- A text of the grammar is read up to its end, whatever stands behind it. -/
theorem read_append (spelled : (Phrase.value document).Spelled text) (closed : document.Closed)
    (rest : Bytes) : read (text ++ rest) = some (document, rest) := by
  refine spelled.readable _ rest ?_ fun spelling same => absurd same (closed spelling)
  rw [List.length_append]
  omega

theorem spelled_of_read (taken : read bytes = some (found, rest)) :
    ∃ text, bytes = text ++ rest ∧ (Phrase.value found).Spelled text :=
  (recognizes _).1 taken

/-- No document can be read from a text of the grammar that has been cut off. -/
theorem read_ne_of_cut {front missing : Bytes}
    (spelled : (Phrase.value document).Spelled (front ++ missing)) (closed : document.Closed)
    (short : missing ≠ []) (foundClosed : found.Closed) (rest : Bytes) :
    read front ≠ some (found, rest) := by
  intro taken
  rcases spelled_of_read taken with ⟨text, rfl, part⟩
  have whole := read_append spelled closed []
  have parted := read_append part foundClosed (rest ++ missing)
  rw [List.append_nil, List.append_assoc, parted] at whole
  have nothing : rest ++ missing = [] := congrArg Prod.snd (Option.some.inj whole)
  exact short (List.append_eq_nil_iff.mp nothing).2

end Json

end LedgerNode
