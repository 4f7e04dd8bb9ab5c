import Mathlib.Data.List.Forall2
import Mathlib.Data.List.TakeWhile
import LedgerNode.Text.Blank

namespace LedgerNode

/-!
# Lines, and what is written on them

A text has lines between its line feeds, and a line has a part without the blanks at
both ends.  Both are said here without the functions that find them, and the functions
find what is said.  The rows of a text are what is written on the lines that are not
blank.

A row stays what it is when blanks are put around it.  As the line feed and the return
of the carriage are blanks, this covers blank lines and every way to end a line.
-/

namespace Text

/-! ## Lines -/

/-- The text has these lines. -/
structure Splits (text : List Char) (lines : List (List Char)) : Prop where
  nonempty : lines ≠ []
  apart : ∀ line ∈ lines, '\n' ∉ line
  joined : ['\n'].intercalate lines = text

theorem splitOn_eq_splitOnP (test : Char → Bool) (characters : List Char) :
    splitOn test characters = characters.splitOnP test := by
  induction characters with
  | nil => rfl
  | cons character rest ih =>
      rw [splitOn, List.splitOnP_cons_eq_if_modifyHead, ih]
      split
      · rfl
      · cases parts : List.splitOnP test rest with
        | nil => exact absurd parts (List.splitOnP_ne_nil test rest)
        | cons part others => rfl

theorem eq_false_of_mem_splitOn {test : Char → Bool} {characters part : List Char}
    (member : part ∈ splitOn test characters) : ∀ character ∈ part, test character = false := by
  induction characters generalizing part with
  | nil =>
      rw [splitOn, List.mem_singleton] at member
      rw [member]
      exact List.forall_mem_nil _
  | cons head rest ih =>
      rw [splitOn] at member
      split at member
      next =>
          rcases List.mem_cons.mp member with rfl | inside
          · exact List.forall_mem_nil _
          · exact ih inside
      next fails =>
          have free : test head = false := Bool.eq_false_iff.mpr fails
          split at member
          next =>
              rw [List.mem_singleton.mp member]
              exact List.forall_mem_singleton.mpr free
          next first others parts =>
              rw [parts] at ih
              rcases List.mem_cons.mp member with rfl | inside
              · exact List.forall_mem_cons.mpr ⟨free, ih List.mem_cons_self⟩
              · exact ih (List.mem_cons_of_mem _ inside)

theorem splitOn_eq_iff {text : List Char} {lines : List (List Char)} :
    splitOn (· == '\n') text = lines ↔ Splits text lines := by
  have listed : splitOn (· == '\n') text = text.splitOn '\n' := splitOn_eq_splitOnP _ text
  constructor
  · rintro rfl
    refine ⟨?_, ?_, ?_⟩
    · rw [listed]
      exact List.splitOnP_ne_nil _ _
    · intro line member inside
      cases eq_false_of_mem_splitOn member _ inside
    · rw [listed]
      exact List.intercalate_splitOn '\n'
  · intro splits
    rw [listed, ← splits.joined]
    exact List.splitOn_intercalate '\n' splits.apart splits.nonempty

/-! ## Blanks at both ends -/

/-- All characters are blanks. -/
def Blank (characters : List Char) : Prop := ∀ character ∈ characters, isBlank character = true

/-- The part is the line without the blanks at both ends. -/
structure Trims (line part : List Char) : Prop where
  around : ∃ before after, line = before ++ (part ++ after) ∧ Blank before ∧ Blank after
  front : ∀ character ∈ part.head?, isBlank character = false
  back : ∀ character ∈ part.getLast?, isBlank character = false

theorem dropWhile_of_front {part : List Char} (nonempty : part ≠ [])
    (front : ∀ character ∈ part.head?, isBlank character = false) (rest : List Char) :
    (part ++ rest).dropWhile isBlank = part ++ rest := by
  cases part with
  | nil => exact absurd rfl nonempty
  | cons head part =>
      rw [List.cons_append, List.dropWhile_cons_of_neg]
      exact Bool.eq_false_iff.mp (front head rfl)

theorem Trims.trim_eq {line part : List Char} (trims : Trims line part) : trim line = part := by
  rcases trims.around with ⟨before, after, rfl, blank, behind⟩
  rw [trim, List.dropWhile_append_of_pos blank]
  by_cases nothing : part = []
  · subst nothing
    rw [List.nil_append, List.dropWhile_eq_nil_iff.mpr behind]
    rfl
  · have back : ∀ character ∈ part.reverse.head?, isBlank character = false := by
      rw [List.head?_reverse]
      exact trims.back
    have reversed : part.reverse.dropWhile isBlank = part.reverse := by
      have kept := dropWhile_of_front (mt List.reverse_eq_nil_iff.mp nothing) back []
      rwa [List.append_nil] at kept
    rw [dropWhile_of_front nothing trims.front, List.reverse_append,
      List.dropWhile_append_of_pos fun character member => behind _ (List.mem_reverse.mp member),
      reversed, List.reverse_reverse]

/-- What is left without the blanks in front begins with none. -/
theorem front_dropWhile (characters : List Char) :
    ∀ character ∈ (characters.dropWhile isBlank).head?, isBlank character = false := by
  intro character first
  have nonempty : characters.dropWhile isBlank ≠ [] :=
    List.ne_nil_of_mem (List.mem_of_mem_head? first)
  have visible := List.head_dropWhile_not isBlank nonempty
  rwa [List.head_of_mem_head? first] at visible

theorem trims_trim (line : List Char) : Trims line (trim line) := by
  let middle := line.dropWhile isBlank
  let part := middle.reverse.dropWhile isBlank
  have ends : middle = part.reverse ++ (middle.reverse.takeWhile isBlank).reverse := by
    rw [← List.reverse_append, List.takeWhile_append_dropWhile, List.reverse_reverse]
  refine ⟨⟨line.takeWhile isBlank, (middle.reverse.takeWhile isBlank).reverse, ?_, ?_, ?_⟩, ?_, ?_⟩
  · change line = line.takeWhile isBlank ++ (part.reverse ++ _)
    rw [← ends, List.takeWhile_append_dropWhile]
  · exact fun _ => List.mem_takeWhile_imp
  · exact fun _ member => List.mem_takeWhile_imp (List.mem_reverse.mp member)
  · intro character first
    apply front_dropWhile line
    change character ∈ middle.head?
    rw [ends]
    exact List.mem_head?_append_of_mem_head? first
  · intro character last
    apply front_dropWhile middle.reverse
    change character ∈ part.reverse.getLast? at last
    rwa [List.getLast?_reverse] at last

theorem trim_eq_iff {line part : List Char} : trim line = part ↔ Trims line part :=
  ⟨fun same => same ▸ trims_trim line, Trims.trim_eq⟩

/-! ## Rows -/

/-- What is written on the lines of the text that are not blank. -/
def Shows (text : List Char) (rows : List (List Char)) : Prop :=
  ∃ lines parts, Splits text lines ∧ List.Forall₂ Trims lines parts ∧
    parts.filter (!·.isEmpty) = rows

/-- The rows of a text, as they are found. -/
def rows (text : List Char) : List (List Char) :=
  ((splitOn (· == '\n') text).map trim).filter (!·.isEmpty)

theorem rows_eq_iff {text : List Char} {parts : List (List Char)} :
    rows text = parts ↔ Shows text parts := by
  have trimmed {lines parts : List (List Char)} :
      List.Forall₂ Trims lines parts ↔ lines.map trim = parts := by
    rw [← List.forall₂_eq_eq_eq, List.forall₂_map_left_iff]
    constructor
    · exact fun each => each.imp fun _ _ => trim_eq_iff.mpr
    · exact fun each => each.imp fun _ _ => trim_eq_iff.mp
  constructor
  · rintro rfl
    exact ⟨_, _, splitOn_eq_iff.mp rfl, trimmed.mpr rfl, rfl⟩
  · rintro ⟨lines, _, splits, each, rfl⟩
    rw [rows, splitOn_eq_iff.mpr splits, trimmed.mp each]

/-! ## Blanks around rows -/

theorem rows_cons_of_blank {character : Char} (blank : isBlank character = true)
    (rest : List Char) : rows (character :: rest) = rows rest := by
  rw [rows, rows, splitOn]
  split
  next => rfl
  next =>
      -- the blank is in front of the first line, where it does not count
      have first (part : List Char) : trim (character :: part) = trim part := by
        rw [trim, List.dropWhile_cons_of_pos blank]
        rfl
      cases splitOn (· == '\n') rest with
      | nil =>
          rw [List.map_singleton, first]
          rfl
      | cons part parts => rw [List.map_cons, List.map_cons, first]

theorem rows_append_of_blank {gap : List Char} (blank : Blank gap) (rest : List Char) :
    rows (gap ++ rest) = rows rest := by
  induction gap with
  | nil => rfl
  | cons character gap ih =>
      rcases List.forall_mem_cons.mp blank with ⟨first, others⟩
      rw [List.cons_append, rows_cons_of_blank first, ih others]

/-- Something is written, and there is no blank in it. -/
structure Solid (part : List Char) : Prop where
  nonempty : part ≠ []
  visible : ∀ character ∈ part, isBlank character = false

namespace Solid

variable {part spaces : List Char}

theorem trim_append (solid : Solid part) (blank : Blank spaces) : trim (part ++ spaces) = part := by
  refine Trims.trim_eq ⟨⟨[], spaces, rfl, List.forall_mem_nil _, blank⟩, ?_, ?_⟩
  · exact fun _ first => solid.visible _ (List.mem_of_mem_head? first)
  · exact fun _ last => solid.visible _ (List.mem_of_getLast? last)

/-- No line ends inside. -/
theorem plain (solid : Solid part) (one : '\n' ∉ spaces) :
    ∀ character ∈ part ++ spaces, (character == '\n') = false := by
  intro character member
  apply beq_false_of_ne
  rintro rfl
  rcases List.mem_append.mp member with inside | behind
  · cases solid.visible _ inside
  · exact one behind

theorem rows_append (solid : Solid part) (blank : Blank spaces) (one : '\n' ∉ spaces) :
    rows (part ++ spaces) = [part] := by
  rw [rows, splitOn_eq_splitOnP, List.splitOnP_eq_singleton (solid.plain one),
    List.map_singleton, solid.trim_append blank]
  exact List.filter_cons_of_pos (by simpa using solid.nonempty)

theorem rows_append_newline (solid : Solid part) (blank : Blank spaces) (one : '\n' ∉ spaces)
    (rest : List Char) : rows (part ++ (spaces ++ '\n' :: rest)) = part :: rows rest := by
  rw [rows, splitOn_eq_splitOnP, ← List.append_assoc,
    List.splitOnP_append_cons_of_forall_mem (solid.plain one) '\n' rfl, List.map_cons,
    solid.trim_append blank, rows, splitOn_eq_splitOnP]
  exact List.filter_cons_of_pos (by simpa using solid.nonempty)

/-- Blanks with the end of a line among them end the row. -/
theorem rows_append_gap (solid : Solid part) {gap : List Char} (blank : Blank gap)
    (ends : '\n' ∈ gap) (rest : List Char) : rows (part ++ (gap ++ rest)) = part :: rows rest := by
  rcases List.eq_append_cons_of_mem ends with ⟨spaces, more, rfl, one⟩
  rcases List.forall_mem_append.mp blank with ⟨before, after⟩
  rw [List.append_assoc, List.cons_append, solid.rows_append_newline before one,
    rows_append_of_blank (List.forall_mem_cons.mp after).2]

end Solid

/-- The two parts are the first two rows of the text: blanks and blank lines may stand
anywhere around them, and anything may follow on further lines. -/
def Adorns (text first second : List Char) : Prop :=
  ∃ before between spaces rest,
    text = before ++ (first ++ (between ++ (second ++ (spaces ++ rest)))) ∧
      Blank before ∧ Blank between ∧ '\n' ∈ between ∧ Blank spaces ∧
      (rest = [] ∨ ∃ more, rest = '\n' :: more)

theorem Adorns.exists_rows {text first second : List Char} (adorns : Adorns text first second)
    (one : Solid first) (two : Solid second) : ∃ others, rows text = first :: second :: others := by
  rcases adorns with ⟨before, between, spaces, rest, rfl, blank, gap, ends, behind, last⟩
  rw [rows_append_of_blank blank, one.rows_append_gap gap ends]
  by_cases inside : '\n' ∈ spaces
  · exact ⟨_, by rw [two.rows_append_gap behind inside]⟩
  · rcases last with rfl | ⟨more, rfl⟩
    · exact ⟨_, by rw [List.append_nil, two.rows_append behind inside]⟩
    · exact ⟨_, by rw [two.rows_append_newline behind inside]⟩

end Text

end LedgerNode
