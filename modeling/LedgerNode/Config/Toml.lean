import LedgerNode.Text.Blank

namespace LedgerNode

/-!
# Settings documents

A settings document is a table of named values.  It is written as lines that
set a value under a key, and of headers that open a table for the lines behind
them.  A key may be a path through tables, which are made on the way.

A table can be made by a header, by a path, or in the place of a value.  What
may be added to it later depends on that, so each table remembers how it was
made.
-/

/-- How a table was made. -/
inductive TableOrigin where
  /-- A header opened a table inside this one. -/
  | implied
  | header
  /-- The path of a key goes through it. -/
  | dotted
  /-- It stands in the place of a value and is complete. -/
  | inline
deriving DecidableEq

/-- A value of a settings document.  Numbers with a fraction and points in
time are told apart from other values, but not read. -/
inductive Toml where
  | text (value : String)
  | integer (value : Int)
  | float
  | boolean (value : Bool)
  | moment
  | array (items : List Toml)
  | table (origin : TableOrigin) (entries : List (String × Toml))
  /-- Tables under one header, the last of which is open. -/
  | tables (earlier : List (List (String × Toml))) (last : List (String × Toml))

namespace Toml

/-- Named values. -/
abbrev Entries := List (String × Toml)

/-- Put a value under a name, in the place of the value that was there. -/
def set (name : String) (value : Toml) : Entries → Entries
  | [] => [(name, value)]
  | entry :: rest =>
    if entry.1 = name then (name, value) :: rest else entry :: set name value rest

/-! ## Placing values in tables -/

/-- Change the table at a path, which is made where it is missing. -/
def withTable (change : Entries → Option Entries) : List String → Entries → Option Entries
  | [], entries => change entries
  | name :: path, entries =>
    match entries.lookup name with
    | none => do
      let inner ← withTable change path []
      some (set name (.table .implied inner) entries)
    | some (.table origin inner) =>
      if origin = .inline then none
      else do
        let inner ← withTable change path inner
        some (set name (.table origin inner) entries)
    | some (.tables earlier last) => do
      let last ← withTable change path last
      some (set name (.tables earlier last) entries)
    | some _ => none

/-- Open a table by its name.  A table that was only implied becomes a table of
its own; any other one cannot be opened again. -/
def openTable (name : String) (entries : Entries) : Option Entries :=
  match entries.lookup name with
  | none => some (set name (.table .header []) entries)
  | some (.table .implied inner) => some (set name (.table .header inner) entries)
  | some _ => none

/-- Begin another table of a list of tables. -/
def openNextTable (name : String) (entries : Entries) : Option Entries :=
  match entries.lookup name with
  | none => some (set name (.tables [] []) entries)
  | some (.tables earlier last) => some (set name (.tables (earlier ++ [last]) []) entries)
  | some _ => none

/-- Set a value under a key, which may be a path.  `isPath` tells whether the
table was reached over a path, and `isDotted` whether it was made by one. -/
def setAt (value : Toml) (isPath isDotted : Bool) : List String → Entries → Option Entries
  | [], _ => none
  | [name], entries =>
    if isPath && !isDotted then none
    else match entries.lookup name with
      | none => some (set name value entries)
      | some _ => none
  | name :: path, entries =>
    match entries.lookup name with
    | none => do
      let inner ← setAt value true true path []
      some (set name (.table .dotted inner) entries)
    | some (.table origin inner) =>
      if origin = .header ∨ origin = .inline then none
      else do
        let inner ← setAt value true (origin = .dotted) path inner
        some (set name (.table origin inner) entries)
    | some (.tables earlier last) => do
      let last ← setAt value true false path last
      some (set name (.tables earlier last) entries)
    | some _ => none

/-! ## Reading characters -/

/-- A blank inside a line. -/
def isSpace (character : Char) : Bool := character == ' ' || character == '\t'

/-- The characters after the leading blanks of a line. -/
def skipSpaces (characters : List Char) : List Char := characters.dropWhile isSpace

/-- A character that may stand in a comment or, with exceptions, in a text. -/
def isPlain (character : Char) : Bool :=
  character == '\t' || (0x20 ≤ character.toNat && character.toNat != 0x7F)

/-- The characters behind a comment, if one comes next. -/
def skipComment : List Char → List Char
  | '#' :: rest => rest.dropWhile isPlain
  | characters => characters

/-- Read the end of a line, after blanks and a comment. -/
def readLineEnd (characters : List Char) : Option (List Char) :=
  match skipComment (skipSpaces characters) with
  | [] => some []
  | '\n' :: rest => some rest
  | '\r' :: '\n' :: rest => some rest
  | _ => none

/-- The number that hexadecimal digits spell. -/
def readHex (digits : List Char) : Option Nat :=
  digits.foldlM (fun number digit =>
    let code := digit.toNat
    if 48 ≤ code ∧ code ≤ 57 then some (16 * number + (code - 48))
    else if 97 ≤ code ∧ code ≤ 102 then some (16 * number + (code - 87))
    else if 65 ≤ code ∧ code ≤ 70 then some (16 * number + (code - 55))
    else none) 0

def character? (number : Nat) : Option Char :=
  if number.isValidChar then some (Char.ofNat number) else none

/-- Read what follows a backslash. -/
def readEscape : List Char → Option (Char × List Char)
  | 'b' :: rest => some ('\x08', rest)
  | 't' :: rest => some ('\t', rest)
  | 'n' :: rest => some ('\n', rest)
  | 'f' :: rest => some ('\x0C', rest)
  | 'r' :: rest => some ('\r', rest)
  | '"' :: rest => some ('"', rest)
  | '\\' :: rest => some ('\\', rest)
  | 'u' :: a :: b :: c :: d :: rest => do
    some (← character? (← readHex [a, b, c, d]), rest)
  | 'U' :: a :: b :: c :: d :: e :: f :: g :: h :: rest => do
    some (← character? (← readHex [a, b, c, d, e, f, g, h]), rest)
  | _ => none

/-- Read a text on one line up to its closing quote, with at most `fuel`
characters. -/
def readLineText (quote : Char) (escapes : Bool) :
    (fuel : Nat) → List Char → Option (List Char × List Char)
  | 0, _ => none
  | _, [] => none
  | fuel + 1, character :: rest =>
    if character = quote then some ([], rest)
    else if escapes ∧ character = '\\' then do
      let (character, rest) ← readEscape rest
      let (characters, rest) ← readLineText quote escapes fuel rest
      some (character :: characters, rest)
    else if isPlain character then do
      let (characters, rest) ← readLineText quote escapes fuel rest
      some (character :: characters, rest)
    else none

/-- A character that counts as empty space between lines. -/
def isLineSpace (character : Char) : Bool :=
  isSpace character || character == '\n' || character == '\r'

def endsLine (characters : List Char) : Bool :=
  match skipSpaces characters with
  | '\n' :: _ => true
  | '\r' :: '\n' :: _ => true
  | _ => false

/-- Read a text over several lines up to its three closing quotes, with at most
`fuel` characters.  One or two quotes in front of them belong to the text. -/
def readBlockText (quote : Char) (escapes : Bool) :
    (fuel : Nat) → List Char → Option (List Char × List Char)
  | 0, _ => none
  | fuel + 1, characters =>
    let quotes := characters.takeWhile (· == quote)
    if 3 ≤ quotes.length then
      let kept := min (quotes.length - 3) 2
      some (quotes.take kept, characters.drop (kept + 3))
    else match characters with
      | [] => none
      | '\r' :: '\n' :: rest => do
        let (behind, rest) ← readBlockText quote escapes fuel rest
        some ('\r' :: '\n' :: behind, rest)
      | character :: rest =>
        if escapes ∧ character = '\\' then
          if endsLine rest then readBlockText quote escapes fuel (rest.dropWhile isLineSpace)
          else do
            let (character, rest) ← readEscape rest
            let (behind, rest) ← readBlockText quote escapes fuel rest
            some (character :: behind, rest)
        else if isPlain character ∨ character = '\n' then do
          let (behind, rest) ← readBlockText quote escapes fuel rest
          some (character :: behind, rest)
        else none

/-- The characters after a line end that comes first. -/
def skipFirstLineEnd : List Char → List Char
  | '\n' :: rest => rest
  | '\r' :: '\n' :: rest => rest
  | characters => characters

/-- Read a text whose opening quote comes first. -/
def readText (quote : Char) (characters : List Char) : Option (String × List Char) := do
  let escapes := quote = '"'
  let fuel := characters.length + 1
  let (content, rest) ←
    if characters.take 3 = [quote, quote, quote] then
      readBlockText quote escapes fuel (skipFirstLineEnd (characters.drop 3))
    else readLineText quote escapes fuel (characters.drop 1)
  some (String.ofList content, rest)

/-! ## Reading keys -/

/-- A character of a key without quotes. -/
def isBare (character : Char) : Bool :=
  character.isAlphanum || character == '_' || character == '-'

def readName (characters : List Char) : Option (String × List Char) := do
  match characters with
  | '"' :: rest =>
    let (content, rest) ← readLineText '"' true (rest.length + 1) rest
    some (String.ofList content, rest)
  | '\'' :: rest =>
    let (content, rest) ← readLineText '\'' false (rest.length + 1) rest
    some (String.ofList content, rest)
  | _ =>
    let name := characters.takeWhile isBare
    if name.isEmpty then none else some (String.ofList name, characters.dropWhile isBare)

/-- Read a key, which is a path of at most `fuel` names. -/
def readKey : (fuel : Nat) → List Char → Option (List String × List Char)
  | 0, _ => none
  | fuel + 1, characters => do
    let (name, rest) ← readName (skipSpaces characters)
    match skipSpaces rest with
    | '.' :: rest =>
      let (path, rest) ← readKey fuel rest
      some (name :: path, rest)
    | rest => some ([name], rest)

/-! ## Reading values without quotes -/

/-- A character of a number, a truth value or a point in time. -/
def isWordPart (character : Char) : Bool :=
  character.isAlphanum || "+-_.:".contains character

/-- Digits of a class, with single underscores between them. -/
def isDigits (test : Char → Bool) (word : List Char) : Bool :=
  (Text.splitOn (· == '_') word).all fun part => !part.isEmpty && part.all test

/-- A number without its sign. -/
def unsigned : List Char → List Char
  | '+' :: rest => rest
  | '-' :: rest => rest
  | word => word

/-- A whole number in decimal digits, without a sign.  Zero stands alone. -/
def isWhole (word : List Char) : Bool :=
  word == ['0'] || (isDigits Char.isDigit word && word.head? != some '0')

/-- A number with a fraction, an exponent or both. -/
def isFloat (word : List Char) : Bool :=
  let word := unsigned word
  if word == "inf".toList || word == "nan".toList then true
  else
    let isExponent := fun character => character == 'e' || character == 'E'
    let mantissa := word.takeWhile (!isExponent ·)
    let exponent := word.dropWhile (!isExponent ·)
    let whole := mantissa.takeWhile (· != '.')
    let fraction := mantissa.dropWhile (· != '.')
    isWhole whole && (fraction.isEmpty || isDigits Char.isDigit (fraction.drop 1)) &&
      (exponent.isEmpty || isDigits Char.isDigit (unsigned (exponent.drop 1))) &&
      !(fraction.isEmpty && exponent.isEmpty)

/-- The number that digits spell in a base, underscores aside. -/
def ofDigits (radix : Nat) (digits : List Char) : Nat :=
  ((readHexDigits digits).foldl (fun number digit => radix * number + digit) 0)
where
  readHexDigits (digits : List Char) : List Nat :=
    digits.filterMap fun digit => if digit = '_' then none else readHex [digit]

def isOctal (character : Char) : Bool := '0' ≤ character && character ≤ '7'

def isBinary (character : Char) : Bool := character == '0' || character == '1'

/-- A hexadecimal digit. -/
def isHex (character : Char) : Bool := (readHex [character]).isSome

/-- The whole number that a word spells. -/
def wordInteger? : List Char → Option Int
  | '0' :: 'x' :: digits => if isDigits isHex digits then some (ofDigits 16 digits) else none
  | '0' :: 'o' :: digits => if isDigits isOctal digits then some (ofDigits 8 digits) else none
  | '0' :: 'b' :: digits => if isDigits isBinary digits then some (ofDigits 2 digits) else none
  | '-' :: digits => if isWhole digits then some (-(ofDigits 10 digits : Int)) else none
  | word => if isWhole (unsigned word) then some (ofDigits 10 (unsigned word)) else none

/-- The number of a group of digits of a fixed width. -/
def group? (width : Nat) (word : List Char) : Option Nat :=
  if word.length = width ∧ word.all Char.isDigit then some (ofDigits 10 word) else none

def daysIn (year month : Nat) : Nat :=
  if month = 2 then
    if year % 4 = 0 ∧ (year % 100 ≠ 0 ∨ year % 400 = 0) then 29 else 28
  else if month = 4 ∨ month = 6 ∨ month = 9 ∨ month = 11 then 30 else 31

/-- A day of a year. -/
def isDate (word : List Char) : Bool :=
  match (Text.splitOn (· == '-') word) with
  | [year, month, day] =>
    match group? 4 year, group? 2 month, group? 2 day with
    | some year, some month, some day =>
      1 ≤ month && month ≤ 12 && 1 ≤ day && day ≤ daysIn year month
    | _, _, _ => false
  | _ => false

/-- A time of a day, perhaps with parts of a second. -/
def isTime (word : List Char) : Bool :=
  match (Text.splitOn (· == ':') word) with
  | [hour, minute, second] =>
    let fraction := second.dropWhile (· != '.')
    match group? 2 hour, group? 2 minute, group? 2 (second.takeWhile (· != '.')) with
    | some hour, some minute, some second =>
      hour ≤ 23 && minute ≤ 59 && second ≤ 60 &&
        (fraction.isEmpty || (2 ≤ fraction.length && (fraction.drop 1).all Char.isDigit))
    | _, _, _ => false
  | _ => false

/-- A difference to universal time. -/
def isOffset (word : List Char) : Bool :=
  match word with
  | [] => true
  | ['Z'] => true
  | ['z'] => true
  | sign :: rest =>
    (sign == '+' || sign == '-') &&
      match (Text.splitOn (· == ':') rest) with
      | [hour, minute] =>
        match group? 2 hour, group? 2 minute with
        | some hour, some minute => hour ≤ 23 && minute ≤ 59
        | _, _ => false
      | _ => false

/-- A time of a day with a difference to universal time. -/
def isZonedTime (word : List Char) : Bool :=
  let isTimePart := fun character =>
    character.isDigit || character == ':' || character == '.'
  isTime (word.takeWhile isTimePart) && isOffset (word.dropWhile isTimePart)

/-- A point in time written as one word. -/
def isMoment (word : List Char) : Bool :=
  isDate word || isTime word ||
    (isDate (word.take 10) && (word[10]? == some 'T' || word[10]? == some 't') &&
      isZonedTime (word.drop 11))

/-- The value that a word spells. -/
def ofWord? (word : List Char) : Option Toml :=
  if word = "true".toList then some (.boolean true)
  else if word = "false".toList then some (.boolean false)
  else match wordInteger? word with
    | some number =>
      if -0x8000000000000000 ≤ number ∧ number < 0x8000000000000000 then
        some (.integer number)
      else none
    | none =>
      if isFloat word then some .float
      else if isMoment word then some .moment
      else none

/-- Read a value without quotes or brackets.  A blank may stand between a day
and a time. -/
def readWord (characters : List Char) : Option (Toml × List Char) := do
  let word := characters.takeWhile isWordPart
  let rest := characters.dropWhile isWordPart
  let value ← ofWord? word
  match isDate word, rest with
  | true, ' ' :: behind =>
    if isZonedTime (behind.takeWhile isWordPart) then
      some (.moment, behind.dropWhile isWordPart)
    else some (value, rest)
  | _, _ => some (value, rest)

/-! ## Reading values -/

/-- The characters after blanks, line ends and comments, of which there are at
most `fuel`. -/
def skipLines : (fuel : Nat) → List Char → List Char
  | 0, characters => characters
  | fuel + 1, characters =>
    match skipComment (skipSpaces characters) with
    | '\n' :: rest => skipLines fuel rest
    | '\r' :: '\n' :: rest => skipLines fuel rest
    | rest => rest

mutual

/-- Read a value with at most `fuel` nested calls. -/
def readValue : (fuel : Nat) → List Char → Option (Toml × List Char)
  | 0, _ => none
  | fuel + 1, characters =>
    match characters with
    | '"' :: _ => (readText '"' characters).map fun (content, rest) => (.text content, rest)
    | '\'' :: _ => (readText '\'' characters).map fun (content, rest) => (.text content, rest)
    | '[' :: rest => (readItems fuel rest).map fun (items, rest) => (.array items, rest)
    | '\x7b' :: rest =>
      match skipSpaces rest with
      | '\x7d' :: rest => some (.table .inline [], rest)
      | rest =>
        (readEntries fuel [] rest).map fun (entries, rest) => (.table .inline entries, rest)
    | _ => readWord characters

/-- Read the items of an array and its closing bracket.  A comma may follow
the last item. -/
def readItems : (fuel : Nat) → List Char → Option (List Toml × List Char)
  | 0, _ => none
  | fuel + 1, characters =>
    match skipLines characters.length characters with
    | ']' :: rest => some ([], rest)
    | characters => do
      let (item, rest) ← readValue fuel characters
      match skipLines rest.length rest with
      | ',' :: rest =>
        let (items, rest) ← readItems fuel rest
        some (item :: items, rest)
      | ']' :: rest => some ([item], rest)
      | _ => none

/-- Read the entries of a table in the place of a value, behind those that
were read before, and its closing brace. -/
def readEntries : (fuel : Nat) → Entries → List Char → Option (Entries × List Char)
  | 0, _, _ => none
  | fuel + 1, entries, characters => do
    let (key, rest) ← readKey characters.length characters
    match rest with
    | '=' :: rest =>
      let (value, rest) ← readValue fuel (skipSpaces rest)
      let entries ← setAt value false false key entries
      match skipSpaces rest with
      | ',' :: rest => readEntries fuel entries rest
      | '\x7d' :: rest => some (entries, rest)
      | _ => none
    | _ => none

end

/-! ## Reading documents -/

/-- Read a header up to its closing brackets.  The answer is the path of the
table. -/
def readHeader (closing : List Char) (characters : List Char) :
    Option (List String × List Char) := do
  let (path, rest) ← readKey characters.length characters
  if closing.isPrefixOf rest then
    some (path, ← readLineEnd (rest.drop closing.length))
  else none

/-- Read a line that sets a value in the table at a path. -/
def readSetting (path : List String) (root : Entries) (characters : List Char) :
    Option (Entries × List Char) := do
  let (key, rest) ← readKey characters.length characters
  match rest with
  | '=' :: rest =>
    let (value, rest) ← readValue (2 * rest.length + 1) (skipSpaces rest)
    let root ← withTable (setAt value false false key) path root
    some (root, ← readLineEnd rest)
  | _ => none

/-- Read the lines of a document, of which there are at most `fuel`, into the
tables that were read before.  The table at the given path is open. -/
def readLines : (fuel : Nat) → (path : List String) → Entries → List Char → Option Entries
  | 0, _, _, _ => none
  | fuel + 1, path, root, characters =>
    match skipLines characters.length characters with
    | [] => some root
    | '[' :: '[' :: rest => do
      let (path, rest) ← readHeader [']', ']'] rest
      let root ← withTable (openNextTable (path.getLast?.getD "")) path.dropLast root
      readLines fuel path root rest
    | '[' :: rest => do
      let (path, rest) ← readHeader [']'] rest
      let root ← withTable (openTable (path.getLast?.getD "")) path.dropLast root
      readLines fuel path root rest
    | characters => do
      let (root, rest) ← readSetting path root characters
      readLines fuel path root rest

/-- The document that a text spells. -/
def ofText? (text : String) : Option Toml :=
  let characters := text.toList
  (readLines (characters.length + 1) [] [] characters).map (.table .header)

/-! ## Fields -/

/-- The fields of a record with the given names.  An array gives them in their
order and may break off.  A point in time has none of them. -/
def fields? (names : List String) : Toml → Option (List (Option Toml))
  | .table _ entries => some (names.map fun name => entries.lookup name)
  | .array items => some (names.zipIdx.map fun entry => items[entry.2]?)
  | .tables earlier last =>
    let items := (earlier ++ [last]).map (.table .header)
    some (names.zipIdx.map fun entry => items[entry.2]?)
  | .moment => some (names.map fun _ => none)
  | _ => none

def text? : Toml → Option String
  | .text value => some value
  | _ => none

/-- The truth value of a value. -/
def bool? : Toml → Option Bool
  | .boolean value => some value
  | _ => none

/-- The number of a value that lies below a bound. -/
def natBelow? (bound : Nat) : Toml → Option Nat
  | .integer value => if 0 ≤ value ∧ value < bound then some value.toNat else none
  | _ => none

def u16? (value : Toml) : Option UInt16 := (value.natBelow? UInt16.size).map .ofNat

/-- The unsigned integer of sixty-four bits that a value is. -/
def u64? (value : Toml) : Option UInt64 := (value.natBelow? UInt64.size).map .ofNat

/-- A field that is read if it is there, or else its default. -/
def orDefault (default : Value) (read : Toml → Option Value) : Option Toml → Option Value
  | none => some default
  | some value => read value

end Toml

end LedgerNode
