import ConvertOnce.Json.Value
import ConvertOnce.Text.Utf8

/-!
# Reading JSON

`Json.read` reads a whole text.  A reading function takes a `Cursor`, which is the rest of the text
and its position, and answers with what it has read and the cursor behind it, or with the first
`Failure`.  The recursion through arrays and objects uses up a measure: a value needs at most
twice as much as there are characters left, and one more; the members or elements of a value one
more again.  The text's own measure is above that, so it never ends a reading.

Each array or object goes one call deeper than the one around it.  A second number says how much
deeper a reading can go, and a bracket opened beyond that is a failure of its own.

A position counts the characters before it.  For a person it is given as a line and a column, both
counted from one.
-/

namespace ConvertOnce

/-! ### Positions in a text -/

/-- A line and a column, both counted from one. -/
structure LineColumn where
  /-- The line. -/
  line : Nat
  /-- The column. -/
  column : Nat
  deriving DecidableEq, Repr

namespace LineColumn

/-- Moves past one character. -/
def advance (place : LineColumn) (c : Char) : LineColumn :=
  if c = '\n' then ⟨place.line + 1, 1⟩ else ⟨place.line, place.column + 1⟩

/-- The line and column of a position in a text. -/
def ofPosition (text : List Char) (position : Nat) : LineColumn :=
  (text.take position).foldl advance ⟨1, 1⟩

end LineColumn

namespace Json

/-! ### Failures -/

/-- What is wrong with a text that is no JSON. -/
inductive Complaint where
  /-- The text begins with a byte order mark. -/
  | byteOrderMark
  /-- There is no value where one must be. -/
  | expectedValue
  /-- A member does not begin with a string. -/
  | expectedName
  /-- A name is not followed by a colon. -/
  | expectedColon
  /-- A member or an element is followed neither by a comma nor by the closing bracket. -/
  | expectedComma
  /-- Something follows the value. -/
  | extraData
  /-- A string has no end. -/
  | unterminated
  /-- A control character stands in a string. -/
  | controlCharacter
  /-- A backslash is followed by no known letter. -/
  | badEscape
  /-- The escape `\u` is not followed by four digits. -/
  | badUnicodeEscape
  deriving DecidableEq, Repr

/-- The wording of a complaint. -/
def Complaint.text : Complaint → String
  | byteOrderMark => "Unexpected UTF-8 BOM (decode using utf-8-sig)"
  | expectedValue => "Expecting value"
  | expectedName => "Expecting property name enclosed in double quotes"
  | expectedColon => "Expecting ':' delimiter"
  | expectedComma => "Expecting ',' delimiter"
  | extraData => "Extra data"
  | unterminated => "Unterminated string starting at"
  | controlCharacter => "Invalid control character at"
  | badEscape => "Invalid \\escape"
  | badUnicodeEscape => "Invalid \\uXXXX escape"

/-- Why a text was not read. -/
inductive Failure where
  /-- The text is no JSON, for the reason given and at the position given. -/
  | malformed (complaint : Complaint) (position : Nat)
  /-- An integer has too many digits. -/
  | hugeInteger (digits : Nat)
  /-- Arrays and objects are nested deeper than the reader can go. -/
  | tooDeep
  deriving DecidableEq, Repr

/-- The wording of a complaint about a position of a text. -/
def Complaint.message (text : List Char) (complaint : Complaint) (position : Nat) : String :=
  let place := LineColumn.ofPosition text position
  complaint.text ++ ": line " ++ toString place.line ++ " column " ++ toString place.column
    ++ " (char " ++ toString position ++ ")"

/-! ### Cursors -/

/-- The rest of a text and its position. -/
structure Cursor where
  /-- What is still to be read. -/
  rest : List Char
  /-- How many characters have been read. -/
  position : Nat

/-- White space between the tokens. -/
def isBlank (c : Char) : Bool := c = ' ' || c = '\t' || c = '\n' || c = '\r'

namespace Cursor

/-- The cursor behind the characters that pass a test. -/
def skipWhile (cur : Cursor) (test : Char → Bool) : Cursor :=
  let skipped := cur.rest.takeWhile test
  ⟨cur.rest.drop skipped.length, cur.position + skipped.length⟩

/-- The cursor behind white space. -/
def skipBlank (cur : Cursor) : Cursor := cur.skipWhile isBlank

/-- The cursor `n` characters further on. -/
def drop (cur : Cursor) (n : Nat) : Cursor := ⟨cur.rest.drop n, cur.position + n⟩

/-- A complaint about where the cursor stands. -/
def fail {α : Type} (cur : Cursor) (complaint : Complaint) : Except Failure α :=
  .error (.malformed complaint cur.position)

end Cursor

/-! ### Strings -/

/-- The value of a hexadecimal digit in either case. -/
def hexValue? (c : Char) : Option Nat :=
  if '0' ≤ c ∧ c ≤ '9' then some (c.toNat - 0x30)
  else if 'a' ≤ c ∧ c ≤ 'f' then some (c.toNat - 0x57)
  else if 'A' ≤ c ∧ c ≤ 'F' then some (c.toNat - 0x37)
  else none

/-- The value of four hexadecimal digits. -/
def hexQuad? (a b c d : Char) : Option Nat := do
  return (((← hexValue? a) * 16 + (← hexValue? b)) * 16 + (← hexValue? c)) * 16 + (← hexValue? d)

/-- The character that a letter stands for behind a backslash. -/
def escaped? : Char → Option Char
  | '"' => some '"'
  | '\\' => some '\\'
  | '/' => some '/'
  | 'b' => some '\x08'
  | 'f' => some '\x0c'
  | 'n' => some '\n'
  | 'r' => some '\r'
  | 't' => some '\t'
  | _ => none

/-- The code units of a string up to its closing quote, and the cursor behind the quote.  `opening`
is the position of the opening quote. -/
def readUnits (opening : Nat) : Nat → List Char → Except Failure (List Nat × Cursor)
  | _, [] => .error (.malformed .unterminated opening)
  | position, '"' :: rest => .ok ([], ⟨rest, position + 1⟩)
  | _, ['\\'] => .error (.malformed .unterminated opening)
  | position, '\\' :: 'u' :: a :: b :: c :: d :: rest =>
    match hexQuad? a b c d, rest with
    | some unit, _ :: _ => do
      let (units, cur) ← readUnits opening (position + 6) rest
      return (unit :: units, cur)
    | _, _ => .error (.malformed .badUnicodeEscape (position + 1))
  | position, '\\' :: letter :: rest =>
    match escaped? letter with
    | some c => do
      let (units, cur) ← readUnits opening (position + 2) rest
      return (c.toNat :: units, cur)
    | none =>
      if letter = 'u' then .error (.malformed .badUnicodeEscape (position + 1))
      else .error (.malformed .badEscape position)
  | position, c :: rest =>
    if c.toNat < 0x20 then .error (.malformed .controlCharacter position)
    else do
      let (units, cur) ← readUnits opening (position + 1) rest
      return (c.toNat :: units, cur)

/-- The first half of a character beyond U+FFFF. -/
def isHighHalf (unit : Nat) : Bool := 0xd800 ≤ unit && unit < 0xdc00

/-- The second half of a character beyond U+FFFF. -/
def isLowHalf (unit : Nat) : Bool := 0xdc00 ≤ unit && unit < 0xe000

/-- A half that stands for one byte in the name of a file. -/
def isByteHalf (unit : Nat) : Bool := 0xdc80 ≤ unit && unit < 0xdd00

/-- The character of a code unit, or what is in its place when it is half of a character. -/
def charsOfUnit (unit : Nat) : List Char :=
  if isByteHalf unit then byteHalf
  else if isHighHalf unit || isLowHalf unit then loneHalf
  else [Char.ofNat unit]

/-- The characters of code units: two halves in the right order make one character. -/
def charsOfUnits : List Nat → List Char
  | [] => []
  | [unit] => charsOfUnit unit
  | high :: low :: rest =>
    if isHighHalf high && isLowHalf low then
      Char.ofNat (0x10000 + (high - 0xd800) * 0x400 + (low - 0xdc00)) :: charsOfUnits rest
    else charsOfUnit high ++ charsOfUnits (low :: rest)

/-- Reads a string of which the cursor is at the opening quote. -/
def readString (cur : Cursor) : Except Failure (String × Cursor) := do
  let (units, behind) ← readUnits cur.position (cur.position + 1) (cur.rest.drop 1)
  return (String.ofList (charsOfUnits units), behind)

/-! ### Numbers -/

/-- The longest integer, in digits. -/
def maxIntegerDigits : Nat := 4300

/-- The whole number that decimal digits denote. -/
def natOfDigits (digits : List Char) : Nat :=
  digits.foldl (fun n c => 10 * n + (c.toNat - 0x30)) 0

/-- A decimal digit. -/
def isDigit (c : Char) : Bool := '0' ≤ c && c ≤ '9'

/-- The decimal digits at the start of a text. -/
def digitsOf (chars : List Char) : List Char := chars.takeWhile isDigit

/-- The digits of a fraction at the start of a text: a point and at least one digit. -/
def fractionOf : List Char → List Char
  | '.' :: rest => digitsOf rest
  | _ => []

/-- The length and the value of an exponent at the start of a text: a letter, perhaps a sign, and
at least one digit. -/
def exponentOf : List Char → Nat × Int
  | e :: rest =>
    if e = 'e' || e = 'E' then
      let sign := rest.takeWhile fun c => c = '+' || c = '-'
      if 1 < sign.length then (0, 0)
      else
        let digits := digitsOf (rest.drop sign.length)
        if digits.isEmpty then (0, 0)
        else
          let size : Int := natOfDigits digits
          (1 + sign.length + digits.length, if sign = ['-'] then -size else size)
    else (0, 0)
  | [] => (0, 0)

/-- Reads the longest number at the cursor. -/
def readNumber (cur : Cursor) : Except Failure (Json × Cursor) :=
  let negative := cur.rest.head? = some '-'
  let body := if negative then cur.drop 1 else cur
  let whole := if body.rest.head? = some '0' then ['0'] else digitsOf body.rest
  if whole.isEmpty then cur.fail .expectedValue
  else
    let behindWhole := body.drop whole.length
    let fraction := fractionOf behindWhole.rest
    let behindFraction :=
      if fraction.isEmpty then behindWhole else behindWhole.drop (1 + fraction.length)
    let (length, exponent) := exponentOf behindFraction.rest
    if fraction.isEmpty && length = 0 && maxIntegerDigits < whole.length then
      .error (.hugeInteger whole.length)
    else
      .ok (.number (.decimal negative (natOfDigits (whole ++ fraction))
        (exponent - fraction.length)), behindFraction.drop length)

/-! ### Values -/

/-- The words that are values. -/
def words : List (String × Json) :=
  [("null", .null), ("true", .bool true), ("false", .bool false), ("NaN", .number .notANumber),
    ("Infinity", .number (.infinite false)), ("-Infinity", .number (.infinite true))]

/-- Reads a word, or else a number. -/
def readScalar (cur : Cursor) : Except Failure (Json × Cursor) :=
  match words.find? fun w => w.1.toList.isPrefixOf cur.rest with
  | some (word, value) => .ok (value, cur.drop word.length)
  | none => readNumber cur

mutual

/-- Reads the value at the cursor. -/
def readValue : Nat → Nat → Cursor → Except Failure (Json × Cursor)
  | 0, _, cur => cur.fail .expectedValue
  | n + 1, levels, cur =>
    match cur.rest with
    | '"' :: _ => do
      let (value, behind) ← readString cur
      return (.string value, behind)
    | '{' :: _ =>
      if levels = 0 then .error .tooDeep
      else
        let inner := (cur.drop 1).skipBlank
        match inner.rest with
        | '}' :: _ => .ok (.object [], inner.drop 1)
        | _ => do
          let (members, behind) ← readMembers n (levels - 1) inner
          return (.object members, behind)
    | '[' :: _ =>
      if levels = 0 then .error .tooDeep
      else
        let inner := (cur.drop 1).skipBlank
        match inner.rest with
        | ']' :: _ => .ok (.array [], inner.drop 1)
        | _ => do
          let (elements, behind) ← readElements n (levels - 1) inner
          return (.array elements, behind)
    | _ => readScalar cur

/-- Reads the members of an object up to its closing brace; the cursor is at a name. -/
def readMembers : Nat → Nat → Cursor → Except Failure (Members × Cursor)
  | 0, _, cur => cur.fail .expectedName
  | n + 1, levels, cur =>
    match cur.rest with
    | '"' :: _ => do
      let (name, behind) ← readString cur
      let colon := behind.skipBlank
      match colon.rest with
      | ':' :: _ =>
        let (value, behind) ← readValue n levels (colon.drop 1).skipBlank
        let next := behind.skipBlank
        match next.rest with
        | '}' :: _ => return ([(name, value)], next.drop 1)
        | ',' :: _ =>
          let (members, behind) ← readMembers n levels (next.drop 1).skipBlank
          return ((name, value) :: members, behind)
        | _ => next.fail .expectedComma
      | _ => colon.fail .expectedColon
    | _ => cur.fail .expectedName

/-- Reads the elements of an array up to its closing bracket; the cursor is at a value. -/
def readElements : Nat → Nat → Cursor → Except Failure (List Json × Cursor)
  | 0, _, cur => cur.fail .expectedValue
  | n + 1, levels, cur => do
    let (value, behind) ← readValue n levels cur
    let next := behind.skipBlank
    match next.rest with
    | ']' :: _ => return ([value], next.drop 1)
    | ',' :: _ =>
      let (elements, behind) ← readElements n levels (next.drop 1).skipBlank
      return (value :: elements, behind)
    | _ => next.fail .expectedComma

end

/-- Reads a text that holds one value and white space around it.  Arrays and objects may be nested
`levels` deep. -/
def read (levels : Nat) (text : List Char) : Except Failure Json := do
  if text.head? = some '\ufeff' then Cursor.fail ⟨text, 0⟩ .byteOrderMark
  let (value, behind) ← readValue (2 * text.length + 2) levels (Cursor.mk text 0).skipBlank
  let last := behind.skipBlank
  if last.rest.isEmpty then return value else last.fail .extraData

end Json

end ConvertOnce
