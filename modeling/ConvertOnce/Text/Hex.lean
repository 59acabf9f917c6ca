import ConvertOnce.Fault
import ConvertOnce.Text.Utf8

/-!
# Bytes as hexadecimal text

`Hex.encode` writes two lowercase digits for each byte.  `Hex.decode` reads such text back in either
case and with white space between the bytes.  A text is put into lower case first, and the position
of a failure counts the characters of that lowercase text.
-/

namespace ConvertOnce.Hex

/-- The digit of a number below sixteen. -/
def digit (n : Nat) : Char := if n < 10 then Char.ofNat (0x30 + n) else Char.ofNat (0x57 + n)

/-- Two lowercase digits for each byte. -/
def encode (bytes : Bytes) : String :=
  String.ofList (bytes.flatMap fun b => [digit (b.toNat / 16), digit (b.toNat % 16)])

/-- The value of a lowercase digit. -/
def value? (c : Char) : Option Nat :=
  if '0' ≤ c ∧ c ≤ '9' then some (c.toNat - 0x30)
  else if 'a' ≤ c ∧ c ≤ 'f' then some (c.toNat - 0x57)
  else none

/-- The white space that may stand between two bytes. -/
def isBlank (c : Char) : Bool :=
  c = ' ' || c = '\t' || c = '\n' || c = '\x0b' || c = '\x0c' || c = '\r'

/-- A character in lower case, as far as a hexadecimal reader can tell.  Beside the ASCII letters
only the Kelvin sign and the dotted capital I have an ASCII character in their lower case, and the
latter two characters; any other character beyond ASCII stays beyond it. -/
def lower (c : Char) : List Char :=
  if c = '\u212a' then ['k']
  else if c = '\u0130' then ['i', '\u0307']
  else [c.toLower]

/-- Reads digits, two for each byte; `position` is where the text stands. -/
def decodeFrom : Nat → List Char → Except Fault Bytes
  | _, [] => .ok []
  | position, [c] =>
    if isBlank c then .ok []
    else .error (.badHex (if (value? c).isSome then position + 1 else position))
  | position, c :: d :: rest =>
    if isBlank c then decodeFrom (position + 1) (d :: rest)
    else
      match value? c, value? d with
      | none, _ => .error (.badHex position)
      | some _, none => .error (.badHex (position + 1))
      | some high, some low =>
        (decodeFrom (position + 2) rest).map (UInt8.ofNat (16 * high + low) :: ·)

/-- Reads hexadecimal text.  A character beyond ASCII is an error before all others. -/
def decode (s : String) : Except Fault Bytes :=
  let chars := s.toList.flatMap lower
  match chars.findIdx? (fun c => 0x7f < c.toNat) with
  | some position => .error (.badHex position)
  | none => decodeFrom 0 chars

end ConvertOnce.Hex
