/-!
# Text as bytes

Contents of files, texts that are written out and digests are lists of bytes.  `Utf8.encode` writes
a text as UTF-8 and `Utf8.decode` reads one, strictly: overlong forms, surrogates and values beyond
the last character are refused.  `normalizeLines` gives every line end the one form `\n`.

A surrogate that stands alone is the half of a character, and no text of characters has one in it.
It can be written in JSON all the same, and then there are characters in its place.
-/

namespace ConvertOnce

/-- A sequence of bytes. -/
abbrev Bytes := List UInt8

namespace Utf8

/-- The bytes of a text. -/
def encode (s : String) : Bytes := s.toList.flatMap String.utf8EncodeChar

/-- A byte that continues a character. -/
def isTail (b : UInt8) : Bool := 0x80 ≤ b && b ≤ 0xbf

/-- The six bits that a continuing byte carries. -/
def tailBits (b : UInt8) : Nat := b.toNat % 0x40

/-- The characters that the bytes encode, if they encode any text. -/
def decodeChars : Bytes → Option (List Char)
  | [] => some []
  | a :: rest =>
    if a < 0x80 then (decodeChars rest).map (Char.ofNat a.toNat :: ·)
    else
      match rest with
      | [] => none
      | b :: rest =>
        if !isTail b then none
        else if 0xc2 ≤ a && a ≤ 0xdf then
          (decodeChars rest).map (Char.ofNat (a.toNat % 0x20 * 0x40 + tailBits b) :: ·)
        else
          match rest with
          | [] => none
          | c :: rest =>
            if !isTail c then none
            else if 0xe0 ≤ a && a ≤ 0xef then
              if (a = 0xe0 && b < 0xa0) || (a = 0xed && 0x9f < b) then none
              else
                let code := (a.toNat % 0x10 * 0x40 + tailBits b) * 0x40 + tailBits c
                (decodeChars rest).map (Char.ofNat code :: ·)
            else
              match rest with
              | [] => none
              | d :: rest =>
                if !isTail d then none
                else if 0xf0 ≤ a && a ≤ 0xf4 then
                  if (a = 0xf0 && b < 0x90) || (a = 0xf4 && 0x8f < b) then none
                  else
                    let code :=
                      ((a.toNat % 8 * 0x40 + tailBits b) * 0x40 + tailBits c) * 0x40 + tailBits d
                    (decodeChars rest).map (Char.ofNat code :: ·)
                else none

/-- The text that the bytes encode. -/
def decode (bytes : Bytes) : Option String := (decodeChars bytes).map String.ofList

end Utf8

/-- Every line end becomes `\n`: a carriage return with the line feed after it, and one alone. -/
def normalizeLines : List Char → List Char
  | [] => []
  | '\r' :: '\n' :: rest => '\n' :: normalizeLines rest
  | c :: rest => (if c = '\r' then '\n' else c) :: normalizeLines rest

/-! ### Halves of characters -/

/-- In the place of a half from U+DC80 to U+DCFF, which stands for one byte in the name of a file:
a character of one byte that may be in a name too. -/
def byteHalf : List Char := ['\x1a']

/-- In the place of any other half, which no name can have in it: the character U+0000, which no
name can have in it either, and a mark behind it. -/
def loneHalf : List Char := ['\x00', '\x1a']

/-- There is a half in the text that stands for no byte. -/
def hasLoneHalf : List Char → Bool
  | [] => false
  | c :: rest => loneHalf.isPrefixOf (c :: rest) || hasLoneHalf rest

end ConvertOnce
