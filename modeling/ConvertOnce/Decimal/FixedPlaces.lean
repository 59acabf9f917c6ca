/-!
# Doubles with a fixed number of places

A finite double is `± m · 2 ^ e` with whole `m`.  `fixedPlaces` writes it with so many decimal
places, rounding the exact value to the nearest and a tie to the even neighbour.  The sign is
written for every value that carries one, zero included.
-/

namespace ConvertOnce.Decimal

/-- The whole number nearest to `num / den`; of two equally near the even one. -/
def roundQuotient (num den : Nat) : Nat :=
  let quotient := num / den
  let twice := 2 * (num % den)
  if twice < den then quotient
  else if den < twice then quotient + 1
  else quotient + quotient % 2

/-- A finite double without its sign, taken apart. -/
structure Binary where
  /-- The whole factor. -/
  mantissa : Nat
  /-- The power of two. -/
  exponent : Int
  deriving DecidableEq, Repr

namespace Binary

/-- The value of the eleven exponent bits and the 52 fraction bits; `none` stands for infinity and
for what is no number. -/
def ofBits (bits : Nat) : Option Binary :=
  let fraction := bits % Nat.pow 2 52
  match bits / Nat.pow 2 52 % Nat.pow 2 11 with
  | 0 => some ⟨fraction, -1074⟩
  | biased + 1 =>
    if biased + 1 = 2047 then none
    else some ⟨Nat.pow 2 52 + fraction, (biased : Int) - 1074⟩

/-- The value times `10 ^ places`, as a whole number. -/
def scaled (b : Binary) (places : Nat) : Nat :=
  match b.exponent with
  | .ofNat e => b.mantissa * Nat.pow 2 e * Nat.pow 10 places
  | .negSucc e => roundQuotient (b.mantissa * Nat.pow 10 places) (Nat.pow 2 (e + 1))

end Binary

/-- A whole number of the last place as text, with a point before the given number of places. -/
def pointed (places n : Nat) : String :=
  let fraction := toString (n % Nat.pow 10 places)
  toString (n / Nat.pow 10 places) ++ "."
    ++ String.ofList (List.replicate (places - fraction.length) '0') ++ fraction

/-- A double with a fixed number of decimal places. -/
def fixedPlaces (places : Nat) (x : Float) : String :=
  let bits := x.toBits.toNat
  let sign := if Nat.pow 2 63 ≤ bits then "-" else ""
  match Binary.ofBits bits with
  | some b => sign ++ pointed places (b.scaled places)
  | none => if bits % Nat.pow 2 52 = 0 then sign ++ "inf" else "nan"

end ConvertOnce.Decimal
