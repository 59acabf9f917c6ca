/-!
# JSON values

The values that a JSON text can denote, with numbers kept exactly as they are written: a sign, the
digits as one whole number and a power of ten.  An object keeps all its members in order; a name
that occurs again takes the place of the earlier one, so `Json.member?` finds the last.
-/

namespace ConvertOnce

/-- A number as it is written. -/
inductive Number where
  /-- The number `± digits · 10 ^ exponent`. -/
  | decimal (negative : Bool) (digits : Nat) (exponent : Int)
  /-- One of the two infinities. -/
  | infinite (negative : Bool)
  /-- The value that is no number. -/
  | notANumber
  deriving DecidableEq, Repr

/-- A JSON value. -/
inductive Json where
  /-- The value `null`. -/
  | null
  /-- The values `true` and `false`. -/
  | bool (value : Bool)
  /-- A number. -/
  | number (value : Number)
  /-- A string. -/
  | string (value : String)
  /-- An array. -/
  | array (elements : List Json)
  /-- An object with all its members in the order in which they are written. -/
  | object (members : List (String × Json))
  deriving Repr, Inhabited

/-- The members of an object. -/
abbrev Members := List (String × Json)

namespace Members

/-- The value of a name: the last one that the name is given. -/
def get? (members : Members) (name : String) : Option Json :=
  members.foldl (fun found m => if m.1 = name then some m.2 else found) none

/-- The names that occur. -/
def names (members : Members) : List String := members.map Prod.fst

end Members

namespace Number

/-- How many decimal digits a whole number has. -/
def width (n : Nat) : Nat := (Nat.toDigits 10 n).length

/-- The number is zero as a double.  A decimal is, when it is at most half of the least positive
double, which is `2 ^ -1074`.  The exponent is compared first, so that no power is taken which the
digits cannot make up for. -/
def isZero : Number → Bool
  | decimal _ digits exponent =>
    if digits = 0 then true
    else if -323 ≤ exponent then false
    else if exponent + width digits < -330 then true
    else digits * Nat.pow 2 1075 ≤ Nat.pow 10 exponent.natAbs
  | _ => false

end Number

namespace Json

/-! ### Equality -/

mutual

/-- The values are the same. -/
def same : Json → Json → Bool
  | null, null => true
  | bool a, bool b => a = b
  | number a, number b => a = b
  | string a, string b => a = b
  | array as, array bs => sameElements as bs
  | object as, object bs => sameMembers as bs
  | _, _ => false

/-- The elements are the same one by one. -/
def sameElements : List Json → List Json → Bool
  | [], [] => true
  | a :: as, b :: bs => same a b && sameElements as bs
  | _, _ => false

/-- The members are the same one by one. -/
def sameMembers : List (String × Json) → List (String × Json) → Bool
  | [], [] => true
  | (name, a) :: as, (name', b) :: bs => name = name' && same a b && sameMembers as bs
  | _, _ => false

end

mutual

theorem same_iff (a b : Json) : same a b = true ↔ a = b := by
  cases a <;> cases b <;> simp [same, sameElements_iff, sameMembers_iff]

theorem sameElements_iff (as bs : List Json) : sameElements as bs = true ↔ as = bs := by
  cases as with
  | nil => cases bs <;> simp [sameElements]
  | cons a as => cases bs <;> simp [sameElements, same_iff a, sameElements_iff as]

theorem sameMembers_iff (as bs : List (String × Json)) : sameMembers as bs = true ↔ as = bs := by
  cases as with
  | nil => cases bs <;> simp [sameMembers]
  | cons m as =>
    obtain ⟨name, a⟩ := m
    cases bs with
    | nil => simp [sameMembers]
    | cons m bs =>
      obtain ⟨name', b⟩ := m
      simp [sameMembers, same_iff a, sameMembers_iff as, and_assoc]

end

instance : DecidableEq Json := fun a b => decidable_of_iff _ (same_iff a b)

/-! ### Looking into a value -/

/-- The member of an object that has the name. -/
def member? (name : String) : Json → Option Json
  | object members => Members.get? members name
  | _ => none

/-- The text of a string. -/
def string? : Json → Option String
  | string value => some value
  | _ => none

/-- The value is equal to the number zero.  Truth values count as numbers here: `false` is
zero. -/
def isZero : Json → Bool
  | number value => value.isZero
  | bool value => !value
  | _ => false

end Json

end ConvertOnce
