import ConvertOnce.Text.Hex
import Mathlib.Logic.Function.Basic

/-!
# Reading back hexadecimal text

What `Hex.encode` writes is read back by `Hex.decode` (`Hex.decode_encode`), so that bytes with one
hexadecimal text are the same bytes (`Hex.encode_injective`).  The text consists of the sixteen
digits and nothing else (`Hex.mem_digits_of_mem_encode`).
-/

namespace ConvertOnce.Hex

/-- The sixteen digits. -/
def digits : List Char := (List.range 16).map digit

/-! ### One digit -/

theorem mem_digits_of_lt {n : Nat} (h : n < 16) : digit n ∈ digits :=
  List.mem_map_of_mem (List.mem_range.2 h)

theorem value?_digit_of_lt {n : Nat} (h : n < 16) : value? (digit n) = some n := by
  have hall : ∀ n ∈ List.range 16, value? (digit n) = some n := by decide
  exact hall n (List.mem_range.2 h)

/-- A digit is in lower case, no white space, and an ASCII character. -/
theorem digit_plain {c : Char} (h : c ∈ digits) :
    lower c = [c] ∧ isBlank c = false ∧ ¬0x7f < c.toNat := by
  have hall : digits.all fun c => lower c = [c] ∧ isBlank c = false ∧ ¬0x7f < c.toNat := by decide
  simpa using List.all_eq_true.1 hall c h

/-! ### Texts of bytes -/

theorem mem_digits_of_mem_encode {bytes : Bytes} {c : Char} (h : c ∈ (encode bytes).toList) :
    c ∈ digits := by
  rw [encode, String.toList_ofList, List.mem_flatMap] at h
  obtain ⟨b, -, hc⟩ := h
  have hb : b.toNat < 256 := b.toNat_lt
  have hcases : c = digit (b.toNat / 16) ∨ c = digit (b.toNat % 16) := by simpa using hc
  rcases hcases with rfl | rfl
  · exact mem_digits_of_lt (by omega)
  · exact mem_digits_of_lt (Nat.mod_lt _ (by omega))

/-- Two digits for each byte are read as these bytes. -/
theorem decodeFrom_flatMap (bytes : Bytes) : ∀ position,
    decodeFrom position (bytes.flatMap fun b => [digit (b.toNat / 16), digit (b.toNat % 16)]) =
      .ok bytes := by
  induction bytes with
  | nil => intro position; rfl
  | cons b rest ih =>
    intro position
    -- Each byte is two digits, and the position only serves the report of an error.
    have hb : b.toNat < 256 := b.toNat_lt
    have hhigh : b.toNat / 16 < 16 := by omega
    have hlow : b.toNat % 16 < 16 := Nat.mod_lt _ (by omega)
    have hbyte : UInt8.ofNat (16 * (b.toNat / 16) + b.toNat % 16) = b := by
      rw [Nat.div_add_mod, UInt8.ofNat_toNat]
    rw [List.flatMap_cons, List.cons_append, List.cons_append, List.nil_append, decodeFrom,
      (digit_plain (mem_digits_of_lt hhigh)).2.1]
    simp only [Bool.false_eq_true, if_false, value?_digit_of_lt hhigh, value?_digit_of_lt hlow,
      ih, Except.map, hbyte]

/-- Lower case leaves a text of digits as it is. -/
theorem flatMap_lower {cs : List Char} (h : ∀ c ∈ cs, c ∈ digits) : cs.flatMap lower = cs := by
  induction cs with
  | nil => rfl
  | cons c cs ih =>
    rw [List.flatMap_cons, (digit_plain (h c (by simp))).1, ih fun c hc => h c (by simp [hc])]
    rfl

/-- **The text of bytes is read back.** -/
theorem decode_encode (bytes : Bytes) : decode (encode bytes) = .ok bytes := by
  have hdigits : ∀ c ∈ (encode bytes).toList, c ∈ digits := fun c => mem_digits_of_mem_encode
  have hnone : (encode bytes).toList.findIdx? (fun c => 0x7f < c.toNat) = none := by
    rw [List.findIdx?_eq_none_iff]
    exact fun c hc => by simpa using (digit_plain (hdigits c hc)).2.2
  rw [decode, flatMap_lower hdigits]
  simp only [hnone]
  rw [encode, String.toList_ofList, decodeFrom_flatMap]

theorem encode_injective : Function.Injective encode := fun a b h => by
  have hok : (Except.ok a : Except Fault Bytes) = .ok b := by
    rw [← decode_encode a, h, decode_encode]
  exact Except.ok.inj hok

end ConvertOnce.Hex
