import ConvertOnce.Proofs.BuildInputs.Marker
import ConvertOnce.Proofs.Except
import Mathlib.Data.List.Induction

/-!
# Spellings of a digest

`Hex.Spells` says which texts stand for which bytes: two hexadecimal digits for each byte, their
letters in either case, and white space anywhere but between the two digits of a byte.  These texts
are read, as the bytes that they spell, and no others (`Hex.decode_eq_ok_iff`,
`Hex.exists_decode_eq_badHex_iff`).

The reader puts a text into lower case before it looks at it, and in some texts this makes ASCII
characters out of others.  None of them is a digit or white space, so such a text is refused as well
(`Hex.Spells.notMem`).
-/

namespace ConvertOnce

namespace Hex

/-- White space in ASCII: the blank, and the characters from the tab to the carriage return. -/
def IsAsciiSpace (c : Char) : Prop := c = ' ' ∨ 9 ≤ c.toNat ∧ c.toNat ≤ 13

instance : DecidablePred IsAsciiSpace := fun c =>
  inferInstanceAs (Decidable (c = ' ' ∨ 9 ≤ c.toNat ∧ c.toNat ≤ 13))

/-- The characters spell the bytes. -/
inductive Spells : List Char → Bytes → Prop
  /-- No character is left, and no byte. -/
  | done : Spells [] []
  /-- White space stands before a byte or at the end. -/
  | space {c : Char} {cs : List Char} {bytes : Bytes} (hspace : IsAsciiSpace c)
      (hrest : Spells cs bytes) : Spells (c :: cs) bytes
  /-- Two characters are the digits of a byte, but for the case of their letters. -/
  | group {high low : Char} {cs : List Char} {byte : UInt8} {bytes : Bytes}
      (hgroup : [high.toLower, low.toLower] = (encode [byte]).toList)
      (hrest : Spells cs bytes) : Spells (high :: low :: cs) (byte :: bytes)

/-! ### Characters -/

theorem toNat_toLower (c : Char) :
    c.toLower.toNat = if 65 ≤ c.toNat ∧ c.toNat ≤ 90 then c.toNat + 32 else c.toNat := by
  have hupper : (c.val ≥ 'A'.val ∧ c.val ≤ 'Z'.val) ↔ 65 ≤ c.toNat ∧ c.toNat ≤ 90 := by
    rw [ge_iff_le, UInt32.le_iff_toNat_le, UInt32.le_iff_toNat_le]
    rfl
  -- There is no overflow: an uppercase letter is far below the greatest number.
  unfold Char.toLower
  split
  · rename_i h
    have hc := hupper.1 h
    rw [if_pos hc]
    show (c.val + 32).toNat = c.val.toNat + 32
    rw [UInt32.toNat_add]
    have hval : c.val.toNat ≤ 90 := hc.2
    have hnum : (32 : UInt32).toNat = 32 := rfl
    omega
  · rename_i h
    rw [if_neg (mt hupper.2 h)]

theorem isBlank_iff {c : Char} : isBlank c = true ↔ IsAsciiSpace c := by
  have hchars : isBlank c = true ↔ c.toNat = 32 ∨ c.toNat = 9 ∨ c.toNat = 10 ∨ c.toNat = 11 ∨
      c.toNat = 12 ∨ c.toNat = 13 := by
    simp [isBlank, ← Char.toNat_inj, or_assoc]
  rw [hchars, IsAsciiSpace, ← Char.toNat_inj]
  show _ ↔ c.toNat = 32 ∨ _
  omega

/-- Lower case leaves white space as it is, and makes none. -/
theorem isBlank_toLower_iff {c : Char} : isBlank c.toLower = true ↔ IsAsciiSpace c := by
  rw [isBlank_iff]
  simp only [IsAsciiSpace, ← Char.toNat_inj, toNat_toLower]
  show (_ = 32 ∨ _) ↔ (_ = 32 ∨ _)
  split <;> omega

/-- White space is no digit. -/
theorem IsAsciiSpace.toLower_notMem {c : Char} (h : IsAsciiSpace c) : c.toLower ∉ digits := by
  intro hmem
  have hblank := isBlank_toLower_iff.2 h
  rw [(digit_plain hmem).2.1] at hblank
  cases hblank

/-- The reader takes sixteen characters for digits. -/
theorem value?_eq_some_iff {c : Char} {n : Nat} : value? c = some n ↔ n < 16 ∧ c = digit n := by
  constructor
  · intro h
    -- The two ranges of digits, in numbers.
    have hrange : 0x30 ≤ c.toNat ∧ c.toNat ≤ 0x39 ∧ n = c.toNat - 0x30 ∨
        0x61 ≤ c.toNat ∧ c.toNat ≤ 0x66 ∧ n = c.toNat - 0x57 := by
      simp only [value?, Char.le_def, UInt32.le_iff_toNat_le] at h
      split at h
      · rename_i hc
        exact .inl ⟨hc.1, hc.2, (Option.some.inj h).symm⟩
      · split at h
        · rename_i hc
          exact .inr ⟨hc.1, hc.2, (Option.some.inj h).symm⟩
        · cases h
    refine ⟨by omega, ?_⟩
    rw [← Char.ofNat_toNat c, digit]
    split
    · congr 1
      omega
    · congr 1
      omega
  · rintro ⟨hn, rfl⟩
    exact value?_digit_of_lt hn

/-! ### The digits of a byte -/

theorem toList_encode_singleton (byte : UInt8) :
    (encode [byte]).toList = [digit (byte.toNat / 16), digit (byte.toNat % 16)] := by
  rw [encode, String.toList_ofList, List.flatMap_singleton]

theorem toList_encode_cons (byte : UInt8) (bytes : Bytes) :
    (encode (byte :: bytes)).toList = (encode [byte]).toList ++ (encode bytes).toList := by
  rw [toList_encode_singleton, encode, encode, String.toList_ofList, String.toList_ofList,
    List.flatMap_cons]

/-- Two characters with values are the digits of one byte. -/
theorem encode_of_value? {high low : Char} {m n : Nat} (hm : value? high = some m)
    (hn : value? low = some n) :
    [high, low] = (encode [UInt8.ofNat (16 * m + n)]).toList := by
  obtain ⟨hm16, rfl⟩ := value?_eq_some_iff.1 hm
  obtain ⟨hn16, rfl⟩ := value?_eq_some_iff.1 hn
  have hbyte : (UInt8.ofNat (16 * m + n)).toNat = 16 * m + n :=
    UInt8.toNat_ofNat_of_lt' (show 16 * m + n < 256 by omega)
  have hdiv : (16 * m + n) / 16 = m := by omega
  have hmod : (16 * m + n) % 16 = n := by omega
  rw [toList_encode_singleton, hbyte, hdiv, hmod]

/-- The digits of a byte have values, from which the byte is put together. -/
theorem value?_of_encode {high low : Char} {byte : UInt8}
    (h : [high, low] = (encode [byte]).toList) :
    ∃ m n, value? high = some m ∧ value? low = some n ∧ UInt8.ofNat (16 * m + n) = byte := by
  have hlt : byte.toNat < 256 := byte.toNat_lt
  rw [toList_encode_singleton] at h
  obtain ⟨rfl, hlow⟩ := List.cons.inj h
  obtain ⟨rfl, -⟩ := List.cons.inj hlow
  refine ⟨byte.toNat / 16, byte.toNat % 16, value?_digit_of_lt (by omega),
    value?_digit_of_lt (by omega), ?_⟩
  rw [Nat.div_add_mod, UInt8.ofNat_toNat]

/-- What stands for a byte is, in lower case, two digits. -/
theorem mem_digits_of_group {high low : Char} {byte : UInt8}
    (h : [high.toLower, low.toLower] = (encode [byte]).toList) :
    high.toLower ∈ digits ∧ low.toLower ∈ digits := by
  have hmem : ∀ c ∈ [high.toLower, low.toLower], c ∈ digits := fun c hc =>
    mem_digits_of_mem_encode (h ▸ hc)
  exact ⟨hmem _ (by simp), hmem _ (by simp)⟩

/-- The characters of a spelling. -/
theorem Spells.isAsciiSpace_or_mem {cs : List Char} {bytes : Bytes} (h : Spells cs bytes) :
    ∀ c ∈ cs, IsAsciiSpace c ∨ c.toLower ∈ digits := by
  induction h with
  | done => simp
  | space hspace _ ih => exact List.forall_mem_cons.2 ⟨.inl hspace, ih⟩
  | group hgroup _ ih =>
    obtain ⟨hhigh, hlow⟩ := mem_digits_of_group hgroup
    exact List.forall_mem_cons.2 ⟨.inr hhigh, List.forall_mem_cons.2 ⟨.inr hlow, ih⟩⟩

/-- They are ASCII in lower case. -/
theorem Spells.toLower_le {cs : List Char} {bytes : Bytes} (h : Spells cs bytes) :
    ∀ c ∈ cs, c.toLower.toNat ≤ 0x7f := by
  intro c hc
  rcases h.isAsciiSpace_or_mem c hc with hspace | hdigit
  · have hc : c.toNat = 32 ∨ 9 ≤ c.toNat ∧ c.toNat ≤ 13 :=
      hspace.imp_left (congrArg Char.toNat)
    rw [toNat_toLower]
    split <;> omega
  · exact Nat.not_lt.1 (digit_plain hdigit).2.2

/-- No character that is an ASCII one only in lower case stands in a spelling. -/
theorem Spells.notMem {cs : List Char} {bytes : Bytes} (h : Spells cs bytes) :
    '\u212a' ∉ cs ∧ '\u0130' ∉ cs :=
  ⟨fun hmem => absurd (h.isAsciiSpace_or_mem _ hmem) (by decide),
    fun hmem => absurd (h.isAsciiSpace_or_mem _ hmem) (by decide)⟩

/-- A spelling in lower case without its white space is the text that is written for the bytes. -/
theorem Spells.toList_encode {cs : List Char} {bytes : Bytes} (h : Spells cs bytes) :
    (encode bytes).toList = (cs.filter fun c => ¬ IsAsciiSpace c).map Char.toLower := by
  induction h with
  | done => rfl
  | space hspace _ ih => rw [ih, List.filter_cons_of_neg (by simpa using hspace)]
  | @group high low cs byte bytes hgroup _ ih =>
    obtain ⟨hhigh, hlow⟩ := mem_digits_of_group hgroup
    have hhigh : ¬ IsAsciiSpace high := fun hspace => hspace.toLower_notMem hhigh
    have hlow : ¬ IsAsciiSpace low := fun hspace => hspace.toLower_notMem hlow
    rw [toList_encode_cons, ih, ← hgroup, List.filter_cons_of_pos (by simpa using hhigh),
      List.filter_cons_of_pos (by simpa using hlow)]
    rfl

/-! ### Reading in lower case -/

/-- In lower case exactly the spellings of bytes are read. -/
theorem decodeFrom_map_toLower {cs : List Char} : ∀ {position : Nat} {bytes : Bytes},
    decodeFrom position (cs.map Char.toLower) = .ok bytes ↔ Spells cs bytes := by
  -- White space is followed by the rest of the text, a first digit by another and then the rest.
  induction cs using List.twoStepInduction with
  | nil =>
    intro position bytes
    constructor
    · intro h
      cases h
      exact .done
    · intro h
      cases h
      rfl
  | singleton c =>
    intro position bytes
    rw [List.map_singleton, decodeFrom]
    by_cases hc : IsAsciiSpace c
    · rw [if_pos (isBlank_toLower_iff.2 hc)]
      constructor
      · intro h
        cases h
        exact .space hc .done
      · intro h
        cases h with
        | space _ hrest =>
          cases hrest
          rfl
    · rw [if_neg (mt isBlank_toLower_iff.1 hc)]
      constructor
      · intro h
        cases h
      · intro h
        cases h with
        | space hspace _ => exact absurd hspace hc
  | cons_cons c d rest ih ih' =>
    intro position bytes
    rw [List.map_cons, List.map_cons, decodeFrom]
    by_cases hc : IsAsciiSpace c
    · rw [if_pos (isBlank_toLower_iff.2 hc), ← List.map_cons, ih' d]
      constructor
      · exact .space hc
      · intro h
        cases h with
        | space _ hrest => exact hrest
        | group hgroup _ => exact absurd (mem_digits_of_group hgroup).1 hc.toLower_notMem
    · rw [if_neg (mt isBlank_toLower_iff.1 hc)]
      constructor
      · intro h
        split at h
        · cases h
        · cases h
        · rename_i m n hm hn
          obtain ⟨tail, htail, rfl⟩ := map_eq_ok_iff.1 h
          exact .group (encode_of_value? hm hn) (ih.1 htail)
      · intro h
        cases h with
        | space hspace _ => exact absurd hspace hc
        | group hgroup hrest =>
          obtain ⟨m, n, hm, hn, rfl⟩ := value?_of_encode hgroup
          rw [hm, hn]
          exact map_eq_ok_iff.2 ⟨_, ih.2 hrest, rfl⟩

/-- The reader refuses a text for one reason only. -/
theorem exists_position_of_decodeFrom {cs : List Char} {fault : Fault} :
    ∀ {position : Nat}, decodeFrom position cs = .error fault →
      ∃ position', fault = .badHex position' := by
  -- By the recursion of the reader: it goes on behind white space by one character, and else by
  -- two.
  induction cs using List.twoStepInduction with
  | nil =>
    intro position h
    cases h
  | singleton c =>
    intro position h
    rw [decodeFrom] at h
    split at h
    · cases h
    · exact ⟨_, (Except.error.inj h).symm⟩
  | cons_cons c d rest ih ih' =>
    intro position h
    rw [decodeFrom] at h
    split at h
    · exact ih' d h
    · split at h
      · exact ⟨_, (Except.error.inj h).symm⟩
      · exact ⟨_, (Except.error.inj h).symm⟩
      · exact ih (map_eq_error_iff.1 h)

/-- The characters that are read are digits and white space. -/
theorem isBlank_or_mem_of_decodeFrom {cs : List Char} :
    ∀ {position : Nat} {bytes : Bytes}, decodeFrom position cs = .ok bytes →
      ∀ c ∈ cs, isBlank c = true ∨ c ∈ digits := by
  -- By the recursion of the reader, as before.
  induction cs using List.twoStepInduction with
  | nil => simp
  | singleton c =>
    intro position bytes h
    rw [decodeFrom] at h
    split at h
    · rename_i hblank
      exact List.forall_mem_singleton.2 (.inl hblank)
    · cases h
  | cons_cons c d rest ih ih' =>
    intro position bytes h
    rw [decodeFrom] at h
    split at h
    · rename_i hblank
      exact List.forall_mem_cons.2 ⟨.inl hblank, ih' d h⟩
    · split at h
      · cases h
      · cases h
      · rename_i high low hhigh hlow
        obtain ⟨tail, htail, -⟩ := map_eq_ok_iff.1 h
        obtain ⟨hhigh16, rfl⟩ := value?_eq_some_iff.1 hhigh
        obtain ⟨hlow16, rfl⟩ := value?_eq_some_iff.1 hlow
        exact List.forall_mem_cons.2 ⟨.inr (mem_digits_of_lt hhigh16),
          List.forall_mem_cons.2 ⟨.inr (mem_digits_of_lt hlow16), ih htail⟩⟩

/-! ### Reading any text -/

/-- Where no other character becomes an ASCII one, lower case is that of ASCII. -/
theorem flatMap_lower_eq_map {cs : List Char} (h : '\u212a' ∉ cs ∧ '\u0130' ∉ cs) :
    cs.flatMap lower = cs.map Char.toLower := by
  rw [← List.flatMap_singleton' (cs.map Char.toLower), List.flatMap_map]
  refine List.flatMap_congr fun c hc => ?_
  have hkelvin : c ≠ '\u212a' := fun heq => h.1 (heq ▸ hc)
  have hdotted : c ≠ '\u0130' := fun heq => h.2 (heq ▸ hc)
  rw [lower, if_neg hkelvin, if_neg hdotted]

/-- **A text is read exactly if it spells bytes, and then as these.** -/
theorem decode_eq_ok_iff {text : String} {bytes : Bytes} :
    decode text = .ok bytes ↔ Spells text.toList bytes := by
  constructor
  · intro h
    rw [decode] at h
    split at h
    · cases h
    · -- The two characters that turn into ASCII ones leave a letter that is no digit.
      have hplain := isBlank_or_mem_of_decodeFrom h
      have hmem : '\u212a' ∉ text.toList ∧ '\u0130' ∉ text.toList :=
        ⟨fun hc => absurd (hplain 'k' (List.mem_flatMap.2 ⟨_, hc, by decide⟩)) (by decide),
          fun hc => absurd (hplain 'i' (List.mem_flatMap.2 ⟨_, hc, by decide⟩)) (by decide)⟩
      rw [flatMap_lower_eq_map hmem] at h
      exact decodeFrom_map_toLower.1 h
  · intro h
    have hascii : (text.toList.map Char.toLower).findIdx? (fun c => 0x7f < c.toNat) = none := by
      rw [List.findIdx?_eq_none_iff, List.forall_mem_map]
      exact fun c hc => by simpa using h.toLower_le c hc
    rw [decode, flatMap_lower_eq_map h.notMem]
    simp only [hascii]
    exact decodeFrom_map_toLower.2 h

theorem exists_position_of_decode {text : String} {fault : Fault} (h : decode text = .error fault) :
    ∃ position, fault = .badHex position := by
  rw [decode] at h
  split at h
  · exact ⟨_, (Except.error.inj h).symm⟩
  · exact exists_position_of_decodeFrom h

/-- A text that spells no bytes is refused. -/
theorem exists_decode_eq_badHex_iff {text : String} :
    (∃ position, decode text = .error (.badHex position)) ↔
      ∀ bytes, ¬ Spells text.toList bytes := by
  constructor
  · rintro ⟨position, h⟩ bytes hspells
    rw [decode_eq_ok_iff.2 hspells] at h
    cases h
  · intro h
    cases hdecode : decode text with
    | ok bytes => exact absurd (decode_eq_ok_iff.1 hdecode) (h bytes)
    | error fault =>
      obtain ⟨position, rfl⟩ := exists_position_of_decode hdecode
      exact ⟨position, rfl⟩

end Hex

namespace InputDigest

theorem ofHex_eq_ok_iff {text : String} {d : InputDigest} :
    ofHex text = .ok d ↔ Hex.Spells text.toList d.bytes := by
  rw [ofHex, map_eq_ok_iff, ← Hex.decode_eq_ok_iff]
  constructor
  · rintro ⟨bytes, h, rfl⟩
    exact h
  · exact fun h => ⟨d.bytes, h, rfl⟩

/-- Digests and their spellings. -/
structure ReadsSpellings : Prop where
  /-- A text is read as a digest exactly if it spells the bytes of the digest. -/
  ofHex_eq_ok_iff : ∀ text d, ofHex text = .ok d ↔ Hex.Spells text.toList d.bytes
  /-- A text that spells no bytes is refused, and no other one. -/
  ofHex_refuses_iff : ∀ text, (∃ position, ofHex text = .error (.badHex position)) ↔
    ∀ bytes, ¬ Hex.Spells text.toList bytes
  /-- The digest of a text is written like the text in lower case without white space. -/
  hex_ofHex : ∀ text d, ofHex text = .ok d →
    d.hex.toList = (text.toList.filter fun c => ¬ Hex.IsAsciiSpace c).map Char.toLower
  /-- What is written for a digest is read as this digest. -/
  ofHex_hex : ∀ d : InputDigest, ofHex d.hex = .ok d
  /-- Each digest has a marker of its own. -/
  markerFile_eq_iff : ∀ d d' : InputDigest, d.markerFile = d'.markerFile ↔ d = d'

/-- **A digest is read from its spellings and from no other text.** -/
theorem readsSpellings : ReadsSpellings where
  ofHex_eq_ok_iff _ _ := ofHex_eq_ok_iff
  ofHex_refuses_iff text := by
    rw [← Hex.exists_decode_eq_badHex_iff]
    exact exists_congr fun position => map_eq_error_iff
  hex_ofHex _ _ h := (ofHex_eq_ok_iff.1 h).toList_encode
  ofHex_hex d := d.ofHex_hex
  markerFile_eq_iff _ _ := markerFile_injective.eq_iff

/-- Both cases and white space around the bytes. -/
theorem readsSpellings_mixed :
    ofHex " a0\x0b\tFf\n" = .ok ⟨[0xa0, 0xff]⟩ ∧ (InputDigest.mk [0xa0, 0xff]).hex = "a0ff" := by
  have hread : ofHex " a0\x0b\tFf\n" = .ok ⟨[0xa0, 0xff]⟩ :=
    (readsSpellings.ofHex_eq_ok_iff _ _).2 (.space (by decide) (.group (by decide)
      (.space (by decide) (.space (by decide) (.group (by decide) (.space (by decide) .done))))))
  refine ⟨hread, String.toList_inj.1 ?_⟩
  rw [readsSpellings.hex_ofHex _ _ hread]
  decide

end InputDigest

end ConvertOnce
