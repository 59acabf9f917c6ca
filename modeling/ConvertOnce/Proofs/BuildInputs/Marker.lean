import ConvertOnce.BuildInputs.Basic
import ConvertOnce.Proofs.Path.Text
import ConvertOnce.Proofs.Text.Hex

/-!
# The names of markers

The file that marks a conversion has a proper name (`InputDigest.isPart_markerFile`), which holds no
U+0000, and each digest has a name of its own (`InputDigest.markerFile_injective`).  Digests of
inputs have 32 bytes (`BuildInputs.isFull_digest`), hence their markers 64 hexadecimal digits.
-/

namespace ConvertOnce

namespace InputDigest

/-- A digest is read back from its text. -/
theorem ofHex_hex (d : InputDigest) : ofHex d.hex = .ok d := by
  rw [ofHex, hex, Hex.decode_encode]
  rfl

theorem toList_markerFile (d : InputDigest) :
    d.markerFile.toList = (Hex.encode d.bytes).toList ++ ['.', 'l', 'o', 'c', 'k'] := by
  rw [markerFile, String.toList_append]
  rfl

/-- Each digest has a marker name of its own. -/
theorem markerFile_injective : Function.Injective markerFile := fun a b h => by
  have hlist := congrArg String.toList h
  rw [toList_markerFile, toList_markerFile] at hlist
  have hhex : Hex.encode a.bytes = Hex.encode b.bytes :=
    String.toList_inj.1 (List.append_cancel_right hlist)
  cases a
  cases b
  exact congrArg mk (Hex.encode_injective hhex)

/-- A character of a marker name is a digit or one of `.lock`. -/
theorem mem_markerFile {d : InputDigest} {c : Char} (h : c ∈ d.markerFile.toList) :
    c ∈ Hex.digits ++ ['.', 'l', 'o', 'c', 'k'] := by
  rw [toList_markerFile, List.mem_append] at h
  exact List.mem_append.2 (h.imp_left Hex.mem_digits_of_mem_encode)

/-- The name of a marker ends in `k`. -/
theorem getLast?_markerFile (d : InputDigest) : d.markerFile.toList.getLast? = some 'k' := by
  simp [toList_markerFile]

/-- The name of a marker is a proper part of a path. -/
theorem isPart_markerFile (d : InputDigest) : IsPart d.markerFile := by
  have hlast := getLast?_markerFile d
  refine ⟨fun h => ?_, fun h => ?_, fun h => ?_⟩
  · simp [h] at hlast
  · simp [h] at hlast
  · exact absurd (mem_markerFile h) (by decide)

theorem markerFile_ne_up (d : InputDigest) : d.markerFile ≠ ".." := by
  intro h
  have hlast := getLast?_markerFile d
  simp [h] at hlast

theorem nul_not_mem_markerFile (d : InputDigest) : '\x00' ∉ d.markerFile.toList := fun h =>
  absurd (mem_markerFile h) (by decide)

/-- The digest has as many bytes as SHA-256 gives. -/
def IsFull (d : InputDigest) : Prop := d.bytes.length = 32

end InputDigest

theorem BuildInputs.isFull_digest (inputs : BuildInputs) : inputs.digest.IsFull := by
  show (Sha256.digest inputs.stream).length = 32
  unfold Sha256.digest
  generalize List.foldl _ _ _ = state
  rfl

end ConvertOnce
