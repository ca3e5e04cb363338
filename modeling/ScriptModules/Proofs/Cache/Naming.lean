import ScriptModules.Proofs.Cache.EntryFile
import ScriptModules.Proofs.Cache.Size
import ScriptModules.Proofs.Files.Placing

/-!
# The names of entry files

An entry file is named by the digits of its fingerprint.  The fingerprint is read back
from the name, so entries of different fingerprints have different files.

A name in a directory may spell a fingerprint in another way, with capital digits.
Where none does (`IsCanonical`), every fingerprint has one file at most, and opening a
cache counts nothing twice.
-/

namespace ScriptModules

/-! ## Texts and digits -/

theorem Bytes.text?_ofText (text : String) : text? (ofText text) = some text := by
  have hvalid : text.toUTF8.IsValidUTF8 := text.isValidUTF8
  unfold text? ofText
  rw [Array.toArray_toList, String.fromUTF8?, dif_pos hvalid]
  rfl

namespace Digest

/-- Two digits name the byte they were written for. -/
theorem ofNat_hexNumber (byte : UInt8) :
    UInt8.ofNat (Text.hexNumber [Text.hexDigit (byte.toNat / 16), Text.hexDigit (byte.toNat % 16)]) =
      byte := by
  have hlt := byte.toNat_lt
  have hhigh : Text.hexValue (Text.hexDigit (byte.toNat / 16)) = byte.toNat / 16 :=
    Text.hexValue_hexDigit (by omega)
  have hlow : Text.hexValue (Text.hexDigit (byte.toNat % 16)) = byte.toNat % 16 :=
    Text.hexValue_hexDigit (by omega)
  simp only [Text.hexNumber, Text.numeral, List.foldl_cons, List.foldl_nil, hhigh, hlow]
  rw [show 16 * (16 * 0 + byte.toNat / 16) + byte.toNat % 16 = byte.toNat by omega,
    UInt8.ofNat_toNat]

theorem isHexDigit_hexDigit {n : Nat} (h : n < 16) : Text.isHexDigit (Text.hexDigit n) = true := by
  have all : ∀ m ∈ List.range 16, Text.isHexDigit (Text.hexDigit m) = true := by decide
  exact all n (List.mem_range.mpr h)

theorem bytesOfHex?_hexOfBytes (bytes : Bytes) : bytesOfHex? (hexOfBytes bytes) = some bytes := by
  induction bytes with
  | nil => rfl
  | cons byte bytes ih =>
      have hlt := byte.toNat_lt
      have hhigh := isHexDigit_hexDigit (n := byte.toNat / 16) (by omega)
      have hlow := isHexDigit_hexDigit (n := byte.toNat % 16) (by omega)
      rw [hexOfBytes, List.flatMap_cons, ← hexOfBytes]
      simp only [List.cons_append, List.nil_append, bytesOfHex?, hhigh, hlow, Bool.and_self,
        if_true, ih, Option.map_some, ofNat_hexNumber]

/-- A digest is read back from its digits. -/
theorem ofHex?_toHex (digest : Digest) : ofHex? digest.toHex = some digest := by
  have hbytes : bytesOfHex? digest.toHex.toList = some digest.bytes := by
    rw [toHex, hexText, String.toList_ofList, bytesOfHex?_hexOfBytes]
  unfold ofHex?
  rw [hbytes]
  simp only [bind, Option.bind, digest.length_eq, dite_true]
  rfl

/-- The bytes of digits. -/
def isDigitByte (byte : UInt8) : Bool :=
  (0x30 ≤ byte && byte ≤ 0x39) || (0x61 ≤ byte && byte ≤ 0x66)

/-- The digits of a digest are 64 bytes. -/
theorem ofText_toHex (digest : Digest) :
    (Bytes.ofText digest.toHex).length = 64 ∧
      ∀ byte ∈ Bytes.ofText digest.toHex, isDigitByte byte = true := by
  have hdigit : ∀ n < 16, ∃ byte, String.utf8EncodeChar (Text.hexDigit n) = [byte] ∧
      isDigitByte byte = true := by
    have all : ∀ n ∈ List.range 16, ∃ byte ∈ String.utf8EncodeChar (Text.hexDigit n),
        String.utf8EncodeChar (Text.hexDigit n) = [byte] ∧ isDigitByte byte = true := by decide
    intro n hn
    obtain ⟨byte, -, hbyte⟩ := all n (List.mem_range.mpr hn)
    exact ⟨byte, hbyte⟩
  have hall : ∀ bytes : Bytes,
      ((hexOfBytes bytes).flatMap String.utf8EncodeChar).length = 2 * bytes.length ∧
        ∀ byte ∈ (hexOfBytes bytes).flatMap String.utf8EncodeChar, isDigitByte byte = true := by
    intro bytes
    induction bytes with
    | nil => simp [hexOfBytes]
    | cons byte bytes ih =>
        have hlt := byte.toNat_lt
        obtain ⟨high, hhigh, hhighDigit⟩ := hdigit (byte.toNat / 16) (by omega)
        obtain ⟨low, hlow, hlowDigit⟩ := hdigit (byte.toNat % 16) (by omega)
        rw [hexOfBytes, List.flatMap_cons, ← hexOfBytes, List.cons_append, List.cons_append,
          List.nil_append, List.flatMap_cons, List.flatMap_cons, hhigh, hlow]
        refine ⟨?_, ?_⟩
        · simp only [List.length_append, List.length_cons, List.length_nil, ih.1]
          omega
        · intro found hfound
          simp only [List.cons_append, List.nil_append, List.mem_cons] at hfound
          rcases hfound with rfl | rfl | hrest
          · exact hhighDigit
          · exact hlowDigit
          · exact ih.2 found hrest
  have hdigest := hall digest.bytes
  rw [digest.length_eq] at hdigest
  rw [toHex, hexText, Bytes.ofText_ofList]
  exact hdigest

end Digest

namespace Cache

open ScriptModules.Path (IsPiece)

/-! ## Names -/

theorem ofText_entryName (fingerprint : Fingerprint) :
    Bytes.ofText (entryName fingerprint) =
      Bytes.ofText fingerprint.toHex ++ Bytes.ofText entrySuffix :=
  Bytes.ofText_append _ _

theorem length_entryName (fingerprint : Fingerprint) :
    (Bytes.ofText (entryName fingerprint)).length = 68 := by
  rw [ofText_entryName, List.length_append, (Digest.ofText_toHex fingerprint).1]
  rfl

/-- The fingerprint of an entry is read back from the name of its file. -/
theorem fingerprintOfName?_entryName (fingerprint : Fingerprint) :
    fingerprintOfName? (Bytes.ofText (entryName fingerprint)) = some fingerprint := by
  unfold fingerprintOfName?
  simp only [ofText_entryName, List.length_append, Nat.add_sub_cancel, List.take_left, if_true,
    Bytes.text?_ofText]
  exact Digest.ofHex?_toHex fingerprint

theorem entryName_inj {fingerprint other : Fingerprint}
    (h : Bytes.ofText (entryName fingerprint) = Bytes.ofText (entryName other)) :
    fingerprint = other := by
  have heq := congrArg fingerprintOfName? h
  rw [fingerprintOfName?_entryName, fingerprintOfName?_entryName] at heq
  exact Option.some.inj heq

/-- The bytes of the name of an entry are digits and those of its ending. -/
theorem mem_entryName {fingerprint : Fingerprint} {byte : UInt8}
    (h : byte ∈ Bytes.ofText (entryName fingerprint)) :
    Digest.isDigitByte byte = true ∨ byte ∈ Bytes.ofText entrySuffix := by
  rw [ofText_entryName] at h
  exact (List.mem_append.mp h).imp_left ((Digest.ofText_toHex fingerprint).2 byte)

theorem isPiece_entryName (fingerprint : Fingerprint) :
    IsPiece (Bytes.ofText (entryName fingerprint)) := by
  have hlength := length_entryName fingerprint
  constructor
  · intro heq
    rw [heq] at hlength
    cases hlength
  · intro hmem
    rcases mem_entryName hmem with hdigit | hsuffix
    · exact absurd hdigit (by decide)
    · exact absurd hsuffix (by decide)
  · intro heq
    rw [heq] at hlength
    cases hlength
  · intro heq
    rw [heq] at hlength
    cases hlength

theorem null_notMem_entryName (fingerprint : Fingerprint) :
    0 ∉ Bytes.ofText (entryName fingerprint) := by
  intro hmem
  rcases mem_entryName hmem with hdigit | hsuffix
  · exact absurd hdigit (by decide)
  · exact absurd hsuffix (by decide)

/-! ## Directories with one name for each fingerprint -/

variable {directory : Path} {fs : FileSystem}

/-- Every name that is read as a fingerprint is the one that is written for it. -/
def IsCanonical (fs : FileSystem) (directory : Path) : Prop :=
  ∀ names, fs.list directory = .ok names → ∀ name ∈ names, ∀ fingerprint,
    fingerprintOfName? name = some fingerprint → name = Bytes.ofText (entryName fingerprint)

/-- No name is listed twice. -/
theorem nodup_list {names : List Name} (hn : (fs.nodes.map (·.1)).Nodup)
    (h : fs.list directory = .ok names) : names.Nodup := by
  have hchildren : ∀ location, (fs.childNames location).Nodup := by
    intro location
    unfold FileSystem.childNames
    rw [List.Perm.nodup_iff (List.mergeSort_perm _ _)]
    have hkeys : fs.nodes.filterMap (fun entry =>
        if entry.1.dropLast = location ∧ entry.1 ≠ [] then entry.1.getLast? else none) =
          (fs.nodes.map (·.1)).filterMap fun key =>
            if key.dropLast = location ∧ key ≠ [] then key.getLast? else none := by
      rw [List.filterMap_map]
      rfl
    rw [hkeys]
    refine hn.filterMap fun key other name hkey hother => ?_
    have hlast : ∀ key : Location, name ∈ (if key.dropLast = location ∧ key ≠ [] then key.getLast?
        else none) → key = location ++ [name] := by
      intro key hmem
      split at hmem
      · rename_i hbelow
        obtain ⟨above, rfl⟩ := List.getLast?_eq_some_iff.mp hmem
        rw [← hbelow.1, List.dropLast_concat]
      · cases hmem
    rw [hlast key hkey, hlast other hother]
  obtain ⟨⟨place, node⟩, -, hrest⟩ := Outcome.of_bind_eq_ok h
  cases node with
  | file content time => cases hrest
  | link there => cases hrest
  | directory =>
      simp only [pure, Except.pure, Except.ok.injEq] at hrest
      rw [← hrest]
      split
      · exact List.nodup_nil
      · exact hchildren place.location

/-- Opening a cache on a directory of canonical names counts nothing twice. -/
theorem IsCanonical.overcountAt_eq_zero (h : IsCanonical fs directory)
    (hn : (fs.nodes.map (·.1)).Nodup) : overcountAt directory fs = 0 := by
  refine Cache.overcountAt_eq_zero fun names hlist => ?_
  refine List.pairwise_filterMap.mpr ((nodup_list hn hlist).imp_of_mem ?_)
  intro name other hname hother hne fingerprint hfingerprint second hsecond heq
  rw [← heq] at hsecond
  refine hne ?_
  rw [h names hlist name hname fingerprint hfingerprint,
    h names hlist other hother fingerprint hsecond]

end Cache

end ScriptModules
