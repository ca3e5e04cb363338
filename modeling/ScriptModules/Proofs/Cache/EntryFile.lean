import ScriptModules.Cache.Entry
import ScriptModules.Proofs.Outcome

/-!
# Entry files have one form

A file that is read as the entry of a fingerprint and an engine is, byte for byte,
the file that is written for them and the payload that was read.  So no file holds
entries of two fingerprints, and none holds two payloads; no entry begins with another
(`one_form_of_decode`).

The checksum plays no part in this.  It may be any function.
-/

namespace ScriptModules

/-! ## Numbers and texts as bytes -/

theorem Bytes.toNat_lt (bytes : Bytes) : bytes.toNat < 256 ^ bytes.length := by
  have h := congrArg Bytes.toNat (Bytes.ofNat_toNat bytes)
  rw [Bytes.toNat_ofNat] at h
  rw [← h]
  exact Nat.mod_lt _ (Nat.pow_pos (by decide))

/-- Numbers that fit their width are told apart. -/
theorem Bytes.ofNat_inj {width m n : Nat} (hm : m < 256 ^ width) (hn : n < 256 ^ width)
    (h : ofNat width m = ofNat width n) : m = n := by
  have heq := congrArg Bytes.toNat h
  rwa [toNat_ofNat, toNat_ofNat, Nat.mod_eq_of_lt hm, Nat.mod_eq_of_lt hn] at heq

/-- A number that fits its width is read back. -/
theorem Bytes.toNat_ofNat_of_lt {width n : Nat} (h : n < 256 ^ width) :
    (ofNat width n).toNat = n := by
  rw [toNat_ofNat, Nat.mod_eq_of_lt h]

theorem Bytes.ofText_inj {a b : String} (h : ofText a = ofText b) : a = b := by
  have hdata : a.toUTF8.data = b.toUTF8.data := Array.toList_inj.mp h
  have hbytes : a.toUTF8 = b.toUTF8 := ByteArray.ext hdata
  exact String.toByteArray_inj.mp hbytes

theorem Bytes.ofText_append (a b : String) : ofText (a ++ b) = ofText a ++ ofText b := by
  have htext : (a ++ b).toUTF8 = a.toUTF8 ++ b.toUTF8 := String.toByteArray_append
  rw [ofText, ofText, ofText, htext, ByteArray.data_append, Array.toList_append]

/-- A text is encoded character by character. -/
theorem Bytes.ofText_ofList (text : List Char) :
    ofText (String.ofList text) = text.flatMap String.utf8EncodeChar := by
  unfold ofText
  simp [String.ofList, List.utf8Encode]

namespace Cache.Entry

variable {checksum : Bytes → Digest} {fingerprint : Fingerprint} {engine : String}
  {file payload : Bytes}

theorem takeBytes_eq_ok {n : Nat} {bytes start rest : Bytes}
    (h : takeBytes n bytes = .ok (start, rest)) : bytes = start ++ rest ∧ start.length = n := by
  unfold takeBytes at h
  split at h
  · rename_i hn
    cases h
    exact ⟨(List.take_append_drop n bytes).symm, List.length_take_of_le hn⟩
  · cases h

/-! ## Reading and writing -/

/-- A number that was read is written again as the bytes it was read from. -/
theorem ofNat_toNat_of_length {bytes : Bytes} {width : Nat} (h : bytes.length = width) :
    Bytes.ofNat width bytes.toNat = bytes := by
  rw [← h]
  exact Bytes.ofNat_toNat bytes

/-- The engine and the payload have lengths that an entry file can state. -/
def Fits (engine : String) (payload : Bytes) : Prop :=
  (Bytes.ofText engine).length ≤ engineLimit ∧ payload.length + 32 ≤ lengthLimit

theorem Fits.lt (h : Fits engine payload) :
    (Bytes.ofText engine).length < 256 ^ 2 ∧ payload.length < 256 ^ 8 := by
  obtain ⟨hengine, hpayload⟩ := h
  unfold engineLimit at hengine
  unfold lengthLimit at hpayload
  omega

/-- What is read as an entry is what is written for it, in full.  After the last check
nothing is left over, since the lengths of the payload and of the checksum add up to all
of the rest. -/
theorem of_decode_eq_ok (h : decode checksum fingerprint engine file = .ok payload) :
    file = encode checksum fingerprint engine payload ∧ Fits engine payload := by
  unfold decode at h
  obtain ⟨⟨start, rest₁⟩, tstart, h⟩ := Outcome.of_bind_eq_ok h
  obtain ⟨hmagic, h⟩ := Outcome.of_check_eq_ok h
  obtain ⟨⟨version, rest₂⟩, tversion, h⟩ := Outcome.of_bind_eq_ok h
  obtain ⟨hformat, h⟩ := Outcome.of_check_eq_ok h
  obtain ⟨⟨stated, rest₃⟩, tstated, h⟩ := Outcome.of_bind_eq_ok h
  obtain ⟨hfingerprint, h⟩ := Outcome.of_check_eq_ok h
  obtain ⟨⟨engineLength, rest₄⟩, tengineLength, h⟩ := Outcome.of_bind_eq_ok h
  obtain ⟨⟨engineBytes, rest₅⟩, tengineBytes, h⟩ := Outcome.of_bind_eq_ok h
  obtain ⟨hengine, h⟩ := Outcome.of_check_eq_ok h
  obtain ⟨⟨length, rest₆⟩, tlength, h⟩ := Outcome.of_bind_eq_ok h
  obtain ⟨htotal, h⟩ := Outcome.of_check_eq_ok h
  obtain ⟨⟨found, rest₇⟩, tfound, h⟩ := Outcome.of_bind_eq_ok h
  obtain ⟨⟨sum, rest₈⟩, tsum, h⟩ := Outcome.of_bind_eq_ok h
  obtain ⟨hchecksum, h⟩ := Outcome.of_check_eq_ok h
  cases h
  simp only [ne_eq, Decidable.not_not] at hmagic hformat hfingerprint hengine htotal hchecksum
  obtain ⟨rfl, -⟩ := takeBytes_eq_ok tstart
  obtain ⟨rfl, hversion⟩ := takeBytes_eq_ok tversion
  obtain ⟨rfl, -⟩ := takeBytes_eq_ok tstated
  obtain ⟨rfl, hengineLength⟩ := takeBytes_eq_ok tengineLength
  obtain ⟨rfl, hengineBytes⟩ := takeBytes_eq_ok tengineBytes
  obtain ⟨rfl, hlength⟩ := takeBytes_eq_ok tlength
  obtain ⟨rfl, hfound⟩ := takeBytes_eq_ok tfound
  obtain ⟨rfl, hsum⟩ := takeBytes_eq_ok tsum
  rw [List.length_append, List.length_append, hfound, hsum] at htotal
  have hrest : rest₈ = [] := by
    have hle := Nat.min_le_left (length.toNat + 32) lengthLimit
    rw [← htotal] at hle
    exact List.eq_nil_of_length_eq_zero (by omega)
  have hpayload : payload.length + 32 ≤ lengthLimit := by
    rw [hfound]
    refine Nat.le_trans (Nat.add_le_add_left (Nat.le_add_right 32 rest₈.length) _) ?_
    rw [← Nat.add_assoc, Nat.add_assoc, htotal]
    exact Nat.min_le_right _ _
  have hfits : engineBytes.length ≤ engineLimit := by
    have hlt := Bytes.toNat_lt engineLength
    rw [hengineLength, ← hengineBytes] at hlt
    unfold engineLimit
    omega
  refine ⟨?_, hengine ▸ hfits, hpayload⟩
  subst hmagic hfingerprint hchecksum hrest
  unfold encode
  simp only [← hengine, List.take_of_length_le hfits, List.append_nil, List.append_assoc]
  rw [← hformat, ofNat_toNat_of_length hversion, hengineBytes,
    ofNat_toNat_of_length hengineLength, hfound, ofNat_toNat_of_length hlength]

theorem eq_encode_of_decode (h : decode checksum fingerprint engine file = .ok payload) :
    file = encode checksum fingerprint engine payload :=
  (of_decode_eq_ok h).1

theorem takeBytes_append {n : Nat} {start rest : Bytes} (h : start.length = n) :
    takeBytes n (start ++ rest) = .ok (start, rest) := by
  subst h
  simp [takeBytes]

theorem takeBytes_of_length {n : Nat} {bytes : Bytes} (h : bytes.length = n) :
    takeBytes n bytes = .ok (bytes, []) := by
  subst h
  simp [takeBytes]

/-- An entry of lengths that can be stated is read as it was written. -/
theorem decode_encode (h : Fits engine payload) :
    decode checksum fingerprint engine (encode checksum fingerprint engine payload) =
      .ok payload := by
  have hengineLength := Bytes.toNat_ofNat_of_lt h.lt.1
  have hlength := Bytes.toNat_ofNat_of_lt h.lt.2
  obtain ⟨hengine, hpayload⟩ := h
  have hversion : (Bytes.ofNat 2 formatVersion).toNat = formatVersion := by decide
  have hsum : (checksum payload).bytes.length = 32 := (checksum payload).length_eq
  have htotal : (payload ++ (checksum payload).bytes).length =
      min ((Bytes.ofNat 8 payload.length).toNat + 32) lengthLimit := by
    rw [hlength, List.length_append, hsum, Nat.min_eq_left hpayload]
  unfold encode
  simp only [List.take_of_length_le hengine, List.append_assoc]
  unfold decode
  simp only [bind, Except.bind]
  rw [takeBytes_append (n := 4) (by decide)]
  simp only [ne_eq, not_true_eq_false, if_false]
  rw [takeBytes_append (Bytes.length_ofNat 2 _)]
  simp only [hversion, not_true_eq_false, if_false]
  rw [takeBytes_append fingerprint.length_eq]
  simp only [not_true_eq_false, if_false]
  rw [takeBytes_append (Bytes.length_ofNat 2 _)]
  simp only
  rw [takeBytes_append hengineLength.symm]
  simp only [not_true_eq_false, if_false]
  rw [takeBytes_append (Bytes.length_ofNat 8 _)]
  simp only [htotal, not_true_eq_false, if_false]
  rw [takeBytes_append hlength.symm]
  simp only
  rw [takeBytes_of_length hsum]
  simp only [not_true_eq_false, if_false]
  rfl

/-- Two entries that are written alike are of one fingerprint and hold one payload. -/
theorem encode_inj {other : Fingerprint} {otherEngine : String} {otherPayload : Bytes}
    (h : encode checksum fingerprint engine payload =
      encode checksum other otherEngine otherPayload) :
    fingerprint = other ∧ payload = otherPayload := by
  have hlen := congrArg List.length h
  unfold encode at h hlen
  simp only [List.append_assoc] at h
  obtain ⟨-, h⟩ := List.append_inj h rfl
  obtain ⟨-, h⟩ := List.append_inj h rfl
  obtain ⟨hfingerprint, h⟩ := List.append_inj h (by rw [fingerprint.length_eq, other.length_eq])
  obtain ⟨hcount, h⟩ := List.append_inj h (by simp)
  have hengine : ((Bytes.ofText engine).take engineLimit).length =
      ((Bytes.ofText otherEngine).take engineLimit).length :=
    Bytes.ofNat_inj (List.length_take_le _ _ |> Nat.lt_succ_of_le)
      (List.length_take_le _ _ |> Nat.lt_succ_of_le) hcount
  obtain ⟨-, h⟩ := List.append_inj h hengine
  obtain ⟨-, h⟩ := List.append_inj h (by simp)
  have hpayload : payload.length = otherPayload.length := by
    simp only [List.length_append, Bytes.length_ofNat, fingerprint.length_eq, other.length_eq,
      hengine, Digest.length_eq] at hlen
    omega
  obtain ⟨hp, -⟩ := List.append_inj h hpayload
  refine ⟨?_, hp⟩
  cases fingerprint
  cases other
  congr

/-- What is read from an entry that was written is what was written, for the
fingerprint it was written for. -/
theorem eq_of_decode_encode {other : Fingerprint} {otherEngine : String} {otherPayload : Bytes}
    (h : decode checksum fingerprint engine (encode checksum other otherEngine otherPayload) =
      .ok payload) : fingerprint = other ∧ payload = otherPayload :=
  encode_inj (eq_encode_of_decode h).symm

/-- Behind the front of an entry of lengths that can be stated no other entry fits. -/
theorem encode_append_inj {other : Fingerprint} {otherEngine : String}
    {otherPayload rest others : Bytes} (hf : Fits engine payload)
    (hf' : Fits otherEngine otherPayload)
    (h : encode checksum fingerprint engine payload ++ rest =
      encode checksum other otherEngine otherPayload ++ others) :
    fingerprint = other ∧ engine = otherEngine ∧ payload = otherPayload ∧ rest = others := by
  obtain ⟨hlength, hsize⟩ := hf.lt
  obtain ⟨hlength', hsize'⟩ := hf'.lt
  unfold encode at h
  simp only [List.take_of_length_le hf.1, List.take_of_length_le hf'.1, List.append_assoc] at h
  obtain ⟨-, h⟩ := List.append_inj h rfl
  obtain ⟨-, h⟩ := List.append_inj h rfl
  obtain ⟨hfingerprint, h⟩ := List.append_inj h (by rw [fingerprint.length_eq, other.length_eq])
  obtain ⟨hcount, h⟩ := List.append_inj h (by simp)
  obtain ⟨hengine, h⟩ := List.append_inj h (Bytes.ofNat_inj hlength hlength' hcount)
  obtain ⟨hcount, h⟩ := List.append_inj h (by simp)
  obtain ⟨hpayload, h⟩ := List.append_inj h (Bytes.ofNat_inj hsize hsize' hcount)
  obtain ⟨-, hrest⟩ := List.append_inj h (by rw [Digest.length_eq, Digest.length_eq])
  refine ⟨?_, Bytes.ofText_inj hengine, hpayload, hrest⟩
  cases fingerprint
  cases other
  congr

/-- Of two files that can be read as entries, none is the beginning of the other, unless
both are the same. -/
theorem eq_of_decode_of_prefix {other : Fingerprint} {otherEngine : String}
    {shorter otherPayload : Bytes} (h : decode checksum fingerprint engine file = .ok payload)
    (h' : decode checksum other otherEngine shorter = .ok otherPayload) (hp : shorter <+: file) :
    shorter = file ∧ other = fingerprint ∧ otherEngine = engine ∧ otherPayload = payload := by
  obtain ⟨rest, rfl⟩ := hp
  obtain ⟨hfile, hfits⟩ := of_decode_eq_ok h
  obtain ⟨rfl, hfits'⟩ := of_decode_eq_ok h'
  rw [← List.append_nil (encode checksum fingerprint engine payload)] at hfile
  obtain ⟨rfl, rfl, rfl, rfl⟩ := encode_append_inj hfits' hfits hfile
  exact ⟨(List.append_nil _).symm, rfl, rfl, rfl⟩

/-! ## The length of the payload -/

/-- The length of the engine's version, as a file states it. -/
def statedEngineLength (file : Bytes) : Nat :=
  Bytes.toNat ((file.drop 38).take 2)

/-- The length of the payload, as a file states it behind the version. -/
def statedLength (file : Bytes) : Nat :=
  Bytes.toNat ((file.drop (40 + statedEngineLength file)).take 8)

/-- What is left of a file behind the length of the payload. -/
def leftFor (file : Bytes) : Bytes :=
  file.drop (48 + statedEngineLength file)

/-- An entry states the length of its payload, and only the payload and the checksum
come behind it. -/
theorem statedLength_encode (h : Fits engine payload) :
    statedLength (encode checksum fingerprint engine payload) = payload.length ∧
      leftFor (encode checksum fingerprint engine payload) =
        payload ++ (checksum payload).bytes := by
  have hengineLength := Bytes.toNat_ofNat_of_lt h.lt.1
  have hlength := Bytes.toNat_ofNat_of_lt h.lt.2
  obtain ⟨hengine, hpayload⟩ := h
  have hsplit : encode checksum fingerprint engine payload =
      (magic ++ Bytes.ofNat 2 formatVersion ++ fingerprint.bytes) ++
        (Bytes.ofNat 2 (Bytes.ofText engine).length ++ (Bytes.ofText engine ++
          (Bytes.ofNat 8 payload.length ++ (payload ++ (checksum payload).bytes)))) := by
    simp only [encode, List.take_of_length_le hengine, List.append_assoc]
  have hfront : (magic ++ Bytes.ofNat 2 formatVersion ++ fingerprint.bytes).length = 38 := by
    simp [magic, fingerprint.length_eq]
  have hstated : statedEngineLength (encode checksum fingerprint engine payload) =
      (Bytes.ofText engine).length := by
    rw [statedEngineLength, hsplit, List.drop_left' hfront,
      List.take_left' (Bytes.length_ofNat 2 _), hengineLength]
  have hbehind : (encode checksum fingerprint engine payload).drop
      (40 + (Bytes.ofText engine).length) =
        Bytes.ofNat 8 payload.length ++ (payload ++ (checksum payload).bytes) := by
    rw [show 40 + (Bytes.ofText engine).length = 38 + (2 + (Bytes.ofText engine).length) by omega,
      ← List.drop_drop, hsplit, List.drop_left' hfront, ← List.drop_drop,
      List.drop_left' (Bytes.length_ofNat 2 _), List.drop_left]
  refine ⟨?_, ?_⟩
  · rw [statedLength, hstated, hbehind, List.take_left' (Bytes.length_ofNat 8 _), hlength]
  · rw [leftFor, hstated,
      show 48 + (Bytes.ofText engine).length = (40 + (Bytes.ofText engine).length) + 8 by omega,
      ← List.drop_drop, hbehind, List.drop_left' (Bytes.length_ofNat 8 _)]

/-- **Entry files have one form.**  A file that is read as an entry is what is written for
its fingerprint, engine and payload.  No other file that begins with it, and none it
begins with, is an entry of anything; nor is it an entry of anything else.  And the
payload and the checksum are all that is left behind the length it states, whatever 64
bits this is. -/
theorem one_form_of_decode (h : decode checksum fingerprint engine file = .ok payload) :
    file = encode checksum fingerprint engine payload ∧
      (∀ other otherFingerprint otherEngine otherPayload,
        decode checksum otherFingerprint otherEngine other = .ok otherPayload →
        other <+: file ∨ file <+: other →
          other = file ∧ otherFingerprint = fingerprint ∧ otherEngine = engine ∧
            otherPayload = payload) ∧
      statedLength file + 32 = (leftFor file).length := by
  obtain ⟨hfile, hfits⟩ := of_decode_eq_ok h
  refine ⟨hfile, ?_, ?_⟩
  · rintro other otherFingerprint otherEngine otherPayload hother (hshorter | hlonger)
    · exact eq_of_decode_of_prefix h hother hshorter
    · obtain ⟨rfl, rfl, rfl, rfl⟩ := eq_of_decode_of_prefix hother h hlonger
      exact ⟨rfl, rfl, rfl, rfl⟩
  · obtain ⟨hstated, hleft⟩ := statedLength_encode hfits
    rw [hfile, hstated, hleft, List.length_append, Digest.length_eq]

/-- The digest of 32 zeros. -/
def zeroDigest : Digest := ⟨List.replicate 32 0, rfl⟩

/-- With one byte more behind it an entry is no entry. -/
theorem not_decode_of_one_byte_more :
    decode (fun _ => zeroDigest) zeroDigest "1" (encode (fun _ => zeroDigest) zeroDigest "1" [7]) =
        .ok [7] ∧
      ∀ payload, decode (fun _ => zeroDigest) zeroDigest "1"
        (encode (fun _ => zeroDigest) zeroDigest "1" [7] ++ [0]) ≠ .ok payload := by
  have hread : decode (fun _ => zeroDigest) zeroDigest "1"
      (encode (fun _ => zeroDigest) zeroDigest "1" [7]) = .ok [7] := decode_encode (by
    constructor <;> decide)
  refine ⟨hread, fun payload hmore => ?_⟩
  obtain ⟨-, hunique, -⟩ := one_form_of_decode hread
  obtain ⟨hsame, -⟩ := hunique _ _ _ _ hmore (Or.inr (List.prefix_append _ [0]))
  have hlength := congrArg List.length hsame
  simp at hlength

/-- A file that begins with another byte is no entry. -/
theorem decode_cons_ne_ok {byte : UInt8} {rest : Bytes} (hb : byte ≠ 0x4C) :
    decode checksum fingerprint engine (byte :: rest) ≠ .ok payload := by
  intro h
  have heq := eq_encode_of_decode h
  simp only [encode, magic, List.append_assoc, List.cons_append, List.cons.injEq] at heq
  exact hb heq.1

end Cache.Entry

end ScriptModules
