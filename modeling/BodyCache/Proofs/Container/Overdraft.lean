import BodyCache.Proofs.Codec.Extension
import BodyCache.Proofs.Container.File

/-!
# Texts That Are Announced but Not There

The reader of a container file makes more room than the file has bytes when a text in it announces
more bytes than are left. This module says when that happens, and for how many bytes.

The first text of a file is the version of the producer in the header, which is read before the
magic bytes are looked at and before any fingerprint is computed. Whatever follows the fourth byte
and a number is taken for its length. The other texts are those of the container, and they are read
only if the header is the expected one and the fingerprint is right.

## Main results

* `ContainerHeader.decode_eq_unexpectedEnd_iff`: the room that is made for a header in vain.
* `Container.exists_room_iff`: the room that is made for a file in vain.
* `Container.overdraws_set_toFile`: a single changed byte that has room made in vain.
-/

namespace BodyCache

/-! ### Headers -/

/-- **Room is made in vain for a header** exactly when its bytes go on, after four of them and a
number, with the announcement of a text that is not all there. Which bytes the four are and which
number follows does not matter. -/
theorem ContainerHeader.decode_eq_unexpectedEnd_iff {w : Bytes} {n : Nat} (hn : 0 < n) :
    decode w = .error (.unexpectedEnd n) ↔
      4 ≤ w.length ∧ ∃ version between rest,
        Codec.word32.decode (w.drop 4) = .ok (version, between) ∧
          Codec.size.decode between = .ok (n, rest) ∧ rest.length < n ∧ n < Codec.addressLimit := by
  constructor
  · intro h
    obtain h | ⟨magic, left, hmagic, h⟩ := Decoder.bind_eq_error_iff.mp h
    · obtain ⟨-, hroom⟩ := Decoder.take_eq_error_iff.mp h
      cases hroom
      exact absurd hn (Nat.lt_irrefl 0)
    rw [Decoder.take] at hmagic
    split at hmagic
    · next hfour =>
      cases hmagic
      refine ⟨hfour, ?_⟩
      obtain h | ⟨version, between, hversion, h⟩ := Decoder.bind_eq_error_iff.mp h
      · exact absurd (Varint.room_of_decode (Decoder.map_eq_error_iff.mp h)) (Nat.ne_of_gt hn)
      obtain h | ⟨producer, after, -, h⟩ := Decoder.bind_eq_error_iff.mp h
      · obtain ⟨rest, hannounced⟩ := (Codec.text_decode_eq_unexpectedEnd_iff hn).mp h
        exact ⟨version, between, rest, hversion, hannounced⟩
      · obtain h | ⟨checksum, _, -, h⟩ := Decoder.bind_eq_error_iff.mp h
        · obtain ⟨-, hroom⟩ := Decoder.take_eq_error_iff.mp h
          cases hroom
          exact absurd hn (Nat.lt_irrefl 0)
        · cases hchecksum : Fingerprint.ofBytes? checksum with
          | none =>
              rw [hchecksum] at h
              cases h
              exact absurd hn (Nat.lt_irrefl 0)
          | some fingerprint =>
              rw [hchecksum] at h
              cases h
    · cases hmagic
  · rintro ⟨hfour, version, between, rest, hversion, hannounced⟩
    have hmagic : Decoder.take 4 0 w = .ok (w.take 4, w.drop 4) := if_pos hfour
    have htext := (Codec.text_decode_eq_unexpectedEnd_iff hn).mpr ⟨rest, hannounced⟩
    refine (Decoder.bind_of_ok hmagic).trans ((Decoder.bind_of_ok hversion).trans ?_)
    exact Decoder.bind_of_error htext

/-! ### Files -/

namespace Container

/-- The bytes that a file has for its header. -/
def headerBytes (file : Bytes) : Bytes := (file.drop 4).take (LittleEndian.decode (file.take 4))

/-- The bytes of a file after its header. -/
def payloadBytes (file : Bytes) : Bytes := (file.drop 4).drop (LittleEndian.decode (file.take 4))

/-- A text in a container file announces so many bytes, more than are left. -/
inductive Overdraws (fingerprint : Bytes → Fingerprint) (file : Bytes) (n : Nat) : Prop
  /-- It is the version of the producer, which comes after four bytes and a number, or whatever is
  found in its place. -/
  | header {version : UInt32} {between rest : Bytes} (long : 4 ≤ file.length)
      (framed : LittleEndian.decode (file.take 4) ≤ (file.drop 4).length)
      (magic : 4 ≤ (headerBytes file).length)
      (format : Codec.word32.decode ((headerBytes file).drop 4) = .ok (version, between))
      (announced : Codec.size.decode between = .ok (n, rest)) (missing : rest.length < n)
      (limited : n < Codec.addressLimit)
  /-- It is a text of the container, in a file with the expected header, and the reader gets to
  it. -/
  | payload {h : ContainerHeader} {slack : Bytes} (long : 4 ≤ file.length)
      (framed : LittleEndian.decode (file.take 4) ≤ (file.drop 4).length)
      (header : ContainerHeader.decode (headerBytes file) = .ok (h, slack))
      (magic : h.magic = ContainerHeader.expectedMagic)
      (version : h.formatVersion = ContainerHeader.expectedVersion)
      (checksum : fingerprint (payloadBytes file) = h.checksum)
      (announced : Codec.Announces (payloadBytes file) n)
      (reached : codec.decode (payloadBytes file) = .error (.unexpectedEnd n))

variable {fingerprint : Bytes → Fingerprint} {file : Bytes} {n : Nat}

/-- When room is made in vain, a text announces more bytes than are left. -/
theorem overdraws_of_room (hn : 0 < n) {fault : ContainerFault}
    (h : ofFileWith fingerprint file = .error fault) (hroom : fault.room = n) :
    Overdraws fingerprint file n := by
  have hzero : ∀ {p : Prop}, 0 = n → p := fun h => absurd h (Nat.ne_of_lt hn)
  rw [ofFileWith] at h
  by_cases hlong : file.length < 4
  · rw [if_pos hlong] at h
    cases h
    exact hzero hroom
  rw [if_neg hlong] at h
  by_cases hframed : (file.drop 4).length < LittleEndian.decode (file.take 4)
  · simp only [if_pos hframed] at h
    cases h
    exact hzero hroom
  simp only [if_neg hframed] at h
  have hlong := Nat.not_lt.mp hlong
  have hframed := Nat.not_lt.mp hframed
  have hheaderBytes : (file.drop 4).take (LittleEndian.decode (file.take 4)) = headerBytes file :=
    rfl
  have hpayloadBytes : (file.drop 4).drop (LittleEndian.decode (file.take 4)) = payloadBytes file :=
    rfl
  rw [hheaderBytes, hpayloadBytes] at h
  rcases hheader : ContainerHeader.decode (headerBytes file) with e | ⟨header, slack⟩
  · simp only [hheader] at h
    cases h
    obtain rfl := (DecodeError.eq_unexpectedEnd_iff hn).mpr hroom
    obtain ⟨hmagic, version, between, rest, hformat, hannounced, hmissing, hlimited⟩ :=
      (ContainerHeader.decode_eq_unexpectedEnd_iff hn).mp hheader
    exact .header hlong hframed hmagic hformat hannounced hmissing hlimited
  -- Of the checks after the header, only the last one makes room.
  simp only [hheader] at h
  split at h
  · cases h
    exact hzero hroom
  split at h
  · cases h
    exact hzero hroom
  split at h
  · cases h
    exact hzero hroom
  next hmagic hversion hchecksum =>
    rcases hpayload : codec.decode (payloadBytes file) with e | ⟨c, slack'⟩
    · rw [hpayload] at h
      cases h
      obtain rfl := (DecodeError.eq_unexpectedEnd_iff hn).mpr hroom
      exact .payload hlong hframed hheader (Decidable.not_not.mp hmagic)
        (Decidable.not_not.mp hversion) (Decidable.not_not.mp hchecksum)
        (steady_codec.announced hn hpayload) hpayload
    · rw [hpayload] at h
      cases h

/-- When a text announces more bytes than are left, room is made in vain. -/
theorem Overdraws.exists_room (h : Overdraws fingerprint file n) (hn : 0 < n) :
    ∃ fault, ofFileWith fingerprint file = .error fault ∧ fault.room = n := by
  cases h with
  | header hlong hframed hmagic hformat hannounced hmissing hlimited =>
      have hheader := (ContainerHeader.decode_eq_unexpectedEnd_iff hn).mpr
        ⟨hmagic, _, _, _, hformat, hannounced, hmissing, hlimited⟩
      rw [headerBytes] at hheader
      refine ⟨.header (.unexpectedEnd n), ?_, rfl⟩
      rw [ofFileWith, if_neg (Nat.not_lt.mpr hlong)]
      simp only [if_neg (Nat.not_lt.mpr hframed), hheader]
  | payload hlong hframed hheader hmagic hversion hchecksum _ hreached =>
      rw [headerBytes] at hheader
      rw [payloadBytes] at hchecksum hreached
      refine ⟨.payload (.unexpectedEnd n), ?_, rfl⟩
      rw [ofFileWith, if_neg (Nat.not_lt.mpr hlong)]
      simp only [if_neg (Nat.not_lt.mpr hframed), hheader, hmagic, hversion, hchecksum, hreached,
        ne_eq, not_true_eq_false, if_false]

/-- **Room is made in vain for a file** exactly when a text in it announces more bytes than are
left. -/
theorem exists_room_iff (hn : 0 < n) :
    (∃ fault, ofFileWith fingerprint file = .error fault ∧ fault.room = n) ↔
      Overdraws fingerprint file n := by
  constructor
  · rintro ⟨fault, h, hroom⟩
    exact overdraws_of_room hn h hroom
  · exact fun h => h.exists_room hn

/-! ### One changed byte -/

/-- The header of a container with the length of its version replaced by the mark of a number of
eight bytes. -/
def markedHeader (c : Container) (version : String) : Bytes :=
  ContainerHeader.expectedMagic ++
    (1 :: 253 :: (Utf8.encode version ++ (Fingerprint.ofContent (codec.encode c)).bytes))

/-- The tenth byte of a file is the length of the version, if that is short. -/
theorem set_toFile {c : Container} {version : String}
    (hshort : (Utf8.encode version).length < 251) :
    (c.toFile version).set 9 253 = frame (c.markedHeader version) (codec.encode c) := by
  have hsize : Codec.size.encode (Utf8.encode version).length =
      [UInt8.ofNat (Utf8.encode version).length] := if_pos hshort
  have hheader : (headerFor version (codec.encode c)).encode =
      ContainerHeader.expectedMagic ++ (1 :: UInt8.ofNat (Utf8.encode version).length ::
        (Utf8.encode version ++ (Fingerprint.ofContent (codec.encode c)).bytes)) := by
    change ContainerHeader.expectedMagic ++ (Codec.word32.encode 1 ++
      (Codec.size.encode (Utf8.encode version).length ++ Utf8.encode version ++
        (Fingerprint.ofContent (codec.encode c)).bytes)) = _
    rw [hsize]
    rfl
  have hlength : (headerFor version (codec.encode c)).encode.length =
      (c.markedHeader version).length := by
    rw [hheader, markedHeader]
    rfl
  have hfour : (LittleEndian.encode 4 (c.markedHeader version).length).length ≤ 9 := by
    rw [LittleEndian.length_encode]
    decide
  rw [toFile, frame, frame, hlength, List.set_append_right _ _ hfour, LittleEndian.length_encode,
    hheader]
  rfl

/-- **A single changed byte may be enough.** When the length of the version is replaced by the mark
of a number of eight bytes, the version and the beginning of the fingerprint are taken for the
length. -/
theorem overdraws_set_toFile {c : Container} {version : String} {n : Nat}
    (hshort : (Utf8.encode version).length < 251)
    (hn : LittleEndian.decode ((Utf8.encode version ++
      (Fingerprint.ofContent (codec.encode c)).bytes).take 8) = n)
    (hmissing : (Utf8.encode version).length + 8 < n) (hlimited : n < Codec.addressLimit) :
    Overdraws Fingerprint.ofContent ((c.toFile version).set 9 253) n := by
  have hbytes := (Fingerprint.ofContent (codec.encode c)).length_bytes
  generalize hafter : Utf8.encode version ++ (Fingerprint.ofContent (codec.encode c)).bytes = after
    at hn
  have hlength : after.length = (Utf8.encode version).length + 16 := by
    rw [← hafter, List.length_append, hbytes]
  have hmarked : c.markedHeader version = ContainerHeader.expectedMagic ++ 1 :: 253 :: after := by
    rw [markedHeader, hafter]
  have hsize : (c.markedHeader version).length < UInt32.size := by
    rw [hmarked, List.length_append, List.length_cons, List.length_cons, hlength]
    simp only [ContainerHeader.expectedMagic, List.length_cons, List.length_nil, UInt32.size]
    omega
  rw [set_toFile hshort]
  have hannounced : LittleEndian.decode ((frame (c.markedHeader version) (codec.encode c)).take 4) =
      (c.markedHeader version).length := decode_take_frame hsize
  have hdrop := drop_frame (c.markedHeader version) (codec.encode c)
  have hheader : headerBytes (frame (c.markedHeader version) (codec.encode c)) =
      c.markedHeader version := by
    rw [headerBytes, hannounced, hdrop, List.take_left]
  have hread : Codec.size.decode (253 :: after) = .ok (n, after.drop 8) := by
    have htake : Decoder.take 8 0 after = .ok (after.take 8, after.drop 8) :=
      if_pos (by omega)
    change (Decoder.take 8 0 after >>= fun p => .ok (LittleEndian.decode p.1, p.2)) = _
    rw [htake, ← hn]
    rfl
  have hformat : Codec.word32.decode
      ((headerBytes (frame (c.markedHeader version) (codec.encode c))).drop 4) =
      .ok (1, 253 :: after) := by
    rw [hheader, hmarked]
    rfl
  refine .header ?_ ?_ ?_ hformat hread ?_ hlimited
  · rw [frame, List.length_append, LittleEndian.length_encode]
    omega
  · rw [hannounced, hdrop, List.length_append]
    omega
  · rw [hheader, hmarked, List.length_append]
    exact Nat.le_add_right 4 _
  · rw [List.length_drop]
    omega

end Container

end BodyCache
