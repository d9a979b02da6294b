import BodyCache.Proofs.Codec.Extension
import BodyCache.Proofs.Container.File

/-!
# Container Files That Are Cut Off

Writing a file may fail on the way and leave its beginning only. A container file that lacks its
end is refused, and it is not the fingerprint alone that sees to it: whatever value the fingerprint
of the shortened payload takes, no container can be read from it, because the bytes end too early
in it.

A header and a payload are read by codecs, which read nothing but the whole. The four bytes that
announce the length of the header hold it up to multiples of 2³² only; a header that is longer is
cut off by its own file, and is refused for that reason.

## Main results

* `Container.exists_of_ofFileWith`: the parts of a container file that is accepted.
* `Container.of_ofFile_cut`: only whole files are read.
* `Container.ofFileWith_cut`: what is found wrong with a file, by the place where it is cut off.
-/

namespace BodyCache

/-! ### Headers -/

namespace ContainerHeader

/-- Headers are read alike in a longer string. -/
theorem extendsTo_decode : decode.ExtendsTo decode := by
  refine (Decoder.ExtendsTo.take 4).bind fun magic =>
    Codec.steady_word32.bind fun version => Codec.steady_text.bind fun producer => ?_
  refine (Decoder.ExtendsTo.take 16).bind fun bytes => ?_
  split
  · exact .pure _
  · exact .fail rfl

/-- The magic bytes of a header are its first four. -/
theorem magic_of_decode {h : ContainerHeader} {w rest : Bytes} (hread : decode w = .ok (h, rest)) :
    h.magic = w.take 4 := by
  obtain ⟨magic, _, htake, hread⟩ := Decoder.exists_of_bind hread
  obtain ⟨_, _, -, hread⟩ := Decoder.exists_of_bind hread
  obtain ⟨_, _, -, hread⟩ := Decoder.exists_of_bind hread
  obtain ⟨bytes, _, -, hread⟩ := Decoder.exists_of_bind hread
  have hmagic : h.magic = magic := by
    cases hchecksum : Fingerprint.ofBytes? bytes with
    | none =>
        rw [hchecksum] at hread
        cases hread
    | some checksum =>
        rw [hchecksum] at hread
        cases hread
        rfl
  obtain ⟨hfour, rfl⟩ := Decoder.of_take htake
  rw [hmagic, List.take_left' hfour.symm]

end ContainerHeader

namespace Container

/-! ### Only whole files are read -/

/-- **The parts of a container file that is accepted**: four bytes that announce the length of the
header, the header, which begins with the magic bytes and has the fingerprint of what follows, and
the container. -/
theorem exists_of_ofFileWith {fingerprint : Bytes → Fingerprint} {file : Bytes} {c : Container}
    (h : ofFileWith fingerprint file = .ok c) :
    ∃ header slack slack', 4 ≤ file.length ∧
      LittleEndian.decode (file.take 4) ≤ (file.drop 4).length ∧
      ContainerHeader.decode ((file.drop 4).take (LittleEndian.decode (file.take 4))) =
        .ok (header, slack) ∧
      header.magic = ContainerHeader.expectedMagic ∧
      header.formatVersion = ContainerHeader.expectedVersion ∧
      fingerprint ((file.drop 4).drop (LittleEndian.decode (file.take 4))) = header.checksum ∧
      codec.decode ((file.drop 4).drop (LittleEndian.decode (file.take 4))) = .ok (c, slack') := by
  rw [ofFileWith] at h
  by_cases hshort : file.length < 4
  · rw [if_pos hshort] at h
    cases h
  rw [if_neg hshort] at h
  by_cases htruncated : (file.drop 4).length < LittleEndian.decode (file.take 4)
  · simp only [if_pos htruncated] at h
    cases h
  simp only [if_neg htruncated] at h
  rcases hheader : ContainerHeader.decode
      ((file.drop 4).take (LittleEndian.decode (file.take 4))) with e | ⟨header, slack⟩
  · rw [hheader] at h
    cases h
  simp only [hheader] at h
  split at h
  · cases h
  split at h
  · cases h
  split at h
  · cases h
  next hmagic hversion hchecksum =>
    rcases hpayload : codec.decode
        ((file.drop 4).drop (LittleEndian.decode (file.take 4))) with e | ⟨c', slack'⟩
    · rw [hpayload] at h
      cases h
    · rw [hpayload] at h
      cases h
      exact ⟨header, slack, slack', Nat.not_lt.mp hshort, Nat.not_lt.mp htruncated, rfl,
        Decidable.not_not.mp hmagic, Decidable.not_not.mp hversion,
        Decidable.not_not.mp hchecksum, rfl⟩

/-- The length of the parts of a file. -/
theorem length_toFile (c : Container) (version : String) :
    (c.toFile version).length =
      4 + ((headerFor version (codec.encode c)).encode.length + (codec.encode c).length) := by
  rw [toFile, frame, List.length_append, LittleEndian.length_encode, List.length_append]

/-- The beginning of a file announces no more than the length of its header, and goes on with the
beginning of what follows. -/
theorem parts_of_cut {header rest cut missing : Bytes} (hfile : frame header rest = cut ++ missing)
    (hfour : 4 ≤ cut.length) :
    LittleEndian.decode (cut.take 4) ≤ header.length ∧
      header ++ rest = cut.drop 4 ++ missing := by
  have htake : cut.take 4 = (frame header rest).take 4 := by
    rw [hfile, List.take_append_of_le_length hfour]
  constructor
  · rw [htake, frame, List.take_left' (LittleEndian.length_encode 4 _),
      LittleEndian.decode_encode]
    exact Nat.mod_le _ _
  · rw [← drop_frame, hfile, List.drop_append_of_le_length hfour]

/-- **Only whole container files are read.** What is read from the beginning of the file that was
written for a container is that container, and nothing is missing. -/
theorem of_ofFile_cut {c c' : Container} {version : String} {cut missing : Bytes}
    (haddress : (c.toFile version).length < Codec.addressLimit)
    (hfile : c.toFile version = cut ++ missing) (h : ofFile cut = .ok c') :
    c' = c ∧ missing = [] := by
  rw [length_toFile] at haddress
  obtain ⟨_, _, _, hfour, hsize, hheader, -, -, -, hpayload⟩ := exists_of_ofFileWith h
  obtain ⟨hannounced, hrest⟩ := parts_of_cut hfile hfour
  generalize LittleEndian.decode (cut.take 4) = size at hsize hheader hpayload hannounced
  generalize hheaderBytes : (headerFor version (codec.encode c)).encode = header
    at hannounced hrest haddress
  -- The header is read from its first `size` bytes, so there are no others.
  have hwhole : header.drop size = [] := by
    have hcut : (cut.drop 4).take size = header.take size := by
      rw [← List.take_append_of_le_length hsize, ← hrest,
        List.take_append_of_le_length hannounced]
    have hversion : (Codec.text.encode version).length < Codec.addressLimit := by
      have hle := length_encode_version_le version (codec.encode c)
      rw [hheaderBytes] at hle
      omega
    have hread : ContainerHeader.decode.Reads (header.take size ++ header.drop size)
        (headerFor version (codec.encode c)) := by
      rw [List.take_append_drop, ← hheaderBytes]
      exact ContainerHeader.reads_decode rfl hversion
    rw [hcut] at hheader
    exact (hread.of_cut ContainerHeader.extendsTo_decode hheader).2
  -- What follows is the beginning of the payload, and is the whole of it.
  have hexact : size = header.length :=
    Nat.le_antisymm hannounced (List.drop_eq_nil_iff.mp hwhole)
  have hpayloadBytes : codec.encode c = (cut.drop 4).drop size ++ missing := by
    rw [← List.drop_append_of_le_length hsize, ← hrest, hexact, List.drop_left]
  have hread : codec.decode.Reads ((cut.drop 4).drop size ++ missing) c := by
    rw [← hpayloadBytes]
    exact lawful_codec.reads c (by omega)
  exact hread.of_cut steady_codec hpayload

/-! ### Where a file is cut off -/

section

variable {header payload cut missing : Bytes} {fingerprint : Bytes → Fingerprint}

/-- A file that is cut off within its header is refused for that reason. -/
theorem ofFileWith_cut_header (hsize : header.length < UInt32.size)
    (hfile : frame header payload = cut ++ missing) (hfour : 4 ≤ cut.length)
    (hshort : cut.length < 4 + header.length) :
    ofFileWith fingerprint cut = .error .truncatedHeader := by
  have hannounced : LittleEndian.decode (cut.take 4) = header.length := by
    rw [← List.take_append_of_le_length hfour, ← hfile, decode_take_frame hsize]
  have hrest : (cut.drop 4).length < header.length := by
    rw [List.length_drop]
    omega
  rw [ofFileWith, if_neg (Nat.not_lt.mpr hfour)]
  simp only [hannounced, if_pos hrest]

/-- What follows a file follows its payload. -/
theorem frame_append (header rest more : Bytes) :
    frame header (rest ++ more) = frame header rest ++ more := by
  rw [frame, frame, List.append_assoc, List.append_assoc]

/-- A file that is cut off after its header is a file with the same header and the beginning of the
payload. -/
theorem exists_of_cut_payload (hfile : frame header payload = cut ++ missing)
    (hlong : 4 + header.length ≤ cut.length) :
    ∃ rest, cut = frame header rest ∧ payload = rest ++ missing := by
  have hsplit (rest : Bytes) : frame header rest = frame header [] ++ rest :=
    frame_append header [] rest
  have hfront : (frame header []).length ≤ cut.length := by
    rwa [frame, List.length_append, LittleEndian.length_encode, List.append_nil]
  obtain ⟨rest, rfl⟩ : frame header [] <+: cut := by
    refine List.prefix_of_prefix_length_le ?_ (List.prefix_append cut missing) hfront
    rw [← hfile, hsplit payload]
    exact List.prefix_append _ _
  rw [hsplit payload, List.append_assoc] at hfile
  exact ⟨rest, (hsplit rest).symm, List.append_cancel_left hfile⟩

end

/-- **A container file that is cut off is refused**, wherever it is cut and however fingerprints
are computed. It lacks the length of its header, or a part of its header; or else it has another
fingerprint than the header says, and if by chance it has the same, its payload is found to end too
early, after room was made for no more bytes than the whole payload had. The bytes of the container
can be addressed, like those of any byte string in memory, and four bytes hold the length of the
header. -/
theorem ofFileWith_cut {c : Container} {version : String} {cut missing : Bytes}
    (haddress : (codec.encode c).length < Codec.addressLimit)
    (hheader : (headerFor version (codec.encode c)).encode.length < UInt32.size)
    (hfile : c.toFile version = cut ++ missing) (hmissing : missing ≠ [])
    (fingerprint : Bytes → Fingerprint) :
    ∃ fault, ofFileWith fingerprint cut = .error fault ∧
      (cut.length < 4 ∧ fault = .noHeaderLength ∨
        4 ≤ cut.length ∧ cut.length < 4 + (headerFor version (codec.encode c)).encode.length ∧
          fault = .truncatedHeader ∨
        ∃ rest room, cut = frame (headerFor version (codec.encode c)).encode rest ∧
          codec.decode rest = .error (.unexpectedEnd room) ∧ room ≤ (codec.encode c).length ∧
          fault =
            if fingerprint rest = Fingerprint.ofContent (codec.encode c) then
              .payload (.unexpectedEnd room)
            else .checksum (Fingerprint.ofContent (codec.encode c)) (fingerprint rest)) := by
  rw [toFile] at hfile
  by_cases hfour : cut.length < 4
  · exact ⟨.noHeaderLength, by rw [ofFileWith, if_pos hfour], .inl ⟨hfour, rfl⟩⟩
  by_cases hshort : cut.length < 4 + (headerFor version (codec.encode c)).encode.length
  · have hfour := Nat.not_lt.mp hfour
    exact ⟨.truncatedHeader, ofFileWith_cut_header hheader hfile hfour hshort,
      .inr (.inl ⟨hfour, hshort, rfl⟩)⟩
  obtain ⟨rest, rfl, hpayload⟩ := exists_of_cut_payload hfile (Nat.not_lt.mp hshort)
  obtain ⟨room, hend, hroom⟩ : ∃ room, codec.decode rest = .error (.unexpectedEnd room) ∧
      room ≤ (codec.encode c).length := by
    have hread := lawful_codec.reads c haddress
    rw [hpayload] at hread ⊢
    exact hread.cut_eq steady_codec hmissing
  refine ⟨_, ?_, .inr (.inr ⟨rest, room, rfl, hend, hroom, rfl⟩)⟩
  have hchecksum : (headerFor version (codec.encode c)).checksum =
      Fingerprint.ofContent (codec.encode c) := rfl
  rw [ofFileWith_frame_eq hheader (decode_headerFor hheader) rfl rfl, hend, hchecksum]
  by_cases hsame : fingerprint rest = Fingerprint.ofContent (codec.encode c)
  · rw [if_neg (not_not_intro hsame), if_pos hsame]
    rfl
  · rw [if_pos hsame, if_neg hsame]

/-- The file of the sample without its last byte is refused, and still is if its fingerprint is
taken to be the one that its header has. -/
theorem ofFileWith_cut_sample :
    let payload := codec.encode sample
    let cut := frame (headerFor "0.1" payload).encode payload.dropLast
    payload.length < Codec.addressLimit ∧
      (headerFor "0.1" payload).encode.length < UInt32.size ∧
      sample.toFile "0.1" = cut ++ [2] ∧
      ∃ fault, ofFileWith (fun _ => Fingerprint.ofContent payload) cut = .error fault := by
  intro payload cut
  have haddress : payload.length < Codec.addressLimit := by decide
  have hheader : (headerFor "0.1" payload).encode.length < UInt32.size := by
    rw [ContainerHeader.length_encode]
    exact (by decide : 4 + ((Codec.word32.encode 1).length +
      ((Codec.text.encode "0.1").length + 16)) < UInt32.size)
  have hfile : sample.toFile "0.1" = cut ++ [2] := by
    have hpayload : payload.dropLast ++ [2] = payload := by decide
    have hwhole := frame_append (headerFor "0.1" payload).encode payload.dropLast [2]
    rwa [hpayload] at hwhole
  obtain ⟨fault, hfault, -⟩ := ofFileWith_cut haddress hheader hfile (List.cons_ne_nil 2 [])
    fun _ => Fingerprint.ofContent payload
  exact ⟨haddress, hheader, hfile, fault, hfault⟩

end Container

end BodyCache
