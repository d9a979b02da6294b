import BodyCache.Container.File
import BodyCache.Proofs.Codec.Classes

/-!
# Container Files Are Read Back

A container file is read as the container it was written for. Bytes may be added in two places
without harm: after the header, inside the length that is announced for it, and after the
container, if the fingerprint covers them.

Everything is decided by the lengths and the codecs. The header is cut out by its length, which
four bytes announce; the header and the container are read by lawful codecs, which leave the added
bytes untouched; the fingerprint is computed from the same bytes on both sides.

## Main results

* `ContainerHeader.reads_decode`: headers are read back.
* `Container.ofFileWith_frame_eq`, `Container.ofFileWith_frame`: how files are judged and which are
  accepted, in terms of their parts.
* `Container.ofFile_toFile`: the file of a container is read back.
* `Container.ofFile_frame_slack`: files are read back, with bytes added in both places.
-/

namespace BodyCache

/-! ### Headers -/

namespace ContainerHeader

/-- **A header is read back**, whatever follows. -/
theorem reads_decode {h : ContainerHeader} (hmagic : h.magic.length = 4)
    (hversion : (Codec.text.encode h.producerVersion).length < Codec.addressLimit) :
    decode.Reads h.encode h := by
  refine (Decoder.reads_take _ hmagic).bind ((Codec.reads_word32 h.formatVersion).bind
    ((Codec.lawful_text.reads _ hversion).bind ?_))
  refine (Decoder.reads_take _ h.checksum.length_bytes).bind_of_eq ?_
  rw [Fingerprint.ofBytes?_bytes]

/-- The bytes of a header: its four parts. -/
theorem length_encode (h : ContainerHeader) :
    h.encode.length = h.magic.length + ((Codec.word32.encode h.formatVersion).length +
      ((Codec.text.encode h.producerVersion).length + 16)) := by
  rw [encode, List.length_append, List.length_append, List.length_append,
    h.checksum.length_bytes]

end ContainerHeader

namespace Container

/-! ### Files -/

/-- The first four bytes of a file announce the length of its header. -/
theorem decode_take_frame {header rest : Bytes} (h : header.length < UInt32.size) :
    LittleEndian.decode ((frame header rest).take 4) = header.length := by
  rw [frame, List.take_left' (LittleEndian.length_encode 4 _), LittleEndian.decode_encode]
  exact Nat.mod_eq_of_lt h

/-- The other bytes of a file are its header and what follows. -/
theorem drop_frame (header rest : Bytes) : (frame header rest).drop 4 = header ++ rest := by
  rw [frame, List.drop_left' (LittleEndian.length_encode 4 _)]

/-- A file whose header can be read and is the expected one is judged by the fingerprint of what
follows, and only then by the container that is read from it. -/
theorem ofFileWith_frame_eq {fingerprint : Bytes → Fingerprint} {header rest slack : Bytes}
    {h : ContainerHeader} (hsize : header.length < UInt32.size)
    (hheader : ContainerHeader.decode header = .ok (h, slack))
    (hmagic : h.magic = ContainerHeader.expectedMagic)
    (hversion : h.formatVersion = ContainerHeader.expectedVersion) :
    ofFileWith fingerprint (frame header rest) =
      if fingerprint rest ≠ h.checksum then .error (.checksum h.checksum (fingerprint rest))
      else ((codec.decode rest).mapError ContainerFault.payload).map Prod.fst := by
  have hlong : ¬(frame header rest).length < 4 := by
    rw [frame, List.length_append, LittleEndian.length_encode]
    omega
  have hwhole : ¬(header ++ rest).length < header.length := by
    rw [List.length_append]
    omega
  rw [ofFileWith, if_neg hlong]
  simp only [decode_take_frame hsize, drop_frame, if_neg hwhole, List.take_left, List.drop_left,
    hheader, hmagic, hversion, ne_eq, not_true_eq_false, if_false]
  cases codec.decode rest with
  | error e => rfl
  | ok read => rfl

/-- A file is accepted if its header can be read, is the expected one and has the fingerprint of
what follows, and if a container can be read from what follows. -/
theorem ofFileWith_frame {fingerprint : Bytes → Fingerprint} {header rest slack slack' : Bytes}
    {h : ContainerHeader} {c : Container} (hsize : header.length < UInt32.size)
    (hheader : ContainerHeader.decode header = .ok (h, slack))
    (hmagic : h.magic = ContainerHeader.expectedMagic)
    (hversion : h.formatVersion = ContainerHeader.expectedVersion)
    (hchecksum : fingerprint rest = h.checksum) (hrest : codec.decode rest = .ok (c, slack')) :
    ofFileWith fingerprint (frame header rest) = .ok c := by
  rw [ofFileWith_frame_eq hsize hheader hmagic hversion, if_neg (not_not_intro hchecksum), hrest]
  rfl

/-- The version of the producer is a part of the header, so it is no longer. -/
theorem length_encode_version_le (version : String) (payload : Bytes) :
    (Codec.text.encode version).length ≤ (headerFor version payload).encode.length := by
  rw [ContainerHeader.length_encode]
  simp only [headerFor]
  omega

/-- The header of a file is read back, if four bytes hold its length. -/
theorem decode_headerFor {version : String} {payload : Bytes}
    (hheader : (headerFor version payload).encode.length < UInt32.size) :
    ContainerHeader.decode (headerFor version payload).encode =
      .ok (headerFor version payload, []) := by
  have hversion : (Codec.text.encode version).length < Codec.addressLimit :=
    Nat.lt_of_le_of_lt (length_encode_version_le version _) (Nat.lt_trans hheader (by decide))
  have hread := ContainerHeader.reads_decode (h := headerFor version payload) rfl hversion []
  rwa [List.append_nil] at hread

/-- The file that is written for a container is read as the container, if its payload can be
addressed and four bytes hold the length of its header. -/
theorem ofFile_toFile {c : Container} {version : String}
    (haddress : (codec.encode c).length < Codec.addressLimit)
    (hheader : (headerFor version (codec.encode c)).encode.length < UInt32.size) :
    ofFile (c.toFile version) = .ok c := by
  have hpayload := lawful_codec.reads c haddress []
  rw [List.append_nil] at hpayload
  exact ofFileWith_frame hheader (decode_headerFor hheader) rfl rfl rfl hpayload

/-! ### Prototypes -/

/-- The prototypes in a body: those of the methods that its instructions refer to. -/
def bodyPrototypes (b : MethodBody) : List Prototype :=
  b.instructions.filterMap fun i => match i.operand with
    | .method m => some m.prototype
    | _ => none

/-- The prototypes in a container: those of its methods and those in their bodies. -/
def prototypes (c : Container) : List Prototype :=
  c.classes.flatMap fun owner => owner.methods.flatMap fun m =>
    m.prototype :: (m.body.map bodyPrototypes).getD []

/-- **A container file is read back.** Its header may be followed by other bytes, which its length
counts, and its container by others, which its fingerprint covers. The container read is the one
written, and every prototype in it has the signature and the hash that belong to its types. Without
other bytes the file is the one that is written for the container. The bytes of the container can
be addressed, like those of any byte string in memory. -/
theorem ofFile_frame_slack (c : Container) (version : String) (j₁ j₂ : Bytes)
    (haddress : (codec.encode c).length < Codec.addressLimit)
    (hheader : ((headerFor version (codec.encode c ++ j₂)).encode ++ j₁).length < UInt32.size) :
    ofFile (frame ((headerFor version (codec.encode c ++ j₂)).encode ++ j₁)
        (codec.encode c ++ j₂)) = .ok c ∧
      (∀ p ∈ c.prototypes, p.signature = signatureText p.returnType p.parameters ∧
        p.digest = Xxh3.hash64 (Utf8.encode (signatureText p.returnType p.parameters))) ∧
      (j₁ = [] → j₂ = [] →
        frame ((headerFor version (codec.encode c ++ j₂)).encode ++ j₁)
          (codec.encode c ++ j₂) = c.toFile version) := by
  refine ⟨?_, ?_, ?_⟩
  · have hproducer : (Codec.text.encode version).length < UInt32.size := by
      rw [List.length_append, ContainerHeader.length_encode] at hheader
      simp only [headerFor] at hheader
      omega
    have hversion : (Codec.text.encode version).length < Codec.addressLimit :=
      Nat.lt_trans hproducer (by decide)
    have hread := ContainerHeader.reads_decode (h := headerFor version (codec.encode c ++ j₂))
      rfl hversion j₁
    exact ofFileWith_frame hheader hread rfl rfl rfl (lawful_codec.reads c haddress j₂)
  · intro p _
    exact ⟨p.signature_eq, p.signature_eq ▸ p.digest_eq⟩
  · rintro rfl rfl
    rw [List.append_nil, List.append_nil, toFile]

/-- A container with a nested type, a method reference, a literal of three bytes and a handler. -/
def sample : Container where
  classes :=
    [{ target := ⟨"LA;"⟩
       sourceFile := some "A"
       fields := [⟨"n", .array (.byRef (.generic (.named ⟨"LA;"⟩) [.primitive .int])), 2⟩]
       methods :=
        [⟨"m", .ofTypes (.primitive .void) [.modified (.primitive .long) ⟨"LB;"⟩ true], 1, some {
          registersSize := 300
          instructions :=
            [⟨.const, [0], .literal (-300)⟩,
              ⟨.invokeVirtual, [0, 1],
                .method ⟨.named ⟨"LA;"⟩, "m", .ofTypes (.primitive .void) []⟩⟩,
              ⟨.returnVoid, [], .none⟩]
          exceptions := [⟨0, 2, [⟨.named ⟨"LE;"⟩, 2⟩], some 2⟩] }⟩] }]

/-- The file of the sample is read back with a byte after the header and two after the container. -/
theorem ofFile_frame_slack_sample :
    (codec.encode sample).length < Codec.addressLimit ∧
      ((headerFor "0.1" (codec.encode sample ++ [7, 7])).encode ++ [9]).length < UInt32.size ∧
      ofFile (frame ((headerFor "0.1" (codec.encode sample ++ [7, 7])).encode ++ [9])
        (codec.encode sample ++ [7, 7])) = .ok sample := by
  have haddress : (codec.encode sample).length < Codec.addressLimit := by decide
  have hheader : ((headerFor "0.1" (codec.encode sample ++ [7, 7])).encode ++ [9]).length <
      UInt32.size := by
    rw [List.length_append, ContainerHeader.length_encode]
    exact (by decide : 4 + ((Codec.word32.encode 1).length +
      ((Codec.text.encode "0.1").length + 16)) + 1 < UInt32.size)
  exact ⟨haddress, hheader, (ofFile_frame_slack sample "0.1" [9] [7, 7] haddress hheader).1⟩

end Container

end BodyCache
