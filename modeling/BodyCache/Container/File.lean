import BodyCache.Codec.Classes
import BodyCache.Fingerprint

/-!
# Container files

A container file begins with the length of its header in four bytes. The header holds four magic
bytes, the version of the format, the version of the producer and the fingerprint of everything
that follows the header; the container itself comes last. Bytes after the last field of the header
and after the container are ignored, though the latter count for the fingerprint.

Reading checks, in this order: the length, the header, the magic bytes, the version, the
fingerprint, the container.
-/

namespace BodyCache

/-- The header of a container file. -/
structure ContainerHeader where
  magic : Bytes
  formatVersion : UInt32
  producerVersion : String
  checksum : Fingerprint
  deriving DecidableEq

namespace ContainerHeader

/-- The four bytes that mark a container file. -/
def expectedMagic : Bytes := [0x44, 0x58, 0x4f, 0x4e]

/-- The version of the format that is read and written. -/
def expectedVersion : UInt32 := 1

/-- The bytes of a header. -/
def encode (h : ContainerHeader) : Bytes :=
  h.magic ++ (Codec.word32.encode h.formatVersion ++
    (Codec.text.encode h.producerVersion ++ h.checksum.bytes))

/-- Reads a header. -/
def decode : Decoder ContainerHeader := do
  let magic ← Decoder.take 4
  let formatVersion ← Codec.word32.decode
  let producerVersion ← Codec.text.decode
  match Fingerprint.ofBytes? (← Decoder.take 16) with
  | some checksum => return { magic, formatVersion, producerVersion, checksum }
  | none => Decoder.fail (.unexpectedEnd 0)

end ContainerHeader

/-- What can be wrong with the content of a container file. -/
inductive ContainerFault where
  /-- There are not even four bytes. -/
  | noHeaderLength
  /-- The header is longer than the file. -/
  | truncatedHeader
  /-- The header cannot be read. -/
  | header (cause : DecodeError)
  /-- The file is not a container file. -/
  | missingMagic
  /-- The file has another version of the format. -/
  | version (actual : UInt32)
  /-- The bytes after the header are not those that were written. -/
  | checksum (expected actual : Fingerprint)
  /-- The container cannot be read. -/
  | payload (cause : DecodeError)
  deriving DecidableEq

namespace ContainerFault

/-- The room that was made for bytes that are not there. -/
def room : ContainerFault → Nat
  | header cause | payload cause => cause.room
  | _ => 0

/-- The message about a fault in the file at a path. -/
def message (path : String) : ContainerFault → String
  | noHeaderLength =>
    "invalid container header in " ++ path ++ ": file too short for header length"
  | truncatedHeader => "invalid container header in " ++ path ++ ": truncated header"
  | header cause => "invalid container header in " ++ path ++ ": " ++ cause.word
  | missingMagic => "invalid container header in " ++ path ++ ": missing magic bytes"
  | version actual =>
    "version mismatch in " ++ path ++ ": expected " ++ ContainerHeader.expectedVersion.toNat.repr ++
      ", got " ++ actual.toNat.repr
  | checksum expected actual =>
    "checksum mismatch in " ++ path ++ ": expected " ++ expected.text ++ ", got " ++ actual.text
  | payload cause => "serialization error: " ++ cause.word

end ContainerFault

namespace Container

/-- The bytes of a file with the given header and whatever follows the header. -/
def frame (header rest : Bytes) : Bytes := LittleEndian.encode 4 header.length ++ (header ++ rest)

/-- The header that belongs to a payload. -/
def headerFor (producerVersion : String) (payload : Bytes) : ContainerHeader where
  magic := ContainerHeader.expectedMagic
  formatVersion := ContainerHeader.expectedVersion
  producerVersion := producerVersion
  checksum := Fingerprint.ofContent payload

/-- The bytes of the file that holds a container. -/
def toFile (c : Container) (producerVersion : String) : Bytes :=
  let payload := codec.encode c
  frame (headerFor producerVersion payload).encode payload

/-- Reads a container file, with fingerprints computed by `fingerprint`. -/
def ofFileWith (fingerprint : Bytes → Fingerprint) (file : Bytes) :
    Except ContainerFault Container :=
  if file.length < 4 then .error .noHeaderLength
  else
    let size := LittleEndian.decode (file.take 4)
    let rest := file.drop 4
    if rest.length < size then .error .truncatedHeader
    else
      let payload := rest.drop size
      match ContainerHeader.decode (rest.take size) with
      | .error e => .error (.header e)
      | .ok (h, _) =>
        if h.magic ≠ ContainerHeader.expectedMagic then .error .missingMagic
        else if h.formatVersion ≠ ContainerHeader.expectedVersion then
          .error (.version h.formatVersion)
        else if fingerprint payload ≠ h.checksum then
          .error (.checksum h.checksum (fingerprint payload))
        else
          match codec.decode payload with
          | .error e => .error (.payload e)
          | .ok (c, _) => .ok c

/-- Reads a container file. -/
def ofFile (file : Bytes) : Except ContainerFault Container := ofFileWith Fingerprint.ofContent file

end Container

end BodyCache
