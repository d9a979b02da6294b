import BodyCache.Json.Fields
import BodyCache.SymbolMap
import BodyCache.Text

/-!
# Symbol maps as JSON

The JSON form of a symbol map, field by field, and the text of a map file. Reading checks the
version of the format only after everything else has been read.
-/

namespace BodyCache

open Json

namespace Fingerprint

/-- A fingerprint as the list of its bytes. -/
def toJson (f : Fingerprint) : Json := .array (f.bytes.map fun b => .natural b.toNat)

/-- Reads a fingerprint. -/
def ofJson? (j : Json) : Option Fingerprint := (list? byte? j).bind ofBytes?

end Fingerprint

namespace ScopeId

/-- Reads a scope id. -/
def ofJson? (j : Json) : Option ScopeId := do
  match ← fields? ["type_scope", "member"] j with
  | [typeScope, member] =>
    return { typeScope := ⟨← required string? typeScope⟩, member := ← required string? member }
  | _ => none

end ScopeId

namespace SourcePosition

/-- A position as an object. -/
def toJson (p : SourcePosition) : Json :=
  .object [
    ("offset", .natural p.offset.toNat),
    ("document", .text p.document),
    ("start_line", .natural p.startLine.toNat),
    ("start_column", .natural p.startColumn.toNat),
    ("end_line", .natural p.endLine.toNat),
    ("end_column", .natural p.endColumn.toNat)]

/-- Reads a position. -/
def ofJson? (j : Json) : Option SourcePosition := do
  let names :=
    ["offset", "document", "start_line", "start_column", "end_line", "end_column"]
  match ← fields? names j with
  | [offset, document, startLine, startColumn, endLine, endColumn] =>
    return {
      offset := ← required word32? offset
      document := ← required string? document
      startLine := ← required word32? startLine
      startColumn := ← required word32? startColumn
      endLine := ← required word32? endLine
      endColumn := ← required word32? endColumn }
  | _ => none

end SourcePosition

namespace MethodEntry

/-- A method as an object. -/
def toJson (m : MethodEntry) : Json :=
  .object [
    ("id", .natural m.id.toNat),
    ("name", .text m.name),
    ("dex_name", .text m.emittedName),
    ("dex_signature", .text m.emittedSignature),
    ("scope_id", .text m.scopeId),
    ("positions", .array (m.positions.map SourcePosition.toJson))]

/-- Reads a method. -/
def ofJson? (j : Json) : Option MethodEntry := do
  match ← fields? ["id", "name", "dex_name", "dex_signature", "scope_id", "positions"] j with
  | [id, name, emittedName, emittedSignature, scopeId, positions] =>
    return {
      id := ← required word32? id
      name := ← required string? name
      emittedName := ← required string? emittedName
      emittedSignature := ← required string? emittedSignature
      scopeId := ← required string? scopeId
      positions := ← required (list? SourcePosition.ofJson?) positions }
  | _ => none

end MethodEntry

namespace TypeEntry

/-- A type as an object. -/
def toJson (t : TypeEntry) : Json :=
  .object [
    ("id", .natural t.id.toNat),
    ("name", .text t.name),
    ("scope", ofOption .text t.scope),
    ("scope_id", ofOption .text t.position),
    ("descriptor", .text t.descriptor),
    ("module", ofOption .text t.moduleName),
    ("methods", .array (t.methods.map MethodEntry.toJson))]

/-- Reads a type. -/
def ofJson? (j : Json) : Option TypeEntry := do
  match ← fields? ["id", "name", "scope", "scope_id", "descriptor", "module", "methods"] j with
  | [id, name, scope, position, descriptor, moduleName, methods] =>
    return {
      id := ← required word32? id
      name := ← required string? name
      scope := ← optional string? scope
      position := ← optional string? position
      descriptor := ← required string? descriptor
      moduleName := ← optional string? moduleName
      methods := ← required (list? MethodEntry.ofJson?) methods }
  | _ => none

end TypeEntry

namespace ModuleEntry

/-- A module as an object. -/
def toJson (m : ModuleEntry) : Json :=
  .object [("name", .text m.name), ("content_hash", m.fingerprint.toJson)]

/-- Reads a module. -/
def ofJson? (j : Json) : Option ModuleEntry := do
  match ← fields? ["name", "content_hash"] j with
  | [name, fingerprint] =>
    return {
      name := ← required string? name
      fingerprint := ← required Fingerprint.ofJson? fingerprint }
  | _ => none

end ModuleEntry

/-- What can be wrong with the content of a map file. -/
inductive MapFault where
  /-- The bytes are not a text. -/
  | notText
  /-- The text is not the JSON form of a map. -/
  | malformed
  /-- The file has another version of the format. -/
  | version (actual : UInt32)
  deriving DecidableEq

namespace MapFault

/-- The message about a fault in the file at a path. -/
def message (path : String) : MapFault → String
  | notText => "map file I/O error at " ++ path ++ ": stream did not contain valid UTF-8"
  | malformed => "failed to parse map file " ++ path
  | version actual =>
    "version mismatch in " ++ path ++ ": expected " ++ SymbolMap.expectedVersion.toNat.repr ++
      ", got " ++ actual.toNat.repr

end MapFault

namespace SymbolMap

/-- A map as an object. -/
def toJson (m : SymbolMap) : Json :=
  .object [
    ("format_version", .natural m.formatVersion.toNat),
    ("producer_version", .text m.producerVersion),
    ("generated_class", ofOption .text m.generatedClass),
    ("modules", .array (m.modules.map ModuleEntry.toJson)),
    ("types", .array (m.types.map TypeEntry.toJson))]

/-- Reads a map of any version. -/
def ofJson? (j : Json) : Option SymbolMap := do
  let names := ["format_version", "producer_version", "generated_class", "modules", "types"]
  match ← fields? names j with
  | [formatVersion, producerVersion, generatedClass, modules, types] =>
    return {
      formatVersion := ← required word32? formatVersion
      producerVersion := ← required string? producerVersion
      generatedClass := ← optional string? generatedClass
      modules := ← required (list? ModuleEntry.ofJson?) modules
      types := ← required (list? TypeEntry.ofJson?) types }
  | _ => none

/-- The text of a map file. -/
def toText (m : SymbolMap) : String := m.toJson.pretty

/-- The map that a text denotes, whatever its version. -/
def ofText? (text : String) : Option SymbolMap := (parse? text).bind ofJson?

/-- The bytes of a map file. -/
def toFile (m : SymbolMap) : Bytes := Utf8.encode m.toText

/-- Reads a map file. -/
def ofFile (file : Bytes) : Except MapFault SymbolMap :=
  match Utf8.decode? file with
  | none => .error .notText
  | some content =>
    match ofText? content with
    | none => .error .malformed
    | some m =>
      if m.formatVersion = expectedVersion then .ok m else .error (.version m.formatVersion)

end SymbolMap

end BodyCache
