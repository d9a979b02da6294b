import BodyCache.Fingerprint
import BodyCache.Scope.Delegate

/-!
# Symbol maps

A symbol map is written beside every container. It relates what the compilation emitted to the
stable identities in the source: for each type its scope and its descriptor, for each method its
scope and the name and signature under which it was emitted, for each module the fingerprint of
its file.
-/

namespace BodyCache

/-- The source range of the instructions from an offset on. -/
structure SourcePosition where
  offset : UInt32
  document : String
  startLine : UInt32
  startColumn : UInt32
  endLine : UInt32
  endColumn : UInt32
  deriving DecidableEq

/-- A compiled method and the identity under which it was emitted. -/
structure MethodEntry where
  id : UInt32
  name : String
  emittedName : String
  emittedSignature : String
  scopeId : String
  positions : List SourcePosition
  deriving DecidableEq

/-- A compiled type and the identity under which it was emitted. -/
structure TypeEntry where
  id : UInt32
  name : String
  scope : Option String
  position : Option String
  descriptor : String
  moduleName : Option String
  methods : List MethodEntry
  deriving DecidableEq

/-- A source module and the fingerprint of its file. -/
structure ModuleEntry where
  name : String
  fingerprint : Fingerprint
  deriving DecidableEq

/-- The map of one compilation. -/
structure SymbolMap where
  formatVersion : UInt32
  producerVersion : String
  generatedClass : Option String
  modules : List ModuleEntry
  types : List TypeEntry
  deriving DecidableEq

namespace TypeEntry

/-- The scope of the type. -/
def typeScope (t : TypeEntry) : TypeScope := .ofParts t.scope t.position t.name

/-- Whether the type is a delegate adapter. -/
def isDelegate (t : TypeEntry) : Bool := t.position.any DelegateKey.isDelegatePosition

/-- The identity of a delegate adapter. -/
def delegateKey? (t : TypeEntry) : Option DelegateKey :=
  t.position.bind fun position => DelegateKey.parse t.scope position t.name

end TypeEntry

namespace SymbolMap

/-- The version of the format that is read and written. -/
def expectedVersion : UInt32 := 1

/-- The id of the type whose methods go into the generated class. -/
def generatedTypeId : UInt32 := 0

/-- The map without entries. -/
def empty (producerVersion : String) : SymbolMap where
  formatVersion := expectedVersion
  producerVersion := producerVersion
  generatedClass := none
  modules := []
  types := []

/-- The descriptor of the class into which the methods of a type were emitted. -/
def emittedOwner (m : SymbolMap) (t : TypeEntry) : String :=
  match m.generatedClass with
  | some generated => if t.id = generatedTypeId then generated else t.descriptor
  | none => t.descriptor

end SymbolMap

end BodyCache
