import BodyCache.Body
import BodyCache.Cache
import BodyCache.Cache.Lookup
import BodyCache.Codec
import BodyCache.Codec.Classes
import BodyCache.Codec.Types
import BodyCache.Container
import BodyCache.Container.File
import BodyCache.Container.Index
import BodyCache.FileTree
import BodyCache.Fingerprint
import BodyCache.Freshness
import BodyCache.Hex
import BodyCache.Json
import BodyCache.Json.Fields
import BodyCache.Json.Reader
import BodyCache.LittleEndian
import BodyCache.Notice
import BodyCache.Path
import BodyCache.Proofs.Cache.Attribution
import BodyCache.Proofs.Cache.Reuse
import BodyCache.Proofs.Cache.Session
import BodyCache.Proofs.Codec.Classes
import BodyCache.Proofs.Codec.Extension
import BodyCache.Proofs.Codec.Failure
import BodyCache.Proofs.Codec.Lawful
import BodyCache.Proofs.Codec.Spelling
import BodyCache.Proofs.Codec.Types
import BodyCache.Proofs.Container.Cut
import BodyCache.Proofs.Container.File
import BodyCache.Proofs.Container.Lookup
import BodyCache.Proofs.Container.Overdraft
import BodyCache.Proofs.Container.Weight
import BodyCache.Proofs.FileTree.Growth
import BodyCache.Proofs.FileTree.Writing
import BodyCache.Proofs.Freshness.Interleaving
import BodyCache.Proofs.Json.Extension
import BodyCache.Proofs.Json.RoundTrip
import BodyCache.Proofs.Path.Naming
import BodyCache.Proofs.Prototype.Equality
import BodyCache.Proofs.Prototype.Sharing
import BodyCache.Proofs.Prototype.Signature
import BodyCache.Proofs.Retarget.AskedOnce
import BodyCache.Proofs.Retarget.Calls
import BodyCache.Proofs.Retarget.Erasure
import BodyCache.Proofs.Retarget.FreshCompile
import BodyCache.Proofs.Retarget.Imported
import BodyCache.Proofs.Retarget.Leaves
import BodyCache.Proofs.Retarget.Memory
import BodyCache.Proofs.Retarget.Plans
import BodyCache.Proofs.Retarget.Provenance
import BodyCache.Proofs.Retarget.References
import BodyCache.Proofs.Retarget.Sentinel
import BodyCache.Proofs.Retarget.Template
import BodyCache.Proofs.Retarget.Visits
import BodyCache.Proofs.Scope.Delegate
import BodyCache.Proofs.Settings.FilePair
import BodyCache.Proofs.Slot.Last
import BodyCache.Proofs.Snapshot.Cut
import BodyCache.Proofs.Snapshot.History
import BodyCache.Proofs.Snapshot.Opening
import BodyCache.Proofs.SymbolMap.File
import BodyCache.Proofs.SymbolMap.Lookup
import BodyCache.Proofs.Text.Cut
import BodyCache.Prototype
import BodyCache.Prototype.Pool
import BodyCache.Reference
import BodyCache.Retarget
import BodyCache.Retarget.Pass
import BodyCache.Retarget.Question
import BodyCache.Retarget.Traversal
import BodyCache.Scope
import BodyCache.Scope.Delegate
import BodyCache.Settings
import BodyCache.Slot
import BodyCache.Snapshot
import BodyCache.SymbolMap
import BodyCache.SymbolMap.Index
import BodyCache.SymbolMap.Schema
import BodyCache.Table
import BodyCache.Text
import BodyCache.Toml.Document
import BodyCache.Toml.Item
import BodyCache.Toml.Lexeme
import BodyCache.Toml.Moment
import BodyCache.Toml.Number
import BodyCache.TypeRef
import BodyCache.Xxh3
