import BodyCache.Proofs.Cache.Reuse

/-!
# Whose Body a Hit Serves

The map names a method in two ways: by its scope, and by the names it was emitted under. A lookup
finds the record of a request by scope, and the body it serves has emitted names, under which the
map may record a method as well. This module relates the two. A record under the emitted names of
the body served *is for* a request when it has the scope of the request and names no other module.

With a record for the scope, the body served is found under the names recorded. Without one, it is
found by the names of the request alone, and nothing stops it from being that of a compiled method.

## Main results

* `Snapshot.eq_of_served?`: a record that is for the request, of a type with a position, is the
  record found by scope.
* `Cache.isFor_iff_of_hit`: exactly when the record of the body served is for the request.
* `Cache.imported_request_hits_compiled_body`: a hit that serves the body of a compiled method of
  another type and of a modified module.
-/

namespace BodyCache

/-- A record is for a request when it has the scope of the request, which identifies a method, and
names no other module than that of the request. -/
structure SymbolMap.Record.IsFor (q : SymbolMap.Record) (r : Request) : Prop where
  /-- The method recorded has a stable identity. -/
  identified : q.method.scopeId ≠ noScope ∧ q.method.scopeId ≠ ""
  /-- The module recorded, if any, is the module of the request. -/
  sameModule : ∀ name, q.declaring.moduleName = some name → ∃ m, r.source = some m ∧ m.name = name
  /-- The scope is the requested one. -/
  sameScope : q.scopeId = r.scope

namespace Snapshot

/-- The method of the container whose body a hit serves. -/
def served? (s : Snapshot) (r : Request) : Option Container.IndexedMethod :=
  s.cached? r (s.map.methodByScope? r.scope)

/-- The record of the map under the emitted names of a method of the container. -/
def attribution? (s : Snapshot) (found : Container.IndexedMethod) : Option SymbolMap.Record :=
  s.map.methodByEmitted? found.owner.target.descriptor found.method.name
    found.method.prototype.signature

variable {c : Container} {m : SymbolMap} {r : Request} {found : Container.IndexedMethod}
  {q record : SymbolMap.Record}

/-! ### The two ways of naming a method -/

/-- With a record for the scope, the body served is found under the key of that record. -/
theorem key_of_served? (hserved : (of c m).served? r = some found)
    (hrecord : (of c m).map.methodByScope? r.scope = some record) : found.key = record.key := by
  rw [served?, hrecord] at hserved
  exact Container.key_of_method? hserved

/-- A record of a type with a position is found by its scope, unless a later one is. -/
theorem exists_methodByScope? (hq : q ∈ m.records) (hpos : q.declaring.position.isSome = true) :
    ∃ record, m.index.methodByScope? q.scopeId = some record := by
  rw [← Option.isSome_iff_exists, SymbolMap.methodByScope?_index, List.find?_isSome]
  exact ⟨q, List.mem_reverse.mpr hq, decide_eq_true ⟨hpos, rfl⟩⟩

/-- Two searches of a list that accept each other's results have the same result. -/
theorem find?_eq_of_accepted {α : Type} {p p' : α → Bool} {as : List α} {a a' : α}
    (h : as.find? p = some a) (h' : as.find? p' = some a') (ha : p' a = true) (ha' : p a' = true) :
    a = a' := by
  induction as with
  | nil => cases h
  | cons x xs ih =>
      rw [List.find?_cons] at h h'
      cases hp : p x with
      | true =>
          rw [hp] at h
          cases h
          rw [ha] at h'
          exact Option.some.inj h'
      | false =>
          cases hp' : p' x with
          | true =>
              rw [hp'] at h'
              cases h'
              rw [hp] at ha'
              cases ha'
          | false =>
              rw [hp] at h
              rw [hp'] at h'
              exact ih h h'

/-- A record of the body served that has the scope of the request and a type with a position is
the record found by scope. -/
theorem eq_of_served? (hserved : (of c m).served? r = some found)
    (hq : (of c m).attribution? found = some q) (hpos : q.declaring.position.isSome = true)
    (hscope : q.scopeId = r.scope) : (of c m).map.methodByScope? r.scope = some q := by
  have hq' : m.records.reverse.find? (fun x => x.key = found.key) = some q := by
    rw [← hq]
    exact (SymbolMap.methodByEmitted?_index m ..).symm
  obtain ⟨record, hrecord⟩ :=
    exists_methodByScope? (List.mem_reverse.mp (List.mem_of_find?_eq_some hq')) hpos
  rw [hscope] at hrecord
  have hkey : found.key = record.key := key_of_served? hserved hrecord
  have heq : q = record := by
    have hrecord' := hrecord
    rw [SymbolMap.methodByScope?_index] at hrecord'
    exact find?_eq_of_accepted hq' hrecord' (decide_eq_true ⟨hpos, hscope⟩)
      (decide_eq_true hkey.symm)
  rw [heq]
  exact hrecord

end Snapshot

namespace Cache

variable {c : Container} {m : SymbolMap} {f : Freshness} {files : FileTree} {r : Request}
  {hits misses : UInt64} {e : CacheEntry} {found : Container.IndexedMethod}
  {q : SymbolMap.Record}

/-! ### Hits -/

/-- On a hit, the record found by scope is for the request. -/
theorem isFor_of_methodByScope?
    (hhit : ((Cache.mk (some (.of c m)) f hits misses).outcome files r).outcome = .hit e)
    (hq : (Snapshot.of c m).map.methodByScope? r.scope = some q) : q.IsFor r := by
  obtain ⟨record, _, _, hr, -⟩ := outcome_eq_hit_iff.mp hhit
  obtain ⟨source, hsource, -, hmodule⟩ := hr.current
  obtain rfl : some q = record := hq.symm.trans (SymbolMap.records_iff.mp hr.recorded)
  have hscope : q.scopeId = r.scope := SymbolMap.scopeId_of_methodByScope? hq
  refine ⟨?_, ?_, hscope⟩
  · have hmember : q.method.scopeId = r.scope.member := congrArg ScopeId.member hscope
    rw [hmember]
    exact hr.identified
  · intro name hname
    exact ⟨source, hsource, (hmodule q rfl name hname).symm⟩

/-- **Whose body a hit serves.** The record of the body served is for the request exactly when it
is the record found by scope, or belongs to a type without a position whose full name is the
requested type scope, with the requested member and no other module. -/
theorem isFor_iff_of_hit
    (hhit : ((Cache.mk (some (.of c m)) f hits misses).outcome files r).outcome = .hit e)
    (hserved : (Snapshot.of c m).served? r = some found)
    (hq : (Snapshot.of c m).attribution? found = some q) :
    q.IsFor r ↔
      (Snapshot.of c m).map.methodByScope? r.scope = some q ∨
        q.declaring.position = none ∧ q.declaring.name = r.scope.typeScope.id ∧
          q.method.scopeId = r.scope.member ∧
            ∀ name, q.declaring.moduleName = some name →
              ∃ source, r.source = some source ∧ source.name = name := by
  have hplain : q.declaring.position = none → q.declaring.typeScope = ⟨q.declaring.name⟩ := by
    intro hpos
    rw [TypeEntry.typeScope, hpos]
    cases q.declaring.scope <;> rfl
  constructor
  · intro hfor
    cases hpos : q.declaring.position with
    | some position =>
        left
        exact Snapshot.eq_of_served? hserved hq (by rw [hpos]; rfl) hfor.sameScope
    | none =>
        right
        have htype : q.declaring.typeScope = r.scope.typeScope :=
          congrArg ScopeId.typeScope hfor.sameScope
        rw [hplain hpos] at htype
        exact ⟨rfl, congrArg TypeScope.id htype, congrArg ScopeId.member hfor.sameScope,
          hfor.sameModule⟩
  · rintro (hrecord | ⟨hpos, hname, hmember, hmodule⟩)
    · exact isFor_of_methodByScope? hhit hrecord
    · obtain ⟨_, _, _, hr, -⟩ := outcome_eq_hit_iff.mp hhit
      refine ⟨?_, hmodule, ?_⟩
      · rw [hmember]
        exact hr.identified
      · rw [SymbolMap.Record.scopeId, hplain hpos, hname, hmember]

end Cache

/-! ### A compiled class that is imported later -/

/-! The class `com.x.Foo` was compiled from the module `App`. In the next compilation `App` is gone,
and the class is imported from the module `Lib`, which has not changed. -/

namespace Supplanted

/-- The content of the module `Lib`. -/
def libContent : Bytes := Utf8.encode "Lib module v1"

/-- The body that was compiled from `App`. -/
def body : MethodBody where
  registersSize := 1
  instructions := [⟨.returnVoid, [], .none⟩]

/-- The compiled method. -/
def bar : MethodDef := ⟨"bar", .ofTypes (.primitive .void) [], 1, some body⟩

/-- The compiled class. -/
def foo : ClassDef where
  target := ⟨"Lcom/x/Foo;"⟩
  methods := [bar]

/-- What the previous compilation emitted. -/
def container : Container := ⟨[foo]⟩

/-- The entry of the compiled class. -/
def fooEntry : TypeEntry :=
  ⟨1, "Foo", some "Foo", some "3", "Lcom/x/Foo;", some "App",
    [⟨2, "bar", "bar", "()V", "bar()V", []⟩]⟩

/-- The map of the previous compilation. -/
def map : SymbolMap where
  formatVersion := 1
  producerVersion := "0.1.0"
  generatedClass := none
  modules :=
    [⟨"App", Fingerprint.ofContent (Utf8.encode "App module v1")⟩,
      ⟨"Lib", Fingerprint.ofContent libContent⟩]
  types := [fooEntry]

/-- The record of the compiled method. -/
def record : SymbolMap.Record :=
  ⟨fooEntry, ⟨2, "bar", "bar", "()V", "bar()V", []⟩, "Lcom/x/Foo;"⟩

/-- The snapshot of the previous compilation. -/
def snapshot : Snapshot := .of container map

/-- The files of the next compilation: `App` is not among them. -/
def files : FileTree where
  home := []
  nodes := .ofList [(["Lib.dll".toList], .file libContent)]

/-- A request for the method of the imported class. -/
def request : Request where
  name := "bar"
  prototype := .ofTypes (.primitive .void) []
  scope := ⟨⟨"com/x/Foo"⟩, "bar()V"⟩
  source := some ⟨"Lib", ⟨"Lib.dll"⟩⟩
  symbols := ⟨fun _ => none, fun _ => none⟩

/-- What the request is answered with. -/
def entry : CacheEntry := ⟨body, none, none, none⟩

/-- The map records nothing for the requested scope. -/
theorem methodByScope?_request : snapshot.map.methodByScope? request.scope = none := rfl

/-- The container holds the compiled method under the names of the request. -/
theorem served?_request : snapshot.served? request = some ⟨foo, bar⟩ := by
  rw [Snapshot.served?, methodByScope?_request]
  exact (Container.method?_index container ..).trans rfl

/-- The map records the method served. -/
theorem attribution?_served : snapshot.attribution? ⟨foo, bar⟩ = some record := rfl

/-- The request is answered with the compiled body. -/
theorem outcome_request :
    ((Cache.ofSnapshot snapshot).outcome files request).outcome = .hit entry := by
  refine Cache.outcome_eq_hit_iff.mpr
    ⟨none, ⟨foo, bar⟩, body, ?_, Snapshot.supplies_iff.mpr ?_⟩
  · exact
      { identified := by decide
        recorded := SymbolMap.records_iff.mpr methodByScope?_request
        current := ⟨_, rfl, .inr ⟨rfl, Fingerprint.ofContent libContent, libContent, rfl, rfl, rfl⟩,
          nofun⟩
        byRecord := nofun
        byName := fun _ => Container.holds_iff.mpr ((Container.method?_index ..).trans rfl)
        embodied := rfl
        sameTypes := ⟨rfl, rfl⟩
        carried := by
          intro x h
          cases h }
  · exact ⟨body, rfl, rfl⟩

end Supplanted

/-- For the request for the imported class, the two ways of naming the method served disagree. -/
theorem Cache.isFor_iff_of_hit_supplanted :
    ((Cache.ofSnapshot Supplanted.snapshot).outcome Supplanted.files Supplanted.request).outcome =
        .hit Supplanted.entry ∧
      Supplanted.snapshot.served? Supplanted.request = some ⟨Supplanted.foo, Supplanted.bar⟩ ∧
      Supplanted.snapshot.attribution? ⟨Supplanted.foo, Supplanted.bar⟩ = some Supplanted.record ∧
      (Supplanted.record.IsFor Supplanted.request ↔
        Supplanted.snapshot.map.methodByScope? Supplanted.request.scope = some Supplanted.record ∨
          Supplanted.record.declaring.position = none ∧
            Supplanted.record.declaring.name = Supplanted.request.scope.typeScope.id ∧
              Supplanted.record.method.scopeId = Supplanted.request.scope.member ∧
                ∀ name, Supplanted.record.declaring.moduleName = some name →
                  ∃ source, Supplanted.request.source = some source ∧ source.name = name) :=
  ⟨Supplanted.outcome_request, Supplanted.served?_request, Supplanted.attribution?_served,
    Cache.isFor_iff_of_hit Supplanted.outcome_request Supplanted.served?_request
      Supplanted.attribution?_served⟩

/-- **A request for an imported class is served the body of a compiled class.** The body was
compiled from another module, which is modified, and for another type scope. -/
theorem Cache.imported_request_hits_compiled_body :
    ((Cache.ofSnapshot Supplanted.snapshot).outcome Supplanted.files Supplanted.request).outcome =
        .hit Supplanted.entry ∧
      Supplanted.snapshot.map.methodByScope? Supplanted.request.scope = none ∧
      Supplanted.snapshot.served? Supplanted.request = some ⟨Supplanted.foo, Supplanted.bar⟩ ∧
      Supplanted.snapshot.attribution? ⟨Supplanted.foo, Supplanted.bar⟩ = some Supplanted.record ∧
      Supplanted.record.declaring.moduleName = some "App" ∧
      ((Cache.ofSnapshot Supplanted.snapshot).freshness.judge Supplanted.files
        ⟨"App", ⟨"App.dll"⟩⟩).modified = true ∧
      ¬Supplanted.record.IsFor Supplanted.request := by
  refine ⟨Supplanted.outcome_request, Supplanted.methodByScope?_request,
    Supplanted.served?_request, Supplanted.attribution?_served, rfl, rfl, ?_⟩
  rintro ⟨-, -, hscope⟩
  exact absurd hscope (by decide)

end BodyCache
