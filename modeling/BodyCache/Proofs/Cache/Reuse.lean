import BodyCache.Cache
import BodyCache.Proofs.Container.Lookup
import BodyCache.Proofs.Retarget.Memory
import BodyCache.Proofs.Retarget.References
import BodyCache.Proofs.SymbolMap.Lookup

/-!
# When a Body Is Reused

A lookup hits under five conditions, which involve the scope of the request, the freshness of its
module, the map, the container, and the references of the cached body. This module states them as
one structure with a field for each, states what a hit hands out as another one, and proves that
they are exact. What the map records and what the container holds is said without their indices: of
several entries that come into question, the last one counts.

## Main results

* `Freshness.judge_modified_eq_false_iff`: when a module is judged unmodified.
* `Snapshot.answer_outcome_eq_hit_iff`: when a snapshot answers with a given entry.
* `Cache.outcome_hit_iff`: the exact condition for a hit of a lookup, and its entry.
* `Cache.outcome_hit_iff_moved`: a hit through a record.
-/

namespace BodyCache

/-! ### Verdicts -/

namespace Freshness

/-- A module is unmodified when this was settled before or, with nothing settled, when its file
can be read and has the recorded fingerprint. -/
def Unmodified (f : Freshness) (files : FileTree) (m : SourceModule) : Prop :=
  f.settled? m.name = some false ∨
    f.settled? m.name = none ∧ ∃ fingerprint content,
      f.recorded.find? m.name = some fingerprint ∧ files.read m.path = .ok content ∧
        Fingerprint.ofContent content = fingerprint

variable {f : Freshness} {files : FileTree} {m : SourceModule}

/-- An inspection approves of a file exactly when it has the recorded fingerprint. -/
theorem inspect_fst_eq_false_iff :
    (f.inspect files m).1 = false ↔ ∃ fingerprint content,
      f.recorded.find? m.name = some fingerprint ∧ files.read m.path = .ok content ∧
        Fingerprint.ofContent content = fingerprint := by
  rw [inspect]
  cases hf : f.recorded.find? m.name with
  | none => simp
  | some fingerprint =>
      cases hr : files.read m.path with
      | error e => simp
      | ok content =>
          constructor
          · intro h
            exact ⟨fingerprint, content, rfl, rfl, Decidable.not_not.mp (of_decide_eq_false h)⟩
          · rintro ⟨_, _, hrecorded, hcontent, h⟩
            cases hrecorded
            cases hcontent
            exact decide_eq_false (not_not_intro h)

/-- The verdict on a module is favourable exactly when the module is unmodified. -/
theorem judge_modified_eq_false_iff :
    (f.judge files m).modified = false ↔ f.Unmodified files m := by
  rw [judge, Unmodified]
  cases hs : f.settled? m.name with
  | some verdict => simp
  | none =>
      have hv : f.verdicts.find? m.name = none := hs
      simp only [settle, hv, inspect_fst_eq_false_iff, reduceCtorEq, false_or, true_and]

end Freshness

/-! ### The conditions and the entry -/

namespace Snapshot

/-- The conditions under which a body of a container is reused for a request, with what the map has
recorded for the scope of the request. -/
structure Reuses (c : Container) (m : SymbolMap) (f : Freshness) (files : FileTree) (r : Request)
    (record : Option SymbolMap.Record) (found : Container.IndexedMethod) (body : MethodBody) :
    Prop where
  /-- The method has a stable identity. -/
  identified : r.scope.member ≠ noScope ∧ r.scope.member ≠ ""
  /-- This is the record of the map, or there is none. -/
  recorded : m.Records r.scope record
  /-- The module of the method is known and unmodified, and is the recorded one if a module is
  recorded. -/
  current : ∃ source, r.source = some source ∧ f.Unmodified files source ∧
    ∀ rec, record = some rec → ∀ name, rec.declaring.moduleName = some name → name = source.name
  /-- With a record, the container holds the method under the recorded names. -/
  byRecord : ∀ rec, record = some rec →
    c.Holds rec.emittedOwner rec.method.emittedName rec.method.emittedSignature found
  /-- Without a record, the container holds it under the names of the request. -/
  byName : record = none →
    c.Holds ("L" ++ r.scope.typeScope.id ++ ";") r.name r.prototype.signature found
  /-- The method found has a body. -/
  embodied : found.method.body = some body
  /-- The method found has the requested types. -/
  sameTypes : found.method.prototype.returnType = r.prototype.returnType ∧
    found.method.prototype.parameters = r.prototype.parameters
  /-- Every reference of the body can be carried over. -/
  carried : ∀ x ∈ body.references, Succeeds (Bridge.carryReference ⟨m.index, r.symbols⟩ x)

/-- What a hit hands out for a body. -/
structure Supplies (m : SymbolMap) (r : Request) (record : Option SymbolMap.Record)
    (found : Container.IndexedMethod) (body : MethodBody) (e : CacheEntry) : Prop where
  /-- The body is the cached one, carried over. -/
  body : Bridge.carryBody ⟨m.index, r.symbols⟩ body = .ok e.body
  /-- The method entry is that of the record. -/
  methodEntry : e.methodEntry = record.map (·.method)
  /-- The positions are all those of the record, unless it has none. -/
  sourcePositions : ∀ positions, e.sourcePositions = some positions ↔
    ∃ rec, record = some rec ∧ rec.method.positions = positions ∧ positions ≠ []
  /-- The source file is that of the class found. -/
  sourceFile : e.sourceFile = found.owner.sourceFile

variable {c : Container} {m : SymbolMap} {f : Freshness} {files : FileTree} {r : Request}
  {record : Option SymbolMap.Record} {found : Container.IndexedMethod} {body : MethodBody}
  {e : CacheEntry}

/-! ### What a snapshot answers -/

/-- The record admits a module exactly when it names no other one. -/
theorem fromOtherModule_eq_false_iff {moduleName : String} :
    fromOtherModule record moduleName = false ↔
      ∀ rec, record = some rec → ∀ name, rec.declaring.moduleName = some name →
        name = moduleName := by
  cases record with
  | none => simp [fromOtherModule]
  | some rec =>
      cases h : rec.declaring.moduleName with
      | none => simp [fromOtherModule, h]
      | some name => simp [fromOtherModule, h]

/-- Which method of the container a request is answered with. -/
theorem cached?_eq_some_iff :
    (of c m).cached? r record = some found ↔
      (∀ rec, record = some rec →
        c.Holds rec.emittedOwner rec.method.emittedName rec.method.emittedSignature found) ∧
      (record = none →
        c.Holds ("L" ++ r.scope.typeScope.id ++ ";") r.name r.prototype.signature found) := by
  cases record with
  | none => simp [cached?, of, TypeScope.descriptor, Container.holds_iff]
  | some rec => simp [cached?, of, Container.holds_iff]

/-- An entry is the one made for a carried body exactly when each of its parts is. -/
theorem supplies_iff :
    Supplies m r record found body e ↔
      ∃ carried, Bridge.carryBody ⟨m.index, r.symbols⟩ body = .ok carried ∧
        e = entryOf record found carried := by
  have hp : ∀ (positions : List SourcePosition),
      (entryOf record found e.body).sourcePositions = some positions ↔
        ∃ rec, record = some rec ∧ rec.method.positions = positions ∧ positions ≠ [] := by
    intro positions
    simp only [entryOf, Option.filter_eq_some_iff, Option.map_eq_some_iff, decide_eq_true_eq]
    constructor
    · rintro ⟨⟨rec, hr, rfl⟩, hne⟩
      exact ⟨rec, hr, rfl, hne⟩
    · rintro ⟨rec, hr, rfl, hne⟩
      exact ⟨⟨rec, hr, rfl⟩, hne⟩
  constructor
  · rintro ⟨hb, hm, hs, hf⟩
    refine ⟨e.body, hb, ?_⟩
    obtain ⟨b, m, ps, sf⟩ := e
    have hps : ps = (entryOf record found b).sourcePositions :=
      Option.ext fun positions => (hs positions).trans (hp positions).symm
    simp only at hm hf
    rw [hm, hps, hf, entryOf]
  · rintro ⟨carried, hb, rfl⟩
    exact ⟨hb, rfl, hp, rfl⟩

/-- A body of a method with the requested prototype is handed out exactly when it can be carried
over. -/
theorem answerWith_outcome_eq_hit_iff :
    ((of c m).answerWith r record found body).outcome = .hit e ↔
      found.method.prototype = r.prototype ∧ Supplies m r record found body e := by
  have hmap : (of c m).map = m.index := rfl
  rw [answerWith, supplies_iff, hmap]
  by_cases hp : found.method.prototype = r.prototype
  · rw [if_neg (not_not_intro hp)]
    have hrun := Pass.fst_run_carryBody ⟨m.index, r.symbols⟩ body
    rcases hres : Pass.run {} (Pass.carryBody ⟨m.index, r.symbols⟩ body) with
      ⟨_ | carried, memory⟩
    · rw [hres] at hrun
      simp [← hrun]
    · rw [hres] at hrun
      simp only [← hrun, Outcome.hit.injEq, Except.ok.injEq, exists_eq_left', hp, true_and]
      exact eq_comm
  · rw [if_pos hp]
    simp [hp]

/-- A snapshot answers a request with an entry exactly when the record admits the module, the
container holds a method with a body and the requested prototype, and the entry is made from that
body. -/
theorem answer_outcome_eq_hit_iff {moduleName : String} :
    ((of c m).answer r moduleName).outcome = .hit e ↔
      ∃ record, m.Records r.scope record ∧ fromOtherModule record moduleName = false ∧
        ∃ found body, (of c m).cached? r record = some found ∧
          found.method.body = some body ∧ found.method.prototype = r.prototype ∧
            Supplies m r record found body e := by
  have hrecord : ∀ record, m.Records r.scope record ↔
      (of c m).map.methodByScope? r.scope = record := fun _ => SymbolMap.records_iff
  simp only [hrecord, exists_eq_left']
  rw [answer]
  generalize (of c m).map.methodByScope? r.scope = record
  by_cases hm : fromOtherModule record moduleName = true
  · simp [hm]
  · rw [Bool.not_eq_true] at hm
    simp only [hm, Bool.false_eq_true, if_false, true_and]
    cases hc : (of c m).cached? r record with
    | none => simp
    | some found =>
        cases hb : found.method.body with
        | none => simp [hb]
        | some body => simp [hb, answerWith_outcome_eq_hit_iff]

end Snapshot

/-! ### Lookups -/

namespace Cache

variable {c : Container} {m : SymbolMap} {f : Freshness} {files : FileTree} {r : Request}
  {hits misses : UInt64} {e : CacheEntry}

/-- A lookup in a snapshot hits exactly when the module is known and unmodified and the snapshot
answers with an entry. -/
theorem consult_outcome_eq_hit_iff {s : Snapshot} {cache : Cache} :
    (cache.consult s files r).outcome = .hit e ↔
      ∃ source, r.source = some source ∧ cache.freshness.Unmodified files source ∧
        (s.answer r source.name).outcome = .hit e := by
  rw [consult]
  cases hm : r.source with
  | none => simp
  | some source =>
      simp only [Option.some.injEq, exists_eq_left', ← Freshness.judge_modified_eq_false_iff]
      by_cases hj : (cache.freshness.judge files source).modified = true
      · simp [hj]
      · rw [Bool.not_eq_true] at hj
        simp [hj]

/-- A lookup hits with an entry exactly when some body of the container is reused for the request
and the entry is made from it. -/
theorem outcome_eq_hit_iff :
    ((Cache.mk (some (.of c m)) f hits misses).outcome files r).outcome = .hit e ↔
      ∃ record found body, Snapshot.Reuses c m f files r record found body ∧
        Snapshot.Supplies m r record found body e := by
  have hs : r.scope.isSentinel = false ↔ r.scope.member ≠ noScope ∧ r.scope.member ≠ "" := by
    simp [ScopeId.isSentinel]
  rw [outcome]
  by_cases hsen : r.scope.isSentinel = true
  · rw [if_pos hsen]
    constructor
    · intro h
      cases h
    · rintro ⟨record, found, body, hr, -⟩
      rw [hs.mpr hr.identified] at hsen
      cases hsen
  · rw [if_neg hsen, consult_outcome_eq_hit_iff]
    rw [Bool.not_eq_true] at hsen
    constructor
    · rintro ⟨source, hsource, hu, ha⟩
      obtain ⟨record, hrecorded, ho, found, body, hc, hb, hp, he⟩ :=
        Snapshot.answer_outcome_eq_hit_iff.mp ha
      obtain ⟨hrec, hname⟩ := Snapshot.cached?_eq_some_iff.mp hc
      refine ⟨record, found, body, ?_, he⟩
      exact
        { identified := hs.mp hsen
          recorded := hrecorded
          current := ⟨source, hsource, hu, Snapshot.fromOtherModule_eq_false_iff.mp ho⟩
          byRecord := hrec
          byName := hname
          embodied := hb
          sameTypes := Prototype.ext_iff.mp hp
          carried := Bridge.succeeds_carryBody_iff.mp ⟨e.body, he.body⟩ }
    · rintro ⟨record, found, body, hr, he⟩
      obtain ⟨source, hsource, hu, ho⟩ := hr.current
      refine ⟨source, hsource, hu, Snapshot.answer_outcome_eq_hit_iff.mpr
        ⟨record, hr.recorded, ?_, found, body, ?_, ?_⟩⟩
      · exact Snapshot.fromOtherModule_eq_false_iff.mpr ho
      · exact Snapshot.cached?_eq_some_iff.mpr ⟨hr.byRecord, hr.byName⟩
      · exact ⟨hr.embodied, Prototype.ext_iff.mpr hr.sameTypes, he⟩

/-- **The exact condition for a hit.** A lookup in the snapshot of a container and a map hits
exactly when some body of the container meets the conditions of reuse, with what the map records for
the scope of the request, and it then hands out what is made from such a body. -/
theorem outcome_hit_iff (c : Container) (m : SymbolMap) (f : Freshness) (hits misses : UInt64)
    (files : FileTree) (r : Request) :
    ((∃ e, ((Cache.mk (some (.of c m)) f hits misses).outcome files r).outcome = .hit e) ↔
        ∃ record found body, Snapshot.Reuses c m f files r record found body) ∧
      ∀ e, ((Cache.mk (some (.of c m)) f hits misses).outcome files r).outcome = .hit e ↔
        ∃ record found body, Snapshot.Reuses c m f files r record found body ∧
          Snapshot.Supplies m r record found body e := by
  refine ⟨?_, fun e => outcome_eq_hit_iff⟩
  constructor
  · rintro ⟨e, he⟩
    obtain ⟨record, found, body, hr, -⟩ := outcome_eq_hit_iff.mp he
    exact ⟨record, found, body, hr⟩
  · rintro ⟨record, found, body, hr⟩
    obtain ⟨carried, hc⟩ := Bridge.succeeds_carryBody_iff.mpr hr.carried
    have he : Snapshot.Supplies m r record found body (Snapshot.entryOf record found carried) :=
      Snapshot.supplies_iff.mpr ⟨carried, hc, rfl⟩
    exact ⟨_, outcome_eq_hit_iff.mpr ⟨record, found, body, hr, he⟩⟩

end Cache

/-! ### A hit through a record -/

/-! The class `com.x.Foo` was compiled from the module `App`, which has not changed. Its method
calls itself. In the next compilation the class is emitted as `com.y.Foo`. -/

namespace Moved

/-- The content of the module. -/
def content : Bytes := Utf8.encode "App module v1"

/-- The method, with the class in a package. -/
def target (package : String) : MethodRef :=
  ⟨.named ⟨"Lcom/" ++ package ++ "/Foo;"⟩, "bar", .ofTypes (.primitive .void) []⟩

/-- The body of the method, with the class in a package. -/
def body (package : String) : MethodBody where
  registersSize := 0
  instructions :=
    [⟨.invokeStatic, [], .method (target package)⟩, ⟨.returnVoid, [], .none⟩]

/-- The method that was emitted. -/
def bar : MethodDef := ⟨"bar", .ofTypes (.primitive .void) [], 9, some (body "x")⟩

/-- The class that was emitted. -/
def foo : ClassDef where
  target := ⟨"Lcom/x/Foo;"⟩
  sourceFile := some "Foo.src"
  methods := [bar]

/-- The entry of the method in the map. -/
def method : MethodEntry := ⟨2, "bar", "bar", "()V", "bar()V", [⟨0, "Foo.src", 3, 5, 3, 17⟩]⟩

/-- The map, with the class and the module it was compiled from. -/
def map : SymbolMap where
  formatVersion := 1
  producerVersion := "0.1.0"
  generatedClass := none
  modules := [⟨"App", Fingerprint.ofContent content⟩]
  types := [⟨1, "Foo", some "Foo", some "3", "Lcom/x/Foo;", some "App", [method]⟩]

/-- The record of the method. -/
def record : SymbolMap.Record :=
  ⟨⟨1, "Foo", some "Foo", some "3", "Lcom/x/Foo;", some "App", [method]⟩, method, "Lcom/x/Foo;"⟩

/-- The cache at the beginning of the next compilation. -/
def cache : Cache := .ofSnapshot (.of ⟨[foo]⟩ map)

/-- The files of the next compilation. -/
def files : FileTree where
  home := []
  nodes := .ofList [(["App.dll".toList], .file content)]

/-- A request for the method. -/
def request : Request where
  name := "bar"
  prototype := .ofTypes (.primitive .void) []
  scope := ⟨⟨"Foo:3"⟩, "bar()V"⟩
  source := some ⟨"App", ⟨"App.dll"⟩⟩
  symbols :=
    { classFor := fun _ => none
      methodFor := fun id => if id = ⟨⟨"Foo:3"⟩, "bar()V"⟩ then some (target "y") else none }

/-- The cached body is reused for the request. -/
theorem reuses :
    Snapshot.Reuses ⟨[foo]⟩ map cache.freshness files request (some record) ⟨foo, bar⟩
      (body "x") where
  identified := by decide
  recorded := SymbolMap.records_iff.mpr rfl
  current := by
    refine ⟨⟨"App", ⟨"App.dll"⟩⟩, rfl, .inr ⟨rfl, _, content, rfl, rfl, rfl⟩, ?_⟩
    rintro _ ⟨⟩ _ ⟨⟩
    rfl
  byRecord := by
    rintro _ ⟨⟩
    exact Container.holds_iff.mpr ((Container.method?_index ..).trans rfl)
  byName := nofun
  embodied := rfl
  sameTypes := ⟨rfl, rfl⟩
  carried := by
    intro x hx
    obtain rfl := List.mem_singleton.mp hx
    exact ⟨_, rfl⟩

end Moved

/-- A method that was compiled before hits through its record. Its body calls the method under the
new name of the class, and comes with the entry of the map, the positions and the source file. -/
theorem Cache.outcome_hit_iff_moved :
    Snapshot.Reuses ⟨[Moved.foo]⟩ Moved.map Moved.cache.freshness Moved.files Moved.request
        (some Moved.record) ⟨Moved.foo, Moved.bar⟩ (Moved.body "x") ∧
      (Moved.cache.outcome Moved.files Moved.request).outcome =
        .hit
          { body := Moved.body "y"
            methodEntry := some Moved.method
            sourcePositions := some [⟨0, "Foo.src", 3, 5, 3, 17⟩]
            sourceFile := some "Foo.src" } :=
  ⟨Moved.reuses, ((outcome_hit_iff ⟨[Moved.foo]⟩ Moved.map _ _ _ Moved.files Moved.request).2 _).mpr
    ⟨_, _, _, Moved.reuses, Snapshot.supplies_iff.mpr ⟨Moved.body "y", rfl, rfl⟩⟩⟩

end BodyCache
