import BodyCache.Reference
import BodyCache.Slot
import BodyCache.SymbolMap
import BodyCache.Table

/-!
# Looking up a symbol map

An index answers four questions about a map: which method has a given scope id, which method was
emitted under a given name, which type has a given descriptor, and what the fingerprint of a
module was. Its tables hold the numbers of types and the slots of methods, and are filled in one
pass over the types. Where several entries claim one key, the last one in the map counts. Types
without a position cannot be recognised in another compilation, so their methods have no scope id.

## Main statements

* `SymbolMap.Index.methodByScope?`, `methodByEmitted?`, `typeByDescriptor?`, `fingerprint?`.
* `SymbolMap.answer_foldl_addType`: what one type adds to the answers, all types add in order.
* `SymbolMap.methodByEmitted?_index`, `SymbolMap.methodByScope?_index`: which record is found.
* `SymbolMap.typeByDescriptor?_index`, `SymbolMap.fingerprint?_index`: which type and which
  fingerprint are found.
-/

namespace BodyCache.SymbolMap

/-- A method of the map together with its type and the class it was emitted into. -/
structure Record where
  declaring : TypeEntry
  method : MethodEntry
  emittedOwner : String
  deriving DecidableEq

namespace Record

/-- The scope id of the method. -/
def scopeId (r : Record) : ScopeId := ⟨r.declaring.typeScope, r.method.scopeId⟩

/-- The key under which the method was emitted. -/
def key (r : Record) : MemberKey :=
  .of r.emittedOwner r.method.emittedName r.method.emittedSignature

end Record

/-- The record of a method of a type. -/
def recordOf (m : SymbolMap) (t : TypeEntry) (method : MethodEntry) : Record :=
  ⟨t, method, m.emittedOwner t⟩

/-- The records of a type, in order. -/
def recordsOf (m : SymbolMap) (t : TypeEntry) : List Record := t.methods.map (m.recordOf t)

/-- All records of a map, type by type. -/
def records (m : SymbolMap) : List Record := m.types.flatMap m.recordsOf

/-- The methods of a type with a number: their keys, and the slots they are bound to. -/
def slotsBy {α : Type} (key : MethodEntry → α) (t : TypeEntry) (number : Nat) : List (α × Slot) :=
  t.methods.zipIdx.map fun x => (key x.1, ⟨number, x.2⟩)

/-- The lookup tables of a map. -/
structure Index where
  map : SymbolMap
  byScope : Table TypeScope (Table String Slot) := .empty
  byEmitted : Table MemberKey Slot := .empty
  byDescriptor : Table String Nat := .empty
  fingerprints : Table String Fingerprint := .empty

namespace Index

/-- The index with the keys of the type with a number. The methods of a type without a position are
not bound by scope; those of types that share a scope are bound in one table. -/
def addType (i : Index) (t : TypeEntry) (number : Nat) : Index :=
  let owner := i.map.emittedOwner t
  let named := { i with
    byDescriptor := i.byDescriptor.insert t.descriptor number
    byEmitted := i.byEmitted.insertAll
      (slotsBy (fun m => .of owner m.emittedName m.emittedSignature) t number) }
  if t.position.isNone then named
  else
    let members := (i.byScope.find? t.typeScope).getD .empty
    { named with
      byScope := i.byScope.insert t.typeScope (members.insertAll (slotsBy (·.scopeId) t number)) }

end Index

/-- Builds the index of a map. -/
def index (m : SymbolMap) : Index :=
  m.types.zipIdx.foldl (fun i e => i.addType e.1 e.2)
    { map := m, fingerprints := .ofList (m.modules.map fun e => (e.name, e.fingerprint)) }

namespace Index

/-- The slot of the method with a scope id. -/
def slotByScope? (i : Index) (id : ScopeId) : Option Slot :=
  (i.byScope.find? id.typeScope).bind fun members => members.find? id.member

/-- The record of the method at a slot. -/
def record? (i : Index) (s : Slot) : Option Record :=
  s.at? TypeEntry.methods i.map.recordOf i.map.types

/-- The method with a scope id. -/
def methodByScope? (i : Index) (id : ScopeId) : Option Record :=
  (i.slotByScope? id).bind i.record?

/-- The method that was emitted under a name. -/
def methodByEmitted? (i : Index) (owner name signature : String) : Option Record :=
  (i.byEmitted.find? (.of owner name signature)).bind i.record?

/-- The type with a descriptor. -/
def typeByDescriptor? (i : Index) (descriptor : String) : Option TypeEntry :=
  (i.byDescriptor.find? descriptor).bind fun number => i.map.types[number]?

/-- The fingerprint of a module. -/
def fingerprint? (i : Index) (moduleName : String) : Option Fingerprint :=
  i.fingerprints.find? moduleName

/-- The descriptor of the generated class, if the compilation emitted one. -/
def generatedClass? (i : Index) : Option String := i.map.generatedClass

end Index

/-! ### Filling the tables -/

section

variable {m : SymbolMap} {i : Index}

/-- The methods of a type with their slots, as records. -/
abbrev slottedRecordsOf (m : SymbolMap) : TypeEntry × Nat → List (Slot × Record) :=
  Slot.enumerateOne TypeEntry.methods m.recordOf

/-- Adding a type leaves the map as it is. -/
@[simp] theorem map_addType (i : Index) (t : TypeEntry) (number : Nat) :
    (i.addType t number).map = i.map := by
  rw [Index.addType]
  split <;> rfl

/-- Adding a type leaves the fingerprints as they are. -/
@[simp] theorem fingerprints_addType (i : Index) (t : TypeEntry) (number : Nat) :
    (i.addType t number).fingerprints = i.fingerprints := by
  rw [Index.addType]
  split <;> rfl

/-- Of the slots of a type, the one bound last to a key is that of the last record for the key. -/
theorem find?_slotsBy {α : Type} [DecidableEq α] {keyOf : MethodEntry → α} {key : α}
    {p : Record → Bool} {t : TypeEntry}
    (hp : ∀ method, p (m.recordOf t method) = decide (keyOf method = key)) (number : Nat) :
    ((slotsBy keyOf t number).reverse.find? fun e => e.1 = key).map Prod.snd =
      ((m.slottedRecordsOf (t, number)).reverse.find? fun x => p x.2).map Prod.fst := by
  rw [slotsBy, slottedRecordsOf, Slot.enumerateOne, ← List.map_reverse, ← List.map_reverse,
    List.find?_map, List.find?_map, Option.map_map, Option.map_map]
  have hsame : (fun e : α × Slot => decide (e.1 = key)) ∘
      (fun x : MethodEntry × Nat => (keyOf x.1, Slot.mk number x.2)) =
      (fun x : Slot × Record => p x.2) ∘
        fun x : MethodEntry × Nat => (Slot.mk number x.2, m.recordOf t x.1) :=
    funext fun x => (hp x.1).symm
  rw [hsame]
  rfl

/-- What a type adds to the table of emitted names: all its methods. -/
theorem find?_byEmitted_addType (hi : i.map = m) (e : TypeEntry × Nat) (key : MemberKey) :
    (i.addType e.1 e.2).byEmitted.find? key =
      (((m.slottedRecordsOf e).reverse.find? fun x => x.2.key = key).map Prod.fst).or
        (i.byEmitted.find? key) := by
  obtain ⟨t, number⟩ := e
  have h : (i.addType t number).byEmitted = i.byEmitted.insertAll
      (slotsBy (fun method => .of (m.emittedOwner t) method.emittedName method.emittedSignature) t
        number) := by
    rw [Index.addType, hi]
    split <;> rfl
  rw [h, Table.find?_insertAll, find?_slotsBy (p := fun r => r.key = key)]
  exact fun _ => rfl

/-- What a type adds to the table of scopes: its methods, if it has a position. -/
theorem slotByScope?_addType (e : TypeEntry × Nat) (id : ScopeId) :
    (i.addType e.1 e.2).slotByScope? id =
      (((m.slottedRecordsOf e).reverse.find? fun x =>
        x.2.declaring.position.isSome ∧ x.2.scopeId = id).map Prod.fst).or (i.slotByScope? id) := by
  obtain ⟨t, number⟩ := e
  obtain ⟨typeScope, member⟩ := id
  by_cases hkept : t.position.isSome ∧ t.typeScope = typeScope
  · obtain ⟨hpos, rfl⟩ := hkept
    have h : (i.addType t number).byScope = i.byScope.insert t.typeScope
        (((i.byScope.find? t.typeScope).getD .empty).insertAll
          (slotsBy (·.scopeId) t number)) := by
      rw [Index.addType, Option.isNone_eq_false_iff.mpr hpos]
      rfl
    have hbefore : ((i.byScope.find? t.typeScope).getD .empty).find? member =
        i.slotByScope? ⟨t.typeScope, member⟩ := by
      rw [Index.slotByScope?]
      cases i.byScope.find? t.typeScope <;> rfl
    rw [Index.slotByScope?, h, Table.find?_insert_self, Option.bind_some, Table.find?_insertAll,
      hbefore, find?_slotsBy (m := m)
        (p := fun r => r.declaring.position.isSome ∧ r.scopeId = ⟨t.typeScope, member⟩)]
    intro method
    simp [recordOf, Record.scopeId, hpos]
  · have hnone : (m.slottedRecordsOf (t, number)).reverse.find?
        (fun x => x.2.declaring.position.isSome ∧ x.2.scopeId = ⟨typeScope, member⟩) = none := by
      refine List.find?_eq_none.mpr fun x hx h => hkept ?_
      obtain ⟨_, _, rfl⟩ := List.mem_map.mp (List.mem_reverse.mp hx)
      obtain ⟨hpos, hscope⟩ := of_decide_eq_true h
      exact ⟨hpos, congrArg ScopeId.typeScope hscope⟩
    have h : (i.addType t number).byScope.find? typeScope = i.byScope.find? typeScope := by
      rw [Index.addType]
      split
      · rfl
      · next hpos =>
        refine Table.find?_insert_of_ne _ _ fun hscope => hkept ⟨?_, hscope⟩
        exact Option.isSome_iff_ne_none.mpr fun hn => hpos (by rw [hn]; rfl)
    rw [hnone, Option.map_none, Option.none_or, Index.slotByScope?, Index.slotByScope?, h]

/-- What a type adds to the table of descriptors: its number. -/
theorem find?_byDescriptor_addType (e : TypeEntry × Nat) (descriptor : String) :
    (i.addType e.1 e.2).byDescriptor.find? descriptor =
      (([e.swap].reverse.find? fun x => x.2.descriptor = descriptor).map Prod.fst).or
        (i.byDescriptor.find? descriptor) := by
  have h : (i.addType e.1 e.2).byDescriptor = i.byDescriptor.insert e.1.descriptor e.2 := by
    rw [Index.addType]
    split <;> rfl
  rw [h, Table.find?_insert]
  by_cases hd : e.1.descriptor = descriptor <;> simp [hd]

/-- The map stays as it is while types are added. -/
theorem map_foldl_addType (entries : List (TypeEntry × Nat)) (i : Index) :
    (entries.foldl (fun i e => i.addType e.1 e.2) i).map = i.map := by
  induction entries generalizing i with
  | nil => rfl
  | cons e entries ih => rw [List.foldl_cons, ih, map_addType]

/-- The fingerprints stay as they are while types are added. -/
theorem fingerprints_foldl_addType (entries : List (TypeEntry × Nat)) (i : Index) :
    (entries.foldl (fun i e => i.addType e.1 e.2) i).fingerprints = i.fingerprints := by
  induction entries generalizing i with
  | nil => rfl
  | cons e entries ih => rw [List.foldl_cons, ih, fingerprints_addType]

/-- **One pass over the types.** If an answer of the index is, after one more type, the last thing
that the type adds and that has a property, or else what it was before, then it is, after many
types, the last such thing that any of them adds. -/
theorem answer_foldl_addType {ι β : Type} (answer : Index → Option ι)
    (adds : TypeEntry × Nat → List (ι × β)) (p : β → Bool)
    (hstep : ∀ i e, i.map = m → answer (i.addType e.1 e.2) =
      (((adds e).reverse.find? fun x => p x.2).map Prod.fst).or (answer i))
    (entries : List (TypeEntry × Nat)) (hi : i.map = m) :
    answer (entries.foldl (fun i e => i.addType e.1 e.2) i) =
      (((entries.flatMap adds).reverse.find? fun x => p x.2).map Prod.fst).or (answer i) := by
  induction entries generalizing i with
  | nil => rfl
  | cons e entries ih =>
    rw [List.foldl_cons, ih ((map_addType ..).trans hi), hstep i e hi, List.flatMap_cons,
      List.reverse_append, List.find?_append]
    cases (entries.flatMap adds).reverse.find? fun x => p x.2 <;> rfl

end

/-! ### Lookups -/

section

variable (m : SymbolMap)

/-- The index keeps the map. -/
@[simp] theorem map_index : m.index.map = m := map_foldl_addType ..

/-- The index holds the fingerprints of the modules. -/
theorem fingerprints_index :
    m.index.fingerprints = .ofList (m.modules.map fun e => (e.name, e.fingerprint)) :=
  fingerprints_foldl_addType ..

/-- The slots of all methods of a map, with their records. -/
def slottedRecords : List (Slot × Record) :=
  Slot.enumerate TypeEntry.methods m.recordOf m.types.zipIdx

/-- The types of a map with their numbers. -/
def numberedTypes : List (Nat × TypeEntry) := m.types.zipIdx.map Prod.swap

variable {m} in
/-- The types that are listed with a number are those that have the number. -/
theorem mem_numberedTypes_iff {number : Nat} {t : TypeEntry} :
    (number, t) ∈ m.numberedTypes ↔ m.types[number]? = some t := by
  rw [← List.mk_mem_zipIdx_iff_getElem?, numberedTypes, List.mem_map]
  constructor
  · rintro ⟨⟨_, _⟩, h, he⟩
    cases he
    exact h
  · exact fun h => ⟨(t, number), h, rfl⟩

/-- Without the numbers, the types are listed in order. -/
theorem map_snd_numberedTypes : m.numberedTypes.map Prod.snd = m.types := by
  rw [numberedTypes, List.map_map]
  exact List.zipIdx_map_fst 0 m.types

/-- The slot under an emitted name is that of the last record that was emitted under it. -/
theorem find?_byEmitted_index (key : MemberKey) :
    m.index.byEmitted.find? key =
      (m.slottedRecords.reverse.find? fun x => x.2.key = key).map Prod.fst :=
  (answer_foldl_addType (·.byEmitted.find? key) m.slottedRecordsOf (fun r => r.key = key)
    (fun _ e hi => find?_byEmitted_addType hi e key) _ rfl).trans Option.or_none

/-- The slot of a scope id is that of the last record with the scope id, among those whose type has
a position. -/
theorem slotByScope?_index (id : ScopeId) :
    m.index.slotByScope? id =
      (m.slottedRecords.reverse.find? fun x =>
        x.2.declaring.position.isSome ∧ x.2.scopeId = id).map Prod.fst :=
  (answer_foldl_addType (·.slotByScope? id) m.slottedRecordsOf
    (fun r => r.declaring.position.isSome ∧ r.scopeId = id)
    (fun _ e _ => slotByScope?_addType e id) _ rfl).trans Option.or_none

/-- The number under a descriptor is that of the last type with the descriptor. -/
theorem find?_byDescriptor_index (descriptor : String) :
    m.index.byDescriptor.find? descriptor =
      (m.numberedTypes.reverse.find? fun x => x.2.descriptor = descriptor).map Prod.fst := by
  rw [numberedTypes, List.map_eq_flatMap]
  exact (answer_foldl_addType (m := m) (·.byDescriptor.find? descriptor) (fun e => [e.swap])
    (fun t => t.descriptor = descriptor)
    (fun _ e _ => find?_byDescriptor_addType e descriptor) _ rfl).trans Option.or_none

/-- The slot of the last record with a property leads to that record. -/
theorem bind_record?_index (p : Record → Bool) :
    ((m.slottedRecords.reverse.find? fun x => p x.2).map Prod.fst).bind m.index.record? =
      m.records.reverse.find? p := by
  have h : m.index.record? = Slot.at? TypeEntry.methods m.recordOf m.types := by
    funext s
    rw [Index.record?, map_index]
  rw [h]
  exact Slot.bind_at?_find? TypeEntry.methods m.recordOf m.types p

/-- The last record that was emitted under a name is found. -/
theorem methodByEmitted?_index (owner name signature : String) :
    m.index.methodByEmitted? owner name signature =
      m.records.reverse.find? fun r => r.key = .of owner name signature := by
  rw [Index.methodByEmitted?, find?_byEmitted_index]
  exact m.bind_record?_index fun r => r.key = .of owner name signature

/-- The last record with a scope id is found, among those whose type has a position. -/
theorem methodByScope?_index (id : ScopeId) :
    m.index.methodByScope? id =
      m.records.reverse.find? fun r => r.declaring.position.isSome ∧ r.scopeId = id := by
  rw [Index.methodByScope?, slotByScope?_index]
  exact m.bind_record?_index fun r => r.declaring.position.isSome ∧ r.scopeId = id

/-- The last type with a descriptor is found. -/
theorem typeByDescriptor?_index (descriptor : String) :
    m.index.typeByDescriptor? descriptor =
      m.types.reverse.find? fun t => t.descriptor = descriptor := by
  have hat : ∀ e ∈ m.numberedTypes, m.index.map.types[e.1]? = some e.2 := by
    intro e he
    rw [map_index]
    exact mem_numberedTypes_iff.mp he
  have hfind := Slot.bind_find?_of_forall hat fun t => t.descriptor = descriptor
  rw [map_snd_numberedTypes] at hfind
  rw [Index.typeByDescriptor?, find?_byDescriptor_index]
  exact hfind

/-- The fingerprint of the last entry of a module is found. -/
theorem fingerprint?_index (moduleName : String) :
    m.index.fingerprint? moduleName =
      (m.modules.reverse.find? fun e => e.name = moduleName).map (·.fingerprint) := by
  rw [Index.fingerprint?, fingerprints_index]
  exact Table.find?_ofList_map ..

end

/-- The record found has the given scope id. -/
theorem scopeId_of_methodByScope? {m : SymbolMap} {id : ScopeId} {r : Record}
    (h : m.index.methodByScope? id = some r) : r.scopeId = id := by
  rw [methodByScope?_index] at h
  have hp := List.find?_some h
  exact (of_decide_eq_true hp).2

end BodyCache.SymbolMap
