import BodyCache.Proofs.Slot.Last
import BodyCache.SymbolMap.Index

/-!
# The Index of a Map Is the Map

An index is filled in one pass over the types of a map, which skips the methods of some types for
one of its tables, puts the methods of types with the same scope together, and binds keys anew where
they are repeated. None of this can be seen from outside. A lookup by scope or by emitted name gives
the last method of the map with the key, a lookup by descriptor gives the last type, in the order of
the types and, within a type, of its methods.

What there is to be found is said by `SymbolMap.RecordAt`, without the index and its tables: the
entries of the map at a slot, and the class into which the method there was emitted.

## Main results

* `SymbolMap.mem_slottedRecords_iff`: the records with their slots are those of the map.
* `SymbolMap.records_iff`: what the map records for a scope.
* `SymbolMap.isLast_records`: a search from the end gives the last record of the map.
* `SymbolMap.isLast_lookups`: every lookup gives the last entry with its key, or nothing if there is
  none, and every number and every slot in a table leads to an entry with the key it is under.
-/

namespace BodyCache.SymbolMap

/-- A record is at a slot of the map when its type is the one with the number of the group, and its
method the one with the number of the member in this type. It was emitted into the generated class
if there is one and its type has the id of types without a class of their own, else into the class
of its type. -/
structure RecordAt (m : SymbolMap) (s : Slot) (r : Record) : Prop where
  declaring : m.types[s.group]? = some r.declaring
  method : r.declaring.methods[s.member]? = some r.method
  generated : ∀ owner, m.generatedClass = some owner → r.declaring.id = 0 →
    r.emittedOwner = owner
  ordinary : m.generatedClass = none ∨ r.declaring.id ≠ 0 →
    r.emittedOwner = r.declaring.descriptor

variable {m : SymbolMap}

/-- The owner of a method is determined by the map and the type. -/
theorem eq_emittedOwner_iff {t : TypeEntry} {owner : String} :
    owner = m.emittedOwner t ↔
      (∀ g, m.generatedClass = some g → t.id = 0 → owner = g) ∧
        (m.generatedClass = none ∨ t.id ≠ 0 → owner = t.descriptor) := by
  rw [emittedOwner]
  cases m.generatedClass with
  | none => simp
  | some g => by_cases hid : t.id = 0 <;> simp [generatedTypeId, hid]

/-- A slot has one record. -/
theorem RecordAt.unique {s : Slot} {r r' : Record} (h : m.RecordAt s r) (h' : m.RecordAt s r') :
    r = r' := by
  have howner := eq_emittedOwner_iff.mpr ⟨h.generated, h.ordinary⟩
  have howner' := eq_emittedOwner_iff.mpr ⟨h'.generated, h'.ordinary⟩
  obtain ⟨declaring, method, owner⟩ := r
  obtain ⟨declaring', method', owner'⟩ := r'
  obtain rfl : declaring = declaring' := Option.some.inj (h.declaring.symm.trans h'.declaring)
  obtain rfl : method = method' := Option.some.inj (h.method.symm.trans h'.method)
  obtain rfl : owner = owner' := howner.trans howner'.symm
  rfl

/-- The records that are listed with their slots are those that the map has there. -/
theorem mem_slottedRecords_iff {s : Slot} {r : Record} :
    (s, r) ∈ m.slottedRecords ↔ m.RecordAt s r := by
  rw [slottedRecords, Slot.mem_enumerate_zipIdx, Slot.at?_eq_some_iff]
  constructor
  · rintro ⟨t, method, ht, hmethod, rfl⟩
    obtain ⟨hgenerated, hordinary⟩ := eq_emittedOwner_iff.mp (rfl : m.emittedOwner t = _)
    exact ⟨ht, hmethod, hgenerated, hordinary⟩
  · rintro ⟨ht, hmethod, hgenerated, hordinary⟩
    have howner : r.emittedOwner = m.emittedOwner r.declaring :=
      eq_emittedOwner_iff.mpr ⟨hgenerated, hordinary⟩
    refine ⟨r.declaring, r.method, ht, hmethod, ?_⟩
    rw [recordOf, ← howner]

/-- A slot that a search of the listed records gives leads to a record with what was searched. -/
theorem exists_recordAt_of_find? {p : Record → Bool} {s : Slot}
    (h : (m.slottedRecords.reverse.find? fun x => p x.2).map Prod.fst = some s) :
    ∃ r, m.RecordAt s r ∧ p r = true := by
  obtain ⟨⟨_, r⟩, hfound, rfl⟩ := Option.map_eq_some_iff.mp h
  have hp := List.find?_some hfound
  have hmem := List.mem_reverse.mp (List.mem_of_find?_eq_some hfound)
  exact ⟨r, mem_slottedRecords_iff.mp hmem, hp⟩

/-- A search of all records from the end gives the last one of the map. -/
theorem isLast_records (m : SymbolMap) (p : Record → Prop) [DecidablePred p] :
    IsLast m.RecordAt p (m.records.reverse.find? fun r => p r) := by
  have hall : m.slottedRecords.map Prod.snd = m.records := Slot.map_snd_enumerate_zipIdx ..
  rw [← hall]
  exact isLast_find? (fun _ _ => mem_slottedRecords_iff) (Slot.pairwise_enumerate_zipIdx ..)
    Slot.le_refl

/-- A search of all types from the end gives the last one of the map. -/
theorem isLast_types (m : SymbolMap) (p : TypeEntry → Prop) [DecidablePred p] :
    IsLast (fun (number : Nat) t => m.types[number]? = some t) p
      (m.types.reverse.find? fun t => p t) := by
  have hsorted : m.numberedTypes.Pairwise fun x y => x.1 ≤ y.1 :=
    List.pairwise_map.mpr ((Slot.pairwise_zipIdx m.types).imp Nat.le_of_lt)
  have hlast := isLast_find? (fun _ _ => mem_numberedTypes_iff) hsorted Nat.le_refl (p := p)
  rwa [map_snd_numberedTypes] at hlast

/-! ### Lookups -/

/-- A lookup by scope gives the last method with the scope id among the types with a position. -/
theorem isLast_methodByScope? (m : SymbolMap) (typeScope : TypeScope) (member : String) :
    IsLast m.RecordAt
      (fun r => r.declaring.position.isSome = true ∧ r.declaring.typeScope = typeScope ∧
        r.method.scopeId = member)
      (m.index.methodByScope? ⟨typeScope, member⟩) := by
  rw [methodByScope?_index]
  refine (m.isLast_records _).congr fun _ r _ => ?_
  rw [Record.scopeId, ScopeId.mk.injEq]

/-- What the map records for a scope: the last method with its member among the types with a
position that have its type scope, or nothing if there is none. -/
def Records (m : SymbolMap) (scope : ScopeId) : Option Record → Prop :=
  IsLast m.RecordAt fun r => r.declaring.position.isSome = true ∧
    r.declaring.typeScope = scope.typeScope ∧ r.method.scopeId = scope.member

/-- A lookup by scope gives what the map records for it. -/
theorem records_iff {scope : ScopeId} {record : Option Record} :
    m.Records scope record ↔ m.index.methodByScope? scope = record := by
  have hlookup : m.Records scope (m.index.methodByScope? scope) := m.isLast_methodByScope? ..
  constructor
  · exact hlookup.unique (fun _ _ _ => RecordAt.unique) Slot.le_antisymm
  · rintro rfl
    exact hlookup

/-- A lookup by emitted name gives the last method whose key has the same text. -/
theorem isLast_methodByEmitted? (m : SymbolMap) (owner name signature : String) :
    IsLast m.RecordAt
      (fun r => r.emittedOwner ++ "#" ++ r.method.emittedName ++ r.method.emittedSignature =
        owner ++ "#" ++ name ++ signature)
      (m.index.methodByEmitted? owner name signature) := by
  rw [methodByEmitted?_index]
  refine (m.isLast_records _).congr fun _ r _ => ?_
  rw [Record.key, MemberKey.of, MemberKey.of, MemberKey.mk.injEq]

/-- A lookup by descriptor gives the last type with the descriptor. -/
theorem isLast_typeByDescriptor? (m : SymbolMap) (descriptor : String) :
    IsLast (fun (number : Nat) t => m.types[number]? = some t) (fun t => t.descriptor = descriptor)
      (m.index.typeByDescriptor? descriptor) := by
  rw [typeByDescriptor?_index]
  exact m.isLast_types _

/-! ### What is in the tables -/

/-- A slot in the table of scopes leads to a method with the scope id it is under. -/
theorem exists_recordAt_of_slotByScope? {id : ScopeId} {s : Slot}
    (h : m.index.slotByScope? id = some s) :
    ∃ r, m.RecordAt s r ∧ r.declaring.position.isSome = true ∧
      r.declaring.typeScope = id.typeScope ∧ r.method.scopeId = id.member := by
  rw [slotByScope?_index] at h
  obtain ⟨r, hr, hp⟩ := exists_recordAt_of_find?
    (p := fun r => r.declaring.position.isSome ∧ r.scopeId = id) h
  obtain ⟨hpos, rfl⟩ := of_decide_eq_true hp
  exact ⟨r, hr, hpos, rfl, rfl⟩

/-- A slot in the table of emitted names leads to a method with the key it is under. -/
theorem exists_recordAt_of_byEmitted {key : MemberKey} {s : Slot}
    (h : m.index.byEmitted.find? key = some s) : ∃ r, m.RecordAt s r ∧ r.key = key := by
  rw [find?_byEmitted_index] at h
  obtain ⟨r, hr, hp⟩ := exists_recordAt_of_find? (p := fun r => r.key = key) h
  exact ⟨r, hr, of_decide_eq_true hp⟩

/-- A number in the table of descriptors leads to a type with the descriptor it is under. -/
theorem exists_type_of_byDescriptor {descriptor : String} {number : Nat}
    (h : m.index.byDescriptor.find? descriptor = some number) :
    ∃ t, m.types[number]? = some t ∧ t.descriptor = descriptor := by
  rw [find?_byDescriptor_index] at h
  obtain ⟨⟨_, t⟩, hfound, rfl⟩ := Option.map_eq_some_iff.mp h
  have hp := List.find?_some hfound
  have hmem := List.mem_reverse.mp (List.mem_of_find?_eq_some hfound)
  exact ⟨t, mem_numberedTypes_iff.mp hmem, of_decide_eq_true hp⟩

/-- **The index of a map is the map.** A lookup by scope gives the last method with the member scope
among the types that have a position and the type scope. A lookup by emitted name gives the last
method whose key has the same text. A lookup by descriptor gives the last type with it. Whatever
stands in a table is the slot of a method, or the number of a type, that has the key it is under. -/
theorem isLast_lookups (m : SymbolMap) :
    (∀ typeScope member, IsLast m.RecordAt
      (fun r => r.declaring.position.isSome = true ∧ r.declaring.typeScope = typeScope ∧
        r.method.scopeId = member)
      (m.index.methodByScope? ⟨typeScope, member⟩)) ∧
    (∀ owner name signature, IsLast m.RecordAt
      (fun r => r.emittedOwner ++ "#" ++ r.method.emittedName ++ r.method.emittedSignature =
        owner ++ "#" ++ name ++ signature)
      (m.index.methodByEmitted? owner name signature)) ∧
    (∀ descriptor, IsLast (fun (number : Nat) t => m.types[number]? = some t)
      (fun t => t.descriptor = descriptor) (m.index.typeByDescriptor? descriptor)) ∧
    (∀ typeScope members member s, m.index.byScope.find? typeScope = some members →
      members.find? member = some s →
        ∃ r, m.RecordAt s r ∧ r.declaring.position.isSome = true ∧
          r.declaring.typeScope = typeScope ∧ r.method.scopeId = member) ∧
    (∀ key s, m.index.byEmitted.find? key = some s → ∃ r, m.RecordAt s r ∧ r.key = key) ∧
    ∀ descriptor number, m.index.byDescriptor.find? descriptor = some number →
      ∃ t, m.types[number]? = some t ∧ t.descriptor = descriptor := by
  refine ⟨m.isLast_methodByScope?, m.isLast_methodByEmitted?, m.isLast_typeByDescriptor?,
    fun typeScope members member s hmembers hs => ?_,
    fun _ _ hs => exists_recordAt_of_byEmitted hs,
    fun _ _ hnumber => exists_type_of_byDescriptor hnumber⟩
  have hslot : m.index.slotByScope? ⟨typeScope, member⟩ = some s := by
    rw [Index.slotByScope?, hmembers]
    exact hs
  exact exists_recordAt_of_slotByScope? hslot

end BodyCache.SymbolMap
