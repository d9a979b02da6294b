import BodyCache.Proofs.Cache.Attribution
import BodyCache.Proofs.Container.Lookup
import BodyCache.Proofs.Retarget.FreshCompile
import BodyCache.Proofs.Retarget.Plans

/-!
# Imported Methods Keep Their Names

An imported class is copied into the container and not compiled, so the map has no entry for it, and
its methods are known by their names alone. Two parts of the library give such a method an identity,
each in its own way. A pass that meets the method in a body reads a type scope off the descriptor of
the class and asks for the method by this scope and by its name and signature. A lookup that is
requested with a type scope, and finds no record, makes a descriptor of the scope again and searches
the container for the key of the descriptor, the name and the signature.

The two ways meet. The descriptor that the lookup makes is the one that the pass started from,
whatever characters stand in it, since a scope is read off a descriptor exactly when it leads back
to it. So the question of the pass spells out the text of the method, and this text is the key that
the lookup searches for.

## Main results

* `SymbolMap.imports_iff`: what a map says of an imported method, as its index answers.
* `Pass.refused_or_asked_of_imports`: what a pass does with an imported method.
* `Snapshot.isLast_served?`: what a request without a record is served.
* `Pass.names_kept_of_imports`: the question about an imported method, and the search for it, go by
  the text of the method.
-/

namespace BodyCache

/-- As far as a map tells, a method is imported: its owner is a class without an entry, and no
method was emitted under its key. -/
structure SymbolMap.Imports (m : SymbolMap) (owner : ClassRef) (r : MethodRef) : Prop where
  owner_eq : r.owner = .named owner
  noEntry : ∀ t ∈ m.types, t.descriptor ≠ owner.descriptor
  noRecord : ∀ q ∈ m.records, q.key ≠ r.key

/-- The key of a method of a class. -/
theorem MethodRef.key_of_owner {r : MethodRef} {owner : ClassRef} (h : r.owner = .named owner) :
    r.key = .of owner.descriptor r.name r.prototype.signature := by
  rw [key, h]
  rfl

/-- A method of a class is imported exactly when the index finds neither an entry nor a record. -/
theorem SymbolMap.imports_iff {m : SymbolMap} {owner : ClassRef} {r : MethodRef}
    (howner : r.owner = .named owner) :
    m.Imports owner r ↔ m.index.typeByDescriptor? owner.descriptor = none ∧
      m.index.methodByEmitted? owner.descriptor r.name r.prototype.signature = none := by
  rw [typeByDescriptor?_index, methodByEmitted?_index, List.find?_eq_none, List.find?_eq_none,
    ← MethodRef.key_of_owner howner]
  simp only [List.mem_reverse, decide_eq_true_eq]
  constructor
  · rintro ⟨-, hentry, hrecord⟩
    exact ⟨hentry, hrecord⟩
  · rintro ⟨hentry, hrecord⟩
    exact ⟨howner, hentry, hrecord⟩

/-- A request without a record is served the last method of the container that has the key of the
names in the request. -/
theorem Snapshot.isLast_served? {c : Container} {m : SymbolMap} {r : Request}
    (h : m.index.methodByScope? r.scope = none) :
    IsLast c.MethodAt
      (fun found => found.key = .of r.scope.typeScope.descriptor r.name r.prototype.signature)
      ((of c m).served? r) := by
  have hserved : (of c m).served? r =
      c.index.method? r.scope.typeScope.descriptor r.name r.prototype.signature := by
    have hnone : (of c m).map.methodByScope? r.scope = none := h
    rw [served?, hnone]
    rfl
  rw [hserved, Container.method?_index]
  exact c.isLast_indexedMethods _

namespace Pass

variable {m : SymbolMap} {owner : ClassRef} {r : MethodRef}

/-- **What a pass does with an imported method.** It is refused without a question if its name and
signature are the word for no scope, or else if no type scope can be read off the descriptor of its
class. Otherwise exactly one question is put, for the scope read off and for name and signature. -/
theorem refused_or_asked_of_imports (h : m.Imports owner r) (current : Symbols) (s : PassState) :
    (r.name ++ r.prototype.signature = noScope ∧
        run s (carryMethod ⟨m.index, current⟩ r) = (.error (.missingScope r.text), s)) ∨
      (TypeScope.ofDescriptor? owner.descriptor = none ∧
        run s (carryMethod ⟨m.index, current⟩ r) =
          (.error (.unresolvedType owner.descriptor ""), s)) ∨
      ∃ t, TypeScope.ofDescriptor? owner.descriptor = some t ∧
        run s (carryMethod ⟨m.index, current⟩ r) =
          (match current.methodFor ⟨t, r.name ++ r.prototype.signature⟩ with
            | some target => .ok target
            | none => .error (.unresolvedMethod r.text (r.name ++ r.prototype.signature)),
          { s with queries := s.queries ++ [.method ⟨t, r.name ++ r.prototype.signature⟩] }) := by
  have howner := h.owner_eq
  obtain ⟨hentry, hrecord⟩ := (SymbolMap.imports_iff howner).mp h
  have hplan := SymbolMap.Index.methodPlan_of_absent hrecord hentry
  by_cases hword : r.name ++ r.prototype.signature = noScope
  · rw [if_pos hword] at hplan
    exact .inl ⟨hword, run_carryMethod_of_refused howner hplan s⟩
  · rw [if_neg hword] at hplan
    refine .inr ?_
    cases hscope : TypeScope.ofDescriptor? owner.descriptor with
    | none =>
        rw [hscope] at hplan
        exact .inl ⟨rfl, run_carryMethod_of_refused howner hplan s⟩
    | some t =>
        rw [hscope] at hplan
        exact .inr ⟨t, rfl, run_carryMethod_of_member howner hplan s⟩

/-- **Imported methods keep their names.** A type scope is read off a descriptor exactly when it is
not empty and leads back to the descriptor.

Let a method be imported, and let a pass meet it and not refuse it. Then, whatever the pass
remembers, it puts exactly one question, and the descriptor of the type scope asked for, a hash sign
and the member scope asked for make up the text of the method. The same text is the key of that
descriptor with the name and the signature of the method. So a request by that type scope, name and
signature is served, if there is no record for it, the last method of the container whose key is
the text of the imported one, and nothing if there is no such method. -/
theorem names_kept_of_imports :
    (∀ d t, TypeScope.ofDescriptor? d = some t ↔ t.id ≠ "" ∧ t.descriptor = d) ∧
    ∀ {m : SymbolMap} {owner : ClassRef} {r : MethodRef} (current : Symbols) (s : PassState),
      m.Imports owner r →
      (∀ d scope, (run s (carryMethod ⟨m.index, current⟩ r)).1 ≠
        .error (.unresolvedType d scope)) →
      (∀ text, (run s (carryMethod ⟨m.index, current⟩ r)).1 ≠ .error (.missingScope text)) →
      ∃ id : ScopeId,
        run s (carryMethod ⟨m.index, current⟩ r) =
          (match current.methodFor id with
            | some target => .ok target
            | none => .error (.unresolvedMethod r.text id.member),
          { s with queries := s.queries ++ [.method id] }) ∧
        id.typeScope.descriptor ++ "#" ++ id.member = r.text ∧
        (MemberKey.of id.typeScope.descriptor r.name r.prototype.signature).text = r.text ∧
        ∀ (c : Container) (m' : SymbolMap) (request : Request),
          request.scope.typeScope = id.typeScope → request.name = r.name →
          request.prototype.signature = r.prototype.signature →
          m'.index.methodByScope? request.scope = none →
            IsLast c.MethodAt (fun found => found.key.text = r.text)
              ((Snapshot.of c m').served? request) := by
  refine ⟨fun d t => TypeScope.ofDescriptor?_eq_some_iff, ?_⟩
  intro m owner r current s himports hclass hmember
  obtain ⟨-, hrun⟩ | ⟨-, hrun⟩ | ⟨t, hscope, hrun⟩ :=
    refused_or_asked_of_imports himports current s
  · exact absurd (congrArg Prod.fst hrun) (hmember r.text)
  · exact absurd (congrArg Prod.fst hrun) (hclass owner.descriptor "")
  · obtain ⟨-, hdescriptor⟩ := TypeScope.ofDescriptor?_eq_some_iff.mp hscope
    have hkey : MemberKey.of t.descriptor r.name r.prototype.signature = r.key := by
      rw [hdescriptor, MethodRef.key_of_owner himports.owner_eq]
    refine ⟨⟨t, r.name ++ r.prototype.signature⟩, hrun, ?_, congrArg MemberKey.text hkey, ?_⟩
    · rw [← String.append_assoc]
      exact congrArg MemberKey.text hkey
    · intro c m' request hrequested hname hsignature hnone
      refine (Snapshot.isLast_served? hnone).congr fun _ found _ => ?_
      rw [hrequested, hname, hsignature, hkey, MethodRef.text_eq_key]
      exact ⟨congrArg MemberKey.text, congrArg MemberKey.mk⟩

end Pass

/-! ### A class that is named like a descriptor -/

/-! The name of the imported class is the descriptor of a class that was compiled, and both have a
method with the same name and signature. -/

namespace Lookalike

/-- The imported class. -/
def owner : ClassRef := ⟨"LLcom/x/Foo;;"⟩

/-- The reference to its method. -/
def bar : MethodRef := ⟨.named owner, "bar", Moving.plain⟩

/-- The identity of its method. -/
def barId : ScopeId := ⟨⟨"Lcom/x/Foo;"⟩, "bar()V"⟩

/-- Symbols that have the method. -/
def symbols : Symbols where
  classFor _ := none
  methodFor id := if id = barId then some bar else none

/-- A class with the method. -/
def withBar (target : ClassRef) : ClassDef := { target, methods := [⟨"bar", Moving.plain, 0, none⟩] }

/-- A container with the imported class and after it the compiled one. -/
def container : Container := ⟨[withBar owner, withBar (Moving.inPackage "x" "Foo")]⟩

/-- A request for the method. -/
def request : Request where
  name := "bar"
  prototype := Moving.plain
  scope := barId
  source := none
  symbols := symbols

/-- The map has an entry of the compiled class, and none of the imported one. -/
theorem imports_bar : Moving.map.Imports owner bar :=
  (SymbolMap.imports_iff rfl).mpr ⟨rfl, rfl⟩

/-- The pass carries the method over. -/
theorem run_carryMethod_bar :
    Pass.run {} (Pass.carryMethod ⟨Moving.map.index, symbols⟩ bar) =
      (.ok bar, { queries := [.method barId] }) := rfl

/-- The request is served the method of the imported class. -/
theorem served?_request :
    (Snapshot.of container Moving.map).served? request =
      some ⟨withBar owner, ⟨"bar", Moving.plain, 0, none⟩⟩ := by
  have hnone : (Snapshot.of container Moving.map).map.methodByScope? request.scope = none := rfl
  rw [Snapshot.served?, hnone]
  exact (Container.method?_index container ..).trans rfl

end Lookalike

open Lookalike in
/-- The question about the method of the imported class spells out its text, and the request by that
question is served the method of the imported class, not that of the compiled one. -/
theorem Pass.names_kept_of_imports_lookalike :
    Moving.map.Imports owner bar ∧
      run {} (carryMethod ⟨Moving.map.index, symbols⟩ bar) =
        (.ok bar, { queries := [.method barId] }) ∧
      barId.typeScope.descriptor ++ "#" ++ barId.member = bar.text ∧
      (Snapshot.of container Moving.map).served? request =
        some ⟨withBar owner, ⟨"bar", Moving.plain, 0, none⟩⟩ ∧
      IsLast container.MethodAt (fun found => found.key.text = bar.text)
        (some ⟨withBar owner, ⟨"bar", Moving.plain, 0, none⟩⟩) := by
  obtain ⟨id, hrun, htext, -, hserved⟩ := names_kept_of_imports.2 symbols {} imports_bar
    (by rw [run_carryMethod_bar]; nofun) (by rw [run_carryMethod_bar]; nofun)
  have hid : id = barId := by
    have hqueries := congrArg (fun p => p.2.queries) (hrun.symm.trans run_carryMethod_bar)
    simpa using hqueries
  subst hid
  have hlast := hserved container Moving.map request rfl rfl rfl rfl
  rw [served?_request] at hlast
  exact ⟨imports_bar, run_carryMethod_bar, htext, served?_request, hlast⟩

end BodyCache
