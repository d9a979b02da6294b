/-!
# Scope ids

Names of types and members change between compilations; the place of a declaration does not. A
scope id is derived from that place, so two compilations of the same source agree on it. Imported
classes, which are copied rather than compiled, are identified by the internal name in their
descriptor.

## Main statements

* `TypeScope.ofDescriptor?_eq_some_iff`: a scope is read off a descriptor exactly when it is not
  empty and leads back to the descriptor.
-/

namespace BodyCache

/-- The identity of a type declaration. -/
structure TypeScope where
  id : String
  deriving DecidableEq, Repr

namespace TypeScope

/-- The scope of a declaration: the enclosing scope and the position in it, or the full name when
either is unknown. -/
def ofParts (scope position : Option String) (fullName : String) : TypeScope :=
  match scope, position with
  | some s, some p => ⟨s ++ ":" ++ p⟩
  | _, _ => ⟨fullName⟩

/-- The scope of an imported class: what stands between the L and the final semicolon. -/
def ofDescriptor? (descriptor : String) : Option TypeScope :=
  match descriptor.toList with
  | 'L' :: rest =>
    if rest.getLast? = some ';' ∧ rest.dropLast ≠ [] then
      some ⟨String.ofList rest.dropLast⟩
    else none
  | _ => none

/-- The descriptor of an imported class with this scope. -/
def descriptor (s : TypeScope) : String := "L" ++ s.id ++ ";"

/-- Type scopes are ordered like their texts. -/
instance : LE TypeScope := ⟨fun s t => s.id ≤ t.id⟩

instance (s t : TypeScope) : Decidable (s ≤ t) := inferInstanceAs (Decidable (s.id ≤ t.id))

/-- A form for messages to developers. -/
def summary (s : TypeScope) : String := "TypeScopeId(" ++ s.id ++ ")"

/-- The scope of an imported class is not empty and leads back to its descriptor. -/
theorem descriptor_of_ofDescriptor? {d : String} {s : TypeScope} (h : ofDescriptor? d = some s) :
    s.id ≠ "" ∧ s.descriptor = d := by
  rw [ofDescriptor?] at h
  split at h
  · next rest hd =>
    split at h
    · next hr =>
      cases h
      obtain ⟨inner, hi⟩ := List.getLast?_eq_some_iff.mp hr.1
      refine ⟨fun he => hr.2 (String.ofList_eq_empty_iff.mp he), String.toList_injective ?_⟩
      simp [descriptor, hd, hi]
    · cases h
  · cases h

/-- The scope of an imported class is read off its descriptor. -/
theorem ofDescriptor?_descriptor {s : TypeScope} (h : s.id ≠ "") :
    ofDescriptor? s.descriptor = some s := by
  have hne : s.id.toList ≠ [] := fun he => h (String.toList_eq_nil_iff.mp he)
  have hd : s.descriptor.toList = 'L' :: (s.id.toList ++ [';']) := by simp [descriptor]
  rw [ofDescriptor?, hd]
  simp [hne]

/-- A scope is read off a descriptor exactly when it is not empty and leads back to the
descriptor. -/
theorem ofDescriptor?_eq_some_iff {d : String} {s : TypeScope} :
    ofDescriptor? d = some s ↔ s.id ≠ "" ∧ s.descriptor = d := by
  constructor
  · exact descriptor_of_ofDescriptor?
  · rintro ⟨hne, rfl⟩
    exact ofDescriptor?_descriptor hne

end TypeScope

/-- The member scope of an element that has no stable identity. -/
def noScope : String := "(none)"

/-- The identity of a member: the scope of its type and its own scope within it. -/
structure ScopeId where
  typeScope : TypeScope
  member : String
  deriving DecidableEq, Repr

namespace ScopeId

/-- The id of a member without stable identity. -/
def sentinel (typeScope : TypeScope) : ScopeId := ⟨typeScope, noScope⟩

/-- Whether the member has no stable identity. -/
def isSentinel (s : ScopeId) : Bool := s.member = noScope || s.member = ""

/-- The text of a scope id. -/
def text (s : ScopeId) : String := s.typeScope.id ++ "#" ++ s.member

end ScopeId

end BodyCache
