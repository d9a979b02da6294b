import BodyCache.Prototype

/-!
# References to members

An instruction refers to a method by its owner, name and prototype, and to a field by its owner,
name and type. Emitted members are looked up by one text that joins owner, name and signature.

## Main statements

* `MemberKey.of_eq_of_iff`: members with one owner and one name are told apart by their signatures.
* `MethodRef.text_eq_key`: the text of a method whose owner is a class is its key.
-/

namespace BodyCache

/-- A reference to a method. The owner is a class as a rule; arrays own methods as well. -/
structure MethodRef where
  owner : TypeRef
  name : String
  prototype : Prototype
  deriving DecidableEq

/-- A reference to a field. -/
structure FieldRef where
  owner : ClassRef
  name : String
  type : TypeRef
  deriving DecidableEq

/-- The text under which an emitted member is found: owner, a hash sign, name and signature. -/
structure MemberKey where
  text : String
  deriving DecidableEq

namespace MemberKey

/-- The key of a member. -/
def of (owner name signature : String) : MemberKey := ⟨owner ++ "#" ++ name ++ signature⟩

/-- The keys of members with one owner and one name differ as their signatures do. -/
theorem of_eq_of_iff {owner name signature signature' : String} :
    of owner name signature = of owner name signature' ↔ signature = signature' := by
  constructor
  · intro h
    have htext : (owner ++ "#" ++ name).toList ++ signature.toList =
        (owner ++ "#" ++ name).toList ++ signature'.toList := by
      rw [← String.toList_append, ← String.toList_append]
      exact congrArg String.toList (MemberKey.mk.inj h)
    exact String.toList_injective (List.append_cancel_left htext)
  · rintro rfl
    rfl

end MemberKey

namespace MethodRef

/-- The owner, if it is a class. -/
def ownerClass? (m : MethodRef) : Option ClassRef := m.owner.asClass?

/-- The text of a method reference. -/
def text (m : MethodRef) : String :=
  m.owner.descriptor ++ "#" ++ m.name ++ m.prototype.signature

/-- The key under which the method is found. -/
def key (m : MethodRef) : MemberKey := .of m.owner.descriptor m.name m.prototype.signature

/-- A method is shown by its key. -/
theorem text_eq_key (m : MethodRef) : m.text = m.key.text := rfl

end MethodRef

namespace FieldRef

/-- The text of a field reference. -/
def text (f : FieldRef) : String := f.owner.descriptor ++ "." ++ f.name ++ ":" ++ f.type.descriptor

end FieldRef

end BodyCache
