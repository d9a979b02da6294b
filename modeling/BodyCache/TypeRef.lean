/-!
# Types in signatures and operands

A type names a primitive or a class and may be wrapped: as an array, as a reference to a
location, as an instance of a generic type, or with a custom modifier. Its descriptor is the text
that stands for it in signatures; generic arguments and modifiers do not show in it.

## Main statements

* `TypeRef.descriptor_erased`: a type and its erasure have the same descriptor.
-/

namespace BodyCache

/-- The types that are not declared anywhere. -/
inductive Primitive where
  | void
  | boolean
  | byte
  | short
  | char
  | int
  | long
  | float
  | double
  deriving DecidableEq, Repr

namespace Primitive

/-- The primitives in the order of their numbers in container files. -/
def all : List Primitive := [void, boolean, byte, short, char, int, long, float, double]

/-- The letter that stands for a primitive in descriptors. -/
def letter : Primitive → Char
  | void => 'V'
  | boolean => 'Z'
  | byte => 'B'
  | short => 'S'
  | char => 'C'
  | int => 'I'
  | long => 'J'
  | float => 'F'
  | double => 'D'

end Primitive

/-- A class, named by its descriptor. -/
structure ClassRef where
  descriptor : String
  deriving DecidableEq, Repr

namespace ClassRef

/-- Classes are ordered like their descriptors. -/
instance : LE ClassRef := ⟨fun c d => c.descriptor ≤ d.descriptor⟩

instance (c d : ClassRef) : Decidable (c ≤ d) :=
  inferInstanceAs (Decidable (c.descriptor ≤ d.descriptor))

end ClassRef

/-- A type as it occurs in signatures and operands. -/
inductive TypeRef where
  | primitive (kind : Primitive)
  | named (target : ClassRef)
  | array (element : TypeRef)
  | byRef (element : TypeRef)
  | generic (element : TypeRef) (arguments : List TypeRef)
  | modified (element : TypeRef) (modifier : ClassRef) (required : Bool)
  deriving Repr

namespace TypeRef

/-! ### Equality -/

mutual

/-- Structural equality of types. -/
def decEq : (a b : TypeRef) → Decidable (a = b)
  | .primitive p, .primitive q => decidable_of_iff (p = q) (by simp)
  | .named c, .named d => decidable_of_iff (c = d) (by simp)
  | .array e, .array f =>
    have := decEq e f
    decidable_of_iff (e = f) (by simp)
  | .byRef e, .byRef f =>
    have := decEq e f
    decidable_of_iff (e = f) (by simp)
  | .generic e as, .generic f bs =>
    have := decEq e f
    have := decEqAll as bs
    decidable_of_iff (e = f ∧ as = bs) (by simp)
  | .modified e m r, .modified f n s =>
    have := decEq e f
    decidable_of_iff (e = f ∧ m = n ∧ r = s) (by simp)
  | .primitive _, .named _ | .primitive _, .array _ | .primitive _, .byRef _
  | .primitive _, .generic .. | .primitive _, .modified ..
  | .named _, .primitive _ | .named _, .array _ | .named _, .byRef _
  | .named _, .generic .. | .named _, .modified ..
  | .array _, .primitive _ | .array _, .named _ | .array _, .byRef _
  | .array _, .generic .. | .array _, .modified ..
  | .byRef _, .primitive _ | .byRef _, .named _ | .byRef _, .array _
  | .byRef _, .generic .. | .byRef _, .modified ..
  | .generic .., .primitive _ | .generic .., .named _ | .generic .., .array _
  | .generic .., .byRef _ | .generic .., .modified ..
  | .modified .., .primitive _ | .modified .., .named _ | .modified .., .array _
  | .modified .., .byRef _ | .modified .., .generic .. => .isFalse nofun

/-- Structural equality of lists of types. -/
def decEqAll : (as bs : List TypeRef) → Decidable (as = bs)
  | [], [] => .isTrue rfl
  | a :: as, b :: bs =>
    have := decEq a b
    have := decEqAll as bs
    decidable_of_iff (a = b ∧ as = bs) (by simp)
  | [], _ :: _ | _ :: _, [] => .isFalse nofun

end

instance : DecidableEq TypeRef := decEq

/-! ### Descriptors -/

/-- The text of a type in signatures. -/
def descriptor : TypeRef → String
  | .primitive p => String.singleton p.letter
  | .named c => c.descriptor
  | .array element => "[" ++ element.descriptor
  | .byRef element => "&" ++ element.descriptor
  | .generic element _ => element.descriptor
  | .modified element _ _ => element.descriptor

/-- The descriptors of a list of types, one after the other. -/
def descriptors : List TypeRef → String
  | [] => ""
  | t :: ts => t.descriptor ++ descriptors ts

/-- The type without generic arguments and modifiers. -/
def erased : TypeRef → TypeRef
  | .primitive p => .primitive p
  | .named c => .named c
  | .array element => .array element.erased
  | .byRef element => .byRef element.erased
  | .generic element _ => element.erased
  | .modified element _ _ => element.erased

/-- The class, if the type is a class and nothing else. -/
def asClass? : TypeRef → Option ClassRef
  | .named c => some c
  | _ => none

/-! ### Classes -/

mutual

/-- The classes in a type, in the order of reading. -/
def classes : TypeRef → List ClassRef
  | .primitive _ => []
  | .named c => [c]
  | .array element => element.classes
  | .byRef element => element.classes
  | .generic element arguments => element.classes ++ allClasses arguments
  | .modified element modifier _ => element.classes ++ [modifier]

/-- The classes in a list of types, in the order of reading. -/
def allClasses : List TypeRef → List ClassRef
  | [] => []
  | t :: ts => t.classes ++ allClasses ts

end

/-! ### Erasure -/

/-- A type and its erasure have the same descriptor. -/
theorem descriptor_erased (t : TypeRef) : t.erased.descriptor = t.descriptor := by
  induction t using TypeRef.rec (motive_2 := fun _ => True) with
  | array e ih | byRef e ih => simp only [erased, descriptor, ih]
  | generic e as ih _ => exact ih
  | modified e m r ih => exact ih
  | nil | cons => trivial
  | _ => rfl

/-- The descriptors of parameters are those of the erased types. -/
theorem descriptors_map_erased (ts : List TypeRef) :
    descriptors (ts.map erased) = descriptors ts := by
  induction ts with
  | nil => rfl
  | cons t ts ih => rw [List.map_cons, descriptors, descriptors, descriptor_erased, ih]

end TypeRef

end BodyCache
