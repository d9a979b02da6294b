import BodyCache.TypeRef
import BodyCache.Text
import BodyCache.Xxh3

/-!
# Prototypes

The prototype of a method lists its parameter types and its return type. It is put together by a
builder and frozen; a frozen prototype carries its signature and the hash of the signature, which
serves as a quick test of inequality. Signatures forget generic arguments and modifiers, so two
different prototypes may share one.

## Main statements

* `Prototype.ext`: the two cached values are determined by the types.
* `Prototype.beq_eq_true_iff`: the quick test never changes the result of a comparison.
-/

namespace BodyCache

/-- The signature text of a list of parameters and a return type. -/
def signatureText (returnType : TypeRef) (parameters : List TypeRef) : String :=
  "(" ++ TypeRef.descriptors parameters ++ ")" ++ returnType.descriptor

/-- A frozen prototype, with its signature and the hash of the signature. -/
structure Prototype where
  returnType : TypeRef
  parameters : List TypeRef
  signature : String
  digest : UInt64
  signature_eq : signature = signatureText returnType parameters
  digest_eq : digest = Xxh3.hash64 (Utf8.encode signature)

/-- A prototype that is still being put together. -/
structure PrototypeBuilder where
  returnType : TypeRef
  parameters : List TypeRef := []

namespace PrototypeBuilder

/-- Adds a parameter at the end. -/
def param (b : PrototypeBuilder) (type : TypeRef) : PrototypeBuilder :=
  { b with parameters := b.parameters ++ [type] }

/-- Replaces the return type. -/
def setReturnType (b : PrototypeBuilder) (type : TypeRef) : PrototypeBuilder :=
  { b with returnType := type }

/-- Freezes the prototype: the signature and its hash are computed once. -/
def build (b : PrototypeBuilder) : Prototype :=
  let signature := signatureText b.returnType b.parameters
  { returnType := b.returnType
    parameters := b.parameters
    signature
    digest := Xxh3.hash64 (Utf8.encode signature)
    signature_eq := rfl
    digest_eq := rfl }

end PrototypeBuilder

namespace Prototype

/-- The prototype with the given types. -/
def ofTypes (returnType : TypeRef) (parameters : List TypeRef) : Prototype :=
  PrototypeBuilder.build ⟨returnType, parameters⟩

/-- The return type is the given one. -/
@[simp] theorem returnType_ofTypes (returnType : TypeRef) (parameters : List TypeRef) :
    (ofTypes returnType parameters).returnType = returnType := rfl

/-- The parameters are the given ones. -/
@[simp] theorem parameters_ofTypes (returnType : TypeRef) (parameters : List TypeRef) :
    (ofTypes returnType parameters).parameters = parameters := rfl

/-- A signature begins with a parenthesis, and another one stands before the return type. -/
theorem toList_signature (p : Prototype) :
    p.signature.toList =
      '(' :: ((TypeRef.descriptors p.parameters).toList ++
        ')' :: p.returnType.descriptor.toList) := by
  rw [p.signature_eq, signatureText]
  simp [String.toList_append]

/-- A form for messages to developers. -/
def summary (p : Prototype) : String := "Prototype(" ++ p.signature ++ ")"

/-- A builder that starts from a frozen prototype, which itself stays as it is. -/
def toBuilder (p : Prototype) : PrototypeBuilder := ⟨p.returnType, p.parameters⟩

/-! ### Equality -/

/-- The types determine a prototype, its signature and its hash included. -/
theorem ext {p q : Prototype} (hr : p.returnType = q.returnType)
    (hp : p.parameters = q.parameters) : p = q := by
  obtain ⟨r, ps, s, d, hs, hd⟩ := p
  obtain ⟨r', ps', s', d', hs', hd'⟩ := q
  subst hr hp hs hd hs' hd'
  rfl

/-- Two prototypes are equal exactly when their types are. -/
theorem ext_iff {p q : Prototype} :
    p = q ↔ p.returnType = q.returnType ∧ p.parameters = q.parameters :=
  ⟨fun h => h ▸ ⟨rfl, rfl⟩, fun h => ext h.1 h.2⟩

/-- Freezing the builder of a prototype gives the prototype back. -/
@[simp] theorem build_toBuilder (p : Prototype) : p.toBuilder.build = p := ext rfl rfl

/-- A prototype is the one with its own types. -/
@[simp] theorem ofTypes_types (p : Prototype) : ofTypes p.returnType p.parameters = p :=
  ext rfl rfl

/-- Equality with the hash compared first. -/
instance : BEq Prototype where
  beq p q := p.digest == q.digest && (p.returnType == q.returnType && p.parameters == q.parameters)

/-- Comparing the hashes first does not change the result. -/
theorem beq_eq_true_iff {p q : Prototype} : (p == q) = true ↔ p = q := by
  change (p.digest == q.digest && (p.returnType == q.returnType && p.parameters == q.parameters))
    = true ↔ p = q
  rw [Bool.and_eq_true, Bool.and_eq_true, beq_iff_eq, beq_iff_eq, beq_iff_eq, ext_iff]
  constructor
  · exact fun h => h.2
  · intro h
    have e : p = q := ext h.1 h.2
    exact ⟨by rw [e], h⟩

instance : LawfulBEq Prototype where
  eq_of_beq := beq_eq_true_iff.mp
  rfl := beq_eq_true_iff.mpr rfl

instance : DecidableEq Prototype := fun p q =>
  decidable_of_iff (p.returnType = q.returnType ∧ p.parameters = q.parameters) ext_iff.symm

/-- Hashing a prototype: a hasher of any kind takes the hash of the signature as one word. -/
def feed {σ : Type} (write : σ → UInt64 → σ) (hasher : σ) (p : Prototype) : σ :=
  write hasher p.digest

end Prototype

end BodyCache
