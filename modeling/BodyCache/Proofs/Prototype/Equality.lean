import Mathlib.Data.List.Basic
import BodyCache.Codec.Types
import BodyCache.Prototype.Pool

/-!
# Equality of Prototypes

Comparing two prototypes begins with the places where they are stored and with the hashes of their
signatures, and looks at the types only if neither decides. Both tests rest on facts about how
prototypes come about. A place holds one prototype, which never changes; and whichever way a
prototype is made, its signature and its hash are computed from the types that it ends up with.
Where a prototype is read from a file, only its types are read.

The ways to come by a prototype are the values of `PrototypeOrigin`. Some of them start from a
prototype that is there already, so origins are followed one after the other, each by storing what
it gives (`PrototypeStorage.after`). What types a prototype ends up with can be said without
prototypes (`PrototypeOrigin.typesAfter`): there is no signature and no hash that could go astray.

## Main results

* `PrototypeStorage.map_types_after`, `PrototypeStorage.map_signature_after`,
  `PrototypeStorage.map_digest_after`: the types of the stored prototypes, for any origins, and what
  is cached of them.
* `PrototypeStorage.isEqual_iff`: equal instances are those with the same types.
* `PrototypeStorage.isEqual_iff_of_stored`: all of these together.
-/

namespace BodyCache

/-- The types of a prototype, which are all that is written to a file. -/
def Prototype.types (p : Prototype) : TypeRef × List TypeRef := (p.returnType, p.parameters)

/-- Two prototypes have the same types when their return types are the same, and their parameters
are, in order. -/
def Prototype.SameTypes (p q : Prototype) : Prop :=
  p.returnType = q.returnType ∧ p.parameters = q.parameters

instance (p q : Prototype) : Decidable (p.SameTypes q) := inferInstanceAs (Decidable (_ ∧ _))

/-! ### Builders -/

/-- A step on a builder. -/
inductive BuilderStep where
  /-- A parameter is added at the end. -/
  | param (type : TypeRef)
  /-- The return type is replaced. -/
  | returnType (type : TypeRef)

namespace BuilderStep

/-- The builder after a step. -/
def perform (b : PrototypeBuilder) : BuilderStep → PrototypeBuilder
  | .param t => b.param t
  | .returnType t => b.setReturnType t

/-- The parameters that steps add. -/
def added : List BuilderStep → List TypeRef
  | [] => []
  | .param t :: steps => t :: added steps
  | .returnType _ :: steps => added steps

/-- The return type after steps: the last one that they set, or else the one from before. -/
def lastReturnType (before : TypeRef) : List BuilderStep → TypeRef
  | [] => before
  | .param _ :: steps => lastReturnType before steps
  | .returnType t :: steps => lastReturnType t steps

/-- What types steps lead to. -/
def typesAfter (before : TypeRef × List TypeRef) (steps : List BuilderStep) :
    TypeRef × List TypeRef :=
  (lastReturnType before.1 steps, before.2 ++ added steps)

/-- Freezing a builder after steps gives a prototype with the types that the steps lead to. -/
theorem types_build_foldl (b : PrototypeBuilder) (steps : List BuilderStep) :
    (steps.foldl perform b).build.types = typesAfter (b.returnType, b.parameters) steps := by
  induction steps generalizing b with
  | nil => simp [typesAfter, lastReturnType, added, Prototype.types, PrototypeBuilder.build]
  | cons step steps ih =>
      rw [List.foldl_cons, ih]
      cases step with
      | param t =>
          simp [typesAfter, lastReturnType, added, perform, PrototypeBuilder.param]
      | returnType t =>
          simp [typesAfter, lastReturnType, added, perform, PrototypeBuilder.setReturnType]

end BuilderStep

/-! ### Storage -/

/-- The prototypes in storage. The label of a place is its number, and what is stored stays. -/
structure PrototypeStorage where
  prototypes : List Prototype := []

/-- The instance is in storage: at its place is the prototype that it holds. -/
def PrototypeStorage.Holds (s : PrototypeStorage) (i : PrototypeInstance) : Prop :=
  s.prototypes[i.label]? = some i.prototype

/-- A way to come by a prototype. -/
inductive PrototypeOrigin where
  /-- From its types. -/
  | types (returnType : TypeRef) (parameters : List TypeRef)
  /-- From a new builder and steps on it. -/
  | built (returnType : TypeRef) (steps : List BuilderStep)
  /-- From a builder that starts from a stored prototype, and steps on it. -/
  | changed (label : Nat) (steps : List BuilderStep)
  /-- From the bytes of a container file. -/
  | bytes (input : Bytes)
  /-- From a text. The reader of the text format gives types, if it accepts the text. -/
  | text (read : String → Option (TypeRef × List TypeRef)) (input : String)

namespace PrototypeOrigin

/-- The prototype that comes about, unless there is nothing to start from or reading fails. -/
def prototype? (s : PrototypeStorage) : PrototypeOrigin → Option Prototype
  | .types returnType parameters => some (.ofTypes returnType parameters)
  | .built returnType steps => some (steps.foldl BuilderStep.perform ⟨returnType, []⟩).build
  | .changed label steps =>
    s.prototypes[label]?.map fun p => (steps.foldl BuilderStep.perform p.toBuilder).build
  | .bytes input => (Prototype.codec.decode input).toOption.map Prod.fst
  | .text read input => (read input).map fun t => .ofTypes t.1 t.2

/-- The types that come about, given those that are there already. -/
def types? (earlier : List (TypeRef × List TypeRef)) :
    PrototypeOrigin → Option (TypeRef × List TypeRef)
  | .types returnType parameters => some (returnType, parameters)
  | .built returnType steps => some (BuilderStep.typesAfter (returnType, []) steps)
  | .changed label steps => earlier[label]?.map fun t => BuilderStep.typesAfter t steps
  | .bytes input => ((TypeRef.codec.pair (.list TypeRef.codec)).decode input).toOption.map Prod.fst
  | .text read input => read input

/-- The types after following origins, one after the other. -/
def typesAfter (origins : List PrototypeOrigin) : List (TypeRef × List TypeRef) :=
  origins.foldl (fun earlier o => earlier ++ (o.types? earlier).toList) []

/-- Reading a prototype from bytes is reading its types. -/
theorem decode_codec (input : Bytes) :
    ((Prototype.codec.decode input).toOption.map Prod.fst).map Prototype.types =
      ((TypeRef.codec.pair (.list TypeRef.codec)).decode input).toOption.map Prod.fst := by
  have hdecode : Prototype.codec.decode input =
      ((TypeRef.codec.pair (.list TypeRef.codec)).decode input).map
        fun r => (Prototype.ofTypes r.1.1 r.1.2, r.2) := rfl
  rw [hdecode]
  cases (TypeRef.codec.pair (.list TypeRef.codec)).decode input <;> rfl

/-- **Every origin gives a prototype with the types that it is meant to have.** -/
theorem map_types_prototype? (s : PrototypeStorage) (o : PrototypeOrigin) :
    (o.prototype? s).map Prototype.types = o.types? (s.prototypes.map Prototype.types) := by
  cases o with
  | types returnType parameters => rfl
  | built returnType steps => exact congrArg some (BuilderStep.types_build_foldl _ steps)
  | changed label steps =>
      rw [prototype?, types?, List.getElem?_map, Option.map_map, Option.map_map]
      refine congrArg (Option.map · s.prototypes[label]?) (funext fun p => ?_)
      exact BuilderStep.types_build_foldl p.toBuilder steps
  | bytes input => exact decode_codec input
  | text read input =>
      have hback : (Prototype.types ∘ fun t => Prototype.ofTypes t.1 t.2) = id := rfl
      rw [prototype?, types?, Option.map_map, hback, Option.map_id, id]

end PrototypeOrigin

namespace PrototypeStorage

/-- The storage after following an origin. -/
def store (s : PrototypeStorage) (o : PrototypeOrigin) : PrototypeStorage :=
  ⟨s.prototypes ++ (o.prototype? s).toList⟩

/-- The storage after following origins, one after the other. -/
def after (origins : List PrototypeOrigin) : PrototypeStorage := origins.foldl store {}

/-- What types are in storage after another origin. -/
theorem map_types_store (s : PrototypeStorage) (o : PrototypeOrigin) :
    (s.store o).prototypes.map Prototype.types =
      s.prototypes.map Prototype.types ++
        (o.types? (s.prototypes.map Prototype.types)).toList := by
  rw [store, List.map_append, ← o.map_types_prototype? s, Option.toList_map]

/-- **The types in storage are those that the origins are meant to give.** -/
theorem map_types_after (origins : List PrototypeOrigin) :
    (after origins).prototypes.map Prototype.types = PrototypeOrigin.typesAfter origins := by
  have hfold : ∀ s : PrototypeStorage, (origins.foldl store s).prototypes.map Prototype.types =
      origins.foldl (fun earlier o => earlier ++ (o.types? earlier).toList)
        (s.prototypes.map Prototype.types) := by
    induction origins with
    | nil => exact fun _ => rfl
    | cons o origins ih =>
        intro s
        rw [List.foldl_cons, List.foldl_cons, ih, map_types_store]
  exact hfold {}

/-! ### Equality -/

variable {s : PrototypeStorage} {i j : PrototypeInstance}

/-- Instances at one place hold the same prototype. -/
theorem Holds.prototype_eq (hi : s.Holds i) (hj : s.Holds j) (h : i.isSame j = true) :
    i.prototype = j.prototype := by
  have hlabel : i.label = j.label := beq_iff_eq.mp h
  rw [Holds, hlabel, hj] at hi
  exact (Option.some.inj hi).symm

/-- **Equal instances are those with the same types.** Neither the places nor the hashes can change
that. -/
theorem isEqual_iff (hi : s.Holds i) (hj : s.Holds j) :
    i.isEqual j = true ↔ i.prototype.SameTypes j.prototype := by
  rw [Prototype.SameTypes, ← Prototype.ext_iff, PrototypeInstance.isEqual, Bool.or_eq_true,
    Prototype.beq_eq_true_iff]
  exact or_iff_right_of_imp (hi.prototype_eq hj)

end PrototypeStorage

/-- The descriptors of parameters, one after the other. -/
theorem TypeRef.descriptors_eq_join (ts : List TypeRef) :
    descriptors ts = String.join (ts.map descriptor) := by
  induction ts with
  | nil => rfl
  | cons t ts ih => rw [descriptors, ih, List.map_cons, String.join_cons]

namespace PrototypeStorage

/-- What types look like in signatures: the descriptors of the parameters in parentheses, followed
by the descriptor of the return type. -/
def spelling (types : TypeRef × List TypeRef) : String :=
  "(" ++ String.join (types.2.map TypeRef.descriptor) ++ ")" ++ types.1.descriptor

/-- The signature of a prototype spells its types. -/
theorem signature_eq_spelling (p : Prototype) : p.signature = spelling p.types := by
  rw [p.signature_eq, signatureText, TypeRef.descriptors_eq_join, spelling, Prototype.types]

/-- **The signatures in storage spell the types that the origins are meant to give.** -/
theorem map_signature_after (origins : List PrototypeOrigin) :
    (after origins).prototypes.map Prototype.signature =
      (PrototypeOrigin.typesAfter origins).map spelling := by
  rw [← map_types_after, List.map_map]
  exact List.map_congr_left fun p _ => signature_eq_spelling p

/-- **The hashes in storage are those of the signatures that the origins are meant to give.** -/
theorem map_digest_after (origins : List PrototypeOrigin) :
    (after origins).prototypes.map Prototype.digest =
      (PrototypeOrigin.typesAfter origins).map
        fun types => Xxh3.hash64 (Utf8.encode (spelling types)) := by
  rw [← map_types_after, List.map_map]
  refine List.map_congr_left fun p _ => ?_
  rw [p.digest_eq, signature_eq_spelling]
  rfl

/-- Being equal is an equivalence between the instances in storage. -/
theorem equivalence_isEqual (s : PrototypeStorage) :
    Equivalence fun i j : { i // s.Holds i } => i.1.isEqual j.1 = true where
  refl i := (isEqual_iff i.2 i.2).mpr ⟨rfl, rfl⟩
  symm {i j} h := by
    obtain ⟨hreturn, hparameters⟩ := (isEqual_iff i.2 j.2).mp h
    exact (isEqual_iff j.2 i.2).mpr ⟨hreturn.symm, hparameters.symm⟩
  trans {i j k} hij hjk := by
    obtain ⟨hreturn, hparameters⟩ := (isEqual_iff i.2 j.2).mp hij
    obtain ⟨hreturn', hparameters'⟩ := (isEqual_iff j.2 k.2).mp hjk
    exact (isEqual_iff i.2 k.2).mpr ⟨hreturn.trans hreturn', hparameters.trans hparameters'⟩

/-- **Comparing prototypes is comparing their types.** Whatever origins are followed,

* the prototypes in storage have the types that their origins are meant to give, each in its place;
  their signatures spell these types, and their hashes are those of the signatures;
* two instances in storage are equal exactly when they have the same types, and this is an
  equivalence;
* equal instances have equal signatures, and feed the same to every hasher. -/
theorem isEqual_iff_of_stored (origins : List PrototypeOrigin) :
    ((after origins).prototypes.map Prototype.types = PrototypeOrigin.typesAfter origins ∧
      (after origins).prototypes.map Prototype.signature =
        (PrototypeOrigin.typesAfter origins).map spelling ∧
      (after origins).prototypes.map Prototype.digest =
        (PrototypeOrigin.typesAfter origins).map
          fun types => Xxh3.hash64 (Utf8.encode (spelling types))) ∧
    (∀ i j, (after origins).Holds i → (after origins).Holds j →
      (i.isEqual j = true ↔
        i.prototype.returnType = j.prototype.returnType ∧
          i.prototype.parameters = j.prototype.parameters)) ∧
    (Equivalence fun i j : { i // (after origins).Holds i } => i.1.isEqual j.1 = true) ∧
    ∀ i j, (after origins).Holds i → (after origins).Holds j → i.isEqual j = true →
      i.prototype.signature = j.prototype.signature ∧
        ∀ (σ : Type) (write : σ → UInt64 → σ) (hasher : σ),
          i.prototype.feed write hasher = j.prototype.feed write hasher := by
  refine ⟨⟨map_types_after origins, map_signature_after origins, map_digest_after origins⟩,
    fun i j => isEqual_iff, equivalence_isEqual _, ?_⟩
  intro i j hi hj h
  have heq : i.prototype = j.prototype := Prototype.ext_iff.mpr ((isEqual_iff hi hj).mp h)
  exact ⟨by rw [heq], fun _ _ _ => by rw [heq]⟩

/-! ### One prototype from several origins -/

namespace Twins

/-- A class with elements. -/
def list : TypeRef := .named ⟨"Ljava/util/List;"⟩

/-- The class with elements that are numbers. -/
def numbers : TypeRef := .generic list [.primitive .int]

/-- A prototype with this parameter. -/
def generic : Prototype := .ofTypes (.primitive .void) [numbers]

/-- The prototype without the type of the elements. -/
def raw : Prototype := .ofTypes (.primitive .void) [list]

/-- The last prototype in the text format. -/
def rawText : String :=
  "\x7b\"return_type\":\x7b\"Primitive\":\"Void\"\x7d,\"parameters\":[\x7b\"Class\":" ++
    "\x7b\"descriptor\":\"Ljava/util/List;\"\x7d\x7d]\x7d"

/-- The reader of the text format, for this text. -/
def readRaw (input : String) : Option (TypeRef × List TypeRef) :=
  if input = rawText then some raw.types else none

/-- The first prototype is built, read from bytes and made from its types; the last one is made from
the types and changed, and read from a text. -/
def origins : List PrototypeOrigin :=
  [.built (.primitive .int) [.param numbers, .returnType (.primitive .void)],
    .bytes (Prototype.codec.encode generic),
    .types (.primitive .void) [],
    .changed 2 [.param list],
    .text readRaw rawText]

end Twins

open Twins in
/-- Instances from a builder and from bytes are equal, and so are instances from a builder and from
a text. The instance without the type of the elements is not equal to the one with it, although it
has the same signature. -/
theorem isEqual_iff_of_stored_twins :
    (after origins).Holds ⟨0, generic⟩ ∧ (after origins).Holds ⟨1, generic⟩ ∧
      (after origins).Holds ⟨3, raw⟩ ∧ (after origins).Holds ⟨4, raw⟩ ∧
      (⟨0, generic⟩ : PrototypeInstance).isEqual ⟨1, generic⟩ = true ∧
      (⟨3, raw⟩ : PrototypeInstance).isEqual ⟨4, raw⟩ = true ∧
      (⟨0, generic⟩ : PrototypeInstance).isEqual ⟨3, raw⟩ = false ∧
      generic.signature = raw.signature := by
  obtain ⟨-, hequal, -⟩ := isEqual_iff_of_stored origins
  have hbuilt : (after origins).Holds ⟨0, generic⟩ := rfl
  have hread : (after origins).Holds ⟨1, generic⟩ := rfl
  have hraw : (after origins).Holds ⟨3, raw⟩ := rfl
  have htext : (after origins).Holds ⟨4, raw⟩ := rfl
  refine ⟨hbuilt, hread, hraw, htext, (hequal _ _ hbuilt hread).mpr ⟨rfl, rfl⟩,
    (hequal _ _ hraw htext).mpr ⟨rfl, rfl⟩, ?_, rfl⟩
  rw [Bool.eq_false_iff, ne_eq, hequal _ _ hbuilt hraw]
  decide

end PrototypeStorage

end BodyCache
