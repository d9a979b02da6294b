import BodyCache.Prototype

/-!
# Sharing of equal prototypes

A pool keeps one instance of each prototype that was handed to it. Asking for a prototype that is
equal to an earlier one returns the earlier instance, so equal prototypes can share their storage.
Instances are told apart by a label, which stands for the place where an instance is stored.

## Main statements

* `PrototypePool.prototype_intern`: the instance that is handed out holds an equal prototype.
-/

namespace BodyCache

/-- A prototype at a place: two instances may hold equal prototypes and still be different. -/
structure PrototypeInstance where
  label : Nat
  prototype : Prototype
  deriving DecidableEq

namespace PrototypeInstance

/-- Whether two instances are one and the same. -/
def isSame (i j : PrototypeInstance) : Bool := i.label == j.label

/-- Whether two instances are equal. Only what is stored at different places has to be compared. -/
def isEqual (i j : PrototypeInstance) : Bool := i.isSame j || i.prototype == j.prototype

end PrototypeInstance

/-- The instances handed out so far, in the order of their arrival. -/
structure PrototypePool where
  instances : List PrototypeInstance := []

namespace PrototypePool

/-- The pool that has seen nothing. -/
def empty : PrototypePool := {}

/-- The number of instances in the pool. -/
def size (pool : PrototypePool) : Nat := pool.instances.length

/-- Whether nothing was handed to the pool yet. -/
def isEmpty (pool : PrototypePool) : Bool := pool.size == 0

/-- The instance that holds the given prototype, if there is one. -/
def find? (pool : PrototypePool) (p : Prototype) : Option PrototypeInstance :=
  pool.instances.find? fun i => i.prototype == p

/-- Hands an instance to the pool, which answers with the instance that everybody shares. -/
def intern (pool : PrototypePool) (i : PrototypeInstance) : PrototypeInstance × PrototypePool :=
  match pool.find? i.prototype with
  | some shared => (shared, pool)
  | none => (i, ⟨pool.instances ++ [i]⟩)

/-- The instance that is handed out holds an equal prototype. -/
theorem prototype_intern (pool : PrototypePool) (i : PrototypeInstance) :
    (pool.intern i).1.prototype = i.prototype := by
  rw [intern]
  split
  · next shared h =>
    rw [find?] at h
    exact Prototype.beq_eq_true_iff.mp (by simpa using List.find?_some h)
  · rfl

end PrototypePool

end BodyCache
