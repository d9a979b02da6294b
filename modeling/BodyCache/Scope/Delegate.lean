import BodyCache.Scope
import BodyCache.Text

/-!
# Scope ids of delegate adapters

Adapter types that turn a method into a delegate are made up while bodies are compiled, so they
have no declaration of their own. Their position names the delegate type and the method that the
adapter forwards to: the position of the delegate type, a marker, the scope of the target type, a
bar and the scope of the target method.

## Main statements

* `DelegateKey.parse`, `DelegateKey.encode`: reading and writing such a position.
-/

namespace BodyCache

/-- The identity of a delegate adapter. -/
structure DelegateKey where
  delegateType : TypeScope
  targetType : TypeScope
  targetMethod : String
  deriving DecidableEq, Repr

namespace DelegateKey

/-- The text between the delegate half and the target half. -/
def marker : List Char := ":delegate:".toList

/-- Whether a position belongs to a delegate adapter. -/
def isDelegatePosition (position : String) : Bool := (Text.cut? marker position.toList).isSome

/-- Reads the position of an adapter that was recorded with the given scope and full name. -/
def parse (scope : Option String) (position fullName : String) : Option DelegateKey := do
  let (delegate, target) ← Text.cut? marker position.toList
  let (type, method) ← Text.cut? ['|'] target
  if type = [] ∨ method = [] then none
  else
    some
      { delegateType := .ofParts scope (some (String.ofList delegate)) fullName
        targetType := ⟨String.ofList type⟩
        targetMethod := String.ofList method }

/-- The position of an adapter. -/
def encode (delegate : String) (targetType : TypeScope) (targetMethod : String) : String :=
  delegate ++ String.ofList marker ++ targetType.id ++ "|" ++ targetMethod

end DelegateKey

end BodyCache
