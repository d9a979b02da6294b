import BodyCache.Body

/-!
# Containers

A container holds the classes that one compilation emitted, with their fields, methods and
bodies.
-/

namespace BodyCache

/-- A field of an emitted class. -/
structure FieldDef where
  name : String
  type : TypeRef
  accessFlags : UInt32
  deriving DecidableEq

/-- A method of an emitted class; abstract methods have no body. -/
structure MethodDef where
  name : String
  prototype : Prototype
  accessFlags : UInt32
  body : Option MethodBody
  deriving DecidableEq

/-- An emitted class. -/
structure ClassDef where
  target : ClassRef
  superclass : Option ClassRef := none
  interfaces : List ClassRef := []
  accessFlags : UInt32 := 0
  sourceFile : Option String := none
  fields : List FieldDef := []
  methods : List MethodDef := []
  deriving DecidableEq

/-- The classes of one compilation. -/
structure Container where
  classes : List ClassDef := []
  deriving DecidableEq

namespace Container

/-- The container without classes. -/
def empty : Container := {}

end Container

end BodyCache
