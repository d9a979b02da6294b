import BodyCache.Container
import BodyCache.Prototype.Pool
import BodyCache.Slot
import BodyCache.Table

/-!
# Looking up a container

An index finds the method of a container that has a given owner, name and signature; the last one
counts where there are several. Its table holds the slots of methods. While the index is built,
equal prototypes of methods are replaced by one shared instance.

## Main statements

* `Container.Index.method?`: the lookup.
* `Container.share_eq`: sharing prototypes leaves the container equal to what it was.
* `Container.method?_index`: which method is found.
-/

namespace BodyCache.Container

/-- The prototypes met so far and the label of the next one. -/
structure Sharing where
  next : Nat := 0
  pool : PrototypePool := .empty

/-- The method with a shared prototype. -/
def shareMethod (m : MethodDef) : StateM Sharing MethodDef := fun s =>
  let (shared, pool) := s.pool.intern ⟨s.next, m.prototype⟩
  ({ m with prototype := shared.prototype }, ⟨s.next + 1, pool⟩)

/-- The class with shared prototypes. -/
def shareClass (c : ClassDef) : StateM Sharing ClassDef := do
  return { c with methods := ← c.methods.mapM shareMethod }

/-- The container with shared prototypes. -/
def share (c : Container) : Container := ⟨((c.classes.mapM shareClass).run {}).1⟩

/-- A method of a container together with its class. -/
structure IndexedMethod where
  owner : ClassDef
  method : MethodDef
  deriving DecidableEq

namespace IndexedMethod

/-- The key under which the method is found. -/
def key (m : IndexedMethod) : MemberKey :=
  .of m.owner.target.descriptor m.method.name m.method.prototype.signature

end IndexedMethod

/-- The methods of a container, class by class. -/
def indexedMethods (c : Container) : List IndexedMethod :=
  c.classes.flatMap fun owner => owner.methods.map fun method => ⟨owner, method⟩

/-- The slots of all methods of a container, with the methods. -/
def slottedMethods (c : Container) : List (Slot × IndexedMethod) :=
  Slot.enumerate ClassDef.methods IndexedMethod.mk c.classes.zipIdx

/-- The lookup table of a container. -/
structure Index where
  container : Container
  methods : Table MemberKey Slot

/-- Builds the index of a container. -/
def index (c : Container) : Index :=
  let shared := c.share
  { container := shared
    methods := .ofList (shared.slottedMethods.map fun e => (e.2.key, e.1)) }

namespace Index

/-- The method at a slot. -/
def at? (i : Index) (s : Slot) : Option IndexedMethod :=
  s.at? ClassDef.methods IndexedMethod.mk i.container.classes

/-- The method with an owner, name and signature. -/
def method? (i : Index) (owner name signature : String) : Option IndexedMethod :=
  (i.methods.find? (.of owner name signature)).bind i.at?

/-- The number of different keys. -/
def methodCount (i : Index) : Nat := i.methods.size

end Index

/-! ### Sharing -/

/-- A method is equal to the one it was before sharing. -/
theorem shareMethod_fst (m : MethodDef) (s : Sharing) : (shareMethod m s).1 = m := by
  have h := PrototypePool.prototype_intern s.pool ⟨s.next, m.prototype⟩
  simp only at h
  simp only [shareMethod, h]

/-- A visit that changes only its memory gives back the list it visits. -/
theorem fst_mapM {α σ : Type} {f : α → StateM σ α} (hf : ∀ a s, (f a s).1 = a) (as : List α)
    (s : σ) : (as.mapM f s).1 = as := by
  induction as generalizing s with
  | nil => rfl
  | cons a as ih =>
    rw [List.mapM_cons]
    change (f a s).1 :: (as.mapM f (f a s).2).1 = a :: as
    rw [hf, ih]

/-- A class is equal to the one it was before sharing. -/
theorem shareClass_fst (c : ClassDef) (s : Sharing) : (shareClass c s).1 = c := by
  have h : (c.methods.mapM shareMethod s).1 = c.methods := fst_mapM shareMethod_fst c.methods s
  exact congrArg (fun ms => { c with methods := ms }) h

/-- Sharing cannot be observed in the content of a container. -/
theorem share_eq (c : Container) : c.share = c :=
  congrArg Container.mk (fst_mapM shareClass_fst c.classes {})

/-- The index holds the container. -/
@[simp] theorem container_index (c : Container) : c.index.container = c := share_eq c

/-- The index binds the keys of all methods to their slots. -/
theorem methods_index (c : Container) :
    c.index.methods = .ofList (c.slottedMethods.map fun e => (e.2.key, e.1)) := by
  simp only [index, share_eq]

/-- The slot under a key is that of the last method with the key. -/
theorem find?_methods_index (c : Container) (key : MemberKey) :
    c.index.methods.find? key =
      (c.slottedMethods.reverse.find? fun e => e.2.key = key).map Prod.fst := by
  rw [methods_index]
  exact Table.find?_ofList_map ..

/-- The last method with an owner, name and signature is found. -/
theorem method?_index (c : Container) (owner name signature : String) :
    c.index.method? owner name signature =
      c.indexedMethods.reverse.find? fun m => m.key = .of owner name signature := by
  have h : c.index.at? = Slot.at? ClassDef.methods IndexedMethod.mk c.classes := by
    funext s
    rw [Index.at?, container_index]
  rw [Index.method?, find?_methods_index, h]
  exact Slot.bind_at?_find? ClassDef.methods IndexedMethod.mk c.classes fun m =>
    m.key = .of owner name signature

/-- The method found has the given owner, name and signature. -/
theorem key_of_method? {c : Container} {owner name signature : String} {found : IndexedMethod}
    (h : c.index.method? owner name signature = some found) :
    found.key = .of owner name signature := by
  rw [method?_index] at h
  have hp := List.find?_some h
  exact of_decide_eq_true hp

end BodyCache.Container
