import Mathlib.Data.Finset.Card
import BodyCache.Container.Index
import BodyCache.Proofs.Slot.Last
import BodyCache.Proofs.Text.Cut

/-!
# Looking Up a Container Is Exact

The key of a method is one text, its owner, its name and its signature joined without any escapes,
and so two methods may have the same key by accident. They do not if no hash sign occurs in an owner
and no opening parenthesis in a name, which is how classes and methods are named: signatures begin
with a parenthesis, so that the first hash sign and the first parenthesis after it separate the
three parts. A lookup then finds exactly what was asked for, the last method with these three parts.

## Main results

* `MemberKey.of_inj`: the parts of a key.
* `Container.mem_slottedMethods_iff`: the methods with their slots are those of the container.
* `Container.holds_iff`: what the container holds under three parts.
* `Container.isLast_method?`: a lookup gives the last method with the owner, name and signature, and
  the index counts the methods that differ in them, in a container that sharing leaves as it was.
-/

namespace BodyCache

/-! ### Keys -/

/-- The first hash sign of a key ends its owner, and the first parenthesis after it its name. -/
theorem MemberKey.of_inj {owner name signature owner' name' signature' : String}
    (howner : '#' ∉ owner.toList) (howner' : '#' ∉ owner'.toList) (hname : '(' ∉ name.toList)
    (hname' : '(' ∉ name'.toList) (hsignature : signature.toList.head? = some '(')
    (hsignature' : signature'.toList.head? = some '(') :
    MemberKey.of owner name signature = .of owner' name' signature' ↔
      owner = owner' ∧ name = name' ∧ signature = signature' := by
  constructor
  · intro h
    obtain ⟨types, htypes⟩ := List.head?_eq_some_iff.mp hsignature
    obtain ⟨types', htypes'⟩ := List.head?_eq_some_iff.mp hsignature'
    have htext : owner.toList ++ '#' :: (name.toList ++ '(' :: types) =
        owner'.toList ++ '#' :: (name'.toList ++ '(' :: types') := by
      have h' := congrArg String.toList (MemberKey.mk.inj h)
      simpa [String.toList_append, htypes, htypes'] using h'
    obtain ⟨hsameOwner, hrest⟩ := Text.append_cons_inj howner howner' htext
    obtain ⟨hsameName, hsameTypes⟩ := Text.append_cons_inj hname hname' hrest
    refine ⟨String.toList_injective hsameOwner, String.toList_injective hsameName,
      String.toList_injective ?_⟩
    rw [htypes, htypes', hsameTypes]
  · rintro ⟨rfl, rfl, rfl⟩
    rfl

/-- A signature begins with a parenthesis. -/
theorem Prototype.head?_signature (p : Prototype) : p.signature.toList.head? = some '(' := by
  rw [p.toList_signature, List.head?_cons]

/-! ### Counting keys -/

/-- What is left when repetitions are erased does not repeat itself. -/
theorem nodup_eraseDups {α : Type} [DecidableEq α] (as : List α) : as.eraseDups.Nodup := by
  cases as with
  | nil => exact List.nodup_nil
  | cons a as =>
      rw [List.eraseDups_cons, List.nodup_cons]
      refine ⟨fun h => ?_, nodup_eraseDups (as.filter fun b => !b == a)⟩
      rw [List.mem_eraseDups, List.mem_filter] at h
      simp at h
termination_by as.length
decreasing_by exact Nat.lt_succ_of_le (List.length_filter_le ..)

/-- The size of a table is the number of different keys of its bindings. -/
theorem Table.size_eq_card {α β : Type} [DecidableEq α] (t : Table α β) :
    t.size = (t.entries.map Prod.fst).toFinset.card := by
  have h : (t.entries.map Prod.fst).eraseDups.toFinset = (t.entries.map Prod.fst).toFinset := by
    ext key
    rw [List.mem_toFinset, List.mem_toFinset, List.mem_eraseDups]
  rw [← h, List.toFinset_card_of_nodup (nodup_eraseDups _), Table.size]

namespace Container

variable {c : Container}

/-! ### Methods and their slots -/

/-- A method is at a slot of a container when its class is the one with the number of the group, and
it is itself the method with the number of the member in this class. -/
structure MethodAt (c : Container) (s : Slot) (m : IndexedMethod) : Prop where
  owner : c.classes[s.group]? = some m.owner
  method : m.owner.methods[s.member]? = some m.method

/-- The methods that are listed with their slots are those that the container has there. -/
theorem mem_slottedMethods_iff {s : Slot} {m : IndexedMethod} :
    (s, m) ∈ c.slottedMethods ↔ c.MethodAt s m := by
  rw [slottedMethods, Slot.mem_enumerate_zipIdx, Slot.at?_eq_some_iff]
  constructor
  · rintro ⟨owner, method, howner, hmethod, rfl⟩
    exact ⟨howner, hmethod⟩
  · rintro ⟨howner, hmethod⟩
    exact ⟨m.owner, m.method, howner, hmethod, rfl⟩

/-- Without the slots, all methods are listed. -/
theorem map_snd_slottedMethods (c : Container) :
    c.slottedMethods.map Prod.snd = c.indexedMethods := Slot.map_snd_enumerate_zipIdx ..

/-- What is at a slot is a method of the container. -/
theorem mem_indexedMethods_of_methodAt {s : Slot} {m : IndexedMethod} (h : c.MethodAt s m) :
    m ∈ c.indexedMethods := by
  rw [← map_snd_slottedMethods]
  exact List.mem_map_of_mem (mem_slottedMethods_iff.mpr h)

/-- A search of all methods from the end gives the last one of the container. -/
theorem isLast_indexedMethods (c : Container) (p : IndexedMethod → Prop) [DecidablePred p] :
    IsLast c.MethodAt p (c.indexedMethods.reverse.find? fun m => p m) := by
  rw [← map_snd_slottedMethods]
  exact isLast_find? (fun _ _ => mem_slottedMethods_iff) (Slot.pairwise_enumerate_zipIdx ..)
    Slot.le_refl

/-- A slot has one method. -/
theorem MethodAt.unique {s : Slot} {m m' : IndexedMethod} (h : c.MethodAt s m)
    (h' : c.MethodAt s m') : m = m' := by
  obtain ⟨owner, method⟩ := m
  obtain ⟨owner', method'⟩ := m'
  obtain rfl : owner = owner' := Option.some.inj (h.owner.symm.trans h'.owner)
  obtain rfl : method = method' := Option.some.inj (h.method.symm.trans h'.method)
  rfl

/-! ### Lookups -/

/-- What the container holds under three parts: the last method whose key has the same text. -/
def Holds (c : Container) (owner name signature : String) (found : IndexedMethod) : Prop :=
  IsLast c.MethodAt
    (fun m => m.owner.target.descriptor ++ "#" ++ m.method.name ++ m.method.prototype.signature =
      owner ++ "#" ++ name ++ signature)
    (some found)

/-- A lookup finds what the container holds. -/
theorem holds_iff {owner name signature : String} {found : IndexedMethod} :
    c.Holds owner name signature found ↔ c.index.method? owner name signature = some found := by
  have hlookup : IsLast c.MethodAt
      (fun m => m.owner.target.descriptor ++ "#" ++ m.method.name ++ m.method.prototype.signature =
        owner ++ "#" ++ name ++ signature)
      (c.index.method? owner name signature) := by
    rw [method?_index]
    refine (c.isLast_indexedMethods _).congr fun _ m _ => ?_
    rw [IndexedMethod.key, MemberKey.of, MemberKey.of, MemberKey.mk.injEq]
  constructor
  · exact hlookup.unique (fun _ _ _ => MethodAt.unique) Slot.le_antisymm
  · intro h
    rw [Holds, ← h]
    exact hlookup

/-- The three parts that identify a method: the descriptor of its class, its name, its signature. -/
def IndexedMethod.names (m : IndexedMethod) : String × String × String :=
  (m.owner.target.descriptor, m.method.name, m.method.prototype.signature)

/-- A container is separable when no hash sign occurs in the descriptor of a class, and no opening
parenthesis in the name of a method. -/
structure Separable (c : Container) : Prop where
  descriptor : ∀ owner ∈ c.classes, '#' ∉ owner.target.descriptor.toList
  name : ∀ owner ∈ c.classes, ∀ method ∈ owner.methods, '(' ∉ method.name.toList

/-- The parts of a method of a separable container. -/
theorem Separable.not_mem (h : c.Separable) {m : IndexedMethod} (hm : m ∈ c.indexedMethods) :
    '#' ∉ m.owner.target.descriptor.toList ∧ '(' ∉ m.method.name.toList := by
  obtain ⟨owner, howner, hm⟩ := List.mem_flatMap.mp hm
  obtain ⟨method, hmethod, rfl⟩ := List.mem_map.mp hm
  exact ⟨h.descriptor owner howner, h.name owner howner method hmethod⟩

/-- In a separable container a method has the key of three parts exactly when it has these parts. -/
theorem Separable.key_eq_of_iff (h : c.Separable) {m : IndexedMethod}
    (hm : m ∈ c.indexedMethods) {owner name signature : String} (howner : '#' ∉ owner.toList)
    (hname : '(' ∉ name.toList) (hsignature : signature.toList.head? = some '(') :
    m.key = .of owner name signature ↔
      m.owner.target.descriptor = owner ∧ m.method.name = name ∧
        m.method.prototype.signature = signature :=
  MemberKey.of_inj (h.not_mem hm).1 howner (h.not_mem hm).2 hname
    m.method.prototype.head?_signature hsignature

/-- In a separable container two methods have the same key exactly when they have the same parts. -/
theorem Separable.key_eq_key_iff (h : c.Separable) {m m' : IndexedMethod}
    (hm : m ∈ c.indexedMethods) (hm' : m' ∈ c.indexedMethods) :
    m.key = m'.key ↔ m.names = m'.names := by
  obtain ⟨howner, hname⟩ := h.not_mem hm'
  refine (h.key_eq_of_iff hm howner hname m'.method.prototype.head?_signature).trans ?_
  rw [IndexedMethod.names, IndexedMethod.names, Prod.mk.injEq, Prod.mk.injEq]

/-- The index of a separable container counts the methods that differ in one of the parts. -/
theorem Separable.methodCount_index (h : c.Separable) :
    c.index.methodCount = (c.indexedMethods.map IndexedMethod.names).toFinset.card := by
  let join (n : String × String × String) : MemberKey := .of n.1 n.2.1 n.2.2
  have hentries : c.index.methods.entries.map Prod.fst =
      ((c.indexedMethods.map IndexedMethod.names).map join).reverse := by
    rw [methods_index, ← map_snd_slottedMethods, Table.ofList, List.map_reverse]
    simp only [List.map_map]
    rfl
  have hkeys : (c.index.methods.entries.map Prod.fst).toFinset =
      (c.indexedMethods.map IndexedMethod.names).toFinset.image join := by
    rw [hentries]
    ext key
    simp
  have hinj : Set.InjOn join ((c.indexedMethods.map IndexedMethod.names).toFinset : Set _) := by
    intro n hn n' hn' heq
    obtain ⟨m, hm, rfl⟩ := List.mem_map.mp (List.mem_toFinset.mp hn)
    obtain ⟨m', hm', rfl⟩ := List.mem_map.mp (List.mem_toFinset.mp hn')
    exact (h.key_eq_key_iff hm hm').mp heq
  rw [Index.methodCount, Table.size_eq_card, hkeys, Finset.card_image_of_injOn hinj]

/-- **Looking up a separable container is exact.** For three parts that are separable as well, a
lookup gives the last method with these parts, together with its class, or nothing if there is none.
The index counts the methods that differ in one of the parts. Sharing prototypes leaves the
container as it was, since a pool answers for every prototype with an equal one. -/
theorem isLast_method? (h : c.Separable) :
    (∀ owner name signature, '#' ∉ owner.toList → '(' ∉ name.toList →
      signature.toList.head? = some '(' →
        IsLast c.MethodAt
          (fun m => m.owner.target.descriptor = owner ∧ m.method.name = name ∧
            m.method.prototype.signature = signature)
          (c.index.method? owner name signature)) ∧
    (∀ m ∈ c.indexedMethods, ∀ m' ∈ c.indexedMethods, m.key = m'.key ↔ m.names = m'.names) ∧
    c.index.methodCount = (c.indexedMethods.map IndexedMethod.names).toFinset.card ∧
    c.index.container = c ∧
    ∀ (pool : PrototypePool) (i : PrototypeInstance),
      (pool.intern i).1.prototype = i.prototype := by
  refine ⟨fun owner name signature howner hname hsignature => ?_,
    fun m hm m' hm' => h.key_eq_key_iff hm hm', h.methodCount_index, container_index c,
    PrototypePool.prototype_intern⟩
  rw [method?_index]
  refine (c.isLast_indexedMethods _).congr fun s m hat => ?_
  exact h.key_eq_of_iff (mem_indexedMethods_of_methodAt hat) howner hname hsignature

/-! ### A class that is emitted twice -/

namespace Repeated

/-- A method of the class, told from others of the same name by its parameters and its flags. -/
def bar (parameters : List TypeRef) (accessFlags : UInt32) : MethodDef :=
  ⟨"bar", .ofTypes (.primitive .void) parameters, accessFlags, none⟩

/-- The class, with some methods. -/
def foo (methods : List MethodDef) : ClassDef := { target := ⟨"Lcom/x/Foo;"⟩, methods }

/-- A container with two overloads of a method, one of which comes again in a second class with the
same descriptor. -/
def container : Container := ⟨[foo [bar [] 0, bar [.primitive .int] 0], foo [bar [] 1]]⟩

/-- Names of classes and methods are separable. -/
theorem separable : container.Separable := ⟨by decide, by decide⟩

end Repeated

/-- Of two methods with the same parts the later one is found, in the later class, and they count as
one. -/
theorem isLast_method?_repeated :
    Repeated.container.Separable ∧
      Repeated.container.index.method? "Lcom/x/Foo;" "bar" "()V" =
        some ⟨Repeated.foo [Repeated.bar [] 1], Repeated.bar [] 1⟩ ∧
      IsLast Repeated.container.MethodAt
        (fun m => m.owner.target.descriptor = "Lcom/x/Foo;" ∧ m.method.name = "bar" ∧
          m.method.prototype.signature = "()V")
        (some ⟨Repeated.foo [Repeated.bar [] 1], Repeated.bar [] 1⟩) ∧
      Repeated.container.index.methodCount = 2 := by
  obtain ⟨hlookup, -, hcount, -⟩ := isLast_method? Repeated.separable
  have hfound : Repeated.container.index.method? "Lcom/x/Foo;" "bar" "()V" =
      some ⟨Repeated.foo [Repeated.bar [] 1], Repeated.bar [] 1⟩ :=
    (method?_index ..).trans rfl
  have hlast := hlookup "Lcom/x/Foo;" "bar" "()V" (by decide) (by decide) (by decide)
  rw [hfound] at hlast
  exact ⟨Repeated.separable, hfound, hlast, hcount.trans (by decide)⟩

end Container

end BodyCache
