import BodyCache.Container.Index
import BodyCache.Proofs.Text.Cut
import BodyCache.SymbolMap.Index

/-!
# Signatures Are Uniquely Readable

A signature puts the descriptors of types one after the other, without anything between them. It can
be read all the same: a descriptor begins with a bracket, an ampersand, the letter of a primitive or
the letter L, and each of these tells how to go on. The name of a class ends with the first
semicolon and may contain every other character, parentheses, brackets and the letters of primitives
included.

What is read is the type up to erasure, since arguments and modifiers do not show. So two signatures
are equal exactly when the types are, position by position, once they are erased.

## Main results

* `TypeRef.read?_descriptor_append`: a reader takes a descriptor off the front of any text and gives
  the erased type.
* `TypeRef.descriptor_append_inj`, `TypeRef.descriptors_append_inj`: the descriptor of a type, and
  those of a list of parameters, are determined where other text follows.
* `Prototype.signature_eq_iff`: when signatures are equal, and with them the keys of overloads.
-/

namespace BodyCache

/-! ### Delimited names -/

/-- A class is delimited when its descriptor is a name between the letter L and the only semicolon.
The name is any text. -/
def ClassRef.Delimited (c : ClassRef) : Prop :=
  ∃ name : List Char, ';' ∉ name ∧ c.descriptor.toList = 'L' :: (name ++ [';'])

namespace TypeRef

/-- A type is delimited when every class that survives erasure is. -/
def Delimited (t : TypeRef) : Prop := ∀ c ∈ t.erased.classes, c.Delimited

/-! ### Reading a descriptor -/

/-- The type at the front of a text, as far as it shows in a descriptor, and what follows it. -/
def read? : List Char → Option (TypeRef × List Char)
  | [] => none
  | '[' :: cs => (read? cs).map fun r => (.array r.1, r.2)
  | '&' :: cs => (read? cs).map fun r => (.byRef r.1, r.2)
  | 'L' :: cs =>
    (Text.cut? [';'] cs).map fun r => (.named ⟨String.ofList ('L' :: (r.1 ++ [';']))⟩, r.2)
  | c :: cs => (Primitive.all.find? fun p => p.letter = c).map fun p => (.primitive p, cs)

/-- **A descriptor can be read off the front of any text**, and gives the erased type. -/
theorem read?_descriptor_append {t : TypeRef} (h : t.Delimited) (rest : List Char) :
    read? (t.descriptor.toList ++ rest) = some (t.erased, rest) := by
  induction t using TypeRef.rec (motive_2 := fun _ => True) with
  | primitive p =>
      rw [descriptor, String.toList_singleton]
      cases p <;> rfl
  | named c =>
      obtain ⟨name, hname, hc⟩ := h c List.mem_cons_self
      have hcut : Text.cut? [';'] (name ++ ';' :: rest) = some (name, rest) :=
        Text.cut?_singleton_append.mpr hname
      have hback : String.ofList ('L' :: (name ++ [';'])) = c.descriptor := by
        rw [← hc, String.ofList_toList]
      rw [descriptor, hc, List.cons_append, List.append_assoc, List.singleton_append, read?, hcut,
        Option.map_some, hback]
      rfl
  | array e ih =>
      have hread := ih h
      rw [descriptor, String.toList_append]
      change read? ('[' :: (e.descriptor.toList ++ rest)) = _
      rw [read?, hread]
      rfl
  | byRef e ih =>
      have hread := ih h
      rw [descriptor, String.toList_append]
      change read? ('&' :: (e.descriptor.toList ++ rest)) = _
      rw [read?, hread]
      rfl
  | generic e arguments ih _ => exact ih h
  | modified e modifier required ih => exact ih h
  | nil | cons => trivial

/-- The descriptor of a type, and the text after it, are determined. -/
theorem descriptor_append_inj {t u : TypeRef} (ht : t.Delimited) (hu : u.Delimited)
    {x y : List Char} (h : t.descriptor.toList ++ x = u.descriptor.toList ++ y) :
    t.erased = u.erased ∧ x = y := by
  have hread := read?_descriptor_append ht x
  rw [h, read?_descriptor_append hu y] at hread
  obtain ⟨herased, hrest⟩ := Prod.mk.inj (Option.some.inj hread)
  exact ⟨herased.symm, hrest.symm⟩

/-- No descriptor begins with a closing parenthesis. -/
theorem descriptor_append_ne {t : TypeRef} (ht : t.Delimited) (x y : List Char) :
    t.descriptor.toList ++ x ≠ ')' :: y := by
  intro h
  have hread := read?_descriptor_append ht x
  rw [h] at hread
  cases hread

/-- The descriptors of parameters, and the text after the closing parenthesis, are determined. -/
theorem descriptors_append_inj {ts us : List TypeRef} (hts : ∀ t ∈ ts, t.Delimited)
    (hus : ∀ u ∈ us, u.Delimited) {x y : List Char}
    (h : (descriptors ts).toList ++ ')' :: x = (descriptors us).toList ++ ')' :: y) :
    ts.map erased = us.map erased ∧ x = y := by
  induction ts generalizing us with
  | nil =>
      cases us with
      | nil => exact ⟨rfl, (List.cons.inj h).2⟩
      | cons u us =>
          rw [descriptors, descriptors, String.toList_append, List.append_assoc] at h
          exact (descriptor_append_ne (hus u List.mem_cons_self) _ _ h.symm).elim
  | cons t ts ih =>
      have ht := hts t List.mem_cons_self
      rw [descriptors, String.toList_append, List.append_assoc] at h
      cases us with
      | nil => exact (descriptor_append_ne ht _ _ h).elim
      | cons u us =>
          rw [descriptors, String.toList_append, List.append_assoc] at h
          obtain ⟨hfirst, hrest⟩ := descriptor_append_inj ht (hus u List.mem_cons_self) h
          obtain ⟨htypes, hxy⟩ := ih (fun t' ht' => hts t' (List.mem_cons_of_mem t ht'))
            (fun u' hu' => hus u' (List.mem_cons_of_mem u hu')) hrest
          rw [List.map_cons, List.map_cons, hfirst, htypes]
          exact ⟨rfl, hxy⟩

end TypeRef

/-! ### Signatures -/

namespace Prototype

variable {p q : Prototype}

/-- A prototype is delimited when its types are. -/
structure Delimited (p : Prototype) : Prop where
  returnType : p.returnType.Delimited
  parameters : ∀ t ∈ p.parameters, t.Delimited

/-- Two prototypes have the same erasure when they have equally many parameters, and the types in
each position, and the return types, are the same once they are erased. -/
structure SameErasure (p q : Prototype) : Prop where
  length_eq : p.parameters.length = q.parameters.length
  parameters : ∀ (i : Nat) t u, p.parameters[i]? = some t → q.parameters[i]? = some u →
    t.erased = u.erased
  returnType : p.returnType.erased = q.returnType.erased

/-- The erased parameters, as lists. -/
theorem sameErasure_iff :
    SameErasure p q ↔ p.parameters.map TypeRef.erased = q.parameters.map TypeRef.erased ∧
      p.returnType.erased = q.returnType.erased := by
  constructor
  · rintro ⟨hlength, hparameters, hreturn⟩
    refine ⟨List.ext_getElem (by simpa using hlength) fun i hi hi' => ?_, hreturn⟩
    rw [List.length_map] at hi hi'
    rw [List.getElem_map, List.getElem_map]
    exact hparameters i _ _ (List.getElem?_eq_getElem hi) (List.getElem?_eq_getElem hi')
  · rintro ⟨hparameters, hreturn⟩
    refine ⟨by simpa using congrArg List.length hparameters, fun i t u ht hu => ?_, hreturn⟩
    have hi := congrArg (fun types => types[i]?) hparameters
    simp only [List.getElem?_map, ht, hu, Option.map_some] at hi
    exact Option.some.inj hi

/-- Signatures are equal when the types are the same once they are erased. -/
theorem SameErasure.signature_eq (h : SameErasure p q) : p.signature = q.signature := by
  obtain ⟨hparameters, hreturn⟩ := sameErasure_iff.mp h
  rw [p.signature_eq, q.signature_eq, signatureText, signatureText,
    ← TypeRef.descriptors_map_erased p.parameters, ← TypeRef.descriptors_map_erased q.parameters,
    ← TypeRef.descriptor_erased p.returnType, ← TypeRef.descriptor_erased q.returnType, hparameters,
    hreturn]

/-- The types of equal signatures are the same once they are erased. -/
theorem sameErasure_of_signature_eq (hp : p.Delimited) (hq : q.Delimited)
    (h : p.signature = q.signature) : SameErasure p q := by
  have htext := congrArg String.toList h
  rw [toList_signature, toList_signature] at htext
  obtain ⟨hparameters, hreturn⟩ :=
    TypeRef.descriptors_append_inj hp.parameters hq.parameters (List.cons.inj htext).2
  have hend : p.returnType.descriptor.toList ++ [] = q.returnType.descriptor.toList ++ [] := by
    rw [hreturn]
  exact sameErasure_iff.mpr
    ⟨hparameters, (TypeRef.descriptor_append_inj hp.returnType hq.returnType hend).1⟩

/-! ### Keys of overloads -/

/-- **Signatures are uniquely readable up to erasure.** Where the names of classes are delimited,
the signatures of two prototypes are equal exactly when the prototypes have equally many parameters
and the same types, position by position, after erasure. So are the keys of two overloads in a
container, and of two overloads in a map that were emitted with these signatures. -/
theorem signature_eq_iff (hp : p.Delimited) (hq : q.Delimited) :
    (p.signature = q.signature ↔ SameErasure p q) ∧
    (∀ f g : Container.IndexedMethod, f.owner.target.descriptor = g.owner.target.descriptor →
      f.method.name = g.method.name → f.method.prototype = p → g.method.prototype = q →
        (f.key = g.key ↔ SameErasure p q)) ∧
    ∀ r s : SymbolMap.Record, r.emittedOwner = s.emittedOwner →
      r.method.emittedName = s.method.emittedName → r.method.emittedSignature = p.signature →
      s.method.emittedSignature = q.signature → (r.key = s.key ↔ SameErasure p q) := by
  have hsignature : p.signature = q.signature ↔ SameErasure p q :=
    ⟨sameErasure_of_signature_eq hp hq, SameErasure.signature_eq⟩
  refine ⟨hsignature, fun f g howner hname hf hg => ?_, fun r s howner hname hr hs => ?_⟩
  · rw [Container.IndexedMethod.key, Container.IndexedMethod.key, howner, hname, hf, hg,
      MemberKey.of_eq_of_iff, hsignature]
  · rw [SymbolMap.Record.key, SymbolMap.Record.key, howner, hname, hr, hs,
      MemberKey.of_eq_of_iff, hsignature]

/-! ### Overloads with one generic class -/

namespace Instantiated

/-- A class whose name looks like the end of one signature and the beginning of another. -/
def list : ClassRef := ⟨"La)V(I;"⟩

/-- The name of the class is delimited. -/
theorem delimited_list : list.Delimited := ⟨"a)V(I".toList, by decide, by decide⟩

/-- The prototype of a method of a list with elements of a type, and more parameters. -/
def taking (element : TypeRef) (more : List TypeRef) : Prototype :=
  .ofTypes (.primitive .void) (.generic (.named list) [element] :: more)

/-- Such a prototype is delimited when the further types are, whatever the elements are. -/
theorem delimited_taking (element : TypeRef) {more : List TypeRef}
    (hmore : ∀ t ∈ more, t.Delimited) : (taking element more).Delimited where
  returnType := nofun
  parameters := List.forall_mem_cons.mpr ⟨List.forall_mem_singleton.mpr delimited_list, hmore⟩

/-- A method of a list of numbers. -/
def numbers : Prototype := taking (.primitive .int) []

/-- A method of a list of texts, which are of a class without a delimited name. -/
def texts : Prototype := taking (.named ⟨"text"⟩) []

/-- A method of a list of numbers and of an array of them. -/
def numbersTwice : Prototype := taking (.primitive .int) [.array (.primitive .int)]

end Instantiated

open Instantiated in
/-- Overloads for lists with other elements have one signature, and it is not that of an overload
with another parameter. -/
theorem signature_eq_iff_instantiated :
    (numbers.Delimited ∧ texts.Delimited ∧ numbersTwice.Delimited) ∧
      numbers ≠ texts ∧ numbers.signature = texts.signature ∧
        numbers.signature ≠ numbersTwice.signature := by
  have hnumbers : numbers.Delimited := delimited_taking _ nofun
  have htexts : texts.Delimited := delimited_taking _ nofun
  have htwice : numbersTwice.Delimited := delimited_taking _ (List.forall_mem_singleton.mpr nofun)
  refine ⟨⟨hnumbers, htexts, htwice⟩, by decide, ?_, fun h => ?_⟩
  · exact (signature_eq_iff hnumbers htexts).1.mpr (sameErasure_iff.mpr ⟨rfl, rfl⟩)
  · exact absurd ((signature_eq_iff hnumbers htwice).1.mp h).length_eq (by decide)

end Prototype

end BodyCache
