import Mathlib.Data.Finset.Card
import BodyCache.Proofs.Prototype.Equality
import BodyCache.Proofs.Prototype.Signature

/-!
# Sharing Is Exact

A pool is handed one instance after the other and answers each time with the instance that
everybody shares. This module says which one that is, for every series of requests: the first
instance of the series that has the same types. So two answers are one and the same instance
exactly when the requests have the same types, and the pool is as large as there are different
types among the requests.

The hash does not help to tell prototypes apart that differ in generic arguments or in modifiers,
since it is the hash of the signature. Such prototypes are nevertheless kept apart.

The instances come from storage (`PrototypeStorage`), where one place holds one prototype. Without
this, two requests for different prototypes could already be one and the same instance.

## Main results

* `PrototypePool.find?_after`: what a pool finds after a series of requests.
* `PrototypePool.size_after`: how large the pool is then.
* `PrototypePool.answer?_exact`: answers, and the sizes between them.
-/

namespace BodyCache.PrototypePool

/-! ### One request -/

/-- The answer is the instance that is found, and the request itself if none is. -/
theorem fst_intern (pool : PrototypePool) (i : PrototypeInstance) :
    (pool.intern i).1 = (pool.find? i.prototype).getD i := by
  rw [intern]
  cases pool.find? i.prototype <;> rfl

/-- After a request, the pool finds what it found before, or else the request. -/
theorem find?_intern (pool : PrototypePool) (i : PrototypeInstance) (p : Prototype) :
    (pool.intern i).2.find? p =
      (pool.find? p).or (if i.prototype.SameTypes p then some i else none) := by
  have hsame : (i.prototype == p) = decide (i.prototype.SameTypes p) := by
    rw [Bool.eq_iff_iff, Prototype.beq_eq_true_iff, Prototype.ext_iff, decide_eq_true_iff]
    rfl
  rw [intern]
  cases hfind : pool.find? i.prototype with
  | none =>
      simp only [find?, List.find?_append, List.find?_singleton, hsame, decide_eq_true_eq]
  | some shared =>
      by_cases h : i.prototype.SameTypes p
      · rw [if_pos h, ← Prototype.ext_iff.mpr h, hfind]
        rfl
      · rw [if_neg h, Option.or_none]

/-- A request makes the pool larger by one exactly if nothing is found for it. -/
theorem size_intern (pool : PrototypePool) (i : PrototypeInstance) :
    (pool.intern i).2.size = pool.size + if (pool.find? i.prototype).isSome then 0 else 1 := by
  rw [intern]
  cases pool.find? i.prototype with
  | none => simp [size]
  | some shared => rfl

/-! ### A series of requests -/

/-- The pool after a series of requests. -/
def after (requests : List PrototypeInstance) : PrototypePool :=
  requests.foldl (fun pool i => (pool.intern i).2) .empty

/-- The answer to the request with a number, after the requests before it. -/
def answer? (requests : List PrototypeInstance) (n : Nat) : Option PrototypeInstance :=
  requests[n]?.map fun i => ((after (requests.take n)).intern i).1

/-- The first instance of a series that has given types. -/
def first? (requests : List PrototypeInstance) (p : Prototype) : Option PrototypeInstance :=
  requests.find? fun i => i.prototype.SameTypes p

/-- One more request. -/
theorem after_concat (requests : List PrototypeInstance) (i : PrototypeInstance) :
    after (requests ++ [i]) = ((after requests).intern i).2 := by
  rw [after, List.foldl_append, List.foldl_cons, List.foldl_nil, after]

/-- **A pool finds the first request with the same types.** -/
theorem find?_after (requests : List PrototypeInstance) (p : Prototype) :
    (after requests).find? p = first? requests p := by
  induction requests using List.reverseRecOn with
  | nil => rfl
  | append_singleton requests i ih =>
      rw [after_concat, find?_intern, ih, first?, first?, List.find?_append, List.find?_singleton]
      simp only [decide_eq_true_eq]

/-- Something is found exactly when a request had the same types. -/
theorem isSome_find?_after {requests : List PrototypeInstance} {p : Prototype} :
    ((after requests).find? p).isSome ↔ ∃ i ∈ requests, i.prototype.SameTypes p := by
  rw [find?_after, first?, List.find?_isSome]
  simp only [decide_eq_true_eq]

/-- **A pool is as large as there are different types among the requests.** -/
theorem size_after (requests : List PrototypeInstance) :
    (after requests).size = (requests.map fun i => i.prototype.types).toFinset.card := by
  induction requests using List.reverseRecOn with
  | nil => rfl
  | append_singleton requests i ih =>
      have hmem : i.prototype.types ∈ (requests.map fun j => j.prototype.types).toFinset ↔
          ((after requests).find? i.prototype).isSome := by
        rw [isSome_find?_after, List.mem_toFinset, List.mem_map]
        simp only [Prototype.types, Prod.mk.injEq, Prototype.SameTypes]
      have hunion : ((requests ++ [i]).map fun j => j.prototype.types).toFinset =
          insert i.prototype.types (requests.map fun j => j.prototype.types).toFinset := by
        ext t
        simp
      rw [after_concat, size_intern, ih, hunion]
      by_cases h : ((after requests).find? i.prototype).isSome
      · rw [if_pos h, Finset.insert_eq_of_mem (hmem.mpr h), Nat.add_zero]
      · rw [if_neg h, Finset.card_insert_of_notMem (mt hmem.mp h)]

/-! ### Answers -/

section

variable {requests : List PrototypeInstance}

/-- The answer to a request is the first one with the same types, or the request itself. -/
theorem answer?_eq {n : Nat} {i : PrototypeInstance} (hi : requests[n]? = some i) :
    answer? requests n = some ((first? (requests.take n) i.prototype).getD i) := by
  rw [answer?, hi, Option.map_some, fst_intern, find?_after]

/-- The answer to a request is the first one of the whole series with the same types. -/
theorem answer?_eq_first? {n : Nat} {i : PrototypeInstance} (hi : requests[n]? = some i) :
    answer? requests n = first? requests i.prototype := by
  obtain ⟨hn, hget⟩ := List.getElem?_eq_some_iff.mp hi
  have hsplit : requests = requests.take n ++ i :: requests.drop (n + 1) := by
    rw [← hget, ← List.drop_eq_getElem_cons hn, List.take_append_drop]
  have hself : (i :: requests.drop (n + 1)).find? (fun j => j.prototype.SameTypes i.prototype) =
      some i := List.find?_cons_of_pos (decide_eq_true ⟨rfl, rfl⟩)
  have hwhole : first? requests i.prototype =
      (first? (requests.take n) i.prototype).or (some i) := by
    rw [first?, first?, ← hself, ← List.find?_append, ← hsplit]
  rw [answer?_eq hi, hwhole]
  cases first? (requests.take n) i.prototype <;> rfl

/-- An answer is one of the requests, and has the same types as the request that it answers. -/
theorem of_answer?_eq_some {n : Nat} {i a : PrototypeInstance} (hi : requests[n]? = some i)
    (ha : answer? requests n = some a) : a ∈ requests ∧ a.prototype = i.prototype := by
  rw [answer?_eq_first? hi, first?] at ha
  have htypes := List.find?_some ha
  exact ⟨List.mem_of_find?_eq_some ha, Prototype.ext_iff.mpr (of_decide_eq_true htypes)⟩

/-- Two answers are one and the same instance exactly when the requests have the same types. -/
theorem isSame_answer_iff {storage : PrototypeStorage} (h : ∀ i ∈ requests, storage.Holds i)
    {m n : Nat} {i j a b : PrototypeInstance} (hi : requests[m]? = some i)
    (hj : requests[n]? = some j) (ha : answer? requests m = some a)
    (hb : answer? requests n = some b) :
    a.isSame b = true ↔ i.prototype.SameTypes j.prototype := by
  obtain ⟨hmemA, htypesA⟩ := of_answer?_eq_some hi ha
  obtain ⟨hmemB, htypesB⟩ := of_answer?_eq_some hj hb
  constructor
  · intro hsame
    have heq : a.prototype = b.prototype := (h a hmemA).prototype_eq (h b hmemB) hsame
    rw [htypesA, htypesB] at heq
    exact Prototype.ext_iff.mp heq
  · intro htypes
    rw [answer?_eq_first? hi, Prototype.ext_iff.mpr htypes, ← answer?_eq_first? hj, hb] at ha
    rw [Option.some.inj ha]
    exact beq_self_eq_true a.label

/-- **Sharing is exact.** A pool is handed instances from storage, one after the other. Then

* the answer to each request is the very instance that was handed over first among those with the
  same types, and the request itself if there was none;
* two answers are one and the same instance exactly when the requests have the same types;
* after any number of requests, the size of the pool is the number of different types among them,
  and one more request adds one to it exactly if there was none with the same types before;
* requests that agree after erasure have the same signature and the same hash, but as long as they
  do not have the same types, they are answered by different instances. -/
theorem answer?_exact {storage : PrototypeStorage} (h : ∀ i ∈ requests, storage.Holds i) :
    (∀ n i, requests[n]? = some i →
      answer? requests n = some (((requests.take n).find? fun j =>
        j.prototype.SameTypes i.prototype).getD i)) ∧
    (∀ m n i j a b, requests[m]? = some i → requests[n]? = some j →
      answer? requests m = some a → answer? requests n = some b →
        (a.isSame b = true ↔ i.prototype.SameTypes j.prototype)) ∧
    (∀ n, (after (requests.take n)).size =
      ((requests.take n).map fun i => i.prototype.types).toFinset.card) ∧
    (∀ n i, requests[n]? = some i →
      (after (requests.take (n + 1))).size = (after (requests.take n)).size +
        if ∃ j ∈ requests.take n, j.prototype.SameTypes i.prototype then 0 else 1) ∧
    ∀ m n i j a b, requests[m]? = some i → requests[n]? = some j →
      answer? requests m = some a → answer? requests n = some b →
      i.prototype.SameErasure j.prototype →
        i.prototype.signature = j.prototype.signature ∧
          i.prototype.digest = j.prototype.digest ∧
          (¬ i.prototype.SameTypes j.prototype → a.isSame b = false) := by
  refine ⟨fun n i => answer?_eq, fun m n i j a b => isSame_answer_iff h,
    fun n => size_after (requests.take n), fun n i hi => ?_, ?_⟩
  · obtain ⟨hn, hget⟩ := List.getElem?_eq_some_iff.mp hi
    rw [← List.take_concat_get' requests n hn, hget, after_concat, size_intern]
    simp only [isSome_find?_after]
  · intro m n i j a b hi hj ha hb herasure
    have hsignature : i.prototype.signature = j.prototype.signature := herasure.signature_eq
    refine ⟨hsignature, ?_, fun htypes => ?_⟩
    · rw [i.prototype.digest_eq, j.prototype.digest_eq, hsignature]
    · rw [Bool.eq_false_iff, ne_eq, isSame_answer_iff h hi hj ha hb]
      exact htypes

end

/-! ### Prototypes with one signature -/

namespace Collisions

/-- A prototype with one parameter. -/
def taking (parameter : TypeRef) : Prototype := .ofTypes (.primitive .void) [parameter]

/-- The class that the parameter is of. -/
def list : TypeRef := .named ⟨"Ljava/util/List;"⟩

/-- The class alone. -/
def raw : Prototype := taking list

/-- The class with elements that are numbers. -/
def generic : Prototype := taking (.generic list [.primitive .int])

/-- The class with a modifier, which is required or not. -/
def modified (required : Bool) : Prototype := taking (.modified list ⟨"LIn;"⟩ required)

/-- All four are stored, and the first one a second time. -/
def storage : PrototypeStorage := ⟨[raw, generic, raw, modified true, modified false]⟩

/-- One instance is handed over twice. -/
def requests : List PrototypeInstance :=
  [⟨0, raw⟩, ⟨1, generic⟩, ⟨2, raw⟩, ⟨3, modified true⟩, ⟨4, modified false⟩, ⟨1, generic⟩]

/-- All the instances are in storage. -/
theorem holds : ∀ i ∈ requests, storage.Holds i := by
  simp only [requests, List.forall_mem_cons]
  exact ⟨rfl, rfl, rfl, rfl, rfl, rfl, List.forall_mem_nil _⟩

/-- The modifier does not show after erasure. -/
theorem sameErasure_modified : (modified true).SameErasure (modified false) :=
  Prototype.sameErasure_iff.mpr ⟨rfl, rfl⟩

end Collisions

open Collisions in
/-- Six requests for prototypes with one signature. The third one is answered by the first instance,
and the last one by the instance that it is. Four instances are left, two of which differ in nothing
but whether a modifier is required. -/
theorem answer?_exact_collisions :
    (∀ i ∈ requests, storage.Holds i) ∧
      answer? requests 2 = some ⟨0, raw⟩ ∧ answer? requests 5 = some ⟨1, generic⟩ ∧
      answer? requests 3 = some ⟨3, modified true⟩ ∧
      answer? requests 4 = some ⟨4, modified false⟩ ∧
      (modified true).digest = (modified false).digest ∧ (after (requests.take 6)).size = 4 := by
  obtain ⟨hanswer, -, hsize, -, hcollide⟩ := answer?_exact holds
  have hrequired : answer? requests 3 = some ⟨3, modified true⟩ := hanswer 3 _ rfl
  have hoptional : answer? requests 4 = some ⟨4, modified false⟩ := hanswer 4 _ rfl
  refine ⟨holds, hanswer 2 _ rfl, hanswer 5 _ rfl, hrequired, hoptional, ?_,
    (hsize 6).trans (by decide)⟩
  exact (hcollide 3 4 _ _ _ _ rfl rfl hrequired hoptional sameErasure_modified).2.1

end BodyCache.PrototypePool
