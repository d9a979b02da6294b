import BodyCache.Proofs.Retarget.Leaves
import BodyCache.Proofs.Retarget.Memory

/-!
# Calls on a Pass

A pass (`BodyCache.Retarget.Pass`) may be called many times, for classes, types, methods, fields and
bodies, and it goes on remembering whether a call succeeds or fails. What a call gives does not
depend on the calls before it: it is what resolving the leaves gives
(`BodyCache.Proofs.Retarget.Leaves`), which remembers nothing.

For a body it follows that carrying over all its references in one pass, which remembers from one
reference to the next, is the same as carrying over each reference by a pass of its own.

## Main results

* `Pass.faithful_replay`: whatever a pass remembers after any calls is what the bridge gives.
* `Pass.run_replay`: what a call gives after any calls.
* `Pass.carryBody_iff_alone`: a body is carried over with all its references or not at all.
-/

namespace BodyCache

/-- A call on a pass. -/
inductive PassCall where
  | ofClass (target : ClassRef)
  | ofType (target : TypeRef)
  | ofMethod (target : MethodRef)
  | ofField (target : FieldRef)
  | ofBody (target : MethodBody)

namespace Pass

variable (b : Bridge)

/-- What a pass remembers after a call, whether the call succeeds or fails. -/
def after (s : PassState) : PassCall → PassState
  | .ofClass c => (run s (carryClass b c)).2
  | .ofType t => (run s (carryType b t)).2
  | .ofMethod r => (run s (carryMethod b r)).2
  | .ofField r => (run s (carryField b r)).2
  | .ofBody x => (run s (carryBody b x)).2

/-- What a pass remembers after a series of calls. -/
def replay (calls : List PassCall) : PassState := calls.foldl (after b) {}

variable {b}

/-- A call keeps the memory faithful. -/
theorem faithful_after {s : PassState} (hs : s.Faithful b) (k : PassCall) :
    (after b s k).Faithful b := by
  cases k with
  | ofClass c => exact (computes_carryClass c s hs).2
  | ofType t => exact (computes_carryType t s hs).2
  | ofMethod r => exact (computes_carryMethod r s hs).2
  | ofField r => exact (computes_carryField r s hs).2
  | ofBody x => exact (computes_carryBody x s hs).2

/-- The memory is faithful after any calls. -/
theorem faithful_replay (b : Bridge) (calls : List PassCall) : (replay b calls).Faithful b := by
  have hfold : ∀ s : PassState, s.Faithful b → (calls.foldl (after b) s).Faithful b := by
    induction calls with
    | nil => exact fun _ hs => hs
    | cons k calls ih => exact fun s hs => ih _ (faithful_after hs k)
  exact hfold {} (PassState.Faithful.fresh b)

/-- **The memory of a pass cannot be observed.** After any calls, successful or failed, a further
call gives what resolving gives: a class is resolved by itself; types, methods and fields are
resolved leaf by leaf, with every wrapper, flag and primitive kept, and with the first leaf reported
that cannot be resolved; and a body is resolved reference by reference. -/
theorem run_replay (b : Bridge) (calls : List PassCall) :
    let s := replay b calls
    (∀ c, (run s (carryClass b c)).1 = b.carryClass c) ∧
      (∀ t, (run s (carryType b t)).1 = b.resolveType t) ∧
      (∀ r, (run s (carryMethod b r)).1 = b.resolveMethod r) ∧
      (∀ r, (run s (carryField b r)).1 = b.resolveField r) ∧
      ∀ x, (run s (carryBody b x)).1 = b.resolveBody x := by
  intro s
  have hs : s.Faithful b := faithful_replay b calls
  rw [← b.carryType_eq_resolveType, ← b.carryMethod_eq_resolveMethod,
    ← b.carryField_eq_resolveField, ← b.carryBody_eq_resolveBody]
  exact ⟨fun c => (computes_carryClass c s hs).1, fun t => (computes_carryType t s hs).1,
    fun r => (computes_carryMethod r s hs).1, fun r => (computes_carryField r s hs).1,
    fun x => (computes_carryBody x s hs).1⟩

/-! ### Bodies -/

/-- A reference, carried over by a pass of its own. -/
def alone (b : Bridge) (r : Reference) : Except ResolveError Reference :=
  (run {} ((visitor b).reference r)).1

/-- A reference is carried over as the bridge says. -/
theorem computes_reference (r : Reference) :
    Computes b ((visitor b).reference r) (b.carryReference r) := by
  cases r with
  | type t => exact (computes_carryType t).map Reference.type
  | method r => exact (computes_carryMethod r).map Reference.method
  | field r => exact (computes_carryField r).map Reference.field

/-- Alone, a reference is carried over as the bridge says. -/
theorem alone_eq_carryReference (b : Bridge) : alone b = b.carryReference :=
  funext fun r => (computes_reference r {} (PassState.Faithful.fresh b)).1

/-- **A body is carried over with all its references or not at all.** A fresh pass over a body

* succeeds exactly when every reference of it can be carried over by a pass of its own;
* then gives the body with each reference replaced by what its own pass gives, in place, and with
  everything else kept;
* otherwise fails as the first reference that fails does, in the order of the instructions and then
  of the catch clauses, range by range. -/
theorem carryBody_iff_alone (b : Bridge) (x : MethodBody) :
    (Succeeds (run {} (carryBody b x)).1 ↔ ∀ r ∈ x.references, Succeeds (alone b r)) ∧
      (∀ y, (run {} (carryBody b x)).1 = .ok y →
        ∃ ρ : Renaming, (∀ r ∈ x.references, alone b r = .ok (r.rename ρ)) ∧
          y = x.rename ρ ∧ y.references = x.references.map (·.rename ρ)) ∧
      ∀ e, (run {} (carryBody b x)).1 = .error e ↔
        ∃ before r after, x.references = before ++ r :: after ∧ alone b r = .error e ∧
          ∀ q ∈ before, Succeeds (alone b q) := by
  have hrun : (run {} (carryBody b x)).1 =
      unlessFailing (alone b) x.references (x.rename b.visitor.results) := by
    rw [fst_run_carryBody, Bridge.carryBody_eq, alone_eq_carryReference]
  rw [hrun]
  refine ⟨succeeds_unlessFailing_iff, fun y hy => ?_, fun e => unlessFailing_eq_error_iff⟩
  obtain ⟨hall, rfl⟩ := unlessFailing_eq_ok_iff.mp hy
  refine ⟨b.visitor.results, fun r hr => ?_, rfl, x.references_rename _⟩
  have hr := hall r hr
  rw [alone_eq_carryReference, ← Bridge.reference_visitor] at hr ⊢
  exact b.visitor.reference_eq_of_succeeds hr

end Pass

end BodyCache
