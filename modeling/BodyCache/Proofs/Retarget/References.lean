import Mathlib.Data.List.Basic
import BodyCache.Retarget

/-!
# The References of a Body

A body refers to types, methods and fields in the operands of its instructions, and to types in
its catch clauses. A visit of the body takes these references one by one. If none of them fails,
the result is the body with every reference replaced by what the visit makes of it, and otherwise
the visit fails as the first reference that does. This is one equation, `MethodBody.mapRefsM_eq`,
and retargeting a body is an instance of it.

Computations of this form are closed under sequencing and under visits of lists, so the equation
follows the structure of the body; types have one of their own (`BodyCache.Proofs.Retarget.Leaves`).

## Main results

* `unlessFailing`: a result that depends on the success of a list of items, in order.
* `MethodBody.references`: the references of a body, in the order in which they are visited.
* `MethodBody.rename`: a body with its references replaced.
* `MethodBody.mapRefsM_eq`: what a visit of a body gives.
* `Bridge.succeeds_carryBody_iff`: a body is carried over exactly when all its references are.
-/

namespace BodyCache

/-! ### The first failure -/

section

variable {ε α β γ δ : Type}

/-- The computation does not fail. -/
def Succeeds (x : Except ε α) : Prop := ∃ a, x = .ok a

/-- The failure of a computation, if it fails. -/
def failure? : Except ε α → Option ε
  | .ok _ => none
  | .error e => some e

/-- The result of a computation, or a default if it fails. -/
def resultOr (default : α) : Except ε α → α
  | .ok a => a
  | .error _ => default

/-- The whole, unless an item fails: then the failure of the first one that does. -/
def unlessFailing (f : α → Except ε β) (items : List α) (whole : γ) : Except ε γ :=
  match items.findSome? fun a => failure? (f a) with
  | some e => .error e
  | none => .ok whole

variable {f : α → Except ε β} {items : List α} {whole : γ}

/-- A computation that goes on with a result that is there. -/
theorem ok_bind (a : α) (k : α → Except ε β) : (Except.ok a >>= k) = k a := rfl

/-- A failure is not a success. -/
theorem not_succeeds_error (e : ε) : ¬ Succeeds (.error e : Except ε α) := by
  rintro ⟨_, h⟩
  cases h

/-- A computation that fails has its failure. -/
theorem failure?_eq_some_iff {x : Except ε α} {e : ε} : failure? x = some e ↔ x = .error e := by
  cases x <;> simp [failure?]

/-- A computation without failure succeeds. -/
theorem failure?_eq_none_iff {x : Except ε α} : failure? x = none ↔ Succeeds x := by
  cases x <;> simp [failure?, Succeeds]

/-- Packing a result does not change the failure. -/
theorem failure?_bind_pure (x : Except ε α) (k : α → β) :
    failure? (x >>= fun a => pure (k a)) = failure? x := by
  cases x <;> rfl

/-- A result that is packed successfully is the one that is packed, whatever the default is. -/
theorem bind_pure_eq_ok {x : Except ε α} {k : α → β} (h : Succeeds (x >>= fun a => pure (k a)))
    (default : α) : (x >>= fun a => pure (k a)) = .ok (k (resultOr default x)) := by
  cases x with
  | ok a => rfl
  | error e =>
      obtain ⟨_, h⟩ := h
      cases h

/-- The whole is given exactly when every item succeeds. -/
theorem unlessFailing_eq_ok_iff {w : γ} :
    unlessFailing f items whole = .ok w ↔ (∀ a ∈ items, Succeeds (f a)) ∧ whole = w := by
  have hnone : (items.findSome? fun a => failure? (f a)) = none ↔ ∀ a ∈ items, Succeeds (f a) := by
    simp only [List.findSome?_eq_none_iff, failure?_eq_none_iff]
  rw [← hnone, unlessFailing]
  cases items.findSome? fun a => failure? (f a) <;> simp

/-- The failure is that of the first item that fails. -/
theorem unlessFailing_eq_error_iff {e : ε} :
    unlessFailing f items whole = .error e ↔
      ∃ before a after, items = before ++ a :: after ∧ f a = .error e ∧
        ∀ x ∈ before, Succeeds (f x) := by
  have hsome : (items.findSome? fun a => failure? (f a)) = some e ↔
      ∃ before a after, items = before ++ a :: after ∧ f a = .error e ∧
        ∀ x ∈ before, Succeeds (f x) := by
    simp only [List.findSome?_eq_some_iff, failure?_eq_some_iff, failure?_eq_none_iff]
  rw [← hsome, unlessFailing]
  cases items.findSome? fun a => failure? (f a) <;> simp

/-- Success is success of every item. -/
theorem succeeds_unlessFailing_iff :
    Succeeds (unlessFailing f items whole) ↔ ∀ a ∈ items, Succeeds (f a) := by
  simp only [Succeeds, unlessFailing_eq_ok_iff, exists_and_left, exists_eq', and_true]

/-- A computation that fails as a single item does. -/
theorem eq_unlessFailing {x : Except ε δ} {a : α} (h : failure? (f a) = failure? x)
    (default : δ) : x = unlessFailing f [a] (resultOr default x) := by
  rw [unlessFailing, List.findSome?_singleton, h]
  cases x <;> rfl

/-- Packing the whole. -/
theorem unlessFailing_bind_pure (k : γ → δ) :
    (unlessFailing f items whole >>= fun w => pure (k w)) = unlessFailing f items (k whole) := by
  rw [unlessFailing, unlessFailing]
  cases items.findSome? fun a => failure? (f a) <;> rfl

/-- A computation that fails as a single item does, with its result packed. -/
theorem bind_pure_eq_unlessFailing {x : Except ε δ} {a : α} (h : failure? (f a) = failure? x)
    (default : δ) (k : δ → γ) :
    (x >>= fun d => pure (k d)) = unlessFailing f [a] (k (resultOr default x)) :=
  calc
    (x >>= fun d => pure (k d)) =
        (unlessFailing f [a] (resultOr default x) >>= fun d => pure (k d)) :=
      congrArg (· >>= fun d => pure (k d)) (eq_unlessFailing h default)
    _ = unlessFailing f [a] (k (resultOr default x)) := unlessFailing_bind_pure k

/-- More items after the first ones. -/
theorem unlessFailing_bind {more : List α} {k : γ → δ} :
    (unlessFailing f items whole >>= fun w => unlessFailing f more (k w)) =
      unlessFailing f (items ++ more) (k whole) := by
  rw [unlessFailing, unlessFailing, List.findSome?_append]
  cases items.findSome? fun a => failure? (f a) <;> rfl

/-- A visit of a list whose members have items of their own. -/
theorem mapM_eq_unlessFailing {g : δ → Except ε γ} {itemsOf : δ → List α} {wholeOf : δ → γ}
    (h : ∀ d, g d = unlessFailing f (itemsOf d) (wholeOf d)) (ds : List δ) :
    ds.mapM g = unlessFailing f (ds.flatMap itemsOf) (ds.map wholeOf) := by
  induction ds with
  | nil => rfl
  | cons d ds ih =>
      rw [List.mapM_cons, h, ih, List.flatMap_cons, List.map_cons]
      simp only [unlessFailing_bind_pure]
      exact unlessFailing_bind

end

/-! ### References -/

/-- A reference of a body. -/
inductive Reference where
  | type (target : TypeRef)
  | method (target : MethodRef)
  | field (target : FieldRef)
  deriving DecidableEq

/-- The reference of an operand, if it has one. -/
def Operand.reference? : Operand → Option Reference
  | .type t => some (.type t)
  | .method m => some (.method m)
  | .field f => some (.field f)
  | .none | .literal _ | .text _ | .target _ => Option.none

/-- The references of a body: those of its instructions, then those of its catch clauses. -/
def MethodBody.references (x : MethodBody) : List Reference :=
  x.instructions.filterMap (·.operand.reference?) ++ x.catches.map fun c => .type c.exceptionType

/-- What a visitor makes of a reference. -/
def RefVisitor.reference {m : Type → Type} [Monad m] (v : RefVisitor m) : Reference → m Reference
  | .type t => return .type (← v.type t)
  | .method r => return .method (← v.method r)
  | .field r => return .field (← v.field r)

/-- A reference, carried over. -/
def Bridge.carryReference (b : Bridge) : Reference → Except ResolveError Reference
  | .type t => return .type (← b.carryType t)
  | .method m => return .method (← b.carryMethod m)
  | .field f => return .field (← b.carryField f)

/-- Carrying a reference over is what the visitor of the bridge makes of it. -/
theorem Bridge.reference_visitor (b : Bridge) : b.visitor.reference = b.carryReference := by
  funext r
  cases r <;> rfl

/-! ### Renaming -/

/-- What to put in the place of each reference. -/
structure Renaming where
  type : TypeRef → TypeRef
  method : MethodRef → MethodRef
  field : FieldRef → FieldRef

/-- A reference, replaced. -/
def Reference.rename (ρ : Renaming) : Reference → Reference
  | .type t => .type (ρ.type t)
  | .method m => .method (ρ.method m)
  | .field f => .field (ρ.field f)

/-- An operand with its reference replaced. -/
def Operand.rename (ρ : Renaming) : Operand → Operand
  | .type t => .type (ρ.type t)
  | .method m => .method (ρ.method m)
  | .field f => .field (ρ.field f)
  | .none => .none
  | .literal n => .literal n
  | .text s => .text s
  | .target i => .target i

/-- A body with its references replaced and everything else kept. -/
def MethodBody.rename (ρ : Renaming) (x : MethodBody) : MethodBody :=
  { x with
    instructions := x.instructions.map fun i => { i with operand := i.operand.rename ρ }
    exceptions := x.exceptions.map fun e =>
      { e with
        catches := e.catches.map fun c => { c with exceptionType := ρ.type c.exceptionType } } }

/-- The reference of an operand is replaced with it. -/
theorem Operand.reference?_rename (ρ : Renaming) (o : Operand) :
    (o.rename ρ).reference? = o.reference?.map (·.rename ρ) := by
  cases o <;> rfl

/-- The references of a body after a replacement are the replaced ones, in the same order. -/
theorem MethodBody.references_rename (ρ : Renaming) (x : MethodBody) :
    (x.rename ρ).references = x.references.map (·.rename ρ) := by
  rw [references, references, List.map_append, List.map_filterMap, List.map_map]
  refine congrArg₂ (· ++ ·) ?_ ?_
  · rw [rename, List.filterMap_map]
    exact List.filterMap_congr fun i _ => i.operand.reference?_rename ρ
  · simp only [rename, catches, List.flatMap_map, List.map_flatMap, List.map_map]
    rfl

/-- The results of a visitor, where it succeeds. -/
def RefVisitor.results {ε : Type} (v : RefVisitor (Except ε)) : Renaming where
  type t := resultOr t (v.type t)
  method m := resultOr m (v.method m)
  field f := resultOr f (v.field f)

section

variable {ε : Type} (v : RefVisitor (Except ε))

/-- A reference that is visited successfully is replaced by the result. -/
theorem RefVisitor.reference_eq_of_succeeds {r : Reference} (h : Succeeds (v.reference r)) :
    v.reference r = .ok (r.rename v.results) := by
  cases r with
  | type t => exact bind_pure_eq_ok h t
  | method m => exact bind_pure_eq_ok h m
  | field f => exact bind_pure_eq_ok h f

/-- What a visit of an operand gives. -/
theorem Operand.mapRefsM_eq (o : Operand) :
    o.mapRefsM v = unlessFailing v.reference o.reference?.toList (o.rename v.results) := by
  cases o with
  | type t =>
      have hfailure := failure?_bind_pure (v.type t) Reference.type
      exact bind_pure_eq_unlessFailing hfailure t Operand.type
  | method m =>
      have hfailure := failure?_bind_pure (v.method m) Reference.method
      exact bind_pure_eq_unlessFailing hfailure m Operand.method
  | field f =>
      have hfailure := failure?_bind_pure (v.field f) Reference.field
      exact bind_pure_eq_unlessFailing hfailure f Operand.field
  | none | literal | text | target => rfl

/-- What a visit of an instruction gives. -/
theorem Instruction.mapRefsM_eq (i : Instruction) :
    i.mapRefsM v = unlessFailing v.reference i.operand.reference?.toList
      { i with operand := i.operand.rename v.results } := by
  rw [mapRefsM, Operand.mapRefsM_eq]
  exact unlessFailing_bind_pure fun operand => { i with operand }

/-- What a visit of a catch clause gives. -/
theorem CatchClause.mapRefsM_eq (c : CatchClause) :
    c.mapRefsM v = unlessFailing v.reference [.type c.exceptionType]
      { c with exceptionType := v.results.type c.exceptionType } := by
  have h : failure? (v.reference (.type c.exceptionType)) = failure? (v.type c.exceptionType) :=
    failure?_bind_pure ..
  exact bind_pure_eq_unlessFailing h c.exceptionType fun exceptionType => { c with exceptionType }

/-- What a visit of the handlers of a range gives. -/
theorem ExceptionTable.mapRefsM_eq (e : ExceptionTable) :
    e.mapRefsM v = unlessFailing v.reference (e.catches.map fun c => .type c.exceptionType)
      { e with
        catches := e.catches.map fun c =>
          { c with exceptionType := v.results.type c.exceptionType } } := by
  rw [mapRefsM, mapM_eq_unlessFailing (CatchClause.mapRefsM_eq v), ← List.map_eq_flatMap]
  exact unlessFailing_bind_pure fun catches => { e with catches }

/-- **What a visit of a body gives**: the body with its references replaced, unless one of them
fails, and then the failure of the first one. -/
theorem MethodBody.mapRefsM_eq (x : MethodBody) :
    x.mapRefsM v = unlessFailing v.reference x.references (x.rename v.results) := by
  rw [mapRefsM, mapM_eq_unlessFailing (Instruction.mapRefsM_eq v),
    mapM_eq_unlessFailing (ExceptionTable.mapRefsM_eq v), references, catches,
    List.filterMap_eq_flatMap_toList, List.map_flatMap]
  simp only [unlessFailing_bind_pure]
  exact unlessFailing_bind

end

namespace Bridge

variable {b : Bridge}

/-- What carrying a body over gives. -/
theorem carryBody_eq (x : MethodBody) :
    b.carryBody x = unlessFailing b.carryReference x.references (x.rename b.visitor.results) := by
  rw [carryBody, MethodBody.mapRefsM_eq, reference_visitor]

/-- **A body is carried over exactly when all its references are**, each taken alone. -/
theorem succeeds_carryBody_iff {x : MethodBody} :
    Succeeds (b.carryBody x) ↔ ∀ r ∈ x.references, Succeeds (b.carryReference r) := by
  rw [carryBody_eq, succeeds_unlessFailing_iff]

end Bridge

end BodyCache
