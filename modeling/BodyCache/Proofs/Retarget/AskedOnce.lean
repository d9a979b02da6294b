import BodyCache.Proofs.Retarget.Calls
import BodyCache.Proofs.Retarget.Provenance
import BodyCache.Proofs.Retarget.Visits

/-!
# Each Class Is Asked for Once

However a pass gets to a class, and whether the calls on the way succeed or fail, the symbols are
asked for the class until they answer, and never again.

A memory is *complete* when the classes in the compound types it remembers are known. A computation
*settles* classes (`Pass.Settles`) when it advances by visits (`BodyCache.Proofs.Retarget.Visits`),
keeps the memory complete, and leaves the classes known if it succeeds; it is *silent* on classes
(`Pass.Silent`) when it succeeds without a question once they are known. Both are closed under
sequencing, and so follow the structure of types, references and bodies.

## Main results

* `Pass.settles_carryType`, `Pass.silent_carryType`: a type settles the classes in it, and is silent
  once they are known.
* `Pass.asked_once`: each class is asked for once in a pass.
-/

namespace BodyCache

namespace PassState

/-- A memory in which the classes of every compound type are known as well. -/
def Complete (s : PassState) : Prop :=
  ∀ t u : TypeRef, s.types.find? t = some u → ∀ c ∈ t.classes, s.Knows c

variable {s : PassState}

/-- The memory at the beginning of a pass is complete. -/
theorem Complete.fresh : PassState.Complete {} := fun _ _ h => by simp at h

/-- A memory stays complete when more classes are known. -/
theorem Complete.mono {t : PassState} (hs : s.Complete) (htypes : t.types = s.types)
    (hknown : ∀ c, s.Knows c → t.Knows c) : t.Complete := by
  intro u v hf c hc
  rw [htypes] at hf
  exact hknown c (hs u v hf c hc)

/-- A memory stays complete when a type is remembered whose classes are known. -/
theorem Complete.insertType (hs : s.Complete) {t : TypeRef} (ht : ∀ c ∈ t.classes, s.Knows c)
    (u : TypeRef) : PassState.Complete { s with types := s.types.insert t u } :=
  fun _ _ => Table.of_find?_insert (P := fun (t : TypeRef) _ => ∀ c ∈ t.classes, s.Knows c)
    (hs _ _) ht

end PassState

namespace Pass

variable {b : Bridge} {α β : Type}

/-! ### Settling classes -/

/-- From every complete memory, the computation advances by visits of classes and leaves a complete
memory, also when it fails; when it succeeds, the given classes are known. -/
def Settles (b : Bridge) (x : PassM α) (cs : List ClassRef) : Prop :=
  ∀ s : PassState, s.Complete →
    (∃ visits, Advances b s visits (run s x).2) ∧ (run s x).2.Complete ∧
      (Succeeds (run s x).1 → ∀ c ∈ cs, (run s x).2.Knows c)

namespace Settles

variable {x : PassM α} {cs ds : List ClassRef}

/-- A result that needs no computation. -/
theorem pure (a : α) : Settles b (pure a) [] :=
  fun s hs => ⟨⟨[], .done s⟩, hs, fun _ => List.forall_mem_nil _⟩

/-- A failure that needs no computation. -/
theorem throw (e : ResolveError) : Settles b (throw e : PassM α) cs :=
  fun s hs => ⟨⟨[], .done s⟩, hs, fun hok => absurd hok (not_succeeds_error e)⟩

/-- An answer that needs no question. -/
theorem ofExcept (e : Except ResolveError α) : Settles b (ofExcept e) [] := by
  cases e with
  | ok a => exact Settles.pure a
  | error e => exact Settles.throw e

/-- Logging a question that is not about a declared class. -/
theorem log {q : Query} (hq : q.isDeclared = false) : Settles b (log q) [] :=
  fun _ hs => ⟨⟨[], .question hq (.done _)⟩, hs.mono rfl fun _ h => h,
    fun _ => List.forall_mem_nil _⟩

/-- Fewer classes are settled as well. -/
theorem subset (hx : Settles b x cs) (h : ds ⊆ cs) : Settles b x ds := by
  intro s hs
  obtain ⟨hvisits, hcomplete, hknows⟩ := hx s hs
  exact ⟨hvisits, hcomplete, fun hok c hc => hknows hok c (h hc)⟩

/-- One computation after the other. What the first one settles stays known. -/
theorem bind {f : α → PassM β} (hx : Settles b x cs) (hf : ∀ a, Settles b (f a) ds) :
    Settles b (x >>= f) (cs ++ ds) := by
  intro s hs
  obtain ⟨⟨visits, hvisits⟩, ht, hknows⟩ := hx s hs
  rw [run_bind]
  rcases hrun : run s x with ⟨r, t⟩
  rw [hrun] at hvisits ht hknows
  cases r with
  | ok a =>
      obtain ⟨⟨visits', hvisits'⟩, hu, hknows'⟩ := hf a t ht
      refine ⟨⟨_, hvisits.append hvisits'⟩, hu, fun hok => ?_⟩
      refine List.forall_mem_append.mpr ⟨fun c hc => ?_, hknows' hok⟩
      exact hvisits'.knows (hknows ⟨a, rfl⟩ c hc)
  | error e => exact ⟨⟨visits, hvisits⟩, ht, fun hok => absurd hok (not_succeeds_error e)⟩

/-- An answer that needs no question, and what is done with it. -/
theorem ofExcept_bind {e : Except ResolveError α} {f : α → PassM β}
    (hf : ∀ a, e = .ok a → Settles b (f a) cs) : Settles b (Pass.ofExcept e >>= f) cs := by
  cases e with
  | ok a => exact hf a rfl
  | error e => exact Settles.throw e

/-- A computation whose result is packed. -/
theorem map (hx : Settles b x cs) (f : α → β) :
    Settles b (x >>= fun a => Pure.pure (f a)) cs := by
  have h := hx.bind fun a => Settles.pure (f a)
  rwa [List.append_nil] at h

/-- A visit of a list, from left to right. -/
theorem mapM {f : α → PassM β} (as : List α) (h : ∀ a, Settles b (f a) []) :
    Settles b (as.mapM f) [] := by
  induction as with
  | nil => exact Settles.pure []
  | cons a as ih =>
      rw [List.mapM_cons]
      exact (h a).bind fun c => ih.map (c :: ·)

end Settles

/-- A class settles itself. -/
theorem settles_carryClass (c : ClassRef) : Settles b (carryClass b c) [c] := by
  intro s hs
  obtain ⟨-, htypes⟩ := grows_run_carryClass b s c
  obtain ⟨v, rfl, hresult, hv⟩ := exists_leads b s c
  refine ⟨⟨[v], .visit hv (.done _)⟩, hs.mono htypes fun _ => hv.knows, fun hok => ?_⟩
  exact List.forall_mem_singleton.mpr (hv.knows_of_succeeds (hresult ▸ hok))

/-- What a pass does for a compound type: its result is taken from memory, or else computed and
remembered. -/
theorem run_remembered (s : PassState) (t : TypeRef) (compute : PassM TypeRef) :
    run s (remembered t compute) =
      match s.types.find? t with
      | some u => (.ok u, s)
      | none =>
        match run s compute with
        | (.ok u, s') => (.ok u, { s' with types := s'.types.insert t u })
        | (.error e, s') => (.error e, s') := by
  rw [remembered, run_get_bind]
  cases s.types.find? t with
  | some u => rfl
  | none =>
      dsimp only
      rw [run_bind]
      rcases run s compute with ⟨_ | _, _⟩ <;> rfl

/-- A compound type settles its classes if its computation does, remembered or not. -/
theorem settles_remembered {t : TypeRef} {compute : PassM TypeRef}
    (h : Settles b compute t.classes) : Settles b (remembered t compute) t.classes := by
  intro s hs
  rw [run_remembered]
  cases hf : s.types.find? t with
  | some u => exact ⟨⟨[], .done s⟩, hs, fun _ => hs t u hf⟩
  | none =>
      obtain ⟨⟨visits, hvisits⟩, ht, hknows⟩ := h s hs
      rcases hrun : run s compute with ⟨r, s'⟩
      rw [hrun] at hvisits ht hknows
      cases r with
      | ok u =>
          have hclasses := hknows ⟨u, rfl⟩
          refine ⟨⟨visits, ?_⟩, ht.insertType hclasses u, fun _ => hclasses⟩
          have hstep := hvisits.append (.remember t u (.done _))
          rwa [List.append_nil] at hstep
      | error e => exact ⟨⟨visits, hvisits⟩, ht, fun hok => absurd hok (not_succeeds_error e)⟩

mutual

/-- **A type settles the classes in it**, at any depth. -/
theorem settles_carryType : (t : TypeRef) → Settles b (carryType b t) t.classes
  | .primitive p => Settles.pure (TypeRef.primitive p)
  | .named c => (settles_carryClass c).map TypeRef.named
  | .array element => settles_remembered ((settles_carryType element).map TypeRef.array)
  | .byRef element => settles_remembered ((settles_carryType element).map TypeRef.byRef)
  | .generic element arguments =>
    settles_remembered <| (settles_carryType element).bind fun e =>
      (settles_carryTypes arguments).map (TypeRef.generic e)
  | .modified element modifier required =>
    settles_remembered <| (settles_carryType element).bind fun e =>
      (settles_carryClass modifier).map fun m => TypeRef.modified e m required

/-- Types settle the classes in them. -/
theorem settles_carryTypes :
    (ts : List TypeRef) → Settles b (carryTypes b ts) (TypeRef.allClasses ts)
  | [] => Settles.pure []
  | t :: ts => (settles_carryType t).bind fun u => (settles_carryTypes ts).map (u :: ·)

end

/-! ### Members and bodies -/

/-- A type, whatever the classes in it. -/
theorem settles_type (t : TypeRef) : Settles b (carryType b t) [] :=
  (settles_carryType t).subset (List.nil_subset _)

/-- A prototype advances by visits. -/
theorem settles_carryPrototype (p : Prototype) : Settles b (carryPrototype b p) [] :=
  (settles_type p.returnType).bind fun r =>
    (Settles.mapM p.parameters settles_type).map (Prototype.ofTypes r)

/-- A question about an adapter is not about a declared class. -/
theorem settles_ask {q : ClassQuestion} {key : DelegateKey} (h : q.identity = .adapter key) :
    Settles b (ask b q) [] :=
  (Settles.log (by rw [h]; rfl)).bind fun _ => Settles.ofExcept (b.answer q)

/-- A method of a class advances by visits. Neither the question about the method nor the one about
the adapter that owns it is about a declared class. -/
theorem settles_carryClassMethod (owner : ClassRef) (r : MethodRef) :
    Settles b (carryClassMethod b owner r) [] := by
  refine Settles.ofExcept_bind fun plan hplan => ?_
  cases plan with
  | member id otherwise =>
      refine (Settles.log (q := .method id) rfl).bind fun _ => ?_
      cases b.current.methodFor id with
      | some target => exact Settles.pure target
      | none => exact Settles.throw otherwise
  | adapter question =>
      obtain ⟨key, hkey⟩ := identity_of_methodPlan hplan
      exact (settles_ask hkey).bind fun adapter =>
        (settles_carryPrototype r.prototype).map fun p =>
          { r with owner := .named adapter, prototype := p }

/-- A method advances by visits. -/
theorem settles_carryMethod (r : MethodRef) : Settles b (carryMethod b r) [] := by
  rw [carryMethod]
  cases r.ownerClass? with
  | some owner => exact settles_carryClassMethod owner r
  | none =>
      exact (settles_type r.owner).bind fun owner =>
        (settles_carryPrototype r.prototype).map fun p => { r with owner, prototype := p }

/-- A field advances by visits. -/
theorem settles_carryField (r : FieldRef) : Settles b (carryField b r) [] := by
  rw [carryField]
  split
  · exact Settles.throw _
  · exact ((settles_carryClass r.owner).subset (List.nil_subset _)).bind fun owner =>
      (settles_type r.type).map fun type => { r with owner, type }

/-- An operand advances by visits. -/
theorem settles_operand (o : Operand) : Settles b (o.mapRefsM (visitor b)) [] := by
  cases o with
  | type t => exact (settles_type t).map Operand.type
  | method r => exact (settles_carryMethod r).map Operand.method
  | field r => exact (settles_carryField r).map Operand.field
  | none | literal | text | target => exact Settles.pure _

/-- The exception types of a range advance by visits. -/
theorem settles_exceptionTable (e : ExceptionTable) : Settles b (e.mapRefsM (visitor b)) [] := by
  have hclause (c : CatchClause) : Settles b (c.mapRefsM (visitor b)) [] :=
    (settles_type c.exceptionType).map fun t => { c with exceptionType := t }
  exact (Settles.mapM e.catches hclause).map fun catches => { e with catches }

/-- A body advances by visits. -/
theorem settles_carryBody (x : MethodBody) : Settles b (carryBody b x) [] := by
  have hinstruction (i : Instruction) : Settles b (i.mapRefsM (visitor b)) [] :=
    (settles_operand i.operand).map fun operand => { i with operand }
  exact (Settles.mapM x.instructions hinstruction).bind fun instructions =>
    (Settles.mapM x.exceptions settles_exceptionTable).map
      fun exceptions => { x with instructions, exceptions }

/-! ### Calls -/

/-- A call advances by visits and leaves a complete memory, whether it succeeds or fails. -/
theorem advances_after {s : PassState} (hs : s.Complete) (k : PassCall) :
    (∃ visits, Advances b s visits (after b s k)) ∧ (after b s k).Complete := by
  cases k with
  | ofClass c => exact ⟨(settles_carryClass c s hs).1, (settles_carryClass c s hs).2.1⟩
  | ofType t => exact ⟨(settles_type t s hs).1, (settles_type t s hs).2.1⟩
  | ofMethod r => exact ⟨(settles_carryMethod r s hs).1, (settles_carryMethod r s hs).2.1⟩
  | ofField r => exact ⟨(settles_carryField r s hs).1, (settles_carryField r s hs).2.1⟩
  | ofBody x => exact ⟨(settles_carryBody x s hs).1, (settles_carryBody x s hs).2.1⟩

/-- A series of calls advances by visits and leaves a complete memory. -/
theorem advances_foldl_after {s : PassState} (hs : s.Complete) (calls : List PassCall) :
    (∃ visits, Advances b s visits (calls.foldl (after b) s)) ∧
      (calls.foldl (after b) s).Complete := by
  induction calls generalizing s with
  | nil => exact ⟨⟨[], .done s⟩, hs⟩
  | cons k calls ih =>
      obtain ⟨⟨visits, hvisits⟩, hk⟩ := advances_after hs k
      obtain ⟨⟨visits', hvisits'⟩, hcalls⟩ := ih hk
      exact ⟨⟨_, hvisits.append hvisits'⟩, hcalls⟩

/-! ### Silence -/

/-- Whenever the classes are known, the computation succeeds without a question, and leaves the
memory of classes alone. -/
def Silent (x : PassM α) (cs : List ClassRef) : Prop :=
  ∀ s : PassState, (∀ c ∈ cs, s.Knows c) →
    Succeeds (run s x).1 ∧ (run s x).2.queries = s.queries ∧ (run s x).2.classes = s.classes

namespace Silent

variable {x : PassM α} {cs ds : List ClassRef}

/-- A result that needs no computation. -/
theorem pure (a : α) : Silent (pure a) [] := fun _ _ => ⟨⟨a, rfl⟩, rfl, rfl⟩

/-- One computation after the other. -/
theorem bind {f : α → PassM β} (hx : Silent x cs) (hf : ∀ a, Silent (f a) ds) :
    Silent (x >>= f) (cs ++ ds) := by
  intro s hs
  obtain ⟨hcs, hds⟩ := List.forall_mem_append.mp hs
  obtain ⟨⟨a, ha⟩, hqueries, hclasses⟩ := hx s hcs
  rw [run_bind]
  rcases hrun : run s x with ⟨r, t⟩
  rw [hrun] at ha hqueries hclasses
  subst ha
  have ht : ∀ c ∈ ds, t.Knows c := fun c hc => (PassState.knows_congr hclasses).mpr (hds c hc)
  obtain ⟨hok, hqueries', hclasses'⟩ := hf a t ht
  exact ⟨hok, hqueries'.trans hqueries, hclasses'.trans hclasses⟩

/-- A computation whose result is packed. -/
theorem map (hx : Silent x cs) (f : α → β) : Silent (x >>= fun a => Pure.pure (f a)) cs := by
  have h := hx.bind fun a => Silent.pure (f a)
  rwa [List.append_nil] at h

end Silent

/-- A known class is taken from memory. -/
theorem silent_carryClass (c : ClassRef) : Silent (carryClass b c) [c] := by
  intro s hs
  obtain ⟨d, hd⟩ := Option.isSome_iff_exists.mp (hs c (List.mem_singleton_self c))
  rw [run_carryClass, hd]
  exact ⟨⟨d, rfl⟩, rfl, rfl⟩

/-- Looking up a compound type and remembering it are silent. -/
theorem silent_remembered {t : TypeRef} {compute : PassM TypeRef} {cs : List ClassRef}
    (h : Silent compute cs) : Silent (remembered t compute) cs := by
  intro s hs
  rw [run_remembered]
  cases s.types.find? t with
  | some u => exact ⟨⟨u, rfl⟩, rfl, rfl⟩
  | none =>
      obtain ⟨⟨u, hu⟩, hqueries, hclasses⟩ := h s hs
      rcases hrun : run s compute with ⟨r, s'⟩
      rw [hrun] at hu hqueries hclasses
      subst hu
      exact ⟨⟨u, rfl⟩, hqueries, hclasses⟩

mutual

/-- **A type whose classes are known needs no question.** -/
theorem silent_carryType : (t : TypeRef) → Silent (carryType b t) t.classes
  | .primitive p => Silent.pure (TypeRef.primitive p)
  | .named c => (silent_carryClass c).map TypeRef.named
  | .array element => silent_remembered ((silent_carryType element).map TypeRef.array)
  | .byRef element => silent_remembered ((silent_carryType element).map TypeRef.byRef)
  | .generic element arguments =>
    silent_remembered <| (silent_carryType element).bind fun e =>
      (silent_carryTypes arguments).map (TypeRef.generic e)
  | .modified element modifier required =>
    silent_remembered <| (silent_carryType element).bind fun e =>
      (silent_carryClass modifier).map fun m => TypeRef.modified e m required

/-- Types whose classes are known need no question. -/
theorem silent_carryTypes : (ts : List TypeRef) → Silent (carryTypes b ts) (TypeRef.allClasses ts)
  | [] => Silent.pure []
  | t :: ts => (silent_carryType t).bind fun u => (silent_carryTypes ts).map (u :: ·)

end

/-! ### Each class once -/

/-- There is at most one question behind a class. -/
theorem length_questionAbout_le (b : Bridge) (c : ClassRef) : (b.questionAbout c).length ≤ 1 := by
  rw [Bridge.questionAbout]
  cases b.previous.classQuestion c <;> simp

/-- A class that is known after some calls has a question behind it. -/
theorem exists_classQuestion {calls : List PassCall} {c : ClassRef}
    (h : (replay b calls).Knows c) : ∃ q, b.previous.classQuestion c = .ok q := by
  obtain ⟨d, hd⟩ := Option.isSome_iff_exists.mp h
  have hcarry : b.carryClass c = .ok d := (faithful_replay b calls).classes hd
  rw [Bridge.carryClass] at hcarry
  cases hquestion : b.previous.classQuestion c with
  | ok q => exact ⟨q, rfl⟩
  | error e =>
      rw [hquestion] at hcarry
      cases hcarry

/-- The classes in a type that was carried over are known after any further calls. -/
theorem knows_replay {before later : List PassCall} {t : TypeRef}
    (h : Succeeds (run (replay b before) (carryType b t)).1) :
    ∀ c ∈ t.classes, (replay b (before ++ .ofType t :: later)).Knows c := by
  have hbefore : (replay b before).Complete :=
    (advances_foldl_after PassState.Complete.fresh before).2
  obtain ⟨-, ht, hknows⟩ := settles_carryType t _ hbefore
  obtain ⟨⟨visits, hvisits⟩, -⟩ := advances_foldl_after (b := b) ht later
  intro c hc
  rw [replay, List.foldl_append]
  exact hvisits.knows (hknows h c hc)

/-- A type whose classes are known is carried over without a question. -/
theorem carryType_of_knows {s : PassState} (t : TypeRef) (h : ∀ c ∈ t.classes, s.Knows c) :
    Succeeds (run s (carryType b t)).1 ∧ (run s (carryType b t)).2.queries = s.queries := by
  obtain ⟨hok, hqueries, -⟩ := silent_carryType (b := b) t s h
  exact ⟨hok, hqueries⟩

/-- **Each class is asked for once in a pass.** After any calls, successful or failed, there is a
ledger of visits of classes, and in every such ledger

* the questions of the log about declared classes are those that the visits put, in order;
* on account of each class, at most one question has been answered;
* by the first visit of a class that succeeds, and by any later one, the question behind the class
  has been answered on account of it;
* a type is carried over without a question if each class in it has been visited with success,
  wherever that was.

In particular, once a type has been carried over, it and every type that is built from classes in it
are carried over without a question, whatever the calls in between. -/
theorem asked_once (b : Bridge) (calls : List PassCall) :
    (∃ visits, Advances b {} visits (replay b calls)) ∧
    (∀ visits, Advances b {} visits (replay b calls) →
      (replay b calls).queries.filter Query.isDeclared =
          (visits.flatMap Visit.asked).filter Query.isDeclared ∧
        (∀ c, (answeredAbout b c visits).length ≤ 1) ∧
        (∀ before v later, visits = before ++ v :: later → Succeeds v.result →
          ∃ q, b.previous.classQuestion v.target = .ok q ∧
            answeredAbout b v.target (before ++ [v]) = [.type q.identity]) ∧
        ∀ u : TypeRef, (∀ c ∈ u.classes, ∃ v ∈ visits, v.target = c ∧ Succeeds v.result) →
          Succeeds (run (replay b calls) (carryType b u)).1 ∧
            (run (replay b calls) (carryType b u)).2.queries = (replay b calls).queries) ∧
    ∀ before t later u, calls = before ++ .ofType t :: later →
      Succeeds (run (replay b before) (carryType b t)).1 → u.classes ⊆ t.classes →
        Succeeds (run (replay b calls) (carryType b u)).1 ∧
          (run (replay b calls) (carryType b u)).2.queries = (replay b calls).queries := by
  have hfresh (c : ClassRef) : ¬ PassState.Knows {} c := by simp [PassState.Knows]
  refine ⟨(advances_foldl_after PassState.Complete.fresh calls).1,
    fun visits h => ⟨?_, fun c => ?_, ?_, ?_⟩, ?_⟩
  · exact h.filter_isDeclared
  · rw [h.answeredAbout_eq (hfresh c)]
    split
    · exact length_questionAbout_le b c
    · exact Nat.zero_le 1
  · -- Where the visit ends its class is known, so the question behind it has been answered there.
    intro before v later hsplit hresult
    rw [List.append_cons] at hsplit
    obtain ⟨t, hbefore, hlater⟩ := h.split (before ++ [v]) hsplit
    have ht : t.Knows v.target :=
      hbefore.knows_of_mem (List.mem_append_right before (List.mem_singleton_self v)) hresult
    obtain ⟨q, hq⟩ := exists_classQuestion (hlater.knows ht)
    refine ⟨q, hq, ?_⟩
    rw [hbefore.answeredAbout_eq (hfresh _), if_pos ht, Bridge.questionAbout, hq]
  · intro u hu
    refine carryType_of_knows u fun c hc => ?_
    obtain ⟨v, hv, rfl, hresult⟩ := hu c hc
    exact h.knows_of_mem hv hresult
  · -- Success made the classes in the type known, and they stay so through the calls in between.
    rintro before t later u rfl hok hsub
    exact carryType_of_knows u fun c hc => knows_replay hok c (hsub hc)

end Pass

/-! ### After a type that is abandoned half way -/

namespace Moving

/-- The array of `Foo`. -/
def arrayOfFoo : TypeRef := .array (.named (inPackage "x" "Foo"))

/-- The array with `Foo` as a modifier. -/
def modifiedArrayOfFoo : TypeRef := .modified arrayOfFoo (inPackage "x" "Foo") true

/-- A generic type that cannot be carried over: there is no class `App` any more. -/
def abandoned : TypeRef := .generic arrayOfFoo [.named (inPackage "x" "App")]

end Moving

open Moving in
/-- The generic type is abandoned after its element. The array that it has got to, and a modified
form of the array, need no question any more. -/
theorem Pass.asked_once_moving :
    let s := replay bridge [.ofType abandoned, .ofType arrayOfFoo]
    (run {} (carryType bridge abandoned)).1 = .error (.unresolvedType "Lcom/x/App;" "App:0") ∧
      s.queries = [.type (.declared ⟨"Foo:3"⟩), .type (.declared ⟨"App:0"⟩)] ∧
      Succeeds (run s (carryType bridge modifiedArrayOfFoo)).1 ∧
      (run s (carryType bridge modifiedArrayOfFoo)).2.queries = s.queries := by
  refine ⟨rfl, rfl, ?_⟩
  refine (asked_once bridge [.ofType abandoned, .ofType arrayOfFoo]).2.2 [.ofType abandoned]
    arrayOfFoo [] modifiedArrayOfFoo rfl ⟨.array (.named (inPackage "y" "Foo")), rfl⟩ ?_
  intro c hc
  simpa [TypeRef.classes, modifiedArrayOfFoo, arrayOfFoo] using hc

end BodyCache
