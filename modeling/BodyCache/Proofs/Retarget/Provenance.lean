import Mathlib.Data.List.Forall2
import BodyCache.Proofs.Retarget.FreshCompile
import BodyCache.Proofs.Retarget.Leaves

/-!
# Where the Classes of a Retargeted Body Come From

A class that the previous compilation emitted may not exist any more. A body that still refers to
it after retargeting would be linked against nothing, so every class in the result has to be an
answer of the current symbols, given in the course of the very pass that made the result. This
module proves it for every map and all symbols.

Every question that a pass puts is in its log. The invariant is `PassState.Traced`: the classes that
are remembered, and those inside the types that are remembered, are answers to questions of the log.
A computation *yields* a property of its results (`Pass.Yields`) when it has it from every traced
memory and goes on having it however long the log becomes. `Pass.Yields` is closed under sequencing
and under visits of lists, so it follows the structure of types, references and bodies.

## Main results

* `Pass.yields_carryType`, `Pass.yields_carryMethod`, `Pass.yields_carryField`: where the classes in
  a type and in a member come from.
* `Pass.given_of_run_carryBody`: where the classes and the methods in a body come from.
-/

namespace BodyCache

/-! ### The classes in a reference -/

/-- The classes in a reference to a method: those of its owner and those of its prototype. -/
def MethodRef.classes (r : MethodRef) : List ClassRef := r.owner.classes ++ r.prototype.classes

/-- The classes in a reference to a field: its owner and those of its type. -/
def FieldRef.classes (r : FieldRef) : List ClassRef := r.owner :: r.type.classes

/-- The classes in a reference. -/
def Reference.classes : Reference → List ClassRef
  | .type t => t.classes
  | .method r => r.classes
  | .field r => r.classes

/-- The classes in a body: those of its operands and of its catch clauses, at any depth. -/
def MethodBody.classes (x : MethodBody) : List ClassRef := x.references.flatMap Reference.classes

/-! ### Answers to the questions of a log -/

namespace Symbols

variable (s : Symbols)

/-- The class is the answer to a question of the log. -/
def GaveClass (log : List Query) (c : ClassRef) : Prop :=
  ∃ identity, .type identity ∈ log ∧ s.classFor identity = some c

/-- All the classes are answers to questions of the log. -/
def GaveAll (log : List Query) (cs : List ClassRef) : Prop := ∀ c ∈ cs, s.GaveClass log c

/-- The class is the answer to a question of the log about a delegate adapter. -/
def GaveAdapter (log : List Query) (c : ClassRef) : Prop :=
  ∃ key, .type (.adapter key) ∈ log ∧ s.classFor (.adapter key) = some c

/-- The method is the answer to a question of the log. -/
def GaveMethod (log : List Query) (r : MethodRef) : Prop :=
  ∃ id, .method id ∈ log ∧ s.methodFor id = some r

/-- The class is the answer to a question of the log, or a part of a method that is one. -/
def Gave (log : List Query) (c : ClassRef) : Prop :=
  s.GaveClass log c ∨ ∃ r, s.GaveMethod log r ∧ c ∈ r.classes

/-- The method is as a whole the answer to a question of the log, or belongs to an adapter that is
one. -/
def Binds (log : List Query) (r : MethodRef) : Prop :=
  s.GaveMethod log r ∨ ∃ adapter, s.GaveAdapter log adapter ∧ r.owner = .named adapter

/-- The operand has replaced another one: its classes were given, and it binds the method if the
other one referred to a method of a class. -/
structure Replaces (log : List Query) (o o' : Operand) : Prop where
  given : ∀ r, o'.reference? = some r → ∀ c ∈ r.classes, s.Gave log c
  binds : ∀ r owner, o = .method r → r.owner = .named owner →
    ∃ r', o' = .method r' ∧ s.Binds log r'

variable {s} {log log' : List Query} {c : ClassRef} {cs ds : List ClassRef}

/-- An answer stays one when the log becomes longer. -/
theorem GaveClass.mono (h : s.GaveClass log c) (hlog : log ⊆ log') : s.GaveClass log' c := by
  obtain ⟨identity, hmem, hanswer⟩ := h
  exact ⟨identity, hlog hmem, hanswer⟩

/-- Answers stay answers when the log becomes longer. -/
theorem GaveAll.mono (h : s.GaveAll log cs) (hlog : log ⊆ log') : s.GaveAll log' cs :=
  fun c hc => (h c hc).mono hlog

/-- One answer. -/
theorem GaveAll.singleton (h : s.GaveClass log c) : s.GaveAll log [c] :=
  List.forall_mem_singleton.mpr h

/-- More answers. -/
theorem GaveAll.append (hcs : s.GaveAll log cs) (hds : s.GaveAll log ds) :
    s.GaveAll log (cs ++ ds) :=
  List.forall_mem_append.mpr ⟨hcs, hds⟩

/-- An answer about an adapter is an answer about a class. -/
theorem GaveAdapter.gaveClass (h : s.GaveAdapter log c) : s.GaveClass log c := by
  obtain ⟨key, hmem, hanswer⟩ := h
  exact ⟨.adapter key, hmem, hanswer⟩

end Symbols

/-! ### Traced memory -/

/-- A memory in which all results are made of answers to questions of the log. -/
structure PassState.Traced (b : Bridge) (s : PassState) : Prop where
  classes : ∀ {c d : ClassRef}, s.classes.find? c = some d → b.current.GaveClass s.queries d
  types : ∀ {t u : TypeRef}, s.types.find? t = some u → b.current.GaveAll s.queries u.classes

namespace PassState.Traced

variable {b : Bridge} {s : PassState}

/-- The memory at the beginning of a pass remembers nothing. -/
theorem fresh (b : Bridge) : PassState.Traced b {} :=
  ⟨fun h => by simp at h, fun h => by simp at h⟩

/-- A longer log keeps the memory traced. -/
theorem withQueries (h : s.Traced b) {queries : List Query} (hlog : s.queries ⊆ queries) :
    PassState.Traced b { s with queries } :=
  ⟨fun hf => (h.classes hf).mono hlog, fun hf => (h.types hf).mono hlog⟩

/-- Remembering an answer keeps the memory traced. -/
theorem insertClass (h : s.Traced b) (c : ClassRef) {d : ClassRef}
    (hd : b.current.GaveClass s.queries d) :
    PassState.Traced b { s with classes := s.classes.insert c d } :=
  ⟨Table.of_find?_insert (P := fun _ d => b.current.GaveClass s.queries d) h.classes hd, h.types⟩

/-- Remembering a type made of answers keeps the memory traced. -/
theorem insertType (h : s.Traced b) (t : TypeRef) {u : TypeRef}
    (hu : b.current.GaveAll s.queries u.classes) :
    PassState.Traced b { s with types := s.types.insert t u } :=
  ⟨h.classes, Table.of_find?_insert (P := fun _ (u : TypeRef) =>
    b.current.GaveAll s.queries u.classes) h.types hu⟩

end PassState.Traced

namespace Pass

variable {b : Bridge} {α β : Type}

/-! ### Properties of results that refer to the log -/

/-- From every traced memory, the computation adds to the log only, leaves a traced memory, also
when it fails, and gives results that have the property with every log that goes on from there. -/
def Yields (b : Bridge) (x : PassM α) (P : List Query → α → Prop) : Prop :=
  ∀ s : PassState, s.Traced b →
    s.queries ⊆ (run s x).2.queries ∧ (run s x).2.Traced b ∧
      ∀ a, (run s x).1 = .ok a → ∀ log, (run s x).2.queries ⊆ log → P log a

namespace Yields

variable {P P' : List Query → α → Prop} {Q : List Query → β → Prop} {x : PassM α}

/-- A result that needs no computation. -/
theorem pure {a : α} (h : ∀ log, P log a) : Yields b (pure a) P := by
  intro s hs
  refine ⟨List.Subset.refl _, hs, ?_⟩
  intro a' ha log _
  cases ha
  exact h log

/-- A failure has no result. -/
theorem throw (e : ResolveError) : Yields b (throw e : PassM α) P :=
  fun _ hs => ⟨List.Subset.refl _, hs, nofun⟩

/-- An answer that needs no question. -/
theorem ofExcept {e : Except ResolveError α} : Yields b (ofExcept e) fun _ a => e = .ok a := by
  cases e with
  | ok a => exact Yields.pure fun _ => rfl
  | error e => exact Yields.throw e

/-- Logging a question. -/
theorem log (q : Query) : Yields b (log q) fun log _ => q ∈ log := by
  intro s hs
  have hlog : s.queries ⊆ s.queries ++ [q] := List.subset_append_left _ _
  refine ⟨hlog, hs.withQueries hlog, ?_⟩
  intro _ _ log hmore
  exact hmore (List.mem_append_right _ (List.mem_singleton_self q))

/-- A property that follows. -/
theorem imp (hx : Yields b x P) (h : ∀ log a, P log a → P' log a) : Yields b x P' := by
  intro s hs
  obtain ⟨hlog, hs', hP⟩ := hx s hs
  exact ⟨hlog, hs', fun a ha log hmore => h log a (hP a ha log hmore)⟩

/-- One computation after the other. What the first one yields still holds at the end. -/
theorem bind {f : α → PassM β} (hx : Yields b x P)
    (hf : ∀ a, Yields b (f a) fun log c => P log a → Q log c) : Yields b (x >>= f) Q := by
  intro s hs
  obtain ⟨hlog, hs', hP⟩ := hx s hs
  rw [run_bind]
  rcases hrun : run s x with ⟨r, t⟩
  rw [hrun] at hlog hs' hP
  cases r with
  | ok a =>
      obtain ⟨hlog', ht', hQ⟩ := hf a t hs'
      refine ⟨List.Subset.trans hlog hlog', ht', ?_⟩
      intro c hc log hmore
      exact hQ c hc log hmore (hP a rfl log (List.Subset.trans hlog' hmore))
  | error e => exact ⟨hlog, hs', nofun⟩

/-- A computation whose result is packed. -/
theorem map {f : α → β} (hx : Yields b x fun log a => Q log (f a)) :
    Yields b (x >>= fun a => Pure.pure (f a)) Q :=
  hx.bind fun _ => Yields.pure fun _ h => h

/-- A visit of a list, from left to right. -/
theorem mapM {f : α → PassM β} {R : List Query → α → β → Prop} (as : List α)
    (h : ∀ a, Yields b (f a) fun log c => R log a c) :
    Yields b (as.mapM f) fun log cs => List.Forall₂ (R log) as cs := by
  induction as with
  | nil => exact Yields.pure fun _ => .nil
  | cons a as ih =>
      rw [List.mapM_cons]
      refine (h a).bind fun c => Yields.map ?_
      exact ih.imp fun log cs hcs hc => .cons hc hcs

/-- A result that is found in the memory, or else computed and remembered. -/
theorem recalled {y : PassM α} {f : PassState → Option α} {g : α → PassState → PassState}
    (hfound : ∀ s a, f s = some a → run s y = (.ok a, s))
    (hmissing : ∀ s, f s = none →
      run s y = run s (x >>= fun a => modify (g a) >>= fun _ => Pure.pure a))
    (hold : ∀ s a, s.Traced b → f s = some a → ∀ log, s.queries ⊆ log → P log a)
    (hx : Yields b x P) (hqueries : ∀ a s, (g a s).queries = s.queries)
    (hnew : ∀ a s, s.Traced b → P s.queries a → (g a s).Traced b) : Yields b y P := by
  intro s hs
  cases hf : f s with
  | some a =>
      rw [hfound s a hf]
      refine ⟨List.Subset.refl _, hs, ?_⟩
      intro a' ha
      cases ha
      exact hold s a hs hf
  | none =>
      obtain ⟨hlog, ht, hP⟩ := hx s hs
      rw [hmissing s hf, run_bind]
      rcases hrun : run s x with ⟨r, t⟩
      rw [hrun] at hlog ht hP
      cases r with
      | ok a =>
          have hstep : run t (modify (g a) >>= fun _ => Pure.pure a) = (.ok a, g a t) := rfl
          simp only [hstep, hqueries]
          refine ⟨hlog, hnew a t ht (hP a rfl _ (List.Subset.refl _)), ?_⟩
          intro a' ha
          cases ha
          exact hP a rfl
      | error e => exact ⟨hlog, ht, nofun⟩

end Yields

/-! ### Classes and types -/

/-- The answer to a question about a class. -/
theorem yields_ask (q : ClassQuestion) :
    Yields b (ask b q) fun log c =>
      .type q.identity ∈ log ∧ b.current.classFor q.identity = some c := by
  refine (Yields.log (.type q.identity)).bind fun _ => Yields.ofExcept.imp ?_
  intro log c hanswer hmem
  refine ⟨hmem, ?_⟩
  rw [Bridge.answer] at hanswer
  split at hanswer
  · next hclass =>
    cases hanswer
    exact hclass
  · cases hanswer

/-- **A class is replaced by an answer.** -/
theorem yields_carryClass (c : ClassRef) :
    Yields b (carryClass b c) fun log d => b.current.GaveClass log d := by
  have hcompute : Yields b (ofExcept (b.previous.classQuestion c) >>= ask b)
      fun log d => b.current.GaveClass log d :=
    Yields.ofExcept.bind fun q => (yields_ask q).imp fun log d hd _ => ⟨q.identity, hd⟩
  refine Yields.recalled (f := fun s => s.classes.find? c)
    (g := fun d s => { s with classes := s.classes.insert c d }) ?_ ?_
    (fun s d hs hf log hmore => (hs.classes hf).mono hmore) hcompute (fun _ _ => rfl)
    fun d s hs hd => hs.insertClass c hd
  · intro s d hf
    rw [carryClass, run_get_bind, hf]
    rfl
  · intro s hf
    rw [carryClass, run_get_bind, hf, bind_assoc]

/-- A compound type is made of answers if its computation gives such a type. -/
theorem yields_remembered {t : TypeRef} {compute : PassM TypeRef}
    (h : Yields b compute fun log u => b.current.GaveAll log u.classes) :
    Yields b (remembered t compute) fun log u => b.current.GaveAll log u.classes := by
  refine Yields.recalled (f := fun s => s.types.find? t)
    (g := fun u s => { s with types := s.types.insert t u }) ?_ ?_
    (fun s u hs hf log hmore => (hs.types hf).mono hmore) h (fun _ _ => rfl)
    fun u s hs hu => hs.insertType t hu
  · intro s u hf
    rw [remembered, run_get_bind, hf]
    rfl
  · intro s hf
    rw [remembered, run_get_bind, hf]

mutual

/-- **A type that is carried over is made of answers**, at any depth. -/
theorem yields_carryType :
    (t : TypeRef) → Yields b (carryType b t) fun log u => b.current.GaveAll log u.classes
  | .primitive _ => Yields.pure fun _ => List.forall_mem_nil _
  | .named c => Yields.map ((yields_carryClass c).imp fun _ _ hd => .singleton hd)
  | .array element => yields_remembered (Yields.map (yields_carryType element))
  | .byRef element => yields_remembered (Yields.map (yields_carryType element))
  | .generic element arguments =>
    yields_remembered <| (yields_carryType element).bind fun _ =>
      Yields.map ((yields_carryTypes arguments).imp fun _ _ hus hu => hu.append hus)
  | .modified element modifier _ =>
    yields_remembered <| (yields_carryType element).bind fun _ =>
      Yields.map ((yields_carryClass modifier).imp fun _ _ hm hu => hu.append (.singleton hm))

/-- Types that are carried over are made of answers. -/
theorem yields_carryTypes :
    (ts : List TypeRef) →
      Yields b (carryTypes b ts) fun log us => b.current.GaveAll log (TypeRef.allClasses us)
  | [] => Yields.pure fun _ => List.forall_mem_nil _
  | t :: ts => (yields_carryType t).bind fun _ =>
      Yields.map ((yields_carryTypes ts).imp fun _ _ hus hu => hu.append hus)

end

/-- What holds of every pair of members of two lists holds of the members of the second one. -/
theorem forall_of_forall₂ {R : α → β → Prop} {P : β → Prop} {as : List α} {cs : List β}
    (h : List.Forall₂ R as cs) (hR : ∀ a c, R a c → P c) : ∀ c ∈ cs, P c := by
  induction h with
  | nil => exact List.forall_mem_nil _
  | cons hac _ ih => exact List.forall_mem_cons.mpr ⟨hR _ _ hac, ih⟩

/-- A prototype that is carried over is made of answers. -/
theorem yields_carryPrototype (p : Prototype) :
    Yields b (carryPrototype b p) fun log p' => b.current.GaveAll log p'.classes := by
  refine (yields_carryType p.returnType).bind fun r => Yields.map ?_
  refine (Yields.mapM p.parameters yields_carryType).imp fun log ts hts hr => ?_
  refine hr.append ?_
  intro c hc
  obtain ⟨t, ht, hct⟩ := List.mem_flatMap.mp hc
  exact forall_of_forall₂ hts (fun _ _ h => h) t ht c hct

/-! ### Members -/

/-- The question behind a delegate adapter is about an adapter. -/
theorem identity_of_adapterQuestion {entry : TypeEntry} {c : ClassRef} {q : ClassQuestion}
    (h : SymbolMap.Index.adapterQuestion entry c = .ok q) : ∃ key, q.identity = .adapter key := by
  rw [SymbolMap.Index.adapterQuestion] at h
  split at h
  · next key _ =>
    cases h
    exact ⟨key, rfl⟩
  · cases h

/-- A method with a known member scope does not follow an adapter. -/
theorem memberPlan_ne_adapter {entry : Option TypeEntry} {owner : ClassRef} {r : MethodRef}
    {scope : String} {q : ClassQuestion} :
    SymbolMap.Index.memberPlan entry owner r scope ≠ .ok (.adapter q) := by
  intro h
  rw [SymbolMap.Index.memberPlan] at h
  split at h
  · cases h
  · split at h <;> cases h

/-- A method that follows its owner asks about an adapter. -/
theorem identity_of_methodPlan {i : SymbolMap.Index} {owner : ClassRef} {r : MethodRef}
    {q : ClassQuestion} (h : i.methodPlan owner r = .ok (.adapter q)) :
    ∃ key, q.identity = .adapter key := by
  rw [SymbolMap.Index.methodPlan] at h
  split at h
  · exact absurd h memberPlan_ne_adapter
  · split at h
    · next entry _ =>
      cases hq : SymbolMap.Index.adapterQuestion entry owner with
      | ok q' =>
          rw [hq] at h
          cases h
          exact identity_of_adapterQuestion hq
      | error e =>
          rw [hq] at h
          cases h
    · exact absurd h memberPlan_ne_adapter

/-- A method of a class is replaced by an answer, or follows an adapter that is one. -/
theorem yields_carryClassMethod (owner : ClassRef) (r : MethodRef) :
    Yields b (carryClassMethod b owner r) fun log r' =>
      (∀ c ∈ r'.classes, b.current.Gave log c) ∧ b.current.Binds log r' := by
  refine Yields.ofExcept.bind fun plan => ?_
  cases plan with
  | member id otherwise =>
      refine (Yields.log (.method id)).bind fun _ => ?_
      cases hid : b.current.methodFor id with
      | none => exact Yields.throw otherwise
      | some target =>
          refine Yields.pure fun log hmem _ => ?_
          have hgave : b.current.GaveMethod log target := ⟨id, hmem, hid⟩
          exact ⟨fun c hc => .inr ⟨target, hgave, hc⟩, .inl hgave⟩
  | adapter question =>
      refine (yields_ask question).bind fun adapter => Yields.map ?_
      refine (yields_carryPrototype r.prototype).imp fun log p hp hanswer hplan => ?_
      obtain ⟨key, hkey⟩ := identity_of_methodPlan hplan
      rw [hkey] at hanswer
      have hgave : b.current.GaveAdapter log adapter := ⟨key, hanswer⟩
      have hall := (Symbols.GaveAll.singleton hgave.gaveClass).append hp
      exact ⟨fun c hc => .inl (hall c hc), .inr ⟨adapter, hgave, rfl⟩⟩

/-- **Where the parts of a method come from.** -/
theorem yields_carryMethod (r : MethodRef) :
    Yields b (carryMethod b r) fun log r' =>
      (∀ c ∈ r'.classes, b.current.Gave log c) ∧
        ∀ owner, r.owner = .named owner → b.current.Binds log r' := by
  rw [carryMethod]
  cases howner : r.ownerClass? with
  | some owner => exact (yields_carryClassMethod owner r).imp fun _ _ h => ⟨h.1, fun _ _ => h.2⟩
  | none =>
      refine (yields_carryType r.owner).bind fun owner => Yields.map ?_
      refine (yields_carryPrototype r.prototype).imp fun log p hp ho => ?_
      refine ⟨fun c hc => .inl (ho.append hp c hc), ?_⟩
      intro owner' hnamed
      rw [MethodRef.ownerClass?, hnamed] at howner
      cases howner

/-- **Where the parts of a field come from.** -/
theorem yields_carryField (r : FieldRef) :
    Yields b (carryField b r) fun log r' => b.current.GaveAll log r'.classes := by
  rw [carryField]
  split
  · exact Yields.throw _
  · refine (yields_carryClass r.owner).bind fun owner => Yields.map ?_
    exact (yields_carryType r.type).imp fun _ _ ht ho => (Symbols.GaveAll.singleton ho).append ht

/-! ### Bodies -/

/-- An operand is replaced. -/
theorem yields_operand (o : Operand) :
    Yields b (o.mapRefsM (visitor b)) fun log o' => b.current.Replaces log o o' := by
  cases o with
  | type t =>
      refine Yields.map ((yields_carryType t).imp fun log u hu => ⟨?_, nofun⟩)
      rintro _ ⟨⟩ c hc
      exact .inl (hu c hc)
  | method r =>
      refine Yields.map ((yields_carryMethod r).imp fun log r' hr' => ⟨?_, ?_⟩)
      · rintro _ ⟨⟩
        exact hr'.1
      · rintro _ owner ⟨⟩ howner
        exact ⟨r', rfl, hr'.2 owner howner⟩
  | field r =>
      refine Yields.map ((yields_carryField r).imp fun log r' hr' => ⟨?_, nofun⟩)
      rintro _ ⟨⟩ c hc
      exact .inl (hr' c hc)
  | none | literal | text | target => exact Yields.pure fun _ => ⟨nofun, nofun⟩

/-- The exception types of a range are made of answers. -/
theorem yields_exceptionTable (e : ExceptionTable) :
    Yields b (e.mapRefsM (visitor b)) fun log e' =>
      ∀ c ∈ e'.catches, b.current.GaveAll log c.exceptionType.classes := by
  have hclause (c : CatchClause) : Yields b (c.mapRefsM (visitor b)) fun log c' =>
      b.current.GaveAll log c'.exceptionType.classes :=
    Yields.map (yields_carryType c.exceptionType)
  exact Yields.map ((Yields.mapM e.catches hclause).imp fun _ _ h =>
    forall_of_forall₂ h fun _ _ hc => hc)

/-- The operands of a body are replaced one by one, and its exception types are made of answers. -/
theorem yields_carryBody (x : MethodBody) :
    Yields b (carryBody b x) fun log y =>
      List.Forall₂ (fun i i' => b.current.Replaces log i.operand i'.operand)
          x.instructions y.instructions ∧
        ∀ c ∈ y.catches, b.current.GaveAll log c.exceptionType.classes := by
  have hinstruction (i : Instruction) : Yields b (i.mapRefsM (visitor b)) fun log i' =>
      b.current.Replaces log i.operand i'.operand :=
    Yields.map (yields_operand i.operand)
  refine (Yields.mapM x.instructions hinstruction).bind fun instructions => Yields.map ?_
  refine (Yields.mapM x.exceptions yields_exceptionTable).imp fun log exceptions he hi => ⟨hi, ?_⟩
  intro c hc
  obtain ⟨e, hmem, hce⟩ := List.mem_flatMap.mp hc
  exact forall_of_forall₂ he (fun _ _ h => h) e hmem c hce

/-- **No stale reference survives.** In a body that a fresh pass has carried over,

* every class, at any depth of any operand and of any catch clause, is the answer to a question that
  the pass put to the symbols about a class or about an adapter, or is a part of a method that is the
  answer to a question that it put about a method;
* every operand that referred to a method of a class refers to a method that is, as a whole, such an
  answer, or that belongs to an adapter that is one. -/
theorem given_of_run_carryBody {x y : MethodBody} {s : PassState}
    (h : run {} (carryBody b x) = (.ok y, s)) :
    (∀ c ∈ y.classes, b.current.GaveClass s.queries c ∨
        ∃ r, b.current.GaveMethod s.queries r ∧ c ∈ r.classes) ∧
      List.Forall₂ (fun i i' => ∀ r owner, i.operand = .method r → r.owner = .named owner →
        ∃ r', i'.operand = .method r' ∧ (b.current.GaveMethod s.queries r' ∨
          ∃ adapter, b.current.GaveAdapter s.queries adapter ∧ r'.owner = .named adapter))
        x.instructions y.instructions := by
  obtain ⟨-, -, hyields⟩ := yields_carryBody x {} (PassState.Traced.fresh b)
  rw [h] at hyields
  obtain ⟨hinstructions, hcatches⟩ := hyields y rfl s.queries (List.Subset.refl _)
  refine ⟨?_, hinstructions.imp fun _ _ hi => hi.binds⟩
  intro c hc
  obtain ⟨r, hr, hcr⟩ := List.mem_flatMap.mp hc
  rcases List.mem_append.mp hr with hr | hr
  · obtain ⟨i', hi', hr⟩ := List.mem_filterMap.mp hr
    exact forall_of_forall₂ hinstructions (fun _ _ hi => hi.given) i' hi' r hr c hcr
  · obtain ⟨clause, hclause, rfl⟩ := List.mem_map.mp hr
    exact .inl (hcatches clause hclause c hcr)

end Pass

/-! ### A body that moves to another package -/

namespace Moving

/-- From package `x` to package `y`. -/
def bridge : Bridge := ⟨map.index, symbols "y"⟩

/-- The reference to the method of the adapter, in a package. -/
def invoke (package : String) : MethodRef :=
  ⟨.named (inPackage package "Action"), "invoke",
    .ofTypes (.primitive .void) [.named (inPackage package "Foo")]⟩

/-- A body that refers to an array, to a method of a class and to a method of an adapter, in a
package. -/
def calls (package : String) : MethodBody where
  registersSize := 2
  instructions :=
    [⟨.newArray, [0], .type (.array (.named (inPackage package "Foo")))⟩,
      ⟨.invokeDirect, [0], .method ⟨.named (inPackage package "Foo"), "bar", plain⟩⟩,
      ⟨.invokeInterface, [1], .method (invoke package)⟩]

/-- The method of the adapter follows its adapter. -/
theorem methodPlan_invoke :
    map.index.methodPlan (inPackage "x" "Action") (invoke "x") = .ok (.adapter
      ⟨.adapter barAdapter, .unresolvedDelegate "Lcom/x/Action;" "7:delegate:Foo:3|bar()V"⟩) := by
  have hnone : map.index.methodByEmitted? "Lcom/x/Action;" "invoke" "(Lcom/x/Foo;)V" = none := by
    decide
  have hrecord : map.index.methodByEmitted? (inPackage "x" "Action").descriptor (invoke "x").name
      (invoke "x").prototype.signature = none := hnone
  rw [SymbolMap.Index.methodPlan, hrecord]
  rfl

/-- The method of the adapter is carried over. -/
theorem carryMethod_invoke : bridge.carryMethod (invoke "x") = .ok (invoke "y") := by
  have hplan : bridge.previous.methodPlan (inPackage "x" "Action") (invoke "x") = _ :=
    methodPlan_invoke
  have howner : (invoke "x").ownerClass? = some (inPackage "x" "Action") := rfl
  simp only [Bridge.carryMethod, howner, Bridge.carryClassMethod, hplan]
  rfl

/-- The body is carried over. -/
theorem run_carryBody_calls :
    (Pass.run {} (Pass.carryBody bridge (calls "x"))).1 = .ok (calls "y") := by
  have harray : bridge.carryType (.array (.named (inPackage "x" "Foo"))) =
      .ok (.array (.named (inPackage "y" "Foo"))) := rfl
  have hbar : bridge.carryMethod ⟨.named (inPackage "x" "Foo"), "bar", plain⟩ =
      .ok ⟨.named (inPackage "y" "Foo"), "bar", plain⟩ := rfl
  rw [Pass.fst_run_carryBody, Bridge.carryBody, MethodBody.mapRefsM]
  simp only [calls, List.mapM_cons, List.mapM_nil, Instruction.mapRefsM, Operand.mapRefsM,
    Bridge.visitor, harray, hbar, carryMethod_invoke]
  rfl

end Moving

/-- The body that moved to package `y` is made of what the symbols of package `y` gave. -/
theorem Pass.given_of_run_carryBody_moving :
    ∃ s, run {} (carryBody Moving.bridge (Moving.calls "x")) = (.ok (Moving.calls "y"), s) ∧
      (∀ c ∈ (Moving.calls "y").classes, (Moving.symbols "y").GaveClass s.queries c ∨
        ∃ r, (Moving.symbols "y").GaveMethod s.queries r ∧ c ∈ r.classes) ∧
      List.Forall₂ (fun i i' => ∀ r owner, i.operand = .method r → r.owner = .named owner →
        ∃ r', i'.operand = .method r' ∧ ((Moving.symbols "y").GaveMethod s.queries r' ∨
          ∃ adapter, (Moving.symbols "y").GaveAdapter s.queries adapter ∧
            r'.owner = .named adapter))
        (Moving.calls "x").instructions (Moving.calls "y").instructions := by
  rcases hrun : run {} (carryBody Moving.bridge (Moving.calls "x")) with ⟨result, s⟩
  have hresult : result = .ok (Moving.calls "y") := by
    have h := Moving.run_carryBody_calls
    rwa [hrun] at h
  subst hresult
  exact ⟨s, rfl, given_of_run_carryBody hrun⟩

end BodyCache
