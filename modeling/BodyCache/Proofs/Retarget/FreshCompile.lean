import BodyCache.Proofs.Retarget.Plans
import BodyCache.Proofs.Retarget.Template

/-!
# Retargeting Equals a Fresh Compilation

A cached body is the emission of some template under the names of the previous compilation. This
module proves that retargeting turns it into the emission of the same template under the names of
the current one: the result is what compiling the method afresh would have produced, and
retargeting fails exactly when the current compilation cannot emit the template.

The previous compilation enters through the map it left. `SymbolMap.Index.Knows` and
`SymbolMap.Index.KnowsMethod` say how a map tells the identity behind an emitted name: by an
entry, by a record, or, for what was imported, by the name itself. A map *describes* a compilation
(`SymbolMap.Index.Describes`) when it tells the identity of everything that the compilation names.

Two kinds of references cannot be carried over whatever they are called: the fields of the
generated class, and members without stable identity. `BodyTemplate.Portable` excludes them. It
also says of the methods of adapters that the map has no record of them, since a method with a
record is a member.

## Main results

* `Bridge.toOption_carryType_emit`, `Bridge.toOption_carryMethod_emit`,
  `Bridge.toOption_carryField_emit`: one reference.
* `Pass.toOption_run_carryBody_emit`: a whole body, carried over by a fresh pass with its memory.
-/

namespace BodyCache

namespace SymbolMap.Index

/-! ### What a map tells -/

/-- The map tells the identity behind a class. -/
inductive Knows (i : Index) : ClassIdentity → ClassRef → Prop where
  /-- A compiled class has an entry with its type scope. -/
  | compiled {c : ClassRef} {entry : TypeEntry}
      (found : i.typeByDescriptor? c.descriptor = some entry)
      (notDelegate : entry.isDelegate = false) : Knows i (.declared entry.typeScope) c
  /-- An imported class has no entry, and its descriptor tells its type scope. -/
  | imported {s : TypeScope} (nonempty : s.id ≠ "")
      (absent : i.typeByDescriptor? s.descriptor = none) : Knows i (.declared s) ⟨s.descriptor⟩
  /-- A delegate adapter has an entry with its key. -/
  | adapter {c : ClassRef} {entry : TypeEntry} {key : DelegateKey}
      (found : i.typeByDescriptor? c.descriptor = some entry)
      (wellFormed : entry.delegateKey? = some key) : Knows i (.adapter key) c

/-- The map tells the scope id behind a method of a class. -/
inductive KnowsMethod (i : Index) : ScopeId → MethodRef → Prop where
  /-- A compiled method has a record, possibly under the generated class. -/
  | compiled {owner : ClassRef} {name : String} {prototype : Prototype} {r : Record}
      (found : i.methodByEmitted? owner.descriptor name prototype.signature = some r) :
      KnowsMethod i r.scopeId ⟨.named owner, name, prototype⟩
  /-- A method without record is identified by its owner, its name and its signature. -/
  | imported {s : TypeScope} {owner : ClassRef} {name : String} {prototype : Prototype}
      (known : i.Knows (.declared s) owner)
      (absent : i.methodByEmitted? owner.descriptor name prototype.signature = none) :
      KnowsMethod i ⟨s, name ++ prototype.signature⟩ ⟨.named owner, name, prototype⟩

/-- The map tells the identity of everything that a compilation names. -/
structure Describes (i : Index) (s : Symbols) : Prop where
  classes : ∀ {identity : ClassIdentity} {c : ClassRef},
    s.classFor identity = some c → i.Knows identity c
  methods : ∀ {id : ScopeId} {r : MethodRef}, s.methodFor id = some r → i.KnowsMethod id r

end SymbolMap.Index

/-! ### What can be carried over -/

/-- The method can be carried over: a member has a stable identity, and a method of an adapter has
no record under its name in the compilation `s`. -/
def MethodTemplate.Portable (i : SymbolMap.Index) (s : Symbols) : MethodTemplate → Prop
  | .member id => id.member ≠ noScope
  | .ofAdapter key name prototype => ∀ c p, s.classFor (.adapter key) = some c →
      prototype.emit s = some p → i.methodByEmitted? c.descriptor name p.signature = none
  | .ofType .. => True

/-- The field can be carried over: its owner is not the generated class. -/
def FieldTemplate.Portable (i : SymbolMap.Index) (s : Symbols) (f : FieldTemplate) : Prop :=
  ∀ c, s.classFor f.owner = some c → i.generatedClass? ≠ some c.descriptor

/-- The reference of the operand can be carried over. -/
def OperandTemplate.Portable (i : SymbolMap.Index) (s : Symbols) : OperandTemplate → Prop
  | .method m => m.Portable i s
  | .field f => f.Portable i s
  | _ => True

/-- Every reference of the body can be carried over. -/
def BodyTemplate.Portable (i : SymbolMap.Index) (s : Symbols) (t : BodyTemplate) : Prop :=
  ∀ instruction ∈ t.instructions, instruction.operand.Portable i s

/-! ### Questions -/

/-- An entry with a key belongs to a delegate adapter. -/
theorem TypeEntry.isDelegate_of_delegateKey? {entry : TypeEntry} {key : DelegateKey}
    (h : entry.delegateKey? = some key) : entry.isDelegate = true := by
  rw [delegateKey?, Option.bind_eq_some_iff] at h
  obtain ⟨position, hp, hk⟩ := h
  rw [isDelegate, hp, Option.any_some, DelegateKey.isDelegatePosition]
  simp only [DelegateKey.parse, bind, Option.bind_eq_some_iff] at hk
  obtain ⟨halves, hc, -⟩ := hk
  rw [hc, Option.isSome_some]

namespace SymbolMap.Index

variable {i : Index} {c : ClassRef}

/-- A class that the map knows as declared is no adapter, and its scope is the declared one. -/
theorem Knows.scopeOf {s : TypeScope} (h : i.Knows (.declared s) c) :
    i.adapterOf? c = none ∧ scopeOf (i.typeByDescriptor? c.descriptor) c = .ok s := by
  cases h with
  | compiled found notDelegate =>
      refine ⟨?_, by rw [found]; rfl⟩
      rw [adapterOf?, found, Option.filter_some, notDelegate]
      rfl
  | imported nonempty absent =>
      refine ⟨by rw [adapterOf?, absent]; rfl, ?_⟩
      rw [absent]
      simp only [Index.scopeOf, TypeScope.ofDescriptor?_descriptor nonempty]

/-- A class that the map knows as an adapter has the question for its key. -/
theorem Knows.adapterQuestion {key : DelegateKey} (h : i.Knows (.adapter key) c) :
    ∃ entry q, i.adapterOf? c = some entry ∧ adapterQuestion entry c = .ok q ∧
      q.identity = .adapter key := by
  cases h with
  | @adapter _ entry _ found wellFormed =>
      have hd := TypeEntry.isDelegate_of_delegateKey? wellFormed
      refine ⟨entry, ⟨.adapter key, _⟩, ?_, by rw [Index.adapterQuestion, wellFormed], rfl⟩
      rw [adapterOf?, found, Option.filter_some, hd]
      rfl

/-- The question behind a class asks for the identity that the map tells. -/
theorem Knows.classQuestion {identity : ClassIdentity} (h : i.Knows identity c) :
    ∃ q, i.classQuestion c = .ok q ∧ q.identity = identity := by
  cases identity with
  | declared s =>
      obtain ⟨hn, hs⟩ := h.scopeOf
      refine ⟨⟨.declared s, .unresolvedType c.descriptor s.id⟩, ?_, rfl⟩
      simp only [Index.classQuestion, hn, declaredQuestion, hs]
  | adapter key =>
      obtain ⟨entry, q, he, hq, hi⟩ := h.adapterQuestion
      refine ⟨q, ?_, hi⟩
      simp only [Index.classQuestion, he, hq]

/-- The plan for a method that the map knows asks for its scope id. -/
theorem KnowsMethod.methodPlan {id : ScopeId} {r : MethodRef} (h : i.KnowsMethod id r)
    (hid : id.member ≠ noScope) :
    ∃ owner otherwise, r.ownerClass? = some owner ∧
      i.methodPlan owner r = .ok (.member id otherwise) := by
  cases h with
  | @compiled owner name prototype record found =>
      have hscope : record.method.scopeId ≠ noScope := hid
      have hplan := methodPlan_of_record (r := ⟨.named owner, name, prototype⟩) found
      rw [if_neg hscope] at hplan
      exact ⟨owner, _, rfl, hplan⟩
  | @imported s owner name prototype known absent =>
      obtain ⟨hn, hs⟩ := known.scopeOf
      refine ⟨owner, .unresolvedMethod (MethodRef.text ⟨.named owner, name, prototype⟩)
        (name ++ prototype.signature), rfl, ?_⟩
      simp only [Index.methodPlan, absent, hn, memberPlan, hs]
      rw [if_neg hid]

end SymbolMap.Index

/-! ### Emissions -/

section

variable {α β γ : Type} {o : Option α} {o' : Option β}

/-- A packed emission packs an emission. -/
theorem exists_of_bind_pure {f : α → β} {y : β} (h : (o >>= fun a => pure (f a)) = some y) :
    ∃ a, o = some a ∧ f a = y := by
  obtain ⟨a, ha, hf⟩ := Option.bind_eq_some_iff.mp h
  exact ⟨a, ha, Option.some.inj hf⟩

/-- Two emissions packed together are both emissions. -/
theorem exists_of_bind_bind_pure {f : α → β → γ} {y : γ}
    (h : (o >>= fun a => o' >>= fun b => pure (f a b)) = some y) :
    ∃ a, o = some a ∧ ∃ b, o' = some b ∧ f a b = y := by
  obtain ⟨a, ha, hb⟩ := Option.bind_eq_some_iff.mp h
  exact ⟨a, ha, exists_of_bind_pure hb⟩

end

/-- An emitted type that is not given as a class is no class. -/
theorem TypeTemplate.asClass?_of_emit {s : Symbols} {t : TypeTemplate} {u : TypeRef}
    (ht : t.isClass = false) (h : t.emit s = some u) : u.asClass? = none := by
  cases t with
  | named => simp [isClass] at ht
  | primitive p =>
      obtain rfl : .primitive p = u := Option.some.inj h
      rfl
  | array | byRef =>
      obtain ⟨_, _, rfl⟩ := exists_of_bind_pure h
      rfl
  | generic | modified =>
      obtain ⟨_, _, _, _, rfl⟩ := exists_of_bind_bind_pure h
      rfl

/-! ### References -/

/-- One computation after the other, with the reason for a failure forgotten. -/
theorem toOption_bind_eq {ε α β : Type} {x : Except ε α} {o : Option α} {f : α → Except ε β}
    {g : α → Option β} (hx : x.toOption = o) (hf : ∀ a, (f a).toOption = g a) :
    (x >>= f).toOption = o >>= g := by
  subst hx
  cases x with
  | error e => rfl
  | ok a => exact hf a

/-- A visit of an emitted list emits the list again if the visit of each item does. -/
theorem toOption_mapM_emit {ε τ α β : Type} {old : τ → Option α} {new : τ → Option β}
    {f : α → Except ε β} {ts : List τ}
    (h : ∀ t ∈ ts, ∀ a, old t = some a → (f a).toOption = new t) {as : List α}
    (hold : ts.mapM old = some as) : (as.mapM f).toOption = ts.mapM new := by
  induction ts generalizing as with
  | nil =>
      obtain rfl : [] = as := Option.some.inj hold
      rfl
  | cons t ts ih =>
      rw [List.mapM_cons] at hold
      obtain ⟨a, ha, as', has, rfl⟩ := exists_of_bind_bind_pure hold
      rw [List.mapM_cons, List.mapM_cons]
      refine toOption_bind_eq (h t List.mem_cons_self a ha) fun b => ?_
      exact toOption_bind_eq (ih (fun t' ht' => h t' (List.mem_cons_of_mem t ht')) has)
        fun _ => rfl

namespace Bridge

variable {i : SymbolMap.Index} {previous current : Symbols}

/-- **A class** is carried over to the class of the same identity. -/
theorem toOption_carryClass {identity : ClassIdentity} {c : ClassRef}
    (h : i.Knows identity c) :
    (carryClass ⟨i, current⟩ c).toOption = current.classFor identity := by
  obtain ⟨q, hq, rfl⟩ := h.classQuestion
  have hc : carryClass ⟨i, current⟩ c = answer ⟨i, current⟩ q := by
    simp only [carryClass, hq]
    rfl
  rw [hc, answer]
  cases current.classFor q.identity <;> rfl

mutual

/-- **A type** that was emitted is carried over to its fresh emission. -/
theorem toOption_carryType_emit (d : i.Describes previous) :
    (t : TypeTemplate) → {u : TypeRef} → t.emit previous = some u →
      (carryType ⟨i, current⟩ u).toOption = t.emit current
  | .primitive p, u, h => by
      obtain rfl : .primitive p = u := Option.some.inj h
      rfl
  | .named identity, u, h => by
      obtain ⟨c, hc, rfl⟩ := exists_of_bind_pure h
      exact toOption_bind_eq (toOption_carryClass (d.classes hc)) fun _ => rfl
  | .array element, u, h => by
      obtain ⟨e, he, rfl⟩ := exists_of_bind_pure h
      exact toOption_bind_eq (toOption_carryType_emit d element he) fun _ => rfl
  | .byRef element, u, h => by
      obtain ⟨e, he, rfl⟩ := exists_of_bind_pure h
      exact toOption_bind_eq (toOption_carryType_emit d element he) fun _ => rfl
  | .generic element arguments, u, h => by
      obtain ⟨e, he, as, has, rfl⟩ := exists_of_bind_bind_pure h
      refine toOption_bind_eq (toOption_carryType_emit d element he) fun _ => ?_
      exact toOption_bind_eq (toOption_carryTypes_emit d arguments has) fun _ => rfl
  | .modified element modifier required, u, h => by
      obtain ⟨e, he, m, hm, rfl⟩ := exists_of_bind_bind_pure h
      refine toOption_bind_eq (toOption_carryType_emit d element he) fun _ => ?_
      exact toOption_bind_eq (toOption_carryClass (d.classes hm)) fun _ => rfl

/-- A list of types that was emitted is carried over to its fresh emission. -/
theorem toOption_carryTypes_emit (d : i.Describes previous) :
    (ts : List TypeTemplate) → {us : List TypeRef} → TypeTemplate.emitAll previous ts = some us →
      (TypeRef.mapAllClassesM (carryClass ⟨i, current⟩) us).toOption =
        TypeTemplate.emitAll current ts
  | [], us, h => by
      obtain rfl : [] = us := Option.some.inj h
      rfl
  | t :: ts, us, h => by
      obtain ⟨u, hu, us', hus, rfl⟩ := exists_of_bind_bind_pure h
      refine toOption_bind_eq (toOption_carryType_emit d t hu) fun _ => ?_
      exact toOption_bind_eq (toOption_carryTypes_emit d ts hus) fun _ => rfl

end

/-- A prototype that was emitted is carried over to its fresh emission. -/
theorem toOption_carryPrototype_emit (d : i.Describes previous) {t : PrototypeTemplate}
    {p : Prototype} (h : t.emit previous = some p) :
    (carryPrototype ⟨i, current⟩ p).toOption = t.emit current := by
  obtain ⟨r, hr, ps, hps, rfl⟩ := exists_of_bind_bind_pure h
  refine toOption_bind_eq (toOption_carryType_emit d t.returnType hr) fun _ => ?_
  exact toOption_bind_eq (toOption_mapM_emit (fun u _ _ hu => toOption_carryType_emit d u hu) hps)
    fun _ => rfl

/-- **A method** that was emitted is carried over to its fresh emission. -/
theorem toOption_carryMethod_emit (d : i.Describes previous) {t : MethodTemplate}
    (ht : t.Portable i previous) {r : MethodRef} (h : t.emit previous = some r) :
    (carryMethod ⟨i, current⟩ r).toOption = t.emit current := by
  cases t with
  | member id =>
      obtain ⟨owner, otherwise, ho, hplan⟩ := (d.methods h).methodPlan ht
      simp only [carryMethod, ho, carryClassMethod, hplan, MethodTemplate.emit]
      cases hm : current.methodFor id <;> simp only [bind, Except.bind, hm] <;> rfl
  | ofAdapter key name prototype =>
      obtain ⟨c, hc, p, hp, rfl⟩ := exists_of_bind_bind_pure h
      obtain ⟨entry, q, he, hq, hi⟩ := (d.classes hc).adapterQuestion
      have hplan : i.methodPlan c ⟨.named c, name, p⟩ = .ok (.adapter q) := by
        simp only [SymbolMap.Index.methodPlan, ht c p hc hp, he, hq]
        rfl
      have ha : (answer ⟨i, current⟩ q).toOption = current.classFor (.adapter key) := by
        rw [answer, hi]
        cases current.classFor (.adapter key) <;> rfl
      simp only [carryMethod, MethodRef.ownerClass?, TypeRef.asClass?, carryClassMethod, hplan]
      refine toOption_bind_eq ha fun _ => ?_
      exact toOption_bind_eq (toOption_carryPrototype_emit d hp) fun _ => rfl
  | ofType owner name prototype compound =>
      obtain ⟨u, hu, p, hp, rfl⟩ := exists_of_bind_bind_pure h
      simp only [carryMethod, MethodRef.ownerClass?, TypeTemplate.asClass?_of_emit compound hu]
      refine toOption_bind_eq (toOption_carryType_emit d owner hu) fun _ => ?_
      exact toOption_bind_eq (toOption_carryPrototype_emit d hp) fun _ => rfl

/-- **A field** that was emitted is carried over to its fresh emission. -/
theorem toOption_carryField_emit (d : i.Describes previous) {t : FieldTemplate}
    (ht : t.Portable i previous) {r : FieldRef} (h : t.emit previous = some r) :
    (carryField ⟨i, current⟩ r).toOption = t.emit current := by
  obtain ⟨c, hc, u, hu, rfl⟩ := exists_of_bind_bind_pure h
  simp only [carryField]
  rw [if_neg (ht c hc)]
  refine toOption_bind_eq (toOption_carryClass (d.classes hc)) fun _ => ?_
  exact toOption_bind_eq (toOption_carryType_emit d t.type hu) fun _ => rfl

/-! ### Bodies -/

/-- An instruction that was emitted is carried over to its fresh emission. -/
theorem toOption_instruction_emit (d : i.Describes previous) {t : InstructionTemplate}
    (ht : t.operand.Portable i previous) {x : Instruction} (h : t.emit previous = some x) :
    (x.mapRefsM (visitor ⟨i, current⟩)).toOption = t.emit current := by
  obtain ⟨o, ho, rfl⟩ := exists_of_bind_pure h
  refine toOption_bind_eq ?_ fun _ => rfl
  cases htop : t.operand with
  | none | literal | text | target =>
      simp only [htop, OperandTemplate.emit, pure, Option.some.injEq] at ho
      subst ho
      rfl
  | type u =>
      rw [htop] at ho
      obtain ⟨v, hv, rfl⟩ := exists_of_bind_pure ho
      exact toOption_bind_eq (toOption_carryType_emit d u hv) fun _ => rfl
  | method m =>
      rw [htop] at ho ht
      obtain ⟨r, hr, rfl⟩ := exists_of_bind_pure ho
      exact toOption_bind_eq (toOption_carryMethod_emit d ht hr) fun _ => rfl
  | field f =>
      rw [htop] at ho ht
      obtain ⟨r, hr, rfl⟩ := exists_of_bind_pure ho
      exact toOption_bind_eq (toOption_carryField_emit d ht hr) fun _ => rfl

/-- Handlers that were emitted are carried over to their fresh emission. -/
theorem toOption_exceptionTable_emit (d : i.Describes previous) {t : ExceptionTemplate}
    {e : ExceptionTable} (h : t.emit previous = some e) :
    (e.mapRefsM (visitor ⟨i, current⟩)).toOption = t.emit current := by
  obtain ⟨cs, hcs, rfl⟩ := exists_of_bind_pure h
  refine toOption_bind_eq (toOption_mapM_emit (fun c _ clause hc => ?_) hcs) fun _ => rfl
  obtain ⟨u, hu, rfl⟩ := exists_of_bind_pure hc
  exact toOption_bind_eq (toOption_carryType_emit d c.exceptionType hu) fun _ => rfl

/-- A body that was emitted is carried over to its fresh emission. -/
theorem toOption_carryBody_emit (d : i.Describes previous) {t : BodyTemplate}
    (ht : t.Portable i previous) {x : MethodBody} (h : t.emit previous = some x) :
    (carryBody ⟨i, current⟩ x).toOption = t.emit current := by
  obtain ⟨is, his, es, hes, rfl⟩ := exists_of_bind_bind_pure h
  refine toOption_bind_eq (toOption_mapM_emit (fun u hu _ hx => ?_) his) fun _ => ?_
  · exact toOption_instruction_emit d (ht u hu) hx
  · exact toOption_bind_eq
      (toOption_mapM_emit (fun _ _ _ he => toOption_exceptionTable_emit d he) hes) fun _ => rfl

end Bridge

/-- **Retargeting equals a fresh compilation.** Let the map of the previous compilation describe
it, and let a body be the previous emission of a template whose references can be carried over.
Then a fresh pass turns the body into the emission of the template under the current symbols, and
fails exactly when the current symbols lack a name that the template needs. -/
theorem Pass.toOption_run_carryBody_emit {i : SymbolMap.Index} {previous : Symbols}
    (described : i.Describes previous) (current : Symbols) {t : BodyTemplate}
    (portable : t.Portable i previous) {body : MethodBody}
    (emitted : t.emit previous = some body) :
    (Pass.run {} (Pass.carryBody ⟨i, current⟩ body)).1.toOption = t.emit current := by
  rw [Pass.fst_run_carryBody]
  exact Bridge.toOption_carryBody_emit described portable emitted

/-! ### A program that moves to another package -/

namespace Moving

/-- The class with a simple name in a package. -/
def inPackage (package name : String) : ClassRef := ⟨"Lcom/" ++ package ++ "/" ++ name ++ ";"⟩

/-- The prototype without parameters and result. -/
def plain : Prototype := .ofTypes (.primitive .void) []

/-- The key of the adapter that forwards to `bar`. -/
def barAdapter : DelegateKey := ⟨⟨"Action:7"⟩, ⟨"Foo:3"⟩, "bar()V"⟩

/-- What the program is called in a package. -/
def symbols (package : String) : Symbols where
  classFor
    | .declared ⟨"Foo:3"⟩ => some (inPackage package "Foo")
    | .declared ⟨"java/lang/String"⟩ => some ⟨"Ljava/lang/String;"⟩
    | .adapter ⟨⟨"Action:7"⟩, ⟨"Foo:3"⟩, "bar()V"⟩ => some (inPackage package "Action")
    | _ => none
  methodFor
    | ⟨⟨"Foo:3"⟩, "bar()V"⟩ => some ⟨.named (inPackage package "Foo"), "bar", plain⟩
    | ⟨⟨"App:0"⟩, "helper()V"⟩ => some ⟨.named (inPackage package "All"), "helper", plain⟩
    | ⟨⟨"java/lang/String"⟩, "trim()V"⟩ => some ⟨.named ⟨"Ljava/lang/String;"⟩, "trim", plain⟩
    | _ => none

/-- The entry of the type whose methods go into the generated class. -/
def appEntry : TypeEntry :=
  ⟨0, "App", some "App", some "0", "Lcom/x/App;", none,
    [⟨1, "helper", "helper", "()V", "helper()V", []⟩]⟩

/-- The entry of `Foo`. -/
def fooEntry : TypeEntry :=
  ⟨1, "Foo", some "Foo", some "3", "Lcom/x/Foo;", none,
    [⟨2, "bar", "bar", "()V", "bar()V", []⟩]⟩

/-- The entry of the adapter. -/
def actionEntry : TypeEntry :=
  ⟨2, "Action", some "Action", some "7:delegate:Foo:3|bar()V", "Lcom/x/Action;", none, []⟩

/-- The map that the compilation in package `x` left. -/
def map : SymbolMap where
  formatVersion := 1
  producerVersion := "0.1.0"
  generatedClass := some "Lcom/x/All;"
  modules := []
  types := [appEntry, fooEntry, actionEntry]

/-- The identity of `Foo`. -/
def foo : ClassIdentity := .declared ⟨"Foo:3"⟩

/-- A template with a reference of every kind. -/
def template : BodyTemplate where
  registersSize := 2
  instructions :=
    [⟨.checkCast, [0], .type (.generic (.array (.named foo)) [.modified (.byRef (.named foo))
        (.declared ⟨"java/lang/String"⟩) true])⟩,
      ⟨.invokeDirect, [0], .method (.member ⟨⟨"Foo:3"⟩, "bar()V"⟩)⟩,
      ⟨.invokeStatic, [], .method (.member ⟨⟨"App:0"⟩, "helper()V"⟩)⟩,
      ⟨.invokeVirtual, [1], .method (.member ⟨⟨"java/lang/String"⟩, "trim()V"⟩)⟩,
      ⟨.invokeInterface, [1], .method
        (.ofAdapter barAdapter "invoke" ⟨.primitive .void, [.named foo]⟩)⟩,
      ⟨.invokeVirtual, [0], .method
        (.ofType (.array (.named foo)) "clone" ⟨.named (.declared ⟨"java/lang/String"⟩), []⟩)⟩,
      ⟨.iget, [0, 1], .field ⟨foo, "count", .primitive .int⟩⟩,
      ⟨.returnVoid, [], .none⟩]
  exceptions := [⟨0, 7, [⟨.named foo, 7⟩], none⟩]

/-- The body in a package. -/
def body (package : String) : MethodBody where
  registersSize := 2
  instructions :=
    [⟨.checkCast, [0], .type (.generic (.array (.named (inPackage package "Foo")))
        [.modified (.byRef (.named (inPackage package "Foo"))) ⟨"Ljava/lang/String;"⟩ true])⟩,
      ⟨.invokeDirect, [0], .method ⟨.named (inPackage package "Foo"), "bar", plain⟩⟩,
      ⟨.invokeStatic, [], .method ⟨.named (inPackage package "All"), "helper", plain⟩⟩,
      ⟨.invokeVirtual, [1], .method ⟨.named ⟨"Ljava/lang/String;"⟩, "trim", plain⟩⟩,
      ⟨.invokeInterface, [1], .method ⟨.named (inPackage package "Action"), "invoke",
        .ofTypes (.primitive .void) [.named (inPackage package "Foo")]⟩⟩,
      ⟨.invokeVirtual, [0], .method ⟨.array (.named (inPackage package "Foo")), "clone",
        .ofTypes (.named ⟨"Ljava/lang/String;"⟩) []⟩⟩,
      ⟨.iget, [0, 1], .field ⟨inPackage package "Foo", "count", .primitive .int⟩⟩,
      ⟨.returnVoid, [], .none⟩]
  exceptions := [⟨0, 7, [⟨.named (inPackage package "Foo"), 7⟩], none⟩]

/-- In every package the body is the emission of the template. -/
theorem emit_template (package : String) :
    template.emit (symbols package) = some (body package) := rfl

/-- The map describes the compilation in package `x`. -/
theorem describes : map.index.Describes (symbols "x") := by
  have hstring : map.index.Knows (.declared ⟨"java/lang/String"⟩) ⟨"Ljava/lang/String;"⟩ :=
    .imported (by decide) rfl
  constructor
  · intro identity c h
    simp only [symbols] at h
    split at h
    · cases h
      exact .compiled (show map.index.typeByDescriptor? _ = some fooEntry from rfl) rfl
    · cases h
      exact hstring
    · cases h
      exact .adapter (show map.index.typeByDescriptor? _ = some actionEntry from rfl) rfl
    · cases h
  · intro id r h
    simp only [symbols] at h
    split at h
    · cases h
      exact .compiled (show map.index.methodByEmitted? _ _ _ =
        some ⟨fooEntry, ⟨2, "bar", "bar", "()V", "bar()V", []⟩, "Lcom/x/Foo;"⟩ from rfl)
    · cases h
      exact .compiled (show map.index.methodByEmitted? _ _ _ =
        some ⟨appEntry, ⟨1, "helper", "helper", "()V", "helper()V", []⟩, "Lcom/x/All;"⟩ from rfl)
    · cases h
      exact (.imported hstring rfl : map.index.KnowsMethod
        ⟨⟨"java/lang/String"⟩, "trim" ++ plain.signature⟩
        ⟨.named ⟨"Ljava/lang/String;"⟩, "trim", plain⟩)
    · cases h

/-- Every reference of the template can be carried over. -/
theorem portable : template.Portable map.index (symbols "x") := by
  intro instruction h
  simp only [template, List.mem_cons, List.not_mem_nil, or_false] at h
  rcases h with rfl | rfl | rfl | rfl | rfl | rfl | rfl | rfl
  · trivial
  · exact (by decide : "bar()V" ≠ noScope)
  · exact (by decide : "helper()V" ≠ noScope)
  · exact (by decide : "trim()V" ≠ noScope)
  · rintro c p hc hp
    cases hc
    cases hp
    rfl
  · trivial
  · rintro c hc
    cases hc
    exact (by decide : some "Lcom/x/All;" ≠ some "Lcom/x/Foo;")
  · trivial

end Moving

/-- The cached body of a program that moved from package `x` to package `y` becomes the body that
compiling it in package `y` produces. -/
theorem Pass.toOption_run_carryBody_emit_moving :
    Moving.map.index.Describes (Moving.symbols "x") ∧
      Moving.template.Portable Moving.map.index (Moving.symbols "x") ∧
      Moving.template.emit (Moving.symbols "x") = some (Moving.body "x") ∧
      (Pass.run {} (Pass.carryBody ⟨Moving.map.index, Moving.symbols "y"⟩
        (Moving.body "x"))).1.toOption = some (Moving.body "y") :=
  ⟨Moving.describes, Moving.portable, Moving.emit_template "x",
    (Pass.toOption_run_carryBody_emit Moving.describes (Moving.symbols "y") Moving.portable
      (Moving.emit_template "x")).trans (Moving.emit_template "y")⟩

end BodyCache
