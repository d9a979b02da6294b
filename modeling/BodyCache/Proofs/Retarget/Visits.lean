import BodyCache.Proofs.Retarget.Memory
import BodyCache.Proofs.Retarget.References

/-!
# Visits of Classes

A pass meets the same class many times: by itself, below arrays and references, as a generic
argument or a modifier, as the owner of a field, in prototypes and in catch clauses. The log of the
pass says what was asked, and not on whose account: two classes may have the same question. A ledger
of visits (`Pass.Visit`) is therefore kept beside the run. `Pass.Advances` relates two memories of a
pass by the visits of classes in between, each of which is a run of its own from the memory that it
starts with. Anything else that a pass does is to remember a compound type, and to put a question
that is not about a declared class.

A class is *known* when its result is remembered. A visit of a known class asks nothing, a visit of
any other class asks the question behind it, and an answer makes the class known. So a ledger has at
most one answered question on account of each class, whatever else was visited and failed.

## Main results

* `Pass.run_carryClass`: what one visit of a class does.
* `Pass.Advances.answeredAbout_eq`: the questions of a ledger that were answered about a class.
-/

namespace BodyCache

/-- Whether a question is about a declared or imported class. -/
def Query.isDeclared : Query → Bool
  | .type (.declared _) => true
  | _ => false

/-- Whether the symbols answer a question. -/
def Symbols.answers (s : Symbols) : Query → Bool
  | .type identity => (s.classFor identity).isSome
  | .method id => (s.methodFor id).isSome

/-- The question behind a class, if there is one. -/
def Bridge.questionAbout (b : Bridge) (c : ClassRef) : List Query :=
  match b.previous.classQuestion c with
  | .ok q => [.type q.identity]
  | .error _ => []

namespace PassState

/-- The result for the class is remembered. -/
def Knows (s : PassState) (c : ClassRef) : Prop := (s.classes.find? c).isSome

instance (s : PassState) (c : ClassRef) : Decidable (s.Knows c) :=
  inferInstanceAs (Decidable ((s.classes.find? c).isSome = true))

variable {s : PassState} {c d : ClassRef}

/-- What is known depends on the memory of classes only. -/
theorem knows_congr {t : PassState} (h : t.classes = s.classes) : t.Knows c ↔ s.Knows c := by
  rw [Knows, Knows, h]

/-- Exactly one more class is known when a result is remembered. -/
theorem knows_insertClass {result : ClassRef} {queries : List Query} :
    PassState.Knows { s with classes := s.classes.insert c result, queries } d ↔
      c = d ∨ s.Knows d := by
  simp only [Knows, Table.find?_insert]
  by_cases h : c = d <;> simp [h]

end PassState

namespace Pass

variable {b : Bridge}

/-! ### One visit of a class -/

/-- **What a visit of a class does.** A known class is taken from memory. For any other class the
question behind it is put, if there is one, and the class is known if there is an answer. -/
theorem run_carryClass (b : Bridge) (s : PassState) (c : ClassRef) :
    run s (carryClass b c) =
      match s.classes.find? c with
      | some d => (.ok d, s)
      | none =>
        match b.previous.classQuestion c with
        | .error e => (.error e, s)
        | .ok q =>
          match b.current.classFor q.identity with
          | some d =>
            (.ok d, { s with
              classes := s.classes.insert c d, queries := s.queries ++ [.type q.identity] })
          | none =>
            (.error q.otherwise, { s with queries := s.queries ++ [.type q.identity] }) := by
  rw [carryClass, run_get_bind]
  cases s.classes.find? c with
  | some d => rfl
  | none =>
      cases b.previous.classQuestion c with
      | error e => rfl
      | ok q =>
          have hask (t : PassState) : run t (ask b q) = (b.answer q,
              { t with queries := t.queries ++ [.type q.identity] }) := by
            rw [ask, log, run_modify_bind]
            cases b.answer q <;> rfl
          have hquestion : run s (ofExcept (.ok q)) = (.ok q, s) := rfl
          dsimp only
          rw [run_bind, hquestion]
          dsimp only
          rw [run_bind, hask, Bridge.answer]
          cases b.current.classFor q.identity <;> rfl

/-- A visit of a class: what came of it, and which questions it put. -/
structure Visit where
  target : ClassRef
  result : Except ResolveError ClassRef
  asked : List Query

/-- The visit takes a pass from one memory to another. -/
structure Visit.Leads (b : Bridge) (v : Visit) (s t : PassState) : Prop where
  run_eq : run s (carryClass b v.target) = (v.result, t)
  queries_eq : t.queries = s.queries ++ v.asked

namespace Visit.Leads

variable {v : Visit} {s t : PassState} {c : ClassRef}

/-- A visit of a known class changes nothing and asks nothing. -/
theorem of_knows (h : v.Leads b s t) (hknown : s.Knows v.target) : t = s ∧ v.asked = [] := by
  obtain ⟨hrun, hqueries⟩ := h
  obtain ⟨d, hd⟩ := Option.isSome_iff_exists.mp hknown
  simp only [run_carryClass, hd, Prod.mk.injEq] at hrun
  obtain ⟨-, rfl⟩ := hrun
  exact ⟨rfl, List.self_eq_append_right.mp hqueries⟩

/-- A visit of any other class makes it known with the answer to the question behind it, or fails
without an answer. -/
theorem of_not_knows (h : v.Leads b s t) (hunknown : ¬ s.Knows v.target) :
    (v.asked.filter b.current.answers = b.questionAbout v.target ∧
        ∀ c, t.Knows c ↔ v.target = c ∨ s.Knows c) ∨
      (¬ Succeeds v.result ∧ v.asked.filter b.current.answers = [] ∧
        ∀ c, t.Knows c ↔ s.Knows c) := by
  obtain ⟨hrun, hqueries⟩ := h
  have hnone : s.classes.find? v.target = none := by
    simpa [PassState.Knows] using hunknown
  have hfailed {e : ResolveError} (he : .error e = v.result) : ¬ Succeeds v.result := by
    rw [← he]
    exact not_succeeds_error e
  simp only [run_carryClass, hnone] at hrun
  rw [Bridge.questionAbout]
  cases hquestion : b.previous.classQuestion v.target with
  | error e =>
      simp only [hquestion, Prod.mk.injEq] at hrun
      obtain ⟨hresult, rfl⟩ := hrun
      have hasked : v.asked = [] := List.self_eq_append_right.mp hqueries
      exact .inr ⟨hfailed hresult, by rw [hasked, List.filter_nil], fun _ => Iff.rfl⟩
  | ok q =>
      cases hclass : b.current.classFor q.identity with
      | some d =>
          simp only [hquestion, hclass, Prod.mk.injEq] at hrun
          obtain ⟨-, rfl⟩ := hrun
          have hasked : v.asked = [.type q.identity] := (List.append_cancel_left hqueries).symm
          refine .inl ⟨?_, fun _ => PassState.knows_insertClass⟩
          simp [hasked, Symbols.answers, hclass]
      | none =>
          simp only [hquestion, hclass, Prod.mk.injEq] at hrun
          obtain ⟨hresult, rfl⟩ := hrun
          have hasked : v.asked = [.type q.identity] := (List.append_cancel_left hqueries).symm
          refine .inr ⟨hfailed hresult, ?_, fun _ => Iff.rfl⟩
          simp [hasked, Symbols.answers, hclass]

/-- A class is known after a visit that succeeds. -/
theorem knows_of_succeeds (h : v.Leads b s t) (hresult : Succeeds v.result) :
    t.Knows v.target := by
  by_cases hknown : s.Knows v.target
  · rw [(h.of_knows hknown).1]
    exact hknown
  · rcases h.of_not_knows hknown with ⟨-, hknows⟩ | ⟨hfailed, -, -⟩
    · exact (hknows _).mpr (.inl rfl)
    · exact absurd hresult hfailed

/-- Known classes stay known. -/
theorem knows (h : v.Leads b s t) (hc : s.Knows c) : t.Knows c := by
  by_cases hknown : s.Knows v.target
  · rwa [(h.of_knows hknown).1]
  · rcases h.of_not_knows hknown with ⟨-, hknows⟩ | ⟨-, -, hknows⟩
    · exact (hknows c).mpr (.inr hc)
    · exact (hknows c).mpr hc

end Visit.Leads

/-- A run for a class puts questions, if any, and leaves the types alone. -/
theorem grows_run_carryClass (b : Bridge) (s : PassState) (c : ClassRef) :
    (∃ asked, (run s (carryClass b c)).2.queries = s.queries ++ asked) ∧
      (run s (carryClass b c)).2.types = s.types := by
  rw [run_carryClass]
  cases s.classes.find? c with
  | some d => exact ⟨⟨[], (List.append_nil _).symm⟩, rfl⟩
  | none =>
      cases b.previous.classQuestion c with
      | error e => exact ⟨⟨[], (List.append_nil _).symm⟩, rfl⟩
      | ok q =>
          dsimp only
          cases b.current.classFor q.identity <;> exact ⟨⟨[.type q.identity], rfl⟩, rfl⟩

/-- Every run for a class is a visit. -/
theorem exists_leads (b : Bridge) (s : PassState) (c : ClassRef) :
    ∃ v : Visit, v.target = c ∧ v.result = (run s (carryClass b c)).1 ∧
      v.Leads b s (run s (carryClass b c)).2 := by
  obtain ⟨⟨asked, hqueries⟩, -⟩ := grows_run_carryClass b s c
  exact ⟨⟨c, (run s (carryClass b c)).1, asked⟩, rfl, rfl, rfl, hqueries⟩

/-! ### The ledger of a run -/

/-- The pass gets from one memory to another and visits the classes in between. Besides, it may only
remember a type and put a question that is not about a declared class. -/
inductive Advances (b : Bridge) : PassState → List Visit → PassState → Prop
  | done (s : PassState) : Advances b s [] s
  | visit {s t u : PassState} {v : Visit} {visits : List Visit} :
      v.Leads b s t → Advances b t visits u → Advances b s (v :: visits) u
  | remember {s u : PassState} {visits : List Visit} (type result : TypeRef) :
      Advances b { s with types := s.types.insert type result } visits u → Advances b s visits u
  | question {s u : PassState} {visits : List Visit} {q : Query} :
      q.isDeclared = false → Advances b { s with queries := s.queries ++ [q] } visits u →
      Advances b s visits u

/-- The questions that were put on account of a class and answered. -/
def answeredAbout (b : Bridge) (c : ClassRef) (visits : List Visit) : List Query :=
  ((visits.filter (·.target = c)).flatMap Visit.asked).filter b.current.answers

/-- The answered questions of a first visit come before those of the others. -/
theorem answeredAbout_cons (b : Bridge) (c : ClassRef) (v : Visit) (visits : List Visit) :
    answeredAbout b c (v :: visits) =
      (if v.target = c then v.asked.filter b.current.answers else []) ++
        answeredAbout b c visits := by
  by_cases h : v.target = c <;> simp [answeredAbout, h]

namespace Advances

variable {s t u : PassState} {visits visits' : List Visit} {c : ClassRef}

/-- One ledger after the other. -/
theorem append (h : Advances b s visits t) (h' : Advances b t visits' u) :
    Advances b s (visits ++ visits') u := by
  induction h with
  | done s => exact h'
  | visit hv _ ih => exact .visit hv (ih h')
  | remember type result _ ih => exact .remember type result (ih h')
  | question hq _ ih => exact .question hq (ih h')

/-- Between two parts of a ledger there is a memory. -/
theorem split (h : Advances b s visits u) (before : List Visit) {later : List Visit}
    (hsplit : visits = before ++ later) :
    ∃ t, Advances b s before t ∧ Advances b t later u := by
  induction h generalizing before with
  | done s =>
      obtain ⟨rfl, rfl⟩ := List.append_eq_nil_iff.mp hsplit.symm
      exact ⟨s, .done s, .done s⟩
  | @visit s t u v visits hv hmore ih =>
      cases before with
      | nil =>
          obtain rfl : v :: visits = later := hsplit
          exact ⟨s, .done s, .visit hv hmore⟩
      | cons w before =>
          obtain ⟨rfl, hrest⟩ := List.cons.inj hsplit
          obtain ⟨t', hbefore, hlater⟩ := ih before hrest
          exact ⟨t', .visit hv hbefore, hlater⟩
  | remember type result _ ih =>
      obtain ⟨t, hbefore, hlater⟩ := ih before hsplit
      exact ⟨t, .remember type result hbefore, hlater⟩
  | question hq _ ih =>
      obtain ⟨t, hbefore, hlater⟩ := ih before hsplit
      exact ⟨t, .question hq hbefore, hlater⟩

/-- Known classes stay known. -/
theorem knows (h : Advances b s visits u) (hc : s.Knows c) : u.Knows c := by
  induction h with
  | done s => exact hc
  | visit hv _ ih => exact ih (hv.knows hc)
  | remember type result _ ih => exact ih hc
  | question hq _ ih => exact ih hc

/-- The class of a visit that succeeds is known afterwards. -/
theorem knows_of_mem (h : Advances b s visits u) {v : Visit} (hv : v ∈ visits)
    (hresult : Succeeds v.result) : u.Knows v.target := by
  induction h with
  | done s => exact absurd hv List.not_mem_nil
  | visit hw hmore ih =>
      rcases List.mem_cons.mp hv with rfl | hv
      · exact hmore.knows (hw.knows_of_succeeds hresult)
      · exact ih hv
  | remember type result _ ih => exact ih hv
  | question hq _ ih => exact ih hv

/-- The questions about declared classes in the log are those of the visits, in order. -/
theorem filter_isDeclared (h : Advances b s visits u) :
    u.queries.filter Query.isDeclared = s.queries.filter Query.isDeclared ++
      (visits.flatMap Visit.asked).filter Query.isDeclared := by
  induction h with
  | done s => simp
  | visit hv _ ih =>
      rw [ih, hv.queries_eq, List.flatMap_cons, List.filter_append, List.filter_append,
        List.append_assoc]
  | remember type result _ ih => exact ih
  | question hq _ ih => rw [ih, List.filter_append, List.filter_singleton, hq]; simp

/-- No question is put on account of a known class. -/
theorem answeredAbout_of_knows (h : Advances b s visits u) (hc : s.Knows c) :
    answeredAbout b c visits = [] := by
  induction h with
  | done s => rfl
  | @visit _ t u v visits hv _ ih =>
      rw [answeredAbout_cons, ih (hv.knows hc), List.append_nil]
      split
      · next htarget =>
        rw [(hv.of_knows (htarget ▸ hc)).2, List.filter_nil]
      · rfl
  | remember type result _ ih => exact ih hc
  | question hq _ ih => exact ih hc

/-- **The answered questions on account of a class.** There is the one behind the class if the class
has become known, and otherwise there is none. -/
theorem answeredAbout_eq (h : Advances b s visits u) (hc : ¬ s.Knows c) :
    answeredAbout b c visits = if u.Knows c then b.questionAbout c else [] := by
  induction h with
  | done s => rw [if_neg hc]; rfl
  | @visit s t u v visits hv hmore ih =>
      rw [answeredAbout_cons]
      by_cases htarget : v.target = c
      · subst htarget
        rw [if_pos rfl]
        rcases hv.of_not_knows hc with ⟨hasked, hknows⟩ | ⟨-, hasked, hknows⟩
        · -- Answered: the class is known from now on, and nothing is asked any more.
          have ht : t.Knows v.target := (hknows _).mpr (.inl rfl)
          rw [hasked, hmore.answeredAbout_of_knows ht, List.append_nil, if_pos (hmore.knows ht)]
        · rw [hasked, List.nil_append, ih fun ht => hc ((hknows _).mp ht)]
      · have ht : ¬ t.Knows c := by
          by_cases hknown : s.Knows v.target
          · rwa [(hv.of_knows hknown).1]
          · rcases hv.of_not_knows hknown with ⟨-, hknows⟩ | ⟨-, -, hknows⟩
            · exact fun ht => ((hknows c).mp ht).elim htarget hc
            · exact fun ht => hc ((hknows c).mp ht)
        rw [if_neg htarget, List.nil_append, ih ht]
  | remember type result _ ih => exact ih hc
  | question hq _ ih => exact ih hc

end Advances

end Pass

end BodyCache
