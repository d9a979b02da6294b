import Mathlib.Data.List.Induction
import Mathlib.Logic.Function.Basic
import BodyCache.Proofs.Cache.Session

/-!
# One Verdict for Each Module

Lookups run at the same time and judge modules at the same time. Judging a module takes three steps
(`BodyCache.Freshness`), and between two steps of a call other calls take theirs, and files are
changed, deleted or made. Two calls may both find nothing settled and then inspect different
contents, or even different paths, of one module.

This module lets any number of calls take their steps in any order. A *schedule* is the list of what
happens, one step of one call or one change of the files at a time. The calls agree in spite of all
that, because settling returns the verdict that stays: whatever a call returns is the settled
verdict, and a settled verdict never changes. A favourable verdict goes back to an inspection that
found the recorded fingerprint.

## Main results

* `SessionState.run_turns`: the steps of a call, taken without interruption, are `Freshness.judge`.
* `SessionState.exists_returned`: a call returns with its third step at the latest.
* `SessionState.agreesOn_run_filter`: what concerns one name is not affected by calls on others.
* `SessionState.verdict_unique`: one verdict for each name, and where a favourable one comes from.
-/

namespace BodyCache

/-- How far a call has come that judges a module. -/
inductive Progress where
  /-- The call has been made. -/
  | called
  /-- It has found nothing settled. -/
  | unsettled
  /-- It has inspected the file. -/
  | inspected (verdict : Bool)
  /-- It has returned. -/
  | returned (verdict : Bool)

namespace Progress

/-- The number of steps that a call has behind it. A call that finds a settled verdict skips two. -/
def steps : Progress → Nat
  | .called => 0
  | .unsettled => 1
  | .inspected _ => 2
  | .returned _ => 3

/-- A call with three steps behind it has returned. -/
theorem exists_eq_returned {p : Progress} (h : 3 ≤ p.steps) : ∃ verdict, p = .returned verdict := by
  cases p with
  | returned verdict => exact ⟨verdict, rfl⟩
  | called | unsettled | inspected => simp [steps] at h

end Progress

namespace Freshness

/-- What a map records about modules, with nothing judged yet. -/
def ofMap (m : SymbolMap) : Freshness :=
  .ofRecords (m.modules.map fun e => (e.name, e.fingerprint))

/-- A cache that is opened judges modules by what the map of its snapshot records. -/
theorem freshness_ofSnapshot (s : Snapshot) :
    (Cache.ofSnapshot s).freshness = .ofMap s.map.map :=
  rfl

/-- The next step of a call on a module: what is known about modules after it, and how far the call
has come. -/
def advance (f : Freshness) (files : FileTree) (m : SourceModule) :
    Progress → Freshness × Progress
  | .called =>
    match f.settled? m.name with
    | some verdict => (f, .returned verdict)
    | none => (f, .unsettled)
  | .unsettled => (f, .inspected (f.inspect files m).1)
  | .inspected verdict => ((f.settle m.name verdict).2, .returned (f.settle m.name verdict).1)
  | .returned verdict => (f, .returned verdict)

variable {f g : Freshness} {files : FileTree} {m : SourceModule} {p : Progress}

/-! ### One step of a call -/

/-- A settled verdict stays when a verdict is settled. -/
theorem settled?_settle_of_settled {name other : String} {verdict : Bool} (v : Bool)
    (h : f.settled? name = some verdict) : (f.settle other v).2.settled? name = some verdict := by
  by_cases hname : other = name
  · subst hname
    have hfind : f.verdicts.find? other = some verdict := h
    rw [settled?_settle_self, settle, hfind]
  · rw [settled?_settle_of_ne f v hname]
    exact h

/-- What settling does to the verdict on its name depends on that verdict only. -/
theorem settle_congr {name : String} (v : Bool) (h : f.settled? name = g.settled? name) :
    (f.settle name v).1 = (g.settle name v).1 := by
  have hfind : f.verdicts.find? name = g.verdicts.find? name := h
  rw [settle, settle, hfind]
  split <;> rfl

/-- A step leaves the recorded fingerprints. -/
theorem recorded_advance : (f.advance files m p).1.recorded = f.recorded := by
  cases p with
  | called =>
      rw [advance]
      split <;> rfl
  | unsettled => rfl
  | inspected v => exact recorded_settle f m.name v
  | returned => rfl

/-- A step leaves the verdicts on other names. -/
theorem settled?_advance_of_ne {name : String} (h : m.name ≠ name) :
    (f.advance files m p).1.settled? name = f.settled? name := by
  cases p with
  | called =>
      rw [advance]
      split <;> rfl
  | unsettled => rfl
  | inspected v => exact settled?_settle_of_ne f v h
  | returned => rfl

/-- A step leaves every verdict that is settled. -/
theorem settled?_advance_of_settled {name : String} {verdict : Bool}
    (h : f.settled? name = some verdict) :
    (f.advance files m p).1.settled? name = some verdict := by
  cases p with
  | called =>
      rw [advance]
      split <;> exact h
  | unsettled => exact h
  | inspected v => exact settled?_settle_of_settled v h
  | returned => exact h

/-- A step that returns a verdict leaves it settled, if this was so for a call that has returned. -/
theorem settled?_of_advance_eq_returned {verdict : Bool}
    (hp : ∀ v, p = .returned v → f.settled? m.name = some v)
    (h : (f.advance files m p).2 = .returned verdict) :
    (f.advance files m p).1.settled? m.name = some verdict := by
  cases p with
  | called =>
      rw [advance] at h ⊢
      cases hsettled : f.settled? m.name with
      | some v =>
          rw [hsettled] at h
          cases h
          exact hsettled
      | none =>
          rw [hsettled] at h
          cases h
  | unsettled => cases h
  | inspected v =>
      cases h
      exact settled?_settle_self f m.name v
  | returned v =>
      cases h
      exact hp verdict rfl

/-- A step leaves a favourable verdict that was settled before, or else settles the favourable
result of an inspection. -/
theorem of_settled?_advance_eq_false {name : String}
    (h : (f.advance files m p).1.settled? name = some false) :
    f.settled? name = some false ∨ m.name = name ∧ p = .inspected false := by
  cases p with
  | called =>
      rw [advance] at h
      split at h <;> exact .inl h
  | unsettled => exact .inl h
  | returned => exact .inl h
  | inspected v =>
      by_cases hname : m.name = name
      · subst hname
        rw [advance, settled?_settle_self] at h
        cases hsettled : f.verdicts.find? m.name with
        | some earlier =>
            rw [settle, hsettled] at h
            exact .inl (hsettled.trans h)
        | none =>
            rw [settle, hsettled] at h
            obtain rfl : v = false := Option.some.inj h
            exact .inr ⟨rfl, rfl⟩
      · rw [settled?_advance_of_ne hname] at h
        exact .inl h

/-- Only an inspection has a favourable result. -/
theorem of_advance_eq_inspected_false (h : (f.advance files m p).2 = .inspected false) :
    p = .unsettled ∧ (f.inspect files m).1 = false := by
  cases p with
  | called =>
      rw [advance] at h
      split at h <;> cases h
  | unsettled => exact ⟨rfl, Progress.inspected.inj h⟩
  | inspected => cases h
  | returned => cases h

/-- Three steps in a row are a judgement. -/
theorem advance_advance_advance (f : Freshness) (files : FileTree) (m : SourceModule) :
    let first := f.advance files m .called
    let second := first.1.advance files m first.2
    second.1.advance files m second.2 =
      ((f.judge files m).freshness, .returned (f.judge files m).modified) := by
  cases hsettled : f.settled? m.name with
  | some verdict => simp only [advance, hsettled, judge_of_settled hsettled]
  | none => simp only [advance, hsettled, judge]

/-- A step brings a call at least one step on, until it has returned. -/
theorem steps_advance (f : Freshness) (files : FileTree) (m : SourceModule) (p : Progress) :
    min 3 (p.steps + 1) ≤ (f.advance files m p).2.steps := by
  cases p with
  | called =>
      rw [advance]
      split <;> simp [Progress.steps]
  | unsettled | inspected | returned => simp [advance, Progress.steps]

/-- What a step does to its call, and to the verdict on its name, depends on the recorded
fingerprints and on the verdict on its name only. -/
theorem advance_congr (files : FileTree) (p : Progress) (hrecorded : f.recorded = g.recorded)
    (hsettled : f.settled? m.name = g.settled? m.name) :
    (f.advance files m p).2 = (g.advance files m p).2 ∧
      (f.advance files m p).1.settled? m.name = (g.advance files m p).1.settled? m.name := by
  cases p with
  | called =>
      rw [advance, advance, hsettled]
      cases hg : g.settled? m.name with
      | some v => exact ⟨rfl, hsettled⟩
      | none => exact ⟨rfl, hsettled⟩
  | unsettled =>
      rw [advance, advance, inspect_congr hrecorded]
      exact ⟨rfl, hsettled⟩
  | inspected v =>
      simp only [advance, settled?_settle_self, settle_congr v hsettled, and_self]
  | returned => exact ⟨rfl, hsettled⟩

end Freshness

/-! ### Schedules -/

/-- A moment of a session: what is known about modules, the files, and how far each call has come.
The calls are numbered. -/
structure SessionState where
  freshness : Freshness
  files : FileTree
  progress : Nat → Progress

/-- What happens in a session. -/
inductive SessionEvent where
  /-- A call takes its next step. -/
  | turn (call : Nat)
  /-- The files become other ones. -/
  | change (files : FileTree)

/-- Whether an event may concern a name: every change of the files may. -/
def SessionEvent.concerns (calls : Nat → SourceModule) (name : String) : SessionEvent → Bool
  | .turn i => (calls i).name = name
  | .change _ => true

/-- Whether an event is a step of a given call. -/
def SessionEvent.isTurnOf (i : Nat) : SessionEvent → Bool
  | .turn j => j = i
  | .change _ => false

namespace SessionState

variable (calls : Nat → SourceModule)

/-- The beginning of a session, with all calls yet to take their first step. -/
def start (f : Freshness) (files : FileTree) : SessionState := ⟨f, files, fun _ => .called⟩

/-- What an event leads to. The calls are given by their modules. -/
def step (s : SessionState) : SessionEvent → SessionState
  | .turn i =>
    let next := s.freshness.advance s.files (calls i) (s.progress i)
    { s with freshness := next.1, progress := Function.update s.progress i next.2 }
  | .change files => { s with files }

/-- What a schedule leads to. -/
def run (s : SessionState) (schedule : List SessionEvent) : SessionState :=
  schedule.foldl (step calls) s

variable {calls} {s t : SessionState} {f : Freshness} {files : FileTree}
  {schedule : List SessionEvent}

/-- A schedule ends with its last event. -/
theorem run_concat (s : SessionState) (schedule : List SessionEvent) (e : SessionEvent) :
    run calls s (schedule ++ [e]) = (run calls s schedule).step calls e := by
  simp [run]

/-- A schedule that comes after another one starts where that one ends. -/
theorem run_append (s : SessionState) (earlier later : List SessionEvent) :
    run calls s (earlier ++ later) = run calls (run calls s earlier) later :=
  List.foldl_append

/-- After its step, a call is where the step leads. -/
theorem progress_turn_self (s : SessionState) (i : Nat) :
    (s.step calls (.turn i)).progress i =
      (s.freshness.advance s.files (calls i) (s.progress i)).2 :=
  Function.update_self ..

/-- The step of one call leaves the other calls where they are. -/
theorem progress_turn_of_ne (s : SessionState) {i j : Nat} (h : j ≠ i) :
    (s.step calls (.turn i)).progress j = s.progress j :=
  Function.update_of_ne h ..

/-! ### Calls without interruption -/

/-- **The steps of a call, taken without interruption, judge the module.** -/
theorem run_turns (s : SessionState) (i : Nat) (h : s.progress i = .called) :
    let judgement := s.freshness.judge s.files (calls i)
    let after := run calls s [.turn i, .turn i, .turn i]
    after.progress i = .returned judgement.modified ∧ after.freshness = judgement.freshness := by
  intro judgement after
  -- A turn leads the call, and what is known, to where the step leads; the files stay.
  have hturn (u : SessionState) (p : Progress) (hp : u.progress i = p)
      (hfiles : u.files = s.files) :
      let next := u.freshness.advance s.files (calls i) p
      let v := u.step calls (.turn i)
      v.progress i = next.2 ∧ v.freshness = next.1 ∧ v.files = s.files := by
    intro next v
    have hnext : next = u.freshness.advance u.files (calls i) (u.progress i) := by
      rw [hp, hfiles]
    exact ⟨hnext ▸ progress_turn_self u i, hnext ▸ rfl, hfiles⟩
  obtain ⟨hp₁, hf₁, hfiles₁⟩ := hturn s .called h rfl
  obtain ⟨hp₂, hf₂, hfiles₂⟩ := hturn _ _ hp₁ hfiles₁
  obtain ⟨hp₃, hf₃, -⟩ := hturn _ _ hp₂ hfiles₂
  rw [hf₂, hf₁, Freshness.advance_advance_advance] at hp₃ hf₃
  exact ⟨hp₃, hf₃⟩

/-- A call has taken as many steps as it had turns, or has returned. -/
theorem countP_isTurnOf_le (s : SessionState) (schedule : List SessionEvent) (i : Nat) :
    min 3 (schedule.countP (·.isTurnOf i)) ≤ ((run calls s schedule).progress i).steps := by
  induction schedule using List.reverseRecOn with
  | nil => simp
  | append_singleton schedule e ih =>
      rw [run_concat, List.countP_append, List.countP_singleton]
      cases e with
      | turn j =>
          by_cases hj : j = i
          · subst hj
            have hstep := Freshness.steps_advance (run calls s schedule).freshness
              (run calls s schedule).files (calls j) ((run calls s schedule).progress j)
            rw [progress_turn_self]
            have hone : (SessionEvent.turn j).isTurnOf j = true := decide_eq_true rfl
            rw [if_pos hone]
            omega
          · rw [progress_turn_of_ne _ (Ne.symm hj)]
            simpa [SessionEvent.isTurnOf, hj] using ih
      | change files => exact ih

/-- **Every call returns** with its third step at the latest, whatever happens in between. -/
theorem exists_returned (s : SessionState) {i : Nat}
    (h : 3 ≤ schedule.countP (·.isTurnOf i)) :
    ∃ verdict, (run calls s schedule).progress i = .returned verdict := by
  refine Progress.exists_eq_returned ?_
  have hle : min 3 (schedule.countP (·.isTurnOf i)) ≤ ((run calls s schedule).progress i).steps :=
    countP_isTurnOf_le s schedule i
  omega

/-! ### What stays -/

/-- What every event keeps, a schedule keeps. -/
theorem run_induction {P : SessionState → Prop} (hs : P s)
    (hstep : ∀ t, P t → ∀ e, P (t.step calls e)) (schedule : List SessionEvent) :
    P (run calls s schedule) := by
  induction schedule using List.reverseRecOn with
  | nil => exact hs
  | append_singleton schedule e ih =>
      rw [run_concat]
      exact hstep _ ih e

/-- An event leaves the recorded fingerprints. -/
theorem recorded_step (s : SessionState) (e : SessionEvent) :
    (s.step calls e).freshness.recorded = s.freshness.recorded := by
  cases e with
  | turn => exact Freshness.recorded_advance
  | change => rfl

/-- An event leaves a settled verdict. -/
theorem settled?_step {name : String} {verdict : Bool}
    (h : s.freshness.settled? name = some verdict) (e : SessionEvent) :
    (s.step calls e).freshness.settled? name = some verdict := by
  cases e with
  | turn => exact Freshness.settled?_advance_of_settled h
  | change => exact h

/-- An event leaves what a call has returned. -/
theorem progress_step {i : Nat} {verdict : Bool} (h : s.progress i = .returned verdict)
    (e : SessionEvent) : (s.step calls e).progress i = .returned verdict := by
  cases e with
  | turn j =>
      by_cases hj : j = i
      · rw [hj, progress_turn_self, h]
        rfl
      · rw [progress_turn_of_ne _ (Ne.symm hj), h]
  | change => exact h

/-- A schedule leaves the recorded fingerprints. -/
theorem recorded_run (s : SessionState) (schedule : List SessionEvent) :
    (run calls s schedule).freshness.recorded = s.freshness.recorded :=
  run_induction (P := fun t => t.freshness.recorded = s.freshness.recorded) rfl
    (fun t ht e => (recorded_step t e).trans ht) schedule

/-- A settled verdict stays for the rest of a session. -/
theorem settled?_run {name : String} {verdict : Bool}
    (h : s.freshness.settled? name = some verdict) (schedule : List SessionEvent) :
    (run calls s schedule).freshness.settled? name = some verdict :=
  run_induction (P := fun t => t.freshness.settled? name = some verdict) h
    (fun _ => settled?_step) schedule

/-- What a call has returned stays for the rest of a session. -/
theorem progress_run {i : Nat} {verdict : Bool} (h : s.progress i = .returned verdict)
    (schedule : List SessionEvent) :
    (run calls s schedule).progress i = .returned verdict :=
  run_induction (P := fun t => t.progress i = .returned verdict) h (fun _ => progress_step) schedule

/-- Whatever the calls have returned is settled. -/
def ReturnsSettled (calls : Nat → SourceModule) (s : SessionState) : Prop :=
  ∀ i v, s.progress i = .returned v → s.freshness.settled? (calls i).name = some v

/-- An event keeps what the calls have returned settled. -/
theorem ReturnsSettled.step (h : ReturnsSettled calls s) (e : SessionEvent) :
    ReturnsSettled calls (s.step calls e) := by
  intro i v hv
  cases e with
  | turn j =>
      by_cases hj : j = i
      · subst hj
        rw [progress_turn_self] at hv
        exact Freshness.settled?_of_advance_eq_returned (h j) hv
      · rw [progress_turn_of_ne _ (Ne.symm hj)] at hv
        exact Freshness.settled?_advance_of_settled (h i v hv)
  | change => exact h i v hv

/-- **A call returns the settled verdict.** -/
theorem settled?_of_returned {i : Nat} {verdict : Bool}
    (h : (run calls (start f files) schedule).progress i = .returned verdict) :
    (run calls (start f files) schedule).freshness.settled? (calls i).name = some verdict := by
  have hstart : ReturnsSettled calls (start f files) := fun _ _ hv => nomatch hv
  exact run_induction hstart (fun _ ht => ht.step) schedule i verdict h

/-! ### Favourable verdicts -/

/-- In the course of a schedule, a call on a name inspected its file and found the recorded
fingerprint. -/
def Confirmed (calls : Nat → SourceModule) (s : SessionState) (schedule : List SessionEvent)
    (name : String) : Prop :=
  ∃ before i after fingerprint content,
    schedule = before ++ .turn i :: after ∧ (calls i).name = name ∧
      (run calls s before).progress i = .unsettled ∧
      (run calls s before).files.read (calls i).path = .ok content ∧
      s.freshness.recorded.find? name = some fingerprint ∧
      Fingerprint.ofContent content = fingerprint

/-- What was confirmed stays so when more happens. -/
theorem Confirmed.append {name : String} (h : Confirmed calls s schedule name)
    (later : List SessionEvent) : Confirmed calls s (schedule ++ later) name := by
  obtain ⟨before, i, after, fingerprint, content, rfl, h⟩ := h
  exact ⟨before, i, after ++ later, fingerprint, content, by simp, h⟩

/-- An inspection with a favourable result confirms its name. -/
theorem confirmed_of_inspect {i : Nat} (hprogress : (run calls s schedule).progress i = .unsettled)
    (h : ((run calls s schedule).freshness.inspect (run calls s schedule).files (calls i)).1 =
      false) : Confirmed calls s (schedule ++ [.turn i]) (calls i).name := by
  obtain ⟨fingerprint, content, hrecorded, hread, hcontent⟩ :=
    Freshness.inspect_fst_eq_false_iff.mp h
  rw [recorded_run] at hrecorded
  exact ⟨schedule, i, [], fingerprint, content, rfl, rfl, hprogress, hread, hrecorded, hcontent⟩

/-- A name is confirmed when an inspection of it has a favourable result, and when a favourable
verdict is settled on it. -/
theorem confirmed_run (hf : ∀ name, f.settled? name = none) (schedule : List SessionEvent) :
    let s := run calls (start f files) schedule
    (∀ i, s.progress i = .inspected false →
        Confirmed calls (start f files) schedule (calls i).name) ∧
      ∀ name, s.freshness.settled? name = some false →
        Confirmed calls (start f files) schedule name := by
  intro s
  induction schedule using List.reverseRecOn with
  | nil =>
      refine ⟨fun i h => (nomatch h), fun name h => ?_⟩
      cases (hf name).symm.trans h
  | append_singleton schedule e ih =>
      obtain ⟨hinspected, hsettled⟩ := ih
      have hs : s = (run calls (start f files) schedule).step calls e := run_concat ..
      rw [hs]
      cases e with
      | change files' =>
          exact ⟨fun i h => (hinspected i h).append _, fun name h => (hsettled name h).append _⟩
      | turn j =>
          refine ⟨fun i h => ?_, fun name h => ?_⟩
          · by_cases hj : i = j
            · subst hj
              rw [progress_turn_self] at h
              obtain ⟨hprogress, hinspect⟩ := Freshness.of_advance_eq_inspected_false h
              exact confirmed_of_inspect hprogress hinspect
            · rw [progress_turn_of_ne _ hj] at h
              exact (hinspected i h).append _
          · obtain h | ⟨rfl, hprogress⟩ := Freshness.of_settled?_advance_eq_false h
            · exact (hsettled name h).append _
            · exact (hinspected j hprogress).append _

/-! ### Other names -/

/-- Two moments agree on a name: the same is recorded, the files are the same, and the verdict and
the calls on the name are. -/
structure AgreesOn (calls : Nat → SourceModule) (name : String) (s t : SessionState) : Prop where
  recorded : s.freshness.recorded = t.freshness.recorded
  files : s.files = t.files
  settled : s.freshness.settled? name = t.freshness.settled? name
  progress : ∀ i, (calls i).name = name → s.progress i = t.progress i

/-- An event that concerns the name keeps two moments in agreement. -/
theorem AgreesOn.step {name : String} (h : AgreesOn calls name s t) {e : SessionEvent}
    (he : e.concerns calls name = true) :
    AgreesOn calls name (s.step calls e) (t.step calls e) := by
  cases e with
  | change files => exact ⟨h.recorded, rfl, h.settled, h.progress⟩
  | turn i =>
      obtain rfl : (calls i).name = name := of_decide_eq_true he
      obtain ⟨hprogress, hsettled⟩ :=
        Freshness.advance_congr t.files (t.progress i) h.recorded h.settled
      refine ⟨?_, h.files, ?_, fun j hj => ?_⟩
      · rw [recorded_step, recorded_step, h.recorded]
      · simp only [SessionState.step, h.files, h.progress i rfl]
        exact hsettled
      · by_cases hij : j = i
        · subst hij
          rw [progress_turn_self, progress_turn_self, h.files, h.progress j rfl]
          exact hprogress
        · rw [progress_turn_of_ne _ hij, progress_turn_of_ne _ hij]
          exact h.progress j hj

/-- An event that does not concern the name can be left out. -/
theorem AgreesOn.step_left {name : String} (h : AgreesOn calls name s t) {e : SessionEvent}
    (he : e.concerns calls name = false) : AgreesOn calls name (s.step calls e) t := by
  cases e with
  | change files => cases he
  | turn i =>
      have hi : (calls i).name ≠ name := of_decide_eq_false he
      refine ⟨(recorded_step s _).trans h.recorded, h.files, ?_, fun j hj => ?_⟩
      · exact (Freshness.settled?_advance_of_ne hi).trans h.settled
      · have hji : j ≠ i := fun hji => hi (hji ▸ hj)
        rw [progress_turn_of_ne _ hji]
        exact h.progress j hj

/-- **What concerns a name is not affected by calls on other names**: it is the same without
them. -/
theorem agreesOn_run_filter (s : SessionState) (schedule : List SessionEvent) (name : String) :
    AgreesOn calls name (run calls s schedule)
      (run calls s (schedule.filter (·.concerns calls name))) := by
  induction schedule using List.reverseRecOn with
  | nil => exact ⟨rfl, rfl, rfl, fun _ _ => rfl⟩
  | append_singleton schedule e ih =>
      rw [run_concat, List.filter_append]
      cases he : e.concerns calls name with
      | true =>
          rw [List.filter_cons_of_pos he, List.filter_nil, run_concat]
          exact ih.step he
      | false =>
          rw [List.filter_cons_of_neg (by simp [he]), List.filter_nil, List.append_nil]
          exact ih.step_left he

/-! ### One verdict -/

/-- **One verdict for each module and session.** Let any calls take their steps in any order, while
the files are changed in any way. Then

* calls that have returned agree if their modules have the same name, whatever the paths are;
* a settled verdict and a returned one stay as they are, and what was returned is settled;
* verdicts and calls on a name are as if there were no calls on other names;
* a call returns a favourable verdict only after some call on the same name read a content with the
  fingerprint that the last entry of the name in the map has. -/
theorem verdict_unique (m : SymbolMap) (files : FileTree) (calls : Nat → SourceModule)
    (schedule : List SessionEvent) :
    let after := run calls (start (.ofMap m) files)
    (∀ i j v w, (calls i).name = (calls j).name →
        (after schedule).progress i = .returned v →
        (after schedule).progress j = .returned w → v = w) ∧
      (∀ earlier later, schedule = earlier ++ later →
        (∀ name v, (after earlier).freshness.settled? name = some v →
          (after schedule).freshness.settled? name = some v) ∧
        ∀ i v, (after earlier).progress i = .returned v →
          (after schedule).progress i = .returned v ∧
            (after earlier).freshness.settled? (calls i).name = some v) ∧
      (∀ name, AgreesOn calls name (after schedule)
        (after (schedule.filter (·.concerns calls name)))) ∧
      ∀ i, (after schedule).progress i = .returned false →
        ∃ before j rest entry content,
          schedule = before ++ .turn j :: rest ∧ (calls j).name = (calls i).name ∧
            (after before).progress j = .unsettled ∧
            (after before).files.read (calls j).path = .ok content ∧
            m.modules.reverse.find? (fun e => e.name = (calls i).name) = some entry ∧
            m.index.fingerprint? (calls i).name = some entry.fingerprint ∧
            Fingerprint.ofContent content = entry.fingerprint := by
  intro after
  refine ⟨fun i j v w hname hi hj => ?_, ?_, fun name => agreesOn_run_filter _ schedule name,
    fun i hi => ?_⟩
  · have hv := settled?_of_returned hi
    have hw := settled?_of_returned hj
    rw [hname, hw] at hv
    exact (Option.some.inj hv).symm
  · rintro earlier later rfl
    have happend : after (earlier ++ later) = run calls (after earlier) later := run_append ..
    rw [happend]
    exact ⟨fun name v h => settled?_run h later,
      fun i v h => ⟨progress_run h later, settled?_of_returned h⟩⟩
  · obtain ⟨before, j, rest, fingerprint, content, hschedule, hname, hprogress, hread, hrecorded,
      hcontent⟩ := (confirmed_run (fun _ => rfl) schedule).2 _ (settled?_of_returned hi)
    have hfingerprint : m.index.fingerprint? (calls i).name = some fingerprint := by
      rw [SymbolMap.Index.fingerprint?, SymbolMap.fingerprints_index]
      exact hrecorded
    have hentry := hfingerprint
    rw [SymbolMap.fingerprint?_index, Option.map_eq_some_iff] at hentry
    obtain ⟨entry, hlast, rfl⟩ := hentry
    exact ⟨before, j, rest, entry, content, hschedule, hname, hprogress, hread, hlast,
      hfingerprint, hcontent⟩

/-- The calls of a race: all of them are about `Lib`. -/
def racing : Nat → SourceModule := fun _ => ⟨"Lib", ⟨"Lib.dll"⟩⟩

/-- A race: the file of `Lib` is deleted after one call has inspected it and before another one
does. -/
def race : List SessionEvent :=
  [.turn 0, .turn 1, .turn 0, .change .empty, .turn 1]

/-- In the race two calls come to opposite results; they return the one that is settled first. -/
theorem verdict_unique_race :
    let s := start (.ofMap Supplanted.map) Supplanted.files
    (run racing s race).progress 0 = .inspected false ∧
      (run racing s race).progress 1 = .inspected true ∧
      (run racing s (race ++ [.turn 1, .turn 0])).progress 0 = .returned true := by
  intro s
  have hinspect : ((Freshness.ofMap Supplanted.map).inspect Supplanted.files (racing 0)).1 =
      false :=
    Freshness.inspect_fst_eq_false_iff.mpr ⟨_, Supplanted.libContent, rfl, rfl, rfl⟩
  have hzero : (run racing s race).progress 0 = .inspected
      ((Freshness.ofMap Supplanted.map).inspect Supplanted.files (racing 0)).1 := rfl
  have hone : (run racing s (race ++ [.turn 1, .turn 0])).progress 1 = .returned true := rfl
  obtain ⟨verdict, hverdict⟩ :
      ∃ v, (run racing s (race ++ [.turn 1, .turn 0])).progress 0 = .returned v :=
    exists_returned s (by decide)
  obtain ⟨hagree, -⟩ :=
    verdict_unique Supplanted.map Supplanted.files racing (race ++ [.turn 1, .turn 0])
  obtain rfl := hagree 0 1 verdict true rfl hverdict hone
  exact ⟨hzero.trans (congrArg _ hinspect), rfl, hverdict⟩

end SessionState

end BodyCache
