import Mathlib.Data.List.Perm.Basic
import BodyCache.Proofs.Cache.Attribution

/-!
# Lookups of a Session Are Independent

A session is a series of calls on one cache. Calls leave something behind: a verdict for every
module that is judged, and the counts. Neither can be seen by the calls that follow. The invariant
is that the verdicts are sound: a verdict that is settled on a module is the one that inspecting its
file gives. It holds as long as the files stay as they are and no two modules share a name, and with
it the answer of every call is the one that is given without any memory.

## Main results

* `Freshness.sound_judge`: judging a module keeps the verdicts sound.
* `Cache.answer_of_sound`: with sound verdicts the answer is the one without memory.
* `Cache.inSession_call`: what a call leaves behind cannot be seen.
* `Cache.session_independent`: all calls of a session, in any order, answer as if each were the
  first, and the counted ones are counted.
-/

namespace BodyCache

/-! ### Verdicts -/

/-- A module is given by its name and its path. -/
theorem SourceModule.ext {m m' : SourceModule} (hname : m.name = m'.name)
    (hpath : m.path = m'.path) : m = m' := by
  cases m
  cases m'
  cases hname
  cases hpath
  rfl

namespace Freshness

variable {f f' : Freshness} {files : FileTree} {ms : List SourceModule} {m : SourceModule}

/-- Every verdict that is settled on one of the modules is the one that inspecting its file
gives. -/
def Sound (f : Freshness) (files : FileTree) (ms : List SourceModule) : Prop :=
  ∀ m ∈ ms, ∀ verdict, f.settled? m.name = some verdict → verdict = (f.inspect files m).1

/-- An inspection depends on the recorded fingerprints only. -/
theorem inspect_congr (h : f'.recorded = f.recorded) (files : FileTree) (m : SourceModule) :
    f'.inspect files m = f.inspect files m := by
  rw [inspect, inspect, h]

/-- A verdict that is settled stands, and nothing is inspected. -/
theorem judge_of_settled {verdict : Bool} (h : f.settled? m.name = some verdict)
    (files : FileTree) : f.judge files m = ⟨verdict, none, f⟩ := by
  rw [judge, h]

/-- Without a settled verdict, the file is inspected, and what that gives is settled. -/
theorem judge_of_not_settled (h : f.settled? m.name = none) (files : FileTree) :
    f.judge files m = ⟨(f.inspect files m).1, (f.inspect files m).2,
      (f.settle m.name (f.inspect files m).1).2⟩ := by
  have hnone : f.verdicts.find? m.name = none := h
  rw [judge, h]
  simp only [settle, hnone]

/-- Settling a verdict leaves the recorded fingerprints. -/
theorem recorded_settle (f : Freshness) (name : String) (verdict : Bool) :
    (f.settle name verdict).2.recorded = f.recorded := by
  rw [settle]
  split <;> rfl

/-- Judging a module leaves the recorded fingerprints. -/
theorem recorded_judge (f : Freshness) (files : FileTree) (m : SourceModule) :
    (f.judge files m).freshness.recorded = f.recorded := by
  cases hsettled : f.settled? m.name with
  | some verdict => rw [judge_of_settled hsettled]
  | none =>
      rw [judge_of_not_settled hsettled]
      exact recorded_settle f m.name _

/-- With sound verdicts, a module is judged as its file is inspected. -/
theorem modified_judge (h : f.Sound files ms) (hm : m ∈ ms) :
    (f.judge files m).modified = (f.inspect files m).1 := by
  cases hsettled : f.settled? m.name with
  | some verdict =>
      rw [judge_of_settled hsettled]
      exact h m hm verdict hsettled
  | none => rw [judge_of_not_settled hsettled]

/-- **Judging a module keeps the verdicts sound** if its name stands for no other module. -/
theorem sound_judge (h : f.Sound files ms) (hm : m ∈ ms)
    (hpath : ∀ other ∈ ms, other.name = m.name → other.path = m.path) :
    (f.judge files m).freshness.Sound files ms := by
  intro other hother verdict hverdict
  rw [inspect_congr (recorded_judge f files m)]
  cases hsettled : f.settled? m.name with
  | some earlier =>
      rw [judge_of_settled hsettled] at hverdict
      exact h other hother verdict hverdict
  | none =>
      rw [judge_of_not_settled hsettled] at hverdict
      by_cases hname : other.name = m.name
      · obtain rfl : other = m := SourceModule.ext hname (hpath other hother hname)
        have hnone : f.verdicts.find? other.name = none := hsettled
        rw [settled?_settle_self, settle, hnone] at hverdict
        exact (Option.some.inj hverdict).symm
      · rw [settled?_settle_of_ne _ _ (Ne.symm hname)] at hverdict
        exact h other hother verdict hverdict

end Freshness

/-! ### Calls -/

/-- A call on a cache: a request, and whether it is counted. -/
structure Call where
  request : Request
  counted : Bool

namespace Call

/-- The modules that the calls are about. -/
def sources (calls : List Call) : List SourceModule := calls.filterMap (·.request.source)

/-- The module of a call is one of those that the calls are about. -/
theorem mem_sources {calls : List Call} {k : Call} {m : SourceModule} (hk : k ∈ calls)
    (hm : k.request.source = some m) : m ∈ sources calls :=
  List.mem_filterMap.mpr ⟨k, hk, hm⟩

end Call

namespace Cache

/-- What a call gives. -/
def call (c : Cache) (files : FileTree) (k : Call) : Result :=
  if k.counted then c.lookup files k.request else c.outcome files k.request

/-- What the calls of a session give, one after the other, and the cache after them. -/
def session (files : FileTree) : Cache → List Call → List Result × Cache
  | c, [] => ([], c)
  | c, k :: calls =>
    let first := c.call files k
    let rest := session files first.cache calls
    (first :: rest.1, rest.2)

/-- A cache before its first call: nothing is settled, nothing is counted. -/
structure Fresh (c : Cache) : Prop where
  verdicts : ∀ name, c.freshness.settled? name = none
  hits : c.hits = 0
  misses : c.misses = 0

/-- A disabled cache is fresh. -/
theorem fresh_disabled : Fresh disabled := ⟨fun _ => rfl, rfl, rfl⟩

/-- A cache over a snapshot is fresh. -/
theorem fresh_ofSnapshot (s : Snapshot) : Fresh (ofSnapshot s) := ⟨fun _ => rfl, rfl, rfl⟩

/-- A cache is fresh when it is opened. -/
theorem fresh_of_open {memory : Nat} {files : FileTree} {p : SnapshotPaths} {c : Cache}
    {notices : List Notice} (h : Cache.open memory files p = .ok (c, notices)) : Fresh c := by
  rw [Cache.open] at h
  split at h
  · cases h
    exact fresh_disabled
  · split at h
    · cases h
      exact fresh_ofSnapshot _
    · cases h
      exact fresh_disabled
    · cases h

/-! ### Answers without memory -/

/-- The answer to a request that is given without any memory of verdicts. -/
def answer (c : Cache) (files : FileTree) (r : Request) : Answer :=
  if r.scope.isSentinel then { outcome := .miss .noScope }
  else
    match c.snapshot, r.source with
    | none, _ => { outcome := .miss .disabled }
    | some _, none => { outcome := .miss .moduleModified }
    | some s, some m =>
      if (c.freshness.inspect files m).1 then { outcome := .miss .moduleModified }
      else s.answer r m.name

/-- The answer in a result. -/
def Result.answer (r : Result) : Answer := ⟨r.outcome, r.queries⟩

variable {c c' : Cache} {files : FileTree} {ms : List SourceModule} {r : Request} {k : Call}

/-- **With sound verdicts the answer is the one without memory.** -/
theorem answer_of_sound (h : c.freshness.Sound files ms) (hm : ∀ m, r.source = some m → m ∈ ms) :
    (c.outcome files r).answer = c.answer files r := by
  rw [outcome, answer]
  by_cases hscope : r.scope.isSentinel = true
  · rw [if_pos hscope, if_pos hscope]
    rfl
  rw [if_neg hscope, if_neg hscope]
  cases c.snapshot with
  | none => rfl
  | some s =>
      simp only [consult]
      cases hsource : r.source with
      | none => rfl
      | some m =>
          simp only [Freshness.modified_judge h (hm m hsource)]
          by_cases hmodified : (c.freshness.inspect files m).1 = true
          · rw [if_pos hmodified, if_pos hmodified]
            rfl
          · rw [if_neg hmodified, if_neg hmodified]
            rfl

/-- Counting changes neither the outcome nor the questions. -/
theorem answer_call : (c.call files k).answer = (c.outcome files k.request).answer := by
  rw [call]
  split <;> rfl

/-- Counting does not change the outcome. -/
theorem outcome_call : (c.call files k).outcome = (c.outcome files k.request).outcome :=
  congrArg Answer.outcome answer_call

/-- A lookup hands out an entry exactly when the outcome is a hit with that entry. -/
theorem entry?_lookup_eq_some_iff {e : CacheEntry} :
    (c.lookup files r).outcome.entry? = some e ↔ (c.outcome files r).outcome = .hit e := by
  have h : (c.lookup files r).outcome = (c.outcome files r).outcome := rfl
  rw [h]
  cases (c.outcome files r).outcome <;> simp [Outcome.entry?]

/-! ### What calls leave behind -/

/-- A lookup that is not counted leaves everything but the freshness, and that as it was or with one
more module judged. -/
theorem cache_outcome (c : Cache) (files : FileTree) (r : Request) :
    (c.outcome files r).cache = c ∨ ∃ m, r.source = some m ∧ (c.outcome files r).cache =
      { c with freshness := (c.freshness.judge files m).freshness } := by
  rw [outcome]
  by_cases hscope : r.scope.isSentinel = true
  · rw [if_pos hscope]
    exact .inl rfl
  rw [if_neg hscope]
  split
  · exact .inl rfl
  · rw [consult]
    cases hsource : r.source with
    | none => exact .inl rfl
    | some m =>
        refine .inr ⟨m, rfl, ?_⟩
        simp only
        split <;> rfl

/-- A call leaves what the lookup without counting leaves, with its result counted if it is. -/
theorem cache_call (c : Cache) (files : FileTree) (k : Call) :
    (c.call files k).cache =
      if k.counted then
        (c.outcome files k.request).cache.count
          (c.outcome files k.request).outcome.entry?.isSome
      else (c.outcome files k.request).cache := by
  rw [call]
  split <;> rfl

/-- Counting changes the counts only. -/
theorem count_eq (c : Cache) (hit : Bool) :
    (c.count hit).snapshot = c.snapshot ∧ (c.count hit).freshness = c.freshness := by
  cases hit <;> exact ⟨rfl, rfl⟩

/-- A later state of a cache, as far as answers are concerned: the snapshot and the recorded
fingerprints are the same, and the verdicts are sound. -/
structure InSession (files : FileTree) (ms : List SourceModule) (c c' : Cache) : Prop where
  snapshot : c'.snapshot = c.snapshot
  recorded : c'.freshness.recorded = c.freshness.recorded
  sound : c'.freshness.Sound files ms

/-- A session begins with a fresh cache. -/
theorem Fresh.inSession (h : c.Fresh) (files : FileTree) (ms : List SourceModule) :
    InSession files ms c c where
  snapshot := rfl
  recorded := rfl
  sound m _ verdict hverdict := by
    rw [h.verdicts m.name] at hverdict
    cases hverdict

/-- The answers without memory are the same throughout a session. -/
theorem InSession.answer_eq (h : InSession files ms c c') (r : Request) :
    c'.answer files r = c.answer files r := by
  rw [answer, answer, h.snapshot]
  simp only [Freshness.inspect_congr h.recorded]

/-- **What a call leaves behind cannot be seen**: the cache after it is a later state as well. -/
theorem inSession_call (h : InSession files ms c c')
    (hm : ∀ m, k.request.source = some m → m ∈ ms)
    (hpath : ∀ m ∈ ms, ∀ other ∈ ms, other.name = m.name → other.path = m.path) :
    InSession files ms c (c'.call files k).cache := by
  have houtcome : InSession files ms c (c'.outcome files k.request).cache := by
    obtain hsame | ⟨m, hsource, hjudged⟩ := cache_outcome c' files k.request
    · rw [hsame]
      exact h
    · have hmem := hm m hsource
      rw [hjudged]
      exact ⟨h.snapshot, (Freshness.recorded_judge _ files m).trans h.recorded,
        Freshness.sound_judge h.sound hmem (hpath m hmem)⟩
  rw [cache_call]
  split
  · obtain ⟨hsnapshot, hfreshness⟩ := count_eq (c'.outcome files k.request).cache
      (c'.outcome files k.request).outcome.entry?.isSome
    exact ⟨hsnapshot.trans houtcome.snapshot, hfreshness ▸ houtcome.recorded,
      hfreshness ▸ houtcome.sound⟩
  · exact houtcome

/-- The answers of a session are those without memory. -/
theorem answers_session {calls : List Call} (h : InSession files ms c c')
    (hm : ∀ k ∈ calls, ∀ m, k.request.source = some m → m ∈ ms)
    (hpath : ∀ m ∈ ms, ∀ other ∈ ms, other.name = m.name → other.path = m.path) :
    (c'.session files calls).1.map Result.answer =
      calls.map fun k => c.answer files k.request := by
  induction calls generalizing c' with
  | nil => rfl
  | cons k calls ih =>
      rw [List.forall_mem_cons] at hm
      have hnext := inSession_call h hm.1 hpath
      rw [session, List.map_cons, List.map_cons, ih hnext hm.2, answer_call,
        answer_of_sound h.sound hm.1, h.answer_eq]

/-! ### Counts -/

/-- Whether a call is counted as a hit when it is the first one. -/
def succeeds (c : Cache) (files : FileTree) (k : Call) : Bool :=
  k.counted && (c.answer files k.request).outcome.entry?.isSome

/-- A lookup that is not counted leaves the counts. -/
theorem counts_outcome (c : Cache) (files : FileTree) (r : Request) :
    (c.outcome files r).cache.hits = c.hits ∧ (c.outcome files r).cache.misses = c.misses := by
  obtain hsame | ⟨_, -, hjudged⟩ := cache_outcome c files r
  · rw [hsame]
    exact ⟨rfl, rfl⟩
  · rw [hjudged]
    exact ⟨rfl, rfl⟩

/-- One more can be counted while there is room. -/
theorem toNat_add_one {n : UInt64} (h : n.toNat + 1 < UInt64.size) :
    (n + 1).toNat = n.toNat + 1 := by
  rw [UInt64.toNat_add, UInt64.toNat_one]
  exact Nat.mod_eq_of_lt h

/-- A call is counted once or not at all, as what it is. -/
theorem counts_call (hroom : c'.hits.toNat + c'.misses.toNat + k.counted.toNat < UInt64.size)
    (hanswer : (c'.outcome files k.request).answer = c.answer files k.request) :
    (c'.call files k).cache.hits.toNat = c'.hits.toNat + (c.succeeds files k).toNat ∧
      (c'.call files k).cache.hits.toNat + (c'.call files k).cache.misses.toNat =
        c'.hits.toNat + c'.misses.toNat + k.counted.toNat := by
  obtain ⟨hhits, hmisses⟩ := counts_outcome c' files k.request
  have hentry : (c.answer files k.request).outcome = (c'.outcome files k.request).outcome :=
    congrArg Answer.outcome hanswer.symm
  rw [succeeds, hentry, cache_call]
  cases hcounted : k.counted with
  | false =>
      rw [if_neg Bool.false_ne_true, hhits, hmisses]
      exact ⟨rfl, rfl⟩
  | true =>
      rw [hcounted, Bool.toNat_true] at hroom
      rw [if_pos rfl, Bool.true_and, Bool.toNat_true]
      cases (c'.outcome files k.request).outcome.entry?.isSome with
      | true =>
          have hone : (c'.hits + 1).toNat = c'.hits.toNat + 1 := toNat_add_one (by omega)
          simp only [count, if_true, hhits, hmisses, hone, Bool.toNat_true, true_and]
          omega
      | false =>
          have hone : (c'.misses + 1).toNat = c'.misses.toNat + 1 := toNat_add_one (by omega)
          simp only [count, Bool.false_eq_true, if_false, hhits, hmisses, hone, Bool.toNat_false,
            Nat.add_zero, true_and]
          omega

/-- After a session, the counts have grown by the calls that are counted. -/
theorem counts_session {calls : List Call} (h : InSession files ms c c')
    (hm : ∀ k ∈ calls, ∀ m, k.request.source = some m → m ∈ ms)
    (hpath : ∀ m ∈ ms, ∀ other ∈ ms, other.name = m.name → other.path = m.path)
    (hroom : c'.hits.toNat + c'.misses.toNat + calls.countP (·.counted) < UInt64.size) :
    (c'.session files calls).2.hits.toNat =
        c'.hits.toNat + calls.countP (c.succeeds files ·) ∧
      (c'.session files calls).2.hits.toNat + (c'.session files calls).2.misses.toNat =
        c'.hits.toNat + c'.misses.toNat + calls.countP (·.counted) := by
  induction calls generalizing c' with
  | nil => exact ⟨rfl, rfl⟩
  | cons k calls ih =>
      rw [List.forall_mem_cons] at hm
      have hcounted : (k :: calls).countP (·.counted) =
          k.counted.toNat + calls.countP (·.counted) := by
        cases hk : k.counted <;> simp [hk, Nat.add_comm]
      have hsucceeds : (k :: calls).countP (c.succeeds files ·) =
          (c.succeeds files k).toNat + calls.countP (c.succeeds files ·) := by
        cases hk : c.succeeds files k <;> simp [hk, Nat.add_comm]
      rw [hcounted] at hroom
      have hanswer : (c'.outcome files k.request).answer = c.answer files k.request :=
        (answer_of_sound h.sound hm.1).trans (h.answer_eq _)
      obtain ⟨hhits, htotal⟩ := counts_call (by omega) hanswer
      obtain ⟨hhits', htotal'⟩ := ih (inSession_call h hm.1 hpath) hm.2 (by omega)
      rw [session, hcounted, hsucceeds]
      simp only
      omega

/-! ### Sessions -/

/-- **Calls do not influence one another, and the counted ones are all counted.** In a session on a
fresh cache, ready or disabled, with files that stay as they are and modules that do not share
names, every call answers what it would answer as the first one, in whatever order the calls come.
A lookup hands out an entry exactly when the same call without counting is a hit. In the end the
hits are the counted calls that hand out an entry, and the hits and misses together are all the
counted calls, of which there are fewer than numbers of 64 bits. -/
theorem session_independent (files : FileTree) {calls order : List Call} (hfresh : c.Fresh)
    (horder : order.Perm calls)
    (hpath : ∀ m ∈ Call.sources calls, ∀ other ∈ Call.sources calls,
      other.name = m.name → other.path = m.path)
    (hfew : calls.countP (·.counted) < UInt64.size) :
    (c.session files order).1.map Result.answer =
        order.map (fun k => (c.call files k).answer) ∧
      (∀ (state : Cache) (r : Request) (e : CacheEntry),
        (state.lookup files r).outcome.entry? = some e ↔
          (state.outcome files r).outcome = .hit e) ∧
      (c.session files order).2.hits.toNat = calls.countP (fun k =>
        k.counted && (c.call files k).outcome.entry?.isSome) ∧
      (c.session files order).2.hits.toNat + (c.session files order).2.misses.toNat =
        calls.countP (·.counted) := by
  have hsource : ∀ k ∈ order, ∀ m, k.request.source = some m → m ∈ Call.sources calls :=
    fun k hk m hm => Call.mem_sources (horder.mem_iff.mp hk) hm
  have hbegin := hfresh.inSession files (Call.sources calls)
  have hfirst : ∀ k ∈ order, (c.call files k).answer = c.answer files k.request := by
    intro k hk
    rw [answer_call, answer_of_sound hbegin.sound (hsource k hk)]
  have hzero : c.hits.toNat = 0 ∧ c.misses.toNat = 0 := by
    rw [hfresh.hits, hfresh.misses]
    exact ⟨rfl, rfl⟩
  obtain ⟨hhits, htotal⟩ := counts_session hbegin hsource hpath (by
    rw [hzero.1, hzero.2, horder.countP_eq]
    omega)
  rw [hzero.1, Nat.zero_add, horder.countP_eq] at hhits
  rw [hzero.1, hzero.2, Nat.zero_add, horder.countP_eq] at htotal
  refine ⟨?_, fun _ _ _ => entry?_lookup_eq_some_iff, ?_, htotal⟩
  · rw [answers_session hbegin hsource hpath]
    exact List.map_congr_left fun k hk => (hfirst k hk).symm
  · rw [hhits]
    refine List.countP_congr fun k hk => ?_
    have houtcome : (c.call files k).outcome = (c.answer files k.request).outcome :=
      congrArg Answer.outcome (hfirst k (horder.mem_iff.mpr hk))
    rw [houtcome]
    rfl

/-- A call that hits, the same call without counting, and a call for a member without stable
identity. -/
def sampleCalls : List Call :=
  [⟨Supplanted.request, true⟩, ⟨Supplanted.request, false⟩,
    ⟨{ Supplanted.request with scope := .sentinel ⟨"com/x/Foo"⟩ }, true⟩]

/-- In the reverse order, the calls of the sample count as one hit of two. -/
theorem session_independent_sample :
    (((ofSnapshot Supplanted.snapshot).session Supplanted.files sampleCalls.reverse).2.hits.toNat =
        1) ∧
      ((ofSnapshot Supplanted.snapshot).session Supplanted.files sampleCalls.reverse).2.hits.toNat +
        ((ofSnapshot Supplanted.snapshot).session Supplanted.files
          sampleCalls.reverse).2.misses.toNat = 2 := by
  have hpath : ∀ m ∈ Call.sources sampleCalls, ∀ other ∈ Call.sources sampleCalls,
      other.name = m.name → other.path = m.path := by decide
  obtain ⟨-, -, hhits, htotal⟩ := session_independent Supplanted.files
    (fresh_ofSnapshot Supplanted.snapshot) (List.reverse_perm sampleCalls) hpath (by decide)
  have hhit : ∀ counted, ((ofSnapshot Supplanted.snapshot).call Supplanted.files
      ⟨Supplanted.request, counted⟩).outcome = .hit Supplanted.entry := by
    intro counted
    rw [outcome_call, Supplanted.outcome_request]
  have htwo : sampleCalls.countP (·.counted) = 2 := by decide
  refine ⟨hhits.trans ?_, htotal.trans htwo⟩
  simp only [sampleCalls, List.countP_cons, hhit]
  rfl

end Cache

end BodyCache
