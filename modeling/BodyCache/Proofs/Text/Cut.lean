import Mathlib.Data.List.Infix
import BodyCache.Text

/-!
# Where a Text Is Cut

A text is cut at the first occurrence of a marker: what stands before it is the shortest beginning
after which the marker follows. Whether a text that was put together from two halves and a marker is
cut back into these halves depends on the first half alone, because an earlier occurrence ends
before the marker does. For a marker of one character, the first half must not contain it.

## Main results

* `Text.cut?_eq_some_iff`: the halves of a cut, by what they are.
* `Text.cut?_append_eq_some_iff`: when two halves that were joined are found again.
* `Text.cut?_singleton_append`, `Text.append_cons_inj`: the same for a marker of one character,
  and the unique halves of a text.
* `Text.exists_isPrefix_append_iff`: when there is an earlier occurrence, for a marker that may
  overlap itself.
-/

namespace BodyCache.Text

variable {marker text before after : List Char}

/-- **The halves of a cut**: they give the text with the marker between them, and the marker does
not occur earlier. -/
theorem cut?_eq_some_iff :
    cut? marker text = some (before, after) ↔
      before ++ marker ++ after = text ∧ ∀ i < before.length, ¬marker <+: text.drop i := by
  constructor
  · intro h
    refine ⟨append_of_cut? h, ?_⟩
    induction text generalizing before with
    | nil =>
        rw [cut?] at h
        split at h
        · cases h
          exact fun i hi => absurd hi (Nat.not_lt_zero i)
        · cases h
    | cons c rest ih =>
        rw [cut?] at h
        split at h
        · cases h
          exact fun i hi => absurd hi (Nat.not_lt_zero i)
        · next hm =>
          obtain ⟨⟨b, a⟩, hb, he⟩ := Option.map_eq_some_iff.mp h
          cases he
          intro i hi
          cases i with
          | zero => exact fun hp => hm (List.isPrefixOf_iff_prefix.mpr hp)
          | succ i => exact ih hb i (Nat.lt_of_succ_lt_succ hi)
  · rintro ⟨rfl, hfirst⟩
    induction before with
    | nil =>
        cases h : marker ++ after with
        | nil =>
            obtain ⟨rfl, rfl⟩ := List.append_eq_nil_iff.mp h
            rfl
        | cons c rest =>
            have hm : marker.isPrefixOf (c :: rest) = true :=
              List.isPrefixOf_iff_prefix.mpr ⟨after, h⟩
            rw [List.nil_append, h, cut?, if_pos hm, ← h, List.drop_left]
    | cons c before ih =>
        have hm : ¬marker.isPrefixOf (c :: (before ++ marker ++ after)) = true := fun hp =>
          hfirst 0 (Nat.zero_lt_succ _) (List.isPrefixOf_iff_prefix.mp hp)
        have hrest := ih fun i hi => hfirst (i + 1) (Nat.succ_lt_succ hi)
        rw [List.cons_append, List.cons_append, cut?, if_neg hm, hrest]
        rfl

/-- Two halves that were joined are found again unless the marker occurs in the first half followed
by the marker, at a place in the first half. -/
theorem cut?_append_eq_some_iff :
    cut? marker (before ++ marker ++ after) = some (before, after) ↔
      ∀ i < before.length, ¬marker <+: before.drop i ++ marker := by
  rw [cut?_eq_some_iff, and_iff_right rfl]
  refine forall₂_congr fun i hi => not_congr ?_
  have hdrop : (before ++ marker ++ after).drop i = before.drop i ++ marker ++ after := by
    rw [List.append_assoc, List.drop_append_of_le_length hi.le, ← List.append_assoc]
  rw [hdrop]
  constructor
  · intro h
    exact List.prefix_of_prefix_length_le h (List.prefix_append ..) (by simp)
  · exact fun h => h.trans (List.prefix_append ..)

/-! ### Markers of one character -/

/-- A text is cut after a beginning that does not contain the marker. -/
theorem cut?_singleton_append {c : Char} :
    cut? [c] (before ++ c :: after) = some (before, after) ↔ c ∉ before := by
  rw [List.append_cons, cut?_append_eq_some_iff]
  constructor
  · intro h hc
    obtain ⟨i, hi, rfl⟩ := List.mem_iff_getElem.mp hc
    refine h i hi ?_
    rw [List.drop_eq_getElem_cons hi]
    exact ⟨_, rfl⟩
  · rintro h i hi ⟨t, ht⟩
    rw [List.drop_eq_getElem_cons hi] at ht
    exact h ((List.cons.inj ht).1 ▸ List.getElem_mem hi)

/-- A text has one first occurrence of a character, so its halves are determined. -/
theorem append_cons_inj {c : Char} {before' after' : List Char} (h : c ∉ before)
    (h' : c ∉ before') (heq : before ++ c :: after = before' ++ c :: after') :
    before = before' ∧ after = after' := by
  have hcut : cut? [c] (before ++ c :: after) = some (before, after) :=
    cut?_singleton_append.mpr h
  rw [heq, cut?_singleton_append.mpr h'] at hcut
  cases hcut
  exact ⟨rfl, rfl⟩

/-! ### Markers that overlap themselves -/

/-- The marker occurs in a text that is followed by the marker, at a place in the text, exactly when
the text contains the marker or ends in a beginning of it after which the marker begins again. -/
theorem exists_isPrefix_append_iff (hmarker : marker ≠ []) :
    (∃ i < before.length, marker <+: before.drop i ++ marker) ↔
      marker <:+: before ∨
        ∃ e f, marker = e ++ f ∧ e ≠ [] ∧ f <+: marker ∧ e <:+ before := by
  constructor
  · rintro ⟨i, hi, h⟩
    -- The occurrence ends in the text, or the text ends in the occurrence.
    rcases List.prefix_or_prefix_of_prefix h (List.prefix_append ..) with hin | hover
    · exact .inl (hin.isInfix.trans (List.drop_suffix i before).isInfix)
    · obtain ⟨f, hf⟩ := hover
      refine .inr ⟨before.drop i, f, hf.symm, ?_, ?_, List.drop_suffix i before⟩
      · exact List.ne_nil_of_length_pos (by rw [List.length_drop]; omega)
      · rw [← List.prefix_append_right_inj (before.drop i), hf]
        exact h
  · rintro (⟨s, t, rfl⟩ | ⟨e, f, hef, he, hf, s, rfl⟩)
    · refine ⟨s.length, ?_, ?_⟩
      · have := List.length_pos_of_ne_nil hmarker
        simp only [List.length_append]
        omega
      · rw [List.append_assoc, List.drop_left, List.append_assoc]
        exact List.prefix_append ..
    · refine ⟨s.length, ?_, ?_⟩
      · have := List.length_pos_of_ne_nil he
        simp only [List.length_append]
        omega
      · rw [List.drop_left]
        have hall : e ++ f <+: e ++ marker := (List.prefix_append_right_inj e).mpr hf
        rwa [← hef] at hall

end BodyCache.Text
