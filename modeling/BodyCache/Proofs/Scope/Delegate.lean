import BodyCache.Proofs.Text.Cut
import BodyCache.Scope.Delegate

/-!
# Positions of Adapters Are Read Back

The position of a delegate adapter is written without escapes and cut at the first marker, and what
follows the marker is cut at the first bar. So it depends on the parts whether they are read back.
The target type must not contain a bar, and neither it nor the target method may be empty. For the
position of the delegate type the condition is less plain, since the marker begins and ends with a
colon and may overlap itself: an earlier marker may consist of the end of the position and of the
first colon of the marker that was written. This is the only overlap, and so a position must not
contain the marker, nor end in the marker without its last colon.

## Main results

* `DelegateKey.eq_of_border`: where the marker overlaps itself.
* `DelegateKey.cut?_marker_append_iff`: when a position is cut at the marker that was written.
* `DelegateKey.parse_eq_some_iff`: what is read, in terms of the two cuts.
* `DelegateKey.parse_encode_exact`: what is read back, and that only what could have been written is
  read.
-/

namespace BodyCache.DelegateKey

variable {scope : Option String} {position fullName : String} {key : DelegateKey}

/-! ### The marker -/

/-- A beginning of the marker after which the marker begins again is the whole marker, or all of it
but the last colon. -/
theorem eq_of_border {e f : List Char} (hmarker : marker = e ++ f) (he : e ≠ [])
    (hf : f <+: marker) : e = marker ∨ e = ":delegate".toList := by
  have hborders : ∀ k ≤ marker.length, k ≠ 0 → marker.drop k <+: marker →
      marker.take k = marker ∨ marker.take k = ":delegate".toList := by decide
  have htake : marker.take e.length = e := by rw [hmarker, List.take_left]
  have hdrop : marker.drop e.length = f := by rw [hmarker, List.drop_left]
  have hlength : e.length ≤ marker.length := by rw [hmarker, List.length_append]; omega
  rw [← hdrop] at hf
  rw [← htake]
  exact hborders e.length hlength (List.length_eq_zero_iff.not.mpr he) hf

/-- A text is cut at a marker that was written after it, unless it contains a marker or ends in one
that lacks the last colon. -/
theorem cut?_marker_append_iff {before after : List Char} :
    Text.cut? marker (before ++ marker ++ after) = some (before, after) ↔
      ¬marker <:+: before ∧ ¬":delegate".toList <:+ before := by
  have hearlier : (∃ i < before.length, marker <+: before.drop i ++ marker) ↔
      marker <:+: before ∨ ":delegate".toList <:+ before := by
    rw [Text.exists_isPrefix_append_iff (by decide)]
    constructor
    · rintro (hin | ⟨e, f, hmarker, he, hf, hends⟩)
      · exact .inl hin
      · rcases eq_of_border hmarker he hf with rfl | rfl
        · exact .inl hends.isInfix
        · exact .inr hends
    · rintro (hin | hends)
      · exact .inl hin
      · exact .inr ⟨":delegate".toList, ":".toList, by decide, by decide, by decide, hends⟩
  rw [Text.cut?_append_eq_some_iff, ← not_or, ← hearlier]
  simp only [not_exists, not_and]

/-! ### Reading and writing -/

/-- What is read: the position is cut at the first marker, into the position of the delegate type
and the parts of the target with a bar between them. -/
theorem parse_eq_some_iff :
    parse scope position fullName = some key ↔
      ∃ delegate : String,
        Text.cut? marker position.toList =
          some (delegate.toList, key.targetType.id.toList ++ '|' :: key.targetMethod.toList) ∧
        key.targetType.id ≠ "" ∧ '|' ∉ key.targetType.id.toList ∧ key.targetMethod ≠ "" ∧
        key.delegateType = .ofParts scope (some delegate) fullName := by
  rw [parse, Option.bind_eq_bind, Option.bind_eq_some_iff]
  constructor
  · rintro ⟨⟨delegate, target⟩, hmarker, hrest⟩
    obtain ⟨⟨type, method⟩, hbar, hkey⟩ := Option.bind_eq_some_iff.mp hrest
    obtain ⟨hempty, hkey⟩ := Option.ite_none_left_eq_some.mp hkey
    obtain ⟨htype, hmethod⟩ := not_or.mp hempty
    obtain rfl := Option.some.inj hkey
    have htarget : type ++ '|' :: method = target := by
      rw [List.append_cons, Text.append_of_cut? hbar]
    rw [← htarget] at hmarker hbar
    refine ⟨String.ofList delegate, ?_, ?_, ?_, ?_, rfl⟩
    · simpa using hmarker
    · simpa using htype
    · simpa using Text.cut?_singleton_append.mp hbar
    · simpa using hmethod
  · rintro ⟨delegate, hmarker, htype, hbar, hmethod, hdelegate⟩
    refine ⟨_, hmarker, Option.bind_eq_some_iff.mpr
      ⟨_, Text.cut?_singleton_append.mpr hbar, Option.ite_none_left_eq_some.mpr ⟨?_, ?_⟩⟩⟩
    · simpa using And.intro htype hmethod
    · simp [← hdelegate]

/-- The text of the position of an adapter. -/
theorem toList_encode (delegate : String) (targetType : TypeScope) (targetMethod : String) :
    (encode delegate targetType targetMethod).toList =
      delegate.toList ++ marker ++ (targetType.id.toList ++ '|' :: targetMethod.toList) := by
  simp [encode, String.toList_append]

/-- Positions with the same target are those of the same delegate. -/
theorem encode_inj {delegate delegate' : String} {targetType : TypeScope} {targetMethod : String} :
    encode delegate targetType targetMethod = encode delegate' targetType targetMethod ↔
      delegate = delegate' := by
  constructor
  · intro h
    have htext := congrArg String.toList h
    rw [toList_encode, toList_encode] at htext
    exact String.toList_injective (List.append_cancel_right (List.append_cancel_right htext))
  · rintro rfl
    rfl

/-- A position that is cut at the first marker into a delegate and a target was written for them. -/
theorem encode_of_cut? {delegate : String} {targetType : TypeScope} {targetMethod : String}
    (h : Text.cut? marker position.toList =
      some (delegate.toList, targetType.id.toList ++ '|' :: targetMethod.toList)) :
    encode delegate targetType targetMethod = position := by
  apply String.toList_injective
  rw [toList_encode, Text.append_of_cut? h]

/-- When a position is read back. -/
theorem parse_encode_iff {delegate : String} {targetType : TypeScope} {targetMethod : String} :
    parse scope (encode delegate targetType targetMethod) fullName =
        some ⟨.ofParts scope (some delegate) fullName, targetType, targetMethod⟩ ↔
      ¬marker <:+: delegate.toList ∧ ¬":delegate".toList <:+ delegate.toList ∧
        targetType.id ≠ "" ∧ '|' ∉ targetType.id.toList ∧ targetMethod ≠ "" := by
  have hcut : Text.cut? marker (encode delegate targetType targetMethod).toList =
        some (delegate.toList, targetType.id.toList ++ '|' :: targetMethod.toList) ↔
      ¬marker <:+: delegate.toList ∧ ¬":delegate".toList <:+ delegate.toList := by
    rw [toList_encode]
    exact cut?_marker_append_iff
  rw [← and_assoc, ← hcut, parse_eq_some_iff]
  constructor
  · rintro ⟨delegate', hmarker, htype, hbar, hmethod, -⟩
    -- Without a scope the key does not show which delegate was read, but its target does.
    obtain rfl := encode_inj.mp (encode_of_cut? hmarker)
    exact ⟨hmarker, htype, hbar, hmethod⟩
  · rintro ⟨hmarker, htype, hbar, hmethod⟩
    exact ⟨delegate, hmarker, htype, hbar, hmethod, rfl⟩

/-- What is read from a position was written there. -/
theorem exists_encode_of_parse (h : parse scope position fullName = some key) :
    ∃ delegate, encode delegate key.targetType key.targetMethod = position ∧
      key.delegateType = .ofParts scope (some delegate) fullName ∧
      isDelegatePosition position = true := by
  obtain ⟨delegate, hmarker, -, -, -, hdelegate⟩ := parse_eq_some_iff.mp h
  refine ⟨delegate, encode_of_cut? hmarker, hdelegate, ?_⟩
  rw [isDelegatePosition, hmarker, Option.isSome_some]

/-- **Reading decodes exactly what was written.** A position is read back when the delegate neither
contains the marker nor ends in a marker without the last colon, the target type is not empty and
contains no bar, and the target method is not empty, and in no other case. Conversely, what is read
from any text was written there, and the text contains the marker. -/
theorem parse_encode_exact (scope : Option String) (fullName : String) :
    (∀ (delegate : String) (targetType : TypeScope) (targetMethod : String),
      parse scope (encode delegate targetType targetMethod) fullName =
          some ⟨.ofParts scope (some delegate) fullName, targetType, targetMethod⟩ ↔
        ¬marker <:+: delegate.toList ∧ ¬":delegate".toList <:+ delegate.toList ∧
          targetType.id ≠ "" ∧ '|' ∉ targetType.id.toList ∧ targetMethod ≠ "") ∧
    ∀ (position : String) (key : DelegateKey), parse scope position fullName = some key →
      ∃ delegate, encode delegate key.targetType key.targetMethod = position ∧
        key.delegateType = .ofParts scope (some delegate) fullName ∧
        isDelegatePosition position = true :=
  ⟨fun _ _ _ => parse_encode_iff, fun _ _ => exists_encode_of_parse⟩

/-- Two markers that overlap: the earlier one counts, and the target type begins too early. -/
example :
    parse (some "Action") (encode "7:delegate" ⟨"Main:2"⟩ "run()V") "System.Action" =
      some ⟨⟨"Action:7"⟩, ⟨"delegate:Main:2"⟩, "run()V"⟩ := by decide

end BodyCache.DelegateKey
