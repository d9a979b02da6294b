import BodyCache.Codec

/-!
# Why Nothing Is Read

A reader that is put together from others fails with one of them. Room is made in vain only for
texts: numbers, marks and the parts of a fixed length are read without. A text announces its length,
and room is made for it before anyone looks whether the bytes are there. So when room was made in
vain, a text announced more bytes than were left.

## Main results

* `Decoder.bind_eq_error_iff`: when a sequence fails.
* `Varint.room_of_decode`: numbers make no room.
* `Codec.text_decode_eq_unexpectedEnd_iff`: the room that is made for a text in vain.
* `Codec.Announces`: what it means that bytes announce a text that is not all there.
-/

namespace BodyCache

/-! ### Readers -/

/-- Room is made in vain only when the input ends too early. -/
theorem DecodeError.eq_unexpectedEnd_iff {e : DecodeError} {n : Nat} (hn : 0 < n) :
    e = .unexpectedEnd n ↔ e.room = n := by
  constructor
  · rintro rfl
    rfl
  · intro h
    cases e with
    | unexpectedEnd room => exact congrArg _ h
    | _ => exact absurd h (Nat.ne_of_lt hn)

namespace Decoder

variable {α β : Type} {d : Decoder α} {f : α → Decoder β} {w : Bytes} {e : DecodeError}

/-- A sequence goes on with its second part after the first one. -/
theorem bind_of_ok {a : α} {between : Bytes} (h : d w = .ok (a, between)) :
    (d >>= f) w = f a between := by
  have hbind : (d >>= f) w = (d w >>= fun p => f p.1 p.2) := rfl
  rw [hbind, h]
  rfl

/-- A sequence ends when its first part fails. -/
theorem bind_of_error (h : d w = .error e) : (d >>= f) w = .error e := by
  have hbind : (d >>= f) w = (d w >>= fun p => f p.1 p.2) := rfl
  rw [hbind, h]
  rfl

/-- A sequence fails with its first part, or else with its second one. -/
theorem bind_eq_error_iff :
    (d >>= f) w = .error e ↔
      d w = .error e ∨ ∃ a between, d w = .ok (a, between) ∧ f a between = .error e := by
  rcases hfirst : d w with e' | ⟨a, between⟩
  · rw [bind_of_error hfirst]
    constructor
    · rintro ⟨⟩
      exact .inl rfl
    · rintro (h | ⟨_, _, h, -⟩)
      · cases h
        rfl
      · cases h
  · rw [bind_of_ok hfirst]
    constructor
    · exact fun h => .inr ⟨a, between, rfl, h⟩
    · rintro (h | ⟨_, _, h, hsecond⟩)
      · cases h
      · cases h
        exact hsecond

/-- A reader whose values are changed fails as it does without. -/
theorem map_eq_error_iff {pack : α → β} : (pack <$> d) w = .error e ↔ d w = .error e := by
  have hmap : (pack <$> d) w = (d w >>= fun p => .ok (pack p.1, p.2)) := rfl
  rw [hmap]
  cases d w with
  | error e' => exact ⟨fun h => Except.error.inj h ▸ rfl, fun h => Except.error.inj h ▸ rfl⟩
  | ok p => exact ⟨nofun, nofun⟩

/-- A byte is read without making room. -/
theorem room_of_byte (h : byte w = .error e) : e.room = 0 := by
  cases w with
  | nil =>
      cases h
      rfl
  | cons x xs => cases h

/-- When too few bytes are there to be taken, the room that was made is reported. -/
theorem take_eq_error_iff {count room : Nat} :
    take count room w = .error e ↔ w.length < count ∧ e = .unexpectedEnd room := by
  rw [take]
  by_cases hcount : count ≤ w.length
  · rw [if_pos hcount]
    constructor
    · rintro ⟨⟩
    · rintro ⟨hlt, -⟩
      omega
  · rw [if_neg hcount]
    constructor
    · rintro ⟨⟩
      exact ⟨Nat.lt_of_not_le hcount, rfl⟩
    · rintro ⟨-, rfl⟩
      rfl

end Decoder

/-! ### Numbers and texts -/

/-- A number is read without making room. -/
theorem Varint.room_of_decode {width : Nat} {w : Bytes} {e : DecodeError}
    (h : decode width w = .error e) : e.room = 0 := by
  obtain h | ⟨mark, between, -, h⟩ := Decoder.bind_eq_error_iff.mp h
  · exact Decoder.room_of_byte h
  by_cases hsmall : mark < 251
  · rw [if_pos hsmall] at h
    cases h
  rw [if_neg hsmall] at h
  cases hk : payloadWidth? mark with
  | none =>
      rw [hk] at h
      cases h
      rfl
  | some k =>
      simp only [hk] at h
      by_cases hle : k ≤ width
      · rw [if_pos hle] at h
        obtain h | ⟨_, _, -, h⟩ := Decoder.bind_eq_error_iff.mp h
        · obtain ⟨-, rfl⟩ := Decoder.take_eq_error_iff.mp h
          rfl
        · cases h
      · rw [if_neg hle] at h
        cases h
        rfl

namespace Codec

variable {w rest : Bytes} {count n : Nat} {e : DecodeError}

/-- A text is not read when its size is not. -/
theorem text_decode_of_error (h : size.decode w = .error e) : text.decode w = .error e :=
  Decoder.bind_of_error h

/-- What is read of a text after its size. -/
theorem text_decode_of_size (h : size.decode w = .ok (count, rest)) :
    text.decode w =
      if addressLimit ≤ count then .error .capacityOverflow
      else if count ≤ rest.length then
        match Utf8.decode? (rest.take count) with
        | some s => .ok (s, rest.drop count)
        | none => .error .invalidText
      else .error (.unexpectedEnd count) := by
  refine (Decoder.bind_of_ok h).trans ?_
  by_cases hlimit : addressLimit ≤ count
  · rw [if_pos hlimit, if_pos hlimit]
    rfl
  rw [if_neg hlimit, if_neg hlimit]
  by_cases hcount : count ≤ rest.length
  · have htake : Decoder.take count count rest = .ok (rest.take count, rest.drop count) :=
      if_pos hcount
    rw [if_pos hcount]
    refine (Decoder.bind_of_ok htake).trans ?_
    cases Utf8.decode? (rest.take count) <;> rfl
  · rw [if_neg hcount]
    exact Decoder.bind_of_error (if_neg hcount)

/-- **Room is made in vain for a text** exactly when it announces more bytes than are left, and not
so many that nothing could have them. -/
theorem text_decode_eq_unexpectedEnd_iff (hn : 0 < n) :
    text.decode w = .error (.unexpectedEnd n) ↔
      ∃ rest, size.decode w = .ok (n, rest) ∧ rest.length < n ∧ n < addressLimit := by
  rcases hsize : size.decode w with e | ⟨count, rest⟩
  · have hroom := Varint.room_of_decode hsize
    rw [text_decode_of_error hsize, Except.error.injEq, DecodeError.eq_unexpectedEnd_iff hn, hroom]
    exact ⟨fun h => absurd h (Nat.ne_of_lt hn), nofun⟩
  rw [text_decode_of_size hsize]
  by_cases hlimit : addressLimit ≤ count
  · rw [if_pos hlimit]
    constructor
    · rintro ⟨⟩
    · rintro ⟨_, ⟨⟩, -, h⟩
      exact absurd h (Nat.not_lt.mpr hlimit)
  rw [if_neg hlimit]
  by_cases hcount : count ≤ rest.length
  · rw [if_pos hcount]
    constructor
    · cases Utf8.decode? (rest.take count) <;> rintro ⟨⟩
    · rintro ⟨_, ⟨⟩, h, -⟩
      exact absurd h (Nat.not_lt.mpr hcount)
  · rw [if_neg hcount]
    constructor
    · rintro ⟨⟩
      exact ⟨rest, rfl, Nat.lt_of_not_le hcount, Nat.lt_of_not_le hlimit⟩
    · rintro ⟨_, ⟨⟩, -, -⟩
      rfl

/-! ### Announcements -/

/-- Somewhere in the bytes stands the length of a text that is not all there: so many bytes, more
than are left after it, though not so many that nothing could have them. -/
def Announces (w : Bytes) (n : Nat) : Prop :=
  ∃ front between rest, w = front ++ between ∧ size.decode between = .ok (n, rest) ∧
    rest.length < n ∧ n < addressLimit

/-- What is announced is announced with other bytes before it. -/
theorem Announces.append (h : Announces w n) (front : Bytes) : Announces (front ++ w) n := by
  obtain ⟨front', between, rest, rfl, hannounced⟩ := h
  exact ⟨front ++ front', between, rest, (List.append_assoc _ _ _).symm, hannounced⟩

/-- When room is made in vain for a text, its bytes begin with the announcement. -/
theorem announces_of_text (hn : 0 < n) (h : text.decode w = .error (.unexpectedEnd n)) :
    Announces w n := by
  obtain ⟨rest, hannounced⟩ := (text_decode_eq_unexpectedEnd_iff hn).mp h
  exact ⟨[], w, rest, rfl, hannounced⟩

end Codec

end BodyCache
