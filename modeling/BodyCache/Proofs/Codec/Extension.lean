import Mathlib.Tactic.ByContra
import BodyCache.Proofs.Codec.Classes

/-!
# Reading Bytes That Go On

What a reader reads at the front of a byte string it also reads when the string goes on, and leaves
all that is added. What it refuses it also refuses when the string goes on, in the same way, unless
the string ended too early. No reader looks at what follows its value, so this holds of every
reader, and is kept by all the ways of combining them. The reader of types is given more levels by
a longer string; that makes no difference either, which is why two readers are compared and not one
with itself.

With the law of a codec it follows that bytes that were written for a value are found to end too
early when their end is missing: nothing but the whole is read. Room may have been made in vain for
a text that is cut off, but only for as many bytes as the whole has. Of any bytes, it is made in
vain only for a text that they announce.

## Main results

* `Decoder.ExtendsTo`: what it means that a second reader does what the first one does, with more
  bytes after it.
* `Decoder.Reads.cut_eq`, `Decoder.Reads.of_cut`: only the whole of what was written is read.
* `TypeRef.extendsTo_decodeWithin`: types are read alike in a longer string and with more levels.
* `Container.steady_codec`: containers are read alike in a longer string, as are all their parts.
-/

namespace BodyCache

/-! ### What a reader has read -/

namespace Decoder

variable {α β : Type} {d d' : Decoder α} {f f' : α → Decoder β} {w rest : Bytes} {a : α}

/-- A sequence that reads something reads it with both its parts. -/
theorem exists_of_bind {b : β} (h : (d >>= f) w = .ok (b, rest)) :
    ∃ a between, d w = .ok (a, between) ∧ f a between = .ok (b, rest) := by
  rcases hd : d w with e | ⟨a, between⟩
  · rw [bind_of_error hd] at h
    cases h
  · rw [bind_of_ok hd] at h
    exact ⟨a, between, rfl, h⟩

/-- A sequence that ends in packing reads something with its first part. -/
theorem exists_of_bind_pure {pack : α → β} {b : β}
    (h : (d >>= fun x => Pure.pure (pack x)) w = .ok (b, rest)) :
    ∃ a, d w = .ok (a, rest) ∧ b = pack a := by
  obtain ⟨a, between, hd, hpack⟩ := exists_of_bind h
  cases hpack
  exact ⟨a, hd, rfl⟩

/-- The byte that is read is the first one. -/
theorem of_byte {x : UInt8} (h : byte w = .ok (x, rest)) : w = x :: rest := by
  cases w with
  | nil => cases h
  | cons y ys =>
      cases h
      rfl

/-- The bytes that are taken are as many as asked for, and come first. -/
theorem of_take {count room : Nat} {bytes : Bytes} (h : take count room w = .ok (bytes, rest)) :
    count = bytes.length ∧ w = bytes ++ rest := by
  rw [take] at h
  split_ifs at h with hcount
  cases h
  exact ⟨(List.length_take_of_le hcount).symm, (List.take_append_drop count w).symm⟩

/-! ### Longer strings -/

/-- What the first reader does, the second one does with more bytes after it, except that it may
read on where the first one found the bytes to end too early. -/
structure ExtendsTo (d d' : Decoder α) : Prop where
  /-- It reads the same and leaves what was added, or fails in the same way. -/
  same : ∀ ⦃w : Bytes⦄, (∀ room, d w ≠ .error (.unexpectedEnd room)) →
    ∀ more, d' (w ++ more) = (d w).map fun p => (p.1, p.2 ++ more)
  /-- If it reads on, it reads the bytes for which the first one made room. -/
  room_le : ∀ ⦃w more rest : Bytes⦄ ⦃room : Nat⦄ ⦃a : α⦄, d w = .error (.unexpectedEnd room) →
    d' (w ++ more) = .ok (a, rest) → room ≤ (w ++ more).length
  /-- What the first one leaves is the end of what was there. -/
  suffix : ∀ ⦃w rest : Bytes⦄ ⦃a : α⦄, d w = .ok (a, rest) → rest <:+ w
  /-- If the first one makes room in vain, a text was announced. -/
  announced : ∀ ⦃w : Bytes⦄ ⦃room : Nat⦄, 0 < room → d w = .error (.unexpectedEnd room) →
    Codec.Announces w room

namespace ExtendsTo

/-- What the first reader reads, the second one reads with more bytes after it. -/
theorem ok (hd : d.ExtendsTo d') (h : d w = .ok (a, rest)) (more : Bytes) :
    d' (w ++ more) = .ok (a, rest ++ more) := by
  have hreads : ∀ room, d w ≠ .error (.unexpectedEnd room) := by
    rw [h]
    rintro _ ⟨⟩
  rw [hd.same hreads more, h]
  rfl

/-- A value that is given without reading. -/
theorem pure (a : α) : ExtendsTo (Pure.pure a) (Pure.pure a) where
  same _ _ _ := rfl
  room_le _ _ _ _ _ h := nomatch h
  suffix := by
    rintro w _ _ ⟨⟩
    exact List.suffix_refl w
  announced _ _ _ h := nomatch h

/-- A reader that fails in a way that makes no room. -/
theorem fail {e : DecodeError} (he : e.room = 0) :
    ExtendsTo (Decoder.fail (α := α) e) (Decoder.fail e) where
  same _ _ _ := rfl
  room_le := by
    intro w more rest room a h _
    cases h
    exact Nat.le_trans (Nat.le_of_eq he) (Nat.zero_le _)
  suffix _ _ _ h := nomatch h
  announced := by
    intro w room hroom h
    cases h
    exact absurd he (Nat.ne_of_gt hroom)

/-- A reader that finds every byte string too short. -/
theorem fail_unexpectedEnd (d : Decoder α) : ExtendsTo (Decoder.fail (.unexpectedEnd 0)) d where
  same _ h := absurd rfl (h 0)
  room_le := by
    rintro _ _ _ _ _ ⟨⟩ _
    exact Nat.zero_le _
  suffix _ _ _ h := nomatch h
  announced := by
    rintro _ _ hroom ⟨⟩
    exact absurd hroom (Nat.lt_irrefl 0)

/-- One reader after another. -/
theorem bind (hd : d.ExtendsTo d') (hf : ∀ a, (f a).ExtendsTo (f' a)) :
    (d >>= f).ExtendsTo (d' >>= f') where
  same := by
    intro w h more
    rcases hfirst : d w with e | ⟨a, between⟩
    · have hfails : ∀ room, d w ≠ .error (.unexpectedEnd room) :=
        fun room hend => h room (bind_of_error hend)
      have hmore := hd.same hfails more
      rw [hfirst] at hmore
      rw [bind_of_error hfirst, bind_of_error hmore]
      rfl
    · rw [bind_of_ok hfirst] at h ⊢
      rw [bind_of_ok (hd.ok hfirst more)]
      exact (hf a).same h more
  room_le := by
    intro w more rest room b h hread
    obtain ⟨a, between', hfirst', hsecond'⟩ := exists_of_bind hread
    obtain hend | ⟨a', between, hfirst, hend⟩ := bind_eq_error_iff.mp h
    · exact hd.room_le hend hfirst'
    · rw [hd.ok hfirst more] at hfirst'
      cases hfirst'
      have hroom : room ≤ (between ++ more).length := (hf a).room_le hend hsecond'
      have hleft := (hd.suffix hfirst).length_le
      rw [List.length_append] at hroom ⊢
      omega
  suffix := by
    intro w rest b h
    obtain ⟨a, between, hfirst, hsecond⟩ := exists_of_bind h
    exact ((hf a).suffix hsecond).trans (hd.suffix hfirst)
  announced := by
    intro w room hroom h
    obtain h | ⟨a, between, hfirst, hsecond⟩ := bind_eq_error_iff.mp h
    · exact hd.announced hroom h
    · obtain ⟨front, rfl⟩ := hd.suffix hfirst
      exact ((hf a).announced hroom hsecond).append front

/-- A reader whose values are packed. -/
theorem bind_pure (hd : d.ExtendsTo d') (pack : α → β) :
    (d >>= fun a => Pure.pure (pack a)).ExtendsTo (d' >>= fun a => Pure.pure (pack a)) :=
  hd.bind fun a => pure (pack a)

/-- A reader whose values are changed. -/
theorem map (hd : d.ExtendsTo d') (pack : α → β) : (pack <$> d).ExtendsTo (pack <$> d') :=
  hd.bind_pure pack

/-- One byte. -/
theorem byte : Decoder.byte.ExtendsTo Decoder.byte where
  same := by
    intro w h more
    cases w with
    | nil => exact absurd rfl (h 0)
    | cons x xs => rfl
  room_le := by
    intro w more rest room x h _
    cases w with
    | nil =>
        cases h
        exact Nat.zero_le _
    | cons y ys => cases h
  suffix := by
    intro w rest x h
    rw [of_byte h]
    exact List.suffix_cons x rest
  announced := by
    intro w room hroom h
    exact absurd (room_of_byte h) (Nat.ne_of_gt hroom)

/-- As many bytes as asked for, into room that is always there. -/
theorem take (count : Nat) : (Decoder.take count).ExtendsTo (Decoder.take count) where
  same := by
    intro w h more
    by_cases hcount : count ≤ w.length
    · have hmore : count ≤ (w ++ more).length := by
        rw [List.length_append]
        omega
      rw [Decoder.take, if_pos hmore, Decoder.take, if_pos hcount,
        List.take_append_of_le_length hcount, List.drop_append_of_le_length hcount]
      rfl
    · rw [Decoder.take, if_neg hcount] at h
      exact absurd rfl (h 0)
  room_le := by
    intro w more rest room bytes h _
    obtain ⟨-, ⟨⟩⟩ := take_eq_error_iff.mp h
    exact Nat.zero_le _
  suffix := by
    intro w rest bytes h
    rw [(of_take h).2]
    exact List.suffix_append bytes rest
  announced := by
    intro w room hroom h
    obtain ⟨-, ⟨⟩⟩ := take_eq_error_iff.mp h
    exact absurd hroom (Nat.lt_irrefl 0)

/-- As many values as asked for. -/
theorem times (hd : d.ExtendsTo d') (count : Nat) :
    (Decoder.times d count).ExtendsTo (Decoder.times d' count) := by
  induction count with
  | zero => exact pure []
  | succ count ih => exact hd.bind fun first => ih.bind_pure (first :: ·)

end ExtendsTo

/-- **Only the whole is read.** When the end of what was written for a value is missing, it is found
that the bytes end too early, after room was made for no more bytes than were written. -/
theorem Reads.cut_eq {cut missing : Bytes} {v : α} (hread : d.Reads (cut ++ missing) v)
    (hd : d.ExtendsTo d) (hmissing : missing ≠ []) :
    ∃ room, d cut = .error (.unexpectedEnd room) ∧ room ≤ (cut ++ missing).length := by
  have hwhole := hread []
  rw [List.append_nil] at hwhole
  by_contra hend
  have hreads : ∀ room, d cut ≠ .error (.unexpectedEnd room) :=
    fun room h => hend ⟨room, h, hd.room_le h hwhole⟩
  rw [hd.same hreads missing] at hwhole
  rcases hcut : d cut with e | ⟨a, rest⟩
  · rw [hcut] at hwhole
    cases hwhole
  · rw [hcut] at hwhole
    have hpair : (a, rest ++ missing) = (v, []) := Except.ok.inj hwhole
    exact hmissing (List.append_eq_nil_iff.mp (congrArg Prod.snd hpair)).2

/-- When something is read of what was written for a value, it is that value, and nothing is
missing. -/
theorem Reads.of_cut {cut missing : Bytes} {v : α} (hread : d.Reads (cut ++ missing) v)
    (hd : d.ExtendsTo d) (h : d cut = .ok (a, rest)) : a = v ∧ missing = [] := by
  have hmissing : missing = [] := by
    by_contra hmissing
    obtain ⟨room, hend, -⟩ := hread.cut_eq hd hmissing
    rw [hend] at h
    cases h
  rw [hmissing, List.append_nil] at hread
  have hwhole := hread []
  rw [List.append_nil, h] at hwhole
  exact ⟨congrArg Prod.fst (Except.ok.inj hwhole), hmissing⟩

end Decoder

/-! ### Plain values -/

open Decoder (ExtendsTo)

/-- Numbers are read alike in a longer string. -/
theorem Varint.extendsTo_decode (width : Nat) : (decode width).ExtendsTo (decode width) := by
  refine ExtendsTo.byte.bind fun first => ?_
  split
  · exact .pure _
  · split
    · split
      · exact (ExtendsTo.take _).bind_pure _
      · exact .fail rfl
    · exact .fail rfl

namespace Codec

variable {α β : Type} {c : Codec α} {c' : Codec β}

/-- The values of a codec are read alike in a longer string. -/
def Steady (c : Codec α) : Prop := c.decode.ExtendsTo c.decode

/-- Numbers of 16 bits. -/
theorem steady_word16 : word16.Steady := (Varint.extendsTo_decode 2).map _

/-- Numbers of 32 bits. -/
theorem steady_word32 : word32.Steady := (Varint.extendsTo_decode 4).map _

/-- Sizes. -/
theorem steady_size : size.Steady := Varint.extendsTo_decode 8

/-- Signed numbers of 64 bits. -/
theorem steady_int64 : int64.Steady := (Varint.extendsTo_decode 8).map _

/-- Truth values. -/
theorem steady_bool : bool.Steady := by
  refine ExtendsTo.byte.bind fun b => ?_
  split
  · exact .pure _
  · split
    · exact .pure _
    · exact .fail rfl

/-- Texts. They make room for what they announce, so the two readers are compared after the size. -/
theorem steady_text : text.Steady where
  same := by
    intro w h more
    rcases hsize : size.decode w with e | ⟨count, rest⟩
    · have htext := text_decode_of_error hsize
      have hfails : ∀ room, size.decode w ≠ .error (.unexpectedEnd room) := by
        intro room hend
        exact h room (text_decode_of_error hend)
      have hmore := steady_size.same hfails more
      rw [hsize] at hmore
      rw [htext, text_decode_of_error hmore]
      rfl
    · rw [text_decode_of_size hsize] at h
      rw [text_decode_of_size hsize, text_decode_of_size (steady_size.ok hsize more)]
      by_cases hlimit : addressLimit ≤ count
      · rw [if_pos hlimit, if_pos hlimit]
        rfl
      rw [if_neg hlimit] at h
      by_cases hcount : count ≤ rest.length
      · have hmore : count ≤ (rest ++ more).length := by
          rw [List.length_append]
          omega
        rw [if_neg hlimit, if_neg hlimit, if_pos hcount, if_pos hmore,
          List.take_append_of_le_length hcount, List.drop_append_of_le_length hcount]
        cases Utf8.decode? (rest.take count) <;> rfl
      · rw [if_neg hcount] at h
        exact absurd rfl (h count)
  room_le := by
    intro w more rest room s h hread
    rcases Nat.eq_zero_or_pos room with rfl | hroom
    · exact Nat.zero_le _
    obtain ⟨left, hsize, -, hlimit⟩ := (text_decode_eq_unexpectedEnd_iff hroom).mp h
    rw [text_decode_of_size (steady_size.ok hsize more), if_neg (Nat.not_le.mpr hlimit)] at hread
    by_cases hcount : room ≤ (left ++ more).length
    · have hleft := (steady_size.suffix hsize).length_le
      rw [List.length_append] at hcount ⊢
      omega
    · rw [if_neg hcount] at hread
      cases hread
  suffix := by
    intro w rest s h
    obtain ⟨count, left, hsize, -⟩ := Decoder.exists_of_bind h
    rw [text_decode_of_size hsize] at h
    have hleft : left.drop count <:+ w :=
      (List.drop_suffix count left).trans (steady_size.suffix hsize)
    split_ifs at h
    split at h
    · cases h
      exact hleft
    · cases h
  announced _ _ hroom h := announces_of_text hroom h

/-- One of finitely many values. -/
theorem steady_oneOf [DecidableEq α] (values : List α) : (oneOf values).Steady := by
  refine (Varint.extendsTo_decode 4).bind fun i => ?_
  split
  · exact .pure _
  · exact .fail rfl

/-! ### Compound values -/

namespace Steady

/-- Two values, one after the other. -/
theorem pair (hc : c.Steady) (hc' : c'.Steady) : (c.pair c').Steady :=
  ExtendsTo.bind hc fun a => ExtendsTo.bind_pure hc' fun b => (a, b)

/-- Values seen as another type. -/
theorem iso (hc : c.Steady) (pack : α → β) (unpack : β → α) : (c.iso pack unpack).Steady :=
  ExtendsTo.map hc pack

/-- Optional values. -/
theorem option (hc : c.Steady) : (Codec.option c).Steady := by
  refine ExtendsTo.byte.bind fun mark => ?_
  split
  · exact .pure _
  · split
    · exact ExtendsTo.bind_pure hc some
    · exact .fail rfl

/-- Lists. -/
theorem list (hc : c.Steady) : (Codec.list c).Steady :=
  steady_size.bind fun count => ExtendsTo.times hc count

end Steady

end Codec

/-! ### Types and prototypes -/

/-- Primitives. -/
theorem Primitive.steady_codec : Primitive.codec.Steady := Codec.steady_oneOf _

/-- Class references. -/
theorem ClassRef.steady_codec : ClassRef.codec.Steady := Codec.steady_text.iso _ _

/-- **Types are read alike** in a longer string and with more levels. -/
theorem TypeRef.extendsTo_decodeWithin {depth depth' : Nat} (h : depth ≤ depth') :
    (decodeWithin depth).ExtendsTo (decodeWithin depth') := by
  induction depth generalizing depth' with
  | zero => exact .fail_unexpectedEnd _
  | succ depth ih =>
      obtain ⟨depth', rfl⟩ : ∃ n, depth' = n + 1 := ⟨depth' - 1, by omega⟩
      have hinner := ih (Nat.le_of_succ_le_succ h)
      refine (Varint.extendsTo_decode 4).bind fun form => ?_
      split
      · exact ExtendsTo.bind_pure Primitive.steady_codec _
      · exact ExtendsTo.bind_pure ClassRef.steady_codec _
      · exact hinner.bind_pure _
      · exact hinner.bind_pure _
      · refine hinner.bind fun element => Codec.steady_size.bind fun count => ?_
        exact (hinner.times count).bind_pure _
      · refine hinner.bind fun element => ClassRef.steady_codec.bind fun modifier => ?_
        exact ExtendsTo.bind_pure Codec.steady_bool _
      · exact .fail rfl

/-- Types. -/
theorem TypeRef.steady_codec : TypeRef.codec.Steady := by
  have hlevels : ∀ w more : Bytes, w.length ≤ (w ++ more).length := by
    intro w more
    rw [List.length_append]
    exact Nat.le_add_right _ _
  exact
    { same := fun w h more => (extendsTo_decodeWithin (hlevels w more)).same h more
      room_le := fun w more _ _ _ h hread =>
        (extendsTo_decodeWithin (hlevels w more)).room_le h hread
      suffix := fun w _ _ h => (extendsTo_decodeWithin (Nat.le_refl w.length)).suffix h
      announced := fun w _ hroom h =>
        (extendsTo_decodeWithin (Nat.le_refl w.length)).announced hroom h }

/-- Prototypes. -/
theorem Prototype.steady_codec : Prototype.codec.Steady :=
  (TypeRef.steady_codec.pair TypeRef.steady_codec.list).iso _ _

/-! ### Bodies -/

open Codec

/-- Method references. -/
theorem MethodRef.steady_codec : MethodRef.codec.Steady :=
  (TypeRef.steady_codec.pair (steady_text.pair Prototype.steady_codec)).iso _ _

/-- Field references. -/
theorem FieldRef.steady_codec : FieldRef.codec.Steady :=
  (ClassRef.steady_codec.pair (steady_text.pair TypeRef.steady_codec)).iso _ _

/-- Operations. -/
theorem Opcode.steady_codec : Opcode.codec.Steady := steady_oneOf _

/-- Operands. -/
theorem Operand.steady_codec : Operand.codec.Steady := by
  refine (Varint.extendsTo_decode 4).bind fun form => ?_
  split
  · exact .pure _
  · exact ExtendsTo.bind_pure steady_int64 _
  · exact ExtendsTo.bind_pure steady_text _
  · exact ExtendsTo.bind_pure TypeRef.steady_codec _
  · exact ExtendsTo.bind_pure MethodRef.steady_codec _
  · exact ExtendsTo.bind_pure FieldRef.steady_codec _
  · exact ExtendsTo.bind_pure steady_word32 _
  · exact .fail rfl

/-- Instructions. -/
theorem Instruction.steady_codec : Instruction.codec.Steady :=
  (Opcode.steady_codec.pair (steady_word16.list.pair Operand.steady_codec)).iso _ _

/-- Catch clauses. -/
theorem CatchClause.steady_codec : CatchClause.codec.Steady :=
  (TypeRef.steady_codec.pair steady_word32).iso _ _

/-- The handlers of a range. -/
theorem ExceptionTable.steady_codec : ExceptionTable.codec.Steady :=
  (steady_word32.pair (steady_word32.pair
    (CatchClause.steady_codec.list.pair steady_word32.option))).iso _ _

/-- Bodies. -/
theorem MethodBody.steady_codec : MethodBody.codec.Steady :=
  (steady_word16.pair (steady_word16.pair (steady_word16.pair
    (Instruction.steady_codec.list.pair ExceptionTable.steady_codec.list)))).iso _ _

/-! ### Containers and headers -/

/-- Emitted fields. -/
theorem FieldDef.steady_codec : FieldDef.codec.Steady :=
  (steady_text.pair (TypeRef.steady_codec.pair steady_word32)).iso _ _

/-- Emitted methods. -/
theorem MethodDef.steady_codec : MethodDef.codec.Steady :=
  (steady_text.pair (Prototype.steady_codec.pair
    (steady_word32.pair MethodBody.steady_codec.option))).iso _ _

/-- Emitted classes. -/
theorem ClassDef.steady_codec : ClassDef.codec.Steady :=
  (ClassRef.steady_codec.pair (ClassRef.steady_codec.option.pair (ClassRef.steady_codec.list.pair
    (steady_word32.pair (steady_text.option.pair
      (FieldDef.steady_codec.list.pair MethodDef.steady_codec.list)))))).iso _ _

/-- **Containers are read alike in a longer string.** -/
theorem Container.steady_codec : Container.codec.Steady := ClassDef.steady_codec.list.iso _ _

end BodyCache
