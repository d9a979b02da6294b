import BodyCache.Proofs.Codec.Extension

/-!
# The Spellings of a Value

A reader takes more than one byte string for the same value: numbers may be wider than they need to
be, and so may the sizes of texts and lists and the numbers of alternatives. All of these are
spellings of the value. What a reader has taken for a value it takes for it wherever it stands,
whatever follows; and what is written for the value is a spelling as well, the shortest that there
is.

This is shown for arbitrary bytes, by following the reader. Nothing is assumed about their number:
a value that was read can be written and read again however large it is, because every size in it
was read from eight bytes.

Readers are compared at all levels, for the sake of the reader of types. A spelling is taken at
every level that is no smaller than the number of its bytes.

## Main results

* `Decoder.Respells`: two spellings of a value, the second no longer than the first.
* `Varint.takes_decode`: numbers are written in the shortest form that is read.
* `Codec.Normal`: a codec that writes the shortest spelling of whatever it reads.
* `TypeRef.shortens_decodeWithin`: types, at all levels.
* `Container.normal_codec`: containers, like all their parts.
-/

namespace BodyCache

/-! ### Spellings -/

namespace Decoder

variable {α β : Type} {d : Decoder α} {D : Nat → Decoder α} {F : Nat → α → Decoder β}
  {w w' v v' rest between : Bytes} {a : α} {b : β}

/-- Two spellings of a value: the readers take both for it, and the second is no longer than the
first. -/
structure Respells (D : Nat → Decoder α) (w w' : Bytes) (a : α) : Prop where
  /-- The first is a spelling. -/
  reads : ∀ n, w.length ≤ n → (D n).Reads w a
  /-- So is the second. -/
  reads_short : ∀ n, w'.length ≤ n → (D n).Reads w' a
  /-- It is no longer. -/
  length_le : w'.length ≤ w.length

namespace Respells

/-- A reader takes what it takes at every level. -/
theorem const (h : d.Reads w a) (h' : d.Reads w' a) (hle : w'.length ≤ w.length) :
    Respells (fun _ => d) w w' a := ⟨fun _ _ => h, fun _ _ => h', hle⟩

/-- A spelling may be taken for itself. -/
theorem refl (h : d.Reads w a) : Respells (fun _ => d) w w a := const h h (Nat.le_refl _)

/-- Spellings follow one another. -/
theorem bind (hd : Respells D w w' a) (hf : Respells (fun n => F n a) v v' b) :
    Respells (fun n => D n >>= F n) (w ++ v) (w' ++ v') b where
  reads n hn := by
    rw [List.length_append] at hn
    exact (hd.reads n (by omega)).bind (hf.reads n (by omega))
  reads_short n hn := by
    rw [List.length_append] at hn
    exact (hd.reads_short n (by omega)).bind (hf.reads_short n (by omega))
  length_le := by
    have h := hd.length_le
    have h' := hf.length_le
    rw [List.length_append, List.length_append]
    omega

end Respells

/-- From the front of `w`, which it leaves at `rest`, the readers take a spelling of the value, and
`w'` is another one that is no longer. -/
def Takes (D : Nat → Decoder α) (w rest w' : Bytes) (a : α) : Prop :=
  ∃ front, w = front ++ rest ∧ Respells D front w' a

namespace Takes

/-- Nothing is taken for a value that is given without reading. -/
theorem pure (a : α) : Takes (fun _ => Pure.pure a) w w [] a :=
  ⟨[], rfl, .refl (Reads.pure a)⟩

/-- One spelling is taken after the other. -/
theorem bind (hd : Takes D w between w' a) (hf : Takes (fun n => F n a) between rest v' b) :
    Takes (fun n => D n >>= F n) w rest (w' ++ v') b := by
  obtain ⟨front, rfl, hfront⟩ := hd
  obtain ⟨front', rfl, hfront'⟩ := hf
  exact ⟨front ++ front', (List.append_assoc _ _ _).symm, hfront.bind hfront'⟩

/-- What is taken may be packed. -/
theorem bind_pure (hd : Takes D w rest w' a) (pack : α → β) :
    Takes (fun n => D n >>= fun x => Pure.pure (pack x)) w rest w' (pack a) := by
  have h := hd.bind (F := fun _ x => Pure.pure (pack x)) (pure (pack a))
  rwa [List.append_nil] at h

/-- What is taken may be changed. -/
theorem map (hd : Takes D w rest w' a) (pack : α → β) :
    Takes (fun n => pack <$> D n) w rest w' (pack a) := hd.bind_pure pack

end Takes

/-- Whatever the reader takes for a value, the readers of all levels take for it, and what is
written for the value is no longer. -/
def Shortens (d : Decoder α) (D : Nat → Decoder α) (write : α → Bytes) : Prop :=
  ∀ ⦃w : Bytes⦄ ⦃a : α⦄ ⦃rest : Bytes⦄, d w = .ok (a, rest) → Takes D w rest (write a) a

/-- Items that are taken one by one are taken as a list. -/
theorem Shortens.times {write : α → Bytes} (hd : Shortens d D write) {count : Nat}
    {w rest : Bytes} {as : List α} (h : Decoder.times d count w = .ok (as, rest)) :
    as.length = count ∧ Takes (fun n => (D n).times count) w rest (as.flatMap write) as := by
  induction count generalizing w as with
  | zero =>
      cases h
      exact ⟨rfl, .pure []⟩
  | succ count ih =>
      obtain ⟨first, between, hfirst, h⟩ := exists_of_bind h
      obtain ⟨others, hothers, rfl⟩ := exists_of_bind_pure h
      obtain ⟨hcount, hothers⟩ := ih hothers
      exact ⟨congrArg (· + 1) hcount, (hd hfirst).bind (hothers.bind_pure (first :: ·))⟩

end Decoder

open Decoder (Respells Takes Shortens exists_of_bind exists_of_bind_pure)

/-! ### Numbers -/

namespace Varint

/-- How many bytes a number is written in. -/
theorem length_encode (n : Nat) : (encode n).length =
    if n < 251 then 1 else if n < UInt16.size then 3 else if n < UInt32.size then 5 else 9 := by
  rw [encode]
  split_ifs
  · rfl
  · rw [List.length_cons, LittleEndian.length_encode]
  · rw [List.length_cons, LittleEndian.length_encode]
  · rw [List.length_cons, LittleEndian.length_encode]

/-- A smaller number is written in no more bytes. -/
theorem length_encode_mono {m n : Nat} (h : m ≤ n) : (encode m).length ≤ (encode n).length := by
  rw [length_encode, length_encode]
  split_ifs <;> omega

/-- A number is written in no more bytes than a mark and the bytes that hold it. -/
theorem length_encode_le {k n : Nat} (hk : k = 2 ∨ k = 4 ∨ k = 8) (hn : n < 256 ^ k) :
    (encode n).length ≤ k + 1 := by
  rw [length_encode]
  simp only [UInt16.size, UInt32.size]
  rcases hk with rfl | rfl | rfl <;> split_ifs <;> omega

/-- The marks announce two, four or eight bytes. -/
theorem of_payloadWidth? {mark : UInt8} {k : Nat} (h : payloadWidth? mark = some k) :
    k = 2 ∨ k = 4 ∨ k = 8 := by
  rw [payloadWidth?] at h
  split_ifs at h <;> cases h <;> decide

/-- A number after a mark fits into the width that the mark keeps to, and may be written without the
bytes that it does not need. -/
theorem respells_marked {mark : UInt8} {width : Nat} {bytes : Bytes} (hmark : ¬mark < 251)
    (hk : payloadWidth? mark = some bytes.length) (hle : bytes.length ≤ width)
    (hwidth : width = 2 ∨ width = 4 ∨ width = 8) :
    LittleEndian.decode bytes < 256 ^ width ∧
      Respells (fun _ => decode width) (mark :: bytes) (encode (LittleEndian.decode bytes))
        (LittleEndian.decode bytes) := by
  have hn := LittleEndian.decode_lt bytes
  have hfits : LittleEndian.decode bytes < 256 ^ width :=
    Nat.lt_of_lt_of_le hn (Nat.pow_le_pow_right (by decide) hle)
  have hread := reads_marked hmark hk hle hn
  rw [LittleEndian.encode_decode] at hread
  exact ⟨hfits, .const hread (reads hwidth hfits) (length_encode_le (of_payloadWidth? hk) hn)⟩

/-- **Numbers are written in the shortest form that is read**, and what is read fits into the width
that is asked for. -/
theorem takes_decode {width n : Nat} {w rest : Bytes} (hwidth : width = 2 ∨ width = 4 ∨ width = 8)
    (h : decode width w = .ok (n, rest)) :
    n < 256 ^ width ∧ Takes (fun _ => decode width) w rest (encode n) n := by
  obtain ⟨mark, between, hmark, hnumber⟩ := exists_of_bind h
  obtain rfl := Decoder.of_byte hmark
  by_cases hsmall : mark < 251
  · rw [if_pos hsmall] at hnumber
    cases hnumber
    have hn : mark.toNat < 251 := UInt8.lt_iff_toNat_lt.mp hsmall
    have hfits : mark.toNat < 256 ^ width := by
      rcases hwidth with rfl | rfl | rfl <;> omega
    have hbyte : encode mark.toNat = [mark] := by
      rw [encode, if_pos hn, UInt8.ofNat_toNat]
    have hread := reads hwidth hfits
    rw [hbyte] at hread ⊢
    exact ⟨hfits, [mark], rfl, .refl hread⟩
  · rw [if_neg hsmall] at hnumber
    cases hk : payloadWidth? mark with
    | none =>
        rw [hk] at hnumber
        cases hnumber
    | some k =>
        simp only [hk] at hnumber
        by_cases hle : k ≤ width
        · rw [if_pos hle] at hnumber
          obtain ⟨bytes, htake, rfl⟩ := exists_of_bind_pure hnumber
          obtain ⟨rfl, rfl⟩ := Decoder.of_take htake
          obtain ⟨hfits, hrespells⟩ := respells_marked hsmall hk hle hwidth
          exact ⟨hfits, mark :: bytes, rfl, hrespells⟩
        · rw [if_neg hle] at hnumber
          cases hnumber

/-- The number of an alternative takes the place of any of its spellings. -/
theorem takes_form {n : Nat} {w rest : Bytes} (h : decode 4 w = .ok (n, rest)) :
    Takes (fun _ => decode 4) w rest (encode n) n := (takes_decode (.inr (.inl rfl)) h).2

end Varint

namespace Codec

variable {α β : Type} {c : Codec α} {c' : Codec β}

/-! ### Codecs that write the shortest spelling -/

/-- A codec is normal when it writes the shortest spelling of whatever it reads. -/
def Normal (c : Codec α) : Prop := Shortens c.decode (fun _ => c.decode) c.encode

/-- A codec is normal if it writes a number for each value, from which the value can be told. -/
theorem normal_number {width : Nat} {pack : Nat → α} {unpack : α → Nat}
    (hwidth : width = 2 ∨ width = 4 ∨ width = 8)
    (hpack : ∀ n < 256 ^ width, unpack (pack n) = n) :
    Normal ⟨fun a => Varint.encode (unpack a), pack <$> Varint.decode width⟩ := by
  intro w a rest h
  obtain ⟨n, hn, rfl⟩ := exists_of_bind_pure h
  obtain ⟨hfits, htakes⟩ := Varint.takes_decode hwidth hn
  change Takes _ w rest (Varint.encode (unpack (pack n))) (pack n)
  rw [hpack n hfits]
  exact htakes.map pack

/-- Numbers of 16 bits. -/
theorem normal_word16 : word16.Normal :=
  normal_number (.inl rfl) fun _ hn => UInt16.toNat_ofNat_of_lt hn

/-- Numbers of 32 bits. -/
theorem normal_word32 : word32.Normal :=
  normal_number (.inr (.inl rfl)) fun _ hn => UInt32.toNat_ofNat_of_lt hn

/-- Sizes. -/
theorem normal_size : size.Normal := fun _ _ _ h => (Varint.takes_decode (.inr (.inr rfl)) h).2

/-- The alternating order has every position once. -/
theorem zigzag_unzigzag (n : Nat) : zigzag (unzigzag n) = n := by
  rw [unzigzag]
  split_ifs with heven
  · rw [zigzag]
    omega
  · rw [zigzag]
    omega

/-- The first positions of the alternating order have signed numbers of 64 bits. -/
theorem toInt_ofInt_unzigzag {n : Nat} (h : n < 256 ^ 8) :
    (Int64.ofInt (unzigzag n)).toInt = unzigzag n := by
  have hrange : -2 ^ 63 ≤ unzigzag n ∧ unzigzag n < 2 ^ 63 := by
    rw [unzigzag]
    split_ifs
    · rw [Int.ofNat_eq_natCast]
      omega
    · omega
  exact Int64.toInt_ofInt_of_le hrange.1 hrange.2

/-- Signed numbers of 64 bits. -/
theorem normal_int64 : int64.Normal := by
  refine normal_number (.inr (.inr rfl)) fun n hn => ?_
  rw [toInt_ofInt_unzigzag hn, zigzag_unzigzag]

/-- Truth values. -/
theorem normal_bool : bool.Normal := by
  intro w b rest h
  obtain ⟨x, between, hbyte, hvalue⟩ := exists_of_bind h
  obtain rfl := Decoder.of_byte hbyte
  split_ifs at hvalue with hfalse htrue
  · cases hvalue
    exact ⟨[0], by rw [hfalse]; rfl, .refl (lawful_bool.reads false (by decide))⟩
  · cases hvalue
    exact ⟨[1], by rw [htrue]; rfl, .refl (lawful_bool.reads true (by decide))⟩
  · cases hvalue

/-- Texts. -/
theorem normal_text : text.Normal := by
  intro w s rest h
  obtain ⟨count, between, hcount, hbytes⟩ := exists_of_bind h
  by_cases hlimit : addressLimit ≤ count
  · rw [if_pos hlimit] at hbytes
    cases hbytes
  rw [if_neg hlimit] at hbytes
  obtain ⟨bytes, left, htake, htext⟩ := exists_of_bind hbytes
  obtain ⟨rfl, rfl⟩ := Decoder.of_take htake
  cases hdecode : Utf8.decode? bytes with
  | none =>
      rw [hdecode] at htext
      cases htext
  | some s' =>
      rw [hdecode] at htext
      cases htext
      obtain rfl := Utf8.encode_of_decode? hdecode
      refine (normal_size hcount).bind ⟨Utf8.encode s, rfl, .refl ?_⟩
      rw [if_neg hlimit]
      refine (Decoder.reads_take _ rfl).bind_of_eq ?_
      rw [hdecode]

/-- A value is found at the first of its positions. -/
theorem idxOf_le [DecidableEq α] {values : List α} {i : Nat} {v : α} (h : values[i]? = some v) :
    values.idxOf v ≤ i := by
  obtain ⟨hi, rfl⟩ := List.getElem?_eq_some_iff.mp h
  by_contra hlt
  have hne := List.not_of_lt_findIdx (Nat.lt_of_not_le hlt)
  rw [beq_self_eq_true] at hne
  cases hne

/-- One of finitely many values. -/
theorem normal_oneOf [DecidableEq α] {values : List α} (hlen : values.length ≤ UInt32.size) :
    (oneOf values).Normal := by
  intro w v rest h
  obtain ⟨i, between, hi, hvalue⟩ := exists_of_bind h
  cases hget : values[i]? with
  | none =>
      rw [hget] at hvalue
      cases hvalue
  | some v' =>
      rw [hget] at hvalue
      cases hvalue
      obtain ⟨front, hfront, hrespells⟩ := Varint.takes_form hi
      have hread : (oneOf values).decode.Reads front v := by
        refine (hrespells.reads front.length (Nat.le_refl _)).bind_of_eq ?_
        rw [hget]
      have hle : (Varint.encode (values.idxOf v)).length ≤ front.length :=
        Nat.le_trans (Varint.length_encode_mono (idxOf_le hget)) hrespells.length_le
      exact ⟨front, hfront, .const hread (reads_oneOf (List.mem_of_getElem? hget) hlen) hle⟩

/-! ### Compound values -/

namespace Normal

/-- Two values, one after the other. -/
theorem pair (hc : c.Normal) (hc' : c'.Normal) : (c.pair c').Normal := by
  intro w v rest h
  obtain ⟨a, between, hfirst, h⟩ := exists_of_bind h
  obtain ⟨b, hsecond, rfl⟩ := exists_of_bind_pure h
  exact (hc hfirst).bind ((hc' hsecond).bind_pure fun b => (a, b))

/-- Values seen as another type, if nothing of the first type is lost. -/
theorem iso (hc : c.Normal) {pack : α → β} {unpack : β → α} (h : ∀ a, unpack (pack a) = a) :
    (c.iso pack unpack).Normal := by
  intro w b rest hread
  obtain ⟨a, ha, rfl⟩ := exists_of_bind_pure hread
  change Takes _ w rest (c.encode (unpack (pack a))) (pack a)
  rw [h]
  exact (hc ha).map pack

/-- Optional values. -/
theorem option (hc : c.Normal) : (Codec.option c).Normal := by
  intro w v rest h
  obtain ⟨mark, between, hbyte, hvalue⟩ := exists_of_bind h
  obtain rfl := Decoder.of_byte hbyte
  split_ifs at hvalue with hnone hsome
  · cases hvalue
    exact ⟨[0], by rw [hnone]; rfl, .refl fun _ => rfl⟩
  · obtain ⟨a, ha, rfl⟩ := exists_of_bind_pure hvalue
    subst hsome
    have hmark : Takes (fun _ => Decoder.byte) (1 :: between) between [1] 1 :=
      ⟨[1], rfl, .refl (Decoder.reads_byte 1)⟩
    exact hmark.bind ((hc ha).bind_pure some)
  · cases hvalue

/-- Lists. -/
theorem list (hc : c.Normal) : (Codec.list c).Normal := by
  intro w vs rest h
  obtain ⟨count, between, hcount, hitems⟩ := exists_of_bind h
  obtain ⟨rfl, hitems⟩ := Shortens.times hc hitems
  exact (normal_size hcount).bind hitems

end Normal

end Codec

/-! ### Types and prototypes -/

open Codec

/-- Primitives. -/
theorem Primitive.normal_codec : Primitive.codec.Normal := normal_oneOf (by decide)

/-- Class references. -/
theorem ClassRef.normal_codec : ClassRef.codec.Normal := normal_text.iso fun _ => rfl

namespace TypeRef

/-- Reads the parts of a type with the given form, in one level less than the type has. -/
def decodeForm (depth form : Nat) : Decoder TypeRef :=
  match form with
  | 0 => return .primitive (← Primitive.codec.decode)
  | 1 => return .named (← ClassRef.codec.decode)
  | 2 => return .array (← decodeWithin depth)
  | 3 => return .byRef (← decodeWithin depth)
  | 4 => do
    let element ← decodeWithin depth
    let arguments ← Decoder.times (decodeWithin depth) (← Codec.size.decode)
    return .generic element arguments
  | 5 => do
    let element ← decodeWithin depth
    let modifier ← ClassRef.codec.decode
    return .modified element modifier (← Codec.bool.decode)
  | _ => Decoder.fail .unknownVariant

/-- A type is read by its form, then by its parts. -/
theorem decodeWithin_succ (depth : Nat) :
    decodeWithin (depth + 1) = Varint.decode 4 >>= decodeForm depth := rfl

/-- The types of a list are written one after the other. -/
theorem encodeAll_eq_flatMap (ts : List TypeRef) : encodeAll ts = ts.flatMap encode := by
  induction ts with
  | nil => rfl
  | cons t ts ih => rw [encodeAll, ih, List.flatMap_cons]

/-- The form takes at least one byte, which makes up for the level that the parts have less. -/
theorem reads_level {w parts : Bytes} {form : Nat} {t : TypeRef}
    (hform : (Varint.decode 4).Reads w form) (hpos : 0 < w.length)
    (hparts : ∀ n, parts.length ≤ n → (decodeForm n form).Reads parts t) :
    ∀ n, (w ++ parts).length ≤ n → (decodeWithin n).Reads (w ++ parts) t := by
  intro n hn
  rw [List.length_append] at hn
  obtain ⟨depth, rfl⟩ : ∃ depth, n = depth + 1 := ⟨n - 1, by omega⟩
  exact hform.bind (hparts depth (by omega))

/-- A type is taken when its form and its parts are. -/
theorem takes_level {w between rest parts : Bytes} {form : Nat} {t : TypeRef}
    (hform : Varint.decode 4 w = .ok (form, between))
    (hparts : Takes (fun depth => decodeForm depth form) between rest parts t) :
    Takes decodeWithin w rest (Varint.encode form ++ parts) t := by
  obtain ⟨front, rfl, hfront⟩ := Varint.takes_form hform
  obtain ⟨front', rfl, hfront'⟩ := hparts
  have hpos : 0 < (Varint.encode form).length := List.length_pos_iff.mpr (Varint.encode_ne_nil _)
  have hle := hfront.length_le
  have hle' := hfront'.length_le
  refine ⟨front ++ front', (List.append_assoc _ _ _).symm, ?_, ?_, ?_⟩
  · exact reads_level (hfront.reads front.length (Nat.le_refl _)) (by omega) hfront'.reads
  · exact reads_level (hfront.reads_short front.length hle) hpos hfront'.reads_short
  · rw [List.length_append, List.length_append]
    omega

/-- **Types are written in their shortest spelling**, which is taken at every level that it has
bytes for. -/
theorem shortens_decodeWithin (depth : Nat) : Shortens (decodeWithin depth) decodeWithin encode := by
  induction depth with
  | zero =>
      intro w t rest h
      cases h
  | succ depth ih =>
      intro w t rest h
      rw [decodeWithin_succ] at h
      obtain ⟨form, between, hform, hparts⟩ := exists_of_bind h
      have hlevel {parts : Bytes} (hparts : Takes (decodeForm · form) between rest parts t) :
          Takes decodeWithin w rest (Varint.encode form ++ parts) t := takes_level hform hparts
      -- The parts that are types themselves were read with one level less.
      match form with
      | 0 =>
          obtain ⟨p, hp, rfl⟩ := exists_of_bind_pure hparts
          exact hlevel ((Primitive.normal_codec hp).bind_pure _)
      | 1 =>
          obtain ⟨c, hc, rfl⟩ := exists_of_bind_pure hparts
          exact hlevel ((ClassRef.normal_codec hc).bind_pure _)
      | 2 =>
          obtain ⟨element, helement, rfl⟩ := exists_of_bind_pure hparts
          exact hlevel ((ih helement).bind_pure _)
      | 3 =>
          obtain ⟨element, helement, rfl⟩ := exists_of_bind_pure hparts
          exact hlevel ((ih helement).bind_pure _)
      | 4 =>
          obtain ⟨element, _, helement, hparts⟩ := exists_of_bind hparts
          obtain ⟨count, _, hcount, hparts⟩ := exists_of_bind hparts
          obtain ⟨arguments, harguments, rfl⟩ := exists_of_bind_pure hparts
          obtain ⟨rfl, harguments⟩ := ih.times harguments
          rw [encode, encodeAll_eq_flatMap]
          exact hlevel ((ih helement).bind ((normal_size hcount).bind (harguments.bind_pure _)))
      | 5 =>
          obtain ⟨element, _, helement, hparts⟩ := exists_of_bind hparts
          obtain ⟨modifier, _, hmodifier, hparts⟩ := exists_of_bind hparts
          obtain ⟨required, hrequired, rfl⟩ := exists_of_bind_pure hparts
          exact hlevel ((ih helement).bind ((ClassRef.normal_codec hmodifier).bind
            ((normal_bool hrequired).bind_pure _)))
      | _ + 6 => cases hparts

/-- Types. -/
theorem normal_codec : codec.Normal := by
  intro w t rest h
  obtain ⟨front, hfront, hrespells⟩ := shortens_decodeWithin w.length h
  exact ⟨front, hfront,
    .const (reads_codec hrespells.reads) (reads_codec hrespells.reads_short) hrespells.length_le⟩

end TypeRef

/-- Prototypes. -/
theorem Prototype.normal_codec : Prototype.codec.Normal :=
  (TypeRef.normal_codec.pair TypeRef.normal_codec.list).iso fun _ => rfl

/-! ### Bodies -/

/-- Method references. -/
theorem MethodRef.normal_codec : MethodRef.codec.Normal :=
  (TypeRef.normal_codec.pair (normal_text.pair Prototype.normal_codec)).iso fun _ => rfl

/-- Field references. -/
theorem FieldRef.normal_codec : FieldRef.codec.Normal :=
  (ClassRef.normal_codec.pair (normal_text.pair TypeRef.normal_codec)).iso fun _ => rfl

/-- Operations. -/
theorem Opcode.normal_codec : Opcode.codec.Normal := normal_oneOf (by decide)

/-- Operands. -/
theorem Operand.normal_codec : Operand.codec.Normal := by
  intro w o rest h
  obtain ⟨form, between, hform, hcontent⟩ := exists_of_bind h
  have hform := Varint.takes_form hform
  match form with
  | 0 =>
      cases hcontent
      exact hform.bind (.pure Operand.none)
  | 1 =>
      obtain ⟨v, hv, rfl⟩ := exists_of_bind_pure hcontent
      exact hform.bind ((normal_int64 hv).bind_pure Operand.literal)
  | 2 =>
      obtain ⟨s, hs, rfl⟩ := exists_of_bind_pure hcontent
      exact hform.bind ((normal_text hs).bind_pure Operand.text)
  | 3 =>
      obtain ⟨t, ht, rfl⟩ := exists_of_bind_pure hcontent
      exact hform.bind ((TypeRef.normal_codec ht).bind_pure Operand.type)
  | 4 =>
      obtain ⟨m, hm, rfl⟩ := exists_of_bind_pure hcontent
      exact hform.bind ((MethodRef.normal_codec hm).bind_pure Operand.method)
  | 5 =>
      obtain ⟨f, hf, rfl⟩ := exists_of_bind_pure hcontent
      exact hform.bind ((FieldRef.normal_codec hf).bind_pure Operand.field)
  | 6 =>
      obtain ⟨i, hi, rfl⟩ := exists_of_bind_pure hcontent
      exact hform.bind ((normal_word32 hi).bind_pure Operand.target)
  | _ + 7 => cases hcontent

/-- Instructions. -/
theorem Instruction.normal_codec : Instruction.codec.Normal :=
  (Opcode.normal_codec.pair (normal_word16.list.pair Operand.normal_codec)).iso fun _ => rfl

/-- Catch clauses. -/
theorem CatchClause.normal_codec : CatchClause.codec.Normal :=
  (TypeRef.normal_codec.pair normal_word32).iso fun _ => rfl

/-- The handlers of a range. -/
theorem ExceptionTable.normal_codec : ExceptionTable.codec.Normal :=
  (normal_word32.pair (normal_word32.pair
    (CatchClause.normal_codec.list.pair normal_word32.option))).iso fun _ => rfl

/-- Bodies. -/
theorem MethodBody.normal_codec : MethodBody.codec.Normal :=
  (normal_word16.pair (normal_word16.pair (normal_word16.pair
    (Instruction.normal_codec.list.pair ExceptionTable.normal_codec.list)))).iso fun _ => rfl

/-! ### Containers -/

/-- Emitted fields. -/
theorem FieldDef.normal_codec : FieldDef.codec.Normal :=
  (normal_text.pair (TypeRef.normal_codec.pair normal_word32)).iso fun _ => rfl

/-- Emitted methods. -/
theorem MethodDef.normal_codec : MethodDef.codec.Normal :=
  (normal_text.pair (Prototype.normal_codec.pair
    (normal_word32.pair MethodBody.normal_codec.option))).iso fun _ => rfl

/-- Emitted classes. -/
theorem ClassDef.normal_codec : ClassDef.codec.Normal :=
  (ClassRef.normal_codec.pair (ClassRef.normal_codec.option.pair (ClassRef.normal_codec.list.pair
    (normal_word32.pair (normal_text.option.pair
      (FieldDef.normal_codec.list.pair MethodDef.normal_codec.list)))))).iso fun _ => rfl

/-- **Containers are written in their shortest spelling.** -/
theorem Container.normal_codec : Container.codec.Normal :=
  ClassDef.normal_codec.list.iso fun _ => rfl

end BodyCache
