import Mathlib.Algebra.Group.Nat.Defs
import Mathlib.Tactic.SplitIfs
import BodyCache.Proofs.Codec.Failure

/-!
# Lawful Codecs

A codec is lawful when it reads back what it wrote, whatever follows, and leaves what follows
untouched. Texts and lists announce their size in a number of 64 bits, so this can only hold of
values whose bytes can be addressed. A lawful codec writes at least one byte, which bounds the
length of a list by its bytes. Codecs put together from lawful ones are lawful.

## Main results

* `LittleEndian.decode_encode`: numbers of a fixed width are read back modulo `256 ^ width`.
* `Decoder.Reads`: what it means that a reader takes given bytes for a value.
* `Varint.reads`: numbers are read back, in any width that holds them.
* `Codec.Lawful`: the law of a codec.
* `Codec.Lawful.pair`, `Codec.Lawful.iso`, `Codec.Lawful.option`, `Codec.Lawful.list`: how lawful
  codecs are combined.
-/

namespace BodyCache

/-! ### The range of little-endian numbers -/

namespace LittleEndian

/-- Reading back gives the number modulo `256 ^ width`. -/
theorem decode_encode (width n : Nat) : decode (encode width n) = n % 256 ^ width := by
  induction width generalizing n with
  | zero => simp [encode, decode, Nat.mod_one]
  | succ width ih =>
    have h : (UInt8.ofNat n).toNat = n % 256 := UInt8.toNat_ofNat'
    rw [encode, decode, ih, h, Nat.pow_succ', Nat.mod_mul]

/-- What is read lies in the range. -/
theorem decode_lt (bs : Bytes) : decode bs < 256 ^ bs.length := by
  induction bs with
  | nil => simp [decode]
  | cons b bs ih =>
    have hb : b.toNat < 256 := b.toNat_lt
    rw [decode, List.length_cons, Nat.pow_succ']
    omega

end LittleEndian

/-! ### Readers -/

namespace Decoder

variable {α β : Type} {d : Decoder α} {f : α → Decoder β} {w w' : Bytes} {a : α} {b : β}

/-- The reader takes the given bytes, with anything after them, for the given value, and leaves
what is after them. -/
def Reads (d : Decoder α) (w : Bytes) (a : α) : Prop := ∀ rest, d (w ++ rest) = .ok (a, rest)

/-- A value can be given without reading anything. -/
theorem Reads.pure (a : α) : Reads (Pure.pure a) [] a := fun _ => rfl

/-- What is read first comes first. -/
theorem Reads.bind (hd : d.Reads w a) (hf : (f a).Reads w' b) : (d >>= f).Reads (w ++ w') b := by
  intro rest
  rw [List.append_assoc, bind_of_ok (hd (w' ++ rest))]
  exact hf rest

/-- What is read may be turned into a value without further reading. -/
theorem Reads.bind_of_eq (hd : d.Reads w a) (hf : f a = Pure.pure b) : (d >>= f).Reads w b := by
  have hb : (f a).Reads [] b := by
    rw [hf]
    exact Reads.pure b
  have h := hd.bind hb
  rwa [List.append_nil] at h

/-- What is read may be packed. -/
theorem Reads.bind_pure (hd : d.Reads w a) (pack : α → β) :
    (d >>= fun x => Pure.pure (pack x)).Reads w (pack a) := hd.bind_of_eq rfl

/-- What is read may be changed. -/
theorem Reads.map (hd : d.Reads w a) (pack : α → β) : (pack <$> d).Reads w (pack a) :=
  hd.bind_pure pack

/-- One byte is read as itself. -/
theorem reads_byte (x : UInt8) : byte.Reads [x] x := fun _ => rfl

/-- As many bytes as asked for are read as themselves. -/
theorem reads_take {count : Nat} (room : Nat) (h : w.length = count) :
    (take count room).Reads w w := by
  intro rest
  have hle : count ≤ (w ++ rest).length := by
    rw [List.length_append]
    omega
  rw [take, if_pos hle, List.take_left' h, List.drop_left' h]

/-- Items that are read one by one are read as a list. -/
theorem reads_times {enc : α → Bytes} {as : List α} (h : ∀ x ∈ as, d.Reads (enc x) x) :
    (d.times as.length).Reads (as.flatMap enc) as := by
  induction as with
  | nil => exact Reads.pure []
  | cons x xs ih =>
      rw [List.forall_mem_cons] at h
      exact h.1.bind ((ih h.2).bind_pure (x :: ·))

end Decoder

/-! ### Numbers -/

namespace Varint

/-- A number is written in at least one byte. -/
theorem encode_ne_nil (n : Nat) : encode n ≠ [] := by
  rw [encode]
  split_ifs <;> exact List.cons_ne_nil _ _

/-- A number after a mark is read back if the mark announces no more bytes than may be read. -/
theorem reads_marked {mark : UInt8} {k width n : Nat} (hmark : ¬mark < 251)
    (hk : payloadWidth? mark = some k) (hwidth : k ≤ width) (hn : n < 256 ^ k) :
    (decode width).Reads (mark :: LittleEndian.encode k n) n := by
  refine (Decoder.reads_byte mark).bind ?_
  rw [if_neg hmark, hk]
  simp only [if_pos hwidth]
  have h := (Decoder.reads_take 0 (LittleEndian.length_encode k n)).bind_pure LittleEndian.decode
  rwa [LittleEndian.decode_encode, Nat.mod_eq_of_lt hn] at h

/-- **A number is read back** in every width that holds it. -/
theorem reads {width n : Nat} (hwidth : width = 2 ∨ width = 4 ∨ width = 8)
    (hn : n < 256 ^ width) : (decode width).Reads (encode n) n := by
  rw [encode]
  split_ifs with h1 h2 h3
  · have hb : (UInt8.ofNat n).toNat = n := by
      rw [UInt8.toNat_ofNat']
      omega
    have hlt : UInt8.ofNat n < 251 := by
      rw [UInt8.lt_iff_toNat_lt, hb]
      exact h1
    have h : (decode width).Reads ([UInt8.ofNat n] ++ []) n := by
      refine (Decoder.reads_byte _).bind ?_
      rw [if_pos hlt, hb]
      exact Decoder.Reads.pure n
    exact h
  · exact reads_marked (by decide) rfl (by omega) h2
  · have hw : width ≠ 2 := by
      rintro rfl
      exact h2 hn
    exact reads_marked (by decide) rfl (by omega) h3
  · have hw : width ≠ 2 ∧ width ≠ 4 := by
      constructor
      · rintro rfl
        exact h2 hn
      · rintro rfl
        exact h3 hn
    obtain rfl : width = 8 := by omega
    exact reads_marked (by decide) rfl (Nat.le_refl 8) hn

/-- The number of an alternative is read back. -/
theorem reads_of_lt {n : Nat} (h : n < 251) : (decode 4).Reads (encode n) n :=
  reads (.inr (.inl rfl)) (by omega)

/-- The number of an alternative takes one byte. -/
theorem length_encode_of_lt {n : Nat} (h : n < 251) : (encode n).length = 1 := by
  rw [encode, if_pos h, List.length_singleton]

end Varint

namespace Codec

variable {α β : Type}

/-! ### The law -/

/-- A codec is lawful when it reads back what it wrote, if that can be addressed, and never writes
nothing. -/
structure Lawful (c : Codec α) : Prop where
  /-- What is written for a value is read as that value. -/
  reads : ∀ v, (c.encode v).length < addressLimit → c.decode.Reads (c.encode v) v
  /-- Something is written for every value. -/
  ne_nil : ∀ v, c.encode v ≠ []

/-- The end of what can be addressed can be addressed. -/
theorem length_lt_of_append {w w' : Bytes} (h : (w ++ w').length < addressLimit) :
    w'.length < addressLimit := by
  rw [List.length_append] at h
  omega

/-- The size of what can be addressed is read back. -/
theorem reads_size {n : Nat} (h : n < addressLimit) : size.decode.Reads (size.encode n) n := by
  refine Varint.reads (.inr (.inr rfl)) (Nat.lt_trans h ?_)
  decide

/-! ### Plain values -/

/-- Numbers of 16 bits are lawful. -/
theorem lawful_word16 : word16.Lawful where
  reads v _ := by
    have h := (Varint.reads (.inl rfl) v.toNat_lt).map UInt16.ofNat
    rwa [UInt16.ofNat_toNat] at h
  ne_nil _ := Varint.encode_ne_nil _

/-- Numbers of 32 bits are read back. -/
theorem reads_word32 (v : UInt32) : word32.decode.Reads (word32.encode v) v := by
  have h := (Varint.reads (.inr (.inl rfl)) v.toNat_lt).map UInt32.ofNat
  rwa [UInt32.ofNat_toNat] at h

/-- Numbers of 32 bits are lawful. -/
theorem lawful_word32 : word32.Lawful where
  reads v _ := reads_word32 v
  ne_nil _ := Varint.encode_ne_nil _

/-- The alternating order can be undone. -/
theorem unzigzag_zigzag (i : Int) : unzigzag (zigzag i) = i := by
  cases i with
  | ofNat n =>
      rw [zigzag, unzigzag, if_pos (by omega)]
      congr 1
      omega
  | negSucc n =>
      rw [zigzag, unzigzag, if_neg (by omega)]
      congr 1
      omega

/-- Signed numbers of 64 bits keep to 64 bits in the alternating order. -/
theorem zigzag_toInt_lt (v : Int64) : zigzag v.toInt < 256 ^ 8 := by
  have hlow := v.le_toInt
  have hhigh := v.toInt_lt
  cases hv : v.toInt with
  | ofNat n =>
      rw [hv, Int.ofNat_eq_natCast] at hhigh
      simp only [zigzag]
      omega
  | negSucc n =>
      rw [hv] at hlow
      simp only [zigzag]
      omega

/-- Signed numbers of 64 bits are lawful. -/
theorem lawful_int64 : int64.Lawful where
  reads v _ := by
    have h := (Varint.reads (.inr (.inr rfl)) (zigzag_toInt_lt v)).map
      fun n => Int64.ofInt (unzigzag n)
    rwa [unzigzag_zigzag, Int64.ofInt_toInt] at h
  ne_nil _ := Varint.encode_ne_nil _

/-- Truth values are lawful. -/
theorem lawful_bool : bool.Lawful where
  reads v _ := by
    intro rest
    cases v <;> rfl
  ne_nil _ := List.cons_ne_nil _ _

/-- Texts are lawful. -/
theorem lawful_text : text.Lawful where
  reads s h := by
    have hlt : (Utf8.encode s).length < addressLimit := length_lt_of_append h
    refine (reads_size hlt).bind ?_
    rw [if_neg (Nat.not_le.mpr hlt)]
    refine (Decoder.reads_take _ rfl).bind_of_eq ?_
    rw [Utf8.decode?_encode]
  ne_nil _ := by
    intro h
    exact Varint.encode_ne_nil _ (List.append_eq_nil_iff.mp h).1

/-- A listed value is read back. -/
theorem reads_oneOf [DecidableEq α] {values : List α} {v : α} (hv : v ∈ values)
    (hlen : values.length ≤ UInt32.size) :
    (oneOf values).decode.Reads ((oneOf values).encode v) v := by
  have hlt : values.idxOf v < values.length := List.idxOf_lt_length_of_mem hv
  have hget : values[values.idxOf v]? = some v := by
    rw [List.getElem?_eq_getElem hlt, List.getElem_idxOf hlt]
  refine (Varint.reads (.inr (.inl rfl)) (Nat.lt_of_lt_of_le hlt hlen)).bind_of_eq ?_
  rw [hget]

/-- One of finitely many values is lawful if they are all listed. -/
theorem lawful_oneOf [DecidableEq α] {values : List α} (hall : ∀ v, v ∈ values)
    (hlen : values.length ≤ UInt32.size) : (oneOf values).Lawful where
  reads v _ := reads_oneOf (hall v) hlen
  ne_nil _ := Varint.encode_ne_nil _

/-! ### Compound values -/

namespace Lawful

/-- Two values, one after the other, are lawful. -/
theorem pair {c : Codec α} {c' : Codec β} (hc : c.Lawful) (hc' : c'.Lawful) :
    (c.pair c').Lawful where
  reads v h := by
    simp only [Codec.pair, List.length_append] at h
    have hfirst := hc.reads v.1 (by omega)
    have hsecond := hc'.reads v.2 (by omega)
    exact hfirst.bind (hsecond.bind_pure fun b => (v.1, b))
  ne_nil v := by
    intro h
    exact hc.ne_nil v.1 (List.append_eq_nil_iff.mp h).1

/-- Values seen as another type are lawful if nothing of that type is lost. -/
theorem iso {c : Codec α} (hc : c.Lawful) {pack : α → β} {unpack : β → α}
    (h : ∀ b, pack (unpack b) = b) : (c.iso pack unpack).Lawful where
  reads b hlen := by
    have hread := (hc.reads (unpack b) hlen).map pack
    rwa [h] at hread
  ne_nil b := hc.ne_nil (unpack b)

/-- Optional values are lawful. -/
theorem option {c : Codec α} (hc : c.Lawful) : (Codec.option c).Lawful where
  reads v h := by
    cases v with
    | none =>
        intro rest
        rfl
    | some v =>
        have hlen : (c.encode v).length < addressLimit := Nat.lt_of_succ_lt h
        exact (Decoder.reads_byte 1).bind ((hc.reads v hlen).bind_pure some)
  ne_nil v := by
    cases v <;> exact List.cons_ne_nil _ _

/-- There are no more items than bytes. -/
theorem length_le {c : Codec α} (hc : c.Lawful) (vs : List α) :
    vs.length ≤ (vs.flatMap c.encode).length := by
  induction vs with
  | nil => exact Nat.le_refl 0
  | cons v vs ih =>
      have hv := List.length_pos_iff.mpr (hc.ne_nil v)
      rw [List.flatMap_cons, List.length_cons, List.length_append]
      omega

/-- Lists are lawful. -/
theorem list {c : Codec α} (hc : c.Lawful) : (Codec.list c).Lawful where
  reads vs h := by
    have hitems : (vs.flatMap c.encode).length < addressLimit := length_lt_of_append h
    have hcount : vs.length < addressLimit := Nat.lt_of_le_of_lt (hc.length_le vs) hitems
    refine (reads_size hcount).bind (Decoder.reads_times ?_)
    intro v hv
    have hitem : (c.encode v).Sublist (vs.flatMap c.encode) :=
      List.sublist_flatten_of_mem (List.mem_map_of_mem hv)
    exact hc.reads v (Nat.lt_of_le_of_lt hitem.length_le hitems)
  ne_nil _ := by
    intro h
    exact Varint.encode_ne_nil _ (List.append_eq_nil_iff.mp h).1

end Lawful

end Codec

end BodyCache
