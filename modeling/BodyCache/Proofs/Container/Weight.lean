import Mathlib.Algebra.GroupWithZero.Nat
import BodyCache.Proofs.Codec.Spelling

/-!
# What a Payload Can Hold

A payload may come from anywhere, and the sizes in it may announce anything. Whatever is read from
it is still bounded by its bytes: every class, every member, every instruction with its registers,
every handler and every node of a type that is read takes at least one byte of its own. Writing what
was read gives a payload that is no longer and is read as the same again.

## Main results

* `Container.weight`: the number of things in a container.
* `Container.weight_le_length_encode`: there are no more things in a container than bytes.
* `Container.shortest_spelling_of_decode`: what is read from arbitrary bytes, and how it is written.
-/

namespace BodyCache

/-! ### The number of things -/

namespace TypeRef

mutual

/-- The number of nodes of a type. -/
def nodes : TypeRef → Nat
  | .primitive _ | .named _ => 1
  | .array element | .byRef element | .modified element _ _ => element.nodes + 1
  | .generic element arguments => element.nodes + nodesAll arguments + 1

/-- The number of nodes of a list of types. -/
def nodesAll : List TypeRef → Nat
  | [] => 0
  | t :: ts => t.nodes + nodesAll ts

end

end TypeRef

/-- The number of nodes of the types of a prototype. -/
def Prototype.nodes (p : Prototype) : Nat := p.returnType.nodes + TypeRef.nodesAll p.parameters

/-- The number of nodes of the types in an operand. -/
def Operand.nodes : Operand → Nat
  | .type t => t.nodes
  | .method m => m.owner.nodes + m.prototype.nodes
  | .field f => f.type.nodes
  | _ => 0

/-- An instruction, its registers and the types in its operand. -/
def Instruction.weight (i : Instruction) : Nat := 1 + i.registers.length + i.operand.nodes

/-- A catch clause and its type. -/
def CatchClause.weight (c : CatchClause) : Nat := 1 + c.exceptionType.nodes

/-- A guarded range and its catch clauses. -/
def ExceptionTable.weight (e : ExceptionTable) : Nat := 1 + (e.catches.map CatchClause.weight).sum

/-- The instructions and the guarded ranges of a body. -/
def MethodBody.weight (b : MethodBody) : Nat :=
  (b.instructions.map Instruction.weight).sum + (b.exceptions.map ExceptionTable.weight).sum

/-- A field and its type. -/
def FieldDef.weight (f : FieldDef) : Nat := 1 + f.type.nodes

/-- A method, its prototype and its body. -/
def MethodDef.weight (m : MethodDef) : Nat :=
  1 + m.prototype.nodes + m.body.elim 0 MethodBody.weight

/-- A class, its interfaces, its fields and its methods. -/
def ClassDef.weight (c : ClassDef) : Nat :=
  1 + c.interfaces.length + (c.fields.map FieldDef.weight).sum +
    (c.methods.map MethodDef.weight).sum

/-- The number of things in a container: every class, interface, field, method, instruction,
register, guarded range, catch clause and node of a type counts as one. -/
def Container.weight (c : Container) : Nat := (c.classes.map ClassDef.weight).sum

/-! ### Every thing takes a byte -/

namespace Codec

variable {α β : Type} {c : Codec α} {c' : Codec β} {f : α → Nat} {g : β → Nat}

/-- A codec covers a number for each value when it writes at least as many bytes. -/
def Covers (c : Codec α) (f : α → Nat) : Prop := ∀ v, f v ≤ (c.encode v).length

/-- A lawful codec writes at least one byte. -/
theorem Lawful.covers_one (hc : c.Lawful) : c.Covers fun _ => 1 :=
  fun v => List.length_pos_iff.mpr (hc.ne_nil v)

namespace Covers

/-- Two values, one after the other. -/
theorem pair (hc : c.Covers f) (hc' : c'.Covers g) :
    (c.pair c').Covers fun v => f v.1 + g v.2 := by
  intro v
  simp only [Codec.pair, List.length_append]
  exact Nat.add_le_add (hc v.1) (hc' v.2)

/-- Values seen as another type. -/
theorem iso (hc : c.Covers f) {pack : α → β} {unpack : β → α} (h : ∀ b, g b ≤ f (unpack b)) :
    (c.iso pack unpack).Covers g := fun b => Nat.le_trans (h b) (hc (unpack b))

/-- Optional values. -/
theorem option (hc : c.Covers f) : (Codec.option c).Covers fun o => o.elim 0 f := by
  intro o
  cases o with
  | none => exact Nat.zero_le _
  | some v => exact Nat.le_succ_of_le (hc v)

/-- Lists. -/
theorem list (hc : c.Covers f) : (Codec.list c).Covers fun vs => (vs.map f).sum := by
  intro vs
  have hitems : (vs.map f).sum ≤ (vs.flatMap c.encode).length := by
    induction vs with
    | nil => exact Nat.le_refl 0
    | cons v vs ih =>
        rw [List.map_cons, List.sum_cons, List.flatMap_cons, List.length_append]
        exact Nat.add_le_add (hc v) ih
  simp only [Codec.list, List.length_append]
  omega

end Covers

/-- There are no more items than bytes. -/
theorem Lawful.covers_length (hc : c.Lawful) : (Codec.list c).Covers List.length := by
  intro vs
  have hitems := hc.length_le vs
  simp only [Codec.list, List.length_append]
  omega

end Codec

open Codec

namespace TypeRef

mutual

/-- A type has no more nodes than bytes, because each begins with the number of its form. -/
theorem nodes_le (t : TypeRef) : t.nodes ≤ t.encode.length := by
  cases t with
  | primitive p =>
      rw [nodes, encode, List.length_append, Varint.length_encode_of_lt (by decide)]
      exact Nat.le_add_right 1 _
  | named c =>
      rw [nodes, encode, List.length_append, Varint.length_encode_of_lt (by decide)]
      exact Nat.le_add_right 1 _
  | array element =>
      have helement := nodes_le element
      rw [nodes, encode, List.length_append, Varint.length_encode_of_lt (by decide)]
      omega
  | byRef element =>
      have helement := nodes_le element
      rw [nodes, encode, List.length_append, Varint.length_encode_of_lt (by decide)]
      omega
  | generic element arguments =>
      have helement := nodes_le element
      have harguments := nodesAll_le arguments
      rw [nodes, encode, List.length_append, List.length_append, List.length_append,
        Varint.length_encode_of_lt (by decide)]
      omega
  | modified element modifier required =>
      have helement := nodes_le element
      rw [nodes, encode, List.length_append, List.length_append,
        Varint.length_encode_of_lt (by decide)]
      omega

/-- The types of a list have no more nodes than bytes. -/
theorem nodesAll_le (ts : List TypeRef) : nodesAll ts ≤ (encodeAll ts).length := by
  cases ts with
  | nil => exact Nat.le_refl 0
  | cons t ts =>
      rw [nodesAll, encodeAll, List.length_append]
      exact Nat.add_le_add (nodes_le t) (nodesAll_le ts)

end

/-- Types cover their nodes. -/
theorem covers_codec : codec.Covers nodes := nodes_le

/-- The nodes of a list of types are those of its members. -/
theorem nodesAll_eq_sum (ts : List TypeRef) : nodesAll ts = (ts.map nodes).sum := by
  induction ts with
  | nil => rfl
  | cons t ts ih => rw [nodesAll, ih, List.map_cons, List.sum_cons]

end TypeRef

/-- Prototypes cover the nodes of their types. -/
theorem Prototype.covers_codec : Prototype.codec.Covers nodes :=
  (TypeRef.covers_codec.pair TypeRef.covers_codec.list).iso fun p =>
    Nat.le_of_eq (by rw [nodes, TypeRef.nodesAll_eq_sum])

/-! ### Bodies -/

/-- Method references cover the nodes of their types. -/
theorem MethodRef.covers_codec :
    MethodRef.codec.Covers fun m => m.owner.nodes + m.prototype.nodes :=
  (TypeRef.covers_codec.pair (lawful_text.covers_one.pair Prototype.covers_codec)).iso fun m => by
    dsimp only
    omega

/-- Field references cover the nodes of their types. -/
theorem FieldRef.covers_codec : FieldRef.codec.Covers fun f => f.type.nodes :=
  (ClassRef.lawful_codec.covers_one.pair
    (lawful_text.covers_one.pair TypeRef.covers_codec)).iso fun f => by
      dsimp only
      omega

/-- Operands cover the nodes of their types. -/
theorem Operand.covers_codec : Operand.codec.Covers nodes := by
  intro o
  have hform {n : Nat} (content : Bytes) : content.length ≤ (Varint.encode n ++ content).length := by
    rw [List.length_append]
    exact Nat.le_add_left _ _
  cases o with
  | none | literal | text | target => exact Nat.zero_le _
  | type t => exact Nat.le_trans (TypeRef.covers_codec t) (hform _)
  | method m => exact Nat.le_trans (MethodRef.covers_codec m) (hform _)
  | field f => exact Nat.le_trans (FieldRef.covers_codec f) (hform _)

/-- Instructions take a byte for themselves and one for each register. -/
theorem Instruction.covers_codec : Instruction.codec.Covers weight :=
  (Opcode.lawful_codec.covers_one.pair
    (lawful_word16.covers_length.pair Operand.covers_codec)).iso fun i => by
      simp only [weight]
      omega

/-- Catch clauses take a byte for themselves. -/
theorem CatchClause.covers_codec : CatchClause.codec.Covers weight :=
  (TypeRef.covers_codec.pair lawful_word32.covers_one).iso fun c => by
    simp only [weight]
    omega

/-- Guarded ranges take a byte for themselves. -/
theorem ExceptionTable.covers_codec : ExceptionTable.codec.Covers weight :=
  (lawful_word32.covers_one.pair (lawful_word32.covers_one.pair
    (CatchClause.covers_codec.list.pair lawful_word32.option.covers_one))).iso fun e => by
      simp only [weight]
      omega

/-- Bodies take the bytes of their instructions and ranges. -/
theorem MethodBody.covers_codec : MethodBody.codec.Covers weight :=
  (lawful_word16.covers_one.pair (lawful_word16.covers_one.pair (lawful_word16.covers_one.pair
    (Instruction.covers_codec.list.pair ExceptionTable.covers_codec.list)))).iso fun b => by
      simp only [weight]
      omega

/-! ### Containers -/

/-- Fields take a byte for themselves. -/
theorem FieldDef.covers_codec : FieldDef.codec.Covers weight :=
  (lawful_text.covers_one.pair (TypeRef.covers_codec.pair lawful_word32.covers_one)).iso
    fun f => by
      simp only [weight]
      omega

/-- Methods take a byte for themselves. -/
theorem MethodDef.covers_codec : MethodDef.codec.Covers weight :=
  (lawful_text.covers_one.pair (Prototype.covers_codec.pair
    (lawful_word32.covers_one.pair MethodBody.covers_codec.option))).iso fun m => by
      simp only [weight]
      omega

/-- Classes take a byte for themselves and one for each interface. -/
theorem ClassDef.covers_codec : ClassDef.codec.Covers weight :=
  (ClassRef.lawful_codec.covers_one.pair (ClassRef.lawful_codec.option.covers_one.pair
    (ClassRef.lawful_codec.covers_length.pair (lawful_word32.covers_one.pair
      (lawful_text.option.covers_one.pair
        (FieldDef.covers_codec.list.pair MethodDef.covers_codec.list)))))).iso fun c => by
          simp only [weight]
          omega

namespace Container

/-- **There are no more things in a container than bytes.** -/
theorem weight_le_length_encode (c : Container) : c.weight ≤ (codec.encode c).length :=
  ClassDef.covers_codec.list.iso (fun _ => Nat.le_refl _) c

/-! ### Arbitrary bytes -/

/-- **What is read from arbitrary bytes.** When a container is read, it is read from the bytes that
are taken, wherever they stand and whatever follows them. What is written for it is no longer than
these bytes and is read as the same container. And there are no more things in it than it is written
in bytes, whatever the sizes in the payload announce. -/
theorem shortest_spelling_of_decode {w rest : Bytes} {c : Container}
    (h : codec.decode w = .ok (c, rest)) :
    ∃ front, w = front ++ rest ∧
      (∀ after, codec.decode (front ++ after) = .ok (c, after)) ∧
      (codec.encode c).length ≤ front.length ∧
      (∀ after, codec.decode (codec.encode c ++ after) = .ok (c, after)) ∧
      c.weight ≤ (codec.encode c).length := by
  obtain ⟨front, hfront, hrespells⟩ := normal_codec h
  exact ⟨front, hfront, hrespells.reads _ (Nat.le_refl _), hrespells.length_le,
    hrespells.reads_short _ (Nat.le_refl _), c.weight_le_length_encode⟩

/-- A class with one method, which takes an array and returns at once. -/
def stub : Container where
  classes :=
    [{ target := ⟨"LA;"⟩
       accessFlags := 1
       methods :=
        [⟨"m", .ofTypes (.primitive .void) [.array (.primitive .int)], 9, some {
          registersSize := 1
          instructions := [⟨.returnVoid, [1], .none⟩] }⟩] }]

/-- The same container with wide sizes, flags and numbers, and another byte after it. -/
def wideStub : Bytes :=
  [251, 1, 0, 3, 76, 65, 59, 0, 0, 252, 1, 0, 0, 0, 0, 0, 1, 1, 109, 0, 0, 1, 2, 251, 0, 0, 5,
    252, 9, 0, 0, 0, 1, 251, 1, 0, 0, 0, 1, 4, 251, 1, 0, 251, 1, 0, 0, 0, 7]

/-- The wide spelling is read, and the container is written in its short one. -/
theorem shortest_spelling_of_decode_stub :
    codec.decode wideStub = .ok (stub, [7]) ∧
      ∃ front, wideStub = front ++ [7] ∧ (codec.encode stub).length ≤ front.length ∧
        codec.decode (codec.encode stub) = .ok (stub, []) ∧
        stub.weight ≤ (codec.encode stub).length := by
  have hdecode : codec.decode wideStub = .ok (stub, [7]) := rfl
  obtain ⟨front, hfront, -, hle, hagain, hweight⟩ := shortest_spelling_of_decode hdecode
  have hagain := hagain []
  rw [List.append_nil] at hagain
  exact ⟨hdecode, front, hfront, hle, hagain, hweight⟩

end Container

end BodyCache
