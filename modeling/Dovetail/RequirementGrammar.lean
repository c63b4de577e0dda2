import Dovetail.RequirementBlob
import Mathlib.Tactic

/-!
# The grammar of compiled code requirements

The binary form is described here by what is written, not by how it is
read: an expression tree keeps every byte of its encoding, the padding of
its data and the operands nobody looks at included.  The reader of
`RequirementBlob` accepts exactly the encodings of trees whose opcodes carry
the operands of their class and whose nodes lie above the depth bound, and
returns the clause the tree denotes.  Since the encoding is prefix free, no
accepted byte string has two readings.
-/

namespace Dovetail
namespace RequirementBlob

open CursorReader PrefixCode

/-! ## Operands -/

/-- Bytes with their length announced and their end aligned to four. -/
structure Data where
  bytes : List UInt8
  padding : List UInt8
  bounded : bytes.length < 2 ^ 32
  padded : padding.length = (4 - bytes.length % 4) % 4

namespace Data

def encode (d : Data) : List UInt8 :=
  be32 (UInt32.ofNat d.bytes.length) ++ (d.bytes ++ d.padding)

theorem prefixFree_encode : PrefixFree encode := by
  intro d e r s happend
  simp only [encode, List.append_assoc] at happend
  obtain ⟨hword, hrest⟩ := prefixFree_be32 happend
  have hlength : d.bytes.length = e.bytes.length := by
    rw [← toNat_ofNat_length d.bounded, hword, toNat_ofNat_length e.bounded]
  obtain ⟨hbytes, hpaddings⟩ := List.append_inj hrest hlength
  have hpadLength : d.padding.length = e.padding.length := by
    rw [d.padded, e.padded, hlength]
  obtain ⟨hpadding, htail⟩ := List.append_inj hpaddings hpadLength
  cases d
  cases e
  cases hbytes
  cases hpadding
  exact ⟨rfl, htail⟩

end Data

inductive MatchShape where
  | bare
  | operand
  | moment

/-- The operand of each comparison. -/
def matchShapeOf : UInt32 → Option MatchShape
  | 0 | 14 => some .bare
  | 1 | 2 | 3 | 4 | 5 | 6 | 7 | 8 => some .operand
  | 9 | 10 | 11 | 12 | 13 => some .moment
  | _ => none

/-- A comparison with the operand its kind has. -/
inductive Match where
  | bare (op : UInt32) (hop : matchShapeOf op = some .bare)
  | operand (op : UInt32) (hop : matchShapeOf op = some .operand)
      (value : Data)
  | moment (op : UInt32) (hop : matchShapeOf op = some .moment)
      (timestamp : List UInt8) (hlength : timestamp.length = 8)

namespace Match

def op : Match → UInt32
  | bare op _ => op
  | operand op _ _ => op
  | moment op _ _ _ => op

def operandBytes : Match → List UInt8
  | bare _ _ => []
  | operand _ _ value => value.encode
  | moment _ _ timestamp _ => timestamp

def encode (m : Match) : List UInt8 :=
  be32 m.op ++ m.operandBytes

def view : Match → Comparison
  | bare op _ => if op = 0 then .exists else .other
  | operand op _ value => if op = 1 then .equals value.bytes else .other
  | moment _ _ _ _ => .other

def shape : Match → MatchShape
  | bare _ _ => .bare
  | operand _ _ _ => .operand
  | moment _ _ _ _ => .moment

theorem matchShapeOf_op (m : Match) : matchShapeOf m.op = some m.shape := by
  cases m <;> assumption

theorem prefixFree_encode : PrefixFree encode := by
  intro m n r s happend
  simp only [encode, List.append_assoc] at happend
  obtain ⟨hop, hrest⟩ := prefixFree_be32 happend
  have hshape : m.shape = n.shape := by
    apply Option.some.inj
    rw [← m.matchShapeOf_op, ← n.matchShapeOf_op, hop]
  cases m <;> cases n <;> simp only [shape, reduceCtorEq] at hshape <;>
    cases hop <;> simp only [operandBytes] at hrest
  case bare.bare => exact ⟨rfl, hrest⟩
  case operand.operand =>
    obtain ⟨rfl, htail⟩ := Data.prefixFree_encode hrest
    exact ⟨rfl, htail⟩
  case moment.moment _ _ _ hlength _ hlength' _ =>
    obtain ⟨rfl, htail⟩ :=
      List.append_inj hrest (hlength.trans hlength'.symm)
    exact ⟨rfl, htail⟩

end Match

/-- What may follow an opcode. -/
inductive Shape where
  | nothing
  | word
  | data
  | wordData
  | dataData
  | dataMatch
  | slotMatch
  | unary
  | binary
  deriving DecidableEq

/-- The class of each opcode. -/
def shapeOf : UInt32 → Option Shape
  | 0 | 1 | 3 | 13 | 15 | 21 | 23 => some .nothing
  | 12 | 20 => some .word
  | 2 | 8 | 18 | 19 => some .data
  | 4 => some .wordData
  | 5 => some .dataData
  | 10 | 16 => some .dataMatch
  | 11 | 14 | 17 | 22 => some .slotMatch
  | 9 => some .unary
  | 6 | 7 => some .binary
  | _ => none

/-- The operands of an opcode without sub-expressions. -/
inductive Operands where
  | nothing
  | word (w : UInt32)
  | data (d : Data)
  | wordData (w : UInt32) (d : Data)
  | dataData (first second : Data)
  | dataMatch (d : Data) (m : Match)
  | slotMatch (slot : UInt32) (field : Data) (m : Match)

namespace Operands

def shape : Operands → Shape
  | nothing => .nothing
  | word _ => .word
  | data _ => .data
  | wordData _ _ => .wordData
  | dataData _ _ => .dataData
  | dataMatch _ _ => .dataMatch
  | slotMatch _ _ _ => .slotMatch

def encode : Operands → List UInt8
  | nothing => []
  | word w => be32 w
  | data d => d.encode
  | wordData w d => be32 w ++ d.encode
  | dataData first second => first.encode ++ second.encode
  | dataMatch d m => d.encode ++ m.encode
  | slotMatch slot field m => be32 slot ++ (field.encode ++ m.encode)

/-- What the strength check sees of a node without sub-expressions. -/
def view (op : UInt32) : Operands → Clause
  | nothing =>
      if op = 1 then .true else if op = 15 then .genericAnchor else .other
  | data d =>
      if op = 2 then .identifier d.bytes
      else if op = 8 then .cdHash d.bytes
      else .other
  | slotMatch slot field m =>
      if op = 11 ∧ slot = 0 then .leafField field.bytes m.view
      else if op = 14 ∧ slot = 0 then .leafExtension field.bytes m.view
      else if op = 14 ∧ slot = 1 then
        .intermediateExtension field.bytes m.view
      else .other
  | _ => .other

theorem encode_append_inj {o p : Operands} {r s : List UInt8}
    (hshape : o.shape = p.shape)
    (happend : o.encode ++ r = p.encode ++ s) : o = p ∧ r = s := by
  cases o <;> cases p <;> simp only [shape, reduceCtorEq] at hshape <;>
    simp only [encode, List.append_assoc] at happend
  case nothing.nothing => exact ⟨rfl, happend⟩
  case word.word =>
    obtain ⟨rfl, htail⟩ := prefixFree_be32 happend
    exact ⟨rfl, htail⟩
  case data.data =>
    obtain ⟨rfl, htail⟩ := Data.prefixFree_encode happend
    exact ⟨rfl, htail⟩
  case wordData.wordData =>
    obtain ⟨rfl, hdata⟩ := prefixFree_be32 happend
    obtain ⟨rfl, htail⟩ := Data.prefixFree_encode hdata
    exact ⟨rfl, htail⟩
  case dataData.dataData =>
    obtain ⟨rfl, hsecond⟩ := Data.prefixFree_encode happend
    obtain ⟨rfl, htail⟩ := Data.prefixFree_encode hsecond
    exact ⟨rfl, htail⟩
  case dataMatch.dataMatch =>
    obtain ⟨rfl, hmatch⟩ := Data.prefixFree_encode happend
    obtain ⟨rfl, htail⟩ := Match.prefixFree_encode hmatch
    exact ⟨rfl, htail⟩
  case slotMatch.slotMatch =>
    obtain ⟨rfl, hfield⟩ := prefixFree_be32 happend
    obtain ⟨rfl, hmatch⟩ := Data.prefixFree_encode hfield
    obtain ⟨rfl, htail⟩ := Match.prefixFree_encode hmatch
    exact ⟨rfl, htail⟩

end Operands

/-! ## Expression trees -/

inductive Expr where
  | plain (op : UInt32) (operands : Operands)
  | unary (op : UInt32) (inner : Expr)
  | binary (op : UInt32) (left right : Expr)

namespace Expr

def encode : Expr → List UInt8
  | plain op operands => be32 op ++ operands.encode
  | unary op inner => be32 op ++ inner.encode
  | binary op left right => be32 op ++ (left.encode ++ right.encode)

/-- Every opcode carries the operands of its class. -/
def WellFormed : Expr → Prop
  | plain op operands => shapeOf op = some operands.shape
  | unary op inner => shapeOf op = some .unary ∧ inner.WellFormed
  | binary op left right =>
      shapeOf op = some .binary ∧ left.WellFormed ∧ right.WellFormed

/-- Every node lies above the bound, with the root at `depth`. -/
def DepthBelow (bound : ℕ) : ℕ → Expr → Prop
  | depth, plain _ _ => depth < bound
  | depth, unary _ inner => depth < bound ∧ inner.DepthBelow bound (depth + 1)
  | depth, binary _ left right =>
      depth < bound ∧ left.DepthBelow bound (depth + 1) ∧
        right.DepthBelow bound (depth + 1)

def view : Expr → Clause
  | plain op operands => operands.view op
  | unary _ inner => .not inner.view
  | binary op left right =>
      if op = 6 then .and left.view right.view else .or left.view right.view

def op : Expr → UInt32
  | plain op _ => op
  | unary op _ => op
  | binary op _ _ => op

/-- What follows the opcode. -/
def body : Expr → List UInt8
  | plain _ operands => operands.encode
  | unary _ inner => inner.encode
  | binary _ left right => left.encode ++ right.encode

def shape : Expr → Shape
  | plain _ operands => operands.shape
  | unary _ _ => .unary
  | binary _ _ _ => .binary

theorem encode_eq (e : Expr) : e.encode = be32 e.op ++ e.body := by
  cases e <;> rfl

theorem WellFormed.shapeOf_op {e : Expr} (he : e.WellFormed) :
    shapeOf e.op = some e.shape := by
  cases e with
  | plain op operands => exact he
  | unary op inner => exact he.1
  | binary op left right => exact he.1

theorem shape_eq_of_op_eq {e f : Expr} (he : e.WellFormed)
    (hf : f.WellFormed) (hop : e.op = f.op) : e.shape = f.shape := by
  apply Option.some.inj
  rw [← he.shapeOf_op, ← hf.shapeOf_op, hop]

theorem encode_append_inj {e f : Expr} (he : e.WellFormed)
    (hf : f.WellFormed) {r s : List UInt8}
    (happend : e.encode ++ r = f.encode ++ s) : e = f ∧ r = s := by
  induction e generalizing f r s with
  | plain op operands =>
      rw [encode_eq, encode_eq, List.append_assoc, List.append_assoc]
        at happend
      obtain ⟨hop, hbody⟩ := prefixFree_be32 happend
      have hshape := shape_eq_of_op_eq he hf hop
      cases f with
      | plain op' operands' =>
          cases hop
          obtain ⟨rfl, htail⟩ := Operands.encode_append_inj hshape hbody
          exact ⟨rfl, htail⟩
      | unary op' inner' => cases operands <;> cases hshape
      | binary op' left' right' => cases operands <;> cases hshape
  | unary op inner ih =>
      rw [encode_eq, encode_eq, List.append_assoc, List.append_assoc]
        at happend
      obtain ⟨hop, hbody⟩ := prefixFree_be32 happend
      have hshape := shape_eq_of_op_eq he hf hop
      cases f with
      | plain op' operands' => cases operands' <;> cases hshape
      | unary op' inner' =>
          cases hop
          obtain ⟨rfl, htail⟩ := ih he.2 hf.2 hbody
          exact ⟨rfl, htail⟩
      | binary op' left' right' => cases hshape
  | binary op left right ihl ihr =>
      rw [encode_eq, encode_eq, List.append_assoc, List.append_assoc]
        at happend
      obtain ⟨hop, hbody⟩ := prefixFree_be32 happend
      have hshape := shape_eq_of_op_eq he hf hop
      cases f with
      | plain op' operands' => cases operands' <;> cases hshape
      | unary op' inner' => cases hshape
      | binary op' left' right' =>
          cases hop
          simp only [body, List.append_assoc] at hbody
          obtain ⟨rfl, hright⟩ := ihl he.2.1 hf.2.1 hbody
          obtain ⟨rfl, htail⟩ := ihr he.2.2 hf.2.2 hright
          exact ⟨rfl, htail⟩

end Expr

/-! ## What the readers accept -/

theorem reads_take (count : ℕ) :
    Reads (take count) (fun bytes w => bytes = w ∧ w.length = count) :=
  Reads.take _ count

theorem reads_word : Reads word (fun w bytes => bytes = be32 w) := by
  unfold word
  refine ((reads_take 4).bind fun bytes front hfront =>
    (?_ : Reads _ fun w rest => bytes = be32 w ∧ rest = [])).congr ?_
  · obtain ⟨rfl, hlength⟩ := hfront
    obtain ⟨a, b, c, d, rfl⟩ := List.length_eq_four.mp hlength
    refine (Reads.pure (fromBe32 a b c d)).congr ?_
    intro w rest
    refine and_congr_left fun _ => ?_
    constructor
    · rintro rfl
      exact (be32_fromBe32 a b c d).symm
    · intro hbytes
      rw [← be32_injective.eq_iff, ← hbytes, be32_fromBe32]
  · intro w bytes
    constructor
    · rintro ⟨front, _, back, ⟨rfl, _⟩, ⟨hfront, rfl⟩, rfl⟩
      rw [hfront, List.append_nil]
    · rintro rfl
      exact ⟨be32 w, be32 w, [], ⟨rfl, rfl⟩, ⟨rfl, rfl⟩,
        (List.append_nil _).symm⟩

theorem reads_data :
    Reads data
      (fun bytes w => ∃ d : Data, d.bytes = bytes ∧ w = d.encode) := by
  refine ((reads_word.map UInt32.toNat).bind fun length _ _ =>
    (reads_take length).bind fun bytes _ _ =>
      (reads_take ((4 - length % 4) % 4)).bind fun _ _ _ =>
        Reads.pure bytes).congr ?_
  intro bytes w
  constructor
  · rintro ⟨_, _, _, ⟨length, rfl, rfl⟩, ⟨_, _, _, ⟨rfl, hlength⟩,
      ⟨padding, _, _, ⟨rfl, hpadding⟩, ⟨rfl, rfl⟩, rfl⟩, rfl⟩, rfl⟩
    have hbound : bytes.length < 2 ^ 32 := hlength ▸ length.toNat_lt
    refine ⟨⟨bytes, padding, hbound, by rw [hpadding, hlength]⟩, rfl, ?_⟩
    simp [Data.encode, hlength]
  · rintro ⟨d, rfl, rfl⟩
    have hlength := toNat_ofNat_length d.bounded
    refine ⟨d.bytes.length, _, _, ⟨_, rfl, hlength.symm⟩,
      ⟨d.bytes, _, _, ⟨rfl, rfl⟩,
        ⟨d.padding, _, _, ⟨rfl, d.padded⟩, ⟨rfl, rfl⟩, rfl⟩, rfl⟩, ?_⟩
    simp [Data.encode]

/-- The reader of each class of comparison operand. -/
def matchReader (op : UInt32) : MatchShape → Reader UInt8 String Comparison
  | .bare => pure (if op = 0 then .exists else .other)
  | .operand =>
      (fun bytes => if op = 1 then .equals bytes else .other) <$> data
  | .moment => (fun _ => .other) <$> take 8

theorem comparisonOperand_eq (op : UInt32) :
    comparisonOperand op =
      match matchShapeOf op with
      | some shape => matchReader op shape
      | none =>
          throw (.refused
            s!"comparacao {hex op} desconhecida no requisito") := by
  unfold comparisonOperand
  split
  case h_16 =>
    have hnone : matchShapeOf op = none := by
      unfold matchShapeOf
      split <;> simp_all
    rw [hnone]
  all_goals rfl

theorem reads_matchReader {op : UInt32} {shape : MatchShape}
    (hop : matchShapeOf op = some shape) :
    Reads (matchReader op shape) (fun c w =>
      ∃ m : Match, m.op = op ∧ m.view = c ∧ w = m.operandBytes) := by
  have hshape : ∀ m : Match, m.op = op → m.shape = shape := by
    rintro m rfl
    exact Option.some.inj (m.matchShapeOf_op.symm.trans hop)
  cases shape with
  | bare =>
      refine (Reads.pure _).congr fun c w => ⟨?_, ?_⟩
      · rintro ⟨rfl, rfl⟩
        exact ⟨.bare op hop, rfl, rfl, rfl⟩
      · rintro ⟨m, rfl, rfl, rfl⟩
        cases m <;> cases hshape _ rfl
        exact ⟨rfl, rfl⟩
  | operand =>
      refine (reads_data.map _).congr fun c w => ⟨?_, ?_⟩
      · rintro ⟨_, ⟨d, rfl, rfl⟩, rfl⟩
        exact ⟨.operand op hop d, rfl, rfl, rfl⟩
      · rintro ⟨m, rfl, rfl, rfl⟩
        cases m <;> cases hshape _ rfl
        exact ⟨_, ⟨_, rfl, rfl⟩, rfl⟩
  | moment =>
      refine ((reads_take 8).map _).congr fun c w => ⟨?_, ?_⟩
      · rintro ⟨_, ⟨rfl, hlength⟩, rfl⟩
        exact ⟨.moment op hop _ hlength, rfl, rfl, rfl⟩
      · rintro ⟨m, rfl, rfl, rfl⟩
        cases m with
        | moment op _ timestamp hlength =>
            exact ⟨timestamp, ⟨rfl, hlength⟩, rfl⟩
        | _ => cases hshape _ rfl

theorem reads_comparison :
    Reads comparison
      (fun c w => ∃ m : Match, m.view = c ∧ w = m.encode) := by
  have hoperand : ∀ op bytes, bytes = be32 op →
      Reads (comparisonOperand op) (fun c w =>
        ∃ m : Match, m.op = op ∧ m.view = c ∧ w = m.operandBytes) := by
    intro op _ _
    rw [comparisonOperand_eq]
    cases hop : matchShapeOf op with
    | some shape => exact reads_matchReader hop
    | none =>
        refine (Reads.refuse _).congr fun c w => iff_of_false id ?_
        rintro ⟨m, rfl, -, -⟩
        cases m.matchShapeOf_op.symm.trans hop
  refine (reads_word.bind hoperand).congr fun c w => ⟨?_, ?_⟩
  · rintro ⟨_, _, _, rfl, ⟨m, rfl, rfl, rfl⟩, rfl⟩
    exact ⟨m, rfl, rfl⟩
  · rintro ⟨m, rfl, rfl⟩
    exact ⟨m.op, _, m.operandBytes, rfl, ⟨m, rfl, rfl, rfl⟩, rfl⟩

theorem slotClause_eq (op slot : UInt32) (field : List UInt8)
    (compared : Comparison) :
    slotClause op slot field compared =
      if op = 11 ∧ slot = 0 then .leafField field compared
      else if op = 14 ∧ slot = 0 then .leafExtension field compared
      else if op = 14 ∧ slot = 1 then .intermediateExtension field compared
      else .other := by
  unfold slotClause
  split
  case h_4 h1 h2 h3 =>
    rw [if_neg fun h => h1 h.1 h.2, if_neg fun h => h2 h.1 h.2,
      if_neg fun h => h3 h.1 h.2]
  all_goals rfl

/-- The reader of each class of operands. -/
def shapeReader (boxed : Reader UInt8 String Clause) (op : UInt32) :
    Shape → Reader UInt8 String Clause
  | .nothing => pure (Operands.nothing.view op)
  | .word => (fun _ => .other) <$> word
  | .data =>
      (fun bytes =>
        if op = 2 then .identifier bytes
        else if op = 8 then .cdHash bytes
        else .other) <$> data
  | .wordData => do
      let _ ← word
      (fun _ => .other) <$> data
  | .dataData => do
      let _ ← data
      (fun _ => .other) <$> data
  | .dataMatch => do
      let _ ← data
      (fun _ => .other) <$> comparison
  | .slotMatch => slotOperands op
  | .unary => Clause.not <$> boxed
  | .binary => do
      let left ← boxed
      let right ← boxed
      pure (if op = 6 then .and left right else .or left right)

theorem operands_eq (boxed : Reader UInt8 String Clause) (op : UInt32) :
    operands boxed op =
      match shapeOf op with
      | some shape => shapeReader boxed op shape
      | none =>
          throw (.refused s!"opcode {hex op} desconhecido no requisito") := by
  unfold operands
  split
  case h_25 =>
    have hnone : shapeOf op = none := by
      unfold shapeOf
      split <;> simp_all
    rw [hnone]
  all_goals rfl

/-- The operands of a node without sub-expressions. -/
theorem reads_plain (boxed : Reader UInt8 String Clause) (op : UInt32)
    {shape : Shape} (hunary : shape ≠ .unary) (hbinary : shape ≠ .binary) :
    Reads (shapeReader boxed op shape) (fun c w =>
      ∃ o : Operands, o.shape = shape ∧ o.view op = c ∧ w = o.encode) := by
  cases shape with
  | nothing =>
      refine (Reads.pure _).congr fun c w => ⟨?_, ?_⟩
      · rintro ⟨rfl, rfl⟩
        exact ⟨.nothing, rfl, rfl, rfl⟩
      · rintro ⟨o, hshape, rfl, rfl⟩
        cases o <;> cases hshape
        exact ⟨rfl, rfl⟩
  | word =>
      refine (reads_word.map _).congr fun c w => ⟨?_, ?_⟩
      · rintro ⟨v, rfl, rfl⟩
        exact ⟨.word v, rfl, rfl, rfl⟩
      · rintro ⟨o, hshape, rfl, rfl⟩
        cases o <;> cases hshape
        exact ⟨_, rfl, rfl⟩
  | data =>
      refine (reads_data.map _).congr fun c w => ⟨?_, ?_⟩
      · rintro ⟨_, ⟨d, rfl, rfl⟩, rfl⟩
        exact ⟨.data d, rfl, rfl, rfl⟩
      · rintro ⟨o, hshape, rfl, rfl⟩
        cases o <;> cases hshape
        exact ⟨_, ⟨_, rfl, rfl⟩, rfl⟩
  | wordData =>
      refine (reads_word.bind fun _ _ _ => reads_data.map _).congr
        fun c w => ⟨?_, ?_⟩
      · rintro ⟨v, _, _, rfl, ⟨_, ⟨d, rfl, rfl⟩, rfl⟩, rfl⟩
        exact ⟨.wordData v d, rfl, rfl, rfl⟩
      · rintro ⟨o, hshape, rfl, rfl⟩
        cases o <;> cases hshape
        exact ⟨_, _, _, rfl, ⟨_, ⟨_, rfl, rfl⟩, rfl⟩, rfl⟩
  | dataData =>
      refine (reads_data.bind fun _ _ _ => reads_data.map _).congr
        fun c w => ⟨?_, ?_⟩
      · rintro ⟨_, _, _, ⟨d, rfl, rfl⟩, ⟨_, ⟨e, rfl, rfl⟩, rfl⟩, rfl⟩
        exact ⟨.dataData d e, rfl, rfl, rfl⟩
      · rintro ⟨o, hshape, rfl, rfl⟩
        cases o <;> cases hshape
        exact ⟨_, _, _, ⟨_, rfl, rfl⟩, ⟨_, ⟨_, rfl, rfl⟩, rfl⟩, rfl⟩
  | dataMatch =>
      refine (reads_data.bind fun _ _ _ => reads_comparison.map _).congr
        fun c w => ⟨?_, ?_⟩
      · rintro ⟨_, _, _, ⟨d, rfl, rfl⟩, ⟨_, ⟨m, rfl, rfl⟩, rfl⟩, rfl⟩
        exact ⟨.dataMatch d m, rfl, rfl, rfl⟩
      · rintro ⟨o, hshape, rfl, rfl⟩
        cases o <;> cases hshape
        exact ⟨_, _, _, ⟨_, rfl, rfl⟩, ⟨_, ⟨_, rfl, rfl⟩, rfl⟩, rfl⟩
  | slotMatch =>
      refine (reads_word.bind fun slot _ _ =>
        reads_data.bind fun field _ _ =>
          reads_comparison.bind fun compared _ _ =>
            Reads.pure (slotClause op slot field compared)).congr
        fun c w => ⟨?_, ?_⟩
      · rintro ⟨slot, _, _, rfl, ⟨_, _, _, ⟨d, rfl, rfl⟩,
          ⟨_, _, _, ⟨m, rfl, rfl⟩, ⟨rfl, rfl⟩, rfl⟩, rfl⟩, rfl⟩
        refine ⟨.slotMatch slot d m, rfl, (slotClause_eq _ _ _ _).symm, ?_⟩
        simp [Operands.encode]
      · rintro ⟨o, hshape, rfl, rfl⟩
        cases o <;> cases hshape
        refine ⟨_, _, _, rfl, ⟨_, _, _, ⟨_, rfl, rfl⟩,
          ⟨_, _, [], ⟨_, rfl, rfl⟩, ⟨(slotClause_eq _ _ _ _).symm, rfl⟩,
            rfl⟩, rfl⟩, ?_⟩
        simp [Operands.encode]
  | unary => exact absurd rfl hunary
  | binary => exact absurd rfl hbinary

/-- The clauses a reader of sub-expressions at `depth` returns. -/
def ReadsAt (depth : ℕ) (boxed : Reader UInt8 String Clause) : Prop :=
  Reads boxed (fun c w => ∃ e : Expr, e.WellFormed ∧
    e.DepthBelow maxDepth depth ∧ e.view = c ∧ w = e.encode)

theorem reads_shapeReader {depth : ℕ} (hdepth : depth < maxDepth)
    {boxed : Reader UInt8 String Clause} (hboxed : ReadsAt (depth + 1) boxed)
    {op : UInt32} {shape : Shape} (hop : shapeOf op = some shape) :
    Reads (shapeReader boxed op shape) (fun c w =>
      ∃ e : Expr, e.op = op ∧ e.WellFormed ∧ e.DepthBelow maxDepth depth ∧
        e.view = c ∧ w = e.body) := by
  have hshape : ∀ e : Expr, e.WellFormed → e.op = op → e.shape = shape := by
    rintro e he rfl
    exact Option.some.inj (he.shapeOf_op.symm.trans hop)
  by_cases hunary : shape = .unary
  · subst hunary
    refine (hboxed.map Clause.not).congr fun c w => ⟨?_, ?_⟩
    · rintro ⟨_, ⟨e, he, hbelow, rfl, rfl⟩, rfl⟩
      exact ⟨.unary op e, rfl, ⟨hop, he⟩, ⟨hdepth, hbelow⟩, rfl, rfl⟩
    · rintro ⟨e, rfl, he, hbelow, rfl, rfl⟩
      cases e with
      | plain op o => cases o <;> cases hshape _ he rfl
      | unary op inner =>
          exact ⟨_, ⟨inner, he.2, hbelow.2, rfl, rfl⟩, rfl⟩
      | binary op left right => cases hshape _ he rfl
  by_cases hbinary : shape = .binary
  · subst hbinary
    refine (hboxed.bind fun left _ _ => hboxed.bind fun right _ _ =>
      Reads.pure
        (if op = 6 then Clause.and left right else .or left right)).congr
      fun c w => ⟨?_, ?_⟩
    · rintro ⟨_, _, _, ⟨e, he, hebelow, rfl, rfl⟩,
        ⟨_, _, _, ⟨f, hf, hfbelow, rfl, rfl⟩, ⟨rfl, rfl⟩, rfl⟩, rfl⟩
      refine ⟨.binary op e f, rfl, ⟨hop, he, hf⟩,
        ⟨hdepth, hebelow, hfbelow⟩, rfl, ?_⟩
      simp [Expr.body]
    · rintro ⟨e, rfl, he, hbelow, rfl, rfl⟩
      cases e with
      | plain op o => cases o <;> cases hshape _ he rfl
      | unary op inner => cases hshape _ he rfl
      | binary op left right =>
          refine ⟨_, _, _, ⟨left, he.2.1, hbelow.2.1, rfl, rfl⟩,
            ⟨_, _, [], ⟨right, he.2.2, hbelow.2.2, rfl, rfl⟩,
              ⟨rfl, rfl⟩, rfl⟩, ?_⟩
          simp [Expr.body]
  refine (reads_plain boxed op hunary hbinary).congr fun c w => ⟨?_, ?_⟩
  · rintro ⟨o, rfl, rfl, rfl⟩
    exact ⟨.plain op o, rfl, hop, hdepth, rfl, rfl⟩
  · rintro ⟨e, rfl, he, _, rfl, rfl⟩
    cases e with
    | plain op o => exact ⟨o, hshape _ he rfl, rfl, rfl⟩
    | unary op inner => exact absurd (hshape _ he rfl).symm hunary
    | binary op left right => exact absurd (hshape _ he rfl).symm hbinary

/-- One expression, read at some depth, is the encoding of a tree. -/
theorem reads_clause (depth : ℕ) : ReadsAt depth (clause depth) := by
  induction hleft : maxDepth - depth generalizing depth with
  | zero =>
      have hdepth : ¬ depth < maxDepth := by omega
      rw [clause, if_neg hdepth]
      refine (Reads.refuse _).congr fun c w => iff_of_false id ?_
      rintro ⟨e, -, hbelow, -, -⟩
      cases e with
      | plain op o => exact hdepth hbelow
      | unary op inner => exact hdepth hbelow.1
      | binary op left right => exact hdepth hbelow.1
  | succ left ih =>
      have hdepth : depth < maxDepth := by omega
      have hboxed := ih (depth + 1) (by omega)
      have hoperands : ∀ op bytes, bytes = be32 op →
          Reads (operands (clause (depth + 1)) op) (fun c w =>
            ∃ e : Expr, e.op = op ∧ e.WellFormed ∧
              e.DepthBelow maxDepth depth ∧ e.view = c ∧ w = e.body) := by
        intro op _ _
        rw [operands_eq]
        cases hop : shapeOf op with
        | some shape => exact reads_shapeReader hdepth hboxed hop
        | none =>
            refine (Reads.refuse _).congr fun c w => iff_of_false id ?_
            rintro ⟨e, rfl, he, -, -, -⟩
            cases he.shapeOf_op.symm.trans hop
      rw [clause, if_pos hdepth]
      refine (reads_word.bind hoperands).congr fun c w => ⟨?_, ?_⟩
      · rintro ⟨_, _, _, rfl, ⟨e, rfl, he, hbelow, rfl, rfl⟩, rfl⟩
        exact ⟨e, he, hbelow, rfl, e.encode_eq.symm⟩
      · rintro ⟨e, he, hbelow, rfl, rfl⟩
        exact ⟨e.op, _, _, rfl, ⟨e, rfl, he, hbelow, rfl, rfl⟩,
          e.encode_eq⟩

/-! ## Whole requirements -/

/-- The header words, then the tree: `blob` is the encoding of `e`. -/
structure IsEncodingOf (blob : List UInt8) (e : Expr) : Prop where
  wellFormed : e.WellFormed
  depth : e.DepthBelow maxDepth 0
  bounded : blob.length < 2 ^ 32
  bytes : blob = be32 magic ++
    (be32 (UInt32.ofNat blob.length) ++ (be32 expressionForm ++ e.encode))

theorem IsEncodingOf.unique {blob : List UInt8} {e f : Expr}
    (he : IsEncodingOf blob e) (hf : IsEncodingOf blob f) : e = f := by
  have hbytes := he.bytes.symm.trans hf.bytes
  simp only [List.append_cancel_left_eq] at hbytes
  have happend : e.encode ++ [] = f.encode ++ [] := by rw [hbytes]
  exact (Expr.encode_append_inj he.wellFormed hf.wellFormed happend).1

theorem reads_ensure (c : Prop) [Decidable c] (message : String) :
    Reads (ensure c message) (fun _ w => c ∧ w = []) := by
  refine ((Reads.pure ()).guard c message).congr fun _ w => ?_
  simp

theorem reads_parseRequirement (length : ℕ) :
    Reads (parseRequirement length) (fun c w =>
      ∃ e : Expr, e.WellFormed ∧ e.DepthBelow maxDepth 0 ∧ e.view = c ∧
        length < 2 ^ 32 ∧
        w = be32 magic ++ (be32 (UInt32.ofNat length) ++
          (be32 expressionForm ++ e.encode))) := by
  refine (reads_word.bind fun _ _ _ => (reads_ensure _ _).bind fun _ _ _ =>
    reads_word.bind fun _ _ _ => (reads_ensure _ _).bind fun _ _ _ =>
      reads_word.bind fun _ _ _ => (reads_ensure _ _).bind fun _ _ _ =>
        reads_clause 0).congr fun c w => ⟨?_, ?_⟩
  · rintro ⟨_, _, _, rfl, ⟨_, _, _, ⟨rfl, rfl⟩,
      ⟨size, _, _, rfl, ⟨_, _, _, ⟨rfl, rfl⟩,
        ⟨_, _, _, rfl, ⟨_, _, _, ⟨rfl, rfl⟩,
          ⟨e, he, hbelow, rfl, rfl⟩, rfl⟩, rfl⟩, rfl⟩, rfl⟩, rfl⟩, rfl⟩
    refine ⟨e, he, hbelow, rfl, size.toNat_lt, ?_⟩
    simp
  · rintro ⟨e, he, hbelow, rfl, hlength, rfl⟩
    have hsize : (UInt32.ofNat length).toNat = length := by
      rw [UInt32.toNat_ofNat']
      exact Nat.mod_eq_of_lt hlength
    exact ⟨magic, _, _, rfl, ⟨(), [], _, ⟨rfl, rfl⟩,
      ⟨UInt32.ofNat length, _, _, rfl, ⟨(), [], _, ⟨hsize, rfl⟩,
        ⟨expressionForm, _, _, rfl, ⟨(), [], _, ⟨rfl, rfl⟩,
          ⟨e, he, hbelow, rfl, rfl⟩, rfl⟩, rfl⟩, rfl⟩, rfl⟩, rfl⟩, rfl⟩

theorem parse_eq_ok_iff (blob : List UInt8) (c : Clause) :
    parse blob = .ok c ↔ ∃ after,
      parseRequirement blob.length ⟨blob, 0⟩ = .ok (c, after) ∧
        after.position = blob.length := by
  unfold parse
  cases hparse : parseRequirement blob.length ⟨blob, 0⟩ with
  | error fault => simp [bind, Except.bind]
  | ok result =>
      obtain ⟨found, after⟩ := result
      by_cases hend : after.position = blob.length <;>
        simp [bind, Except.bind, pure, Except.pure, throw, throwThe,
          MonadExceptOf.throw, hend]

/-- The reader accepts exactly the encodings of expression trees and returns
the clause of the tree, which the bytes determine; and it never slices
outside the buffer. -/
theorem parse_accepts_exactly_the_grammar (blob : List UInt8) :
    (∀ c, parse blob = .ok c ↔ ∃ e, IsEncodingOf blob e ∧ e.view = c) ∧
    (∀ e f, IsEncodingOf blob e → IsEncodingOf blob f → e = f) ∧
    parse blob ≠ .error .outOfBounds := by
  have hreads := reads_parseRequirement blob.length
  refine ⟨?_, fun e f he hf => he.unique hf, ?_⟩
  · intro c
    rw [parse_eq_ok_iff]
    constructor
    · rintro ⟨after, hok, hend⟩
      obtain ⟨word, _, _, rfl⟩ := hreads.sound _ (Nat.zero_le _) c after hok
      obtain ⟨e, he, hbelow, hview, hlength, hbytes⟩ :=
        (hreads.whole blob c).mp ⟨_, hok, hend⟩
      exact ⟨e, ⟨he, hbelow, hlength, hbytes⟩, hview⟩
    · rintro ⟨e, he, hview⟩
      obtain ⟨after, hok, hend⟩ := (hreads.whole blob c).mpr
        ⟨e, he.wellFormed, he.depth, hview, he.bounded, he.bytes⟩
      obtain ⟨word, _, _, rfl⟩ := hreads.sound _ (Nat.zero_le _) c after hok
      exact ⟨_, hok, hend⟩
  · intro hbad
    have hsafe := hreads.safe ⟨blob, 0⟩ (Nat.zero_le _)
    unfold parse at hbad
    cases hparse : parseRequirement blob.length ⟨blob, 0⟩ with
    | error fault =>
        rw [hparse] at hbad
        cases hbad
        exact hsafe hparse
    | ok result =>
        rw [hparse] at hbad
        simp only [bind, Except.bind] at hbad
        split at hbad <;> cases hbad

end RequirementBlob
end Dovetail
