import Dovetail.CursorReader
import Dovetail.PrefixCode
import Mathlib.Tactic

/-!
# Compiled code requirements

The reader of the binary form the Security framework compiles a code
requirement to.  A requirement is a header of three words (a magic number,
the total length and the form) followed by one expression in prefix order.
Anything the strength check has no use for is read and mapped to
`Clause.other`.
-/

namespace Dovetail
namespace RequirementBlob

open CursorReader PrefixCode

def magic : UInt32 := 0xfade0c00
def expressionForm : UInt32 := 1
def maxDepth : ℕ := 64

inductive Comparison where
  | exists
  | equals (value : List UInt8)
  | other
  deriving DecidableEq

inductive Clause where
  | and (left right : Clause)
  | or (left right : Clause)
  | not (inner : Clause)
  | true
  | genericAnchor
  | identifier (id : List UInt8)
  | cdHash (hash : List UInt8)
  | leafField (field : List UInt8) (compared : Comparison)
  | leafExtension (oid : List UInt8) (compared : Comparison)
  | intermediateExtension (oid : List UInt8) (compared : Comparison)
  | other
  deriving DecidableEq

/-- `{:#x}` of an opcode. -/
def hex (w : UInt32) : String :=
  "0x" ++ String.ofList (Nat.toDigits 16 w.toNat)

/-- `checked_add` cannot overflow here without passing the end of the
buffer, so both of its refusals are this one. -/
def take (count : ℕ) : Reader UInt8 String (List UInt8) :=
  CursorReader.take "requisito compilado truncado" count

def word : Reader UInt8 String UInt32 := do
  match ← take 4 with
  | [a, b, c, d] => pure (fromBe32 a b c d)
  | _ => throw .outOfBounds

def data : Reader UInt8 String (List UInt8) := do
  let length ← UInt32.toNat <$> word
  let bytes ← take length
  let _ ← take ((4 - length % 4) % 4)
  pure bytes

/-- The operand of a comparison, after its kind. -/
def comparisonOperand (kind : UInt32) : Reader UInt8 String Comparison :=
  match kind with
  | 0 => pure .exists
  | 1 => Comparison.equals <$> data
  | 14 => pure .other
  | 2 | 3 | 4 | 5 | 6 | 7 | 8 => (fun _ => .other) <$> data
  | 9 | 10 | 11 | 12 | 13 => (fun _ => .other) <$> take 8
  | other =>
      throw (.refused s!"comparacao {hex other} desconhecida no requisito")

def comparison : Reader UInt8 String Comparison :=
  word >>= comparisonOperand

/-- What opcodes 11, 14, 17 and 22 keep of their slot, field and
comparison. -/
def slotClause (op slot : UInt32) (field : List UInt8)
    (compared : Comparison) : Clause :=
  match op, slot with
  | 11, 0 => .leafField field compared
  | 14, 0 => .leafExtension field compared
  | 14, 1 => .intermediateExtension field compared
  | _, _ => .other

def slotOperands (op : UInt32) : Reader UInt8 String Clause := do
  let slot ← word
  let field ← data
  let compared ← comparison
  pure (slotClause op slot field compared)

/-- The operands of an expression, after its opcode; `boxed` reads a
sub-expression. -/
def operands (boxed : Reader UInt8 String Clause) (op : UInt32) :
    Reader UInt8 String Clause :=
  match op with
  | 1 => pure .true
  | 2 => Clause.identifier <$> data
  | 6 => do
      let left ← boxed
      let right ← boxed
      pure (.and left right)
  | 7 => do
      let left ← boxed
      let right ← boxed
      pure (.or left right)
  | 8 => Clause.cdHash <$> data
  | 9 => Clause.not <$> boxed
  | 11 => slotOperands 11
  | 14 => slotOperands 14
  | 17 => slotOperands 17
  | 22 => slotOperands 22
  | 15 => pure .genericAnchor
  | 0 | 3 | 13 | 21 | 23 => pure .other
  | 12 | 20 => (fun _ => .other) <$> word
  | 18 | 19 => (fun _ => .other) <$> data
  | 4 => do
      let _ ← word
      (fun _ => .other) <$> data
  | 5 => do
      let _ ← data
      (fun _ => .other) <$> data
  | 10 | 16 => do
      let _ ← data
      (fun _ => .other) <$> comparison
  | other => throw (.refused s!"opcode {hex other} desconhecido no requisito")

def clause (depth : ℕ) : Reader UInt8 String Clause :=
  if depth < maxDepth then
    word >>= operands (clause (depth + 1))
  else
    throw (.refused "requisito aninhado demais")
termination_by maxDepth - depth

/-- `anyhow::ensure!`. -/
def ensure (c : Prop) [Decidable c] (message : String) :
    Reader UInt8 String Unit :=
  if c then pure () else throw (.refused message)

def parseRequirement (length : ℕ) : Reader UInt8 String Clause := do
  ensure ((← word) = magic) "o blob nao e um requisito"
  ensure ((← word).toNat = length) "tamanho do blob divergente"
  ensure ((← word) = expressionForm) "forma de requisito desconhecida"
  clause 0

def parse (blob : List UInt8) : Except (Fault String) Clause := do
  let (clause, reader) ← parseRequirement blob.length ⟨blob, 0⟩
  if reader.position = blob.length then
    return clause
  else
    throw (.refused "bytes sobrando depois da expressao")

end RequirementBlob
end Dovetail
