import Mathlib.Tactic

/-!
# Numbers in a fixed number of bytes

A number is written in so many bytes in little-endian or big-endian order.
The bytes keep the number up to a power of 256, so they give it back exactly
where it is below that power.
-/

namespace ByteWords

abbrev Bytes := List UInt8

/-- The least significant bytes of a number, the least significant first. -/
def littleEndian : Nat → Nat → Bytes
  | 0, _ => []
  | width + 1, value => UInt8.ofNat value :: littleEndian width (value / 256)

def bigEndian (width value : Nat) : Bytes := (littleEndian width value).reverse

/-- The number of bytes with the least significant first. -/
def fromLittleEndian : Bytes → Nat
  | [] => 0
  | byte :: rest => byte.toNat + 256 * fromLittleEndian rest

def fromBigEndian (bytes : Bytes) : Nat := fromLittleEndian bytes.reverse

@[simp] theorem length_littleEndian (width value : Nat) :
    (littleEndian width value).length = width := by
  induction width generalizing value with
  | zero => rfl
  | succ width ih => simp [littleEndian, ih]

@[simp] theorem length_bigEndian (width value : Nat) :
    (bigEndian width value).length = width := by
  simp [bigEndian]

theorem fromLittleEndian_littleEndian (width value : Nat) :
    fromLittleEndian (littleEndian width value) = value % 256 ^ width := by
  induction width generalizing value with
  | zero => simp [littleEndian, fromLittleEndian, Nat.mod_one]
  | succ width ih =>
      have hbyte : (UInt8.ofNat value).toNat = value % 256 :=
        UInt8.toNat_ofNat'
      rw [littleEndian, fromLittleEndian, ih, hbyte, pow_succ', Nat.mod_mul]

theorem fromBigEndian_bigEndian (width value : Nat) :
    fromBigEndian (bigEndian width value) = value % 256 ^ width := by
  rw [fromBigEndian, bigEndian, List.reverse_reverse,
    fromLittleEndian_littleEndian]

end ByteWords
