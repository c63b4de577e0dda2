import Mathlib.Tactic

/-!
# Prefix-free encodings

An encoding is prefix free when a concatenation of an encoded value and
anything else can be split in one way only.  Such encodings compose, and a
sequence of them determines its parts.  Big-endian words are the fixed-width
encodings a binary format is built from.
-/

namespace PrefixCode

variable {σ α β : Type}

def PrefixFree (encode : α → List σ) : Prop :=
  ∀ ⦃a b : α⦄ ⦃r s : List σ⦄,
    encode a ++ r = encode b ++ s → a = b ∧ r = s

theorem PrefixFree.injective {encode : α → List σ}
    (hfree : PrefixFree encode) : Function.Injective encode := by
  intro a b hab
  have happend : encode a ++ [] = encode b ++ [] := by rw [hab]
  exact (hfree happend).1

/-- An injective encoding of constant length is prefix free. -/
theorem PrefixFree.of_length {encode : α → List σ}
    (hinj : Function.Injective encode)
    (hlength : ∀ a b, (encode a).length = (encode b).length) :
    PrefixFree encode := by
  intro a b r s happend
  obtain ⟨hab, hrs⟩ := List.append_inj happend (hlength a b)
  exact ⟨hinj hab, hrs⟩

/-! ## Big-endian words -/

/-- The word `u32::from_be_bytes` makes of four bytes. -/
def fromBe32 (a b c d : UInt8) : UInt32 :=
  UInt32.ofNat
    (a.toNat * 2 ^ 24 + b.toNat * 2 ^ 16 + c.toNat * 2 ^ 8 + d.toNat)

def be32 (w : UInt32) : List UInt8 :=
  [UInt8.ofNat (w.toNat / 2 ^ 24), UInt8.ofNat (w.toNat / 2 ^ 16),
    UInt8.ofNat (w.toNat / 2 ^ 8), UInt8.ofNat w.toNat]

@[simp] theorem length_be32 (w : UInt32) : (be32 w).length = 4 := rfl

theorem be32_fromBe32 (a b c d : UInt8) :
    be32 (fromBe32 a b c d) = [a, b, c, d] := by
  have ha := a.toNat_lt
  have hb := b.toNat_lt
  have hc := c.toNat_lt
  have hd := d.toNat_lt
  have hword : (fromBe32 a b c d).toNat =
      a.toNat * 2 ^ 24 + b.toNat * 2 ^ 16 + c.toNat * 2 ^ 8 + d.toNat := by
    rw [fromBe32, UInt32.toNat_ofNat']
    omega
  unfold be32
  rw [hword]
  congr 1
  · apply UInt8.toNat_inj.mp
    rw [UInt8.toNat_ofNat']
    omega
  congr 1
  · apply UInt8.toNat_inj.mp
    rw [UInt8.toNat_ofNat']
    omega
  congr 1
  · apply UInt8.toNat_inj.mp
    rw [UInt8.toNat_ofNat']
    omega
  congr 1
  apply UInt8.toNat_inj.mp
  rw [UInt8.toNat_ofNat']
  omega

theorem fromBe32_be32 (w : UInt32) :
    fromBe32 (UInt8.ofNat (w.toNat / 2 ^ 24))
        (UInt8.ofNat (w.toNat / 2 ^ 16))
        (UInt8.ofNat (w.toNat / 2 ^ 8)) (UInt8.ofNat w.toNat) = w := by
  have hw := w.toNat_lt
  apply UInt32.toNat_inj.mp
  simp only [fromBe32, UInt32.toNat_ofNat', UInt8.toNat_ofNat']
  omega

theorem be32_injective : Function.Injective be32 := by
  intro v w hvw
  rw [← fromBe32_be32 v, ← fromBe32_be32 w]
  simp only [be32, List.cons.injEq, and_true] at hvw
  obtain ⟨h0, h1, h2, h3⟩ := hvw
  rw [h0, h1, h2, h3]

theorem prefixFree_be32 : PrefixFree be32 :=
  PrefixFree.of_length be32_injective fun _ _ => rfl

/-- A length word announces lengths below `2 ^ 32` without loss. -/
theorem toNat_ofNat_length {bytes : List σ} (hbound : bytes.length < 2 ^ 32) :
    (UInt32.ofNat bytes.length).toNat = bytes.length := by
  rw [UInt32.toNat_ofNat']
  exact Nat.mod_eq_of_lt hbound

end PrefixCode
