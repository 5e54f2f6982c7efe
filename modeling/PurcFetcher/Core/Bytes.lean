import Mathlib

/-!
# Numbers and positions in byte buffers

Little-endian numbers of a fixed width, and positions rounded up to a multiple of
an alignment.
-/

namespace PurcFetcher.Bytes

/-- The `width` bytes of a number, the lowest first. -/
def littleEndian : ℕ → ℕ → List UInt8
  | 0, _ => []
  | width + 1, value => UInt8.ofNat value :: littleEndian width (value / 256)

def ofLittleEndian : List UInt8 → ℕ
  | [] => 0
  | byte :: rest => byte.toNat + 256 * ofLittleEndian rest

@[simp]
theorem length_littleEndian (width val : ℕ) : (littleEndian width val).length = width := by
  induction width generalizing val with
  | zero => rfl
  | succ width ih => rw [littleEndian, List.length_cons, ih]

/-- A number is read back from its bytes if they are enough. -/
theorem ofLittleEndian_littleEndian {width val : ℕ} (hval : val < 256 ^ width) :
    ofLittleEndian (littleEndian width val) = val := by
  induction width generalizing val with
  | zero =>
    rw [pow_zero, Nat.lt_one_iff] at hval
    rw [hval]
    rfl
  | succ width ih =>
    have hrest : val / 256 < 256 ^ width := by exact Nat.div_lt_of_lt_mul (by rwa [mul_comm])
    rw [littleEndian, ofLittleEndian, ih hrest, UInt8.toNat_ofNat']
    exact Nat.mod_add_div val 256

/-! ## Alignment -/

/-- The next multiple of `alignment`. -/
def roundUp (value alignment : ℕ) : ℕ :=
  (value + alignment - 1) / alignment * alignment

theorem le_roundUp (val : ℕ) {align : ℕ} (hpos : 0 < align) : val ≤ roundUp val align := by
  have hlast := Nat.div_add_mod (val + align - 1) align
  have hrest := Nat.mod_lt (val + align - 1) hpos
  rw [roundUp, mul_comm]
  omega

/-- From an aligned start on, only the offset is rounded. -/
theorem roundUp_add {start align : ℕ} (hstart : align ∣ start) (hpos : 0 < align)
    (offset : ℕ) : roundUp (start + offset) align = start + roundUp offset align := by
  obtain ⟨multiple, rfl⟩ := hstart
  have hsum : align * multiple + offset + align - 1 =
      offset + align - 1 + align * multiple := by omega
  rw [roundUp, roundUp, hsum, Nat.add_mul_div_left _ _ hpos, Nat.add_mul, add_comm,
    mul_comm multiple]

end PurcFetcher.Bytes
