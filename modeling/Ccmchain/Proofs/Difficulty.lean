import Ccmchain.Ccmash.Difficulty
import Mathlib.Tactic.Ring

/-!
# The byte loop is the numeric comparison

Reading a byte string big endian, the leading byte weighs more than all the
bytes after it together: `bigEndian (b :: bs) = b * 256^|bs| + bigEndian bs`
with `bigEndian bs < 256^|bs|`. So two strings of one length compare as their
first differing byte does, and equal leading bytes drop out of the
comparison — which is the loop, one byte per step. The induction runs over
the bytes left, on the suffixes from the loop's index on.
-/

namespace Ccmchain.Ccmash

/-- The number a byte string encodes, most significant byte first. -/
def bigEndian (bs : List UInt8) : Nat := bs.foldl (fun acc b => 256 * acc + b.toNat) 0

theorem foldl_bigEndian (bs : List UInt8) (acc : Nat) :
    bs.foldl (fun acc b => 256 * acc + b.toNat) acc = acc * 256 ^ bs.length + bigEndian bs := by
  induction bs generalizing acc with
  | nil => simp [bigEndian]
  | cons b bs ih =>
      rw [bigEndian, List.foldl_cons, List.foldl_cons, ih, ih, List.length_cons, Nat.pow_succ]
      ring

theorem bigEndian_cons (b : UInt8) (bs : List UInt8) :
    bigEndian (b :: bs) = b.toNat * 256 ^ bs.length + bigEndian bs := by
  rw [bigEndian, List.foldl_cons, foldl_bigEndian]
  simp

theorem bigEndian_lt (bs : List UInt8) : bigEndian bs < 256 ^ bs.length := by
  induction bs with
  | nil => simp [bigEndian]
  | cons b bs ih =>
      rw [bigEndian_cons, List.length_cons, Nat.pow_succ']
      have hb : b.toNat + 1 ≤ 256 := b.toNat_lt_size
      calc b.toNat * 256 ^ bs.length + bigEndian bs
          < b.toNat * 256 ^ bs.length + 256 ^ bs.length := by omega
        _ = (b.toNat + 1) * 256 ^ bs.length := by ring
        _ ≤ 256 * 256 ^ bs.length := Nat.mul_le_mul_right _ hb

/-- Leading digits decide, whenever the rest is below the digit's weight. -/
theorem digit_le_iff {b c x y p : Nat} (hx : x < p) (hy : y < p) :
    b * p + x ≤ c * p + y ↔ b < c ∨ (b = c ∧ x ≤ y) := by
  rcases Nat.lt_trichotomy b c with h | rfl | h
  · have : (b + 1) * p ≤ c * p := Nat.mul_le_mul_right p h
    rw [Nat.add_mul, Nat.one_mul] at this
    exact ⟨fun _ => .inl h, fun _ => by omega⟩
  · omega
  · have : (c + 1) * p ≤ b * p := Nat.mul_le_mul_right p h
    rw [Nat.add_mul, Nat.one_mul] at this
    exact ⟨fun _ => by omega, fun h' => by omega⟩

theorem checkDifficultyFrom_eq (hash boundary : H256) :
    ∀ n i, i + n = 32 →
      checkDifficultyFrom hash boundary n i =
        decide (bigEndian (hash.b.drop i) ≤ bigEndian (boundary.b.drop i)) := by
  intro n
  induction n with
  | zero =>
      intro i hi
      simp [checkDifficultyFrom, List.drop_of_length_le, hash.size_eq, boundary.size_eq,
        show 32 ≤ i by omega]
  | succ n ih =>
      intro i hi
      have hh : i < hash.b.length := by rw [hash.size_eq]; omega
      have hb : i < boundary.b.length := by rw [boundary.size_eq]; omega
      have hlen : ∀ l : List UInt8, l.length = 32 → (l.drop (i + 1)).length = n := by
        intro l hl; simp [hl]; omega
      rw [checkDifficultyFrom, List.drop_eq_getElem_cons hh, List.drop_eq_getElem_cons hb,
        bigEndian_cons, bigEndian_cons, hlen _ hash.size_eq, hlen _ boundary.size_eq,
        ccmashH256Get, ccmashH256Get, List.getD_eq_getElem _ _ hh, List.getD_eq_getElem _ _ hb,
        ih (i + 1) (by omega)]
      have hx := bigEndian_lt (hash.b.drop (i + 1))
      have hy := bigEndian_lt (boundary.b.drop (i + 1))
      rw [hlen _ hash.size_eq] at hx
      rw [hlen _ boundary.size_eq] at hy
      by_cases heq : hash.b[i] = boundary.b[i]
      · rw [if_pos heq, heq, decide_eq_decide, Nat.add_le_add_iff_left]
      · have hne : hash.b[i].toNat ≠ boundary.b[i].toNat := fun h => heq (UInt8.toNat.inj h)
        rw [if_neg heq, decide_eq_decide, digit_le_iff hx hy]
        exact ⟨fun h => .inl h, fun h => h.resolve_right fun h' => hne h'.1⟩

/-- `ccmash_check_difficulty` accepts exactly the hashes whose big-endian
value is at most the boundary's. -/
theorem ccmashCheckDifficulty_iff (hash boundary : H256) :
    ccmashCheckDifficulty hash boundary = true ↔ bigEndian hash.b ≤ bigEndian boundary.b := by
  rw [ccmashCheckDifficulty, checkDifficultyFrom_eq hash boundary 32 0 rfl]
  simp

end Ccmchain.Ccmash
