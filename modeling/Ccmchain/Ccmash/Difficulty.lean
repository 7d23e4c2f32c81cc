import Mathlib.Data.List.GetD

/-!
# The proof-of-work boundary check

internal.h of libccmash: `ccmash_check_difficulty` decides whether a hash is
at most the boundary `2^256 / difficulty`, both read as 256-bit big-endian
numbers. It does not build the numbers; it walks the 32 bytes from the most
significant one, skips equal bytes, and decides on the first that differs.

Of internal.h this is the one function with a body: the light and full
client entry points are declared there and defined elsewhere.
-/

namespace Ccmchain.Ccmash

/-- `ccmash_h256_t`: 32 bytes, the first the most significant. -/
structure H256 where
  b : List UInt8
  size_eq : b.length = 32

/-- `ccmash_h256_get`: byte `i` of the hash. -/
def ccmashH256Get (hash : H256) (i : Nat) : UInt8 := hash.b.getD i 0

/-- The loop of `ccmash_check_difficulty` from byte `i` on, `n` bytes left. -/
def checkDifficultyFrom (hash boundary : H256) : Nat → Nat → Bool
  | 0, _ => true
  | n + 1, i =>
      if ccmashH256Get hash i = ccmashH256Get boundary i then
        checkDifficultyFrom hash boundary n (i + 1)
      else decide (ccmashH256Get hash i < ccmashH256Get boundary i)

/-- `ccmash_check_difficulty`: whether `hash` is less than or equal to
`boundary`. -/
def ccmashCheckDifficulty (hash boundary : H256) : Bool :=
  checkDifficultyFrom hash boundary 32 0

end Ccmchain.Ccmash
