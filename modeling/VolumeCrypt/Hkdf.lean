import VolumeCrypt.ByteString

/-!
# HKDF over an arbitrary keyed hash

Extract and expand as RFC 5869 defines them: `T(0)` is empty, `T(i)` hashes
`T(i-1)`, the info string and the counter byte `i`, and the output is the first
`length` bytes of `T(1), T(2), ...`.
-/
namespace Hkdf

open ByteString

variable {h : Nat} (hmac : Bytes → Bytes → Fixed h)

def extract (salt ikm : Bytes) : Bytes := (hmac salt ikm).toList

def expandBlock (prk info : Bytes) : Nat → Bytes
  | 0 => []
  | i + 1 => (hmac prk (expandBlock prk info i ++ info ++ [UInt8.ofNat (i + 1)])).toList

/-- The first `k` output blocks. -/
def expandBlocks (prk info : Bytes) (k : Nat) : Bytes :=
  (List.range k).flatMap fun i => expandBlock hmac prk info (i + 1)

/-- `N = ceil(length / HashLen)` blocks, cut to `length` bytes. -/
def expand (prk info : Bytes) (length : Nat) : Bytes :=
  (expandBlocks hmac prk info ((length + h - 1) / h)).take length

theorem expandBlocks_succ (prk info : Bytes) (k : Nat) :
    expandBlocks hmac prk info (k + 1) = expandBlocks hmac prk info k ++ expandBlock hmac prk info (k + 1) := by
  simp [expandBlocks, List.range_succ]

theorem length_expandBlocks (prk info : Bytes) (k : Nat) : (expandBlocks hmac prk info k).length = k * h := by
  induction k with
  | zero => simp [expandBlocks]
  | succ k ih =>
    rw [expandBlocks_succ, List.length_append, ih, Nat.succ_mul]
    simp [expandBlock]

end Hkdf
