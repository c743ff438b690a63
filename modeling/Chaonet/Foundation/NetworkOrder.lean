import Mathlib.Tactic.Common

/-!
# Network byte order of 32-bit words

`networkOrder x` is the memory image of `htonl(x)`: the four bytes of `x`, most
significant first, whatever the byte order of the host.  `hostOrder` reads such an
image back.
-/

namespace Chaonet
namespace Foundation

/-- The four bytes of a word as they lie in memory after `htonl`. -/
def networkOrder (x : UInt32) : List UInt8 :=
  [UInt8.ofNat (x.toNat / 16777216), UInt8.ofNat (x.toNat / 65536),
    UInt8.ofNat (x.toNat / 256), UInt8.ofNat x.toNat]

/-- The word whose big-endian image is the given list of bytes. -/
def hostOrder (bytes : List UInt8) : UInt32 :=
  UInt32.ofNat (bytes.foldl (fun word byte => 256 * word + byte.toNat) 0)

@[simp] theorem networkOrder_length (x : UInt32) : (networkOrder x).length = 4 := rfl

/-- The base-256 digits of a number below `2 ^ 32` add up to it. -/
theorem digits_sum {n : Nat} (h : n < 4294967296) :
    256 * (256 * (256 * (256 * 0 + n / 16777216 % 256) + n / 65536 % 256) + n / 256 % 256)
      + n % 256 = n := by
  omega

theorem hostOrder_networkOrder (x : UInt32) : hostOrder (networkOrder x) = x := by
  have hx : x.toNat < 4294967296 := x.toNat_lt
  simp only [networkOrder, hostOrder, List.foldl_cons, List.foldl_nil, UInt8.toNat_ofNat']
  rw [digits_sum hx]
  exact UInt32.ofNat_toNat

end Foundation
end Chaonet
