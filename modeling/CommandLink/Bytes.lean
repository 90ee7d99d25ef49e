/-!
# Bytes

What travels on a channel: a list of bytes. Numbers travel big-endian.

Results:
* `length_big32`, `ofBig_big32`: a 32-bit number takes four bytes and is read back from them.
-/
namespace CommandLink

abbrev Bytes := List UInt8

namespace Bytes

/-- The number that bytes denote, most significant first. -/
def ofBig (bs : Bytes) : Nat :=
  bs.foldl (fun n b => 256 * n + b.toNat) 0

/-- A number as four bytes, most significant first. -/
def big32 (n : Nat) : Bytes :=
  [UInt8.ofNat (n / 0x1000000), UInt8.ofNat (n / 0x10000), UInt8.ofNat (n / 0x100), UInt8.ofNat n]

theorem length_big32 (n : Nat) : (big32 n).length = 4 := rfl

theorem ofBig_big32 {n : Nat} (h : n < 0x100000000) : ofBig (big32 n) = n := by
  simp only [ofBig, big32, List.foldl_cons, List.foldl_nil, UInt8.toNat_ofNat']
  omega

end Bytes
end CommandLink
