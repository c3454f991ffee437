import CanonMark.Text.Basic

/-! # Sets of code points as ranges

A Unicode property is a list of inclusive ranges, in increasing order.
-/
namespace CanonMark

abbrev Ranges := List (Nat × Nat)

def Ranges.holds (rs : Ranges) (c : Char) : Bool :=
  rs.any fun r => r.1 ≤ c.toNat && c.toNat ≤ r.2

end CanonMark
