/-!
Sets of characters given by bounds.

A set is listed by the code points, in increasing order, at which membership changes: the first is
the first member, the second the first character behind that run of members, and so on.
-/

namespace Reshape.Text

/-- Whether a character is in the set with the given bounds: it is when an odd number of them are
not above it. -/
def isWithin (bounds : List Nat) (c : Char) : Bool :=
  (bounds.takeWhile (· ≤ c.toNat)).length % 2 == 1

end Reshape.Text
