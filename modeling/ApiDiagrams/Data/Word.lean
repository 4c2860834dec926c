/-!
# Words and bytes

* `Word.half`, `Word.count`: the bounds of whole numbers that are kept in 64-bit words;
* `Word.wrap`: what a signed word keeps of a number;
* `instDecidableEqBytes`: equality of byte sequences.
-/

namespace ApiDiagrams
namespace Word

/-- The first number that is too large for a signed word. -/
def half : Nat := Nat.pow 2 63

/-- The first number that is too large for an unsigned word. -/
def count : Nat := Nat.pow 2 64

/-- What a signed word keeps of a number: the number itself when it fits, else the one in range
that differs from it by a multiple of `count`. -/
def wrap (n : Int) : Int := Int.bmod n count

end Word

/-- Byte sequences are equal when they hold the same bytes in the same order. -/
instance instDecidableEqBytes : DecidableEq ByteArray := fun a b =>
  decidable_of_decidable_of_iff (p := a.data = b.data) ⟨ByteArray.ext, congrArg ByteArray.data⟩

end ApiDiagrams
