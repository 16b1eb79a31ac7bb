/-!
# Powers and word sizes

The powers of two and of ten, and the integers that fit 64 bits.
-/

namespace ObjectStore

def twoTo (n : Nat) : Nat := Nat.pow 2 n

def tenTo (n : Nat) : Nat := Nat.pow 10 n

/-- Whether an integer fits a number of bits, one of which is its sign. -/
def fitsBits (bits : Nat) (n : Int) : Bool := -(twoTo (bits - 1) : Int) ≤ n && n < twoTo (bits - 1)

def int64? (n : Int) : Option Int64 := if fitsBits 64 n then some (Int64.ofInt n) else none

end ObjectStore
