/-
Where the primes of a key come from.

A prime of a requested size is searched from random octets. The octets give an odd
number of that size whose two highest bits are set, so that a product of two such numbers
has twice the size. From there the next number is taken that no small prime divides. If
it has kept the size and is prime, it is the answer; if not, fresh octets are drawn.

* **`PrimeSource`** — a source of primes with some state;
* **`PrimeSource.ofStream`** — the source that searches from a stream of octets.
-/
import WebKey.Generation.ByteStream
import WebKey.Generation.Primality
import WebKey.Octets
import WebKey.Rsa.Key

namespace WebKey.Generation

/-- A source of primes of a requested size in bits, which is at least two. A source may
give up. -/
structure PrimeSource (σ : Type) where
  draw : (size : Nat) → σ → Option (Nat × σ)

/-! ### Candidates -/

/-- The odd number of the given size that octets stand for, with its two highest bits set. -/
def candidate (size : Nat) (octets : List UInt8) : Nat :=
  (Octets.toNat octets % Nat.pow 2 size) ||| (3 <<< (size - 2)) ||| 1

/-- The small primes that a candidate is freed of. -/
def smallPrimes : List Nat := [3, 5, 7, 11, 13, 17, 19, 23, 29, 31, 37, 41, 43, 47, 53]

/-- The product of the small primes. -/
def smallProduct : Nat := 16294579238595022365

/-- Does no small prime divide this number? Only for small sizes may it be one of them. -/
def isFree (size residue : Nat) : Bool :=
  smallPrimes.all fun prime => residue % prime ≠ 0 || (size ≤ 6 && residue == prime)

/-- The first even distance to a free number, looking at no more than `steps`. -/
def firstDistance (size residue : Nat) : (steps distance : Nat) → Nat
  | 0, _ => 0
  | steps + 1, distance =>
    if isFree size (residue + distance) then distance
    else firstDistance size residue steps (distance + 2)

/-- The prime that a search from these octets finds. -/
def primeFrom? (size : Nat) (octets : List UInt8) : Option Nat :=
  let start := candidate size octets
  let found := start + firstDistance size (start % smallProduct) (Nat.pow 2 19) 0
  if bitLength found = size && isProbablePrime found then some found else none

/-! ### The search -/

/-- Searches a prime, drawing octets at most `draws` times. -/
def searchPrime (size : Nat) : (draws : Nat) → ByteStream → Option (Nat × ByteStream)
  | 0, _ => none
  | draws + 1, stream =>
    let (octets, stream) := stream.take ((size + 7) / 8)
    match primeFrom? size octets with
    | some prime => some (prime, stream)
    | none => searchPrime size draws stream

/-- The source that searches from a stream of octets and gives up after so many draws. -/
def PrimeSource.ofStream (draws : Nat) : PrimeSource ByteStream where
  draw size stream := searchPrime size draws stream

end WebKey.Generation
