/-
A stream of pseudo-random octets that a seed determines.

The stream is made of 64-bit words, each written with its least significant octet
first. The words come from a counter that grows by a fixed odd amount and is mixed by
shifts and multiplications. Octets are handed out one after the other, none is left out.
-/

namespace WebKey.Generation

/-- A stream of octets: the counter, and what is left of the last word. -/
structure ByteStream where
  counter : UInt64
  pending : List UInt8

namespace ByteStream

/-- The stream of a seed. -/
def ofSeed (seed : UInt64) : ByteStream := ⟨seed, []⟩

/-- The amount by which the counter grows. -/
def increment : UInt64 := 0x9E3779B97F4A7C15

/-- The word for a value of the counter. -/
def mix (counter : UInt64) : UInt64 :=
  let z := (counter ^^^ (counter >>> 30)) * 0xBF58476D1CE4E5B9
  let z := (z ^^^ (z >>> 27)) * 0x94D049BB133111EB
  z ^^^ (z >>> 31)

/-- The octets of a word after its first, the less significant before the more. -/
def laterOctets (word : UInt64) : List UInt8 :=
  [8, 16, 24, 32, 40, 48, 56].map fun (shift : UInt64) => (word >>> shift).toUInt8

/-- The next octet. -/
def next : ByteStream → UInt8 × ByteStream
  | ⟨counter, octet :: rest⟩ => (octet, ⟨counter, rest⟩)
  | ⟨counter, []⟩ =>
    let counter := counter + increment
    let word := mix counter
    (word.toUInt8, ⟨counter, laterOctets word⟩)

/-- The next octets, as many as asked for. -/
def take : Nat → ByteStream → List UInt8 × ByteStream
  | 0, stream => ([], stream)
  | count + 1, stream =>
    let (octet, stream) := stream.next
    let (octets, stream) := take count stream
    (octet :: octets, stream)

end ByteStream

end WebKey.Generation
