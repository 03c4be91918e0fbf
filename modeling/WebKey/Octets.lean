/-
Natural numbers as big-endian octets.

* **`Octets.ofNat`** — the octets of a number, most significant first, as few as possible;
* **`Octets.toNat`** — the number that a list of octets stands for.

Zero is the single octet zero, so the octets of a number are never the empty list.
-/

namespace WebKey.Octets

/-- The value of a list of octets, most significant first. -/
def toNat (octets : List UInt8) : Nat :=
  octets.foldl (fun value octet => value * 256 + octet.toNat) 0

/-- The fewest octets that stand for `n`, most significant first. -/
def ofNat (n : Nat) : List UInt8 :=
  if n < 256 then [UInt8.ofNat n] else ofNat (n / 256) ++ [UInt8.ofNat (n % 256)]
termination_by n

@[simp] theorem toNat_nil : toNat [] = 0 := rfl

@[simp] theorem toNat_append_singleton (octets : List UInt8) (octet : UInt8) :
    toNat (octets ++ [octet]) = toNat octets * 256 + octet.toNat := by
  simp [toNat, List.foldl_append]

/-- The octets of a number stand for that number. -/
@[simp] theorem toNat_ofNat (n : Nat) : toNat (ofNat n) = n := by
  induction n using Nat.strongRecOn with
  | ind n ih =>
    rw [ofNat]
    split
    · rename_i small
      simp only [toNat, List.foldl_cons, List.foldl_nil, UInt8.toNat_ofNat']
      omega
    · rw [toNat_append_singleton, ih (n / 256) (by omega), UInt8.toNat_ofNat']
      omega

theorem ofNat_ne_nil (n : Nat) : ofNat n ≠ [] := by
  rw [ofNat]
  split <;> simp

end WebKey.Octets
