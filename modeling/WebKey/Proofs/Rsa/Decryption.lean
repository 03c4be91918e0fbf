/-
Decryption with an accepted key.

`crtPower` raises a number to the private exponent by way of the prime factors: it takes
the power modulo each prime, with that prime's exponent, and joins the results one after
the other with the coefficients.

* **`join_lt`**, **`join_modEq_left`**, **`join_modEq_right`** — joining two residues;
* **`joinLater_spec`** — joining the residues of all later primes;
* **`crtPower_eq`** — for prime factors and consistent values the outcome is the power
  modulo the product of the factors;
* **`accepted_key_decrypts`** — with an accepted key whose factors are prime, decryption
  undoes encryption, for every number, and may go by way of the factors.
-/
import WebKey.Proofs.Rsa.Consistency

namespace WebKey

/-! ### Powers modulo a prime -/

/-- Modulo a prime, positive exponents count modulo the prime less one. The base may be a
multiple of the prime: both powers are zero then. -/
theorem pow_modEq_pow {r a b : ℕ} (hr : r.Prime) (ha : a ≠ 0) (hb : b ≠ 0)
    (hab : a ≡ b [MOD r - 1]) (x : ℕ) : x ^ a ≡ x ^ b [MOD r] := by
  have := Fact.mk hr
  rw [← ZMod.natCast_eq_natCast_iff, Nat.cast_pow, Nat.cast_pow]
  by_cases hx : (x : ZMod r) = 0
  · rw [hx, zero_pow ha, zero_pow hb]
  · have hunits : Units.mk0 (x : ZMod r) hx ^ a = Units.mk0 (x : ZMod r) hx ^ b :=
      pow_eq_pow_iff_modEq.mpr (hab.of_dvd (ZMod.orderOf_units_dvd_card_sub_one _))
    simpa using congrArg Units.val hunits

/-! ### Joining residues -/

/-- The number below `product * prime` that is `value` modulo `product` and `residue`
modulo `prime`, where `coefficient` is the inverse of `product` modulo `prime`. -/
def join (product value prime coefficient residue : ℕ) : ℕ :=
  value + product * (((residue : ℤ) - value) * coefficient % prime).toNat

section Join

variable {product value prime coefficient : ℕ}

theorem join_lt (hprime : 0 < prime) (hvalue : value < product) (residue : ℕ) :
    join product value prime coefficient residue < product * prime := by
  have hlt := Int.emod_lt_of_pos (((residue : ℤ) - value) * coefficient)
    (show (0 : ℤ) < prime by omega)
  have hle : (((residue : ℤ) - value) * coefficient % prime).toNat + 1 ≤ prime := by omega
  calc join product value prime coefficient residue
      < product + product * (((residue : ℤ) - value) * coefficient % prime).toNat :=
        Nat.add_lt_add_right hvalue _
    _ = product * ((((residue : ℤ) - value) * coefficient % prime).toNat + 1) := by ring
    _ ≤ product * prime := Nat.mul_le_mul_left product hle

theorem join_modEq_left (residue : ℕ) :
    join product value prime coefficient residue ≡ value [MOD product] := by
  rw [join, Nat.ModEq, Nat.add_mul_mod_self_left]

theorem join_modEq_right (hinv : IsInverse product prime coefficient) (residue : ℕ) :
    join product value prime coefficient residue ≡ residue [MOD prime] := by
  have hlt := hinv.lt
  have hprime : (prime : ℤ) ≠ 0 := by omega
  have hone : (product : ℤ) * coefficient ≡ 1 [ZMOD prime] := by
    have hcast := Int.natCast_modEq_iff.mpr hinv.mul_modEq_one
    push_cast at hcast
    exact hcast
  -- the difference may be negative, so the congruence is one of integers
  rw [← Int.natCast_modEq_iff, join]
  push_cast
  rw [Int.toNat_of_nonneg (Int.emod_nonneg _ hprime)]
  calc (value : ℤ) + product * (((residue : ℤ) - value) * coefficient % prime)
      ≡ value + product * (((residue : ℤ) - value) * coefficient) [ZMOD prime] :=
        ((Int.mod_modEq _ _).mul_left _).add_left _
    _ = value + (residue - value) * (product * coefficient) := by ring
    _ ≡ value + (residue - value) * 1 [ZMOD prime] := (hone.mul_left _).add_left _
    _ = residue := by ring

end Join

/-- Joins the residues of `x` to the exponents of later primes, one prime after the other. -/
def joinLater (x : ℕ) : (product value : ℕ) → List OtherPrime → ℕ
  | _, value, [] => value
  | product, value, info :: rest =>
    joinLater x (product * info.prime)
      (join product value info.prime info.coefficient (x ^ info.exponent % info.prime)) rest

/-- `x` to the private exponent, by way of the factors. -/
def crtPower (crt : CrtValues) (others : List OtherPrime) (x : ℕ) : ℕ :=
  joinLater x (crt.p * crt.q)
    (join crt.q (x ^ crt.dq % crt.q) crt.p crt.qi (x ^ crt.dp % crt.p)) others

/-! ### Correctness -/

/-- A residue of `x` to the exponent of a prime is one of `x` to the private exponent. -/
theorem residue_modEq {r d : ℕ} (hr : r.Prime) (hd : d % (r - 1) ≠ 0) (x : ℕ) :
    x ^ (d % (r - 1)) % r ≡ x ^ d [MOD r] := by
  have hd' : d ≠ 0 := by
    rintro rfl
    exact hd (Nat.zero_mod _)
  exact (Nat.mod_modEq _ _).trans (pow_modEq_pow hr hd hd' (Nat.mod_modEq d (r - 1)) x)

/-- Joining one more residue of a power gives this power modulo one more factor. -/
theorem join_modEq_mul {product value prime coefficient residue y : ℕ}
    (hinv : IsInverse product prime coefficient) (hvalue : value ≡ y [MOD product])
    (hresidue : residue ≡ y [MOD prime]) :
    join product value prime coefficient residue ≡ y [MOD product * prime] :=
  (Nat.modEq_and_modEq_iff_modEq_mul hinv.coprime).mp
    ⟨(join_modEq_left residue).trans hvalue, (join_modEq_right hinv residue).trans hresidue⟩

/-- The invariant of the joining: the value at hand is the power modulo the product of the
factors that were joined. Each step brings one more factor in. -/
theorem joinLater_spec {d product value x : ℕ} {others : List OtherPrime}
    (hlater : LaterConsistent d product others)
    (hprime : ∀ r ∈ others.map OtherPrime.prime, r.Prime ∧ d % (r - 1) ≠ 0)
    (hlt : value < product) (hvalue : value ≡ x ^ d [MOD product]) :
    joinLater x product value others < product * (others.map OtherPrime.prime).prod ∧
      joinLater x product value others
        ≡ x ^ d [MOD product * (others.map OtherPrime.prime).prod] := by
  induction others generalizing product value with
  | nil => simpa [joinLater] using And.intro hlt hvalue
  | cons info rest ih =>
    rw [List.map_cons, List.forall_mem_cons] at hprime
    obtain ⟨⟨hinfo, hd⟩, hrest⟩ := hprime
    obtain ⟨hexp, hinv, hlater⟩ := hlater
    rw [List.map_cons, List.prod_cons, ← mul_assoc, joinLater]
    refine ih hlater hrest (join_lt hinfo.pos hlt _) (join_modEq_mul hinv hvalue ?_)
    rw [hexp]
    exact residue_modEq hinfo hd x

/-- The power by way of the factors is the power. -/
theorem crtPower_eq {n e d : ℕ} {crt : CrtValues} {others : List OtherPrime}
    (h : Consistent n e d crt others) (hprime : ∀ r ∈ factorsOf crt others, r.Prime) (x : ℕ) :
    crtPower crt others x = x ^ d % n := by
  obtain ⟨-, hprod, -, -, hqi, hlater⟩ := consistent_iff.mp h
  have hall : ∀ r ∈ factorsOf crt others, r.Prime ∧ d % (r - 1) ≠ 0 := by
    intro r hr
    exact ⟨hprime r hr, h.mod_pred_ne_zero hr⟩
  rw [factorsOf, List.forall_mem_cons, List.forall_mem_cons] at hall
  obtain ⟨⟨hp, hdp⟩, ⟨hq, hdq⟩, hrest⟩ := hall
  -- the invariant of `joinLater_spec` for the first two primes
  have hfirst : join crt.q (x ^ crt.dq % crt.q) crt.p crt.qi (x ^ crt.dp % crt.p) < crt.p * crt.q ∧
      join crt.q (x ^ crt.dq % crt.q) crt.p crt.qi (x ^ crt.dp % crt.p)
        ≡ x ^ d [MOD crt.p * crt.q] := by
    rw [mul_comm crt.p, h.dp_eq, h.dq_eq]
    exact ⟨join_lt hp.pos (Nat.mod_lt _ hq.pos) _,
      join_modEq_mul hqi (residue_modEq hq hdq x) (residue_modEq hp hdp x)⟩
  have hjoined := joinLater_spec hlater hrest hfirst.1 hfirst.2
  have hn : crt.p * crt.q * (others.map OtherPrime.prime).prod = n := by
    rw [← hprod, factorsOf, List.prod_cons, List.prod_cons, mul_assoc]
  rw [hn] at hjoined
  exact (Nat.mod_eq_of_lt hjoined.1).symm.trans hjoined.2

/-- Encrypting and decrypting gives back every number, those with a factor in common with
the modulus included. -/
theorem pow_pow_modEq {n e d : ℕ} {crt : CrtValues} {others : List OtherPrime}
    (h : Consistent n e d crt others) (hprime : ∀ r ∈ factorsOf crt others, r.Prime) (x : ℕ) :
    (x ^ e) ^ d ≡ x [MOD n] := by
  -- the factors are coprime, so it is enough to look at each of them
  rw [← pow_mul, ← h.prod_eq, Nat.modEq_list_prod_iff h.pairwise_coprime]
  intro i
  have hr := List.get_mem (factorsOf crt others) i
  obtain ⟨hpred, hone⟩ := h.mul_modEq_one _ hr
  have hed : e * d ≠ 0 := by
    intro hzero
    rw [hzero, Nat.ModEq, Nat.zero_mod, Nat.mod_eq_of_lt (by omega)] at hone
    exact absurd hone zero_ne_one
  simpa using pow_modEq_pow (hprime _ hr) hed one_ne_zero hone x

/-- **An accepted key with prime factors decrypts**: every number comes back from being
encrypted, and the power by way of the factors is the power. -/
theorem accepted_key_decrypts {maxSize e : ℕ} {spec : KeySpec} {key : PrivateKey} {crt : CrtValues}
    (haccepted : (KeyFactory.checking maxSize).privateKey spec = .ok key)
    (he : key.spec.publicExponent? = some e) (hcrt : key.spec.crt? = some crt)
    (hprime : ∀ r ∈ key.spec.primes, r.Prime) (x : ℕ) :
    (x ^ e) ^ key.spec.privateExponent ≡ x [MOD key.spec.modulus] ∧
      crtPower crt key.spec.others x = x ^ key.spec.privateExponent % key.spec.modulus := by
  -- the key holds the specification that was checked
  obtain ⟨hacceptable, hspec⟩ := PrivateKey.ofSpec_eq_ok_iff.mp haccepted
  rw [← hspec] at hacceptable
  have hconsistent := hacceptable.consistent he hcrt
  rw [KeySpec.primes_eq_factorsOf hcrt] at hprime
  exact ⟨pow_pow_modEq hconsistent hprime x, crtPower_eq hconsistent hprime x⟩

/-- The key with the factors 11, 13 and 17 decrypts 22, which is a multiple of one of them. -/
theorem threeFactor_key_decrypts :
    (KeyFactory.checking 12).privateKey PrivateKey.threeFactor.spec = .ok .threeFactor ∧
    (∀ r ∈ PrivateKey.threeFactor.spec.primes, r.Prime) ∧ (22 ^ 7) ^ 103 ≡ 22 [MOD 2431] ∧
    crtPower ⟨11, 13, 3, 7, 6⟩ [⟨17, 7, 5⟩] 22 = 22 ^ 103 % 2431 := by
  have hprime : ∀ r ∈ PrivateKey.threeFactor.spec.primes, r.Prime := by
    show ∀ r ∈ [11, 13, 17], r.Prime
    norm_num
  exact ⟨PrivateKey.threeFactor_accepted, hprime,
    accepted_key_decrypts PrivateKey.threeFactor_accepted rfl rfl hprime 22⟩

end WebKey
