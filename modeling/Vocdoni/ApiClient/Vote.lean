import Vocdoni.IndexerTypes.Json

/-!
# The weight of an anonymous vote

`ZkCensusGenProof` takes the voter's weight from the census proof endpoint (1 when
the endpoint gives none), passes its decimal text `weight.String()` to the circuit as
the `weight` input, and returns a `CensusProofZk` whose `Weight` is `weight.Uint64()`.
`Vote` then declares `new(big.Int).SetInt64(int64(Weight))` next to the proof.

`Uint64` keeps the low 64 bits of the absolute value, and `int64` reads those bits in
two's complement, so the declared weight is the proven one exactly below `2^63`.

* `zkCensusGenProof_input` — the circuit's input denotes the weight;
* `zk_vote_weight_iff` — for a non-negative weight, the declared weight is the
  proven one if and only if the weight is below `2^63`;
* `zk_vote_weight_two_pow_63` — at `2^63` the declared weight is `-2^63`.
-/

namespace Vocdoni.ApiClient

open Vocdoni.IndexerTypes

/-- `CensusProofZk`, with the field `Vote` reads for the weight. -/
structure CensusProofZk where
  weight : UInt64
  deriving DecidableEq, Repr

/-- `big.Int.Uint64`: the low 64 bits of the absolute value. -/
def bigIntUint64 (x : Int) : UInt64 :=
  UInt64.ofNat x.natAbs

/-- `ZkCensusGenProof`, as far as the weight goes: the circuit's `weight` input,
`weight.String()`, and the returned proof, where `weight` is the census proof's
weight or 1. -/
def zkCensusGenProof (censusWeight : Option Int) : List Char × CensusProofZk :=
  let weight := censusWeight.getD 1
  (intDecimal weight, ⟨bigIntUint64 weight⟩)

/-- The weight `Vote` passes to `ProverProofToProtobufZKProof`:
`new(big.Int).SetInt64(int64(Weight))`. -/
def voteZkWeight (proof : CensusProofZk) : Int :=
  proof.weight.toBitVec.toInt

/-- The integer a decimal text denotes, as the circuit reads its string input. -/
def decimalValue (text : List Char) : Option Int :=
  (parseDecimal (text ++ ['"'])).map Prod.fst

/-- The circuit's input denotes the weight. -/
theorem zkCensusGenProof_input (censusWeight : Option Int) :
    decimalValue (zkCensusGenProof censusWeight).1 = some (censusWeight.getD 1) := by
  simp [decimalValue, zkCensusGenProof, parseDecimal_intDecimal]

/-- `int64(x.Uint64())` of a natural number is the number exactly below `2^63`. -/
theorem toInt_ofNat_eq_iff (n : Nat) : (UInt64.ofNat n).toBitVec.toInt = n ↔ n < 2 ^ 63 := by
  show (BitVec.ofNat 64 n).toInt = n ↔ _
  rw [BitVec.toInt_eq_toNat_cond, BitVec.toNat_ofNat]
  split <;> omega

/-- **The declared weight.** For a weight the census gives as non-negative (or the
default 1), the circuit proves the weight, and `Vote` declares that same weight if and
only if it is below `2^63`. -/
theorem zk_vote_weight_iff (censusWeight : Option Int)
    (nonneg : ∀ w, censusWeight = some w → 0 ≤ w) :
    decimalValue (zkCensusGenProof censusWeight).1 = some (censusWeight.getD 1) ∧
      (voteZkWeight (zkCensusGenProof censusWeight).2 = censusWeight.getD 1 ↔
        censusWeight.getD 1 < 2 ^ 63) := by
  refine ⟨zkCensusGenProof_input censusWeight, ?_⟩
  have weight : 0 ≤ censusWeight.getD 1 := by
    cases censusWeight with
    | none => decide
    | some w => exact nonneg w rfl
  obtain ⟨n, hn⟩ := Int.eq_ofNat_of_zero_le weight
  simp only [voteZkWeight, zkCensusGenProof, bigIntUint64, hn, Int.natAbs_ofNat,
    toInt_ofNat_eq_iff]
  omega

/-- `zk_vote_weight_iff` at a weight of `2^64`, which is declared as `0`. -/
theorem zk_vote_weight_iff_two_pow_64 :
    (∀ w, some (2 ^ 64 : Int) = some w → 0 ≤ w) ∧
      decimalValue (zkCensusGenProof (some (2 ^ 64))).1 = some (2 ^ 64) ∧
      (voteZkWeight (zkCensusGenProof (some (2 ^ 64))).2 = 2 ^ 64 ↔ (2 ^ 64 : Int) < 2 ^ 63) := by
  have nonneg : ∀ w, some (2 ^ 64 : Int) = some w → 0 ≤ w := by
    intro w h
    cases h
    decide
  exact ⟨nonneg, zk_vote_weight_iff (some (2 ^ 64)) nonneg⟩

/-- At a weight of `2^63`, the circuit proves `2^63` and `Vote` declares `-2^63`. -/
theorem zk_vote_weight_two_pow_63 :
    decimalValue (zkCensusGenProof (some (2 ^ 63))).1 = some (2 ^ 63) ∧
      voteZkWeight (zkCensusGenProof (some (2 ^ 63))).2 = -2 ^ 63 :=
  ⟨zkCensusGenProof_input (some (2 ^ 63)), by decide⟩

end Vocdoni.ApiClient
