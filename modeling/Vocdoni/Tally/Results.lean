import Mathlib.Data.List.Perm.Basic
import Mathlib.Data.List.Nodup

/-!
# The results aggregator

A process's live tally is a `Results` value: one row of option counters per
question (`Votes`) and the total `Weight`. Neither the `results` package nor the
indexer's `addLiveVote` is part of this source snapshot, so both are modelled from
the specification's description of the aggregator:

* a ballot is decoded and validated against the process vote options (choice
  count, value range, uniqueness, cost bound); an invalid ballot is rejected;
* a valid ballot adds its weight into the counter of each chosen value, and into
  the total weight; an absent weight counts as one;
* results add and subtract counter by counter.

What the indexer relies on, and what is proved here once:

* `addLiveVote_isSome` — whether a ballot is accepted depends on the vote options
  and the package only, never on the accumulator;
* `addVote_comm` — two accepted ballots can be added in either order, so every
  accumulator fold is insensitive to the order of its ballots
  (`foldl_tallyStep_perm`).
-/

namespace Vocdoni.Tally

/-- The fields of `models.ProcessVoteOptions` the aggregator reads. -/
structure ProcessVoteOptions where
  maxCount : Nat
  maxValue : Nat
  uniqueValues : Bool
  maxTotalCost : Nat
  costExponent : Nat
  deriving DecidableEq, Repr

/-- A ballot's vote package as the aggregator sees it: the choices it decodes to,
or `none` when the bytes do not decode to a vote package. -/
abbrev VotePackage := Option (List Int)

/-- `results.Results` restricted to what is tallied: the vote matrix and the
total weight (big integers are `Int`). -/
@[ext]
structure Results where
  votes : List (List Int)
  weight : Int
  deriving DecidableEq, Repr

/-- Modelled from the spec: `results.NewEmptyVotes`, one zero row per question,
`MaxValue + 1` counters a row ("MaxValue requires +1 since 0 is also an option"). -/
def newEmptyVotes (opts : ProcessVoteOptions) : List (List Int) :=
  List.replicate opts.maxCount (List.replicate (opts.maxValue + 1) 0)

/-- The zero tally sized by the vote options, as the indexer builds it for a new
process, a bootstrap reset and each accumulator. -/
def Results.empty (opts : ProcessVoteOptions) : Results :=
  ⟨newEmptyVotes opts, 0⟩

/-- No value repeats. -/
def allDistinct : List Int → Bool
  | [] => true
  | c :: cs => cs.all (fun x => decide (x ≠ c)) && allDistinct cs

/-- The cost of a ballot, `Σ value ^ costExponent`. -/
def totalCost (costExponent : Nat) (choices : List Int) : Nat :=
  choices.foldl (fun acc c => acc + Nat.pow c.toNat costExponent) 0

/-- Modelled from the spec: the ballot checks of "add one ballot" (choice count
equals the question count, each value in `[0, maxValue]`, no repeated value when
`uniqueValues` is set, the cost bound `Σ value ^ costExponent ≤ maxTotalCost`). -/
def validChoices (opts : ProcessVoteOptions) (choices : List Int) : Bool :=
  choices.length == opts.maxCount &&
  choices.all (fun c => 0 ≤ c && c ≤ opts.maxValue) &&
  (!opts.uniqueValues || allDistinct choices) &&
  decide (totalCost opts.costExponent choices ≤ opts.maxTotalCost)

/-- Add `w` into the counter of the chosen value of each question. -/
def addChoices (w : Int) : List (List Int) → List Int → List (List Int)
  | row :: rows, c :: cs => row.modify (· + w) c.toNat :: addChoices w rows cs
  | rows, _ => rows

/-- Modelled from the spec: `Results.AddVote` — validate, then add the weight
into each chosen counter and into the total weight. -/
def addVote (opts : ProcessVoteOptions) (choices : List Int) (w : Int)
    (r : Results) : Option Results :=
  if validChoices opts choices then some ⟨addChoices w r.votes choices, r.weight + w⟩
  else none

/-- Modelled from the spec: the indexer's `addLiveVote` — decode the package and
add the ballot, with an absent weight counting as one. `none` is the error the
callers log and skip. -/
def addLiveVote (opts : ProcessVoteOptions) (pkg : VotePackage) (weight : Option Int)
    (r : Results) : Option Results :=
  pkg.bind fun choices => addVote opts choices (weight.getD 1) r

/-- Modelled from the spec: counter-by-counter sum (`Results.Add`). -/
def Results.add (r s : Results) : Results :=
  ⟨List.zipWith (List.zipWith (· + ·)) r.votes s.votes, r.weight + s.weight⟩

/-- Modelled from the spec: counter-by-counter difference (`Results.Sub`). -/
def Results.sub (r s : Results) : Results :=
  ⟨List.zipWith (List.zipWith (· - ·)) r.votes s.votes, r.weight - s.weight⟩

/-- `results + added - subtracted`, as a commit stores it. -/
def Results.applyDelta (r added subtracted : Results) : Results :=
  (r.add added).sub subtracted

/-! ## Deltas commute -/

theorem zipWith_zipWith_left {α β γ δ : Type} (f : α → β → α) (g : α → γ → δ) :
    ∀ (xs : List α) (ys : List β) (zs : List γ),
      List.zipWith g (List.zipWith f xs ys) zs =
        List.zipWith (fun x p => g (f x p.1) p.2) xs (List.zip ys zs)
  | [], _, _ => rfl
  | _ :: _, [], _ => rfl
  | _ :: _, _ :: _, [] => rfl
  | x :: xs, y :: ys, z :: zs => by
    simp [zipWith_zipWith_left f g xs ys zs]

theorem zipWith_right_comm {α β : Type} {f : α → β → α} (h : ∀ x b c, f (f x b) c = f (f x c) b) :
    ∀ (xs : List α) (bs cs : List β),
      List.zipWith f (List.zipWith f xs bs) cs = List.zipWith f (List.zipWith f xs cs) bs
  | [], _, _ => rfl
  | _ :: _, [], _ => by simp
  | _ :: _, _ :: _, [] => by simp
  | x :: xs, b :: bs, c :: cs => by simp [h, zipWith_right_comm h xs bs cs]

/-- One counter row plus a row of `added`, minus a row of `subtracted`. -/
def deltaRow (row : List Int) (d : List Int × List Int) : List Int :=
  List.zipWith (fun x p => x + p.1 - p.2) row (List.zip d.1 d.2)

theorem Results.applyDelta_votes (r a s : Results) :
    (r.applyDelta a s).votes = List.zipWith deltaRow r.votes (List.zip a.votes s.votes) := by
  simp only [Results.applyDelta, Results.add, Results.sub]
  rw [zipWith_zipWith_left]
  congr; funext row d
  rw [zipWith_zipWith_left]; rfl

/-- Two deltas can be stored in either order, whatever the shapes. -/
theorem Results.applyDelta_right_comm (r a s a' s' : Results) :
    (r.applyDelta a s).applyDelta a' s' = (r.applyDelta a' s').applyDelta a s := by
  have rows : ∀ row d e, deltaRow (deltaRow row d) e = deltaRow (deltaRow row e) d :=
    fun row d e => zipWith_right_comm (fun x b c => by omega) row _ _
  ext1
  · simp only [Results.applyDelta_votes]; exact zipWith_right_comm rows _ _ _
  · simp only [Results.applyDelta, Results.add, Results.sub]; omega

/-! ## Acceptance does not depend on the accumulator -/

/-- Whether `addLiveVote` accepts a package: it decodes, and its choices are valid. -/
def acceptsPackage (opts : ProcessVoteOptions) : VotePackage → Bool
  | some choices => validChoices opts choices
  | none => false

theorem addLiveVote_isSome (opts : ProcessVoteOptions) (pkg : VotePackage) (weight : Option Int)
    (r : Results) : (addLiveVote opts pkg weight r).isSome = acceptsPackage opts pkg := by
  cases pkg with
  | none => rfl
  | some choices =>
    simp only [addLiveVote, Option.some_bind, addVote, acceptsPackage]
    split <;> simp_all

/-! ## Adding ballots commutes -/

theorem addChoices_comm (w₁ w₂ : Int) :
    ∀ (rows : List (List Int)) (c₁ c₂ : List Int),
      addChoices w₁ (addChoices w₂ rows c₂) c₁ = addChoices w₂ (addChoices w₁ rows c₁) c₂
  | [], _, _ => by simp [addChoices]
  | _ :: _, [], _ => by cases ‹List Int› <;> simp [addChoices]
  | _ :: _, _ :: _, [] => by simp [addChoices]
  | row :: rows, a :: c₁, b :: c₂ => by
    simp only [addChoices, addChoices_comm w₁ w₂ rows c₁ c₂, List.cons.injEq, and_true]
    by_cases h : a.toNat = b.toNat
    · rw [h, List.modify_modify_eq, List.modify_modify_eq]
      congr 1; funext x; simp only [Function.comp_apply]; omega
    · exact (List.modify_modify_ne _ _ row h).symm

theorem addVote_comm (opts : ProcessVoteOptions) (c₁ c₂ : List Int) (w₁ w₂ : Int)
    (r : Results) :
    (addVote opts c₂ w₂ r).bind (addVote opts c₁ w₁) =
      (addVote opts c₁ w₁ r).bind (addVote opts c₂ w₂) := by
  unfold addVote
  by_cases h₁ : validChoices opts c₁ <;> by_cases h₂ : validChoices opts c₂ <;>
    simp only [h₁, h₂, if_true, Bool.false_eq_true, if_false, Option.some_bind,
      Option.none_bind]
  rw [addChoices_comm]; congr 2; omega

/-- The accumulator step of every tally loop: add the ballot, or keep the
accumulator when `addLiveVote` rejects it (the callers log and go on). -/
def tallyStep (opts : ProcessVoteOptions) (r : Results) (b : VotePackage × Option Int) :
    Results :=
  (addLiveVote opts b.1 b.2 r).getD r

theorem tallyStep_right_comm (opts : ProcessVoteOptions) (r : Results)
    (a b : VotePackage × Option Int) :
    tallyStep opts (tallyStep opts r a) b = tallyStep opts (tallyStep opts r b) a := by
  obtain ⟨pa, wa⟩ := a
  obtain ⟨pb, wb⟩ := b
  unfold tallyStep addLiveVote
  cases pa with
  | none => simp
  | some ca =>
    cases pb with
    | none => simp
    | some cb =>
      have hc := addVote_comm opts ca cb (wa.getD 1) (wb.getD 1) r
      unfold addVote at hc ⊢
      by_cases ha : validChoices opts ca <;> by_cases hb : validChoices opts cb <;>
        simp_all

/-- A tally fold does not depend on the order of its ballots. -/
theorem foldl_tallyStep_perm (opts : ProcessVoteOptions) {l₁ l₂ : List (VotePackage × Option Int)}
    (hp : l₁.Perm l₂) (r : Results) :
    l₁.foldl (tallyStep opts) r = l₂.foldl (tallyStep opts) r :=
  hp.foldl_eq' (fun x _ y _ z => tallyStep_right_comm opts z x y) r

end Vocdoni.Tally
