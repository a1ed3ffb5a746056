import Mathlib.Algebra.BigOperators.Group.List
import Mathlib.Algebra.Group.Pi.Basic
import Mathlib.Algebra.Group.Prod
import Mathlib.Tactic.Abel
import Mathlib.Tactic.NormNum
import Vocdoni.Tally.Results

/-!
# Tallies as vectors

What a tally is for: every counter and the weight are sums of the ballots' own
contributions. `Results.vec` reads a tally as a vector of the group
`(ℕ × ℕ → ℤ) × ℤ` (counter `(question, value)`, then the weight). On tallies of one
shape (the rows' lengths) it turns the aggregator's operations into the group's:

* `Results.vec_add`, `Results.vec_sub` — counter-by-counter sum and difference;
* `Results.vec_tallyStep` — adding a ballot adds the ballot's own contribution
  `contribution`, the tally of the ballot alone;
* `Results.eq_of_vec_eq` — a tally is determined by its shape and its vector.

So a tally built from the zero tally by `tallyStep`s is the sum of the ballots'
contributions (`Results.vec_foldl_tallyStep`).
-/

namespace Vocdoni.Tally

/-- The counter of value `i` of question `q`, zero outside the matrix. -/
def cell (rows : List (List Int)) (q i : Nat) : Int :=
  (rows.getD q []).getD i 0

/-- The tally as a vector: every counter, and the weight. -/
def Results.vec (r : Results) : (Nat × Nat → Int) × Int :=
  (fun p => cell r.votes p.1 p.2, r.weight)

/-- The lengths of the rows of the vote matrix. -/
def Results.shape (r : Results) : List Nat :=
  r.votes.map List.length

/-! ## Rows -/

theorem getD_zipWith_of_length {f : Int → Int → Int} (h0 : f 0 0 = 0) {a b : List Int}
    (hl : a.length = b.length) (i : Nat) :
    (List.zipWith f a b).getD i 0 = f (a.getD i 0) (b.getD i 0) := by
  simp only [List.getD_eq_getElem?_getD, List.getElem?_zipWith]
  by_cases hi : i < a.length
  · simp [List.getElem?_eq_getElem hi, List.getElem?_eq_getElem (hl ▸ hi)]
  · simp [List.getElem?_eq_none (Nat.le_of_not_lt hi),
      List.getElem?_eq_none (hl ▸ Nat.le_of_not_lt hi), h0]

theorem getD_modify_add (w : Int) (c : Nat) (l : List Int) (i : Nat) :
    (l.modify (· + w) c).getD i 0 = l.getD i 0 + if c = i ∧ i < l.length then w else 0 := by
  simp only [List.getD_eq_getElem?_getD, List.getElem?_modify]
  by_cases hi : i < l.length
  · by_cases hc : c = i <;> simp [List.getElem?_eq_getElem hi, hc, hi]
  · simp [List.getElem?_eq_none (Nat.le_of_not_lt hi), hi]

theorem eq_of_getD_eq {a b : List Int} (hl : a.length = b.length)
    (h : ∀ i, a.getD i 0 = b.getD i 0) : a = b := by
  apply List.ext_getElem hl
  intro i ha hb
  have := h i
  simp only [List.getD_eq_getElem?_getD, List.getElem?_eq_getElem ha,
    List.getElem?_eq_getElem hb, Option.getD_some] at this
  exact this

/-! ## Matrices -/

theorem cell_zipWith {f : Int → Int → Int} (h0 : f 0 0 = 0) :
    ∀ (a b : List (List Int)), a.map List.length = b.map List.length → ∀ q i,
      cell (List.zipWith (List.zipWith f) a b) q i = f (cell a q i) (cell b q i)
  | [], [], _, q, i => by simp [cell, h0]
  | [], _ :: _, h, _, _ => by simp at h
  | _ :: _, [], h, _, _ => by simp at h
  | x :: a, y :: b, h, q, i => by
    simp only [List.map_cons, List.cons.injEq] at h
    cases q with
    | zero => exact getD_zipWith_of_length h0 h.1 i
    | succ q => exact cell_zipWith h0 a b h.2 q i

theorem map_length_zipWith {f : Int → Int → Int} :
    ∀ (a b : List (List Int)), a.map List.length = b.map List.length →
      (List.zipWith (List.zipWith f) a b).map List.length = a.map List.length
  | [], _, _ => rfl
  | _ :: _, [], h => by simp at h
  | x :: a, y :: b, h => by
    simp only [List.map_cons, List.cons.injEq] at h
    simp [List.length_zipWith, h.1, map_length_zipWith a b h.2]

theorem cell_addChoices (w : Int) :
    ∀ (rows zeros : List (List Int)) (cs : List Int), rows.map List.length = zeros.map List.length →
      (∀ q i, cell zeros q i = 0) → ∀ q i,
        cell (addChoices w rows cs) q i = cell rows q i + cell (addChoices w zeros cs) q i
  | [], [], cs, _, _, q, i => by cases cs <;> simp [addChoices, cell]
  | [], _ :: _, _, h, _, _, _ => by simp at h
  | _ :: _, [], _, h, _, _, _ => by simp at h
  | x :: rows, z :: zeros, [], _, hz, q, i => by
    show cell (x :: rows) q i = cell (x :: rows) q i + cell (z :: zeros) q i
    rw [hz q i, add_zero]
  | x :: rows, z :: zeros, c :: cs, h, hz, q, i => by
    simp only [List.map_cons, List.cons.injEq] at h
    cases q with
    | zero =>
      have hz0 : ∀ i, z.getD i 0 = 0 := hz 0
      simp only [addChoices, cell, List.getD_cons_zero, getD_modify_add, hz0, h.1, zero_add]
    | succ q =>
      exact cell_addChoices w rows zeros cs h.2 (fun q i => hz (q + 1) i) q i

theorem map_length_addChoices (w : Int) :
    ∀ (rows : List (List Int)) (cs : List Int),
      (addChoices w rows cs).map List.length = rows.map List.length
  | [], cs => by cases cs <;> rfl
  | _ :: _, [] => rfl
  | row :: rows, c :: cs => by
    simp [addChoices, List.length_modify, map_length_addChoices w rows cs]

theorem eq_of_cell_eq :
    ∀ (a b : List (List Int)), a.map List.length = b.map List.length →
      (∀ q i, cell a q i = cell b q i) → a = b
  | [], [], _, _ => rfl
  | [], _ :: _, h, _ => by simp at h
  | _ :: _, [], h, _ => by simp at h
  | x :: a, y :: b, h, hc => by
    simp only [List.map_cons, List.cons.injEq] at h
    rw [eq_of_getD_eq h.1 (hc 0), eq_of_cell_eq a b h.2 (fun q i => hc (q + 1) i)]

/-! ## Tallies -/

theorem Results.shape_empty (opts : ProcessVoteOptions) :
    (Results.empty opts).shape = List.replicate opts.maxCount (opts.maxValue + 1) := by
  simp [Results.shape, Results.empty, newEmptyVotes, List.map_replicate]

theorem Results.cell_empty (opts : ProcessVoteOptions) (q i : Nat) :
    cell (Results.empty opts).votes q i = 0 := by
  simp only [cell, Results.empty, newEmptyVotes, List.getD_eq_getElem?_getD,
    List.getElem?_replicate]
  split <;> simp [List.getElem?_replicate]; split <;> rfl

@[simp] theorem Results.vec_empty (opts : ProcessVoteOptions) : (Results.empty opts).vec = 0 := by
  ext p
  · exact Results.cell_empty opts p.1 p.2
  · rfl

theorem Results.shape_add {r s : Results} (h : r.shape = s.shape) : (r.add s).shape = r.shape :=
  map_length_zipWith r.votes s.votes h

theorem Results.shape_sub {r s : Results} (h : r.shape = s.shape) : (r.sub s).shape = r.shape :=
  map_length_zipWith r.votes s.votes h

theorem Results.vec_add {r s : Results} (h : r.shape = s.shape) : (r.add s).vec = r.vec + s.vec := by
  ext p
  · exact cell_zipWith (by norm_num) r.votes s.votes h p.1 p.2
  · rfl

theorem Results.vec_sub {r s : Results} (h : r.shape = s.shape) : (r.sub s).vec = r.vec - s.vec := by
  ext p
  · exact cell_zipWith (by norm_num) r.votes s.votes h p.1 p.2
  · rfl

/-- A tally is determined by its shape and its vector. -/
theorem Results.eq_of_vec_eq {r s : Results} (hs : r.shape = s.shape) (hv : r.vec = s.vec) :
    r = s := by
  ext1
  · exact eq_of_cell_eq r.votes s.votes hs fun q i => congrFun (congrArg Prod.fst hv) (q, i)
  · exact congrArg Prod.snd hv

theorem Results.shape_tallyStep (opts : ProcessVoteOptions) (r : Results)
    (b : VotePackage × Option Int) : (tallyStep opts r b).shape = r.shape := by
  obtain ⟨pkg, w⟩ := b
  cases pkg with
  | none => rfl
  | some cs =>
    simp only [tallyStep, addLiveVote, Option.some_bind, addVote]
    split
    · exact map_length_addChoices _ r.votes cs
    · rfl

/-- The contribution of a ballot: the tally of the ballot alone. -/
def contribution (opts : ProcessVoteOptions) (b : VotePackage × Option Int) :
    (Nat × Nat → Int) × Int :=
  (tallyStep opts (Results.empty opts) b).vec

/-- **Adding a ballot adds its contribution**, to a tally of the options' shape. -/
theorem Results.vec_tallyStep (opts : ProcessVoteOptions) {r : Results}
    (h : r.shape = (Results.empty opts).shape) (b : VotePackage × Option Int) :
    (tallyStep opts r b).vec = r.vec + contribution opts b := by
  obtain ⟨pkg, w⟩ := b
  unfold contribution
  cases pkg with
  | none => simp [tallyStep, addLiveVote]
  | some cs =>
    simp only [tallyStep, addLiveVote, Option.some_bind, addVote]
    split
    · ext p
      · exact cell_addChoices _ r.votes _ cs h (Results.cell_empty opts) p.1 p.2
      · simp [Results.vec, Results.empty]
    · simp

/-- A tally of the options' shape plus ballots is the tally plus their contributions. -/
theorem Results.vec_foldl_tallyStep (opts : ProcessVoteOptions) (bs : List (VotePackage × Option Int))
    {r : Results} (h : r.shape = (Results.empty opts).shape) :
    (bs.foldl (tallyStep opts) r).vec = r.vec + (bs.map (contribution opts)).sum ∧
      (bs.foldl (tallyStep opts) r).shape = r.shape := by
  induction bs generalizing r with
  | nil => simp
  | cons b bs ih =>
    have step := Results.shape_tallyStep opts r b
    obtain ⟨hv, hs⟩ := ih (step.trans h)
    refine ⟨?_, hs.trans step⟩
    rw [List.foldl_cons, hv, Results.vec_tallyStep opts h, List.map_cons, List.sum_cons, add_assoc]

end Vocdoni.Tally
