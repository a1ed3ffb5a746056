import Vocdoni.Indexer.Commit

/-!
# `Commit` does not depend on map iteration order

Go randomises the order in which `range` visits a map. `Commit` ranges over
`votePool`, over each process's pooled ballots, and over
`blockUpdateProcVoteCounts`. Whatever the orders, it writes the same database and
leaves the same indexer (`Indexer.commit_visit_order`).

The argument is local to each loop body:

* a pooled ballot moves each accumulator by one `tallyStep` or not at all, and the
  choice does not read the accumulators (`commitBallot_eq`), so two ballots commute
  (`commitBallot_right_comm`);
* a process of the pool reads and writes its own row only, by a function of the
  row (`commitProcessVotes_eq`), so two processes commute
  (`commitProcessVotes_right_comm`), the same process twice included;
* a vote count reads the `votes` table, which no vote count writes.
-/

namespace Vocdoni.Vochain

open Vocdoni.Tally

/-! ## Ballots -/

theorem tallyStepIf_right_comm (b c : Bool) (opts : ProcessVoteOptions) (r : Results)
    (x y : VotePackage × Option Int) :
    tallyStepIf c opts (tallyStepIf b opts r x) y = tallyStepIf b opts (tallyStepIf c opts r y) x := by
  cases b <;> cases c <;> simp [tallyStepIf, tallyStep_right_comm]

theorem commitBallot_right_comm (app : App) (opts : ProcessVoteOptions) (acc : Results × Results)
    (v w : Vote) :
    commitBallot app opts (commitBallot app opts acc v) w =
      commitBallot app opts (commitBallot app opts acc w) v := by
  rw [commitBallot_eq, commitBallot_eq, commitBallot_eq, commitBallot_eq]
  exact Prod.ext (tallyStepIf_right_comm ..) (tallyStepIf_right_comm ..)

theorem commitAccumulators_perm (app : App) (opts : ProcessVoteOptions)
    {votes votes' : Assoc Bytes Vote} (h : votes.Perm votes') :
    commitAccumulators app opts votes = commitAccumulators app opts votes' :=
  h.foldl_eq' (fun x _ y _ acc => commitBallot_right_comm app opts acc x.2 y.2) _

/-! ## Processes -/

/-- What `Commit` does to the row of a process of the pool. -/
def rowCommit (app : App) (votes : Assoc Bytes Vote) (row : ProcessRow) : ProcessRow :=
  let acc := commitAccumulators app row.voteOpts votes
  { row with results := row.results.applyDelta acc.1 acc.2, resultsBlockHeight := app.height }

theorem commitProcessVotes_eq (app : App) (pid : Bytes) (votes : Assoc Bytes Vote) (db : Db) :
    commitProcessVotes app pid votes db =
      { db with processes := assocUpdate db.processes pid (rowCommit app votes) } := by
  unfold commitProcessVotes
  cases h : assocGet db.processes pid with
  | none => simp [assocUpdate_of_get_none h]
  | some proc =>
    simp only [commitVotesUnsafe]
    rw [assocUpdate_of_get h (fun proc row =>
      { row with
        results := (proc.results.applyDelta (commitAccumulators app proc.voteOpts votes).1
          (commitAccumulators app proc.voteOpts votes).2)
        resultsBlockHeight := app.height })]
    rfl

theorem rowCommit_perm (app : App) {votes votes' : Assoc Bytes Vote} (h : votes.Perm votes') :
    rowCommit app votes = rowCommit app votes' := by
  funext row; simp only [rowCommit, commitAccumulators_perm app _ h]

theorem rowCommit_comm (app : App) (votes votes' : Assoc Bytes Vote) (row : ProcessRow) :
    rowCommit app votes (rowCommit app votes' row) = rowCommit app votes' (rowCommit app votes row) := by
  simp only [rowCommit, Results.applyDelta_right_comm]

theorem commitProcessVotes_right_comm (app : App) (e₁ e₂ : Bytes × Assoc Bytes Vote) (db : Db) :
    commitProcessVotes app e₂.1 e₂.2 (commitProcessVotes app e₁.1 e₁.2 db) =
      commitProcessVotes app e₁.1 e₁.2 (commitProcessVotes app e₂.1 e₂.2 db) := by
  simp only [commitProcessVotes_eq]
  by_cases h : e₁.1 = e₂.1
  · rw [h, assocUpdate_assocUpdate, assocUpdate_assocUpdate]
    congr 2; funext row; exact rowCommit_comm app _ _ row
  · rw [assocUpdate_comm _ h]

/-- The pool loop over two enumerations that differ only in the order of each
process's ballots. -/
theorem foldl_commitProcessVotes_forall₂ (app : App) {p q : VotePool}
    (h : List.Forall₂ (fun a b => a.1 = b.1 ∧ a.2.Perm b.2) p q) (db : Db) :
    p.foldl (fun db e => commitProcessVotes app e.1 e.2 db) db =
      q.foldl (fun db e => commitProcessVotes app e.1 e.2 db) db := by
  induction h generalizing db with
  | nil => rfl
  | @cons a b _ _ hab _ ih =>
    simp only [List.foldl_cons]
    rw [ih, commitProcessVotes_eq, commitProcessVotes_eq, hab.1, rowCommit_perm app hab.2]

/-! ## Vote counts -/

theorem computeProcessVoteCount_right_comm (p q : Bytes) (db : Db) :
    computeProcessVoteCount q (computeProcessVoteCount p db) =
      computeProcessVoteCount p (computeProcessVoteCount q db) := by
  by_cases h : p = q
  · rw [h]
  · simp only [computeProcessVoteCount, assocUpdate_comm _ h]

/-! ## The whole `Commit` -/

/-- Two enumerations of one vote pool: the same processes, each with the same
pooled ballots, each in any order. -/
def PoolVisitOrder (pool visit : VotePool) : Prop :=
  ∃ grouped, List.Forall₂ (fun a b => a.1 = b.1 ∧ a.2.Perm b.2) pool grouped ∧ grouped.Perm visit

/-- **`Commit` is independent of map iteration order.** Two runs of `Commit` that
visit the processes of `votePool`, the ballots of each process, and the processes of
`blockUpdateProcVoteCounts` in different orders leave the same indexer: the same
committed database (every results triple, every row), the same scratch maps and
transaction, and the same returned error. -/
theorem Indexer.commit_visit_order (app : App) (idx : Indexer) (height : Nat)
    (txOk optimizeOk : Bool) (pool : VotePool) (poolOrder : PoolVisitOrder idx.votePool pool)
    (counts : List Bytes) (countsOrder : counts.Perm idx.blockUpdateProcVoteCounts) :
    Indexer.commit app { idx with votePool := pool, blockUpdateProcVoteCounts := counts } height
        txOk optimizeOk =
      Indexer.commit app idx height txOk optimizeOk := by
  obtain ⟨grouped, hg, hp⟩ := poolOrder
  have writes : commitWrites app { idx with votePool := pool, blockUpdateProcVoteCounts := counts }
      height = commitWrites app idx height := by
    simp only [commitWrites]
    rw [foldl_commitProcessVotes_forall₂ app hg,
      hp.foldl_eq' (fun x _ y _ db => commitProcessVotes_right_comm app x y db),
      countsOrder.foldl_eq' (fun x _ y _ db => computeProcessVoteCount_right_comm x y db)]
    rfl
  simp only [Indexer.commit, writes]

/-- `commit_visit_order` for a pool of two processes visited in both orders. -/
theorem Indexer.commit_visit_order_two_processes :
    let app : App := ⟨7, 0, true, fun _ => none, fun _ => none, fun _ _ => none,
      fun _ => .error .emptyTree⟩
    let a : Bytes × Assoc Bytes Vote := ([1], [([2], ⟨[1], [2], 7, some [0], [], some 3, 0, []⟩)])
    let b : Bytes × Assoc Bytes Vote := ([3], [([4], ⟨[3], [4], 7, some [1], [], none, 0, []⟩)])
    let idx : Indexer := { Indexer.new Db.empty false with votePool := [a, b] }
    PoolVisitOrder idx.votePool [b, a] ∧ ([] : List Bytes).Perm idx.blockUpdateProcVoteCounts ∧
      Indexer.commit app { idx with votePool := [b, a], blockUpdateProcVoteCounts := [] } 7 true true =
        Indexer.commit app idx 7 true true := by
  intro app a b idx
  have order : PoolVisitOrder idx.votePool [b, a] :=
    ⟨_, List.forall₂_same.mpr fun _ _ => ⟨rfl, List.Perm.refl _⟩, List.Perm.swap _ _ _⟩
  exact ⟨order, List.Perm.refl _,
    Indexer.commit_visit_order app idx 7 true true [b, a] order [] (List.Perm.refl _)⟩

end Vocdoni.Vochain
