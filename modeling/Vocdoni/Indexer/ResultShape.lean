import Vocdoni.Indexer.TallySums
import Vocdoni.Indexer.Statements

/-!
# Results keep the shape of their vote options

A process's stored results are one row of counters per question: `maxCount` rows of
`maxValue + 1` counters, the shape of the zero tally of its vote options
(`Results.shape_empty`). Results add and subtract counter by counter with `zipWith`,
which would silently drop counters if two shapes differed; the indexer never makes
them differ.

A new row holds the zero tally of its options. `Commit` adds to a row accumulators
started from the zero tally of the row's own options; the bootstrap resets a row's
results and options together and adds a tally of the same options; no other write
touches the results or the options. So on every interleaving of the critical
sections, every process row, committed or in the block transaction, has results of
the shape of its vote options.

* `Results.shape_applyDelta`, `commitAccumulators_shape` — a delta of the shape of
  the results keeps it;
* `Db.Sized.statements` — every statement a critical section issues keeps every row
  sized;
* `results_sized_by_vote_options` — on every interleaving of critical sections, each
  reading the chain's state of its own moment, from a database whose rows are sized,
  every row stays sized.
-/

namespace Vocdoni.Vochain

open Vocdoni.Tally

/-! ## Tallies -/

theorem Results.shape_applyDelta {r a s : Results} (ha : a.shape = r.shape)
    (hs : s.shape = r.shape) : (r.applyDelta a s).shape = r.shape :=
  (Results.shape_sub ((Results.shape_add ha.symm).trans hs.symm)).trans
    (Results.shape_add ha.symm)

/-- `Commit`'s two accumulators have the shape of the zero tally they start from. -/
theorem commitAccumulators_shape (app : App) (opts : ProcessVoteOptions)
    (votes : Assoc Bytes Vote) :
    (commitAccumulators app opts votes).1.shape = (Results.empty opts).shape ∧
      (commitAccumulators app opts votes).2.shape = (Results.empty opts).shape := by
  rw [commitAccumulators_eq]
  exact ⟨(vec_foldl_tallyStepIf opts _ _ _ rfl).2, (vec_foldl_tallyStepIf opts _ _ _ rfl).2⟩

theorem tallyBallots_shape (opts : ProcessVoteOptions) (votes : List StateDBVote) :
    (tallyBallots opts votes).shape = (Results.empty opts).shape :=
  foldl_eq_of_step Results.shape (fun r _ => Results.shape_tallyStep opts r _) votes _

/-! ## Rows -/

/-- A row's results have the shape of the zero tally of its vote options. -/
def ProcessRow.Sized (row : ProcessRow) : Prop :=
  row.results.shape = (Results.empty row.voteOpts).shape

/-- Every process row of `db` is sized. -/
def Db.Sized (db : Db) : Prop :=
  ∀ pid row, assocGet db.processes pid = some row → row.Sized

section Writes

variable {db : Db}

theorem Db.Sized.of_processes (h : db.Sized) {db' : Db} (e : db'.processes = db.processes) :
    db'.Sized := by
  intro pid row hrow
  rw [e] at hrow
  exact h pid row hrow

/-- An update of the row of `pid` that keeps it sized. -/
theorem Db.Sized.update (h : db.Sized) (pid : Bytes) {f : ProcessRow → ProcessRow}
    (hf : ∀ row, assocGet db.processes pid = some row → row.Sized → (f row).Sized) :
    ({ db with processes := assocUpdate db.processes pid f } : Db).Sized := by
  intro q row hq
  simp only [assocGet_assocUpdate] at hq
  split at hq
  · subst pid
    obtain ⟨row₀, h₀, rfl⟩ := Option.map_eq_some'.mp hq
    exact hf row₀ h₀ (h q row₀ h₀)
  · exact h q row hq

theorem Db.Sized.newEmptyProcess (h : db.Sized) (app : App) (pid : Bytes) :
    (newEmptyProcess app pid db).Sized := by
  unfold Vocdoni.Vochain.newEmptyProcess
  split
  · intro q row hq
    by_cases hpq : pid = q
    · subst hpq
      unfold assocInsert at hq
      split at hq
      · exact h pid row hq
      · rename_i p _ noRow
        rw [assocGet_append_of_none (Option.not_isSome_iff_eq_none.mp noRow)] at hq
        cases hq
        rfl
    · rw [assocGet_assocInsert_of_ne _ hpq] at hq
      exact h q row hq
  · exact h

theorem Db.Sized.commitProcessVotes (h : db.Sized) (app : App) (pid : Bytes)
    (votes : Assoc Bytes Vote) : (commitProcessVotes app pid votes db).Sized := by
  unfold Vocdoni.Vochain.commitProcessVotes commitVotesUnsafe
  split
  · exact h
  · rename_i proc hproc
    refine h.update pid fun row hrow hsized => ?_
    obtain rfl : row = proc := Option.some.inj (hrow.symm.trans hproc)
    have acc := commitAccumulators_shape app row.voteOpts votes
    exact (Results.shape_applyDelta (acc.1.trans hsized.symm) (acc.2.trans hsized.symm)).trans
      hsized

theorem Db.Sized.updateProcess (h : db.Sized) (app : App) (pid : Bytes) :
    ((updateProcess app pid db).getD db).Sized := by
  unfold Vocdoni.Vochain.updateProcess
  split
  · exact h.update pid fun _ _ hs => hs
  · exact h

theorem Db.Sized.computeProcessVoteCount (h : db.Sized) (pid : Bytes) :
    (computeProcessVoteCount pid db).Sized :=
  h.update pid fun _ _ hs => hs

/-- The bootstrap's reset of a row: the zero tally of the options read, and the
options themselves. -/
theorem Db.Sized.resetResults (h : db.Sized) (pid : Bytes) (opts : ProcessVoteOptions) :
    (updateProcessResultByID pid (Results.empty opts) opts db).Sized :=
  h.update pid fun _ _ _ => rfl

/-- The bootstrap's recount after the reset: a tally of the same options added. -/
theorem Db.Sized.recount {pid : Bytes} {opts : ProcessVoteOptions}
    (reset : (updateProcessResultByID pid (Results.empty opts) opts db).Sized)
    (votes : List StateDBVote) (height : Nat) :
    (commitVotesUnsafe pid (Results.empty opts) (tallyBallots opts votes) none height
      (updateProcessResultByID pid (Results.empty opts) opts db)).Sized := by
  refine reset.update pid fun row hrow _ => ?_
  have hopts : row.voteOpts = opts := by
    simp only [updateProcessResultByID, assocGet_assocUpdate, if_true] at hrow
    obtain ⟨_, _, rfl⟩ := Option.map_eq_some'.mp hrow
    rfl
  show ((Results.empty opts).add (tallyBallots opts votes)).shape =
    (Results.empty row.voteOpts).shape
  rw [hopts, Results.shape_add (tallyBallots_shape opts votes).symm]

end Writes

/-! ## Every statement -/

/-- Every statement of the indexer keeps every row sized. -/
theorem Db.Sized.statements : Statements fun a b => a.Sized → b.Sized where
  refl _ h := h
  trans hab hbc h := hbc (hab h)
  createBlock _ _ h := h.of_processes rfl
  indexTx _ _ _ h := h.of_processes rfl
  newEmptyProcess app pid _ h := h.newEmptyProcess app pid
  updateProcess app pid _ h := h.updateProcess app pid
  commitProcessVotes app pid votes _ h := h.commitProcessVotes app pid votes
  computeProcessVoteCount pid _ h := h.computeProcessVoteCount pid
  resetResults pid opts _ h := h.resetResults pid opts
  recount _ _ votes height _ h := h.recount votes height
  vote _ _ h := h.of_processes rfl
  setAccount _ _ _ h := h.of_processes rfl
  transfer _ _ h := h.of_processes rfl
  fee _ _ h := h.of_processes rfl

/-- **Results keep the shape of their vote options.** From an indexer whose rows are
sized, committed and in the block transaction (one with an empty database, say), on
every interleaving of critical sections, each reading the state of the application at
its own moment, every process row has results of the shape of its vote options:
`maxCount` rows of `maxValue + 1` counters. -/
theorem results_sized_by_vote_options (idx : Indexer) (ps : List (App × Action))
    (start : idx.db.Sized ∧ idx.txDb.Sized) :
    (idx.runAt ps).db.Sized ∧ (idx.runAt ps).txDb.Sized :=
  Indexer.runAt_keeps Db.Sized.statements ps start

/-- The process `[1]` of `oneQuestion` created and committed, then the bootstrap once
the chain has no process left to report. -/
def newProcessSections : List (App × Action) :=
  [(chainOneQuestion.app, .sink (.onProcess [1])), (chainOneQuestion.app, .commit 1 true true),
    (idleApp, .bootstrap true)]

/-- `results_sized_by_vote_options` from the empty database, over a block that
creates a process, commits, and a bootstrap. -/
theorem results_sized_by_vote_options_new_process :
    ((Indexer.new Db.empty false).db.Sized ∧ (Indexer.new Db.empty false).txDb.Sized) ∧
      ((Indexer.new Db.empty false).runAt newProcessSections).db.Sized ∧
        ((Indexer.new Db.empty false).runAt newProcessSections).txDb.Sized := by
  have start : (Indexer.new Db.empty false).db.Sized ∧ (Indexer.new Db.empty false).txDb.Sized :=
    ⟨fun _ _ h => (nomatch h), fun _ _ h => (nomatch h)⟩
  exact ⟨start, results_sized_by_vote_options _ _ start⟩

end Vocdoni.Vochain
