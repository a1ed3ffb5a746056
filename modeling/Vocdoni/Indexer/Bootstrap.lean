import Vocdoni.Indexer.Commit

/-!
# `AfterSyncBootstrap`

Once the chain is synced, the bootstrap recomputes the live results of every
process whose results are not final, from the committed chain state, and makes
each such process live. It holds `blockMu` for its whole run and works in the
shared block transaction `blockTx`, which it commits at the end.

For each process it resets the stored results to the zero tally, tallies every
committed ballot with `addLiveVote` from the zero tally, stores the tally, and
adds the process to the live set. A process of which `ProcessInfo` finds no
committed row, or whose ballots cannot be iterated, is skipped; `IterateVotes`
reports a process with no ballot yet as the error `ErrEmptyTree`, and the loop
`continue`s before `addProcessToLiveResults`.

* `Indexer.afterSyncBootstrap_preserves` — what the per-process step and a commit
  keep, the bootstrap keeps.
-/

namespace Vocdoni.Vochain

open Vocdoni.Tally

/-- Modelled from the spec: `ProcessInfo` (not in this snapshot) is a query of the
read-only connection, so it reads the committed database. -/
def Indexer.processInfo (idx : Indexer) (pid : Bytes) : Option ProcessRow :=
  assocGet idx.db.processes pid

/-- `UpdateProcessResultByID`: the results columns and the vote options. -/
def updateProcessResultByID (pid : Bytes) (results : Results) (opts : ProcessVoteOptions)
    (db : Db) : Db :=
  { db with processes := assocUpdate db.processes pid fun row =>
      { row with results := results, voteOpts := opts } }

/-- The ballots of a process tallied from the zero tally, as the bootstrap's
`IterateVotes` callback does (a rejected ballot is logged and skipped). -/
def tallyBallots (opts : ProcessVoteOptions) (votes : List StateDBVote) : Results :=
  votes.foldl (fun acc v => tallyStep opts acc (v.votePackage, some (setBytes v.weight)))
    (Results.empty opts)

/-- The bootstrap loop body for one process. -/
def Indexer.bootstrapProcess (app : App) (idx : Indexer) (pid : Bytes) : Indexer :=
  match idx.processInfo pid with
  | none => idx
  | some process =>
    let opts := process.voteOpts
    let idx := idx.write (updateProcessResultByID pid (Results.empty opts) opts)
    match app.iterateVotes pid with
    | .error _ => idx
    | .ok votes =>
      (idx.write (commitVotesUnsafe pid (Results.empty opts) (tallyBallots opts votes) none
        app.height)).addProcessToLiveResults pid

/-- `GetProcessIDsByFinalResults(false)`, through the block transaction. -/
def liveProcessIDs (db : Db) : List Bytes :=
  (db.processes.filter fun e => !e.2.finalResults).map Prod.fst

/-- `AfterSyncBootstrap`, once the chain is synced: nothing when live results are
off; else the loop over the processes without final results, in the block
transaction, then `blockTx.Commit()` (`txOk` is whether it succeeds). -/
def Indexer.afterSyncBootstrap (app : App) (idx : Indexer) (txOk : Bool) : Indexer :=
  if idx.ignoreLiveResults then idx
  else ((liveProcessIDs idx.txDb).foldl (Indexer.bootstrapProcess app) idx).commitTx txOk

/-- The bootstrap is its per-process step over the processes without final results,
then a commit: what those keep, it keeps. -/
theorem Indexer.afterSyncBootstrap_preserves (P : Indexer → Prop) (app : App)
    (step : ∀ idx pid, P idx → P (idx.bootstrapProcess app pid))
    (commit : ∀ idx ok, P idx → P (idx.commitTx ok)) (idx : Indexer) (txOk : Bool) (h : P idx) :
    P (idx.afterSyncBootstrap app txOk) := by
  unfold Indexer.afterSyncBootstrap
  split
  · exact h
  · exact commit _ txOk (foldl_of_step P (step · ·) _ idx h)

end Vocdoni.Vochain
