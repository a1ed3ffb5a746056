import Vocdoni.Indexer.EventSink
import Mathlib.Data.List.Sort

/-!
# `Commit`

`Commit(height)` runs when the chain confirms a block. Under `blockMu`, in the
block's write transaction, it:

1. indexes the block row;
2. refreshes from the chain state every process of `blockUpdateProcs`, in sorted
   order;
3. for every process of `votePool` and every pooled ballot, in the map's
   iteration order, folds the ballot into two accumulators: the new ballot into
   `added`, and, for an overwrite, the previously committed ballot into
   `subtracted`; then stores `results + added - subtracted`;
4. recomputes the vote count of every process of `blockUpdateProcVoteCounts`;
5. commits the transaction (a failure is logged) and, every thousand blocks,
   runs `PRAGMA optimize`, whose error is the only one `Commit` returns.

`commitBallot_eq` says once what one ballot does to the accumulators: each
accumulator either takes one `tallyStep` or is left alone, and which of the two
happens is decided by the ballot and the committed chain state, never by the
accumulators.
-/

namespace Vocdoni.Vochain

open Vocdoni.Tally

/-- Lexicographic order on byte strings (`slices.Sorted` on string keys). -/
def bytesLe : Bytes → Bytes → Bool
  | [], _ => true
  | _ :: _, [] => false
  | a :: as, b :: bs => decide (a < b) || (decide (a = b) && bytesLe as bs)

/-- A `blocks` row from a block of the block store. -/
def BlockRow.ofBlock (b : Block) : BlockRow :=
  ⟨b.chainId, b.time, b.hash, b.proposerAddress, b.lastBlockHash⟩

/-- `CreateBlock`: insert the block's row (a second insert at a height fails and is logged). -/
def createBlock (b : Block) (db : Db) : Db :=
  { db with blocks := assocInsert db.blocks b.height (BlockRow.ofBlock b) }

/-- Modelled from the spec: `updateProcess` (not in this snapshot) re-reads the process
from the chain state and updates its row; `none` is the logged error (no such process
in the state or no row). -/
def updateProcess (app : App) (pid : Bytes) (db : Db) : Option Db :=
  match app.process pid, assocGet db.processes pid with
  | some p, some _ =>
    some { db with
      processes := assocUpdate db.processes pid fun row =>
        { row with status := p.status, censusRoot := p.censusRoot, endBlock := p.endBlock,
                   finalResults := p.finalResults } }
  | _, _ => none

/-- Modelled from the spec: `commitVotesUnsafe` (not in this snapshot) stores
`results + added - subtracted` as the process's results and bumps their height. -/
def commitVotesUnsafe (pid : Bytes) (results added : Results) (subtracted : Option Results)
    (height : Nat) (db : Db) : Db :=
  let r := match subtracted with
    | some s => results.applyDelta added s
    | none => results.add added
  { db with
    processes := assocUpdate db.processes pid fun row =>
      { row with results := r, resultsBlockHeight := height } }

/-- The previously committed ballot `Commit` reads for a pooled ballot: only for an
overwrite (`Overwrites > 0`); a failed read counts as none. -/
def previousVote (app : App) (v : Vote) : Option StateDBVote :=
  if 0 < v.overwrites then app.vote v.processId v.nullifier else none

/-- The body of `Commit`'s inner loop for one pooled ballot, on the accumulators
`(added, subtracted)`. Every `continue` of the source leaves the rest undone. -/
def commitBallot (app : App) (opts : ProcessVoteOptions) (acc : Results × Results) (v : Vote) :
    Results × Results :=
  match previousVote app v with
  | some prev =>
    if v.overwrites ≤ prev.overwriteCount then acc
    else
      match addLiveVote opts prev.votePackage (some (setBytes prev.weight)) acc.2 with
      | none => acc
      | some subtracted => ((addLiveVote opts v.votePackage v.weight acc.1).getD acc.1, subtracted)
  | none => ((addLiveVote opts v.votePackage v.weight acc.1).getD acc.1, acc.2)

/-- The accumulators of one process after its pooled ballots, in iteration order. -/
def commitAccumulators (app : App) (opts : ProcessVoteOptions) (votes : Assoc Bytes Vote) :
    Results × Results :=
  votes.foldl (fun acc e => commitBallot app opts acc e.2) (Results.empty opts, Results.empty opts)

/-- The body of `Commit`'s outer loop for one process of the pool: fetch its row,
accumulate, store. A process without a row is skipped. -/
def commitProcessVotes (app : App) (pid : Bytes) (votes : Assoc Bytes Vote) (db : Db) : Db :=
  match assocGet db.processes pid with
  | none => db
  | some proc =>
    let acc := commitAccumulators app proc.voteOpts votes
    commitVotesUnsafe pid proc.results acc.1 (some acc.2) app.height db

/-- The number of distinct byte strings of a list. -/
def countDistinct : List Bytes → Nat
  | [] => 0
  | x :: xs => (if decide (x ∈ xs) then 0 else 1) + countDistinct xs

/-- `ComputeProcessVoteCount`: `COUNT(DISTINCT nullifier)` of the process's votes. -/
def computeProcessVoteCount (pid : Bytes) (db : Db) : Db :=
  let n := countDistinct ((db.votes.filter fun r => decide (r.processId = pid)).map (·.nullifier))
  { db with processes := assocUpdate db.processes pid fun row => { row with voteCount := n } }

/-- The writes of `Commit` on the transaction's view of the database: block row,
process refreshes, live results, vote counts. -/
def commitWrites (app : App) (idx : Indexer) (height : Nat) : Db :=
  let db := match app.getBlockByHeight height with
    | some b => createBlock b idx.txDb
    | none => idx.txDb
  let db := (idx.blockUpdateProcs.insertionSort fun a b => bytesLe a b = true).foldl
    (fun db pid => (updateProcess app pid db).getD db) db
  let db := idx.votePool.foldl (fun db e => commitProcessVotes app e.1 e.2 db) db
  idx.blockUpdateProcVoteCounts.foldl (fun db pid => computeProcessVoteCount pid db) db

/-- `Commit(height)`: the writes, cleared scratch maps, the transaction commit
(`txOk` is whether `blockTx.Commit` succeeds) and the returned error: only
`PRAGMA optimize`'s, every thousand blocks (`optimizeOk` is whether it succeeds).
The `Bool` is whether `Commit` returns nil. -/
def Indexer.commit (app : App) (idx : Indexer) (height : Nat) (txOk optimizeOk : Bool) :
    Indexer × Bool :=
  (({ idx with
      blockTx := some (commitWrites app idx height)
      votePool := []
      blockUpdateProcs := []
      blockUpdateProcVoteCounts := [] } : Indexer).commitTx txOk,
    !(height % 1000 == 0) || optimizeOk)

/-! ## One ballot -/

/-- The committed ballot `Commit` subtracts for a pooled one, as `addLiveVote`'s
package and weight (no package when there is none). -/
def previousBallot (app : App) (v : Vote) : VotePackage × Option Int :=
  match previousVote app v with
  | some prev => (prev.votePackage, some (setBytes prev.weight))
  | none => (none, none)

/-- Whether `Commit` subtracts the committed ballot of a pooled one: an overwrite
whose previous ballot is found, has a lower count, and is accepted. -/
def subtractsPrevious (app : App) (opts : ProcessVoteOptions) (v : Vote) : Bool :=
  match previousVote app v with
  | some prev => decide (prev.overwriteCount < v.overwrites) && acceptsPackage opts prev.votePackage
  | none => false

/-- Whether `Commit` adds a pooled ballot: no previous ballot, or one it subtracts. -/
def addsNew (app : App) (opts : ProcessVoteOptions) (v : Vote) : Bool :=
  (previousVote app v).isNone || subtractsPrevious app opts v

/-- `tallyStep` when `b` holds, nothing otherwise. -/
def tallyStepIf (b : Bool) (opts : ProcessVoteOptions) (r : Results)
    (x : VotePackage × Option Int) : Results :=
  if b then tallyStep opts r x else r

theorem tallyStep_of_addLiveVote {opts : ProcessVoteOptions} {pkg : VotePackage}
    {w : Option Int} {r s : Results} (h : addLiveVote opts pkg w r = some s) :
    tallyStep opts r (pkg, w) = s := by
  simp [tallyStep, h]

/-- **What one ballot does.** Each accumulator takes one `tallyStep` or is left alone,
as `addsNew` and `subtractsPrevious` decide from the ballot and the chain state. -/
theorem commitBallot_eq (app : App) (opts : ProcessVoteOptions) (acc : Results × Results)
    (v : Vote) :
    commitBallot app opts acc v =
      (tallyStepIf (addsNew app opts v) opts acc.1 (v.votePackage, v.weight),
       tallyStepIf (subtractsPrevious app opts v) opts acc.2 (previousBallot app v)) := by
  unfold commitBallot addsNew subtractsPrevious previousBallot tallyStepIf
  cases previousVote app v with
  | none => simp [tallyStep]
  | some prev =>
    by_cases hle : v.overwrites ≤ prev.overwriteCount
    · simp [hle, Nat.not_lt.mpr hle]
    · have hlt : prev.overwriteCount < v.overwrites := Nat.lt_of_not_le hle
      have accept := addLiveVote_isSome opts prev.votePackage (some (setBytes prev.weight)) acc.2
      cases hs : addLiveVote opts prev.votePackage (some (setBytes prev.weight)) acc.2 with
      | none => simp_all
      | some s => simp_all [tallyStep_of_addLiveVote hs, tallyStep]

end Vocdoni.Vochain
