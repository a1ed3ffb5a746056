import Vocdoni.Indexer.Bootstrap
import Vocdoni.Indexer.Reindex

/-!
# Block atomicity

The chain application calls the event sink from one goroutine; the bootstrap and
a reindex run in others. `blockMu` makes each callback, `Commit`, `Rollback`, the
whole bootstrap and the whole reindex a critical section, so a run of the indexer is
a sequence of these sections in some interleaving: `Action` and `Indexer.step`.

The chain goes on between two sections, so each section reads the application as it
is at its own moment: `Indexer.runAt` runs a list of sections, each with the state it
reads. `Indexer.run` is the special case of one state for the whole interleaving.

* `SinkCall.apply_db` — event-sink calls write only the block transaction: the
  committed database, which readers see, is unchanged;
* `bootstrap_commits_block_in_progress` — a bootstrap that takes `blockMu` between
  two callbacks of a block commits the block's writes so far: a later `Rollback`
  cannot undo them, and readers see them before the block ends; and `Commit`
  returns nil when the transaction commit fails.
-/

namespace Vocdoni.Vochain

open Vocdoni.Tally

/-- A call of the event sink. -/
inductive SinkCall where
  | onVote (v : Vote) (txIndex : Nat)
  | onProcess (pid : Bytes)
  | onCancel (pid : Bytes)
  | onProcessKeys (pid : Bytes)
  | onRevealKeys (pid : Bytes)
  | onProcessStatusChange (pid : Bytes)
  | onProcessDurationChange (pid : Bytes)
  | onProcessResults (pid : Bytes)
  | onCensusUpdate (pid : Bytes)
  | onProcessesStart (pids : List Bytes)
  | onSetAccount (address : Bytes) (balance nonce : Nat)
  | onTransferTokens (tx : TokenTransfer)
  | onSpendTokens (address : Bytes) (txType : String) (cost : Nat) (reference : String)
  deriving DecidableEq, Repr

/-- The indexer's effect of an event-sink call. -/
def SinkCall.apply (app : App) (idx : Indexer) : SinkCall → Indexer
  | .onVote v t => idx.onVote v t
  | .onProcess pid => idx.onProcess app pid
  | .onCancel pid => idx.onCancel pid
  | .onProcessKeys pid => idx.onProcessKeys pid
  | .onRevealKeys pid => idx.onRevealKeys app pid
  | .onProcessStatusChange pid => idx.onProcessStatusChange pid
  | .onProcessDurationChange pid => idx.onProcessDurationChange pid
  | .onProcessResults pid => idx.onProcessResults pid
  | .onCensusUpdate pid => idx.onCensusUpdate pid
  | .onProcessesStart pids => idx.onProcessesStart pids
  | .onSetAccount address balance nonce => idx.onSetAccount address balance nonce
  | .onTransferTokens tx => idx.onTransferTokens app tx
  | .onSpendTokens address txType cost reference =>
    idx.onSpendTokens app address txType cost reference

/-- A critical section of the indexer. -/
inductive Action where
  | sink (call : SinkCall)
  | commit (height : Nat) (txOk optimizeOk : Bool)
  | rollback
  | bootstrap (txOk : Bool)
  | reindex (store : Option BlockStore) (codec : TxCodec) (txOk : Bool)

/-- One critical section. -/
def Indexer.step (app : App) (idx : Indexer) : Action → Indexer
  | .sink call => call.apply app idx
  | .commit height txOk optimizeOk => (idx.commit app height txOk optimizeOk).1
  | .rollback => idx.rollback
  | .bootstrap txOk => idx.afterSyncBootstrap app txOk
  | .reindex store codec txOk => (idx.reindexBlocks app store codec txOk).1

/-- An interleaving of critical sections. -/
def Indexer.run (app : App) (idx : Indexer) : List Action → Indexer
  | [] => idx
  | a :: as => (idx.step app a).run app as

/-- An interleaving of critical sections, each with the state of the application it
reads: the chain moves on between two sections. -/
def Indexer.runAt (idx : Indexer) : List (App × Action) → Indexer
  | [] => idx
  | (app, a) :: ps => (idx.step app a).runAt ps

/-- Event-sink calls one after another. -/
def Indexer.runSink (app : App) (idx : Indexer) (calls : List SinkCall) : Indexer :=
  calls.foldl (SinkCall.apply app) idx

/-! ## What event-sink calls write -/

@[simp] theorem Indexer.markUpdateProc_db (idx : Indexer) (pid : Bytes) :
    (idx.markUpdateProc pid).db = idx.db := rfl

theorem Indexer.onProcessesStart_db (idx : Indexer) (pids : List Bytes) :
    (idx.onProcessesStart pids).db = idx.db := by
  induction pids generalizing idx with
  | nil => rfl
  | cons pid pids ih => exact (ih (idx.markUpdateProc pid)).trans rfl

/-- Event-sink calls write the block transaction only. -/
theorem SinkCall.apply_db (app : App) (idx : Indexer) (call : SinkCall) :
    (call.apply app idx).db = idx.db := by
  cases call with
  | onVote v t =>
    simp only [SinkCall.apply, Indexer.onVote, Indexer.onVoteRow, Indexer.onVoteLive]
    split <;> rfl
  | onProcess pid =>
    simp only [SinkCall.apply, Indexer.onProcess]
    split <;> rfl
  | onRevealKeys pid =>
    simp only [SinkCall.apply, Indexer.onRevealKeys]
    split
    · split <;> rfl
    · rfl
  | onProcessesStart pids => exact Indexer.onProcessesStart_db idx pids
  | _ => rfl

/-! ## Interleavings -/

/-- An application with no process, block or ballot. -/
def idleApp : App :=
  ⟨1, 0, true, fun _ => none, fun _ => none, fun _ _ => none, fun _ => .error .emptyTree⟩

/-- Block 1 sets account `[7]`; the bootstrap takes `blockMu` before the block's end. -/
def setAccountThenBootstrap : Indexer :=
  (Indexer.new Db.empty false).run idleApp [.sink (.onSetAccount [7] 5 0), .bootstrap true]

/-- Block 1 sets account `[7]`; its `Commit(1)` meets a failing `blockTx.Commit()`. -/
def setAccountThenFailedCommit : Indexer × Bool :=
  ((Indexer.new Db.empty false).runSink idleApp [.onSetAccount [7] 5 0]).commit idleApp 1 false true

/-- The bootstrap commits the account row at once, and it stays committed when
the block ends with `Rollback`. Alone, the block's `Commit` returns nil although
`blockTx.Commit()` failed and the row is lost. -/
theorem bootstrap_commits_block_in_progress :
    assocGet (Indexer.new Db.empty false).db.accounts [7] = none ∧
      assocGet setAccountThenBootstrap.db.accounts [7] = some ⟨5, 0⟩ ∧
      assocGet (setAccountThenBootstrap.step idleApp .rollback).db.accounts [7] = some ⟨5, 0⟩ ∧
      setAccountThenFailedCommit.2 = true ∧
      assocGet setAccountThenFailedCommit.1.db.accounts [7] = none := by
  decide

end Vocdoni.Vochain
