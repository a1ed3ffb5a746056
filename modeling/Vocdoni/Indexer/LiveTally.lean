import Vocdoni.Indexer.Bootstrap
import Vocdoni.Indexer.Reindex

/-!
# Live results against the recount

The indexer counts ballots two ways: live, block by block, through the vote pool
and `Commit`'s `added`/`subtracted` accumulators; and from scratch, in
`AfterSyncBootstrap`, from the ballots committed in the chain state. This module
runs the two side by side.

The chain side of a run is `Chain`: its processes, as the block in progress leaves
them and as the last block left them; its committed ballots, one per process and
nullifier (the effective one), and those of the block in progress; and its block
store, which the consensus engine fills and the model takes as it is. A `System` step
is a ballot the chain executes (with `OnVote`), a new process (with `OnProcess`), a
change of a process (with one of the callbacks that announce it), an account update,
a transfer or a fee (with `OnSetAccount`, `OnTransferTokens`, `OnSpendTokens`), a
block commit (with `Commit`, which reads the chain state committed at the end of the
previous block, and whose `blockTx.Commit()` succeeds or fails), a rollback of the
block in progress on both sides, the bootstrap, or a reindex of the block store.
`recount` is what the bootstrap stores for a process from the committed chain state.

The chain's storage of a ballot is not part of this source snapshot: a ballot is
committed with its weight as `big.Int.Bytes()` (no bytes for an absent weight),
which is what `SetBytes` reads back (`setBytes_bigIntBytes`).

* `live_tally_drops_valid_overwrite` — an accepted ballot that overwrites a rejected
  one is never counted live, while the recount counts it;
* `bootstrap_skips_process_without_ballots` — a process with no committed ballot at
  bootstrap never becomes live, and its later ballots are never counted.
-/

namespace Vocdoni.Vochain

open Vocdoni.Tally

/-! ## Ballots in the chain state -/

/-- The little-endian bytes of `n`, with `fuel` bounding the number of bytes. -/
def littleEndianBytes : Nat → Nat → Bytes
  | 0, _ => []
  | fuel + 1, n => if n = 0 then [] else UInt8.ofNat (n % 256) :: littleEndianBytes fuel (n / 256)

/-- `big.Int.Bytes`: the big-endian bytes of a natural number, none for zero. -/
def bigIntBytes (n : Nat) : Bytes :=
  (littleEndianBytes n n).reverse

theorem setBytes_append_byte (b : Bytes) (x : UInt8) :
    setBytes (b ++ [x]) = setBytes b * 256 + x.toNat := by
  simp [setBytes, List.foldl_append]

theorem setBytes_bigIntBytes (n : Nat) : setBytes (bigIntBytes n) = n := by
  suffices h : ∀ fuel n, n ≤ fuel → setBytes (littleEndianBytes fuel n).reverse = n from h n n le_rfl
  intro fuel
  induction fuel with
  | zero => intro n hn; simp [littleEndianBytes, setBytes]; omega
  | succ fuel ih =>
    intro n hn
    by_cases h0 : n = 0
    · simp [littleEndianBytes, h0, setBytes]
    · have byte : (UInt8.ofNat (n % 256)).toNat = n % 256 := by
        exact UInt8.toNat_ofNat_of_lt (Nat.mod_lt n (by decide))
      simp only [littleEndianBytes, h0, if_false, List.reverse_cons, setBytes_append_byte, byte,
        ih (n / 256) (by omega)]
      omega

/-- Modelled from the spec: a ballot as the chain commits it; `big.Int.Bytes()` is the
absolute value's. -/
def Vote.toStateDB (v : Vote) : StateDBVote :=
  ⟨v.processId, v.nullifier, v.votePackage,
    match v.weight with
    | some w => bigIntBytes w.natAbs
    | none => [],
    v.overwrites⟩

/-! ## The chain -/

/-- The chain application's ballots along a run: the committed ones and those of the
block in progress, each keyed by process and nullifier (the last one wins). -/
structure Chain where
  height : Nat
  processes : Assoc Bytes ChainProcess
  committed : Assoc (Bytes × Bytes) StateDBVote
  pending : Assoc (Bytes × Bytes) StateDBVote
  committedProcesses : Assoc Bytes ChainProcess
  blocks : Assoc Nat Block
  deriving DecidableEq, Repr

/-- The ballots of a process in the committed state. -/
def Chain.committedVotes (c : Chain) (pid : Bytes) : List StateDBVote :=
  (c.committed.filter fun e => decide (e.1.1 = pid)).map Prod.snd

/-- What the indexer reads from the chain: `State.Vote` and `State.IterateVotes`
with `committed = true`, `ErrEmptyTree` for a process with no committed ballot. -/
def Chain.app (c : Chain) : App where
  height := c.height
  timestamp := 0
  isSynced := true
  getBlockByHeight := fun h => assocGet c.blocks h
  process := fun pid => assocGet c.processes pid
  vote := fun pid nullifier => assocGet c.committed (pid, nullifier)
  iterateVotes := fun pid =>
    match c.committedVotes pid with
    | [] => .error .emptyTree
    | votes => .ok votes

/-- The chain executes a ballot of the block in progress. -/
def Chain.deliver (c : Chain) (v : Vote) : Chain :=
  { c with pending := assocSet c.pending (v.processId, v.nullifier) v.toStateDB }

/-- The chain executes a new process transaction. -/
def Chain.newProcess (c : Chain) (pid : Bytes) (p : ChainProcess) : Chain :=
  { c with processes := assocSet c.processes pid p }

/-- The chain changes one of its processes (its status, census, duration, keys or
results). -/
def Chain.setProcess (c : Chain) (pid : Bytes) (p : ChainProcess) : Chain :=
  { c with processes := assocSet c.processes pid p }

/-- The chain commits the block in progress. -/
def Chain.commitBlock (c : Chain) : Chain :=
  { c with
    height := c.height + 1
    committed := c.pending.foldr (fun e m => assocSet m e.1 e.2) c.committed
    pending := []
    committedProcesses := c.processes }

/-- The chain drops the block in progress: its ballots and its changes of processes. -/
def Chain.rollback (c : Chain) : Chain :=
  { c with processes := c.committedProcesses, pending := [] }

/-! ## Runs -/

/-- What happens along a run. -/
inductive Event where
  | vote (v : Vote) (txIndex : Nat)
  | process (pid : Bytes) (p : ChainProcess)
  | change (pid : Bytes) (p : ChainProcess) (cb : Callback)
  | setAccount (address : Bytes) (balance nonce : Nat)
  | transferTokens (tx : TokenTransfer)
  | spendTokens (address : Bytes) (txType : String) (cost : Nat) (reference : String)
  | commit
  | failedCommit
  | rollback
  | bootstrap
  | reindex (store : Option BlockStore) (codec : TxCodec) (txOk : Bool)

/-- The chain and the indexer. -/
structure System where
  chain : Chain
  idx : Indexer
  deriving DecidableEq, Repr

/-- One event: a ballot executed and passed to `OnVote`; a process created and passed
to `OnProcess`; a process changed and the change passed to a callback; an account
update, a transfer or a fee passed to its handler; a block committed, with `Commit`
reading the chain state of the previous block and its `blockTx.Commit()` succeeding
or failing; the block in progress rolled back on both sides; the bootstrap; or a
reindex of the block store, in its own goroutine. -/
def System.step (s : System) : Event → System
  | .vote v t => ⟨s.chain.deliver v, s.idx.onVote v t⟩
  | .process pid p => ⟨s.chain.newProcess pid p, s.idx.onProcess (s.chain.newProcess pid p).app pid⟩
  | .change pid p cb => ⟨s.chain.setProcess pid p, cb.call (s.chain.setProcess pid p).app s.idx pid⟩
  | .setAccount address balance nonce => ⟨s.chain, s.idx.onSetAccount address balance nonce⟩
  | .transferTokens tx => ⟨s.chain, s.idx.onTransferTokens s.chain.app tx⟩
  | .spendTokens address txType cost reference =>
    ⟨s.chain, s.idx.onSpendTokens s.chain.app address txType cost reference⟩
  | .commit => ⟨s.chain.commitBlock, (s.idx.commit s.chain.app (s.chain.height + 1) true true).1⟩
  | .failedCommit =>
    ⟨s.chain.commitBlock, (s.idx.commit s.chain.app (s.chain.height + 1) false true).1⟩
  | .rollback => ⟨s.chain.rollback, s.idx.rollback⟩
  | .bootstrap => ⟨s.chain, s.idx.afterSyncBootstrap s.chain.app true⟩
  | .reindex store codec txOk => ⟨s.chain, (s.idx.reindexBlocks s.chain.app store codec txOk).1⟩

/-- A run of events. -/
def System.run (s : System) : List Event → System
  | [] => s
  | e :: es => (s.step e).run es

/-- Every event of the run passes `ok` in the state it meets. -/
def System.runOK (ok : System → Event → Bool) : System → List Event → Bool
  | _, [] => true
  | s, e :: es => ok s e && System.runOK ok (s.step e) es

/-- **Run lemma.** What every accepted event keeps holds after every accepted run. -/
theorem System.run_invariant (P : System → Prop) (ok : System → Event → Bool)
    (step : ∀ s e, P s → ok s e = true → P (s.step e)) :
    ∀ (s : System) (es : List Event), P s → System.runOK ok s es = true → P (s.run es)
  | _, [], h, _ => h
  | s, e :: es, h, good => by
    simp only [System.runOK, Bool.and_eq_true] at good
    exact System.run_invariant P ok step (s.step e) es (step s e h good.1) good.2

/-- The results stored for a process in the committed database. -/
def Indexer.storedResults (idx : Indexer) (pid : Bytes) : Option Results :=
  (assocGet idx.db.processes pid).map (·.results)

/-- **The recount.** What `AfterSyncBootstrap` stores for a process from the
committed chain state: the zero tally plus every committed ballot `addLiveVote`
accepts. -/
def recount (app : App) (opts : ProcessVoteOptions) (pid : Bytes) : Results :=
  match app.iterateVotes pid with
  | .ok votes => (Results.empty opts).add (tallyBallots opts votes)
  | .error _ => Results.empty opts

/-! ## Where the live count and the recount part -/

/-- A one-question process with values `0` and `1`, live from its creation. -/
def oneQuestion : ProcessVoteOptions := ⟨1, 1, false, 10, 1⟩

/-- A chain with the process `[1]` of `oneQuestion` and no ballot. -/
def chainOneQuestion : Chain :=
  ⟨0, [([1], ⟨oneQuestion, 0, [], 100, false, none⟩)], [], [],
    [([1], ⟨oneQuestion, 0, [], 100, false, none⟩)], []⟩

/-- The indexer database with the row of that process, zero results. -/
def dbOneQuestion : Db :=
  { Db.empty with processes := [([1], ProcessRow.ofChain ⟨oneQuestion, 0, [], 100, false, none⟩)] }

/-- Block 1: a ballot choosing `2`, which `addLiveVote` rejects; block 2: its
overwrite choosing `1`, which it accepts. -/
def overwriteOfRejected : System :=
  System.run ⟨chainOneQuestion, { Indexer.new dbOneQuestion false with liveResultsProcs := [[1]] }⟩
    [.vote ⟨[1], [9], 1, some [2], [], some 1, 0, []⟩ 0, .commit,
     .vote ⟨[1], [9], 2, some [1], [], some 1, 1, []⟩ 0, .commit]

/-- After block 2 the live results are still zero, the recount has the accepted
ballot. -/
theorem live_tally_drops_valid_overwrite :
    overwriteOfRejected.idx.storedResults [1] = some ⟨[[0, 0]], 0⟩ ∧
      recount overwriteOfRejected.chain.app oneQuestion [1] = ⟨[[0, 1]], 1⟩ := by
  decide

/-- The bootstrap meets the process with no committed ballot, then a block brings
an accepted ballot. -/
def bootstrapBeforeFirstBallot : System :=
  System.run ⟨chainOneQuestion, Indexer.new dbOneQuestion false⟩
    [.bootstrap, .vote ⟨[1], [9], 1, some [1], [], some 1, 0, []⟩ 0, .commit]

/-- The process never becomes live, its stored results stay zero, the recount has
the ballot. -/
theorem bootstrap_skips_process_without_ballots :
    bootstrapBeforeFirstBallot.idx.storedResults [1] = some ⟨[[0, 0]], 0⟩ ∧
      recount bootstrapBeforeFirstBallot.chain.app oneQuestion [1] = ⟨[[0, 1]], 1⟩ ∧
      [1] ∉ bootstrapBeforeFirstBallot.idx.liveResultsProcs := by
  decide

end Vocdoni.Vochain
