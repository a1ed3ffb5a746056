import Vocdoni.Indexer.State

/-!
# The event sink

The callbacks the chain application makes while it executes a block, and
`Rollback`. Each is one critical section under `blockMu`, except `OnVote`: its
liveness check and vote-pool insert run before it takes the lock, so it is two
steps here, `onVoteLive` (unlocked) and `onVoteRow` (locked).

* `poolGet_poolVote` — the pool insert stores the ballot it was given, whatever the
  overwrite count of the ballot it replaces; the warning is only logged;
* `onVotes_votePool` — over every sequence of `OnVote` calls for a live process,
  the pool holds, for each nullifier, the ballot of the last call;
* `Indexer.onVotes_lower_count_replaces_higher` — an out-of-order lower overwrite count
  replaces a higher one;
* `Callback.call_eq` — the process callbacks write nothing: each marks the process for
  a refresh at commit, but `OnRevealKeys` only a process of the state with a key index.
-/

namespace Vocdoni.Vochain

open Vocdoni.Tally Vocdoni.IndexerTypes

/-! ## `OnVote` -/

/-- The ballot pooled for a process and a nullifier. -/
def poolGet (pool : VotePool) (pid nullifier : Bytes) : Option Vote :=
  (assocGet pool pid).bind fun inner => assocGet inner nullifier

/-- The pool insert of `OnVote`: make the process's inner map if it has none,
warn when the pooled ballot has a higher overwrite count, and store the ballot.
The flag is whether the warning is logged. -/
def poolVote (pool : VotePool) (vote : Vote) : VotePool × Bool :=
  let inner := (assocGet pool vote.processId).getD []
  let warned := match assocGet inner vote.nullifier with
    | some prev => decide (vote.overwrites < prev.overwrites)
    | none => false
  (assocSet pool vote.processId (assocSet inner vote.nullifier vote), warned)

/-- `OnVote` before `blockMu`: pool the ballot when live results are on and its
process is live. The flag is the "lower overwrite value" warning. -/
def Indexer.onVoteLive (idx : Indexer) (vote : Vote) : Indexer × Bool :=
  if !idx.ignoreLiveResults && idx.isProcessLiveResults vote.processId then
    ({ idx with votePool := (poolVote idx.votePool vote).1 }, (poolVote idx.votePool vote).2)
  else (idx, false)

/-- `OnVote` under `blockMu`: the `votes` row, whose weight text is `"1"` for an
absent weight, and the vote-count mark. -/
def Indexer.onVoteRow (idx : Indexer) (vote : Vote) (txIndex : Nat) : Indexer :=
  let weightStr := match vote.weight with
    | none => "\"1\""
    | some w => encodeJSON bigIntJson (some w)
  let row : VoteRow :=
    { nullifier := vote.nullifier, processId := vote.processId, blockHeight := vote.height,
      blockIndex := txIndex, weight := weightStr, overwriteCount := vote.overwrites,
      voterId := vote.voterId, encryptionKeyIndexes := vote.encryptionKeyIndexes,
      package := vote.votePackage }
  { idx.write (fun db => { db with votes := db.votes ++ [row] }) with
    blockUpdateProcVoteCounts := keySetAdd idx.blockUpdateProcVoteCounts vote.processId }

/-- `OnVote`, its two halves with nothing in between. -/
def Indexer.onVote (idx : Indexer) (vote : Vote) (txIndex : Nat) : Indexer :=
  (idx.onVoteLive vote).1.onVoteRow vote txIndex

@[simp] theorem Indexer.onVote_db (idx : Indexer) (v : Vote) (t : Nat) :
    (idx.onVote v t).db = idx.db := by
  unfold Indexer.onVote Indexer.onVoteLive; split <;> rfl

theorem Indexer.onVote_txDb_processes (idx : Indexer) (v : Vote) (t : Nat) :
    (idx.onVote v t).txDb.processes = idx.txDb.processes := by
  unfold Indexer.onVote Indexer.onVoteLive; split <;> rfl

@[simp] theorem Indexer.onVote_blockUpdateProcVoteCounts (idx : Indexer) (v : Vote) (t : Nat) :
    (idx.onVote v t).blockUpdateProcVoteCounts =
      keySetAdd idx.blockUpdateProcVoteCounts v.processId := by
  unfold Indexer.onVote Indexer.onVoteLive; split <;> rfl

/-- `OnVote` appends one `votes` row, of the ballot's process, and writes nothing else. -/
theorem Indexer.onVote_txDb (idx : Indexer) (v : Vote) (t : Nat) :
    ∃ row : VoteRow, row.processId = v.processId ∧
      (idx.onVote v t).txDb = { idx.txDb with votes := idx.txDb.votes ++ [row] } := by
  unfold Indexer.onVote Indexer.onVoteLive; split <;> exact ⟨_, rfl, rfl⟩

/-- `OnVote` appends one `votes` row, of the ballot's process. -/
theorem Indexer.onVote_txDb_votes (idx : Indexer) (v : Vote) (t : Nat) :
    ∃ row : VoteRow, row.processId = v.processId ∧
      (idx.onVote v t).txDb.votes = idx.txDb.votes ++ [row] :=
  let ⟨row, hrow, h⟩ := idx.onVote_txDb v t
  ⟨row, hrow, congrArg Db.votes h⟩

/-! ## The vote pool over a block -/

/-- `OnVote` calls one after another, as the chain makes them within a block. -/
def Indexer.onVotes (idx : Indexer) : List (Vote × Nat) → Indexer
  | [] => idx
  | (v, t) :: calls => (idx.onVote v t).onVotes calls

/-- The ballot of the last call for a process and a nullifier. -/
def lastBallot : List (Vote × Nat) → Bytes → Bytes → Option Vote
  | [], _, _ => none
  | (v, _) :: calls, pid, nullifier =>
    (lastBallot calls pid nullifier).or
      (if v.processId = pid ∧ v.nullifier = nullifier then some v else none)

theorem poolGet_poolVote (pool : VotePool) (v : Vote) (pid nullifier : Bytes) :
    poolGet (poolVote pool v).1 pid nullifier =
      if v.processId = pid ∧ v.nullifier = nullifier then some v
      else poolGet pool pid nullifier := by
  unfold poolGet poolVote
  by_cases hp : v.processId = pid
  · subst hp
    by_cases hn : v.nullifier = nullifier <;> cases h : assocGet pool v.processId <;> simp [h, hn]
  · simp [hp]

@[simp] theorem Indexer.onVoteRow_votePool (idx : Indexer) (v : Vote) (t : Nat) :
    (idx.onVoteRow v t).votePool = idx.votePool := rfl

@[simp] theorem Indexer.onVote_liveResultsProcs (idx : Indexer) (v : Vote) (t : Nat) :
    (idx.onVote v t).liveResultsProcs = idx.liveResultsProcs := by
  unfold Indexer.onVote Indexer.onVoteLive; split <;> rfl

@[simp] theorem Indexer.onVote_ignoreLiveResults (idx : Indexer) (v : Vote) (t : Nat) :
    (idx.onVote v t).ignoreLiveResults = idx.ignoreLiveResults := by
  unfold Indexer.onVote Indexer.onVoteLive; split <;> rfl

@[simp] theorem Indexer.onVote_blockUpdateProcs (idx : Indexer) (v : Vote) (t : Nat) :
    (idx.onVote v t).blockUpdateProcs = idx.blockUpdateProcs := by
  unfold Indexer.onVote Indexer.onVoteLive; split <;> rfl

/-- One call: the pooled ballot of a live process is replaced by the call's ballot
when it has the same nullifier, and left alone otherwise. -/
theorem Indexer.poolGet_onVote (idx : Indexer) (v : Vote) (t : Nat) (pid nullifier : Bytes)
    (liveOn : idx.ignoreLiveResults = false) (live : pid ∈ idx.liveResultsProcs) :
    poolGet (idx.onVote v t).votePool pid nullifier =
      if v.processId = pid ∧ v.nullifier = nullifier then some v
      else poolGet idx.votePool pid nullifier := by
  unfold Indexer.onVote Indexer.onVoteLive
  split
  · exact poolGet_poolVote idx.votePool v pid nullifier
  · rename_i notPooled
    have : v.processId ≠ pid := fun h =>
      notPooled (by simp [liveOn, Indexer.isProcessLiveResults, h, live])
    simp [this]

/-- The warning of one call: logged exactly when the pooled ballot of the same
process and nullifier has a higher overwrite count. -/
theorem Indexer.onVoteLive_warned (idx : Indexer) (v : Vote)
    (liveOn : idx.ignoreLiveResults = false) (live : v.processId ∈ idx.liveResultsProcs) :
    (idx.onVoteLive v).2 = true ↔
      ∃ prev, poolGet idx.votePool v.processId v.nullifier = some prev ∧
        v.overwrites < prev.overwrites := by
  simp only [Indexer.onVoteLive, Indexer.isProcessLiveResults, liveOn, live, poolVote, poolGet]
  cases assocGet idx.votePool v.processId with
  | none => simp
  | some inner => cases h : assocGet inner v.nullifier <;> simp [h]

/-- **The pool keeps the last ballot.** Over every sequence of `OnVote` calls, for a
process that is live, the pool holds for each nullifier the ballot of the last call
(whatever its overwrite count), or what it held before when no call named it; and
each call replaces the pooled ballot of its nullifier, logging the warning exactly
when the pooled ballot's overwrite count is higher. -/
theorem Indexer.onVotes_votePool (idx : Indexer) (calls : List (Vote × Nat))
    (pid nullifier : Bytes) (liveOn : idx.ignoreLiveResults = false)
    (live : pid ∈ idx.liveResultsProcs) :
    poolGet (idx.onVotes calls).votePool pid nullifier =
        (lastBallot calls pid nullifier).or (poolGet idx.votePool pid nullifier) ∧
      ∀ v t, v.processId = pid → v.nullifier = nullifier →
        poolGet (idx.onVote v t).votePool pid nullifier = some v ∧
        ((idx.onVoteLive v).2 = true ↔ ∃ prev, poolGet idx.votePool pid nullifier = some prev ∧
          v.overwrites < prev.overwrites) := by
  refine ⟨?_, fun v t hp hn => ⟨?_, ?_⟩⟩
  · induction calls generalizing idx with
    | nil => rfl
    | cons call calls ih =>
      obtain ⟨v, t⟩ := call
      rw [Indexer.onVotes, ih _ (by simpa using liveOn) (by simpa using live),
        Indexer.poolGet_onVote idx v t pid nullifier liveOn live, lastBallot, Option.or_assoc]
      split <;> simp
  · simp [Indexer.poolGet_onVote idx v t pid nullifier liveOn live, hp, hn]
  · subst hp hn; exact Indexer.onVoteLive_warned idx v liveOn live

/-- `onVotes_votePool` at a live process that receives overwrite counts 1 then 0. -/
theorem Indexer.onVotes_votePool_counts_one_zero :
    let idx := (Indexer.new Db.empty false).addProcessToLiveResults [1]
    let calls : List (Vote × Nat) :=
      [(⟨[1], [2], 1, some [1], [], some 1, 1, []⟩, 0), (⟨[1], [2], 1, some [0], [], some 1, 0, []⟩, 1)]
    idx.ignoreLiveResults = false ∧ [1] ∈ idx.liveResultsProcs ∧
      (poolGet (idx.onVotes calls).votePool [1] [2] =
          (lastBallot calls [1] [2]).or (poolGet idx.votePool [1] [2]) ∧
        ∀ v t, v.processId = [1] → v.nullifier = [2] →
          poolGet (idx.onVote v t).votePool [1] [2] = some v ∧
          ((idx.onVoteLive v).2 = true ↔ ∃ prev, poolGet idx.votePool [1] [2] = some prev ∧
            v.overwrites < prev.overwrites)) :=
  ⟨rfl, by decide, Indexer.onVotes_votePool _ _ [1] [2] rfl (by decide)⟩

/-- Counts 1 then 0 for one voter of a live process: the pool ends holding the
ballot with count 0, not the highest count received. -/
theorem Indexer.onVotes_lower_count_replaces_higher :
    let v₁ : Vote := ⟨[1], [2], 1, some [1], [], some 1, 1, []⟩
    let v₀ : Vote := ⟨[1], [2], 1, some [0], [], some 1, 0, []⟩
    poolGet (((Indexer.new Db.empty false).addProcessToLiveResults [1]).onVotes
        [(v₁, 0), (v₀, 1)]).votePool [1] [2] = some v₀ ∧
      v₀.overwrites < v₁.overwrites := by
  decide

/-! ## Process callbacks -/

/-- `blockUpdateProcs[pid] = true`: the row is refreshed from the chain at commit. -/
def Indexer.markUpdateProc (idx : Indexer) (pid : Bytes) : Indexer :=
  { idx with blockUpdateProcs := keySetAdd idx.blockUpdateProcs pid }

/-- `OnCancel`. -/
def Indexer.onCancel (idx : Indexer) (pid : Bytes) : Indexer := idx.markUpdateProc pid

/-- `OnProcessKeys`. -/
def Indexer.onProcessKeys (idx : Indexer) (pid : Bytes) : Indexer := idx.markUpdateProc pid

/-- `OnProcessStatusChange`. -/
def Indexer.onProcessStatusChange (idx : Indexer) (pid : Bytes) : Indexer :=
  idx.markUpdateProc pid

/-- `OnProcessDurationChange`. -/
def Indexer.onProcessDurationChange (idx : Indexer) (pid : Bytes) : Indexer :=
  idx.markUpdateProc pid

/-- `OnProcessResults`. -/
def Indexer.onProcessResults (idx : Indexer) (pid : Bytes) : Indexer := idx.markUpdateProc pid

/-- `OnCensusUpdate`. -/
def Indexer.onCensusUpdate (idx : Indexer) (pid : Bytes) : Indexer := idx.markUpdateProc pid

/-- `OnRevealKeys`: only for a process of the state that has a key index. -/
def Indexer.onRevealKeys (app : App) (idx : Indexer) (pid : Bytes) : Indexer :=
  match app.process pid with
  | some p => if p.keyIndex.isSome then idx.markUpdateProc pid else idx
  | none => idx

/-- `OnProcessesStart`. -/
def Indexer.onProcessesStart (idx : Indexer) (pids : List Bytes) : Indexer :=
  pids.foldl Indexer.markUpdateProc idx

/-- The callbacks by which the chain announces a change of one of its processes. -/
inductive Callback where
  | cancel
  | processKeys
  | revealKeys
  | processStatusChange
  | processDurationChange
  | processResults
  | censusUpdate
  | processesStart
  deriving DecidableEq, Repr

/-- The callback called for process `pid`, with `app` the state after the change. -/
def Callback.call (app : App) (idx : Indexer) (pid : Bytes) : Callback → Indexer
  | .cancel => idx.onCancel pid
  | .processKeys => idx.onProcessKeys pid
  | .revealKeys => idx.onRevealKeys app pid
  | .processStatusChange => idx.onProcessStatusChange pid
  | .processDurationChange => idx.onProcessDurationChange pid
  | .processResults => idx.onProcessResults pid
  | .censusUpdate => idx.onCensusUpdate pid
  | .processesStart => idx.onProcessesStart [pid]

/-- Whether the call marks the process: every callback does, but `OnRevealKeys` only
for a process of the state with a key index. -/
def Callback.marks (app : App) (pid : Bytes) : Callback → Bool
  | .revealKeys => (app.process pid).any fun p => p.keyIndex.isSome
  | _ => true

/-- A callback changes only the marked set, and adds the process to it when it marks it. -/
theorem Callback.call_eq (app : App) (idx : Indexer) (pid : Bytes) (cb : Callback) :
    cb.call app idx pid =
      { idx with
        blockUpdateProcs := if cb.marks app pid then keySetAdd idx.blockUpdateProcs pid
          else idx.blockUpdateProcs } := by
  cases cb
  case revealKeys =>
    simp only [Callback.call, Callback.marks, Indexer.onRevealKeys]
    split
    · rename_i h; simp only [h, Option.any_some]; split <;> rfl
    · rename_i h; simp only [h, Option.any_none]; rfl
  all_goals rfl

/-- The row of a new process: zero results sized by its vote options. -/
def ProcessRow.ofChain (p : ChainProcess) : ProcessRow :=
  { voteOpts := p.voteOpts, status := p.status, censusRoot := p.censusRoot,
    endBlock := p.endBlock, finalResults := p.finalResults,
    results := Results.empty p.voteOpts, resultsBlockHeight := 0, voteCount := 0 }

/-- Modelled from the spec: `newEmptyProcess` (not in this snapshot) inserts the
row of a process of the chain state, with zeroed results sized by its vote options. -/
def newEmptyProcess (app : App) (pid : Bytes) (db : Db) : Db :=
  match app.process pid with
  | some p => { db with processes := assocInsert db.processes pid (ProcessRow.ofChain p) }
  | none => db

/-- `OnProcess`: the new row, and the process is live when the chain is synced. -/
def Indexer.onProcess (app : App) (idx : Indexer) (pid : Bytes) : Indexer :=
  let idx := idx.write (newEmptyProcess app pid)
  if app.isSynced then idx.addProcessToLiveResults pid else idx

@[simp] theorem Indexer.onProcess_db (app : App) (idx : Indexer) (pid : Bytes) :
    (idx.onProcess app pid).db = idx.db := by
  unfold Indexer.onProcess; split <;> rfl

@[simp] theorem Indexer.onProcess_txDb (app : App) (idx : Indexer) (pid : Bytes) :
    (idx.onProcess app pid).txDb = newEmptyProcess app pid idx.txDb := by
  unfold Indexer.onProcess; split <;> rfl

@[simp] theorem Indexer.onProcess_votePool (app : App) (idx : Indexer) (pid : Bytes) :
    (idx.onProcess app pid).votePool = idx.votePool := by
  unfold Indexer.onProcess; split <;> rfl

@[simp] theorem Indexer.onProcess_ignoreLiveResults (app : App) (idx : Indexer) (pid : Bytes) :
    (idx.onProcess app pid).ignoreLiveResults = idx.ignoreLiveResults := by
  unfold Indexer.onProcess; split <;> rfl

@[simp] theorem Indexer.onProcess_blockUpdateProcVoteCounts (app : App) (idx : Indexer)
    (pid : Bytes) :
    (idx.onProcess app pid).blockUpdateProcVoteCounts = idx.blockUpdateProcVoteCounts := by
  unfold Indexer.onProcess; split <;> rfl

@[simp] theorem Indexer.onProcess_blockUpdateProcs (app : App) (idx : Indexer) (pid : Bytes) :
    (idx.onProcess app pid).blockUpdateProcs = idx.blockUpdateProcs := by
  unfold Indexer.onProcess; split <;> rfl

@[simp] theorem Indexer.mem_onProcess_liveResultsProcs (app : App) (idx : Indexer) (pid q : Bytes) :
    q ∈ (idx.onProcess app pid).liveResultsProcs ↔
      q ∈ idx.liveResultsProcs ∨ (app.isSynced = true ∧ q = pid) := by
  unfold Indexer.onProcess
  split <;> simp [Indexer.addProcessToLiveResults, *]

/-! ## Account and token callbacks -/

/-- A `vochaintx.TokenTransfer`. -/
structure TokenTransfer where
  txHash : Bytes
  fromAddress : Bytes
  toAddress : Bytes
  amount : Nat
  deriving DecidableEq, Repr

/-- `OnSetAccount`. -/
def Indexer.onSetAccount (idx : Indexer) (address : Bytes) (balance nonce : Nat) : Indexer :=
  idx.write fun db => { db with accounts := assocUpsert db.accounts address ⟨balance, nonce⟩ }

/-- `OnTransferTokens`, at the application's height and time. -/
def Indexer.onTransferTokens (app : App) (idx : Indexer) (tx : TokenTransfer) : Indexer :=
  idx.write fun db =>
    { db with tokenTransfers := db.tokenTransfers ++
        [⟨tx.txHash, app.height, tx.fromAddress, tx.toAddress, tx.amount, app.timestamp⟩] }

/-- `OnSpendTokens`, with the lower-cased name of the transaction type. -/
def Indexer.onSpendTokens (app : App) (idx : Indexer) (address : Bytes) (txType : String)
    (cost : Nat) (reference : String) : Indexer :=
  idx.write fun db =>
    { db with tokenFees := db.tokenFees ++
        [⟨address, txType.toLower, cost, reference, app.timestamp, app.height⟩] }

/-! ## `Rollback` -/

/-- `Rollback`: clear the three scratch maps and drop the open transaction. -/
def Indexer.rollback (idx : Indexer) : Indexer :=
  { idx with
    votePool := []
    blockUpdateProcs := []
    blockUpdateProcVoteCounts := []
    blockTx := none }

end Vocdoni.Vochain
