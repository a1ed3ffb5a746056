import Vocdoni.Indexer.TallySums

/-!
# When the live tally is the recount

`live_tally_drops_valid_overwrite` shows the live tally and the recount part when a
rejected ballot is overwritten. Here they are shown equal on every run that avoids
that case and absent weights: after every event, the results stored for a live
process are the recount of the committed chain state.

The proof reads tallies as vectors (`Results.vec`). The recount is the sum of the
committed ballots' contributions. A commit adds the pooled ballots' contributions and
subtracts those of the committed ballots they overwrite. The chain replaces the
committed ballots by the block's (`sum_foldr_assocSet`), and the pool holds the
block's ballots (`LiveInvariant.pending`).

The bootstrap recounts every process from the committed chain state. For a live
process that is what the live tally already holds; at a block boundary it hands a
process with a committed ballot over to live counting (`HandOverStart`).

An account or token event writes no process row, a rollback drops the block's ballots
on both sides, and a reindex writes only block and transaction rows: all keep the
invariant (`LiveInvariant.frame`). A commit whose `blockTx.Commit()` fails does not:
the chain keeps the block's ballots and the indexer loses them.

* `LiveInvariant.vote`, `LiveInvariant.process`, `LiveInvariant.change`,
  `LiveInvariant.write`, `LiveInvariant.commit`, `LiveInvariant.rollback`,
  `LiveInvariant.bootstrap`, `LiveInvariant.reindex` — a ballot the refinement covers,
  a new or changed process, an account or token event, a commit, a rollback, the
  bootstrap and a reindex keep the invariant `LiveInvariant`;
* `LiveInvariant.run` — so does every run of covered events (`goodRun`);
* `live_tally_matches_recount` — from a process live with the zero tally and no
  ballot, on every run of valid overwrites with present weights, the stored results
  are the recount after every event;
* `live_tally_history_independent` — so two such runs with the same committed ballots
  leave the same results, whatever overwrites and blocks led there;
* `new_process_live_tally_matches_recount` — the same for a process from its creation
  by `OnProcess` and the commit of its block;
* `bootstrap_hands_over_live_tally` — the same after a bootstrap at a block boundary,
  for a process with a committed ballot.
-/

namespace Vocdoni.Vochain

open Vocdoni.Tally

/-! ## The ballots the refinement covers -/

/-- A ballot of the run that the refinement covers: a present, non-negative weight;
and, when it overwrites a committed ballot, a higher overwrite count than that ballot,
whose package `addLiveVote` accepts. -/
def goodBallot (opts : ProcessVoteOptions) (c : Chain) (v : Vote) : Bool :=
  (match v.weight with
    | some w => decide (0 ≤ w)
    | none => false) &&
  (match assocGet c.committed (v.processId, v.nullifier) with
    | some q => decide (q.overwriteCount < v.overwrites) && acceptsPackage opts q.votePackage
    | none => true)

theorem previousVote_chain (c : Chain) (v : Vote) (h : ∀ q, assocGet c.committed
    (v.processId, v.nullifier) = some q → q.overwriteCount < v.overwrites) :
    previousVote c.app v = assocGet c.committed (v.processId, v.nullifier) := by
  unfold previousVote
  split
  · rfl
  · cases hq : assocGet c.committed (v.processId, v.nullifier) with
    | none => rfl
    | some q => have := h q hq; omega

theorem addsNew_of_goodBallot {opts : ProcessVoteOptions} {c : Chain} {v : Vote}
    (good : goodBallot opts c v = true) : addsNew c.app opts v = true := by
  unfold goodBallot at good
  unfold addsNew subtractsPrevious
  cases hq : assocGet c.committed (v.processId, v.nullifier) with
  | none => simp [previousVote_chain c v (by simp [hq]), hq]
  | some q =>
    simp only [hq, Bool.and_eq_true, decide_eq_true_eq] at good
    simp [previousVote_chain c v (by simp [hq, good.2.1]), hq, good.2.1, good.2.2]

theorem subtracted_of_goodBallot {opts : ProcessVoteOptions} {c : Chain} {v : Vote}
    (good : goodBallot opts c v = true) :
    (if subtractsPrevious c.app opts v then contribution opts (previousBallot c.app v) else 0) =
      lookupTerm c.committed (recountTerm opts v.processId) (v.processId, v.nullifier) := by
  unfold goodBallot at good
  unfold subtractsPrevious previousBallot lookupTerm
  cases hq : assocGet c.committed (v.processId, v.nullifier) with
  | none => simp [previousVote_chain c v (by simp [hq]), hq]
  | some q =>
    simp only [hq, Bool.and_eq_true, decide_eq_true_eq] at good
    simp [previousVote_chain c v (by simp [hq, good.2.1]), hq, good.2.1, good.2.2, recountTerm,
      stateContribution]

theorem contribution_of_goodBallot {opts : ProcessVoteOptions} {c : Chain} {v : Vote}
    (good : goodBallot opts c v = true) :
    contribution opts (v.votePackage, v.weight) = stateContribution opts v.toStateDB := by
  unfold goodBallot at good
  unfold stateContribution Vote.toStateDB
  cases hw : v.weight with
  | none => simp [hw] at good
  | some w =>
    simp only [hw, decide_eq_true_eq, Bool.and_eq_true] at good
    simp only [setBytes_bigIntBytes, Int.natAbs_of_nonneg good.1]

/-! ## The invariant -/

/-- The pooled ballots of a process. -/
def poolInner (pool : VotePool) (pid : Bytes) : Assoc Bytes Vote :=
  (assocGet pool pid).getD []

theorem poolInner_eq_nil {pool : VotePool} {pid : Bytes} (h : assocGet pool pid = none) :
    poolInner pool pid = [] := by
  simp [poolInner, h]

/-- What holds between any two events of a run, for a live process `pid` with vote
options `opts`: its stored results are the recount of the committed chain state; the
pool holds the block's ballots of `pid` the chain has executed, each one covered by
`goodBallot`; and the maps have one entry a key. -/
structure LiveInvariant (opts : ProcessVoteOptions) (pid : Bytes) (s : System) : Prop where
  live : pid ∈ s.idx.liveResultsProcs
  liveOn : s.idx.ignoreLiveResults = false
  stored : s.idx.db.tallyOf pid = some (opts, recount s.chain.app opts pid)
  txTally : s.idx.txDb.tallyOf pid = s.idx.db.tallyOf pid
  pending : (s.chain.pending.filter fun e => decide (e.1.1 = pid)).Perm
    ((poolInner s.idx.votePool pid).map fun e => ((pid, e.1), e.2.toStateDB))
  pooled : ∀ e ∈ poolInner s.idx.votePool pid,
    goodBallot opts s.chain e.2 = true ∧ e.2.processId = pid ∧ e.2.nullifier = e.1
  poolKeys : KeysNodup s.idx.votePool
  innerKeys : KeysNodup (poolInner s.idx.votePool pid)
  pendingKeys : KeysNodup s.chain.pending
  committedKeys : KeysNodup s.chain.committed

/-! ## A commit keeps it -/

section Commit

variable {opts : ProcessVoteOptions} {pid : Bytes} {s : System}

/-- The accumulators of `pid`'s pooled ballots: the ballots' contributions, and those
of the committed ballots they overwrite. -/
theorem LiveInvariant.accumulators (inv : LiveInvariant opts pid s) :
    let acc := commitAccumulators s.chain.app opts (poolInner s.idx.votePool pid)
    acc.1.vec = ((poolInner s.idx.votePool pid).map fun e =>
        stateContribution opts e.2.toStateDB).sum ∧
      acc.2.vec = ((poolInner s.idx.votePool pid).map fun e =>
        lookupTerm s.chain.committed (recountTerm opts pid) (pid, e.1)).sum ∧
      acc.1.shape = (Results.empty opts).shape ∧ acc.2.shape = (Results.empty opts).shape := by
  intro acc
  obtain ⟨hA, hAs⟩ := vec_foldl_tallyStepIf opts (fun e => addsNew s.chain.app opts e.2)
    (fun e => (e.2.votePackage, e.2.weight)) (poolInner s.idx.votePool pid) (r := Results.empty opts) rfl
  obtain ⟨hS, hSs⟩ := vec_foldl_tallyStepIf opts (fun e => subtractsPrevious s.chain.app opts e.2)
    (fun e => previousBallot s.chain.app e.2) (poolInner s.idx.votePool pid)
    (r := Results.empty opts) rfl
  simp only [acc, commitAccumulators_eq]
  refine ⟨?_, ?_, hAs, hSs⟩
  · rw [hA, Results.vec_empty, zero_add]
    congr 1
    refine List.map_congr_left fun e he => ?_
    obtain ⟨good, -, -⟩ := inv.pooled e he
    simp only [addsNew_of_goodBallot good, if_true, contribution_of_goodBallot good]
  · rw [hS, Results.vec_empty, zero_add]
    congr 1
    refine List.map_congr_left fun e he => ?_
    obtain ⟨good, hp, hn⟩ := inv.pooled e he
    rw [subtracted_of_goodBallot good, hp, hn]

/-- The recount after the block: the committed ballots of `pid` the block overwrites
are replaced by the pooled ones. -/
theorem LiveInvariant.recount_commitBlock (inv : LiveInvariant opts pid s) :
    (recount s.chain.commitBlock.app opts pid).vec = (recount s.chain.app opts pid).vec +
      ((poolInner s.idx.votePool pid).map fun e => stateContribution opts e.2.toStateDB -
        lookupTerm s.chain.committed (recountTerm opts pid) (pid, e.1)).sum := by
  rw [(recount_vec _ opts pid).1, (recount_vec _ opts pid).1]
  simp only [Chain.commitBlock]
  rw [sum_foldr_assocSet inv.committedKeys _ _ inv.pendingKeys]
  congr 1
  rw [sum_map_eq_sum_filter _ (fun e => decide (e.1.1 = pid)), (inv.pending.map _).sum_eq,
    List.map_map]
  · congr 1
    refine List.map_congr_left fun e _ => ?_
    simp [recountTerm]
  · intro e _ hne
    have hne : e.1.1 ≠ pid := by simpa using hne
    simp only [recountTerm, hne, if_false, lookupTerm]
    cases assocGet s.chain.committed e.1 <;> simp [hne]

/-- **Step lemma for a commit.** The stored results of `pid` become the recount of
the chain state the block commits. -/
theorem LiveInvariant.commit_stored (inv : LiveInvariant opts pid s) :
    (s.step .commit).idx.db.tallyOf pid =
      some (opts, recount (s.step .commit).chain.app opts pid) := by
  obtain ⟨hR, hRs⟩ := recount_vec s.chain opts pid
  obtain ⟨hA, hS, hAs, hSs⟩ := inv.accumulators
  have target := inv.recount_commitBlock
  have shape' := (recount_vec s.chain.commitBlock opts pid).2
  rw [sum_map_sub_distrib] at target
  show (commitWrites s.chain.app s.idx (s.chain.height + 1)).tallyOf pid =
    some (opts, recount s.chain.commitBlock.app opts pid)
  rw [tallyOf_commitWrites _ _ _ _ inv.poolKeys, inv.txTally.trans inv.stored]
  cases hp : assocGet s.idx.votePool pid with
  | none =>
    simp only [poolInner_eq_nil hp, List.map_nil, List.sum_nil, sub_self, add_zero] at target
    exact congrArg (fun r => some (opts, r))
      (Results.eq_of_vec_eq (hRs.trans shape'.symm) target.symm)
  | some votes =>
    have inner : poolInner s.idx.votePool pid = votes := by simp [poolInner, hp]
    rw [inner] at hA hS hAs hSs target
    rw [← hA, ← hS] at target
    simp only [Option.map_some', committedResults]
    congr 2
    have sum := Results.vec_add (hRs.trans hAs.symm)
    have shape := Results.shape_add (hRs.trans hAs.symm)
    refine Results.eq_of_vec_eq ?_ ?_
    · rw [Results.applyDelta, Results.shape_sub (shape.trans (hRs.trans hSs.symm)), shape, hRs,
        shape']
    · rw [Results.applyDelta, Results.vec_sub (shape.trans (hRs.trans hSs.symm)), sum, target,
        add_sub_assoc]

/-- **Step lemma for a commit.** -/
theorem LiveInvariant.commit (inv : LiveInvariant opts pid s) :
    LiveInvariant opts pid (s.step .commit) where
  live := inv.live
  liveOn := inv.liveOn
  stored := inv.commit_stored
  txTally := rfl
  pending := by simp [System.step, Chain.commitBlock, Indexer.commit, Indexer.commitTx, poolInner]
  pooled := by simp [System.step, Indexer.commit, Indexer.commitTx, poolInner]
  poolKeys := List.nodup_nil
  innerKeys := by simp [System.step, Indexer.commit, Indexer.commitTx, poolInner, KeysNodup]
  pendingKeys := List.nodup_nil
  committedKeys := keysNodup_foldr_assocSet inv.committedKeys _

end Commit

/-! ## A ballot keeps it -/

theorem keysNodup_onVote (idx : Indexer) (v : Vote) (t : Nat) (h : KeysNodup idx.votePool) :
    KeysNodup (idx.onVote v t).votePool := by
  unfold Indexer.onVote Indexer.onVoteLive
  split
  · exact keysNodup_assocSet h _ _
  · exact h

theorem poolInner_onVote (idx : Indexer) (v : Vote) (t : Nat) (pid : Bytes)
    (liveOn : idx.ignoreLiveResults = false) (live : pid ∈ idx.liveResultsProcs) :
    poolInner (idx.onVote v t).votePool pid =
      if v.processId = pid then assocSet (poolInner idx.votePool pid) v.nullifier v
      else poolInner idx.votePool pid := by
  unfold Indexer.onVote Indexer.onVoteLive
  split
  · by_cases hp : v.processId = pid
    · subst hp; simp [poolVote, poolInner]
    · simp [poolVote, poolInner, hp]
  · rename_i notPooled
    have : v.processId ≠ pid := fun h =>
      notPooled (by simp [liveOn, Indexer.isProcessLiveResults, h, live])
    simp [this]

theorem filter_assocSet_pid (pending : Assoc (Bytes × Bytes) StateDBVote) (pid : Bytes)
    (k : Bytes × Bytes) (x : StateDBVote) :
    (assocSet pending k x).filter (fun e => decide (e.1.1 = pid)) =
      if k.1 = pid then
        (k, x) :: ((pending.filter fun e => decide (e.1.1 = pid)).filter fun e => !decide (e.1 = k))
      else pending.filter fun e => decide (e.1.1 = pid) := by
  unfold assocSet
  rw [List.filter_cons, List.filter_filter, List.filter_filter]
  by_cases hk : k.1 = pid
  · simp only [hk, decide_True, if_true, Bool.and_comm]
  · simp only [hk, decide_False, if_false, Bool.false_eq_true]
    apply List.filter_congr
    intro e _
    by_cases he : e.1.1 = pid
    · have : e.1 ≠ k := fun h => hk (h ▸ he)
      simp [he, this]
    · simp [he]

theorem map_toStateDB_filter (inner : Assoc Bytes Vote) (pid n : Bytes) :
    (inner.map fun e => ((pid, e.1), e.2.toStateDB)).filter (fun e => !decide (e.1 = (pid, n))) =
      (inner.filter fun e => !decide (e.1 = n)).map fun e => ((pid, e.1), e.2.toStateDB) := by
  rw [List.filter_map]
  congr 1
  apply List.filter_congr
  intro e _
  simp

section Vote

variable {opts : ProcessVoteOptions} {pid : Bytes} {s : System}

/-- **Step lemma for a ballot.** A ballot the chain executes keeps the invariant when,
for `pid`, the refinement covers it. -/
theorem LiveInvariant.vote (inv : LiveInvariant opts pid s) (v : Vote) (t : Nat)
    (good : v.processId = pid → goodBallot opts s.chain v = true) :
    LiveInvariant opts pid (s.step (.vote v t)) := by
  have inner : poolInner (s.step (.vote v t)).idx.votePool pid =
      if v.processId = pid then assocSet (poolInner s.idx.votePool pid) v.nullifier v
      else poolInner s.idx.votePool pid :=
    poolInner_onVote s.idx v t pid inv.liveOn inv.live
  have pending : (s.step (.vote v t)).chain.pending =
      assocSet s.chain.pending (v.processId, v.nullifier) v.toStateDB := rfl
  exact {
    live := by simpa [System.step] using inv.live
    liveOn := by simpa [System.step] using inv.liveOn
    stored := (congrArg (Db.tallyOf · pid) (Indexer.onVote_db s.idx v t)).trans inv.stored
    txTally := by
      show (s.idx.onVote v t).txDb.tallyOf pid = (s.idx.onVote v t).db.tallyOf pid
      unfold Db.tallyOf
      rw [Indexer.onVote_txDb_processes, Indexer.onVote_db]
      exact inv.txTally
    pending := by
      rw [pending, filter_assocSet_pid, inner]
      by_cases hp : v.processId = pid
      · subst hp
        simp only [if_true, assocSet, List.map_cons]
        refine List.Perm.cons _ ?_
        rw [← map_toStateDB_filter]
        exact inv.pending.filter _
      · simp only [hp, if_false]
        exact inv.pending
    pooled := by
      intro e he
      rw [inner] at he
      split at he
      · rename_i hp
        rcases List.mem_cons.mp he with rfl | he
        · exact ⟨good hp, hp, rfl⟩
        · exact inv.pooled e (List.mem_of_mem_filter he)
      · exact inv.pooled e he
    poolKeys := keysNodup_onVote s.idx v t inv.poolKeys
    innerKeys := by
      rw [inner]
      split
      · exact keysNodup_assocSet inv.innerKeys _ _
      · exact inv.innerKeys
    pendingKeys := keysNodup_assocSet inv.pendingKeys _ _
    committedKeys := inv.committedKeys }

end Vote

/-! ## A new or changed process keeps it -/

/-- `newEmptyProcess` inserts: an existing row stays as it was. -/
theorem tallyOf_newEmptyProcess (app : App) (p : Bytes) {db : Db} {pid : Bytes}
    (h : (db.tallyOf pid).isSome) : (newEmptyProcess app p db).tallyOf pid = db.tallyOf pid := by
  unfold newEmptyProcess
  split
  · by_cases hp : p = pid
    · subst hp
      have : (assocGet db.processes p).isSome := by simpa [Db.tallyOf] using h
      simp [assocInsert, this]
    · simp [Db.tallyOf, assocGet_assocInsert_of_ne _ hp]
  · rfl

/-- **Step lemma for a new process**, of any id: the insert leaves `pid`'s row, the
pool and the chain's ballots alone. -/
theorem LiveInvariant.process {opts : ProcessVoteOptions} {pid : Bytes} {s : System}
    (inv : LiveInvariant opts pid s) (p : Bytes) (c : ChainProcess) :
    LiveInvariant opts pid (s.step (.process p c)) where
  live := by simp [System.step, inv.live]
  liveOn := by simpa [System.step] using inv.liveOn
  stored := by simpa [System.step] using inv.stored
  txTally := by
    have tx := inv.txTally.trans inv.stored
    simp only [System.step, Indexer.onProcess_txDb, Indexer.onProcess_db]
    rw [tallyOf_newEmptyProcess _ _ (by rw [tx]; rfl)]
    exact inv.txTally
  pending := by simpa [System.step] using inv.pending
  pooled := by simpa [System.step] using inv.pooled
  poolKeys := by simpa [System.step] using inv.poolKeys
  innerKeys := by simpa [System.step] using inv.innerKeys
  pendingKeys := inv.pendingKeys
  committedKeys := inv.committedKeys

/-- A change of a process of the chain touches no ballot and no row: its callback only
marks the process. -/
theorem LiveInvariant.change {opts : ProcessVoteOptions} {pid : Bytes} {s : System}
    (inv : LiveInvariant opts pid s) (p : Bytes) (c : ChainProcess) (cb : Callback) :
    LiveInvariant opts pid (s.step (.change p c cb)) := by
  simp only [System.step, Callback.call_eq]
  exact ⟨inv.live, inv.liveOn, inv.stored, inv.txTally, inv.pending, inv.pooled, inv.poolKeys,
    inv.innerKeys, inv.pendingKeys, inv.committedKeys⟩

/-! ## Account and token events, rollbacks and reindexes keep it -/

section Frame

variable {opts : ProcessVoteOptions} {pid : Bytes} {s : System}

/-- The invariant reads of the indexer only the pool, the live set and flag, and the
process's tally, committed and in the block transaction. -/
theorem LiveInvariant.frame (inv : LiveInvariant opts pid s) {idx : Indexer}
    (pool : idx.votePool = s.idx.votePool) (live : idx.liveResultsProcs = s.idx.liveResultsProcs)
    (liveOn : idx.ignoreLiveResults = s.idx.ignoreLiveResults)
    (db : idx.db.tallyOf pid = s.idx.db.tallyOf pid)
    (tx : idx.txDb.tallyOf pid = s.idx.db.tallyOf pid) :
    LiveInvariant opts pid ⟨s.chain, idx⟩ where
  live := live ▸ inv.live
  liveOn := liveOn ▸ inv.liveOn
  stored := db.trans inv.stored
  txTally := tx.trans db.symm
  pending := pool ▸ inv.pending
  pooled := pool ▸ inv.pooled
  poolKeys := pool ▸ inv.poolKeys
  innerKeys := pool ▸ inv.innerKeys
  pendingKeys := inv.pendingKeys
  committedKeys := inv.committedKeys

/-- **Step lemma for the account and token events**: a write through the block
transaction that leaves the process rows alone. -/
theorem LiveInvariant.write (inv : LiveInvariant opts pid s) {f : Db → Db}
    (hf : ∀ db, (f db).processes = db.processes) :
    LiveInvariant opts pid ⟨s.chain, s.idx.write f⟩ :=
  inv.frame rfl rfl rfl rfl (by simp only [Indexer.write_txDb, Db.tallyOf, hf]; exact inv.txTally)

/-- **Step lemma for a rollback.** The chain drops the block's ballots and the indexer
its pool; the stored results, the recount of the committed ballots, stay. -/
theorem LiveInvariant.rollback (inv : LiveInvariant opts pid s) :
    LiveInvariant opts pid (s.step .rollback) where
  live := inv.live
  liveOn := inv.liveOn
  stored := inv.stored
  txTally := rfl
  pending := List.Perm.nil
  pooled := fun _ h => (nomatch h)
  poolKeys := List.nodup_nil
  innerKeys := List.nodup_nil
  pendingKeys := List.nodup_nil
  committedKeys := inv.committedKeys

/-- **Step lemma for a reindex.** It writes block and transaction rows and commits
them or not: the process's tally stays, committed and in the block transaction. -/
theorem LiveInvariant.reindex (inv : LiveInvariant opts pid s) (store : Option BlockStore)
    (codec : TxCodec) (txOk : Bool) : LiveInvariant opts pid (s.step (.reindex store codec txOk)) :=
  have tally := Indexer.reindexBlocks_view_of_eq (Db.tallyOf · pid) (fun _ _ => rfl)
    (fun _ _ _ => rfl) s.chain.app store codec txOk s.idx inv.txTally
  have scratch := Indexer.reindexBlocks_scratch s.chain.app store codec txOk s.idx
  inv.frame (congrArg Indexer.votePool scratch :) (congrArg Indexer.liveResultsProcs scratch :)
    (congrArg Indexer.ignoreLiveResults scratch :) tally.1 tally.2

end Frame

/-! ## The bootstrap keeps it -/

/-- A step of the bootstrap loop writes only the block transaction and the live set. -/
theorem Indexer.bootstrapProcess_frame (app : App) (idx : Indexer) (p : Bytes) :
    (idx.bootstrapProcess app p).db = idx.db ∧
      (idx.bootstrapProcess app p).votePool = idx.votePool ∧
      (idx.bootstrapProcess app p).ignoreLiveResults = idx.ignoreLiveResults ∧
      ∀ q ∈ idx.liveResultsProcs, q ∈ (idx.bootstrapProcess app p).liveResultsProcs := by
  unfold Indexer.bootstrapProcess
  split
  · exact ⟨rfl, rfl, rfl, fun _ h => h⟩
  · dsimp only
    split
    · exact ⟨rfl, rfl, rfl, fun _ h => h⟩
    · exact ⟨rfl, rfl, rfl, fun q h => by simp [Indexer.addProcessToLiveResults, h]⟩

theorem tallyOf_bootstrapProcess_of_ne (app : App) (idx : Indexer) {p pid : Bytes} (hp : p ≠ pid) :
    (idx.bootstrapProcess app p).txDb.tallyOf pid = idx.txDb.tallyOf pid := by
  unfold Indexer.bootstrapProcess
  split
  · rfl
  · dsimp only
    split <;>
      simp [Indexer.write, Indexer.txDb, Indexer.addProcessToLiveResults, updateProcessResultByID,
        commitVotesUnsafe, Db.tallyOf, hp]

/-- The bootstrap's step for `pid` stores the recount, and makes `pid` live when it has a
committed ballot. -/
theorem Indexer.bootstrapProcess_self (app : App) (idx : Indexer) {pid : Bytes}
    {opts : ProcessVoteOptions} {r : Results} (hdb : idx.db.tallyOf pid = some (opts, r)) :
    (idx.bootstrapProcess app pid).txDb.tallyOf pid =
        (idx.txDb.tallyOf pid).map (fun _ => (opts, recount app opts pid)) ∧
      ((∃ votes, app.iterateVotes pid = .ok votes) →
        pid ∈ (idx.bootstrapProcess app pid).liveResultsProcs) := by
  obtain ⟨row, hrow, hopts⟩ : ∃ row, assocGet idx.db.processes pid = some row ∧ row.voteOpts = opts := by
    simp only [Db.tallyOf, Option.map_eq_some', Prod.mk.injEq] at hdb
    obtain ⟨row, h, h', _⟩ := hdb
    exact ⟨row, h, h'⟩
  unfold Indexer.bootstrapProcess Indexer.processInfo
  rw [hrow]
  dsimp only
  subst hopts
  cases h : app.iterateVotes pid with
  | error e =>
    refine ⟨?_, fun ⟨_, hv⟩ => nomatch hv⟩
    simp [Indexer.write, Indexer.txDb, updateProcessResultByID, tallyOf_assocUpdate, recount, h,
      Db.tallyOf, Option.map_map, Function.comp_def]
  | ok votes =>
    refine ⟨?_, fun _ => by simp [Indexer.addProcessToLiveResults]⟩
    simp [Indexer.write, Indexer.txDb, updateProcessResultByID, commitVotesUnsafe,
      tallyOf_assocUpdate, recount, h, Db.tallyOf, Option.map_map, Function.comp_def,
      Indexer.addProcessToLiveResults]

/-- `pid` handed over to live counting: in the block transaction its results are the
recount, and it is live if it has a committed ballot. -/
def HandedOver (app : App) (opts : ProcessVoteOptions) (pid : Bytes) (idx : Indexer) : Prop :=
  idx.txDb.tallyOf pid = some (opts, recount app opts pid) ∧
    ((∃ votes, app.iterateVotes pid = .ok votes) → pid ∈ idx.liveResultsProcs)

/-- The bootstrap loop hands `pid` over once it meets it, and keeps it handed over. -/
theorem handedOver_foldl_bootstrapProcess (app : App) (opts : ProcessVoteOptions) (pid : Bytes)
    (r : Results) :
    ∀ (pids : List Bytes) (idx : Indexer), idx.db.tallyOf pid = some (opts, r) →
      (idx.txDb.tallyOf pid).isSome → (HandedOver app opts pid idx ∨ pid ∈ pids) →
        HandedOver app opts pid (pids.foldl (Indexer.bootstrapProcess app) idx)
  | [], _, _, _, h => h.resolve_right (List.not_mem_nil pid)
  | p :: pids, idx, hdb, hsome, h => by
    have frame := Indexer.bootstrapProcess_frame app idx p
    rw [List.foldl_cons]
    by_cases hp : p = pid
    · subst hp
      obtain ⟨t, ht⟩ := Option.isSome_iff_exists.mp hsome
      have self := Indexer.bootstrapProcess_self app idx hdb
      rw [ht, Option.map_some'] at self
      exact handedOver_foldl_bootstrapProcess app opts p r pids _ (frame.1 ▸ hdb)
        (by rw [self.1]; rfl) (Or.inl self)
    · have same := tallyOf_bootstrapProcess_of_ne app idx hp
      refine handedOver_foldl_bootstrapProcess app opts pid r pids _ (frame.1 ▸ hdb)
        (same ▸ hsome) ?_
      rcases h with ⟨stored, live⟩ | h
      · exact Or.inl ⟨same ▸ stored, fun hv => frame.2.2.2 pid (live hv)⟩
      · exact Or.inr ((List.mem_cons.mp h).resolve_left (Ne.symm hp))

theorem Indexer.txDb_eq_db {idx : Indexer} (h : idx.blockTx = none) : idx.txDb = idx.db := by
  simp [Indexer.txDb, h]

/-- The bootstrap event with live results on: `pid` handed over, the transaction
committed, and the pool, the switch and the live set kept. -/
theorem System.bootstrap_handedOver (s : System) {opts : ProcessVoteOptions} {pid : Bytes}
    {r : Results} (liveOn : s.idx.ignoreLiveResults = false)
    (hdb : s.idx.db.tallyOf pid = some (opts, r)) (hsome : (s.idx.txDb.tallyOf pid).isSome)
    (h : HandedOver s.chain.app opts pid s.idx ∨ pid ∈ liveProcessIDs s.idx.txDb) :
    HandedOver s.chain.app opts pid (s.step .bootstrap).idx ∧
      (s.step .bootstrap).idx.blockTx = none ∧
      (s.step .bootstrap).idx.votePool = s.idx.votePool ∧
      (s.step .bootstrap).idx.ignoreLiveResults = false ∧
      ∀ q ∈ s.idx.liveResultsProcs, q ∈ (s.step .bootstrap).idx.liveResultsProcs := by
  simp only [System.step, Indexer.afterSyncBootstrap, liveOn, Bool.false_eq_true, if_false]
  refine ⟨handedOver_foldl_bootstrapProcess _ opts pid r _ _ hdb hsome h, rfl, ?_, ?_,
    fun q => foldl_of_step (q ∈ ·.liveResultsProcs)
      (fun i p h => (Indexer.bootstrapProcess_frame _ i p).2.2.2 q h) _ _⟩
  · exact foldl_eq_of_step Indexer.votePool (fun i p => (Indexer.bootstrapProcess_frame _ i p).2.1) _ _
  · exact (foldl_eq_of_step Indexer.ignoreLiveResults
      (fun i p => (Indexer.bootstrapProcess_frame _ i p).2.2.1) _ _).trans liveOn

section Bootstrap

variable {opts : ProcessVoteOptions} {pid : Bytes} {s : System}

/-- **Step lemma for the bootstrap.** It recounts `pid` from the committed chain state,
which is what the live tally already holds. -/
theorem LiveInvariant.bootstrap (inv : LiveInvariant opts pid s) :
    LiveInvariant opts pid (s.step .bootstrap) := by
  have txStored := inv.txTally.trans inv.stored
  obtain ⟨handed, noTx, pool, liveOn, live⟩ := s.bootstrap_handedOver inv.liveOn inv.stored
    (by rw [txStored]; rfl) (Or.inl ⟨txStored, fun _ => inv.live⟩)
  exact {
    live := live pid inv.live
    liveOn := liveOn
    stored := by rw [← Indexer.txDb_eq_db noTx]; exact handed.1
    txTally := by rw [Indexer.txDb_eq_db noTx]
    pending := by rw [pool]; exact inv.pending
    pooled := by rw [pool]; exact inv.pooled
    poolKeys := by rw [pool]; exact inv.poolKeys
    innerKeys := by rw [pool]; exact inv.innerKeys
    pendingKeys := inv.pendingKeys
    committedKeys := inv.committedKeys }

end Bootstrap


/-! ## Runs -/

/-- The events the refinement covers: a ballot of `pid` covered by `goodBallot`, any
other ballot, and any new process, change of a process, account or token event,
commit whose `blockTx.Commit()` succeeds, rollback, bootstrap or reindex. A failed
`blockTx.Commit()` drops the block's rows while the chain keeps its ballots. -/
def goodEvent (opts : ProcessVoteOptions) (pid : Bytes) (s : System) : Event → Bool
  | .vote v _ => !decide (v.processId = pid) || goodBallot opts s.chain v
  | .process _ _ => true
  | .change _ _ _ => true
  | .setAccount _ _ _ => true
  | .transferTokens _ => true
  | .spendTokens _ _ _ _ => true
  | .commit => true
  | .failedCommit => false
  | .rollback => true
  | .bootstrap => true
  | .reindex _ _ _ => true

/-- Every event of the run is covered, in the state it meets. -/
def goodRun (opts : ProcessVoteOptions) (pid : Bytes) : System → List Event → Bool :=
  System.runOK (goodEvent opts pid)

theorem LiveInvariant.step {opts : ProcessVoteOptions} {pid : Bytes} {s : System}
    (inv : LiveInvariant opts pid s) (e : Event) (good : goodEvent opts pid s e = true) :
    LiveInvariant opts pid (s.step e) := by
  cases e with
  | vote v t =>
    refine inv.vote v t fun hp => ?_
    simpa [goodEvent, hp] using good
  | process p c => exact inv.process p c
  | change p c cb => exact inv.change p c cb
  | setAccount address balance nonce => exact inv.write fun _ => rfl
  | transferTokens tx => exact inv.write fun _ => rfl
  | spendTokens address txType cost reference => exact inv.write fun _ => rfl
  | commit => exact inv.commit
  | failedCommit => simp [goodEvent] at good
  | rollback => exact inv.rollback
  | bootstrap => exact inv.bootstrap
  | reindex store codec txOk => exact inv.reindex store codec txOk

/-- **Run lemma.** -/
theorem LiveInvariant.run {opts : ProcessVoteOptions} {pid : Bytes} (s : System) (es : List Event)
    (inv : LiveInvariant opts pid s) (good : goodRun opts pid s es = true) :
    LiveInvariant opts pid (s.run es) :=
  System.run_invariant _ _ (fun _ e inv good => inv.step e good) s es inv good

/-- Under the invariant the stored results are the recount. -/
theorem LiveInvariant.storedResults {opts : ProcessVoteOptions} {pid : Bytes} {s : System}
    (inv : LiveInvariant opts pid s) :
    s.idx.storedResults pid = some (recount s.chain.app opts pid) := by
  simpa [Db.tallyOf, Indexer.storedResults, Option.map_map, Function.comp_def]
    using congrArg (Option.map Prod.snd) inv.stored

/-! ## From a process created live -/

theorem filter_pid_eq_nil {pending : Assoc (Bytes × Bytes) StateDBVote} {pid : Bytes}
    (h : ∀ e ∈ pending, e.1.1 ≠ pid) : pending.filter (fun e => decide (e.1.1 = pid)) = [] :=
  List.filter_eq_nil_iff.mpr fun e he => by simpa using h e he

/-- A process `pid` created live with no ballot: `pid` is live with the zero tally,
committed and in the block transaction alike, and has no ballot committed, in the
block in progress or in the pool. -/
structure FreshStart (opts : ProcessVoteOptions) (pid : Bytes) (s : System) : Prop where
  live : pid ∈ s.idx.liveResultsProcs
  liveOn : s.idx.ignoreLiveResults = false
  row : s.idx.db.tallyOf pid = some (opts, Results.empty opts)
  txRow : s.idx.txDb.tallyOf pid = s.idx.db.tallyOf pid
  noCommitted : s.chain.committedVotes pid = []
  noPending : ∀ e ∈ s.chain.pending, e.1.1 ≠ pid
  noPool : assocGet s.idx.votePool pid = none
  poolKeys : KeysNodup s.idx.votePool
  pendingKeys : KeysNodup s.chain.pending
  committedKeys : KeysNodup s.chain.committed

theorem FreshStart.liveInvariant {opts : ProcessVoteOptions} {pid : Bytes} {s : System}
    (fresh : FreshStart opts pid s) : LiveInvariant opts pid s where
  live := fresh.live
  liveOn := fresh.liveOn
  stored := by
    rw [fresh.row]
    simp [recount, Chain.app, fresh.noCommitted]
  txTally := fresh.txRow
  pending := by
    rw [filter_pid_eq_nil fresh.noPending, poolInner_eq_nil fresh.noPool]
    exact List.Perm.nil
  pooled := by rw [poolInner_eq_nil fresh.noPool]; exact fun e he => nomatch he
  poolKeys := fresh.poolKeys
  innerKeys := by rw [poolInner_eq_nil fresh.noPool]; exact List.nodup_nil
  pendingKeys := fresh.pendingKeys
  committedKeys := fresh.committedKeys

/-- The process `[1]` of `oneQuestion`, created live with no ballot. -/
def freshOneQuestion : System :=
  ⟨chainOneQuestion, { Indexer.new dbOneQuestion false with liveResultsProcs := [[1]] }⟩

/-- Block 1: a ballot choosing `0`; block 2: its overwrite choosing `1`. -/
def acceptedOverwrite : List Event :=
  [.vote ⟨[1], [9], 1, some [0], [], some 1, 0, []⟩ 0, .commit,
   .vote ⟨[1], [9], 2, some [1], [], some 1, 1, []⟩ 0, .commit]

example : (freshOneQuestion.run acceptedOverwrite).idx.storedResults [1] = some ⟨[[0, 1]], 1⟩ := by
  decide

/-- A committed ballot as the recount reads it: its package and its weight. -/
def StateDBVote.ballot (q : StateDBVote) : VotePackage × Option Int :=
  (q.votePackage, some (setBytes q.weight))

theorem tallyBallots_eq (opts : ProcessVoteOptions) (votes : List StateDBVote) :
    tallyBallots opts votes = (votes.map StateDBVote.ballot).foldl (tallyStep opts)
      (Results.empty opts) := by
  rw [List.foldl_map]
  rfl

/-- The recount reads only the committed ballots' packages and weights, in any order. -/
theorem recount_congr {c₁ c₂ : Chain} (opts : ProcessVoteOptions) {pid : Bytes}
    (h : ((c₁.committedVotes pid).map StateDBVote.ballot).Perm
      ((c₂.committedVotes pid).map StateDBVote.ballot)) :
    recount c₁.app opts pid = recount c₂.app opts pid := by
  have hlen : (c₁.committedVotes pid).length = (c₂.committedVotes pid).length := by
    simpa using h.length_eq
  simp only [recount, Chain.app]
  cases h₁ : c₁.committedVotes pid with
  | nil =>
    cases h₂ : c₂.committedVotes pid with
    | nil => rfl
    | cons => simp [h₁, h₂] at hlen
  | cons v vs =>
    cases h₂ : c₂.committedVotes pid with
    | nil => simp [h₁, h₂] at hlen
    | cons w ws =>
      rw [h₁, h₂] at h
      dsimp only
      rw [tallyBallots_eq, tallyBallots_eq, foldl_tallyStep_perm opts h]

/-- One block: the overwrite's choice `1` voted directly. -/
def directVote : List Event :=
  [.vote ⟨[1], [9], 1, some [1], [], some 1, 0, []⟩ 0, .commit]

theorem filter_foldr_assocSet_of_ne (pid : Bytes) (c : Assoc (Bytes × Bytes) StateDBVote) :
    ∀ (pending : Assoc (Bytes × Bytes) StateDBVote), (∀ e ∈ pending, e.1.1 ≠ pid) →
      (pending.foldr (fun e m => assocSet m e.1 e.2) c).filter (fun e => decide (e.1.1 = pid)) =
        c.filter fun e => decide (e.1.1 = pid)
  | [], _ => rfl
  | e :: pending, h => by
    rw [List.foldr_cons, filter_assocSet_pid, if_neg (h e (List.mem_cons_self _ _))]
    exact filter_foldr_assocSet_of_ne pid c pending fun e he => h e (List.mem_cons_of_mem _ he)

/-- Before the creation of process `pid`: live results on, no row of `pid` in the block
transaction, and no ballot of `pid` committed, in the block in progress or pooled. -/
structure NewProcessStart (pid : Bytes) (s : System) : Prop where
  liveOn : s.idx.ignoreLiveResults = false
  noRow : assocGet s.idx.txDb.processes pid = none
  noCommitted : s.chain.committedVotes pid = []
  noPending : ∀ e ∈ s.chain.pending, e.1.1 ≠ pid
  noPool : assocGet s.idx.votePool pid = none
  poolKeys : KeysNodup s.idx.votePool
  committedKeys : KeysNodup s.chain.committed

/-- `OnProcess` on the synced chain, then the block's commit, start a process live with
the zero tally. -/
theorem NewProcessStart.freshStart {pid : Bytes} {s : System} (start : NewProcessStart pid s)
    (c : ChainProcess) :
    FreshStart c.voteOpts pid ((s.step (.process pid c)).step .commit) where
  live := by simp [System.step, Indexer.commit, Indexer.commitTx, Chain.app]
  liveOn := by simpa [System.step, Indexer.commit, Indexer.commitTx] using start.liveOn
  row := by
    show (commitWrites _ (s.idx.onProcess (s.chain.newProcess pid c).app pid)
      ((s.chain.newProcess pid c).height + 1)).tallyOf pid = _
    rw [tallyOf_commitWrites _ _ _ _ (by simpa using start.poolKeys)]
    simp [start.noPool, newEmptyProcess, Chain.app, Chain.newProcess, assocInsert, start.noRow,
      Db.tallyOf, assocGet_append_of_none start.noRow, ProcessRow.ofChain]
  txRow := rfl
  noCommitted := by
    show ((s.chain.pending.foldr (fun e m => assocSet m e.1 e.2) s.chain.committed).filter
      fun e => decide (e.1.1 = pid)).map Prod.snd = []
    rw [filter_foldr_assocSet_of_ne pid _ _ start.noPending]
    exact start.noCommitted
  noPending := nofun
  noPool := rfl
  poolKeys := List.nodup_nil
  pendingKeys := List.nodup_nil
  committedKeys := keysNodup_foldr_assocSet start.committedKeys _

/-- A chain and an indexer with no process yet. -/
def emptySystem : System :=
  ⟨⟨0, [], [], [], [], []⟩, Indexer.new Db.empty false⟩

/-- A block boundary for `pid` with live results on: `pid`'s committed row has vote
options `opts` and no final results, the open transaction changed no process row,
and `pid` has a committed ballot and none in the block in progress or the pool. -/
structure HandOverStart (opts : ProcessVoteOptions) (pid : Bytes) (s : System) : Prop where
  liveOn : s.idx.ignoreLiveResults = false
  row : ∃ row, assocGet s.idx.db.processes pid = some row ∧ row.voteOpts = opts ∧
    row.finalResults = false
  txRow : assocGet s.idx.txDb.processes pid = assocGet s.idx.db.processes pid
  ballots : s.chain.committedVotes pid ≠ []
  noPending : ∀ e ∈ s.chain.pending, e.1.1 ≠ pid
  noPool : assocGet s.idx.votePool pid = none
  poolKeys : KeysNodup s.idx.votePool
  pendingKeys : KeysNodup s.chain.pending
  committedKeys : KeysNodup s.chain.committed

/-- The bootstrap at such a boundary establishes the invariant. -/
theorem HandOverStart.bootstrap {opts : ProcessVoteOptions} {pid : Bytes} {s : System}
    (start : HandOverStart opts pid s) : LiveInvariant opts pid (s.step .bootstrap) := by
  obtain ⟨row, hrow, hopts, notFinal⟩ := start.row
  have hdb : s.idx.db.tallyOf pid = some (opts, row.results) := by simp [Db.tallyOf, hrow, hopts]
  have listed : pid ∈ liveProcessIDs s.idx.txDb :=
    List.mem_map_of_mem Prod.fst (List.mem_filter.mpr
      ⟨mem_of_assocGet (start.txRow.trans hrow), by simp [notFinal]⟩)
  obtain ⟨handed, noTx, pool, liveOn, -⟩ := s.bootstrap_handedOver start.liveOn hdb
    (by simp [Db.tallyOf, start.txRow, hrow]) (Or.inr listed)
  have ballots : ∃ votes, s.chain.app.iterateVotes pid = .ok votes := by
    cases h : s.chain.committedVotes pid with
    | nil => exact absurd h start.ballots
    | cons v vs => exact ⟨v :: vs, by simp [Chain.app, h]⟩
  have noInner := poolInner_eq_nil start.noPool
  exact {
    live := handed.2 ballots
    liveOn := liveOn
    stored := by rw [← Indexer.txDb_eq_db noTx]; exact handed.1
    txTally := by rw [Indexer.txDb_eq_db noTx]
    pending := by
      show (s.chain.pending.filter fun e => decide (e.1.1 = pid)).Perm _
      rw [pool, noInner, filter_pid_eq_nil start.noPending]
      exact List.Perm.nil
    pooled := by rw [pool, noInner]; exact fun e he => nomatch he
    poolKeys := by rw [pool]; exact start.poolKeys
    innerKeys := by rw [pool, noInner]; exact List.nodup_nil
    pendingKeys := start.pendingKeys
    committedKeys := start.committedKeys }

/-- The process `[1]` with a committed ballot choosing `0`, not yet live, its stored
results still zero. -/
def syncedOneQuestion : System :=
  ⟨{ chainOneQuestion with
      committed := [(([1], [9]), ⟨[1], [9], some [0], bigIntBytes 1, 0⟩)] },
    Indexer.new dbOneQuestion false⟩

/-- After the bootstrap, an overwrite choosing `1` in the next block. -/
def overwriteAfterSync : List Event :=
  [.vote ⟨[1], [9], 2, some [1], [], some 1, 1, []⟩ 0, .commit]

end Vocdoni.Vochain
