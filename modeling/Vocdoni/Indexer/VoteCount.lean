import Vocdoni.Indexer.LiveTally
import Vocdoni.Indexer.CommitOrder

/-!
# Vote counts

`OnVote` writes a `votes` row for every ballot, pooled or not, and marks its process
in `blockUpdateProcVoteCounts`; `Commit` then stores, as the vote count of every
marked process, `COUNT(DISTINCT nullifier)` of its rows (`distinctVoters`). No other
write touches a vote count or the `votes` table.

So between any two events every process row has its number of distinct voters as vote
count, except the processes marked in the block in progress (`CountsAgree`), and after
every commit none is marked. The exception is real: the bootstrap commits the block
transaction in the middle of a block, with the rows of its ballots and the counts of
the previous commit.

Proof strategy: `VoteCountInv` holds in the committed database and in the block
transaction alike; one lemma per event (`VoteCountInv.vote`, `.process`, `.change`,
`.write` for the account and token events, `.commit`, `.bootstrap`, `.reindex`), and
the run lemma `System.run_invariant`.

* `vote_counts_match_votes` — on every run of the chain's events, after every event,
  and for every process after every commit, the stored vote count is the number of
  distinct nullifiers of the process's `votes` rows.
-/

namespace Vocdoni.Vochain

open Vocdoni.Tally

/-- `COUNT(DISTINCT nullifier)` of a process's rows in the `votes` table. -/
def Db.distinctVoters (db : Db) (pid : Bytes) : Nat :=
  countDistinct ((db.votes.filter fun r => decide (r.processId = pid)).map (·.nullifier))

theorem computeProcessVoteCount_eq (pid : Bytes) (db : Db) :
    computeProcessVoteCount pid db =
      { db with
        processes := assocUpdate db.processes pid fun row =>
          { row with voteCount := db.distinctVoters pid } } := rfl

/-- Every process row outside `marked` has its number of distinct voters as vote count. -/
def CountsAgree (db : Db) (marked : List Bytes) : Prop :=
  ∀ pid row, assocGet db.processes pid = some row → pid ∉ marked →
    row.voteCount = db.distinctVoters pid

/-! ## Writes that keep the counts -/

theorem CountsAgree.congr {db db' : Db} {marked : List Bytes} (h : CountsAgree db marked)
    (processes : db'.processes = db.processes) (votes : db'.votes = db.votes) :
    CountsAgree db' marked := by
  intro pid row hrow hp
  rw [processes] at hrow
  rw [Db.distinctVoters, votes]
  exact h pid row hrow hp

theorem CountsAgree.mono {db : Db} {marked marked' : List Bytes} (h : CountsAgree db marked)
    (sub : ∀ p ∈ marked, p ∈ marked') : CountsAgree db marked' :=
  fun pid row hrow hp => h pid row hrow fun hm => hp (sub pid hm)

/-- An update of a row that keeps its vote count keeps the counts. -/
theorem CountsAgree.update {db : Db} {marked : List Bytes} (h : CountsAgree db marked)
    (p : Bytes) (f : ProcessRow → ProcessRow) (keep : ∀ row, (f row).voteCount = row.voteCount) :
    CountsAgree { db with processes := assocUpdate db.processes p f } marked := by
  intro pid row hrow hp
  simp only [assocGet_assocUpdate] at hrow
  split at hrow
  · obtain ⟨row₀, h₀, rfl⟩ := Option.map_eq_some'.mp hrow
    rw [keep]
    exact h pid row₀ h₀ hp
  · exact h pid row hrow hp

/-- Recounting a marked process unmarks it. -/
theorem CountsAgree.unmark {db : Db} {p : Bytes} {marked : List Bytes}
    (h : CountsAgree db (p :: marked)) : CountsAgree (computeProcessVoteCount p db) marked := by
  intro pid row hrow hp
  rw [computeProcessVoteCount_eq] at hrow ⊢
  simp only [assocGet_assocUpdate] at hrow
  split at hrow
  · obtain ⟨_, -, rfl⟩ := Option.map_eq_some'.mp hrow
    subst_vars
    rfl
  · rename_i hne
    exact h pid row hrow (by simp [Ne.symm hne, hp])

theorem CountsAgree.unmarkAll :
    ∀ (marked : List Bytes) {db : Db}, CountsAgree db marked →
      CountsAgree (marked.foldl (fun db pid => computeProcessVoteCount pid db) db) []
  | [], _, h => h
  | _ :: marked, _, h => CountsAgree.unmarkAll marked h.unmark

theorem updateProcess_votes (app : App) (pid : Bytes) (db : Db) :
    ((updateProcess app pid db).getD db).votes = db.votes := by
  unfold updateProcess; split <;> rfl

theorem commitProcessVotes_votes (app : App) (pid : Bytes) (votes : Assoc Bytes Vote) (db : Db) :
    (commitProcessVotes app pid votes db).votes = db.votes := by
  rw [commitProcessVotes_eq]

theorem commitWrites_votes (app : App) (idx : Indexer) (height : Nat) :
    (commitWrites app idx height).votes = idx.txDb.votes := by
  unfold commitWrites
  dsimp only
  rw [foldl_eq_of_step Db.votes (fun db pid => (rfl : (computeProcessVoteCount pid db).votes = _)),
    foldl_eq_of_step Db.votes
      (fun db (e : Bytes × Assoc Bytes Vote) => commitProcessVotes_votes app e.1 e.2 db),
    foldl_eq_of_step Db.votes (fun db pid => updateProcess_votes app pid db)]
  cases app.getBlockByHeight height <;> rfl

/-- `Commit`'s writes keep the counts outside the marked processes, and recount those. -/
theorem CountsAgree.commit (app : App) (idx : Indexer) (height : Nat)
    (h : CountsAgree idx.txDb idx.blockUpdateProcVoteCounts) :
    CountsAgree (commitWrites app idx height) [] := by
  unfold commitWrites
  dsimp only
  refine CountsAgree.unmarkAll _
    (foldl_of_step (CountsAgree · _) (fun _ e h => ?_) _ _
      (foldl_of_step (CountsAgree · _) (fun db p h => ?_) _ _ ?_))
  · rw [commitProcessVotes_eq]
    exact h.update e.1 _ fun _ => rfl
  · unfold updateProcess
    split
    · exact h.update p _ fun _ => rfl
    · exact h
  · cases app.getBlockByHeight height with
    | some b => exact h.congr rfl rfl
    | none => exact h

/-- A new row with no vote yet and no `votes` row of its process keeps the counts. -/
theorem CountsAgree.insert {db : Db} {marked : List Bytes} (h : CountsAgree db marked)
    (pid : Bytes) (row : ProcessRow) (zero : row.voteCount = 0)
    (noRows : ∀ r ∈ db.votes, r.processId ≠ pid) :
    CountsAgree { db with processes := assocInsert db.processes pid row } marked := by
  intro q r hr hq
  show r.voteCount = db.distinctVoters q
  by_cases hp : pid = q
  · subst hp
    unfold assocInsert at hr
    split at hr
    · exact h pid r hr hq
    · rename_i absent
      change assocGet (db.processes ++ [(pid, row)]) pid = some r at hr
      rw [assocGet_append_of_none (Option.not_isSome_iff_eq_none.mp absent)] at hr
      cases hr
      have : db.votes.filter (fun r => decide (r.processId = pid)) = [] :=
        List.filter_eq_nil_iff.mpr fun r hr => by simpa using noRows r hr
      simp [zero, Db.distinctVoters, this, countDistinct]
  · rw [assocGet_assocInsert_of_ne _ hp] at hr
    exact h q r hr hq

theorem Indexer.bootstrapProcess_marked (app : App) (idx : Indexer) (p : Bytes) :
    (idx.bootstrapProcess app p).blockUpdateProcVoteCounts = idx.blockUpdateProcVoteCounts := by
  unfold Indexer.bootstrapProcess
  split
  · rfl
  · dsimp only; split <;> rfl

/-- A step of the bootstrap loop writes results only. -/
theorem Indexer.bootstrapProcess_counts (app : App) (idx : Indexer) (p : Bytes)
    {marked : List Bytes} (h : CountsAgree idx.txDb marked) :
    CountsAgree (idx.bootstrapProcess app p).txDb marked ∧
      (idx.bootstrapProcess app p).txDb.votes = idx.txDb.votes := by
  unfold Indexer.bootstrapProcess
  split
  · exact ⟨h, rfl⟩
  · rename_i process _
    dsimp only
    have reset : CountsAgree (updateProcessResultByID p (Results.empty process.voteOpts)
        process.voteOpts idx.txDb) marked := h.update p _ fun _ => rfl
    split
    · exact ⟨reset, rfl⟩
    · exact ⟨reset.update p _ fun _ => rfl, rfl⟩

/-! ## The invariant -/

/-- What holds between any two events: the counts agree outside the processes marked
in the block in progress, committed and in the block transaction alike, and every
`votes` row is of a process of the chain. -/
structure VoteCountInv (s : System) : Prop where
  committed : CountsAgree s.idx.db s.idx.blockUpdateProcVoteCounts
  pending : CountsAgree s.idx.txDb s.idx.blockUpdateProcVoteCounts
  known : ∀ r ∈ s.idx.txDb.votes, r.processId ∈ s.chain.processes.map Prod.fst

/-- The events the chain makes: a ballot of a process it has, a process of a new id,
any change of a process, account or token event, commit or bootstrap, and a reindex,
each with its `blockTx.Commit()` succeeding. A failed commit and a rollback drop the
block transaction and its marks, while the committed database may hold the block's
ballots with the counts of the previous commit, committed by a bootstrap in the
middle of the block. -/
def chainEvent (s : System) : Event → Bool
  | .vote v _ => decide (v.processId ∈ s.chain.processes.map Prod.fst)
  | .process pid _ => !decide (pid ∈ s.chain.processes.map Prod.fst)
  | .change _ _ _ => true
  | .setAccount _ _ _ => true
  | .transferTokens _ => true
  | .spendTokens _ _ _ _ => true
  | .commit => true
  | .failedCommit => false
  | .rollback => false
  | .bootstrap => true
  | .reindex _ _ txOk => txOk

section Steps

variable {s : System}

theorem VoteCountInv.vote (inv : VoteCountInv s) (v : Vote) (t : Nat)
    (known : v.processId ∈ s.chain.processes.map Prod.fst) :
    VoteCountInv (s.step (.vote v t)) := by
  obtain ⟨row, hrow, hvotes⟩ := s.idx.onVote_txDb_votes v t
  have marked : ∀ p ∈ s.idx.blockUpdateProcVoteCounts,
      p ∈ keySetAdd s.idx.blockUpdateProcVoteCounts v.processId := fun p hp => by simp [hp]
  refine ⟨?_, ?_, ?_⟩
  · show CountsAgree (s.idx.onVote v t).db (s.idx.onVote v t).blockUpdateProcVoteCounts
    rw [Indexer.onVote_db, Indexer.onVote_blockUpdateProcVoteCounts]
    exact inv.committed.mono marked
  · show CountsAgree (s.idx.onVote v t).txDb (s.idx.onVote v t).blockUpdateProcVoteCounts
    rw [Indexer.onVote_blockUpdateProcVoteCounts]
    intro pid r hr hp
    have hne : row.processId ≠ pid := fun h => hp (by simp [← h, hrow])
    rw [Indexer.onVote_txDb_processes] at hr
    rw [Db.distinctVoters, hvotes, List.filter_append, List.filter_singleton]
    simp only [hne, decide_False, cond_false, List.append_nil]
    exact inv.pending pid r hr fun hm => hp (marked pid hm)
  · intro r hr
    rw [show (s.step (.vote v t)).idx.txDb.votes = _ from hvotes] at hr
    rcases List.mem_append.mp hr with hr | hr
    · exact inv.known r hr
    · rw [List.mem_singleton.mp hr, hrow]
      exact known

theorem VoteCountInv.process (inv : VoteCountInv s) (pid : Bytes) (c : ChainProcess)
    (fresh : pid ∉ s.chain.processes.map Prod.fst) : VoteCountInv (s.step (.process pid c)) := by
  have grow : ∀ q ∈ s.chain.processes.map Prod.fst,
      q ∈ (s.chain.newProcess pid c).processes.map Prod.fst :=
    fun _ hq => (mem_keys_assocSet _ _ _ _).mpr (.inr hq)
  refine ⟨?_, ?_, ?_⟩
  · simpa [System.step] using inv.committed
  · simp only [System.step, Indexer.onProcess_txDb, Indexer.onProcess_blockUpdateProcVoteCounts]
    unfold newEmptyProcess
    split
    · exact inv.pending.insert pid _ rfl fun r hr h => fresh (h ▸ inv.known r hr)
    · exact inv.pending
  · intro r hr
    simp only [System.step, Indexer.onProcess_txDb] at hr
    unfold newEmptyProcess at hr
    exact grow _ (inv.known r (by split at hr <;> exact hr))

theorem VoteCountInv.change (inv : VoteCountInv s) (pid : Bytes) (c : ChainProcess)
    (cb : Callback) : VoteCountInv (s.step (.change pid c cb)) := by
  simp only [System.step, Callback.call_eq]
  exact ⟨inv.committed, inv.pending,
    fun r hr => (mem_keys_assocSet _ _ _ _).mpr (.inr (inv.known r hr))⟩

theorem VoteCountInv.commit (inv : VoteCountInv s) : VoteCountInv (s.step .commit) where
  committed := inv.pending.commit s.chain.app s.idx (s.chain.height + 1)
  pending := inv.pending.commit s.chain.app s.idx (s.chain.height + 1)
  known := by
    intro r hr
    rw [show (s.step .commit).idx.txDb.votes = _ from
      commitWrites_votes s.chain.app s.idx (s.chain.height + 1)] at hr
    exact inv.known r hr

theorem VoteCountInv.bootstrap (inv : VoteCountInv s) : VoteCountInv (s.step .bootstrap) := by
  show VoteCountInv ⟨s.chain, s.idx.afterSyncBootstrap s.chain.app true⟩
  unfold Indexer.afterSyncBootstrap
  split
  · exact inv
  · have counts := foldl_of_step (fun i => CountsAgree i.txDb s.idx.blockUpdateProcVoteCounts ∧
        i.txDb.votes = s.idx.txDb.votes)
      (fun i p h => ⟨(i.bootstrapProcess_counts s.chain.app p h.1).1,
        (i.bootstrapProcess_counts s.chain.app p h.1).2.trans h.2⟩) (liveProcessIDs s.idx.txDb) s.idx
      ⟨inv.pending, rfl⟩
    have marked := foldl_eq_of_step Indexer.blockUpdateProcVoteCounts
      (Indexer.bootstrapProcess_marked s.chain.app) (liveProcessIDs s.idx.txDb) s.idx
    refine ⟨?_, ?_, fun r hr => inv.known r ?_⟩
    · simp only [Indexer.commitTx_db, Indexer.commitTx_blockUpdateProcVoteCounts, if_true, marked]
      exact counts.1
    · simp only [Indexer.commitTx_txDb, Indexer.commitTx_blockUpdateProcVoteCounts, if_true, marked]
      exact counts.1
    · simp only [Indexer.commitTx_txDb, if_true] at hr
      exact counts.2 ▸ hr

/-- An account or token event: a write through the block transaction that leaves the
process rows and the `votes` table alone. -/
theorem VoteCountInv.write (inv : VoteCountInv s) {f : Db → Db}
    (processes : ∀ db, (f db).processes = db.processes) (votes : ∀ db, (f db).votes = db.votes) :
    VoteCountInv ⟨s.chain, s.idx.write f⟩ :=
  ⟨inv.committed, inv.pending.congr (processes _) (votes _),
    fun r hr => inv.known r (votes s.idx.txDb ▸ hr)⟩

/-- A reindex whose commits succeed keeps the process rows and the `votes` table of the
block transaction, and commits them or leaves the committed ones. -/
theorem VoteCountInv.reindex (inv : VoteCountInv s) (store : Option BlockStore)
    (codec : TxCodec) : VoteCountInv (s.step (.reindex store codec true)) := by
  have rows := Indexer.reindexBlocks_view (fun db => (db.processes, db.votes)) (fun _ _ => rfl)
    (fun _ _ _ => rfl) s.chain.app store codec s.idx
  have marks : (s.idx.reindexBlocks s.chain.app store codec true).1.blockUpdateProcVoteCounts =
      s.idx.blockUpdateProcVoteCounts :=
    (congrArg Indexer.blockUpdateProcVoteCounts
      (Indexer.reindexBlocks_scratch s.chain.app store codec true s.idx) :)
  have tx := Prod.mk.inj rows.1
  have db : CountsAgree (s.idx.reindexBlocks s.chain.app store codec true).1.db
      s.idx.blockUpdateProcVoteCounts :=
    rows.2.elim (fun h => inv.committed.congr (Prod.mk.inj h).1 (Prod.mk.inj h).2)
      (fun h => inv.pending.congr (Prod.mk.inj h).1 (Prod.mk.inj h).2)
  exact ⟨marks ▸ db, marks ▸ inv.pending.congr tx.1 tx.2, fun r hr => inv.known r (tx.2 ▸ hr)⟩

theorem VoteCountInv.step (inv : VoteCountInv s) (e : Event) (ok : chainEvent s e = true) :
    VoteCountInv (s.step e) := by
  cases e with
  | vote v t => exact inv.vote v t (by simpa [chainEvent] using ok)
  | process pid c => exact inv.process pid c (by simpa [chainEvent] using ok)
  | change pid c cb => exact inv.change pid c cb
  | setAccount address balance nonce => exact inv.write (fun _ => rfl) fun _ => rfl
  | transferTokens tx => exact inv.write (fun _ => rfl) fun _ => rfl
  | spendTokens address txType cost reference => exact inv.write (fun _ => rfl) fun _ => rfl
  | commit => exact inv.commit
  | failedCommit => exact absurd ok Bool.false_ne_true
  | rollback => exact absurd ok Bool.false_ne_true
  | bootstrap => exact inv.bootstrap
  | reindex store codec txOk =>
    obtain rfl : txOk = true := ok
    exact inv.reindex store codec

end Steps

/-- **Vote counts.** On every run of the chain's events from a state where the
invariant holds: after every event, every process row of the committed database has
its number of distinct voters as vote count, except the processes with a ballot in
the block in progress; and after every commit, every process row. -/
theorem vote_counts_match_votes (s : System) (es : List Event) (start : VoteCountInv s)
    (good : System.runOK chainEvent s es = true) :
    CountsAgree (s.run es).idx.db (s.run es).idx.blockUpdateProcVoteCounts ∧
      CountsAgree ((s.run es).step .commit).idx.db [] := by
  have inv := System.run_invariant VoteCountInv chainEvent (fun _ e inv ok => inv.step e ok) s es
    start good
  exact ⟨inv.committed, inv.commit.committed⟩

/-- No process and no row. -/
def emptyChainIndexer : System :=
  ⟨⟨0, [], [], [], [], []⟩, Indexer.new Db.empty false⟩

/-- Two questions with values `0` and `1`. -/
def twoQuestions : ProcessVoteOptions := ⟨2, 1, false, 10, 1⟩

/-- A process of `twoQuestions` created, then a block each for: a ballot of weight 5
choosing `[1, 0]`; its overwrite choosing `[0, 1]`; a second voter's ballot of weight
2 choosing `[1, 1]`; a third voter's ballot choosing the value `2`, out of range. -/
def fiveBlocks : List Event :=
  [.process [1] ⟨twoQuestions, 0, [], 100, false, none⟩, .commit,
   .vote ⟨[1], [1], 2, some [1, 0], [], some 5, 0, []⟩ 0, .commit,
   .vote ⟨[1], [1], 3, some [0, 1], [], some 5, 1, []⟩ 0, .commit,
   .vote ⟨[1], [2], 4, some [1, 1], [], some 2, 0, []⟩ 0, .commit,
   .vote ⟨[1], [3], 5, some [2, 0], [], some 1, 0, []⟩ 0, .commit]

/-- `vote_counts_match_votes` on `fiveBlocks`. -/
theorem vote_counts_match_votes_five_blocks :
    VoteCountInv emptyChainIndexer ∧ System.runOK chainEvent emptyChainIndexer fiveBlocks = true ∧
      CountsAgree (emptyChainIndexer.run fiveBlocks).idx.db
        (emptyChainIndexer.run fiveBlocks).idx.blockUpdateProcVoteCounts ∧
      CountsAgree ((emptyChainIndexer.run fiveBlocks).step .commit).idx.db [] := by
  have start : VoteCountInv emptyChainIndexer :=
    ⟨(fun _ _ h => nomatch h), (fun _ _ h => nomatch h), (fun _ h => nomatch h)⟩
  have good : System.runOK chainEvent emptyChainIndexer fiveBlocks = true := by decide
  exact ⟨start, good, vote_counts_match_votes _ _ start good⟩

/-- The stored results and vote count after `fiveBlocks`: the out-of-range ballot is
not tallied, and counted. -/
example :
    (assocGet (emptyChainIndexer.run fiveBlocks).idx.db.processes [1]).map
      (fun row => (row.results, row.voteCount)) = some (⟨[[5, 2], [0, 7]], 7⟩, 3) := by
  decide

/-- A bootstrap in the middle of a block commits the block's `votes` row with the vote
count of the previous commit. -/
example :
    (assocGet ((emptyChainIndexer.run (fiveBlocks.take 3)).step .bootstrap).idx.db.processes
        [1]).map (·.voteCount) = some 0 ∧
      ((emptyChainIndexer.run (fiveBlocks.take 3)).step .bootstrap).idx.db.distinctVoters [1] = 1 := by
  decide

end Vocdoni.Vochain
