import Vocdoni.Indexer.VoteCount

/-!
# Process rows mirror the chain

The process callbacks (`OnCancel`, `OnProcessKeys`, `OnRevealKeys`,
`OnProcessStatusChange`, `OnProcessDurationChange`, `OnProcessResults`,
`OnCensusUpdate`, `OnProcessesStart`) write nothing: they mark the process in
`blockUpdateProcs` (`Callback.call_eq`), and `Commit` re-reads every marked process
from the chain state (`updateProcess`) before it adds the block's ballots. What the
re-read copies (status, census root, end block, final results) is
`ProcessRow.mirrored`.

So between any two events every row of the block transaction is of a process of the
chain and mirrors it, unless the process is marked (`RowsMirror`); and a commit leaves
none marked. A run keeps this when every process it creates has a new id (an
`OnProcess` of a known id cannot replace the row) and every change of a process is
passed to a callback that marks it (`announcedEvent`): `OnRevealKeys` marks nothing
for a process without a key index.

Proof strategy: `RowsMirror` reads a database only through `Db.mirrorOf`, the mirrored
fields of every row. The writes of the ballots, of the vote counts, of the account and
token events, of the bootstrap and of a reindex keep `Db.mirrorOf`; the refresh of a
marked process makes its row mirror (`RowsMirror.refresh`); one lemma per event, and
the run lemma `System.run_invariant`.

* `RowsMirror.commitWrites` — `Commit`'s writes leave every row mirroring the chain;
* `rows_mirror_chain_after_commit` — on every run of announced events from rows that
  mirror the chain, after every event every unmarked row mirrors the chain, and after
  the commit every row of the committed database does.
-/

namespace Vocdoni.Vochain

open Vocdoni.Tally

/-! ## Mirrored fields -/

/-- The fields of a row that `updateProcess` copies from the chain state. -/
def ProcessRow.mirrored (row : ProcessRow) : Nat × Bytes × Nat × Bool :=
  (row.status, row.censusRoot, row.endBlock, row.finalResults)

/-- The same fields of a process of the chain state. -/
def ChainProcess.mirrored (p : ChainProcess) : Nat × Bytes × Nat × Bool :=
  (p.status, p.censusRoot, p.endBlock, p.finalResults)

/-- The mirrored fields of the row of every process that has one. -/
def Db.mirrorOf (db : Db) (pid : Bytes) : Option (Nat × Bytes × Nat × Bool) :=
  (assocGet db.processes pid).map ProcessRow.mirrored

theorem Db.mirrorOf_congr {db db' : Db} (h : db'.processes = db.processes) :
    db'.mirrorOf = db.mirrorOf := by
  unfold Db.mirrorOf; rw [h]

/-- An update of one row that keeps its mirrored fields keeps those of every row. -/
theorem mirrorOf_assocUpdate (db : Db) (pid : Bytes) {f : ProcessRow → ProcessRow}
    (hf : ∀ row, (f row).mirrored = row.mirrored) :
    ({ db with processes := assocUpdate db.processes pid f } : Db).mirrorOf = db.mirrorOf := by
  funext q
  simp only [Db.mirrorOf, assocGet_assocUpdate]
  split <;> simp [Option.map_map, Function.comp_def, hf]

theorem mirrorOf_commitVotesUnsafe (pid : Bytes) (results added : Results)
    (subtracted : Option Results) (height : Nat) (db : Db) :
    (commitVotesUnsafe pid results added subtracted height db).mirrorOf = db.mirrorOf :=
  mirrorOf_assocUpdate db pid fun _ => rfl

theorem mirrorOf_commitProcessVotes (app : App) (pid : Bytes) (votes : Assoc Bytes Vote)
    (db : Db) : (commitProcessVotes app pid votes db).mirrorOf = db.mirrorOf := by
  unfold commitProcessVotes
  split
  · rfl
  · exact mirrorOf_commitVotesUnsafe ..

theorem mirrorOf_computeProcessVoteCount (pid : Bytes) (db : Db) :
    (computeProcessVoteCount pid db).mirrorOf = db.mirrorOf :=
  mirrorOf_assocUpdate db pid fun _ => rfl

/-- A step of the bootstrap loop keeps the mirrored fields and the marks. -/
theorem Indexer.bootstrapProcess_mirrorOf (app : App) (idx : Indexer) (p : Bytes) :
    ((idx.bootstrapProcess app p).txDb.mirrorOf, (idx.bootstrapProcess app p).blockUpdateProcs) =
      (idx.txDb.mirrorOf, idx.blockUpdateProcs) := by
  have reset (r : Results) (opts : ProcessVoteOptions) (db : Db) :
      (updateProcessResultByID p r opts db).mirrorOf = db.mirrorOf :=
    mirrorOf_assocUpdate db p fun _ => rfl
  unfold Indexer.bootstrapProcess
  split
  · rfl
  · dsimp only
    split
    · exact Prod.ext (reset _ _ _) rfl
    · exact Prod.ext ((mirrorOf_commitVotesUnsafe p _ _ none _ _).trans (reset _ _ _)) rfl

/-- The refresh of `pid` in `Commit`: a row of `pid` takes the mirrored fields of the
process of the state, if there is one; every other row is as it was. -/
theorem mirrorOf_refresh (app : App) (pid : Bytes) (db : Db) (q : Bytes) :
    ((updateProcess app pid db).getD db).mirrorOf q =
      if q = pid then
        (db.mirrorOf q).map fun m => ((app.process pid).map ChainProcess.mirrored).getD m
      else db.mirrorOf q := by
  by_cases hq : q = pid
  · subst hq
    cases hp : app.process q <;> cases hr : assocGet db.processes q <;>
      simp [updateProcess, Db.mirrorOf, hp, hr, ProcessRow.mirrored, ChainProcess.mirrored]
  · cases hp : app.process pid <;> cases hr : assocGet db.processes pid <;>
      simp [updateProcess, Db.mirrorOf, hp, hr, hq, Ne.symm hq]

/-- `newEmptyProcess` of a process of the state without a row adds a row that
mirrors it. -/
theorem mirrorOf_newEmptyProcess {app : App} {pid : Bytes} {c : ChainProcess} {db : Db}
    (hp : app.process pid = some c) (noRow : assocGet db.processes pid = none) (q : Bytes) :
    (newEmptyProcess app pid db).mirrorOf q =
      if q = pid then some c.mirrored else db.mirrorOf q := by
  simp only [newEmptyProcess, hp, Db.mirrorOf]
  by_cases hqp : q = pid
  · subst hqp
    simp only [assocInsert, noRow, Option.isSome_none, Bool.false_eq_true, if_false, if_true,
      assocGet_append_of_none noRow, Option.map_some']
    rfl
  · rw [if_neg hqp, assocGet_assocInsert_of_ne _ (Ne.symm hqp)]

/-! ## The invariant -/

/-- Every row of `db` is of a process of `procs`, and mirrors it unless the process is
in `marked`. -/
def RowsMirror (procs : Assoc Bytes ChainProcess) (marked : List Bytes) (db : Db) : Prop :=
  ∀ pid m, db.mirrorOf pid = some m →
    ∃ p, assocGet procs pid = some p ∧ (pid ∈ marked ∨ m = p.mirrored)

section Writes

variable {procs : Assoc Bytes ChainProcess} {marked : List Bytes} {db : Db}

theorem RowsMirror.mono (h : RowsMirror procs marked db) {marked' : List Bytes}
    (hm : ∀ q ∈ marked, q ∈ marked') : RowsMirror procs marked' db := fun pid m hq =>
  (h pid m hq).imp fun _ ⟨hp, hor⟩ => ⟨hp, hor.imp_left (hm pid)⟩

theorem RowsMirror.congr (h : RowsMirror procs marked db) {db' : Db}
    (same : db'.mirrorOf = db.mirrorOf) : RowsMirror procs marked db' := by
  intro pid m hq
  rw [same] at hq
  exact h pid m hq

/-- A process the chain does not have has no row. -/
theorem RowsMirror.noRow (h : RowsMirror procs marked db) {pid : Bytes}
    (fresh : pid ∉ procs.map Prod.fst) : assocGet db.processes pid = none := by
  cases hr : assocGet db.processes pid with
  | none => rfl
  | some row =>
    obtain ⟨p, hp, -⟩ := h pid row.mirrored (by simp [Db.mirrorOf, hr])
    exact absurd (mem_keys_of_assocGet hp) fresh

/-- The refresh of a marked process makes its row mirror the chain. -/
theorem RowsMirror.refresh {c : Chain} {pid : Bytes}
    (h : RowsMirror c.processes (pid :: marked) db) :
    RowsMirror c.processes marked ((updateProcess c.app pid db).getD db) := by
  intro q m hq
  rw [mirrorOf_refresh] at hq
  by_cases hqp : q = pid
  · subst hqp
    rw [if_pos rfl] at hq
    obtain ⟨m₀, h₀, rfl⟩ := Option.map_eq_some'.mp hq
    obtain ⟨p, hp, -⟩ := h q m₀ h₀
    refine ⟨p, hp, Or.inr ?_⟩
    show ((assocGet c.processes q).map ChainProcess.mirrored).getD m₀ = p.mirrored
    rw [hp]; rfl
  · rw [if_neg hqp] at hq
    obtain ⟨p, hp, hor⟩ := h q m hq
    exact ⟨p, hp, hor.imp_left fun hin => (List.mem_cons.mp hin).resolve_left hqp⟩

/-- The refreshes of a list of processes clear their marks. -/
theorem RowsMirror.refreshAll {c : Chain} :
    ∀ (pids : List Bytes) {db : Db}, RowsMirror c.processes (pids ++ marked) db →
      RowsMirror c.processes marked
        (pids.foldl (fun db pid => (updateProcess c.app pid db).getD db) db)
  | [], _, h => h
  | _ :: pids, _, h => RowsMirror.refreshAll pids h.refresh

end Writes

/-- **`Commit`'s writes.** From a block transaction whose rows mirror the chain or are
marked, `Commit`'s writes leave every row mirroring the chain. -/
theorem RowsMirror.commitWrites {c : Chain} {idx : Indexer}
    (h : RowsMirror c.processes idx.blockUpdateProcs idx.txDb) (height : Nat) :
    RowsMirror c.processes [] (commitWrites c.app idx height) := by
  have sorted : RowsMirror c.processes
      ((idx.blockUpdateProcs.insertionSort fun a b : Bytes => bytesLe a b = true) ++ [])
        idx.txDb :=
    h.mono fun q hq => by
      simpa using (List.perm_insertionSort (fun a b : Bytes => bytesLe a b = true) _).symm.subset hq
  have block : (match c.app.getBlockByHeight height with
      | some b => createBlock b idx.txDb
      | none => idx.txDb).mirrorOf = idx.txDb.mirrorOf := by
    split <;> rfl
  refine (RowsMirror.refreshAll _ (sorted.congr block)).congr ?_
  exact (foldl_eq_of_step Db.mirrorOf
    (fun (db : Db) (pid : Bytes) => mirrorOf_computeProcessVoteCount pid db) _ _).trans
    (foldl_eq_of_step Db.mirrorOf (fun (db : Db) (e : Bytes × Assoc Bytes Vote) =>
      mirrorOf_commitProcessVotes c.app e.1 e.2 db) _ _)

/-! ## Runs -/

/-- Between any two events: every row of the block transaction mirrors its process of
the chain, unless the process is marked. -/
def MirrorInv (s : System) : Prop :=
  RowsMirror s.chain.processes s.idx.blockUpdateProcs s.idx.txDb

/-- The events that announce what they change: a process of a new id, and a change of
a process passed to a callback that marks it; any ballot, account or token event,
commit or bootstrap, and a reindex, each with its `blockTx.Commit()` succeeding. A
failed commit and a rollback drop the block transaction and its marks, while the
committed database may hold rows committed by a bootstrap in the middle of the block
before their refresh. -/
def announcedEvent (s : System) : Event → Bool
  | .vote _ _ => true
  | .process pid _ => !decide (pid ∈ s.chain.processes.map Prod.fst)
  | .change pid p cb => cb.marks (s.chain.setProcess pid p).app pid
  | .setAccount _ _ _ => true
  | .transferTokens _ => true
  | .spendTokens _ _ _ _ => true
  | .commit => true
  | .failedCommit => false
  | .rollback => false
  | .bootstrap => true
  | .reindex _ _ txOk => txOk

section Steps

variable {s : System}

theorem MirrorInv.vote (inv : MirrorInv s) (v : Vote) (t : Nat) :
    MirrorInv (s.step (.vote v t)) := by
  show RowsMirror s.chain.processes (s.idx.onVote v t).blockUpdateProcs (s.idx.onVote v t).txDb
  rw [Indexer.onVote_blockUpdateProcs]
  exact inv.congr (Db.mirrorOf_congr (Indexer.onVote_txDb_processes s.idx v t))

theorem MirrorInv.process (inv : MirrorInv s) (pid : Bytes) (c : ChainProcess)
    (fresh : pid ∉ s.chain.processes.map Prod.fst) : MirrorInv (s.step (.process pid c)) := by
  show RowsMirror (assocSet s.chain.processes pid c)
    (s.idx.onProcess (s.chain.newProcess pid c).app pid).blockUpdateProcs
    (s.idx.onProcess (s.chain.newProcess pid c).app pid).txDb
  rw [Indexer.onProcess_blockUpdateProcs, Indexer.onProcess_txDb]
  have hp : (s.chain.newProcess pid c).app.process pid = some c := by
    simp [Chain.app, Chain.newProcess]
  intro q m hq
  rw [mirrorOf_newEmptyProcess hp (inv.noRow fresh)] at hq
  by_cases hqp : q = pid
  · rw [if_pos hqp] at hq
    exact ⟨c, by simp [hqp], Or.inr (Option.some.inj hq).symm⟩
  · rw [if_neg hqp] at hq
    obtain ⟨p, hp, hor⟩ := inv q m hq
    exact ⟨p, by simp [Ne.symm hqp, hp], hor⟩

theorem MirrorInv.change (inv : MirrorInv s) (pid : Bytes) (c : ChainProcess) (cb : Callback)
    (marks : cb.marks (s.chain.setProcess pid c).app pid = true) :
    MirrorInv (s.step (.change pid c cb)) := by
  simp only [MirrorInv, System.step, Callback.call_eq, marks, if_true]
  intro q m hq
  obtain ⟨p, hp, hor⟩ := inv q m hq
  by_cases hqp : q = pid
  · exact ⟨c, by simp [Chain.setProcess, hqp], Or.inl (by simp [hqp])⟩
  · exact ⟨p, by simp [Chain.setProcess, Ne.symm hqp, hp], hor.imp_left fun h => by simp [h]⟩

theorem MirrorInv.commit (inv : MirrorInv s) : MirrorInv (s.step .commit) :=
  RowsMirror.commitWrites inv (s.chain.height + 1)

theorem MirrorInv.bootstrap (inv : MirrorInv s) : MirrorInv (s.step .bootstrap) := by
  show RowsMirror s.chain.processes (s.idx.afterSyncBootstrap s.chain.app true).blockUpdateProcs
    (s.idx.afterSyncBootstrap s.chain.app true).txDb
  unfold Indexer.afterSyncBootstrap
  split
  · exact inv
  · have frame := foldl_eq_of_step (fun i : Indexer => (i.txDb.mirrorOf, i.blockUpdateProcs))
      (Indexer.bootstrapProcess_mirrorOf s.chain.app) (liveProcessIDs s.idx.txDb) s.idx
    simp only [Indexer.commitTx_txDb, Indexer.commitTx_blockUpdateProcs, if_true,
      Prod.ext_iff] at frame ⊢
    rw [frame.2]
    exact inv.congr frame.1

/-- An account or token event leaves the process rows alone. -/
theorem MirrorInv.write (inv : MirrorInv s) {f : Db → Db}
    (hf : ∀ db, (f db).processes = db.processes) : MirrorInv ⟨s.chain, s.idx.write f⟩ :=
  inv.congr (Db.mirrorOf_congr (hf _))

/-- A reindex whose commits succeed keeps the process rows of the block transaction and
the marks. -/
theorem MirrorInv.reindex (inv : MirrorInv s) (store : Option BlockStore) (codec : TxCodec) :
    MirrorInv (s.step (.reindex store codec true)) := by
  have marks : (s.idx.reindexBlocks s.chain.app store codec true).1.blockUpdateProcs =
      s.idx.blockUpdateProcs :=
    (congrArg Indexer.blockUpdateProcs
      (Indexer.reindexBlocks_scratch s.chain.app store codec true s.idx) :)
  unfold MirrorInv
  exact marks ▸ inv.congr (Indexer.reindexBlocks_view Db.mirrorOf (fun _ _ => rfl)
    (fun _ _ _ => rfl) s.chain.app store codec s.idx).1

theorem MirrorInv.step (inv : MirrorInv s) (e : Event) (ok : announcedEvent s e = true) :
    MirrorInv (s.step e) := by
  cases e with
  | vote v t => exact inv.vote v t
  | process pid c => exact inv.process pid c (by simpa [announcedEvent] using ok)
  | change pid c cb => exact inv.change pid c cb ok
  | setAccount address balance nonce => exact inv.write fun _ => rfl
  | transferTokens tx => exact inv.write fun _ => rfl
  | spendTokens address txType cost reference => exact inv.write fun _ => rfl
  | commit => exact inv.commit
  | failedCommit => exact absurd ok Bool.false_ne_true
  | rollback => exact absurd ok Bool.false_ne_true
  | bootstrap => exact inv.bootstrap
  | reindex store codec txOk =>
    obtain rfl : txOk = true := ok
    exact inv.reindex store codec

end Steps

/-- **Process rows mirror the chain.** On every run of announced events from a state
where the invariant holds: after every event every row of the block transaction
mirrors its process of the chain, unless the process is marked; and after the commit
every row of the committed database mirrors its process. -/
theorem rows_mirror_chain_after_commit (s : System) (es : List Event) (start : MirrorInv s)
    (good : System.runOK announcedEvent s es = true) :
    MirrorInv (s.run es) ∧
      ∀ pid row, assocGet ((s.run es).step .commit).idx.db.processes pid = some row →
        ∃ p, assocGet ((s.run es).step .commit).chain.processes pid = some p ∧
          row.mirrored = p.mirrored := by
  have inv := System.run_invariant MirrorInv announcedEvent (fun _ e inv ok => inv.step e ok)
    s es start good
  refine ⟨inv, fun pid row hrow => ?_⟩
  have after : ((s.run es).step .commit).idx.txDb.mirrorOf pid = some row.mirrored := by
    show (assocGet ((s.run es).step .commit).idx.db.processes pid).map _ = _
    rw [hrow]; rfl
  obtain ⟨p, hp, hor⟩ := inv.commit pid row.mirrored after
  exact ⟨p, hp, hor.resolve_left (List.not_mem_nil pid)⟩

/-- A process of one question, open until block 10. -/
def openProcess : ChainProcess := ⟨⟨1, 1, false, 10, 1⟩, 1, [7], 10, false, none⟩

/-- The process created and committed, then ended at block 20 with a new census root,
announced by `OnProcessStatusChange`. -/
def endedProcess : List Event :=
  [.process [1] openProcess, .commit,
   .change [1] { openProcess with status := 3, censusRoot := [8], endBlock := 20 }
     .processStatusChange]

/-- `rows_mirror_chain_after_commit` on `endedProcess`, from no process and no row. -/
theorem rows_mirror_chain_after_commit_ended :
    MirrorInv emptyChainIndexer ∧
      System.runOK announcedEvent emptyChainIndexer endedProcess = true ∧
      (MirrorInv (emptyChainIndexer.run endedProcess) ∧
        ∀ pid row, assocGet ((emptyChainIndexer.run endedProcess).step .commit).idx.db.processes
            pid = some row →
          ∃ p, assocGet ((emptyChainIndexer.run endedProcess).step .commit).chain.processes
              pid = some p ∧ row.mirrored = p.mirrored) := by
  have start : MirrorInv emptyChainIndexer := fun _ _ h => nomatch h
  have good : System.runOK announcedEvent emptyChainIndexer endedProcess = true := by decide
  exact ⟨start, good, rows_mirror_chain_after_commit _ _ start good⟩

example : ((emptyChainIndexer.run endedProcess).step .commit).idx.db.mirrorOf [1] =
    some (3, [8], 20, false) := by
  decide

end Vocdoni.Vochain
