import Vocdoni.Indexer.Atomicity

/-!
# The statements a critical section issues

Every critical section changes the database only through a few SQL statements, run in
the block transaction, and through `blockTx.Commit()`, which makes the block
transaction the committed database or drops it:

* `CreateBlock` (`Commit`, the reindex) and the transaction row of `indexTx` (the
  reindex);
* the process row of `newEmptyProcess` (`OnProcess`), and the updates of a process
  row: `updateProcess`, `commitProcessVotes` and `ComputeProcessVoteCount` (`Commit`),
  the reset `UpdateProcessResultByID` and then `commitVotesUnsafe` (the bootstrap);
* the vote row of `OnVote`, the account row of `OnSetAccount`, the transfer row of
  `OnTransferTokens` and the fee row of `OnSpendTokens`.

`Statements R` says that every one of them relates the database it runs on to the one
it leaves, for a reflexive and transitive `R`: "has every row of", or, for an
invariant `P` of databases, `P a → P b`. Over every interleaving of the critical
sections the committed database is then related to the first one, and the block
transaction to the committed database (`Tracks`). The statements an event-sink call
can issue are the part `SinkStatements R`, which is all `SinkStatements.sink` needs.

Proof strategy: `Tracks` is kept by a write of a statement (`Tracks.write`) and by a
commit (`Tracks.commitTx`); each critical section is built from those two, the
bootstrap and the reindex through their own preservation lemmas.

* `Tracks.step` — every critical section keeps `Tracks R db₀`;
* `Tracks.runAt` — so does every interleaving, each section reading the state of the
  application at its own moment;
* `Indexer.runAt_keeps` — an invariant of databases that every statement keeps holds,
  after every interleaving, of the committed database and of the block transaction.
-/

namespace Vocdoni.Vochain

open Vocdoni.Tally

/-- A reflexive relation that every statement an event-sink call issues respects,
from the database the statement runs on to the one it leaves. -/
structure SinkStatements (R : Db → Db → Prop) : Prop where
  refl : ∀ db, R db db
  newEmptyProcess : ∀ app pid db, R db (newEmptyProcess app pid db)
  vote : ∀ row db, R db { db with votes := db.votes ++ [row] }
  setAccount : ∀ address row db, R db { db with accounts := assocUpsert db.accounts address row }
  transfer : ∀ row db, R db { db with tokenTransfers := db.tokenTransfers ++ [row] }
  fee : ∀ row db, R db { db with tokenFees := db.tokenFees ++ [row] }

/-- A relation that every statement of the indexer respects; transitive, so that it
composes over a critical section. -/
structure Statements (R : Db → Db → Prop) extends SinkStatements R : Prop where
  trans : ∀ {a b c}, R a b → R b c → R a c
  createBlock : ∀ b db, R db (createBlock b db)
  indexTx : ∀ key row db, R db { db with transactions := assocInsert db.transactions key row }
  updateProcess : ∀ app pid db, R db ((updateProcess app pid db).getD db)
  commitProcessVotes : ∀ app pid votes db, R db (commitProcessVotes app pid votes db)
  computeProcessVoteCount : ∀ pid db, R db (computeProcessVoteCount pid db)
  resetResults : ∀ pid opts db, R db (updateProcessResultByID pid (Results.empty opts) opts db)
  recount : ∀ pid opts votes height db,
    R (updateProcessResultByID pid (Results.empty opts) opts db)
      (commitVotesUnsafe pid (Results.empty opts) (tallyBallots opts votes) none height
        (updateProcessResultByID pid (Results.empty opts) opts db))

section Statements

variable {R : Db → Db → Prop}

/-- A fold of statements. -/
theorem Statements.foldl (hR : Statements R) {α : Type} {f : Db → α → Db}
    (hf : ∀ db x, R db (f db x)) (xs : List α) (db : Db) : R db (xs.foldl f db) :=
  foldl_of_step (R db) (fun _ x h => hR.trans h (hf _ x)) xs db (hR.refl db)

/-- `Commit`'s writes after the block row: the process refreshes, the live results
and the vote counts. -/
theorem Statements.commitWrites_of_block (hR : Statements R) (app : App) (idx : Indexer)
    (height : Nat) :
    R (match app.getBlockByHeight height with
        | some b => Vocdoni.Vochain.createBlock b idx.txDb
        | none => idx.txDb)
      (commitWrites app idx height) :=
  hR.trans (hR.trans (hR.foldl (fun db pid => hR.updateProcess app pid db) _ _)
    (hR.foldl (fun db (e : Bytes × Assoc Bytes Vote) => hR.commitProcessVotes app e.1 e.2 db)
      _ _))
    (hR.foldl (fun db pid => hR.computeProcessVoteCount pid db) _ _)

/-- `Commit`'s writes: the block row, then the rest. -/
theorem Statements.commitWrites (hR : Statements R) (app : App) (idx : Indexer)
    (height : Nat) : R idx.txDb (commitWrites app idx height) := by
  refine hR.trans ?_ (hR.commitWrites_of_block app idx height)
  split
  · exact hR.createBlock _ _
  · exact hR.refl _

/-- Every event-sink call issues one statement on the block transaction, or none. -/
theorem SinkStatements.sink (hR : SinkStatements R) (app : App) (idx : Indexer) (call : SinkCall) :
    R idx.txDb (call.apply app idx).txDb := by
  cases call with
  | onVote v t =>
    obtain ⟨row, -, h⟩ := idx.onVote_txDb v t
    rw [SinkCall.apply, h]
    exact hR.vote row _
  | onProcess pid =>
    rw [SinkCall.apply, Indexer.onProcess_txDb]
    exact hR.newEmptyProcess app pid _
  | onRevealKeys pid =>
    rw [SinkCall.apply]
    unfold Indexer.onRevealKeys
    split
    · split <;> exact hR.refl _
    · exact hR.refl _
  | onProcessesStart pids =>
    rw [SinkCall.apply, Indexer.onProcessesStart, @foldl_eq_of_step Indexer Bytes Db
      Indexer.txDb Indexer.markUpdateProc (fun _ _ => rfl) pids idx]
    exact hR.refl _
  | onSetAccount address balance nonce => exact hR.setAccount address _ _
  | onTransferTokens tx => exact hR.transfer _ _
  | onSpendTokens address txType cost reference => exact hR.fee _ _
  | _ => exact hR.refl _

end Statements

/-! ## Indexers -/

/-- The committed database is related to `db₀`, and the block transaction to the
committed database. -/
structure Tracks (R : Db → Db → Prop) (db₀ : Db) (idx : Indexer) : Prop where
  committed : R db₀ idx.db
  pending : R idx.db idx.txDb

section Tracks

variable {R : Db → Db → Prop} {db₀ : Db} {idx : Indexer}

/-- A statement, through the block transaction. -/
theorem Tracks.write (t : Tracks R db₀ idx) (hR : Statements R) {f : Db → Db}
    (hf : ∀ db, R db (f db)) : Tracks R db₀ (idx.write f) :=
  ⟨t.committed, hR.trans t.pending (hf _)⟩

/-- `blockTx.Commit()`, successful or not. -/
theorem Tracks.commitTx (t : Tracks R db₀ idx) (hR : Statements R) (ok : Bool) :
    Tracks R db₀ (idx.commitTx ok) := by
  cases ok
  · exact ⟨t.committed, hR.refl _⟩
  · exact ⟨hR.trans t.committed t.pending, hR.refl _⟩

theorem Tracks.bootstrapProcess (t : Tracks R db₀ idx) (hR : Statements R) (app : App)
    (pid : Bytes) : Tracks R db₀ (idx.bootstrapProcess app pid) := by
  unfold Indexer.bootstrapProcess
  split
  · exact t
  · dsimp only
    split
    · exact t.write hR (hR.resetResults pid _)
    · exact ⟨t.committed, hR.trans (hR.trans t.pending (hR.resetResults pid _ _))
        (hR.recount pid _ _ _ _)⟩

/-- **Step lemma.** Every critical section keeps `Tracks R db₀`. -/
theorem Tracks.step (t : Tracks R db₀ idx) (hR : Statements R) (app : App)
    (a : Action) : Tracks R db₀ (idx.step app a) := by
  cases a with
  | sink call =>
    have hdb := SinkCall.apply_db app idx call
    exact ⟨hdb ▸ t.committed, hdb ▸ hR.trans t.pending (hR.sink app idx call)⟩
  | commit height txOk optimizeOk =>
    have writes : Tracks R db₀ { idx with
        blockTx := some (commitWrites app idx height)
        votePool := []
        blockUpdateProcs := []
        blockUpdateProcVoteCounts := [] } :=
      ⟨t.committed, hR.trans t.pending (hR.commitWrites app idx height)⟩
    exact writes.commitTx hR txOk
  | rollback => exact ⟨t.committed, hR.refl _⟩
  | bootstrap txOk =>
    exact Indexer.afterSyncBootstrap_preserves (Tracks R db₀) app
      (fun _ pid t => t.bootstrapProcess hR app pid) (fun _ ok t => t.commitTx hR ok) idx txOk t
  | reindex store codec txOk =>
    exact Indexer.reindexBlocks_preserves (Tracks R db₀) txOk
      (fun _ b t => t.write hR (hR.createBlock b)) (fun _ _ _ _ _ t => t.write hR (hR.indexTx _ _))
      (fun _ t => t.commitTx hR txOk) app store codec idx t

/-- **Run lemma.** Every interleaving keeps `Tracks R db₀`, whatever state of the
application each of its sections reads. -/
theorem Tracks.runAt (hR : Statements R) :
    ∀ (ps : List (App × Action)) {idx : Indexer}, Tracks R db₀ idx → Tracks R db₀ (idx.runAt ps)
  | [], _, t => t
  | (app, a) :: ps, _, t => Tracks.runAt hR ps (t.step hR app a)

end Tracks

/-- **Invariants of the database.** A property that every statement keeps holds,
after every interleaving of critical sections, of the committed database and of the
block transaction, when it holds of both at the start. -/
theorem Indexer.runAt_keeps {P : Db → Prop} (hP : Statements fun a b => P a → P b)
    (ps : List (App × Action)) {idx : Indexer} (start : P idx.db ∧ P idx.txDb) :
    P (idx.runAt ps).db ∧ P (idx.runAt ps).txDb :=
  have t : Tracks (fun a b => P a → P b) idx.db (idx.runAt ps) :=
    Tracks.runAt hP ps ⟨fun h => h, fun _ => start.2⟩
  ⟨t.committed start.1, t.pending (t.committed start.1)⟩

/-- Every interleaving is the one of its prefix, then the rest. -/
theorem Indexer.run_append (app : App) (idx : Indexer) (as bs : List Action) :
    idx.run app (as ++ bs) = (idx.run app as).run app bs := by
  induction as generalizing idx with
  | nil => rfl
  | cons a as ih => exact ih (idx.step app a)

theorem Indexer.runAt_append (idx : Indexer) (ps qs : List (App × Action)) :
    idx.runAt (ps ++ qs) = (idx.runAt ps).runAt qs := by
  induction ps generalizing idx with
  | nil => rfl
  | cons p ps ih => exact ih (idx.step p.1 p.2)

end Vocdoni.Vochain
