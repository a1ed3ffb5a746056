import Vocdoni.Indexer.Commit

/-!
# `ReindexBlocks`

After a migration, `startDB` runs `ReindexBlocks` in its own goroutine. Once the
chain is synced, under `blockMu` and in the shared block transaction, it walks the
block store from its base to its height. For each available block it re-indexes the
block row (unless the indexed row's time differs) and then its transactions: the
first transaction whose indexed row (read on the read-only connection, that is,
committed) has another hash ends the block with `return`; one that does not unmarshal
is skipped with `continue`; the others go to `indexTx`. Every ten thousand blocks,
and at the end, it commits the transaction.

`nonConflictingTxCalls` is what re-dispatching every non-conflicting transaction would
call `indexTx` for, position by position: the dispatchable positions, those whose
transaction unmarshals and whose indexed row is absent or has its hash.

* `reindexTxs_calls` — the transaction loop of one block calls `indexTx` for the
  dispatchable positions of the block's conflict-free prefix, and for no other;
* `Indexer.reindexBlocks_calls` — over the whole block store, when the block store's
  heights are the blocks' own: the calls are those of every block's conflict-free
  prefix against the prior index, in height order;
* `reindex_conflict_drops_rest_of_block` — a conflict at a block's first transaction
  drops the block's second, which has no indexed row;
* `Indexer.reindexBlocks_preserves` — the reindex writes block rows and transaction
  rows and commits, and nothing else: what those three steps keep, it keeps;
* `Indexer.reindexBlocks_view` — so a view of the database that block and transaction
  rows leave alone, the process and vote tables say, is kept in the block transaction
  and committed.
-/

namespace Vocdoni.Vochain

/-- The chain node's block store, when neither the node nor its block store is nil. -/
structure BlockStore where
  base : Nat
  height : Nat
  deriving DecidableEq, Repr

/-- What the reindex reads of a transaction: `tx.Hash()`, and `vochaintx.Tx.Unmarshal`
with the block's chain id (the transaction's type, or none for an error). -/
structure TxCodec where
  hash : Bytes → Bytes
  unmarshal : Bytes → String → Option String

/-- Modelled from the spec: `indexTx` (not in this snapshot) inserts the transaction's
row, which fails (and is logged) when the position is indexed, and then dispatches
the transaction's payload to the event sink; the rows that dispatch rebuilds are
not modelled. -/
def Indexer.indexTx (idx : Indexer) (hash : Bytes) (txType : String) (height index : Nat) :
    Indexer :=
  idx.write fun db =>
    { db with transactions := assocInsert db.transactions (height, index) ⟨hash, txType⟩ }

/-- `err == nil && !bytes.Equal(idxTx.Hash, tx.Hash())`: the indexed row at the
position has another hash. -/
def conflicts (codec : TxCodec) (db : Db) (height index : Nat) (tx : Bytes) : Bool :=
  match assocGet db.transactions (height, index) with
  | some row => decide (row.hash ≠ codec.hash tx)
  | none => false

/-- The transaction loop of a block from position `index`, with the positions
`indexTx` is called for. The conflict check reads the committed database. -/
def reindexTxs (codec : TxCodec) (b : Block) : Nat → List Bytes → Indexer →
    Indexer × List (Nat × Nat)
  | _, [], idx => (idx, [])
  | index, tx :: txs, idx =>
    if conflicts codec idx.db b.height index tx then (idx, [])
    else
      match codec.unmarshal tx b.chainId with
      | none => reindexTxs codec b (index + 1) txs idx
      | some txType =>
        let r := reindexTxs codec b (index + 1) txs
          (idx.indexTx (codec.hash tx) txType b.height index)
        (r.1, (b.height, index) :: r.2)

/-- The block part of the loop body at `height`: read the indexed block row, commit
the transaction at heights `1 mod 10000` (`txOk` is whether `blockTx.Commit()`
succeeds), then index the block unless the indexed row's time differs. -/
def reindexBlock (txOk : Bool) (height : Nat) (b : Block) (idx : Indexer) : Indexer :=
  let idxBlock := assocGet idx.db.blocks b.height
  let idx := if height % 10000 = 1 then idx.commitTx txOk else idx
  match idxBlock with
  | some row => if row.time ≠ b.time then idx else idx.write (createBlock b)
  | none => idx.write (createBlock b)

/-- The loop over the `n` heights from `height`; a height without a block is skipped. -/
def reindexHeights (app : App) (codec : TxCodec) (txOk : Bool) : Nat → Nat → Indexer →
    Indexer × List (Nat × Nat)
  | _, 0, idx => (idx, [])
  | height, n + 1, idx =>
    match app.getBlockByHeight height with
    | none => reindexHeights app codec txOk (height + 1) n idx
    | some b =>
      let r₁ := reindexTxs codec b 0 b.txs (reindexBlock txOk height b idx)
      let r₂ := reindexHeights app codec txOk (height + 1) n r₁.1
      (r₂.1, r₁.2 ++ r₂.2)

/-- `ReindexBlocks`, once the chain is synced: nothing without a block store; else the
loop over the heights `base..height`, then `blockTx.Commit()`. Returns the indexer and
the positions `indexTx` was called for, in order. -/
def Indexer.reindexBlocks (app : App) (store : Option BlockStore) (codec : TxCodec)
    (txOk : Bool) (idx : Indexer) : Indexer × List (Nat × Nat) :=
  match store with
  | none => (idx, [])
  | some s =>
    let r := reindexHeights app codec txOk s.base (s.height + 1 - s.base) idx
    (r.1.commitTx txOk, r.2)

/-! ## One block -/

/-- The positions, from `index`, that re-dispatching every non-conflicting
transaction calls `indexTx` for: each transaction that unmarshals and whose indexed
row is absent or has its hash. -/
def nonConflictingTxCalls (codec : TxCodec) (db : Db) (b : Block) : Nat → List Bytes → List (Nat × Nat)
  | _, [] => []
  | index, tx :: txs =>
    (if !conflicts codec db b.height index tx && (codec.unmarshal tx b.chainId).isSome
      then [(b.height, index)] else []) ++ nonConflictingTxCalls codec db b (index + 1) txs

/-- The transactions from `index` before the first conflicting one. -/
def conflictFreePrefix (codec : TxCodec) (db : Db) (b : Block) : Nat → List Bytes → List Bytes
  | _, [] => []
  | index, tx :: txs =>
    if conflicts codec db b.height index tx then []
    else tx :: conflictFreePrefix codec db b (index + 1) txs

@[simp] theorem Indexer.indexTx_db (idx : Indexer) (hash : Bytes) (txType : String)
    (height index : Nat) : (idx.indexTx hash txType height index).db = idx.db := rfl

/-- The transaction loop of a block calls `indexTx` for the dispatchable positions of the
conflict-free prefix, and for no other. -/
theorem reindexTxs_calls (codec : TxCodec) (b : Block) (index : Nat) (txs : List Bytes)
    (idx : Indexer) :
    (reindexTxs codec b index txs idx).2 =
      nonConflictingTxCalls codec idx.db b index (conflictFreePrefix codec idx.db b index txs) := by
  induction txs generalizing index idx with
  | nil => rfl
  | cons tx txs ih =>
    by_cases hc : conflicts codec idx.db b.height index tx
    · simp [reindexTxs, conflictFreePrefix, hc, nonConflictingTxCalls]
    · cases hu : codec.unmarshal tx b.chainId <;>
        simp [reindexTxs, conflictFreePrefix, nonConflictingTxCalls, hc, hu, ih]

/-- The transaction loop writes the block transaction only. -/
theorem reindexTxs_db (codec : TxCodec) (b : Block) (index : Nat) (txs : List Bytes)
    (idx : Indexer) : (reindexTxs codec b index txs idx).1.db = idx.db := by
  induction txs generalizing index idx with
  | nil => rfl
  | cons tx txs ih =>
    unfold reindexTxs
    split
    · rfl
    · split
      · exact ih _ _
      · exact (ih _ _).trans rfl

/-- Rows of another height than the block's stay as they were in the block
transaction. -/
theorem reindexTxs_txDb_of_ne (codec : TxCodec) (b : Block) (index : Nat) (txs : List Bytes)
    (idx : Indexer) {h : Nat} (hne : h ≠ b.height) (j : Nat) :
    assocGet (reindexTxs codec b index txs idx).1.txDb.transactions (h, j) =
      assocGet idx.txDb.transactions (h, j) := by
  induction txs generalizing index idx with
  | nil => rfl
  | cons tx txs ih =>
    unfold reindexTxs
    split
    · rfl
    · split
      · exact ih _ _
      · refine (ih _ _).trans ?_
        exact assocGet_assocInsert_of_ne _ (fun e => hne (Prod.mk.inj e).1.symm) _

theorem conflicts_congr (codec : TxCodec) {db db' : Db} {height : Nat}
    (rows : ∀ j, assocGet db.transactions (height, j) = assocGet db'.transactions (height, j))
    (index : Nat) (tx : Bytes) : conflicts codec db height index tx = conflicts codec db' height index tx := by
  simp only [conflicts, rows]

theorem nonConflictingTxCalls_congr (codec : TxCodec) {db db' : Db} (b : Block)
    (rows : ∀ j, assocGet db.transactions (b.height, j) = assocGet db'.transactions (b.height, j))
    (index : Nat) (txs : List Bytes) :
    nonConflictingTxCalls codec db b index txs = nonConflictingTxCalls codec db' b index txs := by
  induction txs generalizing index with
  | nil => rfl
  | cons tx txs ih => simp only [nonConflictingTxCalls, conflicts_congr codec rows, ih]

theorem conflictFreePrefix_congr (codec : TxCodec) {db db' : Db} (b : Block)
    (rows : ∀ j, assocGet db.transactions (b.height, j) = assocGet db'.transactions (b.height, j))
    (index : Nat) (txs : List Bytes) :
    conflictFreePrefix codec db b index txs = conflictFreePrefix codec db' b index txs := by
  induction txs generalizing index with
  | nil => rfl
  | cons tx txs ih => simp only [conflictFreePrefix, conflicts_congr codec rows, ih]

/-! ## The whole block store -/

/-- The transaction rows from height `h` on, committed and in the block transaction,
are those of `db₀`. -/
def RowsFrom (db₀ : Db) (h : Nat) (idx : Indexer) : Prop :=
  ∀ h' j, h ≤ h' → assocGet idx.db.transactions (h', j) = assocGet db₀.transactions (h', j) ∧
    assocGet idx.txDb.transactions (h', j) = assocGet db₀.transactions (h', j)

theorem RowsFrom.mono {db₀ : Db} {h h' : Nat} {idx : Indexer} (rows : RowsFrom db₀ h idx)
    (le : h ≤ h') : RowsFrom db₀ h' idx :=
  fun h'' j le' => rows h'' j (le.trans le')

theorem RowsFrom.commitTx {db₀ : Db} {h : Nat} {idx : Indexer} (rows : RowsFrom db₀ h idx)
    (ok : Bool) : RowsFrom db₀ h (idx.commitTx ok) := by
  intro h' j le
  obtain ⟨committed, pending⟩ := rows h' j le
  cases ok
  · exact ⟨committed, committed⟩
  · exact ⟨pending, pending⟩

theorem RowsFrom.createBlock {db₀ : Db} {h : Nat} {idx : Indexer} (rows : RowsFrom db₀ h idx)
    (b : Block) : RowsFrom db₀ h (idx.write (createBlock b)) :=
  rows

/-- What the block part of the loop can do: the periodic commit, then the block
row or nothing. -/
theorem reindexBlock_cases (txOk : Bool) (height : Nat) (b : Block) (idx : Indexer) :
    reindexBlock txOk height b idx = (if height % 10000 = 1 then idx.commitTx txOk else idx) ∨
      reindexBlock txOk height b idx =
        (if height % 10000 = 1 then idx.commitTx txOk else idx).write (createBlock b) := by
  unfold reindexBlock
  generalize assocGet idx.db.blocks b.height = idxBlock
  cases idxBlock with
  | none => exact .inr rfl
  | some row =>
    by_cases differs : row.time ≠ b.time
    · exact .inl (if_pos differs)
    · exact .inr (if_neg differs)

theorem RowsFrom.reindexBlock {db₀ : Db} {h : Nat} {idx : Indexer} (rows : RowsFrom db₀ h idx)
    (txOk : Bool) (height : Nat) (b : Block) : RowsFrom db₀ h (reindexBlock txOk height b idx) := by
  have committed : RowsFrom db₀ h (if height % 10000 = 1 then idx.commitTx txOk else idx) := by
    split
    · exact rows.commitTx txOk
    · exact rows
  rcases reindexBlock_cases txOk height b idx with e | e <;> rw [e]
  · exact committed
  · exact committed.createBlock b

/-- **Step lemma.** Re-indexing the block at height `h` keeps the rows from `h + 1` on. -/
theorem RowsFrom.reindexTxs {db₀ : Db} {h : Nat} {idx : Indexer} (rows : RowsFrom db₀ h idx)
    (codec : TxCodec) (b : Block) (hb : b.height = h) (index : Nat) (txs : List Bytes) :
    RowsFrom db₀ (h + 1) (reindexTxs codec b index txs idx).1 := by
  intro h' j le
  rw [reindexTxs_db, reindexTxs_txDb_of_ne codec b index txs idx (by omega)]
  exact rows h' j (by omega)

/-- The positions the reindex calls `indexTx` for at `height`: the dispatchable ones of
the block's conflict-free prefix against `db`. -/
def blockCalls (app : App) (codec : TxCodec) (db : Db) (height : Nat) : List (Nat × Nat) :=
  match app.getBlockByHeight height with
  | some b => nonConflictingTxCalls codec db b 0 (conflictFreePrefix codec db b 0 b.txs)
  | none => []

/-- **Run lemma.** Over the `n` heights from `height`, from a state whose rows from
`height` on are those of `db₀`, the calls are every block's against `db₀`. -/
theorem reindexHeights_calls (app : App) (codec : TxCodec) (txOk : Bool) (db₀ : Db)
    (heights : ∀ h b, app.getBlockByHeight h = some b → b.height = h) (n : Nat) :
    ∀ height idx, RowsFrom db₀ height idx →
      (reindexHeights app codec txOk height n idx).2 =
        (List.range' height n).flatMap (blockCalls app codec db₀) := by
  induction n with
  | zero => intro _ _ _; rfl
  | succ n ih =>
    intro height idx rows
    rw [List.range'_succ, List.flatMap_cons]
    unfold reindexHeights
    cases hb : app.getBlockByHeight height with
    | none => simpa [blockCalls, hb] using ih (height + 1) idx (rows.mono (Nat.le_succ _))
    | some b =>
      have own := heights height b hb
      have block := rows.reindexBlock txOk height b
      have here : ∀ j, assocGet (reindexBlock txOk height b idx).db.transactions (b.height, j) =
          assocGet db₀.transactions (b.height, j) := fun j => (block b.height j own.ge).1
      simp only [blockCalls, hb, reindexTxs_calls, nonConflictingTxCalls_congr codec b here,
        conflictFreePrefix_congr codec b here]
      rw [ih (height + 1) _ (block.reindexTxs codec b own 0 b.txs)]

/-- **The calls of `ReindexBlocks`.** When the block store's blocks carry their own
heights and no transaction row is pending, `indexTx` is called, in height order, for
the dispatchable positions of every block's conflict-free prefix against the prior index,
and for no other position. -/
theorem Indexer.reindexBlocks_calls (app : App) (codec : TxCodec) (txOk : Bool) (s : BlockStore)
    (idx : Indexer) (heights : ∀ h b, app.getBlockByHeight h = some b → b.height = h)
    (noPending : idx.txDb.transactions = idx.db.transactions) :
    (idx.reindexBlocks app (some s) codec txOk).2 =
      (List.range' s.base (s.height + 1 - s.base)).flatMap (blockCalls app codec idx.db) :=
  reindexHeights_calls app codec txOk idx.db heights _ s.base idx fun _ _ _ => ⟨rfl, by rw [noPending]⟩

/-! ## What the reindex writes -/

/-- The reindex writes only block rows and transaction rows, through the block
transaction, and commits it: a property of the indexer that those three steps keep,
every reindex keeps. -/
theorem reindexTxs_preserves (P : Indexer → Prop)
    (tx : ∀ idx hash txType height index, P idx → P (idx.indexTx hash txType height index))
    (codec : TxCodec) (b : Block) :
    ∀ (index : Nat) (txs : List Bytes) (idx : Indexer), P idx →
      P (reindexTxs codec b index txs idx).1
  | _, [], _, h => h
  | index, _ :: txs, idx, h => by
    unfold reindexTxs
    split
    · exact h
    · split
      · exact reindexTxs_preserves P tx codec b (index + 1) txs idx h
      · exact reindexTxs_preserves P tx codec b (index + 1) txs _ (tx _ _ _ _ _ h)

theorem reindexBlock_preserves (P : Indexer → Prop) (txOk : Bool)
    (block : ∀ idx b, P idx → P (idx.write (createBlock b)))
    (commit : ∀ idx, P idx → P (idx.commitTx txOk))
    (height : Nat) (b : Block) (idx : Indexer) (h : P idx) :
    P (reindexBlock txOk height b idx) := by
  have committed : P (if height % 10000 = 1 then idx.commitTx txOk else idx) := by
    split
    · exact commit idx h
    · exact h
  rcases reindexBlock_cases txOk height b idx with e | e <;> rw [e]
  · exact committed
  · exact block _ b committed

theorem reindexHeights_preserves (P : Indexer → Prop) (txOk : Bool)
    (block : ∀ idx b, P idx → P (idx.write (createBlock b)))
    (tx : ∀ idx hash txType height index, P idx → P (idx.indexTx hash txType height index))
    (commit : ∀ idx, P idx → P (idx.commitTx txOk)) (app : App) (codec : TxCodec) :
    ∀ (height n : Nat) (idx : Indexer), P idx → P (reindexHeights app codec txOk height n idx).1
  | _, 0, _, h => h
  | height, n + 1, idx, h => by
    unfold reindexHeights
    split
    · exact reindexHeights_preserves P txOk block tx commit app codec (height + 1) n idx h
    · exact reindexHeights_preserves P txOk block tx commit app codec (height + 1) n _
        (reindexTxs_preserves P tx codec _ 0 _ _
          (reindexBlock_preserves P txOk block commit height _ idx h))

theorem Indexer.reindexBlocks_preserves (P : Indexer → Prop) (txOk : Bool)
    (block : ∀ idx b, P idx → P (idx.write (createBlock b)))
    (tx : ∀ idx hash txType height index, P idx → P (idx.indexTx hash txType height index))
    (commit : ∀ idx, P idx → P (idx.commitTx txOk)) (app : App) (store : Option BlockStore)
    (codec : TxCodec) (idx : Indexer) (h : P idx) :
    P (idx.reindexBlocks app store codec txOk).1 := by
  unfold Indexer.reindexBlocks
  split
  · exact h
  · exact commit _ (reindexHeights_preserves P txOk block tx commit app codec _ _ idx h)

/-- The reindex changes the committed database and the block transaction, and nothing
else of the indexer. -/
theorem Indexer.reindexBlocks_scratch (app : App) (store : Option BlockStore) (codec : TxCodec)
    (txOk : Bool) (idx : Indexer) :
    { (idx.reindexBlocks app store codec txOk).1 with db := idx.db, blockTx := idx.blockTx } = idx :=
  Indexer.reindexBlocks_preserves (fun i => { i with db := idx.db, blockTx := idx.blockTx } = idx)
    txOk (fun _ _ h => h) (fun _ _ _ _ _ h => h) (fun _ h => h) app store codec idx rfl

section View

variable {α : Type} (v : Db → α)

/-- A view of the database that block rows and transaction rows leave alone. With
every commit succeeding, the reindex keeps it in the block transaction, and the
committed one is the one before or the block transaction's. -/
theorem Indexer.reindexBlocks_view (block : ∀ b db, v (createBlock b db) = v db)
    (tx : ∀ key row db, v { db with transactions := assocInsert db.transactions key row } = v db)
    (app : App) (store : Option BlockStore) (codec : TxCodec) (idx : Indexer) :
    v (idx.reindexBlocks app store codec true).1.txDb = v idx.txDb ∧
      (v (idx.reindexBlocks app store codec true).1.db = v idx.db ∨
        v (idx.reindexBlocks app store codec true).1.db = v idx.txDb) :=
  Indexer.reindexBlocks_preserves
    (fun i => v i.txDb = v idx.txDb ∧ (v i.db = v idx.db ∨ v i.db = v idx.txDb)) true
    (fun _ b h => ⟨(block b _).trans h.1, h.2⟩) (fun _ _ _ _ _ h => ⟨(tx _ _ _).trans h.1, h.2⟩)
    (fun _ h => ⟨h.1, .inr h.1⟩) app store codec idx ⟨rfl, .inl rfl⟩

/-- Such a view on which the block transaction agrees with the committed database
stays so, whether the commits succeed or not. -/
theorem Indexer.reindexBlocks_view_of_eq (block : ∀ b db, v (createBlock b db) = v db)
    (tx : ∀ key row db, v { db with transactions := assocInsert db.transactions key row } = v db)
    (app : App) (store : Option BlockStore) (codec : TxCodec) (txOk : Bool) (idx : Indexer)
    (same : v idx.txDb = v idx.db) :
    v (idx.reindexBlocks app store codec txOk).1.db = v idx.db ∧
      v (idx.reindexBlocks app store codec txOk).1.txDb = v idx.db :=
  Indexer.reindexBlocks_preserves (fun i => v i.db = v idx.db ∧ v i.txDb = v idx.db) txOk
    (fun _ b h => ⟨h.1, (block b _).trans h.2⟩) (fun _ _ _ _ _ h => ⟨h.1, (tx _ _ _).trans h.2⟩)
    (fun _ h => by cases txOk; exacts [⟨h.1, h.1⟩, ⟨h.2, h.2⟩]) app store codec idx ⟨rfl, same⟩

end View

/-- A block at height 1 with two transactions, `[0]` and `[1]`. -/
def twoTxBlock : Block := ⟨1, 0, "c", [], [], [], [[0], [1]]⟩

/-- A block store holding `twoTxBlock` at height 1. -/
def appTwoTxBlock : App :=
  ⟨1, 0, true, fun h => if h = 1 then some twoTxBlock else none, fun _ => none,
    fun _ _ => none, fun _ => .error .emptyTree⟩

/-- Transactions hashed to themselves, each unmarshalling as a vote. -/
def selfHashCodec : TxCodec := ⟨id, fun _ _ => some "vote"⟩

/-- An index with another transaction at position `(1, 0)` and none at `(1, 1)`. -/
def dbConflictAtFirst : Db := { Db.empty with transactions := [((1, 0), ⟨[9], "vote"⟩)] }

/-- `reindexBlocks_calls` on `twoTxBlock` over `dbConflictAtFirst`. -/
theorem Indexer.reindexBlocks_calls_two_tx_block :
    (∀ h b, appTwoTxBlock.getBlockByHeight h = some b → b.height = h) ∧
      (Indexer.new dbConflictAtFirst false).txDb.transactions =
        (Indexer.new dbConflictAtFirst false).db.transactions ∧
      ((Indexer.new dbConflictAtFirst false).reindexBlocks appTwoTxBlock (some ⟨1, 1⟩)
          selfHashCodec true).2 =
        (List.range' 1 1).flatMap (blockCalls appTwoTxBlock selfHashCodec dbConflictAtFirst) := by
  have heights : ∀ h b, appTwoTxBlock.getBlockByHeight h = some b → b.height = h := by
    intro h b hb
    by_cases h1 : h = 1
    · subst h1
      cases hb
      rfl
    · simp [appTwoTxBlock, h1] at hb
  exact ⟨heights, rfl, Indexer.reindexBlocks_calls appTwoTxBlock selfHashCodec true ⟨1, 1⟩
    (Indexer.new dbConflictAtFirst false) heights rfl⟩

/-! ## A conflict ends the block -/

/-- `ReindexBlocks` over `twoTxBlock` and `dbConflictAtFirst`. -/
def reindexConflictAtFirst : Indexer × List (Nat × Nat) :=
  (Indexer.new dbConflictAtFirst false).reindexBlocks appTwoTxBlock (some ⟨1, 1⟩) selfHashCodec true

/-- Re-dispatching every non-conflicting transaction calls `indexTx` for position
`(1, 1)`, which has no indexed row; the conflict at `(1, 0)` ends the block before it,
so no call is made and `(1, 1)` stays unindexed. -/
theorem reindex_conflict_drops_rest_of_block :
    nonConflictingTxCalls selfHashCodec dbConflictAtFirst twoTxBlock 0 twoTxBlock.txs = [(1, 1)] ∧
      reindexConflictAtFirst.2 = [] ∧
      assocGet reindexConflictAtFirst.1.db.transactions (1, 1) = none := by
  decide

end Vocdoni.Vochain
