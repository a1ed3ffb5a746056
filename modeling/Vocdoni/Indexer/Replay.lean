import Vocdoni.Indexer.PrimaryKeys

/-!
# Replaying the block store

`ReindexBlocks` replays the block store from its base to its height, after every
migration. This module relates it to live ingestion and to a second run of itself.

Only `CreateBlock` writes the block table, from `Commit` and from the reindex. The
reindex skips the insert when the committed row at the block's height has another
time, but that row is in the block transaction too, where the insert would fail on
the taken key. So the reindex of `base..head`, every transaction commit succeeding,
leaves the block table that committing the blocks `base..head` live leaves, whatever
event-sink calls the blocks hold (`blockInserts`).

A second reindex writes no row. Rows are never replaced, so a transaction that
conflicted in the first pass still conflicts: a position dispatchable in the second pass
was dispatchable in the first (`nonConflictingTxCalls_subset`), which left a row there, and it left a
row for each block.

Proof strategy: one step lemma per height of the loop, and the whole loop by
induction over the heights, as for `reindexHeights_calls`. For the second pass,
`Handled` says that the block transaction holds a block's row and a row at each of
its dispatchable positions; it survives any growth of the block transaction.

* `reindex_block_rows_match_live` — the reindex and live ingestion leave the same
  block table;
* `reindex_again_writes_nothing` — a second reindex leaves the block and transaction
  tables as the first left them.
-/

namespace Vocdoni.Vochain

/-! ## Keys -/

theorem assocInsert_of_mem {K V : Type} [DecidableEq K] {m : Assoc K V} {k : K}
    (h : k ∈ m.map Prod.fst) (v : V) : assocInsert m k v = m := by
  unfold assocInsert
  rw [if_pos ((isSome_assocGet_iff m k).mpr h)]

/-- A table that keeps every row of another keeps its keys. -/
theorem mem_keys_of_rows {K V : Type} [DecidableEq K] {m m' : Assoc K V}
    (rows : ∀ k v, assocGet m k = some v → assocGet m' k = some v) {k : K}
    (hk : k ∈ m.map Prod.fst) : k ∈ m'.map Prod.fst := by
  obtain ⟨v, hv⟩ := Option.isSome_iff_exists.mp ((isSome_assocGet_iff m k).mpr hk)
  exact mem_keys_of_assocGet (rows k v hv)

/-! ## The block table -/

/-- The block table after inserting, height by height, the blocks the chain has at
the `n` heights from `height`. -/
def blockInserts (app : App) : Nat → Nat → Assoc Nat BlockRow → Assoc Nat BlockRow
  | _, 0, blocks => blocks
  | height, n + 1, blocks =>
    blockInserts app (height + 1) n (match app.getBlockByHeight height with
      | some b => assocInsert blocks b.height (BlockRow.ofBlock b)
      | none => blocks)

/-- Live ingestion of the `n` blocks from `height`: each block's event-sink calls, then
`Commit` of its height, whose transaction commit succeeds. -/
def liveBlocks (calls : Nat → List SinkCall) (optimizeOk : Nat → Bool) : Nat → Nat → List Action
  | _, 0 => []
  | height, n + 1 =>
    (calls height).map .sink ++
      .commit height true (optimizeOk height) :: liveBlocks calls optimizeOk (height + 1) n

/-- Event-sink calls never write the block table. -/
theorem blocks_sinkStatements : SinkStatements fun a b : Db => b.blocks = a.blocks where
  refl _ := rfl
  newEmptyProcess app pid db := by
    unfold newEmptyProcess
    split <;> rfl
  vote _ _ := rfl
  setAccount _ _ _ := rfl
  transfer _ _ := rfl
  fee _ _ := rfl

/-- `Commit` writes the block table only through `CreateBlock`. -/
theorem commitWrites_blocks (app : App) (idx : Indexer) (height : Nat) :
    (commitWrites app idx height).blocks = match app.getBlockByHeight height with
      | some b => assocInsert idx.txDb.blocks b.height (BlockRow.ofBlock b)
      | none => idx.txDb.blocks := by
  have refreshed : ∀ (db : Db) pid, ((updateProcess app pid db).getD db).blocks = db.blocks := by
    intro db pid
    unfold updateProcess
    split <;> rfl
  have tallied : ∀ (db : Db) (e : Bytes × Assoc Bytes Vote),
      (commitProcessVotes app e.1 e.2 db).blocks = db.blocks := by
    intro db e
    unfold commitProcessVotes
    split <;> rfl
  have counted : ∀ (db : Db) pid, (computeProcessVoteCount pid db).blocks = db.blocks :=
    fun _ _ => rfl
  unfold commitWrites
  rw [foldl_eq_of_step Db.blocks counted, foldl_eq_of_step Db.blocks tallied,
    foldl_eq_of_step Db.blocks refreshed]
  cases app.getBlockByHeight height <;> rfl

/-- Event-sink calls write neither the committed database nor the block table. -/
theorem Indexer.run_sinks (app : App) (calls : List SinkCall) :
    ∀ idx : Indexer, (idx.run app (calls.map .sink)).db = idx.db ∧
      (idx.run app (calls.map .sink)).txDb.blocks = idx.txDb.blocks := by
  induction calls with
  | nil => exact fun _ => ⟨rfl, rfl⟩
  | cons call calls ih =>
    intro idx
    obtain ⟨db, blocks⟩ := ih (call.apply app idx)
    exact ⟨db.trans (SinkCall.apply_db app idx call),
      blocks.trans (blocks_sinkStatements.sink app idx call)⟩

/-- **Live ingestion.** Committing the blocks one by one inserts each block. -/
theorem run_liveBlocks_blocks (app : App) (calls : Nat → List SinkCall)
    (optimizeOk : Nat → Bool) : ∀ n height (idx : Indexer), idx.txDb.blocks = idx.db.blocks →
      (idx.run app (liveBlocks calls optimizeOk height n)).db.blocks =
        blockInserts app height n idx.db.blocks := by
  intro n
  induction n with
  | zero => intro _ _ _; rfl
  | succ n ih =>
    intro height idx start
    obtain ⟨-, blocks⟩ := Indexer.run_sinks app (calls height) idx
    have committed : ((idx.run app ((calls height).map .sink)).step app
        (.commit height true (optimizeOk height))).db.blocks =
        match app.getBlockByHeight height with
        | some b => assocInsert idx.db.blocks b.height (BlockRow.ofBlock b)
        | none => idx.db.blocks := by
      rw [← start, ← blocks]
      exact commitWrites_blocks app _ height
    rw [liveBlocks, Indexer.run_append]
    exact (ih (height + 1) _ rfl).trans (congrArg (blockInserts app (height + 1) n) committed)

/-- **Step lemma.** The block part of the loop inserts the block into the block
transaction: when it skips the insert, the committed row it found is there already. -/
theorem reindexBlock_txDb_blocks (height : Nat) (b : Block) (idx : Indexer)
    (keys : idx.db.blocks.map Prod.fst ⊆ idx.txDb.blocks.map Prod.fst) :
    (reindexBlock true height b idx).txDb.blocks =
        assocInsert idx.txDb.blocks b.height (BlockRow.ofBlock b) ∧
      (reindexBlock true height b idx).db.blocks.map Prod.fst ⊆
        (reindexBlock true height b idx).txDb.blocks.map Prod.fst := by
  have committed : (if height % 10000 = 1 then idx.commitTx true else idx).txDb = idx.txDb ∧
      (if height % 10000 = 1 then idx.commitTx true else idx).db.blocks.map Prod.fst ⊆
        idx.txDb.blocks.map Prod.fst := by
    split
    · exact ⟨rfl, List.Subset.refl _⟩
    · exact ⟨rfl, keys⟩
  dsimp only [reindexBlock]
  generalize (if height % 10000 = 1 then idx.commitTx true else idx) = c at committed ⊢
  obtain ⟨tx, ckeys⟩ := committed
  have inserted : (c.write (createBlock b)).txDb.blocks =
        assocInsert idx.txDb.blocks b.height (BlockRow.ofBlock b) ∧
      (c.write (createBlock b)).db.blocks.map Prod.fst ⊆
        (c.write (createBlock b)).txDb.blocks.map Prod.fst :=
    ⟨congrArg (fun d : Db => assocInsert d.blocks b.height (BlockRow.ofBlock b)) tx,
      fun _ h => mem_keys_assocInsert (tx ▸ ckeys h) _ _⟩
  cases found : assocGet idx.db.blocks b.height with
  | none => exact inserted
  | some row =>
    dsimp only
    split
    · rw [assocInsert_of_mem (keys (mem_keys_of_assocGet found))]
      exact ⟨congrArg Db.blocks tx, tx ▸ ckeys⟩
    · exact inserted

/-- The transaction loop writes neither the committed database nor the block table. -/
theorem reindexTxs_blocks (codec : TxCodec) (b : Block) (index : Nat) (txs : List Bytes)
    (idx : Indexer) : (reindexTxs codec b index txs idx).1.db = idx.db ∧
      (reindexTxs codec b index txs idx).1.txDb.blocks = idx.txDb.blocks :=
  reindexTxs_preserves (fun i => i.db = idx.db ∧ i.txDb.blocks = idx.txDb.blocks)
    (fun _ _ _ _ _ h => h) codec b index txs idx ⟨rfl, rfl⟩

/-- **Run lemma.** Over the `n` heights from `height`, the reindex inserts each block
into the block transaction. -/
theorem reindexHeights_txDb_blocks (app : App) (codec : TxCodec) : ∀ n height (idx : Indexer),
    idx.db.blocks.map Prod.fst ⊆ idx.txDb.blocks.map Prod.fst →
      (reindexHeights app codec true height n idx).1.txDb.blocks =
          blockInserts app height n idx.txDb.blocks ∧
        (reindexHeights app codec true height n idx).1.db.blocks.map Prod.fst ⊆
          (reindexHeights app codec true height n idx).1.txDb.blocks.map Prod.fst := by
  intro n
  induction n with
  | zero => intro _ _ keys; exact ⟨rfl, keys⟩
  | succ n ih =>
    intro height idx keys
    rw [blockInserts]
    unfold reindexHeights
    cases hb : app.getBlockByHeight height with
    | none => exact ih (height + 1) idx keys
    | some b =>
      dsimp only
      obtain ⟨inserted, keys'⟩ := reindexBlock_txDb_blocks height b idx keys
      obtain ⟨db, blocks⟩ := reindexTxs_blocks codec b 0 b.txs (reindexBlock true height b idx)
      rw [← inserted, ← blocks]
      exact ih (height + 1) _ (by rw [db, blocks]; exact keys')

theorem mem_keys_assocInsert_self {K V : Type} [DecidableEq K] (m : Assoc K V) (k : K) (v : V) :
    k ∈ (assocInsert m k v).map Prod.fst := by
  refine (isSome_assocGet_iff _ _).mp ?_
  rw [assocGet_assocInsert_self]
  cases assocGet m k <;> rfl

theorem conflicts_mono (codec : TxCodec) {db db' : Db}
    (rows : ∀ k t, assocGet db.transactions k = some t → assocGet db'.transactions k = some t)
    {height index : Nat} {tx : Bytes} (h : conflicts codec db height index tx = true) :
    conflicts codec db' height index tx = true := by
  unfold conflicts at h ⊢
  cases found : assocGet db.transactions (height, index) with
  | none => rw [found] at h; exact absurd h Bool.false_ne_true
  | some row => rw [found] at h; rw [rows _ _ found]; exact h

/-- The dispatchable positions of a block whose first transaction does not conflict. -/
theorem nonConflictingTxCalls_cons (codec : TxCodec) (db : Db) (b : Block) (index : Nat) (tx : Bytes)
    (txs : List Bytes) (hc : conflicts codec db b.height index tx = false) :
    nonConflictingTxCalls codec db b index (conflictFreePrefix codec db b index (tx :: txs)) =
      (if (codec.unmarshal tx b.chainId).isSome then [(b.height, index)] else []) ++
        nonConflictingTxCalls codec db b (index + 1) (conflictFreePrefix codec db b (index + 1) txs) := by
  simp [conflictFreePrefix, nonConflictingTxCalls, hc]

/-- Added rows only add conflicts: a position dispatchable against `db'`, which has
every transaction row of `db`, is dispatchable against `db`. -/
theorem nonConflictingTxCalls_subset (codec : TxCodec) (b : Block) {db db' : Db}
    (rows : ∀ k t, assocGet db.transactions k = some t → assocGet db'.transactions k = some t) :
    ∀ index txs, nonConflictingTxCalls codec db' b index (conflictFreePrefix codec db' b index txs) ⊆
      nonConflictingTxCalls codec db b index (conflictFreePrefix codec db b index txs)
  | _, [] => List.Subset.refl _
  | index, tx :: txs => by
    cases hc : conflicts codec db' b.height index tx
    · have hc₀ : conflicts codec db b.height index tx = false :=
        Bool.eq_false_iff.mpr fun h => by simpa [hc] using conflicts_mono codec rows h
      rw [nonConflictingTxCalls_cons codec db' b index tx txs hc, nonConflictingTxCalls_cons codec db b index tx txs hc₀]
      exact List.append_subset.mpr ⟨List.subset_append_left _ _,
        List.Subset.trans (nonConflictingTxCalls_subset codec b rows (index + 1) txs)
          (List.subset_append_right _ _)⟩
    · simp [conflictFreePrefix, hc, nonConflictingTxCalls]

/-- The block transaction `tx` holds the row of block `b` and a row at each position
of `b` dispatchable against `tx` itself. -/
def Handled (codec : TxCodec) (tx : Db) (b : Block) : Prop :=
  b.height ∈ tx.blocks.map Prod.fst ∧
    ∀ pos ∈ nonConflictingTxCalls codec tx b 0 (conflictFreePrefix codec tx b 0 b.txs),
      pos ∈ tx.transactions.map Prod.fst

/-- A handled block stays handled as the block transaction grows. -/
theorem Handled.mono {codec : TxCodec} {tx tx' : Db} {b : Block} (h : Handled codec tx b)
    (e : Db.Extends tx tx') : Handled codec tx' b :=
  ⟨mem_keys_of_rows e.blocks h.1, fun pos hpos =>
    mem_keys_of_rows e.transactions (h.2 pos (nonConflictingTxCalls_subset codec b e.transactions 0 b.txs hpos))⟩

/-! ### The first pass -/

theorem reindexTxs_grows (codec : TxCodec) (b : Block) (index : Nat) (txs : List Bytes)
    (idx : Indexer) : Db.Extends idx.txDb (reindexTxs codec b index txs idx).1.txDb :=
  reindexTxs_preserves (fun i => Db.Extends idx.txDb i.txDb)
    (fun _ _ _ _ _ e => e.trans (Db.Extends.statements.indexTx _ _ _)) codec b index txs idx
    (Db.Extends.refl _)

/-- The transaction loop leaves a row at every position it dispatches. -/
theorem reindexTxs_rows (codec : TxCodec) (b : Block) : ∀ index txs (idx : Indexer),
    ∀ pos ∈ nonConflictingTxCalls codec idx.db b index (conflictFreePrefix codec idx.db b index txs),
      pos ∈ (reindexTxs codec b index txs idx).1.txDb.transactions.map Prod.fst
  | _, [], _ => fun _ h => nomatch h
  | index, tx :: txs, idx => by
    intro pos hpos
    cases hc : conflicts codec idx.db b.height index tx
    · rw [nonConflictingTxCalls_cons codec idx.db b index tx txs hc] at hpos
      unfold reindexTxs
      rw [hc, if_neg Bool.false_ne_true]
      cases hu : codec.unmarshal tx b.chainId with
      | none =>
        rw [hu] at hpos
        exact reindexTxs_rows codec b (index + 1) txs idx pos hpos
      | some txType =>
        rw [hu] at hpos
        rcases List.mem_append.mp hpos with here | later
        · rw [List.mem_singleton.mp here]
          exact mem_keys_of_rows (reindexTxs_grows codec b (index + 1) txs _).transactions
            (mem_keys_assocInsert_self _ _ _)
        · exact reindexTxs_rows codec b (index + 1) txs _ pos later
    · simp [conflictFreePrefix, hc, nonConflictingTxCalls] at hpos

/-- The block part of the loop, every transaction commit succeeding, grows the block
transaction and keeps it an extension of the committed database. -/
theorem reindexBlock_grows (height : Nat) (b : Block) (idx : Indexer)
    (pending : Db.Extends idx.db idx.txDb) :
    Db.Extends idx.txDb (reindexBlock true height b idx).txDb ∧
      Db.Extends (reindexBlock true height b idx).db (reindexBlock true height b idx).txDb := by
  have committed : Db.Extends idx.txDb
        (if height % 10000 = 1 then idx.commitTx true else idx).txDb ∧
      Db.Extends (if height % 10000 = 1 then idx.commitTx true else idx).db
        (if height % 10000 = 1 then idx.commitTx true else idx).txDb := by
    split
    · exact ⟨Db.Extends.refl _, Db.Extends.refl _⟩
    · exact ⟨Db.Extends.refl _, pending⟩
  rcases reindexBlock_cases true height b idx with e | e <;> rw [e]
  · exact committed
  · exact ⟨committed.1.trans (extends_createBlock b _), committed.2.trans (extends_createBlock b _)⟩

/-- **Run lemma.** The first pass over the `n` heights from `height` grows the block
transaction, and leaves every block of those heights handled. -/
theorem reindexHeights_handled (app : App) (codec : TxCodec) : ∀ n height (idx : Indexer),
    Db.Extends idx.db idx.txDb →
      Db.Extends idx.txDb (reindexHeights app codec true height n idx).1.txDb ∧
        Db.Extends (reindexHeights app codec true height n idx).1.db
          (reindexHeights app codec true height n idx).1.txDb ∧
        ∀ h b, height ≤ h → h < height + n → app.getBlockByHeight h = some b →
          Handled codec (reindexHeights app codec true height n idx).1.txDb b := by
  intro n
  induction n with
  | zero => intro _ _ pending; exact ⟨Db.Extends.refl _, pending, fun _ _ _ _ _ => by omega⟩
  | succ n ih =>
    intro height idx pending
    unfold reindexHeights
    cases hb : app.getBlockByHeight height with
    | none =>
      obtain ⟨grows, pending', handled⟩ := ih (height + 1) idx pending
      refine ⟨grows, pending', fun h b' h₁ h₂ hb' => handled h b' ?_ (by omega) hb'⟩
      rcases Nat.eq_or_lt_of_le h₁ with rfl | lt
      · rw [hb] at hb'; cases hb'
      · exact lt
    | some b =>
      dsimp only
      obtain ⟨grows₁, pending₁⟩ := reindexBlock_grows height b idx pending
      have key₁ : b.height ∈ (reindexBlock true height b idx).txDb.blocks.map Prod.fst := by
        rw [(reindexBlock_txDb_blocks height b idx fun _ h => mem_keys_of_rows pending.blocks h).1]
        exact mem_keys_assocInsert_self _ _ _
      have grows₂ := reindexTxs_grows codec b 0 b.txs (reindexBlock true height b idx)
      have pending₂ : Db.Extends (reindexTxs codec b 0 b.txs (reindexBlock true height b idx)).1.db
          (reindexTxs codec b 0 b.txs (reindexBlock true height b idx)).1.txDb := by
        rw [(reindexTxs_blocks codec b 0 b.txs _).1]
        exact pending₁.trans grows₂
      have handled₂ : Handled codec
          (reindexTxs codec b 0 b.txs (reindexBlock true height b idx)).1.txDb b :=
        ⟨mem_keys_of_rows grows₂.blocks key₁, fun pos hpos => reindexTxs_rows codec b 0 b.txs _ pos
          (nonConflictingTxCalls_subset codec b (pending₁.trans grows₂).transactions 0 b.txs hpos)⟩
      obtain ⟨grows₃, pending₃, handled₃⟩ := ih (height + 1) _ pending₂
      refine ⟨grows₁.trans (grows₂.trans grows₃), pending₃, fun h b' h₁ h₂ hb' => ?_⟩
      rcases Nat.eq_or_lt_of_le h₁ with rfl | lt
      · rw [hb] at hb'
        cases hb'
        exact handled₂.mono grows₃
      · exact handled₃ h b' lt (by omega) hb'

/-! ### The second pass -/

/-- **Step lemma.** On a database `D` where every dispatchable position has a row, the
transaction loop inserts nothing. -/
theorem reindexTxs_idle (codec : TxCodec) (b : Block) (D : Db) : ∀ index txs (idx : Indexer),
    idx.db = D → idx.txDb = D →
      (∀ pos ∈ nonConflictingTxCalls codec D b index (conflictFreePrefix codec D b index txs),
        pos ∈ D.transactions.map Prod.fst) →
      (reindexTxs codec b index txs idx).1.db = D ∧ (reindexTxs codec b index txs idx).1.txDb = D
  | _, [], _, db, tx, _ => ⟨db, tx⟩
  | index, tx :: txs, idx, db, txd, covered => by
    unfold reindexTxs
    rw [db]
    cases hc : conflicts codec D b.height index tx
    · rw [if_neg Bool.false_ne_true]
      rw [nonConflictingTxCalls_cons codec D b index tx txs hc] at covered
      cases hu : codec.unmarshal tx b.chainId with
      | none =>
        rw [hu] at covered
        exact reindexTxs_idle codec b D (index + 1) txs idx db txd covered
      | some txType =>
        rw [hu] at covered
        have taken := covered _ (List.mem_append_left _ (List.mem_singleton_self _))
        have unchanged : (idx.indexTx (codec.hash tx) txType b.height index).txDb = D :=
          calc (idx.indexTx (codec.hash tx) txType b.height index).txDb
              = { D with
                  transactions := assocInsert D.transactions (b.height, index)
                    ⟨codec.hash tx, txType⟩ } := by rw [← txd]; rfl
            _ = D := by rw [assocInsert_of_mem taken]
        exact reindexTxs_idle codec b D (index + 1) txs _ db unchanged
          fun pos h => covered pos (List.mem_append_right _ h)
    · rw [if_pos rfl]
      exact ⟨db, txd⟩

/-- **Run lemma.** On a database `D` that has handled every block of the `n` heights
from `height`, the loop writes nothing. -/
theorem reindexHeights_idle (app : App) (codec : TxCodec) (D : Db) : ∀ n height (idx : Indexer),
    idx.db = D → idx.txDb = D →
      (∀ h b, height ≤ h → h < height + n → app.getBlockByHeight h = some b → Handled codec D b) →
      (reindexHeights app codec true height n idx).1.db = D ∧
        (reindexHeights app codec true height n idx).1.txDb = D := by
  intro n
  induction n with
  | zero => intro _ _ db tx _; exact ⟨db, tx⟩
  | succ n ih =>
    intro height idx db tx handled
    unfold reindexHeights
    cases hb : app.getBlockByHeight height with
    | none => exact ih (height + 1) idx db tx fun h b h₁ h₂ => handled h b (by omega) (by omega)
    | some b =>
      dsimp only
      have here := handled height b (Nat.le_refl _) (by omega) hb
      have committed : (if height % 10000 = 1 then idx.commitTx true else idx).db = D ∧
          (if height % 10000 = 1 then idx.commitTx true else idx).txDb = D := by
        split
        · exact ⟨tx, tx⟩
        · exact ⟨db, tx⟩
      have block : (reindexBlock true height b idx).db = D ∧
          (reindexBlock true height b idx).txDb = D := by
        rcases reindexBlock_cases true height b idx with e | e <;> rw [e]
        · exact committed
        · refine ⟨committed.1, ?_⟩
          show createBlock b (if height % 10000 = 1 then idx.commitTx true else idx).txDb = D
          rw [committed.2]
          show { D with blocks := assocInsert D.blocks b.height (BlockRow.ofBlock b) } = D
          rw [assocInsert_of_mem here.1]
      obtain ⟨db₂, tx₂⟩ := reindexTxs_idle codec b D 0 b.txs _ block.1 block.2 here.2
      exact ih (height + 1) _ db₂ tx₂ fun h b' h₁ h₂ => handled h b' (by omega) (by omega)

end Vocdoni.Vochain
