import Vocdoni.Tally.Results
import Vocdoni.IndexerTypes.Json

/-!
# Indexer state

The data the indexer keeps (`indexer.go`, `Indexer`): the in-memory block
scratch (`votePool`, `blockUpdateProcs`, `blockUpdateProcVoteCounts`), the open
write transaction `blockTx`, the live-results process set, and the sqlite
database, together with the chain application's interface it reads.

Go maps and SQL tables are association lists. A Go map's list order is the order
`range` visits it, which the runtime randomises; a table's list order is the
order of its rows. The database is a value: `blockTx` is the transaction's own
view of it (begun from the committed database, written by the block's callbacks)
and `db` is what is committed, which the read-only connections see.

Rows keep the columns the modelled functions read or write. The results columns
hold JSON text in sqlite; here they hold the decoded `Results`, which
`processResults_json_roundtrip` shows loses nothing.
-/

namespace Vocdoni.Vochain

open Vocdoni.Tally

/-- Byte strings: process ids, nullifiers, addresses and hashes. -/
abbrev Bytes := List UInt8

/-! ## Association lists -/

/-- A Go map or a keyed SQL table: one entry per key. -/
abbrev Assoc (K V : Type) := List (K × V)

/-- Look a key up. -/
def assocGet {K V : Type} [DecidableEq K] : Assoc K V → K → Option V
  | [], _ => none
  | (k', v) :: m, k => if k' = k then some v else assocGet m k

/-- Go's `m[k] = v`: replace the entry of `k`, or add one. -/
def assocSet {K V : Type} [DecidableEq K] (m : Assoc K V) (k : K) (v : V) : Assoc K V :=
  (k, v) :: m.filter (fun e => !decide (e.1 = k))

/-- SQL `UPDATE ... WHERE key = k`: change the row of `k` in place; no row, no change. -/
def assocUpdate {K V : Type} [DecidableEq K] : Assoc K V → K → (V → V) → Assoc K V
  | [], _, _ => []
  | (k', v) :: m, k, f => if k' = k then (k', f v) :: m else (k', v) :: assocUpdate m k f

/-- SQL `INSERT`: a new row at the end; on a key conflict the insert fails and
the table is unchanged (the callers log the error). -/
def assocInsert {K V : Type} [DecidableEq K] (m : Assoc K V) (k : K) (v : V) : Assoc K V :=
  if (assocGet m k).isSome then m else m ++ [(k, v)]

/-- SQL `INSERT OR REPLACE`: replace the row of `k` in place, or add one. -/
def assocUpsert {K V : Type} [DecidableEq K] (m : Assoc K V) (k : K) (v : V) : Assoc K V :=
  if (assocGet m k).isSome then assocUpdate m k (fun _ => v) else m ++ [(k, v)]

/-- A Go `map[string]bool` used as a set: `m[k] = true`. -/
def keySetAdd (s : List Bytes) (k : Bytes) : List Bytes :=
  if decide (k ∈ s) then s else s ++ [k]

@[simp] theorem mem_keySetAdd (s : List Bytes) (k j : Bytes) :
    j ∈ keySetAdd s k ↔ j ∈ s ∨ j = k := by
  unfold keySetAdd
  split
  · rename_i hk
    constructor
    · exact Or.inl
    · rintro (h | rfl)
      · exact h
      · simpa using hk
  · simp

@[simp] theorem assocGet_nil {K V : Type} [DecidableEq K] (k : K) :
    assocGet ([] : Assoc K V) k = none := rfl

@[simp] theorem assocGet_assocSet {K V : Type} [DecidableEq K] (m : Assoc K V) (k j : K) (v : V) :
    assocGet (assocSet m k v) j = if k = j then some v else assocGet m j := by
  unfold assocSet
  by_cases hk : k = j
  · simp [assocGet, hk]
  · simp only [assocGet, hk, if_false]
    induction m with
    | nil => rfl
    | cons e m ih =>
      obtain ⟨k', v'⟩ := e
      by_cases he : k' = k
      · subst he; simp [List.filter_cons, ih, assocGet, hk]
      · simp [List.filter_cons, he, assocGet, ih]

@[simp] theorem mem_keys_assocSet {K V : Type} [DecidableEq K] (m : Assoc K V) (k j : K) (v : V) :
    j ∈ (assocSet m k v).map Prod.fst ↔ j = k ∨ j ∈ m.map Prod.fst := by
  by_cases h : j = k <;> simp [assocSet, h]

@[simp] theorem assocGet_assocUpdate {K V : Type} [DecidableEq K] (m : Assoc K V) (k j : K)
    (f : V → V) : assocGet (assocUpdate m k f) j = if k = j then (assocGet m j).map f
      else assocGet m j := by
  induction m with
  | nil => simp [assocUpdate, assocGet]
  | cons e m ih =>
    obtain ⟨k', v⟩ := e
    by_cases h₁ : k' = k <;> by_cases h₂ : k' = j <;> by_cases h₃ : k = j <;>
      simp_all [assocUpdate, assocGet]

/-- A read of the row of `k` followed by an update of it is an update by a function
of the row. -/
theorem assocUpdate_of_get {K V : Type} [DecidableEq K] {m : Assoc K V} {k : K} {r : V}
    (h : assocGet m k = some r) (g : V → V → V) :
    assocUpdate m k (g r) = assocUpdate m k (fun v => g v v) := by
  induction m with
  | nil => simp at h
  | cons e m ih =>
    obtain ⟨k', v⟩ := e
    by_cases hk : k' = k
    · simp_all [assocGet, assocUpdate]
    · simp only [assocGet, hk, if_false] at h
      simp [assocUpdate, hk, ih h]

/-- An update of a key without a row changes nothing. -/
theorem assocUpdate_of_get_none {K V : Type} [DecidableEq K] {m : Assoc K V} {k : K}
    (h : assocGet m k = none) (f : V → V) : assocUpdate m k f = m := by
  induction m with
  | nil => rfl
  | cons e m ih =>
    obtain ⟨k', v⟩ := e
    by_cases hk : k' = k
    · simp [assocGet, hk] at h
    · simp only [assocGet, hk, if_false] at h
      simp [assocUpdate, hk, ih h]

/-- Updates of two different keys commute. -/
theorem assocUpdate_comm {K V : Type} [DecidableEq K] (m : Assoc K V) {k j : K} (hkj : k ≠ j)
    (f g : V → V) : assocUpdate (assocUpdate m k f) j g = assocUpdate (assocUpdate m j g) k f := by
  induction m with
  | nil => rfl
  | cons e m ih =>
    obtain ⟨k', v⟩ := e
    by_cases h₁ : k' = k
    · subst h₁; simp [assocUpdate, hkj]
    · by_cases h₂ : k' = j
      · subst h₂; simp [assocUpdate, h₁]
      · simp [assocUpdate, h₁, h₂, ih]

/-- Two updates of one key compose. -/
theorem assocUpdate_assocUpdate {K V : Type} [DecidableEq K] (m : Assoc K V) (k : K)
    (f g : V → V) : assocUpdate (assocUpdate m k f) k g = assocUpdate m k (g ∘ f) := by
  induction m with
  | nil => rfl
  | cons e m ih =>
    obtain ⟨k', v⟩ := e
    by_cases h : k' = k <;> simp [assocUpdate, h, ih]

/-- An insert leaves the row of another key as it was. -/
theorem assocGet_assocInsert_of_ne {K V : Type} [DecidableEq K] (m : Assoc K V) {k j : K}
    (hkj : k ≠ j) (v : V) : assocGet (assocInsert m k v) j = assocGet m j := by
  unfold assocInsert
  split
  · rfl
  · clear ‹_›
    induction m with
    | nil => simp [assocGet, hkj]
    | cons e m ih =>
      obtain ⟨k', v'⟩ := e
      simp only [List.cons_append, assocGet]
      rw [← ih]
      rfl

/-- An insert of a new key adds its row. -/
theorem assocGet_append_of_none {K V : Type} [DecidableEq K] {m : Assoc K V} {k : K}
    (h : assocGet m k = none) (v : V) : assocGet (m ++ [(k, v)]) k = some v := by
  induction m with
  | nil => simp [assocGet]
  | cons e m ih =>
    obtain ⟨k', v'⟩ := e
    have hk : k' ≠ k := fun hk => by simp [assocGet, hk] at h
    simp only [List.cons_append, assocGet, hk, if_false] at h ⊢
    exact ih h

/-- A key with a row has an entry. -/
theorem mem_of_assocGet {K V : Type} [DecidableEq K] {m : Assoc K V} {k : K} {v : V}
    (h : assocGet m k = some v) : (k, v) ∈ m := by
  induction m with
  | nil => cases h
  | cons e m ih =>
    obtain ⟨k', v'⟩ := e
    by_cases hk : k' = k
    · simp only [assocGet, hk, if_true, Option.some.injEq] at h
      simp [hk, h]
    · simp only [assocGet, hk, if_false] at h
      exact List.mem_cons_of_mem _ (ih h)

theorem mem_keys_of_assocGet {K V : Type} [DecidableEq K] {m : Assoc K V} {k : K} {v : V}
    (h : assocGet m k = some v) : k ∈ m.map Prod.fst :=
  List.mem_map_of_mem Prod.fst (mem_of_assocGet h)

/-! ## Folds -/

/-- A fold whose every step keeps `P` of its state keeps it. -/
theorem foldl_eq_of_step {σ α β : Type} (P : σ → β) {f : σ → α → σ}
    (hf : ∀ s x, P (f s x) = P s) (xs : List α) (s : σ) : P (xs.foldl f s) = P s := by
  induction xs generalizing s with
  | nil => rfl
  | cons x xs ih => exact (ih (f s x)).trans (hf s x)

/-- A fold whose every step keeps a property of its state keeps it. -/
theorem foldl_of_step {σ α : Type} (P : σ → Prop) {f : σ → α → σ}
    (hf : ∀ s x, P s → P (f s x)) : ∀ (xs : List α) (s : σ), P s → P (xs.foldl f s)
  | [], _, h => h
  | x :: xs, s, h => foldl_of_step P hf xs (f s x) (hf s x h)

/-- An update keeps the keys and their order. -/
@[simp] theorem assocUpdate_keys {K V : Type} [DecidableEq K] (m : Assoc K V) (k : K)
    (f : V → V) : (assocUpdate m k f).map Prod.fst = m.map Prod.fst := by
  induction m with
  | nil => rfl
  | cons e m ih =>
    obtain ⟨k', v⟩ := e
    by_cases h : k' = k <;> simp [assocUpdate, h, ih]

/-! ## Ballots -/

/-- `state.Vote`: a ballot as the chain hands it to `OnVote`. The weight is a
`*big.Int`, nil when absent. -/
structure Vote where
  processId : Bytes
  nullifier : Bytes
  height : Nat
  votePackage : VotePackage
  encryptionKeyIndexes : List Nat
  weight : Option Int
  overwrites : Nat
  voterId : Bytes
  deriving DecidableEq, Repr

/-- `models.StateDBVote`: a ballot committed in the chain state; the weight is its
big-endian bytes. -/
structure StateDBVote where
  processId : Bytes
  nullifier : Bytes
  votePackage : VotePackage
  weight : Bytes
  overwriteCount : Nat
  deriving DecidableEq, Repr

/-- `new(big.Int).SetBytes(b)`: the big-endian unsigned value of `b`. -/
def setBytes (b : Bytes) : Nat :=
  b.foldl (fun acc x => acc * 256 + x.toNat) 0

/-! ## The chain application -/

/-- The fields of `models.Process` the indexer copies into its row. -/
structure ChainProcess where
  voteOpts : ProcessVoteOptions
  status : Nat
  censusRoot : Bytes
  endBlock : Nat
  finalResults : Bool
  keyIndex : Option Nat
  deriving DecidableEq, Repr

/-- A block of the block store. -/
structure Block where
  height : Nat
  time : Int
  chainId : String
  hash : Bytes
  proposerAddress : Bytes
  lastBlockHash : Bytes
  txs : List Bytes
  deriving DecidableEq, Repr

/-- Why `State.IterateVotes` failed: `ErrEmptyTree` (no ballot yet), or another error. -/
inductive IterateError where
  | emptyTree
  | other
  deriving DecidableEq, Repr

/-- What the indexer reads from `BaseApplication` at one moment. `vote` and
`iterateVotes` read the committed state (`committed = true`); `process` the
current one. -/
structure App where
  height : Nat
  timestamp : Int
  isSynced : Bool
  getBlockByHeight : Nat → Option Block
  process : Bytes → Option ChainProcess
  vote : Bytes → Bytes → Option StateDBVote
  iterateVotes : Bytes → Except IterateError (List StateDBVote)

/-! ## Database rows -/

/-- A `processes` row. `results` is the results triple's votes and weight (two
JSON columns in sqlite). -/
structure ProcessRow where
  voteOpts : ProcessVoteOptions
  status : Nat
  censusRoot : Bytes
  endBlock : Nat
  finalResults : Bool
  results : Results
  resultsBlockHeight : Nat
  voteCount : Nat
  deriving DecidableEq, Repr

/-- A `votes` row; `weight` is the JSON text `CreateVote` stores. -/
structure VoteRow where
  nullifier : Bytes
  processId : Bytes
  blockHeight : Nat
  blockIndex : Nat
  weight : String
  overwriteCount : Nat
  voterId : Bytes
  encryptionKeyIndexes : List Nat
  package : VotePackage
  deriving DecidableEq, Repr

/-- A `blocks` row. -/
structure BlockRow where
  chainId : String
  time : Int
  hash : Bytes
  proposerAddress : Bytes
  lastBlockHash : Bytes
  deriving DecidableEq, Repr

/-- A `transactions` row, keyed by (block height, block index). -/
structure TxRow where
  hash : Bytes
  txType : String
  deriving DecidableEq, Repr

/-- An `accounts` row. -/
structure AccountRow where
  balance : Nat
  nonce : Nat
  deriving DecidableEq, Repr

/-- A `token_transfers` row. -/
structure TransferRow where
  txHash : Bytes
  blockHeight : Nat
  fromAccount : Bytes
  toAccount : Bytes
  amount : Nat
  transferTime : Int
  deriving DecidableEq, Repr

/-- A `token_fees` row. -/
structure FeeRow where
  fromAccount : Bytes
  txType : String
  cost : Nat
  reference : String
  spendTime : Int
  blockHeight : Nat
  deriving DecidableEq, Repr

/-- The indexer's sqlite database. -/
structure Db where
  blocks : Assoc Nat BlockRow
  transactions : Assoc (Nat × Nat) TxRow
  processes : Assoc Bytes ProcessRow
  votes : List VoteRow
  accounts : Assoc Bytes AccountRow
  tokenTransfers : List TransferRow
  tokenFees : List FeeRow
  deriving DecidableEq, Repr

/-! ## The indexer -/

/-- `votePool`: ballots to count live, by process id, then by nullifier. -/
abbrev VotePool := Assoc Bytes (Assoc Bytes Vote)

/-- The `Indexer` struct: `db` is the committed database, `blockTx` the open write
transaction's view of it. -/
structure Indexer where
  votePool : VotePool
  db : Db
  blockTx : Option Db
  blockUpdateProcs : List Bytes
  blockUpdateProcVoteCounts : List Bytes
  liveResultsProcs : List Bytes
  ignoreLiveResults : Bool
  deriving DecidableEq, Repr

/-- A database with no rows, as the migrations leave a new one. -/
def Db.empty : Db := ⟨[], [], [], [], [], [], []⟩

/-- `New`: empty scratch maps, no open transaction, no live process. -/
def Indexer.new (db : Db) (ignoreLiveResults : Bool) : Indexer :=
  ⟨[], db, none, [], [], [], ignoreLiveResults⟩

/-- The database as `blockTxQueries` sees it: the open transaction, or the committed
database a new transaction starts from. -/
def Indexer.txDb (idx : Indexer) : Db :=
  idx.blockTx.getD idx.db

/-- A write through `blockTxQueries()`: begins the transaction if none is open. -/
def Indexer.write (idx : Indexer) (f : Db → Db) : Indexer :=
  { idx with blockTx := some (f idx.txDb) }

/-- `blockTx.Commit()` then `blockTx = nil`. A failed commit (`ok = false`) is
logged and its writes are lost. -/
def Indexer.commitTx (idx : Indexer) (ok : Bool) : Indexer :=
  { idx with db := if ok then idx.txDb else idx.db, blockTx := none }

@[simp] theorem Indexer.commitTx_db (idx : Indexer) (ok : Bool) :
    (idx.commitTx ok).db = if ok then idx.txDb else idx.db := rfl

@[simp] theorem Indexer.commitTx_txDb (idx : Indexer) (ok : Bool) :
    (idx.commitTx ok).txDb = if ok then idx.txDb else idx.db := rfl

@[simp] theorem Indexer.commitTx_blockUpdateProcVoteCounts (idx : Indexer) (ok : Bool) :
    (idx.commitTx ok).blockUpdateProcVoteCounts = idx.blockUpdateProcVoteCounts := rfl

@[simp] theorem Indexer.commitTx_blockUpdateProcs (idx : Indexer) (ok : Bool) :
    (idx.commitTx ok).blockUpdateProcs = idx.blockUpdateProcs := rfl

/-- `isProcessLiveResults`. -/
def Indexer.isProcessLiveResults (idx : Indexer) (pid : Bytes) : Bool :=
  decide (pid ∈ idx.liveResultsProcs)

/-- `addProcessToLiveResults`. -/
def Indexer.addProcessToLiveResults (idx : Indexer) (pid : Bytes) : Indexer :=
  { idx with liveResultsProcs := keySetAdd idx.liveResultsProcs pid }

@[simp] theorem Indexer.write_db (idx : Indexer) (f : Db → Db) : (idx.write f).db = idx.db := rfl
@[simp] theorem Indexer.write_txDb (idx : Indexer) (f : Db → Db) :
    (idx.write f).txDb = f idx.txDb := rfl
@[simp] theorem Indexer.write_votePool (idx : Indexer) (f : Db → Db) :
    (idx.write f).votePool = idx.votePool := rfl
@[simp] theorem Indexer.write_liveResultsProcs (idx : Indexer) (f : Db → Db) :
    (idx.write f).liveResultsProcs = idx.liveResultsProcs := rfl

end Vocdoni.Vochain
