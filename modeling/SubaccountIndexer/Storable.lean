import SubaccountIndexer.Types
import SubaccountIndexer.Lib.Candid

/-! What the stable map holds of a record: its Candid encoding, type table and all, which the
map allows `MAX_VALUE_SIZE` bytes. -/

namespace SubaccountIndexer

open Lib.Candid

/-! ## The Candid types -/

instance : CandidType Principal := ⟨.principal Principal.bytes⟩

instance : CandidType Timestamp := ⟨.record [.of "timestamp_nanos" Timestamp.timestampNanos]⟩

instance : CandidType E8s := ⟨.record [.of "e8s" E8s.e8s]⟩

instance : CandidType Approve := ⟨.record [
  .of "fee" Approve.fee,
  .of "from" Approve.from,
  .of "allowance_e8s" Approve.allowanceE8s,
  .of "allowance" Approve.allowance,
  .of "expected_allowance" Approve.expectedAllowance,
  .of "expires_at" Approve.expiresAt,
  .of "spender" Approve.spender]⟩

instance : CandidType Burn := ⟨.record [
  .of "from" Burn.from,
  .of "amount" Burn.amount,
  .of "spender" Burn.spender]⟩

instance : CandidType Mint := ⟨.record [.of "to" Mint.to, .of "amount" Mint.amount]⟩

instance : CandidType Transfer := ⟨.record [
  .of "to" Transfer.to,
  .of "fee" Transfer.fee,
  .of "from" Transfer.from,
  .of "amount" Transfer.amount,
  .of "spender" Transfer.spender]⟩

instance : CandidType Operation := ⟨.variant [
  .of "Approve" fun | .approve data => some data | _ => none,
  .of "Burn" fun | .burn data => some data | _ => none,
  .of "Mint" fun | .mint data => some data | _ => none,
  .of "Transfer" fun | .transfer data => some data | _ => none]⟩

instance : CandidType SweepStatus := ⟨.variant [
  .unit "Swept" .swept,
  .unit "FailedToSweep" .failedToSweep,
  .unit "NotSwept" .notSwept]⟩

instance : CandidType TokenType := ⟨.variant [
  .unit "ICP" .icp,
  .unit "CKUSDC" .ckusdc,
  .unit "CKUSDT" .ckusdt,
  .unit "CKBTC" .ckbtc]⟩

instance : CandidType StoredTransactions := ⟨.record [
  .of "index" StoredTransactions.index,
  .of "memo" StoredTransactions.memo,
  .of "icrc1_memo" StoredTransactions.icrc1Memo,
  .of "operation" StoredTransactions.operation,
  .of "created_at_time" StoredTransactions.createdAtTime,
  .of "sweep_status" StoredTransactions.sweepStatus,
  .of "tx_hash" StoredTransactions.txHash,
  .of "token_type" StoredTransactions.tokenType,
  .of "token_ledger_canister_id" StoredTransactions.tokenLedgerCanisterId]⟩

/-- `Storable::to_bytes` -/
def StoredTransactions.toBytes (tx : StoredTransactions) : Blob := encodeOne tx

/-- The `max_size` of the bound that the record declares -/
def MAX_VALUE_SIZE : Nat := 500

/-- The record keeps to the bound it declares. -/
def StoredTransactions.Fits (tx : StoredTransactions) : Prop := tx.toBytes.length ≤ MAX_VALUE_SIZE

instance (tx : StoredTransactions) : Decidable tx.Fits := inferInstanceAs (Decidable (_ ≤ _))

/-- The panic of `StableBTreeMap::insert` at a value longer than it has declared -/
def lengthTrap (length : Nat) : Trap :=
  ⟨"expected an element with length <= 500 bytes, but found " ++ toString length ++ " bytes"⟩

/-- `StableBTreeMap::insert` into `TRANSACTIONS` -/
def insertTransaction (transactions : Transactions) (index : UInt64) (tx : StoredTransactions) :
    Except Trap Transactions :=
  if tx.Fits then .ok (transactions.insert index tx)
  else .error (lengthTrap tx.toBytes.length)

/-! ## Sizes -/

/-- Sixteen composite types are described before the record begins. -/
theorem length_header : (header (encoding (α := StoredTransactions)).ty).length = 264 := by
  decide +kernel

@[simp] theorem length_timestamp (t : Timestamp) : (encoding.serialize t).length = 8 := by
  show ((Encoding.record _).serialize t).length = 8
  simp [length_record]

@[simp] theorem length_e8s (amount : E8s) : (encoding.serialize amount).length = 8 := by
  show ((Encoding.record _).serialize amount).length = 8
  simp [length_record]

@[simp] theorem length_sweepStatus (status : SweepStatus) :
    (encoding.serialize status).length = 1 := by
  refine length_variant (n := 0) (by decide) ?_ ?_
  · cases status <;> simp
  · simp

@[simp] theorem length_tokenType (t : TokenType) : (encoding.serialize t).length = 1 := by
  refine length_variant (n := 0) (by decide) ?_ ?_
  · cases t <;> simp
  · simp

/-- What an optional byte string takes -/
def blobSize : Option Blob → Nat
  | none => 1
  | some blob => blob.length + 2

theorem length_optBlob {blob : Option Blob} (short : ∀ b ∈ blob, b.length < 128) :
    (encoding.serialize blob).length = blobSize blob := by
  cases blob with
  | none => rfl
  | some b => rw [length_some, length_bytes (short b rfl), blobSize]

theorem length_transfer {data : Transfer} (recipient : data.to.length < 128)
    (sender : data.from.length < 128) (spender : ∀ b ∈ data.spender, b.length < 128) :
    (encoding.serialize data).length =
      data.to.length + data.from.length + blobSize data.spender + 18 := by
  show ((Encoding.record _).serialize data).length = _
  simp only [length_record]
  simp [length_bytes recipient, length_bytes sender, length_optBlob spender]
  omega

theorem length_operation (data : Transfer) :
    (encoding.serialize (Operation.transfer data)).length =
      (encoding.serialize data).length + 1 := by
  refine length_variant (by decide) ?_ ?_
  · simp
  · simp

/-- The size of the record of a transfer -/
theorem length_toBytes {tx : StoredTransactions} {data : Transfer} {p : Principal}
    (transfer : tx.operation = some (.transfer data))
    (ledger : tx.tokenLedgerCanisterId = some p) (memo : ∀ b ∈ tx.icrc1Memo, b.length < 128)
    (hash : (utf8 tx.txHash).length < 128) :
    tx.toBytes.length = 296 + blobSize tx.icrc1Memo + (encoding.serialize data).length +
      (utf8 tx.txHash).length + p.bytes.length := by
  have hprincipal : (encoding.serialize p).length = p.bytes.length + 2 :=
    length_principal (by have := p.length_le; omega)
  have hfields : (encoding.serialize tx).length = 32 + blobSize tx.icrc1Memo +
      (encoding.serialize data).length + (utf8 tx.txHash).length + p.bytes.length := by
    show ((Encoding.record _).serialize tx).length = _
    simp only [length_record]
    simp [transfer, ledger, hprincipal, length_operation, length_optBlob memo, length_text hash]
    omega
  rw [StoredTransactions.toBytes, encodeOne, List.length_append, length_header, hfields]
  omega

/-! ## What does not change the size -/

/-- Numbers, statuses and token types take the same room, whichever they are. -/
theorem length_toBytes_congr {a b : StoredTransactions} (memo : a.icrc1Memo = b.icrc1Memo)
    (operation : a.operation = b.operation) (hash : a.txHash = b.txHash)
    (ledger : a.tokenLedgerCanisterId = b.tokenLedgerCanisterId) :
    a.toBytes.length = b.toBytes.length := by
  have hlength : (encoding.serialize a).length = (encoding.serialize b).length := by
    show ((Encoding.record _).serialize a).length = ((Encoding.record _).serialize b).length
    simp only [length_record]
    simp [memo, operation, hash, ledger]
  rw [StoredTransactions.toBytes, StoredTransactions.toBytes, encodeOne, encodeOne,
    List.length_append, List.length_append, hlength]

theorem fits_congr {a b : StoredTransactions} (memo : a.icrc1Memo = b.icrc1Memo)
    (operation : a.operation = b.operation) (hash : a.txHash = b.txHash)
    (ledger : a.tokenLedgerCanisterId = b.tokenLedgerCanisterId) : a.Fits ↔ b.Fits := by
  rw [StoredTransactions.Fits, StoredTransactions.Fits,
    length_toBytes_congr memo operation hash ledger]

/-- The status takes one byte, whichever it is. -/
theorem length_toBytes_withStatus (tx : StoredTransactions) (status : SweepStatus) :
    (tx.withStatus status).toBytes.length = tx.toBytes.length := length_toBytes_congr rfl rfl rfl rfl

@[simp] theorem fits_withStatus (tx : StoredTransactions) (status : SweepStatus) :
    (tx.withStatus status).Fits ↔ tx.Fits := fits_congr rfl rfl rfl rfl

theorem insertTransaction_ok (transactions : Transactions) (index : UInt64)
    {tx : StoredTransactions} (fits : tx.Fits) :
    insertTransaction transactions index tx = .ok (transactions.insert index tx) := if_pos fits

theorem insertTransaction_error (transactions : Transactions) (index : UInt64)
    {tx : StoredTransactions} (long : ¬ tx.Fits) :
    insertTransaction transactions index tx = .error (lengthTrap tx.toBytes.length) := if_neg long

end SubaccountIndexer
