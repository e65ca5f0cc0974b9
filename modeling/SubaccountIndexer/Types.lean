import Std.Data.ExtTreeMap
import Mathlib.Algebra.Group.Nat.Defs
import Mathlib.Data.Finset.Basic

/-! The data model: what the ledgers answer, what the canister stores and what
it sends. Byte vectors are lists, fixed-width integers are Lean's own, and a
32-byte array or a principal carries the bound on its length. -/

namespace SubaccountIndexer

abbrev Blob := List UInt8

/-- A panic: the message that was being executed is rolled back. -/
structure Trap where
  message : String
deriving DecidableEq, Repr

/-- `[u8; 32]` -/
structure Bytes32 where
  toList : Blob
  length_eq : toList.length = 32
deriving DecidableEq

abbrev AccountIdentifier := Bytes32
abbrev Subaccount := Bytes32

/-- `candid::Principal`, at most 29 bytes -/
structure Principal where
  bytes : Blob
  length_le : bytes.length ≤ 29
deriving DecidableEq

/-- `Principal::from_slice` panics on a slice that is too long. -/
def Principal.fromSlice (bytes : Blob) : Except Trap Principal :=
  if h : bytes.length ≤ 29 then .ok ⟨bytes, h⟩ else .error ⟨"slice length exceeds capacity"⟩

theorem Principal.fromSlice_bytes (p : Principal) : Principal.fromSlice p.bytes = .ok p := by
  simp [Principal.fromSlice, p.length_le]

theorem Bytes32.toList_injective {a b : Bytes32} (h : a.toList = b.toList) : a = b := by
  cases a; cases b; simpa using h

def CKUSDC_LEDGER_CANISTER_ID : Principal := ⟨[0, 0, 0, 0, 2, 48, 1, 91, 1, 1], by decide⟩
def CKUSDT_LEDGER_CANISTER_ID : Principal := ⟨[0, 0, 0, 0, 2, 48, 1, 185, 1, 1], by decide⟩
def CKBTC_LEDGER_CANISTER_ID : Principal := ⟨[0, 0, 0, 0, 2, 48, 0, 6, 1, 1], by decide⟩
/-- The constant of `ic_ledger_types`, `ryjl3-tyaaa-aaaaa-aaaba-cai` -/
def MAINNET_LEDGER_CANISTER_ID : Principal := ⟨[0, 0, 0, 0, 0, 0, 0, 2, 1, 1], by decide⟩

def DEFAULT_SUBACCOUNT : Subaccount := ⟨List.replicate 32 0, by decide⟩

inductive Network where
  | mainnet
  | local
deriving DecidableEq, Repr

inductive TokenType where
  | icp
  | ckusdc
  | ckusdt
  | ckbtc
deriving DecidableEq, Repr

inductive SweepStatus where
  | swept
  | failedToSweep
  | notSwept
deriving DecidableEq, Repr

/-! ## Blocks -/

structure Timestamp where
  timestampNanos : UInt64
deriving DecidableEq

structure E8s where
  e8s : UInt64
deriving DecidableEq

structure Approve where
  fee : E8s
  «from» : Blob
  allowanceE8s : Int64
  allowance : E8s
  expectedAllowance : Option E8s
  expiresAt : Option Timestamp
  spender : Blob
deriving DecidableEq

structure Burn where
  «from» : Blob
  amount : E8s
  spender : Option Blob
deriving DecidableEq

structure Mint where
  «to» : Blob
  amount : E8s
deriving DecidableEq

structure Transfer where
  «to» : Blob
  fee : E8s
  «from» : Blob
  amount : E8s
  spender : Option Blob
deriving DecidableEq

inductive Operation where
  | approve (data : Approve)
  | burn (data : Burn)
  | mint (data : Mint)
  | transfer (data : Transfer)
deriving DecidableEq

structure Transaction where
  memo : UInt64
  icrc1Memo : Option Blob
  operation : Option Operation
  createdAtTime : Timestamp
deriving DecidableEq

structure Block where
  transaction : Transaction
  timestamp : Timestamp
  parentHash : Option Blob
deriving DecidableEq

structure QueryBlocksRequest where
  start : UInt64
  length : UInt64
deriving DecidableEq

/-- A range of blocks the ledger has moved to an archive. -/
structure ArchivedBlock where
  start : UInt64
  length : UInt64
deriving DecidableEq

structure QueryBlocksResponse where
  certificate : Option Blob
  blocks : List Block
  chainLength : UInt64
  firstBlockIndex : UInt64
  archivedBlocks : List ArchivedBlock
deriving DecidableEq

/-! ## Stored records -/

/-- `StoredTransactionsV2` -/
structure StoredTransactions where
  index : UInt64
  memo : UInt64
  icrc1Memo : Option Blob
  operation : Option Operation
  createdAtTime : Timestamp
  sweepStatus : SweepStatus
  txHash : String
  tokenType : TokenType
  tokenLedgerCanisterId : Option Principal
deriving DecidableEq

def StoredTransactions.new (index : UInt64) (transaction : Transaction) (hash : String)
    (tokenType : TokenType) (tokenLedgerCanisterId : Principal) : StoredTransactions where
  index
  memo := transaction.memo
  icrc1Memo := transaction.icrc1Memo
  operation := transaction.operation
  createdAtTime := transaction.createdAtTime
  sweepStatus := .notSwept
  txHash := hash
  tokenType
  tokenLedgerCanisterId := some tokenLedgerCanisterId

def StoredTransactions.withStatus (tx : StoredTransactions) (status : SweepStatus) :
    StoredTransactions := { tx with sweepStatus := status }

@[simp] theorem StoredTransactions.withStatus_index (tx : StoredTransactions) (s : SweepStatus) :
    (tx.withStatus s).index = tx.index := rfl
@[simp] theorem StoredTransactions.withStatus_tokenType (tx : StoredTransactions)
    (s : SweepStatus) : (tx.withStatus s).tokenType = tx.tokenType := rfl
@[simp] theorem StoredTransactions.withStatus_operation (tx : StoredTransactions)
    (s : SweepStatus) : (tx.withStatus s).operation = tx.operation := rfl
@[simp] theorem StoredTransactions.withStatus_sweepStatus (tx : StoredTransactions)
    (s : SweepStatus) : (tx.withStatus s).sweepStatus = s := rfl
@[simp] theorem StoredTransactions.withStatus_ledger (tx : StoredTransactions)
    (s : SweepStatus) : (tx.withStatus s).tokenLedgerCanisterId = tx.tokenLedgerCanisterId := rfl
@[simp] theorem StoredTransactions.withStatus_withStatus (tx : StoredTransactions)
    (s s' : SweepStatus) : (tx.withStatus s).withStatus s' = tx.withStatus s' := rfl

/-- Two records of one ledger transaction: they agree in all but the sweep status. -/
def StoredTransactions.SameTransaction (a b : StoredTransactions) : Prop :=
  a.withStatus .notSwept = b.withStatus .notSwept

instance (a b : StoredTransactions) : Decidable (a.SameTransaction b) :=
  inferInstanceAs (Decidable (_ = _))

/-! ## Transfers the canister issues -/

/-- `ic_ledger_types::TransferArgs` -/
structure TransferArgs where
  memo : UInt64
  amount : UInt64
  fee : UInt64
  fromSubaccount : Option Subaccount
  «to» : AccountIdentifier
  createdAtTime : Option Timestamp
deriving DecidableEq

structure Account where
  owner : Principal
  subaccount : Option Subaccount
deriving DecidableEq

/-- `icrc_ledger_types::icrc1::transfer::TransferArg` -/
structure Icrc1TransferArg where
  fromSubaccount : Option Subaccount
  «to» : Account
  fee : Option Nat
  createdAtTime : Option UInt64
  memo : Option Blob
  amount : Nat
deriving DecidableEq

/-- A transfer call: the ledger interface it uses, its argument and the ledger it goes to. -/
inductive TransferCall where
  | transfer (args : TransferArgs) (tokenLedgerCanisterId : Principal)
  | icrc1Transfer (args : Icrc1TransferArg) (tokenLedgerCanisterId : Principal)
deriving DecidableEq

def TransferCall.ledger : TransferCall → Principal
  | .transfer _ ledger => ledger
  | .icrc1Transfer _ ledger => ledger

def TransferCall.fromSubaccount : TransferCall → Option Subaccount
  | .transfer args _ => args.fromSubaccount
  | .icrc1Transfer args _ => args.fromSubaccount

/-! ## What a message does that can be observed -/

inductive Event where
  /-- A poll of a token from `nextBlock` was answered with these blocks. -/
  | answered (tokenType : TokenType) (nextBlock : UInt64) (blocks : List Block)
  /-- A new record went into the store; the ledger numbers its block `ledgerIndex`. -/
  | stored (tx : StoredTransactions) (ledgerIndex : UInt64)
  | webhook (txHash : String)
  /-- A transfer call was issued for a record. -/
  | transfer (tx : StoredTransactions) (call : TransferCall)
  /-- A transfer call was issued for a subaccount named by its address. -/
  | subaccountTransfer (call : TransferCall)
  /-- The ledger answered the transfer of a record. -/
  | replied (tx : StoredTransactions) (reply : Except String Nat)
  /-- `update_status` wrote a record back; `previous` is what the insertion replaced. -/
  | statusWritten (tx : StoredTransactions) (status : SweepStatus)
      (previous : Option StoredTransactions)
  | removed (tx : StoredTransactions)
  | trapped (trap : Trap)
deriving DecidableEq

/-! ## Maps -/

abbrev Transactions := Std.ExtTreeMap UInt64 StoredTransactions
/-- From the hash of an account identifier to the subaccount behind it. -/
abbrev Subaccounts := Std.ExtTreeMap UInt64 Subaccount
abbrev TokenLedgers := Std.ExtTreeMap UInt64 (TokenType × Principal)
abbrev TokenNextBlocks := Std.ExtTreeMap UInt8 UInt64

end SubaccountIndexer
