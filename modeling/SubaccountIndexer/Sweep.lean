import SubaccountIndexer.Poll

/-! The three argument builders, `update_status`, and the loop that `sweep`,
`sweep_by_token_type` and `single_sweep` share: they differ only in the records
they select. -/

namespace SubaccountIndexer

variable (E : Externals)

/-! ## Transfer arguments -/

/-- The subaccount a deposit went to, from its `to` blob; `role` is how the message about a
failed lookup names it. -/
def sourceSubaccount (c : Canister) (role : String) (topupTo : Blob) : Except String Subaccount :=
  match E.accountFromSlice topupTo with
  | .error err => .error ("Error converting to to AccountIdentifier: " ++ err)
  | .ok account =>
    match getSubaccount E c account with
    | .error err => .error ("Error getting " ++ role ++ ": " ++ err)
    | .ok subaccount => .ok subaccount

/-- The transfer a record holds, for the sweep builders -/
def transferOf (tx : StoredTransactions) : Except String Transfer :=
  match tx.operation with
  | none => .error "Operation is None"
  | some (.transfer data) => .ok data
  | some _ => .error "Operation is not a transfer"

/-- `to_sweep_args`. The subtraction wraps: the release profile has no overflow checks. -/
def toSweepArgs (c : Canister) (tx : StoredTransactions) :
    Except String (TransferArgs × Principal) := do
  let custodianId ← getCustodianId E c
  let data ← transferOf tx
  let sweepSourceSubaccount ← sourceSubaccount E c "from_subaccount" data.to
  .ok
    ({ memo := 0
       amount := data.amount.e8s - 10000
       fromSubaccount := some sweepSourceSubaccount
       fee := 10000
       «to» := custodianId
       createdAtTime := none },
     c.getTokenLedgerCanisterId tx.tokenType)

/-- `to_icrc1_sweep_args` -/
def toIcrc1SweepArgs (c : Canister) (tx : StoredTransactions) :
    Except String (Icrc1TransferArg × Principal) := do
  let custodianPrincipal ← match c.custodianPrincipal with
    | some p => .ok p
    | none => .error "Failed to get custodian principal"
  let data ← transferOf tx
  let sweepSourceSubaccount ← sourceSubaccount E c "from_subaccount" data.to
  let fee : UInt64 := match tx.tokenType with
    | .ckbtc => 10
    | _ => 10000
  .ok
    ({ «to» := { owner := custodianPrincipal, subaccount := none }
       fee := some fee.toNat
       memo := none
       fromSubaccount := some sweepSourceSubaccount
       createdAtTime := none
       amount := (data.amount.e8s - fee).toNat },
     c.getTokenLedgerCanisterId tx.tokenType)

/-- `to_refund_args`, which unwraps the operation -/
def toRefundArgs (c : Canister) (tx : StoredTransactions) :
    Except Trap (Except String (TransferArgs × Principal)) :=
  match tx.operation with
  | none => .error ⟨"called `Option::unwrap()` on a `None` value"⟩
  | some (.transfer data) => .ok do
    let refundTo ← match E.accountFromSlice data.from with
      | .ok account => .ok account
      | .error err => .error ("Error converting from to AccountIdentifier: " ++ err)
    let refundSourceSubaccount ← sourceSubaccount E c "to_subaccount" data.to
    .ok
      ({ memo := 0
         amount := data.amount.e8s - 10000
         fromSubaccount := some refundSourceSubaccount
         fee := 10000
         «to» := refundTo
         createdAtTime := none },
       c.getTokenLedgerCanisterId tx.tokenType)
  | some _ => .ok (.error "Operation is not a transfer")

/-- The call a sweep issues for a record: the token type decides the interface. -/
def sweepCall (c : Canister) (tx : StoredTransactions) : Except String TransferCall :=
  match tx.tokenType with
  | .icp => (toSweepArgs E c tx).map fun args => .transfer args.1 args.2
  | .ckusdc | .ckusdt | .ckbtc =>
    (toIcrc1SweepArgs E c tx).map fun args => .icrc1Transfer args.1 args.2

/-! ## `update_status` -/

/-- `update_status`: insert first, look at what was there afterwards -/
def updateStatus (transactions : Transactions) (tx : StoredTransactions) (status : SweepStatus) :
    Except Trap (Transactions × Except String Unit) := do
  let prevTx := transactions[tx.index]?
  let transactions ← insertTransaction transactions tx.index (tx.withStatus status)
  .ok (transactions,
    match prevTx with
    | some _ => .ok ()
    | none =>
      .error ("Transaction with index " ++ toString tx.index ++ " not found when updating"))

/-! ## Selecting records -/

/-- The last `upToCount` of the filtered records -/
def lastTransactions (upToCount : Nat) (filtered : List StoredTransactions) :
    List StoredTransactions :=
  let skip := if filtered.length < upToCount then 0 else filtered.length - upToCount
  (filtered.drop skip).take upToCount

def Canister.storedWhere (c : Canister) (p : StoredTransactions → Bool) :
    List StoredTransactions :=
  (c.transactions.toList.map Prod.snd).filter p

/-- The records `sweep` goes over -/
def sweepSelection (c : Canister) : List StoredTransactions :=
  lastTransactions 100 (c.storedWhere fun tx => tx.sweepStatus == .notSwept)

/-- The records `sweep_by_token_type` goes over -/
def sweepByTokenTypeSelection (c : Canister) (tokenType : TokenType) : List StoredTransactions :=
  lastTransactions 100
    (c.storedWhere fun tx => tx.sweepStatus == .notSwept && tx.tokenType == tokenType)

/-- The records `single_sweep` and `set_sweep_failed` go over -/
def hashSelection (c : Canister) (txHashArg : String) : List StoredTransactions :=
  c.storedWhere fun tx => tx.txHash == txHashArg

/-! ## The sweep loop -/

/-- Where a sweep stands when a message ends -/
inductive SweepStatusOfCall where
  | returned (result : Except String (List String))
  /-- It waits for the ledger's answer about `tx`; `rest` and the report so far follow. -/
  | awaiting (tx : StoredTransactions) (rest : List StoredTransactions) (results : List String)

structure SweepTurn where
  canister : Canister
  status : SweepStatusOfCall
  events : List Event

/-- The loop from the head of `txs` to its next await or its end -/
def sweepTxs (c : Canister) (results : List String) : List StoredTransactions → SweepTurn
  | [] => ⟨c, .returned (.ok results), []⟩
  | tx :: rest =>
    match sweepCall E c tx with
    | .error e => ⟨c, .returned (.error e), []⟩
    | .ok call => ⟨c, .awaiting tx rest results, [.transfer tx call]⟩

/-- The text of a block index in a report: `u64` for ICP, `candid::Nat` otherwise -/
def blockIndexText (tokenType : TokenType) (index : Nat) : String :=
  match tokenType with
  | .icp => toString index
  | _ => E.natToText index

/-- The `match transfer_result` of the loop: the status written back and the report line -/
def recordTransfer (tx : StoredTransactions) (transferResult : Except String Nat) :
    SweepStatus × String :=
  match transferResult with
  | .ok blockIdx =>
    (.swept, "tx: " ++ toString tx.index ++ ", sweep: ok (block " ++
      blockIndexText E tx.tokenType blockIdx ++ "), status_update: ")
  | .error e => (.failedToSweep, "tx: " ++ toString tx.index ++ ", sweep: " ++ e ++
      ", status_update: ")

def statusText : Except String Unit → String
  | .ok () => "ok"
  | .error message => message

/-- The ledger has answered the transfer of `tx`: write the status back and go on. -/
def sweepReply (c : Canister) (tx : StoredTransactions) (rest : List StoredTransactions)
    (results : List String) (transferResult : Except String Nat) : Except Trap SweepTurn := do
  let (status, line) := recordTransfer E tx transferResult
  let (transactions, statusUpdate) ← updateStatus c.transactions tx status
  let turn := sweepTxs E { c with transactions } (results ++ [line ++ statusText statusUpdate]) rest
  .ok { turn with events :=
      [.replied tx transferResult, .statusWritten tx status c.transactions[tx.index]?] ++
        turn.events }

/-! ## `refund` -/

inductive RefundStatus where
  | returned (result : Except String String)
  | awaiting (tx : StoredTransactions)

structure RefundTurn where
  canister : Canister
  status : RefundStatus
  events : List Event

/-- `refund` up to its transfer -/
def refund (c : Canister) (transactionIndex : UInt64) : Except Trap RefundTurn :=
  match c.transactions[transactionIndex]? with
  | none =>
    .ok ⟨c, .returned (.error
      ("Transaction index " ++ toString transactionIndex ++ " is not found")), []⟩
  | some transaction => do
    match ← toRefundArgs E c transaction with
    | .error e => .ok ⟨c, .returned (.error e), []⟩
    | .ok (args, ledger) =>
      .ok ⟨c, .awaiting transaction, [.transfer transaction (.transfer args ledger)]⟩

/-- `refund` after its transfer: only a successful one writes a status. -/
def refundReply (c : Canister) (transaction : StoredTransactions)
    (transferResult : Except String Nat) : Except Trap RefundTurn :=
  match transferResult with
  | .error e => .ok ⟨c, .returned (.error e), [.replied transaction transferResult]⟩
  | .ok _ => do
    let (transactions, statusUpdate) ← updateStatus c.transactions transaction .swept
    .ok ⟨{ c with transactions },
      .returned (statusUpdate.map fun _ => "Refund & tx update is successful"),
      [.replied transaction transferResult,
        .statusWritten transaction .swept c.transactions[transaction.index]?]⟩

/-! ## `set_sweep_failed` -/

/-- The loop of `set_sweep_failed`, which awaits nothing -/
def setSweepFailedTxs (transactions : Transactions) (results : List String) :
    List StoredTransactions → Except Trap (Transactions × List String × List Event)
  | [] => .ok (transactions, results, [])
  | tx :: rest => do
    let (next, statusUpdate) ← updateStatus transactions tx .failedToSweep
    let line := "tx: " ++ toString tx.index ++ ", status_update: " ++
      match statusUpdate with
      | .ok () => "ok, new_status: FailedToSweep"
      | .error message => message
    let (last, lines, events) ← setSweepFailedTxs next (results ++ [line]) rest
    .ok (last, lines, .statusWritten tx .failedToSweep transactions[tx.index]? :: events)

/-! ## `clear_transactions` -/

/-- Which records `clear_transactions` removes: an absent argument and 0 mean the same. -/
def clearSelects (upToIndex : UInt64) (upToTimestamp : Timestamp) (tx : StoredTransactions) :
    Bool :=
  (upToIndex != 0 && tx.index ≤ upToIndex) ||
    (upToTimestamp.timestampNanos != 0 &&
      tx.createdAtTime.timestampNanos ≤ upToTimestamp.timestampNanos)

def keysToRemove (transactions : Transactions) (upToIndex : UInt64) (upToTimestamp : Timestamp) :
    List UInt64 :=
  (transactions.toList.filter fun entry => clearSelects upToIndex upToTimestamp entry.2).map
    Prod.fst

/-- `clear_transactions` on the store: what is left and what went -/
def clearTransactions (transactions : Transactions) (upToIndex : Option UInt64)
    (upToTimestamp : Option Timestamp) : Transactions × List Event :=
  let keys := keysToRemove transactions (upToIndex.getD 0) (upToTimestamp.getD ⟨0⟩)
  (keys.foldl (fun store key => store.erase key) transactions,
    keys.filterMap fun key => transactions[key]?.map .removed)

end SubaccountIndexer
