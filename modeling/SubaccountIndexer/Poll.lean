import SubaccountIndexer.Icrc3
import SubaccountIndexer.Storable

/-! `query_token_ledger`: ask a ledger for the next blocks, go over them once and
store the transfers that touch a subaccount. -/

namespace SubaccountIndexer

/-! ## Asking the ledger -/

/-- Whether `query_blocks` speaks ICRC-3 to this ledger -/
def usesIcrc3 (ledgerPrincipal : Principal) : Bool :=
  ledgerPrincipal = CKUSDC_LEDGER_CANISTER_ID || ledgerPrincipal = CKUSDT_LEDGER_CANISTER_ID ||
    ledgerPrincipal = CKBTC_LEDGER_CANISTER_ID

inductive BlocksCall where
  | queryBlocks (req : QueryBlocksRequest)
  | icrc3GetBlocks (start length : Nat)
deriving DecidableEq

/-- The call `InterCanisterCallManager::query_blocks` makes -/
def blocksCall (ledgerPrincipal : Principal) (req : QueryBlocksRequest) : BlocksCall :=
  if usesIcrc3 ledgerPrincipal then .icrc3GetBlocks req.start.toNat req.length.toNat
  else .queryBlocks req

/-- What comes back from a ledger; a reply that does not decode is a rejection. -/
inductive LedgerReply where
  | rejected (code message : String)
  | queryBlocks (response : QueryBlocksResponse)
  | icrc3GetBlocks (result : Icrc3GetBlocksResult)

variable (E : Externals)

/-- What `InterCanisterCallManager::query_blocks` makes of the reply -/
def queryBlocks (ledgerPrincipal : Principal) (req : QueryBlocksRequest) (reply : LedgerReply) :
    Except Trap (Except (String × String) QueryBlocksResponse) :=
  if usesIcrc3 ledgerPrincipal then
    match reply with
    | .icrc3GetBlocks icrc3Response => do
      let blocks ← Icrc3.liveBlocks E icrc3Response.blocks
      .ok (.ok
        { certificate := none
          blocks
          chainLength := Icrc3.toU64OrZero icrc3Response.logLength
          firstBlockIndex := req.start
          archivedBlocks := [] })
    | .rejected code message => .ok (.error (code, message))
    | .queryBlocks _ => .ok (.error ("CanisterError", "failed to decode canister response"))
  else
    match reply with
    | .queryBlocks response => .ok (.ok response)
    | .rejected code message => .ok (.error (code, message))
    | .icrc3GetBlocks _ => .ok (.error ("CanisterError", "failed to decode canister response"))

def pollRequest (nextBlock : UInt64) : QueryBlocksRequest := ⟨nextBlock, 100⟩

/-! ## The block loop -/

/-- Whether an operation touches a subaccount: for a transfer the recipient or the spender.
The three places that index blocks make this same choice. -/
def subaccountExist (subaccounts : Subaccounts) : Operation → Bool
  | .approve data =>
    includesHash E subaccounts data.from || includesHash E subaccounts data.spender
  | .burn data =>
    includesHash E subaccounts data.from || data.spender.any (includesHash E subaccounts)
  | .mint data => includesHash E subaccounts data.to
  | .transfer data =>
    includesHash E subaccounts data.to || data.spender.any (includesHash E subaccounts)

/-- What the block loop carries from turn to turn; `stored` lists the records inserted. -/
structure Scan where
  transactions : Transactions
  firstBlockHash : String := ""
  blockCount : UInt64
  stored : List StoredTransactions := []

/-- The body of the block loop -/
def scanBlock (subaccounts : Subaccounts) (tokenType : TokenType) (tokenPrincipal : Principal)
    (s : Scan) (block : Block) : Except Trap Scan :=
  match block.transaction.operation with
  | none => .ok { s with blockCount := s.blockCount + 1 }
  | some operation =>
    if subaccountExist E subaccounts operation then do
      let hash ← hashOrPlaceholder E block.transaction
      let transaction :=
        StoredTransactions.new s.blockCount block.transaction hash tokenType tokenPrincipal
      if s.transactions.contains s.blockCount then
        .ok { s with blockCount := s.blockCount + 1 }
      else
        let transactions ← insertTransaction s.transactions s.blockCount transaction
        .ok
          { transactions
            firstBlockHash := if s.firstBlockHash.isEmpty then hash else s.firstBlockHash
            blockCount := s.blockCount + 1
            stored := s.stored ++ [transaction] }
    else .ok { s with blockCount := s.blockCount + 1 }

def scanBlocks (subaccounts : Subaccounts) (tokenType : TokenType) (tokenPrincipal : Principal) :
    Scan → List Block → Except Trap Scan
  | s, [] => .ok s
  | s, block :: rest => do
    scanBlocks subaccounts tokenType tokenPrincipal
      (← scanBlock E subaccounts tokenType tokenPrincipal s block) rest

/-! ## After the loop -/

/-- The HTTP call `send_webhook` makes, if it makes one -/
def sendWebhook (c : Canister) (txHash : String) : Option String :=
  if c.webhookUrl.isEmpty then none
  else
    match E.urlParse c.webhookUrl with
    | .ok _ => some (E.urlWithTxHash c.webhookUrl txHash)
    | .error _ => none

/-- What becomes of a poll when its ledger has answered -/
inductive PollStatus where
  /-- `query_token_ledger` has returned this block count. -/
  | returned (blockCount : UInt64)
  /-- It waits for the webhook and will return this block count. -/
  | webhook (txHash : String) (blockCount : UInt64)
deriving DecidableEq

/-- The number the ledger gives to the block that the loop numbered `index` -/
def ledgerIndexOf (nextBlock : UInt64) (response : QueryBlocksResponse) (index : UInt64) : UInt64 :=
  response.firstBlockIndex + (index - nextBlock)

structure PollTurn where
  canister : Canister
  status : PollStatus
  events : List Event

/-- `query_token_ledger` from the ledger's answer to its return or to the webhook -/
def queryTokenLedger (c : Canister) (tokenType : TokenType) (tokenPrincipal : Principal)
    (nextBlock : UInt64) (answer : Except (String × String) QueryBlocksResponse) :
    Except Trap PollTurn :=
  match answer with
  | .error _ => .ok ⟨c, .returned nextBlock, []⟩
  | .ok response => do
    let s ← scanBlocks E c.listOfSubaccounts tokenType tokenPrincipal
      { transactions := c.transactions, blockCount := nextBlock } response.blocks
    let c' := { c with transactions := s.transactions }
    let events := s.stored.map fun tx => Event.stored tx (ledgerIndexOf nextBlock response tx.index)
    if s.firstBlockHash.isEmpty then .ok ⟨c', .returned s.blockCount, events⟩
    else
      match sendWebhook E c' s.firstBlockHash with
      | some _ =>
        .ok ⟨c', .webhook s.firstBlockHash s.blockCount, events ++ [.webhook s.firstBlockHash]⟩
      | none => .ok ⟨c', .returned s.blockCount, events⟩

/-- `call_query_blocks` writing back what a poll returned; ICP also moves the legacy cursor. -/
def writeCursor (c : Canister) (tokenType : TokenType) (result : UInt64) : Canister :=
  let c := c.setTokenNextBlock tokenType result
  if tokenType = .icp then { c with nextBlock := result } else c

theorem writeCursor_eq (c : Canister) (t : TokenType) (x : UInt64) : writeCursor c t x =
    { c with tokenNextBlocks := c.tokenNextBlocks.insert (getTokenId t) x,
             nextBlock := if t = .icp then x else c.nextBlock } := by
  by_cases ht : t = .icp <;> simp [writeCursor, Canister.setTokenNextBlock, ht]

/-- The polls one round of `call_query_blocks` starts: every registered token, and ICP on
the default ledger if it is not registered. -/
def pollsToStart (c : Canister) : List (TokenType × Principal × UInt64) :=
  let registered := c.tokenLedgerPrincipals.toList.map fun entry =>
    (entry.2.1, entry.2.2, c.getTokenNextBlock entry.2.1)
  let icpRegistered := c.tokenLedgerPrincipals.toList.any fun entry => entry.2.1 == .icp
  if icpRegistered then registered
  else
    match c.principal with
    | some icpPrincipal => registered ++ [(.icp, icpPrincipal, c.getTokenNextBlock .icp)]
    | none => registered

namespace Examples

def blockOf (operation : Operation) : Block where
  transaction := { memo := 0, icrc1Memo := none, operation := some operation,
                   createdAtTime := ⟨1000⟩ }
  timestamp := ⟨1000⟩
  parentHash := none

/-- A deposit to subaccount 1 -/
def deposit : Block :=
  blockOf (.transfer { «to» := account1.toList, fee := ⟨10000⟩, «from» := payerAccount.toList,
                       amount := ⟨100000⟩, spender := none })

/-- The record of that deposit as block 1 of the ICP ledger -/
def record : StoredTransactions :=
  .new 1 deposit.transaction "ffd97e60db2928f7d87f3000015c517ff5677f01fd9cb13a8e06ce7e19562987" .icp
    MAINNET_LEDGER_CANISTER_ID

/-- The same deposit as the ckUSDC ledger records it, with the account it names as the
recipient -/
def icrc3Deposit (recipient : List Icrc3Value) : Icrc3Value :=
  .map [("tx", .map [("op", .text "xfer"), ("from", .array [.blob payer.bytes]),
      ("to", .array recipient), ("amt", .nat 100000), ("fee", .nat 10000)]), ("ts", .nat 1000)]

def icrc3Recipient : List Icrc3Value := [.blob canister.bytes, .blob subaccount1.toList]

example : Icrc3.liveBlock externals (icrc3Deposit icrc3Recipient) = .ok (some deposit) := rfl

/-- Subaccount 1 spends from the payer's account, to the custodian. -/
def spending : Block :=
  blockOf (.transfer { «to» := custodianAccount.toList, fee := ⟨10000⟩,
                       «from» := payerAccount.toList, amount := ⟨100000⟩,
                       spender := some account1.toList })

/-- Subaccount 0 lets the custodian spend from it. -/
def approval : Block :=
  blockOf (.approve { fee := ⟨10000⟩, «from» := account0.toList, allowanceE8s := 0,
                      allowance := ⟨100000⟩, expectedAllowance := none, expiresAt := none,
                      spender := custodianAccount.toList })

/-- A response whose first block has number `firstBlockIndex` -/
def responseAt (firstBlockIndex : UInt64) (blocks : List Block) : QueryBlocksResponse where
  certificate := none
  blocks
  chainLength := firstBlockIndex + UInt64.ofNat blocks.length
  firstBlockIndex
  archivedBlocks := if firstBlockIndex = 0 then [] else [⟨0, firstBlockIndex⟩]

end Examples

end SubaccountIndexer
