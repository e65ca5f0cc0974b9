import SubaccountIndexer.Sweep

/-! `process_token_archived_block`: fetch one archived block, from the ICP ledger
and its archive callback or from an ICRC-3 ledger and its archives, and store it
if it touches a subaccount. -/

namespace SubaccountIndexer

/-! ## The types of `ic_ledger_types` -/

namespace IcLedger

inductive Operation where
  | mint («to» : AccountIdentifier) (amount : UInt64)
  | burn («from» : AccountIdentifier) (amount : UInt64)
  | transfer («from» «to» : AccountIdentifier) (amount fee : UInt64)
  | approve («from» spender : AccountIdentifier) (fee : UInt64)
  | transferFrom («from» «to» spender : AccountIdentifier) (amount fee : UInt64)

structure Block where
  memo : UInt64
  operation : Option Operation
  createdAtTime : Timestamp
  timestamp : Timestamp
  parentHash : Option Bytes32

structure QueryBlocksResponse where
  blocks : List Block
  archivedBlocks : List ArchivedBlock

/-- `local_operation` of `process_archived_block` -/
def Operation.toLocal : Operation → SubaccountIndexer.Operation
  | .transfer «from» «to» amount fee =>
    .transfer { «from» := from.toList, «to» := to.toList, amount := ⟨amount⟩, fee := ⟨fee⟩,
                spender := none }
  | .transferFrom «from» «to» spender amount fee =>
    .transfer { «from» := from.toList, «to» := to.toList, amount := ⟨amount⟩, fee := ⟨fee⟩,
                spender := some spender.toList }
  | .mint «to» amount => .mint { «to» := to.toList, amount := ⟨amount⟩ }
  | .burn «from» amount => .burn { «from» := from.toList, amount := ⟨amount⟩, spender := none }
  | .approve «from» spender fee =>
    .approve { «from» := from.toList, spender := spender.toList, fee := ⟨fee⟩,
               allowance := ⟨0⟩, allowanceE8s := 0, expectedAllowance := none, expiresAt := none }

/-- `local_block` of `process_archived_block` -/
def Block.toLocal (b : Block) : SubaccountIndexer.Block where
  transaction :=
    { memo := b.memo
      icrc1Memo := none
      operation := b.operation.map Operation.toLocal
      createdAtTime := b.createdAtTime }
  timestamp := b.timestamp
  parentHash := b.parentHash.map Bytes32.toList

end IcLedger

structure Icrc3ArchiveInfo where
  canisterId : Principal
  start : Nat
  «end» : Nat

/-- A call that failed: the rejection code as `{:?}` prints it, and the message -/
abbrev CallResult (α : Type) := Except (String × String) α

/-- Where `process_token_archived_block` waits -/
inductive ArchiveAwait where
  | icpLedger (blockIndex : UInt64)
  | icpArchive (blockIndex : UInt64)
  | icrc3Ledger (tokenType : TokenType) (ledgerPrincipal : Principal) (blockIndex : UInt64)
  | icrc3Archives (tokenType : TokenType) (ledgerPrincipal : Principal) (blockIndex : UInt64)
  | icrc3Archive (tokenType : TokenType) (ledgerPrincipal : Principal) (blockIndex : UInt64)
      (archive : Principal)

inductive ArchiveReply where
  | icpLedger (result : CallResult IcLedger.QueryBlocksResponse)
  | icpArchive (result : CallResult (Except String (List IcLedger.Block)))
  | icrc3Blocks (result : CallResult Icrc3GetBlocksResult)
  | icrc3Archives (result : CallResult (List Icrc3ArchiveInfo))

inductive ArchiveStatus where
  | returned (result : Except String String)
  | awaiting (await : ArchiveAwait)

structure ArchiveTurn where
  canister : Canister
  status : ArchiveStatus
  events : List Event

/-- How `{:?}` prints a token type -/
def TokenType.debug : TokenType → String
  | .icp => "ICP"
  | .ckusdc => "CKUSDC"
  | .ckusdt => "CKUSDT"
  | .ckbtc => "CKBTC"

/-- How `{:?}` prints a vector that holds one hash -/
def debugHash (hash : String) : String := "[\"" ++ hash ++ "\"]"

variable (E : Externals)

/-- What storing one archived block comes to -/
inductive ArchiveIndexing where
  | irrelevant
  | present
  | inserted (tx : StoredTransactions)

/-- `if subaccount_exist { .. }` of the two archive paths. They differ in one thing: the
ICP path hashes before it looks whether the key is taken, the ICRC-3 path afterwards. -/
def indexArchivedBlock (hashFirst : Bool) (c : Canister) (tokenType : TokenType)
    (tokenPrincipal : Principal) (blockIndex : UInt64) (block : Block) :
    Except Trap ArchiveIndexing :=
  match block.transaction.operation with
  | none => .ok .irrelevant
  | some operation =>
    if subaccountExist E c.listOfSubaccounts operation then
      if c.transactions.contains blockIndex && !hashFirst then .ok .present
      else do
        let hash ← hashOrPlaceholder E block.transaction
        if c.transactions.contains blockIndex then .ok .present
        else
          .ok (.inserted
            (StoredTransactions.new blockIndex block.transaction hash tokenType tokenPrincipal))
    else .ok .irrelevant

def insertArchived (c : Canister) (tx : StoredTransactions) : Except Trap Canister := do
  let transactions ← insertTransaction c.transactions tx.index tx
  .ok { c with transactions }

def ledgerOrMainnet (c : Canister) : Principal := c.principal.getD MAINNET_LEDGER_CANISTER_ID

/-- The end of `process_archived_block`, once the block is there -/
def storeIcpBlock (c : Canister) (blockIndex : UInt64) (icBlock : Option IcLedger.Block) :
    Except Trap ArchiveTurn :=
  match icBlock with
  | none =>
    .ok ⟨c, .returned (.ok ("Block " ++ toString blockIndex ++ " not found (ledger/archives).")), []⟩
  | some icBlock => do
    match ← indexArchivedBlock E true c .icp (ledgerOrMainnet c) blockIndex icBlock.toLocal with
    | .inserted tx =>
      let c ← insertArchived c tx
      .ok ⟨c,
        .returned (.ok ("Processed ICP block " ++ toString blockIndex ++
          " from archive path. Stored 1 tx(s). Hashes: " ++ debugHash tx.txHash)),
        [.stored tx blockIndex]⟩
    | _ =>
      .ok ⟨c, .returned (.ok ("Processed ICP block " ++ toString blockIndex ++
        " but found no transactions for canister subaccounts")), []⟩

/-- The archive range whose callback is called -/
def archivedRangeFor (blockIndex : UInt64) (ranges : List ArchivedBlock) : Option ArchivedBlock :=
  ranges.find? fun r => r.start ≤ blockIndex && blockIndex - r.start < r.length

def convertIcrc3 : List Icrc3BlockWithId → Except Trap (List Block)
  | [] => .ok []
  | b :: rest => do
    let block ← icrc3BlockToBlock E b
    let blocks ← convertIcrc3 rest
    .ok (block.toList ++ blocks)

/-- The end of the ICRC-3 branch, once the blocks are there -/
def storeIcrc3Block (c : Canister) (tokenType : TokenType) (ledgerPrincipal : Principal)
    (blockIndex : UInt64) (result : Icrc3GetBlocksResult) : Except Trap ArchiveTurn := do
  match ← convertIcrc3 E result.blocks with
  | [] => .ok ⟨c, .returned (.error "No block returned from archives"), []⟩
  | block :: _ =>
    match ← indexArchivedBlock E false c tokenType ledgerPrincipal blockIndex block with
    | .inserted tx =>
      let c ← insertArchived c tx
      .ok ⟨c,
        .returned (.ok ("Processed 1 archived block(s) for " ++ tokenType.debug ++ " at index " ++
          toString blockIndex ++ ". Found tx hashes: " ++ debugHash tx.txHash)),
        [.stored tx blockIndex]⟩
    | .present =>
      .ok ⟨c, .returned (.ok ("Transaction already exists at index " ++ toString blockIndex)), []⟩
    | .irrelevant =>
      .ok ⟨c, .returned (.ok ("Processed archived block " ++ toString blockIndex ++ " for " ++
        tokenType.debug ++ " but found no transactions for canister subaccounts")), []⟩

def toU64Or (default : UInt64) (n : Nat) : UInt64 :=
  if n < 2 ^ 64 then UInt64.ofNat n else default

/-- The loop of `query_single_icrc3_block_from_archives` over the archives -/
def selectArchive (blockIndex : UInt64) (archives : List Icrc3ArchiveInfo) : Option Principal :=
  (archives.find? fun a =>
    let start := toU64Or 18446744073709551615 a.start
    let «end» := toU64Or 0 a.end
    (blockIndex ≥ start && blockIndex ≤ «end») || (blockIndex ≥ start && blockIndex < «end»)).map
      Icrc3ArchiveInfo.canisterId

/-- The first await of `process_token_archived_block` -/
def processTokenArchivedBlock (c : Canister) (tokenType : TokenType) (blockIndex : UInt64) :
    ArchiveAwait :=
  match tokenType with
  | .icp => .icpLedger blockIndex
  | .ckusdc | .ckusdt | .ckbtc =>
    .icrc3Ledger tokenType (c.getTokenLedgerCanisterId tokenType) blockIndex

/-- `process_token_archived_block` from an answer to its next await or its end; `none` is an
answer to a different call. -/
def archiveReply (c : Canister) (await : ArchiveAwait) (reply : ArchiveReply) :
    Option (Except Trap ArchiveTurn) :=
  match await, reply with
  | .icpLedger _, .icpLedger (.error (code, msg)) =>
    some (.ok ⟨c, .returned (.error ("query_blocks failed: " ++ code ++ ": " ++ msg)), []⟩)
  | .icpLedger blockIndex, .icpLedger (.ok resp) =>
    match resp.blocks with
    | b :: _ => some (storeIcpBlock E c blockIndex (some b))
    | [] =>
      match archivedRangeFor blockIndex resp.archivedBlocks with
      | some _ => some (.ok ⟨c, .awaiting (.icpArchive blockIndex), []⟩)
      | none => some (storeIcpBlock E c blockIndex none)
  | .icpArchive blockIndex, .icpArchive (.ok (.ok blocks)) =>
    some (storeIcpBlock E c blockIndex blocks.head?)
  | .icpArchive _, .icpArchive (.ok (.error e)) =>
    some (.ok ⟨c, .returned (.error ("archive get_blocks error: " ++ e)), []⟩)
  | .icpArchive _, .icpArchive (.error (code, msg)) =>
    some (.ok ⟨c, .returned (.error ("archive call failed: " ++ code ++ ": " ++ msg)), []⟩)
  | .icrc3Ledger t ledger blockIndex, .icrc3Blocks result =>
    match result with
    | .ok res =>
      if res.blocks.isEmpty then some (.ok ⟨c, .awaiting (.icrc3Archives t ledger blockIndex), []⟩)
      else some (storeIcrc3Block E c t ledger blockIndex res)
    | .error _ => some (.ok ⟨c, .awaiting (.icrc3Archives t ledger blockIndex), []⟩)
  | .icrc3Archives t ledger blockIndex, .icrc3Archives result =>
    match result with
    | .error (_, m) =>
      some (.ok ⟨c, .returned (.error ("icrc3_get_archives failed: " ++ m)), []⟩)
    | .ok archives =>
      match selectArchive blockIndex archives with
      | some archive => some (.ok ⟨c, .awaiting (.icrc3Archive t ledger blockIndex archive), []⟩)
      | none =>
        some (.ok ⟨c, .returned (.error "No archive canister covers the requested block"), []⟩)
  | .icrc3Archive t ledger blockIndex _, .icrc3Blocks result =>
    match result with
    | .error (_, m) =>
      some (.ok ⟨c, .returned (.error ("archive icrc3_get_blocks failed: " ++ m)), []⟩)
    | .ok res => some (storeIcrc3Block E c t ledger blockIndex res)
  | _, _ => none

end SubaccountIndexer
