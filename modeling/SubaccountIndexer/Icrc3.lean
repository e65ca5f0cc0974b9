import SubaccountIndexer.Canister

/-! ICRC-3 blocks and their two decoders: the one written inline in
`InterCanisterCallManager::query_blocks`, which the polls use, and
`icrc3_block_to_block` of the archive path. The two loops over the map entries are
copies of each other except for what they do with `op` and `to`. -/

namespace SubaccountIndexer

inductive Icrc3Value where
  | int (i : Int)
  | map (fields : List (String × Icrc3Value))
  | nat (n : Nat)
  | blob (bytes : Blob)
  | text (text : String)
  | array (values : List Icrc3Value)

structure Icrc3BlockWithId where
  id : Nat
  block : Icrc3Value

/-- `Icrc3GetBlocksResult`; nothing reads the archived ranges it carries. -/
structure Icrc3GetBlocksResult where
  logLength : Nat
  blocks : List Icrc3BlockWithId

namespace Icrc3

/-- `to_u64().unwrap_or(0)` -/
def toU64OrZero (n : Nat) : UInt64 := if n < 2 ^ 64 then UInt64.ofNat n else 0

/-- The entries of the block's own map -/
structure BlockFields where
  tx : Option Icrc3Value := none
  tsNanos : UInt64 := 0
  phash : Option Blob := none

def blockField (acc : BlockFields) (entry : String × Icrc3Value) : BlockFields :=
  match entry.1, entry.2 with
  | "tx", value => { acc with tx := some value }
  | "ts", .nat n => { acc with tsNanos := toU64OrZero n }
  | "phash", .blob b => { acc with phash := some b }
  | _, _ => acc

theorem blockField_tx {acc : BlockFields} {entry : String × Icrc3Value} (other : entry.1 ≠ "tx") :
    (blockField acc entry).tx = acc.tx := by
  unfold blockField
  split
  · rename_i hkey
    exact absurd hkey other
  all_goals rfl

/-- The entries of the `tx` map; `op` holds what the decoder makes of the operation text. -/
structure TxFields where
  op : String := ""
  fromBytes : Blob := []
  toBytes : Blob := []
  amount : UInt64 := 0
  fee : UInt64 := 0
  memo : UInt64 := 0

variable (E : Externals)

/-- `AccountIdentifier::new(&Principal::from_slice(owner), &subaccount)` as bytes -/
def accountBytes (owner : Blob) (subaccount : Subaccount) : Except Trap Blob :=
  (Principal.fromSlice owner).map fun p => (E.accountIdentifier p subaccount).toList

/-- A 32-byte blob as a subaccount, the default one for any other length -/
def subaccountOfBlob (bytes : Blob) : Subaccount :=
  if h : bytes.length = 32 then ⟨bytes, h⟩ else DEFAULT_SUBACCOUNT

/-- One turn of the loop over the `tx` map, given how the decoder reads `op` and `to` -/
def txField (readOp : String → String) (readTo : List Icrc3Value → Except Trap (Option Blob))
    (acc : TxFields) (entry : String × Icrc3Value) : Except Trap TxFields :=
  match entry.1, entry.2 with
  | "op", .text op => .ok { acc with op := readOp op }
  | "from", .array (.blob owner :: _) => do
    -- a sender's subaccount is ignored
    .ok { acc with fromBytes := ← accountBytes E owner DEFAULT_SUBACCOUNT }
  | "to", .array values => do
    match ← readTo values with
    | some toBytes => .ok { acc with toBytes }
    | none => .ok acc
  | "amt", .nat n => .ok { acc with amount := toU64OrZero n }
  | "fee", .nat n => .ok { acc with fee := toU64OrZero n }
  | "memo", .nat n => .ok { acc with memo := toU64OrZero n }
  | _, _ => .ok acc

def txFields (readOp : String → String) (readTo : List Icrc3Value → Except Trap (Option Blob)) :
    TxFields → List (String × Icrc3Value) → Except Trap TxFields
  | acc, [] => .ok acc
  | acc, entry :: rest => do txFields readOp readTo (← txField E readOp readTo acc entry) rest

/-- The block both decoders build from what they read -/
def toBlock (outer : BlockFields) (inner : TxFields) (isTransfer : Bool) : Block where
  transaction :=
    { memo := inner.memo
      icrc1Memo := none
      operation :=
        if isTransfer then
          some (.transfer
            { «from» := inner.fromBytes, «to» := inner.toBytes, amount := ⟨inner.amount⟩,
              fee := ⟨inner.fee⟩, spender := none })
        else none
      createdAtTime := ⟨outer.tsNanos⟩ }
  timestamp := ⟨outer.tsNanos⟩
  parentHash := outer.phash

/-! ## The live path -/

def liveOp (op : String) : String :=
  if op = "xfer" then "transfer" else if op = "mint" then "mint"
  else if op = "burn" then "burn" else if op = "approve" then "approve" else "unknown"

/-- The live path reads `to` only from an array with an owner and a subaccount. -/
def liveTo : List Icrc3Value → Except Trap (Option Blob)
  | .blob owner :: .blob subaccount :: _ =>
    (accountBytes E owner (subaccountOfBlob subaccount)).map some
  | _ => .ok none

/-- The body of the loop over `icrc3_response.blocks`; `none` pushes no block. -/
def liveBlock (block : Icrc3Value) : Except Trap (Option Block) :=
  match block with
  | .map fields =>
    let outer := fields.foldl blockField {}
    match outer.tx with
    | some (.map txMap) => do
      let inner ← txFields E liveOp (liveTo E) {} txMap
      .ok (some (toBlock outer inner (inner.op = "transfer")))
    | _ => .ok none
  | _ => .ok none

def liveBlocks : List Icrc3BlockWithId → Except Trap (List Block)
  | [] => .ok []
  | b :: rest => do
    let block ← liveBlock E b.block
    let blocks ← liveBlocks rest
    .ok (block.toList ++ blocks)

/-! ## The archive path -/

/-- The archive path reads `to` from any array that starts with an owner. -/
def archiveTo : List Icrc3Value → Except Trap (Option Blob)
  | .blob owner :: rest =>
    let subaccount := match rest with
      | .blob sa :: _ => subaccountOfBlob sa
      | _ => DEFAULT_SUBACCOUNT
    (accountBytes E owner subaccount).map some
  | _ => .ok none

end Icrc3

/-- `icrc3_block_to_block` -/
def icrc3BlockToBlock (E : Externals) (icrc3 : Icrc3BlockWithId) : Except Trap (Option Block) :=
  let fields := match icrc3.block with
    | .map fields => fields
    | _ => []
  let outer := fields.foldl Icrc3.blockField {}
  match outer.tx with
  | some (.map txMap) => do
    let inner ← Icrc3.txFields E id (Icrc3.archiveTo E) {} txMap
    if inner.op ≠ "xfer" then .ok none else .ok (some (Icrc3.toBlock outer inner true))
  | _ => .ok none

end SubaccountIndexer
