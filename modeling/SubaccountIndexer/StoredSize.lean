import SubaccountIndexer.TxHash
import SubaccountIndexer.Storable

/-! The records a poll inserts against the bound they declare. Only transfers are inserted, and
all of a record's parts but four are of fixed size: the memo, the spender, the hash and the
principal of the ledger. -/

namespace SubaccountIndexer.StoredSize

open Lib.Candid TxHash

variable (E : Externals)

/-- The accounts an operation names -/
def accounts : Operation → List Blob
  | .approve data => [data.from, data.spender]
  | .burn data => data.from :: data.spender.toList
  | .mint data => [data.to]
  | .transfer data => data.to :: data.from :: data.spender.toList

/-- What the ledgers promise of a block -/
structure Limits (block : Block) : Prop where
  accounts : ∀ operation ∈ block.transaction.operation, ∀ account ∈ accounts operation,
    account.length = 32
  memo : ∀ memo ∈ block.transaction.icrc1Memo, memo.length ≤ 32

/-- A poll of the ledger `p` gets to the block and hands its record to the map: the blocks before
it have been scanned, it concerns a subaccount, it is hashed, and its key is free. -/
def Inserts (c : Canister) (t : TokenType) (p : Principal) (block : Block)
    (tx : StoredTransactions) : Prop :=
  ∃ (next : UInt64) (response : QueryBlocksResponse) (k : Nat) (s : Scan) (hash : String),
    scanBlocks E c.listOfSubaccounts t p { transactions := c.transactions, blockCount := next }
      (response.blocks.take k) = .ok s ∧
    response.blocks[k]? = some block ∧ block.relevant E c.listOfSubaccounts = true ∧
    hashOrPlaceholder E block.transaction = .ok hash ∧
    s.transactions[s.blockCount]? = none ∧ tx = block.record s.blockCount hash t p

/-- The accounts of the transfer have their checksums, so that it has a hash. -/
def Hashable (data : Transfer) : Prop :=
  ∀ account ∈ accounts (.transfer data),
    (Ledger.AccountIdentifier.fromSlice E account).isOk = true

/-- What an optional spender, an optional memo and the principal of a ledger may come to -/
def Room (spender memo : Option Blob) (p : Principal) : Prop :=
  match spender, memo with
  | none, none => True
  | none, some memo => memo.length + p.bytes.length ≤ 55
  | some _, none => p.bytes.length ≤ 23
  | some _, some memo => memo.length + p.bytes.length ≤ 22

/-- A transfer that has a hash leaves room for it. -/
def Fits (block : Block) (p : Principal) : Prop :=
  ∀ data, block.transaction.operation = some (.transfer data) → Hashable E data →
    Room data.spender block.transaction.icrc1Memo p

variable {E} {c : Canister} {t : TokenType} {p : Principal} {block : Block}
  {tx : StoredTransactions} {data : Transfer}

/-! ## The hash -/

theorem length_utf8_hex (bytes : Blob) :
    (utf8 (Lib.Hex.encode bytes)).length = 2 * bytes.length := by
  have hdigits : ∀ c ∈ Lib.Hex.digits, c.toNat < 128 := by simp [Lib.Hex.digits]
  have htext : (Lib.Hex.encode bytes).toList = Lib.Hex.encodeChars bytes := by
    rw [Lib.Hex.encode, String.toList_ofList]
  rw [length_utf8, htext, Lib.Hex.length_encodeChars]
  intro c hc
  rw [htext] at hc
  exact hdigits c (Lib.Hex.mem_digits hc)

theorem mapM_isOk {f : Blob → Except Ledger.AccountIdParseError Ledger.AccountIdentifier}
    (blob : Option Blob) :
    (blob.mapM f).isOk = true ↔ ∀ b ∈ blob, (f b).isOk = true := by
  cases blob with
  | none => exact iff_of_true rfl nofun
  | some b =>
    simp only [Option.mapM_some, Option.mem_some_iff, forall_eq']
    cases f b <;> exact Iff.rfl

theorem hashedContent_isSome {transaction : Transaction}
    (transfer : transaction.operation = some (.transfer data)) :
    (hashedContent E transaction).isSome = true ↔ Hashable E data := by
  have hparts : Hashable E data ↔ (Ledger.AccountIdentifier.fromSlice E data.to).isOk = true ∧
      (Ledger.AccountIdentifier.fromSlice E data.from).isOk = true ∧
      (data.spender.mapM (Ledger.AccountIdentifier.fromSlice E)).isOk = true := by
    rw [mapM_isOk]
    simp [Hashable, accounts]
  rw [hparts]
  unfold hashedContent
  rw [transfer]
  dsimp only
  cases Ledger.AccountIdentifier.fromSlice E data.from with
  | error e => simp [Except.isOk, Except.toBool]
  | ok sender =>
    cases Ledger.AccountIdentifier.fromSlice E data.to with
    | error e => simp [Except.isOk, Except.toBool]
    | ok recipient =>
      cases data.spender.mapM (Ledger.AccountIdentifier.fromSlice E) <;>
        simp [Except.isOk, Except.toBool]

theorem length_hash (encode : ∀ bytes, E.hexEncode bytes = Lib.Hex.encode bytes)
    {transaction : Transaction} (transfer : transaction.operation = some (.transfer data)) :
    (Hashable E data → (utf8 (hashText E (hashedContent E transaction))).length = 64) ∧
      (¬ Hashable E data → (utf8 (hashText E (hashedContent E transaction))).length = 21) := by
  rw [← hashedContent_isSome transfer]
  cases hashedContent E transaction with
  | none =>
    refine ⟨nofun, fun _ => ?_⟩
    show (utf8 "HASH-IS-NOT-AVAILABLE").length = 21
    decide
  | some content =>
    refine ⟨fun _ => ?_, fun h => absurd rfl h⟩
    rw [hashText, encode, length_utf8_hex, Bytes32.length_eq]

/-! ## The record -/

/-- What a poll inserts for a block is the record of a transfer, under its hash. -/
theorem Inserts.transfer (inserts : Inserts E c t p block tx) :
    ∃ data, block.transaction.operation = some (.transfer data) ∧
      recorded tx = block.transaction ∧ tx.tokenLedgerCanisterId = some p ∧
      tx.txHash = hashText E (hashedContent E block.transaction) := by
  obtain ⟨next, response, k, s, hash, -, -, hrelevant, hhash, -, rfl⟩ := inserts
  cases hoperation : block.transaction.operation with
  | none => simp [Block.relevant, hoperation] at hrelevant
  | some operation =>
    have htransfer := (hashOrPlaceholder_isOk E block.transaction hoperation).mp ⟨hash, hhash⟩
    cases operation with
    | transfer data => exact ⟨data, rfl, rfl, rfl, hashOrPlaceholder_text hhash⟩
    | _ => cases htransfer

/-- The size of a record, by its four parts that vary -/
theorem length_stored (encode : ∀ bytes, E.hexEncode bytes = Lib.Hex.encode bytes)
    (limits : Limits block) (inserts : Inserts E c t p block tx)
    (transfer : block.transaction.operation = some (.transfer data)) :
    tx.toBytes.length = 378 + blobSize block.transaction.icrc1Memo + blobSize data.spender +
      (utf8 (hashText E (hashedContent E block.transaction))).length + p.bytes.length := by
  obtain ⟨data', hdata, hrecorded, hledger, hhash⟩ := inserts.transfer
  obtain rfl : data = data' := by
    rw [transfer] at hdata
    cases hdata
    rfl
  have haccounts := limits.accounts _ transfer
  simp only [accounts, List.forall_mem_cons, Option.mem_toList] at haccounts
  obtain ⟨hto, hfrom, hspender⟩ := haccounts
  have hmemo : tx.icrc1Memo = block.transaction.icrc1Memo :=
    congrArg Transaction.icrc1Memo hrecorded
  have hoperation : tx.operation = some (.transfer data) :=
    (congrArg Transaction.operation hrecorded).trans transfer
  have hshort : (utf8 tx.txHash).length < 128 := by
    rw [hhash]
    by_cases h : Hashable E data
    · rw [(length_hash encode transfer).1 h]
      decide
    · rw [(length_hash encode transfer).2 h]
      decide
  rw [length_toBytes hoperation hledger ?_ hshort, length_transfer, hmemo, hhash, hto, hfrom]
  · omega
  · omega
  · omega
  · intro b hb
    rw [hspender b hb]
    decide
  · intro b hb
    rw [hmemo] at hb
    have := limits.memo b hb
    omega

/-- What `Fits` says of a transfer -/
theorem fits_transfer (transfer : block.transaction.operation = some (.transfer data)) :
    Fits E block p ↔ (Hashable E data → Room data.spender block.transaction.icrc1Memo p) := by
  constructor
  · intro fits
    exact fits data transfer
  · intro room data' transfer'
    rw [transfer] at transfer'
    cases transfer'
    exact room

/-- The room in terms of sizes -/
theorem room_iff {spender memo : Option Blob} (hspender : ∀ b ∈ spender, b.length = 32) :
    Room spender memo p ↔ blobSize memo + blobSize spender + p.bytes.length ≤ 58 := by
  have hledger := p.length_le
  cases spender with
  | none =>
    cases memo <;> simp only [Room, blobSize, true_iff] <;> omega
  | some b =>
    have hb := hspender b rfl
    cases memo <;> simp only [Room, blobSize, hb] <;> omega

theorem blobSize_le {blob : Option Blob} (h : ∀ b ∈ blob, b.length ≤ 32) : blobSize blob ≤ 34 := by
  cases blob with
  | none => decide
  | some b => exact Nat.add_le_add_right (h b rfl) 2

/-- The record a poll inserts for a block fits its declared bound if and only if its memo, its
spender and the principal of the ledger leave room for the hash, if it has one. -/
theorem stored_fits (encode : ∀ bytes, E.hexEncode bytes = Lib.Hex.encode bytes)
    (limits : Limits block) (inserts : Inserts E c t p block tx) :
    tx.toBytes.length ≤ MAX_VALUE_SIZE ↔ Fits E block p := by
  obtain ⟨data, transfer, -⟩ := inserts.transfer
  have haccounts := limits.accounts _ transfer
  simp only [accounts, List.forall_mem_cons, Option.mem_toList] at haccounts
  obtain ⟨-, -, hspender⟩ := haccounts
  rw [length_stored encode limits inserts transfer, MAX_VALUE_SIZE, fits_transfer transfer,
    room_iff hspender]
  by_cases h : Hashable E data
  · rw [(length_hash encode transfer).1 h]
    simp only [h, true_imp_iff]
    omega
  · -- the placeholder is so much shorter that everything fits
    rw [(length_hash encode transfer).2 h]
    have hmemo := blobSize_le limits.memo
    have hspent := blobSize_le fun b hb => Nat.le_of_eq (hspender b hb)
    have hledger := p.length_le
    simp only [h, false_imp_iff, iff_true]
    omega

/-! A deposit without a memo, and a transfer that subaccount 1 spends with a memo of 32 bytes,
both on the ledger of ICP. -/

open Examples

theorem deposit_inserted :
    Inserts externals start.canister .icp MAINNET_LEDGER_CANISTER_ID deposit record :=
  ⟨1, responseAt 1 [deposit], 0, _, record.txHash, rfl, rfl, by decide +kernel, by decide +kernel,
    by decide +kernel, rfl⟩

theorem stored_fits_deposit : record.toBytes.length ≤ MAX_VALUE_SIZE :=
  (stored_fits (fun _ => rfl) ⟨by decide, by decide⟩ deposit_inserted).mpr
    fun _ h _ => by cases h; exact trivial

def annotated : Block :=
  { spending with
    transaction := { spending.transaction with icrc1Memo := some (List.replicate 32 1) } }

def annotatedRecord : StoredTransactions :=
  .new 1 annotated.transaction "3287742ff46f5dcc54c6cdb1139249d1498020d3e148352d628eaa7015864237"
    .icp MAINNET_LEDGER_CANISTER_ID

/-- The record is 20 bytes too long for the map. -/
theorem annotated_too_long : Limits annotated ∧
    Inserts externals start.canister .icp MAINNET_LEDGER_CANISTER_ID annotated annotatedRecord ∧
    annotatedRecord.toBytes.length = 520 ∧ ¬ annotatedRecord.toBytes.length ≤ MAX_VALUE_SIZE := by
  have hlength : annotatedRecord.toBytes.length = 520 := by decide +kernel
  refine ⟨⟨by decide, by decide⟩, ?_, hlength, ?_⟩
  · exact ⟨1, responseAt 1 [annotated], 0, _, annotatedRecord.txHash, rfl, rfl, by decide +kernel,
      by decide +kernel, by decide +kernel, rfl⟩
  · rw [hlength]
    decide

end SubaccountIndexer.StoredSize
