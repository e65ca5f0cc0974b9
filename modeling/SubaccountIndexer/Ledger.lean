import SubaccountIndexer.Externals

/-! ledger.rs and `hash_transaction`: the hash under which a transfer is stored. -/

namespace SubaccountIndexer

/-- `u32::to_be_bytes` -/
def toBeBytes (n : UInt32) : Blob :=
  [UInt8.ofNat (n.toNat / 2 ^ 24), UInt8.ofNat (n.toNat / 2 ^ 16), UInt8.ofNat (n.toNat / 2 ^ 8),
    UInt8.ofNat n.toNat]

namespace Ledger

structure ChecksumError where
  input : Blob
  expectedChecksum : Blob
  foundChecksum : Blob

inductive AccountIdParseError where
  | invalidChecksum (error : ChecksumError)
  | invalidLength (v : Blob)

/-- How `{:?}` prints the error -/
def AccountIdParseError.debug : AccountIdParseError → String
  | .invalidChecksum e =>
    "InvalidChecksum(ChecksumError \x7b input: " ++ debugBytes e.input ++
      ", expected_checksum: " ++ debugBytes e.expectedChecksum ++
      ", found_checksum: " ++ debugBytes e.foundChecksum ++ " \x7d)"
  | .invalidLength v => "InvalidLength(" ++ debugBytes v ++ ")"

variable (E : Externals)

def AccountIdentifier.generateChecksum (account : AccountIdentifier) : Blob :=
  toBeBytes (E.crc32 account.hash)

def AccountIdentifier.toVec (account : AccountIdentifier) : Blob :=
  account.generateChecksum E ++ account.hash

def checkSum (hex : Bytes32) : Except ChecksumError AccountIdentifier :=
  let foundChecksum := hex.toList.take 4
  let accountId : AccountIdentifier :=
    ⟨hex.toList.drop 4, by simp [hex.length_eq]⟩
  let expectedChecksum := accountId.generateChecksum E
  if expectedChecksum = foundChecksum then .ok accountId
  else .error ⟨hex.toList, expectedChecksum, foundChecksum⟩

/-- `ledger::AccountIdentifier::from_slice`: the 32-byte form with its checksum, or the
28-byte hash alone -/
def AccountIdentifier.fromSlice (v : Blob) : Except AccountIdParseError AccountIdentifier :=
  if h : v.length = 32 then
    match checkSum E ⟨v, h⟩ with
    | .ok account => .ok account
    | .error e => .error (.invalidChecksum e)
  else if h : v.length = 28 then .ok ⟨v, h⟩
  else .error (.invalidLength v)

def Transaction.new («from» «to» : AccountIdentifier) (spender : Option AccountIdentifier)
    (amount fee memo : UInt64) (createdAtTime : Timestamp) : Transaction where
  operation := { «from», «to», amount, fee, spender }
  memo
  createdAtTime := some createdAtTime
  icrc1Memo := none

/-- `generate_hash`: SHA-256 of the CBOR encoding -/
def Transaction.generateHash (tx : Transaction) : Bytes32 := E.sha256 (E.cbor tx)

end Ledger

variable (E : Externals)

/-- `hash_transaction`. The `unreachable!` of the source is the trap: the function is
written for transfers only. -/
def hashTransaction (tx : Transaction) : Except Trap (Except String String) :=
  match tx.operation with
  | some (.transfer transfer) =>
    match Ledger.AccountIdentifier.fromSlice E transfer.from with
    | .error e => .ok (.error ("Failed to create from: " ++ e.debug))
    | .ok fromAccount =>
      match Ledger.AccountIdentifier.fromSlice E transfer.to with
      | .error e => .ok (.error ("Failed to create to: " ++ e.debug))
      | .ok toAccount =>
        match transfer.spender.mapM (Ledger.AccountIdentifier.fromSlice E) with
        | .error e => .ok (.error ("Failed to create spender: " ++ e.debug))
        | .ok spender =>
          let txHash := (Ledger.Transaction.new fromAccount toAccount spender
            transfer.amount.e8s transfer.fee.e8s tx.memo tx.createdAtTime).generateHash E
          .ok (.ok (E.hexEncode txHash.toList))
  | _ => .error
      ⟨"internal error: entered unreachable code: tx.operation should always be Operation::Transfer"⟩

/-- What the indexing code stores in place of a hash it cannot compute -/
def hashOrPlaceholder (tx : Transaction) : Except Trap String := do
  match ← hashTransaction E tx with
  | .ok content => .ok content
  | .error _ => .ok "HASH-IS-NOT-AVAILABLE"

def Operation.isTransfer : Operation → Bool
  | .transfer _ => true
  | _ => false

theorem hashOrPlaceholder_isOk (tx : Transaction) {operation : Operation}
    (h : tx.operation = some operation) :
    (∃ hash, hashOrPlaceholder E tx = .ok hash) ↔ operation.isTransfer = true := by
  cases operation with
  | transfer data =>
    simp only [Operation.isTransfer, iff_true, hashOrPlaceholder, hashTransaction, h]
    repeat' split
    all_goals exact ⟨_, rfl⟩
  | _ => simp [Operation.isTransfer, hashOrPlaceholder, hashTransaction, h, bind, Except.bind]

end SubaccountIndexer
