import SubaccountIndexer.Types
import SubaccountIndexer.Lib.Hex

/-! What the canister calls and the repository does not contain: the crates for
account identifiers, hashing, text encodings and URLs, and the canister's own
id. Each is a parameter; the fields that are equations are documented behaviour
of the crate. The types of ledger.rs stand here because `ciborium` and `sha2`
are applied to them. -/

namespace SubaccountIndexer

namespace Ledger

/-- `ledger::AccountIdentifier`: the 28-byte hash without its checksum -/
structure AccountIdentifier where
  hash : Blob
  length_eq : hash.length = 28
deriving DecidableEq

/-- `ledger::Operation::Transfer`, the one operation `ledger::Transaction::new` builds -/
structure Transfer where
  «from» : AccountIdentifier
  «to» : AccountIdentifier
  amount : UInt64
  fee : UInt64
  spender : Option AccountIdentifier
deriving DecidableEq

/-- `ledger::Transaction` -/
structure Transaction where
  operation : Transfer
  memo : UInt64
  createdAtTime : Option Timestamp
  icrc1Memo : Option Blob
deriving DecidableEq

end Ledger

/-- What `set_webhook_url` reads off a parsed URL. -/
structure Url where
  scheme : String
  hasHost : Bool

structure Externals where
  /-- `ic_cdk::api::id` -/
  canisterId : Principal
  /-- `ic_ledger_types::AccountIdentifier::new` -/
  accountIdentifier : Principal → Subaccount → AccountIdentifier
  /-- `ic_ledger_types::AccountIdentifier::from_slice`, its error as `{:?}` prints it -/
  accountFromSlice : Blob → Except String AccountIdentifier
  /-- `from_slice` accepts the canonical 32 bytes of an identifier. -/
  accountFromSlice_canonical : ∀ owner subaccount,
    accountFromSlice (accountIdentifier owner subaccount).toList =
      .ok (accountIdentifier owner subaccount)
  /-- `DefaultHasher` run over a `[u8; 32]` -/
  defaultHasher : Bytes32 → UInt64
  /-- `crc32fast` -/
  crc32 : Blob → UInt32
  /-- `ciborium::into_writer` -/
  cbor : Ledger.Transaction → Blob
  sha256 : Blob → Bytes32
  /-- `hex::encode` -/
  hexEncode : Blob → String
  /-- `hex::decode` -/
  hexDecode : String → Except String Blob
  hexDecode_hexEncode : ∀ bytes, hexDecode (hexEncode bytes) = .ok bytes
  /-- `Principal::from_text` -/
  principalFromText : String → Except String Principal
  /-- `Principal::to_text` -/
  principalToText : Principal → String
  /-- how `candid::Nat` prints -/
  natToText : Nat → String
  /-- `Url::parse` -/
  urlParse : String → Except String Url
  /-- the text of a parsed URL after `append_pair("tx_hash", _)` -/
  urlWithTxHash : String → String → String

/-- How `{:?}` prints a byte vector -/
def debugBytes (bytes : Blob) : String :=
  "[" ++ ", ".intercalate (bytes.map fun b => toString b.toNat) ++ "]"

namespace Examples

def canister : Principal := ⟨[0, 0, 0, 0, 1, 144, 31, 21, 1, 1], by decide⟩
/-- The principal the tests of the canister use -/
def custodian : Principal := MAINNET_LEDGER_CANISTER_ID
/-- `rrkah-fqaaa-aaaaa-aaaaq-cai` -/
def payer : Principal := ⟨[0, 0, 0, 0, 0, 0, 0, 1, 1, 1], by decide⟩
/-- A ledger of a local network, `bkyz2-fmaaa-aaaaa-qaaaq-cai` -/
def localLedger : Principal := ⟨[128, 0, 0, 0, 0, 16, 0, 1, 1, 1], by decide⟩

def subaccount1 : Subaccount := ⟨List.replicate 31 0 ++ [1], by decide⟩

/-- The account identifier of the canister's subaccount 0 -/
def account0 : AccountIdentifier :=
  ⟨[133, 46, 168, 17, 80, 251, 247, 208, 242, 190, 241, 146, 25, 188, 19, 238,
    177, 109, 227, 15, 163, 122, 53, 57, 221, 130, 2, 27, 72, 8, 107, 201], by decide⟩
/-- The account identifier of the canister's subaccount 1 -/
def account1 : AccountIdentifier :=
  ⟨[164, 11, 85, 97, 222, 4, 52, 150, 127, 208, 149, 200, 40, 204, 116, 19,
    89, 199, 52, 189, 191, 0, 21, 180, 58, 162, 51, 9, 53, 125, 31, 99], by decide⟩
def custodianAccount : AccountIdentifier :=
  ⟨[136, 62, 239, 124, 68, 190, 81, 175, 228, 164, 66, 13, 77, 244, 190, 255,
    112, 143, 60, 242, 245, 222, 94, 252, 201, 245, 134, 128, 187, 15, 54, 144], by decide⟩
/-- The account that pays in the examples -/
def payerAccount : AccountIdentifier :=
  ⟨[8, 46, 207, 46, 63, 100, 122, 198, 0, 244, 63, 56, 166, 131, 66, 251,
    165, 184, 230, 139, 8, 95, 2, 89, 43, 119, 243, 152, 8, 168, 210, 181], by decide⟩

/-- A CBOR data item head: the major type and its argument -/
def cborHead (major : UInt8) (n : Nat) : Blob :=
  if n < 24 then [major * 32 + UInt8.ofNat n]
  else if n < 2 ^ 8 then [major * 32 + 24, UInt8.ofNat n]
  else if n < 2 ^ 16 then (major * 32 + 25) :: bigEndian 2
  else if n < 2 ^ 32 then (major * 32 + 26) :: bigEndian 4
  else (major * 32 + 27) :: bigEndian 8
where
  bigEndian (width : Nat) : Blob :=
    (List.range width).map fun i => UInt8.ofNat (n / 2 ^ (8 * (width - 1 - i)))

def cborText (text : String) : Blob := cborHead 3 text.utf8ByteSize ++ text.toUTF8.toList

/-- A map with text keys; an absent value is an entry that serde skips. -/
def cborMap (fields : List (String × Option Blob)) : Blob :=
  let present := fields.filterMap fun (key, value) => value.map fun v => cborText key ++ v
  cborHead 5 present.length ++ present.flatten

def cborAccount (account : Ledger.AccountIdentifier) (checksum : Blob) : Blob :=
  cborText (Lib.Hex.encode (checksum ++ account.hash))

def cborTransaction (checksum : Blob → Blob) (tx : Ledger.Transaction) : Blob :=
  let account (a : Ledger.AccountIdentifier) := cborAccount a (checksum a.hash)
  let tokens (n : UInt64) := cborMap [("e8s", some (cborHead 0 n.toNat))]
  let transfer := cborMap [("from", some (account tx.operation.from)),
    ("to", some (account tx.operation.to)), ("amount", some (tokens tx.operation.amount)),
    ("fee", some (tokens tx.operation.fee)), ("spender", tx.operation.spender.map account)]
  cborMap [("operation", some (cborMap [("Transfer", some transfer)])),
    ("memo", some (cborHead 0 tx.memo.toNat)),
    ("created_at_time", some (match tx.createdAtTime with
      | none => [0xf6]
      | some t => cborMap [("timestamp_nanos", some (cborHead 0 t.timestampNanos.toNat))])),
    ("icrc1_memo", tx.icrc1Memo.map fun memo => cborHead 2 memo.length ++ memo)]

/-- The external code as it behaves on the inputs of the examples: the account
identifiers are the SHA-224 ones, the 64-bit hashes those of SipHash-1-3 on the
32-bit target, and the digests those of the two transfers the examples hash. -/
def externals : Externals where
  canisterId := canister
  accountIdentifier owner subaccount :=
    if owner = custodian ∧ subaccount = DEFAULT_SUBACCOUNT then custodianAccount
    else if owner = canister ∧ subaccount = DEFAULT_SUBACCOUNT then account0
    else if owner = canister ∧ subaccount = subaccount1 then account1
    else if owner = payer ∧ subaccount = DEFAULT_SUBACCOUNT then payerAccount
    else subaccount
  accountFromSlice v := if h : v.length = 32 then .ok ⟨v, h⟩
    else .error ("InvalidLength(" ++ debugBytes v ++ ")")
  accountFromSlice_canonical owner subaccount := by
    simp [Bytes32.length_eq]
  defaultHasher account :=
    if account = account0 then 10584906941951581429
    else if account = account1 then 13125301486455035840
    else if account = payerAccount then 14839223360184865984
    else if account = custodianAccount then 12440426859820023969
    else 0
  crc32 hash :=
    if hash = account0.toList.drop 4 then 0x852ea811
    else if hash = account1.toList.drop 4 then 0xa40b5561
    else if hash = payerAccount.toList.drop 4 then 0x082ecf2e
    else if hash = custodianAccount.toList.drop 4 then 0x883eef7c
    else 0
  cbor := cborTransaction fun hash =>
    if hash = payerAccount.toList.drop 4 then payerAccount.toList.take 4
    else if hash = account1.toList.drop 4 then account1.toList.take 4
    else if hash = custodianAccount.toList.drop 4 then custodianAccount.toList.take 4
    else account0.toList.take 4
  sha256 bytes :=
    -- byte 21 tells whether the transfer has a spender
    if bytes[21]? = some 0xa5 then
      ⟨[50, 135, 116, 47, 244, 111, 93, 204, 84, 198, 205, 177, 19, 146, 73, 209,
        73, 128, 32, 211, 225, 72, 53, 45, 98, 142, 170, 112, 21, 134, 66, 55], by decide⟩
    else
      ⟨[255, 217, 126, 96, 219, 41, 40, 247, 216, 127, 48, 0, 1, 92, 81, 127,
        245, 103, 127, 1, 253, 156, 177, 58, 142, 6, 206, 126, 25, 86, 41, 135], by decide⟩
  hexEncode := Lib.Hex.encode
  hexDecode := Lib.Hex.decode
  hexDecode_hexEncode := Lib.Hex.decode_encode
  principalFromText text :=
    if text = "ryjl3-tyaaa-aaaaa-aaaba-cai" then .ok MAINNET_LEDGER_CANISTER_ID
    else if text = "mxzaz-hqaaa-aaaar-qaada-cai" then .ok CKBTC_LEDGER_CANISTER_ID
    else if text = "xevnm-gaaaa-aaaar-qafnq-cai" then .ok CKUSDC_LEDGER_CANISTER_ID
    else if text = "bkyz2-fmaaa-aaaaa-qaaaq-cai" then .ok localLedger
    else .error "Text must be in valid Base32 encoding."
  principalToText p := if p = custodian then "ryjl3-tyaaa-aaaaa-aaaba-cai" else ""
  natToText n := toString n
  urlParse _ := .error "relative URL without a base"
  urlWithTxHash url _ := url

end Examples

end SubaccountIndexer
