import SubaccountIndexer.Canister

/-! The textual form of an ICRC-1 account, in which the canister hands out the
addresses of the ck tokens, and the parser for it. -/

namespace SubaccountIndexer

/-- `IcrcAccount` -/
structure IcrcAccount where
  owner : Principal
  subaccount : Option Bytes32
deriving DecidableEq

namespace IcrcAccount

/-- `from_principal_and_index` -/
def fromPrincipalAndIndex (principal : Principal) (index : UInt32) : IcrcAccount where
  owner := principal
  subaccount := some ⟨List.replicate 28 0 ++ toBeBytes index, length_toBeBytes_padded index⟩

def isDefaultSubaccount (subaccount : Bytes32) : Bool := subaccount.toList.all (· == 0)

def ALPHABET : List Char :=
  ['a', 'b', 'c', 'd', 'e', 'f', 'g', 'h', 'i', 'j', 'k', 'l', 'm', 'n', 'o', 'p',
    'q', 'r', 's', 't', 'u', 'v', 'w', 'x', 'y', 'z', '2', '3', '4', '5', '6', '7']

/-- The `while bit_count >= 5` loop: what is left of the bit count, and the text -/
def drainBits (bits : UInt16) : Nat → List Char → Nat × List Char
  | bitCount + 5, result =>
    drainBits bits bitCount
      (result ++ [ALPHABET.getD ((bits >>> UInt16.ofNat bitCount) &&& 0x1F).toNat 'a'])
  | bitCount, result => (bitCount, result)

structure Base32State where
  bits : UInt16 := 0
  bitCount : Nat := 0
  result : List Char := []

/-- The body of the loop over the input; `bits` is shifted but never masked. -/
def encodeByte (s : Base32State) (byte : UInt8) : Base32State :=
  let bits := (s.bits <<< 8) ||| byte.toUInt16
  let (bitCount, result) := drainBits bits (s.bitCount + 8) s.result
  { bits, bitCount, result }

/-- `base32_encode_lowercase` -/
def base32EncodeLowercase (input : Blob) : String :=
  let s := input.foldl encodeByte {}
  if s.bitCount > 0 then
    String.ofList (s.result ++
      [ALPHABET.getD ((s.bits <<< UInt16.ofNat (5 - s.bitCount)) &&& 0x1F).toNat 'a'])
  else String.ofList s.result

variable (E : Externals)

/-- `to_text` -/
def toText (account : IcrcAccount) : String :=
  match account.subaccount with
  | none => E.principalToText account.owner
  | some subaccount =>
    if isDefaultSubaccount subaccount then E.principalToText account.owner
    else
      let checksumValue := E.crc32 (account.owner.bytes ++ subaccount.toList)
      let checksumEncoded := base32EncodeLowercase (toBeBytes checksumValue)
      let trimmedHex :=
        String.ofList ((E.hexEncode subaccount.toList).toList.dropWhile (· == '0'))
      let subaccountHexTrimmed := if trimmedHex.isEmpty then "0" else trimmedHex
      E.principalToText account.owner ++ "-" ++ checksumEncoded ++ "." ++ subaccountHexTrimmed

theorem length_padded {decoded : Blob} (h : decoded.length ≤ 32) :
    (List.replicate (32 - decoded.length) 0 ++ decoded).length = 32 := by
  rw [List.length_append, List.length_replicate]
  omega

/-- The end of `from_text`, once the owner is parsed: the decoded bytes fill the subaccount
from the right, and the checksum is that of the owner and the result. -/
def checkedAccount (owner : Principal) (checksumText subaccountHex : String) :
    Except String IcrcAccount :=
  match E.hexDecode subaccountHex with
  | .error e => .error ("Invalid subaccount hex encoding '" ++ subaccountHex ++ "': " ++ e)
  | .ok decoded =>
    if h : decoded.length ≤ 32 then
      let subaccount : Bytes32 :=
        ⟨List.replicate (32 - decoded.length) 0 ++ decoded, length_padded h⟩
      let checksumValue := E.crc32 (owner.bytes ++ subaccount.toList)
      let calculatedChecksum := base32EncodeLowercase (toBeBytes checksumValue)
      if calculatedChecksum = checksumText then .ok { owner, subaccount := some subaccount }
      else .error ("Checksum verification failed. Expected: " ++ calculatedChecksum ++ ", Got: " ++
        checksumText)
    else
      .error ("Subaccount too long: " ++ toString decoded.length ++ " bytes (max 32 bytes)")

/-- `from_text` -/
def fromText (text : String) : Except String IcrcAccount :=
  if !text.toList.contains '-' || !text.toList.contains '.' then
    match E.principalFromText text with
    | .error e => .error ("Invalid principal format: " ++ e)
    | .ok owner => .ok { owner, subaccount := none }
  else
    match text.toList.splitOn '.' with
    | [ownerPart, subaccountHex] =>
      let parts := ownerPart.splitOn '-'
      if parts.length < 2 then
        .error ("Invalid account format: missing '-' separator in '" ++ String.ofList ownerPart ++
          "'")
      else
        -- the principal is everything before the last dash
        let principalText := String.ofList (['-'].intercalate parts.dropLast)
        match E.principalFromText principalText with
        | .error e => .error ("Invalid principal format in '" ++ principalText ++ "': " ++ e)
        | .ok owner =>
          checkedAccount E owner (String.ofList (parts.getLastD [])) (String.ofList subaccountHex)
    | _ => .error ("Invalid account format: missing '.' separator in '" ++ text ++ "'")

end IcrcAccount

end SubaccountIndexer
