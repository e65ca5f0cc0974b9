import SubaccountIndexer.Hashes

/-! ledger.rs and hashof.rs: the hex texts of account identifiers and of hashes. -/

namespace SubaccountIndexer

namespace Ledger

variable (E : Externals)

/-- `Display for ChecksumError` -/
def ChecksumError.toString (e : ChecksumError) : String :=
  "Checksum failed for " ++ E.hexEncode e.input ++ ", expected check bytes " ++
    E.hexEncode e.expectedChecksum ++ " but found " ++ E.hexEncode e.foundChecksum

/-- `to_hex`, which `Serialize` writes too -/
def AccountIdentifier.toHex (account : AccountIdentifier) : String :=
  E.hexEncode (account.toVec E)

/-- `ledger::AccountIdentifier::from_hex`. The length it reports is the one of the text. -/
def AccountIdentifier.fromHex (hexStr : String) : Except String AccountIdentifier :=
  match E.hexDecode hexStr with
  | .error e => .error e
  | .ok hex =>
    match AccountIdentifier.fromSlice E hex with
    | .ok account => .ok account
    | .error (.invalidLength _) =>
      .error (hexStr ++ " has a length of " ++ Nat.repr hexStr.utf8ByteSize ++
        " but we expected a length of 64 or 56")
    | .error (.invalidChecksum e) => .error (e.toString E)

/-- `Deserialize for AccountIdentifier`: `hexArray` is `hex::serde::deserialize` at `[u8; 32]`,
`custom` the `Error::custom` of the deserializer -/
def AccountIdentifier.deserialize {ε : Type} (hexArray : String → Except ε Bytes32)
    (custom : String → ε) (text : String) : Except ε AccountIdentifier := do
  let hex ← hexArray text
  match checkSum E hex with
  | .ok account => .ok account
  | .error e => .error (custom (e.toString E))

end Ledger

namespace HashOf

variable (E : Externals)

/-- `to_hex`, which is also what `Display` prints -/
def toHex (hash : Bytes32) : String := E.hexEncode hash.toList

/-- `FromStr for HashOf` -/
def fromStr (s : String) : Except String Bytes32 :=
  match E.hexDecode s with
  | .error e => .error e
  | .ok v =>
    if h : v.length = 32 then .ok ⟨v, h⟩
    else .error ("Expected a Vec of length 32 but it was " ++ Nat.repr v.length)

end HashOf

namespace HexTexts

open Ledger (ChecksumError AccountIdParseError)
open Hashes (Spells fromSlice_ok checkSum_ok length_toVec)

variable (E : Externals)

/-- What is documented of hex -/
structure HexFormat : Prop where
  encode : ∀ bytes, E.hexEncode bytes = Lib.Hex.encode bytes
  decode : ∀ text bytes, E.hexDecode text = .ok bytes ↔
    Lib.Hex.decodeChars text.toList = some bytes

/-- What a text is read as -/
inductive ReadsAs (text : String) : Except String Ledger.AccountIdentifier → Prop where
  | canonical (account : Ledger.AccountIdentifier) (spelled : text.toLower = account.toHex E) :
    ReadsAs text (.ok account)
  | bare (account : Ledger.AccountIdentifier)
    (spelled : text.toLower = E.hexEncode account.hash) : ReadsAs text (.ok account)
  /-- The check bytes are not those of the account behind them. -/
  | checksum (found : Blob) (account : Ledger.AccountIdentifier) (four : found.length = 4)
    (spelled : text.toLower = E.hexEncode (found ++ account.hash))
    (wrong : found ≠ account.generateChecksum E) :
    ReadsAs text (.error ("Checksum failed for " ++ text.toLower ++ ", expected check bytes " ++
      E.hexEncode (account.generateChecksum E) ++ " but found " ++ E.hexEncode found))
  | length (bytes : Blob) (spelled : text.toLower = E.hexEncode bytes)
    (long : bytes.length ≠ 32) (short : bytes.length ≠ 28) :
    ReadsAs text (.error (text ++ " has a length of " ++ Nat.repr (2 * bytes.length) ++
      " but we expected a length of 64 or 56"))
  | foreign (e : String) (foreign : ∀ bytes, text.toLower ≠ E.hexEncode bytes)
    (refused : E.hexDecode text = .error e) : ReadsAs text (.error e)

variable {E} {account : Ledger.AccountIdentifier} {text : String} {bytes : Blob}

/-- A text is decoded to the bytes it spells, in capital or small letters. -/
theorem HexFormat.reads (hex : HexFormat E) :
    E.hexDecode text = .ok bytes ↔ text.toLower = E.hexEncode bytes := by
  rw [hex.decode, hex.encode, Lib.Hex.decodeChars_eq_some, Lib.Hex.encode,
    Lib.Hex.toLower_eq_ofList]

/-! ## Blobs -/

theorem checkSum_error {blob : Bytes32} {error : ChecksumError}
    (h : Ledger.checkSum E blob = .error error) :
    ∃ (found : Blob) (account : Ledger.AccountIdentifier), found.length = 4 ∧
      blob.toList = found ++ account.hash ∧ found ≠ account.generateChecksum E ∧
      error = ⟨blob.toList, account.generateChecksum E, found⟩ := by
  unfold Ledger.checkSum at h
  dsimp only at h
  split at h
  · cases h
  · rename_i hwrong
    refine ⟨blob.toList.take 4, ⟨blob.toList.drop 4, by simp [blob.length_eq]⟩, ?_, ?_, ?_, ?_⟩
    · rw [List.length_take, blob.length_eq]
      rfl
    · exact (List.take_append_drop 4 blob.toList).symm
    · exact fun heq => hwrong heq.symm
    · exact (Except.error.inj h).symm

/-- A blob is refused for its check bytes only if it has 32 bytes, and for its length if it has
neither 32 nor 28. -/
theorem fromSlice_error {error : AccountIdParseError}
    (h : Ledger.AccountIdentifier.fromSlice E bytes = .error error) :
    (∃ (found : Blob) (account : Ledger.AccountIdentifier), found.length = 4 ∧
      bytes = found ++ account.hash ∧ found ≠ account.generateChecksum E ∧
      error = .invalidChecksum ⟨bytes, account.generateChecksum E, found⟩) ∨
    (bytes.length ≠ 32 ∧ bytes.length ≠ 28 ∧ error = .invalidLength bytes) := by
  unfold Ledger.AccountIdentifier.fromSlice at h
  split at h
  · rename_i hlength
    split at h
    · cases h
    · rename_i e hchecksum
      obtain ⟨found, account, hfour, hsplit, hwrong, rfl⟩ := checkSum_error hchecksum
      exact .inl ⟨found, account, hfour, hsplit, hwrong, (Except.error.inj h).symm⟩
  · split at h
    · cases h
    · exact .inr ⟨‹_›, ‹_›, (Except.error.inj h).symm⟩

theorem fromSlice_checksum {found : Blob} (four : found.length = 4)
    (wrong : found ≠ account.generateChecksum E) :
    Ledger.AccountIdentifier.fromSlice E (found ++ account.hash) =
      .error (.invalidChecksum
        ⟨found ++ account.hash, account.generateChecksum E, found⟩) := by
  have hlength : (found ++ account.hash).length = 32 := by
    rw [List.length_append, four, account.length_eq]
  have hchecked : Ledger.checkSum E ⟨found ++ account.hash, hlength⟩ =
      .error ⟨found ++ account.hash, account.generateChecksum E, found⟩ := by
    cases account
    unfold Ledger.checkSum
    simp only [List.take_left' four, List.drop_left' four]
    rw [if_neg wrong.symm]
  unfold Ledger.AccountIdentifier.fromSlice
  rw [dif_pos hlength, hchecked]

theorem fromSlice_length (long : bytes.length ≠ 32) (short : bytes.length ≠ 28) :
    Ledger.AccountIdentifier.fromSlice E bytes = .error (.invalidLength bytes) := by
  unfold Ledger.AccountIdentifier.fromSlice
  rw [dif_neg long, dif_neg short]

/-! ## Texts -/

/-- What is read is what the text says -/
theorem fromHex_readsAs (hex : HexFormat E) :
    ReadsAs E text (Ledger.AccountIdentifier.fromHex E text) := by
  unfold Ledger.AccountIdentifier.fromHex
  cases hdecoded : E.hexDecode text with
  | error e =>
    refine .foreign e (fun bytes hspelled => ?_) hdecoded
    rw [hex.reads.mpr hspelled] at hdecoded
    cases hdecoded
  | ok bytes =>
    have hspelled := hex.reads.mp hdecoded
    dsimp only
    cases hread : Ledger.AccountIdentifier.fromSlice E bytes with
    | ok account =>
      rcases fromSlice_ok.mp hread with rfl | rfl
      · exact .canonical account hspelled
      · exact .bare account hspelled
    | error error =>
      rcases fromSlice_error hread with
        ⟨found, account, hfour, rfl, hwrong, rfl⟩ | ⟨hlong, hshort, rfl⟩
      · have hchecked := ReadsAs.checksum found account hfour hspelled hwrong
        rw [hspelled] at hchecked
        exact hchecked
      · have hlength := ReadsAs.length bytes hspelled hlong hshort
        rw [← Lib.Hex.utf8ByteSize_decoded ((hex.decode _ _).mp hdecoded)] at hlength
        exact hlength

/-- The text says one thing only. -/
theorem fromHex_eq (hex : HexFormat E) {result : Except String Ledger.AccountIdentifier}
    (h : ReadsAs E text result) : Ledger.AccountIdentifier.fromHex E text = result := by
  unfold Ledger.AccountIdentifier.fromHex
  cases h with
  | canonical account spelled =>
    rw [hex.reads.mpr spelled]
    dsimp only
    rw [fromSlice_ok.mpr (.inl rfl)]
  | bare account spelled =>
    rw [hex.reads.mpr spelled]
    dsimp only
    rw [fromSlice_ok.mpr (.inr rfl)]
  | checksum found account four spelled wrong =>
    rw [hex.reads.mpr spelled]
    dsimp only
    rw [fromSlice_checksum four wrong, spelled]
    rfl
  | length bytes spelled long short =>
    have hdecoded := hex.reads.mpr spelled
    rw [hdecoded]
    dsimp only
    rw [fromSlice_length long short, ← Lib.Hex.utf8ByteSize_decoded ((hex.decode _ _).mp hdecoded)]
  | foreign e foreign refused => rw [refused]

theorem HexFormat.printed (hex : HexFormat E) (bytes : Blob) :
    (E.hexEncode bytes).toLower = E.hexEncode bytes :=
  hex.reads.mp (E.hexDecode_hexEncode bytes)

/-- What `to_hex` prints comes back. -/
theorem fromHex_toHex (hex : HexFormat E) (account : Ledger.AccountIdentifier) :
    Ledger.AccountIdentifier.fromHex E (account.toHex E) = .ok account :=
  fromHex_eq hex (.canonical account (hex.printed _))

/-- serde takes the text with the check bytes alone. -/
theorem deserialize_ok (hex : HexFormat E) {ε : Type} {hexArray : String → Except ε Bytes32}
    {custom : String → ε}
    (array : ∀ text blob, hexArray text = .ok blob ↔ E.hexDecode text = .ok blob.toList) :
    Ledger.AccountIdentifier.deserialize E hexArray custom text = .ok account ↔
      text.toLower = account.toHex E := by
  rw [Ledger.AccountIdentifier.toHex, ← hex.reads]
  unfold Ledger.AccountIdentifier.deserialize
  constructor
  · intro h
    cases hread : hexArray text with
    | error e =>
      rw [hread] at h
      cases h
    | ok blob =>
      rw [hread] at h
      simp only [bind, Except.bind] at h
      split at h
      · rename_i hchecksum
        cases h
        rw [← checkSum_ok.mp hchecksum]
        exact (array _ _).mp hread
      · cases h
  · intro h
    have hread := (array text ⟨account.toVec E, length_toVec⟩).mpr h
    have hchecksum : Ledger.checkSum E ⟨account.toVec E, length_toVec⟩ = .ok account :=
      checkSum_ok.mpr rfl
    rw [hread]
    simp only [bind, Except.bind, hchecksum]

theorem fromStr_ok (hex : HexFormat E) {hash : Bytes32} :
    HashOf.fromStr E text = .ok hash ↔ text.toLower = HashOf.toHex E hash := by
  rw [HashOf.toHex, ← hex.reads]
  unfold HashOf.fromStr
  cases E.hexDecode text with
  | error e => simp
  | ok v =>
    dsimp only
    split
    · cases hash
      simp
    · rename_i hlength
      refine iff_of_false (by simp) fun h => hlength ?_
      rw [Except.ok.inj h, hash.length_eq]

/-! ## Main result -/

/-- `from_hex` reads every text as what it says, and refuses it for the reason it gives. -/
theorem fromHex_iff (hex : HexFormat E) (text : String)
    (result : Except String Ledger.AccountIdentifier) :
    Ledger.AccountIdentifier.fromHex E text = result ↔ ReadsAs E text result :=
  ⟨fun h => h ▸ fromHex_readsAs hex, fromHex_eq hex⟩

open Examples in
theorem hexFormat : HexFormat externals := by
  refine ⟨fun _ => rfl, fun text bytes => ?_⟩
  show Lib.Hex.decode text = .ok bytes ↔ _
  unfold Lib.Hex.decode
  cases Lib.Hex.decodeChars text.toList <;> simp

open Examples in
/-- The account of subaccount 1, with capital letters in the check bytes -/
theorem fromHex_iff_capital : Ledger.AccountIdentifier.fromHex externals
      "A40B5561de0434967fd095c828cc741359c734bdbf0015b43aa23309357d1f63" =
    .ok ⟨account1.toList.drop 4, by decide⟩ :=
  (fromHex_iff hexFormat _ _).mpr (.canonical _ (hexFormat.reads.mp (by decide)))

end HexTexts

end SubaccountIndexer
