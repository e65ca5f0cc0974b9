import SubaccountIndexer.System

/-! The query methods: they print addresses, list records, read single cells and look a hash
up, and change nothing. Five of them derive the address of a nonce, each in its own way. -/

namespace SubaccountIndexer

variable (E : Externals)

/-! ## Addresses -/

/-- `get_subaccount_count` -/
def getSubaccountCount (c : Canister) : Except String UInt32 :=
  .ok (UInt32.ofNat c.listOfSubaccounts.size)

/-- `get_subaccountid` -/
def getSubaccountid (c : Canister) (nonceParam : UInt32) (tokenType : Option TokenType) :
    Except String String :=
  if nonceParam ≥ c.lastSubaccountNonce then .error "Index out of bounds"
  else
    let subaccountid := toSubaccountId E (toSubaccount nonceParam)
    match c.listOfSubaccounts[toU64Hash E subaccountid]? with
    | some _ =>
      match tokenType.getD .icp with
      | .ckusdc | .ckusdt | .ckbtc =>
        .ok ((IcrcAccount.fromPrincipalAndIndex E.canisterId nonceParam).toText E)
      | .icp => .ok (E.hexEncode subaccountid.toList)
    | none => .error "Account not found"

/-- The address of a ck token is the text of the account `to_subaccount` makes of the nonce. -/
theorem subaccountAddress_ck {nonce : UInt32} {t : TokenType} (ck : t ≠ .icp) :
    subaccountAddress E nonce t =
      IcrcAccount.toText E ⟨E.canisterId, some (toSubaccount nonce)⟩ := by
  cases t with
  | icp => exact absurd rfl ck
  | _ => rfl

/-- `get_icrc_account`, which does not look at the list -/
def getIcrcAccount (c : Canister) (nonceParam : UInt32) : Except String String :=
  if nonceParam ≥ c.lastSubaccountNonce then .error "Index out of bounds"
  else .ok ((IcrcAccount.fromPrincipalAndIndex E.canisterId nonceParam).toText E)

/-- `convert_to_icrc_account`: a search through the nonces -/
def convertToIcrcAccount (c : Canister) (accountHex : String) : Except String String :=
  match E.hexDecode accountHex with
  | .error _ => .error "Invalid hex encoding"
  | .ok accountBytes =>
    if accountBytes.length ≠ 32 then
      .error ("Invalid account length: " ++ toString accountBytes.length ++ ", expected 32")
    else
      match (List.range c.lastSubaccountNonce.toNat).find? fun i =>
          E.hexEncode (toSubaccountId E (toSubaccount (UInt32.ofNat i))).toList == accountHex with
      | some i =>
        .ok ((IcrcAccount.fromPrincipalAndIndex E.canisterId (UInt32.ofNat i)).toText E)
      | none => .error "Account not found in generated subaccounts"

/-- `validate_icrc_account` -/
def validateIcrcAccount (icrcAccountText : String) : Except String Bool :=
  match IcrcAccount.fromText E icrcAccountText with
  | .ok _ => .ok true
  | .error e => .error e

/-! ## Records -/

/-- `get_transactions_count`, in 32 bits -/
def getTransactionsCount (c : Canister) : Except String UInt32 :=
  .ok (UInt32.ofNat c.transactions.size)

/-- `get_oldest_block`: the first key -/
def getOldestBlock (c : Canister) : Except String (Option UInt64) :=
  .ok (c.transactions.toList.head?.map Prod.fst)

/-- `list_transactions`: the last records in the order of the keys, 100 by default. The casts to
`usize` keep 32 bits on the target. -/
def listTransactions (c : Canister) (upToCount : Option UInt64) :
    Except String (List StoredTransactions) :=
  let upToCount := (upToCount.getD 100).toNat
  let skip :=
    if c.transactions.size < upToCount then 0 else c.transactions.size - upToCount
  .ok (((c.transactions.toList.map Prod.snd).drop (skip % 2 ^ 32)).take (upToCount % 2 ^ 32))

/-- `get_transaction_token_type`: the first record with that hash, in the order of the keys -/
def getTransactionTokenType (c : Canister) (txHash : String) : Except String TokenType :=
  match (c.transactions.toList.map Prod.snd).find? fun tx => tx.txHash == txHash with
  | some tx => .ok tx.tokenType
  | none => .error "Transaction not found"

/-! ## Cursors and tokens -/

/-- `get_next_block`, the legacy cursor -/
def getNextBlock (c : Canister) : Except String UInt64 := .ok c.nextBlock

/-- `get_token_next_block_query` -/
def getTokenNextBlockQuery (c : Canister) (tokenType : TokenType) : Except String UInt64 :=
  .ok (c.getTokenNextBlock tokenType)

/-- `get_all_token_blocks` -/
def getAllTokenBlocks (c : Canister) : Except String (List (TokenType × UInt64)) :=
  .ok ([.icp, .ckusdc, .ckusdt, .ckbtc].map fun t => (t, c.getTokenNextBlock t))

/-- `get_registered_tokens`: each token with the text of its ledger -/
def getRegisteredTokens (c : Canister) : Except String (List (TokenType × String)) :=
  .ok (c.tokenLedgerPrincipals.toList.map fun entry =>
    (entry.2.1, E.principalToText entry.2.2))

/-! ## Single cells -/

/-- `get_nonce` -/
def getNonce (c : Canister) : Except String UInt32 := .ok c.lastSubaccountNonce

/-- `get_interval` -/
def getInterval (c : Canister) : Except String UInt64 := .ok c.intervalInSeconds

/-- `get_network`, which checks the caller -/
def getNetwork (c : Canister) (caller : Principal) : Except String Network :=
  (authenticate E c caller).map Canister.network

/-- `get_webhook_url`, which checks the caller -/
def getWebhookUrl (c : Canister) (caller : Principal) : Except String String :=
  (authenticate E c caller).map Canister.webhookUrl

end SubaccountIndexer
