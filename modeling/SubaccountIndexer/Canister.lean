import SubaccountIndexer.Ledger
import Mathlib.Data.Finset.Basic

/-! The canister's state and what its entry points share: the caller check, the
subaccounts it hands out and the block cursors of the tokens. The first ten fields
are the stable cells of memory.rs, the rest lives on the heap. -/

namespace SubaccountIndexer

structure Canister where
  principal : Option Principal
  lastSubaccountNonce : UInt32
  nextBlock : UInt64
  intervalInSeconds : UInt64
  transactions : Transactions
  custodianPrincipal : Option Principal
  connectedNetwork : Network
  webhookUrl : String
  tokenLedgerPrincipals : TokenLedgers
  tokenNextBlocks : TokenNextBlocks
  network : Network
  listOfSubaccounts : Subaccounts
  /-- The interval of the running timer, if one runs -/
  timer : Option UInt64
  pendingRequests : Finset Principal

/-- The stable cells as memory.rs initialises them, and an empty heap. -/
def Canister.default : Canister where
  principal := none
  lastSubaccountNonce := 0
  nextBlock := 1
  intervalInSeconds := 5
  transactions := ∅
  custodianPrincipal := none
  connectedNetwork := .mainnet
  webhookUrl := ""
  tokenLedgerPrincipals := ∅
  tokenNextBlocks := ∅
  network := .local
  listOfSubaccounts := ∅
  timer := none
  pendingRequests := ∅

/-! ## The caller check -/

/-- `CallerGuard::new` -/
def callerGuardNew (E : Externals) (c : Canister) (principal : Principal) :
    Except String Canister :=
  if principal ∈ c.pendingRequests then
    .error ("Already processing a request for principal " ++ E.principalToText principal)
  else .ok { c with pendingRequests := insert principal c.pendingRequests }

/-- The `Drop` of `CallerGuard` -/
def callerGuardDrop (c : Canister) (principal : Principal) : Canister :=
  { c with pendingRequests := c.pendingRequests.erase principal }

/-- `authenticate`. The guard is a local of the function, so it is dropped before the
caller sees `Ok`. -/
def authenticate (E : Externals) (c : Canister) (caller : Principal) : Except String Canister :=
  match c.network with
  | .local => .ok c
  | .mainnet =>
    match c.custodianPrincipal with
    | none => .error "Failed to get custodian principal"
    | some custodianPrincipal =>
      if caller ≠ custodianPrincipal then .error "Unauthorized"
      else (callerGuardNew E c caller).map fun guarded => callerGuardDrop guarded caller

/-- The guard is gone when `authenticate` returns: it leaves the state as it found it. -/
theorem authenticate_frame {E : Externals} {c c' : Canister} {caller : Principal}
    (h : authenticate E c caller = .ok c') : c' = c := by
  unfold authenticate at h
  split at h
  · cases h; rfl
  · split at h
    · cases h
    · split at h
      · cases h
      · unfold callerGuardNew at h
        split at h
        · cases h
        · rename_i hfree
          cases h
          simp [callerGuardDrop, Finset.erase_insert hfree]

/-- The check looks at the network, the custodian and the pending requests. -/
theorem authenticate_isOk {E : Externals} {c c' : Canister} (network : c'.network = c.network)
    (custodian : c'.custodianPrincipal = c.custodianPrincipal)
    (pending : c'.pendingRequests = c.pendingRequests) (caller : Principal) :
    (authenticate E c' caller).isOk = (authenticate E c caller).isOk := by
  unfold authenticate callerGuardNew
  rw [network, custodian, pending]
  repeat' split
  all_goals rfl

/-! ## Subaccounts -/

theorem length_toBeBytes_padded (n : UInt32) :
    (List.replicate 28 0 ++ toBeBytes n).length = 32 := by
  simp [toBeBytes]

/-- `to_subaccount`: the nonce, big-endian, at the end of 32 bytes -/
def toSubaccount (nonce : UInt32) : Subaccount :=
  ⟨List.replicate 28 0 ++ toBeBytes nonce, length_toBeBytes_padded nonce⟩

variable (E : Externals)

def toSubaccountId (subaccount : Subaccount) : AccountIdentifier :=
  E.accountIdentifier E.canisterId subaccount

/-- `from_hex` -/
def fromHex (hex : String) : Except String Bytes32 :=
  match E.hexDecode hex with
  | .error e => .error ("String to vector conversion error: " ++ e)
  | .ok v =>
    if h : v.length = 32 then .ok ⟨v, h⟩
    else .error "Vector to fixed array conversion error: TryFromSliceError(())"

/-- The hex of an identifier decodes to the identifier, so the `unwrap` in `to_u64_hash`
cannot panic. -/
theorem fromHex_hexEncode (account : AccountIdentifier) :
    fromHex E (E.hexEncode account.toList) = .ok account := by
  simp [fromHex, E.hexDecode_hexEncode, account.length_eq]

theorem hexEncode_injective {a b : Blob} (h : E.hexEncode a = E.hexEncode b) : a = b := by
  have hdecoded := congrArg E.hexDecode h
  rwa [E.hexDecode_hexEncode, E.hexDecode_hexEncode, Except.ok.injEq] at hdecoded

/-- `Result::unwrap` on a result that is known to be `Ok` -/
def unwrap {ε α : Type} (result : Except ε α) (h : ∃ a, result = .ok a) : α :=
  match result, h with
  | .ok a, _ => a

theorem unwrap_eq {ε α : Type} {result : Except ε α} {a : α} (h : result = .ok a) :
    unwrap result ⟨a, h⟩ = a := by
  subst h
  rfl

theorem exists_ok_of_isOk {ε α : Type} {x : Except ε α} (h : x.isOk = true) :
    ∃ a, x = .ok a := by
  cases x with
  | error e => cases h
  | ok a => exact ⟨a, rfl⟩

/-- What a computation that succeeds has gone through -/
theorem bind_eq_ok {ε α β : Type} {x : Except ε α} {f : α → Except ε β} {b : β}
    (h : x >>= f = .ok b) : ∃ a, x = .ok a ∧ f a = .ok b := by
  cases x with
  | error e => cases h
  | ok a => exact ⟨a, rfl, h⟩

theorem map_eq_ok {ε α β : Type} {f : α → β} {x : Except ε α} {b : β} (h : x.map f = .ok b) :
    ∃ a, x = .ok a ∧ f a = b := by
  cases x with
  | error e => cases h
  | ok a => exact ⟨a, rfl, Except.ok.inj h⟩

/-- `ToU64Hash for AccountIdentifier` -/
def toU64Hash (account : AccountIdentifier) : UInt64 :=
  E.defaultHasher (unwrap (fromHex E (E.hexEncode account.toList)) ⟨_, fromHex_hexEncode E account⟩)

@[simp] theorem toU64Hash_eq (account : AccountIdentifier) :
    toU64Hash E account = E.defaultHasher account := by
  rw [toU64Hash, unwrap_eq (fromHex_hexEncode E account)]

/-- The key under which subaccount number `nonce` is listed -/
def nonceHash (nonce : UInt32) : UInt64 := toU64Hash E (toSubaccountId E (toSubaccount nonce))

/-- `includes_hash`: only the 64-bit hash is compared. -/
def includesHash (subaccounts : Subaccounts) (vecToCheck : Blob) : Bool :=
  if h : vecToCheck.length = 32 then subaccounts.contains (E.defaultHasher ⟨vecToCheck, h⟩)
  else false

/-- `get_subaccount` -/
def getSubaccount (c : Canister) (accountid : AccountIdentifier) : Except String Subaccount :=
  match c.listOfSubaccounts[toU64Hash E accountid]? with
  | some value => .ok value
  | none => .error "Account not found"

/-- The loop of `reconstruct_subaccounts` over the nonces below `n` -/
def reconstructUpTo : Nat → Subaccounts → Subaccounts
  | 0, list => list
  | n + 1, list =>
    (reconstructUpTo n list).insert (nonceHash E (UInt32.ofNat n)) (toSubaccount (UInt32.ofNat n))

def reconstructSubaccounts (c : Canister) : Canister :=
  { c with listOfSubaccounts :=
      reconstructUpTo E c.lastSubaccountNonce.toNat c.listOfSubaccounts }

/-- A subaccount that is listed under the hash of its identifier -/
def Canister.Registered (c : Canister) (subaccount : Subaccount) : Prop :=
  c.listOfSubaccounts[toU64Hash E (toSubaccountId E subaccount)]? = some subaccount

instance (c : Canister) (subaccount : Subaccount) : Decidable (c.Registered E subaccount) :=
  inferInstanceAs (Decidable (_ = _))

theorem includesHash_account {c : Canister} {subaccount : Subaccount}
    (h : c.Registered E subaccount) :
    includesHash E c.listOfSubaccounts (toSubaccountId E subaccount).toList = true := by
  simp only [Canister.Registered, toU64Hash_eq] at h
  simp only [includesHash, (toSubaccountId E subaccount).length_eq, dite_true]
  exact Std.ExtTreeMap.contains_eq_isSome_getElem?.trans (by rw [h]; rfl)

/-! ## Tokens -/

/-- `get_token_id` -/
def getTokenId : TokenType → UInt8
  | .icp => 1
  | .ckusdc => 2
  | .ckusdt => 3
  | .ckbtc => 4

theorem getTokenId_injective {s t : TokenType} (h : getTokenId s = getTokenId t) : s = t := by
  cases s <;> cases t <;> first | rfl | cases h

/-- `get_token_next_block`, 1 by default -/
def Canister.getTokenNextBlock (c : Canister) (tokenType : TokenType) : UInt64 :=
  (c.tokenNextBlocks[getTokenId tokenType]?).getD 1

/-- `set_token_next_block` -/
def Canister.setTokenNextBlock (c : Canister) (tokenType : TokenType) (block : UInt64) :
    Canister :=
  { c with tokenNextBlocks := c.tokenNextBlocks.insert (getTokenId tokenType) block }

@[simp] theorem Canister.setTokenNextBlock_transactions (c : Canister) (t : TokenType)
    (block : UInt64) : (c.setTokenNextBlock t block).transactions = c.transactions := rfl
@[simp] theorem Canister.setTokenNextBlock_principal (c : Canister) (t : TokenType)
    (block : UInt64) : (c.setTokenNextBlock t block).principal = c.principal := rfl
@[simp] theorem Canister.setTokenNextBlock_nonce (c : Canister) (t : TokenType)
    (block : UInt64) : (c.setTokenNextBlock t block).lastSubaccountNonce = c.lastSubaccountNonce :=
  rfl
@[simp] theorem Canister.setTokenNextBlock_ledgers (c : Canister) (t : TokenType)
    (block : UInt64) :
    (c.setTokenNextBlock t block).tokenLedgerPrincipals = c.tokenLedgerPrincipals := rfl
@[simp] theorem Canister.setTokenNextBlock_subaccounts (c : Canister) (t : TokenType)
    (block : UInt64) : (c.setTokenNextBlock t block).listOfSubaccounts = c.listOfSubaccounts := rfl

theorem Canister.getTokenNextBlock_set (c : Canister) (s t : TokenType) (block : UInt64) :
    (c.setTokenNextBlock s block).getTokenNextBlock t =
      if s = t then block else c.getTokenNextBlock t := by
  simp only [getTokenNextBlock, setTokenNextBlock, Std.ExtTreeMap.getElem?_insert,
    Std.compare_eq_iff_eq]
  by_cases h : s = t
  · simp [h]
  · rw [if_neg h, if_neg fun he => h (getTokenId_injective he)]

/-- The hardcoded ledger of a token, the fallback of `get_token_ledger_canister_id` -/
def TokenType.defaultLedger : TokenType → Principal
  | .icp => MAINNET_LEDGER_CANISTER_ID
  | .ckusdc => CKUSDC_LEDGER_CANISTER_ID
  | .ckusdt => CKUSDT_LEDGER_CANISTER_ID
  | .ckbtc => CKBTC_LEDGER_CANISTER_ID

/-- The first registered ledger of a token, in the order of the registry -/
def registeredLedger (ledgers : TokenLedgers) (tokenType : TokenType) : Option Principal :=
  (ledgers.toList.find? fun entry => entry.2.1 == tokenType).map fun entry => entry.2.2

/-- `get_token_ledger_canister_id` -/
def Canister.getTokenLedgerCanisterId (c : Canister) (tokenType : TokenType) : Principal :=
  (registeredLedger c.tokenLedgerPrincipals tokenType).getD tokenType.defaultLedger

/-- `get_custodian_id` -/
def getCustodianId (c : Canister) : Except String AccountIdentifier :=
  match c.custodianPrincipal with
  | none => .error "Failed to get principal"
  | some custodianPrincipal => .ok (E.accountIdentifier custodianPrincipal DEFAULT_SUBACCOUNT)

namespace Examples

/-- The list of a canister that has handed out subaccounts 0 and 1 -/
def issuedSubaccounts : Subaccounts :=
  ((∅ : Subaccounts).insert 10584906941951581429 (toSubaccount 0)).insert 13125301486455035840
    (toSubaccount 1)

theorem issuedSubaccounts_eq : reconstructUpTo externals 2 ∅ = issuedSubaccounts := by
  simp only [reconstructUpTo, nonceHash, toU64Hash_eq]
  rfl

/-- A canister with a custodian that has handed out subaccounts 0 and 1 -/
def issued : Canister :=
  { Canister.default with
    lastSubaccountNonce := 2, custodianPrincipal := some custodian,
    listOfSubaccounts := issuedSubaccounts }

theorem registered_of_listed {c : Canister}
    (h : c.listOfSubaccounts[(13125301486455035840 : UInt64)]? = some subaccount1) :
    c.Registered externals subaccount1 := by
  rw [Canister.Registered, toU64Hash_eq]
  exact h

end Examples

end SubaccountIndexer
