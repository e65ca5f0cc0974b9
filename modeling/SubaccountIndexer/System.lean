import SubaccountIndexer.Archive
import SubaccountIndexer.IcrcAccount
import SubaccountIndexer.Lib.Machine

/-! The canister as a machine. A message runs from its start, or from the answer
to a call it made, to its next await; between two messages any other message may
run. The machine keeps one task for every message accepted since the last upgrade,
and a panic leaves the state as it was when the message began. -/

namespace SubaccountIndexer

/-- What an update call returns when it succeeds -/
inductive Value where
  | unit
  | number (n : UInt64)
  | text (s : String)
  | lines (l : List String)
  | transactions (l : List StoredTransactions)

/-- Where a message stands -/
inductive Task where
  /-- `query_token_ledger` waits for the ledger. -/
  | poll (tokenType : TokenType) (tokenPrincipal : Principal) (nextBlock : UInt64)
  /-- `query_token_ledger` waits for the webhook and will return `blockCount`. -/
  | webhook (tokenType : TokenType) (blockCount : UInt64)
  /-- A sweep loop waits for the transfer of `tx`. -/
  | sweep (tx : StoredTransactions) (rest : List StoredTransactions) (results : List String)
  | refund (tx : StoredTransactions)
  | archive (await : ArchiveAwait)
  | sweepSubaccount (tokenType : TokenType)
  /-- `set_custodian_principal` waits for the management canister. -/
  | setCustodian (caller : Principal) (principalText : String)
  | finished (result : Except String Value)
  | trapped

/-- The update methods -/
inductive Method where
  | setNextBlock (block : UInt64)
  | setWebhookUrl (webhookUrl : String)
  | setCustodianPrincipal (principalText : String)
  | setInterval (seconds : UInt64)
  | addSubaccount (tokenType : Option TokenType)
  | processTokenArchivedBlock (tokenType : TokenType) (blockIndex : UInt64)
  | clearTransactions (upToIndex : Option UInt64) (upToTimestamp : Option Timestamp)
  | refund (transactionIndex : UInt64)
  | sweep
  | singleSweep (txHashArg : String)
  | sweepSubaccount (subaccountidHex : String) (amount : Float) (tokenType : Option TokenType)
  | setSweepFailed (txHashArg : String)
  | registerToken (tokenType : TokenType) (tokenLedgerPrincipal : String)
  | sweepByTokenType (tokenType : TokenType)
  | setTokenNextBlockUpdate (tokenType : TokenType) (block : UInt64)
  | resetTokenBlocks

/-- The answer to a call a task made -/
inductive Reply where
  | ledger (reply : LedgerReply)
  | http
  | transfer (result : Except String Nat)
  | archive (reply : ArchiveReply)
  /-- The controllers of the canister, if its status could be read -/
  | status (controllers : Option (List Principal))

inductive Input where
  | timer
  | call (caller : Principal) (method : Method)
  | reply (task : Nat) (reply : Reply)
  | upgrade (caller : Principal)

/-- The state and the task when a message stops running, and what it did -/
structure Turn where
  canister : Canister
  task : Task
  events : List Event

variable (E : Externals)

/-! ## Turns of the individual methods -/

def Turn.done (c : Canister) (result : Except String Value) : Turn := ⟨c, .finished result, []⟩

def PollTurn.toTurn (turn : PollTurn) (tokenType : TokenType) : Turn :=
  match turn.status with
  | .returned blockCount =>
    ⟨writeCursor turn.canister tokenType blockCount, .finished (.ok .unit), turn.events⟩
  | .webhook _ blockCount => ⟨turn.canister, .webhook tokenType blockCount, turn.events⟩

def SweepTurn.toTurn (turn : SweepTurn) : Turn :=
  ⟨turn.canister,
    match turn.status with
    | .returned result => .finished (result.map .lines)
    | .awaiting tx rest results => .sweep tx rest results,
    turn.events⟩

def RefundTurn.toTurn (turn : RefundTurn) : Turn :=
  ⟨turn.canister,
    match turn.status with
    | .returned result => .finished (result.map .text)
    | .awaiting tx => .refund tx,
    turn.events⟩

def ArchiveTurn.toTurn (turn : ArchiveTurn) : Turn :=
  ⟨turn.canister,
    match turn.status with
    | .returned result => .finished (result.map .text)
    | .awaiting await => .archive await,
    turn.events⟩

/-- `set_webhook_url` -/
def setWebhookUrl (c : Canister) (webhookUrl : String) : Turn :=
  match E.urlParse webhookUrl with
  | .error e => .done c (.error ("Invalid URL format: " ++ e))
  | .ok url =>
    if url.scheme ≠ "http" ∧ url.scheme ≠ "https" then
      .done c (.error "Invalid URL scheme. Must be http or https.")
    else if !url.hasHost then .done c (.error "Invalid URL. Host is missing.")
    else .done { c with webhookUrl } (.ok (.text webhookUrl))

/-- `set_custodian_principal` once the status of the canister is known -/
def setCustodianReply (c : Canister) (caller : Principal) (principalText : String)
    (controllers : Option (List Principal)) : Turn :=
  let allowed : Except String Unit := match controllers with
    | some list =>
      if caller ∈ list then .ok () else .error "Only controller can set custodian principal"
    | none =>
      if c.network ≠ .local then .error "Unable to verify controller status" else .ok ()
  match allowed with
  | .error message => .done c (.error message)
  | .ok () =>
    match E.principalFromText principalText with
    | .error e => .done c (.error ("Invalid principal format: " ++ e))
    | .ok custodianPrincipal =>
      .done { c with custodianPrincipal := some custodianPrincipal }
        (.ok (.text ("Custodian principal set to: " ++ principalText)))

/-- `set_interval` after the caller check -/
def setInterval (c : Canister) (seconds : UInt64) : Canister :=
  { c with timer := some seconds, intervalInSeconds := seconds }

/-- The address `add_subaccount` returns: ICRC-1 text for a ck token, else the identifier in
hex -/
def subaccountAddress (nonce : UInt32) (tokenType : TokenType) : String :=
  match tokenType with
  | .ckusdc | .ckusdt | .ckbtc =>
    (IcrcAccount.fromPrincipalAndIndex E.canisterId nonce).toText E
  | .icp => E.hexEncode (toSubaccountId E (toSubaccount nonce)).toList

/-- `add_subaccount` after the caller check. The nonce wraps in the release profile. -/
def addSubaccount (c : Canister) (tokenType : Option TokenType) : Turn :=
  let nonce := c.lastSubaccountNonce
  .done { c with
    listOfSubaccounts := c.listOfSubaccounts.insert (nonceHash E nonce) (toSubaccount nonce)
    lastSubaccountNonce := nonce + 1 }
    (.ok (.text (subaccountAddress E nonce (tokenType.getD .icp))))

/-- `register_token` after the caller check -/
def registerToken (c : Canister) (tokenType : TokenType) (tokenLedgerPrincipal : String) : Turn :=
  match E.principalFromText tokenLedgerPrincipal with
  | .error e => .done c (.error ("Invalid principal: " ++ e))
  | .ok principal =>
    .done { c with
      tokenLedgerPrincipals := c.tokenLedgerPrincipals.insert
        (getTokenId tokenType).toUInt64 (tokenType, principal) } (.ok .unit)

def resetTokenBlocks (c : Canister) : Canister :=
  (((c.setTokenNextBlock .icp 1).setTokenNextBlock .ckusdc 1).setTokenNextBlock .ckusdt
    1).setTokenNextBlock .ckbtc 1

/-- The transfer `sweep_subaccount` issues -/
def sweepSubaccountCall (c : Canister) (custodianId : AccountIdentifier) (subaccount : Subaccount)
    (amountE8s : UInt64) (tokenType : TokenType) : Except String TransferCall :=
  match tokenType with
  | .icp => .ok (.transfer
      { memo := 0, amount := amountE8s, fee := 10000, fromSubaccount := some subaccount,
        «to» := custodianId, createdAtTime := none } tokenType.defaultLedger)
  | .ckusdc | .ckusdt | .ckbtc =>
    match c.custodianPrincipal with
    | none => .error "Failed to get custodian principal"
    | some custodianPrincipal =>
      let fee := match tokenType with
        | .ckbtc => 10
        | _ => 10000
      .ok (.icrc1Transfer
        { «to» := { owner := custodianPrincipal, subaccount := none }, fee := some fee,
          memo := none, fromSubaccount := some subaccount, createdAtTime := none,
          amount := amountE8s.toNat } tokenType.defaultLedger)

/-- `sweep_subaccount` up to its transfer. The list is searched in hash order; an address
names one subaccount. -/
def sweepSubaccount (c : Canister) (subaccountidHex : String) (amount : Float)
    (tokenType : Option TokenType) : Turn :=
  match getCustodianId E c with
  | .error e => .done c (.error e)
  | .ok custodianId =>
    match c.listOfSubaccounts.toList.find? fun entry =>
        E.hexEncode (toSubaccountId E entry.2).toList == subaccountidHex with
    | none => .done c (.error "Subaccount not found")
    | some (_, subaccount) =>
      let amountE8s := (amount * 100000000.0).round.toUInt64
      if amountE8s = 18446744073709551615 ∨ amount < 0.0 then
        .done c (.error "Invalid amount: overflow or negative value")
      else
        let tokenType := tokenType.getD .icp
        match sweepSubaccountCall c custodianId subaccount amountE8s tokenType with
        | .error e => .done c (.error e)
        | .ok call => ⟨c, .sweepSubaccount tokenType, [.subaccountTransfer call]⟩

/-- `sweep_subaccount` after its transfer -/
def sweepSubaccountReply (c : Canister) (tokenType : TokenType) (result : Except String Nat) :
    Turn :=
  .done c (result.map fun index =>
    .number (match tokenType with
      | .icp => UInt64.ofNat index
      | _ => Icrc3.toU64OrZero index))

/-! ## Messages -/

/-- A method after its caller check, up to its first await or its end -/
def runMethod (c : Canister) (caller : Principal) : Method → Except Trap Turn
  | .setNextBlock block => .ok (.done { c with nextBlock := block } (.ok (.number block)))
  | .setWebhookUrl webhookUrl => .ok (setWebhookUrl E c webhookUrl)
  | .setCustodianPrincipal principalText => .ok ⟨c, .setCustodian caller principalText, []⟩
  | .setInterval seconds => .ok (.done (setInterval c seconds) (.ok (.number seconds)))
  | .addSubaccount tokenType => .ok (addSubaccount E c tokenType)
  | .processTokenArchivedBlock tokenType blockIndex =>
    .ok ⟨c, .archive (processTokenArchivedBlock c tokenType blockIndex), []⟩
  | .clearTransactions upToIndex upToTimestamp =>
    let (transactions, events) := clearTransactions c.transactions upToIndex upToTimestamp
    .ok ⟨{ c with transactions },
      .finished (.ok (.transactions (transactions.toList.map Prod.snd))), events⟩
  | .refund transactionIndex => (refund E c transactionIndex).map RefundTurn.toTurn
  | .sweep => .ok (sweepTxs E c [] (sweepSelection c)).toTurn
  | .singleSweep txHashArg => .ok (sweepTxs E c [] (hashSelection c txHashArg)).toTurn
  | .sweepSubaccount hex amount tokenType => .ok (sweepSubaccount E c hex amount tokenType)
  | .setSweepFailed txHashArg => do
    let (transactions, lines, events) ←
      setSweepFailedTxs c.transactions [] (hashSelection c txHashArg)
    .ok ⟨{ c with transactions }, .finished (.ok (.lines lines)), events⟩
  | .registerToken tokenType principal => .ok (registerToken E c tokenType principal)
  | .sweepByTokenType tokenType =>
    .ok (sweepTxs E c [] (sweepByTokenTypeSelection c tokenType)).toTurn
  | .setTokenNextBlockUpdate tokenType block =>
    .ok (.done (c.setTokenNextBlock tokenType block) (.ok (.number block)))
  | .resetTokenBlocks =>
    .ok (.done (resetTokenBlocks c) (.ok (.text "All token blocks reset to 1")))

/-- Whether a method starts with `authenticate()?`; `set_custodian_principal` checks the
controllers instead. -/
def Method.authenticates : Method → Bool
  | .setCustodianPrincipal _ => false
  | _ => true

/-- An update call: the caller check, then the method -/
def startCall (c : Canister) (caller : Principal) (method : Method) : Except Trap Turn :=
  if method.authenticates then
    match authenticate E c caller with
    | .error e => .ok (.done c (.error e))
    | .ok c' => runMethod E c' caller method
  else runMethod E c caller method

/-- A task from the answer to its call to its next await or its end; `none` is an answer to
another kind of call. -/
def resumeTask (c : Canister) (task : Task) (reply : Reply) : Option (Except Trap Turn) :=
  match task, reply with
  | .poll tokenType tokenPrincipal nextBlock, .ledger reply => some do
    let answer ← queryBlocks E tokenPrincipal (pollRequest nextBlock) reply
    let turn ← queryTokenLedger E c tokenType tokenPrincipal nextBlock answer
    .ok (turn.toTurn tokenType)
  | .webhook tokenType blockCount, .http =>
    some (.ok (.done (writeCursor c tokenType blockCount) (.ok .unit)))
  | .sweep tx rest results, .transfer result =>
    some ((sweepReply E c tx rest results result).map SweepTurn.toTurn)
  | .refund tx, .transfer result => some ((refundReply c tx result).map RefundTurn.toTurn)
  | .archive await, .archive reply =>
    (archiveReply E c await reply).map fun result => result.map ArchiveTurn.toTurn
  | .sweepSubaccount tokenType, .transfer result =>
    some (.ok (sweepSubaccountReply c tokenType result))
  | .setCustodian caller principalText, .status controllers =>
    some (.ok (setCustodianReply E c caller principalText controllers))
  | _, _ => none

/-- The blocks a poll was answered with, whatever then becomes of the block loop -/
def answeredBlocks (task : Task) (reply : Reply) : List Event :=
  match task, reply with
  | .poll tokenType tokenPrincipal nextBlock, .ledger reply =>
    match queryBlocks E tokenPrincipal (pollRequest nextBlock) reply with
    | .ok (.ok response) => [.answered tokenType nextBlock response.blocks]
    | _ => []
  | _, _ => []

/-! ## Installing and upgrading -/

/-- `init`; the two `expect`s trap. -/
def init (network : Network) (seconds : UInt64) (nonce : UInt32) (ledgerPrincipal : String)
    (custodianPrincipal : String) : Except Trap Canister :=
  match E.principalFromText ledgerPrincipal with
  | .error e => .error ⟨"Invalid ledger principal: " ++ e⟩
  | .ok principal =>
    match E.principalFromText custodianPrincipal with
    | .error e => .error ⟨"Invalid custodian principal: " ++ e⟩
    | .ok custodian =>
      .ok (reconstructSubaccounts E (resetTokenBlocks
        { Canister.default with
          network := network
          connectedNetwork := network
          intervalInSeconds := seconds
          lastSubaccountNonce := nonce
          principal := some principal
          custodianPrincipal := some custodian
          timer := some seconds }))

/-- `migrate_block_tracking` -/
def migrateBlockTracking (c : Canister) : Canister :=
  if c.tokenNextBlocks.isEmpty then
    (((c.setTokenNextBlock .icp c.nextBlock).setTokenNextBlock .ckusdc 1).setTokenNextBlock
      .ckusdt 1).setTokenNextBlock .ckbtc 1
  else c

/-- The heap an upgraded canister starts with; the stable cells are kept. -/
def Canister.resetHeap (c : Canister) : Canister :=
  { c with network := .local, listOfSubaccounts := ∅, timer := none, pendingRequests := ∅ }

/-- `reconstruct_network` -/
def reconstructNetwork (c : Canister) : Canister := { c with network := c.connectedNetwork }

/-- The `set_interval(500)` of `post_upgrade`. It passes the caller check: the heap network
is still `Local`. -/
def upgradeInterval (c : Canister) (caller : Principal) : Canister :=
  match authenticate E c caller with
  | .ok c => setInterval c 500
  | .error _ => c

/-- The end of `post_upgrade`: the caller becomes custodian if there is none. -/
def ensureCustodian (c : Canister) (caller : Principal) : Canister :=
  match c.custodianPrincipal with
  | some _ => c
  | none => { c with custodianPrincipal := some caller }

def postUpgrade (c : Canister) (caller : Principal) : Canister :=
  let c := reconstructSubaccounts E (upgradeInterval E c.resetHeap caller)
  ensureCustodian (migrateBlockTracking (reconstructNetwork c)) caller

/-! ## The machine -/

structure System where
  canister : Canister
  tasks : List Task

/-- The state after a message; `place` puts its task among the others, and a panic takes back
what the message did to the canister. -/
def System.settle (c : Canister) (place : Task → List Task) (arrived : List Event) :
    Except Trap Turn → System × List Event
  | .ok turn => (⟨turn.canister, place turn.task⟩, arrived ++ turn.events)
  | .error trap => (⟨c, place .trapped⟩, arrived ++ [.trapped trap])

def System.step (σ : System) : Input → Option (System × List Event)
  | .timer =>
    match σ.canister.timer with
    | none => none
    | some _ =>
      some (⟨σ.canister, σ.tasks ++ (pollsToStart σ.canister).map fun p => .poll p.1 p.2.1 p.2.2⟩, [])
  | .call caller method =>
    some (System.settle σ.canister (fun task => σ.tasks ++ [task]) []
      (startCall E σ.canister caller method))
  | .reply n reply =>
    match σ.tasks[n]? with
    | none => none
    | some task =>
      (resumeTask E σ.canister task reply).map
        (System.settle σ.canister (σ.tasks.set n) (answeredBlocks E task reply))
  | .upgrade caller => some (⟨postUpgrade E σ.canister caller, []⟩, [])

/-- The canister with the messages in flight -/
def machine : Lib.Machine System Input Event := ⟨System.step E⟩

/-- The states a canister can be in right after it was installed -/
def Installed (σ : System) : Prop :=
  σ.tasks = [] ∧ ∃ network seconds nonce ledger custodian,
    init E network seconds nonce ledger custodian = .ok σ.canister

/-- The states reachable by any messages in any order -/
def Reachable (σ : System) : Prop :=
  ∃ σ₀ os, Installed E σ₀ ∧ (machine E).Run (fun _ _ => True) σ₀ os σ

variable {E} in
theorem Reachable.step {σ σ' : System} {i : Input} {os : List Event} (reachable : Reachable E σ)
    (fires : (machine E).step σ i = some (σ', os)) : Reachable E σ' := by
  obtain ⟨σ₀, before, installed, run⟩ := reachable
  exact ⟨σ₀, before ++ os, installed, run.step trivial fires⟩

/-- The response an input brings to a poll: the token, the start of the poll and what came -/
def System.polled (σ : System) : Input → Option (TokenType × UInt64 × QueryBlocksResponse)
  | .reply n (.ledger reply) =>
    match σ.tasks[n]? with
    | some (.poll tokenType tokenPrincipal nextBlock) =>
      match queryBlocks E tokenPrincipal (pollRequest nextBlock) reply with
      | .ok (.ok response) => some (tokenType, nextBlock, response)
      | _ => none
    | _ => none
  | _ => none

/-- The method an input runs: that of a call that passes the caller check -/
def System.runs (σ : System) : Input → Option Method
  | .call caller method =>
    if method.authenticates && !(authenticate E σ.canister caller).isOk then none else some method
  | _ => none

theorem System.runs_call {σ : System} {caller : Principal} {method m : Method}
    (h : σ.runs E (.call caller method) = some m) : m = method := by
  simp only [runs] at h
  split at h
  · cases h
  · exact (Option.some.inj h).symm

/-- A caller who passes the check passes it in a state with the same authority. -/
theorem System.runs_same {σ : System} {c : Canister} {caller : Principal} {method : Method}
    (allowed : σ.runs E (.call caller method) = some method)
    (network : c.network = σ.canister.network)
    (custodian : c.custodianPrincipal = σ.canister.custodianPrincipal)
    (pending : c.pendingRequests = σ.canister.pendingRequests) (tasks : List Task) :
    System.runs E ⟨c, tasks⟩ (.call caller method) = some method := by
  rw [runs, authenticate_isOk network custodian pending]
  exact allowed

namespace Examples

/-- A canister installed with two subaccounts, on the ICP ledger -/
def installed : Canister :=
  { resetTokenBlocks Canister.default with
    network := .local, connectedNetwork := .local, intervalInSeconds := 500,
    lastSubaccountNonce := 2, principal := some MAINNET_LEDGER_CANISTER_ID,
    custodianPrincipal := some custodian, timer := some 500, listOfSubaccounts := issuedSubaccounts }

def start : System := ⟨installed, []⟩

/-- A canister with the list that `init` makes of the two issued nonces -/
theorem installed_of_init {E : Externals} {c : Canister} {network : Network}
    {ledger custodian : String} (list : reconstructUpTo E 2 ∅ = c.listOfSubaccounts)
    (initialised : init E network 500 2 ledger custodian =
      .ok { c with listOfSubaccounts := reconstructUpTo E 2 ∅ }) : Installed E ⟨c, []⟩ := by
  refine ⟨rfl, network, 500, 2, ledger, custodian, ?_⟩
  rw [initialised, list]

theorem start_installed : Installed externals start := by
  refine installed_of_init issuedSubaccounts_eq
    (show init externals .local 500 2 "ryjl3-tyaaa-aaaaa-aaaba-cai"
      "ryjl3-tyaaa-aaaaa-aaaba-cai" = _ from rfl)

/-- The same canister with ckUSDC registered -/
def withUsdc : Canister :=
  { installed with tokenLedgerPrincipals :=
      installed.tokenLedgerPrincipals.insert 2 (.ckusdc, CKUSDC_LEDGER_CANISTER_ID) }

/-- After the first tick of the timer -/
def polling : System := ⟨installed, [.poll .icp MAINNET_LEDGER_CANISTER_ID 1]⟩

theorem polling_step : (machine externals).step start .timer = some (polling, []) := rfl

/-- The ledger's answer to a poll -/
def blocksReply (firstBlockIndex : UInt64) (blocks : List Block) : Reply :=
  .ledger (.queryBlocks (responseAt firstBlockIndex blocks))

def icrc3Reply (blocks : List Icrc3Value) : Reply :=
  .ledger (.icrc3GetBlocks ⟨blocks.length, blocks.map fun block => ⟨1, block⟩⟩)

/-- The ICP ledger answers a poll from 1 with a deposit. -/
abbrev icpAnswer (task : Nat) : Input := .reply task (blocksReply 1 [deposit])

abbrev depositStored : System := (machine externals).after polling (icpAnswer 0)

theorem depositStored_record : depositStored.canister.transactions.toList = [(1, record)] := by
  decide +kernel

theorem depositStored_list : depositStored.canister.listOfSubaccounts = issuedSubaccounts :=
  Std.ExtTreeMap.toList_inj.mp (by decide +kernel)

theorem depositStored_reachable : Reachable externals depositStored := by
  refine ⟨start, _, start_installed,
    (Lib.Machine.Run.nil.step trivial polling_step).next (i := icpAnswer 0) trivial ?_⟩
  decide +kernel

/-- A sweep waits for the transfer of the deposit. -/
abbrev sweeping : System := (machine externals).after depositStored (.call custodian .sweep)

/-- The transfer of a sweep of the deposit -/
def depositCall : TransferCall :=
  .transfer { memo := 0, amount := 90000, fromSubaccount := some subaccount1, fee := 10000,
              «to» := custodianAccount, createdAtTime := none } MAINNET_LEDGER_CANISTER_ID

/-- The ledger carries the transfer out. -/
abbrev transferred (task : Nat) : Input := .reply task (.transfer (.ok 7))

abbrev swept : System := (machine externals).after sweeping (transferred 1)

/-- The events up to the sweep's first await -/
abbrev sweepingEvents : List Event :=
  (machine externals).emitted polling (icpAnswer 0) ++
    (machine externals).emitted depositStored (.call custodian .sweep)

theorem sweeping_run {G : System → Input → Prop} (timer : G start .timer)
    (answer : G polling (icpAnswer 0)) (sweep : G depositStored (.call custodian .sweep)) :
    (machine externals).Run G start sweepingEvents sweeping := by
  refine ((Lib.Machine.Run.nil.step timer polling_step).next answer ?_).next sweep ?_ <;>
    decide +kernel

end Examples

end SubaccountIndexer
