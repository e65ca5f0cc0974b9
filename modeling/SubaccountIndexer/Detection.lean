import SubaccountIndexer.Subaccounts
import SubaccountIndexer.Decoders

/-! From a transfer on a ledger to the subaccount it is swept from. The two forms in
which the ledgers record a recipient that names a subaccount are decoded, matched and swept
for every nonce. The third form, an owner alone, is the default account, whose address
`add_subaccount` prints as the bare principal; the decoder of the polls skips it. -/

namespace SubaccountIndexer.Detection

open Decoders

variable (E : Externals)

/-- How a ledger writes down the account that a transfer credits -/
inductive RecipientForm where
  /-- The ICP ledger: the 32-byte identifier -/
  | identifier
  /-- An ICRC-3 ledger, for the default account: the owner alone -/
  | owner
  /-- An ICRC-3 ledger: the owner and the subaccount -/
  | ownerSubaccount
deriving DecidableEq

/-- The arrays that name the canister's account `subaccount` in an ICRC-3 block -/
inductive Names (subaccount : Subaccount) : RecipientForm → List Icrc3Value → Prop
  | owner (default : subaccount = DEFAULT_SUBACCOUNT) :
      Names subaccount .owner [.blob E.canisterId.bytes]
  | ownerSubaccount :
      Names subaccount .ownerSubaccount [.blob E.canisterId.bytes, .blob subaccount.toList]

/-- An ICRC-3 block with a transfer to `recipient`; no map has a key twice. -/
inductive Icrc3Transfer (recipient : List Icrc3Value) : Icrc3Value → Prop
  | block {fields txMap : List (String × Icrc3Value)} (unique : (fields.map Prod.fst).Nodup)
      (tx : ("tx", .map txMap) ∈ fields) (txUnique : (txMap.map Prod.fst).Nodup)
      (op : ("op", .text "xfer") ∈ txMap) («to» : ("to", .array recipient) ∈ txMap) :
      Icrc3Transfer recipient (.map fields)

/-- Block `k` of a ledger's reply credits the canister's account `subaccount`. Blocks of an
ICRC-3 reply that hold no transaction are not counted. -/
inductive Credited (subaccount : Subaccount) : RecipientForm → LedgerReply → Nat → Prop
  | icp {response : QueryBlocksResponse} {k : Nat} {block : Block} {data : Transfer}
      (found : response.blocks[k]? = some block)
      (operation : block.transaction.operation = some (.transfer data))
      (recipient : data.to = (toSubaccountId E subaccount).toList) :
      Credited subaccount .identifier (.queryBlocks response) k
  | icrc3 {form : RecipientForm} {recipient : List Icrc3Value} {result : Icrc3GetBlocksResult}
      {before after : List Icrc3BlockWithId} {block : Icrc3BlockWithId} {earlier : List Block}
      (found : result.blocks = before ++ block :: after)
      (decoded : Icrc3.liveBlocks E before = .ok earlier) (names : Names E subaccount form recipient)
      (transfer : Icrc3Transfer recipient block.block) :
      Credited subaccount form (.icrc3GetBlocks result) earlier.length

/-- A deposit is stored under `index`, and a sweep of it pays from `subaccount`. -/
def Detected (c : Canister) (t : TokenType) (index : UInt64) (subaccount : Subaccount) : Prop :=
  ∃ tx call, c.transactions[index]? = some tx ∧ tx.tokenType = t ∧
    sweepCall E c tx = .ok call ∧ call.fromSubaccount = some subaccount

variable {E}

/-! ## Decoding -/

variable {subaccount : Subaccount} {form : RecipientForm} {recipient : List Icrc3Value}
  {reply : LedgerReply} {response : QueryBlocksResponse} {p : Principal}
  {req : QueryBlocksRequest} {k : Nat}

theorem liveBlocks_split {before after : List Icrc3BlockWithId} {block : Icrc3BlockWithId}
    {blocks : List Block} (h : Icrc3.liveBlocks E (before ++ block :: after) = .ok blocks)
    {earlier : List Block} (decoded : Icrc3.liveBlocks E before = .ok earlier) :
    ∃ read later, Icrc3.liveBlock E block.block = .ok read ∧
      blocks = earlier ++ (read.toList ++ later) := by
  induction before generalizing blocks earlier with
  | nil =>
    cases decoded
    simp only [List.nil_append, Icrc3.liveBlocks] at h
    cases hread : Icrc3.liveBlock E block.block with
    | error trap => simp [hread, bind, Except.bind] at h
    | ok read =>
      cases hlater : Icrc3.liveBlocks E after with
      | error trap => simp [hread, hlater, bind, Except.bind] at h
      | ok later =>
        simp only [hread, hlater, bind, Except.bind] at h
        cases h
        exact ⟨read, later, rfl, rfl⟩
  | cons first before ih =>
    simp only [List.cons_append, Icrc3.liveBlocks] at h decoded
    cases hfirst : Icrc3.liveBlock E first.block with
    | error trap => simp [hfirst, bind, Except.bind] at h
    | ok head =>
      cases hb : Icrc3.liveBlocks E before with
      | error trap => simp [hfirst, hb, bind, Except.bind] at decoded
      | ok middle =>
        simp only [hfirst, hb, bind, Except.bind, Except.ok.injEq] at decoded
        cases hrest : Icrc3.liveBlocks E (before ++ block :: after) with
        | error trap => simp [hfirst, hrest, bind, Except.bind] at h
        | ok rest =>
          simp only [hfirst, hrest, bind, Except.bind, Except.ok.injEq] at h
          obtain ⟨read, later, hread, hsplit⟩ := ih hrest hb
          refine ⟨read, later, hread, ?_⟩
          rw [← h, ← decoded, hsplit, List.append_assoc]

/-- What the decoder of the polls makes of the names: the identifier, unless the subaccount is
left out -/
theorem fullRecipient_names (names : Names E subaccount form recipient) :
    ((fullRecipient recipient).map (account E)).getD (.ok []) =
      .ok (if form = .owner then [] else (toSubaccountId E subaccount).toList) := by
  cases names with
  | owner => rfl
  | ownerSubaccount =>
    simp [fullRecipient, account, Icrc3.accountBytes, Principal.fromSlice_bytes,
      Icrc3.subaccountOfBlob, subaccount.length_eq, Except.map, toSubaccountId]

/-- The `tx` map of a transfer: what the decoder of the polls makes of `op` and `to` -/
theorem txFields_transfer {txMap : List Entry} {inner : Icrc3.TxFields}
    (h : Icrc3.txFields E Icrc3.liveOp (Icrc3.liveTo E) {} txMap = .ok inner)
    (names : Names E subaccount form recipient) (unique : (txMap.map Prod.fst).Nodup)
    (op : ("op", .text "xfer") ∈ txMap) («to» : ("to", .array recipient) ∈ txMap) :
    inner.op = "transfer" ∧
      inner.toBytes = if form = .owner then [] else (toSubaccountId E subaccount).toList := by
  constructor
  · rw [txFields_op h, Lib.lastOf_unique unique op fun _ => opText_other]
    rfl
  · rw [liveTo_eq] at h
    have hto := txFields_to h
    rw [lastRecipient, Lib.lastOf_unique unique «to» fun _ hne => by rw [toArray_other hne]; rfl]
      at hto
    exact Except.ok.inj (hto.trans (fullRecipient_names names))

theorem liveBlock_transfer {value : Icrc3Value} {read : Option Block}
    (names : Names E subaccount form recipient) (transfer : Icrc3Transfer recipient value)
    (h : Icrc3.liveBlock E value = .ok read) :
    ∃ block data, read = some block ∧ block.transaction.operation = some (.transfer data) ∧
      data.spender = none ∧
      data.to = if form = .owner then [] else (toSubaccountId E subaccount).toList := by
  cases transfer with
  | @block fields txMap unique tx txUnique op «to» =>
    have hother : ∀ entry : Entry, entry.1 ≠ "tx" → Adapter.valueAt "tx" entry = none :=
      fun _ hne => if_neg hne
    have htx : (fields.foldl Icrc3.blockField {}).tx = some (.map txMap) := by
      rw [Adapter.blockFields_tx, Lib.lastOf_unique unique tx hother]
      rfl
    simp only [Icrc3.liveBlock, htx] at h
    cases hinner : Icrc3.txFields E Icrc3.liveOp (Icrc3.liveTo E) {} txMap with
    | error trap => simp [hinner, bind, Except.bind] at h
    | ok inner =>
      simp only [hinner, bind, Except.bind, Except.ok.injEq] at h
      obtain ⟨hop, hto⟩ := txFields_transfer hinner names txUnique op «to»
      have htransfer : decide (inner.op = "transfer") = true := by rw [hop]; decide
      rw [htransfer] at h
      exact ⟨_, _, h.symm, rfl, rfl, hto⟩

/-- The decoder of the polls reads every form of recipient but the bare owner, of which it
makes an empty recipient. -/
theorem credited_decoded (credited : Credited E subaccount form reply k)
    (answers : queryBlocks E p req reply = .ok (.ok response)) :
    ∃ block data, response.blocks[k]? = some block ∧
      block.transaction.operation = some (.transfer data) ∧
      (form = .owner → data.spender = none) ∧
      data.to = if form = .owner then [] else (toSubaccountId E subaccount).toList := by
  unfold queryBlocks at answers
  cases credited with
  | @icp _ k block data found operation recipient =>
    split at answers
    · cases answers
    · cases answers
      exact ⟨block, data, found, operation, nofun, recipient⟩
  | @icrc3 _ recipient result before after block earlier found decoded names transfer =>
    split at answers
    · cases hblocks : Icrc3.liveBlocks E result.blocks with
      | error trap => simp [hblocks, bind, Except.bind] at answers
      | ok blocks =>
        simp only [hblocks, bind, Except.bind] at answers
        cases answers
        obtain ⟨read, later, hread, rfl⟩ := liveBlocks_split (found ▸ hblocks) decoded
        obtain ⟨block, data, rfl, hop, hspender, hto⟩ := liveBlock_transfer names transfer hread
        exact ⟨block, data, by simp, hop, fun _ => hspender, hto⟩
    · cases answers

/-! ## One poll -/

variable {c : Canister} {t : TokenType} {next : UInt64} {turn : PollTurn} {σ σ' : System}
  {n : Nat} {os : List Event}

/-- What the answer of a ledger does to the canister: the loop panics and takes everything
back, or the poll goes through. -/
theorem poll_answered (waits : σ.tasks[n]? = some (.poll t p next))
    (answers : queryBlocks E p (pollRequest next) reply = .ok (.ok response))
    (fires : (machine E).step σ (.reply n (.ledger reply)) = some (σ', os)) :
    (σ'.canister = σ.canister ∧ ¬ Quiet E σ.canister.listOfSubaccounts t p
        σ.canister.transactions next response.blocks) ∨
      ∃ turn, Polled E σ.canister t p next (.ok response) turn ∧
        σ'.canister = (turn.toTurn t).canister ∧
        Quiet E σ.canister.listOfSubaccounts t p σ.canister.transactions next response.blocks := by
  simp only [machine, System.step, waits, resumeTask, answers, bind, Except.bind,
    Option.map_some, Option.some.injEq] at fires
  cases hturn : queryTokenLedger E σ.canister t p next (.ok response) with
  | error trap =>
    rw [hturn] at fires
    cases fires
    refine .inl ⟨rfl, fun quiet => ?_⟩
    obtain ⟨turn, hok⟩ := (queryTokenLedger_isOk t p next).mpr quiet
    rw [hturn] at hok
    cases hok
  | ok turn =>
    rw [hturn] at fires
    cases fires
    exact .inr ⟨turn, polled_of_ok hturn, rfl, (queryTokenLedger_isOk t p next).mp ⟨turn, hturn⟩⟩

theorem toTurn_custodian (turn : PollTurn) (t : TokenType) :
    (turn.toTurn t).canister.custodianPrincipal = turn.canister.custodianPrincipal := by
  unfold PollTurn.toTurn writeCursor
  repeat' split
  all_goals rfl

theorem polled_custodian (h : Polled E c t p next (.ok response) turn) :
    turn.canister.custodianPrincipal = c.custodianPrincipal := by
  cases h
  rfl

/-- A poll stores block `k` under `next + k` and no other block there. -/
theorem polled_block (h : Polled E c t p next (.ok response) turn)
    (fits : response.blocks.length ≤ 2 ^ 64) {block : Block}
    (found : response.blocks[k]? = some block)
    (free : c.transactions[next + UInt64.ofNat k]? = none) {tx : StoredTransactions}
    (held : turn.canister.transactions[next + UInt64.ofNat k]? = some tx) :
    block.relevant E c.listOfSubaccounts = true ∧
      ∃ hash, tx = block.record (next + UInt64.ofNat k) hash t p := by
  rcases h.journal.1.added h.journal.2 held with hold | ⟨hindex, j, hj⟩
  · rw [free] at hold
    cases hold
  · obtain ⟨k', block', hash, hfound, hrel, -, rfl, -⟩ := h.origin hj
    have hsame : next + UInt64.ofNat k' = next + UInt64.ofNat k := hindex
    have hk := (List.getElem?_eq_some_iff.mp found).1
    have hk' := (List.getElem?_eq_some_iff.mp hfound).1
    have hmod := congrArg UInt64.toNat ((UInt64.add_right_inj _).mp hsame)
    rw [UInt64.toNat_ofNat', UInt64.toNat_ofNat', Nat.mod_eq_of_lt (by omega),
      Nat.mod_eq_of_lt (by omega)] at hmod
    subst hmod
    obtain rfl : block = block' := Option.some.inj (found.symm.trans hfound)
    exact ⟨hrel, hash, rfl⟩

/-- A transfer whose recipient was not read concerns nobody. -/
theorem irrelevant_of_empty {block : Block} {data : Transfer}
    (operation : block.transaction.operation = some (.transfer data)) (empty : data.to = [])
    (spender : data.spender = none) (list : Subaccounts) : block.relevant E list = false := by
  simp [Block.relevant, operation, subaccountExist, empty, spender, includesHash]

/-- In every reachable state, a deposit to an issued subaccount that a poll scans at a free
index is stored and swept from that subaccount, unless the ledger records the owner alone or a
block of the response makes the loop panic: a relevant one that is no transfer, or a new one
whose record is longer than the store allows. -/
theorem deposit_detected_iff (reachable : Reachable E σ) {nonce : UInt32}
    (issued : Issued σ.canister.lastSubaccountNonce nonce)
    (distinct : ∀ j, Issued σ.canister.lastSubaccountNonce j →
      nonceHash E j = nonceHash E nonce → j = nonce)
    {custodian : Principal} (set : σ.canister.custodianPrincipal = some custodian)
    (waits : σ.tasks[n]? = some (.poll t p next))
    (credited : Credited E (toSubaccount nonce) form reply k)
    (answers : queryBlocks E p (pollRequest next) reply = .ok (.ok response))
    (fits : response.blocks.length ≤ 2 ^ 64)
    (free : σ.canister.transactions[next + UInt64.ofNat k]? = none)
    (fires : (machine E).step σ (.reply n (.ledger reply)) = some (σ', os)) :
    Detected E σ'.canister t (next + UInt64.ofNat k) (toSubaccount nonce) ↔
      form ≠ .owner ∧
        Quiet E σ.canister.listOfSubaccounts t p σ.canister.transactions next response.blocks := by
  obtain ⟨block, data, hfound, hop, hspender, hto⟩ := credited_decoded credited answers
  have hreg := registered_of_issued (reachable_covered reachable) issued distinct
  rcases poll_answered waits answers fires with ⟨hsame, hpanics⟩ | ⟨turn, scans, hturn, hquiet⟩
  · -- the panic took back what the poll stored
    refine ⟨fun ⟨tx, call, hheld, _⟩ => ?_, fun h => absurd h.2 hpanics⟩
    rw [hsame, free] at hheld
    cases hheld
  · obtain ⟨hstore, -⟩ := turn.toTurn_transactions t
    constructor
    · intro hdetected
      obtain ⟨tx, call, hheld, -⟩ := hdetected
      refine ⟨?_, hquiet⟩
      rintro rfl
      rw [hturn, hstore] at hheld
      have hrel := (polled_block scans fits hfound free hheld).1
      rw [irrelevant_of_empty hop hto (hspender rfl)] at hrel
      cases hrel
    · intro hforms
      obtain ⟨hform, -⟩ := hforms
      rw [if_neg hform] at hto
      have hrel := Deposit.relevant ⟨toSubaccount nonce, data, hreg, hop, hto⟩
      obtain ⟨tx, hheld⟩ := scans.complete hfound hrel
      obtain ⟨-, hash, rfl⟩ := polled_block scans fits hfound free hheld
      have hlist := (scans.writesTo (.poll t p next) (.ledger reply)).frame.subaccounts
      have hstored : (block.record (next + UInt64.ofNat k) hash t p).operation =
        some (.transfer data) := hop
      have hregistered : σ'.canister.Registered E (toSubaccount nonce) := by
        rw [Canister.Registered, hturn, hlist]
        exact hreg
      have hset : σ'.canister.custodianPrincipal = some custodian := by
        rw [hturn, toTurn_custodian, polled_custodian scans]
        exact set
      obtain ⟨call, hcall, hfrom⟩ := sweepCall_registered hstored hto hregistered hset
      exact ⟨_, call, by rw [hturn, hstore]; exact hheld, rfl, hcall, hfrom⟩

/-- The address `add_subaccount` hands out for nonce 0 of an ICRC-3 token is the principal of
the canister, which names its default account. -/
theorem zero_address (icrc3 : t ≠ .icp) :
    subaccountAddress E 0 t = E.principalToText E.canisterId ∧
      toSubaccount 0 = DEFAULT_SUBACCOUNT := by
  cases t
  · exact absurd rfl icrc3
  all_goals exact ⟨rfl, rfl⟩

open Examples

theorem deposit_detected_icp :
    Detected externals depositStored.canister .icp 1 (toSubaccount 1) := by
  obtain ⟨⟨σ', os⟩, fires⟩ := Option.isSome_iff_exists.mp
    (show ((machine externals).step polling (icpAnswer 0)).isSome = true by decide +kernel)
  have reachable : Reachable externals polling :=
    ⟨start, _, start_installed, Lib.Machine.Run.nil.step trivial polling_step⟩
  have credited : Credited externals (toSubaccount 1) .identifier
      (.queryBlocks (responseAt 1 [deposit])) 0 := .icp rfl rfl (by decide +kernel)
  have issued : Issued polling.canister.lastSubaccountNonce 1 := by decide
  have hdetected := (deposit_detected_iff reachable issued
    (fun j hj => issued_two_distinct hj (by decide)) rfl rfl credited rfl (by decide)
    (by decide +kernel) fires).mpr
      ⟨by decide, quiet_of_mem (by decide +kernel) (by decide +kernel)⟩
  simpa [depositStored, Lib.Machine.after, fires] using hdetected

/-- The canister once ckUSDC is registered, and after a tick of the timer -/
def usdcRegistered : System := ⟨withUsdc, [.finished (.ok .unit)]⟩

def usdcPolling : System :=
  ⟨withUsdc, [.finished (.ok .unit), .poll .ckusdc CKUSDC_LEDGER_CANISTER_ID 1,
    .poll .icp MAINNET_LEDGER_CANISTER_ID 1]⟩

theorem usdcPolling_reachable : Reachable externals usdcPolling := by
  have register : (machine externals).step start
      (.call custodian (.registerToken .ckusdc "xevnm-gaaaa-aaaar-qafnq-cai")) =
    some (usdcRegistered, []) := rfl
  have timer : (machine externals).step usdcRegistered .timer = some (usdcPolling, []) := rfl
  exact ⟨start, _, start_installed, (Lib.Machine.Run.nil.step trivial register).step trivial timer⟩

/-- A ckUSDC deposit to the principal of the canister -/
def bareReply : LedgerReply :=
  .icrc3GetBlocks ⟨1, [⟨1, icrc3Deposit [.blob canister.bytes]⟩]⟩

/-- The address of subaccount 0 is the bare principal, and what arrives there is never
stored. -/
theorem default_account_missed :
    Reachable externals usdcPolling ∧ Issued usdcPolling.canister.lastSubaccountNonce 0 ∧
      (∀ j, Issued usdcPolling.canister.lastSubaccountNonce j →
        nonceHash externals j = nonceHash externals 0 → j = 0) ∧
      usdcPolling.canister.custodianPrincipal = some custodian ∧
      usdcPolling.tasks[1]? = some (.poll .ckusdc CKUSDC_LEDGER_CANISTER_ID 1) ∧
      Credited externals (toSubaccount 0) .owner bareReply 0 ∧
      (∃ response, queryBlocks externals CKUSDC_LEDGER_CANISTER_ID (pollRequest 1) bareReply =
        .ok (.ok response)) ∧
      usdcPolling.canister.transactions[(1 : UInt64)]? = none ∧
      ¬ Detected externals ((machine externals).after usdcPolling
        (.reply 1 (.ledger bareReply))).canister .ckusdc 1 (toSubaccount 0) := by
  refine ⟨usdcPolling_reachable, by decide, fun j hj => issued_two_distinct hj (by decide), rfl,
    rfl, ?_, ⟨_, rfl⟩, by decide +kernel, ?_⟩
  · have found : [⟨1, icrc3Deposit [.blob canister.bytes]⟩] =
        ([] : List Icrc3BlockWithId) ++ [⟨1, icrc3Deposit [.blob canister.bytes]⟩] := rfl
    have transfer : Icrc3Transfer [.blob canister.bytes] (icrc3Deposit [.blob canister.bytes]) :=
      .block (by decide) (.head _) (by decide) (.head _) (.tail _ (.tail _ (.head _)))
    have credited : Credited externals (toSubaccount 0) .owner bareReply ([] : List Block).length :=
      .icrc3 found rfl (.owner rfl) transfer
    exact credited
  · intro hdetected
    obtain ⟨tx, call, hheld, -⟩ := hdetected
    have hnone : ((machine externals).after usdcPolling
        (.reply 1 (.ledger bareReply))).canister.transactions[(1 : UInt64)]? = none := by
      decide +kernel
    rw [hnone] at hheld
    cases hheld

end SubaccountIndexer.Detection
