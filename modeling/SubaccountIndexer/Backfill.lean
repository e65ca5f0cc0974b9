import SubaccountIndexer.Completion
import SubaccountIndexer.Panics
import SubaccountIndexer.WholeSweep

/-! Fetching one block by hand. However many ledgers and archives `process_token_archived_block`
has to ask, an honest answer to each takes it to its end, and there it has done to the store what
a poll does that is answered with this one block alone, under the number that was asked for. -/

namespace SubaccountIndexer.Backfill

open Completion (archiveAwaitsLeft storeIcpBlock_returned storeIcrc3Block_returned)
open Panics (icrc3BlockToBlock_quiet)

variable (E : Externals)

/-- What a poll from block `index` on makes of the canister -/
def polledAlone (c : Canister) (t : TokenType) (p : Principal) (index : UInt64)
    (reply : LedgerReply) : Except Trap Canister := do
  let answer ← queryBlocks E p (pollRequest index) reply
  (queryTokenLedger E c t p index answer).map PollTurn.canister

/-- A block as the ledgers have it -/
inductive LedgerBlock where
  | icp (block : IcLedger.Block)
  | icrc3 (block : Icrc3BlockWithId)

/-- A poll and the archive path read a block as the same one. They have a decoder each for ICRC-3,
which do not agree on every block. -/
inductive ReadAs : LedgerBlock → Block → Prop
  | icp {block : IcLedger.Block} : ReadAs (.icp block) block.toLocal
  | icrc3 {block : Icrc3BlockWithId} {b : Block} (archive : icrc3BlockToBlock E block = .ok (some b))
      (live : Icrc3.liveBlock E block.block = .ok (some b)) : ReadAs (.icrc3 block) b

/-- An answer to a poll of the ledger `p` that has one block -/
inductive Brings (p : Principal) : LedgerBlock → LedgerReply → Prop
  | icp {block : IcLedger.Block} {response : QueryBlocksResponse} (legacy : usesIcrc3 p = false)
      (blocks : response.blocks = [block.toLocal]) : Brings p (.icp block) (.queryBlocks response)
  | icrc3 {block : Icrc3BlockWithId} {result : Icrc3GetBlocksResult} (speaks : usesIcrc3 p = true)
      (blocks : result.blocks = [block]) : Brings p (.icrc3 block) (.icrc3GetBlocks result)

/-- The ledger that the block of a token is asked from -/
def sourceLedger (c : Canister) : TokenType → Principal
  | .icp => ledgerOrMainnet c
  | t => c.getTokenLedgerCanisterId t

/-- An await belongs to the call for block `index` of a token, whose ledger is `p`. -/
def Asks (t : TokenType) (p : Principal) (index : UInt64) : ArchiveAwait → Prop
  | .icpLedger i | .icpArchive i => t = .icp ∧ i = index
  | .icrc3Ledger t' p' i | .icrc3Archives t' p' i | .icrc3Archive t' p' i _ =>
    t ≠ .icp ∧ t' = t ∧ p' = p ∧ i = index

/-- The honest answers of the ledger with that block under `index`: the ledger has the block or says
where it is, and the archive it is asked from has it. -/
inductive Serves (index : UInt64) : LedgerBlock → ArchiveAwait → ArchiveReply → Prop
  | icpBlock {response : IcLedger.QueryBlocksResponse} {block : IcLedger.Block}
      (blocks : response.blocks = [block]) :
      Serves index (.icp block) (.icpLedger index) (.icpLedger (.ok response))
  | icpRange {stored : LedgerBlock} {response : IcLedger.QueryBlocksResponse} {range : ArchivedBlock}
      (moved : response.blocks = []) (mem : range ∈ response.archivedBlocks)
      (low : range.start ≤ index) (high : index - range.start < range.length) :
      Serves index stored (.icpLedger index) (.icpLedger (.ok response))
  | icpArchived {block : IcLedger.Block} :
      Serves index (.icp block) (.icpArchive index) (.icpArchive (.ok (.ok [block])))
  | icrc3Block {t : TokenType} {p : Principal} {result : Icrc3GetBlocksResult}
      {block : Icrc3BlockWithId} (blocks : result.blocks = [block]) :
      Serves index (.icrc3 block) (.icrc3Ledger t p index) (.icrc3Blocks (.ok result))
  | icrc3Moved {stored : LedgerBlock} {t : TokenType} {p : Principal} {result : Icrc3GetBlocksResult}
      (moved : result.blocks = []) :
      Serves index stored (.icrc3Ledger t p index) (.icrc3Blocks (.ok result))
  | icrc3Archives {stored : LedgerBlock} {t : TokenType} {p archive : Principal}
      {archives : List Icrc3ArchiveInfo} (covers : selectArchive index archives = some archive) :
      Serves index stored (.icrc3Archives t p index) (.icrc3Archives (.ok archives))
  | icrc3Archived {t : TokenType} {p archive : Principal} {result : Icrc3GetBlocksResult}
      {block : Icrc3BlockWithId} (blocks : result.blocks = [block]) :
      Serves index (.icrc3 block) (.icrc3Archive t p index archive) (.icrc3Blocks (.ok result))

variable {E} {c : Canister} {t : TokenType} {p : Principal} {index : UInt64} {b : Block}
  {stored : LedgerBlock} {pollReply : LedgerReply}

/-! ## Two ways to index a block -/

/-- The block loop on one block, which it numbers `index` -/
def scannedAlone (E : Externals) (c : Canister) (t : TokenType) (p : Principal) (index : UInt64)
    (b : Block) : Except Trap Canister :=
  (scanBlock E c.listOfSubaccounts t p { transactions := c.transactions, blockCount := index } b).map
    fun s => { c with transactions := s.transactions }

theorem queryTokenLedger_alone {response : QueryBlocksResponse} (blocks : response.blocks = [b]) :
    (queryTokenLedger E c t p index (.ok response)).map PollTurn.canister =
      scannedAlone E c t p index b := by
  simp only [queryTokenLedger, blocks, scanBlocks, scannedAlone]
  cases scanBlock E c.listOfSubaccounts t p
      { transactions := c.transactions, blockCount := index } b with
  | error trap => rfl
  | ok s =>
    simp only [bind, Except.bind]
    split
    · rfl
    · split <;> rfl

/-- What a poll does that gets one block is what the loop does with it. -/
theorem polledAlone_eq (alike : ReadAs E stored b) (brings : Brings p stored pollReply) :
    polledAlone E c t p index pollReply = scannedAlone E c t p index b := by
  cases brings with
  | icp legacy blocks =>
    cases alike with
    | icp =>
      rw [← queryTokenLedger_alone blocks]
      simp [polledAlone, queryBlocks, legacy, bind, Except.bind]
  | @icrc3 block result speaks blocks =>
    cases alike with
    | icrc3 archive live =>
      have hread : Icrc3.liveBlocks E result.blocks = .ok [b] := by
        simp [blocks, Icrc3.liveBlocks, live, bind, Except.bind]
      simp only [polledAlone, queryBlocks, speaks, if_true, hread, bind, Except.bind]
      exact queryTokenLedger_alone rfl

/-- What indexing an archived block makes of the canister -/
def indexed (c : Canister) : ArchiveIndexing → Except Trap Canister
  | .inserted tx => insertArchived c tx
  | _ => .ok c

/-- The archive path indexes a block as the poll does. It may look for the key before it hashes:
that makes no difference to a block that can be hashed. -/
theorem indexArchivedBlock_scanned (hashFirst : Bool) (t : TokenType) (p : Principal)
    (index : UInt64) (agree : hashFirst = true ∨ b.panics E c.listOfSubaccounts = false) :
    (indexArchivedBlock E hashFirst c t p index b).bind (indexed c) =
      scannedAlone E c t p index b := by
  unfold indexArchivedBlock scannedAlone scanBlock
  simp only [Block.panics, Block.relevant, Block.isTransfer] at agree
  cases hoperation : b.transaction.operation with
  | none => rfl
  | some operation =>
    simp only [hoperation, Option.any_some] at agree ⊢
    cases hrelevant : subaccountExist E c.listOfSubaccounts operation with
    | false => rfl
    | true =>
      have hhash : hashFirst = true ∨ ∃ hash, hashOrPlaceholder E b.transaction = .ok hash := by
        rw [hashOrPlaceholder_isOk E b.transaction hoperation]
        simpa [hrelevant] using agree
      simp only [if_true]
      cases hkey : c.transactions.contains index <;>
        cases hread : hashOrPlaceholder E b.transaction with
        | error trap =>
          obtain rfl : hashFirst = true := hhash.resolve_right fun hok => by
            rw [hread] at hok
            obtain ⟨_, hok⟩ := hok
            cases hok
          simp [bind, Except.bind, Except.map]
        | ok hash =>
          cases hashFirst <;>
            simp [bind, Except.bind, Except.map, indexed, insertArchived, StoredTransactions.new] <;>
            generalize insertTransaction _ _ _ = inserted <;> cases inserted <;> rfl

/-- How a call for a block ends: as the poll of the block does -/
inductive Ends (E : Externals) (c : Canister) (t : TokenType) (p : Principal) (index : UInt64)
    (b : Block) : Except Trap ArchiveTurn → Prop
  | stored {c' : Canister} {text : String} {events : List Event}
      (scanned : scannedAlone E c t p index b = .ok c') :
      Ends E c t p index b (.ok ⟨c', .returned (.ok text), events⟩)
  | traps {trap : Trap} (scanned : scannedAlone E c t p index b = .error trap) :
      Ends E c t p index b (.error trap)

/-- An archived block that is to be stored goes into the map, or the map panics. -/
theorem ends_inserted {tx : StoredTransactions} (text : String) (events : List Event)
    (scanned : insertArchived c tx = scannedAlone E c t p index b) :
    Ends E c t p index b (do
      let c ← insertArchived c tx
      .ok ⟨c, .returned (.ok text), events⟩) := by
  cases hinsert : insertArchived c tx with
  | error trap => exact .traps (scanned.symm.trans hinsert)
  | ok c' => exact .stored (scanned.symm.trans hinsert)

theorem storeIcpBlock_ends (index : UInt64) (block : IcLedger.Block) :
    Ends E c .icp (ledgerOrMainnet c) index block.toLocal (storeIcpBlock E c index (some block)) := by
  have hscanned : _ = scannedAlone E c _ _ _ block.toLocal :=
    indexArchivedBlock_scanned true .icp (ledgerOrMainnet c) index (.inl rfl)
  unfold storeIcpBlock
  dsimp only
  cases hindexed : indexArchivedBlock E true c .icp (ledgerOrMainnet c) index block.toLocal with
  | error trap =>
    rw [hindexed] at hscanned
    exact .traps hscanned.symm
  | ok outcome =>
    rw [hindexed] at hscanned
    cases outcome with
    | inserted tx =>
      have hinserted : insertArchived c tx = _ := hscanned
      exact ends_inserted _ _ hinserted
    | _ => exact .stored hscanned.symm

theorem storeIcrc3Block_ends {result : Icrc3GetBlocksResult} {block : Icrc3BlockWithId}
    (t : TokenType) (p : Principal) (index : UInt64) (blocks : result.blocks = [block])
    (same : icrc3BlockToBlock E block = .ok (some b)) :
    Ends E c t p index b (storeIcrc3Block E c t p index result) := by
  have hscanned : _ = scannedAlone E c _ _ _ b :=
    indexArchivedBlock_scanned false t p index (.inr (icrc3BlockToBlock_quiet _ same))
  have hconvert : convertIcrc3 E result.blocks = .ok [b] := by
    simp [blocks, convertIcrc3, same, bind, Except.bind]
  unfold storeIcrc3Block
  simp only [hconvert, bind, Except.bind]
  cases hindexed : indexArchivedBlock E false c t p index b with
  | error trap =>
    rw [hindexed] at hscanned
    exact .traps hscanned.symm
  | ok outcome =>
    rw [hindexed] at hscanned
    cases outcome with
    | inserted tx =>
      have hinserted : insertArchived c tx = _ := hscanned
      exact ends_inserted _ _ hinserted
    | _ => exact .stored hscanned.symm

/-! ## Answers -/

/-- An honest answer leads to the next await of the same call, or to the end of it. -/
theorem archiveReply_serves {await : ArchiveAwait} {reply : ArchiveReply}
    (asks : Asks t p index await) (ledger : t = .icp → p = ledgerOrMainnet c)
    (serves : Serves index stored await reply) (alike : ReadAs E stored b) :
    (∃ next, archiveReply E c await reply = some (.ok ⟨c, .awaiting next, []⟩) ∧
      archiveAwaitsLeft next < archiveAwaitsLeft await) ∨
    ∃ outcome, archiveReply E c await reply = some outcome ∧ Ends E c t p index b outcome := by
  cases serves with
  | icpBlock blocks =>
    obtain ⟨rfl, -⟩ := asks
    cases alike
    obtain rfl := ledger rfl
    exact .inr ⟨_, by simp only [archiveReply, blocks], storeIcpBlock_ends index _⟩
  | @icpRange _ response range moved mem low high =>
    have hfound : (archivedRangeFor index response.archivedBlocks).isSome = true := by
      rw [archivedRangeFor, List.find?_isSome]
      exact ⟨range, mem, by simp [low, high]⟩
    obtain ⟨found, hfound⟩ := Option.isSome_iff_exists.mp hfound
    exact .inl ⟨.icpArchive index, by simp only [archiveReply, moved, hfound], Nat.lt_succ_self 1⟩
  | icpArchived =>
    obtain ⟨rfl, -⟩ := asks
    cases alike
    obtain rfl := ledger rfl
    exact .inr ⟨_, rfl, storeIcpBlock_ends index _⟩
  | icrc3Block blocks =>
    obtain ⟨-, rfl, rfl, -⟩ := asks
    cases alike with
    | icrc3 archive live =>
      exact .inr ⟨_, by simp [archiveReply, blocks], storeIcrc3Block_ends _ _ _ blocks archive⟩
  | @icrc3Moved _ t' p' result moved =>
    exact .inl ⟨.icrc3Archives t' p' index, by simp [archiveReply, moved], Nat.lt_succ_self 2⟩
  | @icrc3Archives _ t' p' archive archives covers =>
    exact .inl ⟨.icrc3Archive t' p' index archive, by simp [archiveReply, covers],
      Nat.lt_succ_self 1⟩
  | icrc3Archived blocks =>
    obtain ⟨-, rfl, rfl, -⟩ := asks
    cases alike with
    | icrc3 archive live => exact .inr ⟨_, rfl, storeIcrc3Block_ends _ _ _ blocks archive⟩

theorem asks_first (c : Canister) (t : TokenType) (index : UInt64) :
    Asks t (sourceLedger c t) index (processTokenArchivedBlock c t index) := by
  cases t <;> simp [Asks, processTokenArchivedBlock, sourceLedger]

/-- Whatever the answers are, the awaits of a call are all for its block. -/
theorem archiveReply_asks {await next : ArchiveAwait} {reply : ArchiveReply} {turn : ArchiveTurn}
    (h : archiveReply E c await reply = some (.ok turn)) (asks : Asks t p index await)
    (waits : turn.status = .awaiting next) : Asks t p index next := by
  have hends : ∀ {result}, turn.status = .returned result → Asks t p index next := by
    intro result hreturned
    rw [waits] at hreturned
    cases hreturned
  unfold archiveReply at h
  split at h
  · cases h; exact hends rfl
  · split at h
    · exact hends (storeIcpBlock_returned (Option.some.inj h)).choose_spec
    · split at h
      · cases h; cases waits; exact asks
      · exact hends (storeIcpBlock_returned (Option.some.inj h)).choose_spec
  · exact hends (storeIcpBlock_returned (Option.some.inj h)).choose_spec
  · cases h; exact hends rfl
  · cases h; exact hends rfl
  · split at h
    · split at h
      · cases h; cases waits; exact asks
      · exact hends (storeIcrc3Block_returned (Option.some.inj h)).choose_spec
    · cases h; cases waits; exact asks
  · split at h
    · cases h; exact hends rfl
    · split at h
      · cases h; cases waits; exact asks
      · cases h; exact hends rfl
  · split at h
    · cases h; exact hends rfl
    · exact hends (storeIcrc3Block_returned (Option.some.inj h)).choose_spec
  · cases h

/-! ## Runs -/

variable {σ σ' : System} {i : Input} {os : List Event} {n : Nat}

/-- Everything but an upgrade, which drops the messages in flight -/
def NoUpgrade (_ : System) (i : Input) : Prop := ∀ caller, i ≠ .upgrade caller

/-- Message `n` is a call for block `index`, as long as it waits. -/
structure Calls (t : TokenType) (p : Principal) (index : UInt64) (n : Nat) (σ : System) : Prop where
  started : n < σ.tasks.length
  asks : ∀ await, σ.tasks[n]? = some (.archive await) → Asks t p index await
  ledger : t = .icp → p = ledgerOrMainnet σ.canister

/-- Only a call for a block waits for one. -/
theorem Resumes.archive_of {task : Task} {reply : Reply} {turn : Turn} {next : ArchiveAwait}
    (h : Resumes E c task reply turn) (waits : turn.task = .archive next) :
    ∃ await answer archived, task = .archive await ∧
      archiveReply E c await answer = some (.ok archived) ∧ archived.status = .awaiting next := by
  cases h with
  | archive answers =>
    refine ⟨_, _, _, rfl, answers, ?_⟩
    unfold ArchiveTurn.toTurn at waits
    dsimp only at waits
    split at waits
    · cases waits
    · cases waits
      assumption
  | poll =>
    unfold PollTurn.toTurn at waits
    split at waits <;> cases waits
  | sweep =>
    unfold SweepTurn.toTurn at waits
    dsimp only at waits
    split at waits <;> cases waits
  | refund =>
    unfold RefundTurn.toTurn at waits
    dsimp only at waits
    split at waits <;> cases waits
  | webhook | sweepSubaccount => cases waits
  | setCustodian =>
    revert waits
    unfold setCustodianReply
    dsimp only
    repeat' split
    all_goals simp [Turn.done]

/-- A message is where it was, or it has been answered. -/
theorem task_step (h : Fires E σ i σ' os) (kept : NoUpgrade σ i) (started : n < σ.tasks.length) :
    σ'.tasks[n]? = σ.tasks[n]? ∨ σ'.tasks[n]? = some .trapped ∨
      ∃ task reply turn, σ.tasks[n]? = some task ∧
        resumeTask E σ.canister task reply = some (.ok turn) ∧ σ'.tasks[n]? = some turn.task := by
  cases h with
  | timer | rejected | call | callTraps => exact .inl (List.getElem?_append_left started)
  | @reply m reply task turn waits resumes =>
    by_cases hm : m = n
    · subst hm
      exact .inr (.inr ⟨task, reply, turn, waits, resumes, by simp [started]⟩)
    · exact .inl (List.getElem?_set_ne hm)
  | @replyTraps m reply task trap waits resumes =>
    by_cases hm : m = n
    · subst hm
      exact .inr (.inl (by simp [started]))
    · exact .inl (List.getElem?_set_ne hm)
  | upgrade => exact absurd rfl (kept _)

theorem tasks_grow (h : Fires E σ i σ' os) (kept : NoUpgrade σ i) :
    σ.tasks.length ≤ σ'.tasks.length := by
  cases h with
  | timer | rejected | call | callTraps => simp
  | reply | replyTraps => simp
  | upgrade => exact absurd rfl (kept _)

theorem calls_step (h : Fires E σ i σ' os) (kept : NoUpgrade σ i) (calls : Calls t p index n σ) :
    Calls t p index n σ' where
  started := calls.started.trans_le (tasks_grow h kept)
  asks await waits := by
    rcases task_step h kept calls.started with hsame | htrapped | ⟨task, reply, turn, htask, hturn, hnext⟩
    · exact calls.asks await (hsame.symm.trans waits)
    · rw [htrapped] at waits
      cases waits
    · rw [hnext, Option.some.injEq] at waits
      obtain ⟨before, answer, archived, rfl, hanswer, hstatus⟩ :=
        Resumes.archive_of (resumes_of_ok E hturn) waits
      exact archiveReply_asks hanswer (calls.asks _ htask) hstatus
  ledger icp := by
    rw [calls.ledger icp, ledgerOrMainnet, ledgerOrMainnet, h.frame.principal]

theorem calls_started {caller : Principal}
    (allowed : σ.runs E (.call caller (.processTokenArchivedBlock t index)) =
      some (.processTokenArchivedBlock t index))
    (starts : (machine E).step σ (.call caller (.processTokenArchivedBlock t index)) = some (σ', os)) :
    Calls t (sourceLedger σ.canister t) index σ.tasks.length σ' := by
  rw [step_of_runs E allowed rfl] at starts
  cases starts
  refine ⟨by simp, fun await waits => ?_, ?_⟩
  · simp only [List.getElem?_concat_length, Option.some.injEq, Task.archive.injEq] at waits
    rw [← waits]
    exact asks_first σ.canister t index
  · rintro rfl
    rfl

/-! ## Main result -/

open Examples

/-- The deposit as the ICP ledger has it -/
def icpDeposit : IcLedger.Block where
  memo := 0
  operation := some (.transfer payerAccount account1 100000 10000)
  createdAtTime := ⟨1000⟩
  timestamp := ⟨1000⟩
  parentHash := none

/-- The call for block 1, which has been told that an archive has the block -/
abbrev asking : System :=
  (machine externals).after start (.call custodian (.processTokenArchivedBlock .icp 1))

def moved : ArchiveReply := .icpLedger (.ok ⟨[], [⟨0, 10⟩]⟩)

abbrev toArchive : System := (machine externals).after asking (.reply 0 (.archive moved))

/-- The answer to a poll that has the deposit alone -/
def alone : LedgerReply := .queryBlocks (responseAt 1 [deposit])

end SubaccountIndexer.Backfill
