import SubaccountIndexer.SystemSpec
import SubaccountIndexer.PollSpec

/-! The turns a message is made of, by what started them: a method call or the
answer to a call a task made. Each inductive type below lists all shapes such a turn can
have, with what a proof about it needs to know. -/

namespace SubaccountIndexer

variable (E : Externals)

/-! ## What a method does up to its first await -/

/-- The records a batch sweep or `single_sweep` goes over -/
def Method.selection (c : Canister) : Method → Option (List StoredTransactions)
  | .sweep => some (sweepSelection c)
  | .sweepByTokenType tokenType => some (sweepByTokenTypeSelection c tokenType)
  | .singleSweep txHashArg => some (hashSelection c txHashArg)
  | _ => none

/-- The turns of a method call -/
inductive Ran (c : Canister) : Method → Turn → Prop
  | sweep {method : Method} {txs : List StoredTransactions}
      (selects : method.selection c = some txs) : Ran c method (sweepTxs E c [] txs).toTurn
  | refund {index : UInt64} {turn : RefundTurn} (runs : RefundRun E c index turn) :
      Ran c (.refund index) turn.toTurn
  | clear {upToIndex : Option UInt64} {upToTimestamp : Option Timestamp} {result : Value} :
      Ran c (.clearTransactions upToIndex upToTimestamp)
        ⟨{ c with transactions := (clearTransactions c.transactions upToIndex upToTimestamp).1 },
          .finished (.ok result), (clearTransactions c.transactions upToIndex upToTimestamp).2⟩
  | fail {txHashArg : String} {result : Value}
      (fit : ∀ tx ∈ hashSelection c txHashArg, tx.Fits) :
      Ran c (.setSweepFailed txHashArg)
        ⟨{ c with transactions :=
            (failedRecorded c.transactions (hashSelection c txHashArg)).1 },
          .finished (.ok result), (failedRecorded c.transactions (hashSelection c txHashArg)).2⟩
  | archive {t : TokenType} {index : UInt64} {await : ArchiveAwait} :
      Ran c (.processTokenArchivedBlock t index) ⟨c, .archive await, []⟩
  | setCustodian {caller : Principal} {text : String} :
      Ran c (.setCustodianPrincipal text) ⟨c, .setCustodian caller text, []⟩
  | sweepSubaccount {hex : String} {amount : Float} {t : Option TokenType} {t' : TokenType}
      {call : TransferCall} :
      Ran c (.sweepSubaccount hex amount t) ⟨c, .sweepSubaccount t', [.subaccountTransfer call]⟩
  | done {method : Method} {c' : Canister} {result : Except String Value}
      (store : c'.transactions = c.transactions) : Ran c method (.done c' result)

theorem ran_of_ok {c : Canister} {caller : Principal} {method : Method} {turn : Turn}
    (h : runMethod E c caller method = .ok turn) : Ran E c method turn := by
  cases method with
  | sweep | singleSweep _ | sweepByTokenType _ => cases h; exact .sweep rfl
  | refund index =>
    simp only [runMethod] at h
    cases hr : refund E c index with
    | error trap => rw [hr] at h; cases h
    | ok turn => rw [hr] at h; cases h; exact .refund (refund_run hr)
  | clearTransactions _ _ => cases h; exact .clear
  | setSweepFailed _ =>
    obtain ⟨hfit, lines, rfl⟩ := setSweepFailed_ok E h
    exact .fail hfit
  | processTokenArchivedBlock _ _ => cases h; exact .archive
  | setCustodianPrincipal _ => cases h; exact .setCustodian
  | sweepSubaccount hex amount t =>
    cases h
    unfold sweepSubaccount
    dsimp only
    repeat' split
    all_goals first | exact .done rfl | exact .sweepSubaccount
  | setWebhookUrl url =>
    cases h
    unfold setWebhookUrl
    repeat' split
    all_goals exact .done rfl
  | registerToken t text =>
    cases h
    unfold registerToken
    split <;> exact .done rfl
  | setNextBlock _ | setInterval _ | addSubaccount _ | setTokenNextBlockUpdate _ _
  | resetTokenBlocks => cases h; exact .done rfl

/-! ## What a resumed task does -/

/-- The tasks and the answers that resume them -/
inductive Resumes (c : Canister) : Task → Reply → Turn → Prop
  | poll {t : TokenType} {p : Principal} {next : UInt64} {reply : LedgerReply}
      {answer : Except (String × String) QueryBlocksResponse} {turn : PollTurn}
      (answers : queryBlocks E p (pollRequest next) reply = .ok answer)
      (scans : Polled E c t p next answer turn) :
      Resumes c (.poll t p next) (.ledger reply) (turn.toTurn t)
  | webhook {t : TokenType} {blockCount : UInt64} :
      Resumes c (.webhook t blockCount) .http (.done (writeCursor c t blockCount) (.ok .unit))
  | sweep {tx : StoredTransactions} {rest : List StoredTransactions} {results : List String}
      {result : Except String Nat} (fits : tx.Fits) :
      Resumes c (.sweep tx rest results) (.transfer result)
        (sweepRecorded E c tx rest results result).toTurn
  | refund {tx : StoredTransactions} {result : Except String Nat}
      (fits : ∀ block, result = .ok block → tx.Fits) :
      Resumes c (.refund tx) (.transfer result) (refundRecorded c tx result).toTurn
  | archive {await : ArchiveAwait} {reply : ArchiveReply} {turn : ArchiveTurn}
      (answers : archiveReply E c await reply = some (.ok turn)) :
      Resumes c (.archive await) (.archive reply) turn.toTurn
  | sweepSubaccount {t : TokenType} {result : Except String Nat} :
      Resumes c (.sweepSubaccount t) (.transfer result) (sweepSubaccountReply c t result)
  | setCustodian {caller : Principal} {text : String} {controllers : Option (List Principal)} :
      Resumes c (.setCustodian caller text) (.status controllers)
        (setCustodianReply E c caller text controllers)

theorem resumes_of_ok {c : Canister} {task : Task} {reply : Reply} {turn : Turn}
    (h : resumeTask E c task reply = some (.ok turn)) : Resumes E c task reply turn := by
  unfold resumeTask at h
  split at h
  · rename_i t p next reply
    simp only [Option.some.injEq] at h
    cases ha : queryBlocks E p (pollRequest next) reply with
    | error trap => simp [ha, bind, Except.bind] at h
    | ok answer =>
      cases hq : queryTokenLedger E c t p next answer with
      | error trap => simp [ha, hq, bind, Except.bind] at h
      | ok pt =>
        simp only [ha, hq, bind, Except.bind, Except.ok.injEq] at h
        subst h
        exact .poll ha (polled_of_ok hq)
  · cases h; exact .webhook
  · rename_i tx rest results result
    by_cases hfits : tx.Fits
    · rw [sweepReply_ok c rest results result hfits] at h
      cases h
      exact .sweep hfits
    · rw [sweepReply_error c rest results result hfits] at h
      cases h
  · rename_i tx result
    by_cases hfits : ∀ block, result = .ok block → tx.Fits
    · rw [refundReply_ok c hfits] at h
      cases h
      exact .refund hfits
    · push Not at hfits
      obtain ⟨block, rfl, hlong⟩ := hfits
      rw [refundReply_error c block hlong] at h
      cases h
  · rename_i await reply
    obtain ⟨outcome, hr, hm⟩ := Option.map_eq_some_iff.mp h
    cases outcome with
    | error trap => cases hm
    | ok at' => cases hm; exact .archive hr
  · cases h; exact .sweepSubaccount
  · cases h; exact .setCustodian
  · cases h

/-- An input answers a poll of `t` on the ledger `p` from `next`, with a response. -/
inductive PollAnswered (σ : System) (t : TokenType) (p : Principal) (next : UInt64)
    (response : QueryBlocksResponse) : Input → Prop
  | reply {n : Nat} {ledgerReply : LedgerReply} (waits : σ.tasks[n]? = some (.poll t p next))
      (answers : queryBlocks E p (pollRequest next) ledgerReply = .ok (.ok response)) :
      PollAnswered σ t p next response (.reply n (.ledger ledgerReply))

theorem PollAnswered.polled {σ : System} {t : TokenType} {p : Principal} {next : UInt64}
    {response : QueryBlocksResponse} {i : Input} (h : PollAnswered E σ t p next response i) :
    σ.polled E i = some (t, next, response) := by
  cases h with
  | reply waits answers => simp [System.polled, waits, answers]

/-- The blocks a poll was answered with are those of the response it got. -/
theorem answeredBlocks_polled {σ : System} {n : Nat} {task : Task} {reply : Reply}
    {t : TokenType} {next : UInt64} {blocks : List Block} (waits : σ.tasks[n]? = some task)
    (h : .answered t next blocks ∈ answeredBlocks E task reply) :
    ∃ p ledgerReply response, task = .poll t p next ∧ reply = .ledger ledgerReply ∧
      queryBlocks E p (pollRequest next) ledgerReply = .ok (.ok response) ∧
      response.blocks = blocks ∧ σ.polled E (.reply n reply) = some (t, next, response) := by
  unfold answeredBlocks at h
  split at h
  · rename_i t' p next' ledgerReply
    split at h
    · rename_i response hq
      simp only [List.mem_singleton, Event.answered.injEq] at h
      obtain ⟨rfl, rfl, rfl⟩ := h
      exact ⟨p, ledgerReply, response, rfl, rfl, hq, rfl, by simp [System.polled, waits, hq]⟩
    · simp at h
  · simp at h

/-- What a call on the archive path may do: wait or stop without a trace, or store one
record. -/
inductive Archived (c : Canister) : ArchiveTurn → Prop
  | idle {status : ArchiveStatus} : Archived c ⟨c, status, []⟩
  | stored {t : TokenType} {p : Principal} {index : UInt64} {block : Block} {hash : String}
      {result : Except String String}
      (relevant : block.relevant E c.listOfSubaccounts = true)
      (transfer : block.isTransfer = true) (free : c.transactions[index]? = none)
      (fits : (block.record index hash t p).Fits) :
      Archived c
        ⟨{ c with transactions := c.transactions.insert index (block.record index hash t p) },
          .returned result, [.stored (block.record index hash t p) index]⟩

theorem insertArchived_ok {c c' : Canister} {tx : StoredTransactions}
    (h : insertArchived c tx = .ok c') :
    tx.Fits ∧ c' = { c with transactions := c.transactions.insert tx.index tx } := by
  obtain ⟨transactions, hinsert, h⟩ := bind_eq_ok h
  by_cases hfits : tx.Fits
  · rw [insertTransaction_ok _ _ hfits] at hinsert
    cases hinsert
    cases h
    exact ⟨hfits, rfl⟩
  · rw [insertTransaction_error _ _ hfits] at hinsert
    cases hinsert

theorem indexArchivedBlock_inserted {hashFirst : Bool} {c : Canister} {t : TokenType}
    {p : Principal} {index : UInt64} {block : Block} {tx : StoredTransactions}
    (h : indexArchivedBlock E hashFirst c t p index block = .ok (.inserted tx)) :
    block.relevant E c.listOfSubaccounts = true ∧ block.isTransfer = true ∧
      c.transactions[index]? = none ∧ ∃ hash,
        hashOrPlaceholder E block.transaction = .ok hash ∧ tx = block.record index hash t p := by
  unfold indexArchivedBlock at h
  split at h
  · cases h
  · rename_i operation hop
    split at h
    · rename_i hrel
      split at h
      · cases h
      · cases hh : hashOrPlaceholder E block.transaction with
        | error trap => simp [hh, bind, Except.bind] at h
        | ok hash =>
          have htr := (hashOrPlaceholder_isOk E block.transaction hop).mp ⟨hash, hh⟩
          simp only [hh, bind, Except.bind] at h
          split at h
          · cases h
          · rename_i hfree
            cases h
            exact ⟨by simp [Block.relevant, hop, hrel], by simp [Block.isTransfer, hop, htr],
              by simpa using hfree, hash, rfl, rfl⟩
    · cases h

theorem storeIcpBlock_archived {c : Canister} {index : UInt64} {block : Option IcLedger.Block}
    {turn : ArchiveTurn} (h : storeIcpBlock E c index block = .ok turn) : Archived E c turn := by
  unfold storeIcpBlock at h
  split at h
  · cases h; exact .idle
  · rename_i icBlock
    cases hi : indexArchivedBlock E true c .icp (ledgerOrMainnet c) index icBlock.toLocal with
    | error trap => simp [hi, bind, Except.bind] at h
    | ok outcome =>
      simp only [hi, bind, Except.bind] at h
      split at h
      · rename_i tx
        obtain ⟨hrel, htr, hfree, hash, -, rfl⟩ := indexArchivedBlock_inserted E hi
        obtain ⟨c', hinsert, h⟩ := bind_eq_ok h
        obtain ⟨hfits, rfl⟩ := insertArchived_ok hinsert
        cases h
        exact .stored hrel htr hfree hfits
      · cases h; exact .idle

theorem storeIcrc3Block_archived {c : Canister} {t : TokenType} {p : Principal} {index : UInt64}
    {result : Icrc3GetBlocksResult} {turn : ArchiveTurn}
    (h : storeIcrc3Block E c t p index result = .ok turn) : Archived E c turn := by
  unfold storeIcrc3Block at h
  cases hc : convertIcrc3 E result.blocks with
  | error trap => simp [hc, bind, Except.bind] at h
  | ok blocks =>
    cases blocks with
    | nil => simp only [hc, bind, Except.bind] at h; cases h; exact .idle
    | cons block rest =>
      simp only [hc, bind, Except.bind] at h
      cases hi : indexArchivedBlock E false c t p index block with
      | error trap => simp [hi] at h
      | ok outcome =>
        simp only [hi] at h
        cases outcome with
        | inserted tx =>
          obtain ⟨hrel, htr, hfree, hash, -, rfl⟩ := indexArchivedBlock_inserted E hi
          obtain ⟨c', hinsert, h⟩ := bind_eq_ok h
          obtain ⟨hfits, rfl⟩ := insertArchived_ok hinsert
          cases h
          exact .stored hrel htr hfree hfits
        | present => cases h; exact .idle
        | irrelevant => cases h; exact .idle

theorem archived_of_ok {c : Canister} {await : ArchiveAwait} {reply : ArchiveReply}
    {turn : ArchiveTurn} (h : archiveReply E c await reply = some (.ok turn)) :
    Archived E c turn := by
  unfold archiveReply at h
  split at h
  · cases h; exact .idle
  · split at h
    · exact storeIcpBlock_archived E (Option.some.inj h)
    · split at h
      · cases h; exact .idle
      · exact storeIcpBlock_archived E (Option.some.inj h)
  · exact storeIcpBlock_archived E (Option.some.inj h)
  · cases h; exact .idle
  · cases h; exact .idle
  · split at h
    · split at h
      · cases h; exact .idle
      · exact storeIcrc3Block_archived E (Option.some.inj h)
    · cases h; exact .idle
  · split at h
    · cases h; exact .idle
    · split at h <;> (cases h; exact .idle)
  · split at h
    · cases h; exact .idle
    · exact storeIcrc3Block_archived E (Option.some.inj h)
  · cases h

end SubaccountIndexer
