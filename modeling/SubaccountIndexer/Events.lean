import SubaccountIndexer.Pending

/-! Where the events of a step come from: which task or which record stands behind an
insertion, a status write, a removal or a transfer. -/

namespace SubaccountIndexer

/-- The record a task has issued a transfer for -/
def Task.awaits : Task → Option StoredTransactions
  | .sweep tx _ _ => some tx
  | .refund tx => some tx
  | _ => none

theorem Task.awaits_pending {task : Task} {tx : StoredTransactions}
    (h : task.awaits = some tx) : tx ∈ task.pending := by
  cases task with
  | sweep tx' rest results => cases h; exact .head _
  | refund tx' => cases h; exact .head _
  | _ => cases h

/-- `call` is the transfer a sweep, or a refund, issues for a record. -/
inductive Builds (E : Externals) (c : Canister) (tx : StoredTransactions) : TransferCall → Prop
  | sweep {call : TransferCall} (builds : sweepCall E c tx = .ok call) : Builds E c tx call
  | refund {args : TransferArgs} {ledger : Principal}
      (builds : toRefundArgs E c tx = .ok (.ok (args, ledger))) :
      Builds E c tx (.transfer args ledger)

/-- The events a step can have, each with what brought it about -/
inductive StepEvent (E : Externals) (σ σ' : System) (i : Input) : Event → Prop
  | answered {t : TokenType} {next : UInt64} {blocks : List Block} :
      StepEvent E σ σ' i (.answered t next blocks)
  | webhook {hash : String} : StepEvent E σ σ' i (.webhook hash)
  | trapped {trap : Trap} : StepEvent E σ σ' i (.trapped trap)
  | subaccountTransfer {call : TransferCall} : StepEvent E σ σ' i (.subaccountTransfer call)
  | polled {n : Nat} {t : TokenType} {p : Principal} {next : UInt64}
      {response : QueryBlocksResponse} {k : Nat} {b : Block} {hash : String}
      (waits : σ.tasks[n]? = some (.poll t p next))
      (polled : σ.polled E i = some (t, next, response)) (block : response.blocks[k]? = some b)
      (relevant : b.relevant E σ.canister.listOfSubaccounts = true)
      (transfer : b.isTransfer = true)
      (fits : (b.record (next + UInt64.ofNat k) hash t p).Fits) :
      StepEvent E σ σ' i (.stored (b.record (next + UInt64.ofNat k) hash t p)
        (response.firstBlockIndex + UInt64.ofNat k))
  | archived {n : Nat} {await : ArchiveAwait} {reply : ArchiveReply} {t : TokenType}
      {p : Principal} {b : Block} {index : UInt64} {hash : String}
      (input : i = .reply n (.archive reply)) (waits : σ.tasks[n]? = some (.archive await))
      (relevant : b.relevant E σ.canister.listOfSubaccounts = true)
      (transfer : b.isTransfer = true) (fits : (b.record index hash t p).Fits) :
      StepEvent E σ σ' i (.stored (b.record index hash t p) index)
  | removed {tx : StoredTransactions} {upToIndex : Option UInt64}
      {upToTimestamp : Option Timestamp}
      (runs : σ.runs E i = some (.clearTransactions upToIndex upToTimestamp))
      (held : σ.canister.transactions[tx.index]? = some tx)
      (selects : clearSelects (upToIndex.getD 0) (upToTimestamp.getD ⟨0⟩) tx = true) :
      StepEvent E σ σ' i (.removed tx)
  | failed {tx : StoredTransactions} {txHashArg : String} {previous : Option StoredTransactions}
      (runs : σ.runs E i = some (.setSweepFailed txHashArg))
      (held : σ.canister.transactions[tx.index]? = some tx) :
      StepEvent E σ σ' i (.statusWritten tx .failedToSweep previous)
  | replied {n : Nat} {task : Task} {tx : StoredTransactions} {result : Except String Nat}
      (waits : σ.tasks[n]? = some task) (awaits : task.awaits = some tx) :
      StepEvent E σ σ' i (.replied tx result)
  | written {n : Nat} {task : Task} {tx : StoredTransactions} {result : Except String Nat}
      {status : SweepStatus} (input : i = .reply n (.transfer result))
      (waits : σ.tasks[n]? = some task) (awaits : task.awaits = some tx) :
      StepEvent E σ σ' i (.statusWritten tx status σ.canister.transactions[tx.index]?)
  | transfer {tx : StoredTransactions} {call : TransferCall} (pending : σ'.Pending tx)
      (builds : Builds E σ'.canister tx call) : StepEvent E σ σ' i (.transfer tx call)

variable {E : Externals} {σ σ' : System} {i : Input} {os : List Event} {c : Canister}

/-- A resumed task adds records, or it writes one status: that of the record whose transfer it
awaited. -/
theorem Resumes.writes {task : Task} {reply : Reply} {turn : Turn}
    (h : Resumes E c task reply turn) :
    (∀ e ∈ turn.events, e.rewrites = none) ∨
      ∃ result tx status, reply = .transfer result ∧ task.awaits = some tx ∧
        turn.canister.transactions = c.transactions.insert tx.index (tx.withStatus status) := by
  cases h with
  | @poll t p next reply answer pt answers scans =>
    rw [(pt.toTurn_transactions t).2]
    exact .inl scans.journal.2
  | @sweep tx rest results result =>
    obtain ⟨status, turn, lines, heq, -, hrun⟩ :=
      sweepRecorded_spec (E := E) c tx rest results result
    refine .inr ⟨result, tx, status, rfl, rfl, ?_⟩
    rw [heq]
    simp only [SweepTurn.toTurn, hrun.silent.1]
  | @refund tx result =>
    cases result with
    | error message =>
      refine .inl fun e he => ?_
      obtain rfl := List.mem_singleton.mp he
      rfl
    | ok block => exact .inr ⟨_, tx, .swept, rfl, rfl, rfl⟩
  | archive answers =>
    refine .inl ?_
    cases archived_of_ok E answers <;> simp [ArchiveTurn.toTurn, Event.rewrites]
  | webhook | sweepSubaccount => exact .inl (by simp [Turn.done, sweepSubaccountReply])
  | setCustodian =>
    refine .inl ?_
    unfold setCustodianReply
    dsimp only
    repeat' split
    all_goals simp [Turn.done]

theorem failedRecorded_events (store : Transactions) (txs : List StoredTransactions) :
    ∀ e ∈ (failedRecorded store txs).2, ∃ tx ∈ txs, ∃ previous,
      e = .statusWritten tx .failedToSweep previous := by
  induction txs generalizing store with
  | nil => simp [failedRecorded]
  | cons tx rest ih =>
    intro e he
    rcases List.mem_cons.mp he with rfl | he
    · exact ⟨tx, .head _, _, rfl⟩
    · obtain ⟨tx', htx', previous, rfl⟩ := ih _ e he
      exact ⟨tx', .tail _ htx', previous, rfl⟩

/-- A loop issues transfers it builds, for records it then waits for. -/
theorem SweepRun.transfer {results : List String} {txs : List StoredTransactions}
    {turn : SweepTurn} (h : SweepRun E c results txs turn) :
    ∀ e ∈ turn.events, ∃ tx call, e = .transfer tx call ∧ tx ∈ turn.toTurn.task.pending ∧
      Builds E turn.canister tx call := by
  cases h with
  | returned _ => simp
  | @awaiting tx rest call builds =>
    intro e he
    obtain rfl := List.mem_singleton.mp he
    exact ⟨tx, call, rfl, .head _, .sweep builds⟩

/-- The events of an accepted method call -/
theorem stepEvent_call {caller : Principal} {method : Method} {turn : Turn}
    (keyed : Keyed σ.canister.transactions)
    (allowed : σ.runs E (.call caller method) = some method)
    (h : Ran E σ.canister method turn) :
    ∀ e ∈ turn.events, StepEvent E σ ⟨turn.canister, σ.tasks ++ [turn.task]⟩
      (.call caller method) e := by
  have hpending : ∀ tx ∈ turn.task.pending,
      System.Pending ⟨turn.canister, σ.tasks ++ [turn.task]⟩ tx :=
    fun tx htx => ⟨turn.task, by simp, htx⟩
  intro e he
  cases h with
  | sweep selects =>
    obtain ⟨tx, call, rfl, hmem, hbuilds⟩ := (sweepTxs_run _ _ _).transfer e he
    exact .transfer (hpending tx hmem) hbuilds
  | refund runs =>
    cases runs with
    | returned => simp [RefundTurn.toTurn] at he
    | awaiting held builds =>
      obtain rfl := List.mem_singleton.mp he
      exact .transfer (hpending _ (.head _)) (.refund builds)
  | clear =>
    obtain ⟨tx, rfl, hheld, hselects⟩ := clearTransactions_events keyed he
    exact .removed allowed hheld hselects
  | fail =>
    obtain ⟨tx, htx, previous, rfl⟩ := failedRecorded_events _ _ e he
    exact .failed allowed ((keyed.storedWhere _).held tx htx)
  | archive | setCustodian | done => simp [Turn.done] at he
  | sweepSubaccount =>
    obtain rfl := List.mem_singleton.mp he
    exact .subaccountTransfer

/-- The events of a resumed task -/
theorem stepEvent_reply {n : Nat} {reply : Reply} {task : Task} {turn : Turn}
    (waits : σ.tasks[n]? = some task) (h : Resumes E σ.canister task reply turn) :
    ∀ e ∈ turn.events, StepEvent E σ ⟨turn.canister, σ.tasks.set n turn.task⟩
      (.reply n reply) e := by
  intro e he
  cases h with
  | @poll t p next ledgerReply answer pt answers scans =>
    rw [(pt.toTurn_transactions t).2] at he
    cases answer with
    | error err => cases scans; simp at he
    | ok response =>
      have hpolled : σ.polled E (.reply n (.ledger ledgerReply)) = some (t, next, response) := by
        simp [System.polled, waits, answers]
      cases he' : e with
      | stored tx j =>
        subst he'
        have hfits := scans.fit he
        obtain ⟨k, b, hash, hb, hrel, htr, rfl, rfl⟩ := scans.origin he
        exact .polled waits hpolled hb hrel htr hfits
      | webhook hash => exact .webhook
      | _ =>
        subst he'
        cases scans with
        | scanned scan count quiet =>
          rcases List.mem_append.mp he with he | he
          · obtain ⟨_, _, heq⟩ := List.mem_map.mp he
            cases heq
          · obtain ⟨_, heq⟩ := quiet _ he
            cases heq
  | @sweep tx rest results result =>
    obtain ⟨status, turn, lines, heq, -, hrun⟩ :=
      sweepRecorded_spec (E := E) σ.canister tx rest results result
    rw [heq] at he ⊢
    rcases List.mem_append.mp he with he | he
    · rcases List.mem_cons.mp he with rfl | he
      · exact .replied waits rfl
      · obtain rfl := List.mem_singleton.mp he
        exact .written rfl waits rfl
    · obtain ⟨tx', call, rfl, hmem, hbuilds⟩ := hrun.transfer e he
      refine .transfer ⟨_, List.mem_iff_getElem?.mpr ⟨n, ?_⟩, hmem⟩ hbuilds
      rw [List.getElem?_set_self (List.getElem?_eq_some_iff.mp waits).1]
      rfl
  | @refund tx result =>
    cases result with
    | error message =>
      obtain rfl := List.mem_singleton.mp he
      exact .replied waits rfl
    | ok block =>
      rcases List.mem_cons.mp he with rfl | he
      · exact .replied waits rfl
      · obtain rfl := List.mem_singleton.mp he
        exact .written rfl waits rfl
  | @archive await reply turn answers =>
    cases archived_of_ok E answers with
    | idle => simp [ArchiveTurn.toTurn] at he
    | stored relevant transfer free fits =>
      obtain rfl := List.mem_singleton.mp he
      exact .archived rfl waits relevant transfer fits
  | webhook | sweepSubaccount => simp [Turn.done, sweepSubaccountReply] at he
  | @setCustodian caller text controllers =>
    revert he
    unfold setCustodianReply
    dsimp only
    repeat' split
    all_goals simp [Turn.done]

theorem answeredBlocks_events (task : Task) (reply : Reply) :
    ∀ e ∈ answeredBlocks E task reply, ∃ t next blocks, e = .answered t next blocks := by
  unfold answeredBlocks
  repeat' split
  all_goals simp

/-- Apart from the blocks it answers a poll with, a reply has the events of its turn. -/
theorem mem_of_mem_answered {task : Task} {reply : Reply} {events : List Event} {e : Event}
    (h : e ∈ answeredBlocks E task reply ++ events)
    (other : ∀ t next blocks, e ≠ .answered t next blocks) : e ∈ events := by
  rcases List.mem_append.mp h with h | h
  · obtain ⟨t, next, blocks, heq⟩ := answeredBlocks_events _ _ e h
    exact absurd heq (other t next blocks)
  · exact h

/-- Every event of a step is accounted for. -/
theorem Fires.event (keyed : Keyed σ.canister.transactions) (h : Fires E σ i σ' os) :
    ∀ e ∈ os, StepEvent E σ σ' i e := by
  intro e he
  cases h with
  | timer | rejected | upgrade => cases he
  | call allowed runs => exact stepEvent_call keyed allowed (ran_of_ok E runs) e he
  | callTraps traps => obtain rfl := List.mem_singleton.mp he; exact .trapped
  | reply waits resumes =>
    rcases List.mem_append.mp he with he | he
    · obtain ⟨t, next, blocks, rfl⟩ := answeredBlocks_events _ _ e he
      exact .answered
    · exact stepEvent_reply waits (resumes_of_ok E resumes) e he
  | replyTraps waits resumes =>
    rcases List.mem_append.mp he with he | he
    · obtain ⟨t, next, blocks, rfl⟩ := answeredBlocks_events _ _ e he
      exact .answered
    · obtain rfl := List.mem_singleton.mp he
      exact .trapped

/-- A step that stores a record, not from an archive, only adds records. -/
theorem adds_of_stored {tx : StoredTransactions} (keyed : Keyed σ.canister.transactions)
    (archive : ∀ n reply, i ≠ .reply n (.archive reply)) (h : Fires E σ i σ' os) {j : UInt64}
    (stored : .stored tx j ∈ os) :
    ∀ e ∈ os, e.rewrites = none := by
  have hevent := h.event keyed _ stored
  cases h with
  | timer | rejected | upgrade => cases stored
  | callTraps traps => simp [Event.rewrites]
  | replyTraps waits resumes =>
    intro e he
    rcases List.mem_append.mp he with he | he
    · obtain ⟨t, next, blocks, rfl⟩ := answeredBlocks_events _ _ e he
      rfl
    · obtain rfl := List.mem_singleton.mp he
      rfl
  | call allowed runs =>
    cases hevent with
    | polled waits polled => simp [System.polled] at polled
    | archived input => cases input
  | reply waits resumes =>
    cases hevent with
    | archived input => exact absurd input (archive _ _)
    | polled waits' polled =>
      intro e he
      rcases List.mem_append.mp he with hanswered | hturn
      · obtain ⟨t, next, blocks, rfl⟩ := answeredBlocks_events _ _ e hanswered
        rfl
      · cases resumes_of_ok E resumes with
        | @poll t p next reply answer pt answers scans =>
          rw [(pt.toTurn_transactions t).2] at hturn
          exact scans.journal.2 e hturn
        | _ => simp [System.polled] at polled

/-! ## What all records have -/

/-- Every record in the store and every copy that a message holds has `P`. -/
structure AllRecords (P : StoredTransactions → Prop) (σ : System) : Prop where
  stored : ∀ (k : UInt64) tx, σ.canister.transactions[k]? = some tx → P tx
  copied : ∀ tx, σ.Pending tx → P tx

/-- What new records have, and no status changes, all records keep. -/
theorem AllRecords.step {P : StoredTransactions → Prop} (all : AllRecords P σ)
    (keyed : Keyed σ.canister.transactions) (h : Fires E σ i σ' os)
    (status : ∀ tx s, P tx → P (tx.withStatus s)) (added : ∀ tx j, .stored tx j ∈ os → P tx) :
    AllRecords P σ' where
  stored k tx held := by
    rcases (h.journal keyed).origin held with
      hold | ⟨j, hmem, -⟩ | ⟨tx', s, previous, hmem, -, rfl⟩
    · exact all.stored k tx hold
    · exact added tx j hmem
    · refine status tx' s ?_
      cases h.event keyed _ hmem with
      | failed runs before => exact all.stored _ tx' before
      | written input waits awaits =>
        exact all.copied tx' ⟨_, List.mem_of_getElem? waits, Task.awaits_pending awaits⟩
  copied tx pending := by
    rcases h.pending keyed pending with hold | ⟨held, -⟩
    · exact all.copied tx hold
    · exact all.stored _ tx held

theorem Installed.allRecords {P : StoredTransactions → Prop} (h : Installed E σ) :
    AllRecords P σ where
  stored k tx held := by
    rw [h.canister.2.1, Std.ExtTreeMap.getElem?_empty] at held
    cases held
  copied tx pending := by
    obtain ⟨task, htask, -⟩ := pending
    rw [h.canister.1] at htask
    cases htask

/-- The records a canister has stored fit, and stay so: no status write is too long. -/
theorem fits_step (all : AllRecords StoredTransactions.Fits σ)
    (keyed : Keyed σ.canister.transactions) (h : Fires E σ i σ' os) :
    AllRecords StoredTransactions.Fits σ' := by
  refine all.step keyed h (fun tx s => (fits_withStatus tx s).mpr) fun tx j stored => ?_
  cases h.event keyed _ stored with
  | polled waits polled block relevant transfer fits => exact fits
  | archived input waits relevant transfer fits => exact fits

theorem reachable_fits (h : Reachable E σ) : AllRecords StoredTransactions.Fits σ := by
  obtain ⟨start, os, installed, run⟩ := h
  have hrun := run.invariant
    (P := fun σ => Keyed σ.canister.transactions ∧ AllRecords StoredTransactions.Fits σ)
    ⟨by rw [installed.canister.2.1]; exact keyed_empty, installed.allRecords⟩
    fun s i s' os' before _ fires => ⟨keyed_step before.1 (fires_of_step E fires),
      fits_step before.2 before.1 (fires_of_step E fires)⟩
  exact hrun.2

end SubaccountIndexer
