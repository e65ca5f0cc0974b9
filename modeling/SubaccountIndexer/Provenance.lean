import SubaccountIndexer.SweepCall

/-! What stands behind a stored record. It stems from a block that was indexed, and its status is
the one it was indexed with, or the one the ledger's answer to its own transfer called for, or a
call of `set_sweep_failed` named its hash. No interleaving gives a record the status of another. -/

namespace SubaccountIndexer.Provenance

variable (E : Externals)

/-- The hashes `set_sweep_failed` was called with -/
def recordMarked (σ : System) (i : Input) (marked : List String) : List String :=
  match σ.runs E i with
  | some (.setSweepFailed txHashArg) => txHashArg :: marked
  | _ => marked

/-- The record of an indexed block, with any status -/
def Stems (os : List Event) (tx : StoredTransactions) : Prop :=
  ∃ first j, .stored first j ∈ os ∧ tx.SameTransaction first

/-- How a record came by its status -/
inductive Earned (os : List Event) (marked : List String) (tx : StoredTransactions) : Prop
  | indexed {j : UInt64} (status : tx.sweepStatus = .notSwept) (stored : .stored tx j ∈ os)
  | answered {paid : StoredTransactions} {call : TransferCall} {reply : Except String Nat}
      (issued : .transfer paid call ∈ os) (replied : .replied paid reply ∈ os)
      (status : tx = paid.withStatus (answeredStatus reply))
  | marked (status : tx.sweepStatus = .failedToSweep) (named : tx.txHash ∈ marked)

variable {E} {c : Canister} {turn : Turn} {σ σ' : System} {i : Input} {os os' : List Event}
  {marked marked' : List String} {tx : StoredTransactions} {status : SweepStatus}
  {previous : Option StoredTransactions}

theorem Stems.mono (h : Stems os tx) (sub : os ⊆ os') : Stems os' tx := by
  obtain ⟨first, j, hstored, hsame⟩ := h
  exact ⟨first, j, sub hstored, hsame⟩

theorem Stems.of_same {tx' : StoredTransactions} (h : Stems os tx)
    (same : tx'.SameTransaction tx) : Stems os tx' := by
  obtain ⟨first, j, hstored, hsame⟩ := h
  exact ⟨first, j, hstored, same.trans hsame⟩

theorem Earned.mono (h : Earned os marked tx) (sub : os ⊆ os') (sub' : marked ⊆ marked') :
    Earned os' marked' tx := by
  cases h with
  | indexed status stored => exact .indexed status (sub stored)
  | answered issued replied status => exact .answered (sub issued) (sub replied) status
  | marked status named => exact .marked status (sub' named)

/-! ## Who writes a status -/

theorem SweepRun.not_written {results : List String} {txs : List StoredTransactions}
    {turn : SweepTurn} (h : SweepRun E c results txs turn) :
    .statusWritten tx status previous ∉ turn.events := by
  cases h <;> simp

/-- The one method that writes statuses is `set_sweep_failed`. -/
theorem Ran.written {method : Method} (keyed : Keyed c.transactions) (h : Ran E c method turn)
    (mem : .statusWritten tx status previous ∈ turn.events) :
    status = .failedToSweep ∧ c.transactions[tx.index]? = some tx ∧
      method = .setSweepFailed tx.txHash := by
  cases h with
  | @sweep _ txs selects => exact absurd mem (SweepRun.not_written (sweepTxs_run c [] txs))
  | refund runs => cases runs <;> simp [RefundTurn.toTurn] at mem
  | clear =>
    obtain ⟨tx', heq, -⟩ := clearTransactions_events keyed mem
    cases heq
  | @fail txHashArg result =>
    obtain ⟨tx', htx', previous', heq⟩ := failedRecorded_events _ _ _ mem
    cases heq
    have hhash : tx.txHash = txHashArg := by simpa using mem_storedWhere htx'
    exact ⟨rfl, (keyed.storedWhere _).held tx htx', by rw [hhash]⟩
  | archive | setCustodian | done => simp [Turn.done] at mem
  | sweepSubaccount => simp at mem

/-- A resumed task writes the status its answer calls for, to the record the answer is about. -/
theorem Resumes.written {task : Task} {reply : Reply} (h : Resumes E c task reply turn)
    (mem : .statusWritten tx status previous ∈ turn.events) :
    ∃ result, task.awaits = some tx ∧ .replied tx result ∈ turn.events ∧
      status = answeredStatus result := by
  cases h with
  | @poll t p next ledgerReply answer pt answers scans =>
    rw [(pt.toTurn_transactions t).2] at mem
    rcases scans.events _ mem with ⟨tx', j, heq⟩ | ⟨hash, heq⟩ <;> cases heq
  | @sweep tx' rest results result =>
    obtain ⟨status', turn, lines, heq, hstatus, hrun⟩ :=
      sweepRecorded_spec (E := E) c tx' rest results result
    rw [heq] at mem ⊢
    rcases List.mem_append.mp mem with mem | mem
    · obtain ⟨rfl, rfl, -⟩ : tx = tx' ∧ status = status' ∧ _ := by simpa using mem
      refine ⟨result, rfl, by simp [SweepTurn.toTurn], ?_⟩
      cases result <;> exact hstatus
    · exact absurd mem (SweepRun.not_written hrun)
  | @refund tx' result =>
    cases result with
    | error e => simp [refundRecorded, RefundTurn.toTurn] at mem
    | ok block =>
      obtain ⟨rfl, rfl, -⟩ : tx = tx' ∧ status = .swept ∧ _ := by
        simpa [refundRecorded, RefundTurn.toTurn] using mem
      exact ⟨.ok block, rfl, .head _, rfl⟩
  | archive answers => cases archived_of_ok E answers <;> simp [ArchiveTurn.toTurn] at mem
  | webhook | sweepSubaccount => simp [Turn.done, sweepSubaccountReply] at mem
  | setCustodian =>
    revert mem
    unfold setCustodianReply
    dsimp only
    repeat' split
    all_goals simp [Turn.done]

/-- A message that starts to wait for a transfer has issued it. -/
theorem SweepRun.issued {results : List String} {txs : List StoredTransactions} {turn : SweepTurn}
    (h : SweepRun E c results txs turn) (awaits : turn.toTurn.task.awaits = some tx) :
    ∃ call, .transfer tx call ∈ turn.events := by
  cases h with
  | returned none => cases awaits
  | @awaiting tx' rest call builds =>
    cases awaits
    exact ⟨call, .head _⟩

theorem Ran.issued {method : Method} (h : Ran E c method turn)
    (awaits : turn.task.awaits = some tx) : ∃ call, .transfer tx call ∈ turn.events := by
  cases h with
  | @sweep _ txs selects => exact SweepRun.issued (sweepTxs_run c [] txs) awaits
  | refund runs =>
    cases runs with
    | returned => cases awaits
    | awaiting held builds =>
      cases awaits
      exact ⟨_, .head _⟩
  | _ => cases awaits

theorem Resumes.issued {task : Task} {reply : Reply} (h : Resumes E c task reply turn)
    (awaits : turn.task.awaits = some tx) : ∃ call, .transfer tx call ∈ turn.events := by
  cases h with
  | @poll t p next ledgerReply answer pt answers scans =>
    unfold PollTurn.toTurn at awaits
    split at awaits <;> cases awaits
  | @sweep tx' rest results result =>
    obtain ⟨status', turn, lines, heq, -, hrun⟩ :=
      sweepRecorded_spec (E := E) c tx' rest results result
    rw [heq] at awaits ⊢
    obtain ⟨call, hcall⟩ := SweepRun.issued hrun awaits
    exact ⟨call, List.mem_append_right _ hcall⟩
  | @refund tx' result => cases result <;> cases awaits
  | @archive await reply turn answers =>
    obtain ⟨c', status, events⟩ := turn
    cases status <;> cases awaits
  | webhook | sweepSubaccount => cases awaits
  | setCustodian =>
    revert awaits
    unfold setCustodianReply
    dsimp only
    repeat' split
    all_goals exact nofun

/-! ## Steps -/

theorem Fires.written (keyed : Keyed σ.canister.transactions) (h : Fires E σ i σ' os)
    (mem : .statusWritten tx status previous ∈ os) :
    (status = .failedToSweep ∧ σ.canister.transactions[tx.index]? = some tx ∧
        σ.runs E i = some (.setSweepFailed tx.txHash)) ∨
      ∃ task ∈ σ.tasks, ∃ result, task.awaits = some tx ∧ .replied tx result ∈ os ∧
        status = answeredStatus result := by
  cases h with
  | timer | rejected | upgrade => cases mem
  | callTraps traps => cases List.mem_singleton.mp mem
  | call allowed runs =>
    obtain ⟨hstatus, hheld, rfl⟩ := Ran.written keyed (ran_of_ok E runs) mem
    exact .inl ⟨hstatus, hheld, allowed⟩
  | reply waits resumes =>
    have hturn := mem_of_mem_answered mem (by simp)
    obtain ⟨result, hawaits, hreplied, hstatus⟩ :=
      Resumes.written (resumes_of_ok E resumes) hturn
    exact .inr ⟨_, List.mem_of_getElem? waits, result, hawaits,
      List.mem_append_right _ hreplied, hstatus⟩
  | replyTraps waits resumes =>
    have htrap := mem_of_mem_answered mem (by simp)
    cases List.mem_singleton.mp htrap

theorem Fires.stored (keyed : Keyed σ.canister.transactions) (h : Fires E σ i σ' os) {j : UInt64}
    (mem : .stored tx j ∈ os) : tx.sweepStatus = .notSwept := by
  cases h.event keyed _ mem <;> rfl

theorem Fires.awaited (h : Fires E σ i σ' os) {task : Task} (mem : task ∈ σ'.tasks)
    (awaits : task.awaits = some tx) : task ∈ σ.tasks ∨ ∃ call, .transfer tx call ∈ os := by
  cases h with
  | timer running =>
    rcases List.mem_append.mp mem with mem | mem
    · exact .inl mem
    · obtain ⟨p, -, rfl⟩ := List.mem_map.mp mem
      cases awaits
  | rejected | callTraps =>
    rcases List.mem_append.mp mem with mem | mem
    · exact .inl mem
    · obtain rfl := List.mem_singleton.mp mem
      cases awaits
  | call allowed runs =>
    rcases List.mem_append.mp mem with mem | mem
    · exact .inl mem
    · obtain rfl := List.mem_singleton.mp mem
      exact .inr (Ran.issued (ran_of_ok E runs) awaits)
  | reply waits resumes =>
    rcases List.mem_or_eq_of_mem_set mem with mem | rfl
    · exact .inl mem
    · obtain ⟨call, hcall⟩ := Resumes.issued (resumes_of_ok E resumes) awaits
      exact .inr ⟨call, List.mem_append_right _ hcall⟩
  | replyTraps waits resumes =>
    rcases List.mem_or_eq_of_mem_set mem with mem | rfl
    · exact .inl mem
    · cases awaits
  | upgrade => cases mem

theorem marked_subset (σ : System) (i : Input) (marked : List String) :
    marked ⊆ recordMarked E σ i marked := by
  intro hash hmem
  unfold recordMarked
  split
  · exact List.mem_cons_of_mem _ hmem
  · exact hmem

/-- What a run has left behind: records and copies that stem from indexed blocks, statuses that
were earned, and messages that wait for transfers they issued. -/
structure Traced (σ : System) (marked : List String) (os : List Event) : Prop where
  keyed : Keyed σ.canister.transactions
  held : ∀ (k : UInt64) tx, σ.canister.transactions[k]? = some tx →
    Stems os tx ∧ Earned os marked tx
  pending : ∀ tx, σ.Pending tx → Stems os tx
  awaited : ∀ task ∈ σ.tasks, ∀ tx, task.awaits = some tx → ∃ call, .transfer tx call ∈ os

theorem traced_start (installed : Installed E σ) : Traced σ [] [] where
  keyed := by simp [installed.canister.2.1, keyed_empty]
  held k tx hheld := by simp [installed.canister.2.1] at hheld
  pending tx hpending := by
    obtain ⟨task, htask, -⟩ := hpending
    simp [installed.1] at htask
  awaited task htask := by simp [installed.1] at htask

theorem traced_step (traced : Traced σ marked os) (h : Fires E σ i σ' os') :
    Traced σ' (recordMarked E σ i marked) (os ++ os') := by
  have hold : os ⊆ os ++ os' := List.subset_append_left _ _
  have hnew : os' ⊆ os ++ os' := List.subset_append_right _ _
  refine ⟨keyed_step traced.keyed h, fun k tx hheld => ?_, fun tx hpending => ?_,
    fun task htask tx hawaits => ?_⟩
  · rcases (h.journal traced.keyed).origin hheld with
      hheld | ⟨j, hstored, -⟩ | ⟨tx', status, previous, hwritten, -, rfl⟩
    · obtain ⟨hstems, hearned⟩ := traced.held k tx hheld
      exact ⟨hstems.mono hold, hearned.mono hold (marked_subset σ i marked)⟩
    · exact ⟨⟨tx, j, hnew hstored, .refl tx⟩,
        .indexed (Fires.stored traced.keyed h hstored) (hnew hstored)⟩
    · rcases Fires.written traced.keyed h hwritten with
        ⟨rfl, hheld', hruns⟩ | ⟨task, htask, result, hawaits, hreplied, rfl⟩
      · refine ⟨((traced.held _ _ hheld').1.mono hold).of_same (.withStatus tx' _), ?_⟩
        refine .marked rfl ?_
        simp only [recordMarked, hruns]
        exact .head _
      · have hpending : σ.Pending tx' := ⟨task, htask, Task.awaits_pending hawaits⟩
        obtain ⟨call, hissued⟩ := traced.awaited task htask tx' hawaits
        exact ⟨((traced.pending tx' hpending).mono hold).of_same (.withStatus tx' _),
          .answered (hold hissued) (hnew hreplied) rfl⟩
  · rcases h.pending traced.keyed hpending with hpending | ⟨hheld, -⟩
    · exact (traced.pending tx hpending).mono hold
    · exact (traced.held _ tx hheld).1.mono hold
  · rcases Fires.awaited h htask hawaits with htask | ⟨call, hcall⟩
    · obtain ⟨call, hcall⟩ := traced.awaited task htask tx hawaits
      exact ⟨call, hold hcall⟩
    · exact ⟨call, hnew hcall⟩

/-! ## Runs -/

theorem traced_run {start : System} (installed : Installed E start)
    (run : ((machine E).withHistory (recordMarked E)).Run (fun _ _ => True) (start, []) os
      (σ, marked)) : Traced σ marked os :=
  run.history (P := fun s os => Traced s.1 s.2 os) (traced_start installed)
    fun s os i s' os' traced _ fires => by
      obtain ⟨hstep, hmarked⟩ := Lib.Machine.withHistory_step.mp fires
      rw [hmarked]
      exact traced_step traced (fires_of_step E hstep)

/-- After any run, every stored record stems from an indexed block. It has the status it was
indexed with, or the one that the answer to a transfer issued for it called for, or
`set_sweep_failed` was called with its hash. -/
theorem statuses_earned (E : Externals) {start : System} (installed : Installed E start)
    (run : ((machine E).withHistory (recordMarked E)).Run (fun _ _ => True) (start, []) os
      (σ, marked)) :
    ∀ (k : UInt64) tx, σ.canister.transactions[k]? = some tx →
      tx.index = k ∧ Stems os tx ∧ Earned os marked tx := fun k tx hheld =>
  have htraced := traced_run installed run
  ⟨htraced.keyed k tx hheld, htraced.held k tx hheld⟩

open Examples in
/-- The deposit has been indexed, transferred and swept. -/
theorem statuses_earned_swept :
    Earned (sweepingEvents ++ (machine externals).emitted sweeping (transferred 1)) []
      (record.withStatus .swept) := by
  have hpolling : ((machine externals).withHistory (recordMarked externals)).Run (fun _ _ => True)
      (start, []) [] (polling, []) :=
    Lib.Machine.Run.nil.step trivial (Lib.Machine.withHistory_step.mpr ⟨polling_step, rfl⟩)
  have hstored := hpolling.nextRecorded (i := icpAnswer 0) trivial (by decide +kernel)
  have hsweeping := hstored.nextRecorded (i := .call custodian .sweep) trivial (by decide +kernel)
  have hswept := hsweeping.nextRecorded (i := transferred 1) trivial (by decide +kernel)
  have hheld : swept.canister.transactions[(1 : UInt64)]? = some (record.withStatus .swept) := by
    decide +kernel
  have hmarked : recordMarked externals sweeping (transferred 1) (recordMarked externals
      depositStored (.call custodian .sweep) (recordMarked externals polling (icpAnswer 0) [])) =
        [] := by decide +kernel
  have hearned := (statuses_earned externals start_installed hswept 1 _ hheld).2.2
  rwa [hmarked] at hearned

end SubaccountIndexer.Provenance
