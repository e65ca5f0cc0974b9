import SubaccountIndexer.Events
import SubaccountIndexer.Lib.Balance

/-! The books of the transfers. A transfer for a record is issued, then it is waited for by one
message, and then it is answered once; only an upgrade drops messages that wait. So, whatever
the order of messages, no answer is counted twice and none comes without a transfer. -/

namespace SubaccountIndexer.Outstanding

open Lib (total)

/-- The records an event issues a transfer for -/
def issued : Event → Multiset StoredTransactions
  | .transfer tx _ => {tx}
  | _ => 0

/-- The records whose transfer an event answers -/
def answered : Event → Multiset StoredTransactions
  | .replied tx _ => {tx}
  | _ => 0

/-- The record whose transfer a task waits for -/
def awaited (task : Task) : Multiset StoredTransactions :=
  match task.awaits with
  | some tx => {tx}
  | none => 0

/-- The records whose transfers are waited for -/
def waiting (σ : System) : Multiset StoredTransactions := total awaited σ.tasks

/-- The transfers in flight when a canister was upgraded: nothing waits for their answers. -/
def recordDropped (σ : System) (i : Input) (dropped : Multiset StoredTransactions) :
    Multiset StoredTransactions :=
  match i with
  | .upgrade _ => dropped + waiting σ
  | _ => dropped

variable {E : Externals} {c : Canister} {turn : Turn} {σ σ' : System} {i : Input}
  {os : List Event}

/-! ## Turns -/

theorem SweepRun.books {results : List String} {txs : List StoredTransactions}
    {turn : SweepTurn} (h : SweepRun E c results txs turn) :
    awaited turn.toTurn.task = total issued turn.events ∧ total answered turn.events = 0 := by
  cases h with
  | returned => exact ⟨rfl, rfl⟩
  | awaiting => simp [SweepTurn.toTurn, awaited, Task.awaits, issued, answered]

/-- A method waits for the transfer it has issued, if it has issued one. -/
theorem Ran.books {method : Method} (keyed : Keyed c.transactions) (h : Ran E c method turn) :
    awaited turn.task = total issued turn.events ∧ total answered turn.events = 0 := by
  cases h with
  | @sweep _ txs selects => exact SweepRun.books (sweepTxs_run c [] txs)
  | refund runs =>
    cases runs with
    | returned => exact ⟨rfl, rfl⟩
    | awaiting => simp [RefundTurn.toTurn, awaited, Task.awaits, issued, answered]
  | clear =>
    refine ⟨(Lib.total_eq_zero fun e he => ?_).symm, Lib.total_eq_zero fun e he => ?_⟩
    all_goals
      obtain ⟨tx, rfl, -⟩ := clearTransactions_events keyed he
      rfl
  | fail =>
    refine ⟨(Lib.total_eq_zero fun e he => ?_).symm, Lib.total_eq_zero fun e he => ?_⟩
    all_goals
      obtain ⟨tx, -, previous, rfl⟩ := failedRecorded_events _ _ e he
      rfl
  | archive | setCustodian | done => exact ⟨rfl, rfl⟩
  | sweepSubaccount => simp [awaited, Task.awaits, issued, answered]

theorem setCustodianReply_books (c : Canister) (caller : Principal) (text : String)
    (controllers : Option (List Principal)) :
    awaited (setCustodianReply E c caller text controllers).task = 0 ∧
      (setCustodianReply E c caller text controllers).events = [] := by
  unfold setCustodianReply
  dsimp only
  repeat' split
  all_goals exact ⟨rfl, rfl⟩

/-- An answer is the one its task has waited for. -/
theorem Resumes.books {task : Task} {reply : Reply} (h : Resumes E c task reply turn) :
    awaited turn.task + total answered turn.events =
      awaited task + total issued turn.events := by
  cases h with
  | @poll t p next reply answer pt answers scans =>
    have hquiet : total answered pt.events = 0 ∧ total issued pt.events = 0 := by
      refine ⟨Lib.total_eq_zero fun e he => ?_, Lib.total_eq_zero fun e he => ?_⟩
      all_goals rcases scans.events e he with ⟨tx, j, rfl⟩ | ⟨hash, rfl⟩ <;> rfl
    rw [(pt.toTurn_transactions t).2, hquiet.1, hquiet.2]
    unfold PollTurn.toTurn
    split <;> rfl
  | @sweep tx rest results result =>
    obtain ⟨status, turn, lines, heq, -, hrun⟩ :=
      sweepRecorded_spec (E := E) c tx rest results result
    obtain ⟨hawaited, hanswered⟩ := SweepRun.books hrun
    rw [heq]
    have hnext : awaited (SweepTurn.toTurn { turn with events := [.replied tx result,
        .statusWritten tx status c.transactions[tx.index]?] ++ turn.events }).task =
      total issued turn.events := hawaited
    rw [hnext]
    simp [SweepTurn.toTurn, hanswered, awaited, Task.awaits, issued, answered, add_comm]
  | @refund tx result =>
    cases result <;> simp [refundRecorded, RefundTurn.toTurn, awaited, Task.awaits, issued, answered]
  | archive answers =>
    cases archived_of_ok E answers with
    | @idle status => cases status <;> rfl
    | stored => simp [ArchiveTurn.toTurn, awaited, Task.awaits, issued, answered]
  | webhook | sweepSubaccount => rfl
  | @setCustodian caller text controllers =>
    obtain ⟨hawaited, hevents⟩ := setCustodianReply_books (E := E) c caller text controllers
    rw [hawaited, hevents]
    rfl

/-! ## Steps -/

theorem answeredBlocks_books (task : Task) (reply : Reply) :
    total answered (answeredBlocks E task reply) = 0 ∧
      total issued (answeredBlocks E task reply) = 0 := by
  refine ⟨Lib.total_eq_zero fun e he => ?_, Lib.total_eq_zero fun e he => ?_⟩
  all_goals
    obtain ⟨t, next, blocks, rfl⟩ := answeredBlocks_events _ _ e he
    rfl

theorem waiting_append (tasks : List Task) (c : Canister) (task : Task) :
    waiting ⟨c, tasks ++ [task]⟩ = total awaited tasks + awaited task := by
  simp [waiting]

/-- A task that traps has not waited for a transfer: the records it could not write back would
be too long. -/
theorem awaited_of_traps {task : Task} {reply : Reply} {trap : Trap}
    (fits : ∀ tx ∈ task.pending, tx.Fits)
    (traps : resumeTask E c task reply = some (.error trap)) : awaited task = 0 := by
  cases task with
  | sweep tx rest results =>
    cases reply with
    | transfer result =>
      simp only [resumeTask, sweepReply_ok c rest results result (fits tx (.head _))] at traps
      cases traps
    | _ => cases traps
  | refund tx =>
    cases reply with
    | transfer result =>
      simp only [resumeTask, refundReply_ok c fun _ _ => fits tx (.head _)] at traps
      cases traps
    | _ => cases traps
  | _ => rfl

/-- A step moves a transfer from issued to waited for, from waited for to answered, or drops
what is waited for. -/
theorem Fires.books (keyed : Keyed σ.canister.transactions)
    (fits : AllRecords StoredTransactions.Fits σ) (h : Fires E σ i σ' os)
    (dropped : Multiset StoredTransactions) :
    waiting σ' + recordDropped σ i dropped + total answered os =
      waiting σ + dropped + total issued os := by
  cases h with
  | timer running =>
    have hpolls : total awaited ((pollsToStart σ.canister).map fun p =>
        Task.poll p.1 p.2.1 p.2.2) = 0 := Lib.total_eq_zero fun task htask => by
      obtain ⟨p, -, rfl⟩ := List.mem_map.mp htask
      rfl
    simp [waiting, recordDropped, hpolls]
  | rejected | callTraps =>
    simp [waiting, recordDropped, awaited, Task.awaits, issued, answered]
  | call allowed runs =>
    obtain ⟨hawaited, hanswered⟩ := Ran.books keyed (ran_of_ok E runs)
    rw [waiting_append, hawaited, hanswered]
    simp only [recordDropped, waiting, add_zero]
    abel
  | @reply n reply task turn waits resumes =>
    have hset := Lib.total_set awaited waits turn.task
    have hbooks := Resumes.books (resumes_of_ok E resumes)
    obtain ⟨hanswered, hissued⟩ := answeredBlocks_books (E := E) task reply
    rw [Lib.total_append, Lib.total_append, hanswered, hissued, zero_add, zero_add]
    simp only [recordDropped, waiting]
    refine add_right_cancel (b := awaited task + awaited turn.task) ?_
    calc total awaited (σ.tasks.set n turn.task) + dropped + total answered turn.events +
          (awaited task + awaited turn.task)
        = (total awaited (σ.tasks.set n turn.task) + awaited task) + dropped +
          (awaited turn.task + total answered turn.events) := by abel
      _ = total awaited σ.tasks + awaited turn.task + dropped +
          (awaited task + total issued turn.events) := by rw [hset, hbooks]
      _ = _ := by abel
  | @replyTraps n reply task trap waits resumes =>
    have hset := Lib.total_set awaited waits .trapped
    rw [awaited_of_traps (fun tx htx => fits.copied tx ⟨task, List.mem_of_getElem? waits, htx⟩)
      resumes] at hset
    obtain ⟨hanswered, hissued⟩ := answeredBlocks_books (E := E) task reply
    rw [Lib.total_append, Lib.total_append, hanswered, hissued]
    have htrapped : awaited .trapped = 0 := rfl
    rw [htrapped, add_zero, add_zero] at hset
    simp [recordDropped, waiting, hset, issued, answered]
  | upgrade => simp [waiting, recordDropped, add_comm]

/-! ## Runs -/

/-- In every run, whatever the order of its messages, each transfer that was issued has been
answered once, or a message still waits for its answer, or it was in flight when the canister
was upgraded; and nothing else has been answered. -/
theorem transfers_accounted (E : Externals) {start : System} {dropped : Multiset StoredTransactions}
    (installed : Installed E start)
    (run : ((machine E).withHistory recordDropped).Run (fun _ _ => True) (start, 0) os (σ, dropped)) :
    total answered os + waiting σ + dropped = total issued os := by
  have hbooks := run.balance
    (P := fun s => Keyed s.1.canister.transactions ∧ AllRecords StoredTransactions.Fits s.1)
    (fun s => waiting s.1 + s.2) answered issued
    ⟨by simp [installed.canister.2.1, keyed_empty], installed.allRecords⟩
    fun s i s' os' before _ fires => by
      obtain ⟨hkeyed, hfits⟩ := before
      obtain ⟨hstep, hdropped⟩ := Lib.Machine.withHistory_step.mp fires
      have hfires := fires_of_step E hstep
      refine ⟨⟨keyed_step hkeyed hfires, fits_step hfits hkeyed hfires⟩, ?_⟩
      rw [hdropped]
      exact Fires.books hkeyed hfits hfires s.2
  have hnone : waiting start = 0 := by
    rw [waiting, installed.1]
    rfl
  rw [hnone, zero_add, zero_add] at hbooks
  rw [← hbooks]
  abel

open Examples in
/-- An upgrade while a sweep waits for its one transfer -/
theorem transfers_accounted_upgrade :
    waiting sweeping = {record} ∧
      total answered (sweepingEvents ++ []) + waiting ⟨postUpgrade externals sweeping.canister
        custodian, []⟩ + (0 + waiting sweeping) = total issued (sweepingEvents ++ []) := by
  have hpolling : ((machine externals).withHistory recordDropped).Run (fun _ _ => True)
      (start, 0) [] (polling, 0) :=
    Lib.Machine.Run.nil.step trivial (Lib.Machine.withHistory_step.mpr ⟨polling_step, rfl⟩)
  have hstored := hpolling.nextRecorded (i := icpAnswer 0) trivial (by decide +kernel)
  have hsweeping := hstored.nextRecorded (i := .call custodian .sweep) trivial (by decide +kernel)
  have hupgraded := hsweeping.nextRecorded (i := .upgrade custodian) trivial rfl
  exact ⟨by decide +kernel, transfers_accounted externals start_installed hupgraded⟩

end SubaccountIndexer.Outstanding
