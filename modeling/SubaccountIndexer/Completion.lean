import SubaccountIndexer.TurnSpec
import SubaccountIndexer.Lib.Balance

/-! Messages end. Each answer brings the message it is for closer to its end, whatever it says and
whatever runs in between, and a message that has not ended takes an answer. So the messages in
flight cannot block each other, and no answers keep them going. -/

namespace SubaccountIndexer.Completion
open Lib (total)

/-- The calls `process_token_archived_block` can still make, the present one included -/
def archiveAwaitsLeft : ArchiveAwait → Nat
  | .icrc3Ledger .. => 3
  | .icpLedger _ | .icrc3Archives .. => 2
  | .icpArchive _ | .icrc3Archive .. => 1

/-- The calls a task can still make, the present one included -/
def awaitsLeft : Task → Nat
  | .poll .. => 2
  | .sweep _ rest _ => rest.length + 1
  | .archive await => archiveAwaitsLeft await
  | .webhook .. | .refund _ | .sweepSubaccount _ | .setCustodian .. => 1
  | .finished _ | .trapped => 0

/-- A task has returned or trapped. -/
def Ended (task : Task) : Prop := task = .trapped ∨ ∃ result, task = .finished result

/-- The calls all messages in flight can still make -/
def flightAwaitsLeft (σ : System) : Nat := total Completion.awaitsLeft σ.tasks

variable {E : Externals} {c : Canister} {task : Task} {reply : Reply} {turn : Turn} {σ σ' : System}
  {n : Nat} {os : List Event}

theorem ended_iff : Ended task ↔ awaitsLeft task = 0 := by
  cases task with
  | archive await => cases await <;> simp [Ended, awaitsLeft, archiveAwaitsLeft]
  | _ => simp [Ended, awaitsLeft]

/-! ## One answer -/

theorem storeIcpBlock_returned {index : UInt64} {block : Option IcLedger.Block} {turn : ArchiveTurn}
    (h : storeIcpBlock E c index block = .ok turn) : ∃ result, turn.status = .returned result := by
  unfold storeIcpBlock at h
  split at h
  · cases h
    exact ⟨_, rfl⟩
  · rename_i block
    cases hindex : indexArchivedBlock E true c .icp (ledgerOrMainnet c) index block.toLocal with
    | error trap => simp [hindex, bind, Except.bind] at h
    | ok indexing =>
      simp only [hindex, bind, Except.bind] at h
      split at h
      · obtain ⟨_, -, h⟩ := bind_eq_ok h
        cases h
        exact ⟨_, rfl⟩
      · cases h
        exact ⟨_, rfl⟩

theorem storeIcrc3Block_returned {t : TokenType} {p : Principal} {index : UInt64}
    {result : Icrc3GetBlocksResult} {turn : ArchiveTurn}
    (h : storeIcrc3Block E c t p index result = .ok turn) :
    ∃ result, turn.status = .returned result := by
  unfold storeIcrc3Block at h
  cases hblocks : convertIcrc3 E result.blocks with
  | error trap => simp [hblocks, bind, Except.bind] at h
  | ok blocks =>
    cases blocks with
    | nil =>
      simp only [hblocks, bind, Except.bind] at h
      cases h
      exact ⟨_, rfl⟩
    | cons block rest =>
      simp only [hblocks, bind, Except.bind] at h
      cases hindex : indexArchivedBlock E false c t p index block with
      | error trap => simp [hindex] at h
      | ok indexing =>
        simp only [hindex] at h
        split at h
        · obtain ⟨_, -, h⟩ := bind_eq_ok h
          cases h
          exact ⟨_, rfl⟩
        all_goals
          cases h
          exact ⟨_, rfl⟩

/-- An archive call gets from the ledger to the archive, and from there to its end. -/
theorem archiveReply_awaitsLeft {await : ArchiveAwait} {reply : ArchiveReply} {turn : ArchiveTurn}
    (h : archiveReply E c await reply = some (.ok turn)) :
    awaitsLeft turn.toTurn.task < archiveAwaitsLeft await := by
  have hends : (∃ result, turn.status = .returned result) →
      awaitsLeft turn.toTurn.task < archiveAwaitsLeft await := by
    rintro ⟨result, hstatus⟩
    rw [ArchiveTurn.toTurn, hstatus]
    cases await <;> exact Nat.succ_pos _
  unfold archiveReply at h
  split at h
  · cases h; exact hends ⟨_, rfl⟩
  · split at h
    · exact hends (storeIcpBlock_returned (Option.some.inj h))
    · split at h
      · cases h; exact Nat.lt_succ_self 1
      · exact hends (storeIcpBlock_returned (Option.some.inj h))
  · exact hends (storeIcpBlock_returned (Option.some.inj h))
  · cases h; exact hends ⟨_, rfl⟩
  · cases h; exact hends ⟨_, rfl⟩
  · split at h
    · split at h
      · cases h; exact Nat.lt_succ_self 2
      · exact hends (storeIcrc3Block_returned (Option.some.inj h))
    · cases h; exact Nat.lt_succ_self 2
  · split at h
    · cases h; exact hends ⟨_, rfl⟩
    · split at h
      · cases h; exact Nat.lt_succ_self 1
      · cases h; exact hends ⟨_, rfl⟩
  · split at h
    · cases h; exact hends ⟨_, rfl⟩
    · exact hends (storeIcrc3Block_returned (Option.some.inj h))
  · cases h

theorem SweepRun.awaitsLeft {results : List String} {txs : List StoredTransactions}
    {turn : SweepTurn} (h : SweepRun E c results txs turn) :
    Completion.awaitsLeft turn.toTurn.task ≤ txs.length := by
  cases h with
  | returned => exact Nat.zero_le _
  | awaiting => exact Nat.le_refl _

/-- A resumed task has fewer calls left. -/
theorem resumes_awaitsLeft (resumes : resumeTask E c task reply = some (.ok turn)) :
    awaitsLeft turn.task < awaitsLeft task := by
  cases resumes_of_ok E resumes with
  | @poll t p next reply answer pt answers scans =>
    unfold PollTurn.toTurn
    split
    · exact Nat.succ_pos 1
    · exact Nat.lt_succ_self 1
  | @sweep tx rest results result =>
    obtain ⟨status, turn, lines, heq, -, hrun⟩ :=
      sweepRecorded_spec (E := E) c tx rest results result
    rw [heq]
    have hle := SweepRun.awaitsLeft hrun
    exact Nat.lt_succ_of_le hle
  | @refund tx result => cases result <;> exact Nat.succ_pos 0
  | archive answers => exact archiveReply_awaitsLeft answers
  | webhook | sweepSubaccount => exact Nat.succ_pos 0
  | @setCustodian caller text controllers =>
    unfold setCustodianReply
    dsimp only
    repeat' split
    all_goals exact Nat.succ_pos 0

/-- A task that takes an answer has a call left. -/
theorem awaitsLeft_pos {out : Except Trap Turn} (resumes : resumeTask E c task reply = some out) :
    0 < awaitsLeft task := by
  cases task with
  | archive await => cases await <;> exact Nat.succ_pos _
  | finished | trapped => cases reply <;> cases resumes
  | _ => exact Nat.succ_pos _

/-- Every task that has not ended takes an answer: that its call has failed. -/
theorem exists_reply (h : awaitsLeft task ≠ 0) :
    ∃ reply out, resumeTask E c task reply = some out := by
  cases task with
  | poll t p next => exact ⟨.ledger (.rejected "" ""), _, rfl⟩
  | webhook => exact ⟨.http, _, rfl⟩
  | sweep | refund | sweepSubaccount => exact ⟨.transfer (.error ""), _, rfl⟩
  | archive await =>
    cases await with
    | icpLedger => exact ⟨.archive (.icpLedger (.error ("", ""))), _, rfl⟩
    | icpArchive => exact ⟨.archive (.icpArchive (.error ("", ""))), _, rfl⟩
    | icrc3Ledger | icrc3Archive => exact ⟨.archive (.icrc3Blocks (.error ("", ""))), _, rfl⟩
    | icrc3Archives => exact ⟨.archive (.icrc3Archives (.error ("", ""))), _, rfl⟩
  | setCustodian => exact ⟨.status none, _, rfl⟩
  | finished | trapped => exact absurd rfl h

/-! ## The messages in flight -/

/-- An input is an answer. -/
def IsReply (i : Input) : Prop := ∃ n reply, i = .reply n reply

theorem step_awaitsLeft {i : Input} (isReply : IsReply i)
    (fires : (machine E).step σ i = some (σ', os)) :
    flightAwaitsLeft σ' < flightAwaitsLeft σ := by
  obtain ⟨n, reply, rfl⟩ := isReply
  cases fires_of_step E fires with
  | @reply _ _ task turn waits resumes =>
    have hset := Lib.total_set awaitsLeft waits turn.task
    have hless := resumes_awaitsLeft resumes
    simp only [flightAwaitsLeft]
    omega
  | @replyTraps _ _ task trap waits resumes =>
    have hset := Lib.total_set awaitsLeft waits .trapped
    have hless := awaitsLeft_pos resumes
    have htrapped : awaitsLeft .trapped = 0 := rfl
    simp only [flightAwaitsLeft]
    omega

theorem ended_of_awaitsLeft (h : flightAwaitsLeft σ = 0) : ∀ task ∈ σ.tasks, Ended task := by
  intro task htask
  obtain ⟨n, hn⟩ := List.mem_iff_getElem?.mp htask
  have hset := Lib.total_set awaitsLeft hn .trapped
  rw [show total awaitsLeft σ.tasks = 0 from h] at hset
  exact ended_iff.mpr (Nat.eq_zero_of_add_eq_zero hset).2

theorem reply_accepted (h : flightAwaitsLeft σ ≠ 0) :
    ∃ i, IsReply i ∧ ((machine E).step σ i).isSome = true := by
  obtain ⟨task, htask, hleft⟩ : ∃ task ∈ σ.tasks, awaitsLeft task ≠ 0 := by
    by_contra hnone
    push Not at hnone
    exact h (Lib.total_eq_zero hnone)
  obtain ⟨n, hn⟩ := List.mem_iff_getElem?.mp htask
  obtain ⟨reply, out, hreply⟩ := exists_reply (E := E) (c := σ.canister) hleft
  refine ⟨.reply n reply, ⟨n, reply, rfl⟩, ?_⟩
  simp only [machine, System.step, hn, hreply, Option.map_some, Option.isSome_some]

/-- The messages in flight in any state take no more answers than they have calls left. Once no
answer is accepted any more they have all ended; and there are answers that get them there. -/
theorem messages_end (E : Externals) (σ : System) :
    (∀ inputs τ os, (∀ i ∈ inputs, IsReply i) → (machine E).feed σ inputs = some (τ, os) →
      inputs.length + flightAwaitsLeft τ ≤ flightAwaitsLeft σ ∧
        ((∀ i, IsReply i → (machine E).step τ i = none) ↔ ∀ task ∈ τ.tasks, Ended task)) ∧
      ∃ inputs τ os, (∀ i ∈ inputs, IsReply i) ∧ (machine E).feed σ inputs = some (τ, os) ∧
        ∀ task ∈ τ.tasks, Ended task := by
  have hfalls : ∀ s i s' os, IsReply i → (machine E).step s i = some (s', os) →
      flightAwaitsLeft s' < flightAwaitsLeft s := fun _ _ _ _ => step_awaitsLeft
  constructor
  · intro inputs τ os all feeds
    refine ⟨Lib.Machine.length_le_of_feed hfalls all feeds, fun refused => ?_, fun ended => ?_⟩
    · refine ended_of_awaitsLeft ?_
      by_contra hleft
      obtain ⟨i, hi, haccepted⟩ := reply_accepted (E := E) hleft
      rw [refused i hi] at haccepted
      cases haccepted
    · intro i hi
      cases hstep : (machine E).step τ i with
      | none => rfl
      | some next =>
        have hfall := step_awaitsLeft hi hstep
        have hzero : flightAwaitsLeft τ = 0 :=
          Lib.total_eq_zero fun task htask => ended_iff.mp (ended task htask)
        omega
  · obtain ⟨inputs, τ, os, hall, hfeed, hzero⟩ :=
      Lib.Machine.exists_feed_of_progress hfalls (fun _ => reply_accepted) σ
    exact ⟨inputs, τ, os, hall, hfeed, ended_of_awaitsLeft hzero⟩

end SubaccountIndexer.Completion
