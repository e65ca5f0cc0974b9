import SubaccountIndexer.Provenance
import SubaccountIndexer.Subaccounts

/-! Whose money moves, and where to. In every run a transfer leaves from a subaccount of the
canister, the one listed for the recipient of the deposit it is issued for, and takes what was
deposited, if that covers the fee; it goes to the custodian of that moment or, for a refund, back
to the sender. -/

namespace SubaccountIndexer.Custody
open Provenance (Stems Traced traced_start traced_step)

variable (E : Externals)

/-- Every subaccount of the list is that of a nonce, under its key. -/
def Numbered (list : Subaccounts) : Prop :=
  ∀ (key : UInt64) subaccount, list[key]? = some subaccount →
    ∃ nonce, key = nonceHash E nonce ∧ subaccount = toSubaccount nonce

/-- The fee a transfer names -/
def feeOf : TransferCall → Nat
  | .transfer args _ => args.fee.toNat
  | .icrc1Transfer args _ => args.fee.getD 0

/-- What a transfer takes out of its subaccount: its amount and its fee -/
def drawn : TransferCall → Nat
  | .transfer args _ => args.amount.toNat + args.fee.toNat
  | .icrc1Transfer args _ => args.amount + args.fee.getD 0

/-- A transfer for a deposit draws the deposit. Where the deposit does not cover the fee the
amount has wrapped, and the transfer asks for 2^64 more. -/
def DrawsAmount (deposited fee drawn : Nat) : Prop :=
  fee ≤ deposited ∧ drawn = deposited ∨ deposited < fee ∧ drawn = deposited + 2 ^ 64

/-- The transfer goes to the account of the custodian, by either interface. -/
def ToCustodian (c : Canister) (call : TransferCall) : Prop :=
  ∃ custodian, c.custodianPrincipal = some custodian ∧
    match call with
    | .transfer args _ => args.to = E.accountIdentifier custodian DEFAULT_SUBACCOUNT
    | .icrc1Transfer args _ => args.to = ⟨custodian, none⟩

/-- The transfer goes to the account a deposit came from. -/
def ToSender (data : Transfer) (call : TransferCall) : Prop :=
  ∃ args ledger, call = .transfer args ledger ∧ E.accountFromSlice data.from = .ok args.to

/-- The transfer draws the deposit `data` from the subaccount that is listed under the 64-bit hash
of its recipient, on the ledger the canister keeps for its token. -/
structure Draws (c : Canister) (tx : StoredTransactions) (data : Transfer) (call : TransferCall)
    (nonce : UInt32) : Prop where
  operation : tx.operation = some (.transfer data)
  recipient : ∃ account, E.accountFromSlice data.to = .ok account ∧
    c.listOfSubaccounts[toU64Hash E account]? = some (toSubaccount nonce)
  source : call.fromSubaccount = some (toSubaccount nonce)
  amount : DrawsAmount data.amount.e8s.toNat (feeOf call) (drawn call)
  ledger : call.ledger = c.getTokenLedgerCanisterId tx.tokenType

variable {E} {c : Canister} {list : Subaccounts} {turn : Turn} {σ σ' : System} {i : Input}
  {os os' : List Event} {tx : StoredTransactions} {call : TransferCall} {data : Transfer}

/-! ## The list -/

theorem Numbered.insert (h : Numbered E list) (nonce : UInt32) :
    Numbered E (list.insert (nonceHash E nonce) (toSubaccount nonce)) := by
  intro key subaccount hlisted
  rw [getElem?_insert] at hlisted
  split at hlisted
  · cases hlisted
    exact ⟨nonce, Eq.symm ‹_›, rfl⟩
  · exact h key subaccount hlisted

theorem numbered_empty : Numbered E ∅ := by simp [Numbered]

theorem reconstructUpTo_numbered (h : Numbered E list) (n : Nat) :
    Numbered E (reconstructUpTo E n list) := by
  induction n with
  | zero => exact h
  | succ n ih => exact ih.insert _

theorem numbered_step (h : Fires E σ i σ' os) (numbered : Numbered E σ.canister.listOfSubaccounts) :
    Numbered E σ'.canister.listOfSubaccounts :=
  h.keepsList (P := fun _ list => Numbered E list) numbered
    (reconstructUpTo_numbered numbered_empty _) fun _ _ => numbered.insert _

theorem installed_numbered (h : Installed E σ) : Numbered E σ.canister.listOfSubaccounts := by
  rw [h.canister.2.2.2.2]
  exact reconstructUpTo_numbered numbered_empty _

/-! ## The builders -/

theorem drawsAmount_sub (deposited fee : UInt64) :
    DrawsAmount deposited.toNat fee.toNat ((deposited - fee).toNat + fee.toNat) := by
  have hdeposited := deposited.toNat_lt
  have hfee := fee.toNat_lt
  rw [DrawsAmount, UInt64.toNat_sub]
  omega

theorem transferOf_ok (h : transferOf tx = .ok data) : tx.operation = some (.transfer data) := by
  unfold transferOf at h
  split at h <;> simp_all

theorem sourceSubaccount_ok {role : String} {topupTo : Blob} {subaccount : Subaccount}
    (h : sourceSubaccount E c role topupTo = .ok subaccount) :
    ∃ account, E.accountFromSlice topupTo = .ok account ∧
      c.listOfSubaccounts[toU64Hash E account]? = some subaccount := by
  unfold sourceSubaccount at h
  split at h
  · cases h
  · rename_i account haccount
    refine ⟨account, haccount, ?_⟩
    unfold getSubaccount at h
    split at h
    · cases h
    · rename_i subaccount' hfound
      cases h
      split at hfound
      · cases hfound
        assumption
      · cases hfound

theorem toSweepArgs_draws {args : TransferArgs} {ledger : Principal}
    (numbered : Numbered E c.listOfSubaccounts) (h : toSweepArgs E c tx = .ok (args, ledger)) :
    ToCustodian E c (.transfer args ledger) ∧
      ∃ data nonce, Draws E c tx data (.transfer args ledger) nonce := by
  unfold toSweepArgs at h
  cases hcustodian : getCustodianId E c with
  | error e => simp [hcustodian, bind, Except.bind] at h
  | ok custodianId =>
  cases hdata : transferOf tx with
  | error e => simp [hcustodian, hdata, bind, Except.bind] at h
  | ok data =>
  cases hsource : sourceSubaccount E c "from_subaccount" data.to with
  | error e => simp [hcustodian, hdata, hsource, bind, Except.bind] at h
  | ok subaccount =>
  simp only [hcustodian, hdata, hsource, bind, Except.bind, Except.ok.injEq, Prod.mk.injEq] at h
  obtain ⟨rfl, rfl⟩ := h
  obtain ⟨account, haccount, hlisted⟩ := sourceSubaccount_ok hsource
  obtain ⟨nonce, -, rfl⟩ := numbered _ _ hlisted
  refine ⟨?_, data, nonce, transferOf_ok hdata, ⟨account, haccount, hlisted⟩, rfl, ?_, rfl⟩
  · unfold getCustodianId at hcustodian
    split at hcustodian
    · cases hcustodian
    · rename_i custodian hset
      cases hcustodian
      exact ⟨custodian, hset, rfl⟩
  · exact drawsAmount_sub _ _

theorem toIcrc1SweepArgs_draws {args : Icrc1TransferArg} {ledger : Principal}
    (numbered : Numbered E c.listOfSubaccounts)
    (h : toIcrc1SweepArgs E c tx = .ok (args, ledger)) :
    ToCustodian E c (.icrc1Transfer args ledger) ∧
      ∃ data nonce, Draws E c tx data (.icrc1Transfer args ledger) nonce := by
  unfold toIcrc1SweepArgs at h
  cases hcustodian : c.custodianPrincipal with
  | none => simp [hcustodian, bind, Except.bind] at h
  | some custodian =>
  cases hdata : transferOf tx with
  | error e => simp [hcustodian, hdata, bind, Except.bind] at h
  | ok data =>
  cases hsource : sourceSubaccount E c "from_subaccount" data.to with
  | error e => simp [hcustodian, hdata, hsource, bind, Except.bind] at h
  | ok subaccount =>
  simp only [hcustodian, hdata, hsource, bind, Except.bind, Except.ok.injEq, Prod.mk.injEq] at h
  obtain ⟨rfl, rfl⟩ := h
  obtain ⟨account, haccount, hlisted⟩ := sourceSubaccount_ok hsource
  obtain ⟨nonce, -, rfl⟩ := numbered _ _ hlisted
  refine ⟨⟨custodian, hcustodian, rfl⟩, data, nonce, transferOf_ok hdata,
    ⟨account, haccount, hlisted⟩, rfl, ?_, rfl⟩
  exact drawsAmount_sub _ _

theorem toRefundArgs_draws {args : TransferArgs} {ledger : Principal}
    (numbered : Numbered E c.listOfSubaccounts)
    (h : toRefundArgs E c tx = .ok (.ok (args, ledger))) :
    ∃ data nonce, ToSender E data (.transfer args ledger) ∧
      Draws E c tx data (.transfer args ledger) nonce := by
  unfold toRefundArgs at h
  split at h
  · cases h
  · rename_i data hoperation
    simp only [Except.ok.injEq] at h
    cases hsender : E.accountFromSlice data.from with
    | error e => simp [hsender, bind, Except.bind] at h
    | ok sender =>
    cases hsource : sourceSubaccount E c "to_subaccount" data.to with
    | error e => simp [hsender, hsource, bind, Except.bind] at h
    | ok subaccount =>
    simp only [hsender, hsource, bind, Except.bind, Except.ok.injEq, Prod.mk.injEq] at h
    obtain ⟨rfl, rfl⟩ := h
    obtain ⟨account, haccount, hlisted⟩ := sourceSubaccount_ok hsource
    obtain ⟨nonce, -, rfl⟩ := numbered _ _ hlisted
    exact ⟨data, nonce, ⟨_, _, rfl, hsender⟩, hoperation, ⟨account, haccount, hlisted⟩, rfl,
      drawsAmount_sub _ _, rfl⟩
  · cases h

theorem sweepCall_draws (numbered : Numbered E c.listOfSubaccounts)
    (h : sweepCall E c tx = .ok call) :
    ToCustodian E c call ∧ ∃ data nonce, Draws E c tx data call nonce := by
  unfold sweepCall at h
  split at h
  · obtain ⟨args, hargs, rfl⟩ := map_eq_ok h
    exact toSweepArgs_draws numbered hargs
  all_goals
    obtain ⟨args, hargs, rfl⟩ := map_eq_ok h
    exact toIcrc1SweepArgs_draws numbered hargs

/-- The subaccount `sweep_subaccount` draws from is the one its address names. -/
theorem sweepSubaccount_draws {hex : String} {amount : Float} {t : Option TokenType}
    (numbered : Numbered E c.listOfSubaccounts)
    (mem : .subaccountTransfer call ∈ (sweepSubaccount E c hex amount t).events) :
    ToCustodian E c call ∧ ∃ nonce, call.fromSubaccount = some (toSubaccount nonce) ∧
      c.listOfSubaccounts[nonceHash E nonce]? = some (toSubaccount nonce) ∧
      E.hexEncode (toSubaccountId E (toSubaccount nonce)).toList = hex := by
  unfold sweepSubaccount at mem
  cases hid : getCustodianId E c with
  | error e => simp [hid, Turn.done] at mem
  | ok custodianId =>
  cases hfound : c.listOfSubaccounts.toList.find? fun entry =>
      E.hexEncode (toSubaccountId E entry.2).toList == hex with
  | none => simp [hid, hfound, Turn.done] at mem
  | some entry =>
  obtain ⟨key, subaccount⟩ := entry
  have hlisted := Std.ExtTreeMap.mem_toList_iff_getElem?_eq_some.mp (List.mem_of_find?_eq_some hfound)
  have hnamed := List.find?_some hfound
  obtain ⟨nonce, rfl, rfl⟩ := numbered _ _ hlisted
  simp only [hid, hfound] at mem
  split at mem
  · cases mem
  · split at mem
    · cases mem
    · rename_i built hbuilt
      obtain rfl : call = built := by simpa using mem
      have htarget : ToCustodian E c call ∧
          call.fromSubaccount = some (toSubaccount nonce) := by
        unfold sweepSubaccountCall at hbuilt
        unfold getCustodianId at hid
        split at hid
        · cases hid
        · rename_i custodian hset
          cases hid
          split at hbuilt
          · cases hbuilt
            exact ⟨⟨custodian, hset, rfl⟩, rfl⟩
          all_goals
            rw [hset] at hbuilt
            cases hbuilt
            exact ⟨⟨custodian, hset, rfl⟩, rfl⟩
      exact ⟨htarget.1, nonce, htarget.2, hlisted, by simpa using hnamed⟩

/-! ## Steps -/

variable (E) in
/-- The events of a resumed task: the only money it moves is that of the next record of a
sweep. -/
inductive Resumed (c : Canister) : Event → Prop
  | stored {tx : StoredTransactions} {j : UInt64} : Resumed c (.stored tx j)
  | webhook {hash : String} : Resumed c (.webhook hash)
  | replied {tx : StoredTransactions} {reply : Except String Nat} : Resumed c (.replied tx reply)
  | statusWritten {tx : StoredTransactions} {status : SweepStatus}
      {previous : Option StoredTransactions} : Resumed c (.statusWritten tx status previous)
  | transfer {tx : StoredTransactions} {call : TransferCall}
      (builds : sweepCall E c tx = .ok call) : Resumed c (.transfer tx call)

theorem SweepRun.pays {results : List String} {txs : List StoredTransactions} {turn : SweepTurn}
    (h : SweepRun E c results txs turn) {e : Event} (mem : e ∈ turn.events) :
    ∃ tx call, e = .transfer tx call ∧ sweepCall E turn.canister tx = .ok call := by
  cases h with
  | returned none => cases mem
  | awaiting builds => exact ⟨_, _, List.mem_singleton.mp mem, builds⟩

theorem Resumes.events {task : Task} {reply : Reply} (h : Resumes E c task reply turn) {e : Event}
    (mem : e ∈ turn.events) : Resumed E turn.canister e := by
  cases h with
  | @poll t p next ledgerReply answer pt answers scans =>
    rw [(pt.toTurn_transactions t).2] at mem
    rcases scans.events _ mem with ⟨tx', j, rfl⟩ | ⟨hash, rfl⟩
    · exact .stored
    · exact .webhook
  | @sweep tx' rest results result =>
    obtain ⟨status', turn, lines, heq, -, hrun⟩ :=
      sweepRecorded_spec (E := E) c tx' rest results result
    rw [heq] at mem ⊢
    rcases List.mem_append.mp mem with hmem | hmem
    · rcases List.mem_cons.mp hmem with rfl | hmem
      · exact .replied
      · obtain rfl := List.mem_singleton.mp hmem
        exact .statusWritten
    · obtain ⟨tx, call, rfl, hbuilds⟩ := SweepRun.pays hrun hmem
      exact .transfer hbuilds
  | @refund tx' result =>
    cases result with
    | error message =>
      obtain rfl := List.mem_singleton.mp mem
      exact .replied
    | ok block =>
      rcases List.mem_cons.mp mem with rfl | hmem
      · exact .replied
      · obtain rfl := List.mem_singleton.mp hmem
        exact .statusWritten
  | archive answers =>
    cases archived_of_ok E answers with
    | idle => cases mem
    | stored =>
      obtain rfl := List.mem_singleton.mp mem
      exact .stored
  | webhook | sweepSubaccount => cases mem
  | setCustodian =>
    revert mem
    unfold setCustodianReply
    dsimp only
    repeat' split
    all_goals exact nofun

/-- A transfer is the one a sweep builds, or `refund` was called for its record. -/
theorem Fires.transfer (keyed : Keyed σ.canister.transactions) (h : Fires E σ i σ' os)
    (mem : .transfer tx call ∈ os) :
    sweepCall E σ'.canister tx = .ok call ∨
      σ.runs E i = some (.refund tx.index) ∧ ∃ args ledger, call = .transfer args ledger ∧
        toRefundArgs E σ'.canister tx = .ok (.ok (args, ledger)) := by
  cases h with
  | timer | rejected | upgrade => cases mem
  | callTraps traps => cases List.mem_singleton.mp mem
  | call allowed runs =>
    cases ran_of_ok E runs with
    | @sweep _ txs selects =>
      obtain ⟨tx', call', heq, hbuilds⟩ := SweepRun.pays (sweepTxs_run _ [] txs) mem
      cases heq
      exact .inl hbuilds
    | @refund index turn refunds =>
      cases refunds with
      | returned none => cases mem
      | @awaiting tx' args ledger held builds =>
        cases List.mem_singleton.mp mem
        obtain rfl := keyed _ _ held
        exact .inr ⟨allowed, args, ledger, rfl, builds⟩
    | clear =>
      obtain ⟨tx', heq, -⟩ := clearTransactions_events keyed mem
      cases heq
    | fail =>
      obtain ⟨tx', -, previous, heq⟩ := failedRecorded_events _ _ _ mem
      cases heq
    | archive | setCustodian | done => cases mem
    | sweepSubaccount => cases List.mem_singleton.mp mem
  | reply waits resumes =>
    have hturn := mem_of_mem_answered mem (by simp)
    cases Resumes.events (resumes_of_ok E resumes) hturn with
    | transfer builds => exact .inl builds
  | replyTraps waits resumes =>
    have htrap := mem_of_mem_answered mem (by simp)
    cases List.mem_singleton.mp htrap

theorem Fires.subaccountTransfer (keyed : Keyed σ.canister.transactions) (h : Fires E σ i σ' os)
    (mem : .subaccountTransfer call ∈ os) :
    ∃ hex amount t, σ.runs E i = some (.sweepSubaccount hex amount t) ∧
      .subaccountTransfer call ∈ (sweepSubaccount E σ.canister hex amount t).events := by
  cases h with
  | timer | rejected | upgrade => cases mem
  | callTraps traps => cases List.mem_singleton.mp mem
  | call allowed runs =>
    cases ran_of_ok E runs with
    | @sweep _ txs selects =>
      obtain ⟨tx', call', heq, -⟩ := SweepRun.pays (sweepTxs_run _ [] txs) mem
      cases heq
    | refund refunds => cases refunds <;> simp [RefundTurn.toTurn] at mem
    | clear =>
      obtain ⟨tx, heq, -⟩ := clearTransactions_events keyed mem
      cases heq
    | fail =>
      obtain ⟨tx, -, previous, heq⟩ := failedRecorded_events _ _ _ mem
      cases heq
    | archive | setCustodian | done => cases mem
    | @sweepSubaccount hex amount t t' built =>
      refine ⟨hex, amount, t, allowed, ?_⟩
      rw [show sweepSubaccount E σ.canister hex amount t =
        ⟨σ.canister, .sweepSubaccount t', [.subaccountTransfer built]⟩ from Except.ok.inj runs]
      exact mem
  | reply waits resumes =>
    have hturn := mem_of_mem_answered mem (by simp)
    cases Resumes.events (resumes_of_ok E resumes) hturn
  | replyTraps waits resumes =>
    have htrap := mem_of_mem_answered mem (by simp)
    cases List.mem_singleton.mp htrap

/-! ## Runs -/

theorem traced_run {start : System} (installed : Installed E start)
    (run : (machine E).Run (fun _ _ => True) start os σ) :
    (∃ marked, Traced σ marked os) ∧ Numbered E σ.canister.listOfSubaccounts := by
  refine run.history (P := fun σ os => (∃ marked, Traced σ marked os) ∧
    Numbered E σ.canister.listOfSubaccounts)
    ⟨⟨[], traced_start installed⟩, installed_numbered installed⟩ ?_
  intro s os i s' os' before _ fires
  obtain ⟨⟨marked, htraced⟩, hnumbered⟩ := before
  have hfires := fires_of_step E fires
  exact ⟨⟨_, traced_step htraced hfires⟩, numbered_step hfires hnumbered⟩

/-- In every run a transfer issued for a record is for a record of an indexed block. It draws the
deposit, fee and all, unless the amount wraps, from the subaccount listed under the hash of its
recipient, and goes to the custodian, or `refund` was called for the record and it goes to the
sender. Only `sweep_subaccount` issues others, from the subaccount its caller named, to the
custodian. -/
theorem transfers_guarded (E : Externals) {start : System} (installed : Installed E start)
    (run : (machine E).Run (fun _ _ => True) start os σ)
    (fires : (machine E).step σ i = some (σ', os')) :
    (∀ tx call, .transfer tx call ∈ os' → Stems os tx ∧
      ∃ data nonce, Draws E σ'.canister tx data call nonce ∧
        (ToCustodian E σ'.canister call ∨
          σ.runs E i = some (.refund tx.index) ∧ ToSender E data call)) ∧
    ∀ call, .subaccountTransfer call ∈ os' → ToCustodian E σ.canister call ∧
      ∃ hex amount t nonce, σ.runs E i = some (.sweepSubaccount hex amount t) ∧
        call.fromSubaccount = some (toSubaccount nonce) ∧
        E.hexEncode (toSubaccountId E (toSubaccount nonce)).toList = hex := by
  obtain ⟨⟨marked, htraced⟩, hnumbered⟩ := traced_run installed run
  have hfires := fires_of_step E fires
  have hnumbered' := numbered_step hfires hnumbered
  refine ⟨fun tx call hmem => ⟨?_, ?_⟩, fun call hmem => ?_⟩
  · have hpending : σ'.Pending tx := by
      cases hfires.event htraced.keyed _ hmem with
      | transfer pending builds => exact pending
    rcases hfires.pending htraced.keyed hpending with hpending | ⟨hheld, -⟩
    · exact htraced.pending tx hpending
    · exact (htraced.held _ tx hheld).1
  · rcases Fires.transfer htraced.keyed hfires hmem with hbuilds | ⟨hruns, args, ledger, rfl, hbuilds⟩
    · obtain ⟨hto, data, nonce, hdraws⟩ := sweepCall_draws hnumbered' hbuilds
      exact ⟨data, nonce, hdraws, .inl hto⟩
    · obtain ⟨data, nonce, hto, hdraws⟩ := toRefundArgs_draws hnumbered' hbuilds
      exact ⟨data, nonce, hdraws, .inr ⟨hruns, hto⟩⟩
  · obtain ⟨hex, amount, t, hruns, hturn⟩ := Fires.subaccountTransfer htraced.keyed hfires hmem
    obtain ⟨hto, nonce, hsource, -, hnamed⟩ := sweepSubaccount_draws hnumbered hturn
    exact ⟨hto, hex, amount, t, nonce, hruns, hsource, hnamed⟩

open Examples in
theorem transfers_guarded_deposit :
    ∃ data nonce, Draws externals sweeping.canister record data depositCall nonce ∧
      (ToCustodian externals sweeping.canister depositCall ∨
        depositStored.runs externals (.call custodian .sweep) = some (.refund 1) ∧
          ToSender externals data depositCall) := by
  have hissued : .transfer record depositCall ∈
      (machine externals).emitted depositStored (.call custodian .sweep) := by decide +kernel
  have hstored := (Lib.Machine.Run.nil.step (G := fun _ _ => True) trivial polling_step).next
    (i := icpAnswer 0) trivial (by decide +kernel)
  exact ((transfers_guarded externals start_installed hstored
    (Lib.Machine.step_of_emitted hissued)).1 record depositCall hissued).2

end SubaccountIndexer.Custody
