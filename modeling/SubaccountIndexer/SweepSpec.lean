import SubaccountIndexer.Sweep
import SubaccountIndexer.Store

/-! What the sweeps, `refund`, `set_sweep_failed` and `clear_transactions` do to the
store: the records they select are there under distinct keys, and every loop writes
a journal. -/

namespace SubaccountIndexer

variable {E : Externals} {c : Canister}

/-! ## Selections -/

/-- A selection of records: each is in the store, no two under one key. -/
structure Selected (store : Transactions) (txs : List StoredTransactions) : Prop where
  distinct : (txs.map StoredTransactions.index).Nodup
  held : ∀ tx ∈ txs, store[tx.index]? = some tx

theorem Selected.sublist {store : Transactions} {txs txs' : List StoredTransactions}
    (h : Selected store txs) (sub : txs'.Sublist txs) : Selected store txs' :=
  ⟨h.distinct.sublist (sub.map _), fun tx htx => h.held tx (sub.subset htx)⟩

/-- The records of a store that is keyed by index, in key order -/
theorem Keyed.selected {store : Transactions} (h : Keyed store) :
    Selected store (store.toList.map Prod.snd) := by
  have hentry : ∀ entry ∈ store.toList,
      (StoredTransactions.index ∘ Prod.snd) entry = Prod.fst entry := fun entry hmem =>
    h _ _ (Std.ExtTreeMap.mem_toList_iff_getElem?_eq_some.mp hmem)
  refine ⟨?_, ?_⟩
  · rw [List.map_map, List.map_congr_left hentry, Std.ExtTreeMap.map_fst_toList_eq_keys]
    exact Std.ExtTreeMap.nodup_keys
  · intro tx htx
    obtain ⟨entry, hmem, rfl⟩ := List.mem_map.mp htx
    rw [show entry.2.index = entry.1 from hentry entry hmem]
    exact Std.ExtTreeMap.mem_toList_iff_getElem?_eq_some.mp hmem

theorem Keyed.storedWhere (h : Keyed c.transactions) (p : StoredTransactions → Bool) :
    Selected c.transactions (c.storedWhere p) :=
  h.selected.sublist List.filter_sublist

theorem lastTransactions_sublist (n : Nat) (txs : List StoredTransactions) :
    (lastTransactions n txs).Sublist txs :=
  (List.take_sublist _ _).trans (List.drop_sublist _ _)

theorem mem_storedWhere {p : StoredTransactions → Bool} {tx : StoredTransactions}
    (h : tx ∈ c.storedWhere p) : p tx = true := (List.mem_filter.mp h).2

/-! ## The sweep loop -/

variable (E) in
/-- The records of a list a sweep loop gets to: it stops at the first one it cannot build
the arguments for. -/
def attempted (c : Canister) (txs : List StoredTransactions) : List StoredTransactions :=
  txs.takeWhile fun tx => (sweepCall E c tx).isOk

/-- The loop ends, or it issues a transfer for the head of the list and waits. -/
inductive SweepRun (E : Externals) (c : Canister) (results : List String) :
    List StoredTransactions → SweepTurn → Prop
  | returned {txs : List StoredTransactions} {result : Except String (List String)}
      (none : attempted E c txs = []) : SweepRun E c results txs ⟨c, .returned result, []⟩
  | awaiting {tx : StoredTransactions} {rest : List StoredTransactions} {call : TransferCall}
      (builds : sweepCall E c tx = .ok call) :
      SweepRun E c results (tx :: rest) ⟨c, .awaiting tx rest results, [.transfer tx call]⟩

theorem sweepTxs_run (c : Canister) (results : List String) (txs : List StoredTransactions) :
    SweepRun E c results txs (sweepTxs E c results txs) := by
  cases txs with
  | nil => exact .returned rfl
  | cons tx rest =>
    cases hc : sweepCall E c tx with
    | error e =>
      simp only [sweepTxs, hc]
      exact .returned (by simp [attempted, hc, Except.isOk, Except.toBool])
    | ok call =>
      simp only [sweepTxs, hc]
      exact .awaiting hc

theorem attempted_cons {tx : StoredTransactions} {rest : List StoredTransactions}
    {call : TransferCall} (builds : sweepCall E c tx = .ok call) :
    attempted E c (tx :: rest) = tx :: attempted E c rest := by
  simp [attempted, builds, Except.isOk, Except.toBool]

theorem attempted_sublist (c : Canister) (txs : List StoredTransactions) :
    (attempted E c txs).Sublist txs := List.takeWhile_sublist _

theorem SweepRun.silent {results : List String} {txs : List StoredTransactions}
    {turn : SweepTurn} (h : SweepRun E c results txs turn) :
    turn.canister = c ∧ ∀ store, StoreJournal store turn.events store := by
  cases h with
  | returned _ => exact ⟨rfl, fun _ => .nil⟩
  | awaiting _ => exact ⟨rfl, fun _ => .single .transfer⟩

/-! ## The refund -/

variable (E) in
/-- The record a refund pays back, if it can build the arguments for it -/
def refundAttempts (c : Canister) (index : UInt64) : List StoredTransactions :=
  (c.transactions[index]?).toList.filter fun tx =>
    match toRefundArgs E c tx with
    | .ok (.ok _) => true
    | _ => false

/-- `refund` stops, or it issues a transfer for the record it was called for and waits. -/
inductive RefundRun (E : Externals) (c : Canister) (index : UInt64) : RefundTurn → Prop
  | returned {result : Except String String} (none : refundAttempts E c index = []) :
      RefundRun E c index ⟨c, .returned result, []⟩
  | awaiting {tx : StoredTransactions} {args : TransferArgs} {ledger : Principal}
      (held : c.transactions[index]? = some tx)
      (builds : toRefundArgs E c tx = .ok (.ok (args, ledger))) :
      RefundRun E c index ⟨c, .awaiting tx, [.transfer tx (.transfer args ledger)]⟩

theorem refundAttempts_awaiting {index : UInt64} {tx : StoredTransactions}
    {args : TransferArgs × Principal} (held : c.transactions[index]? = some tx)
    (builds : toRefundArgs E c tx = .ok (.ok args)) : refundAttempts E c index = [tx] := by
  simp [refundAttempts, held, builds]

theorem refund_run {index : UInt64} {turn : RefundTurn} (h : refund E c index = .ok turn) :
    RefundRun E c index turn := by
  unfold refund at h
  split at h
  · rename_i hnone
    cases h
    exact .returned (by simp [refundAttempts, hnone])
  · rename_i tx held
    cases hr : toRefundArgs E c tx with
    | error trap => simp [hr, bind, Except.bind] at h
    | ok args =>
      simp only [hr, bind, Except.bind] at h
      cases args with
      | error e => cases h; exact .returned (by simp [refundAttempts, held, hr])
      | ok args => cases h; exact .awaiting held hr

/-! ## The arguments of a transfer -/

section Arguments

variable {tx : StoredTransactions} {data : Transfer} {subaccount : Subaccount}
  {custodian : Principal}

theorem sourceSubaccount_registered (role : String) (registered : c.Registered E subaccount) :
    sourceSubaccount E c role (toSubaccountId E subaccount).toList = .ok subaccount := by
  have hparse : E.accountFromSlice (toSubaccountId E subaccount).toList =
      .ok (toSubaccountId E subaccount) := E.accountFromSlice_canonical _ _
  rw [Canister.Registered] at registered
  simp only [sourceSubaccount, hparse, getSubaccount, registered]

theorem toSweepArgs_registered (operation : tx.operation = some (.transfer data))
    (recipient : data.to = (toSubaccountId E subaccount).toList)
    (registered : c.Registered E subaccount) (set : c.custodianPrincipal = some custodian) :
    ∃ args ledger, toSweepArgs E c tx = .ok (args, ledger) ∧
      args.fromSubaccount = some subaccount := by
  simp only [toSweepArgs, getCustodianId, set, transferOf, operation, recipient,
    sourceSubaccount_registered _ registered, bind, Except.bind]
  exact ⟨_, _, rfl, rfl⟩

theorem toIcrc1SweepArgs_registered (operation : tx.operation = some (.transfer data))
    (recipient : data.to = (toSubaccountId E subaccount).toList)
    (registered : c.Registered E subaccount) (set : c.custodianPrincipal = some custodian) :
    ∃ args ledger, toIcrc1SweepArgs E c tx = .ok (args, ledger) ∧
      args.fromSubaccount = some subaccount := by
  simp only [toIcrc1SweepArgs, set, transferOf, operation, recipient,
    sourceSubaccount_registered _ registered, bind, Except.bind]
  exact ⟨_, _, rfl, rfl⟩

theorem sweepCall_registered (operation : tx.operation = some (.transfer data))
    (recipient : data.to = (toSubaccountId E subaccount).toList)
    (registered : c.Registered E subaccount) (set : c.custodianPrincipal = some custodian) :
    ∃ call, sweepCall E c tx = .ok call ∧ call.fromSubaccount = some subaccount := by
  unfold sweepCall
  split
  · obtain ⟨args, ledger, hargs, hfrom⟩ :=
      toSweepArgs_registered operation recipient registered set
    exact ⟨.transfer args ledger, by rw [hargs]; rfl, hfrom⟩
  all_goals
    obtain ⟨args, ledger, hargs, hfrom⟩ :=
      toIcrc1SweepArgs_registered operation recipient registered set
    exact ⟨.icrc1Transfer args ledger, by rw [hargs]; rfl, hfrom⟩

/-- `to_refund_args` reads the sender first, and needs no custodian. -/
theorem toRefundArgs_registered {sender : AccountIdentifier}
    (operation : tx.operation = some (.transfer data))
    (recipient : data.to = (toSubaccountId E subaccount).toList)
    (parses : E.accountFromSlice data.from = .ok sender)
    (registered : c.Registered E subaccount) :
    ∃ args ledger, toRefundArgs E c tx = .ok (.ok (args, ledger)) ∧
      args.fromSubaccount = some subaccount := by
  simp only [toRefundArgs, operation, parses, recipient,
    sourceSubaccount_registered _ registered, bind, Except.bind]
  exact ⟨_, _, rfl, rfl⟩

end Arguments

/-! ## Journals -/

/-! What an answered transfer comes to when the record can be written back -/

/-- The store and the outcome once `update_status` has inserted the record -/
def statusUpdated (transactions : Transactions) (tx : StoredTransactions) (status : SweepStatus) :
    Transactions × Except String Unit :=
  (transactions.insert tx.index (tx.withStatus status),
    match transactions[tx.index]? with
    | some _ => .ok ()
    | none =>
      .error ("Transaction with index " ++ toString tx.index ++ " not found when updating"))

variable (E) in
/-- The sweep once it has written the status back -/
def sweepRecorded (c : Canister) (tx : StoredTransactions) (rest : List StoredTransactions)
    (results : List String) (transferResult : Except String Nat) : SweepTurn :=
  let (status, line) := recordTransfer E tx transferResult
  let (transactions, statusUpdate) := statusUpdated c.transactions tx status
  let turn := sweepTxs E { c with transactions } (results ++ [line ++ statusText statusUpdate]) rest
  { turn with events :=
      [.replied tx transferResult, .statusWritten tx status c.transactions[tx.index]?] ++
        turn.events }

/-- The refund once it has written the status back, if it does -/
def refundRecorded (c : Canister) (transaction : StoredTransactions)
    (transferResult : Except String Nat) : RefundTurn :=
  match transferResult with
  | .error e => ⟨c, .returned (.error e), [.replied transaction transferResult]⟩
  | .ok _ =>
    let (transactions, statusUpdate) := statusUpdated c.transactions transaction .swept
    ⟨{ c with transactions },
      .returned (statusUpdate.map fun _ => "Refund & tx update is successful"),
      [.replied transaction transferResult,
        .statusWritten transaction .swept c.transactions[transaction.index]?]⟩

/-- The store and the journal of `set_sweep_failed` -/
def failedRecorded (transactions : Transactions) :
    List StoredTransactions → Transactions × List Event
  | [] => (transactions, [])
  | tx :: rest =>
    let (last, events) := failedRecorded (statusUpdated transactions tx .failedToSweep).1 rest
    (last, .statusWritten tx .failedToSweep transactions[tx.index]? :: events)

theorem updateStatus_ok (transactions : Transactions) {tx : StoredTransactions}
    (status : SweepStatus) (fits : tx.Fits) :
    updateStatus transactions tx status = .ok (statusUpdated transactions tx status) := by
  rw [updateStatus, insertTransaction_ok _ _ ((fits_withStatus tx status).mpr fits)]
  rfl

theorem updateStatus_error (transactions : Transactions) {tx : StoredTransactions}
    (status : SweepStatus) (long : ¬ tx.Fits) :
    updateStatus transactions tx status = .error (lengthTrap tx.toBytes.length) := by
  rw [updateStatus, insertTransaction_error _ _ (mt (fits_withStatus tx status).mp long),
    length_toBytes_withStatus]
  rfl

theorem sweepReply_ok (c : Canister) {tx : StoredTransactions} (rest : List StoredTransactions)
    (results : List String) (result : Except String Nat) (fits : tx.Fits) :
    sweepReply E c tx rest results result = .ok (sweepRecorded E c tx rest results result) := by
  simp only [sweepReply, updateStatus_ok _ _ fits, bind, Except.bind, sweepRecorded]

theorem sweepReply_error (c : Canister) {tx : StoredTransactions} (rest : List StoredTransactions)
    (results : List String) (result : Except String Nat) (long : ¬ tx.Fits) :
    sweepReply E c tx rest results result = .error (lengthTrap tx.toBytes.length) := by
  simp only [sweepReply, updateStatus_error _ _ long, bind, Except.bind]

theorem refundReply_ok (c : Canister) {tx : StoredTransactions} {result : Except String Nat}
    (fits : ∀ block, result = .ok block → tx.Fits) :
    refundReply c tx result = .ok (refundRecorded c tx result) := by
  cases result with
  | error e => rfl
  | ok block =>
    simp only [refundReply, updateStatus_ok _ _ (fits block rfl), bind, Except.bind, refundRecorded]

theorem refundReply_error (c : Canister) {tx : StoredTransactions} (block : Nat)
    (long : ¬ tx.Fits) : refundReply c tx (.ok block) = .error (lengthTrap tx.toBytes.length) := by
  simp only [refundReply, updateStatus_error _ _ long, bind, Except.bind]

/-- `set_sweep_failed` panics at the first record that is too long, and all is as it was. -/
theorem setSweepFailedTxs_isOk (store : Transactions) (results : List String)
    (txs : List StoredTransactions) :
    (∀ tx ∈ txs, tx.Fits) ∧ (∃ lines, setSweepFailedTxs store results txs =
        .ok ((failedRecorded store txs).1, lines, (failedRecorded store txs).2)) ∨
      (∃ tx ∈ txs, ¬ tx.Fits) ∧ ∃ trap, setSweepFailedTxs store results txs = .error trap := by
  induction txs generalizing store results with
  | nil => exact .inl ⟨by simp, results, rfl⟩
  | cons tx rest ih =>
    by_cases hfits : tx.Fits
    · simp only [setSweepFailedTxs, updateStatus_ok _ _ hfits, bind, Except.bind]
      generalize results ++ [_] = lines'
      rcases ih (statusUpdated store tx .failedToSweep).1 lines' with
        ⟨hall, lines, hrest⟩ | ⟨hsome, trap, hrest⟩
      · refine .inl ⟨by simpa [hfits] using hall, lines, ?_⟩
        rw [hrest]
        rfl
      · refine .inr ⟨by simpa [hfits] using hsome, trap, ?_⟩
        rw [hrest]
    · exact .inr ⟨⟨tx, .head _, hfits⟩, lengthTrap tx.toBytes.length, by
        simp only [setSweepFailedTxs, updateStatus_error _ _ hfits, bind, Except.bind]⟩

/-- The reply of a sweep: one status is written back, then the loop goes on. -/
theorem sweepRecorded_spec (c : Canister) (tx : StoredTransactions)
    (rest : List StoredTransactions) (results : List String) (result : Except String Nat) :
    ∃ status turn lines, (sweepRecorded E c tx rest results result) =
        { turn with events := [.replied tx result, .statusWritten tx status
            c.transactions[tx.index]?] ++ turn.events } ∧
      status = (match result with | .ok _ => .swept | .error _ => .failedToSweep) ∧
      SweepRun E { c with transactions := c.transactions.insert tx.index (tx.withStatus status) }
        lines rest turn := by
  cases result with
  | ok block => exact ⟨_, _, _, rfl, rfl, sweepTxs_run _ _ _⟩
  | error e => exact ⟨_, _, _, rfl, rfl, sweepTxs_run _ _ _⟩

theorem sweepRecorded_journal (c : Canister) (tx : StoredTransactions)
    (rest : List StoredTransactions) (results : List String) (result : Except String Nat) :
    StoreJournal c.transactions (sweepRecorded E c tx rest results result).events
      (sweepRecorded E c tx rest results result).canister.transactions := by
  obtain ⟨status, turn, lines, heq, -, hrun⟩ :=
    sweepRecorded_spec (E := E) c tx rest results result
  rw [heq]
  simp only [hrun.silent.1]
  exact .cons .replied (.cons .statusWritten (hrun.silent.2 _))

theorem refundRecorded_journal (c : Canister) (tx : StoredTransactions)
    (result : Except String Nat) :
    StoreJournal c.transactions (refundRecorded c tx result).events
      (refundRecorded c tx result).canister.transactions := by
  cases result with
  | error e => exact .single .replied
  | ok block => exact .cons .replied (.single .statusWritten)

theorem failedRecorded_journal (store : Transactions) (txs : List StoredTransactions) :
    StoreJournal store (failedRecorded store txs).2 (failedRecorded store txs).1 := by
  induction txs generalizing store with
  | nil => exact .nil
  | cons tx rest ih => exact .cons .statusWritten (ih _)

/-- Removing keys one by one, with the records that were under them at the start -/
theorem eraseKeys_journal {start : Transactions} (keyed : Keyed start) :
    ∀ (keys : List UInt64) (store : Transactions), keys.Nodup →
      (∀ k ∈ keys, store[k]? = start[k]? ∧ ∃ tx, start[k]? = some tx) →
      StoreJournal store (keys.filterMap fun key => start[key]?.map .removed)
        (keys.foldl (fun store key => store.erase key) store)
  | [], _, _, _ => .nil
  | k :: rest, store, hnodup, hheld => by
    obtain ⟨hsame, tx, htx⟩ := hheld k (by simp)
    obtain rfl := keyed k tx htx
    rw [List.filterMap_cons_some (by rw [htx]; rfl)]
    refine .cons (.removed (hsame.trans htx)) ?_
    have hnot := (List.nodup_cons.mp hnodup).1
    refine eraseKeys_journal keyed rest _ (List.nodup_cons.mp hnodup).2 fun k hk => ?_
    obtain ⟨hsame', hk'⟩ := hheld k (by simp [hk])
    refine ⟨?_, hk'⟩
    rw [getElem?_erase, if_neg (by rintro rfl; exact hnot hk), hsame']

theorem clearTransactions_journal {store : Transactions} (keyed : Keyed store)
    (upToIndex : Option UInt64) (upToTimestamp : Option Timestamp) :
    StoreJournal store (clearTransactions store upToIndex upToTimestamp).2
      (clearTransactions store upToIndex upToTimestamp).1 := by
  refine eraseKeys_journal keyed _ _ ?_ ?_
  · refine List.Nodup.sublist (List.filter_sublist.map Prod.fst) ?_
    rw [Std.ExtTreeMap.map_fst_toList_eq_keys]
    exact Std.ExtTreeMap.nodup_keys
  · intro k hk
    obtain ⟨entry, hentry, rfl⟩ := List.mem_map.mp hk
    exact ⟨rfl, entry.2, Std.ExtTreeMap.mem_toList_iff_getElem?_eq_some.mp
      (List.mem_filter.mp hentry).1⟩

/-- `clear_transactions` removes records it selects, and does nothing else. -/
theorem clearTransactions_events {store : Transactions} (keyed : Keyed store)
    {upToIndex : Option UInt64} {upToTimestamp : Option Timestamp} {e : Event}
    (he : e ∈ (clearTransactions store upToIndex upToTimestamp).2) :
    ∃ tx, e = .removed tx ∧ store[tx.index]? = some tx ∧
      clearSelects (upToIndex.getD 0) (upToTimestamp.getD ⟨0⟩) tx = true := by
  obtain ⟨key, hkey, hmap⟩ := List.mem_filterMap.mp he
  obtain ⟨tx, htx, rfl⟩ := Option.map_eq_some_iff.mp hmap
  obtain ⟨entry, hentry, rfl⟩ := List.mem_map.mp hkey
  obtain ⟨hmem, hselects⟩ := List.mem_filter.mp hentry
  have hstored := Std.ExtTreeMap.mem_toList_iff_getElem?_eq_some.mp hmem
  obtain rfl : entry.2 = tx := Option.some.inj (hstored.symm.trans htx)
  exact ⟨entry.2, rfl, by rwa [keyed _ _ htx], hselects⟩

/-- A record that `clear_transactions` does not select stays as it is. -/
theorem clearTransactions_spares {store : Transactions} (keyed : Keyed store)
    {upToIndex : Option UInt64} {upToTimestamp : Option Timestamp} {k : UInt64}
    {tx : StoredTransactions} (held : store[k]? = some tx)
    (spared : clearSelects (upToIndex.getD 0) (upToTimestamp.getD ⟨0⟩) tx = false) :
    (clearTransactions store upToIndex upToTimestamp).1[k]? = some tx := by
  refine (clearTransactions_journal keyed upToIndex upToTimestamp).keep held ?_
  intro e he hrewrites
  obtain ⟨tx', rfl, hstored, hselects⟩ := clearTransactions_events keyed he
  obtain rfl : tx'.index = k := by simpa [Event.rewrites] using hrewrites
  obtain rfl : tx = tx' := Option.some.inj (held.symm.trans hstored)
  simp [spared] at hselects

end SubaccountIndexer
