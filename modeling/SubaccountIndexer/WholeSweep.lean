import SubaccountIndexer.SweepCall

/-! Whether one bad entry stops a sweep. The loop returns at the first entry it cannot build the
arguments for: what it has reported until then is lost, and the entries behind it are not
reached, on this and on every later call. -/

namespace SubaccountIndexer.WholeSweep

variable (E : Externals)

/-- The records a batch sweep is for -/
def unswept : Method → StoredTransactions → Bool
  | .sweepByTokenType tokenType, tx => tx.sweepStatus == .notSwept && tx.tokenType == tokenType
  | _, tx => tx.sweepStatus == .notSwept

/-- The entries a batch sweep goes over, with their keys -/
def selectedEntries (c : Canister) (method : Method) : List (UInt64 × StoredTransactions) :=
  let entries := c.transactions.toList.filter fun entry => unswept method entry.2
  entries.drop (entries.length - 100)

/-- A record whose arguments can be built: a transfer to a subaccount in the list -/
def Buildable (c : Canister) (tx : StoredTransactions) : Prop :=
  ∃ data, Amounts.Deposit E c tx data

/-- What the loop can bring to its end: an entry whose arguments can be built, under its own
index, which is not too long to be written back -/
structure Sweepable (c : Canister) (entry : UInt64 × StoredTransactions) : Prop where
  builds : Buildable E c entry.2
  index : entry.2.index = entry.1
  fits : entry.2.Fits

/-- A line about a record -/
def Names (tx : StoredTransactions) (line : String) : Prop :=
  ∃ text, line = "tx: " ++ toString tx.index ++ text

/-- The sweep returns a line for each entry, in order, and each entry it can build the arguments
for was attempted and has the status its answer leads to. -/
structure Handled (c : Canister) (method : Method) (σ' : System) (os : List Event)
    (result : Option (Except String Value)) : Prop where
  reported : ∃ lines, result = some (.ok (.lines lines)) ∧
    List.Forall₂ Names ((selectedEntries c method).map Prod.snd) lines
  settled : ∀ entry ∈ selectedEntries c method, Buildable E c entry.2 →
    entry.2 ∈ transfersOf os ∧ ∃ reply, (entry.2, reply) ∈ repliesOf os ∧
      σ'.canister.transactions[entry.1]? = some (entry.2.withStatus (answeredStatus reply))

variable {E} {c : Canister} {σ σ' : System} {caller : Principal} {method : Method}
  {replies : Nat → Except String Nat} {os : List Event} {result : Option (Except String Value)}
  {tx : StoredTransactions}

/-! ## Selections -/

theorem lastTransactions_eq_drop (n : Nat) (txs : List StoredTransactions) :
    lastTransactions n txs = txs.drop (txs.length - n) := by
  unfold lastTransactions
  by_cases h : txs.length < n
  · simp only [if_pos h, List.drop_zero, Nat.sub_eq_zero_of_le (Nat.le_of_lt h)]
    exact List.take_of_length_le (Nat.le_of_lt h)
  · rw [if_neg h]
    refine List.take_of_length_le ?_
    rw [List.length_drop]
    omega

theorem selection_eq (batch : method.isBatch = true) :
    method.selection c = some ((selectedEntries c method).map Prod.snd) := by
  have hlast : ∀ p, lastTransactions 100 (c.storedWhere p) =
      ((c.transactions.toList.filter fun entry => p entry.2).drop
        ((c.transactions.toList.filter fun entry => p entry.2).length - 100)).map Prod.snd := by
    intro p
    rw [lastTransactions_eq_drop, Canister.storedWhere, List.filter_map, List.length_map,
      List.map_drop]
    rfl
  cases method with
  | sweep => exact congrArg some (hlast _)
  | sweepByTokenType t => exact congrArg some (hlast _)
  | _ => cases batch

theorem unswept_notSwept (h : unswept method tx = true) : tx.sweepStatus = .notSwept := by
  cases method with
  | sweepByTokenType t =>
    simp only [unswept, Bool.and_eq_true, beq_iff_eq] at h
    exact h.1
  | _ => simpa [unswept] using h

theorem mem_selectedEntries {entry : UInt64 × StoredTransactions}
    (h : entry ∈ selectedEntries c method) :
    c.transactions[entry.1]? = some entry.2 ∧ entry.2.sweepStatus = .notSwept := by
  obtain ⟨hmem, hunswept⟩ := List.mem_filter.mp (List.mem_of_mem_drop h)
  exact ⟨Std.ExtTreeMap.mem_toList_iff_getElem?_eq_some.mp hmem, unswept_notSwept hunswept⟩

theorem selectedEntries_nodup (c : Canister) (method : Method) :
    ((selectedEntries c method).map Prod.fst).Nodup := by
  have hsub : (selectedEntries c method).Sublist c.transactions.toList :=
    (List.drop_sublist _ _).trans List.filter_sublist
  refine List.Nodup.sublist (hsub.map Prod.fst) ?_
  rw [Std.ExtTreeMap.map_fst_toList_eq_keys]
  exact Std.ExtTreeMap.nodup_keys

/-! ## Builders -/

theorem sourceSubaccount_isOk {role : String} {topupTo : Blob} :
    (sourceSubaccount E c role topupTo).isOk = true ↔ ∃ account subaccount,
      E.accountFromSlice topupTo = .ok account ∧ getSubaccount E c account = .ok subaccount := by
  unfold sourceSubaccount
  cases haccount : E.accountFromSlice topupTo with
  | error e => simp [Except.isOk, Except.toBool]
  | ok account =>
    cases hlisted : getSubaccount E c account with
    | error e => simp [hlisted, Except.isOk, Except.toBool]
    | ok subaccount => simp [hlisted, Except.isOk, Except.toBool]

/-- With a custodian set, only the record decides whether the arguments can be built. -/
theorem sweepCall_isOk {custodian : Principal} (set : c.custodianPrincipal = some custodian) :
    (sweepCall E c tx).isOk = true ↔ Buildable E c tx := by
  have hbuilds : (sweepCall E c tx).isOk = true ↔ ∃ data, transferOf tx = .ok data ∧
      (sourceSubaccount E c "from_subaccount" data.to).isOk = true := by
    unfold sweepCall
    cases htransfer : transferOf tx with
    | error e =>
      cases tx.tokenType <;>
        simp [toSweepArgs, toIcrc1SweepArgs, getCustodianId, set, htransfer, bind, Except.bind,
          Except.map, Except.isOk, Except.toBool]
    | ok data =>
      cases hsource : sourceSubaccount E c "from_subaccount" data.to <;> cases tx.tokenType <;>
        simp [toSweepArgs, toIcrc1SweepArgs, getCustodianId, set, htransfer, hsource, bind,
          Except.bind, Except.map, Except.isOk, Except.toBool]
  rw [hbuilds]
  constructor
  · rintro ⟨data, htransfer, hsource⟩
    refine ⟨data, ?_, sourceSubaccount_isOk.mp hsource⟩
    unfold transferOf at htransfer
    split at htransfer
    · cases htransfer
    · cases htransfer
      assumption
    · cases htransfer
  · rintro ⟨data, deposit⟩
    exact ⟨data, deposit.transferOf, sourceSubaccount_isOk.mpr deposit.listed⟩

/-- The loop gets through the records it can build the arguments for and write back. -/
theorem settled_eq_iff {custodian : Principal} (set : c.custodianPrincipal = some custodian)
    (txs : List StoredTransactions) :
    settled E c txs = txs ↔ ∀ tx ∈ txs, Buildable E c tx ∧ tx.Fits := by
  rw [settled, List.takeWhile_eq_self_iff]
  refine forall₂_congr fun tx _ => ?_
  rw [Bool.and_eq_true, decide_eq_true_eq, sweepCall_isOk set]

/-! ## The sweep -/

theorem names_of_reports {a : StoredTransactions × Except String Nat} {line : String}
    (h : Reports E a line) : Names a.1 line := by
  obtain ⟨update, rfl⟩ := h
  obtain ⟨tx, reply⟩ := a
  cases reply <;> exact ⟨_, by simp only [recordTransfer, String.append_assoc]; rfl⟩

/-- If every entry can be built and written back under its key, all are handled. -/
theorem handled_of_sweepable {custodian : Principal}
    (set : σ.canister.custodianPrincipal = some custodian) (batch : method.isBatch = true)
    (allowed : σ.runs E (.call caller method) = some method)
    (completes : Completes E σ caller method replies σ' os result)
    (sweepable : ∀ entry ∈ selectedEntries σ.canister method, Sweepable E σ.canister entry) :
    Handled E σ.canister method σ' os result := by
  obtain ⟨hresult, rfl, rfl⟩ := (completes_iff replies allowed (selection_eq batch)).mp completes
  have hloop := sweepLoop_looped (E := E) σ.canister []
    ((selectedEntries σ.canister method).map Prod.snd) replies
  have hall : settled E σ.canister ((selectedEntries σ.canister method).map Prod.snd) =
      (selectedEntries σ.canister method).map Prod.snd :=
    (settled_eq_iff set _).mpr (List.forall_mem_map.mpr fun entry hentry =>
      ⟨(sweepable entry hentry).builds, (sweepable entry hentry).fits⟩)
  have hfst := answered_fst (E := E) σ.canister
    ((selectedEntries σ.canister method).map Prod.snd) replies
  constructor
  · obtain ⟨lines, hlines, hreported⟩ := hloop.reports
    refine ⟨lines, by rw [hresult, SweepEnd.value, hreported hall]; rfl, ?_⟩
    rw [← hall, ← hfst, List.forall₂_map_left_iff]
    exact hlines.imp fun _ _ => names_of_reports
  · intro entry hentry _
    have hmem : entry.2 ∈ (selectedEntries σ.canister method).map Prod.snd :=
      List.mem_map_of_mem hentry
    rw [hloop.transfers hall, hloop.replied, hloop.canister]
    refine ⟨hmem, ?_⟩
    rw [← hall, ← hfst] at hmem
    obtain ⟨a, ha, heq⟩ := List.mem_map.mp hmem
    -- the indices of the records answered are the keys of the entries
    have hdistinct : ((answered E σ.canister ((selectedEntries σ.canister method).map Prod.snd)
        replies).map fun a => a.1.index).Nodup := by
      have hkeys : (selectedEntries σ.canister method).map (fun entry => entry.2.index) =
          (selectedEntries σ.canister method).map Prod.fst :=
        List.map_congr_left fun entry he => (sweepable entry he).index
      have hindices := congrArg (List.map StoredTransactions.index) (hfst.trans hall)
      simp only [List.map_map, Function.comp_def] at hindices
      rw [hindices, hkeys]
      exact selectedEntries_nodup _ _
    have hheld := settle_held σ.canister.transactions hdistinct ha
    rw [heq, (sweepable entry hentry).index] at hheld
    exact ⟨a.2, heq ▸ ha, hheld⟩

/-- A sweep that handles its entries was stopped by none, and its entries sit under their
indices. -/
theorem sweepable_of_handled {custodian : Principal}
    (set : σ.canister.custodianPrincipal = some custodian) (batch : method.isBatch = true)
    (allowed : σ.runs E (.call caller method) = some method)
    (completes : Completes E σ caller method replies σ' os result)
    (handled : Handled E σ.canister method σ' os result) :
    ∀ entry ∈ selectedEntries σ.canister method, Sweepable E σ.canister entry := by
  obtain ⟨hresult, rfl, rfl⟩ := (completes_iff replies allowed (selection_eq batch)).mp completes
  have hloop := sweepLoop_looped (E := E) σ.canister []
    ((selectedEntries σ.canister method).map Prod.snd) replies
  have hall : settled E σ.canister ((selectedEntries σ.canister method).map Prod.snd) =
      (selectedEntries σ.canister method).map Prod.snd := by
    by_contra hstopped
    obtain ⟨lines, hlines, -⟩ := handled.reported
    rw [hresult, SweepEnd.value, Option.map_eq_some_iff] at hlines
    obtain ⟨returned, hreturned, hlines⟩ := hlines
    cases returned with
    | error e => cases hlines
    | ok lines => exact hloop.stops hstopped lines hreturned
  intro entry hentry
  obtain ⟨hbuildable, hfits⟩ :=
    (settled_eq_iff set _).mp hall entry.2 (List.mem_map_of_mem hentry)
  refine ⟨hbuildable, ?_, hfits⟩
  obtain ⟨-, reply, -, hheld⟩ := handled.settled entry hentry hbuildable
  obtain ⟨hstored, hunswept⟩ := mem_selectedEntries hentry
  rw [hloop.canister] at hheld
  rcases settle_cases σ.canister.transactions (answered E σ.canister
    ((selectedEntries σ.canister method).map Prod.snd) replies) entry.1 with
      hsame | ⟨a, -, hindex, hwritten⟩
  · -- an entry that is not written back is still not swept
    have heq : entry.2 = entry.2.withStatus (answeredStatus reply) :=
      Option.some.inj ((hsame.trans hstored).symm.trans hheld)
    have hstatus := congrArg StoredTransactions.sweepStatus heq
    rw [hunswept] at hstatus
    exact absurd hstatus.symm (answeredStatus_ne reply)
  · have heq := Option.some.inj (hheld.symm.trans hwritten)
    have hindices := congrArg StoredTransactions.index heq
    exact hindices.trans hindex

/-- An uninterrupted batch sweep comes to one end, which may be a panic, and it handles its
entries if and only if the arguments of each can be built, each sits under its index, and none is
too long to be written back. -/
theorem sweep_handles {custodian : Principal}
    (set : σ.canister.custodianPrincipal = some custodian) (batch : method.isBatch = true)
    (allowed : σ.runs E (.call caller method) = some method)
    (replies : Nat → Except String Nat) :
    ∃ σ' os result, (∀ s es r, Completes E σ caller method replies s es r ↔
        s = σ' ∧ es = os ∧ r = result) ∧
      (Handled E σ.canister method σ' os result ↔
        ∀ entry ∈ selectedEntries σ.canister method, Sweepable E σ.canister entry) := by
  let last := sweepLoop E σ.canister [] ((selectedEntries σ.canister method).map Prod.snd) replies
  have hends : ∀ s es r, Completes E σ caller method replies s es r ↔
      s = ⟨last.canister, σ.tasks ++ [endedTask last.value]⟩ ∧
        es = last.events ∧ r = last.value := by
    intro s es r
    rw [completes_iff replies allowed (selection_eq batch)]
    constructor
    · rintro ⟨rfl, rfl, rfl⟩
      exact ⟨rfl, rfl, rfl⟩
    · rintro ⟨rfl, rfl, rfl⟩
      exact ⟨rfl, rfl, rfl⟩
  refine ⟨_, _, _, hends, ?_⟩
  have hcompletes := (hends _ _ _).mpr ⟨rfl, rfl, rfl⟩
  constructor
  · exact sweepable_of_handled set batch allowed hcompletes
  · exact handled_of_sweepable set batch allowed hcompletes

theorem runs_of_authenticated (h : (authenticate E σ.canister caller).isOk = true) :
    σ.runs E (.call caller method) = some method := by
  simp [System.runs, h]

open Examples

theorem sweep_handles_deposit :
    ∃ σ' os result,
      Completes externals depositStored custodian .sweep (fun _ => .ok 7) σ' os result ∧
        Handled externals depositStored.canister .sweep σ' os result := by
  obtain ⟨hset, hchecked, hselected⟩ :
      depositStored.canister.custodianPrincipal = some custodian ∧
      (authenticate externals depositStored.canister custodian).isOk = true ∧
      selectedEntries depositStored.canister .sweep = [(1, record)] := by decide +kernel
  have hallowed : depositStored.runs externals (.call custodian .sweep) = some .sweep :=
    runs_of_authenticated hchecked
  obtain ⟨σ', os, result, hends, hiff⟩ := sweep_handles hset rfl hallowed fun _ => .ok 7
  refine ⟨σ', os, result, (hends _ _ _).mpr ⟨rfl, rfl, rfl⟩, hiff.mpr ?_⟩
  intro entry hentry
  rw [hselected] at hentry
  obtain rfl := List.mem_singleton.mp hentry
  exact ⟨⟨_, rfl, account1, subaccount1, rfl, by decide +kernel⟩, rfl, by decide +kernel⟩

/-- Block 1 is a payment that subaccount 1 makes for another account, block 2 a deposit. -/
abbrev twoStored : System :=
  (machine externals).after polling (.reply 0 (blocksReply 1 [spending, deposit]))

/-- The record of the payment goes to the custodian's account, which is in no list: the sweep
stops at it, and the deposit behind it is not attempted. -/
theorem payment_stops_sweep :
    Reachable externals twoStored ∧
      twoStored.canister.custodianPrincipal = some custodian ∧
      (selectedEntries twoStored.canister .sweep).map Prod.fst = [1, 2] ∧
      ∃ σ' os e,
        Completes externals twoStored custodian .sweep (fun _ => .ok 7) σ' os (some (.error e)) ∧
          transfersOf os = [] ∧
          ¬ Handled externals twoStored.canister .sweep σ' os (some (.error e)) := by
  let last := sweepLoop externals twoStored.canister []
    ((selectedEntries twoStored.canister .sweep).map Prod.snd) fun _ => .ok 7
  obtain ⟨hanswered, hset, hchecked, hselected, hfails, hquiet⟩ :
      ((machine externals).step polling
        (.reply 0 (blocksReply 1 [spending, deposit]))).isSome = true ∧
      twoStored.canister.custodianPrincipal = some custodian ∧
      (authenticate externals twoStored.canister custodian).isOk = true ∧
      (selectedEntries twoStored.canister .sweep).map Prod.fst = [1, 2] ∧
      last.value.map (·.isOk) = some false ∧ transfersOf last.events = [] := by
    decide +kernel
  have hallowed : twoStored.runs externals (.call custodian .sweep) = some .sweep :=
    runs_of_authenticated hchecked
  obtain ⟨e, he⟩ : ∃ e, last.value = some (.error e) := by
    match hvalue : last.value with
    | none | some (.ok _) => simp [hvalue, Except.isOk, Except.toBool] at hfails
    | some (.error e) => exact ⟨e, rfl⟩
  have hcompletes := (completes_iff (fun _ => .ok 7) hallowed (selection_eq rfl)).mpr
    ⟨he.symm, rfl, rfl⟩
  refine ⟨⟨start, _, start_installed,
    (Lib.Machine.Run.nil.step trivial polling_step).next trivial hanswered⟩, hset, hselected,
    _, _, e, hcompletes, hquiet, fun handled => ?_⟩
  obtain ⟨lines, hlines, -⟩ := handled.reported
  cases hlines

end SubaccountIndexer.WholeSweep
