import SubaccountIndexer.Backlog
import SubaccountIndexer.CatchUp
import SubaccountIndexer.WellFormed

/-! The way of a deposit from its ledger to the custodian. A canister with nothing left to sweep
polls a ledger up to its height and then sweeps as often as it has polled; if the ledger carries
the transfers out, every deposit has been paid to the custodian, once, and is swept. -/

namespace SubaccountIndexer.Forwarding
open CatchUp (Chain Scannable Round Rounds CaughtUp rounds_caughtUp rounds_exist)
open Backlog (backlog SweepCalls Drained backlog_sorted drained_calls mem_backlog runs_transactions
  sweepCalls_exist)
open Custody (Draws ToCustodian sweepCall_draws)

variable (E : Externals)

/-- Every block of the ledger from `low` on that concerns a subaccount is a deposit whose record
is not too long for the store. -/
def OnlyDeposits (chain : Chain) (t : TokenType) (p : Principal) (c : Canister) (low : Nat) : Prop :=
  ∀ i, low ≤ i → i < chain.height → (chain.block i).relevant E c.listOfSubaccounts = true →
    Deposit E c (chain.block i) ∧ (chain.block i).tooLong E t p = false

/-- Block `i` has been paid to the custodian, once, out of the subaccount it went to, and its
record is swept. -/
def Forwarded (chain : Chain) (t : TokenType) (p : Principal) (c : Canister) (i : Nat)
    (os : List Event) (store : Transactions) : Prop :=
  ∃ hash tx, tx = (chain.block i).record (UInt64.ofNat i) hash t p ∧
    store[UInt64.ofNat i]? = some (tx.withStatus .swept) ∧ (transfersOf os).count tx = 1 ∧
      ∃ call data nonce, .transfer tx call ∈ os ∧ ToCustodian E c call ∧ Draws E c tx data call nonce

/-- What sweeps in a row do, whatever they go over -/
structure Sweeps (c : Canister) (replies : Nat → Nat → Except String Nat) (os : List Event)
    (c' : Canister) : Prop where
  frame : c' = { c with transactions := c'.transactions }
  pays : ∀ tx call, .transfer tx call ∈ os → sweepCall E c tx = .ok call
  replied : ∀ a ∈ repliesOf os, ∃ i j, a.2 = replies i j

variable {E} {chain : Chain} {t : TokenType} {p : Principal} {c c' c'' c₀ : Canister} {n : Nat}
  {σ σ' σ'' : System} {os os' : List Event} {caller : Principal} {method : Method}
  {tx : StoredTransactions} {call : TransferCall}

/-! ## Deposits -/

theorem deposit_isTransfer {b : Block} (h : Deposit E c b) : b.isTransfer = true := by
  obtain ⟨subaccount, data, -, hoperation, -⟩ := h
  simp [Block.isTransfer, hoperation, Operation.isTransfer]

/-- Deposits make no poll panic. -/
theorem OnlyDeposits.scannable {low : Nat} (h : OnlyDeposits E chain t p c low) (i : Nat)
    (from_low : low ≤ i) (below : i < chain.height) : Scannable E chain t p c i where
  transfer := by
    unfold Block.panics
    cases hrelevant : (chain.block i).relevant E c.listOfSubaccounts with
    | false => rfl
    | true => simp [deposit_isTransfer (h i from_low below hrelevant).1]
  short relevant _ := (h i from_low below relevant).2

/-! ## Sweeps in a row -/

theorem sweepLoop_pays {results : List String} {txs : List StoredTransactions}
    {replies : Nat → Except String Nat}
    (mem : .transfer tx call ∈ (sweepLoop E c results txs replies).events) :
    sweepCall E c tx = .ok call := by
  induction txs generalizing c results replies with
  | nil => cases mem
  | cons head rest ih =>
    cases hcall : sweepCall E c head with
    | error e => simp [sweepLoop, hcall] at mem
    | ok built =>
      by_cases hfits : head.Fits
      · simp only [sweepLoop, hcall, if_pos hfits, List.mem_append, List.mem_cons,
          List.not_mem_nil, reduceCtorEq, or_false, Event.transfer.injEq] at mem
        rcases mem with ⟨rfl, rfl⟩ | hlater
        · exact hcall
        · -- the status write has left alone what a transfer is built from
          have hpaid := ih hlater
          exact hpaid
      · simp only [sweepLoop, hcall, if_neg hfits, List.mem_cons, List.not_mem_nil, reduceCtorEq,
          or_false, Event.transfer.injEq] at mem
        obtain ⟨rfl, rfl⟩ := mem
        exact hcall

theorem answered_replied {txs : List StoredTransactions} {replies : Nat → Except String Nat}
    {a : StoredTransactions × Except String Nat} (mem : a ∈ answered E c txs replies) :
    ∃ j, a.2 = replies j := by
  obtain ⟨j, hj, rfl⟩ := List.mem_mapIdx.mp mem
  exact ⟨j, rfl⟩

theorem sweeps_of_calls {replies : Nat → Nat → Except String Nat} {k : Nat}
    (batch : method.isBatch = true) (allowed : σ.runs E (.call caller method) = some method)
    (calls : SweepCalls E caller method replies σ k os σ') :
    Sweeps E σ.canister replies os σ'.canister := by
  induction calls with
  | zero => exact ⟨rfl, fun _ _ hmem => absurd hmem List.not_mem_nil, by simp [repliesOf]⟩
  | @succ k os os' σ' σ'' result before call ih =>
    have hallowed : σ'.runs E (.call caller method) = some method := by
      have hruns := runs_transactions σ'.canister.transactions σ'.tasks allowed
      rwa [← ih.frame] at hruns
    obtain ⟨-, rfl, rfl⟩ :=
      (completes_iff (replies k) hallowed (WholeSweep.selection_eq batch)).mp call
    have hloop := sweepLoop_looped (E := E) σ'.canister []
      (List.map Prod.snd (WholeSweep.selectedEntries σ'.canister method)) (replies k)
    constructor
    · rw [hloop.canister, ih.frame]
    · intro tx call hmem
      rcases List.mem_append.mp hmem with hmem | hmem
      · exact ih.pays tx call hmem
      · have hpaid := sweepLoop_pays hmem
        rw [ih.frame] at hpaid
        exact hpaid
    · intro a ha
      rw [Backlog.repliesOf_append, List.mem_append] at ha
      rcases ha with ha | ha
      · exact ih.replied a ha
      · rw [hloop.replied] at ha
        obtain ⟨j, hj⟩ := answered_replied ha
        exact ⟨k, j, hj⟩

/-! ## What the rounds leave for the sweeps -/

theorem length_le_of_sorted {l : List StoredTransactions} (low high : Nat)
    (sorted : l.Pairwise fun a b => a.index < b.index)
    (within : ∀ tx ∈ l, low ≤ tx.index.toNat ∧ tx.index.toNat < high) : l.length ≤ high - low := by
  have hdistinct : (l.map fun tx => tx.index.toNat).Nodup :=
    List.pairwise_map.mpr (sorted.imp fun hlt heq => absurd (UInt64.lt_iff_toNat_lt.mp hlt) (by omega))
  have hsubset : (l.map fun tx => tx.index.toNat) ⊆ List.range' low (high - low) := by
    intro index hmem
    obtain ⟨tx, htx, rfl⟩ := List.mem_map.mp hmem
    have hwithin := within tx htx
    exact List.mem_range'_1.mpr ⟨hwithin.1, by omega⟩
  simpa using (hdistinct.subperm hsubset).length_le

/-- What rounds have added is what there is to sweep, if nothing was. -/
theorem mem_backlog_caughtUp (h : CaughtUp E chain t p c₀ n c) (keyed : Keyed c.transactions)
    (keyed₀ : Keyed c₀.transactions) (done : backlog c₀ .sweep = []) (mem : tx ∈ backlog c .sweep) :
    ∃ i hash, (c₀.getTokenNextBlock t).toNat ≤ i ∧ i < n ∧
      (chain.block i).relevant E c₀.listOfSubaccounts = true ∧
      tx = (chain.block i).record (UInt64.ofNat i) hash t p := by
  obtain ⟨hheld, hunswept⟩ := (mem_backlog keyed).mp mem
  rcases h.origin _ _ hheld with hold | ⟨i, hash, low, high, hindex, hrelevant, hrecord⟩
  · have hbefore := (mem_backlog keyed₀).mpr ⟨hold, hunswept⟩
    rw [done] at hbefore
    cases hbefore
  · exact ⟨i, hash, low, high, hrelevant, hindex ▸ hrecord⟩

theorem reachable_round (reachable : Reachable E σ) (round : Round E chain t p σ σ') :
    Reachable E σ' := by
  cases round with
  | returned tick _ _ _ fires _ => exact (reachable.step tick).step fires
  | announced tick _ _ _ fires _ ends => exact ((reachable.step tick).step fires).step ends

/-- What there is to sweep after rounds can be written back. -/
theorem backlog_fits {k : Nat} (reachable : Reachable E σ) (rounds : Rounds E chain t p σ k σ') :
    ∀ tx ∈ backlog σ'.canister .sweep, tx.Fits := by
  have hreachable : Reachable E σ' := by
    induction rounds with
    | zero => exact reachable
    | succ _ round ih => exact reachable_round ih round
  obtain ⟨hwell, -⟩ := reachable_wellFormed hreachable
  exact fun tx htx => hwell.fits tx.index tx ((mem_backlog hwell.keyed).mp htx).1

theorem keyed_caughtUp (h : CaughtUp E chain t p c₀ n c) (keyed : Keyed c₀.transactions) :
    Keyed c.transactions := by
  intro k tx hheld
  rcases h.origin k tx hheld with hold | ⟨i, hash, -, -, -, -, rfl⟩
  · exact keyed k tx hold
  · rfl

/-- Rounds change nothing that the caller check looks at. -/
theorem runs_caughtUp (h : CaughtUp E chain t p σ.canister n c) (tasks : List Task)
    (allowed : σ.runs E (.call caller method) = some method) :
    System.runs E ⟨c, tasks⟩ (.call caller method) = some method := by
  rw [h.frame]
  refine System.runs_same E allowed ?_ ?_ ?_ tasks <;> rfl

/-- The deposits that rounds have recorded can be transferred. -/
theorem buildable_caughtUp (h : CaughtUp E chain t p c₀ n c) (keyed : Keyed c.transactions)
    (keyed₀ : Keyed c₀.transactions) (below : n ≤ chain.height) (done : backlog c₀ .sweep = [])
    (deposits : OnlyDeposits E chain t p c₀ (c₀.getTokenNextBlock t).toNat)
    (set : c₀.custodianPrincipal ≠ none) (mem : tx ∈ backlog c .sweep) :
    (sweepCall E c tx).isOk = true := by
  obtain ⟨i, hash, low, high, hrelevant, rfl⟩ := mem_backlog_caughtUp h keyed keyed₀ done mem
  obtain ⟨⟨subaccount, data, hregistered, hoperation, hrecipient⟩, -⟩ :=
    deposits i low (by omega) hrelevant
  obtain ⟨custodian, hcustodian⟩ := Option.ne_none_iff_exists'.mp set
  have hregistered' : c.Registered E subaccount := by rw [h.frame]; exact hregistered
  have hcustodian' : c.custodianPrincipal = some custodian := by rw [h.frame]; exact hcustodian
  have hoperation' : ((chain.block i).record (UInt64.ofNat i) hash t p).operation = _ := hoperation
  obtain ⟨call, hcall, -⟩ := sweepCall_registered hoperation' hrecipient hregistered' hcustodian'
  rw [hcall]
  rfl

/-- Rounds up to the height of the ledger leave no more to sweep than as many sweeps can get
through. -/
theorem backlog_length_caughtUp {k : Nat} (h : CaughtUp E chain t p c₀ chain.height c)
    (keyed : Keyed c.transactions) (keyed₀ : Keyed c₀.transactions)
    (done : backlog c₀ .sweep = []) (fits : chain.height < 2 ^ 64)
    (enough : chain.height ≤ (c₀.getTokenNextBlock t).toNat + 100 * k) :
    (backlog c .sweep).length ≤ 100 * k := by
  have hle := length_le_of_sorted (c₀.getTokenNextBlock t).toNat chain.height
    (backlog_sorted .sweep keyed) fun tx htx => by
      obtain ⟨i, hash, low, high, -, rfl⟩ := mem_backlog_caughtUp h keyed keyed₀ done htx
      have hindex : (UInt64.ofNat i).toNat = i := by rw [UInt64.toNat_ofNat']; omega
      exact ⟨by rw [← hindex] at low; exact low, by rw [← hindex] at high; exact high⟩
  omega

/-- A record that sweeps go over with a transfer is swept if the ledger carries out every one. -/
theorem swept_of_drained {blocks : Nat → Nat → Nat} (drained : Drained c method n os c')
    (sweeps : Sweeps E c (fun i j => .ok (blocks i j)) os c') (paid : tx ∈ transfersOf os) :
    c'.transactions[tx.index]? = some (tx.withStatus .swept) := by
  rw [← drained.replied] at paid
  obtain ⟨a, ha, heq⟩ := List.mem_map.mp paid
  obtain ⟨round, j, hreply⟩ := sweeps.replied a ha
  have hstatus := drained.status a ha
  rw [hreply, heq] at hstatus
  exact hstatus

/-! ## The way of a deposit -/

theorem exists_call_of_transfersOf (mem : tx ∈ transfersOf os) : ∃ call, .transfer tx call ∈ os := by
  obtain ⟨e, he, htx⟩ := List.mem_filterMap.mp mem
  split at htx
  · rename_i call
    cases htx
    exact ⟨call, he⟩
  · cases htx

/-- From a reachable state with nothing left to sweep: after rounds up to the height of an honest
ledger whose blocks for the subaccounts are deposits with free keys, and as many sweeps whose
transfers are all carried out, each of the deposits is forwarded, nothing else is, and nothing is
left to sweep. Such rounds and sweeps can be had. -/
theorem deposits_forwarded (E : Externals) (chain : Chain) {t : TokenType} {p : Principal}
    {caller : Principal} {σ : System} {k : Nat} (blocks : Nat → Nat → Nat)
    (reachable : Reachable E σ) (polled : PolledOn σ.canister t p)
    (allowed : σ.runs E (.call caller .sweep) = some .sweep) (done : backlog σ.canister .sweep = [])
    (fits : chain.height < 2 ^ 64) (below : (σ.canister.getTokenNextBlock t).toNat ≤ chain.height)
    (enough : chain.height ≤ (σ.canister.getTokenNextBlock t).toNat + 100 * k)
    (free : ∀ i, (σ.canister.getTokenNextBlock t).toNat ≤ i → i < chain.height →
      (chain.block i).relevant E σ.canister.listOfSubaccounts = true →
        σ.canister.transactions[UInt64.ofNat i]? = none)
    (answers : ∀ next : UInt64, ∃ reply, chain.Answers E p next reply)
    (deposits : OnlyDeposits E chain t p σ.canister (σ.canister.getTokenNextBlock t).toNat) :
    (∃ σ' σ'' os, Rounds E chain t p σ k σ' ∧
      SweepCalls E caller .sweep (fun i j => .ok (blocks i j)) σ' k os σ'') ∧
    ∀ σ' σ'' os, Rounds E chain t p σ k σ' →
      SweepCalls E caller .sweep (fun i j => .ok (blocks i j)) σ' k os σ'' →
      (∀ i, (σ.canister.getTokenNextBlock t).toNat ≤ i → i < chain.height →
        (chain.block i).relevant E σ.canister.listOfSubaccounts = true →
          Forwarded E chain t p σ.canister i os σ''.canister.transactions) ∧
      (∀ tx ∈ transfersOf os, ∃ i hash, (σ.canister.getTokenNextBlock t).toNat ≤ i ∧
        i < chain.height ∧ (chain.block i).relevant E σ.canister.listOfSubaccounts = true ∧
          tx = (chain.block i).record (UInt64.ofNat i) hash t p) ∧
      backlog σ''.canister .sweep = [] := by
  obtain ⟨hwell, -⟩ := reachable_wellFormed reachable
  have hcaught : ∀ σ', Rounds E chain t p σ k σ' →
      CaughtUp E chain t p σ.canister chain.height σ'.canister := by
    intro σ' hrounds
    have hcome := rounds_caughtUp fits below hrounds
    rwa [Nat.min_eq_right enough] at hcome
  constructor
  · obtain ⟨σ', hrounds⟩ := rounds_exist (by rw [hwell.settled.timer]; nofun) polled
      fits below answers deposits.scannable k
    have hallowed := runs_caughtUp (hcaught σ' hrounds) σ'.tasks allowed
    obtain ⟨os, σ'', hcalls, -⟩ := sweepCalls_exist (σ := σ') rfl hallowed
      (fun i j => .ok (blocks i j)) k
    exact ⟨σ', σ'', os, hrounds, hcalls⟩
  · intro σ' σ'' os hrounds hcalls
    have hcome := hcaught σ' hrounds
    have hkeyed := keyed_caughtUp hcome hwell.keyed
    have hallowed := runs_caughtUp hcome σ'.tasks allowed
    have hbuildable : ∀ tx ∈ backlog σ'.canister .sweep, (sweepCall E σ'.canister tx).isOk = true :=
      fun tx htx => buildable_caughtUp hcome hkeyed hwell.keyed (Nat.le_refl _) done deposits
        hwell.custodian htx
    -- the backlog is no longer than the rounds are, so the sweeps get through it
    have hlength : (backlog σ'.canister .sweep).length - 100 * k = 0 :=
      Nat.sub_eq_zero_of_le (backlog_length_caughtUp hcome hkeyed hwell.keyed done fits enough)
    obtain ⟨hdrained, -⟩ := drained_calls hkeyed rfl hallowed hbuildable
      (fun tx htx => backlog_fits reachable hrounds tx (List.mem_of_mem_drop htx)) hcalls
    rw [hlength] at hdrained
    have hsweeps := sweeps_of_calls rfl hallowed hcalls
    have htransfers := hdrained.transfers
    rw [List.drop_zero] at htransfers
    refine ⟨?_, fun tx htx => ?_, ?_⟩
    · intro i low high hrelevant
      obtain ⟨hash, hheld⟩ := hcome.recorded i low high hrelevant (free i low high hrelevant)
      have hmem : (chain.block i).record (UInt64.ofNat i) hash t p ∈ backlog σ'.canister .sweep :=
        (mem_backlog hkeyed).mpr ⟨hheld, rfl⟩
      have hpaid := htransfers.mem_iff.mpr hmem
      obtain ⟨call, hcall⟩ := exists_call_of_transfersOf hpaid
      have hbuilt := hsweeps.pays _ _ hcall
      rw [hcome.frame] at hbuilt
      obtain ⟨hto, data, nonce, hdraws⟩ := sweepCall_draws (c := σ.canister) hwell.numbered hbuilt
      refine ⟨hash, _, rfl, ?_, ?_, call, data, nonce, hcall, hto, hdraws⟩
      · exact swept_of_drained hdrained hsweeps hpaid
      · rw [htransfers.count_eq]
        refine List.count_eq_one_of_mem ((backlog_sorted .sweep hkeyed).imp fun hlt heq => ?_) hmem
        exact absurd (heq ▸ hlt) (UInt64.lt_irrefl _)
    · exact mem_backlog_caughtUp hcome hkeyed hwell.keyed done (htransfers.mem_iff.mp htx)
    · rw [hdrained.backlog, List.take_zero]

open Examples CatchUp

theorem start_deposit : Deposit externals start.canister deposit :=
  ⟨subaccount1, _, registered_of_listed (by decide +kernel), rfl, by decide +kernel⟩

theorem deposits_forwarded_start :
    ∃ σ' σ'' os, Rounds externals CatchUp.deposits .icp MAINNET_LEDGER_CANISTER_ID start 2 σ' ∧
      SweepCalls externals custodian .sweep (fun _ _ => .ok 7) σ' 2 os σ'' ∧
      Forwarded externals CatchUp.deposits .icp MAINNET_LEDGER_CANISTER_ID start.canister 149 os
        σ''.canister.transactions := by
  have hempty : start.canister.transactions = ∅ := rfl
  obtain ⟨⟨σ', σ'', os, hrounds, hcalls⟩, hforwards⟩ :=
    @deposits_forwarded externals CatchUp.deposits .icp MAINNET_LEDGER_CANISTER_ID custodian start 2
      (fun _ _ => 7) ⟨start, [], start_installed, .nil⟩ start_polled
      (WholeSweep.runs_of_authenticated (by decide +kernel)) (by decide +kernel) (by decide)
      (by decide +kernel) (by decide +kernel) (fun i _ _ _ => by rw [hempty]; simp) deposits_answers
      (fun i _ _ hrelevant => ⟨start_deposit, (deposits_scannable i).short hrelevant (by
        rw [hempty]
        simp)⟩)
  exact ⟨σ', σ'', os, hrounds, hcalls, (hforwards σ' σ'' os hrounds hcalls).1 149
    (by decide +kernel) (by decide) (by decide +kernel)⟩

end SubaccountIndexer.Forwarding
