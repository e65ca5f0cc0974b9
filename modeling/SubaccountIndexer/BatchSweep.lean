import SubaccountIndexer.Attempts
import SubaccountIndexer.Lib.Once

/-! Batch sweeps that overlap. Each goes over copies of the records that were not swept when it
started, and nothing marks a record while its transfer is awaited: a second sweep that starts
then copies it again. If every sweep starts with records no other is attempting, no record
is paid twice. -/

namespace SubaccountIndexer.BatchSweep

variable (E : Externals)

/-- Calls of `sweep` and `sweep_by_token_type`, at any time, and the answers of the ledgers -/
def Batches (_ : System) : Input → Prop
  | .call _ method => method.isBatch = true
  | .reply _ (.transfer _) => True
  | _ => False

/-- Such inputs, where no sweep attempts a record that one in flight attempts -/
structure Apart (σ : System) (i : Input) : Prop where
  batches : Batches σ i
  apart : ∀ method, σ.runs E i = some method → ∀ tx ∈ method.attempts E σ.canister,
    ∀ tx' ∈ σ.attempts E, tx.index ≠ tx'.index

/-- The keys a batch sweep passes over -/
def Settled (σ : System) : Set UInt64 := fun k =>
  ∃ e, σ.canister.transactions[k]? = some e ∧ e.sweepStatus ≠ .notSwept

variable {E} {σ σ' : System} {i : Input} {os : List Event} {c : Canister}

/-- A batch sweep attempts records that are not swept. -/
theorem attempts_notSwept {method : Method} (batch : method.isBatch = true) :
    ∀ tx ∈ method.attempts E c, tx.sweepStatus = .notSwept := by
  intro tx htx
  cases method with
  | sweep =>
    have hmem := (lastTransactions_sublist _ _).subset ((attempted_sublist c _).subset htx)
    simpa using mem_storedWhere hmem
  | sweepByTokenType t =>
    have hmem := (lastTransactions_sublist _ _).subset ((attempted_sublist c _).subset htx)
    have hstatus := mem_storedWhere hmem
    simp only [Bool.and_eq_true, beq_iff_eq] at hstatus
    exact hstatus.1
  | _ => cases batch

theorem Apart.payInput (h : Apart E σ i) : PayInput E (· = .notSwept) σ i where
  input := by
    have hbatches := h.batches
    cases i with
    | call caller method => cases method <;> first | rfl | exact absurd hbatches Bool.false_ne_true
    | reply n reply => cases reply <;> trivial
    | _ => exact absurd hbatches id
  status method hruns := by
    have hbatches := h.batches
    cases i with
    | call caller method' => rw [System.runs_call E hruns]; exact attempts_notSwept hbatches
    | _ => cases hruns
  apart := h.apart

theorem once_step {seen : List Event} (exclusive : Exclusive E (· = .notSwept) σ)
    (once : Lib.Once (seen.filterMap Event.success) (Settled σ)) (apart : Apart E σ i)
    (h : Fires E σ i σ' os) :
    Exclusive E (· = .notSwept) σ' ∧
      Lib.Once ((seen ++ os).filterMap Event.success) (Settled σ') := by
  have hstep := payStep exclusive apart.payInput h
  refine ⟨hstep.exclusive, ?_⟩
  have hkeep : ∀ k ∈ seen.filterMap Event.success, k ∈ Settled σ → k ∈ Settled σ' := by
    intro k hfree settled
    obtain ⟨e, hheld, hstatus⟩ := settled
    exact ⟨e, hstep.kept k e hheld hstatus, hstatus⟩
  rw [List.filterMap_append]
  rcases hstep.successes with hnone | ⟨tx, hmem, hone, hswept⟩
  · rw [hnone, List.append_nil]
    exact once.reblock hkeep
  · rw [hone]
    refine once.deliver (List.nodup_singleton _) ?_ hkeep ?_
    · intro k hk settled
      obtain ⟨e, hheld, hstatus⟩ := settled
      obtain rfl := List.mem_singleton.mp hk
      obtain ⟨hstored, hnot⟩ := exclusive.held tx hmem
      obtain rfl : tx = e := Option.some.inj (hstored.symm.trans hheld)
      exact hstatus hnot
    · intro k hk
      obtain rfl := List.mem_singleton.mp hk
      exact ⟨_, hswept, by simp⟩

/-- If every batch sweep starts with records that no sweep in flight attempts, then, however
the sweeps interleave, the ledgers carry out at most one transfer for a record. -/
theorem each_swept_once {σ₀ : System} (reachable : Reachable E σ₀)
    (idle : ∀ tx, ¬ σ₀.Pending tx) (run : (machine E).Run (Apart E) σ₀ os σ) :
    (os.filterMap Event.success).Nodup := by
  have hrun := run.history
    (P := fun σ os => Exclusive E (· = .notSwept) σ ∧
      Lib.Once (os.filterMap Event.success) (Settled σ))
    ⟨exclusive_idle (reachable_keyed reachable) idle, .nil _⟩ ?_
  · exact hrun.2.nodup
  · intro s seen j s' new ⟨hexclusive, honce⟩ hapart hfires
    exact once_step hexclusive honce hapart (fires_of_step E hfires)

/-! One sweep after another, and two that overlap. -/

open Examples

theorem apart_sweep {caller : Principal}
    (apart : ∀ tx ∈ Method.attempts E σ.canister .sweep, ∀ tx' ∈ σ.attempts E,
      tx.index ≠ tx'.index) : Apart E σ (.call caller .sweep) :=
  ⟨rfl, fun method h => by rw [System.runs_call E h]; exact apart⟩

theorem apart_reply {n : Nat} {result : Except String Nat} :
    Apart E σ (.reply n (.transfer result)) := ⟨trivial, fun _ h => nomatch h⟩

abbrev sweepNow : Input := .call custodian .sweep

theorem each_swept_once_sweeps :
    (((machine externals).emitted depositStored sweepNow ++
      (machine externals).emitted sweeping (transferred 1) ++
      (machine externals).emitted swept sweepNow).filterMap Event.success).Nodup := by
  obtain ⟨hfirst, hstarts, hpaid, hsecond, hagain⟩ :
      (∀ tx ∈ Method.attempts externals depositStored.canister .sweep,
        ∀ tx' ∈ depositStored.attempts externals, tx.index ≠ tx'.index) ∧
      ((machine externals).step depositStored sweepNow).isSome = true ∧
      ((machine externals).step sweeping (transferred 1)).isSome = true ∧
      (∀ tx ∈ Method.attempts externals swept.canister .sweep,
        ∀ tx' ∈ swept.attempts externals, tx.index ≠ tx'.index) ∧
      ((machine externals).step swept sweepNow).isSome = true := by decide +kernel
  exact each_swept_once depositStored_reachable depositStored_idle
    (((Lib.Machine.Run.nil.next (apart_sweep hfirst) hstarts).next apart_reply hpaid).next
      (apart_sweep hsecond) hagain)

/-- A canister of the main network, where every caller is checked -/
def guarded : System :=
  ⟨{ installed with network := .mainnet, connectedNetwork := .mainnet }, []⟩

theorem guarded_installed : Installed externals guarded := by
  refine installed_of_init issuedSubaccounts_eq
    (show init externals .mainnet 500 2 "ryjl3-tyaaa-aaaaa-aaaba-cai"
      "ryjl3-tyaaa-aaaaa-aaaba-cai" = _ from rfl)

def guardedPolling : System := ⟨guarded.canister, [.poll .icp MAINNET_LEDGER_CANISTER_ID 1]⟩

abbrev guardedStored : System := (machine externals).after guardedPolling (icpAnswer 0)

abbrev oneSweep : System := (machine externals).after guardedStored sweepNow

abbrev twoSweeps : System := (machine externals).after oneSweep sweepNow

abbrev firstPaid : System := (machine externals).after twoSweeps (transferred 1)

abbrev overlapEvents : List Event :=
  (machine externals).emitted guardedStored sweepNow ++
    (machine externals).emitted oneSweep sweepNow ++
    (machine externals).emitted twoSweeps (transferred 1) ++
    (machine externals).emitted firstPaid (transferred 2)

/-- The custodian starts a second sweep while the first awaits its transfer; the caller check
lets it in. Both issue a transfer for the deposit, and the ledger carries out both. -/
theorem deposit_swept_twice :
    Reachable externals guardedStored ∧ (∀ tx, ¬ guardedStored.Pending tx) ∧
      guardedStored.canister.transactions.toList = [(1, record)] ∧
      (machine externals).Run Batches guardedStored overlapEvents
        ((machine externals).after firstPaid (transferred 2)) ∧
      overlapEvents.filterMap Event.success = [1, 1] := by
  have timer : (machine externals).step guarded .timer = some (guardedPolling, []) := rfl
  have begin : (machine externals).Run Batches guardedStored [] guardedStored := .nil
  obtain ⟨hanswered, hidle, hstored, hone, htwo, hpaid, hpaidAgain, hsuccesses⟩ :
      ((machine externals).step guardedPolling (icpAnswer 0)).isSome = true ∧
      guardedStored.tasks.flatMap Task.pending = [] ∧
      guardedStored.canister.transactions.toList = [(1, record)] ∧
      ((machine externals).step guardedStored sweepNow).isSome = true ∧
      ((machine externals).step oneSweep sweepNow).isSome = true ∧
      ((machine externals).step twoSweeps (transferred 1)).isSome = true ∧
      ((machine externals).step firstPaid (transferred 2)).isSome = true ∧
      overlapEvents.filterMap Event.success = [1, 1] := by decide +kernel
  exact ⟨⟨guarded, _, guarded_installed,
    (Lib.Machine.Run.nil.step trivial timer).next trivial hanswered⟩, idle_of_empty hidle, hstored,
    (((begin.next (i := sweepNow) rfl hone).next (i := sweepNow) rfl htwo).next
      (i := transferred 1) trivial hpaid).next (i := transferred 2) trivial hpaidAgain,
    hsuccesses⟩

end SubaccountIndexer.BatchSweep
