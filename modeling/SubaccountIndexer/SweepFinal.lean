import SubaccountIndexer.Attempts

/-! Whether a swept record stays swept. `sweep` and `sweep_by_token_type` select records by
their status; `single_sweep` selects by hash and `refund` by index, and neither looks at the
status. While no call attempts a swept record, nothing more happens to one. -/

namespace SubaccountIndexer.SweepFinal

variable (E : Externals)

/-- Calls of the four methods, each when no other is in flight, and the answers of the
ledgers -/
def OneAtATime (σ : System) : Input → Prop
  | .call _ method => method.pays = true ∧ ∀ tx, ¬ σ.Pending tx
  | .reply _ (.transfer _) => True
  | _ => False

/-- Such inputs, where no call attempts a record that is swept -/
structure SparesSwept (σ : System) (i : Input) : Prop where
  single : OneAtATime σ i
  spares : ∀ method, σ.runs E i = some method → ∀ tx ∈ method.attempts E σ.canister,
    tx.sweepStatus ≠ .swept

variable {E} {σ σ' : System} {i : Input} {os os' : List Event}

theorem SparesSwept.payInput (h : SparesSwept E σ i) : PayInput E (· ≠ .swept) σ i where
  input := by
    have hsingle := h.single
    cases i with
    | call caller method => exact hsingle.1
    | reply n reply => cases reply <;> trivial
    | _ => exact absurd hsingle id
  status := h.spares
  apart method hruns tx _ tx' htx' := by
    have hsingle := h.single
    cases i with
    | call caller method => exact absurd (attempts_pending htx') (hsingle.2 tx')
    | _ => cases hruns

/-- While no call attempts a swept record, a swept record is paid no more, and stays as it
is. -/
theorem swept_final {σ₀ : System} (reachable : Reachable E σ₀) (idle : ∀ tx, ¬ σ₀.Pending tx)
    (run : (machine E).Run (SparesSwept E) σ₀ os σ) {k : UInt64} {e : StoredTransactions}
    (held : σ.canister.transactions[k]? = some e) (swept : e.sweepStatus = .swept)
    (later : (machine E).Run (SparesSwept E) σ os' σ') :
    (∀ tx call, .transfer tx call ∈ os' → tx.index ≠ k) ∧
      σ'.canister.transactions[k]? = some e := by
  have hstart := run.invariant (P := Exclusive E (· ≠ .swept))
    (exclusive_idle (reachable_keyed reachable) idle) fun s j s' new hs hspares hfires =>
      (payStep hs hspares.payInput (fires_of_step E hfires)).exclusive
  have hrun := later.emits
    (P := fun σ => Exclusive E (· ≠ .swept) σ ∧ σ.canister.transactions[k]? = some e)
    (Q := fun o => ∀ tx call, o = .transfer tx call → tx.index ≠ k) ⟨hstart, held⟩ ?_
  · exact ⟨fun tx call he => hrun.2 _ he tx call rfl, hrun.1.2⟩
  · intro s j s' new hinv hspares hfires
    obtain ⟨hs, hheld⟩ := hinv
    have hstep := payStep hs hspares.payInput (fires_of_step E hfires)
    have hkept := hstep.kept k e hheld (not_not.mpr swept)
    refine ⟨⟨hstep.exclusive, hkept⟩, ?_⟩
    rintro o ho tx call rfl rfl
    obtain ⟨hstored, hstatus⟩ := hstep.exclusive.held tx (hstep.transfers tx call ho)
    obtain rfl : e = tx := Option.some.inj (hkept.symm.trans hstored)
    exact hstatus swept

/-! A second sweep, which finds nothing to do, and a `single_sweep` of a swept record. -/

open Examples

theorem sparesSwept_sweep {caller : Principal} (idle : σ.tasks.flatMap Task.pending = [])
    (spares : ∀ tx ∈ Method.attempts E σ.canister .sweep, tx.sweepStatus ≠ .swept) :
    SparesSwept E σ (.call caller .sweep) :=
  ⟨⟨rfl, idle_of_empty idle⟩, fun method h => by rw [System.runs_call E h]; exact spares⟩

theorem sparesSwept_reply {n : Nat} {result : Except String Nat} :
    SparesSwept E σ (.reply n (.transfer result)) :=
  ⟨trivial, fun _ h => nomatch h⟩

abbrev sweptEvents : List Event :=
  (machine externals).emitted depositStored (.call custodian .sweep) ++
    (machine externals).emitted sweeping (transferred 1)

theorem swept_run : (machine externals).Run (SparesSwept externals) depositStored sweptEvents
    swept := by
  obtain ⟨hidle, hspares, hstarts, hends⟩ :
      depositStored.tasks.flatMap Task.pending = [] ∧
      (∀ tx ∈ Method.attempts externals depositStored.canister .sweep, tx.sweepStatus ≠ .swept) ∧
      ((machine externals).step depositStored (.call custodian .sweep)).isSome = true ∧
      ((machine externals).step sweeping (transferred 1)).isSome = true := by decide +kernel
  exact (Lib.Machine.Run.nil.next (sparesSwept_sweep hidle hspares) hstarts).next
    sparesSwept_reply hends

theorem swept_stored : swept.canister.transactions.toList = [(1, record.withStatus .swept)] := by
  decide +kernel

theorem swept_final_sweep :
    (∀ tx call, .transfer tx call ∈ (machine externals).emitted swept (.call custodian .sweep) →
        tx.index ≠ 1) ∧
      ((machine externals).after swept (.call custodian .sweep)).canister.transactions[
        (1 : UInt64)]? = some (record.withStatus .swept) := by
  have later : (machine externals).Run (SparesSwept externals) swept
      ((machine externals).emitted swept (.call custodian .sweep))
      ((machine externals).after swept (.call custodian .sweep)) := by
    obtain ⟨hidle, hspares, hstarts⟩ :
        swept.tasks.flatMap Task.pending = [] ∧
        (∀ tx ∈ Method.attempts externals swept.canister .sweep, tx.sweepStatus ≠ .swept) ∧
        ((machine externals).step swept (.call custodian .sweep)).isSome = true := by
      decide +kernel
    exact Lib.Machine.Run.nil.next (sparesSwept_sweep hidle hspares) hstarts
  exact swept_final depositStored_reachable depositStored_idle swept_run
    (Std.ExtTreeMap.mem_toList_iff_getElem?_eq_some.mp (by simp [swept_stored])) rfl later

abbrev singleSweep : Input := .call custodian (.singleSweep record.txHash)

abbrev paidAgain : System := (machine externals).after swept singleSweep

/-- The ledger refuses the transfer: the subaccount is empty by now. -/
abbrev refused : Input :=
  .reply 2 (.transfer (.error "InsufficientFunds \x7b balance: Tokens \x7b e8s: 0 \x7d \x7d"))

/-- `single_sweep` issues a second transfer for a swept record, and when the ledger refuses it
the record is marked as failed. -/
theorem swept_record_paid_again :
    Reachable externals depositStored ∧ (∀ tx, ¬ depositStored.Pending tx) ∧
      (machine externals).Run OneAtATime depositStored sweptEvents swept ∧
      swept.canister.transactions.toList = [(1, record.withStatus .swept)] ∧
      (machine externals).Run OneAtATime swept
        ((machine externals).emitted swept singleSweep ++
          (machine externals).emitted paidAgain refused)
        ((machine externals).after paidAgain refused) ∧
      .transfer (record.withStatus .swept) depositCall ∈
        (machine externals).emitted swept singleSweep ∧
      ((machine externals).after paidAgain refused).canister.transactions.toList =
        [(1, record.withStatus .failedToSweep)] := by
  obtain ⟨hidle, hstarts, hends, hpays, hfailed⟩ :
      swept.tasks.flatMap Task.pending = [] ∧
      ((machine externals).step swept singleSweep).isSome = true ∧
      ((machine externals).step paidAgain refused).isSome = true ∧
      .transfer (record.withStatus .swept) depositCall ∈
        (machine externals).emitted swept singleSweep ∧
      ((machine externals).after paidAgain refused).canister.transactions.toList =
        [(1, record.withStatus .failedToSweep)] := by decide +kernel
  exact ⟨depositStored_reachable, depositStored_idle, swept_run.mono fun _ _ h => h.single,
    swept_stored, (Lib.Machine.Run.nil.next ⟨rfl, idle_of_empty hidle⟩ hstarts).next trivial hends,
    hpays, hfailed⟩

end SubaccountIndexer.SweepFinal
