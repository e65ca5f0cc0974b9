import SubaccountIndexer.Pending

/-! `update_status` writes back a copy that was taken before an await, and inserts it
whatever is under its key by then. Only `clear_transactions` can take a record away in
between. While it spares the records that messages in flight hold copies of, every
status goes to the record it is meant for. -/

namespace SubaccountIndexer.StatusWrite

variable (E : Externals)

/-- A `clear_transactions` that runs selects no record a message in flight holds a copy of. -/
def KeepsPending (σ : System) (i : Input) : Prop :=
  ∀ upToIndex upToTimestamp, σ.runs E i = some (.clearTransactions upToIndex upToTimestamp) →
    ∀ tx, σ.Pending tx → clearSelects (upToIndex.getD 0) (upToTimestamp.getD ⟨0⟩) tx = false

/-- Every copy held by a message in flight has its record in the store. -/
structure Grounded (σ : System) : Prop where
  keyed : Keyed σ.canister.transactions
  held : ∀ tx, σ.Pending tx → Holds σ.canister.transactions tx

/-- What a step may do to the records of a store -/
structure Rightful (store store' : Transactions) (os : List Event) : Prop where
  writes : ∀ e ∈ os, e.Rightful
  same : ∀ (k : UInt64) e e', store[k]? = some e → store'[k]? = some e' → e'.SameTransaction e

variable {E} {σ σ' : System} {i : Input} {os : List Event} {store store' : Transactions}

theorem rightful_of_journal (journal : StoreJournal store os store')
    (h : ∀ e ∈ os, e.Rightful ∧ e.isRemoval = false) :
    Rightful store store' os ∧ Kept store store' := by
  have hkept := kept_of_journal journal (fun e he => (h e he).1) fun e he => (h e he).2
  refine ⟨⟨fun e he => (h e he).1, fun k e e' hk hk' => ?_⟩, hkept⟩
  obtain ⟨e'', hk'', hsame⟩ := hkept k e hk
  obtain rfl : e' = e'' := Option.some.inj (hk'.symm.trans hk'')
  exact hsame

/-- Clearing replaces no record. -/
theorem clear_rightful (keyed : Keyed store) (upToIndex : Option UInt64)
    (upToTimestamp : Option Timestamp) :
    Rightful store (clearTransactions store upToIndex upToTimestamp).1
      (clearTransactions store upToIndex upToTimestamp).2 := by
  have hjournal := clearTransactions_journal keyed upToIndex upToTimestamp
  refine ⟨fun e he => ?_, fun k e e' hk hk' => ?_⟩
  · obtain ⟨tx, rfl, -⟩ := clearTransactions_events keyed he
    trivial
  · rcases hjournal.origin hk' with hold | ⟨j, hmem, -⟩ | ⟨tx, status, previous, hmem, -⟩
    · obtain rfl : e = e' := Option.some.inj (hk.symm.trans hold)
      exact .refl e
    · obtain ⟨tx, heq, -⟩ := clearTransactions_events keyed hmem
      cases heq
    · obtain ⟨tx, heq, -⟩ := clearTransactions_events keyed hmem
      cases heq

theorem selects_same {a b : StoredTransactions} (h : a.SameTransaction b) (n : UInt64)
    (t : Timestamp) : clearSelects n t a = clearSelects n t b := by
  simp only [clearSelects, h.index, h.createdAtTime]

/-- One step: its status writes are rightful, and every copy keeps its record. -/
theorem grounded_step (grounded : Grounded σ) (keeps : KeepsPending E σ i)
    (h : Fires E σ i σ' os) :
    Grounded σ' ∧ Rightful σ.canister.transactions σ'.canister.transactions os := by
  have hjournal := h.journal grounded.keyed
  have hkeyed := keyed_step grounded.keyed h
  -- the copies of the next state have their records in the current store
  have hheld : ∀ tx, σ'.Pending tx → Holds σ.canister.transactions tx := by
    intro tx hpending
    rcases h.pending grounded.keyed hpending with hold | ⟨hstored, -⟩
    · exact grounded.held tx hold
    · exact ⟨tx, hstored, .refl tx⟩
  have hquiet : (∀ e ∈ os, e.Rightful ∧ e.isRemoval = false) → Grounded σ' ∧
      Rightful σ.canister.transactions σ'.canister.transactions os := by
    intro hos
    obtain ⟨hrightful, hkept⟩ := rightful_of_journal hjournal hos
    exact ⟨⟨hkeyed, fun tx hpending => (hheld tx hpending).kept hkept⟩, hrightful⟩
  cases h with
  | timer | rejected | upgrade => exact hquiet (by simp)
  | callTraps => exact hquiet (by simp [Event.Rightful, Event.isRemoval])
  | reply waits resumes =>
    refine hquiet fun e he => ?_
    rcases List.mem_append.mp he with he | he
    · exact answeredBlocks_rightful _ _ e he
    · exact (resumes_of_ok E resumes).rightful
        (fun tx htx => grounded.held tx ⟨_, List.mem_of_getElem? waits, htx⟩) e he
  | replyTraps waits resumes =>
    refine hquiet fun e he => ?_
    rcases List.mem_append.mp he with he | he
    · exact answeredBlocks_rightful _ _ e he
    · obtain rfl := List.mem_singleton.mp he
      exact ⟨trivial, rfl⟩
  | @call caller method turn allowed runs =>
    rcases (ran_of_ok E runs).rightful grounded.keyed with hos | ⟨n, t, rfl, hstore, hevents⟩
    · exact hquiet hos
    · rw [hevents]
      refine ⟨⟨hkeyed, fun tx hpending => ?_⟩, hstore ▸ clear_rightful grounded.keyed n t⟩
      obtain ⟨e, he, hsame⟩ := hheld tx hpending
      refine ⟨e, ?_, hsame⟩
      simp only [hstore]
      refine clearTransactions_spares grounded.keyed he ?_
      rw [selects_same hsame]
      refine keeps n t allowed tx ?_
      obtain ⟨task, htask, hmem⟩ := hpending
      rcases List.mem_append.mp htask with htask | htask
      · exact ⟨task, htask, hmem⟩
      · obtain rfl := List.mem_singleton.mp htask
        cases runs
        simp [Task.pending] at hmem

/-- While no `clear_transactions` selects a record some message in flight holds a copy of, a
status is always written to a record of its own transaction, and no record is ever
replaced by one of another transaction. -/
theorem statuses_rightful {σ₀ : System} {os' : List Event} (installed : Installed E σ₀)
    (run : (machine E).Run (KeepsPending E) σ₀ os σ) (keeps : KeepsPending E σ i)
    (fires : (machine E).step σ i = some (σ', os')) :
    (∀ tx status previous, .statusWritten tx status previous ∈ os' →
      ∃ e, previous = some e ∧ e.SameTransaction tx) ∧
    ∀ (k : UInt64) e e', σ.canister.transactions[k]? = some e →
      σ'.canister.transactions[k]? = some e' → e'.SameTransaction e := by
  have hgrounded := run.invariant (P := Grounded) ?_ ?_
  · have hstep := (grounded_step hgrounded keeps (fires_of_step E fires)).2
    exact ⟨fun tx status previous he => hstep.writes _ he, hstep.same⟩
  · refine ⟨by rw [installed.canister.2.1]; exact keyed_empty, ?_⟩
    intro tx pending
    obtain ⟨task, htask, -⟩ := pending
    simp [installed.canister.1] at htask
  · intro s j s' os hs hkeeps hfires
    exact (grounded_step hs hkeeps (fires_of_step E hfires)).1

open Examples

theorem keepsPending_of_runs (h : ∀ n t, σ.runs E i ≠ some (.clearTransactions n t)) :
    KeepsPending E σ i := fun n t hruns => absurd hruns (h n t)

theorem statuses_rightful_sweep :
    .statusWritten record .swept (some record) ∈
        (machine externals).emitted sweeping (transferred 1) ∧
      ∀ tx status previous,
        .statusWritten tx status previous ∈ (machine externals).emitted sweeping (transferred 1) →
          ∃ e, previous = some e ∧ e.SameTransaction tx := by
  have run : (machine externals).Run (KeepsPending externals) start sweepingEvents sweeping :=
    sweeping_run (keepsPending_of_runs (by simp [System.runs]))
      (keepsPending_of_runs (by simp [System.runs]))
      (keepsPending_of_runs fun _ _ h => nomatch System.runs_call _ h)
  have answer : KeepsPending externals sweeping (transferred 1) :=
    keepsPending_of_runs (by simp [System.runs])
  obtain ⟨⟨σ', os'⟩, fires⟩ := Option.isSome_iff_exists.mp
    (show ((machine externals).step sweeping (transferred 1)).isSome = true by decide +kernel)
  have hsafe := (statuses_rightful start_installed run answer fires).1
  exact ⟨by decide +kernel, by simpa [Lib.Machine.emitted, fires] using hsafe⟩

/-- While a sweep waits, `clear_transactions` removes its record; the answer of the ledger
puts it back. -/
theorem cleared_record_returns :
    Reachable externals
        ((machine externals).after sweeping (.call custodian (.clearTransactions (some 1) none))) ∧
      ((machine externals).after sweeping
        (.call custodian (.clearTransactions (some 1) none))).canister.transactions = ∅ ∧
      .statusWritten record .swept none ∈ (machine externals).emitted
        ((machine externals).after sweeping (.call custodian (.clearTransactions (some 1) none)))
        (transferred 1) ∧
      ((machine externals).after ((machine externals).after sweeping
        (.call custodian (.clearTransactions (some 1) none)))
        (transferred 1)).canister.transactions.toList = [(1, record.withStatus .swept)] := by
  refine And.imp_left (fun (haccepted : ((machine externals).step sweeping
    (.call custodian (.clearTransactions (some 1) none))).isSome = true) => ⟨start, _,
      start_installed, (sweeping_run trivial trivial trivial).next trivial haccepted⟩) ?_
  decide +kernel

end SubaccountIndexer.StatusWrite
