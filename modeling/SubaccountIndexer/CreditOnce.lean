import SubaccountIndexer.Cursors
import SubaccountIndexer.Lib.Once

/-! Whether a ledger block can be credited twice. The block loop knows a block again only
while its record is in the store, and a poll that was started before the record was cleared
still brings the block. A record may go once every poll of its token is past it: then an
entry is blocked as long as it is stored, and past all polls after that. -/

namespace SubaccountIndexer.CreditOnce

variable (E : Externals)

/-- Only polls move cursors, and nothing is read from an archive. -/
structure PollsOnly (σ : System) (i : Input) : Prop where
  cursors : ∀ method, σ.runs E i = some method → method.writesCursors = false
  archive : ∀ n reply, i ≠ .reply n (.archive reply)

/-- A record leaves the store, cleared or overwritten by a late status of another token, only
when the polls of its token are past it. -/
structure LeavesPast (σ : System) (i : Input) : Prop where
  clears : ∀ upToIndex upToTimestamp,
    σ.runs E i = some (.clearTransactions upToIndex upToTimestamp) →
    ∀ (k : UInt64) tx, σ.canister.transactions[k]? = some tx →
      clearSelects (upToIndex.getD 0) (upToTimestamp.getD ⟨0⟩) tx = true → σ.Past tx.tokenType k
  writes : ∀ n result task tx e, i = .reply n (.transfer result) → σ.tasks[n]? = some task →
    task.awaits = some tx → σ.canister.transactions[tx.index]? = some e →
    e.tokenType ≠ tx.tokenType → σ.Past e.tokenType tx.index

structure SafeInput (σ : System) (i : Input) : Prop where
  polls : PollsOnly E σ i
  fits : WindowFits E σ i
  leaves : LeavesPast E σ i

/-- Every response starts at the block that was asked for. -/
def Positioned (σ : System) (i : Input) : Prop :=
  ∀ t next response, σ.polled E i = some (t, next, response) →
    response.blocks = [] ∨ response.firstBlockIndex = next

/-- The ledger block an event credits: the token and the index its ledger gives to the block -/
def ledgerEntry : Event → Option (TokenType × UInt64)
  | .stored tx ledgerIndex => some (tx.tokenType, ledgerIndex)
  | _ => none

/-- The entries that cannot be inserted: they are in the store, or all polls are past them. -/
def Blocked (σ : System) : Set (TokenType × UInt64) := fun entry =>
  (∃ tx, σ.canister.transactions[entry.2]? = some tx ∧ tx.tokenType = entry.1) ∨
    σ.Past entry.1 entry.2

variable {E} {σ σ' : System} {i : Input} {os : List Event} {tx : StoredTransactions}

/-! ## Entries that are stored -/

/-- The entries a step stores are distinct, were not blocked and are in the store after it. -/
theorem entries_fresh (keyed : Keyed σ.canister.transactions) (safe : SafeInput E σ i)
    (h : Fires E σ i σ' os) :
    (os.filterMap Event.entry).Nodup ∧ ∀ tx j, .stored tx j ∈ os →
      (tx.tokenType, tx.index) ∉ Blocked σ ∧ σ'.canister.transactions[tx.index]? = some tx := by
  have hjournal := h.journal keyed
  by_cases hstores : ∃ tx j, .stored tx j ∈ os
  · obtain ⟨tx, j, hmem⟩ := hstores
    have hadds := adds_of_stored keyed safe.polls.archive h hmem
    obtain ⟨hnodup, hfree⟩ := hjournal.fresh hadds
    refine ⟨hnodup, fun tx j hmem => ⟨?_, hjournal.held hadds hmem⟩⟩
    intro hblocked
    rcases hblocked with ⟨tx', hheld, -⟩ | hpast
    · rw [hfree tx j hmem] at hheld
      cases hheld
    · cases h.event keyed _ hmem with
      | archived input => exact absurd input (safe.polls.archive _ _)
      | @polled n t p next response k b hash waits polled block =>
        -- the poll that brings the block starts at `next`, which is not past `next + k`
        have hlt : next + UInt64.ofNat k < next := hpast next (mem_positions.mpr
          (.inr ⟨_, List.mem_of_getElem? waits, if_pos rfl⟩))
        have hfits := safe.fits t next response polled
        have hk := (List.getElem?_eq_some_iff.mp block).1
        rw [UInt64.lt_iff_toNat_lt, UInt64.toNat_add, UInt64.toNat_ofNat'] at hlt
        omega
  · have hnone : os.filterMap Event.entry = [] := by
      refine List.eq_nil_iff_forall_not_mem.mpr fun entry hentry => ?_
      obtain ⟨tx, j, hmem, -⟩ := mem_entries.mp hentry
      exact hstores ⟨tx, j, hmem⟩
    exact ⟨by rw [hnone]; exact List.nodup_nil, fun tx j hmem => absurd ⟨tx, j, hmem⟩ hstores⟩

/-! ## Entries that leave -/

/-- A stored entry stays in the store, or all polls of its token are past it. -/
theorem entry_kept (keyed : Keyed σ.canister.transactions) (leaves : LeavesPast E σ i)
    (h : Fires E σ i σ' os) {k : UInt64} (held : σ.canister.transactions[k]? = some tx) :
    (∃ tx', σ'.canister.transactions[k]? = some tx' ∧ tx'.tokenType = tx.tokenType) ∨
      σ.Past tx.tokenType k := by
  cases h with
  | timer | rejected | callTraps | replyTraps => exact .inl ⟨tx, held, rfl⟩
  | @upgrade caller =>
    exact .inl ⟨tx, by rw [(postUpgrade_frame σ.canister caller).transactions]; exact held, rfl⟩
  | call allowed runs =>
    have hran := ran_of_ok E runs
    rcases hran.rightful keyed with hos | ⟨upToIndex, upToTimestamp, rfl, hstore, -⟩
    · obtain ⟨tx', hheld', hsame⟩ := kept_of_journal (hran.journal keyed)
        (fun e he => (hos e he).1) (fun e he => (hos e he).2) k tx held
      exact .inl ⟨tx', hheld', hsame.tokenType⟩
    · cases hselects : clearSelects (upToIndex.getD 0) (upToTimestamp.getD ⟨0⟩) tx with
      | true => exact .inr (leaves.clears _ _ allowed k tx held hselects)
      | false =>
        exact .inl ⟨tx, by rw [hstore]; exact clearTransactions_spares keyed held hselects, rfl⟩
  | @reply n reply task turn waits resumes =>
    have hresumes := resumes_of_ok E resumes
    rcases hresumes.writes with hadds | ⟨result, written, status, rfl, hawaits, hstore⟩
    · exact .inl ⟨tx, hresumes.journal.keep held fun e he => by simp [hadds e he], rfl⟩
    · simp only [hstore, getElem?_insert]
      split
      · rename_i hindex
        subst hindex
        by_cases htoken : tx.tokenType = written.tokenType
        · exact .inl ⟨_, rfl, htoken.symm⟩
        · exact .inr (leaves.writes n result task written tx rfl waits hawaits held htoken)
      · exact .inl ⟨tx, held, rfl⟩

/-! ## Runs -/

/-- What a run that credits every entry once keeps -/
structure Credits (σ : System) (os : List Event) : Prop where
  keyed : Keyed σ.canister.transactions
  cursors : σ.canister.tokenNextBlocks.isEmpty = false
  once : Lib.Once (os.filterMap Event.entry) (Blocked σ)

theorem credits_step {seen : List Event} (credits : Credits σ seen) (safe : SafeInput E σ i)
    (h : Fires E σ i σ' os) : Credits σ' (seen ++ os) := by
  have hkeyed := credits.keyed
  obtain ⟨hnodup, hfresh⟩ := entries_fresh hkeyed safe h
  refine ⟨keyed_step hkeyed h, h.cursors_nonempty credits.cursors, ?_⟩
  rw [List.filterMap_append]
  refine credits.once.deliver hnodup (fun entry hentry => ?_) (fun entry _ hblocked => ?_)
    fun entry hentry => ?_
  · obtain ⟨tx, j, hmem, rfl⟩ := mem_entries.mp hentry
    exact (hfresh tx j hmem).1
  · have hpast : σ.Past entry.1 entry.2 → σ'.Past entry.1 entry.2 :=
      h.past credits.cursors safe.polls.cursors safe.fits
    rcases hblocked with ⟨tx, hheld, htoken⟩ | hpast'
    · rcases entry_kept hkeyed safe.leaves h hheld with ⟨tx', hheld', htoken'⟩ | hpast'
      · exact .inl ⟨tx', hheld', htoken'.trans htoken⟩
      · exact .inr (hpast (htoken ▸ hpast'))
    · exact .inr (hpast hpast')
  · obtain ⟨tx, j, hmem, rfl⟩ := mem_entries.mp hentry
    exact .inl ⟨tx, (hfresh tx j hmem).2, rfl⟩

/-- In a run of positioned responses, a record's index is that of its block. -/
theorem ledgerEntry_positioned (keyed : Keyed σ.canister.transactions) (polls : PollsOnly E σ i)
    (positioned : Positioned E σ i) (h : Fires E σ i σ' os) :
    ∀ e ∈ os, ledgerEntry e = e.entry := by
  intro e he
  cases e with
  | stored tx j =>
    cases h.event keyed _ he with
    | archived input => exact absurd input (polls.archive _ _)
    | @polled n t p next response k b hash waits polled block =>
      rcases positioned t next response polled with hempty | hfirst
      · simp [hempty] at block
      · rw [hfirst]
        rfl
  | _ => rfl

/-- If records leave the store only when the polls of their token are past them, no entry is
inserted twice; and if all responses start where they should, no ledger block is. -/
theorem credited_once {σ₀ : System} (reachable : Reachable E σ₀)
    (run : (machine E).Run (SafeInput E) σ₀ os σ) :
    (os.filterMap Event.entry).Nodup ∧
      ((machine E).Run (fun σ i => SafeInput E σ i ∧ Positioned E σ i) σ₀ os σ →
        (os.filterMap ledgerEntry).Nodup) := by
  have hentries : (os.filterMap Event.entry).Nodup := by
    have hcredits := run.history (P := Credits) ?_ ?_
    · exact hcredits.once.nodup
    · exact ⟨reachable_keyed reachable, reachable_cursors reachable, .nil _⟩
    · intro s seen j s' new hcredits safe fires
      exact credits_step hcredits safe (fires_of_step E fires)
  refine ⟨hentries, fun run => ?_⟩
  have hsame := (run.emits (P := fun σ => Keyed σ.canister.transactions)
    (Q := fun e => ledgerEntry e = e.entry) (reachable_keyed reachable) ?_).2
  · rwa [List.filterMap_congr hsame]
  · intro s j s' new keyed ⟨safe, positioned⟩ fires
    have hfires := fires_of_step E fires
    exact ⟨keyed_step keyed hfires, ledgerEntry_positioned keyed safe.polls positioned hfires⟩

/-! A deposit that is cleared when the cursor is past it, and one that is cleared while a
second poll waits. -/

open Examples

theorem timer_safe : SafeInput E σ .timer :=
  ⟨⟨fun _ h => by simp [System.runs] at h, fun _ _ h => nomatch h⟩,
    fun _ _ _ h => by simp [System.polled] at h,
    ⟨fun _ _ h => by simp [System.runs] at h, fun _ _ _ _ _ h => nomatch h⟩⟩

theorem ledger_pollsOnly {n : Nat} {reply : LedgerReply} :
    PollsOnly E σ (.reply n (.ledger reply)) :=
  ⟨fun _ h => by simp [System.runs] at h, fun _ _ h => nomatch h⟩

theorem ledger_safe {n : Nat} {reply : LedgerReply}
    (window : (σ.polled E (.reply n (.ledger reply))).map
      (fun p => p.2.1.toNat + p.2.2.blocks.length) = some 2) :
    SafeInput E σ (.reply n (.ledger reply)) := by
  refine ⟨ledger_pollsOnly, fun t next response h => ?_,
    ⟨fun _ _ h => by simp [System.runs] at h, fun _ _ _ _ _ h => nomatch h⟩⟩
  have hwindow : next.toNat + response.blocks.length = 2 := by simpa [h] using window
  omega

abbrev clearFirst : Input := .call custodian (.clearTransactions (some 1) none)

theorem clear_pollsOnly : PollsOnly E σ clearFirst :=
  ⟨fun method h => by rw [System.runs_call E h]; rfl, fun _ _ h => nomatch h⟩

theorem clear_safe (past : ∀ (k : UInt64) tx, σ.canister.transactions[k]? = some tx →
    σ.Past tx.tokenType k) : SafeInput E σ clearFirst :=
  ⟨clear_pollsOnly, fun _ _ _ h => by simp [System.polled] at h,
    ⟨fun _ _ _ k tx hheld _ => past k tx hheld, fun _ _ _ _ _ h => nomatch h⟩⟩

abbrev clearedEvents : List Event :=
  (machine externals).emitted polling (icpAnswer 0) ++
    (machine externals).emitted depositStored clearFirst

theorem ledger_positioned {n : Nat} {reply : LedgerReply}
    (first : (σ.polled E (.reply n (.ledger reply))).map
      (fun p => p.2.2.firstBlockIndex == p.2.1) = some true) :
    Positioned E σ (.reply n (.ledger reply)) :=
  fun t next response h => .inr (by simpa [h] using first)

theorem credited_once_cleared :
    (clearedEvents.filterMap Event.entry).Nodup ∧
      (clearedEvents.filterMap ledgerEntry).Nodup := by
  have run : (machine externals).Run
      (fun σ i => SafeInput externals σ i ∧ Positioned externals σ i) start clearedEvents
      ((machine externals).after depositStored clearFirst) := by
    refine ((Lib.Machine.Run.nil.step ⟨timer_safe, fun _ _ _ h => by simp [System.polled] at h⟩
      polling_step).next (i := icpAnswer 0) ⟨ledger_safe ?_, ledger_positioned ?_⟩ ?_).next
      (i := clearFirst) ⟨clear_safe ?past, fun _ _ _ h => by simp [System.polled] at h⟩ ?_
    case past =>
      intro k tx hheld
      have hmem := Std.ExtTreeMap.mem_toList_iff_getElem?_eq_some.mpr hheld
      rw [depositStored_record] at hmem
      obtain ⟨rfl, rfl⟩ : k = 1 ∧ tx = record := by simpa using hmem
      decide +kernel
    all_goals decide +kernel
  have reachable : Reachable externals start := ⟨start, [], start_installed, .nil⟩
  have honce := credited_once reachable (run.mono fun _ _ h => h.1)
  exact ⟨honce.1, honce.2 run⟩

/-- Two ticks of the timer, before the ledger has answered -/
def pollingTwice : System :=
  ⟨installed, [.poll .icp MAINNET_LEDGER_CANISTER_ID 1, .poll .icp MAINNET_LEDGER_CANISTER_ID 1]⟩

abbrev answeredOnce : System := (machine externals).after pollingTwice (icpAnswer 0)

abbrev answeredCleared : System := (machine externals).after answeredOnce clearFirst

abbrev creditedTwice : System := (machine externals).after answeredCleared (icpAnswer 1)

abbrev creditedTwiceEvents : List Event :=
  (machine externals).emitted pollingTwice (icpAnswer 0) ++
    (machine externals).emitted answeredOnce clearFirst ++
    (machine externals).emitted answeredCleared (icpAnswer 1)

/-- Two polls of the same window are in flight. The first stores a deposit, which is cleared
before the second is answered: it stores the deposit again. -/
theorem cleared_deposit_credited_twice :
    Reachable externals start ∧
      (machine externals).Run (PollsOnly externals) start creditedTwiceEvents creditedTwice ∧
      creditedTwiceEvents.filterMap Event.entry = [(.icp, 1), (.icp, 1)] ∧
      creditedTwiceEvents.filterMap ledgerEntry = [(.icp, 1), (.icp, 1)] := by
  have second : (machine externals).step polling .timer = some (pollingTwice, []) := rfl
  refine ⟨⟨start, [], start_installed, .nil⟩, ?_, ?_, ?_⟩
  · refine ((((Lib.Machine.Run.nil.step timer_safe.polls polling_step).step timer_safe.polls
      second).next (i := icpAnswer 0) ledger_pollsOnly ?_).next (i := clearFirst)
      clear_pollsOnly ?_).next (i := icpAnswer 1) ledger_pollsOnly ?_ <;> decide +kernel
  all_goals decide +kernel

end SubaccountIndexer.CreditOnce
