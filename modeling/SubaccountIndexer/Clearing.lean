import SubaccountIndexer.History

/-! What `clear_transactions` removes. An argument that is given and zero counts as one that is
not given: the records at index 0 and those with the time stamp 0 cannot be asked for by
themselves. -/

namespace SubaccountIndexer.Clearing

variable {store : Transactions} {upToIndex : Option UInt64} {upToTimestamp : Option Timestamp}
  {tx : StoredTransactions} {i : UInt64}

/-- The record is one the call asks to remove. -/
def Asked (upToIndex : Option UInt64) (upToTimestamp : Option Timestamp)
    (tx : StoredTransactions) : Prop :=
  (∃ last ∈ upToIndex, tx.index ≤ last) ∨
    ∃ last ∈ upToTimestamp, tx.createdAtTime.timestampNanos ≤ last.timestampNanos

/-- What is left are the other records, unchanged. -/
def ClearsExactly (store : Transactions) (upToIndex : Option UInt64)
    (upToTimestamp : Option Timestamp) (left : Transactions) : Prop :=
  ∀ (k : UInt64) (tx : StoredTransactions),
    left[k]? = some tx ↔ store[k]? = some tx ∧ ¬ Asked upToIndex upToTimestamp tx

/-- A record that is asked for by a zero alone is not there. -/
def NoZeroAsked (store : Transactions) (upToIndex : Option UInt64)
    (upToTimestamp : Option Timestamp) : Prop :=
  (upToIndex = some 0 → ∀ (k : UInt64) (tx : StoredTransactions), store[k]? = some tx →
      tx.index = 0 → ∃ last ∈ upToTimestamp, last.timestampNanos ≠ 0 ∧
        tx.createdAtTime.timestampNanos ≤ last.timestampNanos) ∧
    (upToTimestamp = some ⟨0⟩ → ∀ (k : UInt64) (tx : StoredTransactions), store[k]? = some tx →
      tx.createdAtTime.timestampNanos = 0 → ∃ last ∈ upToIndex, last ≠ 0 ∧ tx.index ≤ last)

theorem getElem?_eraseKeys (keys : List UInt64) (store : Transactions) (k : UInt64) :
    (keys.foldl (fun store key => store.erase key) store)[k]? =
      if k ∈ keys then none else store[k]? := by
  induction keys generalizing store with
  | nil => simp
  | cons key rest ih =>
    rw [List.foldl_cons, ih, getElem?_erase]
    by_cases hrest : k ∈ rest
    · rw [if_pos hrest, if_pos (List.mem_cons_of_mem key hrest)]
    · by_cases hkey : key = k
      · rw [if_neg hrest, if_pos hkey, if_pos (by simp [hkey])]
      · rw [if_neg hrest, if_neg hkey, if_neg (by simp [hrest, Ne.symm hkey])]

theorem mem_keysToRemove {index : UInt64} {timestamp : Timestamp} {k : UInt64} :
    k ∈ keysToRemove store index timestamp ↔
      ∃ tx, store[k]? = some tx ∧ clearSelects index timestamp tx = true := by
  unfold keysToRemove
  constructor
  · intro h
    obtain ⟨entry, hentry, rfl⟩ := List.mem_map.mp h
    obtain ⟨hmem, hselects⟩ := List.mem_filter.mp hentry
    exact ⟨entry.2, Std.ExtTreeMap.mem_toList_iff_getElem?_eq_some.mp hmem, hselects⟩
  · intro ⟨tx, held, hselects⟩
    exact List.mem_map.mpr ⟨(k, tx), List.mem_filter.mpr
      ⟨Std.ExtTreeMap.mem_toList_iff_getElem?_eq_some.mpr held, hselects⟩, rfl⟩

/-- What the call leaves are the records that the filter does not select. -/
theorem getElem?_clearTransactions {k : UInt64} :
    (clearTransactions store upToIndex upToTimestamp).1[k]? = some tx ↔
      store[k]? = some tx ∧
        clearSelects (upToIndex.getD 0) (upToTimestamp.getD ⟨0⟩) tx = false := by
  show (List.foldl _ store _)[k]? = some tx ↔ _
  rw [getElem?_eraseKeys]
  split
  · rename_i hmem
    obtain ⟨tx', held, hselects⟩ := mem_keysToRemove.mp hmem
    refine ⟨nofun, fun ⟨hstored, hspared⟩ => ?_⟩
    rw [held] at hstored
    cases hstored
    rw [hselects] at hspared
    cases hspared
  · rename_i hnot
    refine ⟨fun held => ⟨held, ?_⟩, And.left⟩
    rw [← Bool.not_eq_true]
    exact fun hselects => hnot (mem_keysToRemove.mpr ⟨tx, held, hselects⟩)

/-- The filter asks the same of the arguments that are not zero. -/
theorem clearSelects_iff :
    clearSelects (upToIndex.getD 0) (upToTimestamp.getD ⟨0⟩) tx = true ↔
      (∃ last ∈ upToIndex, last ≠ 0 ∧ tx.index ≤ last) ∨
        ∃ last ∈ upToTimestamp, last.timestampNanos ≠ 0 ∧
          tx.createdAtTime.timestampNanos ≤ last.timestampNanos := by
  cases upToIndex <;> cases upToTimestamp <;> simp [clearSelects]

theorem clearTransactions_none (store : Transactions) :
    (clearTransactions store none none).1 = store := by
  have hkeys : keysToRemove store 0 ⟨0⟩ = [] := by
    refine List.eq_nil_iff_forall_not_mem.mpr fun k hk => ?_
    obtain ⟨tx, -, hselects⟩ := mem_keysToRemove.mp hk
    cases hselects
  show (keysToRemove store 0 ⟨0⟩).foldl _ store = store
  rw [hkeys, List.foldl_nil]

theorem asked_of_selected
    (h : clearSelects (upToIndex.getD 0) (upToTimestamp.getD ⟨0⟩) tx = true) :
    Asked upToIndex upToTimestamp tx := by
  rcases clearSelects_iff.mp h with ⟨last, hlast, -, hle⟩ | ⟨last, hlast, -, hle⟩
  · exact .inl ⟨last, hlast, hle⟩
  · exact .inr ⟨last, hlast, hle⟩

/-- Where no zero is asked for, the filter selects what is asked for. -/
theorem selected_of_asked (noZero : NoZeroAsked store upToIndex upToTimestamp) {k : UInt64}
    (held : store[k]? = some tx) (asked : Asked upToIndex upToTimestamp tx) :
    clearSelects (upToIndex.getD 0) (upToTimestamp.getD ⟨0⟩) tx = true := by
  rw [clearSelects_iff]
  rcases asked with ⟨last, hlast, hle⟩ | ⟨last, hlast, hle⟩
  · by_cases hzero : last = 0
    · subst hzero
      have hindex : tx.index = 0 := UInt64.le_zero_iff.mp hle
      exact .inr (noZero.1 hlast k tx held hindex)
    · exact .inl ⟨last, hlast, hzero, hle⟩
  · by_cases hzero : last.timestampNanos = 0
    · have hlast0 : upToTimestamp = some ⟨0⟩ := by rw [hlast, ← hzero]
      rw [hzero] at hle
      exact .inl (noZero.2 hlast0 k tx held (UInt64.le_zero_iff.mp hle))
    · exact .inr ⟨last, hlast, hzero, hle⟩

/-- The call removes what it is asked to if and only if it does not take a zero for an argument
that is missing. -/
theorem clearsExactly_iff :
    ClearsExactly store upToIndex upToTimestamp
        (clearTransactions store upToIndex upToTimestamp).1 ↔
      NoZeroAsked store upToIndex upToTimestamp := by
  constructor
  · intro h
    -- a stored record that is asked for is not left, so the filter selects it
    have hselected : ∀ (k : UInt64) (tx : StoredTransactions), store[k]? = some tx →
        Asked upToIndex upToTimestamp tx →
          clearSelects (upToIndex.getD 0) (upToTimestamp.getD ⟨0⟩) tx = true := by
      intro k tx held asked
      rw [← Bool.not_eq_false]
      exact fun hspared => ((h k tx).mp (getElem?_clearTransactions.mpr ⟨held, hspared⟩)).2 asked
    constructor
    · intro hzero k tx held hindex
      have hasked : Asked upToIndex upToTimestamp tx :=
        .inl ⟨0, hzero, UInt64.le_zero_iff.mpr hindex⟩
      rcases clearSelects_iff.mp (hselected k tx held hasked) with ⟨last, hlast, hne, -⟩ | h
      · rw [hzero] at hlast
        exact absurd (Option.some.inj hlast).symm hne
      · exact h
    · intro hzero k tx held htime
      have hasked : Asked upToIndex upToTimestamp tx :=
        .inr ⟨⟨0⟩, hzero, UInt64.le_zero_iff.mpr htime⟩
      rcases clearSelects_iff.mp (hselected k tx held hasked) with h | ⟨last, hlast, hne, -⟩
      · exact h
      · rw [hzero] at hlast
        exact absurd (congrArg Timestamp.timestampNanos (Option.some.inj hlast)).symm hne
  · intro noZero k tx
    rw [getElem?_clearTransactions]
    refine and_congr_right fun held => ?_
    rw [← Bool.not_eq_true, not_iff_not]
    exact ⟨asked_of_selected, selected_of_asked noZero held⟩

/-- The call as a whole: it returns what is left in the order of the keys, it removes exactly
what it is asked to if and only if it does not take a zero for an argument that is missing, and
with neither argument nothing changes. -/
theorem clear_transactions_exact (E : Externals) (c : Canister) (caller : Principal)
    (upToIndex : Option UInt64) (upToTimestamp : Option Timestamp) :
    ∃ (left : Transactions) (events : List Event),
      runMethod E c caller (.clearTransactions upToIndex upToTimestamp) =
          .ok ⟨{ c with transactions := left },
            .finished (.ok (.transactions (left.toList.map Prod.snd))), events⟩ ∧
        left.toList.Pairwise (fun a b => a.1 < b.1) ∧
        (ClearsExactly c.transactions upToIndex upToTimestamp left ↔
          NoZeroAsked c.transactions upToIndex upToTimestamp) ∧
        (upToIndex = none → upToTimestamp = none → left = c.transactions) := by
  refine ⟨_, _, rfl, toList_ascending _, clearsExactly_iff, ?_⟩
  intro hindex htime
  subst hindex htime
  exact clearTransactions_none c.transactions

/-! A deposit that was read from the archive as block 0 -/

open Examples

abbrev zeroBlock : IcLedger.Block where
  memo := 0
  operation := some (.transfer payerAccount account1 100000 10000)
  createdAtTime := ⟨1000⟩
  timestamp := ⟨1000⟩
  parentHash := none

abbrev zeroStored : System :=
  [Input.call custodian (.processTokenArchivedBlock .icp 0),
    .reply 0 (.archive (.icpLedger (.ok ⟨[zeroBlock], []⟩)))].foldl (machine externals).after start

def zeroRecord : StoredTransactions :=
  .new 0 deposit.transaction "ffd97e60db2928f7d87f3000015c517ff5677f01fd9cb13a8e06ce7e19562987" .icp
    MAINNET_LEDGER_CANISTER_ID

theorem zeroStored_reachable : Reachable externals zeroStored := by
  have hmeets : (machine externals).Meets (fun _ _ => True) start [
      .call custodian (.processTokenArchivedBlock .icp 0),
      .reply 0 (.archive (.icpLedger (.ok ⟨[zeroBlock], []⟩)))] := by decide +kernel
  obtain ⟨os, hrun⟩ := Lib.Machine.Run.nil.meets hmeets
  exact ⟨start, os, start_installed, hrun⟩

theorem zeroStored_record : zeroStored.canister.transactions.toList = [(0, zeroRecord)] := by
  decide +kernel

/-- Asked to remove the records up to index 0, the call leaves the one at index 0. -/
theorem zero_index_kept :
    Reachable externals zeroStored ∧
      zeroStored.canister.transactions[(0 : UInt64)]? = some zeroRecord ∧
      (clearTransactions zeroStored.canister.transactions (some 0) none).1[(0 : UInt64)]? =
        some zeroRecord ∧
      ¬ ClearsExactly zeroStored.canister.transactions (some 0) none
        (clearTransactions zeroStored.canister.transactions (some 0) none).1 := by
  have hheld : zeroStored.canister.transactions[(0 : UInt64)]? = some zeroRecord := by
    refine Std.ExtTreeMap.mem_toList_iff_getElem?_eq_some.mp ?_
    rw [zeroStored_record]
    exact List.mem_cons_self
  have hleft : (clearTransactions zeroStored.canister.transactions (some 0) none).1[(0 : UInt64)]? =
      some zeroRecord := getElem?_clearTransactions.mpr ⟨hheld, rfl⟩
  refine ⟨zeroStored_reachable, hheld, hleft, fun h => ?_⟩
  exact ((h 0 zeroRecord).mp hleft).2 (.inl ⟨0, rfl, UInt64.le_refl 0⟩)

end SubaccountIndexer.Clearing
