import SubaccountIndexer.Queries
import SubaccountIndexer.History

/-! `list_transactions` and the window of the newest records. The bounds of the window are
numbers of 64 bits that are cut to 32 where the iterator is told of them: a count from 2^32 on
takes too few records, and a store with 2^32 records or more in front of the window starts it
too early. -/

namespace SubaccountIndexer.Listing

/-- The window holds the `count` entries with the largest keys, in the order of the keys; all of
them, if there are no more. -/
structure Newest (store : Transactions) (count : Nat)
    (window : List (UInt64 × StoredTransactions)) : Prop where
  length : window.length = min store.size count
  entries : ∀ entry ∈ window, store[entry.1]? = some entry.2
  ascending : window.Pairwise fun a b => a.1 < b.1
  largest : ∀ k tx, store[k]? = some tx → (k, tx) ∉ window → ∀ entry ∈ window, k < entry.1

def newest (store : Transactions) (count : Nat) : List (UInt64 × StoredTransactions) :=
  store.toList.drop (store.size - count)

/-- The bounds of the last `count` of `size` entries are not changed by cutting them to the
digits below `modulus`. -/
def Fits (modulus size count : Nat) : Prop :=
  (size ≤ count → size ≤ count % modulus) ∧
    (count < size → count = 0 ∨ count < modulus ∧ size - count < modulus)

/-! ## Windows of a list -/

section Window

variable {α : Type} {l : List α} {modulus count : Nat}

theorem window_of_fits (fits : Fits modulus l.length count) :
    (l.drop ((l.length - count) % modulus)).take (count % modulus) =
      l.drop (l.length - count) := by
  by_cases hall : l.length ≤ count
  · have hcount := fits.1 hall
    rw [Nat.sub_eq_zero_of_le hall, Nat.zero_mod, List.drop_zero, List.take_of_length_le hcount]
  · rcases fits.2 (by omega) with rfl | ⟨hcount, hskip⟩
    · rw [Nat.zero_mod, List.take_zero, Nat.sub_zero, List.drop_length]
    · rw [Nat.mod_eq_of_lt hcount, Nat.mod_eq_of_lt hskip, List.take_of_length_le]
      rw [List.length_drop]
      omega

/-- Among different elements a window of the right length in another place is another one. -/
theorem fits_of_window (pos : 0 < modulus) (nodup : l.Nodup)
    (h : (l.drop ((l.length - count) % modulus)).take (count % modulus) =
      l.drop (l.length - count)) : Fits modulus l.length count := by
  have hlength := congrArg List.length h
  rw [List.length_take, List.length_drop, List.length_drop] at hlength
  constructor
  · intro hall
    rw [Nat.sub_eq_zero_of_le hall, Nat.zero_mod] at hlength
    omega
  · intro hless
    by_cases hzero : count = 0
    · exact .inl hzero
    · have hlt := Nat.mod_lt count pos
      have hcount : count < modulus := by omega
      have hfirst := congrArg (fun w => w[0]?) h
      simp only [List.getElem?_take, List.getElem?_drop, Nat.add_zero] at hfirst
      rw [if_pos (by omega)] at hfirst
      have hsame := (List.getElem?_inj (by omega) nodup).mp hfirst.symm
      have hskip := Nat.mod_lt (l.length - count) pos
      exact .inr ⟨hcount, by omega⟩

end Window

/-! ## The newest records -/

variable {store : Transactions} {count : Nat}

/-- Together with the entries in front of it, the window is the whole store in the order of the
keys. -/
theorem newest_spec (store : Transactions) (count : Nat) :
    Newest store count (newest store count) := by
  have hsorted := toList_ascending store
  rw [← List.take_append_drop (store.size - count) store.toList, List.pairwise_append] at hsorted
  refine ⟨?_, fun entry hentry => ?_, hsorted.2.1, fun k tx held hnot entry hentry => ?_⟩
  · rw [newest, List.length_drop, Std.ExtTreeMap.length_toList]
    omega
  · exact Std.ExtTreeMap.mem_toList_iff_getElem?_eq_some.mp (List.mem_of_mem_drop hentry)
  · have hmem := Std.ExtTreeMap.mem_toList_iff_getElem?_eq_some.mpr held
    rw [← List.take_append_drop (store.size - count) store.toList] at hmem
    exact hsorted.2.2 _ ((List.mem_append.mp hmem).resolve_right hnot) _ hentry

theorem values_nodup (keyed : Keyed store) : (store.toList.map Prod.snd).Nodup := by
  refine List.pairwise_map.mpr ((toList_ascending store).imp_of_mem fun ha hb hlt heq => ?_)
  rw [← keyed.index_eq ha, ← keyed.index_eq hb, heq] at hlt
  exact absurd hlt (Std.lt_irrefl)

theorem listTransactions_eq (c : Canister) (upToCount : Option UInt64) :
    listTransactions c upToCount = .ok (((c.transactions.toList.map Prod.snd).drop
      ((c.transactions.size - (upToCount.getD 100).toNat) % 2 ^ 32)).take
        ((upToCount.getD 100).toNat % 2 ^ 32)) := by
  unfold listTransactions
  dsimp only
  split
  · rw [Nat.sub_eq_zero_of_le (by omega)]
  · rfl

/-- The newest records are returned where the bounds of their window fit into 32 bits; in a
store whose records stand under their own index, nowhere else. -/
theorem listTransactions_newest (c : Canister) (upToCount : Option UInt64) :
    Newest c.transactions (upToCount.getD 100).toNat
        (newest c.transactions (upToCount.getD 100).toNat) ∧
      (Fits (2 ^ 32) c.transactions.size (upToCount.getD 100).toNat →
        listTransactions c upToCount =
          .ok ((newest c.transactions (upToCount.getD 100).toNat).map Prod.snd)) ∧
      (Keyed c.transactions →
        (listTransactions c upToCount =
            .ok ((newest c.transactions (upToCount.getD 100).toNat).map Prod.snd) ↔
          Fits (2 ^ 32) c.transactions.size (upToCount.getD 100).toNat)) := by
  have hsize : (c.transactions.toList.map Prod.snd).length = c.transactions.size := by
    rw [List.length_map, Std.ExtTreeMap.length_toList]
  refine ⟨newest_spec _ _, ?_⟩
  rw [listTransactions_eq, newest, List.map_drop, ← hsize]
  refine ⟨fun fits => ?_, fun keyed => ⟨fun h => ?_, fun fits => ?_⟩⟩
  · rw [window_of_fits fits]
  · exact fits_of_window (by decide) (values_nodup keyed) (Except.ok.inj h)
  · rw [window_of_fits fits]

/-! The canister with one deposit, asked for all its records by a number beyond 32 bits -/

open Examples

theorem listTransactions_beyond_usize :
    Reachable externals depositStored ∧
      (newest depositStored.canister.transactions 4294967296).map Prod.snd = [record] ∧
      listTransactions depositStored.canister (some 4294967296) = .ok [] := by
  have hsize : depositStored.canister.transactions.size = 1 := by
    rw [← Std.ExtTreeMap.length_toList, depositStored_record]
    rfl
  refine ⟨depositStored_reachable, ?_, ?_⟩
  · rw [newest, hsize, depositStored_record]
    rfl
  · rw [listTransactions_eq]
    rfl

end SubaccountIndexer.Listing
