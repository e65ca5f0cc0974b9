import SubaccountIndexer.Listing
import SubaccountIndexer.WellFormed
import Mathlib.Data.List.Sort

/-! What a client can learn by queries alone. The number of records, the oldest block and the list
of that many records are one account of the store, and the list of cursors is the whole map. -/

namespace SubaccountIndexer.Reports

open Listing (Fits listTransactions_newest newest)

/-- The answers of three queries that tell the whole store -/
structure Dump (store : Transactions) (count : UInt32) (oldest : Option UInt64)
    (all : List StoredTransactions) : Prop where
  count : count.toNat = all.length
  oldest : oldest = all.head?.map StoredTransactions.index
  ascending : all.Pairwise fun a b => a.index < b.index
  complete : ∀ (k : UInt64) tx, store[k]? = some tx ↔ tx ∈ all ∧ tx.index = k

variable {c : Canister}

/-! ## Records -/

theorem records_ascending (keyed : Keyed c.transactions) :
    (c.transactions.toList.map Prod.snd).Pairwise fun a b => a.index < b.index := by
  refine List.pairwise_map.mpr ((toList_ascending c.transactions).imp_of_mem fun ha hb hlt => ?_)
  rwa [keyed.index_eq ha, keyed.index_eq hb]

theorem mem_records (keyed : Keyed c.transactions) {k : UInt64} {tx : StoredTransactions} :
    c.transactions[k]? = some tx ↔ tx ∈ c.transactions.toList.map Prod.snd ∧ tx.index = k := by
  constructor
  · intro hheld
    exact ⟨List.mem_map.mpr ⟨(k, tx),
      Std.ExtTreeMap.mem_toList_iff_getElem?_eq_some.mpr hheld, rfl⟩, keyed k tx hheld⟩
  · rintro ⟨hmem, rfl⟩
    exact keyed.selected.held tx hmem

/-- A count that covers the store asks for all of it. -/
theorem listTransactions_all (few : c.transactions.size < 2 ^ 32) :
    listTransactions c (some (UInt32.ofNat c.transactions.size).toUInt64) =
      .ok (c.transactions.toList.map Prod.snd) := by
  have hcount : ((some (UInt32.ofNat c.transactions.size).toUInt64).getD 100).toNat =
      c.transactions.size := by
    rw [Option.getD_some, UInt32.toNat_toUInt64, UInt32.toNat_ofNat', Nat.mod_eq_of_lt few]
  have hfits : Fits (2 ^ 32) c.transactions.size c.transactions.size :=
    ⟨fun _ => by rw [Nat.mod_eq_of_lt few], fun h => absurd h (Nat.lt_irrefl _)⟩
  have hnewest := (listTransactions_newest c (some (UInt32.ofNat c.transactions.size).toUInt64)).2.1
  rw [hcount] at hnewest
  rw [hnewest hfits, newest, Nat.sub_self, List.drop_zero]

theorem dump_records (keyed : Keyed c.transactions) (few : c.transactions.size < 2 ^ 32) :
    Dump c.transactions (UInt32.ofNat c.transactions.size)
      (c.transactions.toList.head?.map Prod.fst) (c.transactions.toList.map Prod.snd) where
  count := by
    rw [UInt32.toNat_ofNat', Nat.mod_eq_of_lt few, List.length_map, Std.ExtTreeMap.length_toList]
  oldest := by
    rw [List.head?_map, Option.map_map]
    cases hhead : c.transactions.toList.head? with
    | none => rfl
    | some entry => exact congrArg some (keyed.index_eq (List.mem_of_head? hhead)).symm
  ascending := records_ascending keyed
  complete _ _ := mem_records keyed

/-! ## Cursors -/

/-- The four cursors, in the order of their tokens' numbers -/
def fourCursors (c : Canister) : List (TokenType × UInt64) :=
  [.icp, .ckusdc, .ckusdt, .ckbtc].map fun t => (t, c.getTokenNextBlock t)

theorem getElem?_cursor (four : FourCursors c.tokenNextBlocks) (t : TokenType) :
    c.tokenNextBlocks[getTokenId t]? = some (c.getTokenNextBlock t) := by
  obtain ⟨block, hblock⟩ := Std.ExtTreeMap.mem_iff_isSome_getElem?.mp ((four _).mpr ⟨t, rfl⟩) |>
    Option.isSome_iff_exists.mp
  rw [Canister.getTokenNextBlock, hblock, Option.getD_some]

/-- The map of the cursors has the four entries and no other. -/
theorem cursors_toList (four : FourCursors c.tokenNextBlocks) :
    c.tokenNextBlocks.toList = (fourCursors c).map fun entry => (getTokenId entry.1, entry.2) := by
  have hordered : c.tokenNextBlocks.toList.Pairwise fun a b => a.1 < b.1 :=
    Std.ExtTreeMap.ordered_keys_toList.imp Std.compare_eq_lt.mp
  have hirrefl : Std.Irrefl fun a b : UInt8 × UInt64 => a.1 < b.1 := ⟨fun _ => UInt8.lt_irrefl _⟩
  have hantisymm : Std.Antisymm fun a b : UInt8 × UInt64 => a.1 < b.1 :=
    ⟨fun a b hab hba => absurd hba (UInt8.lt_asymm hab)⟩
  refine hordered.eq_of_mem_iff (by simp [fourCursors, getTokenId]) fun entry => ?_
  rw [Std.ExtTreeMap.mem_toList_iff_getElem?_eq_some]
  constructor
  · intro hentry
    obtain ⟨t, ht⟩ := (four entry.1).mp (Std.ExtTreeMap.mem_iff_isSome_getElem?.mpr (by simp [hentry]))
    rw [ht, getElem?_cursor four] at hentry
    refine List.mem_map.mpr ⟨(t, c.getTokenNextBlock t), ?_, ?_⟩
    · cases t <;> simp [fourCursors]
    · rw [← ht, Option.some.inj hentry]
  · intro hmem
    obtain ⟨⟨t, block⟩, hmem', rfl⟩ := List.mem_map.mp hmem
    obtain ⟨s, -, heq⟩ := List.mem_map.mp hmem'
    cases heq
    exact getElem?_cursor four t

/-! ## Main result -/

/-- In every reachable state a client that asks for the number of the records, and then for that
many, gets each record once, from the oldest block on; and the list of the cursors is all there
is in their map. -/
theorem reports_complete (E : Externals) {σ : System} (reachable : Reachable E σ)
    (few : σ.canister.transactions.size < 2 ^ 32) :
    (∃ count oldest all, getTransactionsCount σ.canister = .ok count ∧
      getOldestBlock σ.canister = .ok oldest ∧
      listTransactions σ.canister (some count.toUInt64) = .ok all ∧
      Dump σ.canister.transactions count oldest all) ∧
    ∃ blocks, getAllTokenBlocks σ.canister = .ok blocks ∧
      σ.canister.tokenNextBlocks.toList = blocks.map fun entry => (getTokenId entry.1, entry.2) := by
  have hwell := (reachable_wellFormed reachable).1
  exact ⟨⟨_, _, _, rfl, rfl, listTransactions_all few, dump_records hwell.keyed few⟩,
    _, rfl, cursors_toList hwell.cursors⟩

open Examples in
theorem reports_complete_deposit :
    (∃ count oldest all, getTransactionsCount depositStored.canister = .ok count ∧
      getOldestBlock depositStored.canister = .ok oldest ∧
      listTransactions depositStored.canister (some count.toUInt64) = .ok all ∧
      Dump depositStored.canister.transactions count oldest all) ∧
    ∃ blocks, getAllTokenBlocks depositStored.canister = .ok blocks ∧
      depositStored.canister.tokenNextBlocks.toList =
        blocks.map fun entry => (getTokenId entry.1, entry.2) := by
  refine reports_complete externals depositStored_reachable ?_
  rw [← Std.ExtTreeMap.length_toList, depositStored_record]
  decide

end SubaccountIndexer.Reports
