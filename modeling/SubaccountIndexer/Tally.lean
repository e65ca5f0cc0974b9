import SubaccountIndexer.History
import SubaccountIndexer.Queries
import SubaccountIndexer.Lib.Balance
import SubaccountIndexer.Lib.Contents

/-! The books of the store. Records come in when a poll or an archive call stores them and when a
status is written back, go out when they are cleared and when another record is written over
them, and are in the store in between; the query that counts them counts the difference. -/

namespace SubaccountIndexer.Tally
open Lib (total contents contents_erase contents_insert_free contents_insert_held card_contents)

/-- A record as it was stored, before any sweep -/
def asStored (tx : StoredTransactions) : StoredTransactions := tx.withStatus .notSwept

/-- What an event brings into the store -/
def gained : Event → Multiset StoredTransactions
  | .stored tx _ => {asStored tx}
  | .statusWritten tx _ _ => {asStored tx}
  | _ => 0

/-- What an event takes out of the store -/
def lost : Event → Multiset StoredTransactions
  | .removed tx => {asStored tx}
  | .statusWritten _ _ (some previous) => {asStored previous}
  | _ => 0

/-- The records an event stores -/
def indexed : Event → Multiset StoredTransactions
  | .stored tx _ => {asStored tx}
  | _ => 0

/-- The records an event clears -/
def cleared : Event → Multiset StoredTransactions
  | .removed tx => {asStored tx}
  | _ => 0

/-- A status that is written back finds the record it belongs to. -/
def InPlace : Event → Prop
  | .statusWritten tx _ previous => previous.map asStored = some (asStored tx)
  | _ => True

instance : DecidablePred InPlace
  | .statusWritten tx _ previous =>
    inferInstanceAs (Decidable (previous.map asStored = some (asStored tx)))
  | .stored _ _ | .removed _ | .answered _ _ _ | .webhook _ | .transfer _ _
  | .subaccountTransfer _ | .replied _ _ | .trapped _ => inferInstanceAs (Decidable True)

variable {E : Externals} {store store' : Transactions} {e : Event} {os : List Event}
  {start σ : System}

/-- An event changes what the store holds by what it brings and what it takes. -/
theorem Change.books (h : Change store e store') :
    contents asStored store' + lost e = contents asStored store + gained e := by
  cases h with
  | stored free => exact (add_zero _).trans (contents_insert_free asStored free _)
  | @statusWritten tx status =>
    cases hprevious : store[tx.index]? with
    | none => exact (add_zero _).trans (contents_insert_free asStored hprevious _)
    | some previous => exact contents_insert_held asStored hprevious _
  | removed held => exact (contents_erase asStored held).trans (add_zero _).symm
  | _ => rfl

/-- While statuses are written back in place, only indexing brings records in and only clearing
takes them out. -/
theorem total_inPlace (inPlace : ∀ e ∈ os, InPlace e) : ∃ rewritten : Multiset StoredTransactions,
    total gained os = total indexed os + rewritten ∧ total lost os = total cleared os + rewritten := by
  induction os with
  | nil => exact ⟨0, rfl, rfl⟩
  | cons e rest ih =>
    obtain ⟨he, hrest⟩ := List.forall_mem_cons.mp inPlace
    obtain ⟨rewritten, hgained, hlost⟩ := ih hrest
    rw [Lib.total_cons, Lib.total_cons, Lib.total_cons, Lib.total_cons, hgained, hlost]
    cases e with
    | statusWritten tx status previous =>
      obtain ⟨old, rfl, hsame⟩ := Option.map_eq_some_iff.mp he
      refine ⟨{asStored tx} + rewritten, ?_, ?_⟩
      · simp only [gained, indexed]
        abel
      · simp only [lost, cleared, hsame]
        abel
    | _ => exact ⟨rewritten, (add_assoc _ _ _).symm, (add_assoc _ _ _).symm⟩

/-- In every run from the installation on, what the store holds and what it has lost is what it
has gained, and `get_transactions_count` is the difference. While statuses are written back in
place, the store holds what was indexed but for what was cleared. -/
theorem store_tallied (E : Externals) (installed : Installed E start)
    (run : (machine E).Run (fun _ _ => True) start os σ) :
    contents asStored σ.canister.transactions + total lost os = total gained os ∧
      getTransactionsCount σ.canister =
        .ok (UInt32.ofNat ((total gained os).card - (total lost os).card)) ∧
      ((∀ e ∈ os, InPlace e) →
        contents asStored σ.canister.transactions + total cleared os = total indexed os) := by
  have hbooks := run.balance (P := fun s => Keyed s.canister.transactions)
    (fun s => contents asStored s.canister.transactions) lost gained
    (by simp [installed.canister.2.1, keyed_empty]) fun s i s' os' hkeyed _ fires =>
      ⟨keyed_step hkeyed (fires_of_step E fires),
        ((fires_of_step E fires).journal hkeyed).balance (contents asStored) lost gained
          fun _ _ _ => Change.books⟩
  rw [installed.canister.2.1, Lib.contents_empty, zero_add] at hbooks
  refine ⟨hbooks, ?_, fun inPlace => ?_⟩
  · have hcard := congrArg Multiset.card hbooks
    rw [Multiset.card_add, card_contents] at hcard
    rw [getTransactionsCount, ← hcard, Nat.add_sub_cancel]
  · obtain ⟨rewritten, hgained, hlost⟩ := total_inPlace inPlace
    rw [hgained, hlost, ← add_assoc] at hbooks
    exact add_right_cancel hbooks

open Examples in
/-- A deposit is indexed and swept. -/
theorem store_tallied_swept :
    getTransactionsCount swept.canister = .ok 1 ∧
      contents asStored swept.canister.transactions +
        total cleared (sweepingEvents ++ (machine externals).emitted sweeping (transferred 1)) =
          total indexed (sweepingEvents ++ (machine externals).emitted sweeping (transferred 1)) := by
  have run := (sweeping_run (G := fun _ _ => True) trivial trivial trivial).next
    (i := transferred 1) trivial (by decide +kernel)
  obtain ⟨-, hcount, hheld⟩ := store_tallied externals start_installed run
  have hplace : ∀ e ∈ sweepingEvents ++ (machine externals).emitted sweeping (transferred 1),
      InPlace e := by decide +kernel
  exact ⟨hcount.trans (by decide +kernel), hheld hplace⟩

end SubaccountIndexer.Tally
