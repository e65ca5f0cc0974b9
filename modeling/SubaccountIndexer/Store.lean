import SubaccountIndexer.Types
import SubaccountIndexer.Lib.Journal

/-! The store as its journal sees it. Three kinds of events change the store:
a new record under a free key, a status written back, a record removed. The
loops of the canister are shown to write such journals; what a property of the
store needs is then checked once for each kind of event. -/

namespace SubaccountIndexer

/-- What one event does to the store -/
inductive Change : Transactions → Event → Transactions → Prop
  | stored {store : Transactions} {tx : StoredTransactions} {ledgerIndex : UInt64}
      (free : store[tx.index]? = none) :
      Change store (.stored tx ledgerIndex) (store.insert tx.index tx)
  | statusWritten {store : Transactions} {tx : StoredTransactions} {status : SweepStatus} :
      Change store (.statusWritten tx status store[tx.index]?)
        (store.insert tx.index (tx.withStatus status))
  | removed {store : Transactions} {tx : StoredTransactions}
      (held : store[tx.index]? = some tx) : Change store (.removed tx) (store.erase tx.index)
  | answered {store : Transactions} {t : TokenType} {next : UInt64} {blocks : List Block} :
      Change store (.answered t next blocks) store
  | webhook {store : Transactions} {hash : String} : Change store (.webhook hash) store
  | transfer {store : Transactions} {tx : StoredTransactions} {call : TransferCall} :
      Change store (.transfer tx call) store
  | subaccountTransfer {store : Transactions} {call : TransferCall} :
      Change store (.subaccountTransfer call) store
  | replied {store : Transactions} {tx : StoredTransactions} {reply : Except String Nat} :
      Change store (.replied tx reply) store
  | trapped {store : Transactions} {trap : Trap} : Change store (.trapped trap) store

abbrev StoreJournal := Lib.Journal Change

/-- Every record is stored under its own index. -/
def Keyed (store : Transactions) : Prop :=
  ∀ (i : UInt64) (tx : StoredTransactions), store[i]? = some tx → tx.index = i

/-- The events after which a record that was stored is no longer there as it was -/
def Event.rewrites : Event → Option UInt64
  | .statusWritten tx _ _ => some tx.index
  | .removed tx => some tx.index
  | _ => none

/-- The entry an event adds to the store: its token and its index -/
def Event.entry : Event → Option (TokenType × UInt64)
  | .stored tx _ => some (tx.tokenType, tx.index)
  | _ => none

variable {store store' : Transactions} {e : Event} {os : List Event} {i : UInt64}
  {tx : StoredTransactions}

/-- Insertion into a map with block numbers or hashes for keys -/
theorem getElem?_insert {α : Type} (map : Std.ExtTreeMap UInt64 α) (k : UInt64) (a : α)
    (i : UInt64) : (map.insert k a)[i]? = if k = i then some a else map[i]? := by
  simp only [Std.ExtTreeMap.getElem?_insert, Std.compare_eq_iff_eq]

theorem getElem?_erase (store : Transactions) (k i : UInt64) :
    (store.erase k)[i]? = if k = i then none else store[i]? := by
  simp only [Std.ExtTreeMap.getElem?_erase, Std.compare_eq_iff_eq]

/-- The entries are listed in the order of their keys. -/
theorem toList_ascending (store : Transactions) :
    store.toList.Pairwise fun a b => a.1 < b.1 := by
  have hordered : store.toList.Pairwise fun a b => compare a.1 b.1 = .lt :=
    Std.ExtTreeMap.ordered_keys_toList
  exact hordered.imp Std.compare_eq_lt.mp

theorem Keyed.index_eq (h : Keyed store) {entry : UInt64 × StoredTransactions}
    (mem : entry ∈ store.toList) : entry.2.index = entry.1 :=
  h _ _ (Std.ExtTreeMap.mem_toList_iff_getElem?_eq_some.mp mem)

theorem keyed_empty : Keyed ∅ := by simp [Keyed]

theorem Keyed.insert (h : Keyed store) (tx : StoredTransactions) :
    Keyed (store.insert tx.index tx) := by
  intro i tx' hi
  rw [getElem?_insert] at hi
  split at hi
  · cases hi; assumption
  · exact h i tx' hi

theorem Keyed.change (h : Keyed store) (hc : Change store e store') : Keyed store' := by
  cases hc with
  | stored free => exact h.insert _
  | @statusWritten tx status => exact h.insert (tx.withStatus status)
  | removed held =>
    intro i tx' hi
    rw [getElem?_erase] at hi
    split at hi
    · cases hi
    · exact h i tx' hi
  | _ => exact h

theorem Keyed.journal (h : Keyed store) (hj : StoreJournal store os store') : Keyed store' :=
  hj.keeps h fun _ _ _ _ hk hc => hk.change hc

/-- A record that no event of the journal rewrites is still there. -/
theorem Change.keep (hc : Change store e store') (held : store[i]? = some tx)
    (other : e.rewrites ≠ some i) : store'[i]? = some tx := by
  cases hc with
  | @stored tx' _ free =>
    rw [getElem?_insert, if_neg (by rintro rfl; rw [free] at held; cases held)]
    exact held
  | statusWritten =>
    rw [getElem?_insert, if_neg fun h => other (by simp [Event.rewrites, h])]
    exact held
  | removed _ =>
    rw [getElem?_erase, if_neg fun h => other (by simp [Event.rewrites, h])]
    exact held
  | _ => exact held

theorem StoreJournal.keep (hj : StoreJournal store os store') (held : store[i]? = some tx)
    (other : ∀ e ∈ os, e.rewrites ≠ some i) : store'[i]? = some tx :=
  hj.keeps (P := fun s => s[i]? = some tx) held fun _ e _ he hs hc => hc.keep hs (other e he)

/-- A record that was not there before was written by an event of the journal. -/
theorem Change.origin (hc : Change store e store') (held : store'[i]? = some tx) :
    store[i]? = some tx ∨ (∃ j, e = .stored tx j ∧ tx.index = i) ∨
      ∃ tx' status previous, e = .statusWritten tx' status previous ∧ tx'.index = i ∧
        tx = tx'.withStatus status := by
  cases hc with
  | @stored tx' j free =>
    rw [getElem?_insert] at held
    split at held
    · cases held; exact .inr (.inl ⟨j, rfl, ‹_›⟩)
    · exact .inl held
  | @statusWritten tx' status =>
    rw [getElem?_insert] at held
    split at held
    · cases held; exact .inr (.inr ⟨tx', status, _, rfl, ‹_›, rfl⟩)
    · exact .inl held
  | removed _ =>
    rw [getElem?_erase] at held
    split at held
    · cases held
    · exact .inl held
  | _ => exact .inl held

theorem StoreJournal.origin (hj : StoreJournal store os store') (held : store'[i]? = some tx) :
    store[i]? = some tx ∨ (∃ j, .stored tx j ∈ os ∧ tx.index = i) ∨
      ∃ tx' status previous, .statusWritten tx' status previous ∈ os ∧ tx'.index = i ∧
        tx = tx'.withStatus status := by
  refine hj.keeps
    (P := fun s => ∀ i tx, s[i]? = some tx → store[i]? = some tx ∨
      (∃ j, .stored tx j ∈ os ∧ tx.index = i) ∨ ∃ tx' status previous,
        .statusWritten tx' status previous ∈ os ∧ tx'.index = i ∧ tx = tx'.withStatus status)
    (fun _ _ h => .inl h) ?_ i tx held
  intro s e s' hmem hs hc i tx hi
  rcases hc.origin hi with hi | ⟨j, rfl, hidx⟩ | ⟨tx', status, previous, rfl, hidx, heq⟩
  · exact hs i tx hi
  · exact .inr (.inl ⟨j, hmem, hidx⟩)
  · exact .inr (.inr ⟨tx', status, previous, hmem, hidx, heq⟩)

/-! A journal that rewrites nothing only adds records. -/

theorem StoreJournal.held (hj : StoreJournal store os store')
    (adds : ∀ e ∈ os, e.rewrites = none) {j : UInt64} (he : .stored tx j ∈ os) :
    store'[tx.index]? = some tx := by
  refine hj.history
    (P := fun s seen => ∀ tx j, Event.stored tx j ∈ seen → s[tx.index]? = some tx)
    (by simp) ?_ tx j he
  intro s seen e s' hmem hseen hc tx j hin
  rcases List.mem_append.mp hin with hin | hin
  · exact hc.keep (hseen tx j hin) (by simp [adds e hmem])
  · obtain rfl : .stored tx j = e := by simpa using hin
    cases hc
    rw [getElem?_insert, if_pos rfl]

theorem StoreJournal.added (hj : StoreJournal store os store')
    (adds : ∀ e ∈ os, e.rewrites = none) (h : store'[i]? = some tx) :
    store[i]? = some tx ∨ (tx.index = i ∧ ∃ j, .stored tx j ∈ os) := by
  rcases hj.origin h with h | ⟨j, hmem, hidx⟩ | ⟨tx', status, previous, hmem, -, -⟩
  · exact .inl h
  · exact .inr ⟨hidx, j, hmem⟩
  · simpa [Event.rewrites] using adds _ hmem

theorem mem_entries {entry : TokenType × UInt64} :
    entry ∈ os.filterMap Event.entry ↔
      ∃ tx j, .stored tx j ∈ os ∧ entry = (tx.tokenType, tx.index) := by
  rw [List.mem_filterMap]
  constructor
  · intro hmem
    obtain ⟨e, he, hentry⟩ := hmem
    cases e with
    | stored tx j => cases hentry; exact ⟨tx, j, he, rfl⟩
    | _ => cases hentry
  · intro hstored
    obtain ⟨tx, j, he, rfl⟩ := hstored
    exact ⟨.stored tx j, he, rfl⟩

/-- New records go under distinct keys that were free. -/
theorem StoreJournal.fresh (hj : StoreJournal store os store')
    (adds : ∀ e ∈ os, e.rewrites = none) :
    (os.filterMap Event.entry).Nodup ∧
      ∀ tx j, .stored tx j ∈ os → store[tx.index]? = none := by
  -- along the journal, the keys it has used are taken and those taken at the start still are
  have hrun := hj.history
    (P := fun s seen => (seen.filterMap Event.entry).Nodup ∧
      (∀ tx j, .stored tx j ∈ seen → store[tx.index]? = none ∧ s[tx.index]? ≠ none) ∧
      ∀ (i : UInt64) tx, store[i]? = some tx → s[i]? = some tx)
    ⟨List.nodup_nil, by simp, fun _ _ h => h⟩ ?_
  · exact ⟨hrun.1, fun tx j he => (hrun.2.1 tx j he).1⟩
  intro s seen e s' hmem ⟨hnodup, hseen, hkeep⟩ hc
  have hstep : ∀ (i : UInt64) tx, s[i]? = some tx → s'[i]? = some tx :=
    fun i tx hi => hc.keep hi (by simp [adds e hmem])
  have htaken : ∀ tx j, .stored tx j ∈ seen → store[tx.index]? = none ∧ s'[tx.index]? ≠ none := by
    intro tx j he
    obtain ⟨hfree, htaken⟩ := hseen tx j he
    obtain ⟨tx', htx'⟩ := Option.ne_none_iff_exists'.mp htaken
    exact ⟨hfree, by simp [hstep _ _ htx']⟩
  rw [List.filterMap_append]
  cases e with
  | @stored tx j =>
    cases hc with
    | stored free =>
    refine ⟨?_, fun tx' j' he => ?_, fun i tx' hi => hstep i tx' (hkeep i tx' hi)⟩
    · refine List.nodup_append.mpr ⟨hnodup, List.nodup_singleton _, ?_⟩
      rintro _ ha _ hb rfl
      obtain ⟨tx', j', he, heq⟩ := mem_entries.mp ha
      obtain ⟨-, hindex⟩ : tx.tokenType = tx'.tokenType ∧ tx.index = tx'.index := by
        rw [heq] at hb
        simpa [Event.entry, eq_comm] using hb
      exact (hseen tx' j' he).2 (hindex ▸ free)
    · rcases List.mem_append.mp he with he | he
      · exact htaken tx' j' he
      · obtain ⟨rfl, rfl⟩ : tx' = tx ∧ j' = j := by simpa using he
        refine ⟨?_, by rw [getElem?_insert, if_pos rfl]; simp⟩
        by_contra hheld
        obtain ⟨tx'', htx''⟩ := Option.ne_none_iff_exists'.mp hheld
        rw [hkeep _ _ htx''] at free
        cases free
  | _ =>
    refine ⟨by simpa [List.filterMap_cons, Event.entry] using hnodup, fun tx' j' he => ?_,
      fun i tx' hi => hstep i tx' (hkeep i tx' hi)⟩
    rcases List.mem_append.mp he with he | he
    · exact htaken tx' j' he
    · simp at he

end SubaccountIndexer
