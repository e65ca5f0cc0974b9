import SubaccountIndexer.History

/-! The records a message in flight holds a copy of: a sweep of those it awaits or
has still to go over, a refund of the one it pays back. A copy is taken from the store
when the message starts and is written back, with a new status, after an await. -/

namespace SubaccountIndexer

/-- The copies a task holds -/
def Task.pending : Task → List StoredTransactions
  | .sweep tx rest _ => tx :: rest
  | .refund tx => [tx]
  | _ => []

variable {E : Externals} {c : Canister} {turn : Turn}

/-! ## Where copies come from -/

theorem Method.selection_selected {method : Method} {txs : List StoredTransactions}
    (keyed : Keyed c.transactions) (h : method.selection c = some txs) :
    Selected c.transactions txs := by
  cases method with
  | sweep => cases h; exact (keyed.storedWhere _).sublist (lastTransactions_sublist _ _)
  | sweepByTokenType t => cases h; exact (keyed.storedWhere _).sublist (lastTransactions_sublist _ _)
  | singleSweep hash => cases h; exact keyed.storedWhere _
  | _ => cases h

theorem SweepRun.pending {results : List String} {txs : List StoredTransactions}
    {turn : SweepTurn} (h : SweepRun E c results txs turn) {tx : StoredTransactions}
    (mem : tx ∈ turn.toTurn.task.pending) : tx ∈ txs := by
  cases h with
  | returned _ => simp [SweepTurn.toTurn, Task.pending] at mem
  | awaiting _ => exact mem

/-- A new message holds copies of what is in the store. -/
theorem Ran.pending {method : Method} (keyed : Keyed c.transactions) (h : Ran E c method turn)
    {tx : StoredTransactions} (mem : tx ∈ turn.task.pending) :
    c.transactions[tx.index]? = some tx := by
  cases h with
  | sweep selects =>
    exact (method.selection_selected keyed selects).held tx ((sweepTxs_run _ _ _).pending mem)
  | refund runs =>
    cases runs with
    | returned => simp [RefundTurn.toTurn, Task.pending] at mem
    | @awaiting transaction args ledger held builds =>
      obtain rfl : tx = transaction := by simpa [RefundTurn.toTurn, Task.pending] using mem
      rwa [keyed _ _ held]
  | _ => simp [Task.pending, Turn.done] at mem

/-- A resumed message holds no copy it did not hold before. -/
theorem Resumes.pending {task : Task} {reply : Reply} (h : Resumes E c task reply turn)
    {tx : StoredTransactions} (mem : tx ∈ turn.task.pending) : tx ∈ task.pending := by
  cases h with
  | @sweep tx' rest results result =>
    obtain ⟨status, turn, lines, heq, -, hrun⟩ :=
      sweepRecorded_spec (E := E) c tx' rest results result
    rw [heq] at mem
    exact List.mem_cons_of_mem _ (hrun.pending mem)
  | @refund tx' result => cases result <;> simp [refundRecorded, RefundTurn.toTurn, Task.pending] at mem
  | @poll t p next reply answer pt answers scans =>
    unfold PollTurn.toTurn at mem
    split at mem <;> simp [Task.pending] at mem
  | @archive await reply turn answers =>
    obtain ⟨c', status, events⟩ := turn
    cases status <;> simp [ArchiveTurn.toTurn, Task.pending] at mem
  | webhook | sweepSubaccount => simp [Task.pending, Turn.done, sweepSubaccountReply] at mem
  | setCustodian =>
    unfold setCustodianReply at mem
    dsimp only at mem
    revert mem
    repeat' split
    all_goals simp [Task.pending, Turn.done]

/-- The copies held anywhere in the system -/
def System.Pending (σ : System) (tx : StoredTransactions) : Prop :=
  ∃ task ∈ σ.tasks, tx ∈ task.pending

variable {σ σ' : System} {i : Input} {os : List Event} {tx : StoredTransactions}

/-- After a step a copy was held before, or it is fresh from the store. -/
theorem Fires.pending (keyed : Keyed σ.canister.transactions) (h : Fires E σ i σ' os)
    (pending : σ'.Pending tx) :
    σ.Pending tx ∨
      (σ.canister.transactions[tx.index]? = some tx ∧ ∃ method, σ.runs E i = some method) := by
  obtain ⟨task, htask, hmem⟩ := pending
  cases h with
  | timer running =>
    rcases List.mem_append.mp htask with htask | htask
    · exact .inl ⟨task, htask, hmem⟩
    · obtain ⟨p, -, rfl⟩ := List.mem_map.mp htask
      simp [Task.pending] at hmem
  | rejected message =>
    rcases List.mem_append.mp htask with htask | htask
    · exact .inl ⟨task, htask, hmem⟩
    · obtain rfl := List.mem_singleton.mp htask
      simp [Task.pending] at hmem
  | call allowed runs =>
    rcases List.mem_append.mp htask with htask | htask
    · exact .inl ⟨task, htask, hmem⟩
    · obtain rfl := List.mem_singleton.mp htask
      exact .inr ⟨(ran_of_ok E runs).pending keyed hmem, _, allowed⟩
  | callTraps traps =>
    rcases List.mem_append.mp htask with htask | htask
    · exact .inl ⟨task, htask, hmem⟩
    · obtain rfl := List.mem_singleton.mp htask
      simp [Task.pending] at hmem
  | reply waits resumes =>
    rcases List.mem_or_eq_of_mem_set htask with htask | rfl
    · exact .inl ⟨task, htask, hmem⟩
    · exact .inl ⟨_, List.mem_of_getElem? waits, (resumes_of_ok E resumes).pending hmem⟩
  | replyTraps waits resumes =>
    rcases List.mem_or_eq_of_mem_set htask with htask | rfl
    · exact .inl ⟨task, htask, hmem⟩
    · simp [Task.pending] at hmem
  | upgrade => simp at htask

/-! ## Records of one transaction -/

namespace StoredTransactions.SameTransaction

variable {a b c : StoredTransactions}

@[refl] theorem refl (a : StoredTransactions) : a.SameTransaction a := rfl
theorem symm (h : a.SameTransaction b) : b.SameTransaction a := Eq.symm h
theorem trans (h : a.SameTransaction b) (h' : b.SameTransaction c) : a.SameTransaction c :=
  Eq.trans h h'

theorem withStatus (a : StoredTransactions) (s : SweepStatus) :
    (a.withStatus s).SameTransaction a := rfl

theorem index (h : a.SameTransaction b) : a.index = b.index := by
  simpa using congrArg StoredTransactions.index h

theorem tokenType (h : a.SameTransaction b) : a.tokenType = b.tokenType := by
  simpa [StoredTransactions.withStatus] using congrArg StoredTransactions.tokenType h

theorem createdAtTime (h : a.SameTransaction b) : a.createdAtTime = b.createdAtTime := by
  simpa [StoredTransactions.withStatus] using congrArg StoredTransactions.createdAtTime h

end StoredTransactions.SameTransaction

/-- Every record of `store` is still in `store'`, with any status. -/
def Kept (store store' : Transactions) : Prop :=
  ∀ (k : UInt64) (e : StoredTransactions), store[k]? = some e →
    ∃ e', store'[k]? = some e' ∧ e'.SameTransaction e

theorem Kept.refl (store : Transactions) : Kept store store := fun _ e h => ⟨e, h, .refl e⟩

theorem Kept.trans {a b c : Transactions} (h : Kept a b) (h' : Kept b c) : Kept a c := by
  intro k e hk
  obtain ⟨e', hk', hsame⟩ := h k e hk
  obtain ⟨e'', hk'', hsame'⟩ := h' k e' hk'
  exact ⟨e'', hk'', hsame'.trans hsame⟩

/-- A status write that finds a record of its own transaction -/
def Event.Rightful : Event → Prop
  | .statusWritten tx _ previous => ∃ e, previous = some e ∧ e.SameTransaction tx
  | _ => True

def Event.isRemoval : Event → Bool
  | .removed _ => true
  | _ => false

/-- Status writes that are rightful, and insertions, keep what is stored. -/
theorem Change.kept {store store' : Transactions} {e : Event} (h : Change store e store')
    (rightful : e.Rightful) (noRemoval : e.isRemoval = false) : Kept store store' := by
  intro k old hk
  cases h with
  | stored free =>
    refine ⟨old, ?_, .refl old⟩
    rw [getElem?_insert, if_neg (by rintro rfl; rw [free] at hk; cases hk)]
    exact hk
  | @statusWritten tx status =>
    obtain ⟨e, he, hsame⟩ := rightful
    by_cases heq : tx.index = k
    · subst heq
      obtain rfl : old = e := Option.some.inj (hk.symm.trans he)
      have hwritten := StoredTransactions.SameTransaction.withStatus tx status
      refine ⟨tx.withStatus status, ?_, hwritten.trans hsame.symm⟩
      rw [getElem?_insert, if_pos rfl]
    · exact ⟨old, by rw [getElem?_insert, if_neg heq]; exact hk, .refl old⟩
  | removed held => cases noRemoval
  | _ => exact ⟨old, hk, .refl old⟩

theorem kept_of_journal {store store' : Transactions} (h : StoreJournal store os store')
    (rightful : ∀ e ∈ os, e.Rightful) (noRemoval : ∀ e ∈ os, e.isRemoval = false) :
    Kept store store' :=
  h.keeps (Kept.refl store) fun _ e _ he hs hc =>
    hs.trans (hc.kept (rightful e he) (noRemoval e he))

/-! ## Which status writes are rightful -/

/-- The store holds a record of the transaction `tx` is a record of. -/
def Holds (store : Transactions) (tx : StoredTransactions) : Prop :=
  ∃ e, store[tx.index]? = some e ∧ e.SameTransaction tx

theorem Holds.kept {store store' : Transactions} (h : Holds store tx)
    (kept : Kept store store') : Holds store' tx := by
  obtain ⟨e, he, hsame⟩ := h
  obtain ⟨e', he', hsame'⟩ := kept _ e he
  exact ⟨e', he', hsame'.trans hsame⟩

theorem holds_insert {store : Transactions} {tx' : StoredTransactions} {status : SweepStatus}
    (h : Holds store tx) (h' : Holds store tx') :
    Holds (store.insert tx'.index (tx'.withStatus status)) tx := by
  have change : Change store (.statusWritten tx' status store[tx'.index]?)
      (store.insert tx'.index (tx'.withStatus status)) := .statusWritten
  exact h.kept (change.kept h' rfl)

theorem failedRecorded_rightful (store : Transactions) (txs : List StoredTransactions)
    (held : ∀ tx ∈ txs, Holds store tx) :
    ∀ e ∈ (failedRecorded store txs).2, e.Rightful ∧ e.isRemoval = false := by
  induction txs generalizing store with
  | nil => simp [failedRecorded]
  | cons tx rest ih =>
    intro e he
    rcases List.mem_cons.mp he with rfl | he
    · exact ⟨held tx (by simp), rfl⟩
    · exact ih _ (fun tx' htx' => holds_insert (held tx' (by simp [htx'])) (held tx (by simp)))
        e he

theorem SweepRun.rightful {results : List String} {txs : List StoredTransactions}
    {turn : SweepTurn} (h : SweepRun E c results txs turn) :
    ∀ e ∈ turn.events, e.Rightful ∧ e.isRemoval = false := by
  cases h <;> simp [Event.Rightful, Event.isRemoval]

/-- The events of a method call -/
theorem Ran.rightful {method : Method} (keyed : Keyed c.transactions) (h : Ran E c method turn) :
    (∀ e ∈ turn.events, e.Rightful ∧ e.isRemoval = false) ∨
      ∃ upToIndex upToTimestamp, method = .clearTransactions upToIndex upToTimestamp ∧
        turn.canister.transactions =
          (clearTransactions c.transactions upToIndex upToTimestamp).1 ∧
        turn.events = (clearTransactions c.transactions upToIndex upToTimestamp).2 := by
  cases h with
  | sweep selects => exact .inl (sweepTxs_run _ _ _).rightful
  | refund runs =>
    refine .inl ?_
    cases runs <;> simp [RefundTurn.toTurn, Event.Rightful, Event.isRemoval]
  | clear => exact .inr ⟨_, _, rfl, rfl, rfl⟩
  | @fail hash result =>
    refine .inl (failedRecorded_rightful _ _ fun tx htx => ?_)
    exact ⟨tx, (keyed.storedWhere _).held tx htx, .refl tx⟩
  | archive | setCustodian | sweepSubaccount | done =>
    exact .inl (by simp [Turn.done, Event.Rightful, Event.isRemoval])

/-- The events of a resumed task: it writes back a copy it holds. -/
theorem Resumes.rightful {task : Task} {reply : Reply} (h : Resumes E c task reply turn)
    (held : ∀ tx ∈ task.pending, Holds c.transactions tx) :
    ∀ e ∈ turn.events, e.Rightful ∧ e.isRemoval = false := by
  cases h with
  | @poll t p next reply answer pt answers scans =>
    rw [(pt.toTurn_transactions t).2]
    cases scans with
    | failed => simp
    | scanned scan count quiet =>
      intro e he
      rcases List.mem_append.mp he with he | he
      · obtain ⟨tx, -, rfl⟩ := List.mem_map.mp he
        exact ⟨trivial, rfl⟩
      · obtain ⟨hash, rfl⟩ := quiet e he
        exact ⟨trivial, rfl⟩
  | @sweep tx rest results result =>
    obtain ⟨status, turn, lines, heq, -, hrun⟩ :=
      sweepRecorded_spec (E := E) c tx rest results result
    rw [heq]
    intro e he
    rcases List.mem_append.mp he with he | he
    · rcases List.mem_cons.mp he with rfl | he
      · exact ⟨trivial, rfl⟩
      · obtain rfl := List.mem_singleton.mp he
        exact ⟨held tx (by simp [Task.pending]), rfl⟩
    · exact hrun.rightful e he
  | @refund tx result =>
    cases result with
    | error e => simp [refundRecorded, RefundTurn.toTurn, Event.Rightful, Event.isRemoval]
    | ok block =>
      intro e he
      rcases List.mem_cons.mp he with rfl | he
      · exact ⟨trivial, rfl⟩
      · obtain rfl := List.mem_singleton.mp he
        exact ⟨held tx (by simp [Task.pending]), rfl⟩
  | archive answers =>
    cases archived_of_ok E answers <;> simp [ArchiveTurn.toTurn, Event.Rightful, Event.isRemoval]
  | webhook | sweepSubaccount => simp [Turn.done, sweepSubaccountReply]
  | setCustodian =>
    unfold setCustodianReply
    dsimp only
    repeat' split
    all_goals simp [Turn.done]

theorem answeredBlocks_rightful (task : Task) (reply : Reply) :
    ∀ e ∈ answeredBlocks E task reply, e.Rightful ∧ e.isRemoval = false := by
  unfold answeredBlocks
  repeat' split
  all_goals simp [Event.Rightful, Event.isRemoval]

end SubaccountIndexer
