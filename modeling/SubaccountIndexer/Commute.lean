import SubaccountIndexer.Lib.Reorder
import SubaccountIndexer.Pending
import SubaccountIndexer.Events

/-! The order in which the ledgers answer. Messages that wait for transfers of different records
go on independently of each other: the answers to them can come in any order, and the store, the
reports and the transfers issued are the same. -/

namespace SubaccountIndexer.Commute

variable (E : Externals)

/-- The answer to the transfer a task waits for -/
def answer (a : Nat × Except String Nat) : Input := .reply a.1 (.transfer a.2)

/-- The task an input is for -/
def addressee : Input → Nat
  | .reply n _ => n
  | _ => 0

/-- No two tasks hold copies of records under the same key. -/
def Apart (σ : System) : Prop :=
  ∀ (m n : Nat) (task task' : Task), m ≠ n → σ.tasks[m]? = some task → σ.tasks[n]? = some task' →
    ∀ tx ∈ task.pending, ∀ tx' ∈ task'.pending, tx.index ≠ tx'.index

/-- The store after the record a task writes back, if it writes one -/
def written (write : Option StoredTransactions) (store : Transactions) : Transactions :=
  match write with
  | some tx => store.insert tx.index tx
  | none => store

/-- The answer to a transfer makes the task write back `write` and go on as `next`, whatever else
is in the store. A panic writes nothing back. -/
structure Answer (c : Canister) (task : Task) (result : Except String Nat)
    (write : Option StoredTransactions) (next : Task) (events : List Event) : Prop where
  fires : ∀ store : Transactions,
    (∀ tx, write = some tx → store[tx.index]? = c.transactions[tx.index]?) → ∀ place,
      (resumeTask E { c with transactions := store } task (.transfer result)).map
          (System.settle { c with transactions := store } place []) =
        some (⟨{ c with transactions := written write store }, place next⟩, events)
  pending : ∀ tx ∈ next.pending, tx ∈ task.pending
  holds : ∀ tx, write = some tx → ∃ tx' ∈ task.pending, tx'.index = tx.index

variable {E} {c : Canister} {task next : Task} {result : Except String Nat}
  {write write' : Option StoredTransactions} {events os : List Event} {σ σ' τ : System}
  {tx : StoredTransactions} {n : Nat}

/-! ## One answer -/

/-- A loop does not look at the store. -/
theorem sweepTxs_store (c : Canister) (store : Transactions) (results : List String)
    (txs : List StoredTransactions) : sweepTxs E { c with transactions := store } results txs =
      ⟨{ c with transactions := store }, (sweepTxs E c results txs).status,
        (sweepTxs E c results txs).events⟩ := by
  cases txs with
  | nil => rfl
  | cons tx rest =>
    have hcall : sweepCall E { c with transactions := store } tx = sweepCall E c tx := rfl
    simp only [sweepTxs, hcall]
    split <;> rfl

/-- A record that is too long to be written back makes the message panic. -/
theorem trapped_answer (trap : Trap) (traps : ∀ store : Transactions,
    resumeTask E { c with transactions := store } task (.transfer result) = some (.error trap)) :
    ∃ write next events, Answer E c task result write next events := by
  refine ⟨none, .trapped, [.trapped trap], fun store _ place => ?_, ?_, ?_⟩
  · rw [traps store]
    rfl
  · rintro tx' ⟨⟩
  · rintro _ ⟨⟩

theorem sweep_answer (c : Canister) (tx : StoredTransactions) (rest : List StoredTransactions)
    (results : List String) (result : Except String Nat) : ∃ write next events,
      Answer E c (.sweep tx rest results) result write next events := by
  let status := (recordTransfer E tx result).1
  let line := (recordTransfer E tx result).2 ++
    statusText (statusUpdated c.transactions tx status).2
  let turn := sweepTxs E c (results ++ [line]) rest
  by_cases hfits : tx.Fits
  · refine ⟨some (tx.withStatus status), turn.toTurn.task,
      [.replied tx result, .statusWritten tx status c.transactions[tx.index]?] ++ turn.events,
      ?_, ?_, ?_⟩
    · intro store agrees place
      have hsame := agrees _ rfl
      rw [StoredTransactions.withStatus_index] at hsame
      simp only [resumeTask, sweepReply_ok _ _ _ _ hfits, sweepRecorded, statusUpdated, hsame,
        sweepTxs_store]
      rfl
    · intro tx' htx'
      refine List.mem_cons_of_mem _ ?_
      cases rest with
      | nil => cases htx'
      | cons tx'' rest =>
        simp only [turn, sweepTxs] at htx'
        split at htx'
        · cases htx'
        · exact htx'
    · rintro _ ⟨⟩
      exact ⟨tx, .head _, rfl⟩
  · refine trapped_answer (lengthTrap tx.toBytes.length) fun store => ?_
    simp only [resumeTask, sweepReply_error _ _ _ _ hfits]
    rfl

theorem refund_answer (c : Canister) (tx : StoredTransactions) (result : Except String Nat) :
    ∃ write next events, Answer E c (.refund tx) result write next events := by
  cases result with
  | error message =>
    refine ⟨none, .finished (.error message), [.replied tx (.error message)], ?_, ?_, ?_⟩
    · exact fun _ _ _ => rfl
    · rintro tx' ⟨⟩
    · rintro _ ⟨⟩
  | ok block =>
    by_cases hfits : tx.Fits
    · refine ⟨some (tx.withStatus .swept), (refundRecorded c tx (.ok block)).toTurn.task,
        (refundRecorded c tx (.ok block)).events, ?_, ?_, ?_⟩
      · intro store agrees place
        have hsame := agrees _ rfl
        rw [StoredTransactions.withStatus_index] at hsame
        simp only [resumeTask, refundReply_ok _ fun _ _ => hfits, refundRecorded, statusUpdated,
          hsame]
        rfl
      · rintro tx' ⟨⟩
      · rintro _ ⟨⟩
        exact ⟨tx, .head _, rfl⟩
    · refine trapped_answer (lengthTrap tx.toBytes.length) fun store => ?_
      simp only [resumeTask, refundReply_error _ _ hfits]
      rfl

/-- Every task that waits for a transfer goes on, or panics, when it is answered. -/
theorem answer_of_resumes {out : Except Trap Turn}
    (resumes : resumeTask E c task (.transfer result) = some out) :
    ∃ write next events, Answer E c task result write next events := by
  cases task with
  | sweep tx rest results => exact sweep_answer c tx rest results result
  | refund tx => exact refund_answer c tx result
  | sweepSubaccount t =>
    exact ⟨none, _, _, fun store _ _ => rfl, fun tx' htx' => (by cases htx'), by rintro _ ⟨⟩⟩
  | _ => cases resumes

/-- What the store holds elsewhere does not matter to an answer. -/
theorem Answer.store (store : Transactions) (h : Answer E c task result write next events)
    (agrees : ∀ tx, write = some tx → store[tx.index]? = c.transactions[tx.index]?) :
    Answer E { c with transactions := store } task result write next events where
  fires store' agrees' := h.fires store' fun tx htx => (agrees' tx htx).trans (agrees tx htx)
  pending := h.pending
  holds := h.holds

theorem written_other {store : Transactions} {k : UInt64} (other : ∀ tx, write = some tx → tx.index ≠ k) :
    (written write store)[k]? = store[k]? := by
  cases write with
  | none => rfl
  | some tx => rw [written, getElem?_insert, if_neg (other tx rfl)]

/-- Records are written under different keys in any order. -/
theorem written_comm {store : Transactions}
    (apart : ∀ tx tx', write = some tx → write' = some tx' → tx.index ≠ tx'.index) :
    written write (written write' store) = written write' (written write store) := by
  cases write with
  | none => rfl
  | some tx =>
    cases write' with
    | none => rfl
    | some tx' =>
      refine Std.ExtTreeMap.ext_getElem? fun k => ?_
      simp only [written, getElem?_insert]
      have hne := apart tx tx' rfl rfl
      split
      · rename_i htx
        rw [if_neg fun htx' => hne (htx.trans htx'.symm)]
      · rfl

/-! ## Two answers -/

theorem answeredBlocks_transfer (task : Task) (result : Except String Nat) :
    answeredBlocks E task (.transfer result) = [] := by
  cases task <;> rfl

/-- A step on the answer to a transfer -/
theorem step_answer {a : Nat × Except String Nat} :
    (machine E).step σ (answer a) = some (σ', os) ↔ ∃ task write next, σ.tasks[a.1]? = some task ∧
      Answer E σ.canister task a.2 write next os ∧
      σ' = ⟨{ σ.canister with transactions := written write σ.canister.transactions },
        σ.tasks.set a.1 next⟩ := by
  constructor
  · intro h
    simp only [machine, answer, System.step] at h
    split at h
    · cases h
    · rename_i task waits
      obtain ⟨out, hout, -⟩ := Option.map_eq_some_iff.mp h
      obtain ⟨write, next, events, hanswer⟩ := answer_of_resumes hout
      have hfires := hanswer.fires σ.canister.transactions (fun _ _ => rfl) (σ.tasks.set a.1)
      rw [answeredBlocks_transfer, hfires] at h
      cases h
      exact ⟨task, write, next, waits, hanswer, rfl⟩
  · rintro ⟨task, write, next, waits, hanswer, rfl⟩
    have hfires := hanswer.fires σ.canister.transactions (fun _ _ => rfl) (σ.tasks.set a.1)
    simp only [machine, answer, System.step, waits, answeredBlocks_transfer]
    exact hfires

theorem Apart.set (h : Apart σ) (waits : σ.tasks[n]? = some task)
    (shrinks : ∀ tx ∈ next.pending, tx ∈ task.pending) (c : Canister) :
    Apart ⟨c, σ.tasks.set n next⟩ := by
  have hold : ∀ (m : Nat) task', (σ.tasks.set n next)[m]? = some task' →
      ∃ old, σ.tasks[m]? = some old ∧ ∀ tx ∈ task'.pending, tx ∈ old.pending := by
    intro m task' htask
    rw [List.getElem?_set] at htask
    split at htask
    · rename_i heq
      subst heq
      split at htask
      · cases htask
        exact ⟨task, waits, shrinks⟩
      · cases htask
    · exact ⟨task', htask, fun _ h => h⟩
  intro m n' a b hne ha hb tx htx tx' htx'
  obtain ⟨old, hm, hsub⟩ := hold m a ha
  obtain ⟨old', hn, hsub'⟩ := hold n' b hb
  exact h m n' old old' hne hm hn tx (hsub tx htx) tx' (hsub' tx' htx')

/-- Answers to different tasks commute while the tasks hold copies of different records. -/
theorem answers_commuting :
    (machine E).Commuting addressee (fun i => ∃ a, i = answer a) Apart where
  keeps := by
    rintro σ _ σ' os apart ⟨a, rfl⟩ fires
    obtain ⟨task, write, next, waits, hanswer, rfl⟩ := step_answer.mp fires
    exact apart.set waits hanswer.pending _
  swaps := by
    rintro σ _ _ σ' τ os os' apart ⟨a, rfl⟩ ⟨b, rfl⟩ hne fires fires'
    have hne : a.1 ≠ b.1 := hne
    obtain ⟨task, write, next, waits, hanswer, rfl⟩ := step_answer.mp fires
    obtain ⟨task', write', next', waits', hanswer', rfl⟩ := step_answer.mp fires'
    rw [List.getElem?_set_ne hne] at waits'
    -- the keys under which the two tasks write are different
    have hkeys : ∀ tx tx', write = some tx → write' = some tx' → tx.index ≠ tx'.index := by
      intro tx tx' htx htx'
      obtain ⟨copy, hcopy, hindex⟩ := hanswer.holds tx htx
      obtain ⟨copy', hcopy', hindex'⟩ := hanswer'.holds tx' htx'
      rw [← hindex, ← hindex']
      exact apart a.1 b.1 task task' hne waits waits' copy hcopy copy' hcopy'
    have hsecond : Answer E σ.canister task' b.2 write' next' os' :=
      hanswer'.store σ.canister.transactions fun tx' htx' =>
        (written_other fun tx htx => hkeys tx tx' htx htx').symm
    have hfirst : Answer E
        { σ.canister with transactions := written write' σ.canister.transactions } task a.2 write
        next os :=
      hanswer.store _ fun tx htx => written_other fun tx' htx' => (hkeys tx tx' htx htx').symm
    refine ⟨_, step_answer.mpr ⟨task', write', next', waits', hsecond, rfl⟩,
      step_answer.mpr ⟨task, write, next, ?_, hfirst, ?_⟩⟩
    · exact (List.getElem?_set_ne hne.symm).trans waits
    · dsimp only
      rw [List.set_comm _ _ hne, written_comm hkeys]

/-- Tasks that hold copies of different records can be answered in any order: as long as each gets
its own answers in order, the state they lead to is the same, and so are the events but for their
order. -/
theorem answers_reorder (E : Externals) {σ τ : System} {os : List Event}
    {answers answers' : List (Nat × Except String Nat)} (apart : Apart σ)
    (same : ∀ n, answers.filter (·.1 = n) = answers'.filter (·.1 = n))
    (feeds : (machine E).feed σ (answers.map answer) = some (τ, os)) :
    ∃ os', (machine E).feed σ (answers'.map answer) = some (τ, os') ∧ os'.Perm os := by
  refine answers_commuting.feed_reorder apart (fun i hi => ?_) (fun n => ?_) feeds
  · obtain ⟨a, -, rfl⟩ := List.mem_map.mp hi
    exact ⟨a, rfl⟩
  · have hfilter : ∀ l : List (Nat × Except String Nat),
        (l.map answer).filter (addressee · = n) = (l.filter (·.1 = n)).map answer := by
      intro l
      rw [List.filter_map]
      rfl
    rw [hfilter, hfilter, same]

/-! ## Sweeps of different tokens -/

variable {t t' : TokenType} {caller caller' : Principal} {os' : List Event}

/-- A sweep of a token holds copies of records of that token. -/
theorem sweepByTokenType_pending (keyed : Keyed σ.canister.transactions)
    (h : Fires E σ (.call caller (.sweepByTokenType t)) σ' os) :
    σ'.canister.transactions = σ.canister.transactions ∧ ∃ task, σ'.tasks = σ.tasks ++ [task] ∧
      ∀ tx ∈ task.pending, σ.canister.transactions[tx.index]? = some tx ∧ tx.tokenType = t := by
  cases h with
  | rejected | callTraps => exact ⟨rfl, _, rfl, fun tx htx => nomatch htx⟩
  | call allowed runs =>
    cases runs
    refine ⟨?_, _, rfl, fun tx htx => ?_⟩
    · rw [show (sweepTxs E σ.canister [] _).toTurn.canister = _ from sweepTxs_canister E _ _ _]
    · have hmem := (sweepTxs_run _ _ _).pending htx
      have hselected := (lastTransactions_sublist _ _).subset hmem
      refine ⟨(keyed.storedWhere _).held tx hselected, ?_⟩
      simpa using (Bool.and_eq_true_iff.mp (List.mem_filter.mp hselected).2).2

/-- Two sweeps of different tokens hold copies of different records. -/
theorem apart_tokens (keyed : Keyed σ.canister.transactions)
    (idle : ∀ task ∈ σ.tasks, task.pending = []) (distinct : t ≠ t')
    (first : (machine E).step σ (.call caller (.sweepByTokenType t)) = some (σ', os))
    (second : (machine E).step σ' (.call caller' (.sweepByTokenType t')) = some (τ, os')) :
    Apart τ := by
  obtain ⟨hstore, a, ha, hpending⟩ := sweepByTokenType_pending keyed (fires_of_step E first)
  obtain ⟨-, b, hb, hpending'⟩ := sweepByTokenType_pending (hstore ▸ keyed) (fires_of_step E second)
  -- a copy is held by the first sweep or by the second
  have hholds : ∀ (m : Nat) task, τ.tasks[m]? = some task → ∀ tx ∈ task.pending,
      σ.canister.transactions[tx.index]? = some tx ∧
        (m = σ.tasks.length ∧ tx.tokenType = t ∨ m = σ.tasks.length + 1 ∧ tx.tokenType = t') := by
    intro m task hm tx htx
    rw [hb, ha, List.append_assoc, List.getElem?_append] at hm
    split at hm
    · rw [idle task (List.mem_of_getElem? hm)] at htx
      cases htx
    · rename_i hpast
      match hrest : m - σ.tasks.length with
      | 0 =>
        rw [hrest] at hm
        cases hm
        exact ⟨(hpending tx htx).1, .inl ⟨by omega, (hpending tx htx).2⟩⟩
      | 1 =>
        rw [hrest] at hm
        cases hm
        exact ⟨hstore ▸ (hpending' tx htx).1, .inr ⟨by omega, (hpending' tx htx).2⟩⟩
      | rest + 2 =>
        rw [hrest] at hm
        cases hm
  intro m n task task' hne hm hn tx htx tx' htx' heq
  obtain ⟨hheld, hplace⟩ := hholds m task hm tx htx
  obtain ⟨hheld', hplace'⟩ := hholds n task' hn tx' htx'
  rw [heq, hheld'] at hheld
  cases hheld
  rcases hplace with ⟨rfl, htoken⟩ | ⟨rfl, htoken⟩ <;>
    rcases hplace' with ⟨rfl, htoken'⟩ | ⟨rfl, htoken'⟩
  · exact hne rfl
  · exact distinct (htoken.symm.trans htoken')
  · exact distinct (htoken'.symm.trans htoken)
  · exact hne rfl

open Examples

/-- A second deposit, on the ckUSDC ledger -/
def usdcRecord : StoredTransactions :=
  { record with index := 5, tokenType := .ckusdc,
                tokenLedgerCanisterId := some CKUSDC_LEDGER_CANISTER_ID }

def twoDeposits : System :=
  ⟨{ depositStored.canister with
    transactions := depositStored.canister.transactions.insert 5 usdcRecord }, []⟩

abbrev icpSweep : System := (machine externals).after twoDeposits (.call custodian (.sweepByTokenType .icp))

abbrev bothSweeps : System :=
  (machine externals).after icpSweep (.call custodian (.sweepByTokenType .ckusdc))

theorem answers_reorder_tokens : ∃ τ os os',
    (machine externals).feed bothSweeps ([(0, .ok 7), (1, .error "BadFee")].map answer) = some (τ, os) ∧
      (machine externals).feed bothSweeps ([(1, .error "BadFee"), (0, .ok 7)].map answer) =
        some (τ, os') ∧ os'.Perm os := by
  have keyed : Keyed twoDeposits.canister.transactions :=
    (reachable_keyed depositStored_reachable).insert usdcRecord
  have apart : Apart bothSweeps := apart_tokens keyed (by simp [twoDeposits]) (by decide)
    (Lib.Machine.step_of_accepted (M := machine externals) (by decide +kernel))
    (Lib.Machine.step_of_accepted (M := machine externals) (by decide +kernel))
  obtain ⟨⟨τ, os⟩, feeds⟩ := Option.isSome_iff_exists.mp (show ((machine externals).feed bothSweeps
    ([(0, .ok 7), (1, .error "BadFee")].map answer)).isSome = true by decide +kernel)
  obtain ⟨os', feeds', hperm⟩ : ∃ os', (machine externals).feed bothSweeps
      ([(1, .error "BadFee"), (0, .ok 7)].map answer) = some (τ, os') ∧ os'.Perm os :=
    answers_reorder externals apart (fun n => by
      match n with
      | 0 | 1 | n + 2 => simp) feeds
  exact ⟨τ, os, os', feeds, feeds', hperm⟩

end SubaccountIndexer.Commute
