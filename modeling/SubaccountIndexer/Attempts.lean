import SubaccountIndexer.Events

/-! The transfers that sweeps and refunds in flight have issued or will issue, and what
makes them safe: they are for different records, and every record is still in the store as it
was when the message took its copy. A message that starts adds the records it will attempt,
an answer takes one away. -/

namespace SubaccountIndexer

variable (E : Externals)

/-- The records a message in flight has issued a transfer for or will -/
def Task.attempts (c : Canister) : Task → List StoredTransactions
  | .sweep tx rest _ => tx :: attempted E c rest
  | .refund tx => [tx]
  | _ => []

def System.attempts (σ : System) : List StoredTransactions :=
  σ.tasks.flatMap (Task.attempts E σ.canister)

/-- The records a call issues transfers for, if all its answers come -/
def Method.attempts (c : Canister) : Method → List StoredTransactions
  | .refund index => refundAttempts E c index
  | method => attempted E c ((method.selection c).getD [])

/-- `sweep` and `sweep_by_token_type` -/
def Method.isBatch : Method → Bool
  | .sweep | .sweepByTokenType _ => true
  | _ => false

/-- The methods that issue transfers for stored records -/
def Method.pays : Method → Bool
  | .singleSweep _ | .refund _ => true
  | method => method.isBatch

/-- The index of a record whose transfer the ledger carried out -/
def Event.success : Event → Option UInt64
  | .replied tx (.ok _) => some tx.index
  | _ => none

/-- The status an answer leads to -/
def answeredStatus : Except String Nat → SweepStatus
  | .ok _ => .swept
  | .error _ => .failedToSweep

/-- The records attempted by the messages in flight are distinct, in the store as they were
copied, and of a status with `P`. -/
structure Exclusive (P : SweepStatus → Prop) (σ : System) : Prop where
  keyed : Keyed σ.canister.transactions
  distinct : ((σ.attempts E).map StoredTransactions.index).Nodup
  held : ∀ tx ∈ σ.attempts E, σ.canister.transactions[tx.index]? = some tx ∧ P tx.sweepStatus

/-- Calls that pay and answers to transfers, where a call attempts records of a status with `P`
that no message in flight attempts. -/
structure PayInput (P : SweepStatus → Prop) (σ : System) (i : Input) : Prop where
  input : match i with
    | .call _ method => method.pays = true
    | .reply _ (.transfer _) => True
    | _ => False
  status : ∀ method, σ.runs E i = some method → ∀ tx ∈ method.attempts E σ.canister,
    P tx.sweepStatus
  apart : ∀ method, σ.runs E i = some method → ∀ tx ∈ method.attempts E σ.canister,
    ∀ tx' ∈ σ.attempts E, tx.index ≠ tx'.index

/-- What such a step does: it issues transfers for records it will wait for, leaves the records
without `P` alone, and marks the one record whose transfer succeeded. -/
structure PayStep (P : SweepStatus → Prop) (σ : System) (os : List Event) (σ' : System) :
    Prop where
  exclusive : Exclusive E P σ'
  transfers : ∀ tx call, .transfer tx call ∈ os → tx ∈ σ'.attempts E
  kept : ∀ (k : UInt64) e, σ.canister.transactions[k]? = some e → ¬ P e.sweepStatus →
    σ'.canister.transactions[k]? = some e
  successes : os.filterMap Event.success = [] ∨ ∃ tx ∈ σ.attempts E,
    os.filterMap Event.success = [tx.index] ∧
      σ'.canister.transactions[tx.index]? = some (tx.withStatus .swept)

/-- A turn in which a message starts: it will attempt `new`. -/
structure Starts (c : Canister) (new : List StoredTransactions) (turn : Turn) : Prop where
  canister : turn.canister = c
  attempts : turn.task.attempts E c = new
  transfers : ∀ e ∈ turn.events, ∃ tx call, e = .transfer tx call ∧ tx ∈ new

/-- A turn in which a message gets the answer to a transfer: nothing waited for it, a failed
refund ends, or a status is written and the message goes on. -/
inductive Answered (c : Canister) (task : Task) (result : Except String Nat) (turn : Turn) : Prop
  | idle (attempts : task.attempts E c = []) (next : turn.task.attempts E c = [])
      (canister : turn.canister = c) (events : turn.events = [])
  | failed {tx : StoredTransactions} {message : String} (error : result = .error message)
      (attempts : task.attempts E c = [tx]) (next : turn.task.attempts E c = [])
      (canister : turn.canister = c) (events : turn.events = [.replied tx result])
  | written {tx : StoredTransactions} {rest : List StoredTransactions}
      {previous : Option StoredTransactions} {issued : List Event}
      (attempts : task.attempts E c = tx :: rest) (next : turn.task.attempts E c = rest)
      (canister : turn.canister = { c with
        transactions := c.transactions.insert tx.index (tx.withStatus (answeredStatus result)) })
      (events : turn.events =
        [.replied tx result, .statusWritten tx (answeredStatus result) previous] ++ issued)
      (transfers : ∀ e ∈ issued, ∃ tx call, e = .transfer tx call ∧ tx ∈ rest)

variable {E} {c : Canister} {turn : Turn} {P : SweepStatus → Prop} {σ σ' : System} {i : Input}
  {os : List Event} {tx : StoredTransactions}

/-! ## Turns -/

theorem SweepRun.starts {results : List String} {txs : List StoredTransactions}
    {turn : SweepTurn} (h : SweepRun E c results txs turn) :
    Starts E c (attempted E c txs) turn.toTurn := by
  cases h with
  | returned none => exact ⟨rfl, none.symm, by simp [SweepTurn.toTurn]⟩
  | awaiting builds =>
    rw [attempted_cons builds]
    refine ⟨rfl, rfl, fun e he => ?_⟩
    obtain rfl := List.mem_singleton.mp he
    exact ⟨_, _, rfl, .head _⟩

theorem RefundRun.starts {index : UInt64} {turn : RefundTurn} (h : RefundRun E c index turn) :
    Starts E c (refundAttempts E c index) turn.toTurn := by
  cases h with
  | returned none => exact ⟨rfl, none.symm, by simp [RefundTurn.toTurn]⟩
  | awaiting held builds =>
    rw [refundAttempts_awaiting held builds]
    refine ⟨rfl, rfl, fun e he => ?_⟩
    obtain rfl := List.mem_singleton.mp he
    exact ⟨_, _, rfl, .head _⟩

theorem runMethod_starts {caller : Principal} {method : Method} (pays : method.pays = true)
    (h : runMethod E c caller method = .ok turn) : Starts E c (method.attempts E c) turn := by
  cases method with
  | sweep | singleSweep _ | sweepByTokenType _ => cases h; exact (sweepTxs_run _ _ _).starts
  | refund index =>
    simp only [runMethod] at h
    cases hr : refund E c index with
    | error trap => rw [hr] at h; cases h
    | ok turn => rw [hr] at h; cases h; exact (refund_run hr).starts
  | _ => cases pays

theorem Resumes.answered {task : Task} {result : Except String Nat}
    (h : Resumes E c task (.transfer result) turn) : Answered E c task result turn := by
  cases h with
  | @sweep tx rest results =>
    obtain ⟨status, turn, lines, heq, hstatus, hrun⟩ :=
      sweepRecorded_spec (E := E) c tx rest results result
    obtain rfl : status = answeredStatus result := by rw [hstatus]; cases result <;> rfl
    have hstarts := hrun.starts
    rw [heq]
    exact .written rfl hstarts.attempts hrun.silent.1 rfl hstarts.transfers
  | @refund tx =>
    cases result with
    | error message => exact .failed rfl rfl rfl rfl rfl
    | ok block => exact .written rfl rfl rfl rfl fun e he => absurd he List.not_mem_nil
  | sweepSubaccount => exact .idle rfl rfl rfl rfl

/-! ## Steps -/

theorem Task.attempts_transactions (c : Canister) (store : Transactions) :
    Task.attempts E { c with transactions := store } = Task.attempts E c :=
  funext fun task => by cases task <;> rfl

theorem System.attempts_append (σ : System) (task : Task) :
    System.attempts E ⟨σ.canister, σ.tasks ++ [task]⟩ =
      σ.attempts E ++ task.attempts E σ.canister := by
  simp [System.attempts]

/-- Replacing a task replaces its attempts. -/
theorem System.attempts_set {n : Nat} {task : Task} (waits : σ.tasks[n]? = some task)
    (store : Transactions) (task' : Task) :
    ∃ before after, σ.attempts E = before ++ (task.attempts E σ.canister ++ after) ∧
      System.attempts E ⟨{ σ.canister with transactions := store }, σ.tasks.set n task'⟩ =
        before ++ (task'.attempts E σ.canister ++ after) := by
  obtain ⟨hn, heq⟩ := List.getElem?_eq_some_iff.mp waits
  have hset : ∀ other, σ.tasks.set n other = σ.tasks.take n ++ other :: σ.tasks.drop (n + 1) :=
    fun other => by rw [List.set_eq_take_append_cons_drop, if_pos hn]
  have hself : σ.tasks = σ.tasks.take n ++ task :: σ.tasks.drop (n + 1) := by
    rw [← hset task, ← heq, List.set_getElem_self]
  refine ⟨(σ.tasks.take n).flatMap (Task.attempts E σ.canister),
    (σ.tasks.drop (n + 1)).flatMap (Task.attempts E σ.canister), ?_, ?_⟩
  · rw [System.attempts]
    conv => lhs; rw [hself]
    rw [List.flatMap_append, List.flatMap_cons]
  · rw [System.attempts, Task.attempts_transactions, hset task', List.flatMap_append,
      List.flatMap_cons]

theorem Exclusive.start (h : Exclusive E P σ) {new : List StoredTransactions}
    (starts : Starts E σ.canister new turn) (selected : Selected σ.canister.transactions new)
    (status : ∀ tx ∈ new, P tx.sweepStatus)
    (apart : ∀ tx ∈ new, ∀ tx' ∈ σ.attempts E, tx.index ≠ tx'.index) :
    System.attempts E ⟨turn.canister, σ.tasks ++ [turn.task]⟩ = σ.attempts E ++ new ∧
      Exclusive E P ⟨turn.canister, σ.tasks ++ [turn.task]⟩ := by
  have hattempts : System.attempts E ⟨turn.canister, σ.tasks ++ [turn.task]⟩ =
      σ.attempts E ++ new := by
    rw [starts.canister, System.attempts_append, starts.attempts]
  refine ⟨hattempts, ?_, ?_, ?_⟩
  · rw [starts.canister]
    exact h.keyed
  · rw [hattempts, List.map_append]
    refine List.nodup_append.mpr ⟨h.distinct, selected.distinct, ?_⟩
    intro a ha b hb
    obtain ⟨tx', htx', rfl⟩ := List.mem_map.mp ha
    obtain ⟨tx, htx, rfl⟩ := List.mem_map.mp hb
    exact (apart tx htx tx' htx').symm
  · intro tx htx
    rw [hattempts] at htx
    rw [starts.canister]
    rcases List.mem_append.mp htx with htx | htx
    · exact h.held tx htx
    · exact ⟨selected.held tx htx, status tx htx⟩

/-- The attempts of one task become fewer, and the others keep their records. -/
theorem Exclusive.shrink (h : Exclusive E P σ) {n : Nat} {task task' : Task}
    {store : Transactions} (waits : σ.tasks[n]? = some task) (keyed : Keyed store)
    (sub : (task'.attempts E σ.canister).Sublist (task.attempts E σ.canister))
    (held : ∀ tx ∈ System.attempts E
      ⟨{ σ.canister with transactions := store }, σ.tasks.set n task'⟩,
      σ.canister.transactions[tx.index]? = some tx → store[tx.index]? = some tx) :
    Exclusive E P ⟨{ σ.canister with transactions := store }, σ.tasks.set n task'⟩ := by
  obtain ⟨before, after, hold, hnew⟩ := System.attempts_set (E := E) waits store task'
  have hsub : (System.attempts E
      ⟨{ σ.canister with transactions := store }, σ.tasks.set n task'⟩).Sublist
      (σ.attempts E) := by
    rw [hold, hnew]
    exact (List.Sublist.refl _).append (sub.append (List.Sublist.refl _))
  refine ⟨keyed, h.distinct.sublist (hsub.map _), fun tx htx => ?_⟩
  obtain ⟨hstored, hstatus⟩ := h.held tx (hsub.subset htx)
  exact ⟨held tx htx hstored, hstatus⟩

theorem filterMap_success_transfers {issued : List Event}
    (h : ∀ e ∈ issued, ∃ tx call, e = .transfer tx call) : issued.filterMap Event.success = [] := by
  refine List.filterMap_eq_nil_iff.mpr fun e he => ?_
  obtain ⟨tx, call, rfl⟩ := h e he
  rfl

/-- A call that pays -/
theorem payStep_call {method : Method} (exclusive : Exclusive E P σ)
    (selected : Selected σ.canister.transactions (method.attempts E σ.canister))
    (starts : Starts E σ.canister (method.attempts E σ.canister) turn)
    (status : ∀ tx ∈ method.attempts E σ.canister, P tx.sweepStatus)
    (apart : ∀ tx ∈ method.attempts E σ.canister, ∀ tx' ∈ σ.attempts E, tx.index ≠ tx'.index) :
    PayStep E P σ turn.events ⟨turn.canister, σ.tasks ++ [turn.task]⟩ := by
  obtain ⟨hattempts, hexclusive⟩ := exclusive.start starts selected status apart
  refine ⟨hexclusive, fun tx call he => ?_, fun k e hk _ => ?_, .inl ?_⟩
  · obtain ⟨tx', call', heq, hmem⟩ := starts.transfers _ he
    cases heq
    rw [hattempts]
    exact List.mem_append_right _ hmem
  · rw [starts.canister]
    exact hk
  · refine filterMap_success_transfers fun e he => ?_
    obtain ⟨tx, call, rfl, -⟩ := starts.transfers e he
    exact ⟨tx, call, rfl⟩

/-- A step that takes attempts away, leaves the store alone and reports no success -/
theorem payStep_quiet (exclusive : Exclusive E P σ) {n : Nat} {task task' : Task}
    (waits : σ.tasks[n]? = some task) (next : task'.attempts E σ.canister = [])
    (issues : ∀ tx call, .transfer tx call ∉ os) (fails : os.filterMap Event.success = []) :
    PayStep E P σ os ⟨σ.canister, σ.tasks.set n task'⟩ where
  exclusive := exclusive.shrink waits exclusive.keyed
    (by rw [next]; exact List.nil_sublist _) fun _ _ h => h
  transfers tx call he := absurd he (issues tx call)
  kept _ _ h _ := h
  successes := .inl fails

/-- An answer writes the status of the record it is about: the other attempts are for other
records. -/
theorem payStep_written (exclusive : Exclusive E P σ) {n : Nat} {task task' : Task}
    {rest : List StoredTransactions} {result : Except String Nat}
    {previous : Option StoredTransactions} {issued : List Event}
    (waits : σ.tasks[n]? = some task) (attempts : task.attempts E σ.canister = tx :: rest)
    (next : task'.attempts E σ.canister = rest)
    (transfers : ∀ e ∈ issued, ∃ tx call, e = .transfer tx call ∧ tx ∈ rest) :
    PayStep E P σ
      ([.replied tx result, .statusWritten tx (answeredStatus result) previous] ++ issued)
      ⟨{ σ.canister with
          transactions := σ.canister.transactions.insert tx.index
            (tx.withStatus (answeredStatus result)) }, σ.tasks.set n task'⟩ := by
  obtain ⟨before, after, hold, hnew⟩ := System.attempts_set (E := E) waits
    (σ.canister.transactions.insert tx.index (tx.withStatus (answeredStatus result))) task'
  rw [attempts, List.cons_append] at hold
  rw [next] at hnew
  have hkeyed := exclusive.keyed.insert (tx.withStatus (answeredStatus result))
  have hmem : tx ∈ σ.attempts E := by simp [hold]
  obtain ⟨hstored, hstatus⟩ := exclusive.held tx hmem
  have hothers : ∀ tx' ∈ before ++ (rest ++ after), tx.index ≠ tx'.index := by
    intro tx' htx' heq
    have hdistinct := exclusive.distinct
    rw [hold, List.map_append, List.map_cons, List.nodup_middle, List.nodup_cons,
      ← List.map_append] at hdistinct
    exact hdistinct.1 (List.mem_map.mpr ⟨tx', htx', heq.symm⟩)
  refine ⟨exclusive.shrink waits hkeyed ?_ ?_, ?_, ?_, ?_⟩
  · rw [attempts, next]
    exact List.sublist_cons_self _ _
  · intro tx' htx' hheld
    rw [hnew] at htx'
    rw [getElem?_insert, if_neg (hothers tx' htx')]
    exact hheld
  · intro tx' call he
    rcases List.mem_append.mp he with he | he
    · simp at he
    · obtain ⟨tx'', call', heq, hrest⟩ := transfers _ he
      cases heq
      rw [hnew]
      simp [hrest]
  · intro k e hk hnot
    rw [getElem?_insert, if_neg]
    · exact hk
    · rintro rfl
      obtain rfl : tx = e := Option.some.inj (hstored.symm.trans hk)
      exact hnot hstatus
  · have hissued : issued.filterMap Event.success = [] :=
      filterMap_success_transfers fun e he => by
        obtain ⟨tx, call, rfl, -⟩ := transfers e he
        exact ⟨tx, call, rfl⟩
    rw [List.filterMap_append, hissued]
    cases result with
    | error message => exact .inl rfl
    | ok block => exact .inr ⟨tx, hmem, rfl, by rw [getElem?_insert, if_pos rfl]; rfl⟩

theorem Method.attempts_selected {method : Method} (keyed : Keyed c.transactions) :
    Selected c.transactions (method.attempts E c) := by
  have hselection : ∀ method : Method,
      Selected c.transactions (attempted E c ((method.selection c).getD [])) := by
    intro method
    cases hs : method.selection c with
    | none => exact ⟨List.nodup_nil, by simp [attempted]⟩
    | some txs => exact (method.selection_selected keyed hs).sublist (attempted_sublist _ _)
  cases method with
  | refund index =>
    refine Selected.sublist ⟨?_, ?_⟩ List.filter_sublist
    · cases c.transactions[index]? <;> simp
    · intro tx htx
      have hheld : c.transactions[index]? = some tx := by simpa using htx
      rw [keyed _ _ hheld, hheld]
  | _ => exact hselection _

theorem answeredBlocks_transfer (task : Task) (result : Except String Nat) :
    answeredBlocks E task (.transfer result) = [] := by cases task <;> rfl

theorem payStep (exclusive : Exclusive E P σ) (input : PayInput E P σ i)
    (h : Fires E σ i σ' os) : PayStep E P σ os σ' := by
  have hidle : ∀ task : Task, task.attempts E σ.canister = [] → ∀ os : List Event,
      (∀ tx call, .transfer tx call ∉ os) → os.filterMap Event.success = [] →
      PayStep E P σ os ⟨σ.canister, σ.tasks ++ [task]⟩ := by
    intro task htask os hissues hfails
    have hattempts : System.attempts E ⟨σ.canister, σ.tasks ++ [task]⟩ = σ.attempts E := by
      rw [System.attempts_append, htask, List.append_nil]
    exact ⟨⟨exclusive.keyed, hattempts ▸ exclusive.distinct, fun tx htx =>
      exclusive.held tx (hattempts ▸ htx)⟩, fun tx call he => absurd he (hissues tx call),
      fun _ _ h _ => h, .inl hfails⟩
  cases h with
  | timer | upgrade => exact absurd input.input id
  | rejected message => exact hidle _ rfl [] (by simp) rfl
  | callTraps traps => exact hidle _ rfl _ (by simp) rfl
  | @call caller method turn allowed runs =>
    exact payStep_call exclusive (Method.attempts_selected exclusive.keyed)
      (runMethod_starts input.input runs) (input.status method allowed)
      (input.apart method allowed)
  | @replyTraps n reply task trap waits resumes =>
    cases reply with
    | transfer result =>
      rw [answeredBlocks_transfer, List.nil_append]
      exact payStep_quiet exclusive waits rfl (by simp) rfl
    | _ => exact absurd input.input id
  | @reply n reply task turn waits resumes =>
    cases reply with
    | transfer result =>
      rw [answeredBlocks_transfer, List.nil_append]
      obtain ⟨c', task', events⟩ := turn
      cases (resumes_of_ok E resumes).answered with
      | idle attempts next canister events =>
        cases canister
        cases events
        exact payStep_quiet exclusive waits next (by simp) rfl
      | failed error attempts next canister events =>
        cases canister
        cases events
        subst error
        exact payStep_quiet exclusive waits next (by simp) rfl
      | written attempts next canister events transfers =>
        cases canister
        cases events
        exact payStep_written exclusive waits attempts next transfers
    | _ => exact absurd input.input id

/-! ## When nothing is in flight -/

/-- Attempts are for records a message holds a copy of. -/
theorem attempts_pending (h : tx ∈ σ.attempts E) : σ.Pending tx := by
  obtain ⟨task, htask, hmem⟩ := List.mem_flatMap.mp h
  refine ⟨task, htask, ?_⟩
  cases task with
  | sweep tx' rest results =>
    rcases List.mem_cons.mp hmem with rfl | hmem
    · exact .head _
    · exact .tail _ ((attempted_sublist _ _).subset hmem)
  | refund tx' => exact hmem
  | _ => cases hmem

theorem attempts_idle (idle : ∀ tx, ¬ σ.Pending tx) : σ.attempts E = [] :=
  List.eq_nil_iff_forall_not_mem.mpr fun tx h => idle tx (attempts_pending h)

theorem exclusive_idle (keyed : Keyed σ.canister.transactions) (idle : ∀ tx, ¬ σ.Pending tx) :
    Exclusive E P σ := by
  have hnone := attempts_idle (E := E) idle
  exact ⟨keyed, by simp [hnone], by simp [hnone]⟩

theorem idle_of_empty (h : σ.tasks.flatMap Task.pending = []) : ∀ tx, ¬ σ.Pending tx := by
  intro tx pending
  obtain ⟨task, htask, hmem⟩ := pending
  have hnone := List.flatMap_eq_nil_iff.mp h task htask
  rw [hnone] at hmem
  cases hmem

theorem Examples.depositStored_idle : ∀ tx, ¬ Examples.depositStored.Pending tx :=
  idle_of_empty (by decide +kernel)

end SubaccountIndexer
