import SubaccountIndexer.Attempts
import SubaccountIndexer.Amounts

/-! A call of `sweep` or `sweep_by_token_type` that nothing interrupts: its transfers are
answered one after the other, and no other message runs in between. The machine then computes
the loop of the source. -/

namespace SubaccountIndexer

variable (E : Externals)

/-- Where a sweep loop ends; a loop that panics has no result. -/
structure SweepEnd where
  canister : Canister
  result : Option (Except String (List String))
  events : List Event

/-- The canister and the report line once the transfer of a record is answered -/
def recordReply (c : Canister) (tx : StoredTransactions) (reply : Except String Nat) :
    Canister × String :=
  let (status, line) := recordTransfer E tx reply
  let (transactions, statusUpdate) := statusUpdated c.transactions tx status
  ({ c with transactions }, line ++ statusText statusUpdate)

/-- The loop of the sweeps, given the answers to its transfers in their order. It panics at a
record that is too long to be written back, whose transfer it has issued by then. -/
def sweepLoop :
    Canister → List String → List StoredTransactions → (Nat → Except String Nat) → SweepEnd
  | c, results, [], _ => ⟨c, some (.ok results), []⟩
  | c, results, tx :: rest, replies =>
    match sweepCall E c tx with
    | .error e => ⟨c, some (.error e), []⟩
    | .ok call =>
      if tx.Fits then
        let (next, line) := recordReply E c tx (replies 0)
        let later := sweepLoop next (results ++ [line]) rest fun j => replies (j + 1)
        { later with events := [.transfer tx call, .replied tx (replies 0),
          .statusWritten tx (answeredStatus (replies 0)) c.transactions[tx.index]?] ++ later.events }
      else ⟨c, none, [.transfer tx call, .trapped (lengthTrap tx.toBytes.length)]⟩

/-- The answers to the first `m` transfers of a message -/
def answers (n : Nat) (replies : Nat → Except String Nat) (m : Nat) : List Input :=
  (List.range m).map fun j => .reply n (.transfer (replies j))

/-- The task of a message that has ended; one that has panicked has no result. -/
def endedTask : Option (Except String Value) → Task
  | some result => .finished result
  | none => .trapped

/-- A call runs from its start to its end, and nothing else runs. -/
def Completes (σ : System) (caller : Principal) (method : Method)
    (replies : Nat → Except String Nat) (σ' : System) (os : List Event)
    (result : Option (Except String Value)) : Prop :=
  ∃ m, (machine E).feed σ (.call caller method :: answers σ.tasks.length replies m) =
      some (σ', os) ∧ σ'.tasks[σ.tasks.length]? = some (endedTask result)

/-- What a loop returns, as the result of a method -/
def SweepEnd.value (last : SweepEnd) : Option (Except String Value) :=
  last.result.map fun result => result.map .lines

variable {E} {c : Canister} {tasks : List Task} {replies : Nat → Except String Nat} {m : Nat}
  {σ σ' : System} {os : List Event} {result : Option (Except String Value)}

theorem answers_succ (n : Nat) : answers n replies (m + 1) =
    .reply n (.transfer (replies 0)) :: answers n (fun j => replies (j + 1)) m := by
  rw [answers, List.range_succ_eq_map, List.map_cons, List.map_map]
  rfl

theorem getElem?_last (task : Task) : (tasks ++ [task])[tasks.length]? = some task := by simp

theorem endedTask_injective : Function.Injective endedTask := by
  intro r r' h
  cases r <;> cases r' <;> cases h <;> rfl

/-- A message that has ended takes no answer. -/
theorem feed_ended {r : Option (Except String Value)} :
    (∃ m, (machine E).feed ⟨c, tasks ++ [endedTask r]⟩ (answers tasks.length replies m) =
        some (σ', os) ∧ σ'.tasks[tasks.length]? = some (endedTask result)) ↔
      result = r ∧ σ' = ⟨c, tasks ++ [endedTask result]⟩ ∧ os = [] := by
  constructor
  · rintro ⟨m, h, hended⟩
    cases m with
    | zero =>
      simp only [answers, List.range_zero, List.map_nil, Lib.Machine.feed, Option.some.injEq,
        Prod.mk.injEq] at h
      obtain ⟨rfl, rfl⟩ := h
      rw [getElem?_last, Option.some.injEq] at hended
      obtain rfl := endedTask_injective hended
      exact ⟨rfl, rfl, rfl⟩
    | succ m =>
      have hrefused : (machine E).step ⟨c, tasks ++ [endedTask r]⟩
          (.reply tasks.length (.transfer (replies 0))) = none := by
        simp only [machine, System.step, getElem?_last]
        cases r <;> rfl
      rw [answers_succ] at h
      obtain ⟨s, new, later, hstep, -⟩ := Lib.Machine.feed_cons.mp h
      rw [hrefused] at hstep
      cases hstep
  · rintro ⟨rfl, rfl, rfl⟩
    exact ⟨0, rfl, getElem?_last _⟩

theorem sweepReply_eq {tx : StoredTransactions} {rest : List StoredTransactions}
    {results : List String} {reply : Except String Nat} (fits : tx.Fits) :
    sweepReply E c tx rest results reply = .ok
      { sweepTxs E (recordReply E c tx reply).1 (results ++ [(recordReply E c tx reply).2]) rest with
        events := [.replied tx reply,
          .statusWritten tx (answeredStatus reply) c.transactions[tx.index]?] ++
            (sweepTxs E (recordReply E c tx reply).1
              (results ++ [(recordReply E c tx reply).2]) rest).events } := by
  rw [sweepReply_ok c rest results reply fits]
  cases reply <;> rfl

variable (E) in
/-- The records whose status the loop writes back: those before the first it cannot build the
arguments for or that is too long -/
def settled (c : Canister) (txs : List StoredTransactions) : List StoredTransactions :=
  txs.takeWhile fun tx => (sweepCall E c tx).isOk && decide tx.Fits

theorem settled_cons {tx : StoredTransactions} {rest : List StoredTransactions}
    {call : TransferCall} (builds : sweepCall E c tx = .ok call) (fits : tx.Fits) :
    settled E c (tx :: rest) = tx :: settled E c rest := by
  simp [settled, builds, fits, Except.isOk, Except.toBool]

theorem settled_sublist (c : Canister) (txs : List StoredTransactions) :
    (settled E c txs).Sublist txs := List.takeWhile_sublist _

theorem settled_fits {txs : List StoredTransactions} {tx : StoredTransactions}
    (mem : tx ∈ settled E c txs) : tx.Fits := by
  have hpred := List.mem_takeWhile_imp mem
  simpa using (Bool.and_eq_true_iff.mp hpred).2

theorem settled_recordReply (tx : StoredTransactions) (reply : Except String Nat)
    (txs : List StoredTransactions) :
    settled E (recordReply E c tx reply).1 txs = settled E c txs := rfl

/-- The answer to the transfer of the head takes the loop to the head of the rest. -/
theorem step_sweep {tx : StoredTransactions} {rest : List StoredTransactions}
    {results : List String} {reply : Except String Nat} (fits : tx.Fits) :
    (machine E).step ⟨c, tasks ++ [.sweep tx rest results]⟩
        (.reply tasks.length (.transfer reply)) =
      some (⟨(recordReply E c tx reply).1, tasks ++ [(sweepTxs E (recordReply E c tx reply).1
          (results ++ [(recordReply E c tx reply).2]) rest).toTurn.task]⟩,
        [.replied tx reply,
          .statusWritten tx (answeredStatus reply) c.transactions[tx.index]?] ++
            (sweepTxs E (recordReply E c tx reply).1
              (results ++ [(recordReply E c tx reply).2]) rest).events) := by
  simp only [machine, System.step, getElem?_last, resumeTask, Option.map_some, System.settle,
    answeredBlocks, List.nil_append, sweepReply_eq fits, Except.map]
  rw [List.set_append_right _ _ (Nat.le_refl _), Nat.sub_self]
  simp only [SweepTurn.toTurn, sweepTxs_canister, List.set_cons_zero]

/-- The answer to the transfer of a record that is too long makes the loop panic. -/
theorem step_sweep_traps {tx : StoredTransactions} {rest : List StoredTransactions}
    {results : List String} {reply : Except String Nat} (long : ¬ tx.Fits) :
    (machine E).step ⟨c, tasks ++ [.sweep tx rest results]⟩
        (.reply tasks.length (.transfer reply)) =
      some (⟨c, tasks ++ [.trapped]⟩, [.trapped (lengthTrap tx.toBytes.length)]) := by
  simp only [machine, System.step, getElem?_last, resumeTask, Option.map_some, System.settle,
    answeredBlocks, List.nil_append, sweepReply_error c rest results reply long, Except.map]
  rw [List.set_append_right _ _ (Nat.le_refl _), Nat.sub_self]
  rfl

theorem sweepTxs_events (c : Canister) (results : List String) (txs : List StoredTransactions)
    (replies : Nat → Except String Nat) : ∃ later,
      (sweepTxs E c results txs).events ++ later = (sweepLoop E c results txs replies).events := by
  cases txs with
  | nil => exact ⟨[], rfl⟩
  | cons tx rest =>
    cases hcall : sweepCall E c tx with
    | error e => exact ⟨[], by simp only [sweepTxs, sweepLoop, hcall, List.append_nil]⟩
    | ok call =>
      simp only [sweepTxs, sweepLoop, hcall]
      split <;> exact ⟨_, rfl⟩

/-- From where the loop stands at the head of `txs`, the answers to its transfers bring the
message to one end, and this is the end of the loop. -/
theorem feed_loop {results : List String} {txs : List StoredTransactions} :
    (∃ m, (machine E).feed ⟨c, tasks ++ [(sweepTxs E c results txs).toTurn.task]⟩
        (answers tasks.length replies m) = some (σ', os) ∧
      σ'.tasks[tasks.length]? = some (endedTask result)) ↔
    result = (sweepLoop E c results txs replies).value ∧
      σ' = ⟨(sweepLoop E c results txs replies).canister, tasks ++ [endedTask result]⟩ ∧
      (sweepTxs E c results txs).events ++ os = (sweepLoop E c results txs replies).events := by
  induction txs generalizing c results replies os with
  | nil => exact feed_ended (r := some (.ok (.lines results)))
  | cons tx rest ih =>
    cases hcall : sweepCall E c tx with
    | error e =>
      simp only [sweepTxs, sweepLoop, hcall]
      exact feed_ended (r := some (.error e))
    | ok call =>
      have hstands : sweepTxs E c results (tx :: rest) =
          ⟨c, .awaiting tx rest results, [.transfer tx call]⟩ := by
        simp only [sweepTxs, hcall]
      -- the message waits for an answer, and goes on with what the first one leads to
      have hfirst : (∃ m, (machine E).feed ⟨c, tasks ++ [.sweep tx rest results]⟩
            (answers tasks.length replies m) = some (σ', os) ∧
          σ'.tasks[tasks.length]? = some (endedTask result)) ↔
          ∃ s new later, (machine E).step ⟨c, tasks ++ [.sweep tx rest results]⟩
              (.reply tasks.length (.transfer (replies 0))) = some (s, new) ∧ os = new ++ later ∧
            ∃ m, (machine E).feed s (answers tasks.length (fun j => replies (j + 1)) m) =
                some (σ', later) ∧ σ'.tasks[tasks.length]? = some (endedTask result) := by
        constructor
        · rintro ⟨m, h, hended⟩
          cases m with
          | zero =>
            simp only [answers, List.range_zero, List.map_nil, Lib.Machine.feed, Option.some.injEq,
              Prod.mk.injEq] at h
            rw [← h.1, getElem?_last] at hended
            cases result <;> cases hended
          | succ m =>
            rw [answers_succ] at h
            obtain ⟨s, new, later, hstep, hfeed, rfl⟩ := Lib.Machine.feed_cons.mp h
            exact ⟨s, new, later, hstep, rfl, m, hfeed, hended⟩
        · rintro ⟨s, new, later, hstep, rfl, m, hfeed, hended⟩
          refine ⟨m + 1, ?_, hended⟩
          rw [answers_succ]
          exact Lib.Machine.feed_cons.mpr ⟨s, new, later, hstep, hfeed, rfl⟩
      rw [hstands]
      refine hfirst.trans ?_
      by_cases hfits : tx.Fits
      · simp only [sweepLoop, hcall, if_pos hfits, SweepEnd.value]
        constructor
        · rintro ⟨s, new, later, hstep, rfl, hrest⟩
          cases (step_sweep hfits).symm.trans hstep
          obtain ⟨hresult, hσ, hevents⟩ := ih.mp hrest
          refine ⟨hresult, hσ, ?_⟩
          rw [List.append_assoc, hevents]
          rfl
        · rintro ⟨hresult, hσ, hevents⟩
          obtain ⟨later, hlater⟩ := sweepTxs_events (E := E) (recordReply E c tx (replies 0)).1
            (results ++ [(recordReply E c tx (replies 0)).2]) rest fun j => replies (j + 1)
          refine ⟨_, _, later, step_sweep hfits, ?_, ih.mpr ⟨hresult, hσ, hlater⟩⟩
          rw [List.append_assoc, hlater]
          exact List.append_cancel_left hevents
      · simp only [sweepLoop, hcall, if_neg hfits, SweepEnd.value]
        constructor
        · rintro ⟨s, new, later, hstep, rfl, hrest⟩
          cases (step_sweep_traps hfits).symm.trans hstep
          obtain ⟨rfl, hσ, rfl⟩ := (feed_ended (r := none)).mp hrest
          exact ⟨rfl, hσ, rfl⟩
        · rintro ⟨rfl, hσ, hevents⟩
          refine ⟨_, _, [], step_sweep_traps hfits, ?_, feed_ended.mpr ⟨rfl, hσ, rfl⟩⟩
          exact List.append_cancel_left hevents

variable (replies) in
/-- What a completed sweep comes to -/
theorem completes_iff {caller : Principal} {method : Method} {txs : List StoredTransactions}
    (allowed : σ.runs E (.call caller method) = some method)
    (selects : method.selection σ.canister = some txs) :
    Completes E σ caller method replies σ' os result ↔
      result = (sweepLoop E σ.canister [] txs replies).value ∧
        σ' = ⟨(sweepLoop E σ.canister [] txs replies).canister, σ.tasks ++ [endedTask result]⟩ ∧
          os = (sweepLoop E σ.canister [] txs replies).events := by
  have hruns : runMethod E σ.canister caller method =
      .ok (sweepTxs E σ.canister [] txs).toTurn := by
    cases method <;> cases selects <;> rfl
  have hstep := step_of_runs E allowed hruns
  rw [show (sweepTxs E σ.canister [] txs).toTurn.canister = σ.canister from
    sweepTxs_canister E _ _ _] at hstep
  constructor
  · rintro ⟨m, h, hended⟩
    obtain ⟨s, new, later, hstep', hfeed, rfl⟩ := Lib.Machine.feed_cons.mp h
    cases hstep.symm.trans hstep'
    obtain ⟨hresult, hσ, hevents⟩ := feed_loop.mp ⟨m, hfeed, hended⟩
    exact ⟨hresult, hσ, hevents⟩
  · rintro ⟨hresult, hσ, rfl⟩
    obtain ⟨later, hlater⟩ := sweepTxs_events (E := E) σ.canister [] txs replies
    obtain ⟨m, hfeed, hended⟩ := feed_loop.mpr ⟨hresult, hσ, hlater⟩
    exact ⟨m, Lib.Machine.feed_cons.mpr ⟨_, _, later, hstep, hfeed, hlater.symm⟩, hended⟩

/-! ## What the loop does -/

variable (E) in
/-- The records the loop writes back, each with the answer to its transfer -/
def answered (c : Canister) (txs : List StoredTransactions)
    (replies : Nat → Except String Nat) : List (StoredTransactions × Except String Nat) :=
  (settled E c txs).mapIdx fun j tx => (tx, replies j)

/-- The store once the statuses are written back -/
def settle (store : Transactions) (answered : List (StoredTransactions × Except String Nat)) :
    Transactions :=
  answered.foldl (fun store a => store.insert a.1.index (a.1.withStatus (answeredStatus a.2))) store

/-- The records transfers were issued for, in their order -/
def transfersOf (os : List Event) : List StoredTransactions :=
  os.filterMap fun
    | .transfer tx _ => some tx
    | _ => none

/-- The answers that came, each with the record it is about -/
def repliesOf (os : List Event) : List (StoredTransactions × Except String Nat) :=
  os.filterMap fun
    | .replied tx reply => some (tx, reply)
    | _ => none

variable (E) in
/-- The line of a report about an answered transfer -/
def Reports (a : StoredTransactions × Except String Nat) (line : String) : Prop :=
  ∃ update, line = (recordTransfer E a.1 a.2).2 ++ statusText update

/-- The loop pays the records up to the first it cannot build the arguments for or cannot write
back, writes their statuses back, and reports them if there is no such record. -/
structure Looped (E : Externals) (c : Canister) (results : List String)
    (txs : List StoredTransactions) (replies : Nat → Except String Nat) (last : SweepEnd) : Prop where
  canister : last.canister =
    { c with transactions := settle c.transactions (answered E c txs replies) }
  transfers : settled E c txs = txs → transfersOf last.events = txs
  replied : repliesOf last.events = answered E c txs replies
  reports : ∃ lines, List.Forall₂ (Reports E) (answered E c txs replies) lines ∧
    (settled E c txs = txs → last.result = some (.ok (results ++ lines)))
  stops : settled E c txs ≠ txs → ∀ lines, last.result ≠ some (.ok lines)

theorem answered_cons {tx : StoredTransactions} {rest : List StoredTransactions}
    {call : TransferCall} (builds : sweepCall E c tx = .ok call) (fits : tx.Fits) :
    answered E c (tx :: rest) replies =
      (tx, replies 0) :: answered E c rest fun j => replies (j + 1) := by
  rw [answered, settled_cons builds fits, List.mapIdx_cons]
  rfl

theorem answered_fst (c : Canister) (txs : List StoredTransactions)
    (replies : Nat → Except String Nat) :
    (answered E c txs replies).map Prod.fst = settled E c txs := by
  refine List.ext_getElem? fun j => ?_
  cases h : (settled E c txs)[j]? <;> simp [answered, List.getElem?_mapIdx, h]

theorem recordReply_canister (tx : StoredTransactions) (reply : Except String Nat) :
    (recordReply E c tx reply).1 =
      { c with
        transactions := c.transactions.insert tx.index (tx.withStatus (answeredStatus reply)) } := by
  cases reply <;> rfl

/-- A loop that stops at its first record has done nothing to the store. -/
theorem looped_stopped {results : List String} {tx : StoredTransactions}
    {rest : List StoredTransactions} {last : SweepEnd} (stops : settled E c (tx :: rest) = [])
    (canister : last.canister = c) (replied : repliesOf last.events = [])
    (result : ∀ lines, last.result ≠ some (.ok lines)) :
    Looped E c results (tx :: rest) replies last := by
  have hanswered : answered E c (tx :: rest) replies = [] := by rw [answered, stops]; rfl
  refine ⟨?_, fun h => ?_, by rw [hanswered, replied], ⟨[], hanswered ▸ .nil, fun h => ?_⟩,
    fun _ => result⟩
  · rw [hanswered, canister]
    rfl
  all_goals
    rw [stops] at h
    cases h

theorem sweepLoop_looped (c : Canister) (results : List String) (txs : List StoredTransactions)
    (replies : Nat → Except String Nat) :
    Looped E c results txs replies (sweepLoop E c results txs replies) := by
  induction txs generalizing c results replies with
  | nil =>
    exact ⟨rfl, fun _ => rfl, rfl, ⟨[], .nil, fun _ => by simp [sweepLoop]⟩, fun h => absurd rfl h⟩
  | cons tx rest ih =>
    cases hcall : sweepCall E c tx with
    | error e =>
      have hnone : settled E c (tx :: rest) = [] := by
        simp [settled, hcall, Except.isOk, Except.toBool]
      simp only [sweepLoop, hcall]
      exact looped_stopped hnone rfl rfl (by rintro lines ⟨⟩)
    | ok call =>
      by_cases hfits : tx.Fits
      · obtain ⟨hcanister, htransfers, hreplied, ⟨lines, hlines, hreported⟩, hstops⟩ :=
          ih (recordReply E c tx (replies 0)).1 (results ++ [(recordReply E c tx (replies 0)).2])
            fun j => replies (j + 1)
        have hlater : answered E (recordReply E c tx (replies 0)).1 rest (fun j => replies (j + 1)) =
          answered E c rest fun j => replies (j + 1) := rfl
        rw [settled_recordReply] at htransfers hreported hstops
        rw [hlater] at hcanister hreplied hlines
        simp only [sweepLoop, hcall, if_pos hfits]
        constructor
        · rw [answered_cons hcall hfits, hcanister, recordReply_canister]
          rfl
        · intro h
          rw [settled_cons hcall hfits, List.cons.injEq] at h
          exact congrArg (tx :: ·) (htransfers h.2)
        · rw [answered_cons hcall hfits, ← hreplied]
          rfl
        · refine ⟨(recordReply E c tx (replies 0)).2 :: lines, ?_, fun h => ?_⟩
          · rw [answered_cons hcall hfits]
            exact .cons ⟨_, rfl⟩ hlines
          · rw [settled_cons hcall hfits, List.cons.injEq] at h
            rw [hreported h.2]
            simp
        · intro h
          rw [settled_cons hcall hfits] at h
          exact hstops fun heq => h (congrArg (tx :: ·) heq)
      · have hnone : settled E c (tx :: rest) = [] := by simp [settled, hfits]
        simp only [sweepLoop, hcall, if_neg hfits]
        exact looped_stopped hnone rfl rfl (by rintro lines ⟨⟩)

/-! ## The statuses written back -/

theorem answeredStatus_ne (reply : Except String Nat) : answeredStatus reply ≠ .notSwept := by
  cases reply <;> exact nofun

section Settle

variable {store : Transactions} {as : List (StoredTransactions × Except String Nat)}
  {a : StoredTransactions × Except String Nat} {key : UInt64}

theorem settle_cons : settle store (a :: as) =
    settle (store.insert a.1.index (a.1.withStatus (answeredStatus a.2))) as := rfl

theorem settle_other (other : ∀ a ∈ as, a.1.index ≠ key) : (settle store as)[key]? = store[key]? := by
  induction as generalizing store with
  | nil => rfl
  | cons a rest ih =>
    rw [List.forall_mem_cons] at other
    rw [settle_cons, ih other.2, getElem?_insert, if_neg other.1]

theorem settle_keyed (keyed : Keyed store) : Keyed (settle store as) := by
  induction as generalizing store with
  | nil => exact keyed
  | cons a rest ih => exact ih (keyed.insert (a.1.withStatus (answeredStatus a.2)))

/-- What is under a key was there before, or was written back there. -/
theorem settle_cases (store : Transactions) (as : List (StoredTransactions × Except String Nat))
    (key : UInt64) : (settle store as)[key]? = store[key]? ∨ ∃ a ∈ as, a.1.index = key ∧
      (settle store as)[key]? = some (a.1.withStatus (answeredStatus a.2)) := by
  induction as generalizing store with
  | nil => exact .inl rfl
  | cons a rest ih =>
    rcases ih (store.insert a.1.index (a.1.withStatus (answeredStatus a.2))) with
      hsame | ⟨b, hb, hindex, hheld⟩
    · by_cases hkey : a.1.index = key
      · refine .inr ⟨a, by simp, hkey, ?_⟩
        rw [settle_cons, hsame, getElem?_insert, if_pos hkey]
      · left
        rw [settle_cons, hsame, getElem?_insert, if_neg hkey]
    · exact .inr ⟨b, List.mem_cons_of_mem _ hb, hindex, hheld⟩

variable (store) in
theorem settle_held (distinct : (as.map fun a => a.1.index).Nodup) (mem : a ∈ as) :
    (settle store as)[a.1.index]? = some (a.1.withStatus (answeredStatus a.2)) := by
  induction as generalizing store with
  | nil => cases mem
  | cons b rest ih =>
    rw [List.map_cons, List.nodup_cons] at distinct
    rw [settle_cons]
    rcases List.mem_cons.mp mem with rfl | hmem
    · have hother : ∀ b ∈ rest, b.1.index ≠ a.1.index := fun b hb heq =>
        distinct.1 (List.mem_map.mpr ⟨b, hb, heq⟩)
      rw [settle_other hother, getElem?_insert, if_pos rfl]
    · exact ih _ distinct.2 hmem

end Settle

end SubaccountIndexer
