import SubaccountIndexer.StoredForm
import SubaccountIndexer.WholeSweep
import Mathlib.Data.List.Sort

/-! Sweeps one after another. Each takes the last hundred of the records that are not swept, in
the order of their keys, and leaves none of them unswept; so the sweeps work the backlog off
from its end, up to a record that is too long to be written back. At such a record every sweep
panics, after it has paid. -/

namespace SubaccountIndexer.Backlog
open WholeSweep (unswept unswept_notSwept selectedEntries selection_eq)

variable (E : Externals)

/-- The records a batch sweep is for, in the order of their keys -/
def backlog (c : Canister) (method : Method) : List StoredTransactions :=
  c.storedWhere (unswept method)

/-- `k` calls, each run to its end before the next starts -/
inductive SweepCalls (caller : Principal) (method : Method)
    (replies : Nat → Nat → Except String Nat) (σ : System) : Nat → List Event → System → Prop
  | zero : SweepCalls caller method replies σ 0 [] σ
  | succ {k : Nat} {os os' : List Event} {σ' σ'' : System}
      {result : Option (Except String Value)}
      (before : SweepCalls caller method replies σ k os σ')
      (call : Completes E σ' caller method (replies k) σ'' os' result) :
      SweepCalls caller method replies σ (k + 1) (os ++ os') σ''

/-- Of the backlog the first `rest` records are left. The others were each transferred once and
have the status their answer led to; nothing else changed. -/
structure Drained (c : Canister) (method : Method) (rest : Nat) (os : List Event)
    (c' : Canister) : Prop where
  backlog : backlog c' method = (backlog c method).take rest
  transfers : (transfersOf os).Perm ((Backlog.backlog c method).drop rest)
  replied : (repliesOf os).map Prod.fst = transfersOf os
  status : ∀ a ∈ repliesOf os,
    c'.transactions[a.1.index]? = some (a.1.withStatus (answeredStatus a.2))
  others : ∀ key : UInt64, (∀ tx ∈ (Backlog.backlog c method).drop rest, tx.index ≠ key) →
    c'.transactions[key]? = c.transactions[key]?
  keys : ∀ key : UInt64, key ∈ c'.transactions ↔ key ∈ c.transactions
  canister : c' = { c with transactions := c'.transactions }

variable {E} {c c' c'' : Canister} {σ σ' : System} {caller : Principal} {method : Method}
  {replies : Nat → Except String Nat} {os os' : List Event}
  {result : Option (Except String Value)} {tx : StoredTransactions} {rest : Nat}

/-! ## The backlog -/

theorem mem_backlog (keyed : Keyed c.transactions) : tx ∈ backlog c method ↔
    c.transactions[tx.index]? = some tx ∧ unswept method tx = true := by
  rw [backlog, Canister.storedWhere, List.mem_filter]
  refine and_congr_left fun _ => ?_
  constructor
  · exact keyed.selected.held tx
  · intro hheld
    exact List.mem_map.mpr ⟨(tx.index, tx),
      Std.ExtTreeMap.mem_toList_iff_getElem?_eq_some.mpr hheld, rfl⟩

variable (method) in
theorem backlog_sorted (keyed : Keyed c.transactions) :
    (backlog c method).Pairwise fun a b => a.index < b.index := by
  refine List.Pairwise.filter _ (List.pairwise_map.mpr ?_)
  refine (toList_ascending c.transactions).imp_of_mem fun ha hb hlt => ?_
  rwa [keyed.index_eq ha, keyed.index_eq hb]

theorem selection_backlog (c : Canister) (method : Method) :
    (selectedEntries c method).map Prod.snd =
      (backlog c method).drop ((backlog c method).length - 100) := by
  rw [backlog, Canister.storedWhere, List.filter_map, List.length_map, ← List.map_drop]
  rfl

/-- What a sweep goes over comes after what it leaves. -/
theorem take_lt_drop (keyed : Keyed c.transactions) (rest : Nat) :
    ∀ a ∈ (backlog c method).take rest, ∀ b ∈ (backlog c method).drop rest, a.index < b.index := by
  have hsorted := backlog_sorted method keyed
  rw [← List.take_append_drop rest (backlog c method), List.pairwise_append] at hsorted
  exact hsorted.2.2

/-! ## One call -/

theorem answered_distinct (keyed : Keyed c.transactions) {txs : List StoredTransactions}
    (sub : txs.Sublist (backlog c method)) (replies : Nat → Except String Nat) :
    ((answered E c txs replies).map fun a => a.1.index).Nodup := by
  have hindices := congrArg (List.map StoredTransactions.index) (answered_fst (E := E) c txs replies)
  rw [List.map_map] at hindices
  rw [show (fun a : StoredTransactions × Except String Nat => a.1.index) =
    StoredTransactions.index ∘ Prod.fst from rfl, hindices]
  have hsorted := (backlog_sorted method keyed).sublist
    ((settled_sublist (E := E) c txs).trans sub)
  exact List.pairwise_map.mpr (hsorted.imp fun hlt heq => absurd (heq ▸ hlt) (UInt64.lt_irrefl _))

theorem backlog_settle (keyed : Keyed c.transactions)
    {as : List (StoredTransactions × Except String Nat)}
    (distinct : (as.map fun a => a.1.index).Nodup)
    (swept : as.map Prod.fst = (backlog c method).drop rest) :
    backlog { c with transactions := settle c.transactions as } method =
      (backlog c method).take rest := by
  have : Std.Irrefl fun a b : StoredTransactions => a.index < b.index :=
    ⟨fun a => UInt64.lt_irrefl a.index⟩
  have : Std.Antisymm fun a b : StoredTransactions => a.index < b.index :=
    ⟨fun a b hab hba => absurd (UInt64.lt_trans hab hba) (UInt64.lt_irrefl _)⟩
  have hkeyed : Keyed ({ c with transactions := settle c.transactions as } : Canister).transactions :=
    settle_keyed keyed
  refine (backlog_sorted method hkeyed).eq_of_mem_iff
    ((backlog_sorted method keyed).sublist (List.take_sublist _ _)) fun tx => ?_
  rw [mem_backlog hkeyed]
  constructor
  · rintro ⟨hheld, hunswept⟩
    rcases settle_cases c.transactions as tx.index with hsame | ⟨a, -, -, hwritten⟩
    · have hmem : tx ∈ backlog c method :=
        (mem_backlog keyed).mpr ⟨hsame.symm.trans hheld, hunswept⟩
      rw [← List.take_append_drop rest (backlog c method), List.mem_append] at hmem
      refine hmem.resolve_right fun hdrop => ?_
      rw [← swept] at hdrop
      obtain ⟨a, ha, rfl⟩ := List.mem_map.mp hdrop
      have heq := Option.some.inj (hheld.symm.trans (settle_held _ distinct ha))
      have hstatus := congrArg StoredTransactions.sweepStatus heq
      rw [unswept_notSwept hunswept] at hstatus
      exact answeredStatus_ne a.2 hstatus.symm
    · obtain rfl := Option.some.inj (hheld.symm.trans hwritten)
      exact absurd (unswept_notSwept hunswept) (answeredStatus_ne a.2)
  · intro htake
    obtain ⟨hheld, hunswept⟩ := (mem_backlog keyed).mp (List.mem_of_mem_take htake)
    have hother : ∀ a ∈ as, a.1.index ≠ tx.index := by
      intro a ha heq
      have hdrop : a.1 ∈ (backlog c method).drop rest := swept ▸ List.mem_map_of_mem ha
      have hlt := take_lt_drop keyed rest tx htake a.1 hdrop
      rw [heq] at hlt
      exact UInt64.lt_irrefl _ hlt
    exact ⟨(settle_other hother).trans hheld, hunswept⟩

/-- An uninterrupted call works off the last hundred records of the backlog, if they can be
written back. -/
theorem drained_call (keyed : Keyed σ.canister.transactions) (batch : method.isBatch = true)
    (allowed : σ.runs E (.call caller method) = some method)
    (buildable : ∀ tx ∈ backlog σ.canister method, (sweepCall E σ.canister tx).isOk = true)
    (fit : ∀ tx ∈ (backlog σ.canister method).drop ((backlog σ.canister method).length - 100),
      tx.Fits) {replies : Nat → Except String Nat}
    (completes : Completes E σ caller method replies σ' os result) :
    Drained σ.canister method ((backlog σ.canister method).length - 100) os σ'.canister ∧
      Keyed σ'.canister.transactions := by
  obtain ⟨-, rfl, rfl⟩ := (completes_iff replies allowed (selection_eq batch)).mp completes
  rw [selection_backlog]
  generalize (backlog σ.canister method).length - 100 = rest at fit ⊢
  have hloop := sweepLoop_looped (E := E) σ.canister [] ((backlog σ.canister method).drop rest)
    replies
  have hall : settled E σ.canister ((backlog σ.canister method).drop rest) =
      (backlog σ.canister method).drop rest :=
    List.takeWhile_eq_self_iff.mpr fun tx htx => Bool.and_eq_true_iff.mpr
      ⟨buildable tx (List.mem_of_mem_drop htx), decide_eq_true (fit tx htx)⟩
  have hfst := (answered_fst (E := E) σ.canister ((backlog σ.canister method).drop rest)
    replies).trans hall
  have hdistinct := answered_distinct (E := E) keyed
    (List.drop_sublist rest (backlog σ.canister method)) replies
  have hheld : ∀ a ∈ answered E σ.canister ((backlog σ.canister method).drop rest) replies,
      σ.canister.transactions[a.1.index]? = some a.1 := by
    intro a ha
    have hmem : a.1 ∈ (backlog σ.canister method).drop rest := hfst ▸ List.mem_map_of_mem ha
    exact ((mem_backlog keyed).mp (List.mem_of_mem_drop hmem)).1
  rw [hloop.canister]
  refine ⟨?_, settle_keyed keyed⟩
  constructor
  · exact backlog_settle keyed hdistinct hfst
  · rw [hloop.transfers hall]
  · rw [hloop.replied, hloop.transfers hall, hfst]
  · intro a ha
    rw [hloop.replied] at ha
    exact settle_held _ hdistinct ha
  · intro key hother
    refine settle_other fun a ha => hother a.1 ?_
    exact hfst ▸ List.mem_map_of_mem ha
  · intro key
    rw [Std.ExtTreeMap.mem_iff_isSome_getElem?, Std.ExtTreeMap.mem_iff_isSome_getElem?]
    rcases settle_cases σ.canister.transactions (answered E σ.canister
      ((backlog σ.canister method).drop rest) replies) key with hsame | ⟨a, ha, rfl, hwritten⟩
    · exact iff_of_eq (congrArg (fun held => Option.isSome held = true) hsame)
    · exact iff_of_true (by rw [hwritten]; rfl) (by rw [hheld a ha]; rfl)
  · rfl

/-! ## Calls in a row -/

theorem transfersOf_append (os os' : List Event) :
    transfersOf (os ++ os') = transfersOf os ++ transfersOf os' := List.filterMap_append

theorem repliesOf_append (os os' : List Event) :
    repliesOf (os ++ os') = repliesOf os ++ repliesOf os' := List.filterMap_append

theorem drop_take_append_drop {α : Type} {l : List α} {m n : Nat} (le : m ≤ n) :
    (l.take n).drop m ++ l.drop n = l.drop m := by
  have hdrop : l.drop n = (l.drop m).drop (n - m) := by
    rw [List.drop_drop, Nat.add_sub_cancel' le]
  rw [List.drop_take, hdrop, List.take_append_drop]

/-- What two calls in a row come to -/
theorem Drained.trans {rest' : Nat} (keyed : Keyed c.transactions) (le : rest' ≤ rest)
    (h : Drained c method rest os c') (h' : Drained c' method rest' os' c'') :
    Drained c method rest' (os ++ os') c'' := by
  have hsplit : (Backlog.backlog c method).drop rest' =
      (Backlog.backlog c' method).drop rest' ++ (Backlog.backlog c method).drop rest := by
    rw [h.backlog, drop_take_append_drop le]
  have hlater : ∀ tx ∈ transfersOf os, ∀ tx' ∈ (Backlog.backlog c' method).drop rest',
      tx'.index ≠ tx.index := by
    intro tx htx tx' htx' heq
    rw [h.backlog] at htx'
    have hlt := take_lt_drop keyed rest tx' (List.mem_of_mem_drop htx') tx
      (h.transfers.subset htx)
    rw [heq] at hlt
    exact UInt64.lt_irrefl _ hlt
  constructor
  · rw [h'.backlog, h.backlog, List.take_take, Nat.min_eq_left le]
  · rw [transfersOf_append, hsplit]
    exact (h.transfers.append h'.transfers).trans List.perm_append_comm
  · rw [repliesOf_append, transfersOf_append, List.map_append, h.replied, h'.replied]
  · intro a ha
    rw [repliesOf_append, List.mem_append] at ha
    rcases ha with ha | ha
    · have hmem : a.1 ∈ transfersOf os := h.replied ▸ List.mem_map_of_mem ha
      rw [h'.others _ fun tx' htx' => hlater a.1 hmem tx' htx']
      exact h.status a ha
    · exact h'.status a ha
  · intro key hother
    rw [hsplit] at hother
    rw [h'.others key fun tx htx => hother tx (List.mem_append_left _ htx),
      h.others key fun tx htx => hother tx (List.mem_append_right _ htx)]
  · exact fun key => (h'.keys key).trans (h.keys key)
  · rw [h'.canister, h.canister]

theorem drained_none (c : Canister) (method : Method) :
    Drained c method (Backlog.backlog c method).length [] c where
  backlog := (List.take_length).symm
  transfers := by rw [List.drop_length]; rfl
  replied := rfl
  status := by simp [repliesOf]
  others _ _ := rfl
  keys _ := Iff.rfl
  canister := rfl

/-- The caller check does not look at the store. -/
theorem runs_transactions (store : Transactions) (tasks : List Task)
    (allowed : σ.runs E (.call caller method) = some method) :
    System.runs E ⟨{ σ.canister with transactions := store }, tasks⟩ (.call caller method) =
      some method := by
  refine System.runs_same E allowed ?_ ?_ ?_ tasks <;> rfl

theorem drained_calls (keyed : Keyed σ.canister.transactions) (batch : method.isBatch = true)
    (allowed : σ.runs E (.call caller method) = some method)
    (buildable : ∀ tx ∈ backlog σ.canister method, (sweepCall E σ.canister tx).isOk = true)
    {replies : Nat → Nat → Except String Nat} {k : Nat}
    (fit : ∀ tx ∈ (backlog σ.canister method).drop ((backlog σ.canister method).length - 100 * k),
      tx.Fits) (calls : SweepCalls E caller method replies σ k os σ') :
    Drained σ.canister method ((backlog σ.canister method).length - 100 * k) os σ'.canister ∧
      Keyed σ'.canister.transactions := by
  induction calls with
  | zero => exact ⟨drained_none _ _, keyed⟩
  | @succ k os os' σ' σ'' result _ call ih =>
    have hdrop : (backlog σ.canister method).length - 100 * (k + 1) ≤
        (backlog σ.canister method).length - 100 * k := by omega
    obtain ⟨hdrained, hkeyed⟩ := ih fun tx htx => fit tx (by
      rw [← drop_take_append_drop hdrop]
      exact List.mem_append_right _ htx)
    have hallowed : σ'.runs E (.call caller method) = some method := by
      have hruns := runs_transactions σ'.canister.transactions σ'.tasks allowed
      rwa [← hdrained.canister] at hruns
    have hbuildable : ∀ tx ∈ backlog σ'.canister method,
        (sweepCall E σ'.canister tx).isOk = true := by
      intro tx htx
      rw [hdrained.backlog] at htx
      rw [hdrained.canister]
      exact buildable tx (List.mem_of_mem_take htx)
    have hrest : (backlog σ'.canister method).length - 100 =
        (backlog σ.canister method).length - 100 * (k + 1) := by
      rw [hdrained.backlog, List.length_take]
      omega
    have hfit : ∀ tx ∈ (backlog σ'.canister method).drop
        ((backlog σ'.canister method).length - 100), tx.Fits := by
      intro tx htx
      rw [hrest, hdrained.backlog] at htx
      refine fit tx ?_
      rw [← drop_take_append_drop hdrop]
      exact List.mem_append_left _ htx
    obtain ⟨hcall, hkeyed'⟩ := drained_call hkeyed batch hallowed hbuildable hfit call
    rw [hrest] at hcall
    exact ⟨hdrained.trans keyed hdrop hcall, hkeyed'⟩

/-! ## Records that are too long -/

/-- What calls leave alone: all but the store, and in it the records that are too long to be
written back -/
structure Stuck (c c' : Canister) : Prop where
  keyed : Keyed c'.transactions
  canister : c' = { c with transactions := c'.transactions }
  held : ∀ tx : StoredTransactions, c.transactions[tx.index]? = some tx → ¬ tx.Fits →
    c'.transactions[tx.index]? = some tx

/-- A status is written back to a record that is not too long. -/
theorem stuck_call (keyed : Keyed σ.canister.transactions) (batch : method.isBatch = true)
    (allowed : σ.runs E (.call caller method) = some method)
    (completes : Completes E σ caller method replies σ' os result) :
    Stuck σ.canister σ'.canister := by
  obtain ⟨-, rfl, rfl⟩ := (completes_iff replies allowed (selection_eq batch)).mp completes
  have hloop := sweepLoop_looped (E := E) σ.canister []
    ((selectedEntries σ.canister method).map Prod.snd) replies
  rw [hloop.canister]
  refine ⟨settle_keyed keyed, rfl, fun tx held long => ?_⟩
  rcases settle_cases σ.canister.transactions (answered E σ.canister
    ((selectedEntries σ.canister method).map Prod.snd) replies) tx.index with
      hsame | ⟨a, ha, hindex, -⟩
  · exact hsame.trans held
  · have hsettled : a.1 ∈ settled E σ.canister ((selectedEntries σ.canister method).map Prod.snd) := by
      rw [← answered_fst _ _ replies]
      exact List.mem_map_of_mem ha
    have hmem := (settled_sublist _ _).subset hsettled
    rw [selection_backlog] at hmem
    have hstored := ((mem_backlog keyed).mp (List.mem_of_mem_drop hmem)).1
    rw [hindex, held] at hstored
    cases hstored
    exact absurd (settled_fits hsettled) long

theorem stuck_calls (keyed : Keyed σ.canister.transactions) (batch : method.isBatch = true)
    (allowed : σ.runs E (.call caller method) = some method)
    {replies : Nat → Nat → Except String Nat} {k : Nat}
    (calls : SweepCalls E caller method replies σ k os σ') : Stuck σ.canister σ'.canister := by
  induction calls with
  | zero => exact ⟨keyed, rfl, fun _ held _ => held⟩
  | @succ k os os' σ' σ'' result _ call ih =>
    have hallowed : σ'.runs E (.call caller method) = some method := by
      have hruns := runs_transactions σ'.canister.transactions σ'.tasks allowed
      rwa [← ih.canister] at hruns
    have hcall := stuck_call ih.keyed batch hallowed call
    exact ⟨hcall.keyed, by rw [hcall.canister, ih.canister],
      fun tx held long => hcall.held tx (ih.held tx held long) long⟩

/-- What has been worked off could be written back. -/
theorem fit_of_drained (keyed : Keyed c.transactions) (stuck : Stuck c c')
    (drained : Drained c method rest os c') : ∀ tx ∈ (backlog c method).drop rest, tx.Fits := by
  intro tx htx
  by_contra hlong
  obtain ⟨hheld, hunswept⟩ := (mem_backlog keyed).mp (List.mem_of_mem_drop htx)
  have hleft := (mem_backlog stuck.keyed).mpr ⟨stuck.held tx hheld hlong, hunswept⟩
  rw [drained.backlog] at hleft
  exact UInt64.lt_irrefl _ (take_lt_drop keyed rest tx hleft tx htx)

/-- The calls can be made, whatever the answers. -/
theorem sweepCalls_exist (batch : method.isBatch = true)
    (allowed : σ.runs E (.call caller method) = some method)
    (replies : Nat → Nat → Except String Nat) (k : Nat) :
    ∃ os σ', SweepCalls E caller method replies σ k os σ' ∧
      σ'.runs E (.call caller method) = some method := by
  induction k with
  | zero => exact ⟨[], σ, .zero, allowed⟩
  | succ k ih =>
    obtain ⟨os, σ', hcalls, hallowed⟩ := ih
    have hcompletes := (completes_iff (replies k) hallowed (selection_eq batch)).mpr
      ⟨rfl, rfl, rfl⟩
    refine ⟨_, _, hcalls.succ hcompletes, ?_⟩
    rw [(sweepLoop_looped _ _ _ _).canister]
    exact runs_transactions _ _ hallowed

/-- After `k` uninterrupted calls the first `n - 100 k` of the `n` records of the backlog are
left, and each of the others was transferred once and has the status its answer led to, if and
only if none of these others is too long to be written back. -/
theorem sweeps_drain (keyed : Keyed σ.canister.transactions) (batch : method.isBatch = true)
    (allowed : σ.runs E (.call caller method) = some method)
    (buildable : ∀ tx ∈ backlog σ.canister method, (sweepCall E σ.canister tx).isOk = true)
    (replies : Nat → Nat → Except String Nat) (k : Nat) :
    (∃ os σ', SweepCalls E caller method replies σ k os σ') ∧
      (backlog σ.canister method).Pairwise (fun a b => a.index < b.index) ∧
      ∀ os σ', SweepCalls E caller method replies σ k os σ' →
        (Drained σ.canister method ((backlog σ.canister method).length - 100 * k) os
            σ'.canister ↔
          ∀ tx ∈ (backlog σ.canister method).drop ((backlog σ.canister method).length - 100 * k),
            tx.Fits) := by
  obtain ⟨os, σ', hcalls, -⟩ := sweepCalls_exist batch allowed replies k
  refine ⟨⟨os, σ', hcalls⟩, backlog_sorted method keyed, fun _ _ calls => ⟨?_, fun fit => ?_⟩⟩
  · exact fit_of_drained keyed (stuck_calls keyed batch allowed calls)
  · exact (drained_calls keyed batch allowed buildable fit calls).1

open Examples

theorem sweeps_drain_deposit :
    ∃ os σ', SweepCalls externals custodian .sweep (fun _ _ => .ok 7) depositStored 1 os σ' ∧
      Drained depositStored.canister .sweep 0 os σ'.canister := by
  have hallowed : depositStored.runs externals (.call custodian .sweep) = some .sweep :=
    WholeSweep.runs_of_authenticated (by decide +kernel)
  have hbacklog : backlog depositStored.canister .sweep = [record] := by decide +kernel
  have hbuildable : ∀ tx ∈ backlog depositStored.canister .sweep,
      (sweepCall externals depositStored.canister tx).isOk = true := by
    intro tx htx
    rw [hbacklog] at htx
    obtain rfl := List.mem_singleton.mp htx
    decide +kernel
  obtain ⟨⟨os, σ', hcalls⟩, -, hdrains⟩ := sweeps_drain (reachable_keyed depositStored_reachable) rfl
    hallowed hbuildable (fun _ _ => .ok 7) 1
  have hdrained := (hdrains os σ' hcalls).mpr fun tx htx => by
    rw [hbacklog] at htx
    obtain rfl := List.mem_singleton.mp (List.mem_of_mem_drop htx)
    decide +kernel
  rw [hbacklog] at hdrained
  exact ⟨os, σ', hcalls, hdrained⟩

/-- A deposit that somebody else made with the payer's money, with a memo of 32 bytes, as the
canister stored it before there were tokens other than ICP -/
def oldRecord : StoredTransactionsV1 where
  index := 1
  memo := 0
  icrc1Memo := some (List.replicate 32 1)
  operation :=
    some (.transfer { «to» := account1.toList, fee := ⟨10000⟩,
                      «from» := payerAccount.toList, amount := ⟨100000⟩,
                      spender := some custodianAccount.toList })
  createdAtTime := ⟨1000⟩
  sweepStatus := .notSwept
  txHash := "3287742ff46f5dcc54c6cdb1139249d1498020d3e148352d628eaa7015864237"

/-- The canister upgraded with that record in its store -/
def upgraded : System :=
  ⟨{ installed with transactions := (∅ : Transactions).insert 1 (.ofV1 oldRecord) }, []⟩

/-- The old record fits the map, but not in the new form: the sweep pays for it and panics when it
writes the status back, so the record is still there to be swept. -/
theorem old_record_stuck :
    oldRecord.toBytes.length ≤ MAX_VALUE_SIZE ∧ Keyed upgraded.canister.transactions ∧
      upgraded.runs externals (.call custodian .sweep) = some .sweep ∧
      (∀ tx ∈ backlog upgraded.canister .sweep,
        (sweepCall externals upgraded.canister tx).isOk = true) ∧
      ∃ os σ', SweepCalls externals custodian .sweep (fun _ _ => .ok 7) upgraded 1 os σ' ∧
        transfersOf os = [.ofV1 oldRecord] ∧ backlog σ'.canister .sweep = [.ofV1 oldRecord] ∧
        ¬ Drained upgraded.canister .sweep ((backlog upgraded.canister .sweep).length - 100 * 1) os
          σ'.canister := by
  let last := sweepLoop externals upgraded.canister []
    ((selectedEntries upgraded.canister .sweep).map Prod.snd) fun _ => .ok 7
  obtain ⟨hshort, hchecked, hbacklog, hbuilds, hpaid, hleft⟩ :
      oldRecord.toBytes.length ≤ MAX_VALUE_SIZE ∧
      (authenticate externals upgraded.canister custodian).isOk = true ∧
      backlog upgraded.canister .sweep = [.ofV1 oldRecord] ∧
      (sweepCall externals upgraded.canister (.ofV1 oldRecord)).isOk = true ∧
      transfersOf last.events = [.ofV1 oldRecord] ∧
      backlog last.canister .sweep = [.ofV1 oldRecord] := by decide +kernel
  have hallowed : upgraded.runs externals (.call custodian .sweep) = some .sweep :=
    WholeSweep.runs_of_authenticated hchecked
  have hkeyed : Keyed upgraded.canister.transactions := keyed_empty.insert (.ofV1 oldRecord)
  have hcompletes := (completes_iff (fun _ => .ok 7) hallowed (selection_eq rfl)).mpr
    ⟨rfl, rfl, rfl⟩
  refine ⟨hshort, hkeyed, hallowed, fun tx htx => ?_, _, _, SweepCalls.zero.succ hcompletes, hpaid,
    hleft, fun drained => ?_⟩
  · rw [hbacklog] at htx
    obtain rfl := List.mem_singleton.mp htx
    exact hbuilds
  · have hdrained := drained.backlog
    rw [hleft, hbacklog] at hdrained
    cases hdrained

end SubaccountIndexer.Backlog
