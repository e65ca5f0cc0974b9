import SubaccountIndexer.Cursors

/-! The ledger a transfer goes to. A record keeps the ledger it was polled from, but the
argument builders look the ledger of its token up again, in the registry and then among the
built-in ones. The two agree as long as no token is registered anew under its records, and
the ICP ledger of `init` is polled only if it is the built-in one. -/

namespace SubaccountIndexer.LedgerRouting

variable (E : Externals)

/-- The registry files every token under its own key. -/
def Registry (ledgers : TokenLedgers) : Prop :=
  ∀ (key : UInt64) (t : TokenType) (p : Principal), ledgers[key]? = some (t, p) →
    key = (getTokenId t).toUInt64

/-- The records of the system: those stored and the copies that messages in flight hold -/
def Record (σ : System) (tx : StoredTransactions) : Prop :=
  (∃ k : UInt64, σ.canister.transactions[k]? = some tx) ∨ σ.Pending tx

/-- Nothing is read from an archive; ICP is polled on the ledger of `init` only if that is the
built-in one; and a token is registered only with the ledger its records and its polls in
flight name. -/
structure KeepsLedgers (σ : System) (i : Input) : Prop where
  archive : ∀ n reply, i ≠ .reply n (.archive reply)
  timer : i = .timer → registeredLedger σ.canister.tokenLedgerPrincipals .icp = none →
    ∀ p, σ.canister.principal = some p → p = MAINNET_LEDGER_CANISTER_ID
  records : ∀ t text p, σ.runs E i = some (.registerToken t text) →
    E.principalFromText text = .ok p → ∀ tx l, Record σ tx → tx.tokenType = t →
      tx.tokenLedgerCanisterId = some l → l = p
  polls : ∀ t text p, σ.runs E i = some (.registerToken t text) →
    E.principalFromText text = .ok p → ∀ p' next, .poll t p' next ∈ σ.tasks → p' = p

/-- Every record and every poll in flight names the ledger its token has now. -/
structure Routed (σ : System) : Prop where
  keyed : Keyed σ.canister.transactions
  registry : Registry σ.canister.tokenLedgerPrincipals
  records : ∀ tx l, Record σ tx → tx.tokenLedgerCanisterId = some l →
    l = σ.canister.getTokenLedgerCanisterId tx.tokenType
  polls : ∀ t p next, .poll t p next ∈ σ.tasks → p = σ.canister.getTokenLedgerCanisterId t

variable {E} {ledgers : TokenLedgers} {t : TokenType} {p : Principal} {c : Canister}
  {σ σ' : System} {i : Input} {os : List Event} {tx : StoredTransactions}

/-! ## The registry -/

theorem tokenKey_injective {s t : TokenType}
    (h : (getTokenId s).toUInt64 = (getTokenId t).toUInt64) : s = t := by
  cases s <;> cases t <;> first | rfl | cases h

theorem registry_insert (h : Registry ledgers) (t : TokenType) (p : Principal) :
    Registry (ledgers.insert (getTokenId t).toUInt64 (t, p)) := by
  intro key s q hkey
  simp only [Std.ExtTreeMap.getElem?_insert, Std.compare_eq_iff_eq] at hkey
  split at hkey
  · cases hkey
    exact (‹_ = key›).symm
  · exact h key s q hkey

/-- The registered ledger of a token is the one under its key. -/
theorem registeredLedger_eq (h : Registry ledgers) (t : TokenType) :
    registeredLedger ledgers t = (ledgers[(getTokenId t).toUInt64]?).map Prod.snd := by
  unfold registeredLedger
  cases hfind : ledgers.toList.find? fun entry => entry.2.1 == t with
  | some entry =>
    obtain ⟨key, s, q⟩ := entry
    obtain rfl : s = t := by simpa using List.find?_some hfind
    have hheld := Std.ExtTreeMap.mem_toList_iff_getElem?_eq_some.mp (List.mem_of_find?_eq_some hfind)
    rw [← h key s q hheld, hheld]
    rfl
  | none =>
    cases hheld : ledgers[(getTokenId t).toUInt64]? with
    | none => rfl
    | some entry =>
      obtain ⟨s, q⟩ := entry
      obtain rfl := tokenKey_injective (h _ s q hheld)
      have hmem := Std.ExtTreeMap.mem_toList_iff_getElem?_eq_some.mpr hheld
      have hnot := List.find?_eq_none.mp hfind _ hmem
      simp at hnot

theorem registeredLedger_insert (h : Registry ledgers) (t : TokenType) (p : Principal)
    (s : TokenType) :
    registeredLedger (ledgers.insert (getTokenId t).toUInt64 (t, p)) s =
      if t = s then some p else registeredLedger ledgers s := by
  rw [registeredLedger_eq (registry_insert h t p), registeredLedger_eq h]
  simp only [Std.ExtTreeMap.getElem?_insert, Std.compare_eq_iff_eq]
  by_cases hts : t = s
  · simp [hts]
  · rw [if_neg hts, if_neg fun heq => hts (tokenKey_injective heq)]

theorem getTokenLedger_of_ledgers {c' : Canister}
    (same : c'.tokenLedgerPrincipals = c.tokenLedgerPrincipals) (t : TokenType) :
    c'.getTokenLedgerCanisterId t = c.getTokenLedgerCanisterId t := by
  rw [Canister.getTokenLedgerCanisterId, same]
  rfl

/-! ## Transfers and polls -/

theorem toSweepArgs_ledger {args : TransferArgs × Principal}
    (h : toSweepArgs E c tx = .ok args) : args.2 = c.getTokenLedgerCanisterId tx.tokenType := by
  simp only [toSweepArgs, bind, Except.bind] at h
  repeat' split at h
  all_goals cases h
  rfl

theorem toIcrc1SweepArgs_ledger {args : Icrc1TransferArg × Principal}
    (h : toIcrc1SweepArgs E c tx = .ok args) :
    args.2 = c.getTokenLedgerCanisterId tx.tokenType := by
  simp only [toIcrc1SweepArgs, bind, Except.bind] at h
  repeat' split at h
  all_goals cases h
  all_goals rfl

theorem toRefundArgs_ledger {args : TransferArgs × Principal}
    (h : toRefundArgs E c tx = .ok (.ok args)) :
    args.2 = c.getTokenLedgerCanisterId tx.tokenType := by
  unfold toRefundArgs at h
  split at h
  · cases h
  · simp only [bind, Except.bind, Except.ok.injEq] at h
    repeat' split at h
    all_goals cases h
    rfl
  · cases h

/-- All three builders send to the ledger the token has now. -/
theorem builds_ledger {call : TransferCall} (h : Builds E c tx call) :
    call.ledger = c.getTokenLedgerCanisterId tx.tokenType := by
  cases h with
  | sweep builds =>
    unfold sweepCall at builds
    split at builds
    · obtain ⟨args, hargs, rfl⟩ := map_eq_ok builds
      exact toSweepArgs_ledger hargs
    all_goals
      obtain ⟨args, hargs, rfl⟩ := map_eq_ok builds
      exact toIcrc1SweepArgs_ledger hargs
  | refund builds => exact toRefundArgs_ledger builds

/-- The polls of one tick name the ledgers of their tokens. -/
theorem pollsToStart_ledger (registry : Registry c.tokenLedgerPrincipals)
    (builtIn : registeredLedger c.tokenLedgerPrincipals .icp = none →
      ∀ p, c.principal = some p → p = MAINNET_LEDGER_CANISTER_ID)
    {poll : TokenType × Principal × UInt64} (h : poll ∈ pollsToStart c) :
    poll.2.1 = c.getTokenLedgerCanisterId poll.1 := by
  obtain ⟨t, p, next⟩ := poll
  cases (mem_pollsToStart.mp h).1 with
  | @registered key t p held =>
    rw [registry key t p held] at held
    simp [Canister.getTokenLedgerCanisterId, registeredLedger_eq registry, held]
  | default unregistered initial =>
    rw [Canister.getTokenLedgerCanisterId, unregistered, builtIn unregistered p initial]
    rfl

/-- A poll in flight was there before, or the timer has started it. -/
theorem poll_origin (h : Fires E σ i σ' os) {next : UInt64} (mem : .poll t p next ∈ σ'.tasks) :
    .poll t p next ∈ σ.tasks ∨ i = .timer ∧ (t, p, next) ∈ pollsToStart σ.canister := by
  have hposition : (Task.poll t p next).position t = some next := if_pos rfl
  cases h with
  | timer running =>
    rcases List.mem_append.mp mem with mem | mem
    · exact .inl mem
    · obtain ⟨poll, hpoll, heq⟩ := List.mem_map.mp mem
      cases heq
      exact .inr ⟨rfl, hpoll⟩
  | rejected message | callTraps traps =>
    rcases List.mem_append.mp mem with mem | mem
    · exact .inl mem
    · cases List.mem_singleton.mp mem
  | call allowed runs =>
    rcases List.mem_append.mp mem with mem | mem
    · exact .inl mem
    · have hidle := (ran_of_ok E runs).idle t
      rw [← List.mem_singleton.mp mem, hposition] at hidle
      cases hidle
  | @reply n reply task turn waits resumes =>
    rcases List.mem_or_eq_of_mem_set mem with mem | heq
    · exact .inl mem
    · cases (resumes_of_ok E resumes).moves with
      | stays cursors idle | writes cursors before idle advances =>
        rw [← heq] at idle
        have hidle := idle t
        rw [hposition] at hidle
        cases hidle
      | waits cursors before waiting advances =>
        rw [waiting] at heq
        cases heq
  | replyTraps waits resumes =>
    rcases List.mem_or_eq_of_mem_set mem with mem | heq
    · exact .inl mem
    · cases heq
  | upgrade => cases mem

/-! ## Steps -/

/-- The records after a step are records from before, but for their status, or a poll has
just stored them. -/
theorem record_origin (keyed : Keyed σ.canister.transactions)
    (archive : ∀ n reply, i ≠ .reply n (.archive reply)) (h : Fires E σ i σ' os)
    (record : Record σ' tx) :
    (∃ tx', Record σ tx' ∧ tx'.tokenType = tx.tokenType ∧
        tx'.tokenLedgerCanisterId = tx.tokenLedgerCanisterId) ∨
      ∃ p next, .poll tx.tokenType p next ∈ σ.tasks ∧ tx.tokenLedgerCanisterId = some p := by
  rcases record with ⟨k, hheld⟩ | hpending
  · rcases (h.journal keyed).origin hheld with
      hold | ⟨j, hmem, -⟩ | ⟨tx', status, previous, hmem, -, rfl⟩
    · exact .inl ⟨tx, .inl ⟨k, hold⟩, rfl, rfl⟩
    · cases h.event keyed _ hmem with
      | polled waits polled => exact .inr ⟨_, _, List.mem_of_getElem? waits, rfl⟩
      | archived input => exact absurd input (archive _ _)
    · refine .inl ⟨tx', ?_, rfl, rfl⟩
      cases h.event keyed _ hmem with
      | failed runs held => exact .inl ⟨_, held⟩
      | written input waits awaits =>
        exact .inr ⟨_, List.mem_of_getElem? waits, Task.awaits_pending awaits⟩
  · rcases h.pending keyed hpending with hold | ⟨hstored, -⟩
    · exact .inl ⟨tx, .inr hold, rfl, rfl⟩
    · exact .inl ⟨tx, .inl ⟨_, hstored⟩, rfl, rfl⟩

/-- It is enough to look at the records and polls from before the step, and at the polls it
starts. -/
theorem routed_of_named (routed : Routed σ) (keeps : KeepsLedgers E σ i)
    (h : Fires E σ i σ' os) (registry : Registry σ'.canister.tokenLedgerPrincipals)
    (records : ∀ tx l, Record σ tx → tx.tokenLedgerCanisterId = some l →
      l = σ'.canister.getTokenLedgerCanisterId tx.tokenType)
    (polls : ∀ t p next, .poll t p next ∈ σ.tasks → p = σ'.canister.getTokenLedgerCanisterId t)
    (starts : ∀ t p next, i = .timer → (t, p, next) ∈ pollsToStart σ.canister →
      p = σ'.canister.getTokenLedgerCanisterId t) : Routed σ' where
  keyed := keyed_step routed.keyed h
  registry := registry
  records tx l record hl := by
    rcases record_origin routed.keyed keeps.archive h record with
      ⟨tx', hrecord, htoken, hledger⟩ | ⟨p, next, hpoll, hledger⟩
    · exact htoken ▸ records tx' l hrecord (hledger.trans hl)
    · obtain rfl : p = l := Option.some.inj (hledger.symm.trans hl)
      exact polls _ p next hpoll
  polls t p next hpoll := by
    rcases poll_origin h hpoll with hold | ⟨htimer, hnew⟩
    · exact polls t p next hold
    · exact starts t p next htimer hnew

/-- A step that leaves the registry alone -/
theorem routed_same (routed : Routed σ) (keeps : KeepsLedgers E σ i) (h : Fires E σ i σ' os)
    (same : σ'.canister.tokenLedgerPrincipals = σ.canister.tokenLedgerPrincipals) :
    Routed σ' := by
  refine routed_of_named routed keeps h (same ▸ routed.registry) (fun tx l record hl => ?_)
    (fun t p next hpoll => ?_) fun t p next htimer hnew => ?_
  all_goals rw [getTokenLedger_of_ledgers same]
  · exact routed.records tx l record hl
  · exact routed.polls t p next hpoll
  · exact pollsToStart_ledger routed.registry (keeps.timer htimer) hnew

/-- A registration, of the ledger that the records and the polls of the token already name -/
theorem routed_register {caller : Principal} {text : String}
    (routed : Routed σ) (keeps : KeepsLedgers E σ (.call caller (.registerToken t text)))
    (allowed : σ.runs E (.call caller (.registerToken t text)) = some (.registerToken t text))
    (valid : E.principalFromText text = .ok p)
    (h : Fires E σ (.call caller (.registerToken t text)) σ' os)
    (registered : σ'.canister.tokenLedgerPrincipals =
      σ.canister.tokenLedgerPrincipals.insert (getTokenId t).toUInt64 (t, p)) : Routed σ' := by
  have hledger : ∀ s, σ'.canister.getTokenLedgerCanisterId s =
      if t = s then p else σ.canister.getTokenLedgerCanisterId s := by
    intro s
    rw [Canister.getTokenLedgerCanisterId, registered, registeredLedger_insert routed.registry]
    split <;> rfl
  refine routed_of_named routed keeps h (registered ▸ registry_insert routed.registry t p)
    (fun tx l record hl => ?_) (fun s q next hpoll => ?_) nofun
  all_goals
    rw [hledger]
    split
  · exact keeps.records t text p allowed valid tx l record (‹t = _›).symm hl
  · exact routed.records tx l record hl
  · subst ‹t = s›
    exact keeps.polls t text p allowed valid q next hpoll
  · exact routed.polls s q next hpoll

theorem routed_step (routed : Routed σ) (keeps : KeepsLedgers E σ i) (h : Fires E σ i σ' os) :
    Routed σ' := by
  have hfires := h
  cases h with
  | timer | rejected | callTraps | replyTraps => exact routed_same routed keeps hfires rfl
  | reply waits resumes => exact routed_same routed keeps hfires (hfires.frame.ledgers rfl)
  | upgrade => exact routed_same routed keeps hfires (hfires.frame.ledgers rfl)
  | @call caller method turn allowed runs =>
    cases hwrites : method.writesLedgers with
    | false => exact routed_same routed keeps hfires (hfires.frame.ledgers hwrites)
    | true =>
      cases method with
      | registerToken t text =>
        cases runs
        cases htext : E.principalFromText text with
        | error e =>
          exact routed_same routed keeps hfires (by simp [registerToken, htext, Turn.done])
        | ok p =>
          exact routed_register routed keeps allowed htext hfires
            (by simp [registerToken, htext, Turn.done])
      | _ => cases hwrites

theorem installed_routed (h : Installed E σ) : Routed σ := by
  obtain ⟨htasks, hstore, -, hledgers, -⟩ := h.canister
  refine ⟨hstore ▸ keyed_empty, by simp [Registry, hledgers], ?_, by simp [htasks]⟩
  intro tx l hrecord
  rcases hrecord with ⟨k, hheld⟩ | ⟨task, htask, -⟩
  · simp [hstore] at hheld
  · simp [htasks] at htask

/-- While no token is registered anew under its records, and ICP is polled on its built-in
ledger or on a registered one, every transfer for a record goes to the ledger the record came
from. -/
theorem transfers_routed {σ₀ : System} (installed : Installed E σ₀)
    (run : (machine E).Run (KeepsLedgers E) σ₀ os σ) {call : TransferCall} {l : Principal}
    (issued : .transfer tx call ∈ os) (ledger : tx.tokenLedgerCanisterId = some l) :
    call.ledger = l := by
  have hrun := run.emits (P := Routed)
    (Q := fun e => ∀ tx call l, e = .transfer tx call → tx.tokenLedgerCanisterId = some l →
      call.ledger = l) (installed_routed installed) ?_
  · exact hrun.2 _ issued tx call l rfl ledger
  · intro s j s' os routed keeps fires
    have hfires := fires_of_step E fires
    have hrouted := routed_step routed keeps hfires
    refine ⟨hrouted, ?_⟩
    rintro e he tx call l rfl hl
    cases hfires.event routed.keyed _ he with
    | transfer pending builds =>
      exact (builds_ledger builds).trans (hrouted.records tx l (.inr pending) hl).symm

/-! A sweep on the built-in ledger, and one of a deposit that came from another ledger. -/

open Examples

theorem keepsLedgers_of_runs (timer : i ≠ .timer)
    (archive : ∀ n reply, i ≠ .reply n (.archive reply))
    (runs : ∀ t text, σ.runs E i ≠ some (.registerToken t text)) : KeepsLedgers E σ i :=
  ⟨archive, fun h => absurd h timer, fun t text _ h => absurd h (runs t text),
    fun t text _ h => absurd h (runs t text)⟩

theorem transfers_routed_sweep : .transfer record depositCall ∈ sweepingEvents ∧
    depositCall.ledger = MAINNET_LEDGER_CANISTER_ID := by
  have run : (machine externals).Run (KeepsLedgers externals) start sweepingEvents sweeping := by
    refine sweeping_run ⟨fun _ _ h => (nomatch h), fun _ _ p h => ?_, fun _ _ _ h => ?_,
      fun _ _ _ h => ?_⟩ (keepsLedgers_of_runs (by simp) (by simp [blocksReply])
        (by simp [System.runs])) (keepsLedgers_of_runs (by simp) (by simp)
        fun _ _ h => nomatch System.runs_call _ h)
    · exact (Option.some.inj h).symm
    · simp [System.runs] at h
    · simp [System.runs] at h
  have issued : .transfer record depositCall ∈ sweepingEvents := by decide +kernel
  exact ⟨issued, transfers_routed start_installed run issued rfl⟩

/-- A canister that was installed for the ICP ledger of a local network, after the first tick
of its timer -/
def localStart : System := ⟨{ installed with principal := some localLedger }, []⟩

def localPolling : System := ⟨localStart.canister, [.poll .icp localLedger 1]⟩

theorem localStart_installed : Installed externals localStart := by
  refine installed_of_init issuedSubaccounts_eq
    (show init externals .local 500 2 "bkyz2-fmaaa-aaaaa-qaaaq-cai"
      "ryjl3-tyaaa-aaaaa-aaaba-cai" = _ from rfl)

abbrev localStored : System := (machine externals).after localPolling (icpAnswer 0)

def localRecord : StoredTransactions :=
  { record with tokenLedgerCanisterId := some localLedger }

/-- The deposit was polled from the local ledger. The sweep asks the main network's. -/
theorem local_deposit_paid_elsewhere :
    Reachable externals localStored ∧
      localStored.canister.transactions.toList = [(1, localRecord)] ∧
      localRecord.tokenLedgerCanisterId = some localLedger ∧
      .transfer localRecord depositCall ∈
        (machine externals).emitted localStored (.call custodian .sweep) ∧
      depositCall.ledger ≠ localLedger := by
  have timer : (machine externals).step localStart .timer = some (localPolling, []) := rfl
  refine ⟨⟨localStart, _, localStart_installed,
    (Lib.Machine.Run.nil.step trivial timer).next (i := icpAnswer 0) trivial ?_⟩, ?_, rfl, ?_, ?_⟩ <;>
    decide +kernel

end SubaccountIndexer.LedgerRouting
