import SubaccountIndexer.TurnSpec

/-! The history of the store: the events of every step are a journal of it, so
every record stays under its own index. And the frame of a step: what no message, or
only one method, ever changes. -/

namespace SubaccountIndexer

variable {E : Externals} {c : Canister} {turn : Turn} {σ σ' : System} {i : Input}
  {os : List Event}

/-! ## Journals of turns and steps -/

theorem Ran.journal {method : Method} (keyed : Keyed c.transactions) (h : Ran E c method turn) :
    StoreJournal c.transactions turn.events turn.canister.transactions := by
  cases h with
  | @sweep _ txs _ =>
    have hrun := sweepTxs_run (E := E) c [] txs
    simp only [SweepTurn.toTurn, hrun.silent.1]
    exact hrun.silent.2 _
  | refund runs =>
    cases runs with
    | returned => exact .nil
    | awaiting held builds => exact .single .transfer
  | clear => exact clearTransactions_journal keyed _ _
  | fail => exact failedRecorded_journal _ _
  | archive | setCustodian => exact .nil
  | sweepSubaccount => exact .single .subaccountTransfer
  | done store => rw [Turn.done, store]; exact .nil

theorem PollTurn.toTurn_transactions (turn : PollTurn) (t : TokenType) :
    (turn.toTurn t).canister.transactions = turn.canister.transactions ∧
      (turn.toTurn t).events = turn.events := by
  unfold PollTurn.toTurn
  split
  · rw [writeCursor_eq]
    exact ⟨rfl, rfl⟩
  · exact ⟨rfl, rfl⟩

theorem writeCursor_transactions (c : Canister) (t : TokenType) (result : UInt64) :
    (writeCursor c t result).transactions = c.transactions := by
  rw [writeCursor_eq]

theorem Resumes.journal {task : Task} {reply : Reply} (h : Resumes E c task reply turn) :
    StoreJournal c.transactions turn.events turn.canister.transactions := by
  cases h with
  | @poll t p next reply answer pt answers scans =>
    rw [(pt.toTurn_transactions t).1, (pt.toTurn_transactions t).2]
    exact scans.journal.1
  | webhook => rw [Turn.done, writeCursor_transactions]; exact .nil
  | sweep => exact sweepRecorded_journal _ _ _ _ _
  | refund => exact refundRecorded_journal _ _ _
  | archive answers =>
    cases archived_of_ok E answers with
    | idle => exact .nil
    | stored relevant transfer free fits => exact .single (.stored free)
  | sweepSubaccount => exact .nil
  | @setCustodian caller text controllers =>
    unfold setCustodianReply
    dsimp only
    repeat' split
    all_goals exact .nil

theorem answeredBlocks_journal (task : Task) (reply : Reply) (store : Transactions) :
    StoreJournal store (answeredBlocks E task reply) store := by
  unfold answeredBlocks
  repeat' split
  all_goals first | exact .single .answered | exact .nil

/-- What an upgrade keeps, and the list it rebuilds -/
structure UpgradeFrame (E : Externals) (c c' : Canister) : Prop where
  transactions : c'.transactions = c.transactions
  nonce : c'.lastSubaccountNonce = c.lastSubaccountNonce
  ledgers : c'.tokenLedgerPrincipals = c.tokenLedgerPrincipals
  principal : c'.principal = c.principal
  cursors : c.tokenNextBlocks.isEmpty = false → c'.tokenNextBlocks = c.tokenNextBlocks
  subaccounts : c'.listOfSubaccounts = reconstructUpTo E c.lastSubaccountNonce.toNat ∅

theorem upgradeInterval_cases (c : Canister) (caller : Principal) :
    upgradeInterval E c caller = c ∨ upgradeInterval E c caller = setInterval c 500 := by
  unfold upgradeInterval
  cases h : authenticate E c caller with
  | error e => exact .inl rfl
  | ok c' => exact .inr (by rw [authenticate_frame h])

theorem UpgradeFrame.reconstruct (c : Canister) (caller : Principal) :
    UpgradeFrame E c (reconstructSubaccounts E (upgradeInterval E c.resetHeap caller)) := by
  rcases upgradeInterval_cases (E := E) c.resetHeap caller with h | h <;> rw [h] <;>
    exact ⟨rfl, rfl, rfl, rfl, fun _ => rfl, rfl⟩

theorem UpgradeFrame.network {c' : Canister} (h : UpgradeFrame E c c') :
    UpgradeFrame E c (reconstructNetwork c') :=
  ⟨h.transactions, h.nonce, h.ledgers, h.principal, h.cursors, h.subaccounts⟩

theorem UpgradeFrame.migrate {c' : Canister} (h : UpgradeFrame E c c') :
    UpgradeFrame E c (migrateBlockTracking c') := by
  unfold migrateBlockTracking
  split
  · rename_i hempty
    refine ⟨by simpa using h.transactions, by simpa using h.nonce, by simpa using h.ledgers,
      by simpa using h.principal, fun hne => ?_, by simpa using h.subaccounts⟩
    simp [h.cursors hne, hne] at hempty
  · exact h

theorem postUpgrade_frame (c : Canister) (caller : Principal) :
    UpgradeFrame E c (postUpgrade E c caller) := by
  have h := (UpgradeFrame.reconstruct (E := E) c caller).network.migrate
  unfold postUpgrade ensureCustodian
  dsimp only
  split
  · exact h
  · exact ⟨h.transactions, h.nonce, h.ledgers, h.principal, h.cursors, h.subaccounts⟩

/-- The events of a step account for all it did to the store. -/
theorem Fires.journal (keyed : Keyed σ.canister.transactions) (h : Fires E σ i σ' os) :
    StoreJournal σ.canister.transactions os σ'.canister.transactions := by
  cases h with
  | timer running => exact .nil
  | rejected message => exact .nil
  | call allowed runs => exact (ran_of_ok E runs).journal keyed
  | callTraps traps => exact .single .trapped
  | reply waits resumes =>
    exact (answeredBlocks_journal _ _ _).append (resumes_of_ok E resumes).journal
  | replyTraps waits resumes => exact (answeredBlocks_journal _ _ _).append (.single .trapped)
  | upgrade => rw [(postUpgrade_frame σ.canister _).transactions]; exact .nil

/-! ## Frames of turns and steps -/

/-- What only method calls and upgrades change -/
structure ResumeFrame (c c' : Canister) : Prop where
  principal : c'.principal = c.principal
  ledgers : c'.tokenLedgerPrincipals = c.tokenLedgerPrincipals
  nonce : c'.lastSubaccountNonce = c.lastSubaccountNonce
  subaccounts : c'.listOfSubaccounts = c.listOfSubaccounts

/-- The canister after a resumed task -/
inductive ResumeWrites (E : Externals) (c : Canister) (task : Task) (reply : Reply) :
    Canister → Prop
  | store {transactions : Transactions} : ResumeWrites E c task reply { c with transactions }
  | cursor {transactions : Transactions} {t : TokenType} {x : UInt64} :
      ResumeWrites E c task reply (writeCursor { c with transactions } t x)
  | custodian {caller : Principal} {text : String} {controllers : Option (List Principal)}
      (waits : task = .setCustodian caller text) (status : reply = .status controllers) :
      ResumeWrites E c task reply (setCustodianReply E c caller text controllers).canister

theorem Polled.writesTo {t : TokenType} {p : Principal} {next : UInt64}
    {answer : Except (String × String) QueryBlocksResponse} {turn : PollTurn}
    (h : Polled E c t p next answer turn) (task : Task) (reply : Reply) :
    ResumeWrites E c task reply (turn.toTurn t).canister := by
  have hstore : ∃ transactions, turn.canister = { c with transactions } := by
    cases h with
    | failed => exact ⟨c.transactions, rfl⟩
    | scanned => exact ⟨_, rfl⟩
  obtain ⟨transactions, hstore⟩ := hstore
  unfold PollTurn.toTurn
  split
  · rw [hstore]
    exact .cursor
  · rw [hstore]
    exact .store

/-- A sweep's reply touches the store alone. -/
theorem sweepRecorded_canister (c : Canister) (tx : StoredTransactions)
    (rest : List StoredTransactions) (results : List String) (result : Except String Nat) :
    ∃ store, (sweepRecorded E c tx rest results result).canister =
      { c with transactions := store } := by
  obtain ⟨status, turn, lines, heq, -, hrun⟩ := sweepRecorded_spec (E := E) c tx rest results result
  exact ⟨_, by rw [heq]; exact hrun.silent.1⟩

theorem refundRecorded_canister (c : Canister) (tx : StoredTransactions)
    (result : Except String Nat) :
    ∃ store, (refundRecorded c tx result).canister = { c with transactions := store } := by
  cases result with
  | error e => exact ⟨c.transactions, rfl⟩
  | ok block => exact ⟨_, rfl⟩

theorem Resumes.writesTo {task : Task} {reply : Reply} (h : Resumes E c task reply turn) :
    ResumeWrites E c task reply turn.canister := by
  cases h with
  | poll answers scans => exact scans.writesTo _ _
  | webhook => exact .cursor
  | @sweep tx rest results result =>
    obtain ⟨store, heq⟩ := sweepRecorded_canister (E := E) c tx rest results result
    simp only [SweepTurn.toTurn, heq]
    exact .store
  | @refund tx result =>
    obtain ⟨store, heq⟩ := refundRecorded_canister c tx result
    simp only [RefundTurn.toTurn, heq]
    exact .store
  | archive answers => cases archived_of_ok E answers <;> exact .store
  | sweepSubaccount => exact .store
  | setCustodian => exact .custodian rfl rfl

theorem setCustodianReply_canister (c : Canister) (caller : Principal) (text : String)
    (controllers : Option (List Principal)) :
    (setCustodianReply E c caller text controllers).canister = c ∨
      ∃ p, (setCustodianReply E c caller text controllers).canister =
        { c with custodianPrincipal := some p } := by
  unfold setCustodianReply
  dsimp only
  repeat' split
  all_goals first | exact .inl rfl | exact .inr ⟨_, rfl⟩

/-- What holds of a canister whatever store, cursor or custodian is written holds after a resumed
task. -/
theorem ResumeWrites.keeps {P : Canister → Prop} {task : Task} {reply : Reply} {c' : Canister}
    (h : ResumeWrites E c task reply c') (store : ∀ transactions, P { c with transactions })
    (cursor : ∀ transactions t x, P { c with
      transactions, tokenNextBlocks := c.tokenNextBlocks.insert (getTokenId t) x,
      nextBlock := if t = .icp then x else c.nextBlock })
    (custodian : ∀ p, P { c with custodianPrincipal := some p }) : P c' := by
  cases h with
  | store => exact store _
  | cursor =>
    rw [writeCursor_eq]
    exact cursor _ _ _
  | @custodian caller text controllers =>
    rcases setCustodianReply_canister (E := E) c caller text controllers with heq | ⟨p, heq⟩
    · rw [heq]
      exact store c.transactions
    · rw [heq]
      exact custodian p

theorem ResumeWrites.frame {task : Task} {reply : Reply} {c' : Canister}
    (h : ResumeWrites E c task reply c') : ResumeFrame c c' := by
  exact h.keeps (fun _ => ⟨rfl, rfl, rfl, rfl⟩) (fun _ _ _ => ⟨rfl, rfl, rfl, rfl⟩)
    fun _ => ⟨rfl, rfl, rfl, rfl⟩

/-- A property of the canister that methods, resumed tasks and upgrades keep is kept by every
step. -/
theorem Fires.keeps {P : Canister → Prop} (h : Fires E σ i σ' os) (held : P σ.canister)
    (call : ∀ {method c'}, Writes E σ.canister method c' → P c')
    (reply : ∀ {task reply c'}, ResumeWrites E σ.canister task reply c' → P c')
    (upgrade : ∀ caller, P (postUpgrade E σ.canister caller)) : P σ'.canister := by
  cases h with
  | timer | rejected | callTraps | replyTraps => exact held
  | call allowed runs => exact call (runMethod_writes E runs)
  | reply waits resumes => exact reply (resumes_of_ok E resumes).writesTo
  | upgrade => exact upgrade _

theorem Resumes.frame {task : Task} {reply : Reply} (h : Resumes E c task reply turn) :
    ResumeFrame c turn.canister := h.writesTo.frame

def Input.calls (p : Method → Bool) : Input → Bool
  | .call _ method => p method
  | _ => false

def Input.upgrades : Input → Bool
  | .upgrade _ => true
  | _ => false

structure StepFrame (i : Input) (c c' : Canister) : Prop where
  principal : c'.principal = c.principal
  ledgers : i.calls Method.writesLedgers = false →
    c'.tokenLedgerPrincipals = c.tokenLedgerPrincipals
  nonce : i.calls Method.writesSubaccounts = false →
    c'.lastSubaccountNonce = c.lastSubaccountNonce
  subaccounts : i.calls Method.writesSubaccounts = false → i.upgrades = false →
    c'.listOfSubaccounts = c.listOfSubaccounts

theorem Fires.frame (h : Fires E σ i σ' os) : StepFrame i σ.canister σ'.canister := by
  cases h with
  | timer | rejected | callTraps | replyTraps =>
    exact ⟨rfl, fun _ => rfl, fun _ => rfl, fun _ _ => rfl⟩
  | call allowed runs =>
    have hf := runMethod_frame E runs
    exact ⟨hf.principal, hf.ledgers, hf.nonce, fun h _ => hf.subaccounts h⟩
  | reply waits resumes =>
    have hf := (resumes_of_ok E resumes).frame
    exact ⟨hf.principal, fun _ => hf.ledgers, fun _ => hf.nonce, fun _ _ => hf.subaccounts⟩
  | upgrade =>
    have hf := postUpgrade_frame (E := E) σ.canister ‹_›
    exact ⟨hf.principal, fun _ => hf.ledgers, fun _ => hf.nonce, nofun⟩

theorem keyed_step (keyed : Keyed σ.canister.transactions) (h : Fires E σ i σ' os) :
    Keyed σ'.canister.transactions := keyed.journal (h.journal keyed)

/-! ## Installation -/

/-- A canister starts with an empty store and the list its nonce calls for. -/
theorem Installed.canister (h : Installed E σ) :
    σ.tasks = [] ∧ σ.canister.transactions = ∅ ∧ σ.canister.tokenNextBlocks.isEmpty = false ∧
      σ.canister.tokenLedgerPrincipals = ∅ ∧
      σ.canister.listOfSubaccounts =
        reconstructUpTo E σ.canister.lastSubaccountNonce.toNat ∅ := by
  obtain ⟨htasks, network, seconds, nonce, ledger, custodian, hinit⟩ := h
  refine ⟨htasks, ?_⟩
  unfold init at hinit
  split at hinit
  · cases hinit
  · split at hinit
    · cases hinit
    · simp only [Except.ok.injEq] at hinit
      rw [← hinit]
      simp [reconstructSubaccounts, resetTokenBlocks, Canister.setTokenNextBlock,
        Canister.default]

theorem reachable_keyed (h : Reachable E σ) : Keyed σ.canister.transactions := by
  obtain ⟨σ₀, os, hinstalled, hrun⟩ := h
  refine hrun.invariant (P := fun σ => Keyed σ.canister.transactions) ?_ ?_
  · rw [hinstalled.canister.2.1]
    exact keyed_empty
  · intro s i s' os' keyed _ fires
    exact keyed_step keyed (fires_of_step E fires)

end SubaccountIndexer
