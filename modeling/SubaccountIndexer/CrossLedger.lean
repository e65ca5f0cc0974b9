import SubaccountIndexer.History

/-! Deposits of several ledgers in one store. The ledgers number their blocks
independently, the store has one key for an index whatever the token, and the block
loop leaves a key alone that is taken. A deposit survives if its index is not taken
by a record of another token when its block is scanned. -/

namespace SubaccountIndexer.CrossLedger

variable (E : Externals) (ledger : TokenType → UInt64 → Block)

/-- The inputs of a run of polls: every response holds the ledger's own blocks from the
requested index on. -/
def PollInput (σ : System) (i : Input) : Prop :=
  (match i with
    | .timer | .reply _ (.ledger _) | .reply _ .http => True
    | _ => False) ∧
  ∀ t next response, σ.polled E i = some (t, next, response) →
    ∀ (k : Nat) b, response.blocks[k]? = some b → b = ledger t (next + UInt64.ofNat k)

/-- When a poll is answered, the index of each deposit is taken by a record of the same
token, or it is free and no block makes the loop panic. -/
def KeysFree (σ : System) (i : Input) : Prop :=
  ∀ t p next response, PollAnswered E σ t p next response i →
    ∀ (k : Nat) b, response.blocks[k]? = some b → Deposit E σ.canister b →
      match σ.canister.transactions[next + UInt64.ofNat k]? with
      | some tx => tx.tokenType = t
      | none => Quiet E σ.canister.listOfSubaccounts t p σ.canister.transactions next response.blocks

/-- The inputs of a run of polls in which no deposit is lost -/
def FreeInput (σ : System) (i : Input) : Prop := PollInput E ledger σ i ∧ KeysFree E σ i

/-- Every record is one of the block its token's ledger has under its key. -/
def Recorded (store : Transactions) : Prop :=
  ∀ (i : UInt64) (tx : StoredTransactions), store[i]? = some tx →
    Records tx tx.tokenType i (ledger tx.tokenType i)

/-- The deposits of a scan are in the store. -/
def Covers (c : Canister) (e : Event) : Prop :=
  ∀ t next blocks, e = .answered t next blocks → ∀ (k : Nat) b, blocks[k]? = some b →
    Deposit E c b → ∃ tx, c.transactions[next + UInt64.ofNat k]? = some tx ∧
      Records tx t (next + UInt64.ofNat k) b

variable {E ledger} {c : Canister} {t : TokenType} {p : Principal} {next : UInt64}
  {response : QueryBlocksResponse} {turn : PollTurn} {σ σ' : System} {i : Input}
  {os : List Event}

theorem deposit_congr {c' : Canister} (same : c'.listOfSubaccounts = c.listOfSubaccounts)
    (b : Block) : Deposit E c' b ↔ Deposit E c b := by
  simp only [Deposit, Canister.Registered, same]

/-! ## One poll -/

/-- A poll stores records of the blocks it was answered with. -/
theorem polled_recorded (h : Polled E c t p next (.ok response) turn)
    (aligned : ∀ (k : Nat) b, response.blocks[k]? = some b → b = ledger t (next + UInt64.ofNat k))
    (recorded : Recorded ledger c.transactions) : Recorded ledger turn.canister.transactions := by
  intro i tx htx
  rcases h.journal.1.added h.journal.2 htx with hold | ⟨hidx, j, hj⟩
  · exact recorded i tx hold
  · obtain ⟨k, b, hash, hb, -, -, rfl, -⟩ := h.origin hj
    subst hidx
    rw [aligned k b hb]
    exact Block.record_records _ _ _ _ _

/-- A deposit whose index is free, or taken by its own token, is recorded after the poll. -/
theorem polled_covers (h : Polled E c t p next (.ok response) turn)
    (aligned : ∀ (k : Nat) b, response.blocks[k]? = some b → b = ledger t (next + UInt64.ofNat k))
    (recorded : Recorded ledger c.transactions) {k : Nat} {b : Block}
    (hb : response.blocks[k]? = some b) (deposit : Deposit E c b)
    (own : ∀ tx, c.transactions[next + UInt64.ofNat k]? = some tx → tx.tokenType = t) :
    ∃ tx, turn.canister.transactions[next + UInt64.ofNat k]? = some tx ∧
      Records tx t (next + UInt64.ofNat k) b := by
  obtain ⟨tx, htx⟩ := h.complete hb deposit.relevant
  have hrec := polled_recorded h aligned recorded _ tx htx
  have htoken : tx.tokenType = t := by
    rcases h.journal.1.added h.journal.2 htx with hold | ⟨-, j, hj⟩
    · exact own tx hold
    · obtain ⟨k', b', hash, -, -, -, rfl, -⟩ := h.origin hj
      rfl
  rw [htoken, ← aligned k b hb] at hrec
  exact ⟨tx, htx, hrec⟩

/-! ## Runs of polls -/

/-- A step that keeps the list and only adds records keeps deposits covered. -/
theorem Covers.mono {c' : Canister} {e : Event} (h : Covers E c e)
    (same : c'.listOfSubaccounts = c.listOfSubaccounts)
    (grows : ∀ (i : UInt64) tx, c.transactions[i]? = some tx → c'.transactions[i]? = some tx) :
    Covers E c' e := by
  intro t next blocks he k b hb deposit
  obtain ⟨tx, htx, hrec⟩ := h t next blocks he k b hb ((deposit_congr same b).mp deposit)
  exact ⟨tx, grows _ tx htx, hrec⟩

/-- What a step of a run of polls does -/
structure PollStep (E : Externals) (ledger : TokenType → UInt64 → Block) (c c' : Canister)
    (os : List Event) : Prop where
  recorded : Recorded ledger c'.transactions
  same : c'.listOfSubaccounts = c.listOfSubaccounts
  grows : ∀ (i : UInt64) tx, c.transactions[i]? = some tx → c'.transactions[i]? = some tx
  covers : ∀ e ∈ os, Covers E c' e

theorem PollStep.idle {c' : Canister} (recorded : Recorded ledger c.transactions)
    (store : c'.transactions = c.transactions)
    (same : c'.listOfSubaccounts = c.listOfSubaccounts)
    (quiet : ∀ e ∈ os, ∀ t next blocks, e ≠ .answered t next blocks) :
    PollStep E ledger c c' os where
  recorded := store ▸ recorded
  same := same
  grows _ _ h := store ▸ h
  covers e he t next blocks heq := absurd heq (quiet e he t next blocks)

/-- A poll that panics loses its deposits, unless they are recorded already. -/
theorem pollTraps_step {n : Nat} {reply : Reply} {task : Task} {trap : Trap}
    (input : PollInput E ledger σ (.reply n reply)) (free : KeysFree E σ (.reply n reply))
    (recorded : Recorded ledger σ.canister.transactions) (waits : σ.tasks[n]? = some task)
    (resumes : resumeTask E σ.canister task reply = some (.error trap)) :
    PollStep E ledger σ.canister σ.canister (answeredBlocks E task reply ++ [.trapped trap]) where
  recorded := recorded
  same := rfl
  grows _ _ h := h
  covers e he t next blocks heq k b hb deposit := by
    subst heq
    rcases List.mem_append.mp he with he | he
    · obtain ⟨p, ledgerReply, response, rfl, rfl, hq, rfl, hpolled⟩ :=
        answeredBlocks_polled E waits he
      have hfree := free t p next response (.reply waits hq) k b hb deposit
      split at hfree
      · rename_i tx htx
        have hrec := recorded _ tx htx
        rw [hfree, ← input.2 t next response hpolled k b hb] at hrec
        exact ⟨tx, htx, hrec⟩
      · obtain ⟨turn, hturn⟩ := (queryTokenLedger_isOk t p next).mpr hfree
        simp [resumeTask, hq, hturn, bind, Except.bind] at resumes
    · simp at he

theorem poll_step (input : PollInput E ledger σ i) (free : KeysFree E σ i)
    (recorded : Recorded ledger σ.canister.transactions) (h : Fires E σ i σ' os) :
    PollStep E ledger σ.canister σ'.canister os := by
  cases h with
  | timer running => exact .idle recorded rfl rfl (by simp)
  | rejected | call | callTraps | upgrade => exact absurd input.1 id
  | replyTraps waits resumes => exact pollTraps_step input free recorded waits resumes
  | @reply n reply task turn waits resumes =>
    have hframe := (resumes_of_ok E resumes).frame
    cases resumes_of_ok E resumes with
    | webhook =>
      exact .idle recorded (writeCursor_transactions _ _ _) hframe.subaccounts
        (by simp [answeredBlocks, Turn.done])
    | @poll t p next ledgerReply answer pt answers scans =>
      obtain ⟨hstore, hevents⟩ := pt.toTurn_transactions t
      cases answer with
      | error err =>
        cases scans
        exact .idle recorded hstore hframe.subaccounts (by simp [answeredBlocks, answers, hevents])
      | ok response =>
        have hpolled : σ.polled E (.reply n (.ledger ledgerReply)) = some (t, next, response) := by
          simp [System.polled, waits, answers]
        have aligned := input.2 t next response hpolled
        refine ⟨hstore ▸ polled_recorded scans aligned recorded, hframe.subaccounts, ?_, ?_⟩
        · intro i tx htx
          rw [hstore]
          exact scans.journal.1.keep htx fun e he => by simp [scans.journal.2 e he]
        · intro e he t' next' blocks heq k b hb deposit
          subst heq
          have hmem : t = t' ∧ next = next' ∧ blocks = response.blocks := by
            simpa [answeredBlocks, answers, hevents, scans.not_answered, eq_comm] using he
          obtain ⟨rfl, rfl, rfl⟩ := hmem
          have hdeposit := (deposit_congr hframe.subaccounts b).mp deposit
          rw [hstore]
          refine polled_covers scans aligned recorded hb hdeposit fun tx htx => ?_
          have hfree := free t p next response (.reply waits answers) k b hb hdeposit
          simpa [htx] using hfree
    | sweep | refund | archive | sweepSubaccount | setCustodian => exact absurd input.1 id

/-- In a run of polls in which no deposit meets a record of another token under its index,
the store has, after the run, a record of every deposit that was scanned. -/
theorem deposits_recorded {σ₀ σ : System} {os : List Event}
    (empty : σ₀.canister.transactions = ∅)
    (run : (machine E).Run (FreeInput E ledger) σ₀ os σ)
    {t : TokenType} {next : UInt64} {blocks : List Block} (scan : .answered t next blocks ∈ os)
    {k : Nat} {b : Block} (scanned : blocks[k]? = some b) (deposit : Deposit E σ.canister b) :
    ∃ tx, σ.canister.transactions[next + UInt64.ofNat k]? = some tx ∧
      Records tx t (next + UInt64.ofNat k) b := by
  have hrun := run.history
    (P := fun σ os => Recorded ledger σ.canister.transactions ∧ ∀ e ∈ os, Covers E σ.canister e)
    ⟨by simp [Recorded, empty], by simp⟩ ?_
  · exact hrun.2 _ scan t next blocks rfl k b scanned deposit
  · intro σ os i σ' os' ⟨hrec, hcovers⟩ ⟨input, free⟩ fires
    have hstep := poll_step input free hrec (fires_of_step E fires)
    refine ⟨hstep.recorded, fun e he => ?_⟩
    rcases List.mem_append.mp he with he | he
    · exact (hcovers e he).mono hstep.same hstep.grows
    · exact hstep.covers e he

/-! A run with one ledger, where the condition holds, and one with two. -/

open Examples

theorem timer_free : FreeInput E ledger σ .timer :=
  ⟨⟨trivial, fun _ _ _ h => by simp [System.polled] at h⟩,
    by rintro _ _ _ _ ⟨⟩⟩

theorem pollInput_deposit {n : Nat} {reply : LedgerReply}
    (blocks : (σ.polled externals (.reply n (.ledger reply))).map (·.2.2.blocks) =
      some [deposit]) :
    PollInput externals (fun _ _ => deposit) σ (.reply n (.ledger reply)) := by
  refine ⟨trivial, fun t next response h k b hb => ?_⟩
  rw [h] at blocks
  simp only [Option.map_some, Option.some.injEq] at blocks
  rw [blocks] at hb
  simpa using List.mem_of_getElem? hb

theorem keysFree_deposit {n : Nat} {reply : LedgerReply}
    (waits : σ.tasks[n]? = some (.poll t p next))
    (answers : queryBlocks externals p (pollRequest next) reply = .ok (.ok response))
    (blocks : response.blocks = [deposit]) (empty : σ.canister.transactions = ∅)
    (quiet : deposit.panics externals σ.canister.listOfSubaccounts = false)
    (short : deposit.tooLong externals t p = false) :
    KeysFree externals σ (.reply n (.ledger reply)) := by
  rintro t' p' next' response' answered k b - -
  cases answered with
  | reply waits' answers' =>
    obtain ⟨rfl, rfl, rfl⟩ : t = t' ∧ p = p' ∧ next = next' := by simpa [waits] using waits'
    obtain rfl : response = response' := by simpa [answers] using answers'
    rw [empty, Std.ExtTreeMap.getElem?_empty, blocks]
    exact quiet_of_mem (by simpa using quiet) (by simpa using short)

theorem deposit_listed
    (h : c.listOfSubaccounts[(13125301486455035840 : UInt64)]? = some subaccount1) :
    Deposit externals c deposit := ⟨subaccount1, _, registered_of_listed h, rfl, by decide +kernel⟩

theorem deposits_recorded_icp :
    ∃ tx, depositStored.canister.transactions[(1 : UInt64)]? = some tx ∧
      Records tx .icp 1 deposit := by
  have run : (machine externals).Run (FreeInput externals fun _ _ => deposit) start
      ((machine externals).emitted polling (icpAnswer 0)) depositStored := by
    have free : KeysFree externals polling (icpAnswer 0) :=
      keysFree_deposit rfl rfl rfl (by decide +kernel) (by decide +kernel) (by decide +kernel)
    refine (Lib.Machine.Run.nil.step timer_free polling_step).next (i := icpAnswer 0)
      ⟨pollInput_deposit ?_, free⟩ ?_ <;> decide +kernel
  have scan : Event.answered .icp 1 [deposit] ∈
    (machine externals).emitted polling (icpAnswer 0) := by decide +kernel
  exact deposits_recorded (by decide +kernel) run scan (k := 0) rfl
    (deposit_listed (by decide +kernel))

/-- A canister that polls ICP and ckUSDC -/
def twoLedgers : System :=
  ⟨withUsdc, [.poll .ckusdc CKUSDC_LEDGER_CANISTER_ID 1, .poll .icp MAINNET_LEDGER_CANISTER_ID 1]⟩

abbrev icpFirst : System := (machine externals).after twoLedgers (icpAnswer 1)

abbrev ckusdcAnswer : Input := .reply 0 (icrc3Reply [icrc3Deposit icrc3Recipient])

abbrev bothPolled : System := (machine externals).after icpFirst ckusdcAnswer

/-- The ICP ledger and the ckUSDC ledger both hold a deposit at index 1. The one that is
polled second is lost. -/
theorem second_ledger_loses_deposit :
    withUsdc.transactions = ∅ ∧ (machine externals).Run
        (PollInput externals fun _ _ => deposit) ⟨withUsdc, []⟩
        ((machine externals).emitted twoLedgers (icpAnswer 1) ++
          (machine externals).emitted icpFirst ckusdcAnswer) bothPolled ∧
      .answered .ckusdc 1 [deposit] ∈ (machine externals).emitted icpFirst ckusdcAnswer ∧
      Deposit externals bothPolled.canister deposit ∧
      ¬ ∃ tx, bothPolled.canister.transactions[(1 : UInt64)]? = some tx ∧
        Records tx .ckusdc 1 deposit := by
  have timer : (machine externals).step ⟨withUsdc, []⟩ .timer = some (twoLedgers, []) := rfl
  refine ⟨by decide +kernel, ?_, by decide +kernel, deposit_listed (by decide +kernel), ?_⟩
  · refine ((Lib.Machine.Run.nil.step timer_free.1 timer).next (i := icpAnswer 1)
      (pollInput_deposit ?_) ?_).next (i := ckusdcAnswer) (pollInput_deposit ?_) ?_ <;>
      decide +kernel
  · intro hrecorded
    obtain ⟨tx, htx, hrec⟩ := hrecorded
    have token : (bothPolled.canister.transactions[(1 : UInt64)]?).map (·.tokenType) =
      some .icp := by decide +kernel
    rw [htx, Option.map_some, hrec.tokenType] at token
    cases token

end SubaccountIndexer.CrossLedger
