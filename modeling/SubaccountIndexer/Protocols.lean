import SubaccountIndexer.Cursors
import SubaccountIndexer.Custodian
import SubaccountIndexer.Detection

/-! The interface each token's ledger is called through. A poll chooses it by comparing the
ledger with three constants, the sweeps and `sweep_subaccount` by the token, and `refund` does
not choose: it speaks to the ICP ledger interface. So the sweeps are always right, a refund of a
ck token never is, and a poll is right as long as the ledgers of the ck tokens are the built-in
ones and that of ICP is none of them. -/

namespace SubaccountIndexer.Protocols

variable (E : Externals)

/-- The tokens with an ICRC ledger -/
def icrc : TokenType → Bool
  | .icp => false
  | .ckusdc | .ckusdt | .ckbtc => true

/-- The call goes through `icrc3_get_blocks`, not `query_blocks`. -/
def asksIcrc : BlocksCall → Bool
  | .queryBlocks _ => false
  | .icrc3GetBlocks .. => true

/-- The call goes through `icrc1_transfer`, not `transfer`. -/
def paysIcrc : TransferCall → Bool
  | .transfer .. => false
  | .icrc1Transfer .. => true

/-- Whatever happens next, the ledger of the token is spoken to in its own protocol: by the
polls a tick starts, by the transfers for records and by `sweep_subaccount`. -/
structure OwnProtocol (σ : System) (t : TokenType) : Prop where
  polls : ∀ p next, (t, p, next) ∈ pollsToStart σ.canister →
    asksIcrc (blocksCall p (pollRequest next)) = icrc t
  transfers : ∀ i σ' os, (machine E).step σ i = some (σ', os) →
    ∀ tx call, .transfer tx call ∈ os → tx.tokenType = t → paysIcrc call = icrc t
  subaccounts : ∀ caller hex amount token σ' os, token.getD .icp = t →
    (machine E).step σ (.call caller (.sweepSubaccount hex amount token)) = some (σ', os) →
    ∀ call, .subaccountTransfer call ∈ os → paysIcrc call = icrc t

/-- A refund of the record gets as far as its transfer: the record is a transfer whose sender
parses and whose recipient is listed. -/
def Refundable (c : Canister) (tx : StoredTransactions) : Prop :=
  ∃ data sender account subaccount, tx.operation = some (.transfer data) ∧
    E.accountFromSlice data.from = .ok sender ∧ E.accountFromSlice data.to = .ok account ∧
    getSubaccount E c account = .ok subaccount

/-- A ck token is polled on one of the built-in ck ledgers and ICP on none of them, and no stored
record of a ck token can be refunded. -/
structure OwnLedgers (c : Canister) (t : TokenType) : Prop where
  ledgers : ∀ p, PolledOn c t p → usesIcrc3 p = icrc t
  refunds : icrc t = true → ∀ (k : UInt64) tx, c.transactions[k]? = some tx → tx.tokenType = t →
    ¬ Refundable E c tx

/-- Some caller passes the check of the methods. -/
structure Attended (c : Canister) : Prop where
  custodian : c.custodianPrincipal ≠ none
  idle : c.pendingRequests = ∅

variable {E} {c c' : Canister} {σ σ' : System} {i : Input} {os : List Event} {t : TokenType}
  {tx : StoredTransactions} {call : TransferCall}

/-! ## Callers -/

theorem attended_accepts (h : Attended c) : ∃ caller, authenticate E c caller = .ok c := by
  obtain ⟨custodian, hcustodian⟩ := Option.ne_none_iff_exists'.mp h.custodian
  refine ⟨custodian, ?_⟩
  cases ha : authenticate E c custodian with
  | ok c' => rw [authenticate_frame ha]
  | error message =>
    cases hnetwork : c.network <;>
      simp [authenticate, hnetwork, hcustodian, callerGuardNew, h.idle, Except.map] at ha

theorem Attended.same (h : Attended c) (same : SameAuthority c c') : Attended c' :=
  ⟨by rw [same.custodian]; exact h.custodian, same.pending.trans h.idle⟩

theorem Attended.resumes {task : Task} {reply : Reply} (h : Attended c)
    (resumes : ResumeWrites E c task reply c') : Attended c' := by
  exact resumes.keeps (fun _ => ⟨h.custodian, h.idle⟩) (fun _ _ _ => ⟨h.custodian, h.idle⟩)
    fun p => ⟨Option.some_ne_none p, h.idle⟩

theorem postUpgrade_attended (c : Canister) (caller : Principal) :
    Attended (postUpgrade E c caller) := by
  have hidle : ∀ c₁ : Canister, c₁.pendingRequests = ∅ →
      (migrateBlockTracking (reconstructNetwork (reconstructSubaccounts E c₁))).pendingRequests =
        ∅ := fun c₁ h => (migrateBlockTracking_authority _).pending.trans h
  have hpending : (upgradeInterval E c.resetHeap caller).pendingRequests = ∅ := by
    rcases upgradeInterval_cases (E := E) c.resetHeap caller with h | h <;> rw [h] <;> rfl
  unfold postUpgrade ensureCustodian
  dsimp only
  split
  · rename_i custodian hset
    exact ⟨by rw [hset]; nofun, hidle _ hpending⟩
  · exact ⟨Option.some_ne_none _, hidle _ hpending⟩

theorem attended_step (h : Fires E σ i σ' os) (attended : Attended σ.canister) :
    Attended σ'.canister :=
  h.keeps attended (fun writes => attended.same writes.authority) attended.resumes
    fun caller => postUpgrade_attended _ caller

theorem reachable_attended (h : Reachable E σ) : Attended σ.canister := by
  obtain ⟨σ₀, os, ⟨-, network, seconds, nonce, ledger, custodian, hinit⟩, hrun⟩ := h
  refine hrun.invariant (P := fun σ => Attended σ.canister) ?_
    fun s i s' os' attended _ fires => attended_step (fires_of_step E fires) attended
  unfold init at hinit
  split at hinit
  · cases hinit
  · split at hinit
    · cases hinit
    · simp only [Except.ok.injEq] at hinit
      rw [← hinit]
      exact ⟨Option.some_ne_none _, rfl⟩

/-! ## Calls -/

theorem blocksCall_asksIcrc (p : Principal) (req : QueryBlocksRequest) :
    asksIcrc (blocksCall p req) = usesIcrc3 p := by
  unfold blocksCall
  cases usesIcrc3 p <;> rfl

theorem sweepCall_paysIcrc (h : sweepCall E c tx = .ok call) :
    paysIcrc call = icrc tx.tokenType := by
  unfold sweepCall at h
  cases ht : tx.tokenType with
  | icp =>
    rw [ht] at h
    obtain ⟨args, -, rfl⟩ := map_eq_ok h
    rfl
  | _ =>
    rw [ht] at h
    obtain ⟨args, -, rfl⟩ := map_eq_ok h
    rfl

theorem sweepSubaccount_paysIcrc {hex : String} {amount : Float} {token : Option TokenType}
    (mem : .subaccountTransfer call ∈ (sweepSubaccount E c hex amount token).events) :
    paysIcrc call = icrc (token.getD .icp) := by
  unfold sweepSubaccount at mem
  dsimp only at mem
  split at mem
  · cases mem
  · split at mem
    · cases mem
    · split at mem
      · cases mem
      · split at mem
        · cases mem
        · rename_i call' hcall
          obtain rfl : call = call' := by simpa using mem
          cases ht : token.getD .icp with
          | icp =>
            rw [ht] at hcall
            cases hcall
            rfl
          | _ =>
            rw [ht] at hcall
            simp only [sweepSubaccountCall] at hcall
            split at hcall
            · cases hcall
            · cases hcall
              rfl

theorem toRefundArgs_iff : (∃ args, toRefundArgs E c tx = .ok (.ok args)) ↔ Refundable E c tx := by
  constructor
  · rintro ⟨args, h⟩
    unfold toRefundArgs at h
    split at h
    · cases h
    · rename_i data hop
      simp only [bind, Except.bind, Except.ok.injEq] at h
      cases hsender : E.accountFromSlice data.from with
      | error e => simp [hsender] at h
      | ok sender =>
        simp only [hsender, sourceSubaccount] at h
        cases haccount : E.accountFromSlice data.to with
        | error e => simp [haccount] at h
        | ok account =>
          simp only [haccount] at h
          cases hsub : getSubaccount E c account with
          | error e => simp [hsub] at h
          | ok subaccount => exact ⟨data, sender, account, subaccount, hop, hsender, haccount, hsub⟩
    · cases h
  · rintro ⟨data, sender, account, subaccount, hop, hsender, haccount, hsub⟩
    simp only [toRefundArgs, hop, hsender, sourceSubaccount, haccount, hsub, bind, Except.bind]
    exact ⟨_, rfl⟩

/-! ## Where transfers come from -/

theorem sweepRun_paysIcrc {results : List String} {txs : List StoredTransactions}
    {turn : SweepTurn} (h : SweepRun E c results txs turn)
    (mem : .transfer tx call ∈ turn.events) : paysIcrc call = icrc tx.tokenType := by
  cases h with
  | returned none => cases mem
  | awaiting builds =>
    cases List.mem_singleton.mp mem
    exact sweepCall_paysIcrc builds

/-- A resumed task issues a transfer only if it is a sweep. -/
theorem resumes_paysIcrc {task : Task} {reply : Reply} {turn : Turn}
    (h : Resumes E c task reply turn) (mem : .transfer tx call ∈ turn.events) :
    paysIcrc call = icrc tx.tokenType := by
  cases h with
  | @poll t p next reply answer pt answers scans =>
    rw [(pt.toTurn_transactions t).2] at mem
    rcases scans.events _ mem with ⟨tx', j, heq⟩ | ⟨hash, heq⟩ <;> cases heq
  | @sweep tx' rest results result =>
    obtain ⟨status, turn, lines, heq, -, hrun⟩ :=
      sweepRecorded_spec (E := E) c tx' rest results result
    rw [heq] at mem
    rcases List.mem_append.mp mem with mem | mem
    · simp at mem
    · exact sweepRun_paysIcrc hrun mem
  | @refund tx' result => cases result <;> simp [refundRecorded, RefundTurn.toTurn] at mem
  | @archive await reply turn answers =>
    cases archived_of_ok E answers <;> simp [ArchiveTurn.toTurn] at mem
  | webhook | sweepSubaccount => simp [Turn.done, sweepSubaccountReply] at mem
  | setCustodian =>
    revert mem
    unfold setCustodianReply
    dsimp only
    repeat' split
    all_goals simp [Turn.done]

/-- A transfer goes through the interface of its token, or a refund of a stored record
issues it. -/
theorem transfer_origin (keyed : Keyed σ.canister.transactions) (h : Fires E σ i σ' os)
    (mem : .transfer tx call ∈ os) :
    paysIcrc call = icrc tx.tokenType ∨ paysIcrc call = false ∧ Refundable E σ.canister tx ∧
      ∃ k : UInt64, σ.canister.transactions[k]? = some tx := by
  cases h with
  | timer | rejected | upgrade => cases mem
  | callTraps traps => cases List.mem_singleton.mp mem
  | call allowed runs =>
    cases ran_of_ok E runs with
    | sweep selects => exact .inl (sweepRun_paysIcrc (sweepTxs_run _ _ _) mem)
    | refund refunds =>
      cases refunds with
      | returned => cases mem
      | awaiting held builds =>
        cases List.mem_singleton.mp mem
        exact .inr ⟨rfl, toRefundArgs_iff.mp ⟨_, builds⟩, _, held⟩
    | clear =>
      obtain ⟨tx', heq, -⟩ := clearTransactions_events keyed mem
      cases heq
    | fail =>
      obtain ⟨tx', -, previous, heq⟩ := failedRecorded_events _ _ _ mem
      cases heq
    | archive | setCustodian | done | sweepSubaccount => simp [Turn.done] at mem
  | reply waits resumes =>
    exact .inl (resumes_paysIcrc (resumes_of_ok E resumes) (mem_of_mem_answered mem (by simp)))
  | replyTraps waits resumes =>
    cases List.mem_singleton.mp (mem_of_mem_answered mem (by simp))

/-- A refund of a stored record that can be refunded issues an ICP transfer. -/
theorem refund_step (reachable : Reachable E σ) {k : UInt64}
    (held : σ.canister.transactions[k]? = some tx) (refundable : Refundable E σ.canister tx) :
    ∃ i σ' os call, (machine E).step σ i = some (σ', os) ∧ .transfer tx call ∈ os ∧
      paysIcrc call = false := by
  obtain ⟨⟨args, ledger⟩, hargs⟩ := toRefundArgs_iff.mpr refundable
  obtain ⟨caller, haccepts⟩ := attended_accepts (E := E) (reachable_attended reachable)
  have hallowed : σ.runs E (.call caller (.refund k)) = some (.refund k) := by
    simp [System.runs, haccepts, Except.isOk, Except.toBool]
  have hruns : runMethod E σ.canister caller (.refund k) = .ok (RefundTurn.toTurn
      ⟨σ.canister, .awaiting tx, [.transfer tx (.transfer args ledger)]⟩) := by
    simp only [runMethod, refund, held, hargs, bind, Except.bind, Except.map]
  exact ⟨_, _, _, _, step_of_runs E hallowed hruns, .head _, rfl⟩

/-- In every reachable state each token is spoken to in its own protocol if and only if it is
polled on ledgers of its own protocol and, for a ck token, none of its records can be refunded. -/
theorem own_protocol_iff (reachable : Reachable E σ) (t : TokenType) :
    OwnProtocol E σ t ↔ OwnLedgers E σ.canister t := by
  constructor
  · intro own
    refine ⟨fun p polled => ?_, fun hicrc k tx held htoken refundable => ?_⟩
    · rw [← own.polls p _ (mem_pollsToStart.mpr ⟨polled, rfl⟩), blocksCall_asksIcrc]
    · obtain ⟨i, σ', os, call, hstep, hmem, hcall⟩ := refund_step reachable held refundable
      have hpays := own.transfers i σ' os hstep tx call hmem htoken
      rw [hcall, hicrc] at hpays
      cases hpays
  · intro own
    refine ⟨fun p next hpoll => ?_, fun i σ' os hstep tx call hmem htoken => ?_,
      fun caller hex amount token σ' os htoken hstep call hmem => ?_⟩
    · rw [blocksCall_asksIcrc]
      exact own.ledgers p (mem_pollsToStart.mp hpoll).1
    · subst htoken
      rcases transfer_origin (reachable_keyed reachable) (fires_of_step E hstep) hmem with
        hpays | ⟨hpays, hrefundable, k, hheld⟩
      · exact hpays
      · cases hicrc : icrc tx.tokenType with
        | false => exact hpays
        | true => exact absurd hrefundable (own.refunds hicrc k tx hheld rfl)
    · subst htoken
      cases fires_of_step E hstep with
      | rejected => cases hmem
      | callTraps => cases List.mem_singleton.mp hmem
      | call allowed runs =>
        cases runs
        exact sweepSubaccount_paysIcrc hmem

/-! ckUSDC on its own ledger, without and with a record; and ckUSDC on another ledger. -/

open Examples Detection

theorem usdc_polledOn {key : UInt64} {p : Principal}
    (held : withUsdc.tokenLedgerPrincipals[key]? = some (.ckusdc, p)) :
    p = CKUSDC_LEDGER_CANISTER_ID := by
  simp only [withUsdc, Std.ExtTreeMap.getElem?_insert] at held
  split at held
  · cases held
    rfl
  · simp [installed, resetTokenBlocks, Canister.setTokenNextBlock, Canister.default] at held

theorem own_protocol_iff_usdc : OwnProtocol externals usdcPolling .ckusdc := by
  refine (own_protocol_iff usdcPolling_reachable .ckusdc).mpr ⟨fun p polled => ?_, ?_⟩
  · cases polled with
    | registered held =>
      obtain rfl := usdc_polledOn held
      decide
  · intro _ k tx held
    simp [usdcPolling, withUsdc, installed, resetTokenBlocks, Canister.setTokenNextBlock,
      Canister.default] at held

/-- The ckUSDC ledger answers with a deposit to subaccount 1. -/
abbrev usdcStored : System :=
  (machine externals).after usdcPolling (.reply 1 (icrc3Reply [icrc3Deposit icrc3Recipient]))

def usdcRecord : StoredTransactions :=
  { record with tokenType := .ckusdc, tokenLedgerCanisterId := some CKUSDC_LEDGER_CANISTER_ID }

/-- The registry names another ledger for ckUSDC. -/
abbrev elsewhere : System := (machine externals).after start
  (.call custodian (.registerToken .ckusdc "bkyz2-fmaaa-aaaaa-qaaaq-cai"))

/-- A refund of a ckUSDC deposit calls `transfer` on the ckUSDC ledger; and a ckUSDC ledger that
is not the built-in one is polled with `query_blocks`. -/
theorem refund_speaks_icp :
    Reachable externals usdcStored ∧ ¬ OwnProtocol externals usdcStored .ckusdc ∧
      (machine externals).emitted usdcStored (.call custodian (.refund 1)) =
        [.transfer usdcRecord (.transfer
          { memo := 0, amount := 90000, fromSubaccount := some subaccount1, fee := 10000,
            «to» := payerAccount, createdAtTime := none } CKUSDC_LEDGER_CANISTER_ID)] ∧
      Reachable externals elsewhere ∧ ¬ OwnProtocol externals elsewhere .ckusdc ∧
      (.ckusdc, localLedger, 1) ∈ pollsToStart elsewhere.canister ∧
      blocksCall localLedger (pollRequest 1) = .queryBlocks (pollRequest 1) := by
  have hissued : (machine externals).emitted usdcStored (.call custodian (.refund 1)) =
      [.transfer usdcRecord (.transfer
        { memo := 0, amount := 90000, fromSubaccount := some subaccount1, fee := 10000,
          «to» := payerAccount, createdAtTime := none } CKUSDC_LEDGER_CANISTER_ID)] := by
    decide +kernel
  have hpolls : (.ckusdc, localLedger, 1) ∈ pollsToStart elsewhere.canister := by decide +kernel
  refine ⟨?_, fun own => ?_, hissued, ?_, fun own => ?_, hpolls, by decide⟩
  · obtain ⟨σ₀, os, hinstalled, hrun⟩ := usdcPolling_reachable
    refine ⟨σ₀, _, hinstalled, hrun.next
      (i := .reply 1 (icrc3Reply [icrc3Deposit icrc3Recipient])) trivial ?_⟩
    decide +kernel
  · have hmem := hissued.symm ▸ List.mem_singleton_self _
    have hpays := own.transfers _ _ _ (Lib.Machine.step_of_emitted hmem) _ _ hmem rfl
    cases hpays
  · have hrun : (machine externals).Run (fun _ _ => True) start _ elsewhere :=
      Lib.Machine.Run.nil.next
        (i := Input.call custodian (.registerToken .ckusdc "bkyz2-fmaaa-aaaaa-qaaaq-cai")) trivial rfl
    exact ⟨start, _, start_installed, hrun⟩
  · have hasks := own.polls _ _ hpolls
    revert hasks
    decide

end SubaccountIndexer.Protocols
