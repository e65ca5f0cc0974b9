import SubaccountIndexer.History

/-! Who may act on a canister of the main network. `authenticate` reads a copy of the network
on the heap, which an upgrade resets and rebuilds from the stable one; the two agree in
every reachable state. So every method that authenticates refuses all callers but the stored
custodian, and the custodian changes in two ways only. -/

namespace SubaccountIndexer

variable (E : Externals)

/-- Both copies of the network are the main network, and no request is pending. -/
structure Canister.OnMainnet (c : Canister) : Prop where
  heap : c.network = .mainnet
  stable : c.connectedNetwork = .mainnet
  idle : c.pendingRequests = ∅

/-- The fields the caller check reads are the same. -/
structure SameAuthority (c c' : Canister) : Prop where
  custodian : c'.custodianPrincipal = c.custodianPrincipal
  network : c'.network = c.network
  connected : c'.connectedNetwork = c.connectedNetwork
  pending : c'.pendingRequests = c.pendingRequests

/-- The two ways for the custodian to change: the management canister lists the caller of
`set_custodian_principal` as a controller, or an upgrade finds no custodian. -/
inductive ChangesCustodian (σ : System) : Input → Prop
  | controller {n : Nat} {caller : Principal} {text : String} {controllers : List Principal}
      (waits : σ.tasks[n]? = some (.setCustodian caller text)) (listed : caller ∈ controllers) :
      ChangesCustodian σ (.reply n (.status (some controllers)))
  | upgrade {caller : Principal} (unset : σ.canister.custodianPrincipal = none) :
      ChangesCustodian σ (.upgrade caller)

variable {E} {c c' : Canister} {σ σ' : System} {i : Input} {os : List Event} {turn : Turn}
  {caller : Principal} {method : Method}

theorem SameAuthority.refl (c : Canister) : SameAuthority c c := ⟨rfl, rfl, rfl, rfl⟩

theorem SameAuthority.onMainnet (h : SameAuthority c c') (main : c.OnMainnet) : c'.OnMainnet :=
  ⟨h.network.trans main.heap, h.connected.trans main.stable, h.pending.trans main.idle⟩

/-! ## Turns -/

theorem Writes.authority (h : Writes E c method c') : SameAuthority c c' := by
  cases h <;> exact ⟨rfl, rfl, rfl, rfl⟩

/-- A resumed task leaves the caller check alone, unless it was told that the caller of
`set_custodian_principal` is a controller; on a local network it need not be told. -/
theorem ResumeWrites.authority {task : Task} {reply : Reply} (h : ResumeWrites E c task reply c')
    (main : c.OnMainnet) : SameAuthority c c' ∨
      c'.OnMainnet ∧ ∃ caller text controllers, task = .setCustodian caller text ∧
        reply = .status (some controllers) ∧ caller ∈ controllers := by
  cases h with
  | store => exact .inl ⟨rfl, rfl, rfl, rfl⟩
  | cursor =>
    rw [writeCursor_eq]
    exact .inl ⟨rfl, rfl, rfl, rfl⟩
  | @custodian caller text controllers waits status =>
    unfold setCustodianReply
    cases controllers with
    | none =>
      refine .inl ?_
      simpa [main.heap, Turn.done] using SameAuthority.refl c
    | some list =>
      by_cases hlisted : caller ∈ list
      · refine .inr ⟨?_, caller, text, list, waits, status, hlisted⟩
        simp only [if_pos hlisted]
        split <;> exact ⟨main.heap, main.stable, main.idle⟩
      · refine .inl ?_
        simpa [hlisted, Turn.done] using SameAuthority.refl c

theorem migrateBlockTracking_authority (c : Canister) :
    SameAuthority c (migrateBlockTracking c) := by
  unfold migrateBlockTracking
  split <;> exact ⟨rfl, rfl, rfl, rfl⟩

/-- An upgrade rebuilds the network on the heap; it sets a custodian only if there is none. -/
theorem postUpgrade_authority (c : Canister) (caller : Principal)
    (main : c.connectedNetwork = .mainnet) :
    (postUpgrade E c caller).OnMainnet ∧ (c.custodianPrincipal ≠ none →
      (postUpgrade E c caller).custodianPrincipal = c.custodianPrincipal) := by
  -- the canister before its custodian is ensured
  have hbefore : ∀ c₁, (c₁ = c.resetHeap ∨ c₁ = setInterval c.resetHeap 500) →
      (migrateBlockTracking (reconstructNetwork (reconstructSubaccounts E c₁))).OnMainnet ∧
        (migrateBlockTracking (reconstructNetwork (reconstructSubaccounts E c₁))).custodianPrincipal =
          c.custodianPrincipal := by
    intro c₁ hc₁
    have hsame := migrateBlockTracking_authority (reconstructNetwork (reconstructSubaccounts E c₁))
    rcases hc₁ with rfl | rfl <;>
      exact ⟨hsame.onMainnet ⟨main, main, rfl⟩, hsame.custodian⟩
  obtain ⟨hmain, hcustodian⟩ := hbefore _ (upgradeInterval_cases (E := E) c.resetHeap caller)
  unfold postUpgrade ensureCustodian
  dsimp only
  split
  · exact ⟨hmain, fun _ => hcustodian⟩
  · rename_i hnone
    refine ⟨⟨hmain.heap, hmain.stable, hmain.idle⟩, fun hset => ?_⟩
    exact absurd (hcustodian.symm.trans hnone) hset

/-! ## Steps -/

theorem onMainnet_step (h : Fires E σ i σ' os) (main : σ.canister.OnMainnet) :
    σ'.canister.OnMainnet := by
  refine h.keeps main (fun writes => writes.authority.onMainnet main) (fun resumes => ?_)
    fun caller => (postUpgrade_authority _ caller main.stable).1
  rcases resumes.authority main with hsame | ⟨hmain, -⟩
  · exact hsame.onMainnet main
  · exact hmain

theorem custodian_step (h : Fires E σ i σ' os) (main : σ.canister.OnMainnet)
    (changed : σ'.canister.custodianPrincipal ≠ σ.canister.custodianPrincipal) :
    ChangesCustodian σ i := by
  cases h with
  | timer | rejected | callTraps | replyTraps => exact absurd rfl changed
  | call allowed runs => exact absurd (runMethod_writes E runs).authority.custodian changed
  | reply waits resumes =>
    rcases (resumes_of_ok E resumes).writesTo.authority main with
      hsame | ⟨-, caller, text, controllers, rfl, rfl, listed⟩
    · exact absurd hsame.custodian changed
    · exact .controller waits listed
  | @upgrade caller =>
    refine .upgrade ?_
    by_contra hset
    exact changed ((postUpgrade_authority _ caller main.stable).2 hset)

theorem SweepRun.not_setCustodian {results : List String} {txs : List StoredTransactions}
    {turn : SweepTurn} (h : SweepRun E c results txs turn) (text : String) :
    turn.toTurn.task ≠ .setCustodian caller text := by
  cases h <;> nofun

theorem Resumes.not_setCustodian {task : Task} {reply : Reply} (h : Resumes E c task reply turn)
    (text : String) : turn.task ≠ .setCustodian caller text := by
  intro heq
  cases h with
  | @poll t p next reply answer pt answers scans =>
    unfold PollTurn.toTurn at heq
    split at heq <;> cases heq
  | @sweep tx rest results result =>
    obtain ⟨status, turn, lines, hturn, -, hrun⟩ :=
      sweepRecorded_spec (E := E) c tx rest results result
    rw [hturn] at heq
    exact hrun.not_setCustodian text heq
  | @refund tx result => cases result <;> cases heq
  | @archive await reply turn answers =>
    obtain ⟨c', status, events⟩ := turn
    cases status <;> cases heq
  | webhook | sweepSubaccount => cases heq
  | setCustodian =>
    unfold setCustodianReply at heq
    revert heq
    dsimp only
    repeat' split
    all_goals exact nofun

theorem runMethod_setCustodian (runs : runMethod E c caller method = .ok turn) {p : Principal}
    {text : String} (waiting : turn.task = .setCustodian p text) :
    p = caller ∧ method = .setCustodianPrincipal text := by
  cases ran_of_ok E runs with
  | setCustodian =>
    cases runs
    cases waiting
    exact ⟨rfl, rfl⟩
  | @sweep method txs selects =>
    exact absurd waiting ((sweepTxs_run (E := E) c [] txs).not_setCustodian text)
  | refund refunds => cases refunds <;> cases waiting
  | _ => cases waiting

/-- A task that asks for the controllers was started by its caller. -/
theorem setCustodian_origin (h : Fires E σ i σ' os) {text : String}
    (mem : .setCustodian caller text ∈ σ'.tasks) :
    .setCustodian caller text ∈ σ.tasks ∨ i = .call caller (.setCustodianPrincipal text) := by
  cases h with
  | timer running =>
    rcases List.mem_append.mp mem with mem | mem
    · exact .inl mem
    · obtain ⟨p, -, heq⟩ := List.mem_map.mp mem
      cases heq
  | rejected message | callTraps traps =>
    rcases List.mem_append.mp mem with mem | mem
    · exact .inl mem
    · cases List.mem_singleton.mp mem
  | call allowed runs =>
    rcases List.mem_append.mp mem with mem | mem
    · exact .inl mem
    · obtain ⟨rfl, rfl⟩ := runMethod_setCustodian runs (List.mem_singleton.mp mem).symm
      exact .inr rfl
  | reply waits resumes =>
    rcases List.mem_or_eq_of_mem_set mem with mem | heq
    · exact .inl mem
    · exact absurd heq.symm ((resumes_of_ok E resumes).not_setCustodian text)
  | replyTraps waits resumes =>
    rcases List.mem_or_eq_of_mem_set mem with mem | heq
    · exact .inl mem
    · cases heq
  | upgrade => cases mem

/-- On the main network the caller check refuses everyone but the custodian. -/
theorem authenticate_refuses (main : c.OnMainnet) (other : c.custodianPrincipal ≠ some caller) :
    ∃ message, authenticate E c caller = .error message := by
  unfold authenticate
  rw [main.heap]
  cases hcustodian : c.custodianPrincipal with
  | none => exact ⟨_, rfl⟩
  | some custodian =>
    have hne : caller ≠ custodian := by
      intro heq
      rw [heq] at other
      exact other hcustodian
    simp only [ne_eq, hne, not_false_eq_true, if_true]
    exact ⟨_, rfl⟩

theorem authenticate_accepts (main : c.OnMainnet) (custodian : c.custodianPrincipal = some caller) :
    authenticate E c caller = .ok c := by
  cases h : authenticate E c caller with
  | ok c' => rw [authenticate_frame h]
  | error message =>
    simp [authenticate, main.heap, custodian, callerGuardNew, main.idle, Except.map] at h

theorem init_onMainnet {seconds : UInt64} {nonce : UInt32} {ledger custodian : String}
    (initialised : init E .mainnet seconds nonce ledger custodian = .ok c) : c.OnMainnet := by
  unfold init at initialised
  split at initialised
  · cases initialised
  · split at initialised
    · cases initialised
    · simp only [Except.ok.injEq] at initialised
      rw [← initialised]
      exact ⟨rfl, rfl, rfl⟩

/-- On the main network every method that authenticates refuses all callers but the stored
custodian, with an error and no call, and leaves the canister as it is; and the custodian
changes only for a caller of `set_custodian_principal` who is listed as a controller, or
by an upgrade that finds none. -/
theorem only_custodian_acts {seconds : UInt64} {nonce : UInt32} {ledger custodian : String}
    {c₀ : Canister} (initialised : init E .mainnet seconds nonce ledger custodian = .ok c₀)
    (run : (machine E).Run (fun _ _ => True) ⟨c₀, []⟩ os σ) :
    (∀ caller method, method.authenticates = true →
      σ.canister.custodianPrincipal ≠ some caller → ∃ message,
        (machine E).step σ (.call caller method) =
          some (⟨σ.canister, σ.tasks ++ [.finished (.error message)]⟩, [])) ∧
    ∀ i σ' os', (machine E).step σ i = some (σ', os') →
      (σ'.canister.custodianPrincipal ≠ σ.canister.custodianPrincipal → ChangesCustodian σ i) ∧
      ∀ caller text, .setCustodian caller text ∈ σ'.tasks →
        .setCustodian caller text ∈ σ.tasks ∨ i = .call caller (.setCustodianPrincipal text) := by
  have hmain := run.invariant (P := fun σ => σ.canister.OnMainnet) (init_onMainnet initialised)
    fun s i s' os' main _ fires => onMainnet_step (fires_of_step E fires) main
  refine ⟨fun caller method authenticates other => ?_, fun i σ' os' fires => ⟨?_, ?_⟩⟩
  · obtain ⟨message, hrefused⟩ := authenticate_refuses (E := E) hmain other
    refine ⟨message, ?_⟩
    simp only [machine, System.step, startCall, authenticates, if_true, hrefused, System.settle,
      Turn.done, List.append_nil]
  · exact custodian_step (fires_of_step E fires) hmain
  · exact fun caller text => setCustodian_origin (fires_of_step E fires)

/-! A canister on the main network, and a sweep by another principal. -/

namespace Examples

def mainnetInstalled : Canister :=
  { installed with network := .mainnet, connectedNetwork := .mainnet }

theorem mainnetInstalled_init :
    init externals .mainnet 500 2 "ryjl3-tyaaa-aaaaa-aaaba-cai" "ryjl3-tyaaa-aaaaa-aaaba-cai" =
      .ok mainnetInstalled := by
  have hlist : mainnetInstalled.listOfSubaccounts = reconstructUpTo externals 2 ∅ :=
    issuedSubaccounts_eq.symm
  have hinit : init externals .mainnet 500 2 "ryjl3-tyaaa-aaaaa-aaaba-cai"
      "ryjl3-tyaaa-aaaaa-aaaba-cai" = .ok { mainnetInstalled with
        listOfSubaccounts := reconstructUpTo externals 2 ∅ } := rfl
  rw [hinit, ← hlist]

/-- A tick has started a poll and its ledger has answered with a deposit. -/
abbrev mainnetPolling : System := (machine externals).after ⟨mainnetInstalled, []⟩ .timer

abbrev mainnetStored : System := (machine externals).after mainnetPolling (icpAnswer 0)

theorem only_custodian_acts_sweep : ∃ message,
    (machine externals).step mainnetStored (.call payer .sweep) =
      some (⟨mainnetStored.canister, mainnetStored.tasks ++ [.finished (.error message)]⟩, []) := by
  have hpolling : (machine externals).Run (fun _ _ => True) ⟨mainnetInstalled, []⟩ _
      mainnetPolling := Lib.Machine.Run.nil.next (i := Input.timer) trivial rfl
  have hstored := hpolling.next (i := icpAnswer 0) trivial (by decide +kernel)
  exact (only_custodian_acts mainnetInstalled_init hstored).1 payer .sweep rfl (by decide +kernel)

end Examples

end SubaccountIndexer
