import SubaccountIndexer.PollSpec

/-! Two questions about a single poll: does it come to an end whatever the ledger
answers, and has it looked at every block its cursor moves past? -/

namespace SubaccountIndexer

variable (E : Externals)

/-! ## Panics -/

/-- The condition on the operations alone, where every insertion succeeds -/
theorem quiet_iff_transfers {c : Canister} {t : TokenType} {p : Principal} {next : UInt64}
    {blocks : List Block} (inserts : ∀ k b, NewAt E c.listOfSubaccounts c.transactions next
      blocks k b → b.tooLong E t p = false) :
    Quiet E c.listOfSubaccounts t p c.transactions next blocks ↔
      ∀ b ∈ blocks, b.relevant E c.listOfSubaccounts = true → b.isTransfer = true := by
  have hpanics : (∀ b ∈ blocks, b.panics E c.listOfSubaccounts = false) ↔
      ∀ b ∈ blocks, b.relevant E c.listOfSubaccounts = true → b.isTransfer = true := by
    refine forall₂_congr fun b _ => ?_
    cases hr : b.relevant E c.listOfSubaccounts <;> simp [Block.panics, hr]
  rw [← hpanics]
  exact ⟨Quiet.transfers, fun h => ⟨h, inserts⟩⟩

/-- A poll whose insertions succeed comes to its end, past all blocks of the response, exactly
when every block that concerns a subaccount is a transfer. -/
theorem queryTokenLedger_completes_iff (c : Canister) (t : TokenType) (p : Principal)
    (next : UInt64) (response : QueryBlocksResponse)
    (fits : next.toNat + response.blocks.length < 2 ^ 64)
    (inserts : ∀ k b, NewAt E c.listOfSubaccounts c.transactions next response.blocks k b →
      b.tooLong E t p = false) :
    (∃ turn, queryTokenLedger E c t p next (.ok response) = .ok turn ∧
        turn.status.blockCount.toNat = next.toNat + response.blocks.length) ↔
      ∀ b ∈ response.blocks, b.relevant E c.listOfSubaccounts = true → b.isTransfer = true := by
  rw [← quiet_iff_transfers E inserts, ← queryTokenLedger_isOk t p next]
  constructor
  · intro hcompletes
    obtain ⟨turn, hturn, -⟩ := hcompletes
    exact ⟨turn, hturn⟩
  · intro hreturns
    obtain ⟨turn, hturn⟩ := hreturns
    exact ⟨turn, hturn, (polled_of_ok hturn).blockCount_toNat fits⟩

theorem queryTokenLedger_completes_deposit :
    (∃ turn, queryTokenLedger Examples.externals Examples.issued .icp MAINNET_LEDGER_CANISTER_ID 1
        (.ok (Examples.responseAt 1 [Examples.deposit])) = .ok turn ∧
        turn.status.blockCount.toNat = 2) := by
  refine (queryTokenLedger_completes_iff Examples.externals Examples.issued .icp
    MAINNET_LEDGER_CANISTER_ID 1 (Examples.responseAt 1 [Examples.deposit]) (by decide)
    (fun k b new => short_of_mem (by decide +kernel) new)).mpr ?_
  decide +kernel

/-- An approval by a subaccount makes every poll that sees it panic, though nothing that it
inserts is too long. -/
theorem approval_stops_poll :
    Examples.issued.Registered Examples.externals (toSubaccount 0) ∧
      (1 : UInt64).toNat + (Examples.responseAt 1 [Examples.approval]).blocks.length < 2 ^ 64 ∧
      (∀ k b, NewAt Examples.externals Examples.issued.listOfSubaccounts
          Examples.issued.transactions 1 (Examples.responseAt 1 [Examples.approval]).blocks k b →
        b.tooLong Examples.externals .icp MAINNET_LEDGER_CANISTER_ID = false) ∧
      ¬ ∃ turn, queryTokenLedger Examples.externals Examples.issued .icp
          MAINNET_LEDGER_CANISTER_ID 1 (.ok (Examples.responseAt 1 [Examples.approval])) =
            .ok turn ∧ turn.status.blockCount.toNat = 2 := by
  refine ⟨by decide +kernel, by decide, fun k b new => short_of_mem (by decide +kernel) new, ?_⟩
  intro hcompletes
  obtain ⟨turn, hturn, -⟩ := hcompletes
  have hquiet := ((queryTokenLedger_isOk _ _ _).mp ⟨turn, hturn⟩).transfers
  revert hquiet
  decide +kernel

/-! ## Windows -/

/-- What the cursor of a poll promises: each record it stored sits under, and carries, the
number its block has on the ledger, and each block before the cursor was scanned. -/
structure ScansWindow (c : Canister) (t : TokenType) (p : Principal) (next : UInt64)
    (response : QueryBlocksResponse) (turn : PollTurn) : Prop where
  labelled : ∀ tx ledgerIndex, .stored tx ledgerIndex ∈ turn.events →
    (∃ (k : Nat) (b : Block) (hash : String), response.blocks[k]? = some b ∧
      ledgerIndex = response.firstBlockIndex + UInt64.ofNat k ∧
      tx = b.record tx.index hash t p) ∧
    tx.index = ledgerIndex ∧ turn.canister.transactions[ledgerIndex]? = some tx
  accounted : ∀ (i : UInt64) (tx : StoredTransactions), turn.canister.transactions[i]? = some tx →
    c.transactions[i]? = some tx ∨ ∃ ledgerIndex, .stored tx ledgerIndex ∈ turn.events
  covered : ∀ i, next ≤ i → i < turn.status.blockCount →
    ∃ k < response.blocks.length, i = response.firstBlockIndex + UInt64.ofNat k

variable {E} {c : Canister} {t : TokenType} {p : Principal} {next : UInt64}
  {response : QueryBlocksResponse} {turn : PollTurn}

theorem Polled.accounted (h : Polled E c t p next (.ok response) turn) (i : UInt64)
    (tx : StoredTransactions) (hi : turn.canister.transactions[i]? = some tx) :
    c.transactions[i]? = some tx ∨ ∃ ledgerIndex, .stored tx ledgerIndex ∈ turn.events :=
  (h.journal.1.added h.journal.2 hi).imp_right And.right

/-- An empty response moves nothing. -/
theorem scansWindow_nil (empty : response.blocks = [])
    (h : Polled E c t p next (.ok response) turn) : ScansWindow c t p next response turn where
  labelled tx j he := by
    obtain ⟨k, b, hash, hb, -⟩ := h.origin he
    simp [empty] at hb
  accounted := h.accounted
  covered i hi hlt := by
    rw [h.blockCount, empty, List.length_nil, show UInt64.ofNat 0 = 0 from rfl,
      UInt64.add_zero] at hlt
    exact absurd hlt (UInt64.not_lt.mpr hi)

/-- A response that starts where the poll started -/
theorem scansWindow_aligned (aligned : response.firstBlockIndex = next)
    (fits : response.firstBlockIndex.toNat + response.blocks.length < 2 ^ 64)
    (h : Polled E c t p next (.ok response) turn) : ScansWindow c t p next response turn where
  labelled tx j he := by
    obtain ⟨k, b, hash, hb, -, -, rfl, rfl⟩ := h.origin he
    have heq : next + UInt64.ofNat k = response.firstBlockIndex + UInt64.ofNat k := by
      rw [aligned]
    refine ⟨⟨k, b, hash, hb, rfl, rfl⟩, heq, ?_⟩
    rw [← heq]
    exact h.journal.1.held h.journal.2 he
  accounted := h.accounted
  covered i hi hlt := by
    rw [aligned] at fits ⊢
    have hcount := h.blockCount_toNat fits
    rw [UInt64.lt_iff_toNat_lt] at hlt
    rw [UInt64.le_iff_toNat_le] at hi
    refine ⟨i.toNat - next.toNat, by omega, UInt64.toNat_inj.mp ?_⟩
    rw [UInt64.toNat_add, UInt64.toNat_ofNat']
    omega

/-- If the response starts later, the first block of the window is not in it. -/
theorem gap_uncovered (nonempty : response.blocks ≠ [])
    (later : response.firstBlockIndex ≠ next) (after : next ≤ response.firstBlockIndex)
    (fits : response.firstBlockIndex.toNat + response.blocks.length < 2 ^ 64)
    (h : Polled E c t p next (.ok response) turn) :
    ¬ ScansWindow c t p next response turn := by
  intro hw
  have hlen := List.length_pos_iff.mpr nonempty
  rw [UInt64.le_iff_toNat_le] at after
  have hcount := h.blockCount_toNat (by omega)
  obtain ⟨k, hk, heq⟩ := hw.covered next (UInt64.le_refl _) (by
    rw [UInt64.lt_iff_toNat_lt]
    omega)
  have hnat := congrArg UInt64.toNat heq
  rw [UInt64.toNat_add, UInt64.toNat_ofNat'] at hnat
  refine later (UInt64.toNat_inj.mp ?_)
  omega

variable (E)

/-- A failed call changes nothing. A response that obeys the ledger's numbering is scanned as
promised exactly when it is empty, starts where the poll started, or makes the loop panic. -/
theorem queryTokenLedger_scansWindow_iff (c : Canister) (t : TokenType) (p : Principal)
    (next : UInt64) :
    (∀ err, ∃ turn, queryTokenLedger E c t p next (.error err) = .ok turn ∧
      turn.canister = c ∧ turn.status.blockCount = next) ∧
    ∀ response : QueryBlocksResponse, next ≤ response.firstBlockIndex →
      response.firstBlockIndex.toNat + response.blocks.length < 2 ^ 64 →
      ((∀ turn, queryTokenLedger E c t p next (.ok response) = .ok turn →
          ScansWindow c t p next response turn) ↔
        response.blocks = [] ∨ response.firstBlockIndex = next ∨
          ¬ Quiet E c.listOfSubaccounts t p c.transactions next response.blocks) := by
  refine ⟨fun err => ⟨_, rfl, rfl, rfl⟩, fun response after fits => ⟨fun h => ?_, ?_⟩⟩
  · by_contra hno
    simp only [not_or, not_not] at hno
    obtain ⟨hne, hfirst, hquiet⟩ := hno
    obtain ⟨turn, hturn⟩ := (queryTokenLedger_isOk _ _ _).mpr hquiet
    exact gap_uncovered hne hfirst after fits (polled_of_ok hturn) (h turn hturn)
  · intro hwindow turn hturn
    rcases hwindow with hnil | hfirst | hpanics
    · exact scansWindow_nil hnil (polled_of_ok hturn)
    · exact scansWindow_aligned hfirst fits (polled_of_ok hturn)
    · exact absurd ((queryTokenLedger_isOk _ _ _).mp ⟨turn, hturn⟩) hpanics

theorem queryTokenLedger_scansWindow_first :
    ∀ turn, queryTokenLedger Examples.externals Examples.issued .icp MAINNET_LEDGER_CANISTER_ID 1
        (.ok (Examples.responseAt 1 [Examples.deposit])) = .ok turn →
      ScansWindow Examples.issued .icp MAINNET_LEDGER_CANISTER_ID 1
        (Examples.responseAt 1 [Examples.deposit]) turn :=
  ((queryTokenLedger_scansWindow_iff Examples.externals Examples.issued .icp
    MAINNET_LEDGER_CANISTER_ID 1).2 (Examples.responseAt 1 [Examples.deposit]) (by decide)
    (by decide)).mpr (.inr (.inl rfl))

/-- Blocks 1 and 2 are archived and the ledger answers with block 3 alone: its deposit is
stored as number 1, and the cursor stays on archived blocks. -/
theorem archived_window_mislabels :
    ∃ turn, queryTokenLedger Examples.externals Examples.issued .icp
        MAINNET_LEDGER_CANISTER_ID 1 (.ok (Examples.responseAt 3 [Examples.deposit])) = .ok turn ∧
      .stored Examples.record 3 ∈ turn.events ∧ Examples.record.index = 1 ∧
      turn.status.blockCount = 2 ∧
      ¬ ScansWindow Examples.issued .icp MAINNET_LEDGER_CANISTER_ID 1
        (Examples.responseAt 3 [Examples.deposit]) turn := by
  obtain ⟨turn, hturn⟩ := (queryTokenLedger_isOk .icp MAINNET_LEDGER_CANISTER_ID 1).mpr
    (show Quiet Examples.externals Examples.issued.listOfSubaccounts .icp MAINNET_LEDGER_CANISTER_ID
      Examples.issued.transactions 1 (Examples.responseAt 3 [Examples.deposit]).blocks from
        quiet_of_mem (by decide +kernel) (by decide +kernel))
  have hrun : (queryTokenLedger Examples.externals Examples.issued .icp
      MAINNET_LEDGER_CANISTER_ID 1 (.ok (Examples.responseAt 3 [Examples.deposit]))).toOption.map
        (fun turn => (turn.events, turn.status.blockCount)) =
      some ([.stored Examples.record 3], 2) := by decide +kernel
  simp only [hturn, Except.toOption, Option.map_some, Option.some.injEq, Prod.mk.injEq] at hrun
  have hstored : .stored Examples.record 3 ∈ turn.events := by simp [hrun.1]
  refine ⟨turn, hturn, hstored, rfl, hrun.2, fun hw => ?_⟩
  exact absurd (hw.labelled _ 3 hstored).2.1 (by decide)

end SubaccountIndexer
