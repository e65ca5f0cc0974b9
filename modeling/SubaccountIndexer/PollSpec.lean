import SubaccountIndexer.Poll
import SubaccountIndexer.Store

/-! The block loop of `query_token_ledger`: which blocks make it panic, which
records it stores and under which index, and when the window a poll moves past is
the window it has looked at. -/

namespace SubaccountIndexer

variable (E : Externals)

/-- Whether a block concerns a subaccount -/
def Block.relevant (subaccounts : Subaccounts) (block : Block) : Bool :=
  block.transaction.operation.any (subaccountExist E subaccounts)

def Block.isTransfer (block : Block) : Bool :=
  block.transaction.operation.any Operation.isTransfer

/-- A relevant block that is no transfer: the loop hashes it and panics. -/
def Block.panics (subaccounts : Subaccounts) (block : Block) : Bool :=
  block.relevant E subaccounts && !block.isTransfer

/-- The record of a block that the loop numbers `index` -/
def Block.record (block : Block) (index : UInt64) (hash : String) (tokenType : TokenType)
    (tokenPrincipal : Principal) : StoredTransactions :=
  .new index block.transaction hash tokenType tokenPrincipal

/-- Whether the record of a block is longer than the store allows. The number it goes under
does not matter. -/
def Block.tooLong (tokenType : TokenType) (tokenPrincipal : Principal) (block : Block) : Bool :=
  match hashOrPlaceholder E block.transaction with
  | .ok hash => !decide (block.record 0 hash tokenType tokenPrincipal).Fits
  | .error _ => false

/-- Block `k` of a response is new: it concerns a subaccount, and it is the first to go under
its key, which is free. -/
structure NewAt (subaccounts : Subaccounts) (store : Transactions) (next : UInt64)
    (blocks : List Block) (k : Nat) (block : Block) : Prop where
  found : blocks[k]? = some block
  relevant : block.relevant E subaccounts = true
  free : store[next + UInt64.ofNat k]? = none
  first : ∀ j b, j < k → blocks[j]? = some b → b.relevant E subaccounts = true →
    next + UInt64.ofNat j ≠ next + UInt64.ofNat k

/-- No block of a response makes the loop panic: those that concern a subaccount are
transfers, and the records of the new ones fit. -/
structure Quiet (subaccounts : Subaccounts) (tokenType : TokenType) (tokenPrincipal : Principal)
    (store : Transactions) (next : UInt64) (blocks : List Block) : Prop where
  transfers : ∀ b ∈ blocks, b.panics E subaccounts = false
  fit : ∀ k b, NewAt E subaccounts store next blocks k b →
    b.tooLong E tokenType tokenPrincipal = false

/-- A transfer to a subaccount the canister has handed out -/
def Deposit (c : Canister) (block : Block) : Prop :=
  ∃ (subaccount : Subaccount) (data : Transfer), c.Registered E subaccount ∧
    block.transaction.operation = some (.transfer data) ∧
    data.to = (toSubaccountId E subaccount).toList

/-- A record of block `index` on the ledger of a token -/
structure Records (tx : StoredTransactions) (tokenType : TokenType) (index : UInt64)
    (block : Block) : Prop where
  tokenType : tx.tokenType = tokenType
  index : tx.index = index
  operation : tx.operation = block.transaction.operation
  memo : tx.memo = block.transaction.memo
  icrc1Memo : tx.icrc1Memo = block.transaction.icrc1Memo
  createdAtTime : tx.createdAtTime = block.transaction.createdAtTime

theorem Block.record_records (block : Block) (index : UInt64) (hash : String)
    (tokenType : TokenType) (tokenPrincipal : Principal) :
    Records (block.record index hash tokenType tokenPrincipal) tokenType index block :=
  ⟨rfl, rfl, rfl, rfl, rfl, rfl⟩

variable {E} {subaccounts : Subaccounts} {t : TokenType} {p : Principal} {s s' : Scan}
  {block : Block} {blocks : List Block}

theorem short_of_mem {store : Transactions} {next : UInt64} {k : Nat}
    (short : ∀ b ∈ blocks, b.tooLong E t p = false)
    (new : NewAt E subaccounts store next blocks k block) : block.tooLong E t p = false :=
  short block (List.mem_of_getElem? new.found)

theorem quiet_of_mem {store : Transactions} {next : UInt64}
    (transfers : ∀ b ∈ blocks, b.panics E subaccounts = false)
    (short : ∀ b ∈ blocks, b.tooLong E t p = false) :
    Quiet E subaccounts t p store next blocks :=
  ⟨transfers, fun _ _ new => short_of_mem short new⟩

/-- One turn of the loop: a block is passed over, or its record goes under a free key. -/
inductive ScanStep (E : Externals) (subaccounts : Subaccounts) (t : TokenType) (p : Principal)
    (s : Scan) (block : Block) : Scan → Prop
  | skip (held : block.relevant E subaccounts = true →
        s.transactions.contains s.blockCount = true) :
      ScanStep E subaccounts t p s block { s with blockCount := s.blockCount + 1 }
  | store {hash first : String} (relevant : block.relevant E subaccounts = true)
      (transfer : block.isTransfer = true) (free : s.transactions[s.blockCount]? = none)
      (fits : (block.record s.blockCount hash t p).Fits) :
      ScanStep E subaccounts t p s block
        { transactions := s.transactions.insert s.blockCount (block.record s.blockCount hash t p)
          firstBlockHash := first
          blockCount := s.blockCount + 1
          stored := s.stored ++ [block.record s.blockCount hash t p] }

theorem Deposit.relevant {c : Canister} (h : Deposit E c block) :
    block.relevant E c.listOfSubaccounts = true := by
  obtain ⟨subaccount, data, hreg, hop, hto⟩ := h
  simp [Block.relevant, hop, subaccountExist, hto, includesHash_account E hreg]

theorem record_fits (index : UInt64) (hash : String) :
    (block.record index hash t p).Fits ↔ (block.record 0 hash t p).Fits := fits_congr rfl rfl rfl rfl

theorem scanBlock_isOk :
    (∃ s', scanBlock E subaccounts t p s block = .ok s') ↔
      block.panics E subaccounts = false ∧ (block.relevant E subaccounts = true →
        s.transactions[s.blockCount]? = none → block.tooLong E t p = false) := by
  unfold scanBlock
  simp only [Block.panics, Block.relevant, Block.isTransfer]
  split
  · rename_i hop
    simp [hop]
  · rename_i operation hop
    simp only [hop, Option.any_some]
    split
    · rename_i hrel
      rw [hrel, Bool.true_and, Bool.not_eq_false']
      rw [← hashOrPlaceholder_isOk E block.transaction hop, Block.tooLong]
      cases hashOrPlaceholder E block.transaction with
      | error trap => simp [bind, Except.bind]
      | ok hash =>
        have hfits : (block.record s.blockCount hash t p).Fits ↔ _ := record_fits s.blockCount hash
        have hheld : s.transactions.contains s.blockCount = true ↔
            ¬ s.transactions[s.blockCount]? = none := by
          rw [Std.ExtTreeMap.contains_eq_isSome_getElem?, Option.isSome_iff_ne_none]
        simp only [bind, Except.bind, Except.ok.injEq, exists_eq', true_and, true_imp_iff,
          Bool.not_eq_false', decide_eq_true_eq]
        split
        · rename_i hpresent
          simp [hheld.mp hpresent]
        · rename_i hfree
          rw [Decidable.not_not.mp (mt hheld.mpr hfree), ← hfits]
          simp only [true_imp_iff]
          by_cases hlong : (block.record s.blockCount hash t p).Fits
          · have hinsert := insertTransaction_ok s.transactions s.blockCount hlong
            simp only [Block.record] at hinsert
            simp [hinsert, hlong]
          · have hinsert := insertTransaction_error s.transactions s.blockCount hlong
            simp only [Block.record] at hinsert
            simp [hinsert, hlong]
    · rename_i hrel
      simp [hrel]

theorem scanStep_of_ok (h : scanBlock E subaccounts t p s block = .ok s') :
    ScanStep E subaccounts t p s block s' := by
  have hquiet := (scanBlock_isOk.mp ⟨s', h⟩).1
  unfold scanBlock at h
  simp only [Block.panics, Block.relevant, Block.isTransfer] at hquiet
  split at h
  · rename_i hop
    cases h
    exact .skip (by simp [Block.relevant, hop])
  · rename_i operation hop
    split at h
    · rename_i hrel
      simp only [hop, Option.any_some, hrel, Bool.true_and, Bool.not_eq_false'] at hquiet
      cases hh : hashOrPlaceholder E block.transaction with
      | error trap => simp [hh, bind, Except.bind] at h
      | ok hash =>
        simp only [hh, bind, Except.bind] at h
        split at h
        · rename_i hheld
          cases h
          exact .skip fun _ => hheld
        · rename_i hfree
          by_cases hfits : (block.record s.blockCount hash t p).Fits
          · have hinsert := insertTransaction_ok s.transactions s.blockCount hfits
            simp only [Block.record] at hinsert
            rw [hinsert] at h
            cases h
            refine .store (by simp [Block.relevant, hop, hrel])
              (by simp [Block.isTransfer, hop, hquiet]) ?_ hfits
            simpa using hfree
          · have hinsert := insertTransaction_error s.transactions s.blockCount hfits
            simp only [Block.record] at hinsert
            rw [hinsert] at h
            cases h
    · rename_i hrel
      cases h
      exact .skip (by simp [Block.relevant, hop, hrel])

theorem newAt_zero {b : Block} {rest : List Block} {store : Transactions} {next : UInt64}
    {block : Block} : NewAt E subaccounts store next (b :: rest) 0 block ↔
      b = block ∧ b.relevant E subaccounts = true ∧ store[next]? = none := by
  constructor
  · rintro ⟨hfound, hrelevant, hfree, -⟩
    obtain rfl : b = block := by simpa using hfound
    exact ⟨rfl, hrelevant, by simpa using hfree⟩
  · rintro ⟨rfl, hrelevant, hfree⟩
    exact ⟨rfl, hrelevant, by simpa using hfree, fun j _ hj => absurd hj (Nat.not_lt_zero j)⟩

theorem add_ofNat_succ (n : UInt64) (k : Nat) :
    n + UInt64.ofNat (k + 1) = n + 1 + UInt64.ofNat k := by
  rw [UInt64.ofNat_add, UInt64.add_assoc, UInt64.add_comm (UInt64.ofNat k)]
  rfl

/-- Past the first block, what is new is new in the store that the first block leaves. -/
theorem newAt_succ {b : Block} {rest : List Block} {store store' : Transactions} {next : UInt64}
    {block : Block} {k : Nat}
    (left : ∀ i : UInt64, store'[i]? = none ↔
      store[i]? = none ∧ (b.relevant E subaccounts = true → next ≠ i)) :
    NewAt E subaccounts store next (b :: rest) (k + 1) block ↔
      NewAt E subaccounts store' (next + 1) rest k block := by
  constructor
  · intro new
    refine ⟨by simpa using new.found, new.relevant, ?_, fun j b' hj hb' hrel => ?_⟩
    · rw [left, ← add_ofNat_succ]
      exact ⟨new.free, fun hrel => by simpa using new.first 0 b (Nat.succ_pos k) rfl hrel⟩
    · rw [← add_ofNat_succ, ← add_ofNat_succ]
      exact new.first (j + 1) b' (Nat.succ_lt_succ hj) (by simpa using hb') hrel
  · intro new
    have hfree := new.free
    rw [left, ← add_ofNat_succ] at hfree
    refine ⟨by simpa using new.found, new.relevant, hfree.1, fun j b' hj hb' hrel => ?_⟩
    cases j with
    | zero =>
      obtain rfl : b = b' := by simpa using hb'
      simpa using hfree.2 hrel
    | succ j =>
      rw [add_ofNat_succ, add_ofNat_succ]
      exact new.first j b' (Nat.lt_of_succ_lt_succ hj) (by simpa using hb') hrel

/-- The store after one turn of the loop has the key of the block, if the block is relevant. -/
theorem ScanStep.left (h : ScanStep E subaccounts t p s block s') (i : UInt64) :
    s'.transactions[i]? = none ↔ s.transactions[i]? = none ∧
      (block.relevant E subaccounts = true → s.blockCount ≠ i) := by
  cases h with
  | skip held =>
    refine ⟨fun hfree => ⟨hfree, ?_⟩, fun hfree => hfree.1⟩
    rintro hrel rfl
    have hsome := held hrel
    rw [Std.ExtTreeMap.contains_eq_isSome_getElem?, hfree] at hsome
    cases hsome
  | store relevant transfer free fits =>
    rw [getElem?_insert]
    by_cases hi : s.blockCount = i
    · simp [hi, relevant]
    · simp [hi]

theorem ScanStep.count (h : ScanStep E subaccounts t p s block s') :
    s'.blockCount = s.blockCount + 1 := by
  cases h <;> rfl

/-- The loop reaches its end exactly when no block makes it panic. -/
theorem scanBlocks_isOk :
    (∃ s', scanBlocks E subaccounts t p s blocks = .ok s') ↔
      Quiet E subaccounts t p s.transactions s.blockCount blocks := by
  induction blocks generalizing s with
  | nil =>
    refine iff_of_true ⟨s, rfl⟩ ⟨by simp, fun k b new => ?_⟩
    have hfound := new.found
    simp at hfound
  | cons b rest ih =>
    have hfirst : (∃ s', scanBlock E subaccounts t p s b = .ok s') ↔ _ := scanBlock_isOk
    simp only [scanBlocks]
    cases hb : scanBlock E subaccounts t p s b with
    | error trap =>
      simp only [bind, Except.bind, reduceCtorEq, exists_false, false_iff]
      intro quiet
      have hok := hfirst.mpr ⟨quiet.transfers b (.head _), fun hrel hfree =>
        quiet.fit 0 b (newAt_zero.mpr ⟨rfl, hrel, hfree⟩)⟩
      rw [hb] at hok
      obtain ⟨_, hok⟩ := hok
      cases hok
    | ok next =>
      have hstep := scanStep_of_ok hb
      have hleft : ∀ k block, NewAt E subaccounts s.transactions s.blockCount (b :: rest) (k + 1)
          block ↔ _ := fun k block => newAt_succ hstep.left
      obtain ⟨hpanics, hshort⟩ := hfirst.mp ⟨next, hb⟩
      simp only [bind, Except.bind]
      rw [ih, hstep.count]
      constructor
      · intro quiet
        refine ⟨List.forall_mem_cons.mpr ⟨hpanics, quiet.transfers⟩, fun k block new => ?_⟩
        cases k with
        | zero =>
          obtain ⟨rfl, hrel, hfree⟩ := newAt_zero.mp new
          exact hshort hrel hfree
        | succ k => exact quiet.fit k block ((hleft k block).mp new)
      · intro quiet
        exact ⟨(List.forall_mem_cons.mp quiet.transfers).2, fun k block new =>
          quiet.fit (k + 1) block ((hleft k block).mpr new)⟩

theorem scanBlocks_cons {b : Block} {rest : List Block}
    (h : scanBlocks E subaccounts t p s (b :: rest) = .ok s') :
    ∃ next, ScanStep E subaccounts t p s b next ∧
      scanBlocks E subaccounts t p next rest = .ok s' := by
  simp only [scanBlocks] at h
  cases hb : scanBlock E subaccounts t p s b with
  | error trap => simp [hb, bind, Except.bind] at h
  | ok next => exact ⟨next, scanStep_of_ok hb, by simpa [hb, bind, Except.bind] using h⟩

/-- What the loop did between two points: `new` are the records it stored. -/
structure Scanned (E : Externals) (subaccounts : Subaccounts) (t : TokenType) (p : Principal)
    (s : Scan) (blocks : List Block) (s' : Scan) (new : List StoredTransactions) : Prop where
  blockCount : s'.blockCount = s.blockCount + UInt64.ofNat blocks.length
  stored : s'.stored = s.stored ++ new
  journal : ∀ label : StoredTransactions → UInt64,
    StoreJournal s.transactions (new.map fun tx => .stored tx (label tx)) s'.transactions
  origin : ∀ tx ∈ new, ∃ (k : Nat) (b : Block) (hash : String), blocks[k]? = some b ∧
    b.relevant E subaccounts = true ∧ b.isTransfer = true ∧
    tx = b.record (s.blockCount + UInt64.ofNat k) hash t p
  fit : ∀ tx ∈ new, tx.Fits
  complete : ∀ (k : Nat) (b : Block), blocks[k]? = some b → b.relevant E subaccounts = true →
    ∃ tx, s'.transactions[s.blockCount + UInt64.ofNat k]? = some tx

theorem Scanned.skip {b : Block} {rest : List Block} {new : List StoredTransactions}
    (held : b.relevant E subaccounts = true → s.transactions.contains s.blockCount = true)
    (h : Scanned E subaccounts t p { s with blockCount := s.blockCount + 1 } rest s' new) :
    Scanned E subaccounts t p s (b :: rest) s' new where
  blockCount := by rw [h.blockCount, List.length_cons, add_ofNat_succ]
  stored := h.stored
  journal := h.journal
  origin tx htx := by
    obtain ⟨k, b', hash, hb, hrel, htr, rfl⟩ := h.origin tx htx
    exact ⟨k + 1, b', hash, by simpa using hb, hrel, htr, by rw [add_ofNat_succ]⟩
  fit := h.fit
  complete k b' hb hrel := by
    cases k with
    | zero =>
      obtain rfl : b = b' := by simpa using hb
      obtain ⟨tx, htx⟩ := Option.isSome_iff_exists.mp
        ((Std.ExtTreeMap.contains_eq_isSome_getElem?).symm.trans (held hrel))
      refine ⟨tx, ?_⟩
      refine (h.journal fun _ => 0).keep (by simpa using htx) ?_
      intro e he
      obtain ⟨_, _, rfl⟩ := List.mem_map.mp he
      simp [Event.rewrites]
    | succ k =>
      rw [add_ofNat_succ]
      exact h.complete k b' (by simpa using hb) hrel

theorem Scanned.store {b : Block} {rest : List Block} {new : List StoredTransactions}
    {hash first : String} (relevant : b.relevant E subaccounts = true)
    (transfer : b.isTransfer = true) (free : s.transactions[s.blockCount]? = none)
    (fits : (b.record s.blockCount hash t p).Fits)
    (h : Scanned E subaccounts t p
      { transactions := s.transactions.insert s.blockCount (b.record s.blockCount hash t p)
        firstBlockHash := first
        blockCount := s.blockCount + 1
        stored := s.stored ++ [b.record s.blockCount hash t p] } rest s' new) :
    Scanned E subaccounts t p s (b :: rest) s' (b.record s.blockCount hash t p :: new) where
  blockCount := by rw [h.blockCount, List.length_cons, add_ofNat_succ]
  stored := by rw [h.stored, List.append_assoc]; rfl
  journal label := .cons (.stored free) (h.journal label)
  origin tx htx := by
    rcases List.mem_cons.mp htx with rfl | htx
    · exact ⟨0, b, hash, rfl, relevant, transfer, by simp⟩
    · obtain ⟨k, b', hash, hb, hrel, htr, rfl⟩ := h.origin tx htx
      exact ⟨k + 1, b', hash, by simpa using hb, hrel, htr, by rw [add_ofNat_succ]⟩
  fit := List.forall_mem_cons.mpr ⟨fits, h.fit⟩
  complete k b' hb hrel := by
    cases k with
    | zero =>
      refine ⟨b.record s.blockCount hash t p, ?_⟩
      refine (h.journal fun _ => 0).keep (by simp) ?_
      intro e he
      obtain ⟨_, _, rfl⟩ := List.mem_map.mp he
      simp [Event.rewrites]
    | succ k =>
      rw [add_ofNat_succ]
      exact h.complete k b' (by simpa using hb) hrel

theorem scanned_of_ok (h : scanBlocks E subaccounts t p s blocks = .ok s') :
    ∃ new, Scanned E subaccounts t p s blocks s' new := by
  induction blocks generalizing s with
  | nil =>
    cases h
    exact ⟨[], by simp, by simp, fun _ => .nil, by simp, by simp, by simp⟩
  | cons b rest ih =>
    obtain ⟨next, hstep, hrest⟩ := scanBlocks_cons h
    obtain ⟨new, hnew⟩ := ih hrest
    cases hstep with
    | skip held => exact ⟨new, hnew.skip held⟩
    | store relevant transfer free fits => exact ⟨_, hnew.store relevant transfer free fits⟩

/-! ## One poll -/

def PollStatus.blockCount : PollStatus → UInt64
  | .returned blockCount => blockCount
  | .webhook _ blockCount => blockCount

/-- The insertions of a poll, each with the index the ledger gives to the block -/
def storedEvents (next : UInt64) (response : QueryBlocksResponse) (new : List StoredTransactions) :
    List Event :=
  new.map fun tx => .stored tx (ledgerIndexOf next response tx.index)

/-- What `query_token_ledger` comes to when it does not panic -/
inductive Polled (E : Externals) (c : Canister) (t : TokenType) (p : Principal) (next : UInt64) :
    Except (String × String) QueryBlocksResponse → PollTurn → Prop
  | failed {err : String × String} : Polled E c t p next (.error err) ⟨c, .returned next, []⟩
  | scanned {response : QueryBlocksResponse} {s : Scan} {status : PollStatus}
      {new : List StoredTransactions} {sent : List Event}
      (scan : Scanned E c.listOfSubaccounts t p
        { transactions := c.transactions, blockCount := next } response.blocks s new)
      (count : status.blockCount = s.blockCount)
      (quiet : ∀ e ∈ sent, ∃ hash, e = .webhook hash) :
      Polled E c t p next (.ok response)
        ⟨{ c with transactions := s.transactions }, status,
          storedEvents next response new ++ sent⟩

variable {c : Canister} {next : UInt64} {response : QueryBlocksResponse} {turn : PollTurn}
  {answer : Except (String × String) QueryBlocksResponse}

/-- A poll that sends no webhook -/
theorem Polled.returned {new : List StoredTransactions}
    (scan : Scanned E c.listOfSubaccounts t p
      { transactions := c.transactions, blockCount := next } response.blocks s new) :
    Polled E c t p next (.ok response)
      ⟨{ c with transactions := s.transactions }, .returned s.blockCount,
        storedEvents next response new⟩ := by
  rw [← List.append_nil (storedEvents next response new)]
  exact .scanned scan rfl (by simp)

theorem queryTokenLedger_scan (h : queryTokenLedger E c t p next (.ok response) = .ok turn) :
    ∃ s, scanBlocks E c.listOfSubaccounts t p
      { transactions := c.transactions, blockCount := next } response.blocks = .ok s := by
  simp only [queryTokenLedger] at h
  cases hs : scanBlocks E c.listOfSubaccounts t p
      { transactions := c.transactions, blockCount := next } response.blocks with
  | error trap => simp [hs, bind, Except.bind] at h
  | ok s => exact ⟨s, rfl⟩

theorem polled_of_ok (h : queryTokenLedger E c t p next answer = .ok turn) :
    Polled E c t p next answer turn := by
  cases answer with
  | error err => cases h; exact .failed
  | ok response =>
    obtain ⟨s, hs⟩ := queryTokenLedger_scan h
    obtain ⟨new, hnew⟩ := scanned_of_ok hs
    have hstored : s.stored = new := by simpa using hnew.stored
    simp only [queryTokenLedger, hs, bind, Except.bind, hstored] at h
    split at h
    · cases h
      exact .returned hnew
    · split at h <;> cases h
      · exact .scanned hnew rfl (by simp)
      · exact .returned hnew

/-- A poll returns exactly when no block of its response makes the loop panic. -/
theorem queryTokenLedger_isOk (t : TokenType) (p : Principal) (next : UInt64) :
    (∃ turn, queryTokenLedger E c t p next (.ok response) = .ok turn) ↔
      Quiet E c.listOfSubaccounts t p c.transactions next response.blocks := by
  rw [← scanBlocks_isOk (s := { transactions := c.transactions, blockCount := next })]
  constructor
  · intro hturn
    obtain ⟨turn, h⟩ := hturn
    exact queryTokenLedger_scan h
  · intro hscan
    obtain ⟨s, hs⟩ := hscan
    simp only [queryTokenLedger, hs, bind, Except.bind]
    split
    · exact ⟨_, rfl⟩
    · split <;> exact ⟨_, rfl⟩

theorem Polled.blockCount (h : Polled E c t p next (.ok response) turn) :
    turn.status.blockCount = next + UInt64.ofNat response.blocks.length := by
  cases h with
  | scanned scan count quiet => rw [count, scan.blockCount]

theorem Polled.blockCount_toNat (h : Polled E c t p next (.ok response) turn)
    (fits : next.toNat + response.blocks.length < 2 ^ 64) :
    turn.status.blockCount.toNat = next.toNat + response.blocks.length := by
  rw [h.blockCount, UInt64.toNat_add, UInt64.toNat_ofNat']
  omega

theorem storedEvents_rewrites {new : List StoredTransactions} :
    ∀ e ∈ storedEvents next response new, e.rewrites = none := by
  intro e he
  obtain ⟨tx, -, rfl⟩ := List.mem_map.mp he
  rfl

/-- The numbers the loop and the ledger give to block `k` of a response -/
theorem ledgerIndexOf_add (k : Nat) :
    ledgerIndexOf next response (next + UInt64.ofNat k) =
      response.firstBlockIndex + UInt64.ofNat k := by
  rw [ledgerIndexOf, UInt64.add_comm next, UInt64.add_sub_cancel]

/-- The journal of a poll: the records it stored, then what else it did. -/
theorem Polled.journal (h : Polled E c t p next answer turn) :
    StoreJournal c.transactions turn.events turn.canister.transactions ∧
      ∀ e ∈ turn.events, e.rewrites = none := by
  cases h with
  | failed => exact ⟨.nil, by simp⟩
  | @scanned response s status new sent scan count quiet =>
    refine ⟨.append (scan.journal _) ?_, ?_⟩
    · induction sent with
      | nil => exact .nil
      | cons e rest ih =>
        obtain ⟨hash, rfl⟩ := quiet e (by simp)
        exact .cons .webhook (ih fun e he => quiet e (by simp [he]))
    · intro e he
      rcases List.mem_append.mp he with he | he
      · exact storedEvents_rewrites e he
      · obtain ⟨hash, rfl⟩ := quiet e he
        rfl

/-- Where the records of a poll come from: block `k` of the response is stored under
`next + k`. -/
theorem Polled.origin (h : Polled E c t p next (.ok response) turn) {tx : StoredTransactions}
    {j : UInt64} (he : .stored tx j ∈ turn.events) :
    ∃ (k : Nat) (b : Block) (hash : String), response.blocks[k]? = some b ∧
      b.relevant E c.listOfSubaccounts = true ∧ b.isTransfer = true ∧
      tx = b.record (next + UInt64.ofNat k) hash t p ∧
      j = response.firstBlockIndex + UInt64.ofNat k := by
  cases h with
  | @scanned _ s status new sent scan count quiet =>
    rcases List.mem_append.mp he with he | he
    · obtain ⟨tx', htx, heq⟩ := List.mem_map.mp he
      cases heq
      obtain ⟨k, b, hash, hb, hrel, htr, rfl⟩ := scan.origin tx htx
      exact ⟨k, b, hash, hb, hrel, htr, rfl, ledgerIndexOf_add k⟩
    · obtain ⟨hash, heq⟩ := quiet _ he
      cases heq

/-- What a poll stores fits. -/
theorem Polled.fit (h : Polled E c t p next answer turn) {tx : StoredTransactions} {j : UInt64}
    (he : .stored tx j ∈ turn.events) : tx.Fits := by
  cases h with
  | failed => cases he
  | scanned scan count quiet =>
    rcases List.mem_append.mp he with he | he
    · obtain ⟨tx', htx, heq⟩ := List.mem_map.mp he
      cases heq
      exact scan.fit tx htx
    · obtain ⟨hash, heq⟩ := quiet _ he
      cases heq

/-- A relevant block is in the store after the poll, or something else is in its place. -/
theorem Polled.complete (h : Polled E c t p next (.ok response) turn) {k : Nat} {b : Block}
    (hb : response.blocks[k]? = some b) (relevant : b.relevant E c.listOfSubaccounts = true) :
    ∃ tx, turn.canister.transactions[next + UInt64.ofNat k]? = some tx := by
  cases h with
  | scanned scan count quiet => exact scan.complete k b hb relevant

/-- A poll stores records and sends a webhook, and no more. -/
theorem Polled.events (h : Polled E c t p next answer turn) :
    ∀ e ∈ turn.events, (∃ tx j, e = .stored tx j) ∨ ∃ hash, e = .webhook hash := by
  intro e he
  cases h with
  | failed => cases he
  | scanned scan count quiet =>
    rcases List.mem_append.mp he with he | he
    · obtain ⟨tx, -, heq⟩ := List.mem_map.mp he
      exact .inl ⟨tx, _, heq.symm⟩
    · exact .inr (quiet e he)

theorem Polled.not_answered (h : Polled E c t p next answer turn) {t' : TokenType}
    {next' : UInt64} {blocks' : List Block} : .answered t' next' blocks' ∉ turn.events := by
  intro he
  rcases h.events _ he with ⟨tx, j, heq⟩ | ⟨hash, heq⟩ <;> cases heq

end SubaccountIndexer
