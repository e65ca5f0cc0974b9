import SubaccountIndexer.Cursors

/-! Polling up to the head of a ledger. A round is a tick, the honest answer to the poll of one
token, and the answer of the webhook if the poll calls it. Rounds in a row take the cursor a
hundred blocks further each, up to the height of the ledger, and every block they pass that
concerns a subaccount has a record afterwards. -/

namespace SubaccountIndexer.CatchUp

/-- A ledger: its blocks by number, and how many there are -/
structure Chain where
  block : Nat → Block
  height : Nat

/-- The blocks a poll from `next` asks for, as far as there are any -/
def Chain.window (chain : Chain) (next : Nat) : List Block :=
  (List.range (min 100 (chain.height - next))).map fun k => chain.block (next + k)

/-- Blocks of the ledger from number `next` on, as many as are given -/
def Chain.Gives (chain : Chain) (next : Nat) (blocks : List Block) : Prop :=
  ∀ (j : Nat) (b : Block), blocks[j]? = some b →
    next + j < chain.height ∧ b = chain.block (next + j)

variable (E : Externals)

/-- The answer of the ledger to a poll from `next` -/
def Chain.Answers (chain : Chain) (p : Principal) (next : UInt64) (reply : LedgerReply) : Prop :=
  ∃ response, queryBlocks E p (pollRequest next) reply = .ok (.ok response) ∧
    response.firstBlockIndex = next ∧ response.blocks = chain.window next.toNat

/-- One round of polling for a token, with no other message in between -/
inductive Round (chain : Chain) (t : TokenType) (p : Principal) (σ : System) : System → Prop
  | returned {n : Nat} {next : UInt64} {reply : LedgerReply} {σ₁ σ₂ : System} {os : List Event}
      (tick : (machine E).step σ .timer = some (σ₁, [])) (started : σ.tasks.length ≤ n)
      (polls : σ₁.tasks[n]? = some (.poll t p next)) (answers : chain.Answers E p next reply)
      (fires : (machine E).step σ₁ (.reply n (.ledger reply)) = some (σ₂, os))
      (ends : σ₂.tasks[n]? = some (.finished (.ok .unit))) : Round chain t p σ σ₂
  | announced {n : Nat} {next blockCount : UInt64} {reply : LedgerReply} {σ₁ σ₂ σ₃ : System}
      {os os' : List Event}
      (tick : (machine E).step σ .timer = some (σ₁, [])) (started : σ.tasks.length ≤ n)
      (polls : σ₁.tasks[n]? = some (.poll t p next)) (answers : chain.Answers E p next reply)
      (fires : (machine E).step σ₁ (.reply n (.ledger reply)) = some (σ₂, os))
      (waits : σ₂.tasks[n]? = some (.webhook t blockCount))
      (ends : (machine E).step σ₂ (.reply n .http) = some (σ₃, os')) : Round chain t p σ σ₃

/-- Rounds in a row -/
inductive Rounds (chain : Chain) (t : TokenType) (p : Principal) (σ : System) : Nat → System → Prop
  | zero : Rounds chain t p σ 0 σ
  | succ {k : Nat} {σ' σ'' : System} (before : Rounds chain t p σ k σ')
      (round : Round E chain t p σ' σ'') : Rounds chain t p σ (k + 1) σ''

/-- Block `i` makes no poll of the ledger panic: if it concerns a subaccount it is a transfer, and
unless its key is taken its record is not too long. -/
structure Scannable (chain : Chain) (t : TokenType) (p : Principal) (c : Canister) (i : Nat) : Prop where
  transfer : (chain.block i).panics E c.listOfSubaccounts = false
  short : (chain.block i).relevant E c.listOfSubaccounts = true →
    c.transactions[UInt64.ofNat i]? = none → (chain.block i).tooLong E t p = false

/-- What rounds have come to that took the cursor of `c₀` to `n`: each block they passed that
concerns a subaccount has its record under its number, unless the key was taken; what was stored
is kept, what they added are records of such blocks, and nothing else has changed. -/
structure CaughtUp (chain : Chain) (t : TokenType) (p : Principal) (c₀ : Canister) (n : Nat)
    (c : Canister) : Prop where
  cursor : (c.getTokenNextBlock t).toNat = n
  recorded : ∀ i, (c₀.getTokenNextBlock t).toNat ≤ i → i < n →
    (chain.block i).relevant E c₀.listOfSubaccounts = true →
    c₀.transactions[UInt64.ofNat i]? = none → ∃ hash, c.transactions[UInt64.ofNat i]? =
      some ((chain.block i).record (UInt64.ofNat i) hash t p)
  origin : ∀ (k : UInt64) tx, c.transactions[k]? = some tx → c₀.transactions[k]? = some tx ∨
    ∃ i hash, (c₀.getTokenNextBlock t).toNat ≤ i ∧ i < n ∧ k = UInt64.ofNat i ∧
      (chain.block i).relevant E c₀.listOfSubaccounts = true ∧
      tx = (chain.block i).record k hash t p
  kept : ∀ (k : UInt64) tx, c₀.transactions[k]? = some tx → c.transactions[k]? = some tx
  others : ∀ s, s ≠ t → c.getTokenNextBlock s = c₀.getTokenNextBlock s
  frame : c = { c₀ with
    transactions := c.transactions, tokenNextBlocks := c.tokenNextBlocks, nextBlock := c.nextBlock }

variable {E} {chain : Chain} {t : TokenType} {p : Principal} {c c' c₀ : Canister} {n : Nat}
  {σ σ' : System}

theorem Chain.window_length (chain : Chain) (next : Nat) :
    (chain.window next).length = min 100 (chain.height - next) := by simp [Chain.window]

theorem Chain.getElem?_window {next k : Nat} (below : k < min 100 (chain.height - next)) :
    (chain.window next)[k]? = some (chain.block (next + k)) := by
  simp [Chain.window, List.getElem?_range below]

theorem Chain.window_some {next k : Nat} {b : Block} (h : (chain.window next)[k]? = some b) :
    k < min 100 (chain.height - next) ∧ b = chain.block (next + k) := by
  have hk : k < min 100 (chain.height - next) := by
    have hlength := (List.getElem?_eq_some_iff.mp h).1
    rwa [Chain.window_length] at hlength
  exact ⟨hk, Option.some.inj (h.symm.trans (Chain.getElem?_window hk))⟩

theorem Chain.gives_window (chain : Chain) (next : Nat) : chain.Gives next (chain.window next) := by
  intro j b hb
  obtain ⟨hj, rfl⟩ := Chain.window_some hb
  exact ⟨by omega, rfl⟩

/-- Where the blocks given go past a number they have that block. -/
theorem Chain.Gives.getElem? {blocks : List Block} {next k : Nat} (gives : chain.Gives next blocks)
    (low : next ≤ k) (high : k < next + blocks.length) :
    k < chain.height ∧ blocks[k - next]? = some (chain.block k) := by
  have hget := List.getElem?_eq_getElem (show k - next < blocks.length by omega)
  obtain ⟨hbelow, hblock⟩ := gives _ _ hget
  rw [Nat.add_sub_cancel' low] at hbelow hblock
  exact ⟨hbelow, by rw [hget, hblock]⟩

/-! ## One round -/

/-- The polls of a tick start from the cursors. -/
theorem started_cursor {σ₁ : System} {n : Nat} {next : UInt64}
    (tick : (machine E).step σ .timer = some (σ₁, [])) (started : σ.tasks.length ≤ n)
    (polls : σ₁.tasks[n]? = some (.poll t p next)) :
    σ₁.canister = σ.canister ∧ next = σ.canister.getTokenNextBlock t := by
  cases fires_of_step E tick with
  | timer running =>
    refine ⟨rfl, ?_⟩
    rw [List.getElem?_append_right started] at polls
    obtain ⟨poll, hpoll, heq⟩ := List.mem_map.mp (List.mem_of_getElem? polls)
    cases heq
    exact pollsToStart_cursor hpoll

/-- The loop over the window a poll of `t` gets -/
def ScansAnswer (E : Externals) (chain : Chain) (t : TokenType) (p : Principal) (c : Canister)
    (s : Scan) : Prop :=
  ∃ new, Scanned E c.listOfSubaccounts t p
    { transactions := c.transactions, blockCount := c.getTokenNextBlock t }
    (chain.window (c.getTokenNextBlock t).toNat) s new

/-- The answer to the poll of a round takes it to its end, or to the webhook. -/
theorem answered_cases {n : Nat} {next : UInt64} {reply : LedgerReply} {σ₁ σ₂ : System}
    {os : List Event} (tick : (machine E).step σ .timer = some (σ₁, []))
    (started : σ.tasks.length ≤ n) (polls : σ₁.tasks[n]? = some (.poll t p next))
    (answers : chain.Answers E p next reply)
    (fires : (machine E).step σ₁ (.reply n (.ledger reply)) = some (σ₂, os))
    (ends : σ₂.tasks[n]? ≠ some .trapped) : ∃ s, ScansAnswer E chain t p σ.canister s ∧
      ((σ₂.tasks[n]? = some (.finished (.ok .unit)) ∧ σ₂.canister =
          writeCursor { σ.canister with transactions := s.transactions } t s.blockCount) ∨
        (σ₂.tasks[n]? = some (.webhook t s.blockCount) ∧
          σ₂.canister = { σ.canister with transactions := s.transactions })) := by
  obtain ⟨hcanister, rfl⟩ := started_cursor tick started polls
  obtain ⟨response, hresponse, -, hblocks⟩ := answers
  have hn := (List.getElem?_eq_some_iff.mp polls).1
  cases fires_of_step E fires with
  | replyTraps waits resumes => exact absurd (List.getElem?_set_self hn) ends
  | reply waits resumes =>
    cases polls.symm.trans waits
    cases resumes_of_ok E resumes with
    | poll answers' scans =>
      cases hresponse.symm.trans answers'
      cases scans with
      | @scanned _ s status new sent scan count quiet =>
        rw [hcanister, hblocks] at scan
        refine ⟨s, ⟨new, scan⟩, ?_⟩
        rw [List.getElem?_set_self hn, hcanister]
        cases status with
        | returned blockCount =>
          obtain rfl : blockCount = s.blockCount := count
          exact .inl ⟨rfl, rfl⟩
        | webhook hash blockCount =>
          obtain rfl : blockCount = s.blockCount := count
          exact .inr ⟨rfl, rfl⟩

/-- The poll of a round has gone over its window, and its result has been written back. -/
theorem Round.scanned (h : Round E chain t p σ σ') : ∃ s, ScansAnswer E chain t p σ.canister s ∧
    σ'.canister = writeCursor { σ.canister with transactions := s.transactions } t s.blockCount := by
  cases h with
  | returned tick started polls answers fires ends =>
    obtain ⟨s, hscan, ⟨htask, hcanister⟩ | ⟨htask, hcanister⟩⟩ :=
      answered_cases tick started polls answers fires (by rw [ends]; nofun)
    · exact ⟨s, hscan, hcanister⟩
    · cases ends.symm.trans htask
  | announced tick started polls answers fires waits ends =>
    obtain ⟨s, hscan, ⟨htask, hcanister⟩ | ⟨htask, hcanister⟩⟩ :=
      answered_cases tick started polls answers fires (by rw [waits]; nofun)
    · cases waits.symm.trans htask
    · refine ⟨s, hscan, ?_⟩
      cases waits.symm.trans htask
      cases fires_of_step E ends with
      | replyTraps waits' resumes =>
        cases waits.symm.trans waits'
        cases resumes
      | reply waits' resumes =>
        cases waits.symm.trans waits'
        cases resumes
        rw [hcanister]
        rfl

/-! ## Rounds in a row -/

theorem caughtUp_start (c : Canister) :
    CaughtUp E chain t p c (c.getTokenNextBlock t).toNat c where
  cursor := rfl
  recorded _ low high := absurd high (Nat.not_lt.mpr low)
  origin _ _ hheld := .inl hheld
  kept _ _ hheld := hheld
  others _ _ := rfl
  frame := rfl

theorem ofNat_cursor {x : UInt64} {i : Nat} (below : x.toNat ≤ i) :
    x + UInt64.ofNat (i - x.toNat) = UInt64.ofNat i := by
  rw [← UInt64.ofNat_toNat (x := x), ← UInt64.ofNat_add, UInt64.ofNat_toNat]
  congr 1
  omega

/-- The cursor a round writes back -/
theorem scanned_count {s : Scan} (fits : chain.height < 2 ^ 64)
    (below : (c.getTokenNextBlock t).toNat ≤ chain.height)
    (scans : ScansAnswer E chain t p c s) :
    s.blockCount.toNat = min ((c.getTokenNextBlock t).toNat + 100) chain.height := by
  obtain ⟨new, hscan⟩ := scans
  rw [hscan.blockCount, Chain.window_length, UInt64.toNat_add, UInt64.toNat_ofNat']
  dsimp only
  omega

theorem CaughtUp.round {s : Scan} (h : CaughtUp E chain t p c₀ n c) (fits : chain.height < 2 ^ 64)
    (start : (c₀.getTokenNextBlock t).toNat ≤ n) (below : n ≤ chain.height)
    (scans : ScansAnswer E chain t p c s) :
    CaughtUp E chain t p c₀ (min (n + 100) chain.height)
      (writeCursor { c with transactions := s.transactions } t s.blockCount) := by
  have hcount := scanned_count fits (by rwa [h.cursor]) scans
  rw [h.cursor] at hcount
  obtain ⟨new, hscan⟩ := scans
  have hlist : c.listOfSubaccounts = c₀.listOfSubaccounts := by rw [h.frame]
  have hjournal := hscan.journal fun _ => 0
  have hadds : ∀ e ∈ new.map fun tx => Event.stored tx 0, e.rewrites = none := by
    intro e he
    obtain ⟨tx, -, rfl⟩ := List.mem_map.mp he
    rfl
  have hkept : ∀ (k : UInt64) tx, c.transactions[k]? = some tx → s.transactions[k]? = some tx :=
    fun k tx hheld => hjournal.keep hheld fun e he => by simp [hadds e he]
  have hcursors := writeCursor_cursors { c with transactions := s.transactions } t s.blockCount
  -- what is in the store now was there at the start, or it is the record of a block passed
  have horigin : ∀ (k : UInt64) tx, s.transactions[k]? = some tx → c₀.transactions[k]? = some tx ∨
      ∃ i hash, (c₀.getTokenNextBlock t).toNat ≤ i ∧ i < min (n + 100) chain.height ∧
        k = UInt64.ofNat i ∧ (chain.block i).relevant E c₀.listOfSubaccounts = true ∧
        tx = (chain.block i).record k hash t p := by
    intro k tx hheld
    rcases hjournal.added hadds hheld with hold | ⟨rfl, j, hmem⟩
    · rcases h.origin k tx hold with hold | ⟨i, hash, low, high, rest⟩
      · exact .inl hold
      · exact .inr ⟨i, hash, low, by omega, rest⟩
    · obtain ⟨tx', htx', heq⟩ := List.mem_map.mp hmem
      cases heq
      obtain ⟨j, b, hash, hblock, hrelevant, htransfer, rfl⟩ := hscan.origin tx htx'
      obtain ⟨hj, rfl⟩ := Chain.window_some hblock
      rw [hlist] at hrelevant
      have hindex := ofNat_cursor (x := c.getTokenNextBlock t) (Nat.le_add_right _ j)
      rw [Nat.add_sub_cancel_left] at hindex
      have hcursor := h.cursor
      refine .inr ⟨_, hash, ?_, ?_, ?_, hrelevant, rfl⟩
      · omega
      · omega
      · exact hindex
  constructor
  · rw [getTokenNextBlock_of_insert hcursors, if_pos rfl, hcount]
  · intro i low high relevant free
    rw [writeCursor_transactions]
    obtain ⟨tx, hheld⟩ : ∃ tx, s.transactions[UInt64.ofNat i]? = some tx := by
      by_cases hpassed : i < n
      · obtain ⟨hash, hheld⟩ := h.recorded i low hpassed relevant free
        exact ⟨_, hkept _ _ hheld⟩
      · have hfrom : (c.getTokenNextBlock t).toNat ≤ i := by rw [h.cursor]; omega
        have hblock : (chain.window (c.getTokenNextBlock t).toNat)[
            i - (c.getTokenNextBlock t).toNat]? = some (chain.block _) :=
          Chain.getElem?_window (by rw [h.cursor]; omega)
        rw [Nat.add_sub_cancel' hfrom] at hblock
        have hrecorded := hscan.complete _ _ hblock (by rwa [hlist])
        rwa [ofNat_cursor hfrom] at hrecorded
    rcases horigin _ _ hheld with hold | ⟨j, hash, -, hj, hindex, -, rfl⟩
    · rw [free] at hold
      cases hold
    · obtain rfl : i = j := by
        have hnat := congrArg UInt64.toNat hindex
        rw [UInt64.toNat_ofNat', UInt64.toNat_ofNat'] at hnat
        omega
      exact ⟨hash, hheld⟩
  · intro k tx hheld
    rw [writeCursor_transactions] at hheld
    exact horigin k tx hheld
  · intro k tx hheld
    rw [writeCursor_transactions]
    exact hkept k tx (h.kept k tx hheld)
  · intro r hr
    rw [getTokenNextBlock_of_insert hcursors, if_neg (Ne.symm hr)]
    exact h.others r hr
  · have hframe := h.frame
    rw [writeCursor_eq, hframe]

/-- A round can be had if the ledger answers and no block of the window makes the poll panic. -/
theorem round_exists {reply : LedgerReply} (running : σ.canister.timer ≠ none)
    (polled : PolledOn σ.canister t p)
    (answers : chain.Answers E p (σ.canister.getTokenNextBlock t) reply)
    (quiet : Quiet E σ.canister.listOfSubaccounts t p σ.canister.transactions
      (σ.canister.getTokenNextBlock t) (chain.window (σ.canister.getTokenNextBlock t).toNat)) :
    ∃ σ', Round E chain t p σ σ' := by
  have htick := step_timer E running
  obtain ⟨j, hj⟩ := List.mem_iff_getElem?.mp (mem_pollsToStart.mpr ⟨polled, rfl⟩)
  have hpoll : (σ.tasks ++ (pollsToStart σ.canister).map fun p => Task.poll p.1 p.2.1 p.2.2)[
      σ.tasks.length + j]? = some (.poll t p (σ.canister.getTokenNextBlock t)) := by
    rw [List.getElem?_append_right (Nat.le_add_right _ _), Nat.add_sub_cancel_left,
      List.getElem?_map, hj]
    rfl
  have hn := (List.getElem?_eq_some_iff.mp hpoll).1
  obtain ⟨response, hresponse, hfirst, hblocks⟩ := answers
  obtain ⟨turn, hturn⟩ := (queryTokenLedger_isOk (E := E) (c := σ.canister) t p
    (σ.canister.getTokenNextBlock t)).mpr (hblocks ▸ quiet)
  have hresumes : resumeTask E σ.canister (.poll t p (σ.canister.getTokenNextBlock t))
      (.ledger reply) = some (.ok (turn.toTurn t)) := by
    simp only [resumeTask, hresponse, hturn, bind, Except.bind]
  have hanswers : chain.Answers E p (σ.canister.getTokenNextBlock t) reply :=
    ⟨response, hresponse, hfirst, hblocks⟩
  have hanswer := step_of_resumes (σ := ⟨σ.canister, _⟩) E hpoll hresumes
  have hset := List.getElem?_set_self (a := (turn.toTurn t).task) hn
  cases hstatus : turn.status with
  | returned blockCount =>
    refine ⟨_, .returned htick (Nat.le_add_right _ _) hpoll hanswers hanswer (hset.trans ?_)⟩
    rw [PollTurn.toTurn, hstatus]
  | webhook hash blockCount =>
    have htask : (turn.toTurn t).task = .webhook t blockCount := by rw [PollTurn.toTurn, hstatus]
    have hwaits := hset.trans (congrArg some htask)
    exact ⟨_, .announced htick (Nat.le_add_right _ _) hpoll hanswers hanswer hwaits
      (step_of_resumes (σ := ⟨_, _⟩) E hwaits rfl)⟩

/-- What rounds in a row come to -/
theorem rounds_caughtUp (fits : chain.height < 2 ^ 64)
    (below : (σ.canister.getTokenNextBlock t).toNat ≤ chain.height) {k : Nat}
    (rounds : Rounds E chain t p σ k σ') :
    CaughtUp E chain t p σ.canister
      (min ((σ.canister.getTokenNextBlock t).toNat + 100 * k) chain.height) σ'.canister := by
  induction rounds with
  | zero =>
    have hstart : CaughtUp E chain t p σ.canister _ σ.canister := caughtUp_start σ.canister
    rwa [Nat.mul_zero, Nat.add_zero, Nat.min_eq_left below]
  | @succ k σ' σ'' before round ih =>
    obtain ⟨s, hscan, hcanister⟩ := round.scanned
    have hround := ih.round fits (by omega) (Nat.min_le_right _ _) hscan
    rw [hcanister]
    have hsum : min (min ((σ.canister.getTokenNextBlock t).toNat + 100 * k) chain.height + 100)
        chain.height = min ((σ.canister.getTokenNextBlock t).toNat + 100 * (k + 1))
          chain.height := by omega
    rwa [hsum] at hround

/-- The frame of rounds: the list and what decides about the polls stay. -/
theorem CaughtUp.polled (h : CaughtUp E chain t p c₀ n c) (polled : PolledOn c₀ t p) :
    PolledOn c t p := by
  have hledgers : c.tokenLedgerPrincipals = c₀.tokenLedgerPrincipals := by rw [h.frame]
  have hprincipal : c.principal = c₀.principal := by rw [h.frame]
  cases polled with
  | registered held => exact .registered (hledgers ▸ held)
  | default unregistered initial => exact .default (hledgers ▸ unregistered) (hprincipal ▸ initial)

/-- The rounds of a token that is polled on an honest ledger can be had, as many as one likes. -/
theorem rounds_exist (running : σ.canister.timer ≠ none) (polled : PolledOn σ.canister t p)
    (fits : chain.height < 2 ^ 64) (below : (σ.canister.getTokenNextBlock t).toNat ≤ chain.height)
    (answers : ∀ next : UInt64, ∃ reply, chain.Answers E p next reply)
    (scannable : ∀ i, (σ.canister.getTokenNextBlock t).toNat ≤ i → i < chain.height →
      Scannable E chain t p σ.canister i) (k : Nat) :
    ∃ σ', Rounds E chain t p σ k σ' := by
  induction k with
  | zero => exact ⟨σ, .zero⟩
  | succ k ih =>
    obtain ⟨σ', hrounds⟩ := ih
    have hcaught := rounds_caughtUp fits below hrounds
    have hlist : σ'.canister.listOfSubaccounts = σ.canister.listOfSubaccounts := by
      rw [hcaught.frame]
    obtain ⟨reply, hreply⟩ := answers (σ'.canister.getTokenNextBlock t)
    have hcursor := hcaught.cursor
    have hquiet : Quiet E σ'.canister.listOfSubaccounts t p σ'.canister.transactions
        (σ'.canister.getTokenNextBlock t)
        (chain.window (σ'.canister.getTokenNextBlock t).toNat) := by
      constructor
      · intro b hb
        obtain ⟨j, hblock⟩ := List.mem_iff_getElem?.mp hb
        obtain ⟨hj, rfl⟩ := Chain.window_some hblock
        rw [hlist]
        exact (scannable _ (by omega) (by omega)).transfer
      · intro j b new
        obtain ⟨hj, rfl⟩ := Chain.window_some new.found
        have hindex := ofNat_cursor (x := σ'.canister.getTokenNextBlock t) (Nat.le_add_right _ j)
        rw [Nat.add_sub_cancel_left] at hindex
        have hfree := new.free
        rw [hindex] at hfree
        refine (scannable _ (by omega) (by omega)).short (hlist ▸ new.relevant) ?_
        -- a key that was taken at the start still is
        cases hheld : σ.canister.transactions[UInt64.ofNat
            ((σ'.canister.getTokenNextBlock t).toNat + j)]? with
        | none => rfl
        | some tx =>
          rw [hcaught.kept _ _ hheld] at hfree
          cases hfree
    obtain ⟨σ'', hround⟩ := round_exists (by rw [hcaught.frame]; exact running)
      (hcaught.polled polled) hreply hquiet
    exact ⟨σ'', hrounds.succ hround⟩

open Examples

/-- A ledger with a deposit in every block from 1 to 149 -/
def deposits : Chain := ⟨fun _ => deposit, 150⟩

theorem deposits_answers (next : UInt64) :
    ∃ reply, deposits.Answers externals MAINNET_LEDGER_CANISTER_ID next reply :=
  ⟨.queryBlocks (responseAt next (deposits.window next.toNat)), _, rfl, rfl, rfl⟩

theorem deposits_scannable (i : Nat) :
    Scannable externals deposits .icp MAINNET_LEDGER_CANISTER_ID start.canister i where
  transfer := by
    have hpanics : deposit.panics externals start.canister.listOfSubaccounts = false := by
      decide +kernel
    exact hpanics
  short _ _ := by
    have hshort : deposit.tooLong externals .icp MAINNET_LEDGER_CANISTER_ID = false := by
      decide +kernel
    exact hshort

theorem start_polled : PolledOn start.canister .icp MAINNET_LEDGER_CANISTER_ID :=
  .default (by decide +kernel) rfl

theorem start_behind : ∀ x ∈ start.positions .icp, x.toNat ≤ 1 := by
  -- the one position is found first: `decide` on the statement may go through every `UInt64`
  have hpositions : start.positions .icp = [1] := by decide +kernel
  intro x hx
  rw [hpositions] at hx
  rw [List.mem_singleton.mp hx]
  decide

end SubaccountIndexer.CatchUp
