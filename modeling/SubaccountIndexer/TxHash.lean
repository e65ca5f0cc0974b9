import SubaccountIndexer.Queries
import SubaccountIndexer.Events

/-! What the hash of a record tells. `hash_transaction` hashes the accounts, the amounts,
the memo and the time of a transfer, but neither the ledger and the block it is from nor its
ICRC-1 memo: two deposits that agree in what is hashed are stored under one hash. While the
polls bring no such two, a hash names one record. -/

namespace SubaccountIndexer.TxHash

variable (E : Externals)

/-- What `hash_transaction` hashes of a transfer; nothing if one of its accounts does not
parse. -/
def hashedContent (tx : Transaction) : Option Ledger.Transaction :=
  match tx.operation with
  | some (.transfer transfer) =>
    match Ledger.AccountIdentifier.fromSlice E transfer.from,
        Ledger.AccountIdentifier.fromSlice E transfer.to,
        transfer.spender.mapM (Ledger.AccountIdentifier.fromSlice E) with
    | .ok fromAccount, .ok toAccount, .ok spender =>
      some (.new fromAccount toAccount spender transfer.amount.e8s transfer.fee.e8s tx.memo
        tx.createdAtTime)
    | _, _, _ => none
  | _ => none

/-- The text of the hash, or what stands in its place -/
def hashText : Option Ledger.Transaction → String
  | some content => E.hexEncode (content.generateHash E).toList
  | none => "HASH-IS-NOT-AVAILABLE"

/-- The ledger's transaction a record was made of -/
def recorded (tx : StoredTransactions) : Transaction where
  memo := tx.memo
  icrc1Memo := tx.icrc1Memo
  operation := tx.operation
  createdAtTime := tx.createdAtTime

/-- The content a record's hash is taken of -/
def content (tx : StoredTransactions) : Option Ledger.Transaction := hashedContent E (recorded tx)

/-- Everything but the answers of an archive and of a transfer -/
def Polling (_ : System) : Input → Prop
  | .reply _ (.archive _) | .reply _ (.transfer _) => False
  | _ => True

/-- The input answers a poll, which stores block `b` under the free key `k`. -/
def Adds (σ : System) (i : Input) (k : UInt64) (b : Block) : Prop :=
  ∃ t p next response, ∃ m : Nat, PollAnswered E σ t p next response i ∧
    Quiet E σ.canister.listOfSubaccounts t p σ.canister.transactions next response.blocks ∧
    response.blocks[m]? = some b ∧ b.relevant E σ.canister.listOfSubaccounts = true ∧
    k = next + UInt64.ofNat m ∧ σ.canister.transactions[k]? = none

/-- The blocks a poll stores have contents that differ from those of the stored records and
from one another. -/
structure FreshContent (σ : System) (i : Input) : Prop where
  polling : Polling σ i
  stored : ∀ k b, Adds E σ i k b → ∀ (k' : UInt64) tx, σ.canister.transactions[k']? = some tx →
    content E tx ≠ hashedContent E b.transaction
  new : ∀ k b k' b', Adds E σ i k b → Adds E σ i k' b' →
    hashedContent E b.transaction = hashedContent E b'.transaction → k = k'

/-- No two stored records have the same content, and each has the hash of its own. -/
structure Named (σ : System) : Prop where
  keyed : Keyed σ.canister.transactions
  hashed : ∀ (k : UInt64) tx, σ.canister.transactions[k]? = some tx →
    tx.txHash = hashText E (content E tx)
  distinct : ∀ (k k' : UInt64) tx tx', σ.canister.transactions[k]? = some tx →
    σ.canister.transactions[k']? = some tx' → content E tx = content E tx' → k = k'

/-- No two stored records have one hash. -/
def Unique (c : Canister) : Prop :=
  ∀ (k k' : UInt64) tx tx', c.transactions[k]? = some tx → c.transactions[k']? = some tx' →
    tx.txHash = tx'.txHash → k = k'

/-- No two stored records of different contents have one digest. -/
def CollisionFree (c : Canister) : Prop :=
  ∀ (k k' : UInt64) tx tx' a b, c.transactions[k]? = some tx → c.transactions[k']? = some tx' →
    content E tx = some a → content E tx' = some b →
    a.generateHash E = b.generateHash E → a = b

variable {E} {σ σ' : System} {i : Input} {os : List Event} {tx : StoredTransactions}
  {t : TokenType} {p : Principal} {next : UInt64} {c : Canister}

/-! ## Hashing -/

theorem hashOrPlaceholder_text {tx : Transaction} {hash : String}
    (h : hashOrPlaceholder E tx = .ok hash) : hash = hashText E (hashedContent E tx) := by
  unfold hashOrPlaceholder hashTransaction at h
  unfold hashedContent
  cases hop : tx.operation with
  | none => rw [hop] at h; cases h
  | some operation =>
    rw [hop] at h
    cases operation with
    | transfer transfer =>
      dsimp only at h ⊢
      cases hfrom : Ledger.AccountIdentifier.fromSlice E transfer.from with
      | error e => rw [hfrom] at h; exact (Except.ok.inj h).symm
      | ok fromAccount =>
        rw [hfrom] at h
        dsimp only at h
        cases hto : Ledger.AccountIdentifier.fromSlice E transfer.to with
        | error e => rw [hto] at h; exact (Except.ok.inj h).symm
        | ok toAccount =>
          rw [hto] at h
          dsimp only at h
          cases hspender : transfer.spender.mapM (Ledger.AccountIdentifier.fromSlice E) with
          | error e => rw [hspender] at h; exact (Except.ok.inj h).symm
          | ok spender => rw [hspender] at h; exact (Except.ok.inj h).symm
    | _ => cases h

/-- Contents that do not collide have different texts: no digest prints as the placeholder. -/
theorem hashText_inj (placeholder : ∃ e, E.hexDecode "HASH-IS-NOT-AVAILABLE" = .error e)
    {a b : Option Ledger.Transaction} (free : ∀ x y, a = some x → b = some y →
      x.generateHash E = y.generateHash E → x = y) (h : hashText E a = hashText E b) : a = b := by
  obtain ⟨e, he⟩ := placeholder
  have hhex : ∀ bytes, E.hexEncode bytes ≠ "HASH-IS-NOT-AVAILABLE" := by
    intro bytes heq
    rw [← heq, E.hexDecode_hexEncode] at he
    cases he
  cases a with
  | none =>
    cases b with
    | none => rfl
    | some y => exact absurd h.symm (hhex _)
  | some x =>
    cases b with
    | none => exact absurd h (hhex _)
    | some y =>
      rw [free x y rfl rfl (Bytes32.toList_injective (hexEncode_injective E h))]

/-! ## Polls -/

theorem scanBlock_hashed {subaccounts : Subaccounts} {s s' : Scan} {block : Block}
    (h : scanBlock E subaccounts t p s block = .ok s')
    (hashed : ∀ tx ∈ s.stored, tx.txHash = hashText E (content E tx)) :
    ∀ tx ∈ s'.stored, tx.txHash = hashText E (content E tx) := by
  unfold scanBlock at h
  split at h
  · cases h; exact hashed
  · split at h
    · cases hh : hashOrPlaceholder E block.transaction with
      | error trap => simp [hh, bind, Except.bind] at h
      | ok hash =>
        simp only [hh, bind, Except.bind] at h
        split at h
        · cases h; exact hashed
        · obtain ⟨_, -, h⟩ := bind_eq_ok h
          cases h
          intro tx htx
          rcases List.mem_append.mp htx with htx | htx
          · exact hashed tx htx
          · obtain rfl := List.mem_singleton.mp htx
            exact hashOrPlaceholder_text hh
    · cases h; exact hashed

theorem scanBlocks_hashed {subaccounts : Subaccounts} {blocks : List Block} {s s' : Scan}
    (h : scanBlocks E subaccounts t p s blocks = .ok s')
    (hashed : ∀ tx ∈ s.stored, tx.txHash = hashText E (content E tx)) :
    ∀ tx ∈ s'.stored, tx.txHash = hashText E (content E tx) := by
  induction blocks generalizing s with
  | nil => cases h; exact hashed
  | cons b rest ih =>
    simp only [scanBlocks] at h
    cases hb : scanBlock E subaccounts t p s b with
    | error trap => simp [hb, bind, Except.bind] at h
    | ok next =>
      simp only [hb, bind, Except.bind] at h
      exact ih h (scanBlock_hashed hb hashed)

theorem queryTokenLedger_hashed {answer : Except (String × String) QueryBlocksResponse}
    {turn : PollTurn} (h : queryTokenLedger E c t p next answer = .ok turn) {j : UInt64}
    (stored : .stored tx j ∈ turn.events) : tx.txHash = hashText E (content E tx) := by
  cases answer with
  | error err => cases h; cases stored
  | ok response =>
    obtain ⟨s, hs⟩ := queryTokenLedger_scan h
    have hmem : tx ∈ s.stored := by
      simp only [queryTokenLedger, hs, bind, Except.bind] at h
      repeat' split at h
      all_goals
        cases h
        simp only [List.mem_append, List.mem_map, Event.stored.injEq, List.mem_singleton,
          reduceCtorEq, or_false] at stored
        obtain ⟨tx', htx', rfl, -⟩ := stored
        exact htx'
    exact scanBlocks_hashed hs (by simp) tx hmem

/-- The turn of a poll that stores a record -/
theorem pollTurn_of_stored (h : Fires E σ i σ' os) {response : QueryBlocksResponse}
    (polled : σ.polled E i = some (t, next, response)) {j : UInt64}
    (stored : .stored tx j ∈ os) : ∃ p turn, PollAnswered E σ t p next response i ∧
      queryTokenLedger E σ.canister t p next (.ok response) = .ok turn ∧
        .stored tx j ∈ turn.events := by
  cases h with
  | timer | rejected | call | callTraps | upgrade => simp [System.polled] at polled
  | replyTraps waits resumes =>
    cases List.mem_singleton.mp (mem_of_mem_answered stored (by simp))
  | @reply n reply task turn waits resumes =>
    have hturn : .stored tx j ∈ turn.events := mem_of_mem_answered stored (by simp)
    cases reply with
    | ledger ledgerReply =>
      simp only [System.polled, waits] at polled
      cases task with
      | poll t' p next' =>
        simp only [resumeTask, Option.some.injEq] at resumes
        cases hq : queryBlocks E p (pollRequest next') ledgerReply with
        | error trap => simp [hq] at polled
        | ok answer =>
          cases answer with
          | error err => simp [hq] at polled
          | ok response' =>
            simp only [hq, Option.some.injEq, Prod.mk.injEq] at polled
            obtain ⟨rfl, rfl, rfl⟩ := polled
            cases hturn' : queryTokenLedger E σ.canister t' p next' (.ok response') with
            | error trap => simp [hq, hturn', bind, Except.bind] at resumes
            | ok pt =>
              simp only [hq, hturn', bind, Except.bind, Except.ok.injEq] at resumes
              rw [← resumes, (pt.toTurn_transactions t').2] at hturn
              exact ⟨p, pt, .reply waits hq, hturn', hturn⟩
      | _ => simp at polled
    | _ => simp [System.polled] at polled

/-! ## Steps -/

theorem not_archive (polling : Polling σ i) : ∀ n reply, i ≠ .reply n (.archive reply) := by
  intro n reply heq
  rw [heq] at polling
  exact polling

/-- A new record is that of a block the input adds, with the hash of its content. -/
theorem stored_added (keyed : Keyed σ.canister.transactions) (polling : Polling σ i)
    (h : Fires E σ i σ' os) {j : UInt64} (stored : .stored tx j ∈ os) :
    ∃ b, Adds E σ i tx.index b ∧ content E tx = hashedContent E b.transaction ∧
      tx.txHash = hashText E (content E tx) := by
  have hadds := adds_of_stored keyed (not_archive polling) h stored
  have hfree := ((h.journal keyed).fresh hadds).2 tx j stored
  cases h.event keyed _ stored with
  | archived input => exact absurd input (not_archive polling _ _)
  | @polled n t p next response m b hash waits polled block relevant transfer =>
    obtain ⟨p', turn, hanswered, hturn, hmem⟩ := pollTurn_of_stored h polled stored
    have hquiet := (queryTokenLedger_isOk t p' next).mp ⟨turn, hturn⟩
    exact ⟨b, ⟨t, p', next, response, m, hanswered, hquiet, block, relevant, rfl, hfree⟩, rfl,
      queryTokenLedger_hashed hturn hmem⟩

/-- A record after a step has its content and its hash from before, or it is new. -/
theorem record_origin (keyed : Keyed σ.canister.transactions) (polling : Polling σ i)
    (h : Fires E σ i σ' os) {k : UInt64} (held : σ'.canister.transactions[k]? = some tx) :
    (∃ old, σ.canister.transactions[k]? = some old ∧ content E old = content E tx ∧
        old.txHash = tx.txHash) ∨
      ∃ b, Adds E σ i k b ∧ content E tx = hashedContent E b.transaction ∧
        tx.txHash = hashText E (content E tx) := by
  rcases (h.journal keyed).origin held with
    hold | ⟨j, hmem, rfl⟩ | ⟨tx', status, previous, hmem, rfl, rfl⟩
  · exact .inl ⟨tx, hold, rfl, rfl⟩
  · exact .inr (stored_added keyed polling h hmem)
  · cases h.event keyed _ hmem with
    | failed runs before => exact .inl ⟨tx', before, rfl, rfl⟩
    | written input =>
      rw [input] at polling
      exact absurd polling id

theorem named_step (named : Named E σ) (fresh : FreshContent E σ i) (h : Fires E σ i σ' os) :
    Named E σ' := by
  have horigin {tx : StoredTransactions} {k : UInt64}
      (held : σ'.canister.transactions[k]? = some tx) :=
    record_origin named.keyed fresh.polling h held
  refine ⟨keyed_step named.keyed h, fun k tx held => ?_, fun k k' tx tx' held held' same => ?_⟩
  · rcases horigin held with ⟨old, hold, hcontent, hhash⟩ | ⟨b, -, -, hhash⟩
    · rw [← hhash, ← hcontent]
      exact named.hashed k old hold
    · exact hhash
  · rcases horigin held with ⟨old, hold, hcontent, -⟩ | ⟨b, hb, hcontent, -⟩
    · rcases horigin held' with ⟨old', hold', hcontent', -⟩ | ⟨b', hb', hcontent', -⟩
      · exact named.distinct k k' old old' hold hold'
          (hcontent.trans (same.trans hcontent'.symm))
      · exact absurd (hcontent.trans (same.trans hcontent')) (fresh.stored k' b' hb' k old hold)
    · rcases horigin held' with ⟨old', hold', hcontent', -⟩ | ⟨b', hb', hcontent', -⟩
      · exact absurd (hcontent'.trans (same.symm.trans hcontent))
          (fresh.stored k b hb k' old' hold')
      · exact fresh.new k b k' b' hb hb' (hcontent.symm.trans (same.trans hcontent'))

theorem installed_named (h : Installed E σ) : Named E σ := by
  have hstore := h.canister.2.1
  exact ⟨hstore ▸ keyed_empty, by simp [hstore], by simp [hstore]⟩

/-! ## What a hash finds -/

theorem Named.unique (named : Named E σ) (free : CollisionFree E σ.canister)
    (placeholder : ∃ e, E.hexDecode "HASH-IS-NOT-AVAILABLE" = .error e) :
    Unique σ.canister := by
  intro k k' tx tx' held held' same
  rw [named.hashed k tx held, named.hashed k' tx' held'] at same
  exact named.distinct k k' tx tx' held held'
    (hashText_inj placeholder (fun a b ha hb => free k k' tx tx' a b held held' ha hb) same)

theorem Unique.hashSelection (unique : Unique c) (keyed : Keyed c.transactions) (hash : String) :
    (hashSelection c hash).length ≤ 1 := by
  have hselected : Selected c.transactions (SubaccountIndexer.hashSelection c hash) :=
    keyed.storedWhere _
  have hmatches : ∀ tx ∈ SubaccountIndexer.hashSelection c hash, tx.txHash = hash :=
    fun tx htx => by simpa using mem_storedWhere htx
  match hlist : SubaccountIndexer.hashSelection c hash with
  | [] | [_] => simp
  | a :: b :: rest =>
    rw [hlist] at hselected hmatches
    have hindex := unique a.index b.index a b (hselected.held a (by simp))
      (hselected.held b (by simp))
      ((hmatches a (by simp)).trans (hmatches b (by simp)).symm)
    have hdistinct := hselected.distinct
    simp [hindex] at hdistinct

theorem Unique.tokenType (unique : Unique c) {k : UInt64}
    (held : c.transactions[k]? = some tx) :
    getTransactionTokenType c tx.txHash = .ok tx.tokenType := by
  have hmem : tx ∈ c.transactions.toList.map Prod.snd :=
    List.mem_map.mpr ⟨(k, tx), Std.ExtTreeMap.mem_toList_iff_getElem?_eq_some.mpr held, rfl⟩
  unfold getTransactionTokenType
  cases hfind : (c.transactions.toList.map Prod.snd).find? fun e => e.txHash == tx.txHash with
  | none =>
    have hnot := List.find?_eq_none.mp hfind tx hmem
    simp at hnot
  | some found =>
    obtain ⟨⟨k', tx'⟩, hentry, rfl⟩ := List.mem_map.mp (List.mem_of_find?_eq_some hfind)
    have hheld' := Std.ExtTreeMap.mem_toList_iff_getElem?_eq_some.mp hentry
    have hsame : tx'.txHash = tx.txHash := by simpa using List.find?_some hfind
    obtain rfl := unique k' k tx' tx hheld' held hsame
    rw [Option.some.inj (hheld'.symm.trans held)]

/-- As long as the polls bring no two deposits with one hashed content, a hash names one
record: no other has it, the methods that select by hash select at most that one, and
`get_transaction_token_type` finds its token. -/
theorem hashes_name_records {σ₀ : System} (installed : Installed E σ₀)
    (run : (machine E).Run (FreshContent E) σ₀ os σ) (free : CollisionFree E σ.canister)
    (placeholder : ∃ e, E.hexDecode "HASH-IS-NOT-AVAILABLE" = .error e) :
    Unique σ.canister ∧ (∀ hash, (hashSelection σ.canister hash).length ≤ 1) ∧
      ∀ (k : UInt64) tx, σ.canister.transactions[k]? = some tx →
        getTransactionTokenType σ.canister tx.txHash = .ok tx.tokenType := by
  have hnamed := run.invariant (P := Named E) (installed_named installed)
    fun s i s' os' named fresh fires => named_step named fresh (fires_of_step E fires)
  have hunique := hnamed.unique free placeholder
  exact ⟨hunique, hunique.hashSelection hnamed.keyed, fun _ _ held => hunique.tokenType held⟩

/-! A deposit and a transfer that a subaccount spends, and two deposits that differ in the
ICRC-1 memo. -/

open Examples

theorem freshContent_of_polled (polling : Polling σ i) (silent : σ.polled E i = none) :
    FreshContent E σ i := by
  have hnone : ∀ k b, ¬ Adds E σ i k b := by
    intro k b hadds
    obtain ⟨t, p, next, response, m, hanswered, -⟩ := hadds
    have hpolled := hanswered.polled
    rw [silent] at hpolled
    cases hpolled
  exact ⟨polling, fun k b hb => absurd hb (hnone k b), fun k b _ _ hb => absurd hb (hnone k b)⟩

/-- The ICP ledger answers the poll from 1 with these blocks. -/
abbrev answerWith (blocks : List Block) : Input := .reply 0 (blocksReply 1 blocks)

theorem freshContent_answer : FreshContent externals polling (answerWith [deposit, spending]) := by
  have hadds : ∀ k b, Adds externals polling (answerWith [deposit, spending]) k b →
      k = 1 ∧ b = deposit ∨ k = 2 ∧ b = spending := by
    intro k b hadds
    obtain ⟨t, p, next, response, m, hanswered, -, hblock, -, hk, -⟩ := hadds
    have hpolled := hanswered.polled
    obtain ⟨rfl, rfl, rfl⟩ : TokenType.icp = t ∧ 1 = next ∧
        responseAt 1 [deposit, spending] = response := by
      have hsome : polling.polled externals (answerWith [deposit, spending]) =
        some (.icp, 1, responseAt 1 [deposit, spending]) := by rfl
      rw [hsome] at hpolled
      cases hpolled
      exact ⟨rfl, rfl, rfl⟩
    match m with
    | 0 => exact .inl ⟨hk, (Option.some.inj hblock).symm⟩
    | 1 => exact .inr ⟨hk, (Option.some.inj hblock).symm⟩
    | m + 2 => cases hblock
  have hne : hashedContent externals deposit.transaction ≠
      hashedContent externals spending.transaction := by decide +kernel
  refine ⟨trivial, fun k b _ k' tx held => ?_, fun k b k' b' hb hb' same => ?_⟩
  · simp [polling, installed, resetTokenBlocks, Canister.default] at held
  · rcases hadds k b hb with ⟨rfl, rfl⟩ | ⟨rfl, rfl⟩ <;>
      rcases hadds k' b' hb' with ⟨rfl, rfl⟩ | ⟨rfl, rfl⟩
    · rfl
    · exact absurd same hne
    · exact absurd same.symm hne
    · rfl

abbrev twoStored : System := (machine externals).after polling (answerWith [deposit, spending])

theorem twoStored_collisionFree : CollisionFree externals twoStored.canister := by
  have hstored : ∀ e ∈ twoStored.canister.transactions.toList,
      ∀ e' ∈ twoStored.canister.transactions.toList,
      (content externals e.2).map (·.generateHash externals) =
        (content externals e'.2).map (·.generateHash externals) →
      content externals e.2 = content externals e'.2 := by decide +kernel
  intro k k' tx tx' a b held held' ha hb same
  have hcontent := hstored (k, tx) (Std.ExtTreeMap.mem_toList_iff_getElem?_eq_some.mpr held)
    (k', tx') (Std.ExtTreeMap.mem_toList_iff_getElem?_eq_some.mpr held') (by simp [ha, hb, same])
  rw [ha, hb] at hcontent
  exact Option.some.inj hcontent

theorem hashes_name_records_two :
    twoStored.canister.transactions.toList.map (fun entry => (entry.1, entry.2.txHash)) =
        [(1, "ffd97e60db2928f7d87f3000015c517ff5677f01fd9cb13a8e06ce7e19562987"),
          (2, "3287742ff46f5dcc54c6cdb1139249d1498020d3e148352d628eaa7015864237")] ∧
      Unique twoStored.canister := by
  have run : (machine externals).Run (FreshContent externals) start
      ((machine externals).emitted polling (answerWith [deposit, spending])) twoStored := by
    have timer : FreshContent externals start .timer := freshContent_of_polled trivial rfl
    refine (Lib.Machine.Run.nil.step timer polling_step).next freshContent_answer ?_
    decide +kernel
  exact ⟨by decide +kernel,
    (hashes_name_records start_installed run twoStored_collisionFree ⟨_, rfl⟩).1⟩

/-- A deposit with an ICRC-1 memo -/
def memoDeposit (memo : Blob) : Block :=
  { deposit with transaction := { deposit.transaction with icrc1Memo := some memo } }

abbrev twins : System :=
  (machine externals).after polling (answerWith [memoDeposit [1], memoDeposit [2]])

/-- Two deposits with different ICRC-1 memos are stored under one hash: `single_sweep` of that
hash pays for both. -/
theorem twins_share_hash :
    (machine externals).Run Polling start
        ((machine externals).emitted polling (answerWith [memoDeposit [1], memoDeposit [2]]))
        twins ∧
      twins.canister.transactions.toList.map (fun entry => (entry.1, entry.2.icrc1Memo)) =
        [(1, some [1]), (2, some [2])] ∧
      ¬ Unique twins.canister ∧
      (hashSelection twins.canister
        "ffd97e60db2928f7d87f3000015c517ff5677f01fd9cb13a8e06ce7e19562987").length = 2 := by
  refine ⟨(Lib.Machine.Run.nil.step trivial polling_step).next
    (i := answerWith [memoDeposit [1], memoDeposit [2]]) trivial ?_, ?_, ?_, ?_⟩
  case refine_3 =>
    intro hunique
    have htwo : (hashSelection twins.canister
        "ffd97e60db2928f7d87f3000015c517ff5677f01fd9cb13a8e06ce7e19562987").length = 2 := by
      decide +kernel
    have hkeyed : Keyed twins.canister.transactions := by
      refine reachable_keyed ⟨start, _, start_installed,
        (Lib.Machine.Run.nil.step trivial polling_step).next
          (i := answerWith [memoDeposit [1], memoDeposit [2]]) trivial ?_⟩
      decide +kernel
    have hle := hunique.hashSelection hkeyed
      "ffd97e60db2928f7d87f3000015c517ff5677f01fd9cb13a8e06ce7e19562987"
    omega
  all_goals decide +kernel

end SubaccountIndexer.TxHash
