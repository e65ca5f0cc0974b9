import SubaccountIndexer.PollSpec

/-! Which deposits a poll announces. The block loop keeps one hash for the webhook, that of the
first record it inserts; so the poll announces its insertions if there is at most one. -/

namespace SubaccountIndexer.Announced

variable (E : Externals)

/-- What a poll did until it waits or returns; a poll that panics is rolled back. -/
def eventsOf : Except Trap PollTurn → List Event
  | .ok turn => turn.events
  | .error _ => []

/-- The records a poll inserted -/
def inserted (events : List Event) : List StoredTransactions :=
  events.filterMap fun
    | .stored tx _ => some tx
    | _ => none

/-- The hashes it passed to `send_webhook` -/
def announced (events : List Event) : List String :=
  events.filterMap fun
    | .webhook hash => some hash
    | _ => none

/-- The hashes announced are those of the records inserted, each once. -/
def AnnouncesEach (result : Except Trap PollTurn) : Prop :=
  (announced (eventsOf result)).Perm ((inserted (eventsOf result)).map StoredTransactions.txHash)

/-- Block `k` of a response is new: it concerns a subaccount, and the key of its record is
free. -/
def New (c : Canister) (next : UInt64) (blocks : List Block) (k : Nat) : Prop :=
  ∃ b, blocks[k]? = some b ∧ b.relevant E c.listOfSubaccounts = true ∧
    c.transactions[next + UInt64.ofNat k]? = none

/-- The new blocks of a response all have one key. -/
def AtMostOneNew (c : Canister) (next : UInt64) (blocks : List Block) : Prop :=
  ∀ k k', New E c next blocks k → New E c next blocks k' →
    next + UInt64.ofNat k = next + UInt64.ofNat k'

variable {E} {c : Canister} {t : TokenType} {p : Principal} {next : UInt64} {s s' : Scan}
  {subaccounts : Subaccounts} {response : QueryBlocksResponse} {new : List StoredTransactions}

/-! ## The hash the loop keeps -/

/-- Hex has no digits for no bytes alone, so no hash is empty. -/
theorem hashOrPlaceholder_ne_empty (hex : E.hexDecode "" = .ok []) {tx : Transaction}
    {hash : String} (h : hashOrPlaceholder E tx = .ok hash) : hash ≠ "" := by
  have hdigest : ∀ digest : Bytes32, E.hexEncode digest.toList ≠ "" := by
    intro digest hempty
    have hdecoded := E.hexDecode_hexEncode digest.toList
    rw [hempty, hex, Except.ok.injEq] at hdecoded
    have hlength := digest.length_eq
    rw [← hdecoded] at hlength
    cases hlength
  unfold hashOrPlaceholder hashTransaction at h
  split at h
  · repeat' split at h
    all_goals
      cases h
      first | exact hdigest _ | decide
  · cases h

/-- The loop keeps the hash of the first record it stored, and no hash is empty. -/
structure KeepsFirst (s : Scan) : Prop where
  first : s.firstBlockHash = ((s.stored.head?).map StoredTransactions.txHash).getD ""
  hashed : ∀ tx ∈ s.stored, tx.txHash ≠ ""

theorem KeepsFirst.isEmpty (h : KeepsFirst s) : s.firstBlockHash.isEmpty = s.stored.isEmpty := by
  rw [h.first]
  cases hs : s.stored with
  | nil => rfl
  | cons tx rest =>
    have hne := h.hashed tx (by simp [hs])
    simpa [String.isEmpty_iff] using hne

theorem keepsFirst_step (hex : E.hexDecode "" = .ok []) {block : Block}
    (h : scanBlock E subaccounts t p s block = .ok s') (keeps : KeepsFirst s) : KeepsFirst s' := by
  unfold scanBlock at h
  split at h
  · cases h; exact ⟨keeps.first, keeps.hashed⟩
  · split at h
    · cases hh : hashOrPlaceholder E block.transaction with
      | error trap => simp [hh, bind, Except.bind] at h
      | ok hash =>
        simp only [hh, bind, Except.bind] at h
        split at h
        · cases h; exact ⟨keeps.first, keeps.hashed⟩
        · obtain ⟨transactions, -, h⟩ := bind_eq_ok h
          cases h
          have hne := hashOrPlaceholder_ne_empty hex hh
          constructor
          · have hempty := keeps.isEmpty
            dsimp only
            cases hs : s.stored with
            | nil =>
              rw [hempty, hs]
              rfl
            | cons tx rest =>
              rw [hempty, keeps.first, hs]
              rfl
          · intro tx htx
            rcases List.mem_append.mp htx with htx | htx
            · exact keeps.hashed tx htx
            · obtain rfl := List.mem_singleton.mp htx
              exact hne
    · cases h; exact ⟨keeps.first, keeps.hashed⟩

theorem keepsFirst_run (hex : E.hexDecode "" = .ok []) {blocks : List Block}
    (h : scanBlocks E subaccounts t p s blocks = .ok s') (keeps : KeepsFirst s) :
    KeepsFirst s' := by
  induction blocks generalizing s with
  | nil => cases h; exact keeps
  | cons b rest ih =>
    simp only [scanBlocks] at h
    cases hb : scanBlock E subaccounts t p s b with
    | error trap => simp [hb, bind, Except.bind] at h
    | ok s₁ =>
      simp only [hb, bind, Except.bind] at h
      exact ih h (keepsFirst_step hex hb keeps)

/-! ## One poll -/

theorem inserted_append (os os' : List Event) :
    inserted (os ++ os') = inserted os ++ inserted os' := List.filterMap_append

theorem announced_append (os os' : List Event) :
    announced (os ++ os') = announced os ++ announced os' := List.filterMap_append

theorem inserted_stored (label : StoredTransactions → UInt64) (new : List StoredTransactions) :
    inserted (new.map fun tx => .stored tx (label tx)) = new ∧
      announced (new.map fun tx => .stored tx (label tx)) = [] := by
  induction new with
  | nil => exact ⟨rfl, rfl⟩
  | cons tx rest ih => exact ⟨congrArg (tx :: ·) ih.1, ih.2⟩

variable (t p next) in
/-- A poll inserts what its loop stored, and announces the first record of it. -/
theorem queryTokenLedger_announced (hex : E.hexDecode "" = .ok [])
    (sends : ∀ hash, (sendWebhook E c hash).isSome = true)
    (quiet : Quiet E c.listOfSubaccounts t p c.transactions next response.blocks) :
    ∃ s new, Scanned E c.listOfSubaccounts t p
        { transactions := c.transactions, blockCount := next } response.blocks s new ∧
      inserted (eventsOf (queryTokenLedger E c t p next (.ok response))) = new ∧
      announced (eventsOf (queryTokenLedger E c t p next (.ok response))) =
        (new.map StoredTransactions.txHash).take 1 := by
  obtain ⟨s, hs⟩ := scanBlocks_isOk (t := t) (p := p)
    (s := { transactions := c.transactions, blockCount := next }) |>.mpr quiet
  obtain ⟨new, scan⟩ := scanned_of_ok hs
  have hkeeps := keepsFirst_run hex hs ⟨rfl, by simp⟩
  have hstored : s.stored = new := by simpa using scan.stored
  have hempty := hkeeps.isEmpty
  refine ⟨s, new, scan, ?_⟩
  simp only [queryTokenLedger, hs, bind, Except.bind, hstored] at hempty ⊢
  cases new with
  | nil =>
    have hnone : s.firstBlockHash.isEmpty = true := hempty
    rw [if_pos hnone]
    exact ⟨rfl, rfl⟩
  | cons tx rest =>
    have hsome : ¬ s.firstBlockHash.isEmpty = true := by simp [hempty]
    rw [if_neg hsome]
    obtain ⟨url, hurl⟩ := Option.isSome_iff_exists.mp (sends s.firstBlockHash)
    have hfirst : s.firstBlockHash = tx.txHash := by rw [hkeeps.first, hstored]; rfl
    have hsent : sendWebhook E { c with transactions := s.transactions } s.firstBlockHash =
        some url := hurl
    rw [hsent]
    dsimp only [eventsOf]
    rw [inserted_append, announced_append, (inserted_stored _ _).1, (inserted_stored _ _).2, hfirst]
    exact ⟨by simp [inserted], rfl⟩

/-- The loop stored at most one record exactly if the new blocks have one key. -/
theorem length_le_one (scan : Scanned E c.listOfSubaccounts t p
      { transactions := c.transactions, blockCount := next } response.blocks s new) :
    new.length ≤ 1 ↔ AtMostOneNew E c next response.blocks := by
  have hadds : ∀ e ∈ new.map fun tx => Event.stored tx 0, e.rewrites = none := by
    intro e he
    obtain ⟨tx, -, rfl⟩ := List.mem_map.mp he
    rfl
  have hjournal := scan.journal fun _ => 0
  constructor
  · intro hlength k k' hnew hnew'
    -- the record of a new block is among those stored
    have hstored : ∀ k, New E c next response.blocks k →
        ∃ tx ∈ new, tx.index = next + UInt64.ofNat k := by
      rintro k ⟨b, hb, hrel, hfree⟩
      obtain ⟨tx, htx⟩ := scan.complete k b hb hrel
      rcases hjournal.added hadds htx with hheld | ⟨hindex, j, hmem⟩
      · exact absurd (hheld.symm.trans hfree) (by simp)
      · obtain ⟨tx', hmem', heq⟩ := List.mem_map.mp hmem
        cases heq
        exact ⟨tx, hmem', hindex⟩
    obtain ⟨tx, hmem, hindex⟩ := hstored k hnew
    obtain ⟨tx', hmem', hindex'⟩ := hstored k' hnew'
    obtain ⟨a, ha⟩ := List.length_eq_one_iff.mp
      (Nat.le_antisymm hlength (List.length_pos_of_mem hmem))
    rw [ha, List.mem_singleton] at hmem hmem'
    rw [← hindex, ← hindex', hmem, hmem']
  · intro hone
    by_contra hmore
    obtain ⟨hnodup, hfree⟩ := hjournal.fresh hadds
    -- two records stored come from new blocks with two keys
    have horigin : ∀ tx ∈ new, tx.tokenType = t ∧ ∃ k, New E c next response.blocks k ∧
        tx.index = next + UInt64.ofNat k := by
      intro tx htx
      obtain ⟨k, b, hash, hb, hrel, -, heq⟩ := scan.origin tx htx
      have hindex : tx.index = next + UInt64.ofNat k := by rw [heq]; rfl
      refine ⟨by rw [heq]; rfl, k, ⟨b, hb, hrel, ?_⟩, hindex⟩
      rw [← hindex]
      exact hfree tx 0 (List.mem_map_of_mem htx)
    match hnew : new with
    | [] | [_] => simp at hmore
    | a :: b :: rest =>
      obtain ⟨hta, k, hk, hka⟩ := horigin a (by simp)
      obtain ⟨htb, k', hk', hkb⟩ := horigin b (by simp)
      have hsame : a.index = b.index := by rw [hka, hkb, hone k k' hk hk']
      simp [Event.entry, hta, htb, hsame] at hnodup

/-- With a valid webhook URL a poll announces what it inserts if and only if its response holds
at most one new block, or makes the loop panic. -/
theorem announces_each {url : Url} (set : c.webhookUrl.isEmpty = false)
    (valid : E.urlParse c.webhookUrl = .ok url) (hex : E.hexDecode "" = .ok [])
    (answer : Except (String × String) QueryBlocksResponse) :
    AnnouncesEach (queryTokenLedger E c t p next answer) ↔
      ∀ response, answer = .ok response →
        Quiet E c.listOfSubaccounts t p c.transactions next response.blocks →
          AtMostOneNew E c next response.blocks := by
  have hsends : ∀ hash, (sendWebhook E c hash).isSome = true := by
    intro hash
    simp [sendWebhook, set, valid]
  cases answer with
  | error err =>
    constructor
    · rintro - response ⟨⟩
    · exact fun _ => List.Perm.nil
  | ok response =>
    by_cases hquiet : Quiet E c.listOfSubaccounts t p c.transactions next response.blocks
    · obtain ⟨s, new, scan, hinserted, hannounced⟩ :=
        queryTokenLedger_announced t p next hex hsends hquiet
      have hone : AnnouncesEach (queryTokenLedger E c t p next (.ok response)) ↔
          new.length ≤ 1 := by
        rw [AnnouncesEach, hinserted, hannounced]
        constructor
        · intro hperm
          have hlength := hperm.length_eq
          rw [List.length_take, List.length_map] at hlength
          omega
        · intro hlength
          rw [List.take_of_length_le (by simpa using hlength)]
      rw [hone, length_le_one scan]
      exact ⟨fun h _ heq _ => by cases heq; exact h, fun h => h response rfl hquiet⟩
    · have htraps : ∃ trap, queryTokenLedger E c t p next (.ok response) = .error trap := by
        cases hturn : queryTokenLedger E c t p next (.ok response) with
        | error trap => exact ⟨trap, rfl⟩
        | ok turn => exact absurd ((queryTokenLedger_isOk t p next).mp ⟨turn, hturn⟩) hquiet
      obtain ⟨trap, htraps⟩ := htraps
      rw [htraps]
      exact ⟨fun _ _ heq hall => by cases heq; exact absurd hall hquiet, fun _ => .nil⟩

open Examples

/-- The external code of the examples, with a parser that accepts a URL -/
def parsing : Externals := { externals with urlParse := fun _ => .ok ⟨"https", true⟩ }

/-- A canister with two subaccounts and a webhook -/
def hooked : Canister := { issued with webhookUrl := "https://shop.example/deposits" }

theorem announces_each_deposit :
    AnnouncesEach (queryTokenLedger parsing hooked .icp MAINNET_LEDGER_CANISTER_ID 1
      (.ok (responseAt 1 [deposit]))) := by
  have hset : hooked.webhookUrl.isEmpty = false := by decide
  have hvalid : parsing.urlParse hooked.webhookUrl = .ok ⟨"https", true⟩ := rfl
  refine (announces_each hset hvalid (by decide +kernel) (.ok (responseAt 1 [deposit]))).mpr ?_
  intro response heq _ k k' hk hk'
  cases heq
  obtain ⟨b, hb, -⟩ := hk
  obtain ⟨b', hb', -⟩ := hk'
  have hzero : ∀ {j : Nat} {block : Block}, [deposit][j]? = some block → j = 0 := by
    intro j block hj
    have := (List.getElem?_eq_some_iff.mp hj).1
    simpa using this
  rw [hzero hb, hzero hb']

/-- A deposit to subaccount 1 and a payment that subaccount 1 makes for another account arrive
in one response: two records are inserted, the second is not announced. -/
theorem second_not_announced :
    hooked.webhookUrl.isEmpty = false ∧ parsing.urlParse hooked.webhookUrl = .ok ⟨"https", true⟩ ∧
      ¬ AnnouncesEach (queryTokenLedger parsing hooked .icp MAINNET_LEDGER_CANISTER_ID 1
        (.ok (responseAt 1 [deposit, spending]))) := by
  refine ⟨by decide, rfl, fun hperm => ?_⟩
  have hlength := hperm.length_eq
  revert hlength
  decide +kernel

end SubaccountIndexer.Announced
