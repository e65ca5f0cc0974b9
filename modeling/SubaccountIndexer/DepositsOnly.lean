import SubaccountIndexer.Subaccounts
import SubaccountIndexer.Events

/-! What the store can hold. The three places that index blocks admit a transfer whose
recipient or spender has the key of a listed subaccount, and the list only grows while the
nonce does not wrap around. The argument builders look at the recipient alone: a record
that was admitted for its spender has no source subaccount. -/

namespace SubaccountIndexer.DepositsOnly

variable (E : Externals)

/-- An `add_subaccount` that runs finds a nonce that does not wrap around. -/
def NonceFits (σ : System) (i : Input) : Prop :=
  ∀ t, σ.runs E i = some (.addSubaccount t) → σ.canister.lastSubaccountNonce.toNat + 1 < 2 ^ 32

/-- A transfer whose recipient or spender has a listed key -/
def Admitted (subaccounts : Subaccounts) (tx : StoredTransactions) : Prop :=
  ∃ data, tx.operation = some (.transfer data) ∧
    subaccountExist E subaccounts (.transfer data) = true

/-- The list holds exactly the keys of the issued nonces. -/
structure Listed (c : Canister) : Prop where
  covered : Covered E c.lastSubaccountNonce.toNat c.listOfSubaccounts
  only : OnlyIssued E c.lastSubaccountNonce.toNat c.listOfSubaccounts

/-- Every record, stored or held by a message in flight, was admitted. -/
structure AllAdmitted (σ : System) : Prop where
  keyed : Keyed σ.canister.transactions
  listed : Listed E σ.canister
  stored : ∀ (i : UInt64) tx, σ.canister.transactions[i]? = some tx →
    Admitted E σ.canister.listOfSubaccounts tx
  pending : ∀ tx, σ.Pending tx → Admitted E σ.canister.listOfSubaccounts tx

/-- No two issued subaccounts share a key, and no other account named by a stored transfer
shares one with them. -/
structure NoCollisions (c : Canister) : Prop where
  issued : ∀ i j, Issued c.lastSubaccountNonce i → Issued c.lastSubaccountNonce j →
    nonceHash E i = nonceHash E j → i = j
  stored : ∀ (i : UInt64) tx data (account : AccountIdentifier),
    c.transactions[i]? = some tx → tx.operation = some (.transfer data) →
    (data.to = account.toList ∨ data.spender = some account.toList) →
    ∀ j, Issued c.lastSubaccountNonce j → E.defaultHasher account = nonceHash E j →
      account = toSubaccountId E (toSubaccount j)

/-- The three argument builders pay from `subaccount`: the sweeps once there is a custodian,
the refund if the sender's account parses. -/
structure Resolves (c : Canister) (tx : StoredTransactions) (data : Transfer)
    (subaccount : Subaccount) : Prop where
  sweep : ∀ custodian, c.custodianPrincipal = some custodian → ∃ args ledger,
    toSweepArgs E c tx = .ok (args, ledger) ∧ args.fromSubaccount = some subaccount
  icrc1 : ∀ custodian, c.custodianPrincipal = some custodian → ∃ args ledger,
    toIcrc1SweepArgs E c tx = .ok (args, ledger) ∧ args.fromSubaccount = some subaccount
  refund : ∀ sender, E.accountFromSlice data.from = .ok sender → ∃ args ledger,
    toRefundArgs E c tx = .ok (.ok (args, ledger)) ∧ args.fromSubaccount = some subaccount

variable {E} {σ σ' : System} {i : Input} {os : List Event} {tx : StoredTransactions}
  {list list' : Subaccounts} {c : Canister}

/-! ## The list grows -/

theorem includesHash_mono (grows : ∀ key, list.contains key = true → list'.contains key = true)
    {v : Blob} (h : includesHash E list v = true) : includesHash E list' v = true := by
  unfold includesHash at h ⊢
  split at h
  · rename_i hlength
    rw [dif_pos hlength]
    exact grows _ h
  · cases h

theorem Admitted.mono (grows : ∀ key, list.contains key = true → list'.contains key = true)
    (h : Admitted E list tx) : Admitted E list' tx := by
  obtain ⟨data, hop, hexist⟩ := h
  refine ⟨data, hop, ?_⟩
  simp only [subaccountExist, Bool.or_eq_true, Option.any_eq_true] at hexist ⊢
  rcases hexist with hto | ⟨spender, hspender, hlisted⟩
  · exact .inl (includesHash_mono grows hto)
  · exact .inr ⟨spender, hspender, includesHash_mono grows hlisted⟩

theorem contains_of_getElem? {key : UInt64} {subaccount : Subaccount}
    (h : list[key]? = some subaccount) : list.contains key = true :=
  Std.ExtTreeMap.contains_eq_isSome_getElem?.trans (by rw [h]; rfl)

theorem getElem?_of_contains {key : UInt64} (h : list.contains key = true) :
    ∃ subaccount, list[key]? = some subaccount :=
  Option.isSome_iff_exists.mp (Std.ExtTreeMap.contains_eq_isSome_getElem?.symm.trans h)

theorem installed_listed (h : Installed E σ) : Listed E σ.canister := by
  have hlist := h.canister.2.2.2.2
  have hfits := Nat.le_of_lt (UInt32.toNat_lt σ.canister.lastSubaccountNonce)
  exact ⟨hlist ▸ reconstructUpTo_covered ∅ _ hfits, hlist ▸ reconstructUpTo_onlyIssued _ hfits⟩

theorem listed_step (listed : Listed E σ.canister) (fits : NonceFits E σ i)
    (h : Fires E σ i σ' os) :
    Listed E σ'.canister ∧ ∀ key, σ.canister.listOfSubaccounts.contains key = true →
      σ'.canister.listOfSubaccounts.contains key = true := by
  have hcovered := covered_step h listed.covered
  refine ⟨⟨hcovered, ?_⟩, fun key hkey => ?_⟩
  · refine h.keepsList (P := fun nonce list => OnlyIssued E nonce.toNat list) listed.only
      (reconstructUpTo_onlyIssued _ (Nat.le_of_lt (UInt32.toNat_lt _))) fun t hruns => ?_
    have hsucc : (σ.canister.lastSubaccountNonce + 1).toNat =
        σ.canister.lastSubaccountNonce.toNat + 1 := by
      have := fits t hruns
      rw [UInt32.toNat_add, UInt32.toNat_one]
      omega
    rw [hsucc]
    exact listed.only.insert rfl
  · rcases h.subaccounts with ⟨-, hlist⟩ | ⟨hnonce, hlist⟩ | ⟨-, -, hlist⟩
    · rwa [hlist]
    · -- the rebuilt list has the keys of all issued nonces
      obtain ⟨subaccount, hlisted⟩ := getElem?_of_contains hkey
      obtain ⟨j, hj, rfl, -⟩ := listed.only key subaccount hlisted
      obtain ⟨j', -, -, hlisted'⟩ := hcovered j (by rwa [hnonce])
      exact contains_of_getElem? hlisted'
    · rw [hlist, Std.ExtTreeMap.contains_insert, hkey, Bool.or_true]

/-! ## Records are admitted -/

theorem admitted_of_relevant {b : Block} {index : UInt64} {hash : String} {t : TokenType}
    {p : Principal} (relevant : b.relevant E list = true) (transfer : b.isTransfer = true) :
    Admitted E list (b.record index hash t p) := by
  simp only [Block.relevant, Block.isTransfer, Option.any_eq_true] at relevant transfer
  obtain ⟨operation, hop, hexist⟩ := relevant
  obtain ⟨operation', hop', htransfer⟩ := transfer
  obtain rfl : operation = operation' := Option.some.inj (hop.symm.trans hop')
  cases operation with
  | transfer data => exact ⟨data, hop, hexist⟩
  | _ => cases htransfer

theorem allAdmitted_step (all : AllAdmitted E σ) (fits : NonceFits E σ i)
    (h : Fires E σ i σ' os) : AllAdmitted E σ' := by
  obtain ⟨hlisted, hgrows⟩ := listed_step all.listed fits h
  refine ⟨keyed_step all.keyed h, hlisted, fun k tx hk => .mono hgrows ?_, fun tx hpending => ?_⟩
  · rcases (h.journal all.keyed).origin hk with
      hk | ⟨j, hmem, -⟩ | ⟨tx', status, previous, hmem, -, rfl⟩
    · exact all.stored k tx hk
    · cases h.event all.keyed _ hmem with
      | polled waits polled block relevant transfer =>
        exact admitted_of_relevant relevant transfer
      | archived input waits relevant transfer => exact admitted_of_relevant relevant transfer
    · -- a status write keeps the operation of the record or the copy it is made from
      suffices hadmitted : Admitted E σ.canister.listOfSubaccounts tx' from hadmitted
      cases h.event all.keyed _ hmem with
      | failed runs held => exact all.stored _ tx' held
      | written input waits awaits =>
        exact all.pending tx' ⟨_, List.mem_of_getElem? waits, Task.awaits_pending awaits⟩
  · rcases h.pending all.keyed hpending with hold | ⟨hstored, -⟩
    · exact (all.pending tx hold).mono hgrows
    · exact (all.stored _ tx hstored).mono hgrows

theorem resolves_registered {data : Transfer} {subaccount : Subaccount}
    (operation : tx.operation = some (.transfer data))
    (recipient : data.to = (toSubaccountId E subaccount).toList)
    (registered : c.Registered E subaccount) : Resolves E c tx data subaccount where
  sweep _ set := toSweepArgs_registered operation recipient registered set
  icrc1 _ set := toIcrc1SweepArgs_registered operation recipient registered set
  refund _ parses := toRefundArgs_registered operation recipient parses registered

/-- An account with a listed key is the account of a registered subaccount. -/
theorem account_registered (listed : Listed E c) (distinct : NoCollisions E c) {k : UInt64}
    {data : Transfer} {v : Blob} (held : c.transactions[k]? = some tx)
    (operation : tx.operation = some (.transfer data))
    (named : data.to = v ∨ data.spender = some v)
    (includes : includesHash E c.listOfSubaccounts v = true) :
    ∃ subaccount, c.Registered E subaccount ∧ v = (toSubaccountId E subaccount).toList := by
  unfold includesHash at includes
  split at includes
  · rename_i hlength
    obtain ⟨subaccount, hlisted⟩ := getElem?_of_contains includes
    obtain ⟨j, hj, hkey, -⟩ := listed.only _ _ hlisted
    have haccount := distinct.stored k tx data ⟨v, hlength⟩ held operation named j hj hkey
    refine ⟨toSubaccount j, ?_, congrArg Bytes32.toList haccount⟩
    exact registered_of_issued listed.covered hj fun j' hj' hsame => distinct.issued j' j hj' hj hsame
  · cases includes

/-- While the nonce does not wrap around, every stored record is a transfer with a
registered subaccount as its recipient or its spender; if it is the recipient, the argument
builders find it. -/
theorem transfers_admitted {σ₀ : System} (installed : Installed E σ₀)
    (run : (machine E).Run (NonceFits E) σ₀ os σ) (distinct : NoCollisions E σ.canister)
    {k : UInt64} (held : σ.canister.transactions[k]? = some tx) :
    ∃ data, tx.operation = some (.transfer data) ∧
      (∃ subaccount, σ.canister.Registered E subaccount ∧
        (data.to = (toSubaccountId E subaccount).toList ∨
          data.spender = some (toSubaccountId E subaccount).toList)) ∧
      ∀ subaccount, σ.canister.Registered E subaccount →
        data.to = (toSubaccountId E subaccount).toList →
        Resolves E σ.canister tx data subaccount := by
  have hall := run.invariant (P := AllAdmitted E) ?_ ?_
  · obtain ⟨data, hop, hexist⟩ := hall.stored k tx held
    refine ⟨data, hop, ?_, fun subaccount hreg hto => resolves_registered hop hto hreg⟩
    simp only [subaccountExist, Bool.or_eq_true, Option.any_eq_true] at hexist
    rcases hexist with hto | ⟨spender, hspender, hincludes⟩
    · obtain ⟨subaccount, hreg, heq⟩ :=
        account_registered hall.listed distinct held hop (.inl rfl) hto
      exact ⟨subaccount, hreg, .inl heq⟩
    · obtain ⟨subaccount, hreg, rfl⟩ :=
        account_registered hall.listed distinct held hop (.inr hspender) hincludes
      exact ⟨subaccount, hreg, .inr hspender⟩
  · obtain ⟨htasks, hstore, -, -, -⟩ := installed.canister
    refine ⟨hstore ▸ keyed_empty, installed_listed installed, by simp [hstore], ?_⟩
    intro tx pending
    obtain ⟨task, htask, -⟩ := pending
    simp [htasks] at htask
  · intro s i s' os hall hfits hfires
    exact allAdmitted_step hall hfits (fires_of_step E hfires)

/-! A deposit, for which the builders work, and a transfer a subaccount spends. -/

open Examples

theorem nonceFits_of_runs (h : ∀ t, σ.runs E i ≠ some (.addSubaccount t)) : NonceFits E σ i :=
  fun t hruns => absurd hruns (h t)

/-- A store with one record whose transfer names subaccount 1 and nobody else with its key -/
theorem noCollisions_single {record : StoredTransactions} {data : Transfer}
    (store : c.transactions.toList = [(1, record)]) (nonce : c.lastSubaccountNonce = 2)
    (operation : record.operation = some (.transfer data))
    (named : ∀ account : AccountIdentifier,
      (data.to = account.toList ∨ data.spender = some account.toList) →
      account = account1 ∨ externals.defaultHasher account = 12440426859820023969) :
    NoCollisions externals c where
  issued i j hi hj same := issued_two_distinct (nonce ▸ hi) (nonce ▸ hj) same
  stored k tx data' account held op hnamed j hj hkey := by
    have hmem := Std.ExtTreeMap.mem_toList_iff_getElem?_eq_some.mpr held
    rw [store] at hmem
    obtain ⟨rfl, rfl⟩ : k = 1 ∧ tx = record := by simpa using hmem
    obtain rfl : data' = data := by simpa [operation, eq_comm] using op
    have hissued := issued_two (nonce ▸ hj)
    rcases named account hnamed with rfl | hkey'
    · rcases hissued with ⟨rfl, hj⟩ | ⟨rfl, hj⟩
      · rw [hj] at hkey
        exact absurd hkey (by decide +kernel)
      · decide +kernel
    · rw [hkey'] at hkey
      rcases hissued with ⟨rfl, hj⟩ | ⟨rfl, hj⟩ <;> (rw [hj] at hkey; cases hkey)

/-- A run to one poll of the examples leaves one record in the store. -/
structure PolledRecord (answer : Input) (record : StoredTransactions) : Prop where
  run : (machine externals).Run (NonceFits externals) start
    ((machine externals).emitted polling answer) ((machine externals).after polling answer)
  distinct : NoCollisions externals ((machine externals).after polling answer).canister
  stored : ((machine externals).after polling answer).canister.transactions[(1 : UInt64)]? =
    some record

theorem polledRecord {block : Block} {record : StoredTransactions} {data : Transfer}
    (accepted : ((machine externals).step polling (.reply 0 (blocksReply 1 [block]))).isSome = true)
    (store : ((machine externals).after polling
      (.reply 0 (blocksReply 1 [block]))).canister.transactions.toList = [(1, record)])
    (nonce : ((machine externals).after polling
      (.reply 0 (blocksReply 1 [block]))).canister.lastSubaccountNonce = 2)
    (operation : record.operation = some (.transfer data))
    (named : ∀ account : AccountIdentifier,
      (data.to = account.toList ∨ data.spender = some account.toList) →
      account = account1 ∨ externals.defaultHasher account = 12440426859820023969) :
    PolledRecord (.reply 0 (blocksReply 1 [block])) record where
  run := (Lib.Machine.Run.nil.step (nonceFits_of_runs (by simp [System.runs])) polling_step).next
    (nonceFits_of_runs (by simp [System.runs])) accepted
  distinct := noCollisions_single store nonce operation named
  stored := Std.ExtTreeMap.mem_toList_iff_getElem?_eq_some.mp (by simp [store])

/-- A transfer to subaccount 1 without a spender names no other account. -/
theorem named_recipient {data : Transfer} (recipient : data.to = account1.toList)
    (spender : data.spender = none) (account : AccountIdentifier)
    (named : data.to = account.toList ∨ data.spender = some account.toList) :
    account = account1 ∨ externals.defaultHasher account = 12440426859820023969 := by
  rcases named with hto | hspender
  · exact .inl (Bytes32.toList_injective (hto.symm.trans recipient))
  · rw [spender] at hspender
    cases hspender

theorem transfers_admitted_deposit : ∃ data, record.operation = some (.transfer data) ∧
    (∃ subaccount, depositStored.canister.Registered externals subaccount ∧
      (data.to = (toSubaccountId externals subaccount).toList ∨
        data.spender = some (toSubaccountId externals subaccount).toList)) ∧
    ∀ subaccount, depositStored.canister.Registered externals subaccount →
      data.to = (toSubaccountId externals subaccount).toList →
      Resolves externals depositStored.canister record data subaccount := by
  have polled : PolledRecord (icpAnswer 0) record :=
    polledRecord (by decide +kernel) depositStored_record (by decide +kernel) rfl
      (named_recipient rfl rfl)
  exact transfers_admitted start_installed polled.run polled.distinct polled.stored

/-- A poll is answered with a transfer subaccount 1 spends. -/
abbrev spendingAnswer : Input := .reply 0 (blocksReply 1 [spending])

def spendingRecord : StoredTransactions :=
  .new 1 spending.transaction "3287742ff46f5dcc54c6cdb1139249d1498020d3e148352d628eaa7015864237"
    .icp MAINNET_LEDGER_CANISTER_ID

/-- A transfer to subaccount 1 that names no sender -/
def senderless : Block :=
  blockOf (.transfer { «to» := account1.toList, fee := ⟨10000⟩, «from» := [], amount := ⟨100000⟩,
                       spender := none })

abbrev senderlessAnswer : Input := .reply 0 (blocksReply 1 [senderless])

def senderlessRecord : StoredTransactions :=
  .new 1 senderless.transaction "HASH-IS-NOT-AVAILABLE" .icp MAINNET_LEDGER_CANISTER_ID

/-- A transfer that a registered subaccount only spends is stored: its recipient is the
custodian, and no sweep finds a subaccount to pay it from. And a deposit whose sender does
not parse cannot be refunded. -/
theorem spender_stored :
    PolledRecord spendingAnswer spendingRecord ∧
      (¬ ∃ data subaccount, spendingRecord.operation = some (.transfer data) ∧
        ((machine externals).after polling spendingAnswer).canister.Registered externals
          subaccount ∧
        data.to = (toSubaccountId externals subaccount).toList) ∧
      ((machine externals).after polling spendingAnswer).canister.custodianPrincipal =
        some custodian ∧
      toSweepArgs externals ((machine externals).after polling spendingAnswer).canister
          spendingRecord = .error "Error getting from_subaccount: Account not found" ∧
      PolledRecord senderlessAnswer senderlessRecord ∧
      toRefundArgs externals ((machine externals).after polling senderlessAnswer).canister
          senderlessRecord =
        .ok (.error "Error converting from to AccountIdentifier: InvalidLength([])") := by
  refine ⟨polledRecord ?_ ?_ ?_ rfl ?_, ?_, ?_, ?_,
    polledRecord ?_ ?_ ?_ rfl (named_recipient rfl rfl), ?_⟩
  case refine_4 =>
    intro account hnamed
    rcases hnamed with hto | hspender
    · obtain rfl : custodianAccount = account := Bytes32.toList_injective hto
      exact .inr (by decide +kernel)
    · exact .inl (Bytes32.toList_injective (Option.some.inj hspender).symm)
  case refine_5 =>
    intro hdeposit
    obtain ⟨data, subaccount, hop, hreg, hto⟩ := hdeposit
    cases hop
    have haccount : toSubaccountId externals subaccount = custodianAccount :=
      Bytes32.toList_injective hto.symm
    have hnone : ((machine externals).after polling
        spendingAnswer).canister.listOfSubaccounts[
          externals.defaultHasher custodianAccount]? = none := by decide +kernel
    rw [Canister.Registered, toU64Hash_eq, haccount, hnone] at hreg
    cases hreg
  all_goals decide +kernel

end SubaccountIndexer.DepositsOnly
