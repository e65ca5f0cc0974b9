import SubaccountIndexer.TxHash
import SubaccountIndexer.WellFormed

/-! The hash a record is stored under is taken of the accounts of its transfer, not of how the
ledger has spelled them: with the checksum in front or without it. Where a blob spells no
account the record has the placeholder. -/

namespace SubaccountIndexer.Hashes

open TxHash (content hashText hashedContent hashOrPlaceholder_text queryTokenLedger_hashed)

variable (E : Externals)

/-! ## Spellings -/

/-- The blob is the account, with its checksum or without. -/
def Spells (blob : Blob) (account : Ledger.AccountIdentifier) : Prop :=
  blob = account.toVec E ∨ blob = account.hash

/-- What the hash of a transfer is taken of, once its accounts are read -/
structure SpelledBy (tx : StoredTransactions) (data : Transfer) (content : Ledger.Transaction) :
    Prop where
  sender : Spells E data.from content.operation.from
  recipient : Spells E data.to content.operation.to
  spender : Option.Rel (Spells E) data.spender content.operation.spender
  rest : content = .new content.operation.from content.operation.to content.operation.spender
    data.amount.e8s data.fee.e8s tx.memo tx.createdAtTime

variable {E} {account : Ledger.AccountIdentifier} {tx : StoredTransactions} {data : Transfer}
  {c : Canister} {σ σ' : System} {i : Input} {os : List Event}

theorem length_toVec : (account.toVec E).length = 32 := by
  rw [Ledger.AccountIdentifier.toVec, List.length_append, account.length_eq]
  rfl

theorem checkSum_ok {hex : Bytes32} :
    Ledger.checkSum E hex = .ok account ↔ hex.toList = account.toVec E := by
  unfold Ledger.checkSum
  dsimp only
  constructor
  · intro h
    split at h
    · rename_i hchecksum
      rw [← Except.ok.inj h, Ledger.AccountIdentifier.toVec, hchecksum, List.take_append_drop]
    · cases h
  · intro h
    have hchecksum : hex.toList.take 4 = account.generateChecksum E := by
      rw [h]
      rfl
    have hhash : (⟨hex.toList.drop 4, by simp [hex.length_eq]⟩ : Ledger.AccountIdentifier) =
        account := by
      cases account
      simp only [Ledger.AccountIdentifier.mk.injEq]
      rw [h]
      rfl
    rw [hhash, if_pos hchecksum.symm]

/-- A blob that is accepted spells the account it is accepted as. -/
theorem fromSlice_ok {blob : Blob} :
    Ledger.AccountIdentifier.fromSlice E blob = .ok account ↔ Spells E blob account := by
  unfold Ledger.AccountIdentifier.fromSlice
  split
  · rename_i hlength
    have hlong : blob ≠ account.hash := by
      rintro rfl
      rw [account.length_eq] at hlength
      cases hlength
    have hread : Ledger.checkSum E ⟨blob, hlength⟩ = .ok account ↔ blob = account.toVec E :=
      checkSum_ok
    rw [Spells, or_iff_left hlong, ← hread]
    cases Ledger.checkSum E ⟨blob, hlength⟩ <;> simp
  · rename_i hlength
    have hshort : blob ≠ account.toVec E := by
      rintro rfl
      exact hlength length_toVec
    rw [Spells, or_iff_right hshort]
    split
    · cases account
      simp
    · rename_i hother
      refine iff_of_false nofun ?_
      rintro rfl
      exact hother account.length_eq

theorem mapM_fromSlice_ok {blob : Option Blob} {account : Option Ledger.AccountIdentifier} :
    blob.mapM (Ledger.AccountIdentifier.fromSlice E) = .ok account ↔
      Option.Rel (Spells E) blob account := by
  cases blob with
  | none => cases account <;> simp [pure, Except.pure]
  | some b =>
    rw [Option.mapM_some]
    cases account with
    | none => cases Ledger.AccountIdentifier.fromSlice E b <;> simp [Functor.map, Except.map]
    | some a =>
      rw [Option.rel_some_some, ← fromSlice_ok]
      cases Ledger.AccountIdentifier.fromSlice E b <;> simp [Functor.map, Except.map]

/-- The accounts that the blobs of a transfer spell are the ones that are hashed. -/
theorem content_some {content : Ledger.Transaction}
    (transfer : tx.operation = some (.transfer data)) :
    TxHash.content E tx = some content ↔ SpelledBy E tx data content := by
  have hoperation : (TxHash.recorded tx).operation = some (.transfer data) := transfer
  unfold TxHash.content hashedContent
  rw [hoperation]
  dsimp only
  constructor
  · intro h
    cases hfrom : Ledger.AccountIdentifier.fromSlice E data.from with
    | error e => rw [hfrom] at h; cases h
    | ok sender =>
      cases hto : Ledger.AccountIdentifier.fromSlice E data.to with
      | error e => rw [hfrom, hto] at h; cases h
      | ok recipient =>
        cases hspender : data.spender.mapM (Ledger.AccountIdentifier.fromSlice E) with
        | error e => rw [hfrom, hto, hspender] at h; cases h
        | ok spender =>
          rw [hfrom, hto, hspender] at h
          cases h
          exact ⟨fromSlice_ok.mp hfrom, fromSlice_ok.mp hto, mapM_fromSlice_ok.mp hspender, rfl⟩
  · intro spelled
    rw [fromSlice_ok.mpr spelled.sender, fromSlice_ok.mpr spelled.recipient,
      mapM_fromSlice_ok.mpr spelled.spender]
    exact congrArg some spelled.rest.symm

/-! ## Records -/

variable (E) in
/-- The record has the hash of its content. -/
def Hashed (tx : StoredTransactions) : Prop := tx.txHash = hashText E (content E tx)

theorem indexArchivedBlock_hashed {hashFirst : Bool} {t : TokenType} {p : Principal}
    {index : UInt64} {block : Block}
    (h : indexArchivedBlock E hashFirst c t p index block = .ok (.inserted tx)) : Hashed E tx := by
  unfold indexArchivedBlock at h
  split at h
  · cases h
  · split at h
    · split at h
      · cases h
      · cases hhash : hashOrPlaceholder E block.transaction with
        | error trap => simp [hhash, bind, Except.bind] at h
        | ok hash =>
          simp only [hhash, bind, Except.bind] at h
          split at h
          · cases h
          · cases h
            exact hashOrPlaceholder_text hhash
    · cases h

variable (E) in
/-- The records that a turn stores have the hashes of their contents. -/
def StoresHashed (events : List Event) : Prop :=
  ∀ tx j, .stored tx j ∈ events → Hashed E tx

theorem StoresHashed.nil : StoresHashed E [] := fun _ _ h => absurd h List.not_mem_nil

theorem storeIcpBlock_hashed {index : UInt64} {block : Option IcLedger.Block} {turn : ArchiveTurn}
    (h : storeIcpBlock E c index block = .ok turn) : StoresHashed E turn.events := by
  unfold storeIcpBlock at h
  split at h
  · cases h; exact .nil
  · rename_i icBlock
    cases hi : indexArchivedBlock E true c .icp (ledgerOrMainnet c) index icBlock.toLocal with
    | error trap => simp [hi, bind, Except.bind] at h
    | ok outcome =>
      simp only [hi, bind, Except.bind] at h
      split at h
      · obtain ⟨_, -, h⟩ := bind_eq_ok h
        cases h
        intro tx j hmem
        cases List.mem_singleton.mp hmem
        exact indexArchivedBlock_hashed hi
      · cases h; exact .nil

theorem storeIcrc3Block_hashed {t : TokenType} {p : Principal} {index : UInt64}
    {result : Icrc3GetBlocksResult} {turn : ArchiveTurn}
    (h : storeIcrc3Block E c t p index result = .ok turn) : StoresHashed E turn.events := by
  unfold storeIcrc3Block at h
  cases hc : convertIcrc3 E result.blocks with
  | error trap => simp [hc, bind, Except.bind] at h
  | ok blocks =>
    cases blocks with
    | nil => simp only [hc, bind, Except.bind] at h; cases h; exact .nil
    | cons block rest =>
      simp only [hc, bind, Except.bind] at h
      cases hi : indexArchivedBlock E false c t p index block with
      | error trap => simp [hi] at h
      | ok outcome =>
        simp only [hi] at h
        cases outcome with
        | inserted tx =>
          obtain ⟨_, -, h⟩ := bind_eq_ok h
          cases h
          intro tx' j hmem
          cases List.mem_singleton.mp hmem
          exact indexArchivedBlock_hashed hi
        | present => cases h; exact .nil
        | irrelevant => cases h; exact .nil

theorem archiveReply_hashed {await : ArchiveAwait} {reply : ArchiveReply} {turn : ArchiveTurn}
    (h : archiveReply E c await reply = some (.ok turn)) : StoresHashed E turn.events := by
  unfold archiveReply at h
  split at h
  · cases h; exact .nil
  · split at h
    · exact storeIcpBlock_hashed (Option.some.inj h)
    · split at h
      · cases h; exact .nil
      · exact storeIcpBlock_hashed (Option.some.inj h)
  · exact storeIcpBlock_hashed (Option.some.inj h)
  · cases h; exact .nil
  · cases h; exact .nil
  · split at h
    · split at h
      · cases h; exact .nil
      · exact storeIcrc3Block_hashed (Option.some.inj h)
    · cases h; exact .nil
  · split at h
    · cases h; exact .nil
    · split at h <;> (cases h; exact .nil)
  · split at h
    · cases h; exact .nil
    · exact storeIcrc3Block_hashed (Option.some.inj h)
  · cases h

/-! ## Steps -/

/-- Whatever stores a record, a poll or an archive call, hashes it. -/
theorem stored_hashed (keyed : Keyed σ.canister.transactions) (h : Fires E σ i σ' os) :
    StoresHashed E os := by
  intro tx j hmem
  cases h.event keyed _ hmem with
  | polled waits polled block relevant transfer =>
    obtain ⟨p, turn, -, hturn, hstored⟩ := TxHash.pollTurn_of_stored h polled hmem
    exact queryTokenLedger_hashed hturn hstored
  | archived input waits relevant transfer =>
    cases h with
    | reply waits' resumes =>
      cases input
      cases Option.some.inj (waits.symm.trans waits')
      have hevents := mem_of_mem_answered hmem (by simp)
      obtain ⟨outcome, hreply, houtcome⟩ := Option.map_eq_some_iff.mp resumes
      cases outcome with
      | error trap => cases houtcome
      | ok turn =>
        cases houtcome
        exact archiveReply_hashed hreply _ j hevents
    | replyTraps => cases List.mem_singleton.mp (mem_of_mem_answered hmem (by simp))
    | _ => cases input

/-- The copies that are written back keep their hashes. -/
theorem hashed_step (keyed : Keyed σ.canister.transactions) (h : Fires E σ i σ' os)
    (all : AllRecords (Hashed E) σ) : AllRecords (Hashed E) σ' :=
  all.step keyed h (fun _ _ => id) fun tx j hmem => stored_hashed keyed h tx j hmem

theorem reachable_hashed (h : Reachable E σ) : AllRecords (Hashed E) σ := by
  obtain ⟨start, os, installed, run⟩ := h
  have hrun := run.invariant
    (P := fun σ => Keyed σ.canister.transactions ∧ AllRecords (Hashed E) σ)
    ⟨by rw [installed.canister.2.1]; exact keyed_empty, installed.allRecords⟩
    fun s i s' os' before _ step => ⟨keyed_step before.1 (fires_of_step E step),
      hashed_step before.1 (fires_of_step E step) before.2⟩
  exact hrun.2

/-! ## Main result -/

/-- A record is stored under the hash of the accounts its transfer names, however the blobs
spell them, and under the placeholder if and when one of the blobs spells none. -/
theorem records_hashed (E : Externals) (reachable : Reachable E σ) {k : UInt64}
    (held : σ.canister.transactions[k]? = some tx) :
    ∃ data, tx.operation = some (.transfer data) ∧
      (∀ content, SpelledBy E tx data content →
        tx.txHash = E.hexEncode (content.generateHash E).toList) ∧
      ((∀ content, ¬ SpelledBy E tx data content) → tx.txHash = "HASH-IS-NOT-AVAILABLE") := by
  obtain ⟨data, htransfer⟩ := (reachable_wellFormed reachable).1.transfers k tx held
  have hhashed : tx.txHash = hashText E (content E tx) :=
    (reachable_hashed reachable).stored k tx held
  refine ⟨data, htransfer, fun content spelled => ?_, fun unspelled => ?_⟩
  · rw [hhashed, (content_some htransfer).mpr spelled, hashText]
  · have hnone : TxHash.content E tx = none := by
      rw [Option.eq_none_iff_forall_ne_some]
      exact fun content hcontent => unspelled content ((content_some htransfer).mp hcontent)
    rw [hhashed, hnone, hashText]

open Examples in
theorem records_hashed_deposit : ∃ data, record.operation = some (.transfer data) ∧
    (∀ content, SpelledBy externals record data content →
      record.txHash = externals.hexEncode (content.generateHash externals).toList) ∧
    ((∀ content, ¬ SpelledBy externals record data content) →
      record.txHash = "HASH-IS-NOT-AVAILABLE") :=
  records_hashed externals depositStored_reachable (k := 1)
    (Std.ExtTreeMap.mem_toList_iff_getElem?_eq_some.mp (by rw [depositStored_record]; simp))

end SubaccountIndexer.Hashes
