import SubaccountIndexer.Decoders
import SubaccountIndexer.WellFormed

/-! When the canister panics. No call, tick, upgrade or answer to a transfer makes it panic in any
reachable state: only blocks do, those a poll or the archive path was answered with: one that is no transfer, one
whose owner is too long, or one whose record is. -/

namespace SubaccountIndexer.Panics
open Lib (lastOf)
open Adapter (valueAt blockFields_tx)
open Decoders (Entry Fits fullRecipient recipient readVia txFields_isOk live_eq archive_eq)

/-- No owner a decoder reads in a block is longer than a principal; `read` says which recipients
it reads. -/
def Readable (read : List Icrc3Value → Option (Blob × Subaccount)) (block : Icrc3Value) : Prop :=
  ∀ fields txMap, block = .map fields → lastOf (valueAt "tx") fields = some (.map txMap) →
    ∀ entry ∈ txMap, Fits read entry

variable (E : Externals)

/-- The record of a block would go under a free key of the map, but it is too long. -/
structure Overlong (c : Canister) (t : TokenType) (p : Principal) (index : UInt64) (b : Block) :
    Prop where
  relevant : b.relevant E c.listOfSubaccounts = true
  free : c.transactions[index]? = none
  long : b.tooLong E t p = true

/-- The answers that make a task panic: a block that concerns a subaccount and is no transfer, one
whose record is too long for the map, or an ICRC-3 block with an owner that is too long. -/
inductive Poisons (c : Canister) : Task → Reply → Prop
  | block {t : TokenType} {p : Principal} {next : UInt64} {response : QueryBlocksResponse}
      (legacy : usesIcrc3 p = false)
      (panics : ∃ b ∈ response.blocks, b.panics E c.listOfSubaccounts = true) :
      Poisons c (.poll t p next) (.ledger (.queryBlocks response))
  | record {t : TokenType} {p : Principal} {next : UInt64} {reply : LedgerReply}
      {response : QueryBlocksResponse} {k : Nat} {b : Block}
      (answers : queryBlocks E p (pollRequest next) reply = .ok (.ok response))
      (new : NewAt E c.listOfSubaccounts c.transactions next response.blocks k b)
      (long : b.tooLong E t p = true) : Poisons c (.poll t p next) (.ledger reply)
  | owner {t : TokenType} {p : Principal} {next : UInt64} {result : Icrc3GetBlocksResult}
      (icrc3 : usesIcrc3 p = true)
      (long : ∃ r ∈ result.blocks, ¬ Readable fullRecipient r.block) :
      Poisons c (.poll t p next) (.ledger (.icrc3GetBlocks result))
  | ledgerBlock {index : UInt64} {response : IcLedger.QueryBlocksResponse} {b : IcLedger.Block}
      {rest : List IcLedger.Block} (blocks : response.blocks = b :: rest)
      (panics : b.toLocal.panics E c.listOfSubaccounts = true ∨
        Overlong E c .icp (ledgerOrMainnet c) index b.toLocal) :
      Poisons c (.archive (.icpLedger index)) (.archive (.icpLedger (.ok response)))
  | archivedBlock {index : UInt64} {b : IcLedger.Block} {rest : List IcLedger.Block}
      (panics : b.toLocal.panics E c.listOfSubaccounts = true ∨
        Overlong E c .icp (ledgerOrMainnet c) index b.toLocal) :
      Poisons c (.archive (.icpArchive index)) (.archive (.icpArchive (.ok (.ok (b :: rest)))))
  | ledgerOwner {t : TokenType} {p : Principal} {index : UInt64} {result : Icrc3GetBlocksResult}
      (long : ∃ r ∈ result.blocks, ¬ Readable recipient r.block) :
      Poisons c (.archive (.icrc3Ledger t p index)) (.archive (.icrc3Blocks (.ok result)))
  | archivedOwner {t : TokenType} {p archive : Principal} {index : UInt64}
      {result : Icrc3GetBlocksResult} (long : ∃ r ∈ result.blocks, ¬ Readable recipient r.block) :
      Poisons c (.archive (.icrc3Archive t p index archive)) (.archive (.icrc3Blocks (.ok result)))
  | ledgerRecord {t : TokenType} {p : Principal} {index : UInt64} {result : Icrc3GetBlocksResult}
      {b : Block} {rest : List Block} (blocks : convertIcrc3 E result.blocks = .ok (b :: rest))
      (long : Overlong E c t p index b) :
      Poisons c (.archive (.icrc3Ledger t p index)) (.archive (.icrc3Blocks (.ok result)))
  | archivedRecord {t : TokenType} {p archive : Principal} {index : UInt64}
      {result : Icrc3GetBlocksResult} {b : Block} {rest : List Block}
      (blocks : convertIcrc3 E result.blocks = .ok (b :: rest)) (long : Overlong E c t p index b) :
      Poisons c (.archive (.icrc3Archive t p index archive)) (.archive (.icrc3Blocks (.ok result)))

variable {E} {c : Canister} {task : Task} {reply : Reply} {subaccounts : Subaccounts}
  {blocks : List Block}

theorem isOk_map {ε α β : Type} {x : Except ε α} {f : α → β} :
    (∃ b, x.map f = .ok b) ↔ ∃ a, x = .ok a := by
  cases x <;> simp [Except.map]

/-! ## The decoders -/

theorem liveBlock_isOk (block : Icrc3Value) :
    (∃ read, Icrc3.liveBlock E block = .ok read) ↔ Readable fullRecipient block := by
  by_cases hmap : ∃ fields txMap, block = .map fields ∧
      lastOf (valueAt "tx") fields = some (.map txMap)
  · obtain ⟨fields, txMap, rfl, htx⟩ := hmap
    have hblock : (⟨0, .map fields⟩ : Icrc3BlockWithId).block = .map fields := rfl
    rw [show Icrc3.liveBlock E (.map fields) = _ from live_eq hblock htx, isOk_map, txFields_isOk]
    constructor
    · rintro hfits fields' txMap' heq htx'
      cases heq
      cases htx.symm.trans htx'
      exact hfits
    · exact fun hreadable => hreadable fields txMap rfl htx
  · refine iff_of_true ?_ fun fields txMap heq htx => absurd ⟨fields, txMap, heq, htx⟩ hmap
    unfold Icrc3.liveBlock
    split
    · rename_i fields
      dsimp only
      rw [blockFields_tx]
      split
      · rename_i txMap htx
        exact absurd ⟨fields, txMap, rfl, htx⟩ hmap
      · exact ⟨_, rfl⟩
    · exact ⟨_, rfl⟩

theorem icrc3BlockToBlock_isOk (r : Icrc3BlockWithId) :
    (∃ read, icrc3BlockToBlock E r = .ok read) ↔ Readable recipient r.block := by
  by_cases hmap : ∃ fields txMap, r.block = .map fields ∧
      lastOf (valueAt "tx") fields = some (.map txMap)
  · obtain ⟨fields, txMap, hblock, htx⟩ := hmap
    rw [archive_eq hblock htx, isOk_map, txFields_isOk]
    constructor
    · rintro hfits fields' txMap' heq htx'
      cases hblock.symm.trans heq
      cases htx.symm.trans htx'
      exact hfits
    · exact fun hreadable => hreadable fields txMap hblock htx
  · refine iff_of_true ?_ fun fields txMap heq htx => absurd ⟨fields, txMap, heq, htx⟩ hmap
    unfold icrc3BlockToBlock
    dsimp only
    rw [blockFields_tx]
    split
    · rename_i txMap htx
      split at htx
      · rename_i fields hblock
        exact absurd ⟨fields, txMap, hblock, htx⟩ hmap
      · cases htx
    · exact ⟨_, rfl⟩

/-- A loop that reads one block after another and keeps what it gets -/
structure Reads {α : Type} (read : α → Except Trap (Option Block))
    (loop : List α → Except Trap (List Block)) : Prop where
  nil : loop [] = .ok []
  cons : ∀ a rest, loop (a :: rest) = do
    let block ← read a
    let blocks ← loop rest
    .ok (block.toList ++ blocks)

theorem live_reads : Reads (fun r => Icrc3.liveBlock E r.block) (Icrc3.liveBlocks E) :=
  ⟨rfl, fun _ _ => rfl⟩

theorem archive_reads : Reads (icrc3BlockToBlock E) (convertIcrc3 E) := ⟨rfl, fun _ _ => rfl⟩

section Reads

variable {α : Type} {read : α → Except Trap (Option Block)}
  {loop : List α → Except Trap (List Block)}

theorem Reads.isOk (h : Reads read loop) {fine : α → Prop}
    (decides : ∀ a, (∃ block, read a = .ok block) ↔ fine a) (received : List α) :
    (∃ blocks, loop received = .ok blocks) ↔ ∀ a ∈ received, fine a := by
  induction received with
  | nil => simp [h.nil]
  | cons a rest ih =>
    rw [List.forall_mem_cons, ← ih, ← decides, h.cons]
    cases read a with
    | error trap => simp [bind, Except.bind]
    | ok block => cases loop rest <;> simp [bind, Except.bind]

theorem Reads.origin (h : Reads read loop) {received : List α} {b : Block}
    (reads : loop received = .ok blocks) (mem : b ∈ blocks) : ∃ a, read a = .ok (some b) := by
  induction received generalizing blocks with
  | nil =>
    rw [h.nil] at reads
    cases reads
    cases mem
  | cons a rest ih =>
    rw [h.cons] at reads
    cases hread : read a with
    | error trap => simp [hread, bind, Except.bind] at reads
    | ok block =>
      cases hrest : loop rest with
      | error trap => simp [hread, hrest, bind, Except.bind] at reads
      | ok later =>
        simp only [hread, hrest, bind, Except.bind, Except.ok.injEq] at reads
        subst reads
        rcases List.mem_append.mp mem with hmem | hmem
        · obtain rfl := Option.mem_toList.mp hmem
          exact ⟨a, hread⟩
        · exact ih hrest hmem

end Reads

/-- A decoder builds transfers and blocks without an operation. -/
theorem toBlock_quiet (outer : Icrc3.BlockFields) (inner : Icrc3.TxFields) (isTransfer : Bool) :
    (Icrc3.toBlock outer inner isTransfer).panics E subaccounts = false := by
  cases isTransfer <;>
    simp [Block.panics, Block.relevant, Block.isTransfer, Icrc3.toBlock, Operation.isTransfer]

theorem liveBlock_quiet {block : Icrc3Value} {b : Block}
    (h : Icrc3.liveBlock E block = .ok (some b)) : b.panics E subaccounts = false := by
  unfold Icrc3.liveBlock at h
  split at h
  · dsimp only at h
    split at h
    · rename_i txMap htx
      cases hinner : Icrc3.txFields E Icrc3.liveOp (Icrc3.liveTo E) {} txMap with
      | error trap => simp [hinner, bind, Except.bind] at h
      | ok inner =>
        simp only [hinner, bind, Except.bind] at h
        cases h
        exact toBlock_quiet _ _ _
    · cases h
  · cases h

theorem icrc3BlockToBlock_quiet (subaccounts : Subaccounts) {r : Icrc3BlockWithId} {b : Block}
    (h : icrc3BlockToBlock E r = .ok (some b)) : b.panics E subaccounts = false := by
  unfold icrc3BlockToBlock at h
  dsimp only at h
  split at h
  · rename_i txMap htx
    cases hinner : Icrc3.txFields E id (Icrc3.archiveTo E) {} txMap with
    | error trap => simp [hinner, bind, Except.bind] at h
    | ok inner =>
      simp only [hinner, bind, Except.bind] at h
      split at h
      · cases h
      · cases h
        exact toBlock_quiet _ _ _
  · cases h

/-! ## The archive path -/

theorem indexArchivedBlock_isOk_first (t : TokenType) (p : Principal) (index : UInt64)
    (b : Block) : (∃ outcome, indexArchivedBlock E true c t p index b = .ok outcome) ↔
      b.panics E c.listOfSubaccounts = false := by
  unfold indexArchivedBlock
  simp only [Block.panics, Block.relevant, Block.isTransfer]
  cases hoperation : b.transaction.operation with
  | none => simp
  | some operation =>
    simp only [Option.any_some, Bool.not_true, Bool.and_false, Bool.false_eq_true, if_false]
    by_cases hrelevant : subaccountExist E c.listOfSubaccounts operation = true
    · rw [if_pos hrelevant, hrelevant, Bool.true_and, Bool.not_eq_false',
        ← hashOrPlaceholder_isOk E b.transaction hoperation]
      cases hashOrPlaceholder E b.transaction with
      | error trap => simp [bind, Except.bind]
      | ok hash =>
        simp only [bind, Except.bind, Except.ok.injEq, exists_eq', iff_true]
        split <;> exact ⟨_, rfl⟩
    · rw [if_neg hrelevant]
      simp [hrelevant]

theorem indexArchivedBlock_quiet (hashFirst : Bool) (t : TokenType) (p : Principal)
    (index : UInt64) {b : Block} (quiet : b.panics E c.listOfSubaccounts = false) :
    ∃ outcome, indexArchivedBlock E hashFirst c t p index b = .ok outcome := by
  cases hashFirst with
  | true => exact (indexArchivedBlock_isOk_first t p index b).mpr quiet
  | false =>
    obtain ⟨outcome, hfirst⟩ := (indexArchivedBlock_isOk_first t p index b).mpr quiet
    unfold indexArchivedBlock at hfirst ⊢
    cases hoperation : b.transaction.operation with
    | none => exact ⟨_, rfl⟩
    | some operation =>
      simp only [hoperation] at hfirst ⊢
      split
      · rename_i hrelevant
        rw [if_pos hrelevant] at hfirst
        split
        · exact ⟨_, rfl⟩
        · cases hhash : hashOrPlaceholder E b.transaction with
          | error trap => simp [hhash, bind, Except.bind] at hfirst
          | ok hash =>
            simp only [bind, Except.bind]
            split <;> exact ⟨_, rfl⟩
      · exact ⟨_, rfl⟩

/-- What is inserted fits the map exactly if the block is not overlong. -/
theorem inserted_fits {hashFirst : Bool} {t : TokenType} {p : Principal} {index : UInt64}
    {b : Block} {outcome : ArchiveIndexing}
    (h : indexArchivedBlock E hashFirst c t p index b = .ok outcome) :
    (∀ tx, outcome = .inserted tx → tx.Fits) ↔ ¬ Overlong E c t p index b := by
  constructor
  · rintro fits ⟨relevant, free, long⟩
    have hfree : c.transactions.contains index = false := by
      rw [Std.ExtTreeMap.contains_eq_isSome_getElem?, free]
      rfl
    unfold indexArchivedBlock at h
    cases hoperation : b.transaction.operation with
    | none => simp [Block.relevant, hoperation] at relevant
    | some operation =>
      have hexist : subaccountExist E c.listOfSubaccounts operation = true := by
        simpa [Block.relevant, hoperation] using relevant
      cases hhash : hashOrPlaceholder E b.transaction with
      | error trap => simp [Block.tooLong, hhash] at long
      | ok hash =>
        simp only [hoperation, hexist, hfree, hhash, bind, Except.bind, if_true, Bool.false_and,
          Bool.false_eq_true, if_false, Except.ok.injEq] at h
        have hfits := (record_fits index hash).mp (fits _ h.symm)
        simp [Block.tooLong, hhash, hfits] at long
  · rintro short tx rfl
    by_contra hlong
    obtain ⟨relevant, -, free, hash, hhash, rfl⟩ := indexArchivedBlock_inserted E h
    rw [record_fits] at hlong
    exact short ⟨relevant, free, by simp [Block.tooLong, hhash, hlong]⟩

theorem insertArchived_isOk (tx : StoredTransactions) :
    (∃ c', insertArchived c tx = .ok c') ↔ tx.Fits := by
  constructor
  · rintro ⟨c', h⟩
    exact (insertArchived_ok h).1
  · intro fits
    rw [insertArchived, insertTransaction_ok _ _ fits]
    exact ⟨_, rfl⟩

theorem storeIcpBlock_isOk (index : UInt64) (b : IcLedger.Block) :
    (∃ turn, storeIcpBlock E c index (some b) = .ok turn) ↔
      b.toLocal.panics E c.listOfSubaccounts = false ∧
        ¬ Overlong E c .icp (ledgerOrMainnet c) index b.toLocal := by
  rw [← indexArchivedBlock_isOk_first .icp (ledgerOrMainnet c) index]
  unfold storeIcpBlock
  dsimp only
  cases hindexed : indexArchivedBlock E true c .icp (ledgerOrMainnet c) index b.toLocal with
  | error trap => simp [bind, Except.bind]
  | ok outcome =>
    rw [← inserted_fits hindexed]
    cases outcome with
    | inserted tx =>
      simp only [bind, Except.bind, Except.ok.injEq, exists_eq', true_and,
        ArchiveIndexing.inserted.injEq, forall_eq']
      rw [← insertArchived_isOk (c := c) tx]
      cases insertArchived c tx <;> simp
    | _ => simp [bind, Except.bind]

theorem storeIcrc3Block_isOk (t : TokenType) (p : Principal) (index : UInt64)
    (result : Icrc3GetBlocksResult) :
    (∃ turn, storeIcrc3Block E c t p index result = .ok turn) ↔
      (∀ r ∈ result.blocks, Readable recipient r.block) ∧
        ∀ b rest, convertIcrc3 E result.blocks = .ok (b :: rest) → ¬ Overlong E c t p index b := by
  rw [← (archive_reads (E := E)).isOk icrc3BlockToBlock_isOk result.blocks]
  unfold storeIcrc3Block
  cases hread : convertIcrc3 E result.blocks with
  | error trap => simp [bind, Except.bind]
  | ok blocks =>
    cases blocks with
    | nil => simp [bind, Except.bind]
    | cons b rest =>
      obtain ⟨r, hr⟩ := archive_reads.origin hread (.head _)
      obtain ⟨outcome, hindexed⟩ := indexArchivedBlock_quiet false t p index
        (icrc3BlockToBlock_quiet c.listOfSubaccounts hr)
      have hrest : (∀ b' rest', (Except.ok (b :: rest) : Except Trap (List Block)) =
          .ok (b' :: rest') → ¬ Overlong E c t p index b') ↔ ¬ Overlong E c t p index b := by
        refine ⟨fun h => h b rest rfl, fun h b' rest' heq => ?_⟩
        cases heq
        exact h
      rw [hrest, ← inserted_fits hindexed]
      simp only [bind, Except.bind, hindexed, Except.ok.injEq, exists_eq', true_and]
      cases outcome with
      | inserted tx =>
        simp only [ArchiveIndexing.inserted.injEq, forall_eq']
        rw [← insertArchived_isOk (c := c) tx]
        cases insertArchived c tx <;> simp
      | _ => simp

/-! ## Tasks -/

theorem exists_error_iff {ε α : Type} {x : Except ε α} :
    (∃ e, x = .error e) ↔ ¬ ∃ a, x = .ok a := by
  cases x <;> simp

theorem queryTokenLedger_failed (t : TokenType) (p : Principal) (next : UInt64)
    (err : String × String) : ∃ turn, queryTokenLedger E c t p next (.error err) = .ok turn :=
  ⟨_, rfl⟩

/-- The loop panics at a block that is no transfer, or at one that is new and too long. -/
theorem not_quiet {t : TokenType} {p : Principal} {next : UInt64} :
    ¬ Quiet E c.listOfSubaccounts t p c.transactions next blocks ↔
      (∃ b ∈ blocks, b.panics E c.listOfSubaccounts = true) ∨
        ∃ k b, NewAt E c.listOfSubaccounts c.transactions next blocks k b ∧
          b.tooLong E t p = true := by
  constructor
  · intro hloud
    by_contra hnone
    push Not at hnone
    exact hloud ⟨fun b hmem => by simpa using hnone.1 b hmem,
      fun k b new => by simpa using hnone.2 k b new⟩
  · rintro (⟨b, hmem, hpanics⟩ | ⟨k, b, new, long⟩) quiet
    · rw [quiet.transfers b hmem] at hpanics
      cases hpanics
    · rw [quiet.fit k b new] at long
      cases long

/-- Only a ledger that is asked for ICP blocks answers with one that is no transfer. -/
theorem poisons_of_panics {t : TokenType} {p : Principal} {next : UInt64} {reply : LedgerReply}
    {response : QueryBlocksResponse} {b : Block}
    (answers : queryBlocks E p (pollRequest next) reply = .ok (.ok response))
    (mem : b ∈ response.blocks) (panics : b.panics E c.listOfSubaccounts = true) :
    Poisons E c (.poll t p next) (.ledger reply) := by
  unfold queryBlocks at answers
  split at answers
  · cases reply with
    | icrc3GetBlocks result =>
      obtain ⟨blocks, hblocks, h⟩ := bind_eq_ok answers
      cases h
      obtain ⟨r, hr⟩ := live_reads.origin hblocks mem
      rw [liveBlock_quiet hr] at panics
      cases panics
    | _ => cases answers
  · rename_i hlegacy
    cases reply with
    | queryBlocks response' =>
      cases answers
      exact .block (by simpa using hlegacy) ⟨b, mem, panics⟩
    | _ => cases answers

theorem poll_panics (t : TokenType) (p : Principal) (next : UInt64) (reply : LedgerReply) :
    (∃ trap, resumeTask E c (.poll t p next) (.ledger reply) = some (.error trap)) ↔
      Poisons E c (.poll t p next) (.ledger reply) := by
  -- what a poll comes to once its answer is read
  have hread : ∀ answer, queryBlocks E p (pollRequest next) reply = .ok answer →
      ((∃ trap, resumeTask E c (.poll t p next) (.ledger reply) = some (.error trap)) ↔
        ¬ ∃ turn, queryTokenLedger E c t p next answer = .ok turn) := by
    intro answer hanswer
    simp only [resumeTask, hanswer, bind, Except.bind, Option.some.injEq]
    cases queryTokenLedger E c t p next answer <;> simp
  cases hanswer : queryBlocks E p (pollRequest next) reply with
  | error trap =>
    -- only an owner that is too long stops the reading
    unfold queryBlocks at hanswer
    split at hanswer
    · rename_i hicrc3
      cases reply with
      | icrc3GetBlocks result =>
        cases hblocks : Icrc3.liveBlocks E result.blocks with
        | ok blocks => simp [hblocks, bind, Except.bind] at hanswer
        | error trap' =>
          have hlong : ∃ r ∈ result.blocks, ¬ Readable fullRecipient r.block := by
            by_contra hnone
            push Not at hnone
            obtain ⟨blocks, hok⟩ := ((live_reads (E := E)).isOk (fun r => liveBlock_isOk r.block)
              result.blocks).mpr hnone
            rw [hblocks] at hok
            cases hok
          refine iff_of_true ⟨trap', ?_⟩ (.owner hicrc3 hlong)
          simp [resumeTask, queryBlocks, hicrc3, hblocks, bind, Except.bind]
      | _ => cases hanswer
    · cases reply <;> cases hanswer
  | ok answer =>
    rw [hread answer hanswer]
    cases answer with
    | error err =>
      refine iff_of_false (fun h => h (queryTokenLedger_failed _ _ _ _)) fun hpoisons => ?_
      cases hpoisons with
      | block legacy panics => simp [queryBlocks, legacy] at hanswer
      | record answers new long => cases answers.symm.trans hanswer
      | @owner _ _ _ result icrc3 long =>
        cases hblocks : Icrc3.liveBlocks E result.blocks <;>
          simp [queryBlocks, icrc3, hblocks, bind, Except.bind] at hanswer
    | ok response =>
      rw [queryTokenLedger_isOk, not_quiet]
      constructor
      · rintro (⟨b, hmem, hpanics⟩ | ⟨k, b, new, long⟩)
        · exact poisons_of_panics hanswer hmem hpanics
        · exact .record hanswer new long
      · intro hpoisons
        cases hpoisons with
        | block legacy panics =>
          simp only [queryBlocks, legacy, Bool.false_eq_true, if_false, Except.ok.injEq] at hanswer
          subst hanswer
          exact .inl panics
        | record answers new long =>
          cases answers.symm.trans hanswer
          exact .inr ⟨_, _, new, long⟩
        | @owner _ _ _ result icrc3 long =>
          obtain ⟨r, hmem, hlong⟩ := long
          cases hblocks : Icrc3.liveBlocks E result.blocks with
          | error trap => simp [queryBlocks, icrc3, hblocks, bind, Except.bind] at hanswer
          | ok blocks =>
            exact absurd (((live_reads (E := E)).isOk (fun r => liveBlock_isOk r.block)
              result.blocks).mp ⟨blocks, hblocks⟩ r hmem) hlong

theorem storeIcpBlock_panics (index : UInt64) (b : IcLedger.Block) :
    (∃ trap, storeIcpBlock E c index (some b) = .error trap) ↔
      b.toLocal.panics E c.listOfSubaccounts = true ∨
        Overlong E c .icp (ledgerOrMainnet c) index b.toLocal := by
  rw [exists_error_iff, storeIcpBlock_isOk, not_and_or, Bool.not_eq_false, not_not]

theorem storeIcrc3Block_panics (t : TokenType) (p : Principal) (index : UInt64)
    (result : Icrc3GetBlocksResult) :
    (∃ trap, storeIcrc3Block E c t p index result = .error trap) ↔
      (∃ r ∈ result.blocks, ¬ Readable recipient r.block) ∨
        ∃ b rest, convertIcrc3 E result.blocks = .ok (b :: rest) ∧ Overlong E c t p index b := by
  rw [exists_error_iff, storeIcrc3Block_isOk, not_and_or]
  push Not
  rfl

theorem exists_error_map {x : Except Trap ArchiveTurn} :
    (∃ trap, (some x).map (fun result => result.map ArchiveTurn.toTurn) = some (.error trap)) ↔
      ∃ trap, x = .error trap := by
  cases x <;> simp [Except.map]

theorem archive_panics (await : ArchiveAwait) (reply : ArchiveReply) :
    (∃ trap, resumeTask E c (.archive await) (.archive reply) = some (.error trap)) ↔
      Poisons E c (.archive await) (.archive reply) := by
  simp only [resumeTask]
  unfold archiveReply
  split
  · exact iff_of_false (by simp [Except.map]) (by rintro ⟨⟩)
  · rename_i index response
    split
    · rename_i b rest hblocks
      rw [exists_error_map, storeIcpBlock_panics]
      refine ⟨.ledgerBlock hblocks, fun hpoisons => ?_⟩
      cases hpoisons with
      | ledgerBlock blocks panics =>
        cases hblocks.symm.trans blocks
        exact panics
    · rename_i hblocks
      have hnone : ¬ Poisons E c (.archive (.icpLedger index)) (.archive (.icpLedger (.ok response))) := by
        intro hpoisons
        cases hpoisons with
        | ledgerBlock blocks panics => cases hblocks.symm.trans blocks
      split <;> exact iff_of_false (by simp [Except.map, storeIcpBlock]) hnone
  · rename_i index blocks
    cases blocks with
    | nil => exact iff_of_false (by simp [Except.map, storeIcpBlock]) (by rintro ⟨⟩)
    | cons b rest =>
      rw [List.head?_cons, exists_error_map, storeIcpBlock_panics]
      refine ⟨.archivedBlock, fun hpoisons => ?_⟩
      cases hpoisons with
      | archivedBlock panics => exact panics
  · exact iff_of_false (by simp [Except.map]) (by rintro ⟨⟩)
  · exact iff_of_false (by simp [Except.map]) (by rintro ⟨⟩)
  · rename_i t p index result
    cases result with
    | error e => exact iff_of_false (by simp [Except.map]) (by rintro ⟨⟩)
    | ok result =>
      dsimp only
      split
      · rename_i hempty
        have hnone := List.isEmpty_iff.mp hempty
        refine iff_of_false (by simp [Except.map]) fun hpoisons => ?_
        cases hpoisons with
        | ledgerOwner long =>
          obtain ⟨r, hmem, -⟩ := long
          rw [hnone] at hmem
          cases hmem
        | ledgerRecord blocks long =>
          rw [hnone] at blocks
          cases blocks
      · rw [exists_error_map, storeIcrc3Block_panics]
        constructor
        · rintro (long | ⟨b, rest, blocks, long⟩)
          · exact .ledgerOwner long
          · exact .ledgerRecord blocks long
        · intro hpoisons
          cases hpoisons with
          | ledgerOwner long => exact .inl long
          | ledgerRecord blocks long => exact .inr ⟨_, _, blocks, long⟩
  · rename_i result
    refine iff_of_false ?_ (by rintro ⟨⟩)
    repeat' split
    all_goals simp [Except.map]
  · rename_i t p index archive result
    cases result with
    | error e => exact iff_of_false (by simp [Except.map]) (by rintro ⟨⟩)
    | ok result =>
      dsimp only
      rw [exists_error_map, storeIcrc3Block_panics]
      constructor
      · rintro (long | ⟨b, rest, blocks, long⟩)
        · exact .archivedOwner long
        · exact .archivedRecord blocks long
      · intro hpoisons
        cases hpoisons with
        | archivedOwner long => exact .inl long
        | archivedRecord blocks long => exact .inr ⟨_, _, blocks, long⟩
  · rename_i hfirst hsecond hthird hfourth hfifth hsixth hseventh heighth
    refine iff_of_false (by simp) fun hpoisons => ?_
    cases hpoisons with
    | ledgerBlock => exact hsecond _ _ rfl rfl
    | archivedBlock => exact hthird _ _ rfl rfl
    | ledgerOwner | ledgerRecord => exact hsixth _ _ _ _ rfl rfl
    | archivedOwner | archivedRecord => exact heighth _ _ _ _ _ rfl rfl

/-- What makes a task panic. Records that fit are written back without one. -/
theorem resumeTask_panics (fit : ∀ tx ∈ task.pending, tx.Fits) (reply : Reply) :
    (∃ trap, resumeTask E c task reply = some (.error trap)) ↔ Poisons E c task reply := by
  cases task with
  | poll t p next =>
    cases reply with
    | ledger reply => exact poll_panics t p next reply
    | _ => exact iff_of_false (by simp [resumeTask]) (by rintro ⟨⟩)
  | archive await =>
    cases reply with
    | archive reply => exact archive_panics await reply
    | _ => exact iff_of_false (by simp [resumeTask]) (by rintro ⟨⟩)
  | sweep tx rest results =>
    cases reply with
    | transfer result =>
      have hok := sweepReply_ok (E := E) c rest results result (fit tx (by simp [Task.pending]))
      exact iff_of_false (by simp [resumeTask, hok, Except.map]) (by rintro ⟨⟩)
    | _ => exact iff_of_false (by simp [resumeTask]) (by rintro ⟨⟩)
  | refund tx =>
    cases reply with
    | transfer result =>
      have hok := refundReply_ok c fun _ (_ : result = _) => fit tx (by simp [Task.pending])
      exact iff_of_false (by simp [resumeTask, hok, Except.map]) (by rintro ⟨⟩)
    | _ => exact iff_of_false (by simp [resumeTask]) (by rintro ⟨⟩)
  | webhook | sweepSubaccount | setCustodian | finished | trapped =>
    cases reply <;> exact iff_of_false (by simp [resumeTask]) (by rintro ⟨⟩)

/-! ## Steps -/

theorem refund_isOk (transfers : ∀ (k : UInt64) tx, c.transactions[k]? = some tx → IsTransfer tx)
    (index : UInt64) : ∃ turn, refund E c index = .ok turn := by
  unfold refund
  split
  · exact ⟨_, rfl⟩
  · rename_i tx hheld
    obtain ⟨data, hoperation⟩ := transfers index tx hheld
    simp only [toRefundArgs, hoperation, bind, Except.bind]
    repeat' split
    all_goals exact ⟨_, rfl⟩

theorem runMethod_isOk (wellFormed : c.WellFormed E) (caller : Principal) (method : Method) :
    ∃ turn, runMethod E c caller method = .ok turn := by
  cases method with
  | refund index => exact isOk_map.mpr (refund_isOk wellFormed.transfers index)
  | setSweepFailed txHashArg =>
    rcases setSweepFailedTxs_isOk c.transactions [] (hashSelection c txHashArg) with
      ⟨-, lines, hok⟩ | ⟨⟨tx, hmem, hlong⟩, -⟩
    · simp only [runMethod, hok, bind, Except.bind, Except.ok.injEq, exists_eq']
    · exact absurd (wellFormed.fits _ tx ((wellFormed.keyed.storedWhere _).held tx hmem)) hlong
  | _ => exact ⟨_, rfl⟩

/-- The events of a method call are no panics. -/
theorem Ran.not_trapped {method : Method} {turn : Turn} (keyed : Keyed c.transactions)
    (h : Ran E c method turn) (trap : Trap) : .trapped trap ∉ turn.events := by
  intro mem
  cases h with
  | @sweep _ txs selects =>
    obtain ⟨tx, call, heq, -⟩ := Custody.SweepRun.pays (sweepTxs_run c [] txs) mem
    cases heq
  | refund refunds => cases refunds <;> simp [RefundTurn.toTurn] at mem
  | clear =>
    obtain ⟨tx, heq, -⟩ := clearTransactions_events keyed mem
    cases heq
  | fail =>
    obtain ⟨tx, -, previous, heq⟩ := failedRecorded_events _ _ _ mem
    cases heq
  | archive | setCustodian | done => cases mem
  | sweepSubaccount => cases List.mem_singleton.mp mem

variable {σ σ' : System} {i : Input} {os : List Event}

end SubaccountIndexer.Panics
