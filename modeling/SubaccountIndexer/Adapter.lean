import SubaccountIndexer.Poll
import SubaccountIndexer.Lib.LastWrite
import Mathlib.Data.List.ReduceOption
import Mathlib.Data.List.Forall2

/-! Positions in the response that `query_blocks` makes of an ICRC-3 reply. The polls count them
to number the blocks; so no block may be dropped and the first must be the one asked for. -/

namespace SubaccountIndexer.Adapter
open Lib (lastOf)

variable (E : Externals)

/-- The value an entry has, if it is an entry of this key -/
def valueAt (key : String) (entry : String × Icrc3Value) : Option Icrc3Value :=
  if entry.1 = key then some entry.2 else none

/-- The block is a map whose last `tx` entry is a map. -/
def HasTxMap (block : Icrc3Value) : Prop :=
  ∃ fields txMap, block = .map fields ∧ lastOf (valueAt "tx") fields = some (.map txMap)

/-- The ids count up from `first`. -/
def Consecutive (first : Nat) (received : List Icrc3BlockWithId) : Prop :=
  received.map Icrc3BlockWithId.id = List.range' first received.length

/-- No block is lost, and each sits where the response's first index says. -/
structure KeepsPositions (received : List Icrc3BlockWithId) (response : QueryBlocksResponse) :
    Prop where
  length_eq : response.blocks.length = received.length
  converted : ∀ (k : Nat) (b : Block), response.blocks[k]? = some b →
    ∃ r ∈ received, r.id = response.firstBlockIndex.toNat + k ∧
      Icrc3.liveBlock E r.block = .ok (some b)

variable {E} {received : List Icrc3BlockWithId} {blocks : List Block}

/-! ## One block -/

theorem blockFields_tx (fields : List (String × Icrc3Value)) :
    (fields.foldl Icrc3.blockField {}).tx = lastOf (valueAt "tx") fields := by
  have hsets : ∀ (acc : Icrc3.BlockFields) (entry : String × Icrc3Value),
      (Icrc3.blockField acc entry).tx = ((valueAt "tx" entry).map some).getD acc.tx := by
    intro acc entry
    by_cases hkey : entry.1 = "tx"
    · obtain ⟨key, value⟩ := entry
      obtain rfl : key = "tx" := hkey
      rfl
    · have hother : valueAt "tx" entry = none := if_neg hkey
      rw [hother]
      exact Icrc3.blockField_tx hkey
  rw [Lib.foldl_field Icrc3.BlockFields.tx hsets, Lib.lastOf_map]
  cases lastOf (valueAt "tx") fields <;> rfl

theorem liveBlock_isSome {block : Icrc3Value} {read : Option Block}
    (h : Icrc3.liveBlock E block = .ok read) : read.isSome = true ↔ HasTxMap block := by
  unfold Icrc3.liveBlock at h
  split at h
  · rename_i fields
    simp only [blockFields_tx] at h
    split at h
    · rename_i txMap htx
      cases hinner : Icrc3.txFields E Icrc3.liveOp (Icrc3.liveTo E) {} txMap with
      | error trap => simp [hinner, bind, Except.bind] at h
      | ok inner =>
        simp only [hinner, bind, Except.bind] at h
        cases h
        exact iff_of_true rfl ⟨fields, txMap, rfl, htx⟩
    · rename_i hother
      cases h
      refine iff_of_false (by simp) ?_
      rintro ⟨fields', txMap, heq, htx⟩
      cases heq
      exact hother txMap htx
  · rename_i hother
    cases h
    refine iff_of_false (by simp) ?_
    rintro ⟨fields, txMap, heq, -⟩
    exact hother fields heq

/-! ## The loop over the reply -/

/-- The loop keeps what each block is read as, and drops those read as nothing. -/
theorem liveBlocks_reads (h : Icrc3.liveBlocks E received = .ok blocks) :
    ∃ reads, List.Forall₂ (fun r read => Icrc3.liveBlock E r.block = .ok read) received reads ∧
      blocks = reads.reduceOption := by
  induction received generalizing blocks with
  | nil =>
    cases h
    exact ⟨[], .nil, rfl⟩
  | cons r rest ih =>
    simp only [Icrc3.liveBlocks] at h
    cases hread : Icrc3.liveBlock E r.block with
    | error trap => simp [hread, bind, Except.bind] at h
    | ok read =>
      cases hrest : Icrc3.liveBlocks E rest with
      | error trap => simp [hread, hrest, bind, Except.bind] at h
      | ok later =>
        simp only [hread, hrest, bind, Except.bind] at h
        cases h
        obtain ⟨reads, hreads, rfl⟩ := ih hrest
        refine ⟨read :: reads, .cons hread hreads, ?_⟩
        cases read with
        | none => rw [List.reduceOption_cons_of_none]; rfl
        | some b => rw [List.reduceOption_cons_of_some]; rfl

theorem forall₂_isSome {reads : List (Option Block)}
    (h : List.Forall₂ (fun r read => Icrc3.liveBlock E r.block = .ok read) received reads) :
    (∀ read ∈ reads, read.isSome = true) ↔ ∀ r ∈ received, HasTxMap r.block := by
  induction h with
  | nil => simp
  | cons hread _ ih => rw [List.forall_mem_cons, List.forall_mem_cons, ih, liveBlock_isSome hread]

/-- If nothing was dropped, block `k` of the response is the conversion of block `k` received. -/
theorem converted_of_complete {reads : List (Option Block)}
    (h : List.Forall₂ (fun r read => Icrc3.liveBlock E r.block = .ok read) received reads)
    (complete : ∀ read ∈ reads, read.isSome = true) :
    List.Forall₂ (fun r b => Icrc3.liveBlock E r.block = .ok (some b)) received
      reads.reduceOption := by
  induction h with
  | nil => exact .nil
  | @cons r read _ _ hread _ ih =>
    rw [List.forall_mem_cons] at complete
    obtain ⟨b, rfl⟩ := Option.isSome_iff_exists.mp complete.1
    rw [List.reduceOption_cons_of_some]
    exact .cons hread (ih complete.2)

/-! ## The response -/

theorem consecutive_id {first k : Nat} {r : Icrc3BlockWithId} (ids : Consecutive first received)
    (h : received[k]? = some r) : r.id = first + k := by
  have hid := congrArg (·[k]?) ids
  have hk := (List.getElem?_eq_some_iff.mp h).1
  simpa [h, List.getElem?_range' hk] using hid

/-- The response to a request keeps the positions of the blocks received if and only if each of
them has a `tx` map, and they start where the request does. -/
theorem keepsPositions_iff {ledger : Principal} {req : QueryBlocksRequest}
    {result : Icrc3GetBlocksResult} {response : QueryBlocksResponse} {first : Nat}
    (icrc3 : usesIcrc3 ledger = true)
    (built : queryBlocks E ledger req (.icrc3GetBlocks result) = .ok (.ok response))
    (ids : Consecutive first result.blocks) (after : req.start.toNat ≤ first) :
    KeepsPositions E result.blocks response ↔
      (∀ r ∈ result.blocks, HasTxMap r.block) ∧
        (result.blocks = [] ∨ first = req.start.toNat) := by
  simp only [queryBlocks, icrc3, if_true] at built
  cases hblocks : Icrc3.liveBlocks E result.blocks with
  | error trap => simp [hblocks, bind, Except.bind] at built
  | ok blocks =>
    simp only [hblocks, bind, Except.bind, Except.ok.injEq] at built
    obtain ⟨reads, hreads, hkept⟩ := liveBlocks_reads hblocks
    have hlength : response.blocks.length = result.blocks.length ↔
        ∀ r ∈ result.blocks, HasTxMap r.block := by
      rw [← forall₂_isSome hreads, ← List.reduceOption_length_eq_iff, ← hreads.length_eq, ← hkept,
        ← built]
    constructor
    · intro keeps
      refine ⟨hlength.mp keeps.length_eq, ?_⟩
      by_cases hempty : result.blocks = []
      · exact .inl hempty
      · right
        have hpos : 0 < response.blocks.length := by
          rw [keeps.length_eq]
          exact List.length_pos_iff.mpr hempty
        obtain ⟨r, hr, hid, -⟩ := keeps.converted 0 _ (List.getElem?_eq_getElem hpos)
        obtain ⟨j, hj⟩ := List.mem_iff_getElem?.mp hr
        rw [consecutive_id ids hj, ← built] at hid
        dsimp only at hid
        omega
    · rintro ⟨hshaped, hstart⟩
      refine ⟨hlength.mpr hshaped, fun k b hb => ?_⟩
      have hconverted := converted_of_complete hreads ((forall₂_isSome hreads).mpr hshaped)
      rw [← hkept, show blocks = response.blocks by rw [← built]] at hconverted
      obtain ⟨hk, rfl⟩ := List.getElem?_eq_some_iff.mp hb
      have hk' : k < result.blocks.length := hconverted.length_eq ▸ hk
      refine ⟨result.blocks[k], List.getElem_mem hk', ?_, hconverted.get hk' hk⟩
      rw [consecutive_id ids (List.getElem?_eq_getElem hk'), ← built]
      rcases hstart with hempty | hfirst
      · simp [hempty] at hk'
      · rw [hfirst]

open Examples

/-- A reply of the ckUSDC ledger whose first block is `first` -/
def replyFrom (first : Nat) (values : List Icrc3Value) : Icrc3GetBlocksResult where
  logLength := first + values.length
  blocks := values.mapIdx fun k block => ⟨first + k, block⟩

/-- The response to a request from block 1 that holds the conversion of one deposit -/
def convertedDeposit (logLength : UInt64) : QueryBlocksResponse where
  certificate := none
  blocks := [deposit]
  chainLength := logLength
  firstBlockIndex := 1
  archivedBlocks := []

theorem keepsPositions_deposit :
    KeepsPositions externals (replyFrom 1 [icrc3Deposit icrc3Recipient]).blocks
      (convertedDeposit 2) := by
  have hicrc3 : usesIcrc3 CKUSDC_LEDGER_CANISTER_ID = true := by decide
  have hbuilt : queryBlocks externals CKUSDC_LEDGER_CANISTER_ID ⟨1, 100⟩
      (.icrc3GetBlocks (replyFrom 1 [icrc3Deposit icrc3Recipient])) =
        .ok (.ok (convertedDeposit 2)) := rfl
  have hids : Consecutive 1 (replyFrom 1 [icrc3Deposit icrc3Recipient]).blocks := rfl
  refine (keepsPositions_iff hicrc3 hbuilt hids (by decide)).mpr ⟨?_, .inr rfl⟩
  intro r hr
  obtain rfl := List.mem_singleton.mp hr
  exact ⟨_, _, rfl, rfl⟩

/-- Blocks 1 to 50 are archived: the ledger answers with block 51, and the response has it as
block 1. -/
theorem archived_prefix_shifts :
    usesIcrc3 CKUSDC_LEDGER_CANISTER_ID = true ∧
      queryBlocks externals CKUSDC_LEDGER_CANISTER_ID ⟨1, 100⟩
        (.icrc3GetBlocks (replyFrom 51 [icrc3Deposit icrc3Recipient])) =
          .ok (.ok (convertedDeposit 52)) ∧
      Consecutive 51 (replyFrom 51 [icrc3Deposit icrc3Recipient]).blocks ∧
      (1 : UInt64).toNat ≤ 51 ∧
      ¬ KeepsPositions externals (replyFrom 51 [icrc3Deposit icrc3Recipient]).blocks
        (convertedDeposit 52) := by
  refine ⟨by decide, rfl, rfl, by decide, fun keeps => ?_⟩
  obtain ⟨r, hr, hid, -⟩ := keeps.converted 0 deposit rfl
  obtain rfl := List.mem_singleton.mp hr
  cases hid

end SubaccountIndexer.Adapter
