import SubaccountIndexer.Storable
import SubaccountIndexer.Lib.CandidCode

/-! The encodings of the two forms of a record as one prefix code: bytes that start with the
encoding of a record of one form start with that of no other record, of either form. -/

namespace SubaccountIndexer

open Lib Lib.Candid

/-- The form of a record before tokens other than ICP -/
structure StoredTransactionsV1 where
  index : UInt64
  memo : UInt64
  icrc1Memo : Option Blob
  operation : Option Operation
  createdAtTime : Timestamp
  sweepStatus : SweepStatus
  txHash : String
deriving DecidableEq

instance : CandidType StoredTransactionsV1 := ⟨.record [
  .of "index" StoredTransactionsV1.index,
  .of "memo" StoredTransactionsV1.memo,
  .of "icrc1_memo" StoredTransactionsV1.icrc1Memo,
  .of "operation" StoredTransactionsV1.operation,
  .of "created_at_time" StoredTransactionsV1.createdAtTime,
  .of "sweep_status" StoredTransactionsV1.sweepStatus,
  .of "tx_hash" StoredTransactionsV1.txHash]⟩

def StoredTransactionsV1.toBytes (tx : StoredTransactionsV1) : Blob := encodeOne tx

/-- `StoredTransactionsV2::from` -/
def StoredTransactions.ofV1 (v1 : StoredTransactionsV1) : StoredTransactions where
  index := v1.index
  memo := v1.memo
  icrc1Memo := v1.icrc1Memo
  operation := v1.operation
  createdAtTime := v1.createdAtTime
  sweepStatus := v1.sweepStatus
  txHash := v1.txHash
  tokenType := .icp
  tokenLedgerCanisterId := none

/-! ## The parts of a record -/

instance : PrefixCoded Principal :=
  ⟨prefixCode_principal fun p q h => by cases p; cases q; simpa using h⟩

instance : PrefixCoded Timestamp :=
  ⟨prefixCode_record (by simp) fun a b h => by cases a; cases b; simpa using h⟩

instance : PrefixCoded E8s :=
  ⟨prefixCode_record (by simp) fun a b h => by cases a; cases b; simpa using h⟩

instance : PrefixCoded Approve :=
  ⟨prefixCode_record (by simp) fun a b h => by cases a; cases b; simpa using h⟩

instance : PrefixCoded Burn :=
  ⟨prefixCode_record (by simp) fun a b h => by cases a; cases b; simpa using h⟩

instance : PrefixCoded Mint :=
  ⟨prefixCode_record (by simp) fun a b h => by cases a; cases b; simpa using h⟩

instance : PrefixCoded Transfer :=
  ⟨prefixCode_record (by simp) fun a b h => by cases a; cases b; simpa using h⟩

instance : PrefixCoded Operation where
  code := by
    refine prefixCode_variant (by simp) (fun a => by cases a <;> simp) ?_
    simp only [List.forall_mem_cons, List.not_mem_nil, false_implies, implies_true, and_true]
    refine ⟨?_, ?_, ?_, ?_⟩
    · exact Case.determines_of Operation.approve fun a x h => by cases a <;> cases h; rfl
    · exact Case.determines_of Operation.burn fun a x h => by cases a <;> cases h; rfl
    · exact Case.determines_of Operation.mint fun a x h => by cases a <;> cases h; rfl
    · exact Case.determines_of Operation.transfer fun a x h => by cases a <;> cases h; rfl

instance : PrefixCoded SweepStatus :=
  ⟨prefixCode_variant (by simp) (fun a => by cases a <;> simp) (by simp)⟩

instance : PrefixCoded TokenType :=
  ⟨prefixCode_variant (by simp) (fun a => by cases a <;> simp) (by simp)⟩

/-! ## Records -/

instance : PrefixCoded StoredTransactionsV1 :=
  ⟨prefixCode_record (by simp) fun a b h => by cases a; cases b; simpa using h⟩

instance : PrefixCoded StoredTransactions :=
  ⟨prefixCode_record (by simp) fun a b h => by cases a; cases b; simpa using h⟩

/-- The bytes under a key of the map, which was filled with records of both forms -/
def storedBytes : StoredTransactionsV1 ⊕ StoredTransactions → Blob
  | .inl tx => tx.toBytes
  | .inr tx => tx.toBytes

/-- The two forms already differ in the number of composite types. -/
theorem forms_apart (tx : StoredTransactionsV1) (tx' : StoredTransactions) (r s : Blob) :
    tx.toBytes ++ r ≠ tx'.toBytes ++ s := by
  intro heq
  have hstart : ∀ {α : Type} [CandidType α] (a : α) (rest : Blob),
      5 ≤ (header (encoding (α := α)).ty).length →
      (encodeOne a ++ rest).take 5 = (header (encoding (α := α)).ty).take 5 := by
    intro α _ a rest hlength
    rw [encodeOne, List.append_assoc, List.take_append_of_le_length hlength]
  have hheaders := congrArg (List.take 5) heq
  rw [StoredTransactionsV1.toBytes, StoredTransactions.toBytes, hstart tx r (by decide +kernel),
    hstart tx' s (by decide +kernel)] at hheaders
  exact absurd hheaders (by decide +kernel)

/-- Bytes start with the encodings of two records only if these are one record in one form. -/
theorem storedBytes_determine (a b : StoredTransactionsV1 ⊕ StoredTransactions) (r s : Blob) :
    storedBytes a ++ r = storedBytes b ++ s ↔ a = b ∧ r = s := by
  constructor
  · intro heq
    cases a with
    | inl tx =>
      cases b with
      | inl tx' =>
        obtain ⟨rfl, hend⟩ := prefixCode_encodeOne.read heq
        exact ⟨rfl, hend⟩
      | inr tx' => exact absurd heq (forms_apart tx tx' r s)
    | inr tx =>
      cases b with
      | inl tx' => exact absurd heq.symm (forms_apart tx' tx s r)
      | inr tx' =>
        obtain ⟨rfl, hend⟩ := prefixCode_encodeOne.read heq
        exact ⟨rfl, hend⟩
  · rintro ⟨rfl, rfl⟩
    rfl

end SubaccountIndexer
