import SubaccountIndexer.Decoders
import SubaccountIndexer.Sweep

/-! What `icrc3_block_to_block` reads off a transfer. The map entries may stand in any order;
the recipient is read with its subaccount, the sender without, and an amount that is no `u64`
is read as 0. -/

namespace SubaccountIndexer.TransferDecoding
open Lib (lastOf)
open Adapter (valueAt blockFields_tx)
open Decoders

variable (E : Externals)

/-- How a ledger writes an account down -/
inductive Writes : Principal → Subaccount → List Icrc3Value → Prop
  | owner {p : Principal} : Writes p DEFAULT_SUBACCOUNT [.blob p.bytes]
  | ownerSubaccount {p : Principal} {s : Subaccount} : Writes p s [.blob p.bytes, .blob s.toList]

/-- A block in which `n` tokens go from one account to another; the entries of its maps have
different keys. -/
inductive Transfers (p₁ : Principal) (s₁ : Subaccount) (p₂ : Principal) (s₂ : Subaccount)
    (n : Nat) : Icrc3Value → Prop
  | block {fields txMap : List Entry} {sender recipient : List Icrc3Value}
      (unique : (fields.map Prod.fst).Nodup) (tx : ("tx", .map txMap) ∈ fields)
      (txUnique : (txMap.map Prod.fst).Nodup) (op : ("op", .text "xfer") ∈ txMap)
      («from» : ("from", .array sender) ∈ txMap) («to» : ("to", .array recipient) ∈ txMap)
      (amt : ("amt", .nat n) ∈ txMap) (senderWritten : Writes p₁ s₁ sender)
      (recipientWritten : Writes p₂ s₂ recipient) : Transfers p₁ s₁ p₂ s₂ n (.map fields)

/-- The transfer is decoded as it is: both accounts and the amount. An amount for which there is
no room is not replaced by another one. -/
def Faithful (p₁ : Principal) (s₁ : Subaccount) (p₂ : Principal) (s₂ : Subaccount) (n : Nat)
    (block : Icrc3BlockWithId) : Prop :=
  (n < 2 ^ 64 → ∃ (b : Block) (data : Transfer), icrc3BlockToBlock E block = .ok (some b) ∧
      b.transaction.operation = some (.transfer data) ∧
      data.from = (E.accountIdentifier p₁ s₁).toList ∧
      data.to = (E.accountIdentifier p₂ s₂).toList ∧ data.amount.e8s.toNat = n) ∧
    (2 ^ 64 ≤ n → ∀ (b : Block) (data : Transfer), icrc3BlockToBlock E block = .ok (some b) →
      b.transaction.operation = some (.transfer data) → data.amount.e8s.toNat = n)

variable {E} {readOp : String → String} {readTo : List Icrc3Value → Except Trap (Option Blob)}
  {acc next : Icrc3.TxFields} {entry : Entry} {p₁ p₂ : Principal} {s₁ s₂ : Subaccount} {n : Nat}
  {block : Icrc3BlockWithId}

/-! ## One turn of the loop -/

/-- The number of an `amt` entry -/
def amountOf : Entry → Option Nat
  | ("amt", .nat n) => some n
  | _ => none

theorem senderOf_other {entry : Entry} (h : entry.1 ≠ "from") : senderOf entry = none := by
  unfold senderOf
  split
  · exact absurd rfl h
  · rfl

theorem amountOf_other {entry : Entry} (h : entry.1 ≠ "amt") : amountOf entry = none := by
  unfold amountOf
  split
  · exact absurd rfl h
  · rfl

/-- A turn that leaves every accumulator as it is has read no sender. -/
theorem senderOf_skipped (skipped : ∀ acc, Icrc3.txField E readOp readTo acc entry = .ok acc) :
    senderOf entry = none := by
  unfold senderOf
  split
  · rename_i owner rest
    have hread := skipped {}
    cases hnamed : Icrc3.accountBytes E owner DEFAULT_SUBACCOUNT with
    | error trap => simp [Icrc3.txField, hnamed, bind, Except.bind] at hread
    | ok bytes =>
      simp only [Icrc3.txField, hnamed, bind, Except.bind, Except.ok.injEq] at hread
      have hempty : bytes = [] := congrArg Icrc3.TxFields.fromBytes hread
      exact absurd (hempty ▸ hnamed) (account_ne_nil (owner, DEFAULT_SUBACCOUNT))
  · rfl

theorem amountOf_skipped (skipped : ∀ acc, Icrc3.txField E readOp readTo acc entry = .ok acc) :
    amountOf entry = none := by
  unfold amountOf
  split
  · rename_i n
    have hread := skipped { amount := Icrc3.toU64OrZero n + 1 }
    have hsame : Icrc3.toU64OrZero n = Icrc3.toU64OrZero n + 1 :=
      congrArg Icrc3.TxFields.amount (Except.ok.inj hread)
    simp at hsame
  · rfl

theorem txField_from (h : Icrc3.txField E readOp readTo acc entry = .ok next) :
    (.ok next.fromBytes : Except Trap Blob) = ((senderOf entry).map fun owner =>
      account E (owner, DEFAULT_SUBACCOUNT)).getD (.ok acc.fromBytes) := by
  cases txField_turn h with
  | sender named => exact named.symm
  | other _ _ skipped =>
    rw [senderOf_skipped (skipped readOp readTo)]
    rfl
  | _ => rfl

theorem txField_amount (h : Icrc3.txField E readOp readTo acc entry = .ok next) :
    next.amount = ((amountOf entry).map Icrc3.toU64OrZero).getD acc.amount := by
  cases txField_turn h with
  | other _ _ skipped =>
    rw [amountOf_skipped (skipped readOp readTo)]
    rfl
  | _ => rfl

/-! ## The loop -/

theorem txFields_from {txMap : List Entry}
    (h : Icrc3.txFields E readOp readTo acc txMap = .ok next) :
    (.ok next.fromBytes : Except Trap Blob) = ((lastOf senderOf txMap).map fun owner =>
      account E (owner, DEFAULT_SUBACCOUNT)).getD (.ok acc.fromBytes) := by
  rw [txFields_eq_foldlM] at h
  rw [← Lib.lastOf_map]
  exact Lib.foldlM_field (fun acc => (.ok acc.fromBytes : Except Trap Blob))
    (Icrc3.txField E readOp readTo) (fun _ _ _ => txField_from) h

theorem txFields_amount {txMap : List Entry}
    (h : Icrc3.txFields E readOp readTo acc txMap = .ok next) :
    next.amount = ((lastOf amountOf txMap).map Icrc3.toU64OrZero).getD acc.amount := by
  rw [txFields_eq_foldlM] at h
  rw [← Lib.lastOf_map]
  exact Lib.foldlM_field Icrc3.TxFields.amount (Icrc3.txField E readOp readTo)
    (fun _ _ _ => txField_amount) h

/-! ## The transfer -/

theorem senderOf_writes {sender : List Icrc3Value} (h : Writes p₁ s₁ sender) :
    senderOf ("from", .array sender) = some p₁.bytes := by
  cases h <;> rfl

theorem recipient_writes {values : List Icrc3Value} (h : Writes p₂ s₂ values) :
    recipient values = some (p₂.bytes, s₂) := by
  cases h with
  | owner => rfl
  | ownerSubaccount =>
    have hsubaccount : Icrc3.subaccountOfBlob s₂.toList = s₂ := by
      simp [Icrc3.subaccountOfBlob, s₂.length_eq]
    rw [recipient, hsubaccount]

theorem account_bytes (p : Principal) (s : Subaccount) :
    account E (p.bytes, s) = .ok (E.accountIdentifier p s).toList := by
  simp [account, Icrc3.accountBytes, Principal.fromSlice_bytes, Except.map]

theorem toU64OrZero_toNat (n : Nat) :
    (Icrc3.toU64OrZero n).toNat = if n < 2 ^ 64 then n else 0 := by
  unfold Icrc3.toU64OrZero
  split
  · rename_i h
    exact UInt64.toNat_ofNat_of_lt' h
  · rfl

/-- Where `from` and `to` name accounts, no entry of the map makes the loop trap. -/
theorem entries_fit {txMap : List Entry} {sender values : List Icrc3Value}
    (unique : (txMap.map Prod.fst).Nodup) («from» : ("from", .array sender) ∈ txMap)
    («to» : ("to", .array values) ∈ txMap) (senderWritten : Writes p₁ s₁ sender)
    (recipientWritten : Writes p₂ s₂ values) : ∀ entry ∈ txMap, Fits recipient entry := by
  intro entry hentry
  constructor
  · intro owner howner
    have hkey : entry.1 = "from" := by
      by_contra hne
      rw [senderOf_other hne] at howner
      cases howner
    obtain rfl := List.inj_on_of_nodup_map unique hentry «from» hkey
    rw [senderOf_writes senderWritten] at howner
    exact Option.some.inj howner ▸ p₁.length_le
  · intro named hnamed
    have hkey : entry.1 = "to" := by
      by_contra hne
      rw [toArray_other hne] at hnamed
      cases hnamed
    obtain rfl := List.inj_on_of_nodup_map unique hentry «to» hkey
    have hread : recipient values = some named := hnamed
    rw [recipient_writes recipientWritten] at hread
    exact Option.some.inj hread ▸ p₂.length_le

/-- What is decoded of a transfer: the sender is taken for the default account of its owner. -/
theorem transfer_read {value : Icrc3Value} (transfers : Transfers p₁ s₁ p₂ s₂ n value)
    (blockId : Nat) :
    ∃ (b : Block) (data : Transfer), icrc3BlockToBlock E ⟨blockId, value⟩ = .ok (some b) ∧
      b.transaction.operation = some (.transfer data) ∧
      data.from = (E.accountIdentifier p₁ DEFAULT_SUBACCOUNT).toList ∧
      data.to = (E.accountIdentifier p₂ s₂).toList ∧
      data.amount.e8s = Icrc3.toU64OrZero n := by
  cases transfers with
  | @block fields txMap sender values unique tx txUnique op «from» «to» amt senderWritten
      recipientWritten =>
    have htx : lastOf (valueAt "tx") fields = some (.map txMap) :=
      (Lib.lastOf_unique unique tx fun _ hne => if_neg hne).trans rfl
    have hdecoded : ∃ inner, Icrc3.txFields E id (readVia E recipient) {} txMap = .ok inner :=
      txFields_isOk.mpr (entries_fit txUnique «from» «to» senderWritten recipientWritten)
    obtain ⟨inner, hinner⟩ := hdecoded
    have hop : inner.op = "xfer" := by
      rw [txFields_op hinner, Lib.lastOf_unique txUnique op fun _ => opText_other]
      rfl
    have hfrom := txFields_from hinner
    rw [Lib.lastOf_unique txUnique «from» fun _ => senderOf_other, senderOf_writes senderWritten,
      Option.map_some, Option.getD_some, account_bytes] at hfrom
    have hto := txFields_to hinner
    rw [lastRecipient, Lib.lastOf_unique txUnique «to» fun _ hne => by rw [toArray_other hne]; rfl]
      at hto
    have hamount := txFields_amount hinner
    rw [Lib.lastOf_unique txUnique amt fun _ => amountOf_other] at hamount
    refine ⟨Icrc3.toBlock (fields.foldl Icrc3.blockField {}) inner true, _, ?_, rfl,
      Except.ok.inj hfrom, ?_, hamount⟩
    · rw [archive_eq rfl htx, hinner]
      simp [Except.map, hop]
    · have hread : ((toArray ("to", .array values)).bind recipient) = some (p₂.bytes, s₂) :=
        recipient_writes recipientWritten
      rw [hread, Option.map_some, Option.getD_some, account_bytes] at hto
      exact Except.ok.inj hto

/-- A refund of the decoded transfer goes to the default account of the sender's owner. -/
theorem refund_to {b : Block} {tx : StoredTransactions} {c : Canister} {args : TransferArgs}
    {ledger : Principal} {value : Icrc3Value} {blockId : Nat}
    (transfers : Transfers p₁ s₁ p₂ s₂ n value)
    (decoded : icrc3BlockToBlock E ⟨blockId, value⟩ = .ok (some b))
    (stored : tx.operation = b.transaction.operation)
    (refunds : toRefundArgs E c tx = .ok (.ok (args, ledger))) :
    args.to = E.accountIdentifier p₁ DEFAULT_SUBACCOUNT := by
  obtain ⟨b', data, hread, hop, hfrom, -⟩ := transfer_read (E := E) transfers blockId
  rw [decoded] at hread
  cases hread
  rw [hop] at stored
  unfold toRefundArgs at refunds
  simp only [stored, hfrom, E.accountFromSlice_canonical] at refunds
  cases hsource : sourceSubaccount E c "to_subaccount" data.to with
  | error e => simp [hsource, bind, Except.bind] at refunds
  | ok source =>
    simp only [hsource, bind, Except.bind, Except.ok.injEq, Prod.mk.injEq] at refunds
    rw [← refunds.1]

theorem faithful_iff {value : Icrc3Value} (transfers : Transfers p₁ s₁ p₂ s₂ n value)
    (blockId : Nat) : Faithful E p₁ s₁ p₂ s₂ n ⟨blockId, value⟩ ↔
      n < 2 ^ 64 ∧ E.accountIdentifier p₁ s₁ = E.accountIdentifier p₁ DEFAULT_SUBACCOUNT := by
  obtain ⟨b, data, hread, hop, hfrom, hto, hamount⟩ := transfer_read (E := E) transfers blockId
  have hnumber : data.amount.e8s.toNat = if n < 2 ^ 64 then n else 0 := by
    rw [hamount, toU64OrZero_toNat]
  constructor
  · intro faithful
    have hsmall : n < 2 ^ 64 := by
      by_contra hlarge
      have hzero := faithful.2 (by omega) b data hread hop
      rw [hnumber, if_neg hlarge] at hzero
      omega
    obtain ⟨b', data', hread', hop', hfrom', -⟩ := faithful.1 hsmall
    rw [hread] at hread'
    cases hread'
    rw [hop] at hop'
    cases hop'
    exact ⟨hsmall, Bytes32.toList_injective (hfrom'.symm.trans hfrom)⟩
  · intro ⟨hsmall, hsame⟩
    refine ⟨fun _ => ?_, fun hlarge => ?_⟩
    · rw [← hsame] at hfrom
      exact ⟨b, data, hread, hop, hfrom, hto, by rw [hnumber, if_pos hsmall]⟩
    · omega

/-- A transfer is decoded as it is if and only if its amount is a `u64` and the sender's account
is, by its identifier, the default one of its owner. A refund goes to the account that paid if
and only if the latter holds. -/
theorem transfer_faithful {value : Icrc3Value} (transfers : Transfers p₁ s₁ p₂ s₂ n value)
    (blockId : Nat) :
    (Faithful E p₁ s₁ p₂ s₂ n ⟨blockId, value⟩ ↔
        n < 2 ^ 64 ∧ E.accountIdentifier p₁ s₁ = E.accountIdentifier p₁ DEFAULT_SUBACCOUNT) ∧
      ∀ (b : Block) (tx : StoredTransactions) (c : Canister) (args : TransferArgs)
        (ledger : Principal), icrc3BlockToBlock E ⟨blockId, value⟩ = .ok (some b) →
        tx.operation = b.transaction.operation → toRefundArgs E c tx = .ok (.ok (args, ledger)) →
          (args.to = E.accountIdentifier p₁ s₁ ↔
            E.accountIdentifier p₁ s₁ = E.accountIdentifier p₁ DEFAULT_SUBACCOUNT) := by
  refine ⟨faithful_iff transfers blockId, fun b tx c args ledger decoded stored refunds => ?_⟩
  rw [refund_to transfers decoded stored refunds]
  exact eq_comm

/-! Transfers to subaccount 1 of the example canister: from the default account of the payer, and
from the payer's subaccount 1, of an amount that is no `u64` -/

open Examples

/-- The identifier of the payer's subaccount 1 -/
def payerAccount1 : AccountIdentifier :=
  ⟨[53, 147, 245, 46, 45, 245, 91, 5, 121, 32, 105, 63, 234, 171, 116, 113, 179, 245, 162, 61,
    153, 31, 226, 204, 76, 209, 223, 133, 51, 138, 48, 71], by decide⟩

def paying : Externals :=
  { externals with
    accountIdentifier := fun owner subaccount =>
      if owner = payer ∧ subaccount = subaccount1 then payerAccount1
      else externals.accountIdentifier owner subaccount
    accountFromSlice_canonical := fun owner subaccount => by
      simp [externals, Bytes32.length_eq] }

def transferValue (sender : List Icrc3Value) (n : Nat) : Icrc3Value :=
  .map [("tx", .map [("amt", .nat n),
      ("to", .array [.blob canister.bytes, .blob subaccount1.toList]),
      ("from", .array sender), ("op", .text "xfer")]), ("ts", .nat 1000)]

theorem transferValue_transfers {sender : List Icrc3Value} (h : Writes p₁ s₁ sender) :
    Transfers p₁ s₁ canister subaccount1 n (transferValue sender n) :=
  .block (by simp) List.mem_cons_self (by simp) (by simp) (by simp) (by simp) (by simp) h
    .ownerSubaccount

theorem transfer_faithful_default :
    Faithful paying payer DEFAULT_SUBACCOUNT canister subaccount1 100000
      ⟨1, transferValue [.blob payer.bytes] 100000⟩ :=
  (transfer_faithful (transferValue_transfers .owner) 1).1.mpr ⟨by decide, rfl⟩

theorem sender_unfaithful :
    Transfers payer subaccount1 canister subaccount1 100000
        (transferValue [.blob payer.bytes, .blob subaccount1.toList] 100000) ∧
      ¬ Faithful paying payer subaccount1 canister subaccount1 100000
        ⟨1, transferValue [.blob payer.bytes, .blob subaccount1.toList] 100000⟩ ∧
      Transfers payer DEFAULT_SUBACCOUNT canister subaccount1 18446744073709551616
        (transferValue [.blob payer.bytes] 18446744073709551616) ∧
      ¬ Faithful paying payer DEFAULT_SUBACCOUNT canister subaccount1 18446744073709551616
        ⟨1, transferValue [.blob payer.bytes] 18446744073709551616⟩ := by
  refine ⟨transferValue_transfers .ownerSubaccount, ?_, transferValue_transfers .owner, ?_⟩
  · rw [faithful_iff (transferValue_transfers .ownerSubaccount)]
    exact fun h => absurd h.2 (by decide)
  · rw [faithful_iff (transferValue_transfers .owner)]
    exact fun h => absurd h.1 (by decide)

end SubaccountIndexer.TransferDecoding
