import SubaccountIndexer.AccountText
import SubaccountIndexer.AddressViews
import SubaccountIndexer.Lookup

/-! Sweeping by address against the addresses the canister issues. The search compares the
address with the hex of account identifiers, which is how the addresses of ICP are issued and no
other; and the transfer goes to the ledger that is written in the code, whichever is
registered. -/

namespace SubaccountIndexer.AddressSweep

open AccountText (TextFormats Printed hexEncode_ne_toText)
open Lookup (HashKeyed)

variable (E : Externals)

/-- The amount passes the check of `sweep_subaccount`. -/
def Accepted (amount : Float) : Prop :=
  ¬ ((amount * 100000000.0).round.toUInt64 = 18446744073709551615 ∨ amount < 0.0)

/-- The transfer takes money from subaccount `i` to the custodian, on the ledger of the token. -/
def Pays (c : Canister) (i : UInt32) (t : TokenType) (call : TransferCall) : Prop :=
  call.fromSubaccount = some (toSubaccount i) ∧ call.ledger = c.getTokenLedgerCanisterId t ∧
    match call with
    | .transfer args _ => getCustodianId E c = .ok args.to
    | .icrc1Transfer args _ =>
      some args.to.owner = c.custodianPrincipal ∧ args.to.subaccount = none

/-- The call issues this one transfer. -/
def Issues (c : Canister) (i : UInt32) (address : String) (amount : Float)
    (t : Option TokenType) : Prop :=
  ∃ call, (sweepSubaccount E c address amount t).events = [.subaccountTransfer call] ∧
    Pays E c i (t.getD .icp) call

variable {E} {c : Canister} {list : Subaccounts} {i : UInt32} {address : String} {amount : Float}
  {t : Option TokenType} {σ : System} {p : Principal}

/-! ## The search -/

/-- The search for the hex of an identifier finds the subaccount listed under its hash, if that
one has the identifier. -/
theorem find_identifier (keyed : HashKeyed E list) (account : AccountIdentifier)
    (entry : UInt64 × Subaccount) :
    (list.toList.find? fun entry =>
        E.hexEncode (toSubaccountId E entry.2).toList == E.hexEncode account.toList) =
      some entry ↔
      list[entry.1]? = some entry.2 ∧ toSubaccountId E entry.2 = account := by
  have hsame : ∀ entry : UInt64 × Subaccount,
      (E.hexEncode (toSubaccountId E entry.2).toList == E.hexEncode account.toList) = true ↔
        toSubaccountId E entry.2 = account := fun entry => by
    rw [beq_iff_eq]
    exact ⟨fun h => Bytes32.toList_injective (hexEncode_injective E h), fun h => by rw [h]⟩
  have hfinds : ∀ found, (list.toList.find? fun entry =>
      E.hexEncode (toSubaccountId E entry.2).toList == E.hexEncode account.toList) = some found →
      list[found.1]? = some found.2 ∧ toSubaccountId E found.2 = account := by
    intro found hfound
    have htest := List.find?_some hfound
    exact ⟨Std.ExtTreeMap.mem_toList_iff_getElem?_eq_some.mp (List.mem_of_find?_eq_some hfound),
      (hsame found).mp htest⟩
  refine ⟨hfinds entry, fun h => ?_⟩
  cases hfound : list.toList.find? fun entry =>
      E.hexEncode (toSubaccountId E entry.2).toList == E.hexEncode account.toList with
  | none =>
    have hmem := Std.ExtTreeMap.mem_toList_iff_getElem?_eq_some.mpr h.1
    exact absurd ((hsame entry).mpr h.2) (List.find?_eq_none.mp hfound entry hmem)
  | some found =>
    -- an entry with the identifier is listed under its hash
    obtain ⟨hlisted, hid⟩ := hfinds found hfound
    have hkey : found.1 = entry.1 := by
      rw [keyed _ _ hlisted, keyed _ _ h.1, hid, h.2]
    rw [hkey, h.1, Option.some.injEq] at hlisted
    rw [Option.some.injEq]
    exact Prod.ext hkey hlisted.symm

/-- The text of a ck address is no hex. -/
theorem find_text (formats : TextFormats E E.canisterId) :
    (list.toList.find? fun entry => E.hexEncode (toSubaccountId E entry.2).toList ==
      IcrcAccount.toText E ⟨E.canisterId, some (toSubaccount i)⟩) = none := by
  rw [List.find?_eq_none]
  intro entry _
  rw [beq_iff_eq]
  exact hexEncode_ne_toText formats _

/-! ## The transfer -/

theorem getCustodianId_some (custodian : c.custodianPrincipal = some p) :
    getCustodianId E c = .ok (E.accountIdentifier p DEFAULT_SUBACCOUNT) := by
  rw [getCustodianId, custodian]

/-- With a custodian set there is a transfer for every token: it pays him from the subaccount
found, on the ledger that is written in the code. -/
theorem sweepSubaccountCall_pays (custodian : c.custodianPrincipal = some p)
    (subaccount : Subaccount) (amountE8s : UInt64) (t : TokenType) :
    ∃ call, sweepSubaccountCall c (E.accountIdentifier p DEFAULT_SUBACCOUNT) subaccount amountE8s
        t = .ok call ∧
      (Pays E c i t call ↔
        subaccount = toSubaccount i ∧ c.getTokenLedgerCanisterId t = t.defaultLedger) := by
  cases t with
  | icp =>
    refine ⟨_, rfl, ?_⟩
    simp only [Pays, TransferCall.fromSubaccount, TransferCall.ledger,
      getCustodianId_some custodian, Option.some.injEq, and_true]
    exact and_congr_right fun _ => eq_comm
  | _ =>
    simp only [sweepSubaccountCall, custodian]
    refine ⟨_, rfl, ?_⟩
    simp only [Pays, TransferCall.fromSubaccount, TransferCall.ledger, custodian, Option.some.injEq,
      and_true]
    exact and_congr_right fun _ => eq_comm

/-- With a custodian set, `sweep_subaccount` issues the transfer exactly if it accepts the
amount, finds the subaccount and the ledger in the code is that of the token. -/
theorem issues_iff (custodian : c.custodianPrincipal = some p) :
    Issues E c i address amount t ↔ Accepted amount ∧
      c.getTokenLedgerCanisterId (t.getD .icp) = (t.getD .icp).defaultLedger ∧
      ∃ key, (c.listOfSubaccounts.toList.find? fun entry =>
        E.hexEncode (toSubaccountId E entry.2).toList == address) =
          some (key, toSubaccount i) := by
  unfold Issues sweepSubaccount
  rw [getCustodianId_some custodian]
  dsimp only
  cases hfound : c.listOfSubaccounts.toList.find? fun entry =>
      E.hexEncode (toSubaccountId E entry.2).toList == address with
  | none => simp [Turn.done]
  | some found =>
    obtain ⟨key, subaccount⟩ := found
    by_cases hrefused :
        (amount * 100000000.0).round.toUInt64 = 18446744073709551615 ∨ amount < 0.0
    · simp [Accepted, hrefused, Turn.done]
    · obtain ⟨call, hcall, hpays⟩ := sweepSubaccountCall_pays (E := E) (i := i) custodian
        subaccount (amount * 100000000.0).round.toUInt64 (t.getD .icp)
      have haccepted : Accepted amount := hrefused
      simp only [if_neg hrefused, hcall, List.cons.injEq, Event.subaccountTransfer.injEq, and_true,
        exists_eq_left', hpays, haccepted, true_and, Option.some.injEq, Prod.mk.injEq]
      exact and_comm

/-- The address the canister issues for subaccount `i` and a token sweeps it to the custodian, on
the ledger that the other sweeps use, if and only if the token is ICP, no other ledger than the
built-in one is registered for it, and the subaccount is listed under its own hash. -/
theorem issued_address_sweeps {c' : Canister} (reachable : Reachable E σ)
    (formats : TextFormats E E.canisterId)
    (custodian : σ.canister.custodianPrincipal = some p)
    (printed : Printed E c' (t.getD .icp) i address) (amount : Float) :
    Issues E σ.canister i address amount t ↔ Accepted amount ∧ t.getD .icp = .icp ∧
      σ.canister.getTokenLedgerCanisterId .icp = MAINNET_LEDGER_CANISTER_ID ∧
      σ.canister.Registered E (toSubaccount i) := by
  rw [issues_iff custodian, printed.address]
  refine and_congr_right fun _ => ?_
  by_cases ht : t.getD .icp = .icp
  · have hkeyed := Lookup.reachable_hashKeyed reachable
    rw [ht]
    simp only [true_and, subaccountAddress]
    refine and_congr_right fun _ => ?_
    simp only [find_identifier hkeyed, Canister.Registered, toU64Hash_eq, and_true]
    constructor
    · intro hfound
      obtain ⟨key, hlisted⟩ := hfound
      rwa [← hkeyed _ _ hlisted]
    · intro hlisted
      exact ⟨_, hlisted⟩
  · rw [subaccountAddress_ck E ht, find_text formats]
    simp [ht]

/-! The canister that has handed out the nonces 0 and 1, with an address for each token. -/

open Examples AccountText

theorem start_installed_textual : Installed textual start := by
  have hlist : reconstructUpTo textual 2 ∅ = issuedSubaccounts := by
    simp only [reconstructUpTo, nonceHash, toU64Hash_eq]
    rfl
  exact installed_of_init hlist
    (show init textual .local 500 2 "ryjl3-tyaaa-aaaaa-aaaba-cai"
      "ryjl3-tyaaa-aaaaa-aaaba-cai" = _ from rfl)

theorem start_reachable_textual : Reachable textual start :=
  ⟨start, [], start_installed_textual, .nil⟩

theorem subaccount_registered : start.canister.Registered textual (toSubaccount 1) := by
  rw [Canister.Registered, toU64Hash_eq]
  rfl

/-- The address of nonce 1 for a token -/
theorem getSubaccountid_start (t : TokenType) :
    getSubaccountid textual start.canister 1 (some t) = .ok (subaccountAddress textual 1 t) :=
  AddressViews.getSubaccountid_issued (by decide) subaccount_registered (some t)

theorem issued_address_sweeps_icp :
    Issues textual start.canister 1 (subaccountAddress textual 1 .icp) 1.5 (some .icp) ↔
      Accepted 1.5 := by
  rw [issued_address_sweeps start_reachable_textual textual_formats rfl
    (.listed (getSubaccountid_start .icp)) 1.5]
  exact and_iff_left ⟨rfl, rfl, subaccount_registered⟩

/-- The address for ckUSDC is not found, whatever the amount. -/
theorem ckusdc_address_unswept : Reachable textual start ∧
    start.canister.custodianPrincipal = some custodian ∧
    Issued start.canister.lastSubaccountNonce 1 ∧
    getSubaccountid textual start.canister 1 (some .ckusdc) =
      .ok "qvn3w-rqaaa-aaaam-qd4kq-cai-bqbwdjy.1" ∧
    ∀ amount : Float, sweepSubaccount textual start.canister
        "qvn3w-rqaaa-aaaam-qd4kq-cai-bqbwdjy.1" amount (some .ckusdc) =
        .done start.canister (.error "Subaccount not found") ∧
      ¬ Issues textual start.canister 1 "qvn3w-rqaaa-aaaam-qd4kq-cai-bqbwdjy.1" amount
        (some .ckusdc) := by
  have htext : IcrcAccount.toText textual ⟨textual.canisterId, some (toSubaccount 1)⟩ =
      "qvn3w-rqaaa-aaaam-qd4kq-cai-bqbwdjy.1" := by decide +kernel
  have hprinted := getSubaccountid_start .ckusdc
  rw [subaccountAddress_ck textual (by decide), htext] at hprinted
  refine ⟨start_reachable_textual, rfl, by decide, hprinted, fun amount => ?_⟩
  have hrefused : sweepSubaccount textual start.canister
      "qvn3w-rqaaa-aaaam-qd4kq-cai-bqbwdjy.1" amount (some .ckusdc) =
        .done start.canister (.error "Subaccount not found") := by
    unfold sweepSubaccount
    rw [← htext, find_text textual_formats]
    rfl
  refine ⟨hrefused, fun ⟨call, hevents, _⟩ => ?_⟩
  rw [hrefused] at hevents
  cases hevents

end SubaccountIndexer.AddressSweep
