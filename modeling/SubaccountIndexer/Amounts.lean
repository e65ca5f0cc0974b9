import SubaccountIndexer.SweepSpec

/-! What the transfer of a deposit takes out of its subaccount. Amount and fee should come to
what was deposited; the three builders subtract a fee of their own, and the subtraction
wraps. -/

namespace SubaccountIndexer.Amounts

/-- The fee of a token's ledger -/
def ledgerFee : TokenType → UInt64
  | .ckbtc => 10
  | .icp | .ckusdc | .ckusdt => 10000

/-- What a built transfer takes from the source: its fee, if it names one, and its amount -/
structure Draw where
  fee : Option Nat
  amount : Nat

def drawOf (args : TransferArgs × Principal) : Draw :=
  ⟨some args.1.fee.toNat, args.1.amount.toNat⟩

def icrc1DrawOf (args : Icrc1TransferArg × Principal) : Draw := ⟨args.1.fee, args.1.amount⟩

/-- A deposit that covers the fee is drawn completely, one that does not is refused. -/
structure Conserves (deposited fee : UInt64) (built : Except String Draw) : Prop where
  covered : fee ≤ deposited → ∀ draw, built = .ok draw →
    draw.fee = some fee.toNat ∧ draw.amount + fee.toNat = deposited.toNat
  refused : deposited < fee → ∃ e, built = .error e

/-- A transfer that could not be built has drawn nothing. -/
theorem conserves_error (deposited fee : UInt64) (e : String) :
    Conserves deposited fee (.error e) where
  covered := by rintro - draw ⟨⟩
  refused _ := ⟨e, rfl⟩

/-- A builder that subtracts its fee without a check conserves a deposit if and only if the
fee is the ledger's and the deposit covers it. -/
theorem conserves_subtracted (deposited fee charged : UInt64) :
    Conserves deposited fee (.ok ⟨some charged.toNat, (deposited - charged).toNat⟩) ↔
      charged = fee ∧ fee ≤ deposited := by
  constructor
  · intro conserves
    by_cases hcovers : fee ≤ deposited
    · obtain ⟨hfee, -⟩ := conserves.covered hcovers _ rfl
      exact ⟨UInt64.toNat_inj.mp (Option.some.inj hfee), hcovers⟩
    · obtain ⟨e, he⟩ := conserves.refused (UInt64.not_le.mp hcovers)
      cases he
  · rintro ⟨rfl, hcovers⟩
    constructor
    · intro _ draw hdraw
      cases hdraw
      refine ⟨rfl, ?_⟩
      dsimp only
      rw [UInt64.toNat_sub_of_le _ _ hcovers]
      exact Nat.sub_add_cancel (UInt64.le_iff_toNat_le.mp hcovers)
    · intro hless
      exact absurd hcovers (UInt64.not_le.mpr hless)

variable (E : Externals)

/-- A record of a transfer to a subaccount in the list -/
structure Deposit (c : Canister) (tx : StoredTransactions) (data : Transfer) : Prop where
  transfer : tx.operation = some (.transfer data)
  listed : ∃ account subaccount, E.accountFromSlice data.to = .ok account ∧
    getSubaccount E c account = .ok subaccount

/-- The transfers built for a deposit conserve it: the sweep by the interface of its token,
and the refund. -/
structure Conserved (c : Canister) (tx : StoredTransactions) (data : Transfer) : Prop where
  sweep : tx.tokenType = .icp → Conserves data.amount.e8s (ledgerFee tx.tokenType)
    ((toSweepArgs E c tx).map drawOf)
  icrc1Sweep : tx.tokenType ≠ .icp → Conserves data.amount.e8s (ledgerFee tx.tokenType)
    ((toIcrc1SweepArgs E c tx).map icrc1DrawOf)
  refund : ∃ built, toRefundArgs E c tx = .ok built ∧
    Conserves data.amount.e8s (ledgerFee tx.tokenType) (built.map drawOf)

variable {E} {c : Canister} {tx : StoredTransactions} {data : Transfer}

theorem Deposit.source (h : Deposit E c tx data) (role : String) :
    ∃ subaccount, sourceSubaccount E c role data.to = .ok subaccount := by
  obtain ⟨account, subaccount, haccount, hlisted⟩ := h.listed
  exact ⟨subaccount, by simp only [sourceSubaccount, haccount, hlisted]⟩

theorem Deposit.transferOf (h : Deposit E c tx data) : transferOf tx = .ok data := by
  simp only [SubaccountIndexer.transferOf, h.transfer]

theorem toSweepArgs_conserves (h : Deposit E c tx data) (icp : tx.tokenType = .icp) :
    Conserves data.amount.e8s (ledgerFee tx.tokenType) ((toSweepArgs E c tx).map drawOf) ↔
      c.custodianPrincipal = none ∨ ledgerFee tx.tokenType ≤ data.amount.e8s := by
  obtain ⟨subaccount, hsource⟩ := h.source "from_subaccount"
  cases hcustodian : c.custodianPrincipal with
  | none =>
    have herror : toSweepArgs E c tx = .error "Failed to get principal" := by
      simp [toSweepArgs, getCustodianId, hcustodian, bind, Except.bind]
    rw [herror]
    exact ⟨fun _ => .inl rfl, fun _ => conserves_error _ _ _⟩
  | some custodian =>
    have hbuilt : (toSweepArgs E c tx).map drawOf =
        .ok ⟨some (10000 : UInt64).toNat, (data.amount.e8s - 10000).toNat⟩ := by
      simp [toSweepArgs, getCustodianId, hcustodian, h.transferOf, hsource, bind, Except.bind,
        Except.map, drawOf]
    rw [hbuilt, conserves_subtracted, icp]
    simp [ledgerFee]

theorem toIcrc1SweepArgs_conserves (h : Deposit E c tx data) (icrc1 : tx.tokenType ≠ .icp) :
    Conserves data.amount.e8s (ledgerFee tx.tokenType)
        ((toIcrc1SweepArgs E c tx).map icrc1DrawOf) ↔
      c.custodianPrincipal = none ∨ ledgerFee tx.tokenType ≤ data.amount.e8s := by
  obtain ⟨subaccount, hsource⟩ := h.source "from_subaccount"
  cases hcustodian : c.custodianPrincipal with
  | none =>
    have herror : toIcrc1SweepArgs E c tx = .error "Failed to get custodian principal" := by
      simp [toIcrc1SweepArgs, hcustodian, bind, Except.bind]
    rw [herror]
    exact ⟨fun _ => .inl rfl, fun _ => conserves_error _ _ _⟩
  | some custodian =>
    -- the fee this builder charges is the ledger's
    have hbuilt : (toIcrc1SweepArgs E c tx).map icrc1DrawOf =
        .ok ⟨some (ledgerFee tx.tokenType).toNat,
          (data.amount.e8s - ledgerFee tx.tokenType).toNat⟩ := by
      cases htoken : tx.tokenType with
      | icp => exact absurd htoken icrc1
      | _ =>
        simp [toIcrc1SweepArgs, hcustodian, h.transferOf, hsource, htoken, bind, Except.bind,
          Except.map, icrc1DrawOf, ledgerFee]
    rw [hbuilt, conserves_subtracted]
    simp

theorem toRefundArgs_conserves (h : Deposit E c tx data) :
    (∃ built, toRefundArgs E c tx = .ok built ∧
        Conserves data.amount.e8s (ledgerFee tx.tokenType) (built.map drawOf)) ↔
      (∃ e, E.accountFromSlice data.from = .error e) ∨
        tx.tokenType ≠ .ckbtc ∧ ledgerFee tx.tokenType ≤ data.amount.e8s := by
  obtain ⟨subaccount, hsource⟩ := h.source "to_subaccount"
  cases hsender : E.accountFromSlice data.from with
  | error e =>
    have herror : toRefundArgs E c tx =
        .ok (.error ("Error converting from to AccountIdentifier: " ++ e)) := by
      simp [toRefundArgs, h.transfer, hsender, bind, Except.bind]
    exact ⟨fun _ => .inl ⟨e, rfl⟩, fun _ => ⟨_, herror, conserves_error _ _ _⟩⟩
  | ok sender =>
    have hbuilt : ∃ built, toRefundArgs E c tx = .ok built ∧ built.map drawOf =
        .ok ⟨some (10000 : UInt64).toNat, (data.amount.e8s - 10000).toNat⟩ := by
      simp [toRefundArgs, h.transfer, hsender, hsource, bind, Except.bind, Except.map, drawOf]
    obtain ⟨built, hrefund, hdraw⟩ := hbuilt
    have hconserves : (∃ built, toRefundArgs E c tx = .ok built ∧
        Conserves data.amount.e8s (ledgerFee tx.tokenType) (built.map drawOf)) ↔
          10000 = ledgerFee tx.tokenType ∧ ledgerFee tx.tokenType ≤ data.amount.e8s := by
      rw [← conserves_subtracted, ← hdraw]
      constructor
      · rintro ⟨built', heq, conserves⟩
        rw [hrefund] at heq
        cases heq
        exact conserves
      · exact fun conserves => ⟨built, hrefund, conserves⟩
    rw [hconserves]
    cases tx.tokenType <;> simp [ledgerFee]

/-- The transfers built for a deposit conserve it if and only if there is no custodian or the
deposit covers the fee, and, for the refund, the sender's account does not parse or the token
is not ckBTC and the deposit covers the fee. -/
theorem deposit_conserved (h : Deposit E c tx data) :
    Conserved E c tx data ↔
      (c.custodianPrincipal = none ∨ ledgerFee tx.tokenType ≤ data.amount.e8s) ∧
        ((∃ e, E.accountFromSlice data.from = .error e) ∨
          tx.tokenType ≠ .ckbtc ∧ ledgerFee tx.tokenType ≤ data.amount.e8s) := by
  rw [← toRefundArgs_conserves h]
  constructor
  · intro conserved
    refine ⟨?_, conserved.refund⟩
    by_cases icp : tx.tokenType = .icp
    · exact (toSweepArgs_conserves h icp).mp (conserved.sweep icp)
    · exact (toIcrc1SweepArgs_conserves h icp).mp (conserved.icrc1Sweep icp)
  · rintro ⟨hsweep, hrefund⟩
    exact ⟨fun icp => (toSweepArgs_conserves h icp).mpr hsweep,
      fun icrc1 => (toIcrc1SweepArgs_conserves h icrc1).mpr hsweep, hrefund⟩

open Examples

/-- The payer's transfer of an amount to subaccount 1 -/
def payment (amount : UInt64) : Transfer where
  «to» := account1.toList
  fee := ⟨10000⟩
  «from» := payerAccount.toList
  amount := ⟨amount⟩
  spender := none

def recordOf (tokenType : TokenType) (amount : UInt64) : StoredTransactions :=
  { record with tokenType, operation := some (.transfer (payment amount)) }

theorem recordOf_deposit (tokenType : TokenType) (amount : UInt64) :
    Deposit externals issued (recordOf tokenType amount) (payment amount) where
  transfer := rfl
  listed := ⟨account1, subaccount1, rfl, by decide +kernel⟩

theorem deposit_conserved_icp :
    Conserved externals issued (recordOf .icp 100000) (payment 100000) :=
  (deposit_conserved (recordOf_deposit .icp 100000)).mpr
    ⟨.inr (by decide), .inr ⟨by decide, by decide⟩⟩

/-- A deposit of one unit is swept as 2^64 - 9999 units, and the refund of a ckBTC deposit
leaves the fee of another token. -/
theorem deposit_not_conserved :
    (Deposit externals issued (recordOf .icp 1) (payment 1) ∧
      (toSweepArgs externals issued (recordOf .icp 1)).map drawOf =
        .ok ⟨some 10000, 2 ^ 64 - 9999⟩ ∧
      ¬ Conserved externals issued (recordOf .icp 1) (payment 1)) ∧
    Deposit externals issued (recordOf .ckbtc 100000) (payment 100000) ∧
      ¬ Conserved externals issued (recordOf .ckbtc 100000) (payment 100000) := by
  refine ⟨⟨recordOf_deposit .icp 1, rfl, fun conserved => ?_⟩,
    recordOf_deposit .ckbtc 100000, fun conserved => ?_⟩
  · rcases (toSweepArgs_conserves (recordOf_deposit .icp 1) rfl).mp (conserved.sweep rfl) with
      hnone | hcovers
    · cases hnone
    · revert hcovers
      decide
  · rcases (toRefundArgs_conserves (recordOf_deposit .ckbtc 100000)).mp conserved.refund with
      ⟨e, he⟩ | ⟨hother, -⟩
    · cases he
    · exact hother rfl

end SubaccountIndexer.Amounts
