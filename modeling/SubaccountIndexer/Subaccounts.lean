import SubaccountIndexer.History

/-! The list of subaccounts against the nonce. Every nonce below the current one
finds an issued subaccount under its key, its own if the keys of issued subaccounts are
distinct; and as long as the nonce does not wrap around, nothing else is listed. -/

namespace SubaccountIndexer

variable (E : Externals)

/-- `nonce` was handed out by a canister whose nonce is now `n`. -/
def Issued (n nonce : UInt32) : Prop := nonce.toNat < n.toNat

instance (n nonce : UInt32) : Decidable (Issued n nonce) := inferInstanceAs (Decidable (_ < _))

/-- The key of every issued nonce holds an issued subaccount with that key. -/
def Covered (n : Nat) (list : Subaccounts) : Prop :=
  ∀ i : UInt32, i.toNat < n → ∃ j : UInt32, j.toNat < n ∧ nonceHash E j = nonceHash E i ∧
    list[nonceHash E i]? = some (toSubaccount j)

/-- Only issued subaccounts are listed, each under its key. -/
def OnlyIssued (n : Nat) (list : Subaccounts) : Prop :=
  ∀ (key : UInt64) (subaccount : Subaccount), list[key]? = some subaccount →
    ∃ j : UInt32, j.toNat < n ∧ key = nonceHash E j ∧ subaccount = toSubaccount j

variable {E} {n : Nat} {list : Subaccounts} {σ σ' : System} {i : Input} {os : List Event}

/-- Listing the next nonce -/
theorem Covered.insert (h : Covered E n list) {nonce : UInt32} (next : nonce.toNat = n) :
    Covered E (n + 1) (list.insert (nonceHash E nonce) (toSubaccount nonce)) := by
  intro i hi
  rw [getElem?_insert]
  by_cases hkey : nonceHash E nonce = nonceHash E i
  · exact ⟨nonce, by omega, hkey, if_pos hkey⟩
  · have hne : i.toNat ≠ n := fun heq => hkey (by rw [UInt32.toNat_inj.mp (next.trans heq.symm)])
    obtain ⟨j, hj, hsame, hlisted⟩ := h i (by omega)
    exact ⟨j, by omega, hsame, by rw [if_neg hkey, hlisted]⟩

theorem OnlyIssued.insert (h : OnlyIssued E n list) {nonce : UInt32} (next : nonce.toNat = n) :
    OnlyIssued E (n + 1) (list.insert (nonceHash E nonce) (toSubaccount nonce)) := by
  intro key subaccount hlisted
  rw [getElem?_insert] at hlisted
  split at hlisted
  · cases hlisted
    exact ⟨nonce, by omega, by simp_all, rfl⟩
  · obtain ⟨j, hj, hkey, hsub⟩ := h key subaccount hlisted
    exact ⟨j, by omega, hkey, hsub⟩

theorem reconstructUpTo_covered (list : Subaccounts) :
    ∀ n ≤ 2 ^ 32, Covered E n (reconstructUpTo E n list)
  | 0, _ => fun _ h => absurd h (Nat.not_lt_zero _)
  | n + 1, fits => (reconstructUpTo_covered list n (by omega)).insert
      (UInt32.toNat_ofNat_of_lt' fits)

theorem reconstructUpTo_onlyIssued :
    ∀ n ≤ 2 ^ 32, OnlyIssued E n (reconstructUpTo E n ∅)
  | 0, _ => fun _ _ h => by simp [reconstructUpTo] at h
  | n + 1, fits => (reconstructUpTo_onlyIssued n (by omega)).insert
      (UInt32.toNat_ofNat_of_lt' fits)

/-! ## Steps -/

/-- A step adds the next nonce to the list, rebuilds the list, or leaves both alone. -/
theorem Fires.subaccounts (h : Fires E σ i σ' os) :
    (σ'.canister.lastSubaccountNonce = σ.canister.lastSubaccountNonce ∧
        σ'.canister.listOfSubaccounts = σ.canister.listOfSubaccounts) ∨
      (σ'.canister.lastSubaccountNonce = σ.canister.lastSubaccountNonce ∧
        σ'.canister.listOfSubaccounts =
          reconstructUpTo E σ.canister.lastSubaccountNonce.toNat ∅) ∨
      (∃ t, σ.runs E i = some (.addSubaccount t)) ∧
        σ'.canister.lastSubaccountNonce = σ.canister.lastSubaccountNonce + 1 ∧
        σ'.canister.listOfSubaccounts = σ.canister.listOfSubaccounts.insert
          (nonceHash E σ.canister.lastSubaccountNonce)
          (toSubaccount σ.canister.lastSubaccountNonce) := by
  have hframe := h.frame
  cases h with
  | upgrade =>
    have hupgrade := postUpgrade_frame (E := E) σ.canister ‹_›
    exact .inr (.inl ⟨hupgrade.nonce, hupgrade.subaccounts⟩)
  | @call caller method turn allowed runs =>
    cases hw : method.writesSubaccounts with
    | false => exact .inl ⟨hframe.nonce hw, hframe.subaccounts hw rfl⟩
    | true =>
      cases method with
      | addSubaccount t => cases runs; exact .inr (.inr ⟨⟨t, allowed⟩, rfl, rfl⟩)
      | _ => cases hw
  | reply => exact .inl ⟨hframe.nonce rfl, hframe.subaccounts rfl rfl⟩
  | timer | rejected | callTraps | replyTraps => exact .inl ⟨rfl, rfl⟩

/-- A property of the nonce and the list that a rebuilt list has, and that the next nonce keeps, is
kept by every step. -/
theorem Fires.keepsList {P : UInt32 → Subaccounts → Prop} (h : Fires E σ i σ' os)
    (held : P σ.canister.lastSubaccountNonce σ.canister.listOfSubaccounts)
    (rebuilt : P σ.canister.lastSubaccountNonce
      (reconstructUpTo E σ.canister.lastSubaccountNonce.toNat ∅))
    (added : ∀ t, σ.runs E i = some (.addSubaccount t) →
      P (σ.canister.lastSubaccountNonce + 1) (σ.canister.listOfSubaccounts.insert
        (nonceHash E σ.canister.lastSubaccountNonce)
        (toSubaccount σ.canister.lastSubaccountNonce))) :
    P σ'.canister.lastSubaccountNonce σ'.canister.listOfSubaccounts := by
  rcases h.subaccounts with ⟨hnonce, hlist⟩ | ⟨hnonce, hlist⟩ | ⟨⟨t, hruns⟩, hnonce, hlist⟩
  · rwa [hnonce, hlist]
  · rwa [hnonce, hlist]
  · rw [hnonce, hlist]
    exact added t hruns

theorem toNat_succ_cases (n : UInt32) : (n + 1).toNat = n.toNat + 1 ∨ (n + 1).toNat = 0 := by
  have := n.toNat_lt
  rw [UInt32.toNat_add, UInt32.toNat_one]
  omega

theorem covered_step (h : Fires E σ i σ' os)
    (covered : Covered E σ.canister.lastSubaccountNonce.toNat σ.canister.listOfSubaccounts) :
    Covered E σ'.canister.lastSubaccountNonce.toNat σ'.canister.listOfSubaccounts := by
  refine h.keepsList (P := fun nonce list => Covered E nonce.toNat list) covered
    (reconstructUpTo_covered ∅ _ (Nat.le_of_lt (UInt32.toNat_lt _))) fun _ _ => ?_
  rcases toNat_succ_cases σ.canister.lastSubaccountNonce with hsucc | hzero
  · rw [hsucc]
    exact covered.insert rfl
  · rw [hzero]
    exact fun _ h => absurd h (Nat.not_lt_zero _)

theorem reachable_covered (h : Reachable E σ) :
    Covered E σ.canister.lastSubaccountNonce.toNat σ.canister.listOfSubaccounts := by
  obtain ⟨σ₀, os, hinstalled, hrun⟩ := h
  refine hrun.invariant (P := fun σ =>
    Covered E σ.canister.lastSubaccountNonce.toNat σ.canister.listOfSubaccounts) ?_ ?_
  · rw [hinstalled.canister.2.2.2.2]
    exact reconstructUpTo_covered ∅ _ (Nat.le_of_lt (UInt32.toNat_lt _))
  · intro s i s' os' covered _ fires
    exact covered_step (fires_of_step E fires) covered

/-- If no other issued nonce has its key, an issued subaccount is registered. -/
theorem registered_of_issued {c : Canister} {nonce : UInt32}
    (covered : Covered E c.lastSubaccountNonce.toNat c.listOfSubaccounts)
    (issued : Issued c.lastSubaccountNonce nonce)
    (distinct : ∀ j, Issued c.lastSubaccountNonce j → nonceHash E j = nonceHash E nonce →
      j = nonce) : c.Registered E (toSubaccount nonce) := by
  obtain ⟨j, hj, hkey, hlisted⟩ := covered nonce issued
  rw [distinct j hj hkey] at hlisted
  exact hlisted

namespace Examples

/-- The canister of the examples has handed out the nonces 0 and 1, with these keys. -/
theorem issued_two {nonce : UInt32} (h : Issued 2 nonce) :
    (nonce = 0 ∧ nonceHash externals nonce = 10584906941951581429) ∨
      (nonce = 1 ∧ nonceHash externals nonce = 13125301486455035840) := by
  have hlt : nonce.toNat < 2 := h
  rcases show nonce.toNat = 0 ∨ nonce.toNat = 1 by omega with hn | hn
  · obtain rfl : nonce = 0 := UInt32.toNat_inj.mp hn
    exact .inl ⟨rfl, by decide +kernel⟩
  · obtain rfl : nonce = 1 := UInt32.toNat_inj.mp hn
    exact .inr ⟨rfl, by decide +kernel⟩

theorem issued_two_distinct {i j : UInt32} (hi : Issued 2 i) (hj : Issued 2 j)
    (same : nonceHash externals i = nonceHash externals j) : i = j := by
  rcases issued_two hi with ⟨rfl, hi⟩ | ⟨rfl, hi⟩ <;>
    rcases issued_two hj with ⟨rfl, hj⟩ | ⟨rfl, hj⟩ <;>
    first | rfl | (rw [hi, hj] at same; cases same)

end Examples

end SubaccountIndexer
