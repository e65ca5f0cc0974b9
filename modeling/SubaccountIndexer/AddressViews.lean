import SubaccountIndexer.Queries
import SubaccountIndexer.DepositsOnly

/-! The list of subaccounts and the five methods that derive an address. The list is kept by
`add_subaccount` and rebuilt from the nonce on every install and upgrade; as long as the nonce
does not wrap around and no two issued identifiers share a key, both make the same list, and
every method reads the same address off it. -/

namespace SubaccountIndexer.AddressViews

open DepositsOnly

variable (E : Externals)

/-- No two issued nonces have the same key. -/
def DistinctKeys (n : UInt32) : Prop :=
  ∀ i j, Issued n i → Issued n j → nonceHash E i = nonceHash E j → i = j

/-- The list is that of the issued nonces, and the methods agree on their addresses. -/
structure Agree (c : Canister) : Prop where
  list : ∀ (key : UInt64) subaccount, c.listOfSubaccounts[key]? = some subaccount ↔
    ∃ i, Issued c.lastSubaccountNonce i ∧ key = nonceHash E i ∧ subaccount = toSubaccount i
  count : getSubaccountCount c = .ok c.lastSubaccountNonce
  /-- What `add_subaccount` returns for a nonce, whenever it comes to it -/
  added : ∀ i, Issued c.lastSubaccountNonce i → ∀ t, ∃ text,
    getSubaccountid E c i t = .ok text ∧ ∀ c' : Canister, c'.lastSubaccountNonce = i →
      (addSubaccount E c' t).task = .finished (.ok (.text text))
  converted : ∀ i, Issued c.lastSubaccountNonce i → ∀ t ≠ TokenType.icp, ∃ hex text,
    getSubaccountid E c i (some .icp) = .ok hex ∧ convertToIcrcAccount E c hex = .ok text ∧
      getIcrcAccount E c i = .ok text ∧ getSubaccountid E c i (some t) = .ok text

variable {E} {c : Canister} {n i : UInt32} {list : Subaccounts} {σ : System} {os : List Event}

/-! ## The list -/

theorem getElem?_iff (listed : Listed E c) (distinct : DistinctKeys E c.lastSubaccountNonce)
    (key : UInt64) (subaccount : Subaccount) : c.listOfSubaccounts[key]? = some subaccount ↔
      ∃ i, Issued c.lastSubaccountNonce i ∧ key = nonceHash E i ∧ subaccount = toSubaccount i := by
  constructor
  · intro hlisted
    obtain ⟨j, hj, hkey, hsub⟩ := listed.only key subaccount hlisted
    exact ⟨j, hj, hkey, hsub⟩
  · rintro ⟨i, hi, rfl, rfl⟩
    exact registered_of_issued listed.covered hi fun j hj same => distinct j i hj hi same

/-- The loop over the nonces lists each once. -/
theorem reconstructUpTo_size (distinct : DistinctKeys E n) :
    ∀ m ≤ n.toNat, (reconstructUpTo E m ∅).size = m
  | 0, _ => rfl
  | m + 1, hm => by
    have hfits : m < 2 ^ 32 := Nat.lt_of_lt_of_le hm (Nat.le_of_lt n.toNat_lt)
    have hnew : ¬ (reconstructUpTo E m ∅).contains (nonceHash E (UInt32.ofNat m)) = true := by
      intro hmem
      obtain ⟨subaccount, hlisted⟩ := getElem?_of_contains hmem
      obtain ⟨j, hj, hkey, -⟩ := reconstructUpTo_onlyIssued m (Nat.le_of_lt hfits) _ _ hlisted
      have hissued : Issued n (UInt32.ofNat m) := by
        rw [Issued, UInt32.toNat_ofNat_of_lt' hfits]
        omega
      have hsame := distinct _ j hissued (show j.toNat < n.toNat by omega) hkey
      rw [← hsame, UInt32.toNat_ofNat_of_lt' hfits] at hj
      omega
    rw [reconstructUpTo, Std.ExtTreeMap.size_insert, if_neg hnew,
      reconstructUpTo_size distinct m (by omega)]

/-- The list kept so far is the one the loop would make now. -/
theorem list_eq (listed : Listed E c) (distinct : DistinctKeys E c.lastSubaccountNonce) :
    c.listOfSubaccounts = reconstructUpTo E c.lastSubaccountNonce.toNat ∅ := by
  have hfits := Nat.le_of_lt (UInt32.toNat_lt c.lastSubaccountNonce)
  have hrebuilt : Listed E
      { c with listOfSubaccounts := reconstructUpTo E c.lastSubaccountNonce.toNat ∅ } :=
    ⟨reconstructUpTo_covered ∅ _ hfits, reconstructUpTo_onlyIssued _ hfits⟩
  refine Std.ExtTreeMap.ext_getElem? fun key => Option.ext fun subaccount => ?_
  exact (getElem?_iff listed distinct key subaccount).trans
    (getElem?_iff hrebuilt distinct key subaccount).symm

theorem count_eq (listed : Listed E c) (distinct : DistinctKeys E c.lastSubaccountNonce) :
    getSubaccountCount c = .ok c.lastSubaccountNonce := by
  rw [getSubaccountCount, list_eq listed distinct, reconstructUpTo_size distinct _ (Nat.le_refl _),
    UInt32.ofNat_toNat]

/-! ## The addresses -/

theorem getSubaccountid_issued (issued : Issued c.lastSubaccountNonce i)
    (registered : c.Registered E (toSubaccount i)) (t : Option TokenType) :
    getSubaccountid E c i t = .ok (subaccountAddress E i (t.getD .icp)) := by
  have hbound : ¬ i ≥ c.lastSubaccountNonce := UInt32.not_le.mpr (UInt32.lt_iff_toNat_lt.mpr issued)
  unfold getSubaccountid
  rw [if_neg hbound]
  dsimp only
  rw [registered]
  cases t.getD .icp <;> rfl

theorem getIcrcAccount_issued (issued : Issued c.lastSubaccountNonce i) {t : TokenType}
    (ck : t ≠ .icp) : getIcrcAccount E c i = .ok (subaccountAddress E i t) := by
  have hbound : ¬ i ≥ c.lastSubaccountNonce := UInt32.not_le.mpr (UInt32.lt_iff_toNat_lt.mpr issued)
  unfold getIcrcAccount
  rw [if_neg hbound, subaccountAddress_ck E ck]
  rfl

/-- The search finds the nonce whose identifier was printed. -/
theorem convertToIcrcAccount_issued (issued : Issued c.lastSubaccountNonce i)
    (distinct : DistinctKeys E c.lastSubaccountNonce) {t : TokenType} (ck : t ≠ .icp) :
    convertToIcrcAccount E c (subaccountAddress E i .icp) = .ok (subaccountAddress E i t) := by
  rw [subaccountAddress_ck E ck, subaccountAddress]
  unfold convertToIcrcAccount
  rw [E.hexDecode_hexEncode]
  dsimp only
  rw [if_neg (by simp [(toSubaccountId E (toSubaccount i)).length_eq])]
  split
  · rename_i j hfind
    have hprinted := List.find?_some hfind
    have hj := List.mem_range.mp (List.mem_of_find?_eq_some hfind)
    have hfits : j < 2 ^ 32 := Nat.lt_trans hj (UInt32.toNat_lt _)
    have hid : toSubaccountId E (toSubaccount (UInt32.ofNat j)) =
        toSubaccountId E (toSubaccount i) :=
      Bytes32.toList_injective (hexEncode_injective E (by simpa using hprinted))
    have hissued : Issued c.lastSubaccountNonce (UInt32.ofNat j) := by
      rwa [Issued, UInt32.toNat_ofNat_of_lt' hfits]
    rw [distinct _ i hissued issued (congrArg (toU64Hash E) hid)]
    rfl
  · rename_i hfind
    have hnot := List.find?_eq_none.mp hfind i.toNat (List.mem_range.mpr issued)
    simp at hnot

/-- While the nonce does not wrap around and the issued identifiers have distinct keys, the list
is that of the issued subaccounts and all methods print their addresses alike. -/
theorem addresses_agree {σ₀ : System} (installed : Installed E σ₀)
    (run : (machine E).Run (NonceFits E) σ₀ os σ)
    (distinct : DistinctKeys E σ.canister.lastSubaccountNonce) : Agree E σ.canister := by
  have hlisted : Listed E σ.canister :=
    run.invariant (P := fun σ => Listed E σ.canister) (installed_listed installed)
      fun s i s' os' listed fits fires => (listed_step listed fits (fires_of_step E fires)).1
  have hregistered : ∀ i, Issued σ.canister.lastSubaccountNonce i →
      σ.canister.Registered E (toSubaccount i) :=
    fun i hi => (getElem?_iff hlisted distinct _ _).mpr ⟨i, hi, rfl, rfl⟩
  refine ⟨getElem?_iff hlisted distinct, count_eq hlisted distinct, fun i hi t => ?_,
    fun i hi t ht => ?_⟩
  · refine ⟨_, getSubaccountid_issued hi (hregistered i hi) t, fun c' hc' => ?_⟩
    subst hc'
    rfl
  · exact ⟨_, _, getSubaccountid_issued hi (hregistered i hi) _,
      convertToIcrcAccount_issued hi distinct ht, getIcrcAccount_issued hi ht,
      getSubaccountid_issued hi (hregistered i hi) _⟩

/-! A third nonce is handed out, and the canister is upgraded. -/

open Examples

abbrev added : System :=
  (machine externals).after start (.call custodian (.addSubaccount (some .ckbtc)))

abbrev upgraded : System := (machine externals).after added (.upgrade custodian)

theorem upgraded_distinct : DistinctKeys externals 3 := by
  have htwo : nonceHash externals 2 = 0 := by decide +kernel
  have hnext : ∀ {i : UInt32}, Issued 3 i → Issued 2 i ∨ i = 2 := by
    intro i hi
    have hlt : i.toNat < 3 := hi
    by_cases hi2 : i.toNat < 2
    · exact .inl hi2
    · exact .inr (UInt32.toNat_inj.mp (show i.toNat = 2 by omega))
  have hother : ∀ {i : UInt32}, Issued 2 i → nonceHash externals i ≠ 0 := by
    intro i hi hzero
    rcases issued_two hi with ⟨-, hkey⟩ | ⟨-, hkey⟩ <;> (rw [hkey] at hzero; cases hzero)
  intro i j hi hj same
  rcases hnext hi with hi | rfl
  · rcases hnext hj with hj | rfl
    · exact issued_two_distinct hi hj same
    · exact absurd (same.trans htwo) (hother hi)
  · rcases hnext hj with hj | rfl
    · exact absurd (same.symm.trans htwo) (hother hj)
    · rfl

theorem addresses_agree_upgraded :
    getSubaccountCount upgraded.canister = .ok 3 ∧
      getSubaccountid externals upgraded.canister 1 none =
        .ok "a40b5561de0434967fd095c828cc741359c734bdbf0015b43aa23309357d1f63" ∧
      Agree externals upgraded.canister := by
  have hfits : NonceFits externals start (.call custodian (.addSubaccount (some .ckbtc))) :=
    fun _ _ => by decide
  have hrun : (machine externals).Run (NonceFits externals) start _ upgraded :=
    (Lib.Machine.Run.nil.next hfits rfl).next (i := .upgrade custodian)
      (nonceFits_of_runs (by simp [System.runs])) rfl
  obtain ⟨hnonce, hcount, hlisted⟩ : upgraded.canister.lastSubaccountNonce = 3 ∧
      getSubaccountCount upgraded.canister = .ok 3 ∧
      getSubaccountid externals upgraded.canister 1 none =
        .ok "a40b5561de0434967fd095c828cc741359c734bdbf0015b43aa23309357d1f63" := by
    decide +kernel
  refine ⟨hcount, hlisted, addresses_agree start_installed hrun ?_⟩
  rw [hnonce]
  exact upgraded_distinct

end SubaccountIndexer.AddressViews
