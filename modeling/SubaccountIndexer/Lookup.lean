import SubaccountIndexer.Subaccounts

/-! The two lookups that decide whose money a transfer is. Both compare 64-bit hashes of
account identifiers and never the identifiers: a byte string is taken for the identifier of a
listed subaccount if the hashes agree. The lookup is exact for the strings whose hash no other
listed identifier has. -/

namespace SubaccountIndexer.Lookup

variable (E : Externals)

/-- A registered subaccount: it is in the list. -/
def Lists (c : Canister) (subaccount : Subaccount) : Prop :=
  ∃ key : UInt64, c.listOfSubaccounts[key]? = some subaccount

/-- The byte string `v` is found exactly if it is the identifier of a registered subaccount, and
then under it. -/
structure Exact (c : Canister) (v : Blob) : Prop where
  included : includesHash E c.listOfSubaccounts v = true ↔
    ∃ subaccount, Lists c subaccount ∧ v = (toSubaccountId E subaccount).toList
  found : ∀ (account : AccountIdentifier) subaccount, account.toList = v → Lists c subaccount →
    account = toSubaccountId E subaccount → getSubaccount E c account = .ok subaccount

/-- No registered subaccount has another identifier with the hash of `v`. -/
def Separated (c : Canister) (v : Blob) : Prop :=
  ∀ (account : AccountIdentifier) subaccount, account.toList = v → Lists c subaccount →
    E.defaultHasher (toSubaccountId E subaccount) = E.defaultHasher account →
      toSubaccountId E subaccount = account

/-- Every subaccount is listed under the hash of its identifier. -/
def HashKeyed (list : Subaccounts) : Prop :=
  ∀ (key : UInt64) subaccount, list[key]? = some subaccount →
    key = E.defaultHasher (toSubaccountId E subaccount)

variable {E} {c : Canister} {list : Subaccounts} {σ σ' : System} {i : Input} {os : List Event}

/-! ## The keys of the list -/

theorem HashKeyed.insert (h : HashKeyed E list) (nonce : UInt32) :
    HashKeyed E (list.insert (nonceHash E nonce) (toSubaccount nonce)) := by
  intro key subaccount hlisted
  rw [getElem?_insert] at hlisted
  by_cases hkey : nonceHash E nonce = key
  · rw [if_pos hkey] at hlisted
    cases hlisted
    rw [← hkey, nonceHash, toU64Hash_eq]
  · rw [if_neg hkey] at hlisted
    exact h key subaccount hlisted

theorem reconstructUpTo_hashKeyed (n : Nat) : HashKeyed E (reconstructUpTo E n ∅) := by
  induction n with
  | zero => intro key subaccount hlisted; simp [reconstructUpTo] at hlisted
  | succ n ih => exact ih.insert _

theorem hashKeyed_step (h : Fires E σ i σ' os)
    (keyed : HashKeyed E σ.canister.listOfSubaccounts) :
    HashKeyed E σ'.canister.listOfSubaccounts :=
  h.keepsList (P := fun _ list => HashKeyed E list) keyed (reconstructUpTo_hashKeyed _)
    fun _ _ => keyed.insert _

theorem reachable_hashKeyed (h : Reachable E σ) : HashKeyed E σ.canister.listOfSubaccounts := by
  obtain ⟨σ₀, os, installed, run⟩ := h
  refine run.invariant (P := fun σ => HashKeyed E σ.canister.listOfSubaccounts) ?_
    fun _ _ _ _ keyed _ fires => hashKeyed_step (fires_of_step E fires) keyed
  rw [installed.canister.2.2.2.2]
  exact reconstructUpTo_hashKeyed _

/-! ## The two lookups -/

/-- A registered subaccount is found under the hash of its identifier. -/
theorem getElem?_of_lists (keyed : HashKeyed E c.listOfSubaccounts) {subaccount : Subaccount}
    (lists : Lists c subaccount) :
    c.listOfSubaccounts[E.defaultHasher (toSubaccountId E subaccount)]? = some subaccount := by
  obtain ⟨key, hlisted⟩ := lists
  rwa [← keyed key subaccount hlisted]

/-- What `includes_hash` tests of a string of 32 bytes -/
theorem includesHash_iff (keyed : HashKeyed E c.listOfSubaccounts) (account : AccountIdentifier) :
    includesHash E c.listOfSubaccounts account.toList = true ↔ ∃ subaccount,
      Lists c subaccount ∧
        E.defaultHasher (toSubaccountId E subaccount) = E.defaultHasher account := by
  simp only [includesHash, account.length_eq, dite_true,
    Std.ExtTreeMap.contains_eq_isSome_getElem?, Option.isSome_iff_exists]
  constructor
  · rintro ⟨subaccount, hlisted⟩
    exact ⟨subaccount, ⟨_, hlisted⟩, (keyed _ _ hlisted).symm⟩
  · rintro ⟨subaccount, lists, hsame⟩
    exact ⟨subaccount, by rw [← hsame, getElem?_of_lists keyed lists]⟩

theorem getSubaccount_of_lists (keyed : HashKeyed E c.listOfSubaccounts) {subaccount : Subaccount}
    (lists : Lists c subaccount) :
    getSubaccount E c (toSubaccountId E subaccount) = .ok subaccount := by
  unfold getSubaccount
  rw [toU64Hash_eq, getElem?_of_lists keyed lists]

theorem length_of_includesHash {v : Blob} (h : includesHash E list v = true) : v.length = 32 := by
  by_contra hlength
  rw [includesHash, dif_neg hlength] at h
  cases h

/-- In every reachable state a byte string is looked up exactly if and only if no registered
subaccount has another identifier with its hash. -/
theorem lookup_exact (reachable : Reachable E σ) (v : Blob) :
    Exact E σ.canister v ↔ Separated E σ.canister v := by
  have hkeyed := reachable_hashKeyed reachable
  constructor
  · rintro exact account subaccount rfl lists hsame
    -- the string is included, so it is the identifier of some registered subaccount
    have hincluded := (includesHash_iff hkeyed account).mpr ⟨subaccount, lists, hsame⟩
    obtain ⟨subaccount', lists', hv⟩ := exact.included.mp hincluded
    obtain rfl : account = toSubaccountId E subaccount' := Bytes32.toList_injective hv
    have hlisted := getElem?_of_lists hkeyed lists
    rw [hsame, getElem?_of_lists hkeyed lists'] at hlisted
    cases hlisted
    rfl
  · intro separated
    constructor
    · constructor
      · intro hincluded
        let account : AccountIdentifier := ⟨v, length_of_includesHash hincluded⟩
        obtain ⟨subaccount, lists, hsame⟩ := (includesHash_iff hkeyed account).mp hincluded
        exact ⟨subaccount, lists,
          (congrArg Bytes32.toList (separated account subaccount rfl lists hsame)).symm⟩
      · rintro ⟨subaccount, lists, rfl⟩
        exact (includesHash_iff hkeyed _).mpr ⟨subaccount, lists, rfl⟩
    · rintro account subaccount - lists rfl
      exact getSubaccount_of_lists hkeyed lists

/-! The identifier of subaccount 1, and a string that the hasher does not tell from it. -/

open Examples

theorem issued_of_lists (list : c.listOfSubaccounts = issuedSubaccounts) {subaccount : Subaccount}
    (h : Lists c subaccount) : subaccount = toSubaccount 0 ∨ subaccount = toSubaccount 1 := by
  obtain ⟨key, hlisted⟩ := h
  rw [list, issuedSubaccounts, getElem?_insert, getElem?_insert] at hlisted
  split at hlisted
  · exact .inr (Option.some.inj hlisted).symm
  · split at hlisted
    · exact .inl (Option.some.inj hlisted).symm
    · simp at hlisted

/-- The identifier of subaccount 1, once a deposit to it has been stored -/
theorem lookup_exact_listed : Exact externals depositStored.canister
    (toSubaccountId externals (toSubaccount 1)).toList := by
  refine (lookup_exact depositStored_reachable _).mpr ?_
  rintro account subaccount hv lists hsame
  obtain rfl : account = toSubaccountId externals (toSubaccount 1) := Bytes32.toList_injective hv
  rcases issued_of_lists depositStored_list lists with rfl | rfl
  · exact absurd hsame (by decide +kernel)
  · rfl

/-- Not the identifier of an account the canister has handed out -/
def stranger : AccountIdentifier := ⟨List.replicate 32 255, by decide⟩

/-- A hasher under which the stranger has the hash of subaccount 1 -/
def colliding : Externals :=
  { externals with
    defaultHasher := fun account =>
      if account = stranger then 13125301486455035840 else externals.defaultHasher account }

theorem start_installed_colliding : Installed colliding start := by
  have hlist : reconstructUpTo colliding 2 ∅ = issuedSubaccounts := by
    simp only [reconstructUpTo, nonceHash, toU64Hash_eq]
    rfl
  exact installed_of_init hlist
    (show init colliding .local 500 2 "ryjl3-tyaaa-aaaaa-aaaba-cai"
      "ryjl3-tyaaa-aaaaa-aaaba-cai" = _ from rfl)

/-- A transfer to the stranger counts as a deposit, and money for it is taken from subaccount 1. -/
theorem stranger_included : Reachable colliding start ∧
    includesHash colliding start.canister.listOfSubaccounts stranger.toList = true ∧
    getSubaccount colliding start.canister stranger = .ok subaccount1 ∧
    (∀ subaccount, Lists start.canister subaccount →
      toSubaccountId colliding subaccount ≠ stranger) ∧
    ¬ Exact colliding start.canister stranger.toList := by
  have hother : ∀ subaccount, Lists start.canister subaccount →
      toSubaccountId colliding subaccount ≠ stranger := by
    intro subaccount lists
    rcases issued_of_lists rfl lists with rfl | rfl <;> decide +kernel
  have hincluded :
      includesHash colliding start.canister.listOfSubaccounts stranger.toList = true := by
    decide +kernel
  have hfound : getSubaccount colliding start.canister stranger = .ok subaccount1 := by
    rw [getSubaccount, toU64Hash_eq]
    rfl
  refine ⟨⟨start, [], start_installed_colliding, .nil⟩, hincluded, hfound, hother, ?_⟩
  intro exact
  obtain ⟨subaccount, lists, hv⟩ := exact.included.mp hincluded
  exact hother subaccount lists (Bytes32.toList_injective hv).symm

end SubaccountIndexer.Lookup
