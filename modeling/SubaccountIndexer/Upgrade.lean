import SubaccountIndexer.Queries
import SubaccountIndexer.Subaccounts
import SubaccountIndexer.Cursors

/-! What an upgrade changes. The stable cells are kept and the heap is rebuilt from them, but
`post_upgrade` starts the timer with 500 seconds and stores these as the interval; and the list
it rebuilds is that of the nonces below the current one, which lacks subaccounts once the nonce
has wrapped around. Nothing else is lost. -/

namespace SubaccountIndexer.Upgrade

variable (E : Externals)

/-- The canister `c'` answers every query as `c` does, and every later message does the same
to it. -/
structure Transparent (c c' : Canister) : Prop where
  nonce : getNonce c' = getNonce c
  subaccounts : c'.listOfSubaccounts = c.listOfSubaccounts
  transactions : c'.transactions = c.transactions
  cursors : ∀ t, getTokenNextBlockQuery c' t = getTokenNextBlockQuery c t
  nextBlock : getNextBlock c' = getNextBlock c
  tokens : getRegisteredTokens E c' = getRegisteredTokens E c
  webhookUrl : ∀ caller, getWebhookUrl E c' caller = getWebhookUrl E c caller
  custodian : c'.custodianPrincipal = c.custodianPrincipal
  network : ∀ caller, getNetwork E c' caller = getNetwork E c caller
  interval : getInterval c' = getInterval c
  timer : c'.timer = some c.intervalInSeconds
  messages : ∀ i, (machine E).step ⟨c', []⟩ i = (machine E).step ⟨c, []⟩ i

/-- What holds of the heap between two messages: it agrees with the stable cells, and no request
is pending. -/
structure Settled (c : Canister) : Prop where
  network : c.network = c.connectedNetwork
  timer : c.timer = some c.intervalInSeconds
  idle : c.pendingRequests = ∅

/-- Every subaccount an upgrade would list is listed. -/
def Rebuilt (c : Canister) : Prop :=
  ∀ (key : UInt64) subaccount,
    (reconstructUpTo E c.lastSubaccountNonce.toNat ∅)[key]? = some subaccount →
      c.listOfSubaccounts[key]? = some subaccount

variable {E} {c c' : Canister} {σ σ' : System} {i : Input} {os : List Event}

/-! ## The heap -/

theorem Settled.writes {method : Method} (h : Settled c) (writes : Writes E c method c') :
    Settled c' := by
  cases writes with
  | interval => exact ⟨h.network, rfl, h.idle⟩
  | _ => exact ⟨h.network, h.timer, h.idle⟩

theorem Settled.resumes {task : Task} {reply : Reply} (h : Settled c)
    (resumes : ResumeWrites E c task reply c') : Settled c' := by
  exact resumes.keeps (fun _ => ⟨h.network, h.timer, h.idle⟩)
    (fun _ _ _ => ⟨h.network, h.timer, h.idle⟩) fun _ => ⟨h.network, h.timer, h.idle⟩

/-- `set_interval` passes the caller check of an upgrade: the heap network is `Local`. -/
theorem upgradeInterval_eq (c : Canister) (caller : Principal) :
    upgradeInterval E c.resetHeap caller = setInterval c.resetHeap 500 := rfl

theorem postUpgrade_settled (c : Canister) (caller : Principal) :
    Settled (postUpgrade E c caller) := by
  unfold postUpgrade
  rw [upgradeInterval_eq]
  unfold ensureCustodian migrateBlockTracking
  dsimp only
  repeat' split
  all_goals exact ⟨rfl, rfl, rfl⟩

theorem settled_step (h : Fires E σ i σ' os) (settled : Settled σ.canister) :
    Settled σ'.canister :=
  h.keeps settled settled.writes settled.resumes fun caller => postUpgrade_settled _ caller

theorem installed_settled (h : Installed E σ) : Settled σ.canister := by
  obtain ⟨-, network, seconds, nonce, ledger, custodian, hinit⟩ := h
  unfold init at hinit
  split at hinit
  · cases hinit
  · split at hinit
    · cases hinit
    · rw [← Except.ok.inj hinit]
      exact ⟨rfl, rfl, rfl⟩

/-! ## The list -/

theorem Rebuilt.insert (h : Rebuilt E c) {nonce : UInt32} (next : c.lastSubaccountNonce = nonce)
    (fits : (nonce + 1).toNat = nonce.toNat + 1) : Rebuilt E { c with
      listOfSubaccounts := c.listOfSubaccounts.insert (nonceHash E nonce) (toSubaccount nonce)
      lastSubaccountNonce := nonce + 1 } := by
  intro key subaccount hrebuilt
  subst next
  have hsame : UInt32.ofNat c.lastSubaccountNonce.toNat = c.lastSubaccountNonce :=
    UInt32.ofNat_toNat
  simp only [fits, reconstructUpTo, hsame, getElem?_insert] at hrebuilt ⊢
  by_cases hkey : nonceHash E c.lastSubaccountNonce = key
  · rwa [if_pos hkey] at hrebuilt ⊢
  · rw [if_neg hkey] at hrebuilt ⊢
    exact h key subaccount hrebuilt

/-- A nonce that has wrapped around to 0 leaves nothing to rebuild. -/
theorem rebuilt_step (h : Fires E σ i σ' os) (rebuilt : Rebuilt E σ.canister) :
    Rebuilt E σ'.canister := by
  refine h.keepsList (P := fun nonce list => ∀ (key : UInt64) subaccount,
    (reconstructUpTo E nonce.toNat ∅)[key]? = some subaccount → list[key]? = some subaccount)
    rebuilt (fun _ _ hlisted => hlisted) fun _ _ => ?_
  rcases toNat_succ_cases σ.canister.lastSubaccountNonce with hsucc | hzero
  · exact rebuilt.insert rfl hsucc
  · rw [hzero]
    intro key subaccount hrebuilt
    simp [reconstructUpTo] at hrebuilt

/-- A list that holds all an upgrade would list, and only subaccounts of the nonces below the
current one, is the list an upgrade makes. -/
theorem Rebuilt.eq_iff (h : Rebuilt E c) :
    reconstructUpTo E c.lastSubaccountNonce.toNat ∅ = c.listOfSubaccounts ↔
      OnlyIssued E c.lastSubaccountNonce.toNat c.listOfSubaccounts := by
  have hfits := Nat.le_of_lt (UInt32.toNat_lt c.lastSubaccountNonce)
  constructor
  · intro heq
    rw [← heq]
    exact reconstructUpTo_onlyIssued _ hfits
  · intro only
    refine Std.ExtTreeMap.ext_getElem? fun key => Option.ext fun subaccount => ⟨h key subaccount, ?_⟩
    intro hlisted
    -- the rebuilt list has an entry under the key of every nonce below the current one
    obtain ⟨j, hj, rfl, rfl⟩ := only key subaccount hlisted
    obtain ⟨j', -, -, hrebuilt⟩ := reconstructUpTo_covered (E := E) ∅ _ hfits j hj
    rw [hrebuilt, ← hlisted, h _ _ hrebuilt]

/-! ## The upgrade -/

/-- What `post_upgrade` writes when there is a custodian: the interval, its timer and the list. -/
theorem postUpgrade_eq (settled : Settled c) (cursors : c.tokenNextBlocks.isEmpty = false)
    (custodian : c.custodianPrincipal ≠ none) (caller : Principal) :
    postUpgrade E c caller = { c with
      timer := some 500
      intervalInSeconds := 500
      listOfSubaccounts := reconstructUpTo E c.lastSubaccountNonce.toNat ∅ } := by
  obtain ⟨p, hp⟩ := Option.ne_none_iff_exists'.mp custodian
  -- the canister once its heap is rebuilt
  let c₁ := reconstructNetwork (reconstructSubaccounts E (setInterval c.resetHeap 500))
  have hmigrate : migrateBlockTracking c₁ = c₁ := by
    rw [migrateBlockTracking, show c₁.tokenNextBlocks.isEmpty = false from cursors]
    rfl
  have hensure : ensureCustodian c₁ caller = c₁ := by
    rw [ensureCustodian, show c₁.custodianPrincipal = some p from hp]
  have hupgraded : postUpgrade E c caller = c₁ := by
    unfold postUpgrade
    rw [upgradeInterval_eq]
    exact (congrArg (ensureCustodian · caller) hmigrate).trans hensure
  rw [hupgraded]
  simp only [c₁, reconstructNetwork, reconstructSubaccounts, setInterval, Canister.resetHeap,
    ← settled.network, ← settled.idle]

/-- An upgrade is transparent if and only if the interval is the 500 seconds it sets, and only
subaccounts of the nonces below the current one are listed. -/
theorem upgrade_transparent (reachable : Reachable E σ)
    (custodian : σ.canister.custodianPrincipal ≠ none) (caller : Principal) :
    Transparent E σ.canister (postUpgrade E σ.canister caller) ↔
      σ.canister.intervalInSeconds = 500 ∧
        OnlyIssued E σ.canister.lastSubaccountNonce.toNat σ.canister.listOfSubaccounts := by
  have hcursors := reachable_cursors reachable
  obtain ⟨σ₀, os, installed, run⟩ := reachable
  have hsettled : Settled σ.canister :=
    run.invariant (P := fun σ => Settled σ.canister) (installed_settled installed)
      fun _ _ _ _ settled _ fires => settled_step (fires_of_step E fires) settled
  have hrebuilt : Rebuilt E σ.canister := by
    refine run.invariant (P := fun σ => Rebuilt E σ.canister) ?_
      fun _ _ _ _ rebuilt _ fires => rebuilt_step (fires_of_step E fires) rebuilt
    rw [Rebuilt, installed.canister.2.2.2.2]
    exact fun _ _ hlisted => hlisted
  rw [postUpgrade_eq hsettled hcursors custodian, ← hrebuilt.eq_iff]
  constructor
  · intro transparent
    exact ⟨(Except.ok.inj transparent.interval).symm, transparent.subaccounts⟩
  · rintro ⟨hinterval, hlist⟩
    -- every cell the upgrade writes has that value already
    have hsame : { σ.canister with
        timer := some 500
        intervalInSeconds := 500
        listOfSubaccounts :=
          reconstructUpTo E σ.canister.lastSubaccountNonce.toNat ∅ } = σ.canister := by
      rw [hlist, ← hinterval, ← hsettled.timer]
    rw [hsame]
    exact ⟨rfl, rfl, rfl, fun _ => rfl, rfl, rfl, fun _ => rfl, rfl, fun _ => rfl, rfl,
      hsettled.timer, fun _ => rfl⟩

/-! The canister of the examples polls every 500 seconds, until it is told to poll every 15. -/

open Examples

theorem upgrade_transparent_stored : Transparent externals depositStored.canister
    (postUpgrade externals depositStored.canister custodian) := by
  have hnonce : depositStored.canister.lastSubaccountNonce.toNat = 2 := by decide +kernel
  refine (upgrade_transparent depositStored_reachable (by decide +kernel) custodian).mpr
    ⟨by decide +kernel, ?_⟩
  rw [hnonce, depositStored_list, ← issuedSubaccounts_eq]
  exact reconstructUpTo_onlyIssued 2 (by omega)

/-- The canister polls every 15 seconds. -/
abbrev hurried : System := (machine externals).after start (.call custodian (.setInterval 15))

theorem interval_lost :
    Reachable externals hurried ∧ hurried.canister.custodianPrincipal = some custodian ∧
      getInterval hurried.canister = .ok 15 ∧
      getInterval (postUpgrade externals hurried.canister custodian) = .ok 500 ∧
      (postUpgrade externals hurried.canister custodian).timer = some 500 ∧
      ¬ Transparent externals hurried.canister
        (postUpgrade externals hurried.canister custodian) := by
  refine ⟨⟨start, _, start_installed,
    Lib.Machine.Run.nil.next (i := Input.call custodian (.setInterval 15)) trivial rfl⟩,
    rfl, rfl, rfl, rfl, fun transparent => ?_⟩
  have hinterval : (500 : UInt64) = 15 := Except.ok.inj transparent.interval
  cases hinterval

end SubaccountIndexer.Upgrade
