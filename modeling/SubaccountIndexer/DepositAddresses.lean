import SubaccountIndexer.Client
import SubaccountIndexer.AccountText
import SubaccountIndexer.AddressReuse
import SubaccountIndexer.DepositsOnly
import Mathlib.Data.List.Perm.Basic

/-! The addresses of concurrent clients. A client reads the nonce, has a subaccount created and
looks up the address of the nonce it has read. While every `add_subaccount` of a client finds
that nonce, each client looks up the subaccounts it created, and no address comes twice. -/

namespace SubaccountIndexer.DepositAddresses

open DepositsOnly AccountText
open AddressReuse (toSubaccount_injective unissued)

/-- The nonce read by a client whose `add_subaccount` is due -/
def adds : Client → Option UInt32
  | .working _ _ (.addSubaccount index) _ _ => some index
  | _ => none

/-- The nonce a client looks up, whose subaccount it has created -/
def created : Client → Option UInt32
  | .working _ _ (.getSubaccountId index) _ _ => some index
  | .working _ _ (.getIcrcAccount index _) _ _ => some index
  | _ => none

variable (E : Externals)

/-- No call of a client fails. -/
def CallsSucceed (s : Fleet) : FleetInput → Prop
  | .client n => ∀ client ∈ s.clients[n]?,
    client.2.succeeds E s.system.canister client.1 = true
  | .rejected _ _ => False
  | .other _ => True

/-- The `add_subaccount` of a client finds the nonce the client has read, and no nonce wraps
around. -/
def Undisturbed (s : Fleet) : FleetInput → Prop
  | .client n => ∀ client ∈ s.clients[n]?, ∀ index ∈ adds client.2,
    s.system.canister.lastSubaccountNonce = index ∧ index.toNat + 1 < 2 ^ 32
  | .rejected _ _ => True
  | .other i => NonceFits E s.system i

instance (s : Fleet) : (i : FleetInput) → Decidable (CallsSucceed E s i)
  | .client n => inferInstanceAs (Decidable (∀ client ∈ s.clients[n]?, _))
  | .rejected _ _ => inferInstanceAs (Decidable False)
  | .other _ => inferInstanceAs (Decidable True)

instance (σ : System) (i : Input) : Decidable (NonceFits E σ i) :=
  decidable_of_iff ((σ.runs E i).all fun method => match method with
    | .addSubaccount _ => decide (σ.canister.lastSubaccountNonce.toNat + 1 < 2 ^ 32)
    | _ => true) <| by
    unfold NonceFits
    cases σ.runs E i with
    | none => simp
    | some method => cases method <;> simp

-- the instances are written out: the search would range over all of `UInt32`
instance (s : Fleet) : (i : FleetInput) → Decidable (Undisturbed E s i)
  | .client n => @Option.decidableForallMem _ _ (fun _ => Option.decidableForallMem _) s.clients[n]?
  | .rejected _ _ => inferInstanceAs (Decidable True)
  | .other i => inferInstanceAs (Decidable (NonceFits E s.system i))

/-- No two issued nonces have the same account identifier. -/
def DistinctIds (n : UInt32) : Prop :=
  ∀ i j, Issued n i → Issued n j →
    toSubaccountId E (toSubaccount i) = toSubaccountId E (toSubaccount j) → i = j

/-- The ICRC-1 account of a nonce -/
def depositText (nonce : UInt32) : String :=
  (IcrcAccount.fromPrincipalAndIndex E.canisterId nonce).toText E

/-- The deposit addresses a client has got or will get for what it has created -/
def own (client : Client) : List String :=
  client.addresses.map DepositAddress.depositAddress ++
    (created client).toList.map (depositText E)

/-- An entry names the subaccount of a nonce twice. -/
structure Names (nonce : UInt32) (entry : DepositAddress) : Prop where
  subaccountId : entry.subaccountId = subaccountAddress E nonce entry.tokenType
  depositAddress : entry.depositAddress = depositText E nonce

/-- What a client holds are the addresses of issued nonces. -/
structure Sound (nonce : UInt32) (client : Client) : Prop where
  addresses : ∀ entry ∈ client.addresses, ∃ n, Issued nonce n ∧ Names E n entry
  created : ∀ n ∈ created client, Issued nonce n
  lookedUp : ∀ t name index subaccountId rest addresses,
    client = .working t name (.getIcrcAccount index subaccountId) rest addresses →
      subaccountId = subaccountAddress E index t

/-- Every client is sound, and no two hold the same address. -/
structure Apart (s : Fleet) : Prop where
  sound : ∀ client ∈ s.clients, Sound E s.system.canister.lastSubaccountNonce client.2
  once : (s.clients.flatMap fun client => own E client.2).Nodup

variable {E} {s s' : Fleet} {σ σ' : System} {i : Input} {os : List Event} {c : Canister}
  {agent : Principal} {client : Client} {nonce nonce' m n : UInt32}

/-! ## Texts -/

theorem depositText_injective (formats : TextFormats E E.canisterId)
    (h : depositText E m = depositText E n) : m = n :=
  toSubaccount_injective (toText_injective formats h)

theorem hexEncode_ne_depositText (formats : TextFormats E E.canisterId) (bytes : Blob) :
    E.hexEncode bytes ≠ depositText E n :=
  hexEncode_ne_toText formats bytes

/-- The identifier a client gets for a token determines the nonce. -/
theorem subaccountAddress_injective (formats : TextFormats E E.canisterId)
    (ids : DistinctIds E nonce) (hm : Issued nonce m) (hn : Issued nonce n) {t t' : TokenType}
    (h : subaccountAddress E m t = subaccountAddress E n t') : m = n := by
  by_cases ht : t = .icp
  · by_cases ht' : t' = .icp
    · subst ht ht'
      exact ids m n hm hn (Bytes32.toList_injective (hexEncode_injective E h))
    · subst ht
      rw [subaccountAddress_ck E ht'] at h
      exact absurd h (hexEncode_ne_depositText formats _)
  · by_cases ht' : t' = .icp
    · subst ht'
      rw [subaccountAddress_ck E ht] at h
      exact absurd h.symm (hexEncode_ne_depositText formats _)
    · rw [subaccountAddress_ck E ht, subaccountAddress_ck E ht'] at h
      exact depositText_injective formats h

/-! ## One client -/

@[simp] theorem addresses_nextToken (addresses : List DepositAddress)
    (rest : List (TokenType × String)) :
    (Client.nextToken addresses rest).addresses = addresses := by
  cases rest <;> rfl

@[simp] theorem created_nextToken (addresses : List DepositAddress)
    (rest : List (TokenType × String)) : created (Client.nextToken addresses rest) = none := by
  cases rest <;> rfl

theorem Sound.mono (sound : Sound E nonce client) (grows : nonce.toNat ≤ nonce'.toNat) :
    Sound E nonce' client where
  addresses entry hentry := by
    obtain ⟨n, hissued, hnames⟩ := sound.addresses entry hentry
    exact ⟨n, Nat.lt_of_lt_of_le hissued grows, hnames⟩
  created n hn := Nat.lt_of_lt_of_le (sound.created n hn) grows
  lookedUp := sound.lookedUp

theorem sound_nextToken {addresses : List DepositAddress} (rest : List (TokenType × String))
    (h : ∀ entry ∈ addresses, ∃ n, Issued nonce n ∧ Names E n entry) :
    Sound E nonce (.nextToken addresses rest) where
  addresses := by simpa using h
  created := by simp
  lookedUp := by cases rest <;> simp [Client.nextToken]

@[simp] theorem own_nextToken (addresses : List DepositAddress)
    (rest : List (TokenType × String)) :
    own E (.nextToken addresses rest) = addresses.map DepositAddress.depositAddress := by
  simp [own]

/-- A client owns the texts of issued nonces only. -/
theorem Sound.issued (sound : Sound E nonce client) {text : String} (h : text ∈ own E client) :
    ∃ n, Issued nonce n ∧ text = depositText E n := by
  rcases List.mem_append.mp h with h | h
  · obtain ⟨entry, hentry, rfl⟩ := List.mem_map.mp h
    obtain ⟨n, hissued, hnames⟩ := sound.addresses entry hentry
    exact ⟨n, hissued, hnames.depositAddress⟩
  · obtain ⟨n, hn, rfl⟩ := List.mem_map.mp h
    exact ⟨n, sound.created n (by simpa using hn), rfl⟩

theorem getIcrcAccount_ok {text : String} (h : getIcrcAccount E c n = .ok text) :
    text = depositText E n := by
  unfold getIcrcAccount at h
  split at h
  · cases h
  · exact (Except.ok.inj h).symm

/-- A successful answer leaves a client sound; what it created is issued by then. -/
theorem sound_proceed (sound : Sound E nonce client) (ok : client.succeeds E c agent = true)
    (grows : nonce.toNat ≤ nonce'.toNat) (added : ∀ n ∈ adds client, Issued nonce' n) :
    Sound E nonce' (client.proceed E c agent) := by
  have hsound := sound.mono grows
  cases client with
  | starting => exact sound_nextToken _ (by simp)
  | returned addresses => exact hsound
  | threw message => exact hsound
  | working t name call rest addresses =>
    have hentries := hsound.addresses
    cases call with
    | getNonce => exact ⟨hentries, nofun, nofun⟩
    | registeredTokens index =>
      simp only [Client.proceed, getRegisteredTokens]
      split <;> exact ⟨hentries, nofun, nofun⟩
    | registerToken index =>
      obtain ⟨_, hok⟩ := exists_ok_of_isOk ok
      simp only [Client.proceed, hok]
      exact ⟨hentries, nofun, nofun⟩
    | addSubaccount index => exact ⟨hentries, added, nofun⟩
    | getSubaccountId index =>
      obtain ⟨subaccountId, hok⟩ := exists_ok_of_isOk ok
      simp only [Client.proceed, hok]
      refine ⟨hentries, hsound.created, ?_⟩
      rintro _ _ _ _ _ _ ⟨⟩
      exact getSubaccountid_address hok
    | getIcrcAccount index subaccountId =>
      obtain ⟨text, hok⟩ := exists_ok_of_isOk ok
      simp only [Client.proceed, hok]
      refine sound_nextToken rest fun entry hentry => ?_
      rcases List.mem_append.mp hentry with hentry | hentry
      · exact hentries entry hentry
      · obtain rfl := List.mem_singleton.mp hentry
        exact ⟨index, hsound.created index rfl, hsound.lookedUp _ _ _ _ _ _ rfl,
          getIcrcAccount_ok hok⟩

/-- A successful answer adds the address of the subaccount just created to what a client owns. -/
theorem own_proceed (ok : client.succeeds E c agent = true) :
    own E (client.proceed E c agent) =
      own E client ++ (adds client).toList.map (depositText E) := by
  cases client with
  | starting =>
    simp only [Client.proceed, getRegisteredTokens, own_nextToken]
    rfl
  | returned addresses => simp [Client.proceed, adds]
  | threw message => simp [Client.proceed, adds]
  | working t name call rest addresses =>
    cases call with
    | getNonce => simp [Client.proceed, getNonce, own, adds, created, Client.addresses]
    | registeredTokens index =>
      simp only [Client.proceed, getRegisteredTokens]
      split <;> simp [own, adds, created, Client.addresses]
    | registerToken index =>
      obtain ⟨_, hok⟩ := exists_ok_of_isOk ok
      simp [Client.proceed, hok, own, adds, created, Client.addresses]
    | addSubaccount index => simp [Client.proceed, own, adds, created, Client.addresses]
    | getSubaccountId index =>
      obtain ⟨_, hok⟩ := exists_ok_of_isOk ok
      simp [Client.proceed, hok, own, adds, created, Client.addresses]
    | getIcrcAccount index subaccountId =>
      obtain ⟨text, hok⟩ := exists_ok_of_isOk ok
      obtain rfl := getIcrcAccount_ok hok
      simp only [Client.proceed, hok, own_nextToken]
      simp [own, adds, created, Client.addresses]

/-! ## Steps -/

/-- Replacing an element by one that yields more adds that to what the list yields. -/
theorem flatMap_set_perm {α β : Type} {f : α → List β} {a b : α} {new : List β}
    (hb : f b = f a ++ new) {l : List α} {n : Nat} (ha : l[n]? = some a) :
    ((l.set n b).flatMap f).Perm (l.flatMap f ++ new) := by
  induction l generalizing n with
  | nil => cases ha
  | cons x rest ih =>
    cases n with
    | zero =>
      cases ha
      simp only [List.set_cons_zero, List.flatMap_cons, hb, List.append_assoc]
      exact List.perm_append_comm.append_left _
    | succ n =>
      simp only [List.set_cons_succ, List.flatMap_cons, List.append_assoc]
      exact (ih ha).append_left _

theorem nonce_step (fits : NonceFits E σ i) (fires : (machine E).step σ i = some (σ', os)) :
    σ.canister.lastSubaccountNonce.toNat ≤ σ'.canister.lastSubaccountNonce.toNat := by
  rcases (fires_of_step E fires).subaccounts with
    ⟨hnonce, -⟩ | ⟨hnonce, -⟩ | ⟨⟨t, hruns⟩, hnonce, -⟩
  · rw [hnonce]
  · rw [hnonce]
  · have hfits := fits t hruns
    rw [hnonce, UInt32.toNat_add, UInt32.toNat_one, Nat.mod_eq_of_lt hfits]
    omega

/-- An update call that succeeds has passed the caller check. -/
theorem runs_of_updateResult {method : Method}
    (ok : (Client.updateResult E σ.canister agent method).isOk = true) :
    σ.runs E (.call agent method) = some method := by
  rcases startCall_cases E σ agent method with ⟨message, hrejected⟩ | ⟨hruns, -⟩
  · rw [Client.updateResult, hrejected] at ok
    cases ok
  · exact hruns

/-- What a client does in one step: it proceeds, and makes its update call if it waits for one. -/
theorem client_step {k : Nat} (fires : (fleet E).step s (.client k) = some (s', os)) :
    ∃ agent client, s.clients[k]? = some (agent, client) ∧
      s'.clients = s.clients.set k (agent, client.proceed E s.system.canister agent) ∧
      (client.update = none ∧ s'.system = s.system ∨ ∃ method, client.update = some method ∧
        (machine E).step s.system (.call agent method) = some (s'.system, os)) := by
  simp only [fleet, Fleet.step] at fires
  cases hclient : s.clients[k]? with
  | none => simp [hclient] at fires
  | some entry =>
    obtain ⟨agent, client⟩ := entry
    simp only [hclient] at fires
    split at fires
    · cases hupdate : client.update with
      | none =>
        simp only [hupdate] at fires
        cases fires
        exact ⟨agent, client, rfl, rfl, .inl ⟨hupdate, rfl⟩⟩
      | some method =>
        simp only [hupdate] at fires
        obtain ⟨next, hstep, hnext⟩ := Option.map_eq_some_iff.mp fires
        cases hnext
        exact ⟨agent, client, rfl, rfl, .inr ⟨method, hupdate, hstep⟩⟩
    · cases fires

/-- A client that waits for no update adds nothing. -/
theorem adds_of_update (h : client.update = none) : adds client = none := by
  cases client with
  | working t name call rest addresses => cases call <;> first | rfl | cases h
  | _ => rfl

theorem update_cases {method : Method} (h : client.update = some method) :
    (∃ t text, method = .registerToken t text ∧ adds client = none) ∨
      ∃ t index, method = .addSubaccount (some t) ∧ adds client = some index ∧
        ∀ c agent, client.succeeds E c agent =
          (Client.updateResult E c agent (.addSubaccount (some t))).isOk := by
  cases client with
  | working t name call rest addresses =>
    cases call with
    | registerToken index => exact .inl ⟨t, _, (Option.some.inj h).symm, rfl⟩
    | addSubaccount index =>
      exact .inr ⟨t, index, (Option.some.inj h).symm, rfl, fun _ _ => rfl⟩
    | _ => cases h
  | _ => cases h

/-- An update call of a client raises the nonce by the subaccount it adds, if it adds one. -/
theorem nonce_update {method : Method} (update : client.update = some method)
    (ok : client.succeeds E σ.canister agent = true)
    (undisturbed : ∀ index ∈ adds client,
      σ.canister.lastSubaccountNonce = index ∧ index.toNat + 1 < 2 ^ 32)
    (fires : (machine E).step σ (.call agent method) = some (σ', os)) :
    σ.canister.lastSubaccountNonce.toNat ≤ σ'.canister.lastSubaccountNonce.toNat ∧
      ∀ n ∈ adds client, Issued σ'.canister.lastSubaccountNonce n := by
  rcases update_cases (E := E) update with ⟨t, text, rfl, hadds⟩ | ⟨t, index, rfl, hadds, hsucceeds⟩
  · rw [hadds]
    refine ⟨nonce_step (fun t hruns => ?_) fires, nofun⟩
    cases System.runs_call E hruns
  · obtain ⟨rfl, hfits⟩ := undisturbed index hadds
    rw [hsucceeds] at ok
    have hruns := runs_of_updateResult ok
    rw [step_of_runs E hruns rfl] at fires
    cases fires
    have hnonce : (σ.canister.lastSubaccountNonce + 1).toNat =
        σ.canister.lastSubaccountNonce.toNat + 1 := by
      rw [UInt32.toNat_add, UInt32.toNat_one, Nat.mod_eq_of_lt hfits]
    show σ.canister.lastSubaccountNonce.toNat ≤ (σ.canister.lastSubaccountNonce + 1).toNat ∧ _
    rw [hadds]
    refine ⟨by omega, ?_⟩
    rintro _ ⟨⟩
    show σ.canister.lastSubaccountNonce.toNat < (σ.canister.lastSubaccountNonce + 1).toNat
    omega

/-- A step of the clients keeps them apart. -/
theorem apart_step (formats : TextFormats E E.canisterId) {i : FleetInput} (apart : Apart E s)
    (succeed : CallsSucceed E s i) (undisturbed : Undisturbed E s i)
    (fires : (fleet E).step s i = some (s', os)) : Apart E s' := by
  cases i with
  | rejected k error => exact succeed.elim
  | other i =>
    obtain ⟨next, hstep, hnext⟩ := Option.map_eq_some_iff.mp fires
    cases hnext
    exact ⟨fun client h => (apart.sound client h).mono (nonce_step undisturbed hstep), apart.once⟩
  | client k =>
    obtain ⟨agent, client, hclient, hclients, hsystem⟩ := client_step fires
    have hok := succeed _ hclient
    have hundisturbed := undisturbed _ hclient
    have hsound := apart.sound _ (List.mem_of_getElem? hclient)
    have hnonce : s.system.canister.lastSubaccountNonce.toNat ≤
        s'.system.canister.lastSubaccountNonce.toNat ∧
        ∀ n ∈ adds client, Issued s'.system.canister.lastSubaccountNonce n := by
      rcases hsystem with ⟨hupdate, hsame⟩ | ⟨method, hupdate, hstep⟩
      · rw [hsame, adds_of_update hupdate]
        exact ⟨Nat.le_refl _, nofun⟩
      · exact nonce_update hupdate hok hundisturbed hstep
    constructor
    · intro other hother
      rw [hclients] at hother
      rcases List.mem_or_eq_of_mem_set hother with hother | rfl
      · exact (apart.sound other hother).mono hnonce.1
      · exact sound_proceed hsound hok hnonce.1 hnonce.2
    · have hperm := flatMap_set_perm (f := fun client : Principal × Client => own E client.2)
        (b := (agent, client.proceed E s.system.canister agent)) (own_proceed hok) hclient
      rw [hclients, hperm.nodup_iff]
      cases hadds : adds client with
      | none => simpa using apart.once
      | some index =>
        obtain ⟨hcurrent, -⟩ := hundisturbed index hadds
        -- the text of the next nonce is none of those issued so far
        refine List.nodup_append.mpr ⟨apart.once, by simp, ?_⟩
        intro text htext fresh hfresh heq
        subst heq
        obtain rfl : text = depositText E index := by simpa using hfresh
        obtain ⟨other, hother, hown⟩ := List.mem_flatMap.mp htext
        obtain ⟨n, hissued, hn⟩ := (apart.sound other hother).issued hown
        rw [← depositText_injective formats hn, ← hcurrent] at hissued
        exact Nat.lt_irrefl _ hissued

/-- Clients that are apart have got no subaccount identifier and no address twice. -/
theorem Apart.returned (apart : Apart E s) (formats : TextFormats E E.canisterId)
    (ids : DistinctIds E s.system.canister.lastSubaccountNonce) :
    (s.returned.map DepositAddress.subaccountId).Nodup ∧
      (s.returned.map DepositAddress.depositAddress).Nodup := by
  have hdeposit : (s.returned.map DepositAddress.depositAddress).Nodup := by
    rw [Fleet.returned, List.map_flatMap]
    have hperm := List.flatMap_append_perm s.clients
      (fun client => client.2.addresses.map DepositAddress.depositAddress)
      fun client => (created client.2).toList.map (depositText E)
    exact (hperm.nodup_iff.mpr apart.once).of_append_left
  have hnames : ∀ entry ∈ s.returned, ∃ n, Issued s.system.canister.lastSubaccountNonce n ∧
      Names E n entry := by
    intro entry hentry
    obtain ⟨client, hclient, hmem⟩ := List.mem_flatMap.mp hentry
    exact (apart.sound client hclient).addresses entry hmem
  refine ⟨hdeposit.of_map.map_on ?_, hdeposit⟩
  intro a ha b hb same
  obtain ⟨m, hm, hma⟩ := hnames a ha
  obtain ⟨n, hn, hnb⟩ := hnames b hb
  rw [hma.subaccountId, hnb.subaccountId] at same
  obtain rfl := subaccountAddress_injective formats ids hm hn same
  exact List.inj_on_of_nodup_map hdeposit ha hb
    (hma.depositAddress.trans hnb.depositAddress.symm)

/-- In every run of clients whose calls succeed and find the nonces they have read, no
subaccount identifier and no deposit address is returned twice. -/
theorem addresses_distinct (formats : TextFormats E E.canisterId) (agents : List Principal)
    (run : (fleet E).Run (fun s i => CallsSucceed E s i ∧ Undisturbed E s i)
      ⟨σ, agents.map fun agent => (agent, .starting)⟩ os s)
    (ids : DistinctIds E s.system.canister.lastSubaccountNonce) :
    (s.returned.map DepositAddress.subaccountId).Nodup ∧
      (s.returned.map DepositAddress.depositAddress).Nodup := by
  have hapart : Apart E s := by
    refine run.invariant (P := Apart E) ⟨?_, ?_⟩
      fun s i s' os' apart guard fires => apart_step formats apart guard.1 guard.2 fires
    · intro client hclient
      obtain ⟨agent, -, rfl⟩ := List.mem_map.mp hclient
      exact ⟨nofun, nofun, nofun⟩
    · have hnone : (agents.map fun agent => (agent, Client.starting)).flatMap
          (fun client => own E client.2) = [] := by
        simp [own, created, Client.addresses]
      rw [hnone]
      exact List.nodup_nil
  exact hapart.returned formats ids

/-! Two clients of a canister that has issued nothing, which the custodian lets accept ICP. -/

open Examples

def twoClients : Fleet := ⟨unissued, [custodian, payer].map fun agent => (agent, .starting)⟩

def registration : FleetInput :=
  .other (.call custodian (.registerToken .icp "ryjl3-tyaaa-aaaaa-aaaba-cai"))

theorem unissued_installed : Installed textual unissued := by
  refine ⟨rfl, .local, 500, 0, "ryjl3-tyaaa-aaaaa-aaaba-cai", "ryjl3-tyaaa-aaaaa-aaaba-cai", ?_⟩
  rfl

/-- The first client is done before the second begins. -/
def oneAfterTheOther : List FleetInput :=
  registration :: List.replicate 6 (.client 0) ++ List.replicate 6 (.client 1)

/-- The calls of the clients alternate. -/
def alternating : List FleetInput :=
  registration :: (List.replicate 6 [.client 0, .client 1]).flatten

theorem distinctIds_two : DistinctIds textual 2 := by
  intro i j hi hj same
  have hsplit : ∀ {k : UInt32}, Issued 2 k → k = 0 ∨ k = 1 := by
    intro k hk
    have hlt : k.toNat < 2 := hk
    rcases Nat.lt_or_ge k.toNat 1 with h | h
    · exact .inl (UInt32.toNat_inj.mp (show k.toNat = 0 by omega))
    · exact .inr (UInt32.toNat_inj.mp (show k.toNat = 1 by omega))
  have hne : toSubaccountId textual (toSubaccount 0) ≠ toSubaccountId textual (toSubaccount 1) := by
    decide
  rcases hsplit hi with rfl | rfl <;> rcases hsplit hj with rfl | rfl
  · rfl
  · exact absurd same hne
  · exact absurd same.symm hne
  · rfl

/-- The address of nonce 0 as a client gets it -/
def firstAddress : DepositAddress :=
  ⟨.icp, "ryjl3-tyaaa-aaaaa-aaaba-cai",
    "852ea81150fbf7d0f2bef19219bc13eeb16de30fa37a3539dd82021b48086bc9",
    "qvn3w-rqaaa-aaaam-qd4kq-cai"⟩

/-- The address of nonce 1 as a client gets it -/
def secondAddress : DepositAddress :=
  ⟨.icp, "ryjl3-tyaaa-aaaaa-aaaba-cai",
    "a40b5561de0434967fd095c828cc741359c734bdbf0015b43aa23309357d1f63",
    "qvn3w-rqaaa-aaaam-qd4kq-cai-bqbwdjy.1"⟩

theorem addresses_distinct_two :
    ∃ s : Fleet, s.clients.map Prod.snd = [.returned [firstAddress], .returned [secondAddress]] ∧
      (s.returned.map DepositAddress.subaccountId).Nodup ∧
      (s.returned.map DepositAddress.depositAddress).Nodup := by
  obtain ⟨hmeets, hnonce, hclients⟩ :
      (fleet textual).Meets (fun s i => CallsSucceed textual s i ∧ Undisturbed textual s i)
        twoClients oneAfterTheOther ∧
      (oneAfterTheOther.foldl (fleet textual).after
        twoClients).system.canister.lastSubaccountNonce = 2 ∧
      (oneAfterTheOther.foldl (fleet textual).after twoClients).clients.map Prod.snd =
        [.returned [firstAddress], .returned [secondAddress]] := by decide +kernel
  obtain ⟨os, hrun⟩ := Lib.Machine.Run.nil.meets hmeets
  refine ⟨_, hclients, addresses_distinct textual_formats _ hrun ?_⟩
  rw [hnonce]
  exact distinctIds_two

/-- Two clients read nonce 0, each has a subaccount created, and both get the address of the
first of them, with every call successful. -/
theorem address_returned_twice : Installed textual unissued ∧
    ∃ os s, (fleet textual).Run (CallsSucceed textual) twoClients os s ∧
      s.system.canister.lastSubaccountNonce = 2 ∧
      s.clients.map Prod.snd = [.returned [firstAddress], .returned [firstAddress]] ∧
      ¬ (s.returned.map DepositAddress.subaccountId).Nodup ∧
      ¬ (s.returned.map DepositAddress.depositAddress).Nodup := by
  obtain ⟨hmeets, hnonce, hclients⟩ :
      (fleet textual).Meets (CallsSucceed textual) twoClients alternating ∧
      (alternating.foldl (fleet textual).after
        twoClients).system.canister.lastSubaccountNonce = 2 ∧
      (alternating.foldl (fleet textual).after twoClients).clients.map Prod.snd =
        [.returned [firstAddress], .returned [firstAddress]] := by decide +kernel
  obtain ⟨os, hrun⟩ := Lib.Machine.Run.nil.meets hmeets
  refine ⟨unissued_installed, os, _, hrun, hnonce, hclients, ?_⟩
  rw [Fleet.returned_eq, hclients]
  decide

end SubaccountIndexer.DepositAddresses
