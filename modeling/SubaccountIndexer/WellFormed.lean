import SubaccountIndexer.Custodian
import SubaccountIndexer.Custody
import SubaccountIndexer.LedgerRouting
import SubaccountIndexer.Upgrade

/-! What holds of the canister in every reachable state, whatever calls, answers, ticks and
upgrades have led to it. -/

namespace SubaccountIndexer
open Custody (Numbered numbered_step installed_numbered)
open LedgerRouting (Registry)
open Upgrade (Settled settled_step installed_settled Rebuilt rebuilt_step)

variable (E : Externals)

def IsTransfer (tx : StoredTransactions) : Prop := ∃ data, tx.operation = some (.transfer data)

/-- There is a cursor for each of the four tokens, and no other. -/
def FourCursors (cursors : TokenNextBlocks) : Prop :=
  ∀ id : UInt8, id ∈ cursors ↔ ∃ t, id = getTokenId t

structure Canister.WellFormed (c : Canister) : Prop where
  settled : Settled c
  ledger : c.principal ≠ none
  custodian : c.custodianPrincipal ≠ none
  keyed : Keyed c.transactions
  transfers : ∀ (k : UInt64) tx, c.transactions[k]? = some tx → IsTransfer tx
  fits : ∀ (k : UInt64) tx, c.transactions[k]? = some tx → tx.Fits
  registry : Registry c.tokenLedgerPrincipals
  cursors : FourCursors c.tokenNextBlocks
  numbered : Numbered E c.listOfSubaccounts
  covered : Covered E c.lastSubaccountNonce.toNat c.listOfSubaccounts
  rebuilt : Rebuilt E c

variable {E} {c c' : Canister} {turn : Turn} {σ σ' : System} {i : Input} {os : List Event}
  {cursors : TokenNextBlocks}

theorem isTransfer_record {b : Block} {index : UInt64} {hash : String} {t : TokenType}
    {p : Principal} (transfer : b.isTransfer = true) : IsTransfer (b.record index hash t p) := by
  unfold Block.isTransfer at transfer
  cases hoperation : b.transaction.operation with
  | none => simp [hoperation] at transfer
  | some operation =>
    cases operation with
    | transfer data => exact ⟨data, hoperation⟩
    | _ => simp [hoperation, Operation.isTransfer] at transfer

/-! ## Cursors -/

theorem FourCursors.insert (h : FourCursors cursors) (t : TokenType) (block : UInt64) :
    FourCursors (cursors.insert (getTokenId t) block) := by
  intro id
  rw [Std.ExtTreeMap.mem_insert, Std.compare_eq_iff_eq, h id]
  constructor
  · rintro (rfl | hmem)
    · exact ⟨t, rfl⟩
    · exact hmem
  · exact .inr

theorem FourCursors.nonempty (h : FourCursors cursors) : cursors.isEmpty = false := by
  have hmem : getTokenId .icp ∈ cursors := (h _).mpr ⟨.icp, rfl⟩
  by_contra hempty
  rw [Bool.not_eq_false, Std.ExtTreeMap.isEmpty_iff] at hempty
  rw [hempty] at hmem
  simp at hmem

theorem resetTokenBlocks_cursors (c : Canister) (none : ∀ id : UInt8, id ∈ c.tokenNextBlocks →
    ∃ t, id = getTokenId t) : FourCursors (resetTokenBlocks c).tokenNextBlocks := by
  intro id
  simp only [resetTokenBlocks, Canister.setTokenNextBlock, Std.ExtTreeMap.mem_insert,
    Std.compare_eq_iff_eq]
  constructor
  · rintro (rfl | rfl | rfl | rfl | hmem)
    · exact ⟨.ckbtc, rfl⟩
    · exact ⟨.ckusdt, rfl⟩
    · exact ⟨.ckusdc, rfl⟩
    · exact ⟨.icp, rfl⟩
    · exact none id hmem
  · rintro ⟨t, rfl⟩
    cases t <;> simp

theorem Writes.fourCursors {method : Method} (h : Writes E c method c')
    (four : FourCursors c.tokenNextBlocks) : FourCursors c'.tokenNextBlocks := by
  cases h with
  | cursor => exact four.insert _ _
  | reset => exact resetTokenBlocks_cursors c fun id => (four id).mp
  | _ => exact four

theorem ResumeWrites.fourCursors {task : Task} {reply : Reply} (h : ResumeWrites E c task reply c')
    (four : FourCursors c.tokenNextBlocks) : FourCursors c'.tokenNextBlocks := by
  exact h.keeps (P := fun c => FourCursors c.tokenNextBlocks) (fun _ => four)
    (fun _ _ _ => four.insert _ _) fun _ => four

theorem fourCursors_step (h : Fires E σ i σ' os) (four : FourCursors σ.canister.tokenNextBlocks) :
    FourCursors σ'.canister.tokenNextBlocks := by
  refine h.keeps (P := fun c => FourCursors c.tokenNextBlocks) four
    (fun writes => writes.fourCursors four) (fun resumes => resumes.fourCursors four) fun caller => ?_
  rwa [(postUpgrade_frame σ.canister caller).cursors four.nonempty]

/-! ## The other parts -/

theorem registry_step (h : Fires E σ i σ' os) (registry : Registry σ.canister.tokenLedgerPrincipals) :
    Registry σ'.canister.tokenLedgerPrincipals := by
  by_cases hcalls : i.calls Method.writesLedgers = true
  · cases h with
    | @call caller method turn allowed runs =>
      cases method with
      | registerToken t text =>
        cases runs
        unfold registerToken
        split
        · exact registry
        · exact LedgerRouting.registry_insert registry t _
      | _ => cases hcalls
    | rejected | callTraps => exact registry
    | _ => cases hcalls
  · rw [h.frame.ledgers (by simpa using hcalls)]
    exact registry

theorem ResumeWrites.custodian_kept {task : Task} {reply : Reply}
    (h : ResumeWrites E c task reply c') (set : c.custodianPrincipal ≠ none) :
    c'.custodianPrincipal ≠ none := by
  exact h.keeps (P := fun c => c.custodianPrincipal ≠ none) (fun _ => set) (fun _ _ _ => set)
    fun p => Option.some_ne_none p

/-- The custodian is replaced, but never taken away. -/
theorem custodian_kept (h : Fires E σ i σ' os) (set : σ.canister.custodianPrincipal ≠ none) :
    σ'.canister.custodianPrincipal ≠ none := by
  refine h.keeps (P := fun c => c.custodianPrincipal ≠ none) set
    (fun writes => by rwa [writes.authority.custodian]) (fun resumes => resumes.custodian_kept set)
    fun caller => ?_
  unfold postUpgrade ensureCustodian
  dsimp only
  split
  · simp_all
  · exact Option.some_ne_none _

/-- A poll and an archive call store transfers. -/
theorem transfers_step (keyed : Keyed σ.canister.transactions) (h : Fires E σ i σ' os)
    (transfers : AllRecords IsTransfer σ) : AllRecords IsTransfer σ' := by
  refine transfers.step keyed h (fun _ _ => id) fun tx j stored => ?_
  cases h.event keyed _ stored with
  | polled waits polled block relevant transfer fits => exact isTransfer_record transfer
  | archived input waits relevant transfer fits => exact isTransfer_record transfer

/-! ## Every reachable state -/

theorem installed_wellFormed (h : Installed E σ) : σ.canister.WellFormed E := by
  obtain ⟨-, hstore, -, hledgers, hlist⟩ := h.canister
  have hfits := Nat.le_of_lt (UInt32.toNat_lt σ.canister.lastSubaccountNonce)
  have hinit : σ.canister.principal ≠ none ∧ σ.canister.custodianPrincipal ≠ none ∧
      FourCursors σ.canister.tokenNextBlocks := by
    obtain ⟨-, network, seconds, nonce, ledger, custodian, hinit⟩ := h
    unfold init at hinit
    split at hinit
    · cases hinit
    · split at hinit
      · cases hinit
      · rw [← Except.ok.inj hinit]
        exact ⟨nofun, nofun, resetTokenBlocks_cursors _ fun id hid => by
          simp [Canister.default] at hid⟩
  exact {
    settled := installed_settled h
    ledger := hinit.1
    custodian := hinit.2.1
    keyed := by simp [hstore, keyed_empty]
    transfers := by simp [hstore]
    fits := by simp [hstore]
    registry := by simp [hledgers, Registry]
    cursors := hinit.2.2
    numbered := installed_numbered h
    covered := hlist ▸ reconstructUpTo_covered ∅ _ hfits
    rebuilt := fun key subaccount hrebuilt => hlist ▸ hrebuilt }

theorem wellFormed_step (h : Fires E σ i σ' os) (wellFormed : σ.canister.WellFormed E)
    (transfers : AllRecords IsTransfer σ) (fit : AllRecords StoredTransactions.Fits σ) :
    σ'.canister.WellFormed E := by
  refine ⟨settled_step h wellFormed.settled, ?_, custodian_kept h wellFormed.custodian,
    keyed_step wellFormed.keyed h, (transfers_step wellFormed.keyed h transfers).stored,
    (fits_step fit wellFormed.keyed h).stored, registry_step h wellFormed.registry,
    fourCursors_step h wellFormed.cursors, numbered_step h wellFormed.numbered,
    covered_step h wellFormed.covered, rebuilt_step h wellFormed.rebuilt⟩
  rw [h.frame.principal]
  exact wellFormed.ledger

theorem reachable_wellFormed (h : Reachable E σ) :
    σ.canister.WellFormed E ∧ ∀ tx, σ.Pending tx → IsTransfer tx := by
  obtain ⟨start, os, installed, run⟩ := h
  have hrun := run.invariant
    (P := fun σ => σ.canister.WellFormed E ∧ AllRecords IsTransfer σ ∧
      AllRecords StoredTransactions.Fits σ)
    ⟨installed_wellFormed installed, installed.allRecords, installed.allRecords⟩
    fun s i s' os' before _ step => by
      obtain ⟨hwell, htransfers, hfit⟩ := before
      have hfires := fires_of_step E step
      exact ⟨wellFormed_step hfires hwell htransfers hfit,
        transfers_step hwell.keyed hfires htransfers, fits_step hfit hwell.keyed hfires⟩
  exact ⟨hrun.1, hrun.2.1.copied⟩

/-- Every reachable canister is well formed, and the copies its messages hold are transfers; in
particular the keys of its records, cursors, tokens and subaccounts are those they should have. -/
theorem wellFormed_always (E : Externals) (reachable : Reachable E σ) :
    σ.canister.WellFormed E ∧ ∀ tx, σ.Pending tx → IsTransfer tx := reachable_wellFormed reachable

theorem wellFormed_deposit :
    Examples.depositStored.canister.WellFormed Examples.externals ∧
      ∀ tx, Examples.depositStored.Pending tx → IsTransfer tx :=
  wellFormed_always Examples.externals Examples.depositStored_reachable

/-! ## Ticks -/

/-- The ledger a token is polled on -/
def polledLedger (c : Canister) (t : TokenType) : Option Principal :=
  (registeredLedger c.tokenLedgerPrincipals t).or (if t = .icp then c.principal else none)

theorem eq_toList_head? {α : Type} {l : List α} (one : l.length ≤ 1) : l = l.head?.toList := by
  match l, one with
  | [], _ => rfl
  | [a], _ => rfl

theorem length_le_one {α : Type} {l : List α} {r : α → α → Prop} (apart : l.Pairwise r)
    (never : ∀ a ∈ l, ∀ b ∈ l, ¬ r a b) : l.length ≤ 1 := by
  match l, apart, never with
  | [], _, _ => exact Nat.zero_le 1
  | [a], _, _ => exact Nat.le_refl 1
  | a :: b :: rest, apart, never =>
    exact absurd (List.rel_of_pairwise_cons apart (.head _)) (never a (.head _) b (.tail _ (.head _)))

/-- One token has one entry in the registry. -/
theorem registered_once {ledgers : TokenLedgers} (registry : Registry ledgers) (t : TokenType) :
    ledgers.toList.filter (fun entry => entry.2.1 == t) =
      ((registeredLedger ledgers t).map fun p => ((getTokenId t).toUInt64, t, p)).toList := by
  have hdistinct : ledgers.toList.Pairwise fun a b => a.1 ≠ b.1 := by
    have hkeys := Std.ExtTreeMap.nodup_keys (t := ledgers)
    rw [← Std.ExtTreeMap.map_fst_toList_eq_keys] at hkeys
    exact List.pairwise_map.mp hkeys
  have hentry : ∀ entry ∈ ledgers.toList.filter (fun entry => entry.2.1 == t),
      entry.1 = (getTokenId t).toUInt64 ∧ entry.2.1 = t := by
    intro entry hmem
    obtain ⟨hmem, htoken⟩ := List.mem_filter.mp hmem
    have htoken : entry.2.1 = t := by simpa using htoken
    exact ⟨htoken ▸ registry _ _ _ (Std.ExtTreeMap.mem_toList_iff_getElem?_eq_some.mp hmem), htoken⟩
  have hone := length_le_one (hdistinct.filter fun entry => entry.2.1 == t)
    fun a ha b hb hne => hne ((hentry a ha).1.trans (hentry b hb).1.symm)
  rw [eq_toList_head? hone, List.head?_filter, registeredLedger]
  cases hfound : ledgers.toList.find? fun entry => entry.2.1 == t with
  | none => rfl
  | some entry =>
    have hmem : entry ∈ ledgers.toList.filter fun entry => entry.2.1 == t :=
      List.mem_filter.mpr ⟨List.mem_of_find?_eq_some hfound,
        by simpa using List.find?_some hfound⟩
    obtain ⟨key, s, p⟩ := entry
    obtain ⟨hkey, htoken⟩ : key = (getTokenId t).toUInt64 ∧ s = t := hentry _ hmem
    rw [hkey, htoken]
    rfl

theorem pollsToStart_token {c : Canister} (registry : Registry c.tokenLedgerPrincipals)
    (t : TokenType) : (pollsToStart c).filter (fun p => p.1 == t) =
      ((polledLedger c t).map fun ledger => (t, ledger, c.getTokenNextBlock t)).toList := by
  have hregistered : ((c.tokenLedgerPrincipals.toList.map fun entry =>
      (entry.2.1, entry.2.2, c.getTokenNextBlock entry.2.1)).filter fun p => p.1 == t) =
        ((registeredLedger c.tokenLedgerPrincipals t).map fun ledger =>
          (t, ledger, c.getTokenNextBlock t)).toList := by
    rw [List.filter_map]
    have hfilter := registered_once registry t
    rw [show ((fun p : TokenType × Principal × UInt64 => p.1 == t) ∘ fun entry : UInt64 × TokenType ×
      Principal => (entry.2.1, entry.2.2, c.getTokenNextBlock entry.2.1)) =
        fun entry => entry.2.1 == t from rfl, hfilter]
    cases registeredLedger c.tokenLedgerPrincipals t <;> rfl
  have hicp : registeredLedger c.tokenLedgerPrincipals .icp = none ↔ _ := registeredLedger_eq_none
  unfold pollsToStart polledLedger
  dsimp only
  cases hany : c.tokenLedgerPrincipals.toList.any fun entry => entry.2.1 == .icp with
  | true =>
    rw [if_pos rfl, hregistered]
    cases t with
    | icp =>
      cases hledger : registeredLedger c.tokenLedgerPrincipals .icp with
      | none => simp [hicp.mp hledger] at hany
      | some p => rfl
    | _ => simp
  | false =>
    have hnone := hicp.mpr hany
    rw [if_neg (by simp)]
    cases hprincipal : c.principal with
    | none =>
      rw [hregistered]
      cases t <;> simp [hnone]
    | some p =>
      rw [List.filter_append, hregistered]
      cases t <;> simp [hnone]

/-- In every reachable state the timer runs, and a tick starts one poll for each token that is
registered and one for ICP in any case: on the ledger of the token, from its cursor. -/
theorem tick_polls (E : Externals) (reachable : Reachable E σ) :
    ∃ polls : List (TokenType × Principal × UInt64), (machine E).step σ .timer =
        some (⟨σ.canister, σ.tasks ++ polls.map fun p => .poll p.1 p.2.1 p.2.2⟩, []) ∧
      (∀ t, polls.filter (fun p => p.1 == t) = ((polledLedger σ.canister t).map fun ledger =>
        (t, ledger, σ.canister.getTokenNextBlock t)).toList) ∧
      polledLedger σ.canister .icp ≠ none := by
  obtain ⟨hwell, -⟩ := reachable_wellFormed reachable
  refine ⟨pollsToStart σ.canister, ?_, pollsToStart_token hwell.registry, ?_⟩
  · simp only [machine, System.step, hwell.settled.timer]
  · simpa [polledLedger, Option.or_eq_none_iff] using fun _ => hwell.ledger

open Examples in
theorem tick_polls_deposit : ∃ polls : List (TokenType × Principal × UInt64),
    (machine externals).step depositStored .timer =
        some (⟨depositStored.canister,
          depositStored.tasks ++ polls.map fun p => .poll p.1 p.2.1 p.2.2⟩, []) ∧
      (∀ t, polls.filter (fun p => p.1 == t) = ((polledLedger depositStored.canister t).map
        fun ledger => (t, ledger, depositStored.canister.getTokenNextBlock t)).toList) ∧
      polledLedger depositStored.canister .icp ≠ none :=
  tick_polls externals depositStored_reachable

end SubaccountIndexer
