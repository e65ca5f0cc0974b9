import SubaccountIndexer.AccountText
import SubaccountIndexer.Subaccounts
import Mathlib.Data.List.Nodup
import Mathlib.Logic.Equiv.Basic

/-! Which subaccounts `add_subaccount` hands out over the life of a canister. The addresses it
returns are those of the nonces from the first one on, modulo 2^32: the calls number them without
a gap, and an upgrade keeps the nonce. So the first to come twice is the one after 2^32 calls. -/

namespace SubaccountIndexer.AddressReuse
open AccountText (TextFormats toText_injective)

/-- An address, and the token it was asked for -/
structure Address where
  tokenType : TokenType
  text : String

variable (E : Externals)

/-- The text is the address of a subaccount of the canister: for ICP its account identifier, for
the other tokens its ICRC-1 account. -/
def Address.Names (address : Address) (subaccount : Subaccount) : Prop :=
  match address.tokenType with
  | .icp => address.text = E.hexEncode (toSubaccountId E subaccount).toList
  | .ckusdc | .ckusdt | .ckbtc =>
    address.text = (IcrcAccount.mk E.canisterId (some subaccount)).toText E

/-- Two addresses of one subaccount -/
def Address.Same (a b : Address) : Prop := ∃ subaccount, a.Names E subaccount ∧ b.Names E subaccount

/-- The addresses that calls of `add_subaccount` have returned, in their order -/
abbrev Handed := List Address

/-- What a call of `add_subaccount` adds to them: the text it returns -/
def handOut (σ : System) (i : Input) (handed : Handed) : Handed :=
  match i with
  | .call caller (.addSubaccount t) =>
    match startCall E σ.canister caller (.addSubaccount t) with
    | .ok ⟨_, .finished (.ok (.text text)), _⟩ => handed ++ [⟨t.getD .icp, text⟩]
    | _ => handed
  | _ => handed

/-- The canister together with what it has handed out -/
def handingMachine : Lib.Machine (System × Handed) Input Event :=
  (machine E).withHistory (handOut E)

variable {E} {σ σ' : System} {i : Input} {os : List Event} {s s' : System × Handed}
  {address : Address} {subaccount : Subaccount}

/-! ## Addresses -/

theorem toBeBytes_injective {m n : UInt32} (h : toBeBytes m = toBeBytes n) : m = n := by
  simp only [toBeBytes, List.cons.injEq, and_true, ← UInt8.toNat_inj, UInt8.toNat_ofNat'] at h
  have hm := m.toNat_lt
  have hn := n.toNat_lt
  exact UInt32.toNat_inj.mp (by omega)

theorem toSubaccount_injective {m n : UInt32} (h : toSubaccount m = toSubaccount n) : m = n :=
  toBeBytes_injective (List.append_cancel_left (congrArg Bytes32.toList h))

theorem names_nonce {nonce : UInt32} (printed : address.text =
    subaccountAddress E nonce address.tokenType) : address.Names E (toSubaccount nonce) := by
  obtain ⟨t, text⟩ := address
  cases t <;> exact printed

/-- The address of a nonce names its subaccount alone. -/
theorem eq_of_names (injective : Function.Injective (toSubaccountId E))
    (formats : TextFormats E E.canisterId) {nonce : UInt32}
    (printed : address.text = subaccountAddress E nonce address.tokenType)
    (names : address.Names E subaccount) : subaccount = toSubaccount nonce := by
  obtain ⟨t, text⟩ := address
  cases t with
  | icp =>
    have hsame := hexEncode_injective E (names.symm.trans printed)
    exact injective (Bytes32.toList_injective hsame)
  | ckusdc | ckusdt | ckbtc => exact toText_injective formats (names.symm.trans printed)

/-! ## Steps -/

theorem handOut_added {caller : Principal} {t : Option TokenType}
    (allowed : σ.runs E (.call caller (.addSubaccount t)) = some (.addSubaccount t))
    (handed : Handed) : handOut E σ (.call caller (.addSubaccount t)) handed = handed ++
      [⟨t.getD .icp, subaccountAddress E σ.canister.lastSubaccountNonce (t.getD .icp)⟩] := by
  simp only [handOut, startCall_of_runs E allowed]
  rfl

theorem handOut_other (other : ∀ t, σ.runs E i ≠ some (.addSubaccount t)) (handed : Handed) :
    handOut E σ i handed = handed := by
  cases i with
  | call caller method =>
    cases method with
    | addSubaccount t =>
      rcases startCall_cases E σ caller (.addSubaccount t) with ⟨message, hrejected⟩ | ⟨hruns, -⟩
      · simp only [handOut, hrejected, Turn.done]
      · exact absurd hruns (other t)
    | _ => rfl
  | _ => rfl

/-- A call that returns an address prints that of the nonce, which it raises; no other step
touches the nonce. -/
theorem handOut_step (fires : (machine E).step σ i = some (σ', os)) (handed : Handed) :
    (σ'.canister.lastSubaccountNonce = σ.canister.lastSubaccountNonce + 1 ∧
        ∃ address : Address, handOut E σ i handed = handed ++ [address] ∧
          address.text = subaccountAddress E σ.canister.lastSubaccountNonce address.tokenType) ∨
      σ'.canister.lastSubaccountNonce = σ.canister.lastSubaccountNonce ∧
        handOut E σ i handed = handed := by
  by_cases hadds : ∃ t, σ.runs E i = some (.addSubaccount t)
  · obtain ⟨t, hruns⟩ := hadds
    cases i with
    | call caller method =>
      obtain rfl := System.runs_call E hruns
      rw [step_of_runs E hruns rfl] at fires
      obtain ⟨rfl, -⟩ := Prod.mk.inj (Option.some.inj fires)
      exact .inl ⟨rfl, _, handOut_added hruns handed, rfl⟩
    | _ => cases hruns
  · refine .inr ⟨?_, handOut_other (fun t hruns => hadds ⟨t, hruns⟩) handed⟩
    rcases (fires_of_step E fires).subaccounts with ⟨hnonce, -⟩ | ⟨hnonce, -⟩ | ⟨hruns, -⟩
    · exact hnonce
    · exact hnonce
    · exact absurd hruns hadds

/-- The nonce counts what was handed out, and the addresses are printed for the nonces from the
first on. -/
structure Counted (E : Externals) (first : UInt32) (s : System × Handed) : Prop where
  next : s.1.canister.lastSubaccountNonce = first + UInt32.ofNat s.2.length
  printed : ∀ k (address : Address), s.2[k]? = some address →
    address.text = subaccountAddress E (first + UInt32.ofNat k) address.tokenType

theorem counted_step {first : UInt32} (counted : Counted E first s)
    (fires : (handingMachine E).step s i = some (s', os)) : Counted E first s' := by
  obtain ⟨hstep, hhistory⟩ := Lib.Machine.withHistory_step.mp fires
  rcases handOut_step hstep s.2 with ⟨hnonce, added, hhanded, hprinted⟩ | ⟨hnonce, hhanded⟩
  · rw [← hhistory] at hhanded
    constructor
    · rw [hnonce, counted.next, hhanded, List.length_append, UInt32.ofNat_add, UInt32.add_assoc]
      rfl
    · intro k address hk
      rw [hhanded] at hk
      rcases Nat.lt_trichotomy k s.2.length with hlt | rfl | hgt
      · rw [List.getElem?_append_left hlt] at hk
        exact counted.printed k address hk
      · simp only [List.getElem?_concat_length, Option.some.injEq] at hk
        rw [← hk, ← counted.next]
        exact hprinted
      · rw [List.getElem?_eq_none (by rw [List.length_append, List.length_singleton]; omega)] at hk
        cases hk
  · rw [← hhistory] at hhanded
    exact ⟨by rw [hnonce, hhanded, counted.next], by rw [hhanded]; exact counted.printed⟩

theorem counted_run {σ₀ : System}
    (run : (handingMachine E).Run (fun _ _ => True) (σ₀, []) os s) :
    Counted E σ₀.canister.lastSubaccountNonce s :=
  run.invariant (P := Counted E σ₀.canister.lastSubaccountNonce)
    ⟨(UInt32.add_zero _).symm, by simp⟩ fun _ _ _ _ counted _ fires => counted_step counted fires

/-- After 2^32 addresses the nonce has come round, and the next is one of the first subaccount. -/
theorem Counted.reused {first : UInt32} (counted : Counted E first s)
    (more : 2 ^ 32 < s.2.length) : ¬ s.2.Pairwise fun a b => ¬ a.Same E b := by
  intro hpairwise
  rw [List.pairwise_iff_getElem] at hpairwise
  have hfirst := counted.printed 0 _ (List.getElem?_eq_getElem (Nat.zero_lt_of_lt more))
  have hagain := counted.printed (2 ^ 32) _ (List.getElem?_eq_getElem more)
  have hround : first + UInt32.ofNat (2 ^ 32) = first + UInt32.ofNat 0 := by
    rw [show UInt32.ofNat (2 ^ 32) = UInt32.ofNat 0 by decide]
  rw [hround] at hagain
  exact hpairwise 0 (2 ^ 32) (by omega) more (by decide)
    ⟨_, names_nonce hfirst, names_nonce hagain⟩

/-- In every run, from any first nonce, no two calls of `add_subaccount` return addresses of one
subaccount if and only if it has returned at most 2^32 addresses. -/
theorem handed_once {σ₀ : System} (injective : Function.Injective (toSubaccountId E))
    (formats : TextFormats E E.canisterId)
    (run : (handingMachine E).Run (fun _ _ => True) (σ₀, []) os s) :
    (s.2.Pairwise fun a b => ¬ a.Same E b) ↔ s.2.length ≤ 2 ^ 32 := by
  have hcounted := counted_run run
  constructor
  · intro hpairwise
    by_contra hmore
    exact hcounted.reused (by omega) hpairwise
  · intro hle
    rw [List.pairwise_iff_getElem]
    rintro j k hj hk hlt ⟨subaccount, hnames, hnames'⟩
    have hfirst := eq_of_names injective formats
      (hcounted.printed j _ (List.getElem?_eq_getElem hj)) hnames
    have hsecond := eq_of_names injective formats
      (hcounted.printed k _ (List.getElem?_eq_getElem hk)) hnames'
    have hsame : UInt32.ofNat j = UInt32.ofNat k :=
      UInt32.add_right_inj _ |>.mp (toSubaccount_injective (hfirst.symm.trans hsecond))
    have hnat := congrArg UInt32.toNat hsame
    rw [UInt32.toNat_ofNat_of_lt' (Nat.lt_of_lt_of_le hj hle),
      UInt32.toNat_ofNat_of_lt' (Nat.lt_of_lt_of_le hk hle)] at hnat
    omega

/-! Two addresses, and one more than there are nonces. -/

open Examples AccountText

def unissued : System :=
  ⟨{ installed with lastSubaccountNonce := 0, listOfSubaccounts := ∅ }, []⟩

/-- The external code with account identifiers that are injective, and as they are for the
subaccounts of the nonces 0 and 1 -/
def permuted : Externals :=
  { textual with
    accountIdentifier := fun _ subaccount =>
      Equiv.swap (toSubaccount 0) account0 (Equiv.swap (toSubaccount 1) account1 subaccount)
    accountFromSlice_canonical := fun _ _ => by simp [textual, externals, Bytes32.length_eq] }

theorem permuted_injective : Function.Injective (toSubaccountId permuted) :=
  (Equiv.swap _ _).injective.comp (Equiv.swap _ _).injective

theorem permuted_formats : TextFormats permuted permuted.canisterId where
  inverts := textual_formats.inverts
  noDot := textual_formats.noDot
  dashed := textual_formats.dashed
  encode := textual_formats.encode
  odd := textual_formats.odd

theorem unissued_installed : Installed permuted unissued := by
  refine ⟨rfl, .local, 500, 0, "ryjl3-tyaaa-aaaaa-aaaba-cai", "ryjl3-tyaaa-aaaaa-aaaba-cai", ?_⟩
  rfl

/-- The custodian asks for an address of a token. -/
abbrev ask (t : Option TokenType) : Input := .call custodian (.addSubaccount t)

abbrev handedTwo : System × Handed :=
  (handingMachine permuted).after ((handingMachine permuted).after (unissued, []) (ask none))
    (ask (some .ckbtc))

theorem handed_once_two :
    handedTwo.2.map Address.text =
        ["852ea81150fbf7d0f2bef19219bc13eeb16de30fa37a3539dd82021b48086bc9",
          "qvn3w-rqaaa-aaaam-qd4kq-cai-bqbwdjy.1"] ∧
      handedTwo.2.Pairwise fun a b => ¬ a.Same permuted b := by
  have run : (handingMachine permuted).Run (fun _ _ => True) (unissued, []) _
      ((handingMachine permuted).after (unissued, []) (ask none)) :=
    Lib.Machine.Run.nil.next (i := ask none) trivial rfl
  have hrun := run.next (i := ask (some .ckbtc)) trivial rfl
  exact ⟨by decide +kernel,
    (handed_once permuted_injective permuted_formats hrun).mpr (by decide +kernel)⟩

/-- The run asks for addresses and does nothing else. -/
def Asks (_ : System × Handed) (i : Input) : Prop := i = ask none

/-- A canister off the main network hands out as many addresses as it is asked for. -/
theorem asks_run (n : Nat) : ∃ os s, (handingMachine permuted).Run Asks (unissued, []) os s ∧
    s.1.canister.network = .local ∧ s.2.length = n := by
  induction n with
  | zero => exact ⟨[], _, .nil, rfl, rfl⟩
  | succ n ih =>
    obtain ⟨os, s, hrun, hlocal, hlength⟩ := ih
    have hallowed : s.1.runs permuted (ask none) = some (.addSubaccount none) := by
      simp [System.runs, authenticate, hlocal, Except.isOk, Except.toBool]
    have hadded := handOut_added hallowed s.2
    refine ⟨_, (_, handOut permuted s.1 (ask none) s.2), hrun.step (i := ask none) rfl
      (Lib.Machine.withHistory_step.mpr ⟨step_of_runs permuted hallowed rfl, rfl⟩), ?_, ?_⟩
    · exact hlocal
    · rw [hadded, List.length_append, hlength, List.length_singleton]

/-- Of 2^32 + 1 calls two have returned an address of one subaccount. -/
theorem address_reused : Function.Injective (toSubaccountId permuted) ∧
    Installed permuted unissued ∧
    ∃ os s, (handingMachine permuted).Run Asks (unissued, []) os s ∧ s.2.length = 2 ^ 32 + 1 ∧
      ¬ s.2.Pairwise fun a b => ¬ a.Same permuted b := by
  obtain ⟨os, s, hrun, -, hlength⟩ := asks_run (2 ^ 32 + 1)
  have hcounted := counted_run (hrun.mono fun _ _ _ => trivial)
  exact ⟨permuted_injective, unissued_installed, os, s, hrun, hlength,
    hcounted.reused (by rw [hlength]; omega)⟩

end SubaccountIndexer.AddressReuse
