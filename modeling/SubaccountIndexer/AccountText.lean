import SubaccountIndexer.Queries
import SubaccountIndexer.Checksum

/-! The text of an ICRC-1 account, printed and parsed. The printer drops the leading zero
digits of the subaccount, the parser reads whole bytes: the text of an account comes back as
the account exactly when the number of digits that are left is even. -/

namespace SubaccountIndexer.AccountText

open IcrcAccount

variable (E : Externals)

/-- What is documented of the texts of principals, and of hex -/
structure TextFormats (owner : Principal) : Prop where
  inverts : E.principalFromText (E.principalToText owner) = .ok owner
  noDot : '.' ∉ (E.principalToText owner).toList
  /-- The text of a principal has its groups of five characters separated by dashes. -/
  dashed : ∀ text : String, '-' ∉ text.toList → ∃ e, E.principalFromText text = .error e
  encode : ∀ bytes, E.hexEncode bytes = Lib.Hex.encode bytes
  odd : ∀ text : String, text.toList.length % 2 = 1 → ∃ e, E.hexDecode text = .error e

/-- The account with the all-zero subaccount left out -/
def normalised (account : IcrcAccount) : IcrcAccount :=
  match account.subaccount with
  | none => account
  | some subaccount =>
    if isDefaultSubaccount subaccount then { account with subaccount := none } else account

/-- The first byte that is not zero has two digits without leading zeros. -/
def Paired (subaccount : Option Bytes32) : Prop :=
  ∀ s, subaccount = some s → ∀ b ∈ (s.toList.dropWhile (· == 0)).head?, 16 ≤ b.toNat

instance (subaccount : Option Bytes32) : Decidable (Paired subaccount) :=
  match subaccount with
  | none => .isTrue nofun
  | some s => decidable_of_iff
    ((s.toList.dropWhile (· == 0)).head?.all (fun b => decide (16 ≤ b.toNat)) = true) <| by
      rw [Option.all_eq_true]
      constructor
      · intro h t ht b hb
        cases ht
        exact of_decide_eq_true (h b hb)
      · intro h b hb
        exact decide_eq_true (h s rfl b hb)

variable {E} {owner : Principal} {s : Bytes32}

/-! ## Splitting -/

/-- A text of the three parts `to_text` prints is taken apart again. -/
theorem fromText_parts {ownerText checksum hex : List Char} (ownerDot : '.' ∉ ownerText)
    (checksumDot : '.' ∉ checksum) (hexDot : '.' ∉ hex) (checksumDash : '-' ∉ checksum)
    {owner : Principal} (parses : E.principalFromText (String.ofList ownerText) = .ok owner) :
    fromText E (String.ofList (ownerText ++ '-' :: checksum ++ '.' :: hex)) =
      checkedAccount E owner (String.ofList checksum) (String.ofList hex) := by
  have hdot : '.' ∉ ownerText ++ '-' :: checksum := by
    simp [ownerDot, checksumDot]
  have hsplit : (ownerText ++ '-' :: checksum ++ '.' :: hex).splitOn '.' =
      [ownerText ++ '-' :: checksum, hex] := by
    rw [List.splitOn_append_cons_self, List.splitOn_eq_singleton hdot,
      List.splitOn_eq_singleton hexDot]
    rfl
  have hparts : (ownerText ++ '-' :: checksum).splitOn '-' =
      ownerText.splitOn '-' ++ [checksum] := by
    rw [List.splitOn_append_cons_self, List.splitOn_eq_singleton checksumDash]
  have hlength : ¬ (ownerText.splitOn '-' ++ [checksum]).length < 2 := by
    have := List.length_pos_iff.mpr (List.splitOn_ne_nil '-' ownerText)
    rw [List.length_append, List.length_singleton]
    omega
  have hcontains : (!(ownerText ++ '-' :: checksum ++ '.' :: hex).contains '-' ||
      !(ownerText ++ '-' :: checksum ++ '.' :: hex).contains '.') = false := by
    simp
  unfold fromText
  rw [String.toList_ofList, hcontains, hsplit]
  simp only [Bool.false_eq_true, if_false, hparts, if_neg hlength, List.dropLast_concat,
    List.intercalate_splitOn, parses, List.getLastD_concat]

/-! ## What the printer prints -/

theorem getD_alphabet_mem (i : Nat) : ALPHABET.getD i 'a' ∈ ALPHABET := by
  rw [List.getD_eq_getElem?_getD]
  cases h : ALPHABET[i]? with
  | none => decide
  | some c => exact List.mem_of_getElem? h

/-- The checksum is written in the letters of base 32. -/
theorem base32_alphabet (input : Blob) :
    ∀ c ∈ (base32EncodeLowercase input).toList, c ∈ ALPHABET := by
  intro c hc
  rw [base32EncodeLowercase_toList] at hc
  obtain ⟨d, hd, rfl⟩ := List.mem_map.mp hc
  rw [← alphabet_letter d (Lib.Base32.groups_lt hd)]
  exact getD_alphabet_mem d

theorem not_mem_base32 {c : Char} (foreign : c ∉ ALPHABET) (input : Blob) :
    c ∉ (base32EncodeLowercase input).toList :=
  fun h => foreign (base32_alphabet input c h)

/-- The digits of a subaccount without the leading zeros -/
def trimmedHex (s : Bytes32) : List Char := (Lib.Hex.encodeChars s.toList).dropWhile (· == '0')

theorem not_mem_trimmedHex {c : Char} (foreign : c ∉ Lib.Hex.digits) : c ∉ trimmedHex s :=
  fun h => foreign (Lib.Hex.mem_digits ((List.dropWhile_sublist _).subset h))

/-- The bytes of a subaccount without the leading zeros, of which there are some -/
theorem dropWhile_cons (h : isDefaultSubaccount s = false) :
    ∃ b rest, s.toList.dropWhile (· == 0) = b :: rest ∧ b ≠ 0 := by
  cases hdrop : s.toList.dropWhile (· == 0) with
  | nil =>
    have hall := List.dropWhile_eq_nil_iff.mp hdrop
    rw [isDefaultSubaccount, List.all_eq_true.mpr hall] at h
    cases h
  | cons b rest =>
    have hhead := List.head?_dropWhile_not (· == (0 : UInt8)) s.toList
    rw [hdrop] at hhead
    exact ⟨b, rest, rfl, by simpa using hhead⟩

theorem trimmedHex_ne_nil (h : isDefaultSubaccount s = false) : trimmedHex s ≠ [] := by
  obtain ⟨b, rest, hdrop, hne⟩ := dropWhile_cons h
  rw [trimmedHex, Lib.Hex.trim_zeros, hdrop]
  by_cases hlarge : 16 ≤ b.toNat
  · rw [Lib.Hex.trim_paired hlarge]
    simp
  · rw [Lib.Hex.trim_unpaired (by omega) hne]
    simp

/-- The text of an account with a subaccount that is not the default one -/
theorem toText_parts (encode : ∀ bytes, E.hexEncode bytes = Lib.Hex.encode bytes)
    (h : isDefaultSubaccount s = false) :
    toText E ⟨owner, some s⟩ = String.ofList ((E.principalToText owner).toList ++ '-' ::
      (base32EncodeLowercase (toBeBytes (E.crc32 (owner.bytes ++ s.toList)))).toList ++ '.' ::
      trimmedHex s) := by
  have htrimmed : (Lib.Hex.encode s.toList).toList.dropWhile (· == '0') = trimmedHex s := by
    rw [Lib.Hex.encode, String.toList_ofList, trimmedHex]
  unfold toText
  simp only [h, Bool.false_eq_true, if_false, encode, htrimmed]
  rw [if_neg (by simpa [String.isEmpty_iff] using trimmedHex_ne_nil h)]
  apply String.toList_inj.mp
  simp

theorem toList_of_default (h : isDefaultSubaccount s = true) :
    s.toList = List.replicate 32 0 := by
  have hzeros := List.eq_replicate_of_mem (l := s.toList) (a := 0) fun b hb =>
    by simpa using List.all_eq_true.mp h b hb
  rwa [s.length_eq] at hzeros

theorem toText_default (h : isDefaultSubaccount s = true) :
    toText E ⟨owner, some s⟩ = E.principalToText owner := by
  simp [toText, h]

/-- The text of a principal has a dash, and so has that of an account. -/
theorem dash_mem_toText (formats : TextFormats E owner) (s : Bytes32) :
    '-' ∈ (toText E ⟨owner, some s⟩).toList := by
  have howner : '-' ∈ (E.principalToText owner).toList := by
    by_contra hdashless
    obtain ⟨e, he⟩ := formats.dashed _ hdashless
    rw [formats.inverts] at he
    cases he
  cases hdefault : isDefaultSubaccount s with
  | true => rwa [toText_default hdefault]
  | false =>
    rw [toText_parts formats.encode hdefault]
    simp

/-- Hex digits have no dash, so they are no text of an account. -/
theorem hexEncode_ne_toText (formats : TextFormats E owner) (bytes : Blob) :
    E.hexEncode bytes ≠ toText E ⟨owner, some s⟩ := by
  intro heq
  have hdash := dash_mem_toText formats s
  rw [← heq, formats.encode, Lib.Hex.encode, String.toList_ofList] at hdash
  exact absurd (Lib.Hex.mem_digits hdash) (by decide)

/-- The text of an account determines its subaccount. -/
theorem toText_injective (formats : TextFormats E owner) {s s' : Bytes32}
    (h : toText E ⟨owner, some s⟩ = toText E ⟨owner, some s'⟩) : s = s' := by
  -- an account without a subaccount has no dot in its text, the others have one
  have hdot : ∀ s, isDefaultSubaccount s = false →
      '.' ∈ (toText E ⟨owner, some s⟩).toList := by
    intro s hs
    simp [toText_parts formats.encode hs]
  by_cases hs : isDefaultSubaccount s = true
  · by_cases hs' : isDefaultSubaccount s' = true
    · exact Bytes32.toList_injective ((toList_of_default hs).trans (toList_of_default hs').symm)
    · refine absurd (hdot s' (by simpa using hs')) ?_
      rw [← h, toText_default hs]
      exact formats.noDot
  · by_cases hs' : isDefaultSubaccount s' = true
    · refine absurd (hdot s (by simpa using hs)) ?_
      rw [h, toText_default hs']
      exact formats.noDot
    · rw [toText_parts formats.encode (by simpa using hs),
        toText_parts formats.encode (by simpa using hs')] at h
      have hhead : ∀ s : Bytes32, '.' ∉ (E.principalToText owner).toList ++ '-' ::
          (base32EncodeLowercase (toBeBytes (E.crc32 (owner.bytes ++ s.toList)))).toList := by
        intro s
        simp [formats.noDot, not_mem_base32 (show '.' ∉ ALPHABET by decide)]
      have hparts := (List.append_cons_inj_of_notMem (hhead s)
        (not_mem_trimmedHex (by decide))).mp (String.ofList_injective h)
      exact Bytes32.toList_injective
        (Lib.Hex.trim_injective (s.length_eq.trans s'.length_eq.symm) hparts.2.2)

/-! ## The round trip -/

/-- An even number of digits is left, which decodes to the bytes without the leading zeros. -/
theorem hexDecode_paired (formats : TextFormats E owner) (h : isDefaultSubaccount s = false)
    (paired : Paired (some s)) :
    E.hexDecode (String.ofList (trimmedHex s)) = .ok (s.toList.dropWhile (· == 0)) := by
  obtain ⟨b, rest, hdrop, -⟩ := dropWhile_cons h
  have hlarge : 16 ≤ b.toNat := paired s rfl b (by simp [hdrop])
  have htext : trimmedHex s = Lib.Hex.encodeChars (b :: rest) := by
    rw [trimmedHex, Lib.Hex.trim_zeros, hdrop, Lib.Hex.trim_paired hlarge]
  rw [htext, hdrop]
  show E.hexDecode (Lib.Hex.encode (b :: rest)) = .ok (b :: rest)
  rw [← formats.encode, E.hexDecode_hexEncode]

/-- An odd number of digits is left, which `hex::decode` refuses. -/
theorem hexDecode_unpaired (formats : TextFormats E owner) (h : isDefaultSubaccount s = false)
    (unpaired : ¬ Paired (some s)) :
    ∃ e, E.hexDecode (String.ofList (trimmedHex s)) = .error e := by
  obtain ⟨b, rest, hdrop, hne⟩ := dropWhile_cons h
  have hsmall : b.toNat < 16 := by
    by_contra hlarge
    refine unpaired fun s' hs b' hb => ?_
    cases hs
    obtain rfl : b = b' := by simpa [hdrop] using hb
    omega
  have htext : trimmedHex s = Lib.Hex.digit b.toNat :: Lib.Hex.encodeChars rest := by
    rw [trimmedHex, Lib.Hex.trim_zeros, hdrop, Lib.Hex.trim_unpaired hsmall hne]
  refine formats.odd _ ?_
  rw [String.toList_ofList, htext, List.length_cons, Lib.Hex.length_encodeChars]
  omega

theorem checkedAccount_paired (formats : TextFormats E owner) (h : isDefaultSubaccount s = false)
    (paired : Paired (some s)) :
    checkedAccount E owner (base32EncodeLowercase (toBeBytes (E.crc32 (owner.bytes ++ s.toList))))
      (String.ofList (trimmedHex s)) = .ok ⟨owner, some s⟩ := by
  have hlength : (s.toList.dropWhile (· == 0)).length ≤ 32 := by
    have hle := (List.dropWhile_sublist (· == (0 : UInt8)) (l := s.toList)).length_le
    rwa [s.length_eq] at hle
  have hpadded : List.replicate (32 - (s.toList.dropWhile (· == 0)).length) 0 ++
      s.toList.dropWhile (· == 0) = s.toList := by
    rw [← s.length_eq]
    exact Lib.Hex.pad_dropWhile 0 s.toList
  unfold checkedAccount
  rw [hexDecode_paired formats h paired]
  simp only [dif_pos hlength, hpadded, if_true]

/-- The text of a principal alone is the account without a subaccount. -/
theorem fromText_owner (formats : TextFormats E owner) :
    fromText E (E.principalToText owner) = .ok ⟨owner, none⟩ := by
  have hdot : (E.principalToText owner).toList.contains '.' = false := by
    simpa using formats.noDot
  unfold fromText
  rw [hdot]
  simp only [Bool.not_false, Bool.or_true, if_true, formats.inverts]

theorem fromText_default (formats : TextFormats E owner) (h : isDefaultSubaccount s = true) :
    fromText E (toText E ⟨owner, some s⟩) = .ok ⟨owner, none⟩ := by
  unfold toText
  simp only [h, if_true]
  exact fromText_owner formats

theorem paired_default (h : isDefaultSubaccount s = true) : Paired (some s) := by
  intro s' hs b hb
  cases hs
  have hnil : s.toList.dropWhile (· == 0) = [] :=
    List.dropWhile_eq_nil_iff.mpr (List.all_eq_true.mp h)
  rw [hnil] at hb
  cases hb

/-- What the parser makes of the text of an account whose subaccount is not the default one -/
theorem fromText_checked (formats : TextFormats E owner) (h : isDefaultSubaccount s = false) :
    fromText E (toText E ⟨owner, some s⟩) = checkedAccount E owner
      (base32EncodeLowercase (toBeBytes (E.crc32 (owner.bytes ++ s.toList))))
      (String.ofList (trimmedHex s)) := by
  have hparses : E.principalFromText (String.ofList (E.principalToText owner).toList) =
      .ok owner := by
    rw [String.ofList_toList, formats.inverts]
  rw [toText_parts formats.encode h, fromText_parts formats.noDot (not_mem_base32 (by decide) _)
    (not_mem_trimmedHex (by decide)) (not_mem_base32 (by decide) _) hparses,
    String.ofList_toList]

theorem fromText_unpaired (formats : TextFormats E owner) (unpaired : ¬ Paired (some s)) :
    ∃ e, fromText E (toText E ⟨owner, some s⟩) = .error e := by
  have h : isDefaultSubaccount s = false := by
    cases hdefault : isDefaultSubaccount s with
    | true => exact absurd (paired_default hdefault) unpaired
    | false => rfl
  obtain ⟨e, he⟩ := hexDecode_unpaired formats h unpaired
  rw [fromText_checked formats h]
  unfold checkedAccount
  rw [he]
  exact ⟨_, rfl⟩

theorem fromText_paired (formats : TextFormats E owner) (paired : Paired (some s)) :
    fromText E (toText E ⟨owner, some s⟩) = .ok (normalised ⟨owner, some s⟩) := by
  unfold normalised
  cases h : isDefaultSubaccount s with
  | true =>
    rw [fromText_default formats h]
    simp [h]
  | false =>
    rw [fromText_checked formats h, checkedAccount_paired formats h paired]
    simp [h]

/-! ## The addresses the canister prints -/

variable (E) in
/-- The addresses `add_subaccount`, `get_subaccountid` and `get_icrc_account` print, each with
its token and its nonce -/
inductive Printed (c : Canister) : TokenType → UInt32 → String → Prop
  | added {t : Option TokenType} {text : String}
      (prints : (addSubaccount E c t).task = .finished (.ok (.text text))) :
      Printed c (t.getD .icp) c.lastSubaccountNonce text
  | listed {t : Option TokenType} {nonce : UInt32} {text : String}
      (prints : getSubaccountid E c nonce t = .ok text) : Printed c (t.getD .icp) nonce text
  | icrc {t : TokenType} {nonce : UInt32} {text : String} (ck : t ≠ .icp)
      (prints : getIcrcAccount E c nonce = .ok text) : Printed c t nonce text

variable {c : Canister} {t : TokenType} {nonce : UInt32} {text : String}

theorem getSubaccountid_address {t : Option TokenType}
    (h : getSubaccountid E c nonce t = .ok text) :
    text = subaccountAddress E nonce (t.getD .icp) := by
  unfold getSubaccountid at h
  split at h
  · cases h
  · dsimp only at h
    split at h
    · cases ht : t.getD .icp <;> rw [ht] at h <;> exact (Except.ok.inj h).symm
    · cases h

theorem Printed.address (h : Printed E c t nonce text) : text = subaccountAddress E nonce t := by
  cases h with
  | added prints => cases prints; rfl
  | listed prints => exact getSubaccountid_address prints
  | icrc ck prints =>
    unfold getIcrcAccount at prints
    split at prints
    · cases prints
    · rw [subaccountAddress_ck E ck]
      exact (Except.ok.inj prints).symm

/-- An account identifier in hex has no dash, so the parser takes it for a principal. -/
theorem fromText_identifier (formats : TextFormats E owner) (bytes : Blob) :
    ∃ e, fromText E (E.hexEncode bytes) = .error e := by
  have hdash : '-' ∉ (E.hexEncode bytes).toList := by
    intro hmem
    rw [formats.encode, Lib.Hex.encode, String.toList_ofList] at hmem
    exact absurd (Lib.Hex.mem_digits hmem) (by decide)
  obtain ⟨e, he⟩ := formats.dashed _ hdash
  have hcontains : (E.hexEncode bytes).toList.contains '-' = false := by simpa using hdash
  unfold fromText
  rw [hcontains]
  simp only [Bool.not_false, Bool.true_or, if_true, he]
  exact ⟨_, rfl⟩

theorem validate_ok : validateIcrcAccount E text = .ok true ↔ ∃ a, fromText E text = .ok a := by
  unfold validateIcrcAccount
  cases fromText E text with
  | ok a => simp
  | error e => simp

/-- The text of an account is parsed back, and an address the canister prints is accepted, if
and only if the hex digits of the subaccount without the leading zeros are even in number. -/
theorem fromText_toText (account : IcrcAccount) (owner : TextFormats E account.owner)
    (canister : TextFormats E E.canisterId) :
    (fromText E (toText E account) = .ok (normalised account) ↔ Paired account.subaccount) ∧
      ∀ c t nonce text, Printed E c t nonce text →
        (validateIcrcAccount E text = .ok true ↔
          t ≠ .icp ∧ Paired (some (toSubaccount nonce))) := by
  refine ⟨?_, fun c t nonce text printed => ?_⟩
  · obtain ⟨p, subaccount⟩ := account
    cases subaccount with
    | none => exact ⟨fun _ => nofun, fun _ => fromText_owner owner⟩
    | some s =>
      refine ⟨fun parsed => ?_, fromText_paired owner⟩
      by_contra hunpaired
      obtain ⟨e, he⟩ := fromText_unpaired owner hunpaired
      rw [he] at parsed
      cases parsed
  · rw [validate_ok, printed.address]
    by_cases ht : t = .icp
    · subst ht
      obtain ⟨e, he⟩ := fromText_identifier canister (toSubaccountId E (toSubaccount nonce)).toList
      simp [subaccountAddress, he]
    · rw [subaccountAddress_ck E ht]
      by_cases hpaired : Paired (some (toSubaccount nonce))
      · simp [ht, hpaired, fromText_paired canister hpaired]
      · obtain ⟨e, he⟩ := fromText_unpaired canister hpaired
        simp [hpaired, he]

/-! The subaccounts of the nonces 42, with the digits `2a`, and 1, with the digit `1`. -/

open Examples

/-- The external code on the texts of the example accounts -/
def textual : Externals :=
  { externals with
    crc32 := fun bytes =>
      if bytes = canister.bytes ++ (toSubaccount 42).toList then 0xa0bf98e7
      else if bytes = canister.bytes ++ (toSubaccount 1).toList then 0x0c0361a7
      else externals.crc32 bytes
    principalToText := fun p =>
      if p = canister then "qvn3w-rqaaa-aaaam-qd4kq-cai" else externals.principalToText p
    principalFromText := fun text =>
      if text = "qvn3w-rqaaa-aaaam-qd4kq-cai" then .ok canister
      else externals.principalFromText text }

theorem textual_formats : TextFormats textual canister where
  inverts := by decide
  noDot := by decide
  dashed text dashless := by
    have hne : ∀ s : String, '-' ∈ s.toList → text ≠ s := by
      rintro s hs rfl
      exact dashless hs
    simp only [textual, externals, hne _ (show '-' ∈ "qvn3w-rqaaa-aaaam-qd4kq-cai".toList by decide),
      hne _ (show '-' ∈ "ryjl3-tyaaa-aaaaa-aaaba-cai".toList by decide),
      hne _ (show '-' ∈ "mxzaz-hqaaa-aaaar-qaada-cai".toList by decide),
      hne _ (show '-' ∈ "xevnm-gaaaa-aaaar-qafnq-cai".toList by decide),
      hne _ (show '-' ∈ "bkyz2-fmaaa-aaaaa-qaaaq-cai".toList by decide), if_false]
    exact ⟨_, rfl⟩
  encode _ := rfl
  odd text hodd := by
    show ∃ e, Lib.Hex.decode text = .error e
    rw [Lib.Hex.decode, Lib.Hex.decodeChars_odd _ hodd]
    exact ⟨_, rfl⟩

theorem fromText_toText_42 :
    toText textual ⟨canister, some (toSubaccount 42)⟩ =
        "qvn3w-rqaaa-aaaam-qd4kq-cai-uc7zrzy.2a" ∧
      fromText textual (toText textual ⟨canister, some (toSubaccount 42)⟩) =
        .ok ⟨canister, some (toSubaccount 42)⟩ :=
  ⟨by decide +kernel,
    (fromText_toText ⟨canister, some (toSubaccount 42)⟩ textual_formats textual_formats).1.mpr
      (by decide)⟩

/-- A canister that has handed out the nonces 0 and 1 prints an address for nonce 1 that the
parser refuses, as it does the text of the account itself. -/
theorem subaccount_one_refused :
    toText textual ⟨canister, some (toSubaccount 1)⟩ =
        "qvn3w-rqaaa-aaaam-qd4kq-cai-bqbwdjy.1" ∧
      (∃ e, fromText textual (toText textual ⟨canister, some (toSubaccount 1)⟩) = .error e) ∧
      getIcrcAccount textual issued 1 = .ok "qvn3w-rqaaa-aaaam-qd4kq-cai-bqbwdjy.1" ∧
      validateIcrcAccount textual "qvn3w-rqaaa-aaaam-qd4kq-cai-bqbwdjy.1" ≠ .ok true := by
  have htext : toText textual ⟨canister, some (toSubaccount 1)⟩ =
      "qvn3w-rqaaa-aaaam-qd4kq-cai-bqbwdjy.1" := by decide +kernel
  have hrefused : ∃ e, fromText textual (toText textual ⟨canister, some (toSubaccount 1)⟩) =
      .error e := fromText_unpaired textual_formats (by decide)
  refine ⟨htext, hrefused, congrArg Except.ok htext, fun haccepted => ?_⟩
  obtain ⟨a, ha⟩ := validate_ok.mp haccepted
  obtain ⟨e, he⟩ := hrefused
  rw [htext, ha] at he
  cases he

end SubaccountIndexer.AccountText
