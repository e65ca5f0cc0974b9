import SubaccountIndexer.AccountText

/-! Which spellings of an account `from_text` accepts. The checksum is that of the decoded
bytes, so it does not see how they are spelled: zeros in front, capital letters and a
subaccount of zeros alone all pass, and `to_text` prints none of them. -/

namespace SubaccountIndexer.AccountText

open IcrcAccount

variable (E : Externals)

/-- What is documented of the texts of principals and of hex, which `from_text` reads -/
structure Readable : Prop where
  /-- `Principal::from_text` accepts the canonical grouping alone, in either letter case. -/
  canonical : ∀ text p, E.principalFromText text = .ok p →
    text.toList.map Char.toLower = (E.principalToText p).toList
  noDot : ∀ p, '.' ∉ (E.principalToText p).toList
  encode : ∀ bytes, E.hexEncode bytes = Lib.Hex.encode bytes
  decode : ∀ text bytes, E.hexDecode text = .ok bytes →
    Lib.Hex.decodeChars text.toList = some bytes

/-- The text with its principal in lower case: what stands before the last dash or, in a text
without a dot, all of it -/
def lowerPrincipal (text : List Char) : List Char :=
  if '.' ∈ text then
    let parts := text.splitOn '-'
    (['-'].intercalate parts.dropLast).map Char.toLower ++ '-' :: parts.getLastD []
  else text.map Char.toLower

/-- What stands behind the dot, if there is one, is a number in hex as `to_text` prints it: it
has a digit, no zero in front and no capital letter. -/
def CanonicalSpelling (text : String) : Prop :=
  '.' ∈ text.toList →
    (text.toList.splitOn '.').getLastD [] ≠ [] ∧
      Lib.Hex.Canonical ((text.toList.splitOn '.').getLastD [])

instance (text : String) : Decidable (CanonicalSpelling text) :=
  inferInstanceAs (Decidable (_ → _))

variable {E} {owner : Principal} {text : String} {a : IcrcAccount}

/-! ## Letter case -/

theorem toLower_toLower (c : Char) : c.toLower.toLower = c.toLower := by
  by_cases h : c.val ≥ 'A'.val ∧ c.val ≤ 'Z'.val
  · have hval : c.toLower.val = c.val + ('a'.val - 'A'.val) := by
      rw [show c.toLower = _ from dif_pos h]
    refine dif_neg fun hupper => ?_
    have hlow := UInt32.le_iff_toNat_le.mp h.1
    have hhigh := UInt32.le_iff_toNat_le.mp hupper.2
    rw [hval, UInt32.toNat_add] at hhigh
    have hle := UInt32.le_iff_toNat_le.mp h.2
    rw [show 'A'.val.toNat = 65 from rfl] at hlow
    rw [show 'Z'.val.toNat = 90 from rfl] at hhigh hle
    rw [show ('a'.val - 'A'.val).toNat = 32 from rfl] at hhigh
    omega
  · rw [show c.toLower = c from dif_neg h, show c.toLower = c from dif_neg h]

/-! ## What is accepted -/

theorem lowerPrincipal_parts {p rest : List Char} (dot : '.' ∈ p ++ '-' :: rest)
    (dash : '-' ∉ rest) :
    lowerPrincipal (p ++ '-' :: rest) = p.map Char.toLower ++ '-' :: rest := by
  rw [lowerPrincipal, if_pos dot]
  dsimp only
  rw [List.splitOn_append_cons_self, List.splitOn_eq_singleton dash, List.dropLast_concat,
    List.intercalate_splitOn, List.getLastD_concat]

theorem not_mem_of_mem_splitOn {x : Char} {l piece : List Char} (h : piece ∈ l.splitOn x) :
    x ∉ piece := by
  induction l generalizing piece with
  | nil =>
    rw [List.splitOn_nil, List.mem_singleton] at h
    rw [h]
    exact List.not_mem_nil
  | cons c l ih =>
    rw [List.splitOn_cons_eq_if_modifyHead] at h
    split at h
    · rcases List.mem_cons.mp h with rfl | h
      · exact List.not_mem_nil
      · exact ih h
    · rename_i hc
      cases hrest : l.splitOn x with
      | nil => exact absurd hrest (List.splitOn_ne_nil x l)
      | cons first rest =>
        rw [hrest, List.modifyHead_cons] at h
        rcases List.mem_cons.mp h with rfl | h
        · have hfirst := ih (hrest ▸ List.mem_cons_self)
          intro hx
          rcases List.mem_cons.mp hx with rfl | hx
          · exact hc (beq_self_eq_true x)
          · exact hfirst hx
        · exact ih (hrest ▸ List.mem_cons_of_mem first h)

/-- The text before the last dash, and what follows it -/
theorem splitOn_last {x : Char} {l : List Char} (h : 2 ≤ (l.splitOn x).length) :
    l = [x].intercalate (l.splitOn x).dropLast ++ x :: (l.splitOn x).getLastD [] ∧
      x ∉ (l.splitOn x).getLastD [] := by
  have hmem : x ∈ l.reverse := by
    rw [List.mem_reverse]
    by_contra hx
    rw [List.splitOn_eq_singleton hx, List.length_singleton] at h
    omega
  obtain ⟨back, front, hl, hback⟩ := List.eq_append_cons_of_mem hmem
  have hcut : l = front.reverse ++ x :: back.reverse := by
    rw [← List.reverse_reverse l, hl]
    simp
  rw [← List.mem_reverse] at hback
  rw [hcut, List.splitOn_append_cons_self, List.splitOn_eq_singleton hback, List.dropLast_concat,
    List.intercalate_splitOn, List.getLastD_concat]
  exact ⟨rfl, hback⟩

/-- A text with two parts has one separator. -/
theorem splitOn_pair {x : Char} {l before after : List Char} (h : l.splitOn x = [before, after]) :
    l = before ++ x :: after ∧ x ∉ before ∧ x ∉ after := by
  have hjoined : [x].intercalate (l.splitOn x) = l := List.intercalate_splitOn x
  have hparts : ∀ piece ∈ [before, after], x ∉ piece := fun piece hpiece =>
    not_mem_of_mem_splitOn (h ▸ hpiece)
  refine ⟨?_, hparts before (by simp), hparts after (by simp)⟩
  rw [← hjoined, h]
  simp

theorem checkedAccount_ok {checksum hex : String}
    (h : checkedAccount E owner checksum hex = .ok a) :
    ∃ decoded : Blob, ∃ s : Bytes32, E.hexDecode hex = .ok decoded ∧
      s.toList = List.replicate (32 - decoded.length) 0 ++ decoded ∧ a = ⟨owner, some s⟩ ∧
      base32EncodeLowercase (toBeBytes (E.crc32 (owner.bytes ++ s.toList))) = checksum := by
  unfold checkedAccount at h
  split at h
  · cases h
  · rename_i decoded hdecoded
    split at h
    · dsimp only at h
      split at h
      · rename_i hlength hchecksum
        exact ⟨decoded, _, hdecoded, rfl, (Except.ok.inj h).symm, hchecksum⟩
      · cases h
    · cases h

/-- The two kinds of text that are accepted, with what each was read as -/
theorem fromText_ok (h : fromText E text = .ok a) :
    (('-' ∉ text.toList ∨ '.' ∉ text.toList) ∧ a.subaccount = none ∧
        E.principalFromText text = .ok a.owner) ∨
      ∃ p checksum hex : List Char, text.toList = p ++ '-' :: (checksum ++ '.' :: hex) ∧
        '.' ∉ p ++ '-' :: checksum ∧ '.' ∉ hex ∧ '-' ∉ checksum ∧
        E.principalFromText (String.ofList p) = .ok a.owner ∧
        checkedAccount E a.owner (String.ofList checksum) (String.ofList hex) = .ok a := by
  unfold fromText at h
  split at h
  · rename_i hplain
    split at h
    · cases h
    · rename_i owner howner
      cases h
      exact .inl ⟨by simpa using hplain, rfl, howner⟩
  · rename_i hmarked
    refine .inr ?_
    split at h
    · rename_i ownerPart hex hsplit
      dsimp only at h
      split at h
      · cases h
      · rename_i hlength
        split at h
        · cases h
        · rename_i owner howner
          obtain ⟨hparts, hchecksum⟩ := splitOn_last (x := '-') (l := ownerPart) (by omega)
          obtain ⟨htext, hownerDot, hhexDot⟩ := splitOn_pair hsplit
          have ha : a.owner = owner := by
            obtain ⟨_, _, _, _, rfl, _⟩ := checkedAccount_ok h
            rfl
          refine ⟨_, _, hex, ?_, ?_, hhexDot, hchecksum, ha ▸ howner, ha ▸ h⟩
          · rw [htext, hparts, List.append_assoc, List.cons_append, ← hparts]
          · exact hparts ▸ hownerDot
    · cases h

/-! ## Which spellings are canonical -/

/-- What `to_text` prints of the account that was read from the three parts -/
theorem toText_checked (readable : Readable E) {p checksum hex : List Char}
    (parses : E.principalFromText (String.ofList p) = .ok owner)
    (accepts : checkedAccount E owner (String.ofList checksum) (String.ofList hex) = .ok a) :
    '-' ∉ hex ∧
      ((toText E a).toList = p.map Char.toLower ++ '-' :: (checksum ++ '.' :: hex) ↔
        hex ≠ [] ∧ Lib.Hex.Canonical hex) := by
  obtain ⟨decoded, s, hdecoded, hs, rfl, hchecksum⟩ := checkedAccount_ok accepts
  have hbytes := readable.decode _ _ hdecoded
  have howner := readable.canonical _ _ parses
  rw [String.toList_ofList] at hbytes howner
  have hdash : '-' ∉ hex := by
    intro hmem
    obtain ⟨n, hn⟩ := (Lib.Hex.decodeChars_some hbytes).2 _ hmem
    cases hn
  refine ⟨hdash, ?_⟩
  have htrim : trimmedHex s = hex ↔ Lib.Hex.Canonical hex := by
    rw [trimmedHex, hs]
    exact Lib.Hex.trim_decoded hbytes _
  cases hdefault : isDefaultSubaccount s with
  | true =>
    -- the principal alone is printed, which has no dot
    have hnil : trimmedHex s = [] := by
      rw [trimmedHex, Lib.Hex.trim_zeros,
        List.dropWhile_eq_nil_iff.mpr (List.all_eq_true.mp hdefault)]
      rfl
    rw [toText_default hdefault]
    constructor
    · intro heq
      refine absurd ?_ (readable.noDot owner)
      rw [heq]
      simp
    · intro hspelled
      exact absurd ((htrim.mpr hspelled.2).symm.trans hnil) hspelled.1
  | false =>
    have hne := trimmedHex_ne_nil hdefault
    rw [toText_parts readable.encode hdefault, hchecksum, howner, String.toList_ofList,
      String.toList_ofList, ← htrim, List.append_assoc, List.append_cancel_left_eq,
      List.cons_append, List.cons.injEq, List.append_cancel_left_eq, List.cons.injEq]
    exact ⟨fun h => ⟨h.2.2 ▸ hne, h.2.2⟩, fun h => ⟨rfl, rfl, h.2⟩⟩

theorem map_toLower_toLower (l : List Char) :
    (l.map Char.toLower).map Char.toLower = l.map Char.toLower := by
  rw [List.map_map]
  exact List.map_congr_left fun c _ => toLower_toLower c

/-- What is printed has its principal in lower case. -/
theorem lowerPrincipal_printed (readable : Readable E) (parses : E.principalFromText text =
    .ok a.owner) : lowerPrincipal (toText E a).toList = (toText E a).toList := by
  have howner := readable.canonical _ _ parses
  have hlower : (E.principalToText a.owner).toList.map Char.toLower =
      (E.principalToText a.owner).toList := by
    rw [← howner, map_toLower_toLower]
  have hplain : lowerPrincipal (E.principalToText a.owner).toList =
      (E.principalToText a.owner).toList := by
    rw [lowerPrincipal, if_neg (readable.noDot a.owner), hlower]
  obtain ⟨owner, subaccount⟩ := a
  cases subaccount with
  | none => exact hplain
  | some s =>
    cases hdefault : isDefaultSubaccount s with
    | true => rwa [toText_default hdefault]
    | false =>
      have hdash : '-' ∉
          (base32EncodeLowercase (toBeBytes (E.crc32 (owner.bytes ++ s.toList)))).toList ++
            '.' :: trimmedHex s := by
        simp [not_mem_base32 (show '-' ∉ ALPHABET by decide),
          not_mem_trimmedHex (show '-' ∉ Lib.Hex.digits by decide)]
      rw [toText_parts readable.encode hdefault, String.toList_ofList, List.append_assoc,
        List.cons_append, lowerPrincipal_parts (by simp) hdash, hlower]

/-- The text of the account that was read, against the text it was read from -/
theorem lowerPrincipal_toText (readable : Readable E) (h : fromText E text = .ok a) :
    lowerPrincipal (toText E a).toList = lowerPrincipal text.toList ↔ CanonicalSpelling text := by
  rcases fromText_ok h with ⟨-, hnone, howner⟩ | ⟨p, checksum, hex, htext, hdot, hhex, hdash,
    howner, haccepts⟩
  · have hprinted : toText E a = E.principalToText a.owner := by
      rw [toText, hnone]
    have hlower := readable.canonical _ _ howner
    have hplain := readable.noDot a.owner
    have hdotless : '.' ∉ text.toList := fun hmem =>
      hplain (hlower ▸ List.mem_map_of_mem (f := Char.toLower) hmem)
    rw [hprinted, lowerPrincipal, lowerPrincipal, if_neg hplain, if_neg hdotless, ← hlower,
      map_toLower_toLower]
    exact ⟨fun _ hdot => absurd hdot hdotless, fun _ => rfl⟩
  · obtain ⟨hhexdash, hiff⟩ := toText_checked readable howner haccepts
    have hlast : (text.toList.splitOn '.').getLastD [] = hex := by
      rw [htext, show p ++ '-' :: (checksum ++ '.' :: hex) = (p ++ '-' :: checksum) ++ '.' :: hex by
        simp, List.splitOn_append_cons_self, List.splitOn_eq_singleton hhex, List.getLastD_concat]
    rw [lowerPrincipal_printed readable howner, htext,
      lowerPrincipal_parts (by simp) (by simp [hdash, hhexdash]), hiff, CanonicalSpelling, hlast]
    exact ⟨fun h _ => h, fun h => h (by simp [htext])⟩

/-- The parser accepts an account in its canonical spelling if and only if what stands behind
the dot is spelled so; two such texts of one account differ in letter case at most. -/
theorem fromText_canonical (readable : Readable E) :
    (∀ text a, fromText E text = .ok a →
      (lowerPrincipal (toText E a).toList = lowerPrincipal text.toList ↔
        CanonicalSpelling text)) ∧
      ∀ text other a, fromText E text = .ok a → fromText E other = .ok a →
        CanonicalSpelling text → CanonicalSpelling other →
        lowerPrincipal text.toList = lowerPrincipal other.toList := by
  refine ⟨fun text a h => lowerPrincipal_toText readable h, fun text other a h h' hs hs' => ?_⟩
  rw [← (lowerPrincipal_toText readable h).mpr hs, (lowerPrincipal_toText readable h').mpr hs']

/-! Spellings of the subaccounts 42, with the digits `2a`, and 0 of the example canister -/

open Examples

def spelled : Externals :=
  { textual with
    crc32 := fun bytes =>
      if bytes = canister.bytes ++ List.replicate 32 0 then 0x7b045131 else textual.crc32 bytes
    principalToText := fun p => if p = canister then "qvn3w-rqaaa-aaaam-qd4kq-cai" else ""
    principalFromText := fun text =>
      if text.toList.map Char.toLower = "qvn3w-rqaaa-aaaam-qd4kq-cai".toList then .ok canister
      else .error "Text must be in valid Base32 encoding." }

theorem spelled_readable : Readable spelled where
  canonical text p parses := by
    by_cases h : text.toList.map Char.toLower = "qvn3w-rqaaa-aaaam-qd4kq-cai".toList
    · rw [show spelled.principalFromText text = .ok canister from if_pos h] at parses
      cases parses
      exact h
    · rw [show spelled.principalFromText text = .error _ from if_neg h] at parses
      cases parses
  noDot p := by
    by_cases h : p = canister
    · rw [show spelled.principalToText p = "qvn3w-rqaaa-aaaam-qd4kq-cai" from if_pos h]
      decide
    · rw [show spelled.principalToText p = "" from if_neg h]
      decide
  encode _ := rfl
  decode text bytes h := by
    rw [show spelled.hexDecode text = Lib.Hex.decode text from rfl, Lib.Hex.decode] at h
    split at h
    · rename_i decoded hdecoded
      cases h
      exact hdecoded
    · cases h

theorem fromText_canonical_42 :
    fromText spelled "QVN3W-rqaaa-aaaam-qd4kq-cai-uc7zrzy.2a" =
        .ok ⟨canister, some (toSubaccount 42)⟩ ∧
      lowerPrincipal (toText spelled ⟨canister, some (toSubaccount 42)⟩).toList =
        lowerPrincipal "QVN3W-rqaaa-aaaam-qd4kq-cai-uc7zrzy.2a".toList := by
  have haccepted : fromText spelled "QVN3W-rqaaa-aaaam-qd4kq-cai-uc7zrzy.2a" =
      .ok ⟨canister, some (toSubaccount 42)⟩ := by decide +kernel
  exact ⟨haccepted, ((fromText_canonical spelled_readable).1 _ _ haccepted).mpr
    fun _ => ⟨by decide, by decide⟩⟩

/-- Zeros in front, a capital letter, and a subaccount of zeros without a single digit -/
theorem spellings_accepted :
    toText spelled ⟨canister, some (toSubaccount 42)⟩ = "qvn3w-rqaaa-aaaam-qd4kq-cai-uc7zrzy.2a" ∧
      fromText spelled "qvn3w-rqaaa-aaaam-qd4kq-cai-uc7zrzy.002a" =
        .ok ⟨canister, some (toSubaccount 42)⟩ ∧
      fromText spelled "qvn3w-rqaaa-aaaam-qd4kq-cai-uc7zrzy.2A" =
        .ok ⟨canister, some (toSubaccount 42)⟩ ∧
      lowerPrincipal "qvn3w-rqaaa-aaaam-qd4kq-cai-uc7zrzy.2a".toList ≠
        lowerPrincipal "qvn3w-rqaaa-aaaam-qd4kq-cai-uc7zrzy.002a".toList ∧
      lowerPrincipal "qvn3w-rqaaa-aaaam-qd4kq-cai-uc7zrzy.2a".toList ≠
        lowerPrincipal "qvn3w-rqaaa-aaaam-qd4kq-cai-uc7zrzy.2A".toList ∧
      fromText spelled "qvn3w-rqaaa-aaaam-qd4kq-cai-pmcfcmi." =
        .ok ⟨canister, some (toSubaccount 0)⟩ ∧
      toText spelled ⟨canister, some (toSubaccount 0)⟩ = "qvn3w-rqaaa-aaaam-qd4kq-cai" := by
  decide +kernel

end SubaccountIndexer.AccountText
