import Mathlib.Data.List.TakeWhile

/-! Hexadecimal text of a byte string: two lower-case digits a byte. Decoding
accepts both letter cases and refuses an odd number of digits. -/

namespace SubaccountIndexer.Lib.Hex

def digits : List Char :=
  ['0', '1', '2', '3', '4', '5', '6', '7', '8', '9', 'a', 'b', 'c', 'd', 'e', 'f']

def digit (n : Nat) : Char := digits.getD n '0'

def value (c : Char) : Option Nat :=
  if '0' ≤ c ∧ c ≤ '9' then some (c.toNat - '0'.toNat)
  else if 'a' ≤ c ∧ c ≤ 'f' then some (c.toNat - 'a'.toNat + 10)
  else if 'A' ≤ c ∧ c ≤ 'F' then some (c.toNat - 'A'.toNat + 10)
  else none

def encodeChars (bytes : List UInt8) : List Char :=
  bytes.flatMap fun b => [digit (b.toNat / 16), digit (b.toNat % 16)]

def encode (bytes : List UInt8) : String := String.ofList (encodeChars bytes)

def decodeChars : List Char → Option (List UInt8)
  | [] => some []
  | [_] => none
  | hi :: lo :: rest => do
    let hi ← value hi
    let lo ← value lo
    let bytes ← decodeChars rest
    some (UInt8.ofNat (hi * 16 + lo) :: bytes)

def decode (text : String) : Except String (List UInt8) :=
  match decodeChars text.toList with
  | some bytes => .ok bytes
  | none => .error "Odd number of digits or invalid character"

theorem value_digit : ∀ n < 16, value (digit n) = some n := by decide

theorem decodeChars_encodeChars (bytes : List UInt8) :
    decodeChars (encodeChars bytes) = some bytes := by
  induction bytes with
  | nil => rfl
  | cons b rest ih =>
    have hlt : b.toNat < 256 := b.toNat_lt
    have hhi := value_digit (b.toNat / 16) (by omega)
    have hlo := value_digit (b.toNat % 16) (by omega)
    have hb : UInt8.ofNat (b.toNat / 16 * 16 + b.toNat % 16) = b := by
      rw [Nat.div_add_mod' b.toNat 16, UInt8.ofNat_toNat]
    simp only [encodeChars, List.flatMap_cons, List.cons_append, List.nil_append] at ih ⊢
    simp only [decodeChars, hhi, hlo, ih, Option.bind_eq_bind, Option.bind_some, hb]

theorem decode_encode (bytes : List UInt8) : decode (encode bytes) = .ok bytes := by
  simp [decode, encode, decodeChars_encodeChars]

theorem decodeChars_odd :
    ∀ text : List Char, text.length % 2 = 1 → decodeChars text = none
  | [], h => by cases h
  | [_], _ => rfl
  | hi :: lo :: rest, h => by
    have hrest : rest.length % 2 = 1 := by
      simp only [List.length_cons] at h
      omega
    simp only [decodeChars, decodeChars_odd rest hrest, Option.bind_eq_bind, Option.bind_none]
    cases value hi with
    | none => rfl
    | some _ => cases value lo <;> rfl

/-! ## Digits -/

@[simp] theorem encodeChars_nil : encodeChars [] = [] := rfl

@[simp] theorem encodeChars_cons (b : UInt8) (rest : List UInt8) :
    encodeChars (b :: rest) = digit (b.toNat / 16) :: digit (b.toNat % 16) :: encodeChars rest :=
  rfl

theorem length_encodeChars (bytes : List UInt8) :
    (encodeChars bytes).length = 2 * bytes.length := by
  induction bytes with
  | nil => rfl
  | cons b rest ih =>
    simp only [encodeChars_cons, List.length_cons, ih]
    omega

theorem digit_mem (n : Nat) : digit n ∈ digits := by
  rw [digit, List.getD_eq_getElem?_getD]
  cases h : digits[n]? with
  | none => decide
  | some c => exact List.mem_of_getElem? h

theorem mem_digits {c : Char} {bytes : List UInt8} (h : c ∈ encodeChars bytes) : c ∈ digits := by
  induction bytes with
  | nil => cases h
  | cons b rest ih =>
    rw [encodeChars_cons, List.mem_cons, List.mem_cons] at h
    rcases h with rfl | rfl | h
    · exact digit_mem _
    · exact digit_mem _
    · exact ih h

theorem digit_eq_zero : ∀ n < 16, (digit n == '0') = (n == 0) := by decide

/-! ## Leading zeros

Trimming zero digits off the text is not trimming zero bytes: a byte below 16 loses one of
its two digits. -/

/-- The text without leading zeros, of bytes that start with neither a zero byte nor a zero
digit -/
theorem trim_paired {b : UInt8} (large : 16 ≤ b.toNat) (rest : List UInt8) :
    (encodeChars (b :: rest)).dropWhile (· == '0') = encodeChars (b :: rest) := by
  have hlt := b.toNat_lt
  have hzero := digit_eq_zero (b.toNat / 16) (by omega)
  have hne : (b.toNat / 16 == 0) = false := beq_false_of_ne (by omega)
  rw [encodeChars_cons, List.dropWhile_cons, hzero, hne]
  rfl

/-- A first byte below 16 keeps one digit. -/
theorem trim_unpaired {b : UInt8} (small : b.toNat < 16) (nonzero : b ≠ 0) (rest : List UInt8) :
    (encodeChars (b :: rest)).dropWhile (· == '0') = digit b.toNat :: encodeChars rest := by
  have hpos : b.toNat ≠ 0 := fun h => nonzero (UInt8.toNat_inj.mp h)
  have hhi := digit_eq_zero (b.toNat / 16) (by omega)
  have hlo := digit_eq_zero (b.toNat % 16) (by omega)
  have hdiv : b.toNat / 16 = 0 := by omega
  have hmod : b.toNat % 16 = b.toNat := by omega
  rw [hdiv] at hhi
  rw [hmod, beq_false_of_ne hpos] at hlo
  rw [encodeChars_cons, hdiv, hmod, List.dropWhile_cons, hhi]
  simp only [BEq.rfl, if_true, List.dropWhile_cons, hlo, Bool.false_eq_true, if_false]

/-- Zero bytes are trimmed whole. -/
theorem trim_zeros (bytes : List UInt8) :
    (encodeChars bytes).dropWhile (· == '0') =
      (encodeChars (bytes.dropWhile (· == 0))).dropWhile (· == '0') := by
  induction bytes with
  | nil => rfl
  | cons b rest ih =>
    by_cases hb : b = 0
    · subst hb
      rw [List.dropWhile_cons_of_pos (by decide), ← ih]
      rfl
    · rw [List.dropWhile_cons_of_neg (by simpa using hb)]

/-- Padding to the old length puts what was trimmed back. -/
theorem pad_dropWhile {α : Type} [BEq α] [LawfulBEq α] (zero : α) (l : List α) :
    List.replicate (l.length - (l.dropWhile (· == zero)).length) zero ++
      l.dropWhile (· == zero) = l := by
  have hsplit := List.takeWhile_append_dropWhile (p := (· == zero)) (l := l)
  have hzeros : ∀ b ∈ l.takeWhile (· == zero), b = zero := by
    intro b hb
    simpa using List.mem_takeWhile_imp hb
  have hlength := congrArg List.length hsplit
  rw [List.length_append] at hlength
  have hpad : List.replicate (l.length - (l.dropWhile (· == zero)).length) zero =
      l.takeWhile (· == zero) := by
    rw [← hlength, Nat.add_sub_cancel]
    exact (List.eq_replicate_of_mem hzeros).symm
  rw [hpad, hsplit]

/-- The digits without the leading zeros determine the bytes, if their number is known. -/
theorem trim_injective {a b : List UInt8} (length : a.length = b.length)
    (h : (encodeChars a).dropWhile (· == '0') = (encodeChars b).dropWhile (· == '0')) :
    a = b := by
  have hlength : (encodeChars a).length = (encodeChars b).length := by
    rw [length_encodeChars, length_encodeChars, length]
  have hchars : encodeChars a = encodeChars b := by
    rw [← pad_dropWhile '0' (encodeChars a), ← pad_dropWhile '0' (encodeChars b), h, hlength]
  have hdecoded := congrArg decodeChars hchars
  rw [decodeChars_encodeChars, decodeChars_encodeChars] at hdecoded
  exact Option.some.inj hdecoded

/-! ## Which texts are printed -/

/-- The text has no zero in front and no capital letter. -/
def Canonical (text : List Char) : Prop := text.head? ≠ some '0' ∧ ∀ c ∈ text, ¬ c.isUpper

instance (text : List Char) : Decidable (Canonical text) :=
  decidable_of_iff (text.head? ≠ some '0' ∧ (text.all fun c => !c.isUpper) = true) <| by
    simp [Canonical]

theorem toNat_le_of_value {c : Char} {n : Nat} (h : value c = some n) : c.toNat < 128 := by
  have hbound : ∀ {hi : Char}, c ≤ hi → hi.toNat < 128 → c.toNat < 128 := fun hle hhi =>
    Nat.lt_of_le_of_lt (Char.le_def.mp hle) hhi
  unfold value at h
  split at h
  · rename_i hc
    exact hbound hc.2 (by decide)
  · split at h
    · rename_i hc
      exact hbound hc.2 (by decide)
    · split at h
      · rename_i hc
        exact hbound hc.2 (by decide)
      · cases h

/-- What is known of the digits below 128, where all of them are -/
theorem value_digits : ∀ k < 128, ∀ n ∈ value (Char.ofNat k),
    n < 16 ∧ digit n = (Char.ofNat k).toLower ∧ Char.ofNat k ≠ '-' ∧
      (¬ (Char.ofNat k).isUpper ↔ (Char.ofNat k).toLower = Char.ofNat k) := by
  decide

/-- A digit is written back in lower case. -/
theorem digit_value {c : Char} {n : Nat} (h : value c = some n) :
    n < 16 ∧ digit n = c.toLower ∧ c ≠ '-' ∧ (¬ c.isUpper ↔ c.toLower = c) := by
  have hdigits := value_digits c.toNat (toNat_le_of_value h) n
  rw [Char.ofNat_toNat] at hdigits
  exact hdigits h

/-- A text that is decoded has two digits a byte, which are printed in lower case. -/
theorem decodeChars_some {bytes : List UInt8} {text : List Char}
    (h : decodeChars text = some bytes) :
    encodeChars bytes = text.map Char.toLower ∧ ∀ c ∈ text, ∃ n, value c = some n := by
  fun_induction decodeChars text generalizing bytes with
  | case1 =>
    cases h
    exact ⟨rfl, by simp⟩
  | case2 => cases h
  | case3 hi lo rest ih =>
    simp only [Option.bind_eq_bind, Option.bind_eq_some_iff] at h
    obtain ⟨m, hm, n, hn, tail, htail, h⟩ := h
    cases h
    obtain ⟨hmlt, hmdigit, -⟩ := digit_value hm
    obtain ⟨hnlt, hndigit, -⟩ := digit_value hn
    obtain ⟨hrest, hdigits⟩ := ih htail
    have hbyte : (UInt8.ofNat (m * 16 + n)).toNat = m * 16 + n := by
      rw [UInt8.toNat_ofNat']
      omega
    constructor
    · rw [encodeChars_cons, hbyte, show (m * 16 + n) / 16 = m by omega,
        show (m * 16 + n) % 16 = n by omega, hmdigit, hndigit, hrest]
      rfl
    · intro c hc
      rcases List.mem_cons.mp hc with rfl | hc
      · exact ⟨m, hm⟩
      · rcases List.mem_cons.mp hc with rfl | hc
        · exact ⟨n, hn⟩
        · exact hdigits c hc

theorem toLower_of_large {c : Char} (large : 128 ≤ c.toNat) : c.toLower = c := by
  unfold Char.toLower
  rw [dif_neg]
  rintro ⟨-, hle⟩
  have : c.toNat ≤ 90 := hle
  omega

theorem value_lower_small : ∀ k < 128, value (Char.ofNat k).toLower = value (Char.ofNat k) := by
  decide

/-- A capital digit counts as the small one. -/
theorem value_toLower (c : Char) : value c.toLower = value c := by
  by_cases hsmall : c.toNat < 128
  · have h := value_lower_small c.toNat hsmall
    rwa [Char.ofNat_toNat] at h
  · rw [toLower_of_large (by omega)]

theorem decodeChars_lower (text : List Char) :
    decodeChars (text.map Char.toLower) = decodeChars text := by
  fun_induction decodeChars text with
  | case1 => rfl
  | case2 => rfl
  | case3 hi lo rest ih =>
    simp only [List.map_cons, decodeChars, value_toLower, ih]

/-- The texts of some bytes are the one that is printed, in capital and small letters. -/
theorem decodeChars_eq_some {bytes : List UInt8} {text : List Char} :
    decodeChars text = some bytes ↔ text.map Char.toLower = encodeChars bytes := by
  refine ⟨fun h => (decodeChars_some h).1.symm, fun h => ?_⟩
  rw [← decodeChars_lower, h, decodeChars_encodeChars]

/-- A decoded text is what the bytes, behind any number of zero bytes, are printed as without
leading zeros, if and only if it has no leading zeros and no capital letters itself. -/
theorem trim_decoded {bytes : List UInt8} {text : List Char} (h : decodeChars text = some bytes)
    (zeros : Nat) :
    (encodeChars (List.replicate zeros 0 ++ bytes)).dropWhile (· == '0') = text ↔
      Canonical text := by
  obtain ⟨hprinted, hdigits⟩ := decodeChars_some h
  have hpadding : (encodeChars (List.replicate zeros 0 ++ bytes)).dropWhile (· == '0') =
      (text.map Char.toLower).dropWhile (· == '0') := by
    rw [trim_zeros, List.dropWhile_append_of_pos (by simp), ← trim_zeros, hprinted]
  have hcase : ∀ c ∈ text, ¬ c.isUpper ↔ c.toLower = c := fun c hc =>
    (digit_value (hdigits c hc).choose_spec).2.2.2
  have hlower : text.map Char.toLower = text ↔ ∀ c ∈ text, ¬ c.isUpper := by
    have hid : text.map Char.toLower = text ↔ text.map Char.toLower = text.map id := by
      rw [List.map_id]
    rw [hid, List.map_inj_left]
    exact forall₂_congr fun c hc => (hcase c hc).symm
  rw [hpadding, Canonical, ← hlower]
  constructor
  · intro heq
    have hkept := (List.dropWhile_sublist (· == '0')).eq_of_length
      ((congrArg List.length heq).trans (List.length_map _).symm)
    refine ⟨fun hzero => ?_, hkept ▸ heq⟩
    have hhead := List.head?_dropWhile_not (· == '0') (text.map Char.toLower)
    rw [heq, hzero] at hhead
    simp at hhead
  · intro ⟨hhead, heq⟩
    rw [heq]
    cases text with
    | nil => rfl
    | cons c rest =>
      refine List.dropWhile_cons_of_neg fun hc => hhead ?_
      rw [List.head?_cons, eq_of_beq hc]

/-! ## Strings -/

theorem toLower_eq_ofList {text : String} {chars : List Char} :
    text.toLower = String.ofList chars ↔ text.toList.map Char.toLower = chars := by
  rw [← String.toList_inj, String.toList_ofList, ← String.toList_map]
  rfl

theorem utf8ByteSize_ofList {chars : List Char} (ascii : ∀ c ∈ chars, c.toNat < 128) :
    (String.ofList chars).utf8ByteSize = chars.length := by
  induction chars with
  | nil => rfl
  | cons c rest ih =>
    have hsize : c.utf8Size = 1 :=
      Char.utf8Size_eq_one_iff.mpr (Nat.le_of_lt_succ (ascii c (.head _)))
    have hsplit : String.ofList (c :: rest) = String.singleton c ++ String.ofList rest := by
      rw [← String.toList_inj]
      simp
    rw [hsplit, String.utf8ByteSize_append, String.utf8ByteSize_singleton, hsize,
      ih fun c' hc' => ascii c' (.tail _ hc'), List.length_cons, Nat.add_comm]

/-- A text that is decoded has two bytes for each one it spells. -/
theorem utf8ByteSize_decoded {bytes : List UInt8} {text : String}
    (h : decodeChars text.toList = some bytes) :
    text.utf8ByteSize = 2 * bytes.length := by
  obtain ⟨hprinted, hdigits⟩ := decodeChars_some h
  have hascii : ∀ c ∈ text.toList, c.toNat < 128 := fun c hc =>
    toNat_le_of_value (hdigits c hc).choose_spec
  have hsize := utf8ByteSize_ofList hascii
  rw [String.ofList_toList] at hsize
  rw [hsize, ← length_encodeChars, hprinted, List.length_map]

end SubaccountIndexer.Lib.Hex
