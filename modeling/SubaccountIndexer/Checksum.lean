import SubaccountIndexer.IcrcAccount
import SubaccountIndexer.Lib.Base32

/-! The encoder of the checksum of an account's text. Its accumulator of 16 bits is shifted
left at every byte and never masked: what it still owes are the low bits, fewer than five
before a byte and fewer than thirteen after it, which the shift does not push out. -/

namespace SubaccountIndexer.IcrcAccount

open Lib

theorem alphabet_letter : ∀ d < 32, ALPHABET.getD d 'a' = Base32.letter d := by decide

/-- The bits read are those of the groups written out, and the low `bitCount` bits of the
accumulator. -/
def Carries (read : List Bool) (bits : UInt16) (bitCount : Nat) (result : List Char) : Prop :=
  ∃ digits : List Nat, (∀ d ∈ digits, d < 2 ^ 5) ∧ result = digits.map Base32.letter ∧
    read = digits.flatMap (Base32.bits · 5) ++ Base32.bits bits.toNat bitCount

variable {read : List Bool} {bits : UInt16} {bitCount : Nat} {result : List Char}

/-- The letter pushed is that of the five bits above the ones still owed. -/
theorem index_shiftRight (h : bitCount < 16) :
    ((bits >>> UInt16.ofNat bitCount) &&& 0x1F).toNat = bits.toNat / 2 ^ bitCount % 2 ^ 5 := by
  rw [UInt16.toNat_and, UInt16.toNat_shiftRight, show (0x1F : UInt16).toNat = 2 ^ 5 - 1 from rfl,
    Nat.and_two_pow_sub_one_eq_mod, UInt16.toNat_ofNat', Nat.shiftRight_eq_div_pow]
  congr 3
  omega

/-- The loop writes out groups until fewer than five bits are left. -/
theorem drainBits_carries (h : bitCount < 16) (carries : Carries read bits bitCount result) :
    Carries read bits (drainBits bits bitCount result).1 (drainBits bits bitCount result).2 := by
  fun_induction drainBits bits bitCount result with
  | case1 bitCount result ih =>
    refine ih (by omega) ?_
    obtain ⟨digits, hsmall, rfl, rfl⟩ := carries
    have hdigit : bits.toNat / 2 ^ bitCount % 2 ^ 5 < 2 ^ 5 := Nat.mod_lt _ (by decide)
    have hlow : Base32.bits (bits.toNat / 2 ^ bitCount % 2 ^ 5) 5 =
        Base32.bits (bits.toNat / 2 ^ bitCount) 5 :=
      Base32.bits_congr fun i hi => by
        rw [Nat.testBit_mod_two_pow, decide_eq_true hi, Bool.true_and]
    refine ⟨digits ++ [bits.toNat / 2 ^ bitCount % 2 ^ 5], ?_, ?_, ?_⟩
    · intro d hd
      rcases List.mem_append.mp hd with hd | hd
      · exact hsmall d hd
      · rwa [List.mem_singleton.mp hd]
    · rw [index_shiftRight (by omega), alphabet_letter _ hdigit, List.map_append,
        List.map_singleton]
    · show _ ++ Base32.bits bits.toNat (bitCount + 5) = _
      rw [Nat.add_comm bitCount 5, Base32.bits_add, List.flatMap_append, List.flatMap_singleton,
        hlow, List.append_assoc]
  | case2 bitCount result => exact carries

theorem drainBits_count (bits : UInt16) (bitCount : Nat) (result : List Char) :
    (drainBits bits bitCount result).1 = bitCount % 5 := by
  fun_induction drainBits bits bitCount result with
  | case1 bitCount result ih => rw [ih, ← Nat.add_mod_right bitCount 5]
  | case2 bitCount result small =>
    refine (Nat.mod_eq_of_lt ?_).symm
    by_contra hge
    exact small (bitCount - 5) (by omega)

/-- A byte is shifted in below the bits that are still owed; what the shift pushes out of the
accumulator lies above them. -/
theorem bits_shiftLeft (h : bitCount < 5) (byte : UInt8) :
    Base32.bits ((bits <<< 8) ||| byte.toUInt16).toNat (bitCount + 8) =
      Base32.bits bits.toNat bitCount ++ Base32.bits byte.toNat 8 := by
  have hshifted : ∀ i < 16, ((bits <<< 8) ||| byte.toUInt16).toNat.testBit i =
      ((decide (8 ≤ i) && bits.toNat.testBit (i - 8)) || byte.toNat.testBit i) := by
    intro i hi
    rw [UInt16.toNat_or, UInt16.toNat_shiftLeft, UInt8.toNat_toUInt16, Nat.testBit_or,
      show (8 : UInt16).toNat % 16 = 8 from rfl, Nat.testBit_mod_two_pow, decide_eq_true hi,
      Bool.true_and, Nat.testBit_shiftLeft]
  rw [Base32.bits_add]
  congr 1
  · refine Base32.bits_congr fun i hi => ?_
    have hbyte : byte.toNat.testBit (i + 8) = false :=
      Nat.testBit_lt_two_pow (byte.toNat_lt.trans_le (Nat.pow_le_pow_right (by decide) (by omega)))
    rw [Nat.testBit_div_two_pow, hshifted _ (by omega), hbyte, Bool.or_false,
      decide_eq_true (by omega), Bool.true_and, Nat.add_sub_cancel]
  · refine Base32.bits_congr fun i hi => ?_
    rw [hshifted _ (by omega), decide_eq_false (by omega), Bool.false_and, Bool.false_or]

theorem encodeByte_carries {s : Base32State} (h : s.bitCount < 5)
    (carries : Carries read s.bits s.bitCount s.result) (byte : UInt8) :
    Carries (read ++ Base32.bits byte.toNat 8) (encodeByte s byte).bits (encodeByte s byte).bitCount
      (encodeByte s byte).result ∧ (encodeByte s byte).bitCount < 5 := by
  constructor
  · obtain ⟨digits, hsmall, hresult, hread⟩ := carries
    have hshifted : Carries (read ++ Base32.bits byte.toNat 8)
        ((s.bits <<< 8) ||| byte.toUInt16) (s.bitCount + 8) s.result :=
      ⟨digits, hsmall, hresult, by rw [bits_shiftLeft h, hread, List.append_assoc]⟩
    have hdrained := drainBits_carries (by omega) hshifted
    exact hdrained
  · show (drainBits _ _ _).1 < 5
    rw [drainBits_count]
    exact Nat.mod_lt _ (by decide)

/-- The loop over the input -/
theorem foldl_carries (input : Blob) {s : Base32State} (h : s.bitCount < 5)
    (carries : Carries read s.bits s.bitCount s.result) :
    Carries (read ++ Base32.bitString input) (input.foldl encodeByte s).bits
        (input.foldl encodeByte s).bitCount (input.foldl encodeByte s).result ∧
      (input.foldl encodeByte s).bitCount < 5 := by
  induction input generalizing s read with
  | nil => exact ⟨by simpa [Base32.bitString] using carries, h⟩
  | cons byte rest ih =>
    obtain ⟨hcarries, hcount⟩ := encodeByte_carries h carries byte
    have hrest := ih hcount hcarries
    rwa [List.append_assoc] at hrest

/-- The last letter has the bits that are left in front of zeros. -/
theorem index_shiftLeft (bits : UInt16) (pos : 0 < bitCount) (h : bitCount < 5) :
    ((bits <<< UInt16.ofNat (5 - bitCount)) &&& 0x1F).toNat =
      Base32.value (Base32.bits bits.toNat bitCount ++ List.replicate (5 - bitCount) false) := by
  have hbits : Base32.value (Base32.bits bits.toNat bitCount) = bits.toNat % 2 ^ bitCount := by
    rw [Base32.value, Base32.foldl_bits, Nat.zero_mul, Nat.zero_add]
  have hshift : (UInt16.ofNat (5 - bitCount)).toNat % 16 = 5 - bitCount := by
    rw [UInt16.toNat_ofNat']
    omega
  have hpow : 2 ^ 5 = 2 ^ bitCount * 2 ^ (5 - bitCount) := by
    rw [← Nat.pow_add, show bitCount + (5 - bitCount) = 5 by omega]
  have hmask : (0x1F : UInt16).toNat = 2 ^ 5 - 1 := rfl
  rw [UInt16.toNat_and, UInt16.toNat_shiftLeft, hshift, hmask,
    Nat.and_two_pow_sub_one_eq_mod, Nat.mod_mod_of_dvd _ (by decide), Nat.shiftLeft_eq, hpow,
    Nat.mul_mod_mul_right, Base32.value_append, Base32.value_zeros, hbits, List.length_replicate,
    Nat.add_zero]

theorem base32EncodeLowercase_toList (input : Blob) :
    (base32EncodeLowercase input).toList = Base32.encode input := by
  have hstart : Carries [] 0 0 [] := ⟨[], by simp, rfl, rfl⟩
  obtain ⟨⟨digits, hsmall, hresult, hread⟩, hcount⟩ :=
    foldl_carries input (s := {}) (by decide) hstart
  rw [List.nil_append] at hread
  rw [Base32.encode, hread, Base32.groups_flatMap (by decide) hsmall]
  unfold base32EncodeLowercase
  dsimp only
  split
  · rename_i hpos
    have hlength := Base32.length_bits (input.foldl encodeByte {}).bits.toNat
      (input.foldl encodeByte {}).bitCount
    have hlast := Base32.groups_short (w := 5) (by rwa [hlength]) (by rwa [hlength])
    rw [hlength] at hlast
    have hdigit := index_shiftLeft (input.foldl encodeByte {}).bits hpos hcount
    have hsmall : Base32.value _ < 2 ^ 5 := Base32.groups_lt (hlast ▸ List.mem_singleton_self _)
    rw [String.toList_ofList, hlast, hresult, hdigit, alphabet_letter _ hsmall, List.map_append,
      List.map_singleton]
  · rename_i hzero
    rw [show (input.foldl encodeByte {}).bitCount = 0 by omega, Base32.bits,
      Base32.groups_nil (by decide), List.append_nil, String.toList_ofList, hresult]

/-- The checksum encoder is the lower-case base 32 of RFC 4648 without padding, on every
input, so that inputs of one length are told apart. -/
theorem base32_rfc4648 (input : Blob) :
    base32EncodeLowercase input = String.ofList (Base32.encode input) ∧
      (base32EncodeLowercase input).length = (8 * input.length + 4) / 5 ∧
      ∀ other : Blob, other.length = input.length →
        base32EncodeLowercase other = base32EncodeLowercase input → other = input := by
  refine ⟨?_, ?_, fun other hlength h => ?_⟩
  · rw [← base32EncodeLowercase_toList, String.ofList_toList]
  · rw [← String.length_toList, base32EncodeLowercase_toList, Base32.length_encode]
  · refine Base32.encode_injective hlength ?_
    rw [← base32EncodeLowercase_toList, ← base32EncodeLowercase_toList, h]

/-- `foobar` -/
example : base32EncodeLowercase [102, 111, 111, 98, 97, 114] = "mzxw6ytboi" := by decide

end SubaccountIndexer.IcrcAccount
