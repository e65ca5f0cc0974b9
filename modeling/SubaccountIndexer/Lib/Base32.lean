import Mathlib.Data.List.GetD
import Mathlib.Tactic.Ring

/-! Base 32 in lower case and without padding, as RFC 4648 has it: the bits of the input,
those of a byte highest first, are cut into groups of five, the last group is filled up with
zero bits, and each group is the number of a letter. The cutting is that of every base whose
digits are bit groups, so it is stated for any width. -/

namespace SubaccountIndexer.Lib.Base32

/-- The `width` low bits of a number, highest first -/
def bits (n : Nat) : Nat → List Bool
  | 0 => []
  | width + 1 => n.testBit width :: bits n width

def value (l : List Bool) : Nat := l.foldl (fun n b => 2 * n + b.toNat) 0

/-- The numbers of the groups of `w` bits; past the end there are zero bits. -/
def groups (w : Nat) (l : List Bool) : List Nat :=
  (List.range ((l.length + (w - 1)) / w)).map fun i =>
    value ((List.range w).map fun j => l.getD (w * i + j) false)

def letter (n : Nat) : Char :=
  if n < 26 then Char.ofNat ('a'.toNat + n) else Char.ofNat ('2'.toNat + (n - 26))

def bitString (input : List UInt8) : List Bool := input.flatMap fun b => bits b.toNat 8

def encode (input : List UInt8) : List Char := (groups 5 (bitString input)).map letter

/-! ## Bits and their value -/

@[simp] theorem length_bits (n width : Nat) : (bits n width).length = width := by
  induction width with
  | zero => rfl
  | succ width ih => rw [bits, List.length_cons, ih]

/-- The bits are those of the number below the width. -/
theorem bits_congr {m n : Nat} {width : Nat}
    (h : ∀ i < width, m.testBit i = n.testBit i) : bits m width = bits n width := by
  induction width with
  | zero => rfl
  | succ width ih =>
    rw [bits, bits, h width (by omega), ih fun i hi => h i (by omega)]

/-- The bits above the low ones come first. -/
theorem bits_add (n high low : Nat) :
    bits n (high + low) = bits (n / 2 ^ low) high ++ bits n low := by
  induction high with
  | zero => rw [Nat.zero_add, bits, List.nil_append]
  | succ high ih =>
    rw [show high + 1 + low = high + low + 1 by omega, bits, bits, ih, List.cons_append,
      Nat.testBit_div_two_pow]

theorem foldl_bits (acc n width : Nat) :
    (bits n width).foldl (fun n b => 2 * n + b.toNat) acc = acc * 2 ^ width + n % 2 ^ width := by
  induction width generalizing acc with
  | zero => simp [bits, Nat.mod_one]
  | succ width ih =>
    rw [bits, List.foldl_cons, ih, Nat.mod_pow_succ, Nat.toNat_testBit, Nat.pow_succ]
    ring

theorem value_bits {n width : Nat} (h : n < 2 ^ width) : value (bits n width) = n := by
  rw [value, foldl_bits, Nat.zero_mul, Nat.zero_add, Nat.mod_eq_of_lt h]

theorem foldl_value (acc : Nat) (l : List Bool) :
    l.foldl (fun n b => 2 * n + b.toNat) acc = acc * 2 ^ l.length + value l := by
  induction l generalizing acc with
  | nil => simp [value]
  | cons b l ih =>
    rw [value, List.foldl_cons, List.foldl_cons, ih, ih, List.length_cons, Nat.pow_succ]
    ring

theorem value_cons (b : Bool) (l : List Bool) :
    value (b :: l) = 2 ^ l.length * b.toNat + value l := by
  rw [value, List.foldl_cons, foldl_value, Nat.mul_zero, Nat.zero_add, Nat.mul_comm]

theorem value_append (l l' : List Bool) : value (l ++ l') = value l * 2 ^ l'.length + value l' := by
  rw [value, List.foldl_append, foldl_value]
  rfl

theorem value_zeros (n : Nat) : value (List.replicate n false) = 0 := by
  induction n with
  | zero => rfl
  | succ n ih => rw [List.replicate_succ, value_cons, ih, Bool.toNat_false, Nat.mul_zero]

theorem value_lt (l : List Bool) : value l < 2 ^ l.length := by
  induction l with
  | nil => exact Nat.one_pos
  | cons b l ih =>
    rw [value_cons, List.length_cons, Nat.pow_succ]
    have hb : b.toNat ≤ 1 := by cases b <;> decide
    have := Nat.mul_le_mul_left (2 ^ l.length) hb
    omega

/-- A bit string is that of its value. -/
theorem bits_value (l : List Bool) : bits (value l) l.length = l := by
  induction l with
  | nil => rfl
  | cons b l ih =>
    have hlow : ∀ i < l.length,
        (2 ^ l.length * b.toNat + value l).testBit i = (value l).testBit i := by
      intro i hi
      rw [Nat.testBit_two_pow_mul_add _ (value_lt l), if_pos hi]
    have hhigh : (2 ^ l.length * b.toNat + value l).testBit l.length = b := by
      rw [Nat.testBit_two_pow_mul_add _ (value_lt l), if_neg (Nat.lt_irrefl _), Nat.sub_self]
      cases b <;> rfl
    rw [value_cons, List.length_cons, bits, hhigh, bits_congr hlow, ih]

/-! ## Groups -/

@[simp] theorem length_groups (w : Nat) (l : List Bool) :
    (groups w l).length = (l.length + (w - 1)) / w := by
  simp [groups]

theorem groups_lt {w : Nat} {l : List Bool} {d : Nat} (h : d ∈ groups w l) : d < 2 ^ w := by
  obtain ⟨i, -, rfl⟩ := List.mem_map.mp h
  simpa using value_lt ((List.range w).map fun j => l.getD (w * i + j) false)

theorem groups_nil {w : Nat} (pos : 0 < w) : groups w [] = [] := by
  have hnone : (([] : List Bool).length + (w - 1)) / w = 0 :=
    Nat.div_eq_of_lt (by rw [List.length_nil]; omega)
  rw [groups, hnone, List.range_zero, List.map_nil]

theorem map_getD (l : List Bool) :
    ((List.range l.length).map fun j => l.getD j false) = l := by
  apply List.ext_getElem
  · simp
  · intro i h₁ h₂
    simp [List.getD_eq_getElem?_getD, h₂]

/-- A whole group is cut off. -/
theorem groups_append {w : Nat} (pos : 0 < w) {first : List Bool} (hw : first.length = w)
    (rest : List Bool) : groups w (first ++ rest) = value first :: groups w rest := by
  have hcount : ((first ++ rest).length + (w - 1)) / w = (rest.length + (w - 1)) / w + 1 := by
    rw [List.length_append, hw, show w + rest.length + (w - 1) = rest.length + (w - 1) + w by omega,
      Nat.add_div_right _ pos]
  have hfirst : ((List.range w).map fun j => (first ++ rest).getD (w * 0 + j) false) = first := by
    subst hw
    conv_rhs => rw [← map_getD first]
    refine List.map_congr_left fun j hj => ?_
    rw [Nat.mul_zero, Nat.zero_add, List.getD_append _ _ _ _ (List.mem_range.mp hj)]
  have hrest : ∀ i, ((List.range w).map fun j => (first ++ rest).getD (w * (i + 1) + j) false) =
      (List.range w).map fun j => rest.getD (w * i + j) false := by
    intro i
    refine List.map_congr_left fun j _ => ?_
    have hle : w ≤ w * (i + 1) + j := by
      rw [Nat.mul_succ]
      omega
    rw [List.getD_append_right _ _ _ _ (by rw [hw]; exact hle), hw]
    congr 1
    rw [Nat.mul_succ]
    omega
  rw [groups, hcount, List.range_succ_eq_map, List.map_cons, List.map_map, hfirst, groups]
  congr 1
  refine List.map_congr_left fun i _ => ?_
  rw [Function.comp_apply, Nat.succ_eq_add_one, hrest]

/-- The groups written out, followed by what was not grouped yet -/
theorem groups_flatMap {w : Nat} (pos : 0 < w) {digits : List Nat}
    (small : ∀ d ∈ digits, d < 2 ^ w) (rest : List Bool) :
    groups w (digits.flatMap (bits · w) ++ rest) = digits ++ groups w rest := by
  induction digits with
  | nil => rfl
  | cons d digits ih =>
    rw [List.flatMap_cons, List.append_assoc, groups_append pos (length_bits d w),
      value_bits (small d List.mem_cons_self), ih fun e he => small e (List.mem_cons_of_mem d he),
      List.cons_append]

/-- The last group, filled up with zeros -/
theorem groups_short {w : Nat} {l : List Bool} (nonempty : 0 < l.length) (short : l.length < w) :
    groups w l = [value (l ++ List.replicate (w - l.length) false)] := by
  have hcount : (l.length + (w - 1)) / w = 1 :=
    Nat.div_eq_of_lt_le (by omega) (by omega)
  have hpadded : ((List.range w).map fun j => l.getD (w * 0 + j) false) =
      l ++ List.replicate (w - l.length) false := by
    apply List.ext_getElem
    · simp
      omega
    · intro i h₁ h₂
      rw [List.getElem_map, List.getElem_range, Nat.mul_zero, Nat.zero_add,
        List.getD_eq_getElem?_getD]
      by_cases hi : i < l.length
      · rw [List.getElem?_eq_getElem hi, List.getElem_append_left hi, Option.getD_some]
      · rw [List.getElem?_eq_none (by omega), List.getElem_append_right (by omega),
          List.getElem_replicate, Option.getD_none]
  rw [groups, hcount, List.range_one, List.map_singleton, hpadded]

/-- The bits of the groups start with the bits that were cut. -/
theorem take_groups {w : Nat} (pos : 0 < w) (l : List Bool) :
    ((groups w l).flatMap (bits · w)).take l.length = l := by
  induction hlength : l.length using Nat.strongRecOn generalizing l with
  | ind n ih =>
    subst hlength
    by_cases hshort : l.length < w
    · by_cases hnil : l.length = 0
      · rw [List.length_eq_zero_iff.mp hnil, groups_nil pos]
        rfl
      · have hpadded := bits_value (l ++ List.replicate (w - l.length) false)
        rw [List.length_append, List.length_replicate, show l.length + (w - l.length) = w by omega]
          at hpadded
        rw [groups_short (by omega) hshort, List.flatMap_singleton, hpadded, List.take_left]
    · have hfirst : (l.take w).length = w := by
        rw [List.length_take]
        omega
      have hbits := bits_value (l.take w)
      rw [hfirst] at hbits
      have hrest := ih (l.drop w).length (by rw [List.length_drop]; omega) (l.drop w) rfl
      have hgroups : groups w l = value (l.take w) :: groups w (l.drop w) := by
        rw [← groups_append pos hfirst, List.take_append_drop]
      have hlength : l.length = (l.take w).length + (l.drop w).length := by
        rw [← List.length_append, List.take_append_drop]
      rw [hgroups, List.flatMap_cons, hbits, hlength, List.take_length_add_append, hrest,
        List.take_append_drop]

/-- The groups determine a bit string of known length. -/
theorem groups_injective {w : Nat} (pos : 0 < w) {l l' : List Bool} (hlength : l.length = l'.length)
    (h : groups w l = groups w l') : l = l' := by
  rw [← take_groups pos l, ← take_groups pos l', h, hlength]

/-! ## Letters and bytes -/

def number (c : Char) : Nat :=
  if 'a' ≤ c then c.toNat - 'a'.toNat else c.toNat - '2'.toNat + 26

theorem number_letter : ∀ n < 32, number (letter n) = n := by decide

@[simp] theorem length_bitString (input : List UInt8) :
    (bitString input).length = 8 * input.length := by
  induction input with
  | nil => rfl
  | cons b rest ih =>
    rw [bitString, List.flatMap_cons, List.length_append, length_bits]
    rw [bitString] at ih
    rw [ih, List.length_cons]
    omega

theorem bitString_injective {input other : List UInt8} (h : bitString input = bitString other) :
    input = other := by
  induction input generalizing other with
  | nil =>
    cases other with
    | nil => rfl
    | cons b rest => exact absurd (congrArg List.length h) (by simp)
  | cons b rest ih =>
    cases other with
    | nil => exact absurd (congrArg List.length h) (by simp)
    | cons b' rest' =>
      obtain ⟨hbyte, hrest⟩ := List.append_inj h ((length_bits _ _).trans (length_bits _ _).symm)
      have hvalue := congrArg value hbyte
      rw [value_bits b.toNat_lt, value_bits b'.toNat_lt] at hvalue
      rw [UInt8.toNat_inj.mp hvalue, ih hrest]

theorem length_encode (input : List UInt8) :
    (encode input).length = (8 * input.length + 4) / 5 := by
  simp [encode]

/-- The encoding determines an input of known length. -/
theorem encode_injective {input other : List UInt8} (hlength : input.length = other.length)
    (h : encode input = encode other) : input = other := by
  have hback : ∀ input, (encode input).map number = groups 5 (bitString input) := by
    intro input
    rw [encode, List.map_map]
    conv_rhs => rw [← List.map_id (groups 5 (bitString input))]
    exact List.map_congr_left fun d hd => number_letter d (groups_lt hd)
  refine bitString_injective (groups_injective (w := 5) (by decide) ?_ ?_)
  · rw [length_bitString, length_bitString, hlength]
  · rw [← hback input, ← hback other, h]

end SubaccountIndexer.Lib.Base32
