import SubaccountIndexer.Lib.Candid
import SubaccountIndexer.Lib.PrefixCode

/-! The values of a Candid type are written in a prefix code: what follows a value is told from
it, and no two values are written alike. -/

namespace SubaccountIndexer.Lib.Candid

open Leb128

/-! ## LEB128 -/

theorem unsigned_last {n : Nat} (h : n < 128) : unsigned n = [UInt8.ofNat n] := by
  rw [unsigned, if_pos h]

theorem unsigned_more {n : Nat} (h : ¬ n < 128) :
    unsigned n = UInt8.ofNat (n % 128 + 128) :: unsigned (n / 128) := by
  rw [unsigned, if_neg h]

theorem ofNat_byte_inj {x y : Nat} (hx : x < 256) (hy : y < 256)
    (h : UInt8.ofNat x = UInt8.ofNat y) : x = y := by
  have hnat := congrArg UInt8.toNat h
  simp only [UInt8.toNat_ofNat'] at hnat
  omega

/-- Only the last byte of a number is without the high bit. -/
theorem prefixCode_unsigned : PrefixCode unsigned := by
  refine .of_read fun n => ?_
  induction n using Nat.strongRecOn with
  | ind n ih =>
    intro m r s heq
    by_cases hn : n < 128 <;> by_cases hm : m < 128
    · rw [unsigned_last hn, unsigned_last hm] at heq
      obtain ⟨hbyte, hend⟩ := List.cons.inj heq
      exact ⟨ofNat_byte_inj (by omega) (by omega) hbyte, hend⟩
    · rw [unsigned_last hn, unsigned_more hm] at heq
      have := ofNat_byte_inj (by omega) (by omega) (List.cons.inj heq).1
      omega
    · rw [unsigned_more hn, unsigned_last hm] at heq
      have := ofNat_byte_inj (by omega) (by omega) (List.cons.inj heq).1
      omega
    · rw [unsigned_more hn, unsigned_more hm] at heq
      obtain ⟨hbyte, hlater⟩ := List.cons.inj heq
      have hlow := ofNat_byte_inj (by omega) (by omega) hbyte
      obtain ⟨hhigh, hend⟩ := ih (n / 128) (by omega) (m / 128) r s hlater
      exact ⟨by omega, hend⟩

/-! ## Values -/

/-- A type whose values are written in a prefix code -/
class PrefixCoded (α : Type) [CandidType α] : Prop where
  code : PrefixCode (encoding (α := α)).serialize

variable {α β : Type}

/-! ## Primitive types -/

theorem littleEndian_inj (width : Nat) {m n : Nat} (hm : m < 256 ^ width) (hn : n < 256 ^ width)
    (h : littleEndian width m = littleEndian width n) : m = n := by
  induction width generalizing m n with
  | zero =>
    rw [Nat.pow_zero] at hm hn
    omega
  | succ width ih =>
    obtain ⟨hbyte, hrest⟩ := List.cons.inj h
    have hlow : m % 256 = n % 256 := by
      have hnat := congrArg UInt8.toNat hbyte
      simpa only [UInt8.toNat_ofNat'] using hnat
    have hhigh := ih (by rw [Nat.pow_succ] at hm; omega) (by rw [Nat.pow_succ] at hn; omega) hrest
    omega

theorem utf8_injective : Function.Injective utf8 := by
  intro text text' h
  have hbytes := congrArg List.toByteArray h
  have hencode : ∀ text : String, (utf8 text).toByteArray = text.toByteArray := fun text =>
    String.utf8Encode_toList
  rw [hencode, hencode] at hbytes
  exact String.toByteArray_inj.mp hbytes

instance : PrefixCoded Unit := ⟨.of_read fun _ _ _ _ heq => ⟨rfl, heq⟩⟩

instance : PrefixCoded UInt8 := ⟨.of_read fun _ _ _ _ heq => List.cons.inj heq⟩

instance : PrefixCoded UInt64 where
  code :=
    { delimited := delimited_of_length length_nat64
      injective := fun m n h => UInt64.toNat_inj.mp
        (littleEndian_inj 8 (UInt64.toNat_lt m) (UInt64.toNat_lt n) h) }

instance : PrefixCoded Int64 where
  code :=
    { delimited := delimited_of_length fun n : Int64 => length_littleEndian 8 n.toUInt64.toNat
      injective := fun m n h => congrArg Int64.ofUInt64 (UInt64.toNat_inj.mp
        (littleEndian_inj 8 (UInt64.toNat_lt m.toUInt64) (UInt64.toNat_lt n.toUInt64)
          h)) }

/-- Bytes after their number -/
theorem prefixCode_bytes : PrefixCode fun l : List UInt8 => unsigned l.length ++ l :=
  .of_read fun l l' r s heq => by
    rw [List.append_assoc, List.append_assoc] at heq
    obtain ⟨hlength, hbytes⟩ := prefixCode_unsigned.read heq
    exact List.append_inj hbytes hlength

instance : PrefixCoded String := ⟨prefixCode_bytes.comp utf8_injective⟩

theorem prefixCode_principal {bytes : α → List UInt8} (inj : Function.Injective bytes) :
    PrefixCode (Encoding.principal bytes).serialize :=
  (prefixCode_bytes.comp inj).prepend [1]

/-! ## Composite types -/

instance [CandidType α] [PrefixCoded α] : PrefixCoded (Option α) where
  code := .of_read fun a b r s heq => by
    cases a with
    | none =>
      cases b with
      | none => exact ⟨rfl, (List.cons.inj heq).2⟩
      | some b => exact absurd (List.cons.inj heq).1 (by decide)
    | some a =>
      cases b with
      | none => exact absurd (List.cons.inj heq).1 (by decide)
      | some b =>
        obtain ⟨rfl, hend⟩ := PrefixCoded.code.read (List.cons.inj heq).2
        exact ⟨rfl, hend⟩

instance [CandidType α] [PrefixCoded α] : PrefixCoded (List α) :=
  ⟨prefixCode_counted prefixCode_unsigned PrefixCoded.code⟩

@[simp] theorem Field.delimited_of [CandidType β] [PrefixCoded β] (label : String) (get : α → β) :
    Delimited (Field.of label get).serialize :=
  PrefixCoded.code.delimited.comp get

@[simp] theorem serialize_inj [CandidType β] [PrefixCoded β] {b b' : β} :
    encoding.serialize b = encoding.serialize b' ↔ b = b' :=
  PrefixCoded.code.injective.eq_iff

/-- A record is known by its fields. -/
theorem prefixCode_record {fields : List (Field α)} (each : ∀ f ∈ fields, Delimited f.serialize)
    (determine : ∀ a b, (∀ f ∈ fields, f.serialize a = f.serialize b) → a = b) :
    PrefixCode (Encoding.record fields).serialize := by
  have hperm : (byHash Field.label fields).Perm fields := List.perm_insertionSort _ fields
  exact prefixCode_fields (fun f hf => each f (hperm.mem_iff.mp hf))
    fun a b hfields => determine a b fun f hf => hfields f (hperm.mem_iff.mpr hf)

/-- The payload of a case can be told from what follows it. -/
def Case.Delimited (c : Case α) : Prop :=
  ∀ a b p q r s, c.payload a = some p → c.payload b = some q → p ++ r = q ++ s → p = q ∧ r = s

@[simp] theorem Case.delimited_of [CandidType β] [PrefixCoded β] (label : String)
    (get : α → Option β) : (Case.of label get).Delimited := by
  intro a b p q r s ha hb heq
  rw [Case.payload_of] at ha hb
  obtain ⟨x, -, rfl⟩ := Option.map_eq_some_iff.mp ha
  obtain ⟨y, -, rfl⟩ := Option.map_eq_some_iff.mp hb
  exact PrefixCoded.code.delimited x y r s heq

@[simp] theorem Case.delimited_unit [DecidableEq α] (label : String) (value : α) :
    (Case.unit label value).Delimited := Case.delimited_of label _

/-- The payload of a case determines the value. -/
def Case.Determines (c : Case α) : Prop :=
  ∀ a b p, c.payload a = some p → c.payload b = some p → a = b

theorem Case.determines_of [CandidType β] [PrefixCoded β] {label : String} {get : α → Option β}
    (build : β → α) (built : ∀ a x, get a = some x → a = build x) :
    (Case.of label get).Determines := by
  intro a b p ha hb
  rw [Case.payload_of] at ha hb
  obtain ⟨x, hx, rfl⟩ := Option.map_eq_some_iff.mp ha
  obtain ⟨y, hy, heq⟩ := Option.map_eq_some_iff.mp hb
  obtain rfl : y = x := serialize_inj.mp heq
  rw [built a y hx, built b y hy]

@[simp] theorem Case.determines_unit [DecidableEq α] (label : String) (value : α) :
    (Case.unit label value).Determines :=
  Case.determines_of (fun _ => value) fun a _ h => by
    by_contra hne
    rw [if_neg hne] at h
    cases h

/-- The case that is found stands at its number. -/
theorem caseOf_at {cases : List (Case α)} {a : α} {i : Nat} {payload : List UInt8}
    (h : caseOf cases a = some (i, payload)) :
    ∃ c, cases[i]? = some c ∧ c.payload a = some payload := by
  obtain ⟨⟨c, j⟩, hmem, hpayload⟩ := List.exists_of_findSome?_eq_some h
  obtain ⟨payload', hpayload', heq⟩ := Option.map_eq_some_iff.mp hpayload
  cases heq
  exact ⟨c, List.mk_mem_zipIdx_iff_getElem?.mp hmem, hpayload'⟩

/-- A value of a variant is known by its case and the payload. -/
theorem prefixCode_variant {cases : List (Case α)} (each : ∀ c ∈ cases, c.Delimited)
    (total : ∀ a, ∃ c ∈ cases, (c.payload a).isSome = true)
    (determine : ∀ c ∈ cases, c.Determines) :
    PrefixCode (Encoding.variant cases).serialize := by
  have hperm : (byHash Case.label cases).Perm cases := List.perm_insertionSort _ cases
  have hfound : ∀ a, ∃ i p c, caseOf (byHash Case.label cases) a = some (i, p) ∧
      (byHash Case.label cases)[i]? = some c ∧ c.payload a = some p := by
    intro a
    obtain ⟨c, hc, hsome⟩ := total a
    obtain ⟨⟨i, p⟩, hcase⟩ := caseOf_isSome (hperm.mem_iff.mpr hc) hsome
    obtain ⟨c', hat, hpayload⟩ := caseOf_at hcase
    exact ⟨i, p, c', hcase, hat, hpayload⟩
  refine .of_read fun a b r s heq => ?_
  obtain ⟨i, p, c, hcase, hat, hp⟩ := hfound a
  obtain ⟨j, q, c', hcase', hat', hq⟩ := hfound b
  simp only [Encoding.variant, hcase, hcase', List.append_assoc] at heq
  obtain ⟨rfl, hpayload⟩ := prefixCode_unsigned.read heq
  cases hat.symm.trans hat'
  have hmem : c ∈ cases := hperm.mem_iff.mp (List.mem_of_getElem? hat)
  obtain ⟨rfl, hend⟩ := each c hmem a b p q r s hp hq hpayload
  exact ⟨determine c hmem a b p hp hq, hend⟩

/-- So is the message that holds one value. -/
theorem prefixCode_encodeOne [CandidType α] [PrefixCoded α] : PrefixCode (encodeOne (α := α)) :=
  PrefixCoded.code.prepend _

end SubaccountIndexer.Lib.Candid
