import Mathlib.Algebra.GroupWithZero.Nat
import Mathlib.Data.Int.Notation
import Mathlib.Data.List.Sort

/-! The Candid wire format of one value: the magic bytes, the table of the composite types that
occur, the type of the value, and the value. A type is entered once, when it is first met, and
from then on named by its index. Records and variants have their fields in the order of the
hashes of the labels. -/

/-! ## LEB128

A number in groups of seven bits, lowest first, one a byte; every byte but the last has its high
bit set. The signed form ends where the bits that are left repeat the sign. -/

namespace SubaccountIndexer.Lib.Leb128

def unsigned (n : Nat) : List UInt8 :=
  if n < 128 then [UInt8.ofNat n] else UInt8.ofNat (n % 128 + 128) :: unsigned (n / 128)

def signed (n : Int) : List UInt8 :=
  if -64 ≤ n ∧ n < 64 then [UInt8.ofNat (n % 128).toNat]
  else UInt8.ofNat ((n % 128).toNat + 128) :: signed (n / 128)
termination_by n.natAbs
decreasing_by omega

theorem length_unsigned {n : Nat} (h : n < 128) : (unsigned n).length = 1 := by
  rw [unsigned, if_pos h]
  rfl

example : unsigned 624485 = [0xe5, 0x8e, 0x26] ∧ signed (-123456) = [0xc0, 0xbb, 0x78] := by
  decide +kernel

end SubaccountIndexer.Lib.Leb128

namespace SubaccountIndexer.Lib.Candid

open Leb128

/-! ## Types -/

inductive Prim where
  | null
  | nat8
  | nat64
  | int64
  | text
  | principal
deriving DecidableEq

mutual

inductive Ty where
  | prim (p : Prim)
  | opt (t : Ty)
  | vec (t : Ty)
  | record (fields : Fields)
  | variant (fields : Fields)
deriving DecidableEq

/-- Fields with the hashes of their labels -/
inductive Fields where
  | nil
  | cons (id : UInt32) (t : Ty) (rest : Fields)
deriving DecidableEq

end

def Prim.opcode : Prim → Int
  | .null => -1
  | .nat8 => -5
  | .nat64 => -8
  | .int64 => -12
  | .text => -15
  | .principal => -24

def Fields.length : Fields → Nat
  | .nil => 0
  | .cons _ _ rest => rest.length + 1

def Fields.ofList : List (UInt32 × Ty) → Fields
  | [] => .nil
  | (id, t) :: rest => .cons id t (ofList rest)

/-! ## The type table -/

mutual

/-- The table once the type is in it, and the types it is made of -/
def Ty.enter (table : List Ty) : Ty → List Ty
  | .prim _ => table
  | .opt t => if .opt t ∈ table then table else t.enter (table ++ [.opt t])
  | .vec t => if .vec t ∈ table then table else t.enter (table ++ [.vec t])
  | .record fields =>
    if .record fields ∈ table then table else fields.enter (table ++ [.record fields])
  | .variant fields =>
    if .variant fields ∈ table then table else fields.enter (table ++ [.variant fields])

def Fields.enter (table : List Ty) : Fields → List Ty
  | .nil => table
  | .cons _ t rest => rest.enter (t.enter table)

end

/-- How a type is named: by its opcode or by its index -/
def Ty.name (table : List Ty) : Ty → List UInt8
  | .prim p => signed p.opcode
  | t => signed (table.idxOf t)

def Fields.names (table : List Ty) : Fields → List UInt8
  | .nil => []
  | .cons id t rest => unsigned id.toNat ++ t.name table ++ rest.names table

/-- What the table says of a type -/
def Ty.entry (table : List Ty) : Ty → List UInt8
  | .prim p => signed p.opcode
  | .opt t => signed (-18) ++ t.name table
  | .vec t => signed (-19) ++ t.name table
  | .record fields => signed (-20) ++ unsigned fields.length ++ fields.names table
  | .variant fields => signed (-21) ++ unsigned fields.length ++ fields.names table

/-- All that comes before the value: `DIDL`, the table, and the types of the values, of which
there is one -/
def header (t : Ty) : List UInt8 :=
  let table := t.enter []
  [0x44, 0x49, 0x44, 0x4c] ++ unsigned table.length ++ table.flatMap (Ty.entry table) ++
    unsigned 1 ++ t.name table

/-! ## Values -/

/-- The Candid type of a type of values, and how a value is written -/
structure Encoding (α : Type) where
  ty : Ty
  serialize : α → List UInt8

class CandidType (α : Type) where
  encoding : Encoding α

export CandidType (encoding)

/-- The `width` low bytes of a number, lowest first -/
def littleEndian : Nat → Nat → List UInt8
  | 0, _ => []
  | width + 1, n => UInt8.ofNat n :: littleEndian width (n / 256)

def utf8 (text : String) : List UInt8 := text.toList.flatMap String.utf8EncodeChar

variable {α β : Type}

instance : CandidType Unit := ⟨.prim .null, fun _ => []⟩
instance : CandidType UInt8 := ⟨.prim .nat8, fun b => [b]⟩
instance : CandidType UInt64 := ⟨.prim .nat64, fun n => littleEndian 8 n.toNat⟩
instance : CandidType Int64 := ⟨.prim .int64, fun n => littleEndian 8 n.toUInt64.toNat⟩
instance : CandidType String :=
  ⟨.prim .text, fun text => unsigned (utf8 text).length ++ utf8 text⟩

/-- A principal that is not opaque, written as its bytes -/
def Encoding.principal (bytes : α → List UInt8) : Encoding α :=
  ⟨.prim .principal, fun p => 1 :: (unsigned (bytes p).length ++ bytes p)⟩

/-- The encoding of `Option` -/
def Encoding.opt (e : Encoding α) : Encoding (Option α) where
  ty := .opt e.ty
  serialize
    | none => [0]
    | some a => 1 :: e.serialize a

/-- The encoding of `Vec` -/
def Encoding.vec (e : Encoding α) : Encoding (List α) where
  ty := .vec e.ty
  serialize l := unsigned l.length ++ l.flatMap e.serialize

instance [CandidType α] : CandidType (Option α) := ⟨.opt encoding⟩
instance [CandidType α] : CandidType (List α) := ⟨.vec encoding⟩

/-- The hash of a label -/
def idlHash (label : String) : UInt32 :=
  (utf8 label).foldl (fun hash b => hash * 223 + b.toUInt32) 0

/-- The order of the wire format -/
def byHash (label : α → String) (l : List α) : List α :=
  l.insertionSort fun a b => idlHash (label a) ≤ idlHash (label b)

/-- A field of a record, and how the record's value of it is written -/
structure Field (α : Type) where
  label : String
  ty : Ty
  serialize : α → List UInt8

def Field.of [CandidType β] (label : String) (get : α → β) : Field α :=
  ⟨label, (encoding (α := β)).ty, fun a => encoding.serialize (get a)⟩

/-- A case of a variant, and how the payload is written if the value is of this case -/
structure Case (α : Type) where
  label : String
  ty : Ty
  payload : α → Option (List UInt8)

def Case.of [CandidType β] (label : String) (get : α → Option β) : Case α :=
  ⟨label, (encoding (α := β)).ty, fun a => (get a).map encoding.serialize⟩

/-- A case without a payload -/
def Case.unit [DecidableEq α] (label : String) (value : α) : Case α :=
  .of label fun a => if a = value then some () else none

def Encoding.record (fields : List (Field α)) : Encoding α where
  ty := .record (.ofList ((byHash Field.label fields).map fun f => (idlHash f.label, f.ty)))
  serialize a := (byHash Field.label fields).flatMap fun f => f.serialize a

/-- The number of the case of a value, and its payload -/
def caseOf (cases : List (Case α)) (a : α) : Option (Nat × List UInt8) :=
  cases.zipIdx.findSome? fun entry => (entry.1.payload a).map fun payload => (entry.2, payload)

def Encoding.variant (cases : List (Case α)) : Encoding α where
  ty := .variant (.ofList ((byHash Case.label cases).map fun c => (idlHash c.label, c.ty)))
  serialize a :=
    match caseOf (byHash Case.label cases) a with
    | some (i, payload) => unsigned i ++ payload
    | none => []

/-- `candid::encode_one` -/
def encodeOne [CandidType α] (a : α) : List UInt8 :=
  header (encoding (α := α)).ty ++ encoding.serialize a

/-! ## How long a value is -/

@[simp] theorem length_littleEndian (width n : Nat) : (littleEndian width n).length = width := by
  induction width generalizing n with
  | zero => rfl
  | succ width ih => rw [littleEndian, List.length_cons, ih]

/-- ASCII takes a byte a character. -/
theorem length_utf8 {text : String} (ascii : ∀ c ∈ text.toList, c.toNat < 128) :
    (utf8 text).length = text.toList.length := by
  have hone : ∀ c ∈ text.toList, (String.utf8EncodeChar c).length = 1 := by
    intro c hc
    rw [String.length_utf8EncodeChar, Char.utf8Size, if_pos]
    exact Nat.le_of_lt_succ (ascii c hc)
  rw [utf8, List.length_flatMap, List.map_congr_left hone]
  simp

@[simp] theorem length_nat64 (n : UInt64) : (encoding.serialize n).length = 8 :=
  length_littleEndian 8 n.toNat

@[simp] theorem length_none [CandidType α] :
    (encoding.serialize (none : Option α)).length = 1 := rfl

@[simp] theorem length_some [CandidType α] (a : α) :
    (encoding.serialize (some a)).length = (encoding.serialize a).length + 1 := rfl

theorem length_bytes {l : List UInt8} (h : l.length < 128) :
    (encoding.serialize l).length = l.length + 1 := by
  have hflat : (l.flatMap fun b => [b]).length = l.length := by simp
  show (unsigned l.length ++ l.flatMap fun b => [b]).length = _
  rw [List.length_append, length_unsigned h, hflat, Nat.add_comm]

theorem length_text {text : String} (h : (utf8 text).length < 128) :
    (encoding.serialize text).length = (utf8 text).length + 1 := by
  show (unsigned (utf8 text).length ++ utf8 text).length = _
  rw [List.length_append, length_unsigned h, Nat.add_comm]

theorem length_principal {bytes : α → List UInt8} {p : α} (h : (bytes p).length < 128) :
    ((Encoding.principal bytes).serialize p).length = (bytes p).length + 2 := by
  show (1 :: (unsigned (bytes p).length ++ bytes p)).length = _
  rw [List.length_cons, List.length_append, length_unsigned h, Nat.add_comm 1]

@[simp] theorem Field.serialize_of [CandidType β] (label : String) (get : α → β) (a : α) :
    (Field.of label get).serialize a = encoding.serialize (get a) := rfl

@[simp] theorem Case.payload_of [CandidType β] (label : String) (get : α → Option β) (a : α) :
    (Case.of label get).payload a = (get a).map encoding.serialize := rfl

@[simp] theorem Case.payload_unit [DecidableEq α] (label : String) (value a : α) :
    (Case.unit label value).payload a = if a = value then some [] else none := by
  unfold Case.unit
  rw [Case.payload_of]
  split <;> rfl

/-- The order of the fields does not matter. -/
theorem length_record (fields : List (Field α)) (a : α) :
    ((Encoding.record fields).serialize a).length =
      (fields.map fun f => (f.serialize a).length).sum := by
  have hperm : (byHash Field.label fields).Perm fields := List.perm_insertionSort _ fields
  simp only [Encoding.record, List.length_flatMap]
  exact (hperm.map _).sum_nat

/-- The case that is found is one of the value. -/
theorem caseOf_some {cases : List (Case α)} {a : α} {i : Nat} {payload : List UInt8}
    (h : caseOf cases a = some (i, payload)) :
    i < cases.length ∧ ∃ c ∈ cases, c.payload a = some payload := by
  obtain ⟨⟨c, j⟩, hmem, hpayload⟩ := List.exists_of_findSome?_eq_some h
  obtain ⟨payload', hpayload', heq⟩ := Option.map_eq_some_iff.mp hpayload
  cases heq
  obtain ⟨hlt, rfl⟩ := List.getElem?_eq_some_iff.mp (List.mk_mem_zipIdx_iff_getElem?.mp hmem)
  exact ⟨hlt, _, List.getElem_mem _, hpayload'⟩

theorem caseOf_isSome {cases : List (Case α)} {a : α} {c : Case α} (hc : c ∈ cases)
    (hsome : (c.payload a).isSome = true) : ∃ entry, caseOf cases a = some entry := by
  obtain ⟨i, hi, rfl⟩ := List.mem_iff_getElem.mp hc
  rw [← Option.isSome_iff_exists, caseOf, List.findSome?_isSome_iff]
  exact ⟨(cases[i], i), List.mk_mem_zipIdx_iff_getElem?.mpr (List.getElem?_eq_getElem hi),
    by rwa [Option.isSome_map]⟩

/-- A variant of no more than 128 cases takes one byte more than the payload. -/
theorem length_variant {cases : List (Case α)} (few : cases.length ≤ 128) {a : α} {n : Nat}
    (has : ∃ c ∈ cases, (c.payload a).isSome = true)
    (each : ∀ c ∈ cases, ∀ payload, c.payload a = some payload → payload.length = n) :
    ((Encoding.variant cases).serialize a).length = n + 1 := by
  have hperm : (byHash Case.label cases).Perm cases := List.perm_insertionSort _ cases
  obtain ⟨c, hc, hsome⟩ := has
  obtain ⟨⟨i, payload⟩, hfound⟩ := caseOf_isSome (hperm.mem_iff.mpr hc) hsome
  obtain ⟨hi, c', hc', hpayload⟩ := caseOf_some hfound
  have hindex : i < 128 := by
    rw [hperm.length_eq] at hi
    omega
  simp only [Encoding.variant, hfound, List.length_append, length_unsigned hindex,
    each c' (hperm.mem_iff.mp hc') payload hpayload]
  omega

end SubaccountIndexer.Lib.Candid
