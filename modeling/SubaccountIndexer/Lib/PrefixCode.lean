import Mathlib.Logic.Function.Basic

/-! Prefix codes. What is written in a delimited way can be told from whatever is written after
it; a prefix code is delimited and injective, so a reader gets back what was written. The rules
put codes together: one after another, or any number of them after their count. -/

namespace SubaccountIndexer.Lib

variable {α β B : Type} {code : α → List B}

/-- No code word is continued by what follows into the beginning of another. -/
def Delimited (code : α → List B) : Prop :=
  ∀ a b r s, code a ++ r = code b ++ s → code a = code b ∧ r = s

structure PrefixCode (code : α → List B) : Prop where
  delimited : Delimited code
  injective : Function.Injective code

theorem PrefixCode.read (h : PrefixCode code) {a b : α} {r s : List B}
    (heq : code a ++ r = code b ++ s) : a = b ∧ r = s :=
  (h.delimited a b r s heq).imp_left fun hcode => h.injective hcode

theorem PrefixCode.of_read (h : ∀ a b r s, code a ++ r = code b ++ s → a = b ∧ r = s) :
    PrefixCode code where
  delimited a b r s heq := (h a b r s heq).imp_left (congrArg code)
  injective a b heq := (h a b [] [] (by rw [heq])).1

theorem Delimited.comp (h : Delimited code) (f : β → α) : Delimited fun b => code (f b) :=
  fun a b => h (f a) (f b)

theorem PrefixCode.comp (h : PrefixCode code) {f : β → α} (inj : Function.Injective f) :
    PrefixCode fun b => code (f b) :=
  ⟨h.delimited.comp f, h.injective.comp inj⟩

/-- Code words of one length are delimited. -/
theorem delimited_of_length {n : Nat} (length : ∀ a, (code a).length = n) : Delimited code :=
  fun a b _ _ heq => List.append_inj heq ((length a).trans (length b).symm)

/-- A fixed beginning -/
theorem PrefixCode.prepend (h : PrefixCode code) (front : List B) :
    PrefixCode fun a => front ++ code a :=
  .of_read fun a b r s heq => by
    rw [List.append_assoc, List.append_assoc] at heq
    exact h.read (List.append_cancel_left heq)

/-! ## Fields -/

section Fields

variable {F : Type} {fields : List F} {write : F → α → List B}

/-- Fields one after another are told apart. -/
theorem fields_read (each : ∀ f ∈ fields, Delimited (write f)) {a b : α} {r s : List B}
    (heq : (fields.flatMap fun f => write f a) ++ r = (fields.flatMap fun f => write f b) ++ s) :
    (∀ f ∈ fields, write f a = write f b) ∧ r = s := by
  induction fields with
  | nil => exact ⟨List.forall_mem_nil _, heq⟩
  | cons f rest ih =>
    obtain ⟨hf, hrest⟩ := List.forall_mem_cons.mp each
    rw [List.flatMap_cons, List.flatMap_cons, List.append_assoc, List.append_assoc] at heq
    obtain ⟨hfirst, hlater⟩ := hf a b _ _ heq
    obtain ⟨hfields, hend⟩ := ih hrest hlater
    exact ⟨List.forall_mem_cons.mpr ⟨hfirst, hfields⟩, hend⟩

theorem prefixCode_fields (each : ∀ f ∈ fields, Delimited (write f))
    (determine : ∀ a b, (∀ f ∈ fields, write f a = write f b) → a = b) :
    PrefixCode fun a => fields.flatMap fun f => write f a :=
  .of_read fun a b _ _ heq => (fields_read each heq).imp_left (determine a b)

end Fields

/-! ## Lists -/

theorem items_read (h : PrefixCode code) {l l' : List α} (length : l.length = l'.length)
    {r s : List B} (heq : l.flatMap code ++ r = l'.flatMap code ++ s) : l = l' ∧ r = s := by
  induction l generalizing l' with
  | nil =>
    obtain rfl := List.length_eq_zero_iff.mp length.symm
    exact ⟨rfl, heq⟩
  | cons a rest ih =>
    cases l' with
    | nil => cases length
    | cons b rest' =>
      rw [List.flatMap_cons, List.flatMap_cons, List.append_assoc, List.append_assoc] at heq
      obtain ⟨rfl, hlater⟩ := h.read heq
      obtain ⟨rfl, hend⟩ := ih (Nat.succ.inj length) hlater
      exact ⟨rfl, hend⟩

/-- A list after its length -/
theorem prefixCode_counted {count : Nat → List B} (hcount : PrefixCode count) (h : PrefixCode code) :
    PrefixCode fun l : List α => count l.length ++ l.flatMap code :=
  .of_read fun l l' r s heq => by
    rw [List.append_assoc, List.append_assoc] at heq
    obtain ⟨hlength, hitems⟩ := hcount.read heq
    exact items_read h hlength hitems

end SubaccountIndexer.Lib
