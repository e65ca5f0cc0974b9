import SubaccountIndexer.Lib.Machine
import SubaccountIndexer.Lib.Journal
import Mathlib.Algebra.BigOperators.Group.List.Basic
import Mathlib.Algebra.Order.Group.Multiset
import Mathlib.Tactic.Abel

/-! Books kept along a run. What a machine emits is worth something on either side of the
books, and what its state holds is worth the difference. If every step keeps the books, so
does every run: nothing is lost between the two sides and nothing comes from nowhere. -/

namespace SubaccountIndexer.Lib

variable {S I O A : Type} [AddCommMonoid A]

/-- What a list is worth -/
def total (value : O → A) (os : List O) : A := (os.map value).sum

section Total

variable {value : O → A} {o o' : O} {os os' : List O}

@[simp] theorem total_nil : total value [] = 0 := rfl

@[simp] theorem total_cons : total value (o :: os) = value o + total value os := by
  simp [total]

@[simp] theorem total_append : total value (os ++ os') = total value os + total value os' := by
  simp [total]

theorem total_eq_zero (none : ∀ o ∈ os, value o = 0) : total value os = 0 := by
  induction os with
  | nil => rfl
  | cons o rest ih =>
    rw [total_cons, none o List.mem_cons_self, zero_add]
    exact ih fun o ho => none o (List.mem_cons_of_mem _ ho)

variable (value) in
/-- Replacing an entry changes the total by the difference of the two. -/
theorem total_set {n : Nat} (held : os[n]? = some o) (o' : O) :
    total value (os.set n o') + value o = total value os + value o' := by
  obtain ⟨hn, rfl⟩ := List.getElem?_eq_some_iff.mp held
  have hset : ∀ other, total value (os.set n other) =
      value other + (total value (os.take n) + total value (os.drop (n + 1))) := fun other => by
    rw [List.set_eq_take_append_cons_drop, if_pos hn, total_append, total_cons, add_left_comm]
  have hself := hset os[n]
  rw [List.set_getElem_self] at hself
  rw [hset, hself]
  abel

end Total

/-- Books kept by every entry of a journal are kept by the journal. -/
theorem Journal.balance {Change : S → O → S → Prop} {s t : S} {os : List O} (level : S → A)
    (debit credit : O → A) (h : Journal Change s os t)
    (keep : ∀ s o s', Change s o s' → level s' + debit o = level s + credit o) :
    level t + total debit os = level s + total credit os := by
  induction h with
  | nil => rfl
  | @cons s s' t o os first rest ih =>
    calc level t + total debit (o :: os)
        = level t + total debit os + debit o := by rw [total_cons, add_comm (debit o), add_assoc]
      _ = level s' + debit o + total credit os := by rw [ih, add_right_comm]
      _ = level s + total credit (o :: os) := by rw [keep s o s' first, total_cons, add_assoc]

namespace Machine

variable {M : Machine S I O} {G : S → I → Prop} {s₀ s : S} {os : List O}

/-- If what a state holds and what a step pays out come to what it held before and what the
step takes in, the same is true of every run. -/
theorem Run.balance {P : S → Prop} (level : S → A) (debit credit : O → A)
    (h : M.Run G s₀ os s) (start : P s₀)
    (keep : ∀ s i s' os', P s → G s i → M.step s i = some (s', os') →
      P s' ∧ level s' + total debit os' = level s + total credit os') :
    level s + total debit os = level s₀ + total credit os := by
  refine (h.history (P := fun s os => P s ∧
    level s + total debit os = level s₀ + total credit os) ⟨start, rfl⟩ ?_).2
  intro s os i s' os' ⟨hp, hbooks⟩ guard fires
  obtain ⟨hp', hstep⟩ := keep s i s' os' hp guard fires
  refine ⟨hp', ?_⟩
  calc level s' + total debit (os ++ os')
      = level s' + total debit os' + total debit os := by
        rw [total_append, add_assoc, add_comm (total debit os')]
    _ = level s + total debit os + total credit os' := by rw [hstep, add_right_comm]
    _ = level s₀ + total credit (os ++ os') := by rw [hbooks, total_append, add_assoc]

end Machine

end SubaccountIndexer.Lib
