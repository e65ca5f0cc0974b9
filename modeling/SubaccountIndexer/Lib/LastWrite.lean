import Mathlib.Data.List.Basic

/-! Folds over a list whose entries may each set a field of the accumulator: the field ends up
as the last entry that sets it left it. -/

namespace SubaccountIndexer.Lib

variable {α β γ ε σ : Type}

/-- The value of the last entry that has one -/
def lastOf (f : α → Option β) (entries : List α) : Option β := (entries.filterMap f).getLast?

variable {f : α → Option β} {a : α} {entries : List α}

@[simp] theorem lastOf_nil : lastOf f [] = none := rfl

theorem lastOf_cons : lastOf f (a :: entries) = (lastOf f entries).or (f a) := by
  simp [lastOf, List.getLast?_filterMap, List.findSome?_append]

theorem lastOf_map (g : β → γ) :
    lastOf (fun a => (f a).map g) entries = (lastOf f entries).map g := by
  induction entries with
  | nil => rfl
  | cons a rest ih => rw [lastOf_cons, lastOf_cons, ih, Option.map_or]

/-- Where every entry has a key of its own, and only those of one key have a value, the value is
that of the entry with this key. -/
theorem lastOf_unique {κ : Type} {key : α → κ} (unique : (entries.map key).Nodup)
    (mem : a ∈ entries) (other : ∀ b, key b ≠ key a → f b = none) : lastOf f entries = f a := by
  induction entries with
  | nil => cases mem
  | cons b rest ih =>
    rw [List.map_cons, List.nodup_cons] at unique
    rw [lastOf_cons]
    rcases List.mem_cons.mp mem with rfl | hmem
    · have hrest : lastOf f rest = none := by
        have hnone : rest.filterMap f = [] := List.filterMap_eq_nil_iff.mpr fun b hb =>
          other b fun heq => unique.1 (heq ▸ List.mem_map_of_mem hb)
        rw [lastOf, hnone]
        rfl
      rw [hrest, Option.none_or]
    · have hb : f b = none := other b fun heq => unique.1 (heq ▸ List.mem_map_of_mem hmem)
      rw [ih unique.2 hmem, hb, Option.or_none]

variable {step : σ → α → σ} (get : σ → β)

theorem foldl_field (sets : ∀ s a, get (step s a) = (f a).getD (get s)) (s : σ) :
    get (entries.foldl step s) = (lastOf f entries).getD (get s) := by
  induction entries generalizing s with
  | nil => rfl
  | cons a rest ih => rw [List.foldl_cons, ih, sets, lastOf_cons, Option.getD_or]

variable (stepM : σ → α → Except ε σ)

/-- A fold that may fail, when it does not -/
theorem foldlM_field (sets : ∀ s a s', stepM s a = .ok s' → get s' = (f a).getD (get s))
    {s s' : σ} (h : entries.foldlM stepM s = .ok s') :
    get s' = (lastOf f entries).getD (get s) := by
  induction entries generalizing s with
  | nil => cases h; rfl
  | cons a rest ih =>
    rw [List.foldlM_cons] at h
    cases hstep : stepM s a with
    | error e => rw [hstep] at h; cases h
    | ok next =>
      rw [hstep] at h
      rw [ih h, sets _ _ _ hstep, lastOf_cons, Option.getD_or]

/-- Whether an entry fails does not depend on the accumulator: the fold succeeds if and only if
no entry fails. -/
theorem foldlM_isOk {fine : α → Prop} (decides : ∀ s a, (∃ s', stepM s a = .ok s') ↔ fine a)
    (s : σ) : (∃ s', entries.foldlM stepM s = .ok s') ↔ ∀ a ∈ entries, fine a := by
  induction entries generalizing s with
  | nil => simp [pure, Except.pure]
  | cons a rest ih =>
    rw [List.forall_mem_cons, ← decides s a]
    cases hstep : stepM s a with
    | error e => simp [hstep, bind, Except.bind]
    | ok next =>
      rw [List.foldlM_cons, hstep, show (Except.ok next >>= fun s => rest.foldlM stepM s) =
        rest.foldlM stepM next from rfl, ih next]
      simp

end SubaccountIndexer.Lib
