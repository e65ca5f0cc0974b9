import Mathlib.Data.List.Nodup
import Mathlib.Data.Set.Basic

/-! At-most-once delivery. A log of delivered items is safe while every item it
holds is blocked, where the owner of the log delivers only items that are not
blocked. Items may be unblocked again, as long as they are not in the log. -/

namespace SubaccountIndexer.Lib

variable {α : Type}

/-- No item was delivered twice, and none that was delivered can be delivered again. -/
structure Once (log : List α) (blocked : Set α) : Prop where
  nodup : log.Nodup
  stopped : ∀ a ∈ log, a ∈ blocked

namespace Once

variable {log new : List α} {blocked blocked' : Set α}

theorem nil (blocked : Set α) : Once [] blocked := ⟨List.nodup_nil, by simp⟩

/-- Delivering fresh items, while what was delivered before stays blocked. -/
theorem deliver (h : Once log blocked) (distinct : new.Nodup)
    (fresh : ∀ a ∈ new, a ∉ blocked) (keep : ∀ a ∈ log, a ∈ blocked → a ∈ blocked')
    (stop : ∀ a ∈ new, a ∈ blocked') : Once (log ++ new) blocked' := by
  refine ⟨List.nodup_append.mpr ⟨h.nodup, distinct, ?_⟩, ?_⟩
  · rintro a ha b hb rfl
    exact fresh a hb (h.stopped a ha)
  · intro a ha
    rcases List.mem_append.mp ha with ha | ha
    · exact keep a ha (h.stopped a ha)
    · exact stop a ha

/-- A change of what is blocked that delivers nothing. -/
theorem reblock (h : Once log blocked) (keep : ∀ a ∈ log, a ∈ blocked → a ∈ blocked') :
    Once log blocked' :=
  ⟨h.nodup, fun a ha => keep a ha (h.stopped a ha)⟩

end Once

end SubaccountIndexer.Lib
