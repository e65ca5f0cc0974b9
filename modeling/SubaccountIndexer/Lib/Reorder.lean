import SubaccountIndexer.Lib.Machine

/-! Orders of inputs. Inputs come from parties, told apart by a key. If inputs of different parties
commute one by one, any order that keeps each party's own inputs in order leads to the same state
and emits the same, in another order. -/

namespace SubaccountIndexer.Lib.Machine

variable {S I O K : Type}

/-- As long as `P` holds, inputs with `G` keep it, and two of different keys commute. -/
structure Commuting (M : Machine S I O) (key : I → K) (G : I → Prop) (P : S → Prop) : Prop where
  keeps : ∀ s i s' os, P s → G i → M.step s i = some (s', os) → P s'
  swaps : ∀ s i j s' t os os', P s → G i → G j → key i ≠ key j → M.step s i = some (s', os) →
    M.step s' j = some (t, os') → ∃ u, M.step s j = some (u, os') ∧ M.step u i = some (t, os)

variable {M : Machine S I O} {key : I → K} {G : I → Prop} {P : S → Prop} {s t : S} {os : List O}
  {is is' : List I}

/-- The first input of a party can be moved before those of the others. -/
theorem Commuting.feed_front (h : M.Commuting key G P) (holds : P s) {before after : List I} {i : I}
    (all : ∀ j ∈ before ++ [i], G j) (others : ∀ j ∈ before, key j ≠ key i)
    (feeds : M.feed s (before ++ i :: after) = some (t, os)) :
    ∃ os', M.feed s (i :: (before ++ after)) = some (t, os') ∧ os'.Perm os := by
  induction before generalizing s os with
  | nil => exact ⟨os, feeds, List.Perm.refl _⟩
  | cons j rest ih =>
    obtain ⟨hj, hrest⟩ := List.forall_mem_cons.mp all
    obtain ⟨hother, hothers⟩ := List.forall_mem_cons.mp others
    obtain ⟨s', new, later, hstep, hfeed, rfl⟩ := feed_cons.mp feeds
    obtain ⟨later', hfront, hperm⟩ := ih (h.keeps _ _ _ _ holds hj hstep) hrest hothers hfeed
    obtain ⟨s'', new', later'', hstep', hfeed', rfl⟩ := feed_cons.mp hfront
    obtain ⟨u, hfirst, hsecond⟩ :=
      h.swaps s j i s' s'' new new' holds hj (hrest i (by simp)) hother hstep hstep'
    have hswapped : (new' ++ (new ++ later'')).Perm (new ++ (new' ++ later'')) := by
      rw [← List.append_assoc, ← List.append_assoc]
      exact List.perm_append_comm.append_right _
    exact ⟨new' ++ (new ++ later''), feed_cons.mpr ⟨u, new', new ++ later'', hfirst,
      feed_cons.mpr ⟨s'', new, later'', hsecond, hfeed', rfl⟩, rfl⟩,
      hswapped.trans (hperm.append_left new)⟩

variable [DecidableEq K] in
/-- Two orders of the same inputs, each party's own in the same order, lead to the same state. -/
theorem Commuting.feed_reorder (h : M.Commuting key G P) (holds : P s) (all : ∀ i ∈ is, G i)
    (same : ∀ k, is.filter (key · = k) = is'.filter (key · = k))
    (feeds : M.feed s is = some (t, os)) :
    ∃ os', M.feed s is' = some (t, os') ∧ os'.Perm os := by
  induction is' generalizing s os is with
  | nil =>
    obtain rfl : is = [] := List.eq_nil_iff_forall_not_mem.mpr fun i hi => by
      have hmem : i ∈ is.filter (key · = key i) := by simp [hi]
      rw [same] at hmem
      cases hmem
    exact ⟨os, feeds, List.Perm.refl _⟩
  | cons j rest ih =>
    have hhead : is.filter (key · = key j) = j :: rest.filter (key · = key j) := by
      rw [same, List.filter_cons_of_pos (by simp)]
    obtain ⟨before, after, rfl, hbefore, -, hafter⟩ := List.filter_eq_cons_iff.mp hhead
    have hothers : ∀ i ∈ before, key i ≠ key j := fun i hi => by simpa using hbefore i hi
    have hfront := h.feed_front holds (i := j) (fun i hi => all i (by
      rcases List.mem_append.mp hi with hi | hi
      · exact List.mem_append_left _ hi
      · rw [List.mem_singleton.mp hi]
        simp)) hothers feeds
    obtain ⟨os', hfeed, hperm⟩ := hfront
    obtain ⟨s', new, later, hstep, hlater, rfl⟩ := feed_cons.mp hfeed
    have hsame : ∀ k, (before ++ after).filter (key · = k) = rest.filter (key · = k) := by
      intro k
      have hk := same k
      rw [List.filter_append, List.filter_cons, List.filter_cons] at hk
      by_cases hkey : key j = k
      · subst hkey
        have hnone : before.filter (key · = key j) = [] :=
          List.filter_eq_nil_iff.mpr fun i hi => by simpa using hothers i hi
        rw [List.filter_append, hnone]
        exact hafter
      · rw [List.filter_append]
        simpa [hkey] using hk
    obtain ⟨later', hrest, hperm'⟩ := ih (h.keeps _ _ _ _ holds (all j (by simp)) hstep)
      (fun i hi => all i (by
        rcases List.mem_append.mp hi with hi | hi
        · exact List.mem_append_left _ hi
        · exact List.mem_append_right _ (List.mem_cons_of_mem _ hi))) hsame hlater
    exact ⟨new ++ later', feed_cons.mpr ⟨s', new, later', hstep, hrest, rfl⟩,
      (hperm'.append_left new).trans hperm⟩

end SubaccountIndexer.Lib.Machine
