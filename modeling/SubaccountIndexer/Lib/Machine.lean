import Mathlib.Logic.Function.Basic

/-! Machines with observable output: in a state an input is refused or leads to
one next state and emits a list of outputs. A run is a sequence of accepted
inputs that all meet a guard, which may look at the state before the step. The
rules below turn a fact about one step into a fact about every run. -/

namespace SubaccountIndexer.Lib

structure Machine (S I O : Type) where
  step : S → I → Option (S × List O)

namespace Machine

variable {S I O : Type} {M : Machine S I O} {G : S → I → Prop} {s₀ s t : S} {os os' : List O}

/-- The runs from `s₀` whose every step meets `G`, with what they emit and where they end. -/
inductive Run (M : Machine S I O) (G : S → I → Prop) (s₀ : S) : List O → S → Prop
  | nil : Run M G s₀ [] s₀
  | step {os os' : List O} {s s' : S} {i : I} (before : Run M G s₀ os s) (guard : G s i)
      (fires : M.step s i = some (s', os')) : Run M G s₀ (os ++ os') s'

/-- A property of the state and of the outputs so far, kept by every step, holds after
every run. -/
theorem Run.history {P : S → List O → Prop} (h : Run M G s₀ os s) (start : P s₀ [])
    (keep : ∀ s os i s' os', P s os → G s i → M.step s i = some (s', os') →
      P s' (os ++ os')) : P s os := by
  induction h with
  | nil => exact start
  | step _ guard fires ih => exact keep _ _ _ _ _ ih guard fires

/-- A property of the state kept by every step holds after every run. -/
theorem Run.invariant {P : S → Prop} (h : Run M G s₀ os s) (start : P s₀)
    (keep : ∀ s i s' os', P s → G s i → M.step s i = some (s', os') → P s') : P s :=
  h.history (P := fun s _ => P s) start fun s _ i s' os' hp => keep s i s' os' hp

/-- If every step from a state with `P` emits only outputs with `Q` and keeps `P`, a run
emits only outputs with `Q`. -/
theorem Run.emits {P : S → Prop} {Q : O → Prop} (h : Run M G s₀ os s) (start : P s₀)
    (keep : ∀ s i s' os', P s → G s i → M.step s i = some (s', os') →
      P s' ∧ ∀ o ∈ os', Q o) : P s ∧ ∀ o ∈ os, Q o := by
  refine h.history (P := fun s os => P s ∧ ∀ o ∈ os, Q o) ⟨start, by simp⟩ ?_
  intro s os i s' os' ⟨hp, hq⟩ guard fires
  obtain ⟨hp', hq'⟩ := keep s i s' os' hp guard fires
  refine ⟨hp', fun o ho => ?_⟩
  rcases List.mem_append.mp ho with ho | ho
  · exact hq o ho
  · exact hq' o ho

theorem Run.mono {G' : S → I → Prop} (h : Run M G s₀ os s) (weaker : ∀ s i, G s i → G' s i) :
    Run M G' s₀ os s := by
  induction h with
  | nil => exact .nil
  | step _ guard fires ih => exact .step ih (weaker _ _ guard) fires

/-- The state after an input, if the machine accepts it -/
def after (M : Machine S I O) (s : S) (i : I) : S := ((M.step s i).map Prod.fst).getD s

/-- What the machine emits on an input -/
def emitted (M : Machine S I O) (s : S) (i : I) : List O := ((M.step s i).map Prod.snd).getD []

/-- An accepted input that meets the guard continues a run. -/
theorem Run.next {i : I} (h : Run M G s₀ os s) (guard : G s i)
    (accepted : (M.step s i).isSome = true) : Run M G s₀ (os ++ M.emitted s i) (M.after s i) := by
  obtain ⟨⟨s', os'⟩, hstep⟩ := Option.isSome_iff_exists.mp accepted
  simpa [after, emitted, hstep] using h.step guard hstep

theorem step_of_accepted {i : I} (h : (M.step s i).isSome = true) :
    M.step s i = some (M.after s i, M.emitted s i) := by
  obtain ⟨next, hstep⟩ := Option.isSome_iff_exists.mp h
  simp [after, emitted, hstep]

theorem step_of_emitted {i : I} {o : O} (h : o ∈ M.emitted s i) :
    M.step s i = some (M.after s i, M.emitted s i) := by
  unfold emitted at h
  cases hstep : M.step s i with
  | none => simp [hstep] at h
  | some next => simp [after, emitted, hstep]

/-! ## Given inputs -/

/-- The machine on a list of inputs, if it accepts them all: where it ends and what it emits -/
def feed (M : Machine S I O) : S → List I → Option (S × List O)
  | s, [] => some (s, [])
  | s, i :: rest => do
    let (s', os) ← M.step s i
    let (s'', os') ← feed M s' rest
    some (s'', os ++ os')

theorem feed_cons {i : I} {rest : List I} : M.feed s (i :: rest) = some (t, os) ↔
    ∃ s' new later, M.step s i = some (s', new) ∧ M.feed s' rest = some (t, later) ∧
      os = new ++ later := by
  have hdef : M.feed s (i :: rest) = (M.step s i).bind fun next =>
    (M.feed next.1 rest).bind fun last => some (last.1, next.2 ++ last.2) := rfl
  rw [hdef]
  constructor
  · intro h
    obtain ⟨next, hstep, hnext⟩ := Option.bind_eq_some_iff.mp h
    obtain ⟨last, hfeed, hlast⟩ := Option.bind_eq_some_iff.mp hnext
    cases hlast
    exact ⟨next.1, next.2, last.2, hstep, hfeed, rfl⟩
  · rintro ⟨s', new, later, hstep, hfeed, rfl⟩
    simp only [hstep, hfeed, Option.bind_some]

/-- Inputs that lower a measure can be given only so often. -/
theorem length_le_of_feed {Q : I → Prop} {measure : S → Nat} {inputs : List I}
    (falls : ∀ s i s' os, Q i → M.step s i = some (s', os) → measure s' < measure s)
    (all : ∀ i ∈ inputs, Q i) (feeds : M.feed s inputs = some (t, os)) :
    inputs.length + measure t ≤ measure s := by
  induction inputs generalizing s os with
  | nil =>
    cases feeds
    exact Nat.le_of_eq (Nat.zero_add _)
  | cons i rest ih =>
    obtain ⟨hi, hrest⟩ := List.forall_mem_cons.mp all
    obtain ⟨s', new, later, hstep, hfeed, -⟩ := feed_cons.mp feeds
    have hle := ih hrest hfeed
    have hlt := falls s i s' new hi hstep
    rw [List.length_cons]
    omega

/-- If one of them is accepted as long as the measure is not zero, they can be given until it is. -/
theorem exists_feed_of_progress {Q : I → Prop} {measure : S → Nat}
    (falls : ∀ s i s' os, Q i → M.step s i = some (s', os) → measure s' < measure s)
    (progress : ∀ s, measure s ≠ 0 → ∃ i, Q i ∧ (M.step s i).isSome = true) (s : S) :
    ∃ inputs t os, (∀ i ∈ inputs, Q i) ∧ M.feed s inputs = some (t, os) ∧ measure t = 0 := by
  induction hmeasure : measure s using Nat.strongRecOn generalizing s with
  | ind n ih =>
    by_cases hzero : measure s = 0
    · exact ⟨[], s, [], List.forall_mem_nil _, rfl, hzero⟩
    · obtain ⟨i, hi, haccepted⟩ := progress s hzero
      have hstep := step_of_accepted haccepted
      have hlt := falls s i _ _ hi hstep
      obtain ⟨rest, t, later, hall, hfeed, hend⟩ := ih _ (hmeasure ▸ hlt) (M.after s i) rfl
      exact ⟨i :: rest, t, _, List.forall_mem_cons.mpr ⟨hi, hall⟩,
        feed_cons.mpr ⟨_, _, later, hstep, hfeed, rfl⟩, hend⟩

/-- Each input of a list is accepted and meets the guard in the state it comes to. -/
def Meets (M : Machine S I O) (G : S → I → Prop) : S → List I → Prop
  | _, [] => True
  | s, i :: rest => G s i ∧ (M.step s i).isSome = true ∧ Meets M G (M.after s i) rest

instance Meets.decidable [∀ s i, Decidable (G s i)] :
    ∀ (s : S) (inputs : List I), Decidable (M.Meets G s inputs)
  | _, [] => .isTrue trivial
  | s, i :: rest =>
    have := Meets.decidable (M.after s i) rest
    inferInstanceAs (Decidable (_ ∧ _ ∧ _))

theorem Run.meets {inputs : List I} (h : M.Run G s₀ os s) (meets : M.Meets G s inputs) :
    ∃ os', M.Run G s₀ os' (inputs.foldl M.after s) := by
  induction inputs generalizing s os with
  | nil => exact ⟨os, h⟩
  | cons i rest ih =>
    obtain ⟨hguard, haccepted, hrest⟩ := meets
    exact ih (h.next hguard haccepted) hrest

/-! ## History variables -/

variable {H : Type} {record : S → I → H → H}

/-- The machine with a history variable: `record` says how a step changes it, and no step
depends on it. -/
def withHistory (M : Machine S I O) (record : S → I → H → H) : Machine (S × H) I O where
  step s i := (M.step s.1 i).map fun next => ((next.1, record s.1 i s.2), next.2)

theorem withHistory_step {s s' : S × H} {i : I} :
    (M.withHistory record).step s i = some (s', os) ↔
      M.step s.1 i = some (s'.1, os) ∧ s'.2 = record s.1 i s.2 := by
  obtain ⟨t, h⟩ := s'
  show (M.step s.1 i).map _ = some ((t, h), os) ↔ _
  cases M.step s.1 i with
  | none => simp
  | some next =>
    obtain ⟨u, os'⟩ := next
    simp only [Option.map_some, Option.some.injEq, Prod.mk.injEq]
    constructor
    · intro heq
      exact ⟨⟨heq.1.1, heq.2⟩, heq.1.2.symm⟩
    · intro heq
      exact ⟨⟨heq.1.1, heq.2.symm⟩, heq.1.2⟩

/-- An accepted input that meets the guard continues a run with its history. -/
theorem Run.nextRecorded {G : S × H → I → Prop} {s₀ : S × H} {h : H} {i : I}
    (run : (M.withHistory record).Run G s₀ os (s, h)) (guard : G (s, h) i)
    (accepted : (M.step s i).isSome = true) :
    (M.withHistory record).Run G s₀ (os ++ M.emitted s i) (M.after s i, record s i h) :=
  run.step guard (withHistory_step.mpr ⟨step_of_accepted accepted, rfl⟩)

/-- Without its history variable a run is a run of the machine itself. -/
theorem Run.forget {s t : S × H} (h : (M.withHistory record).Run (fun s i => G s.1 i) s os t) :
    M.Run G s.1 os t.1 := by
  induction h with
  | nil => exact .nil
  | step _ guard fires ih => exact ih.step guard (withHistory_step.mp fires).1

end Machine

end SubaccountIndexer.Lib
