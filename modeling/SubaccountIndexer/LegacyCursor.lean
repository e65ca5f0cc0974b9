import SubaccountIndexer.Queries
import SubaccountIndexer.Cursors

/-! The legacy cursor `NEXT_BLOCK` against the cursor of ICP, from which the polls start. A
poll of ICP writes both; `set_next_block` writes the first alone, and the two per-token
methods the second alone. The two cells agree as long as each of the three is called with the
value they already have. -/

namespace SubaccountIndexer.LegacyCursor

variable (E : Externals)

/-- The two queries for the ICP cursor agree. -/
def Mirrored (c : Canister) : Prop := getNextBlock c = getTokenNextBlockQuery c .icp

instance (c : Canister) : Decidable (Mirrored c) :=
  decidable_of_iff (c.nextBlock = c.getTokenNextBlock .icp)
    ⟨congrArg Except.ok, fun h => Except.ok.inj h⟩

/-- A method that writes one of the two cells alone writes what the other one holds. -/
def SetsBoth (c : Canister) : Method → Prop
  | .setNextBlock block => block = c.getTokenNextBlock .icp
  | .setTokenNextBlockUpdate .icp block => block = c.nextBlock
  | .resetTokenBlocks => c.nextBlock = 1
  | _ => True

/-- The step runs no method that writes something else to one of the two cells. -/
def KeepsMirror (σ : System) (i : Input) : Prop :=
  ∀ method, σ.runs E i = some method → SetsBoth σ.canister method

variable {E} {c c' : Canister} {σ σ' : System} {i : Input} {os : List Event} {turn : Turn}

theorem mirrored_iff : Mirrored c ↔ c.nextBlock = c.getTokenNextBlock .icp :=
  ⟨fun h => Except.ok.inj h, congrArg Except.ok⟩

theorem Mirrored.same (h : Mirrored c) (legacy : c'.nextBlock = c.nextBlock)
    (cursors : c'.tokenNextBlocks = c.tokenNextBlocks) : Mirrored c' := by
  rw [mirrored_iff, legacy, getTokenNextBlock_of_cursors cursors]
  exact mirrored_iff.mp h

/-! ## Turns -/

theorem Mirrored.writeCursor (h : Mirrored c) (t : TokenType) (x : UInt64) :
    Mirrored (writeCursor c t x) := by
  rw [mirrored_iff, getTokenNextBlock_of_insert (writeCursor_cursors c t x)]
  unfold SubaccountIndexer.writeCursor
  by_cases ht : t = .icp
  · simp [ht]
  · simp only [if_neg ht]
    exact mirrored_iff.mp h

/-- A resumed task keeps the mirror: a poll of ICP writes both cells. -/
theorem Mirrored.resumes {task : Task} {reply : Reply} (h : Mirrored c)
    (resumes : ResumeWrites E c task reply c') : Mirrored c' := by
  refine resumes.keeps (fun _ => h.same rfl rfl) (fun transactions t x => ?_) fun _ => h.same rfl rfl
  have hstored : Mirrored { c with transactions } := h.same rfl rfl
  exact writeCursor_eq { c with transactions } t x ▸ hstored.writeCursor t x

theorem writes_nextBlock {method : Method} (h : Writes E c method c')
    (other : ∀ block, method ≠ .setNextBlock block) : c'.nextBlock = c.nextBlock := by
  cases h with
  | @nextBlock block => exact absurd rfl (other block)
  | _ => rfl

/-- A method keeps the mirror if and only if it writes both cells or neither. -/
theorem Mirrored.runs {caller : Principal} {method : Method} (h : Mirrored c)
    (runs : runMethod E c caller method = .ok turn) :
    Mirrored turn.canister ↔ SetsBoth c method := by
  have hmirror := mirrored_iff.mp h
  cases hcursors : method.writesCursors with
  | true =>
    cases method with
    | setTokenNextBlockUpdate t block =>
      cases runs
      rw [mirrored_iff, Turn.done, Canister.getTokenNextBlock_set]
      by_cases ht : t = .icp
      · subst ht
        simp [SetsBoth, Canister.setTokenNextBlock, eq_comm]
      · simp only [if_neg ht]
        refine ⟨fun _ => ?_, fun _ => hmirror⟩
        cases t with
        | icp => exact absurd rfl ht
        | _ => trivial
    | resetTokenBlocks =>
      cases runs
      rw [mirrored_iff, Turn.done, resetTokenBlocks_cursor]
      rfl
    | _ => cases hcursors
  | false =>
    have hsame := (runMethod_frame E runs).cursors hcursors
    cases method with
    | setNextBlock block =>
      cases runs
      rw [mirrored_iff]
      rfl
    | setTokenNextBlockUpdate _ _ | resetTokenBlocks => cases hcursors
    | _ =>
      have hlegacy := writes_nextBlock (runMethod_writes E runs) (by simp)
      exact ⟨fun _ => trivial, fun _ => h.same hlegacy hsame⟩

theorem postUpgrade_nextBlock (c : Canister) (caller : Principal) :
    (postUpgrade E c caller).nextBlock = c.nextBlock := by
  have hmigrate : ∀ c : Canister, (migrateBlockTracking c).nextBlock = c.nextBlock := by
    intro c
    unfold migrateBlockTracking
    split <;> rfl
  unfold postUpgrade ensureCustodian
  dsimp only
  split
  all_goals
    rw [hmigrate]
    rcases upgradeInterval_cases (E := E) c.resetHeap caller with h | h <;> rw [h] <;> rfl

/-! ## Steps -/

theorem mirrored_step (h : Fires E σ i σ' os) (mirrored : Mirrored σ.canister)
    (nonempty : σ.canister.tokenNextBlocks.isEmpty = false) (keeps : KeepsMirror E σ i) :
    Mirrored σ'.canister := by
  cases h with
  | timer | rejected | callTraps | replyTraps => exact mirrored
  | call allowed runs => exact (mirrored.runs runs).mpr (keeps _ allowed)
  | reply waits resumes => exact mirrored.resumes (resumes_of_ok E resumes).writesTo
  | upgrade =>
    exact mirrored.same (postUpgrade_nextBlock _ _) ((postUpgrade_frame _ _).cursors nonempty)

/-- A step that keeps the mirror runs no method that breaks it. -/
theorem keepsMirror_of_mirrored (fires : (machine E).step σ i = some (σ', os))
    (mirrored : Mirrored σ.canister) (after : Mirrored σ'.canister) : KeepsMirror E σ i := by
  intro method allowed
  cases i with
  | call caller m =>
    obtain rfl := System.runs_call E allowed
    cases hruns : runMethod E σ.canister caller method with
    | ok turn =>
      rw [step_of_runs E allowed hruns] at fires
      obtain ⟨rfl, -⟩ := Prod.mk.inj (Option.some.inj fires)
      exact (mirrored.runs hruns).mp after
    | error trap =>
      cases method with
      | refund index => trivial
      | setSweepFailed hash => trivial
      | _ => cases hruns
  | _ => cases allowed

theorem installed_mirrored (h : Installed E σ) : Mirrored σ.canister := by
  obtain ⟨-, network, seconds, nonce, ledger, custodian, hinit⟩ := h
  unfold init at hinit
  split at hinit
  · cases hinit
  · split at hinit
    · cases hinit
    · simp only [Except.ok.injEq] at hinit
      rw [← hinit]
      exact mirrored_iff.mpr (resetTokenBlocks_cursor _ _).symm

/-- While the methods that write one of the two cells alone write what the other one holds, the
cells agree, and a poll of ICP starts at the legacy cursor; and the first step that writes
something else makes them differ. -/
theorem legacy_cursor_mirrors {σ₀ : System} (installed : Installed E σ₀)
    (run : (machine E).Run (KeepsMirror E) σ₀ os σ) :
    getNextBlock σ.canister = getTokenNextBlockQuery σ.canister .icp ∧
      (∀ p next, (.icp, p, next) ∈ pollsToStart σ.canister → next = σ.canister.nextBlock) ∧
      ∀ i σ' os', (machine E).step σ i = some (σ', os') →
        (getNextBlock σ'.canister = getTokenNextBlockQuery σ'.canister .icp ↔
          KeepsMirror E σ i) := by
  have hreachable : Reachable E σ := ⟨σ₀, os, installed, run.mono fun _ _ _ => trivial⟩
  have hrun := run.invariant (P := fun σ => Mirrored σ.canister ∧
    σ.canister.tokenNextBlocks.isEmpty = false)
    ⟨installed_mirrored installed, installed.canister.2.2.1⟩ ?_
  · refine ⟨hrun.1, fun p next hpoll => ?_, fun i σ' os' fires => ⟨?_, ?_⟩⟩
    · exact (pollsToStart_cursor hpoll).trans (mirrored_iff.mp hrun.1).symm
    · exact keepsMirror_of_mirrored fires hrun.1
    · exact mirrored_step (fires_of_step E fires) hrun.1 hrun.2
  · intro s i s' new hs keeps fires
    exact ⟨mirrored_step (fires_of_step E fires) hs.1 hs.2 keeps,
      (fires_of_step E fires).cursors_nonempty hs.2⟩

/-! A poll of ICP, and the repair of the legacy cursor alone. -/

open Examples

theorem legacy_cursor_mirrors_poll :
    getNextBlock depositStored.canister = .ok 2 ∧
      getNextBlock depositStored.canister = getTokenNextBlockQuery depositStored.canister .icp := by
  have run : (machine externals).Run (KeepsMirror externals) start
      ((machine externals).emitted polling (icpAnswer 0)) depositStored := by
    refine (Lib.Machine.Run.nil.step (fun _ h => nomatch h) polling_step).next
      (i := icpAnswer 0) (fun _ h => nomatch h) ?_
    decide +kernel
  exact ⟨by decide +kernel, (legacy_cursor_mirrors start_installed run).1⟩

/-- `set_next_block` alone: the legacy cursor is 5, and the next poll of ICP starts at 1. -/
theorem set_next_block_ignored :
    Installed externals start ∧
      getNextBlock ((machine externals).after start
        (.call custodian (.setNextBlock 5))).canister = .ok 5 ∧
      getTokenNextBlockQuery ((machine externals).after start
        (.call custodian (.setNextBlock 5))).canister .icp = .ok 1 ∧
      pollsToStart ((machine externals).after start
        (.call custodian (.setNextBlock 5))).canister = [(.icp, MAINNET_LEDGER_CANISTER_ID, 1)] :=
  ⟨start_installed, by decide +kernel, by decide +kernel, by decide +kernel⟩

end SubaccountIndexer.LegacyCursor
