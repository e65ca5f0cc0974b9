import SubaccountIndexer.Custodian

/-! The caller guard as a lock. `authenticate` takes it and drops it when it returns, so no
request is ever pending between two messages. To say which principals have a call in
flight, the runs here carry the callers of the tasks along. -/

namespace SubaccountIndexer.CallerLock

variable (E : Externals)

/-- The callers of the tasks, each if its call was authenticated -/
abbrev Callers := List (Option Principal)

def callersAfter (σ : System) (i : Input) (callers : Callers) : Callers :=
  match i with
  | .timer => callers ++ (pollsToStart σ.canister).map fun _ => none
  | .call caller method =>
    callers ++ [if method.authenticates && (authenticate E σ.canister caller).isOk then some caller
      else none]
  | .reply _ _ => callers
  | .upgrade _ => []

/-- The canister together with the callers of its tasks -/
def lockMachine : Lib.Machine (System × Callers) Input Event :=
  (machine E).withHistory (callersAfter E)

/-- Whether the message awaits something -/
def waits : Task → Bool
  | .finished _ | .trapped => false
  | _ => true

/-- An authenticated call of the principal has not returned yet. -/
def InFlight (s : System × Callers) (p : Principal) : Prop :=
  ∃ (n : Nat) (task : Task), s.2[n]? = some (some p) ∧ s.1.tasks[n]? = some task ∧
    waits task = true

/-- What a lock on callers does: as long as a call of `p` is in flight it refuses all others of
`p`, and then it accepts `p` again. -/
structure Locks (s : System × Callers) (p : Principal) : Prop where
  refuses : InFlight s p → ∀ method : Method, method.authenticates = true → ∃ text,
    startCall E s.1.canister p method = .ok (.done s.1.canister
      (.error ("Already processing a request for principal " ++ text)))
  accepts : ¬ InFlight s p → s.1.canister.custodianPrincipal = some p →
    authenticate E s.1.canister p = .ok s.1.canister

variable {E} {c : Canister} {p : Principal} {s : System × Callers} {os : List Event}

theorem ne_already {message text : String} (first : message.toList.head? ≠ some 'A') :
    message ≠ "Already processing a request for principal " ++ text := by
  intro heq
  rw [heq, String.toList_append] at first
  exact first rfl

/-- No call is refused for a request that is being processed. -/
theorem not_already (main : c.OnMainnet) (text : String) :
    startCall E c p (.setNextBlock 0) ≠ .ok (.done c
      (.error ("Already processing a request for principal " ++ text))) := by
  intro hrefused
  simp only [startCall, Method.authenticates, if_true] at hrefused
  cases hcustodian : c.custodianPrincipal with
  | none =>
    simp only [authenticate, main.heap, hcustodian, Except.ok.injEq, Turn.done, Turn.mk.injEq,
      Task.finished.injEq, Except.error.injEq] at hrefused
    exact ne_already (by decide) hrefused.2.1
  | some custodian =>
    by_cases hp : p = custodian
    · subst hp
      rw [authenticate_accepts main hcustodian] at hrefused
      simp only [runMethod, Turn.done, Except.ok.injEq, Turn.mk.injEq, Task.finished.injEq,
        reduceCtorEq, false_and, and_false] at hrefused
    · simp only [authenticate, main.heap, hcustodian, ne_eq, hp, not_false_eq_true, if_true,
        Except.ok.injEq, Turn.done, Turn.mk.injEq, Task.finished.injEq,
        Except.error.injEq] at hrefused
      exact ne_already (by decide) hrefused.2.1

theorem not_locks (main : s.1.canister.OnMainnet) (inFlight : InFlight s p) : ¬ Locks E s p := by
  intro locks
  obtain ⟨text, hrefused⟩ := locks.refuses inFlight (.setNextBlock 0) rfl
  exact not_already main text hrefused

/-- In every state of the main network the guard is a lock for a principal if and only if no
authenticated call of it is in flight. -/
theorem guard_locks_idle {seconds : UInt64} {nonce : UInt32} {ledger custodian : String}
    {c₀ : Canister} (initialised : init E .mainnet seconds nonce ledger custodian = .ok c₀)
    (run : (lockMachine E).Run (fun _ _ => True) (⟨c₀, []⟩, []) os s) (p : Principal) :
    Locks E s p ↔ ¬ InFlight s p := by
  have hmain : s.1.canister.OnMainnet := by
    have hforget := Lib.Machine.Run.forget (G := fun _ _ => True) run
    exact hforget.invariant (P := fun σ => σ.canister.OnMainnet) (init_onMainnet initialised)
      fun _ _ _ _ main _ fires => onMainnet_step (fires_of_step E fires) main
  refine ⟨fun locks inFlight => not_locks hmain inFlight locks, fun idle => ⟨?_, ?_⟩⟩
  · exact fun inFlight => absurd inFlight idle
  · exact fun _ => authenticate_accepts hmain

/-! A call of the custodian that awaits an archive, and the same call when it has returned. -/

open Examples

abbrev readArchive : Input := .call custodian (.processTokenArchivedBlock .icp 1)

abbrev archiving : System × Callers :=
  (lockMachine externals).after (⟨mainnetInstalled, []⟩, []) readArchive

theorem archiving_run : (lockMachine externals).Run (fun _ _ => True) (⟨mainnetInstalled, []⟩, [])
    ((lockMachine externals).emitted (⟨mainnetInstalled, []⟩, []) readArchive) archiving :=
  Lib.Machine.Run.nil.next (i := readArchive) trivial rfl

theorem archiving_inFlight : InFlight archiving custodian :=
  ⟨0, _, rfl, rfl, rfl⟩

/-- The ledger knows no such block and no archive. -/
abbrev unknownBlock : Input := .reply 0 (.archive (.icpLedger (.ok ⟨[], []⟩)))

abbrev returned : System × Callers := (lockMachine externals).after archiving unknownBlock

theorem returned_waits : ∀ task ∈ returned.1.tasks, waits task = false := by decide +kernel

theorem guard_locks_idle_returned : Locks externals returned custodian := by
  refine (guard_locks_idle mainnetInstalled_init
    (archiving_run.next (i := unknownBlock) trivial rfl) custodian).mpr ?_
  rintro ⟨n, task, -, held, hwaits⟩
  rw [returned_waits task (List.mem_of_getElem? held)] at hwaits
  cases hwaits

/-- While a call of the custodian awaits an archive, another one is carried out. -/
theorem guard_unlocked_in_flight :
    init externals .mainnet 500 2 "ryjl3-tyaaa-aaaaa-aaaba-cai" "ryjl3-tyaaa-aaaaa-aaaba-cai" =
        .ok mainnetInstalled ∧
      (lockMachine externals).Run (fun _ _ => True) (⟨mainnetInstalled, []⟩, [])
        ((lockMachine externals).emitted (⟨mainnetInstalled, []⟩, []) readArchive) archiving ∧
      InFlight archiving custodian ∧ ¬ Locks externals archiving custodian ∧
      ((lockMachine externals).after archiving
        (.call custodian (.setNextBlock 3))).1.canister.nextBlock = 3 := by
  have hmain : archiving.1.canister.OnMainnet := ⟨rfl, rfl, rfl⟩
  exact ⟨mainnetInstalled_init, archiving_run, archiving_inFlight,
    not_locks hmain archiving_inFlight, by decide +kernel⟩

end SubaccountIndexer.CallerLock
