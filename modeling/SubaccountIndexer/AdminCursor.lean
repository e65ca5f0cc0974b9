import SubaccountIndexer.CursorOrder

/-! An administrator's write to a cursor against the polls that are in flight. A poll that was
started before the write ends after it, with a value that does not come from the new cursor.
The write lasts, whatever happens before a younger poll ends, only if no such poll is left. -/

namespace SubaccountIndexer.AdminCursor

variable (E : Externals)

/-- What an administrative method sets the cursor of a token to -/
def sets (t : TokenType) : Method → Option UInt64
  | .setTokenNextBlockUpdate t' block => if t' = t then some block else none
  | .resetTokenBlocks => some 1
  | _ => none

/-- The step is unattended, and if it ends a poll of the token, that is one of the first `n₀`
tasks. -/
structure Older (n₀ : Nat) (t : TokenType) (σ : System) (i : Input) : Prop where
  unattended : Unattended E σ i
  older : ∀ n reply x, i = .reply n reply → σ.ends E i = some (t, x) → n < n₀

/-- Every poll of the token in flight awaits the webhook and will return `b`. -/
def Settled (tasks : List Task) (t : TokenType) (b : UInt64) : Prop :=
  ∀ task ∈ tasks, ∀ y, task.position t = some y → task = .webhook t b

/-- The cursor is `b`, and so is what the polls among the first `n₀` tasks can make of it. -/
structure Kept (n₀ : Nat) (t : TokenType) (b : UInt64) (σ : System) : Prop where
  cursor : σ.canister.getTokenNextBlock t = b
  bound : n₀ ≤ σ.tasks.length
  settled : Settled (σ.tasks.take n₀) t b

variable {E} {c : Canister} {σ σ' σ₁ : System} {i : Input} {os : List Event} {t : TokenType}
  {b x : UInt64} {turn : Turn} {n₀ : Nat}

/-! ## Polls that go on -/

/-- Only a poll whose ledger has answered goes on to await the webhook. -/
theorem poll_of_waiting {task : Task} {reply : Reply} (h : Resumes E c task reply turn)
    (position : turn.task.position t = some x) : ∃ p next, task = .poll t p next := by
  cases h.moves with
  | stays cursors idle | writes cursors before idle advances =>
    rw [idle t] at position
    cases position
  | @waits s y z cursors before waiting advances =>
    rw [waiting] at position
    obtain ⟨rfl, -⟩ := Task.position_webhook.mp position
    cases task with
    | poll s' p next =>
      obtain ⟨rfl, -⟩ := Task.position_poll.mp before
      exact ⟨p, next, rfl⟩
    | webhook s' blockCount => cases h; cases waiting
    | _ => cases before

/-! ## Steps -/

/-- Without an upgrade a step adds tasks or moves one on. -/
theorem tasks_step (h : Fires E σ i σ' os) (upgrade : ∀ caller, i ≠ .upgrade caller) :
    (∃ new, σ'.tasks = σ.tasks ++ new) ∨ ∃ (n : Nat) (reply : Reply) (task task' : Task),
      σ.tasks[n]? = some task ∧ σ'.tasks = σ.tasks.set n task' ∧ (task' = .trapped ∨
        ∃ turn, Resumes E σ.canister task reply turn ∧ task' = turn.task) := by
  cases h with
  | timer | rejected | call | callTraps => exact .inl ⟨_, rfl⟩
  | reply waits resumes =>
    exact .inr ⟨_, _, _, _, waits, rfl, .inr ⟨_, resumes_of_ok E resumes, rfl⟩⟩
  | @replyTraps n reply task trap waits resumes =>
    exact .inr ⟨n, reply, task, _, waits, rfl, .inl rfl⟩
  | upgrade => exact absurd rfl (upgrade _)

theorem mem_take_of_getElem? {l : List Task} {n : Nat} {task : Task} (held : l[n]? = some task)
    (hn : n < n₀) : task ∈ l.take n₀ :=
  List.mem_iff_getElem?.mpr ⟨n, by rw [List.getElem?_take_of_lt hn, held]⟩

theorem kept_step (kept : Kept n₀ t b σ) (older : Older E n₀ t σ i) (h : Fires E σ i σ' os) :
    Kept n₀ t b σ' := by
  have hcursor : σ'.canister.getTokenNextBlock t = b := by
    rcases h.cursor older.unattended t with ⟨x, hends, hx⟩ | ⟨-, hsame⟩
    · obtain ⟨n, reply, task, hi, waits, window⟩ := window_of_ends hends
      have hmem := mem_take_of_getElem? waits (older.older n reply x hi hends)
      rcases window_cases window with ⟨p, next, rfl⟩ | rfl
      · cases kept.settled _ hmem next (if_pos rfl)
      · cases kept.settled _ hmem x (if_pos rfl)
        exact hx
    · exact hsame.trans kept.cursor
  rcases tasks_step h older.unattended.upgrade with
    ⟨new, htasks⟩ | ⟨n, reply, task, task', waits, htasks, hresumed⟩
  · refine ⟨hcursor, ?_, ?_⟩
    · rw [htasks, List.length_append]
      have := kept.bound
      omega
    · rw [htasks, List.take_append_of_le_length kept.bound]
      exact kept.settled
  · refine ⟨hcursor, by rw [htasks, List.length_set]; exact kept.bound, ?_⟩
    rw [htasks, List.take_set]
    intro other hother y position
    by_cases hn : n < n₀
    · rcases List.mem_or_eq_of_mem_set hother with hold | rfl
      · exact kept.settled other hold y position
      · -- the poll that has moved on would be one that awaited its ledger
        rcases hresumed with rfl | ⟨turn, resumes, rfl⟩
        · cases position
        · obtain ⟨p, next, rfl⟩ := poll_of_waiting resumes position
          cases kept.settled _ (mem_take_of_getElem? waits hn) next (if_pos rfl)
    · rw [List.set_eq_of_length_le (by rw [List.length_take]; omega)] at hother
      exact kept.settled other hother y position

/-! ## Polls that overwrite -/

/-- A response of one block that no ledger interface stores: it holds no operation. -/
def emptyBlockReply (p : Principal) : LedgerReply :=
  if usesIcrc3 p then .icrc3GetBlocks ⟨1, [⟨0, .map [("tx", .map [])]⟩]⟩
  else .queryBlocks
    { certificate := none, chainLength := 1, firstBlockIndex := 0, archivedBlocks := []
      blocks := [{ transaction := { memo := 0, icrc1Memo := none, operation := none,
                                    createdAtTime := ⟨0⟩ },
                   timestamp := ⟨0⟩, parentHash := none }] }

theorem queryBlocks_emptyBlock (p : Principal) (req : QueryBlocksRequest) :
    ∃ response block, queryBlocks E p req (emptyBlockReply p) = .ok (.ok response) ∧
      response.blocks = [block] ∧ block.transaction.operation = none := by
  unfold queryBlocks emptyBlockReply
  by_cases hp : usesIcrc3 p = true
  · rw [if_pos hp, if_pos hp]
    exact ⟨_, _, rfl, rfl, rfl⟩
  · rw [if_neg hp, if_neg hp]
    exact ⟨_, _, rfl, rfl, rfl⟩

/-- The answer to a poll that sends no webhook moves the cursor to the end of the window. -/
theorem step_of_answer {n : Nat} {p : Principal} {next y : UInt64} {reply : LedgerReply}
    {answer : Except (String × String) QueryBlocksResponse} {c' : Canister} {events : List Event}
    (waits : σ.tasks[n]? = some (.poll t p next))
    (answers : queryBlocks E p (pollRequest next) reply = .ok answer)
    (returns : queryTokenLedger E σ.canister t p next answer = .ok ⟨c', .returned y, events⟩) :
    ∃ σ' os, (machine E).step σ (.reply n (.ledger reply)) = some (σ', os) ∧
      σ'.canister.getTokenNextBlock t = windowEnd next answer := by
  have hresumes : resumeTask E σ.canister (.poll t p next) (.ledger reply) =
      some (.ok ⟨writeCursor c' t y, .finished (.ok .unit), events⟩) := by
    simp only [resumeTask, answers, returns, bind, Except.bind]
    rfl
  exact step_of_window waits hresumes (by simp [Task.window, answers])

/-- A poll can end where it started, and it can end one block later. -/
theorem poll_ends {n : Nat} {p : Principal} {next : UInt64}
    (waits : σ.tasks[n]? = some (.poll t p next)) (y : UInt64) (hy : y = next ∨ y = next + 1) :
    ∃ reply σ' os, (machine E).step σ (.reply n reply) = some (σ', os) ∧
      σ'.canister.getTokenNextBlock t = y := by
  rcases hy with rfl | rfl
  · have hanswer : queryBlocks E p (pollRequest y) (.rejected "" "") = .ok (.error ("", "")) := by
      unfold queryBlocks
      split <;> rfl
    obtain ⟨σ', os, hstep, hcursor⟩ := step_of_answer waits hanswer rfl
    exact ⟨_, σ', os, hstep, hcursor⟩
  · obtain ⟨response, block, hanswer, hblocks, hoperation⟩ :=
      queryBlocks_emptyBlock (E := E) p (pollRequest next)
    have hreturns : queryTokenLedger E σ.canister t p next (.ok response) =
        .ok ⟨σ.canister, .returned (next + 1), []⟩ := by
      simp only [queryTokenLedger, hblocks, scanBlocks, scanBlock, hoperation, bind, Except.bind]
      rfl
    obtain ⟨σ', os, hstep, hcursor⟩ := step_of_answer waits hanswer hreturns
    exact ⟨_, σ', os, hstep, by simpa [windowEnd, hblocks] using hcursor⟩

/-! ## The call -/

/-- A method that sets a cursor ends at once. -/
theorem sets_runs {caller : Principal} {method : Method} (sets : sets t method = some b)
    (runs : runMethod E c caller method = .ok turn) :
    turn.canister.getTokenNextBlock t = b ∧ ∀ s, turn.task.position s = none := by
  cases method with
  | setTokenNextBlockUpdate s block =>
    cases runs
    simp only [AdminCursor.sets] at sets
    split at sets
    · cases sets
      subst ‹s = t›
      exact ⟨by simp [Turn.done, Canister.getTokenNextBlock_set], fun _ => rfl⟩
    · cases sets
  | resetTokenBlocks =>
    cases runs
    cases sets
    exact ⟨resetTokenBlocks_cursor c t, fun _ => rfl⟩
  | _ => cases sets

theorem called {caller : Principal} {method : Method}
    (allowed : σ.runs E (.call caller method) = some method)
    (sets : (sets t method).isSome = true)
    (fires : (machine E).step σ (.call caller method) = some (σ₁, os)) :
    ∃ turn, runMethod E σ.canister caller method = .ok turn ∧
      σ₁ = ⟨turn.canister, σ.tasks ++ [turn.task]⟩ := by
  cases hruns : runMethod E σ.canister caller method with
  | ok turn =>
    rw [step_of_runs E allowed hruns] at fires
    exact ⟨turn, rfl, (congrArg Prod.fst (Option.some.inj fires)).symm⟩
  | error trap =>
    cases method with
    | setTokenNextBlockUpdate _ _ | resetTokenBlocks => cases hruns
    | _ => cases sets

/-- The value an administrative call sets lasts in every run in which no poll that started
after the call has ended, if and only if no poll of the token awaited its ledger at the call
and those that awaited the webhook will return that very value. -/
theorem admin_cursor_kept {caller : Principal} {method : Method} (sets : sets t method = some b)
    (allowed : σ.runs E (.call caller method) = some method)
    (fires : (machine E).step σ (.call caller method) = some (σ₁, os)) :
    (∀ os' σ', (machine E).Run (Older E σ₁.tasks.length t) σ₁ os' σ' →
        σ'.canister.getTokenNextBlock t = b) ↔
      Settled σ.tasks t b := by
  obtain ⟨turn, hruns, rfl⟩ := called allowed (by rw [sets]; rfl) fires
  obtain ⟨hcursor, hidle⟩ := sets_runs sets hruns
  have hbound : σ.tasks.length < (σ.tasks ++ [turn.task]).length := by simp
  constructor
  · intro lasts task htask y position
    obtain ⟨n, hn⟩ := List.mem_iff_getElem?.mp htask
    have hlt : n < σ.tasks.length := (List.getElem?_eq_some_iff.mp hn).1
    have waits : (System.mk turn.canister (σ.tasks ++ [turn.task])).tasks[n]? = some task := by
      show (σ.tasks ++ [turn.task])[n]? = some task
      rw [List.getElem?_append_left hlt, hn]
    -- an answer to this task makes a run of one step
    have hlast : ∀ reply σ' os', (machine E).step ⟨turn.canister, σ.tasks ++ [turn.task]⟩
        (.reply n reply) = some (σ', os') → σ'.canister.getTokenNextBlock t = b := by
      intro reply σ' os' hstep
      refine lasts _ _ (Lib.Machine.Run.nil.step ⟨unattended_reply, ?_⟩ hstep)
      intro m reply' x hm _
      cases hm
      exact Nat.lt_trans hlt hbound
    cases task with
    | poll s p next =>
      obtain ⟨rfl, -⟩ := Task.position_poll.mp position
      obtain ⟨reply, σ', os', hstep, hy⟩ := poll_ends (E := E) waits next (.inl rfl)
      obtain ⟨reply', σ'', os'', hstep', hy'⟩ := poll_ends (E := E) waits (next + 1) (.inr rfl)
      have hsame : next + 1 = next :=
        (hy'.symm.trans (hlast _ _ _ hstep')).trans (hy.symm.trans (hlast _ _ _ hstep)).symm
      simp at hsame
    | webhook s blockCount =>
      obtain ⟨rfl, -⟩ := Task.position_webhook.mp position
      have hresumes : resumeTask E turn.canister (.webhook s blockCount) .http =
          some (.ok ⟨writeCursor turn.canister s blockCount, .finished (.ok .unit), []⟩) := rfl
      have hwindow : (Task.webhook s blockCount).window E .http = some (s, blockCount) := rfl
      obtain ⟨σ', os', hstep, hy⟩ := step_of_window waits hresumes hwindow
      rw [← hy.symm.trans (hlast _ _ _ hstep)]
    | _ => cases position
  · intro settled os' σ' run
    refine (run.invariant (P := Kept (σ.tasks ++ [turn.task]).length t b)
      ⟨hcursor, Nat.le_refl _, ?_⟩ ?_).cursor
    · rw [List.take_length]
      intro task htask y position
      rcases List.mem_append.mp htask with htask | htask
      · exact settled task htask y position
      · obtain rfl := List.mem_singleton.mp htask
        rw [hidle] at position
        cases position
    · intro s i s' new kept older fires
      exact kept_step kept older (fires_of_step E fires)

/-! A cursor set while a poll that will return that value awaits its webhook, and one set while a
poll from block 1 waits for the ledger, which then fails. -/

open Examples

abbrev skipTo5 : Input := .call custodian (.setTokenNextBlockUpdate .icp 5)

/-- A poll of ICP from block 1 waits for its webhook and will return 5. -/
def announcing : System := ⟨installed, [.webhook .icp 5]⟩

abbrev movedWhileAnnouncing : System := (machine externals).after announcing skipTo5

/-- The webhook returns, and its poll writes the value that was set. -/
theorem admin_cursor_kept_announcing :
    ((machine externals).after movedWhileAnnouncing (.reply 0 .http)).canister.getTokenNextBlock
      .icp = 5 := by
  have fires : (machine externals).step announcing skipTo5 = some (movedWhileAnnouncing, []) := rfl
  have answer : Older externals 2 .icp movedWhileAnnouncing (.reply 0 .http) := by
    refine ⟨unattended_reply, fun n reply x h _ => ?_⟩
    cases h
    decide
  have run : (machine externals).Run (Older externals 2 .icp) movedWhileAnnouncing
      ((machine externals).emitted movedWhileAnnouncing (.reply 0 .http))
      ((machine externals).after movedWhileAnnouncing (.reply 0 .http)) :=
    Lib.Machine.Run.nil.next answer rfl
  refine (admin_cursor_kept rfl rfl fires).mpr (fun task mem y position => ?_) _ _ run
  obtain rfl := List.mem_singleton.mp mem
  cases position
  rfl

abbrev movedWhilePolling : System := (machine externals).after polling skipTo5

/-- The poll from block 1 fails after the administrator has set the cursor to 5, and sets it
back to 1. -/
theorem admin_cursor_lost :
    Reachable externals polling ∧
      movedWhilePolling.tasks[1]?.any (fun task => task matches .finished (.ok _)) = true ∧
      movedWhilePolling.canister.getTokenNextBlock .icp = 5 ∧
      (machine externals).Run (Older externals 2 .icp) movedWhilePolling
        ((machine externals).emitted movedWhilePolling firstFails)
        ((machine externals).after movedWhilePolling firstFails) ∧
      ((machine externals).after movedWhilePolling firstFails).canister.getTokenNextBlock .icp =
        1 := by
  have older : Older externals 2 .icp movedWhilePolling firstFails := by
    refine ⟨unattended_reply, fun n reply x h _ => ?_⟩
    cases h
    decide
  refine ⟨⟨start, _, start_installed, Lib.Machine.Run.nil.step trivial polling_step⟩, ?_, ?_,
    Lib.Machine.Run.nil.next older ?_, ?_⟩ <;> decide +kernel

end SubaccountIndexer.AdminCursor
