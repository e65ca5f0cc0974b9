import SubaccountIndexer.Cursors

/-! What a poll writes to the cursor of its token, and when. A poll reads the cursor before
its first await and writes the end of its window after its last one, whatever the cursor is by
then: a poll that others of its token have overtaken can take the cursor back. -/

namespace SubaccountIndexer

variable (E : Externals)

/-- Where the window of a poll ends: at its start if the ledger failed, else after the blocks
it was answered with -/
def windowEnd (next : UInt64) : Except (String × String) QueryBlocksResponse → UInt64
  | .error _ => next
  | .ok response => next + UInt64.ofNat response.blocks.length

/-- The token of a poll and the end of its window, once it is answered -/
def Task.window (task : Task) (reply : Reply) : Option (TokenType × UInt64) :=
  match task, reply with
  | .poll t p next, .ledger reply =>
    match queryBlocks E p (pollRequest next) reply with
    | .ok answer => some (t, windowEnd next answer)
    | .error _ => none
  | .webhook t blockCount, .http => some (t, blockCount)
  | _, _ => none

/-- The poll an input brings to its end: its token and the end of its window. A poll that goes
on to await the webhook has not ended. -/
def System.ends (σ : System) : Input → Option (TokenType × UInt64)
  | .reply n reply =>
    match σ.tasks[n]? with
    | none => none
    | some task =>
      match resumeTask E σ.canister task reply with
      | some (.ok ⟨_, .finished _, _⟩) => task.window E reply
      | _ => none
  | _ => none

/-- No administrator writes the cursors, and the canister is not upgraded. -/
structure Unattended (σ : System) (i : Input) : Prop where
  cursors : ∀ method, σ.runs E i = some method → method.writesCursors = false
  upgrade : ∀ caller, i ≠ .upgrade caller

/-- A poll of the token in flight whose cursor has moved on: past the block it started from, or
past what it will return after the webhook -/
def System.Overtaken (σ : System) (t : TokenType) (task : Task) : Prop :=
  ∃ y, task.position t = some y ∧ y < σ.canister.getTokenNextBlock t

/-- An answer to a poll of the token does not reach past the last block number. -/
def System.Room (σ : System) (t : TokenType) (i : Input) : Prop :=
  ∀ next response, σ.polled E i = some (t, next, response) →
    next.toNat + response.blocks.length < 2 ^ 64

/-- No poll of the token that has been overtaken gets an answer. -/
structure Timely (t : TokenType) (σ : System) (i : Input) : Prop where
  unattended : Unattended E σ i
  timely : ∀ n reply task, i = .reply n reply → σ.tasks[n]? = some task → ¬ σ.Overtaken t task
  room : σ.Room E t i

variable {E} {c : Canister} {σ σ' : System} {i : Input} {os : List Event} {t : TokenType}
  {turn : Turn} {x : UInt64}

theorem unattended_timer : Unattended E σ .timer := ⟨fun _ h => (nomatch h), nofun⟩

theorem unattended_reply {n : Nat} {reply : Reply} : Unattended E σ (.reply n reply) :=
  ⟨fun _ h => (nomatch h), nofun⟩

theorem Polled.windowEnd {p : Principal} {next : UInt64}
    {answer : Except (String × String) QueryBlocksResponse} {pt : PollTurn}
    (h : Polled E c t p next answer pt) :
    pt.status.blockCount = SubaccountIndexer.windowEnd next answer := by
  cases answer with
  | error err => cases h; rfl
  | ok response => exact h.blockCount

/-- The cursors after a resumed task: those of before, but for the window of a poll that has
ended. -/
theorem Resumes.cursors {task : Task} {reply : Reply} (h : Resumes E c task reply turn) :
    (∃ s x result, turn.task = .finished result ∧ task.window E reply = some (s, x) ∧
        turn.canister.tokenNextBlocks = c.tokenNextBlocks.insert (getTokenId s) x) ∨
      turn.canister.tokenNextBlocks = c.tokenNextBlocks ∧
        ((∀ result, turn.task ≠ .finished result) ∨ task.window E reply = none) := by
  cases h with
  | @poll s p next reply answer pt answers scans =>
    have hend := scans.windowEnd
    have hwindow : (Task.poll s p next).window E (.ledger reply) =
        some (s, windowEnd next answer) := by simp [Task.window, answers]
    unfold PollTurn.toTurn
    cases hstatus : pt.status with
    | returned blockCount =>
      rw [hstatus] at hend
      refine .inl ⟨s, _, _, rfl, hwindow, ?_⟩
      rw [writeCursor_cursors, (scans.advances answers).1, ← hend]
      rfl
    | webhook hash blockCount => exact .inr ⟨(scans.advances answers).1, .inl nofun⟩
  | webhook => exact .inl ⟨_, _, _, rfl, rfl, writeCursor_cursors _ _ _⟩
  | @sweep tx rest results result =>
    obtain ⟨status, turn, lines, heq, -, hrun⟩ :=
      sweepRecorded_spec (E := E) c tx rest results result
    rw [heq]
    exact .inr ⟨by simp only [SweepTurn.toTurn, hrun.silent.1], .inr rfl⟩
  | @refund tx result => cases result <;> exact .inr ⟨rfl, .inr rfl⟩
  | archive answers =>
    cases archived_of_ok E answers with
    | @idle status => exact .inr ⟨rfl, .inr rfl⟩
    | stored relevant transfer free fits => exact .inr ⟨rfl, .inr rfl⟩
  | sweepSubaccount => exact .inr ⟨rfl, .inr rfl⟩
  | setCustodian =>
    unfold setCustodianReply
    dsimp only
    repeat' split
    all_goals exact .inr ⟨rfl, .inr rfl⟩

/-- In an unattended step a cursor moves only when a poll of its token ends, and then to the
end of its window. -/
theorem Fires.cursor (h : Fires E σ i σ' os) (unattended : Unattended E σ i) (t : TokenType) :
    (∃ x, σ.ends E i = some (t, x) ∧ σ'.canister.getTokenNextBlock t = x) ∨
      (∀ x, σ.ends E i ≠ some (t, x)) ∧
        σ'.canister.getTokenNextBlock t = σ.canister.getTokenNextBlock t := by
  cases h with
  | timer | rejected | callTraps => exact .inr ⟨by simp [System.ends], rfl⟩
  | @call caller method turn allowed runs =>
    have hcursors := (runMethod_frame E runs).cursors (unattended.cursors method allowed)
    exact .inr ⟨by simp [System.ends], getTokenNextBlock_of_cursors hcursors t⟩
  | replyTraps waits resumes => exact .inr ⟨by simp [System.ends, waits, resumes], rfl⟩
  | upgrade => exact absurd rfl (unattended.upgrade _)
  | @reply n reply task turn waits resumes =>
    rcases (resumes_of_ok E resumes).cursors with
      ⟨s, x, result, hfinished, hwindow, hcursors⟩ | ⟨hcursors, hopen⟩
    · have hends : σ.ends E (.reply n reply) = some (s, x) := by
        obtain ⟨c', task', events⟩ := turn
        obtain rfl : task' = .finished result := hfinished
        simp only [System.ends, waits, resumes, hwindow]
      have hcursor : turn.canister.getTokenNextBlock t = if s = t then x else
          σ.canister.getTokenNextBlock t := getTokenNextBlock_of_insert hcursors t
      by_cases hs : s = t
      · subst hs
        exact .inl ⟨x, hends, hcursor.trans (if_pos rfl)⟩
      · refine .inr ⟨fun y hy => hs ?_, hcursor.trans (if_neg hs)⟩
        rw [hends] at hy
        exact congrArg Prod.fst (Option.some.inj hy)
    · refine .inr ⟨fun y hy => ?_, getTokenNextBlock_of_cursors hcursors t⟩
      simp only [System.ends, waits, resumes] at hy
      split at hy
      · rename_i hturn
        rcases hopen with hopen | hwindow
        · obtain rfl := Except.ok.inj (Option.some.inj hturn)
          exact hopen _ rfl
        · rw [hwindow] at hy
          cases hy
      · cases hy

/-! ## The polls that end -/

theorem window_cases {task : Task} {reply : Reply} (h : task.window E reply = some (t, x)) :
    (∃ p next, task = .poll t p next) ∨ task = .webhook t x := by
  unfold Task.window at h
  split at h
  · split at h
    · cases h; exact .inl ⟨_, _, rfl⟩
    · cases h
  · cases h; exact .inr rfl
  · cases h

theorem window_of_ends (h : σ.ends E i = some (t, x)) : ∃ n reply task, i = .reply n reply ∧
    σ.tasks[n]? = some task ∧ task.window E reply = some (t, x) := by
  unfold System.ends at h
  split at h
  · split at h
    · cases h
    · rename_i task waits
      split at h
      · exact ⟨_, _, task, rfl, waits, h⟩
      · cases h
  · cases h

/-- An answer that ends a poll moves the cursor to the end of its window. -/
theorem step_of_window {n : Nat} {reply : Reply} {task : Task} {c' : Canister}
    {result : Except String Value} {events : List Event} (waits : σ.tasks[n]? = some task)
    (resumes : resumeTask E σ.canister task reply = some (.ok ⟨c', .finished result, events⟩))
    (window : task.window E reply = some (t, x)) : ∃ σ' os,
      (machine E).step σ (.reply n reply) = some (σ', os) ∧
        σ'.canister.getTokenNextBlock t = x := by
  have hstep : (machine E).step σ (.reply n reply) = some
      (⟨c', σ.tasks.set n (.finished result)⟩, answeredBlocks E task reply ++ events) := by
    simp only [machine, System.step, waits, resumes, Option.map_some, System.settle]
  have hends : σ.ends E (.reply n reply) = some (t, x) := by
    simp only [System.ends, waits, resumes, window]
  refine ⟨_, _, hstep, ?_⟩
  rcases (fires_of_step E hstep).cursor unattended_reply t with ⟨y, hy, hcursor⟩ | ⟨hnone, -⟩
  · obtain rfl : x = y := by
      rw [hends] at hy
      exact congrArg Prod.snd (Option.some.inj hy)
    exact hcursor
  · exact absurd hends (hnone x)

/-- Where there is room, a window does not end before it starts. -/
theorem le_windowEnd {p : Principal} {next : UInt64} {n : Nat} {reply : LedgerReply}
    {answer : Except (String × String) QueryBlocksResponse}
    (waits : σ.tasks[n]? = some (.poll t p next))
    (answers : queryBlocks E p (pollRequest next) reply = .ok answer)
    (room : σ.Room E t (.reply n (.ledger reply))) : next ≤ windowEnd next answer := by
  cases answer with
  | error err => exact UInt64.le_refl _
  | ok response =>
    have hroom := room next response (PollAnswered.reply waits answers).polled
    rw [windowEnd, UInt64.le_iff_toNat_le, UInt64.toNat_add, UInt64.toNat_ofNat']
    omega

/-- A poll that ends takes the cursor no further back than it stands itself. -/
theorem position_of_ends (ends : σ.ends E i = some (t, x)) (room : σ.Room E t i) :
    ∃ n reply task y, i = .reply n reply ∧ σ.tasks[n]? = some task ∧
      task.position t = some y ∧ y ≤ x := by
  obtain ⟨n, reply, task, rfl, waits, window⟩ := window_of_ends ends
  rcases window_cases window with ⟨p, next, rfl⟩ | rfl
  · refine ⟨n, reply, _, next, rfl, waits, if_pos rfl, ?_⟩
    unfold Task.window at window
    split at window
    · rename_i heq
      cases heq
      split at window
      · rename_i answer hanswer
        cases window
        exact le_windowEnd waits hanswer room
      · cases window
    · rename_i heq
      cases heq
    · cases window
  · exact ⟨n, reply, _, x, rfl, waits, if_pos rfl, UInt64.le_refl _⟩

/-- An overtaken poll takes the cursor back if its ledger fails, or when its webhook returns. -/
theorem rewinds_of_overtaken {n : Nat} {task : Task} (waits : σ.tasks[n]? = some task)
    (overtaken : σ.Overtaken t task) : ∃ reply σ' os, σ.Room E t (.reply n reply) ∧
      (machine E).step σ (.reply n reply) = some (σ', os) ∧
      σ'.canister.getTokenNextBlock t < σ.canister.getTokenNextBlock t := by
  obtain ⟨y, position, below⟩ := overtaken
  cases task with
  | poll s p next =>
    obtain ⟨rfl, rfl⟩ := Task.position_poll.mp position
    have hfailed : queryBlocks E p (pollRequest next) (.rejected "" "") = .ok (.error ("", "")) := by
      cases hspeaks : usesIcrc3 p <;> simp [queryBlocks, hspeaks]
    have hresumes : resumeTask E σ.canister (.poll s p next) (.ledger (.rejected "" "")) =
        some (.ok ⟨writeCursor σ.canister s next, .finished (.ok .unit), []⟩) := by
      simp only [resumeTask, hfailed, bind, Except.bind]
      rfl
    obtain ⟨σ', os, hstep, hcursor⟩ := step_of_window (t := s) (x := next) waits hresumes
      (by simp only [Task.window, hfailed, windowEnd])
    refine ⟨_, σ', os, fun next' response polled => ?_, hstep, hcursor ▸ below⟩
    simp [System.polled, waits, hfailed] at polled
  | webhook s blockCount =>
    obtain ⟨rfl, rfl⟩ := Task.position_webhook.mp position
    obtain ⟨σ', os, hstep, hcursor⟩ := step_of_window (t := s) (x := blockCount) waits
      (show resumeTask E σ.canister (.webhook s blockCount) .http = _ from rfl) rfl
    exact ⟨_, σ', os, by rintro _ _ ⟨⟩, hstep, hcursor ▸ below⟩
  | _ => cases position

/-- A step that answers no overtaken poll does not take the cursor back. -/
theorem cursor_le (h : Fires E σ i σ' os) (timely : Timely E t σ i) :
    σ.canister.getTokenNextBlock t ≤ σ'.canister.getTokenNextBlock t := by
  rcases h.cursor timely.unattended t with ⟨x, hends, hcursor⟩ | ⟨-, hcursor⟩
  · obtain ⟨n, reply, task, y, hi, waits, position, hle⟩ := position_of_ends hends timely.room
    by_contra hback
    rw [hcursor, UInt64.not_le] at hback
    exact timely.timely n reply task hi waits ⟨y, position, UInt64.lt_of_le_of_lt hle hback⟩
  · exact UInt64.le_of_eq hcursor.symm

/-- As long as no overtaken poll of a token gets an answer its cursor does not go back. Where one
is in flight an answer can take the cursor back, and nowhere else. -/
theorem cursor_never_back (run : (machine E).Run (Timely E t) σ os σ') :
    σ.canister.getTokenNextBlock t ≤ σ'.canister.getTokenNextBlock t ∧
      ((∃ n reply σ'' os', σ'.Room E t (.reply n reply) ∧
          (machine E).step σ' (.reply n reply) = some (σ'', os') ∧
          σ''.canister.getTokenNextBlock t < σ'.canister.getTokenNextBlock t) ↔
        ∃ task ∈ σ'.tasks, σ'.Overtaken t task) := by
  constructor
  · refine run.invariant (P := fun s => σ.canister.getTokenNextBlock t ≤
      s.canister.getTokenNextBlock t) (UInt64.le_refl _) fun s i s' os' hle timely fires => ?_
    exact UInt64.le_trans hle (cursor_le (fires_of_step E fires) timely)
  · constructor
    · rintro ⟨n, reply, σ'', os', room, fires, back⟩
      rcases (fires_of_step E fires).cursor unattended_reply t with
        ⟨x, hends, hcursor⟩ | ⟨-, hcursor⟩
      · obtain ⟨n', reply', task, y, -, waits, position, hle⟩ := position_of_ends hends room
        rw [hcursor] at back
        exact ⟨task, List.mem_of_getElem? waits, y, position, UInt64.lt_of_le_of_lt hle back⟩
      · rw [hcursor] at back
        exact absurd back (UInt64.lt_irrefl _)
    · rintro ⟨task, mem, overtaken⟩
      obtain ⟨n, waits⟩ := List.mem_iff_getElem?.mp mem
      obtain ⟨reply, σ'', os', room, fires, back⟩ := rewinds_of_overtaken (E := E) waits overtaken
      exact ⟨n, reply, σ'', os', room, fires, back⟩

/-! Two polls from block 1 of which the older fails after the other has ended -/

namespace Examples

/-- The timer has started a second poll before the first was answered. -/
def twoPolls : System :=
  ⟨installed, [.poll .icp MAINNET_LEDGER_CANISTER_ID 1, .poll .icp MAINNET_LEDGER_CANISTER_ID 1]⟩

abbrev secondEnded : System := (machine externals).after twoPolls (icpAnswer 1)

/-- No poll has been overtaken as long as the cursor is where both have started. -/
theorem cursor_never_back_two :
    start.canister.getTokenNextBlock .icp ≤ secondEnded.canister.getTokenNextBlock .icp ∧
      ∃ n reply σ os, (machine externals).step secondEnded (.reply n reply) = some (σ, os) ∧
        σ.canister.getTokenNextBlock .icp < secondEnded.canister.getTokenNextBlock .icp := by
  have timer : ∀ σ, Timely externals .icp σ .timer := fun σ =>
    ⟨unattended_timer, by rintro _ _ _ ⟨⟩, by rintro _ _ ⟨⟩⟩
  have started : (machine externals).step polling .timer = some (twoPolls, []) := rfl
  have answer : Timely externals .icp twoPolls (icpAnswer 1) := by
    refine ⟨unattended_reply, fun n reply task heq waits => ?_, fun next response polled => ?_⟩
    · have hcursor : twoPolls.canister.getTokenNextBlock .icp = 1 := by decide +kernel
      cases heq
      cases waits
      rintro ⟨y, position, below⟩
      rw [hcursor] at below
      cases position
      exact absurd below (UInt64.lt_irrefl _)
    · have hpolled : twoPolls.polled externals (icpAnswer 1) =
          some (.icp, 1, responseAt 1 [deposit]) := rfl
      cases hpolled.symm.trans polled
      decide
  obtain ⟨hle, hback⟩ := cursor_never_back (((Lib.Machine.Run.nil.step (timer start)
    polling_step).step (timer polling) started).next answer (by decide +kernel))
  have hfirst : (secondEnded.tasks[0]?.bind fun task => task.position .icp) = some 1 := by
    decide +kernel
  obtain ⟨task, waits, position⟩ := Option.bind_eq_some_iff.mp hfirst
  obtain ⟨n, reply, σ, os, -, fires, back⟩ := hback.mpr
    ⟨task, List.mem_of_getElem? waits, 1, position, by decide +kernel⟩
  exact ⟨hle, n, reply, σ, os, fires, back⟩

/-- The ledger rejects the call of the first poll. -/
abbrev firstFails : Input := .reply 0 (.ledger (.rejected "SysTransient" "out of cycles"))

/-- The second poll ends and moves the cursor to 2; then the first fails and moves it back. -/
theorem late_failure_rewinds :
    (machine externals).Run (Unattended externals) start
        ((machine externals).emitted twoPolls (icpAnswer 1) ++
          (machine externals).emitted secondEnded firstFails)
        ((machine externals).after secondEnded firstFails) ∧
      secondEnded.canister.getTokenNextBlock .icp = 2 ∧
      ((machine externals).after secondEnded firstFails).canister.getTokenNextBlock .icp = 1 := by
  have timer : (machine externals).step polling .timer = some (twoPolls, []) := rfl
  refine ⟨(((Lib.Machine.Run.nil.step unattended_timer polling_step).step unattended_timer
    timer).next (i := icpAnswer 1) unattended_reply ?_).next (i := firstFails) unattended_reply ?_,
      ?_, ?_⟩ <;> decide +kernel

end Examples

end SubaccountIndexer
