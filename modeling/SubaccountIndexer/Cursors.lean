import SubaccountIndexer.Events

/-! Where the polls of a token stand: its cursor, the starts of the polls that wait for
the ledger and the results of those that wait for the webhook. A poll that fails, or an old
one that ends late, writes back a smaller cursor than the current one; but while only polls
write cursors, no position ever falls below all positions of the state before. -/

namespace SubaccountIndexer

variable (E : Externals)

/-- Where a poll in flight starts, or what it will return -/
def Task.position (t : TokenType) : Task → Option UInt64
  | .poll t' _ next => if t' = t then some next else none
  | .webhook t' blockCount => if t' = t then some blockCount else none
  | _ => none

def System.positions (σ : System) (t : TokenType) : List UInt64 :=
  σ.canister.getTokenNextBlock t :: σ.tasks.filterMap (Task.position t)

/-- Every position of the token is past `i`. -/
def System.Past (σ : System) (t : TokenType) (i : UInt64) : Prop := ∀ x ∈ σ.positions t, i < x

instance (σ : System) (t : TokenType) (i : UInt64) : Decidable (σ.Past t i) :=
  List.decidableBAll (fun x => i < x) (σ.positions t)

/-- The result of a poll that starts at `y`: `y` itself if the ledger fails, else the end of
the window. -/
def Advances (task : Task) (reply : Reply) (y x : UInt64) : Prop :=
  x = y ∨ ∃ t p ledgerReply response, task = .poll t p y ∧ reply = .ledger ledgerReply ∧
    queryBlocks E p (pollRequest y) ledgerReply = .ok (.ok response) ∧
    x = y + UInt64.ofNat response.blocks.length

/-- The token is polled on this ledger: it is registered with it, or it is ICP, not registered,
and this is the ledger of `init`. -/
inductive PolledOn (c : Canister) : TokenType → Principal → Prop
  | registered {key : UInt64} {t : TokenType} {p : Principal}
      (held : c.tokenLedgerPrincipals[key]? = some (t, p)) : PolledOn c t p
  | default {p : Principal} (unregistered : registeredLedger c.tokenLedgerPrincipals .icp = none)
      (initial : c.principal = some p) : PolledOn c .icp p

/-- What a resumed task does to the cursors, and where it stands then -/
inductive Moves (c : Canister) (task : Task) (reply : Reply) (turn : Turn) : Prop
  | stays (cursors : turn.canister.tokenNextBlocks = c.tokenNextBlocks)
      (idle : ∀ t, turn.task.position t = none)
  | waits {t : TokenType} {y x : UInt64}
      (cursors : turn.canister.tokenNextBlocks = c.tokenNextBlocks)
      (before : task.position t = some y) (waiting : turn.task = .webhook t x)
      (advances : Advances E task reply y x)
  | writes {t : TokenType} {y x : UInt64}
      (cursors : turn.canister.tokenNextBlocks = c.tokenNextBlocks.insert (getTokenId t) x)
      (before : task.position t = some y) (idle : ∀ t, turn.task.position t = none)
      (advances : Advances E task reply y x)

variable {E} {c : Canister} {σ σ' : System} {i : Input} {os : List Event} {t : TokenType}
  {turn : Turn}

/-! ## Turns -/

@[simp] theorem Task.position_poll {s : TokenType} {p : Principal} {next x : UInt64} :
    (Task.poll s p next).position t = some x ↔ s = t ∧ next = x := by simp [Task.position]

@[simp] theorem Task.position_webhook {s : TokenType} {blockCount x : UInt64} :
    (Task.webhook s blockCount).position t = some x ↔ s = t ∧ blockCount = x := by
  simp [Task.position]

theorem mem_positions {x : UInt64} : x ∈ σ.positions t ↔
    σ.canister.getTokenNextBlock t = x ∨ ∃ task ∈ σ.tasks, task.position t = some x := by
  simp [System.positions, eq_comm]

theorem writeCursor_cursors (c : Canister) (t : TokenType) (x : UInt64) :
    (writeCursor c t x).tokenNextBlocks = c.tokenNextBlocks.insert (getTokenId t) x := by
  rw [writeCursor_eq]

theorem getTokenNextBlock_of_cursors {c' : Canister}
    (h : c'.tokenNextBlocks = c.tokenNextBlocks) (t : TokenType) :
    c'.getTokenNextBlock t = c.getTokenNextBlock t := by
  rw [Canister.getTokenNextBlock, h]
  rfl

theorem getTokenNextBlock_of_insert {c' : Canister} {s : TokenType} {x : UInt64}
    (h : c'.tokenNextBlocks = c.tokenNextBlocks.insert (getTokenId s) x) (t : TokenType) :
    c'.getTokenNextBlock t = if s = t then x else c.getTokenNextBlock t :=
  (getTokenNextBlock_of_cursors (c := c.setTokenNextBlock s x) h t).trans
    (c.getTokenNextBlock_set s t x)

theorem resetTokenBlocks_cursor (c : Canister) (t : TokenType) :
    (resetTokenBlocks c).getTokenNextBlock t = 1 := by
  simp only [resetTokenBlocks, Canister.getTokenNextBlock_set]
  cases t <;> rfl

theorem registeredLedger_eq_none {ledgers : TokenLedgers} :
    registeredLedger ledgers t = none ↔
      ledgers.toList.any (fun entry => entry.2.1 == t) = false := by
  rw [registeredLedger, Option.map_eq_none_iff, List.find?_eq_none, List.any_eq_false]

/-- A tick polls every token on its ledgers, from its cursor. -/
theorem mem_pollsToStart {p : Principal} {next : UInt64} :
    (t, p, next) ∈ pollsToStart c ↔ PolledOn c t p ∧ next = c.getTokenNextBlock t := by
  have hregistered : (t, p, next) ∈ (c.tokenLedgerPrincipals.toList.map fun entry =>
      (entry.2.1, entry.2.2, c.getTokenNextBlock entry.2.1)) ↔
      (∃ key : UInt64, c.tokenLedgerPrincipals[key]? = some (t, p)) ∧
        next = c.getTokenNextBlock t := by
    simp only [List.mem_map, Prod.mk.injEq]
    constructor
    · rintro ⟨⟨key, s, q⟩, hentry, rfl, rfl, rfl⟩
      exact ⟨⟨key, Std.ExtTreeMap.mem_toList_iff_getElem?_eq_some.mp hentry⟩, rfl⟩
    · rintro ⟨⟨key, hheld⟩, rfl⟩
      exact ⟨(key, t, p), Std.ExtTreeMap.mem_toList_iff_getElem?_eq_some.mpr hheld, rfl, rfl, rfl⟩
  have hpolls : (t, p, next) ∈ pollsToStart c ↔
      (t, p, next) ∈ (c.tokenLedgerPrincipals.toList.map fun entry =>
        (entry.2.1, entry.2.2, c.getTokenNextBlock entry.2.1)) ∨
      registeredLedger c.tokenLedgerPrincipals .icp = none ∧ ∃ q, c.principal = some q ∧
        (t, p, next) = (.icp, q, c.getTokenNextBlock .icp) := by
    rw [registeredLedger_eq_none]
    unfold pollsToStart
    dsimp only
    cases c.tokenLedgerPrincipals.toList.any fun entry => entry.2.1 == .icp with
    | true => simp
    | false => cases c.principal <;> simp
  rw [hpolls, hregistered]
  constructor
  · rintro (⟨⟨key, hheld⟩, hnext⟩ | ⟨hnone, q, hq, heq⟩)
    · exact ⟨.registered hheld, hnext⟩
    · cases heq
      exact ⟨.default hnone hq, rfl⟩
  · rintro ⟨polled, rfl⟩
    cases polled with
    | registered held => exact .inl ⟨⟨_, held⟩, rfl⟩
    | default unregistered initial => exact .inr ⟨unregistered, p, initial, rfl⟩

theorem pollsToStart_cursor {p : TokenType × Principal × UInt64} (h : p ∈ pollsToStart c) :
    p.2.2 = c.getTokenNextBlock p.1 := (mem_pollsToStart.mp h).2

theorem SweepRun.idle {results : List String} {txs : List StoredTransactions}
    {turn : SweepTurn} (h : SweepRun E c results txs turn) (t : TokenType) :
    turn.toTurn.task.position t = none := by cases h <;> rfl

theorem Ran.idle {method : Method} (h : Ran E c method turn) (t : TokenType) :
    turn.task.position t = none := by
  cases h with
  | sweep selects => exact (sweepTxs_run _ _ _).idle t
  | refund runs => cases runs <;> rfl
  | _ => rfl

/-- A poll ends at its start if the ledger failed, else at the end of the window. -/
theorem Polled.advances {p : Principal} {next : UInt64} {reply : LedgerReply}
    {answer : Except (String × String) QueryBlocksResponse} {pt : PollTurn}
    (answers : queryBlocks E p (pollRequest next) reply = .ok answer)
    (h : Polled E c t p next answer pt) :
    pt.canister.tokenNextBlocks = c.tokenNextBlocks ∧
      Advances E (.poll t p next) (.ledger reply) next pt.status.blockCount := by
  cases answer with
  | error err => cases h; exact ⟨rfl, .inl rfl⟩
  | ok response =>
    refine ⟨by cases h; rfl, .inr ⟨t, p, reply, response, rfl, rfl, answers, h.blockCount⟩⟩

theorem Resumes.moves {task : Task} {reply : Reply} (h : Resumes E c task reply turn) :
    Moves E c task reply turn := by
  cases h with
  | @poll t p next reply answer pt answers scans =>
    obtain ⟨hcursors, hadvances⟩ := scans.advances answers
    unfold PollTurn.toTurn
    cases hstatus : pt.status with
    | returned blockCount =>
      rw [hstatus] at hadvances
      exact .writes (x := blockCount) (by rw [writeCursor_cursors, hcursors]) (if_pos rfl)
        (fun _ => rfl) hadvances
    | webhook hash blockCount =>
      rw [hstatus] at hadvances
      exact .waits hcursors (if_pos rfl) rfl hadvances
  | webhook =>
    exact .writes (writeCursor_cursors _ _ _) (if_pos rfl) (fun _ => rfl) (.inl rfl)
  | @sweep tx rest results result =>
    obtain ⟨status, turn, lines, heq, -, hrun⟩ :=
      sweepRecorded_spec (E := E) c tx rest results result
    rw [heq]
    exact .stays (by simp only [SweepTurn.toTurn, hrun.silent.1]) hrun.idle
  | @refund tx result => cases result <;> exact .stays rfl fun _ => rfl
  | archive answers =>
    cases archived_of_ok E answers with
    | @idle status => cases status <;> exact .stays rfl fun _ => rfl
    | stored relevant transfer free fits => exact .stays rfl fun _ => rfl
  | sweepSubaccount => exact .stays rfl fun _ => rfl
  | setCustodian =>
    unfold setCustodianReply
    dsimp only
    repeat' split
    all_goals exact .stays rfl fun _ => rfl

/-! ## Steps -/

/-- The cursors of an installed canister are written once, so an upgrade finds them there. -/
theorem Fires.cursors_nonempty (h : Fires E σ i σ' os)
    (nonempty : σ.canister.tokenNextBlocks.isEmpty = false) :
    σ'.canister.tokenNextBlocks.isEmpty = false := by
  refine h.keeps (P := fun c => c.tokenNextBlocks.isEmpty = false) nonempty (fun writes => ?_)
    (fun resumes => ?_) fun caller => ?_
  · cases writes with
    | cursor | reset => simp [resetTokenBlocks, Canister.setTokenNextBlock]
    | _ => exact nonempty
  · exact resumes.keeps (P := fun c => c.tokenNextBlocks.isEmpty = false) (fun _ => nonempty)
      (fun _ _ _ => by simp) fun _ => nonempty
  · rwa [(postUpgrade_frame (E := E) σ.canister caller).cursors nonempty]

theorem reachable_cursors (h : Reachable E σ) :
    σ.canister.tokenNextBlocks.isEmpty = false := by
  obtain ⟨σ₀, os, hinstalled, hrun⟩ := h
  exact hrun.invariant (P := fun σ => σ.canister.tokenNextBlocks.isEmpty = false)
    hinstalled.canister.2.2.1 fun s i s' os' nonempty _ fires =>
      (fires_of_step E fires).cursors_nonempty nonempty

/-- The responses of the ledgers end below the largest index. -/
def WindowFits (E : Externals) (σ : System) (i : Input) : Prop :=
  ∀ t next response, σ.polled E i = some (t, next, response) →
    next.toNat + response.blocks.length < 2 ^ 64

theorem Advances.le {n : Nat} {task : Task} {reply : Reply} {y x : UInt64}
    (waits : σ.tasks[n]? = some task) (fits : WindowFits E σ (.reply n reply))
    (h : Advances E task reply y x) : y ≤ x := by
  rcases h with rfl | ⟨t, p, ledgerReply, response, rfl, rfl, answers, rfl⟩
  · exact UInt64.le_refl _
  · have hfits := fits t y response (by simp [System.polled, waits, answers])
    rw [UInt64.le_iff_toNat_le, UInt64.toNat_add, UInt64.toNat_ofNat']
    omega

/-- While only polls write cursors, a position of a token was one before the step, or a poll has
moved to it. -/
theorem Fires.moved (h : Fires E σ i σ' os)
    (nonempty : σ.canister.tokenNextBlocks.isEmpty = false)
    (polls : ∀ method, σ.runs E i = some method → method.writesCursors = false) {x : UInt64}
    (mem : x ∈ σ'.positions t) : x ∈ σ.positions t ∨
      ∃ n reply task turn y, i = .reply n reply ∧ σ.tasks[n]? = some task ∧
        resumeTask E σ.canister task reply = some (.ok turn) ∧ task.position t = some y ∧
          Advances E task reply y x := by
  suffices hcases : (σ.canister.getTokenNextBlock t = x ∨
      ∃ task ∈ σ.tasks, task.position t = some x) ∨ _ from hcases.imp_left mem_positions.mpr
  rw [mem_positions] at mem
  cases h with
  | timer running =>
    left
    rcases mem with hcursor | ⟨task, htask, hposition⟩
    · exact .inl hcursor
    · rcases List.mem_append.mp htask with htask | htask
      · exact .inr ⟨task, htask, hposition⟩
      · obtain ⟨p, hp, rfl⟩ := List.mem_map.mp htask
        obtain ⟨rfl, rfl⟩ := Task.position_poll.mp hposition
        exact .inl (pollsToStart_cursor hp).symm
  | rejected message | callTraps traps =>
    left
    rcases mem with hcursor | ⟨task, htask, hposition⟩
    · exact .inl hcursor
    · rcases List.mem_append.mp htask with htask | htask
      · exact .inr ⟨task, htask, hposition⟩
      · obtain rfl := List.mem_singleton.mp htask
        cases hposition
  | @call caller method turn allowed runs =>
    left
    have hcursors := (runMethod_frame E runs).cursors (polls method allowed)
    rcases mem with hcursor | ⟨task, htask, hposition⟩
    · exact .inl ((getTokenNextBlock_of_cursors hcursors t).symm.trans hcursor)
    · rcases List.mem_append.mp htask with htask | htask
      · exact .inr ⟨task, htask, hposition⟩
      · obtain rfl := List.mem_singleton.mp htask
        rw [(ran_of_ok E runs).idle] at hposition
        cases hposition
  | @reply n reply task turn waits resumes =>
    -- the position the task had before, if it has moved
    have hmoved : ∀ {s y}, task.position s = some y → Advances E task reply y x → s = t →
        ∃ n' reply' task' turn' y', Input.reply n reply = .reply n' reply' ∧
          σ.tasks[n']? = some task' ∧ resumeTask E σ.canister task' reply' = some (.ok turn') ∧
            task'.position t = some y' ∧ Advances E task' reply' y' x := by
      rintro s y hbefore hadvances rfl
      exact ⟨n, reply, task, turn, y, rfl, waits, resumes, hbefore, hadvances⟩
    rcases mem with hcursor | ⟨task', htask, hposition⟩
    · cases (resumes_of_ok E resumes).moves with
      | stays cursors idle =>
        exact .inl (.inl ((getTokenNextBlock_of_cursors cursors t).symm.trans hcursor))
      | waits cursors before waiting advances =>
        exact .inl (.inl ((getTokenNextBlock_of_cursors cursors t).symm.trans hcursor))
      | @writes s y z cursors before idle advances =>
        rw [getTokenNextBlock_of_insert cursors] at hcursor
        split at hcursor
        · subst hcursor
          exact .inr (hmoved before advances ‹_›)
        · exact .inl (.inl hcursor)
    · rcases List.mem_or_eq_of_mem_set htask with htask | rfl
      · exact .inl (.inr ⟨task', htask, hposition⟩)
      · cases (resumes_of_ok E resumes).moves with
        | stays cursors idle => rw [idle] at hposition; cases hposition
        | @waits s y z cursors before waiting advances =>
          rw [waiting] at hposition
          obtain ⟨hs, rfl⟩ := Task.position_webhook.mp hposition
          exact .inr (hmoved before advances hs)
        | writes cursors before idle advances => rw [idle] at hposition; cases hposition
  | replyTraps waits resumes =>
    left
    rcases mem with hcursor | ⟨task, htask, hposition⟩
    · exact .inl hcursor
    · rcases List.mem_or_eq_of_mem_set htask with htask | rfl
      · exact .inr ⟨task, htask, hposition⟩
      · cases hposition
  | @upgrade caller =>
    have hcursors := (postUpgrade_frame (E := E) σ.canister caller).cursors nonempty
    rcases mem with hcursor | ⟨task, htask, -⟩
    · exact .inl (.inl ((getTokenNextBlock_of_cursors hcursors t).symm.trans hcursor))
    · cases htask

/-- While only polls write cursors, every position of a token comes from one before the step
that is not larger. -/
theorem Fires.positions (h : Fires E σ i σ' os)
    (nonempty : σ.canister.tokenNextBlocks.isEmpty = false)
    (polls : ∀ method, σ.runs E i = some method → method.writesCursors = false)
    (fits : WindowFits E σ i) {x : UInt64} (mem : x ∈ σ'.positions t) :
    ∃ y ∈ σ.positions t, y ≤ x := by
  rcases h.moved nonempty polls mem with hold | ⟨n, reply, task, turn, y, rfl, waits, -, before, advances⟩
  · exact ⟨x, hold, UInt64.le_refl _⟩
  · exact ⟨y, mem_positions.mpr (.inr ⟨task, List.mem_of_getElem? waits, before⟩),
      advances.le waits fits⟩

/-- What all positions of a token are past stays so. -/
theorem Fires.past (h : Fires E σ i σ' os)
    (nonempty : σ.canister.tokenNextBlocks.isEmpty = false)
    (polls : ∀ method, σ.runs E i = some method → method.writesCursors = false)
    (fits : WindowFits E σ i) {k : UInt64} (past : σ.Past t k) : σ'.Past t k := by
  intro x hx
  obtain ⟨y, hy, hle⟩ := h.positions nonempty polls fits hx
  exact UInt64.lt_of_lt_of_le (past y hy) hle

end SubaccountIndexer
