import SubaccountIndexer.CatchUp

/-! No block is skipped. Polls of a token may overlap, fail, panic, end late and put the cursor
back; whatever they do, a block behind the cursor lies in the window of a poll that has gone over
it. -/

namespace SubaccountIndexer.Gaps
open CatchUp (Chain ofNat_cursor start_behind)

variable (E : Externals)

/-- The polls of the token are answered with blocks of its chain from the number they ask for on, if
they are answered at all, and no administrator writes the cursors. -/
structure Feeds (chain : Chain) (t : TokenType) (σ : System) (i : Input) : Prop where
  answers : ∀ next response, σ.polled E i = some (t, next, response) →
    chain.Gives next.toNat response.blocks
  cursors : ∀ method, σ.runs E i = some method → method.writesCursors = false

/-- A poll of the token has block `k` in its window. If the block concerns a subaccount then, its
key is taken from then on, by what was there before or by its record. -/
structure Passes (chain : Chain) (t : TokenType) (k : Nat) (σ σ' : System) (i : Input) : Prop where
  window : ∃ next response, σ.polled E i = some (t, next, response) ∧ next.toNat ≤ k ∧
    k < next.toNat + response.blocks.length
  recorded : (chain.block k).relevant E σ.canister.listOfSubaccounts = true →
    ∃ tx, σ'.canister.transactions[UInt64.ofNat k]? = some tx ∧
      (σ.canister.transactions[UInt64.ofNat k]? = some tx ∨
        ∃ hash p, tx = (chain.block k).record (UInt64.ofNat k) hash t p)

/-- Some step on the way to a state has gone over block `k`. -/
def Passed (chain : Chain) (t : TokenType) (start : System) (k : Nat) (σ : System) : Prop :=
  ∃ before i after os new os', (machine E).Run (Feeds E chain t) start os before ∧
    (machine E).step before i = some (after, new) ∧ Passes E chain t k before after i ∧
    (machine E).Run (Feeds E chain t) after os' σ

variable {E} {chain : Chain} {t : TokenType} {k : Nat} {start σ σ' : System} {i : Input}
  {os : List Event}

theorem Passed.step (h : Passed E chain t start k σ) (feeds : Feeds E chain t σ i)
    (fires : (machine E).step σ i = some (σ', os)) : Passed E chain t start k σ' := by
  obtain ⟨before, j, after, os₁, new, os₂, hbefore, hstep, hpasses, hrun⟩ := h
  exact ⟨before, j, after, os₁, new, _, hbefore, hstep, hpasses, hrun.step feeds fires⟩

/-- A poll that returns has gone over its window. -/
theorem passes_of_poll {n : Nat} {p : Principal} {next : UInt64} {reply : LedgerReply}
    {response : QueryBlocksResponse} {turn : Turn} (fits : chain.height < 2 ^ 64)
    (feeds : Feeds E chain t σ (.reply n (.ledger reply)))
    (waits : σ.tasks[n]? = some (.poll t p next))
    (answers : queryBlocks E p (pollRequest next) reply = .ok (.ok response))
    (resumes : resumeTask E σ.canister (.poll t p next) (.ledger reply) = some (.ok turn))
    (from_next : next.toNat ≤ k) (below : k < next.toNat + response.blocks.length) :
    Passes E chain t k σ ⟨turn.canister, σ.tasks.set n turn.task⟩ (.reply n (.ledger reply)) := by
  have hpolled : σ.polled E (.reply n (.ledger reply)) = some (t, next, response) := by
    simp [System.polled, waits, answers]
  have hgives := feeds.answers next response hpolled
  refine ⟨⟨next, response, hpolled, from_next, below⟩, fun relevant => ?_⟩
  obtain ⟨hk, hblock⟩ := hgives.getElem? from_next below
  cases resumes_of_ok E resumes with
  | @poll _ _ _ _ answer pt answers' scans =>
    cases answers.symm.trans answers'
    change ∃ tx, (pt.toTurn t).canister.transactions[UInt64.ofNat k]? = some tx ∧ _
    rw [(pt.toTurn_transactions t).1]
    obtain ⟨tx, hheld⟩ := scans.complete hblock relevant
    rw [ofNat_cursor from_next] at hheld
    refine ⟨tx, hheld, ?_⟩
    rcases scans.journal.1.added scans.journal.2 hheld with hold | ⟨hindex, j, hstored⟩
    · exact .inl hold
    · obtain ⟨m, b, hash, hb, -, -, rfl, -⟩ := scans.origin hstored
      obtain ⟨hm, rfl⟩ := hgives m b hb
      have hkey : next + UInt64.ofNat m = UInt64.ofNat k := hindex
      have hnat := congrArg UInt64.toNat hkey
      rw [UInt64.toNat_add, UInt64.toNat_ofNat', UInt64.toNat_ofNat'] at hnat
      obtain rfl : k = next.toNat + m := by omega
      exact .inr ⟨hash, p, by rw [hkey]⟩

/-- What is behind a position of the token has been gone over, from `low` on. -/
def Gapless (E : Externals) (chain : Chain) (t : TokenType) (start : System) (low : Nat)
    (σ : System) : Prop :=
  ∀ x ∈ σ.positions t, ∀ k, low ≤ k → k < x.toNat → Passed E chain t start k σ

theorem gapless_step {low : Nat} {os' : List Event} (fits : chain.height < 2 ^ 64)
    (nonempty : σ.canister.tokenNextBlocks.isEmpty = false)
    (run : (machine E).Run (Feeds E chain t) start os' σ) (feeds : Feeds E chain t σ i)
    (fires : (machine E).step σ i = some (σ', os)) (gapless : Gapless E chain t start low σ) :
    Gapless E chain t start low σ' := by
  intro x hx k from_low below
  rcases (fires_of_step E fires).moved nonempty feeds.cursors hx with
    hold | ⟨n, reply, task, turn, y, rfl, waits, resumes, before, advances⟩
  · exact (gapless x hold k from_low below).step feeds fires
  · have hy : y ∈ σ.positions t := mem_positions.mpr (.inr ⟨task, List.mem_of_getElem? waits, before⟩)
    by_cases hpassed : k < y.toNat
    · exact (gapless y hy k from_low hpassed).step feeds fires
    · rcases advances with rfl | ⟨s, p, ledgerReply, response, rfl, rfl, answers, rfl⟩
      · exact absurd below hpassed
      · obtain ⟨rfl, -⟩ := Task.position_poll.mp before
        have hlength := UInt64.toNat_add y (UInt64.ofNat response.blocks.length)
        rw [UInt64.toNat_ofNat'] at hlength
        have hpasses := passes_of_poll (k := k) fits feeds waits answers resumes (by omega)
          (by omega)
        have hstep := step_of_resumes E waits resumes
        cases hstep.symm.trans fires
        exact ⟨σ, _, _, _, _, [], run, hstep, hpasses, .nil⟩

/-- Take a reachable state in which no position of a token is past `low`. In every run from there,
with the honest answers of the token's ledger and everything else in any order, each block from
`low` on that the cursor is past has been in the window of a poll that went over it. -/
theorem no_gaps (E : Externals) (chain : Chain) {t : TokenType} {low : Nat} {start σ : System}
    {os : List Event} (fits : chain.height < 2 ^ 64) (reachable : Reachable E start)
    (begins : ∀ x ∈ start.positions t, x.toNat ≤ low)
    (run : (machine E).Run (Feeds E chain t) start os σ) :
    ∀ k, low ≤ k → k < (σ.canister.getTokenNextBlock t).toNat → Passed E chain t start k σ := by
  suffices hgapless : σ.canister.tokenNextBlocks.isEmpty = false ∧ Gapless E chain t start low σ from
    fun k from_low below => hgapless.2 _ (mem_positions.mpr (.inl rfl)) k from_low below
  induction run with
  | nil =>
    refine ⟨reachable_cursors reachable, fun x hx k from_low below => ?_⟩
    have := begins x hx
    omega
  | step before feeds fires ih =>
    exact ⟨(fires_of_step E fires).cursors_nonempty ih.1,
      gapless_step fits ih.1 before feeds fires ih.2⟩

open Examples

/-- A ledger of two deposits -/
def twoDeposits : Chain := ⟨fun _ => deposit, 2⟩

theorem no_gaps_deposit : Passed externals twoDeposits .icp Examples.start 1 depositStored := by
  have timer : Feeds externals twoDeposits .icp Examples.start .timer :=
    ⟨fun _ _ h => (nomatch h), fun _ h => (nomatch h)⟩
  have answer : Feeds externals twoDeposits .icp polling (icpAnswer 0) := by
    refine ⟨fun next response h => ?_, fun _ h => (nomatch h)⟩
    have hpolled : polling.polled externals (icpAnswer 0) = some (.icp, 1, responseAt 1 [deposit]) :=
      rfl
    cases hpolled.symm.trans h
    exact twoDeposits.gives_window 1
  have run := (Lib.Machine.Run.nil.step timer polling_step).next answer (by decide +kernel)
  exact no_gaps externals twoDeposits (by decide) ⟨Examples.start, [], start_installed, .nil⟩
    start_behind run 1 (Nat.le_refl 1) (by decide +kernel)

end SubaccountIndexer.Gaps
