import SubaccountIndexer.CatchUp
import SubaccountIndexer.DepositsOnly

/-! Where a token comes to a stop. A block that concerns a subaccount and is no transfer makes
every poll panic whose window it is in. The poll is rolled back, the next one starts where it
did, and no interleaving of messages gets the polls past the block. -/

namespace SubaccountIndexer.Stall
open CatchUp (Chain start_behind)
open DepositsOnly (Listed NonceFits includesHash_mono installed_listed listed_step)

variable (E : Externals)

/-- The polls of the token are answered with blocks of its chain from the number they ask for on, if
they are answered at all; no administrator writes the cursors, and the nonce does not wrap around. -/
structure Honest (chain : Chain) (t : TokenType) (σ : System) (i : Input) : Prop where
  answers : ∀ next response, σ.polled E i = some (t, next, response) →
    chain.Gives next.toNat response.blocks
  cursors : ∀ method, σ.runs E i = some method → method.writesCursors = false
  nonce : NonceFits E σ i

/-- Block `k` makes polls panic, and all positions of the token are before it. -/
structure Barred (chain : Chain) (t : TokenType) (k : Nat) (σ : System) : Prop where
  panics : (chain.block k).panics E σ.canister.listOfSubaccounts = true
  within : k < chain.height
  behind : ∀ x ∈ σ.positions t, x.toNat ≤ k

/-- What the invariant of a stalled token rests on -/
structure Sound (σ : System) : Prop where
  listed : Listed E σ.canister
  keyed : Keyed σ.canister.transactions
  nonempty : σ.canister.tokenNextBlocks.isEmpty = false

variable {E} {chain : Chain} {t : TokenType} {p : Principal} {k : Nat} {σ σ' : System} {i : Input}
  {os : List Event} {list list' : Subaccounts}

/-! ## The list -/

theorem subaccountExist_mono (grows : ∀ key, list.contains key = true → list'.contains key = true)
    {operation : Operation} (h : subaccountExist E list operation = true) :
    subaccountExist E list' operation = true := by
  have hmono := fun v => includesHash_mono (E := E) grows (v := v)
  cases operation with
  | approve data =>
    simp only [subaccountExist, Bool.or_eq_true] at h ⊢
    exact h.imp (hmono _) (hmono _)
  | mint data => exact hmono _ h
  | burn data | transfer data =>
    simp only [subaccountExist, Bool.or_eq_true, Option.any_eq_true] at h ⊢
    refine h.imp (hmono _) ?_
    rintro ⟨spender, hspender, hlisted⟩
    exact ⟨spender, hspender, hmono _ hlisted⟩

/-- A block that makes polls panic does so from then on. -/
theorem panics_mono (grows : ∀ key, list.contains key = true → list'.contains key = true) {b : Block}
    (h : b.panics E list = true) : b.panics E list' = true := by
  simp only [Block.panics, Block.relevant, Bool.and_eq_true, Option.any_eq_true] at h ⊢
  obtain ⟨⟨operation, hoperation, hexist⟩, hother⟩ := h
  exact ⟨⟨operation, hoperation, subaccountExist_mono grows hexist⟩, hother⟩

/-! ## One step -/

theorem sound_step (h : Fires E σ i σ' os) (fits : NonceFits E σ i) (sound : Sound E σ) :
    Sound E σ' :=
  ⟨(listed_step sound.listed fits h).1, keyed_step sound.keyed h, h.cursors_nonempty sound.nonempty⟩

/-- A poll that has not panicked has met no block that makes it. -/
theorem quiet_of_resumes {next : UInt64} {reply : LedgerReply} {response : QueryBlocksResponse}
    {c : Canister} {turn : Turn}
    (answers : queryBlocks E p (pollRequest next) reply = .ok (.ok response))
    (resumes : resumeTask E c (.poll t p next) (.ledger reply) = some (.ok turn)) :
    ∀ b ∈ response.blocks, b.panics E c.listOfSubaccounts = false := by
  refine Quiet.transfers ((queryTokenLedger_isOk (E := E) (c := c) t p next).mp ?_)
  simp only [resumeTask, answers, bind, Except.bind, Option.some.injEq] at resumes
  split at resumes
  · cases resumes
  · exact ⟨_, ‹_›⟩

/-- The window of a poll that has not panicked ends before the block. -/
theorem Barred.window {next : UInt64} {response : QueryBlocksResponse} {reply : LedgerReply} {n : Nat}
    {turn : Turn} (barred : Barred E chain t k σ) (honest : Honest E chain t σ (.reply n (.ledger reply)))
    (waits : σ.tasks[n]? = some (.poll t p next))
    (answers : queryBlocks E p (pollRequest next) reply = .ok (.ok response))
    (resumes : resumeTask E σ.canister (.poll t p next) (.ledger reply) = some (.ok turn)) :
    next.toNat + response.blocks.length ≤ k := by
  have hgives := honest.answers next response (by simp [System.polled, waits, answers])
  have hlow : next.toNat ≤ k := barred.behind next
    (mem_positions.mpr (.inr ⟨_, List.mem_of_getElem? waits, if_pos rfl⟩))
  by_contra hpast
  obtain ⟨-, hblock⟩ := hgives.getElem? hlow (Nat.lt_of_not_le hpast)
  have hquiet := quiet_of_resumes answers resumes _ (List.mem_of_getElem? hblock)
  rw [barred.panics] at hquiet
  cases hquiet

theorem barred_step (h : Fires E σ i σ' os) (sound : Sound E σ) (honest : Honest E chain t σ i)
    (fits : chain.height < 2 ^ 64) (barred : Barred E chain t k σ) : Barred E chain t k σ' := by
  obtain ⟨-, hgrows⟩ := listed_step sound.listed honest.nonce h
  refine ⟨panics_mono hgrows barred.panics, barred.within, fun x hx => ?_⟩
  rcases h.moved sound.nonempty honest.cursors hx with
    hold | ⟨n, reply, task, turn, y, rfl, waits, resumes, before, advances⟩
  · exact barred.behind x hold
  · rcases advances with rfl | ⟨s, p, ledgerReply, response, rfl, rfl, answers, rfl⟩
    · exact barred.behind x (mem_positions.mpr (.inr ⟨task, List.mem_of_getElem? waits, before⟩))
    · obtain ⟨rfl, -⟩ := Task.position_poll.mp before
      have hwindow := barred.window honest waits answers resumes
      have := barred.within
      rw [UInt64.toNat_add, UInt64.toNat_ofNat']
      omega

/-- The poll behind an answer with blocks -/
theorem exists_poll_of_polled {next : UInt64} {response : QueryBlocksResponse}
    (polled : σ.polled E i = some (t, next, response)) : ∃ n p reply,
      i = .reply n (.ledger reply) ∧ σ.tasks[n]? = some (.poll t p next) ∧
        queryBlocks E p (pollRequest next) reply = .ok (.ok response) := by
  unfold System.polled at polled
  split at polled
  · rename_i n reply
    split at polled
    · split at polled
      · cases polled
        exact ⟨n, _, reply, rfl, ‹_›, ‹_›⟩
      · cases polled
    · cases polled
  · cases polled

/-- What an answered poll of the token stores comes before the block. -/
theorem stored_before (h : Fires E σ i σ' os) (sound : Sound E σ) (honest : Honest E chain t σ i)
    (fits : chain.height < 2 ^ 64) (barred : Barred E chain t k σ) {next : UInt64}
    {response : QueryBlocksResponse} (polled : σ.polled E i = some (t, next, response))
    {tx : StoredTransactions} {j : UInt64} (stored : .stored tx j ∈ os) : tx.index.toNat < k := by
  have hevent := h.event sound.keyed _ stored
  obtain ⟨n, p, reply, rfl, hpoll, answers⟩ := exists_poll_of_polled polled
  cases h with
  | replyTraps waits resumes =>
    rcases List.mem_append.mp stored with stored | stored
    · obtain ⟨s, next', blocks, heq⟩ := answeredBlocks_events _ _ _ stored
      cases heq
    · cases List.mem_singleton.mp stored
  | reply waits resumes =>
    cases hpoll.symm.trans waits
    cases hevent with
    | archived input => cases input
    | @polled m s q next' response' k' b hash waits' polled' block =>
      cases polled.symm.trans polled'
      have hlength := (List.getElem?_eq_some_iff.mp block).1
      have hwindow := barred.window honest waits answers resumes
      have hwithin := barred.within
      change (next + UInt64.ofNat k').toNat < k
      rw [UInt64.toNat_add, UInt64.toNat_ofNat']
      omega

/-! ## Runs -/

theorem installed_sound (h : Installed E σ) : Sound E σ :=
  ⟨installed_listed h, by simp [h.canister.2.1, keyed_empty], h.canister.2.2.1⟩

theorem sound_run {G : System → Input → Prop} (sound : Sound E σ) (run : (machine E).Run G σ os σ')
    (fits : ∀ σ i, G σ i → NonceFits E σ i) : Sound E σ' :=
  run.invariant (P := Sound E) sound fun _ _ _ _ hsound guard fires =>
    sound_step (fires_of_step E fires) (fits _ _ guard) hsound

/-- Once a block of an honestly answered token makes polls panic and no position of the token is
past it, none ever is: the cursor stays before the block, and no answered poll stores a record of
it or of a later block. -/
theorem barrier_holds (E : Externals) (chain : Chain) {t : TokenType} {k : Nat}
    {start σ σ' : System} {os₀ os : List Event} (fits : chain.height < 2 ^ 64)
    (installed : Installed E start) (before : (machine E).Run (NonceFits E) start os₀ σ)
    (barred : Barred E chain t k σ) (run : (machine E).Run (Honest E chain t) σ os σ') :
    Barred E chain t k σ' ∧ (σ'.canister.getTokenNextBlock t).toNat ≤ k ∧
      ∀ i σ'' new, Honest E chain t σ' i → (machine E).step σ' i = some (σ'', new) →
        ∀ next response, σ'.polled E i = some (t, next, response) →
          ∀ tx j, .stored tx j ∈ new → tx.index.toNat < k := by
  have hsound := sound_run (installed_sound installed) before fun _ _ fits => fits
  obtain ⟨hsound', hbarred⟩ := run.invariant (P := fun σ => Sound E σ ∧ Barred E chain t k σ)
    ⟨hsound, barred⟩ fun s i s' os' ⟨hs, hb⟩ honest fires =>
      ⟨sound_step (fires_of_step E fires) honest.nonce hs,
        barred_step (fires_of_step E fires) hs honest fits hb⟩
  refine ⟨hbarred, hbarred.behind _ (mem_positions.mpr (.inl rfl)), ?_⟩
  intro i σ'' new honest fires next response polled tx j stored
  exact stored_before (fires_of_step E fires) hsound' honest fits hbarred polled stored

open Examples

/-- A ledger whose block 1 is an approval by a subaccount, with a deposit behind it -/
def approvalFirst : Chain := ⟨fun i => if i = 1 then approval else deposit, 3⟩

/-- The ledger answers the first poll. -/
abbrev approvalAnswer : Input := .reply 0 (blocksReply 1 [approval, deposit])

theorem barrier_holds_approval :
    Barred externals approvalFirst .icp 1 ((machine externals).after polling approvalAnswer) ∧
      (((machine externals).after polling approvalAnswer).canister.getTokenNextBlock .icp).toNat ≤
        1 := by
  have barred : Barred externals approvalFirst .icp 1 start :=
    ⟨by decide +kernel, by decide, start_behind⟩
  have timer : Honest externals approvalFirst .icp start .timer :=
    ⟨fun _ _ h => (nomatch h), fun _ h => (nomatch h), fun _ h => (nomatch h)⟩
  have answer : Honest externals approvalFirst .icp polling approvalAnswer := by
    refine ⟨fun next response h => ?_, fun _ h => (nomatch h), fun _ h => (nomatch h)⟩
    have hpolled : polling.polled externals approvalAnswer =
        some (.icp, 1, responseAt 1 [approval, deposit]) := rfl
    cases hpolled.symm.trans h
    exact approvalFirst.gives_window 1
  have run := (Lib.Machine.Run.nil.step timer polling_step).next answer (by decide +kernel)
  obtain ⟨hbarred, hcursor, -⟩ :=
    barrier_holds externals approvalFirst (by decide) start_installed .nil barred run
  exact ⟨hbarred, hcursor⟩

end SubaccountIndexer.Stall
