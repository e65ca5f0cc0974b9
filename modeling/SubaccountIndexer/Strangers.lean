import SubaccountIndexer.Custody
import SubaccountIndexer.Custodian

/-! A canister of the main network that its custodian leaves alone. Others call it, its polls go
on, it is upgraded, and a controller may even name another custodian: as long as no custodian
calls, no money moves, no record is lost or rewritten, and no setting changes. -/

namespace SubaccountIndexer.Strangers

variable (E : Externals)

/-- Whoever calls is not the custodian of that moment. -/
def Strange (σ : System) : Input → Prop
  | .call caller _ => σ.canister.custodianPrincipal ≠ some caller
  | _ => True

/-- A task that moves no money and takes no block from an archive -/
def unpaid : Task → Bool
  | .sweep .. | .refund _ | .archive _ | .sweepSubaccount _ => false
  | _ => true

/-- What an event may be while no custodian calls -/
inductive Harmless : Event → Prop
  | answered {t : TokenType} {next : UInt64} {blocks : List Block} :
      Harmless (.answered t next blocks)
  | stored {tx : StoredTransactions} {j : UInt64} : Harmless (.stored tx j)
  | webhook {hash : String} : Harmless (.webhook hash)
  | trapped {trap : Trap} : Harmless (.trapped trap)

/-- What stays of a canister: its settings, its records, and its subaccounts as an upgrade
rebuilds them -/
structure Untouched (c c' : Canister) : Prop where
  nonce : c'.lastSubaccountNonce = c.lastSubaccountNonce
  ledgers : c'.tokenLedgerPrincipals = c.tokenLedgerPrincipals
  webhookUrl : c'.webhookUrl = c.webhookUrl
  principal : c'.principal = c.principal
  subaccounts : c'.listOfSubaccounts = c.listOfSubaccounts ∨
    c'.listOfSubaccounts = reconstructUpTo E c.lastSubaccountNonce.toNat ∅
  records : ∀ (k : UInt64) tx, c.transactions[k]? = some tx → c'.transactions[k]? = some tx

/-- A canister of the main network in which no message moves money -/
structure Alone (σ : System) : Prop where
  main : σ.canister.OnMainnet
  keyed : Keyed σ.canister.transactions
  unpaid : ∀ task ∈ σ.tasks, unpaid task = true

variable {E} {c c' c'' : Canister} {turn : Turn} {σ σ' : System} {i : Input} {os : List Event}

theorem Untouched.refl (c : Canister) : Untouched E c c :=
  ⟨rfl, rfl, rfl, rfl, .inl rfl, fun _ _ h => h⟩

theorem Untouched.trans (h : Untouched E c c') (h' : Untouched E c' c'') : Untouched E c c'' where
  nonce := h'.nonce.trans h.nonce
  ledgers := h'.ledgers.trans h.ledgers
  webhookUrl := h'.webhookUrl.trans h.webhookUrl
  principal := h'.principal.trans h.principal
  subaccounts := by
    rcases h'.subaccounts with hsame | hrebuilt
    · rw [hsame]
      exact h.subaccounts
    · rw [hrebuilt, h.nonce]
      exact .inr rfl
  records k tx hheld := h'.records k tx (h.records k tx hheld)

theorem Harmless.rewrites {e : Event} (h : Harmless e) : e.rewrites = none := by
  cases h <;> rfl

theorem journal_records {store store' : Transactions} (h : StoreJournal store os store')
    (harmless : ∀ e ∈ os, Harmless e) {k : UInt64} {tx : StoredTransactions}
    (held : store[k]? = some tx) : store'[k]? = some tx :=
  h.keep held fun e he => by simp [(harmless e he).rewrites]

/-! ## Steps -/

/-- A stranger gets no further than asking for the controllers. -/
theorem stranger_runs {caller : Principal} {method : Method} (main : σ.canister.OnMainnet)
    (strange : σ.canister.custodianPrincipal ≠ some caller)
    (allowed : σ.runs E (.call caller method) = some method) :
    ∃ text, method = .setCustodianPrincipal text := by
  cases hmethod : method.authenticates with
  | false =>
    cases method with
    | setCustodianPrincipal text => exact ⟨text, rfl⟩
    | _ => cases hmethod
  | true =>
    obtain ⟨message, hrefused⟩ := authenticate_refuses (E := E) main strange
    simp [System.runs, hmethod, hrefused, Except.isOk, Except.toBool] at allowed

theorem ResumeWrites.webhookUrl {task : Task} {reply : Reply} (h : ResumeWrites E c task reply c') :
    c'.webhookUrl = c.webhookUrl := by
  exact h.keeps (P := fun c' => c'.webhookUrl = c.webhookUrl) (fun _ => rfl) (fun _ _ _ => rfl)
    fun _ => rfl

/-- An unpaid task stays one, and its events are harmless. -/
theorem Resumes.harmless {task : Task} {reply : Reply} (h : Resumes E c task reply turn)
    (quiet : unpaid task = true) :
    unpaid turn.task = true ∧ ∀ e ∈ turn.events, Harmless e := by
  cases h with
  | @poll t p next ledgerReply answer pt answers scans =>
    rw [(pt.toTurn_transactions t).2]
    refine ⟨?_, fun e he => ?_⟩
    · unfold PollTurn.toTurn
      split <;> rfl
    · rcases scans.events e he with ⟨tx, j, rfl⟩ | ⟨hash, rfl⟩
      · exact .stored
      · exact .webhook
  | webhook => exact ⟨rfl, List.forall_mem_nil _⟩
  | sweep | refund | archive | sweepSubaccount => cases quiet
  | setCustodian =>
    unfold setCustodianReply
    dsimp only
    repeat' split
    all_goals exact ⟨rfl, List.forall_mem_nil _⟩

theorem answeredBlocks_harmless (task : Task) (reply : Reply) :
    ∀ e ∈ answeredBlocks E task reply, Harmless e := by
  intro e he
  obtain ⟨t, next, blocks, rfl⟩ := answeredBlocks_events _ _ e he
  exact .answered

theorem postUpgrade_webhookUrl (c : Canister) (caller : Principal) :
    (postUpgrade E c caller).webhookUrl = c.webhookUrl := by
  have hensure : ∀ c, (ensureCustodian c caller).webhookUrl = c.webhookUrl := fun c => by
    unfold ensureCustodian
    split <;> rfl
  have hmigrate : ∀ c, (migrateBlockTracking c).webhookUrl = c.webhookUrl := fun c => by
    unfold migrateBlockTracking
    split <;> rfl
  unfold postUpgrade
  dsimp only
  rw [hensure, hmigrate]
  rcases upgradeInterval_cases (E := E) c.resetHeap caller with heq | heq <;> rw [heq] <;> rfl

theorem alone_step (alone : Alone σ) (strange : Strange σ i) (h : Fires E σ i σ' os) :
    Alone σ' ∧ Untouched E σ.canister σ'.canister ∧ ∀ e ∈ os, Harmless e := by
  have hkeyed := keyed_step alone.keyed h
  have hmain := onMainnet_step h alone.main
  have hset : ∀ {n : Nat} {task : Task}, unpaid task = true →
      ∀ other ∈ σ.tasks.set n task, unpaid other = true := fun htask other hmem => by
    rcases List.mem_or_eq_of_mem_set hmem with hmem | rfl
    · exact alone.unpaid other hmem
    · exact htask
  have happend : ∀ {new : List Task}, (∀ task ∈ new, unpaid task = true) →
      ∀ other ∈ σ.tasks ++ new, unpaid other = true := fun hnew other hmem =>
    (List.mem_append.mp hmem).elim (alone.unpaid other) (hnew other)
  cases h with
  | timer running =>
    refine ⟨⟨hmain, hkeyed, happend fun task hmem => ?_⟩, .refl _, List.forall_mem_nil _⟩
    obtain ⟨p, -, rfl⟩ := List.mem_map.mp hmem
    rfl
  | rejected message => exact ⟨⟨hmain, hkeyed, happend (by simp [unpaid])⟩, .refl _, List.forall_mem_nil _⟩
  | callTraps traps =>
    exact ⟨⟨hmain, hkeyed, happend (by simp [unpaid])⟩, .refl _, by simpa using .trapped⟩
  | call allowed runs =>
    obtain ⟨text, rfl⟩ := stranger_runs alone.main strange allowed
    cases runs
    exact ⟨⟨hmain, hkeyed, happend (by simp [unpaid])⟩, .refl _, List.forall_mem_nil _⟩
  | @reply n reply task turn waits resumes =>
    have hresumes := resumes_of_ok E resumes
    obtain ⟨hunpaid, hevents⟩ :=
      Resumes.harmless hresumes (alone.unpaid task (List.mem_of_getElem? waits))
    have hframe := hresumes.frame
    refine ⟨⟨hmain, hkeyed, hset hunpaid⟩, ?_, fun e he => ?_⟩
    · exact ⟨hframe.nonce, hframe.ledgers, ResumeWrites.webhookUrl hresumes.writesTo,
        hframe.principal, .inl hframe.subaccounts,
        fun k tx hheld => journal_records hresumes.journal hevents hheld⟩
    · rcases List.mem_append.mp he with he | he
      · exact answeredBlocks_harmless task reply e he
      · exact hevents e he
  | @replyTraps n reply task trap waits resumes =>
    refine ⟨⟨hmain, hkeyed, hset rfl⟩, .refl _, fun e he => ?_⟩
    rcases List.mem_append.mp he with he | he
    · exact answeredBlocks_harmless task reply e he
    · obtain rfl := List.mem_singleton.mp he
      exact .trapped
  | @upgrade caller =>
    have hframe := postUpgrade_frame (E := E) σ.canister caller
    refine ⟨⟨hmain, hkeyed, List.forall_mem_nil _⟩, ?_, List.forall_mem_nil _⟩
    exact ⟨hframe.nonce, hframe.ledgers, postUpgrade_webhookUrl _ _, hframe.principal,
      .inr hframe.subaccounts, fun k tx hheld => by rw [hframe.transactions]; exact hheld⟩

end SubaccountIndexer.Strangers
