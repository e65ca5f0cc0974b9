import SubaccountIndexer.System
import SubaccountIndexer.SweepSpec

/-! What one message can do. `Fires` lists the shapes of a step; the frame lemmas say
which parts of the canister a method or a resumed task leaves alone. Every later
module reasons about steps through these, not through the definitions. -/

namespace SubaccountIndexer

variable (E : Externals)

/-- The steps of the machine, one constructor for each way a message can end -/
inductive Fires (σ : System) : Input → System → List Event → Prop
  | timer (running : σ.canister.timer ≠ none) :
      Fires σ .timer ⟨σ.canister, σ.tasks ++
        (pollsToStart σ.canister).map fun p => .poll p.1 p.2.1 p.2.2⟩ []
  | rejected {caller : Principal} {method : Method} (message : String) :
      Fires σ (.call caller method) ⟨σ.canister, σ.tasks ++ [.finished (.error message)]⟩ []
  | call {caller : Principal} {method : Method} {turn : Turn}
      (allowed : σ.runs E (.call caller method) = some method)
      (runs : runMethod E σ.canister caller method = .ok turn) :
      Fires σ (.call caller method) ⟨turn.canister, σ.tasks ++ [turn.task]⟩ turn.events
  | callTraps {caller : Principal} {method : Method} {trap : Trap}
      (traps : runMethod E σ.canister caller method = .error trap) :
      Fires σ (.call caller method) ⟨σ.canister, σ.tasks ++ [.trapped]⟩ [.trapped trap]
  | reply {n : Nat} {reply : Reply} {task : Task} {turn : Turn} (waits : σ.tasks[n]? = some task)
      (resumes : resumeTask E σ.canister task reply = some (.ok turn)) :
      Fires σ (.reply n reply) ⟨turn.canister, σ.tasks.set n turn.task⟩
        (answeredBlocks E task reply ++ turn.events)
  | replyTraps {n : Nat} {reply : Reply} {task : Task} {trap : Trap}
      (waits : σ.tasks[n]? = some task)
      (resumes : resumeTask E σ.canister task reply = some (.error trap)) :
      Fires σ (.reply n reply) ⟨σ.canister, σ.tasks.set n .trapped⟩
        (answeredBlocks E task reply ++ [.trapped trap])
  | upgrade {caller : Principal} : Fires σ (.upgrade caller) ⟨postUpgrade E σ.canister caller, []⟩ []

/-- The caller check either ends the call or changes nothing. -/
theorem startCall_cases (σ : System) (caller : Principal) (method : Method) :
    (∃ message, startCall E σ.canister caller method = .ok (.done σ.canister (.error message))) ∨
      σ.runs E (.call caller method) = some method ∧
        startCall E σ.canister caller method = runMethod E σ.canister caller method := by
  unfold startCall
  cases hm : method.authenticates with
  | false => exact .inr ⟨by simp [System.runs, hm], rfl⟩
  | true =>
    cases h : authenticate E σ.canister caller with
    | error message => exact .inl ⟨message, rfl⟩
    | ok c' =>
      refine .inr ⟨by simp [System.runs, h, Except.isOk, Except.toBool], ?_⟩
      rw [authenticate_frame h]
      rfl

/-- A call that passes the caller check runs its method on the state it found. -/
theorem startCall_of_runs {σ : System} {caller : Principal} {method m : Method}
    (h : σ.runs E (.call caller method) = some m) :
    startCall E σ.canister caller method = runMethod E σ.canister caller method := by
  unfold startCall
  cases hm : method.authenticates with
  | false => rfl
  | true =>
    cases ha : authenticate E σ.canister caller with
    | error message => simp [System.runs, hm, ha, Except.isOk, Except.toBool] at h
    | ok c' =>
      rw [authenticate_frame ha]
      rfl

theorem step_of_runs {σ : System} {caller : Principal} {method m : Method} {turn : Turn}
    (allowed : σ.runs E (.call caller method) = some m)
    (runs : runMethod E σ.canister caller method = .ok turn) :
    (machine E).step σ (.call caller method) =
      some (⟨turn.canister, σ.tasks ++ [turn.task]⟩, turn.events) := by
  simp only [machine, System.step, startCall_of_runs E allowed, runs, System.settle,
    List.nil_append]

/-- A tick of a running timer adds its polls. -/
theorem step_timer {σ : System} (running : σ.canister.timer ≠ none) :
    (machine E).step σ .timer = some (⟨σ.canister, σ.tasks ++
      (pollsToStart σ.canister).map fun p => .poll p.1 p.2.1 p.2.2⟩, []) := by
  obtain ⟨seconds, hseconds⟩ := Option.ne_none_iff_exists'.mp running
  simp only [machine, System.step, hseconds]

/-- An answer that resumes its task -/
theorem step_of_resumes {σ : System} {n : Nat} {task : Task} {reply : Reply} {turn : Turn}
    (waits : σ.tasks[n]? = some task)
    (resumes : resumeTask E σ.canister task reply = some (.ok turn)) :
    (machine E).step σ (.reply n reply) =
      some (⟨turn.canister, σ.tasks.set n turn.task⟩,
        answeredBlocks E task reply ++ turn.events) := by
  simp only [machine, System.step, waits, resumes, Option.map_some, System.settle]

theorem fires_of_step {σ σ' : System} {i : Input} {os : List Event}
    (h : (machine E).step σ i = some (σ', os)) : Fires E σ i σ' os := by
  cases i with
  | timer =>
    simp only [machine, System.step] at h
    split at h
    · cases h
    · rename_i seconds hs
      simp only [Option.some.injEq, Prod.mk.injEq] at h
      obtain ⟨rfl, rfl⟩ := h
      exact .timer (by simp [hs])
  | call caller method =>
    simp only [machine, System.step, Option.some.injEq] at h
    rcases startCall_cases E σ caller method with ⟨message, hr⟩ | ⟨allowed, hr⟩
    · rw [hr] at h
      simp only [System.settle, Turn.done, Prod.mk.injEq, List.append_nil] at h
      obtain ⟨rfl, rfl⟩ := h
      exact .rejected message
    · rw [hr] at h
      cases hm : runMethod E σ.canister caller method with
      | ok turn =>
        simp only [hm, System.settle, List.nil_append, Prod.mk.injEq] at h
        obtain ⟨rfl, rfl⟩ := h
        exact .call allowed hm
      | error trap =>
        simp only [hm, System.settle, List.nil_append, Prod.mk.injEq] at h
        obtain ⟨rfl, rfl⟩ := h
        exact .callTraps hm
  | reply n reply =>
    simp only [machine, System.step] at h
    split at h
    · cases h
    · rename_i task waits
      obtain ⟨outcome, hr, hs⟩ := Option.map_eq_some_iff.mp h
      cases outcome with
      | ok turn =>
        simp only [System.settle, Prod.mk.injEq] at hs
        obtain ⟨rfl, rfl⟩ := hs
        exact .reply waits hr
      | error trap =>
        simp only [System.settle, Prod.mk.injEq] at hs
        obtain ⟨rfl, rfl⟩ := hs
        exact .replyTraps waits hr
  | upgrade caller =>
    simp only [machine, System.step, Option.some.injEq, Prod.mk.injEq] at h
    obtain ⟨rfl, rfl⟩ := h
    exact .upgrade

/-! ## What the methods write -/

def Method.writesStore : Method → Bool
  | .clearTransactions .. | .setSweepFailed _ => true
  | _ => false

def Method.writesCursors : Method → Bool
  | .setTokenNextBlockUpdate .. | .resetTokenBlocks => true
  | _ => false

def Method.writesLedgers : Method → Bool
  | .registerToken .. => true
  | _ => false

def Method.writesSubaccounts : Method → Bool
  | .addSubaccount _ => true
  | _ => false

/-- The canister after a method, up to its first await or its end -/
inductive Writes (c : Canister) : Method → Canister → Prop
  | same {method : Method} : Writes c method c
  | nextBlock {block : UInt64} : Writes c (.setNextBlock block) { c with nextBlock := block }
  | webhookUrl {url : String} : Writes c (.setWebhookUrl url) { c with webhookUrl := url }
  | interval {seconds : UInt64} : Writes c (.setInterval seconds) (setInterval c seconds)
  | subaccount {t : Option TokenType} : Writes c (.addSubaccount t) (addSubaccount E c t).canister
  | store {method : Method} {transactions : Transactions} (writes : method.writesStore = true) :
      Writes c method { c with transactions }
  | ledger {t : TokenType} {text : String} {tokenLedgerPrincipals : TokenLedgers} :
      Writes c (.registerToken t text) { c with tokenLedgerPrincipals }
  | cursor {t : TokenType} {block : UInt64} :
      Writes c (.setTokenNextBlockUpdate t block) (c.setTokenNextBlock t block)
  | reset : Writes c .resetTokenBlocks (resetTokenBlocks c)

variable {c : Canister} {caller : Principal} {method : Method} {turn : Turn}

theorem sweepTxs_canister (c : Canister) (results : List String) (txs : List StoredTransactions) :
    (sweepTxs E c results txs).canister = c := by
  cases txs with
  | nil => rfl
  | cons tx rest =>
    simp only [sweepTxs]
    split <;> rfl

theorem refund_canister {index : UInt64} {turn : RefundTurn}
    (h : refund E c index = .ok turn) : turn.canister = c := by
  cases refund_run h <;> rfl

theorem setWebhookUrl_writes (c : Canister) (url : String) :
    Writes E c (.setWebhookUrl url) (setWebhookUrl E c url).canister := by
  unfold setWebhookUrl
  repeat' split
  all_goals first | exact .same | exact .webhookUrl

theorem registerToken_writes (c : Canister) (t : TokenType) (text : String) :
    Writes E c (.registerToken t text) (registerToken E c t text).canister := by
  unfold registerToken
  split
  · exact .same
  · exact .ledger

theorem sweepSubaccount_canister (c : Canister) (hex : String) (amount : Float)
    (t : Option TokenType) : (sweepSubaccount E c hex amount t).canister = c := by
  unfold sweepSubaccount
  dsimp only
  repeat' split
  all_goals rfl

/-- `set_sweep_failed` writes all its records back, or panics at one that is too long. -/
theorem setSweepFailed_ok {txHashArg : String}
    (h : runMethod E c caller (.setSweepFailed txHashArg) = .ok turn) :
    (∀ tx ∈ hashSelection c txHashArg, tx.Fits) ∧ ∃ lines, turn =
      ⟨{ c with transactions := (failedRecorded c.transactions (hashSelection c txHashArg)).1 },
        .finished (.ok (.lines lines)),
        (failedRecorded c.transactions (hashSelection c txHashArg)).2⟩ := by
  obtain ⟨written, hwritten, h⟩ := bind_eq_ok h
  rcases setSweepFailedTxs_isOk c.transactions [] (hashSelection c txHashArg) with
    ⟨hfits, lines, hok⟩ | ⟨-, trap, herror⟩
  · rw [hok] at hwritten
    cases hwritten
    cases h
    exact ⟨hfits, lines, rfl⟩
  · rw [herror] at hwritten
    cases hwritten

theorem runMethod_writes (h : runMethod E c caller method = .ok turn) :
    Writes E c method turn.canister := by
  cases method with
  | setWebhookUrl url => cases h; exact setWebhookUrl_writes E c url
  | registerToken t text => cases h; exact registerToken_writes E c t text
  | refund index =>
    simp only [runMethod] at h
    cases hr : refund E c index with
    | error trap => rw [hr] at h; cases h
    | ok r =>
      rw [hr] at h
      cases h
      rw [show r.toTurn.canister = c from refund_canister E hr]
      exact .same
  | sweep | singleSweep _ | sweepByTokenType _ =>
    cases h
    simp only [SweepTurn.toTurn, sweepTxs_canister]
    exact .same
  | sweepSubaccount hex amount t =>
    cases h
    rw [sweepSubaccount_canister]
    exact .same
  | clearTransactions _ _ => cases h; exact .store rfl
  | setSweepFailed _ =>
    obtain ⟨-, lines, rfl⟩ := setSweepFailed_ok E h
    exact .store rfl
  | setCustodianPrincipal _ | processTokenArchivedBlock _ _ => cases h; exact .same
  | setNextBlock _ => cases h; exact .nextBlock
  | setInterval _ => cases h; exact .interval
  | addSubaccount _ => cases h; exact .subaccount
  | setTokenNextBlockUpdate _ _ => cases h; exact .cursor
  | resetTokenBlocks => cases h; exact .reset

/-- The parts of the canister a method leaves alone. -/
structure MethodFrame (method : Method) (c c' : Canister) : Prop where
  principal : c'.principal = c.principal
  transactions : method.writesStore = false → c'.transactions = c.transactions
  cursors : method.writesCursors = false → c'.tokenNextBlocks = c.tokenNextBlocks
  ledgers : method.writesLedgers = false → c'.tokenLedgerPrincipals = c.tokenLedgerPrincipals
  nonce : method.writesSubaccounts = false → c'.lastSubaccountNonce = c.lastSubaccountNonce
  subaccounts : method.writesSubaccounts = false → c'.listOfSubaccounts = c.listOfSubaccounts

theorem Writes.frame {c' : Canister} (h : Writes E c method c') : MethodFrame method c c' := by
  cases h with
  | store writes =>
    exact ⟨rfl, fun h => absurd (h.symm.trans writes) Bool.false_ne_true, fun _ => rfl,
      fun _ => rfl, fun _ => rfl, fun _ => rfl⟩
  | subaccount => exact ⟨rfl, fun _ => rfl, fun _ => rfl, fun _ => rfl, nofun, nofun⟩
  | ledger => exact ⟨rfl, fun _ => rfl, fun _ => rfl, nofun, fun _ => rfl, fun _ => rfl⟩
  | cursor | reset => exact ⟨rfl, fun _ => rfl, nofun, fun _ => rfl, fun _ => rfl, fun _ => rfl⟩
  | same | nextBlock | webhookUrl | interval =>
    exact ⟨rfl, fun _ => rfl, fun _ => rfl, fun _ => rfl, fun _ => rfl, fun _ => rfl⟩

theorem runMethod_frame (h : runMethod E c caller method = .ok turn) :
    MethodFrame method c turn.canister := (runMethod_writes E h).frame

end SubaccountIndexer
