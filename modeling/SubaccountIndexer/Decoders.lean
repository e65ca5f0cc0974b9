import SubaccountIndexer.Adapter

/-! The two decoders of ICRC-3 blocks side by side. They differ in the arrays they take a
recipient from: the archive path accepts an owner alone, the live path does not. -/

namespace SubaccountIndexer.Decoders
open Lib (lastOf)
open Adapter (valueAt blockFields_tx)

/-! ## What the entries of a `tx` map say -/

abbrev Entry := String × Icrc3Value

/-- The operation text of an `op` entry -/
def opText : Entry → Option String
  | ("op", .text op) => some op
  | _ => none

/-- The owner a `from` entry names -/
def senderOf : Entry → Option Blob
  | ("from", .array (.blob owner :: _)) => some owner
  | _ => none

/-- The values of a `to` array -/
def toArray : Entry → Option (List Icrc3Value)
  | ("to", .array values) => some values
  | _ => none

theorem opText_other {entry : Entry} (h : entry.1 ≠ "op") : opText entry = none := by
  unfold opText
  split
  · exact absurd rfl h
  · rfl

theorem toArray_other {entry : Entry} (h : entry.1 ≠ "to") : toArray entry = none := by
  unfold toArray
  split
  · exact absurd rfl h
  · rfl

/-- The owner and the subaccount of an array that starts with an owner -/
def recipient : List Icrc3Value → Option (Blob × Subaccount)
  | .blob owner :: .blob subaccount :: _ => some (owner, Icrc3.subaccountOfBlob subaccount)
  | .blob owner :: _ => some (owner, DEFAULT_SUBACCOUNT)
  | _ => none

/-- The same, of an array that starts with an owner and a subaccount -/
def fullRecipient : List Icrc3Value → Option (Blob × Subaccount)
  | .blob owner :: .blob subaccount :: _ => some (owner, Icrc3.subaccountOfBlob subaccount)
  | _ => none

/-- The last recipient of a map, among the arrays `read` accepts -/
def lastRecipient (read : List Icrc3Value → Option (Blob × Subaccount)) (txMap : List Entry) :
    Option (Blob × Subaccount) :=
  lastOf (fun entry => (toArray entry).bind read) txMap

/-- An entry whose owner is no longer than a principal -/
def Fits (read : List Icrc3Value → Option (Blob × Subaccount)) (entry : Entry) : Prop :=
  (∀ owner, senderOf entry = some owner → owner.length ≤ 29) ∧
    ∀ account, (toArray entry).bind read = some account → account.1.length ≤ 29

variable (E : Externals)

/-- A decoder that reads `to` from the arrays `read` accepts -/
def readVia (read : List Icrc3Value → Option (Blob × Subaccount)) (values : List Icrc3Value) :
    Except Trap (Option Blob) :=
  match read values with
  | some account => (Icrc3.accountBytes E account.1 account.2).map some
  | none => .ok none

/-- The archive path has a block exactly if the live path has it as a transfer. -/
def Agree (block : Icrc3BlockWithId) : Prop :=
  ∀ b : Block, icrc3BlockToBlock E block = .ok (some b) ↔
    Icrc3.liveBlock E block.block = .ok (some b) ∧
      b.transaction.operation.any Operation.isTransfer = true

variable {E} {readOp readOp' : String → String} {acc acc' next next' : Icrc3.TxFields}
  {read : List Icrc3Value → Option (Blob × Subaccount)}
  {readTo readTo' : List Icrc3Value → Except Trap (Option Blob)} {entry : Entry}
  {txMap : List Entry}

theorem liveTo_eq : Icrc3.liveTo E = readVia E fullRecipient := by
  funext values
  unfold Icrc3.liveTo
  split
  · rfl
  · rename_i hother
    have hnone : fullRecipient values = none := by
      unfold fullRecipient
      split
      · exact absurd rfl (hother _ _ _)
      · rfl
    rw [readVia, hnone]

theorem archiveTo_eq : Icrc3.archiveTo E = readVia E recipient := by
  funext values
  unfold Icrc3.archiveTo
  split
  · rename_i owner rest
    cases rest with
    | nil => rfl
    | cons value rest => cases value <;> rfl
  · rename_i hother
    have hnone : recipient values = none := by
      unfold recipient
      split
      · exact absurd rfl (hother _ _)
      · exact absurd rfl (hother _ _)
      · rfl
    rw [readVia, hnone]

theorem accountBytes_isOk (owner : Blob) (subaccount : Subaccount) :
    (∃ bytes, Icrc3.accountBytes E owner subaccount = .ok bytes) ↔ owner.length ≤ 29 := by
  by_cases hfits : owner.length ≤ 29
  · simp [Icrc3.accountBytes, Principal.fromSlice, hfits, Except.map]
  · simp [Icrc3.accountBytes, Principal.fromSlice, hfits, Except.map]

/-! ## One turn of the loop over a `tx` map -/

/-- A turn panics only on an owner that is too long. -/
theorem txField_isOk :
    (∃ next, Icrc3.txField E readOp (readVia E read) acc entry = .ok next) ↔
      Fits read entry := by
  obtain ⟨key, value⟩ := entry
  unfold Icrc3.txField
  dsimp only
  split
  · simp [Fits, senderOf, toArray]
  · rename_i owner rest
    have hfits : Fits read ("from", .array (.blob owner :: rest)) ↔ owner.length ≤ 29 := by
      simp [Fits, senderOf, toArray]
    rw [hfits, ← accountBytes_isOk (E := E) owner DEFAULT_SUBACCOUNT]
    cases Icrc3.accountBytes E owner DEFAULT_SUBACCOUNT <;> simp [bind, Except.bind]
  · rename_i values
    have hfits : Fits read ("to", .array values) ↔
        ∀ account, read values = some account → account.1.length ≤ 29 := by
      simp [Fits, senderOf, toArray]
    rw [hfits]
    cases hread : read values with
    | none => simp [readVia, hread, bind, Except.bind]
    | some account =>
      have hbytes := accountBytes_isOk (E := E) account.1 account.2
      simp only [readVia, hread, Option.some.injEq, forall_eq', ← hbytes]
      cases Icrc3.accountBytes E account.1 account.2 <;> simp [bind, Except.bind, Except.map]
  · simp [Fits, senderOf, toArray]
  · simp [Fits, senderOf, toArray]
  · simp [Fits, senderOf, toArray]
  · rename_i hfrom hto _ _ _
    refine iff_of_true ⟨acc, rfl⟩ ⟨fun owner howner => ?_, fun account haccount => ?_⟩
    · unfold senderOf at howner
      split at howner
      · rename_i heq
        cases heq
        exact absurd rfl (hfrom _ _ rfl)
      · cases howner
    · unfold toArray at haccount
      split at haccount
      · rename_i heq
        cases heq
        exact absurd rfl (hto _ rfl)
      · cases haccount

/-- What a turn that does not panic does -/
inductive Turn (E : Externals) (readOp : String → String)
    (readTo : List Icrc3Value → Except Trap (Option Blob)) (acc : Icrc3.TxFields) :
    Entry → Icrc3.TxFields → Prop
  | op {text : String} : Turn E readOp readTo acc ("op", .text text) { acc with op := readOp text }
  | sender {owner bytes : Blob} {rest : List Icrc3Value}
      (named : Icrc3.accountBytes E owner DEFAULT_SUBACCOUNT = .ok bytes) :
      Turn E readOp readTo acc ("from", .array (.blob owner :: rest)) { acc with fromBytes := bytes }
  | recipient {values : List Icrc3Value} {bytes : Option Blob} (named : readTo values = .ok bytes) :
      Turn E readOp readTo acc ("to", .array values)
        { acc with toBytes := bytes.getD acc.toBytes }
  | amt {n : Nat} :
      Turn E readOp readTo acc ("amt", .nat n) { acc with amount := Icrc3.toU64OrZero n }
  | fee {n : Nat} : Turn E readOp readTo acc ("fee", .nat n) { acc with fee := Icrc3.toU64OrZero n }
  | memo {n : Nat} :
      Turn E readOp readTo acc ("memo", .nat n) { acc with memo := Icrc3.toU64OrZero n }
  | other {entry : Entry} (noText : opText entry = none) (noArray : toArray entry = none)
      (skipped : ∀ readOp readTo acc, Icrc3.txField E readOp readTo acc entry = .ok acc) :
      Turn E readOp readTo acc entry acc

theorem txField_turn (h : Icrc3.txField E readOp readTo acc entry = .ok next) :
    Turn E readOp readTo acc entry next := by
  obtain ⟨key, value⟩ := entry
  unfold Icrc3.txField at h
  dsimp only at h
  split at h
  · cases h; exact .op
  · rename_i owner rest
    cases hnamed : Icrc3.accountBytes E owner DEFAULT_SUBACCOUNT with
    | error trap => simp [hnamed, bind, Except.bind] at h
    | ok bytes =>
      simp only [hnamed, bind, Except.bind] at h
      cases h
      exact .sender hnamed
  · rename_i values
    cases hnamed : readTo values with
    | error trap => simp [hnamed, bind, Except.bind] at h
    | ok bytes =>
      have hturn : Turn E readOp readTo acc _ _ := .recipient hnamed
      cases bytes <;> (simp only [hnamed, bind, Except.bind] at h; cases h; exact hturn)
  · cases h; exact .amt
  · cases h; exact .fee
  · cases h; exact .memo
  · rename_i hop hfrom hto hamt hfee hmemo
    cases h
    refine .other ?_ ?_ fun readOp readTo acc => ?_
    · unfold opText
      split
      · rename_i heq
        cases heq
        exact absurd rfl (hop _ rfl)
      · rfl
    · unfold toArray
      split
      · rename_i heq
        cases heq
        exact absurd rfl (hto _ rfl)
      · rfl
    · unfold Icrc3.txField
      dsimp only
      split
      · exact absurd rfl (hop _ rfl)
      · exact absurd rfl (hfrom _ _ rfl)
      · exact absurd rfl (hto _ rfl)
      · exact absurd rfl (hamt _ rfl)
      · exact absurd rfl (hfee _ rfl)
      · exact absurd rfl (hmemo _ rfl)
      · rfl

/-- What the turn makes of the operation -/
theorem txField_op (h : Icrc3.txField E readOp readTo acc entry = .ok next) :
    next.op = ((opText entry).map readOp).getD acc.op := by
  cases txField_turn h with
  | other noText _ _ => rw [noText]; rfl
  | _ => rfl

/-- What it makes of the recipient -/
theorem txField_to (h : Icrc3.txField E readOp (readVia E read) acc entry = .ok next) :
    (.ok next.toBytes : Except Trap Blob) = (((toArray entry).bind read).map
      fun account => Icrc3.accountBytes E account.1 account.2).getD (.ok acc.toBytes) := by
  cases txField_turn h with
  | other _ noArray _ => rw [noArray]; rfl
  | @recipient values bytes named =>
    simp only [toArray, Option.bind_some]
    cases hread : read values with
    | none =>
      simp only [readVia, hread] at named
      cases named
      rfl
    | some account =>
      simp only [readVia, hread] at named
      cases hbytes : Icrc3.accountBytes E account.1 account.2 with
      | error trap => rw [hbytes] at named; cases named
      | ok bytes =>
        rw [hbytes] at named
        cases named
        simp [hbytes]
  | _ => rfl

/-- The fields both decoders read in one way -/
def common (acc : Icrc3.TxFields) : Blob × UInt64 × UInt64 × UInt64 :=
  (acc.fromBytes, acc.amount, acc.fee, acc.memo)

theorem txField_common (h : Icrc3.txField E readOp readTo acc entry = .ok next)
    (h' : Icrc3.txField E readOp' readTo' acc' entry = .ok next')
    (same : common acc = common acc') : common next = common next' := by
  simp only [common, Prod.mk.injEq] at same ⊢
  obtain ⟨hfrom, hamount, hfee, hmemo⟩ := same
  cases txField_turn h with
  | other _ _ skipped =>
    rw [skipped] at h'
    cases h'
    exact ⟨hfrom, hamount, hfee, hmemo⟩
  | sender named =>
    simp only [Icrc3.txField, named, bind, Except.bind] at h'
    cases h'
    exact ⟨rfl, hamount, hfee, hmemo⟩
  | @recipient values _ _ =>
    cases hnamed : readTo' values with
    | error trap => simp [Icrc3.txField, hnamed, bind, Except.bind] at h'
    | ok bytes =>
      cases bytes <;>
        (simp only [Icrc3.txField, hnamed, bind, Except.bind] at h'
         cases h'
         exact ⟨hfrom, hamount, hfee, hmemo⟩)
  | op => cases h'; exact ⟨hfrom, hamount, hfee, hmemo⟩
  | amt => cases h'; exact ⟨hfrom, rfl, hfee, hmemo⟩
  | fee => cases h'; exact ⟨hfrom, hamount, rfl, hmemo⟩
  | memo => cases h'; exact ⟨hfrom, hamount, hfee, rfl⟩

/-! ## The loop -/

theorem txFields_eq_foldlM : Icrc3.txFields E readOp readTo acc txMap =
    txMap.foldlM (Icrc3.txField E readOp readTo) acc := by
  induction txMap generalizing acc with
  | nil => rfl
  | cons entry rest ih =>
    rw [Icrc3.txFields, List.foldlM_cons]
    cases Icrc3.txField E readOp readTo acc entry with
    | error trap => rfl
    | ok next => exact ih

theorem txFields_isOk :
    (∃ next, Icrc3.txFields E readOp (readVia E read) acc txMap = .ok next) ↔
      ∀ entry ∈ txMap, Fits read entry := by
  rw [txFields_eq_foldlM]
  exact Lib.foldlM_isOk (Icrc3.txField E readOp (readVia E read)) (fun _ _ => txField_isOk) acc

theorem txFields_op (h : Icrc3.txFields E readOp readTo acc txMap = .ok next) :
    next.op = ((lastOf opText txMap).map readOp).getD acc.op := by
  rw [txFields_eq_foldlM] at h
  rw [← Lib.lastOf_map]
  exact Lib.foldlM_field Icrc3.TxFields.op (Icrc3.txField E readOp readTo)
    (fun _ _ _ => txField_op) h

variable (E) in
/-- The identifier of a recipient -/
def account (named : Blob × Subaccount) : Except Trap Blob :=
  Icrc3.accountBytes E named.1 named.2

theorem txFields_to (h : Icrc3.txFields E readOp (readVia E read) acc txMap = .ok next) :
    (.ok next.toBytes : Except Trap Blob) =
      ((lastRecipient read txMap).map (account E)).getD (.ok acc.toBytes) := by
  rw [txFields_eq_foldlM] at h
  rw [lastRecipient, ← Lib.lastOf_map]
  exact Lib.foldlM_field (fun acc => (.ok acc.toBytes : Except Trap Blob))
    (Icrc3.txField E readOp (readVia E read)) (fun _ _ _ => txField_to) h

theorem txFields_common (h : Icrc3.txFields E readOp readTo acc txMap = .ok next)
    (h' : Icrc3.txFields E readOp' readTo' acc' txMap = .ok next')
    (same : common acc = common acc') : common next = common next' := by
  induction txMap generalizing acc acc' with
  | nil =>
    cases h
    cases h'
    exact same
  | cons entry rest ih =>
    simp only [Icrc3.txFields] at h h'
    cases hturn : Icrc3.txField E readOp readTo acc entry with
    | error trap => simp [hturn, bind, Except.bind] at h
    | ok middle =>
      cases hturn' : Icrc3.txField E readOp' readTo' acc' entry with
      | error trap => simp [hturn', bind, Except.bind] at h'
      | ok middle' =>
        simp only [hturn, hturn', bind, Except.bind] at h h'
        exact ih h h' (txField_common hturn hturn' same)

/-! ## The blocks -/

theorem fullRecipient_recipient {values : List Icrc3Value} {named : Blob × Subaccount}
    (h : fullRecipient values = some named) : recipient values = some named := by
  unfold fullRecipient at h
  split at h
  · exact h
  · cases h

/-- An array the live path reads is read by the archive path. -/
theorem Fits.full (h : Fits recipient entry) : Fits fullRecipient entry := by
  refine ⟨h.1, fun named hnamed => ?_⟩
  obtain ⟨values, hvalues, hread⟩ := Option.bind_eq_some_iff.mp hnamed
  exact h.2 named (Option.bind_eq_some_iff.mpr ⟨values, hvalues, fullRecipient_recipient hread⟩)

theorem account_ne_nil (named : Blob × Subaccount) : account E named ≠ .ok [] := by
  intro h
  unfold account Icrc3.accountBytes at h
  cases hp : Principal.fromSlice named.1 with
  | error trap => rw [hp] at h; cases h
  | ok p =>
    rw [hp] at h
    have hempty : (E.accountIdentifier p named.2).toList = [] := Except.ok.inj h
    have hlength := (E.accountIdentifier p named.2).length_eq
    rw [hempty] at hlength
    cases hlength

/-- No recipient is not mistaken for one. -/
theorem getD_account_iff {named named' : Option (Blob × Subaccount)} :
    (named.map (account E)).getD (.ok []) = (named'.map (account E)).getD (.ok []) ↔
      named.map (account E) = named'.map (account E) := by
  constructor
  · intro h
    cases named with
    | none =>
      cases named' with
      | none => rfl
      | some a => exact absurd h.symm (account_ne_nil a)
    | some a =>
      cases named' with
      | none => exact absurd h (account_ne_nil a)
      | some b => exact congrArg some h
  · intro h
    rw [h]

theorem liveOp_transfer (op : String) : Icrc3.liveOp op = "transfer" ↔ op = "xfer" := by
  unfold Icrc3.liveOp
  repeat' split
  all_goals simp_all

variable {block : Icrc3BlockWithId} {fields : List Entry} {inner inner' : Icrc3.TxFields}

/-- Without a `tx` map neither path has a block. -/
theorem agree_of_noTxMap
    (none : ∀ fields txMap, block.block = .map fields →
      lastOf (valueAt "tx") fields ≠ some (.map txMap)) : Agree E block := by
  intro b
  refine iff_of_false ?_ ?_
  · intro h
    unfold icrc3BlockToBlock at h
    dsimp only at h
    rw [blockFields_tx] at h
    split at h
    · rename_i txMap htx
      split at htx
      · rename_i fields hfields
        exact absurd htx (none fields txMap hfields)
      · cases htx
    · cases h
  · rintro ⟨h, -⟩
    unfold Icrc3.liveBlock at h
    split at h
    · rename_i fields hfields
      dsimp only at h
      rw [blockFields_tx] at h
      split at h
      · rename_i txMap htx
        exact absurd htx (none fields txMap hfields)
      · cases h
    · cases h

theorem archive_eq (isMap : block.block = .map fields)
    (hasTx : lastOf (valueAt "tx") fields = some (.map txMap)) : icrc3BlockToBlock E block =
    (Icrc3.txFields E id (readVia E recipient) {} txMap).map fun inner =>
      if inner.op ≠ "xfer" then none
      else some (Icrc3.toBlock (fields.foldl Icrc3.blockField {}) inner true) := by
  unfold icrc3BlockToBlock
  simp only [isMap, blockFields_tx, hasTx, archiveTo_eq]
  cases Icrc3.txFields E id (readVia E recipient) {} txMap with
  | error trap => rfl
  | ok inner =>
    simp only [bind, Except.bind, Except.map]
    split <;> rfl

theorem live_eq (isMap : block.block = .map fields)
    (hasTx : lastOf (valueAt "tx") fields = some (.map txMap)) :
    Icrc3.liveBlock E block.block =
    (Icrc3.txFields E Icrc3.liveOp (readVia E fullRecipient) {} txMap).map fun inner =>
      some (Icrc3.toBlock (fields.foldl Icrc3.blockField {}) inner (inner.op = "transfer")) := by
  unfold Icrc3.liveBlock
  simp only [isMap, blockFields_tx, hasTx, liveTo_eq]
  cases Icrc3.txFields E Icrc3.liveOp (readVia E fullRecipient) {} txMap <;> rfl

/-- The blocks of two readings of one map are the same if the recipients are. -/
theorem toBlock_eq_iff (outer : Icrc3.BlockFields) (same : common inner = common inner') :
    Icrc3.toBlock outer inner true = Icrc3.toBlock outer inner' true ↔
      inner.toBytes = inner'.toBytes := by
  simp only [common, Prod.mk.injEq] at same
  simp [Icrc3.toBlock, same]

/-- The map reads alike on both paths: if no owner stops the live path, none stops the archive
path, and the last recipient that either accepts is one account. -/
def ReadsAlike (E : Externals) (txMap : List Entry) : Prop :=
  (∀ entry ∈ txMap, Fits fullRecipient entry) →
    (∀ entry ∈ txMap, Fits recipient entry) ∧
      (lastRecipient recipient txMap).map (account E) =
        (lastRecipient fullRecipient txMap).map (account E)

/-- Both decoders know a transfer by the last operation text. -/
theorem op_iff (h : Icrc3.txFields E readOp readTo {} txMap = .ok inner) {name : String}
    (named : name ≠ "") (reads : ∀ op, readOp op = name ↔ op = "xfer") :
    inner.op = name ↔ lastOf opText txMap = some "xfer" := by
  rw [txFields_op h]
  cases lastOf opText txMap with
  | none => simpa using named.symm
  | some op => simpa using reads op

theorem agree_of_noTransfer (isMap : block.block = .map fields)
    (hasTx : lastOf (valueAt "tx") fields = some (.map txMap))
    (noTransfer : lastOf opText txMap ≠ some "xfer") : Agree E block := by
  intro b
  rw [archive_eq isMap hasTx, live_eq isMap hasTx]
  refine iff_of_false (fun h => ?_) fun ⟨h, htransfer⟩ => ?_
  · obtain ⟨inner, hread, hblock⟩ := map_eq_ok h
    have hop : inner.op ≠ "xfer" := fun hop =>
      noTransfer ((op_iff hread (by decide) fun _ => Iff.rfl).mp hop)
    simp [hop] at hblock
  · obtain ⟨inner, hread, hblock⟩ := map_eq_ok h
    have hop : inner.op ≠ "transfer" := fun hop =>
      noTransfer ((op_iff hread (by decide) liveOp_transfer).mp hop)
    cases hblock
    simp [Icrc3.toBlock, hop] at htransfer

/-- What the two paths come to on a transfer -/
theorem transfer_blocks (isMap : block.block = .map fields)
    (hasTx : lastOf (valueAt "tx") fields = some (.map txMap))
    (transfer : lastOf opText txMap = some "xfer") :
    (icrc3BlockToBlock E block = (Icrc3.txFields E id (readVia E recipient) {} txMap).map
        fun inner => some (Icrc3.toBlock (fields.foldl Icrc3.blockField {}) inner true)) ∧
      Icrc3.liveBlock E block.block =
        (Icrc3.txFields E Icrc3.liveOp (readVia E fullRecipient) {} txMap).map
          fun inner => some (Icrc3.toBlock (fields.foldl Icrc3.blockField {}) inner true) := by
  rw [archive_eq isMap hasTx, live_eq isMap hasTx]
  constructor
  · cases hread : Icrc3.txFields E id (readVia E recipient) {} txMap with
    | error trap => rfl
    | ok inner =>
      have hop := (op_iff hread (by decide) fun _ => Iff.rfl).mpr transfer
      simp [Except.map, hop]
  · cases hread : Icrc3.txFields E Icrc3.liveOp (readVia E fullRecipient) {} txMap with
    | error trap => rfl
    | ok inner =>
      have hop := (op_iff hread (by decide) liveOp_transfer).mpr transfer
      simp [Except.map, hop]

theorem agree_transfer_iff (isMap : block.block = .map fields)
    (hasTx : lastOf (valueAt "tx") fields = some (.map txMap))
    (transfer : lastOf opText txMap = some "xfer") : Agree E block ↔ ReadsAlike E txMap := by
  obtain ⟨harchive, hlive⟩ := transfer_blocks (E := E) isMap hasTx transfer
  have hlives : (∃ inner, Icrc3.txFields E Icrc3.liveOp (readVia E fullRecipient) {} txMap =
      .ok inner) ↔ ∀ entry ∈ txMap, Fits fullRecipient entry := txFields_isOk
  have harchives : (∃ inner, Icrc3.txFields E id (readVia E recipient) {} txMap = .ok inner) ↔
      ∀ entry ∈ txMap, Fits recipient entry := txFields_isOk
  cases hread : Icrc3.txFields E Icrc3.liveOp (readVia E fullRecipient) {} txMap with
  | error trap =>
    -- an owner that stops the live path stops the archive path
    have hfull : ¬ ∀ entry ∈ txMap, Fits fullRecipient entry := by
      rw [← hlives, hread]
      simp
    refine iff_of_true (fun b => iff_of_false (fun h => ?_) fun ⟨h, _⟩ => ?_)
      fun hfits => absurd hfits hfull
    · rw [harchive] at h
      obtain ⟨inner', hread', -⟩ := map_eq_ok h
      exact hfull fun entry he => (harchives.mp ⟨inner', hread'⟩ entry he).full
    · rw [hlive, hread] at h
      cases h
  | ok inner =>
    rw [ReadsAlike, ← harchives, ← hlives]
    have hagree : Agree E block ↔ icrc3BlockToBlock E block =
        .ok (some (Icrc3.toBlock (fields.foldl Icrc3.blockField {}) inner true)) := by
      rw [hread] at hlive
      have htransfer : (Icrc3.toBlock (fields.foldl Icrc3.blockField {}) inner
          true).transaction.operation.any Operation.isTransfer = true := rfl
      constructor
      · exact fun agree => (agree _).mpr ⟨hlive, htransfer⟩
      · intro h b
        rw [h, hlive]
        constructor
        · intro heq
          cases heq
          exact ⟨rfl, htransfer⟩
        · exact fun heq => heq.1
    rw [hagree, harchive]
    cases hread' : Icrc3.txFields E id (readVia E recipient) {} txMap with
    | error trap => simp [hread, Except.map]
    | ok inner' =>
      have hbytes : inner'.toBytes = inner.toBytes ↔
          (lastRecipient recipient txMap).map (account E) =
            (lastRecipient fullRecipient txMap).map (account E) := by
        rw [← getD_account_iff, ← txFields_to hread, ← txFields_to hread', Except.ok.injEq]
      have hblocks := toBlock_eq_iff (fields.foldl Icrc3.blockField {})
        (txFields_common hread' hread rfl)
      rw [← hbytes, ← hblocks]
      simp [hread, Except.map]

/-- The paths agree on a block if and only if it has no `tx` map with a transfer in it, or this
map reads alike on both. -/
theorem decoders_agree (block : Icrc3BlockWithId) :
    Agree E block ↔ ∀ fields txMap, block.block = .map fields →
      lastOf (valueAt "tx") fields = some (.map txMap) → lastOf opText txMap = some "xfer" →
        ReadsAlike E txMap := by
  constructor
  · intro agree fields txMap isMap hasTx transfer
    exact (agree_transfer_iff isMap hasTx transfer).mp agree
  · intro alike
    by_cases hmap : ∃ fields txMap, block.block = .map fields ∧
        lastOf (valueAt "tx") fields = some (.map txMap)
    · obtain ⟨fields, txMap, isMap, hasTx⟩ := hmap
      by_cases transfer : lastOf opText txMap = some "xfer"
      · exact (agree_transfer_iff isMap hasTx transfer).mpr (alike fields txMap isMap hasTx transfer)
      · exact agree_of_noTransfer isMap hasTx transfer
    · exact agree_of_noTxMap fun fields txMap isMap hasTx => hmap ⟨fields, txMap, isMap, hasTx⟩

open Examples

/-- The payer's transfer to an account -/
def transferTo (account : Blob) : Block :=
  blockOf (.transfer { «to» := account, fee := ⟨10000⟩, «from» := payerAccount.toList,
                       amount := ⟨100000⟩, spender := none })

/-- A transfer to a default account, written as its owner alone: the archive path finds its
recipient, the live path does not. -/
theorem bare_owner_disagrees :
    ¬ Agree externals ⟨1, icrc3Deposit [.blob canister.bytes]⟩ := by
  intro agree
  have hb := (agree (transferTo account0.toList)).mp rfl
  have hlive : Icrc3.liveBlock externals (icrc3Deposit [.blob canister.bytes]) =
      .ok (some (transferTo [])) := rfl
  have heq := hlive.symm.trans hb.1
  revert heq
  decide

end SubaccountIndexer.Decoders
