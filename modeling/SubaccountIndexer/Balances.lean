import SubaccountIndexer.Queries
import SubaccountIndexer.Lib.Balance

/-! The balances a client computes. It fetches the records and the registered tokens, adds up
the amounts not swept under the text of each token, and reports the sums that are positive.
What it asks for is not the whole store. -/

namespace SubaccountIndexer.Balances

/-! ## The client -/

/-- `getUserVaultTransactions`: the optional argument is sent when it is truthy, and
`BigInt(0)` is not. -/
def getUserVaultTransactions (c : Canister) (upToIndex : Option UInt64) :
    Except String (List StoredTransactions) :=
  listTransactions c (match upToIndex with
    | some n => if n = 0 then none else some n
    | none => none)

structure TokenConfig where
  canisterId : String
  symbol : String
  decimals : Nat

/-- A variable of the environment, or the default where it is unset or empty -/
def orDefault (value : Option String) (default : String) : String :=
  match value with
  | some text => if text = "" then default else text
  | none => default

/-- `getTokenConfig` -/
def getTokenConfig (env : String → Option String) : TokenType → TokenConfig
  | .icp => ⟨orDefault (env "ICP_CANISTER_ID") "ryjl3-tyaaa-aaaaa-aaaba-cai", "ICP", 8⟩
  | .ckusdc => ⟨orDefault (env "CKUSDC_CANISTER_ID") "xevnm-gaaaa-aaaar-qafnq-cai", "CKUSDC", 6⟩
  | .ckusdt => ⟨orDefault (env "CKUSDT_CANISTER_ID") "cngnf-vqaaa-aaaar-qag4q-cai", "CKUSDT", 6⟩
  | .ckbtc => ⟨orDefault (env "CKBTC_CANISTER_ID") "mxzaz-hqaaa-aaaar-qaada-cai", "CKBTC", 8⟩

/-- `JSON.stringify` of a token -/
def stringify : TokenType → String
  | .icp => "\x7b\"ICP\":null\x7d"
  | .ckusdc => "\x7b\"CKUSDC\":null\x7d"
  | .ckusdt => "\x7b\"CKUSDT\":null\x7d"
  | .ckbtc => "\x7b\"CKBTC\":null\x7d"

/-- What the client keeps for a token while it adds up -/
structure Balance where
  tokenType : TokenType
  tokenName : String
  amount : Nat

abbrev BalanceMap := Std.ExtTreeMap String Balance

structure TokenBalance where
  tokenType : TokenType
  tokenName : String
  amount : Nat
  decimals : Nat

/-- What a record moves: only mints and transfers carry an amount. -/
def operationAmount (tx : StoredTransactions) : Nat :=
  match tx.operation with
  | some (.mint data) => data.amount.e8s.toNat
  | some (.transfer data) => data.amount.e8s.toNat
  | _ => 0

/-- One turn of the loop over the records -/
def countTransaction (balanceMap : BalanceMap) (tx : StoredTransactions) : BalanceMap :=
  let tokenKey := stringify tx.tokenType
  if tx.sweepStatus = .notSwept then
    let current := balanceMap[tokenKey]?.getD ⟨tx.tokenType, "", 0⟩
    balanceMap.insert tokenKey { current with amount := current.amount + operationAmount tx }
  else balanceMap

/-- One turn of the loop over the registered tokens -/
def balanceOf (env : String → Option String) (balanceMap : BalanceMap)
    (entry : TokenType × String) : Option TokenBalance :=
  match balanceMap[stringify entry.1]? with
  | some balance =>
    if balance.amount > 0 then
      some ⟨entry.1, entry.2, balance.amount, (getTokenConfig env entry.1).decimals⟩
    else none
  | none => none

/-- `getBalances`, of the answers to its two calls -/
def getBalances (env : String → Option String)
    (transactionsResult : Except String (List StoredTransactions))
    (tokensResult : Except String (List (TokenType × String))) :
    Except String (List TokenBalance) :=
  match transactionsResult with
  | .error e => .error ("Failed to get transactions: " ++ e)
  | .ok transactions =>
    let balanceMap := transactions.foldl countTransaction ∅
    match tokensResult with
    | .ok tokens => .ok (tokens.filterMap (balanceOf env balanceMap))
    | .error _ => .ok []

/-! ## Totals -/

/-- What a record adds to the balance of its token -/
def unsweptAmount (tx : StoredTransactions) : Nat :=
  if tx.sweepStatus = .notSwept then operationAmount tx else 0

/-- What it adds to the balance of a token -/
def unsweptOf (t : TokenType) (tx : StoredTransactions) : Nat :=
  if tx.tokenType = t then unsweptAmount tx else 0

/-- The sum of the amounts of a token that are not swept -/
def total (records : List StoredTransactions) (t : TokenType) : Nat :=
  Lib.total (unsweptOf t) records

/-- The records of the store, in the order of the keys -/
def records (c : Canister) : List StoredTransactions := c.transactions.toList.map Prod.snd

/-- How many entries the registry has for a token -/
def registrations (c : Canister) (t : TokenType) : Nat :=
  c.tokenLedgerPrincipals.toList.countP fun entry => entry.2.1 = t

/-- The amounts reported for a token -/
def reported (balances : List TokenBalance) (t : TokenType) : List Nat :=
  (balances.filter fun balance => balance.tokenType = t).map TokenBalance.amount

/-- Each registered token with a positive total has one record, with that total, and no other
token has any. -/
def Covers (c : Canister) (balances : List TokenBalance) : Prop :=
  ∀ t, reported balances t =
    if 0 < registrations c t ∧ 0 < total (records c) t then [total (records c) t] else []

/-- The records the canister passes over when no number is asked for -/
def skipped (c : Canister) : Nat := (c.transactions.size - 100) % 2 ^ 32

/-- The records outside the answer: those before its 100 and, where the number of records to
skip has lost its upper bits, those after them. -/
def leftOut (c : Canister) : List StoredTransactions :=
  (records c).take (skipped c) ++ (records c).drop (skipped c + 100)

/-- The records of the answer -/
def listed (c : Canister) : List StoredTransactions := ((records c).drop (skipped c)).take 100

/-- What is in the store is in the answer or left out of it. -/
theorem total_records (c : Canister) (t : TokenType) :
    total (records c) t = total (listed c) t + total (leftOut c) t := by
  have hsplit : records c = (records c).take (skipped c) ++
      (listed c ++ (records c).drop (skipped c + 100)) := by
    rw [listed, ← List.drop_drop, List.take_append_drop, List.take_append_drop]
  have htotal := congrArg (total · t) hsplit
  simp only [total, Lib.total_append] at htotal ⊢
  rw [htotal, leftOut, Lib.total_append]
  omega

/-- The client asks for no number, and gets the records of the window. -/
theorem getUserVaultTransactions_zero (c : Canister) :
    getUserVaultTransactions c (some 0) = .ok (listed c) := by
  have hskip : (if c.transactions.size < 100 then 0 else c.transactions.size - 100) =
      c.transactions.size - 100 := by
    split <;> omega
  have hdefault : ((none : Option UInt64).getD 100).toNat = 100 := rfl
  simp only [getUserVaultTransactions, if_true, listTransactions, hdefault, hskip, listed,
    skipped, records]
  rfl

/-! ## Adding up -/

theorem stringify_injective : Function.Injective stringify := by
  intro a b
  cases a <;> cases b <;> decide

/-- The amount under a text, 0 where there is no entry -/
def BalanceMap.amount (balanceMap : BalanceMap) (tokenKey : String) : Nat :=
  (balanceMap[tokenKey]?.map Balance.amount).getD 0

/-- Counting a record adds what it holds to its token and leaves the others. -/
theorem countTransaction_amount (balanceMap : BalanceMap) (tx : StoredTransactions)
    (t : TokenType) :
    (countTransaction balanceMap tx).amount (stringify t) =
      balanceMap.amount (stringify t) + unsweptOf t tx := by
  by_cases hstatus : tx.sweepStatus = .notSwept
  · simp only [countTransaction, unsweptOf, unsweptAmount, if_pos hstatus, BalanceMap.amount,
      Std.ExtTreeMap.getElem?_insert, Std.compare_eq_iff_eq]
    by_cases ht : tx.tokenType = t
    · subst ht
      cases balanceMap[stringify tx.tokenType]? <;> simp
    · rw [if_neg fun h => ht (stringify_injective h)]
      simp [ht]
  · simp [countTransaction, unsweptOf, unsweptAmount, hstatus]

theorem foldl_countTransaction_amount (txs : List StoredTransactions) (t : TokenType) :
    ∀ balanceMap : BalanceMap, (txs.foldl countTransaction balanceMap).amount (stringify t) =
      balanceMap.amount (stringify t) + total txs t := by
  induction txs with
  | nil => exact fun _ => rfl
  | cons tx txs ih =>
    intro balanceMap
    rw [List.foldl_cons, ih, countTransaction_amount, total, total, Lib.total_cons]
    omega

/-- An entry of the registry gives a record when a positive amount is kept for its token. -/
theorem balanceOf_eq (env : String → Option String) (balanceMap : BalanceMap)
    (entry : TokenType × String) :
    balanceOf env balanceMap entry =
      if 0 < balanceMap.amount (stringify entry.1) then
        some ⟨entry.1, entry.2, balanceMap.amount (stringify entry.1),
          (getTokenConfig env entry.1).decimals⟩
      else none := by
  cases hkept : balanceMap[stringify entry.1]? with
  | none => simp [balanceOf, BalanceMap.amount, hkept]
  | some balance => simp [balanceOf, BalanceMap.amount, hkept]

@[simp] theorem reported_nil (t : TokenType) : reported [] t = [] := rfl

@[simp] theorem reported_cons (balance : TokenBalance) (balances : List TokenBalance)
    (t : TokenType) :
    reported (balance :: balances) t =
      if balance.tokenType = t then balance.amount :: reported balances t
      else reported balances t := by
  by_cases ht : balance.tokenType = t <;> simp [reported, ht]

/-- A token is reported once for each of its entries in the registry. -/
theorem reported_filterMap (env : String → Option String) (balanceMap : BalanceMap)
    (t : TokenType) (tokens : List (TokenType × String)) :
    reported (tokens.filterMap (balanceOf env balanceMap)) t =
      if 0 < balanceMap.amount (stringify t)
      then .replicate (tokens.countP fun entry => entry.1 = t) (balanceMap.amount (stringify t))
      else [] := by
  induction tokens with
  | nil => simp
  | cons entry tokens ih =>
    rw [List.filterMap_cons, balanceOf_eq]
    by_cases hpositive : 0 < balanceMap.amount (stringify entry.1)
    · rw [if_pos hpositive]
      by_cases ht : entry.1 = t
      · subst ht
        rw [reported_cons, if_pos rfl, ih, if_pos hpositive, if_pos hpositive]
        simp [List.replicate_succ]
      · rw [reported_cons, if_neg ht, ih]
        simp [ht]
    · rw [if_neg hpositive]
      by_cases ht : entry.1 = t
      · subst ht
        rw [ih, if_neg hpositive, if_neg hpositive]
      · rw [ih]
        simp [ht]

/-- What is reported of a token: the sum over the answer, once for each registration -/
theorem getBalances_reported (E : Externals) (env : String → Option String) (c : Canister) :
    ∃ balances, getBalances env (getUserVaultTransactions c (some 0)) (getRegisteredTokens E c) =
      .ok balances ∧ ∀ t, reported balances t =
        if 0 < total (listed c) t then .replicate (registrations c t) (total (listed c) t)
        else [] := by
  refine ⟨_, by rw [getUserVaultTransactions_zero]; rfl, fun t => ?_⟩
  have hamount := foldl_countTransaction_amount (listed c) t ∅
  have hempty : BalanceMap.amount ∅ (stringify t) = 0 := by simp [BalanceMap.amount]
  rw [hempty, Nat.zero_add] at hamount
  rw [reported_filterMap, hamount, List.countP_map]
  rfl

/-- A sum over the answer, reported once for each registration, is the one record due if
nothing is left out and the token is not registered twice. -/
theorem replicate_eq_due {listedTotal leftTotal count : Nat} :
    ((if 0 < listedTotal then List.replicate count listedTotal else []) =
      if 0 < count ∧ 0 < listedTotal + leftTotal then [listedTotal + leftTotal] else []) ↔
    (0 < count → leftTotal = 0) ∧ (0 < listedTotal + leftTotal → count ≤ 1) := by
  by_cases hlisted : 0 < listedTotal
  · rw [if_pos hlisted]
    match count with
    | 0 => simp
    | 1 => simp [Nat.add_pos_left hlisted]
    | n + 2 => simp [List.replicate_succ, Nat.add_pos_left hlisted]
  · obtain rfl : listedTotal = 0 := Nat.eq_zero_of_not_pos hlisted
    by_cases hcount : 0 < count
    · simp only [hcount, Nat.zero_add, true_and, true_implies]
      by_cases hleft : 0 < leftTotal
      · simp [hleft, Nat.ne_of_gt hleft]
      · simp [Nat.eq_zero_of_not_pos hleft]
    · simp [Nat.eq_zero_of_not_pos hcount]

/-- The balances cover the store if and only if no amount of a registered token lies outside
the answer and no token that has a total is registered twice. -/
theorem balances_cover (E : Externals) (env : String → Option String) (c : Canister) :
    ∃ balances, getBalances env (getUserVaultTransactions c (some 0)) (getRegisteredTokens E c) =
      .ok balances ∧
      (Covers c balances ↔
        (∀ t, 0 < registrations c t → total (leftOut c) t = 0) ∧
        ∀ t, 0 < total (records c) t → registrations c t ≤ 1) := by
  obtain ⟨balances, hbalances, hreported⟩ := getBalances_reported E env c
  refine ⟨balances, hbalances, ?_⟩
  rw [← forall_and]
  refine forall_congr' fun t => ?_
  rw [hreported, total_records]
  exact replicate_eq_due

open Examples

/-- A store of 101 mints of one unit, with their token registered -/
def hundredAndOne : Canister :=
  { installed with
    transactions := (List.range 101).foldl (fun store n => store.insert (UInt64.ofNat n)
      ⟨UInt64.ofNat n, 0, none, some (.mint ⟨[], ⟨1⟩⟩), ⟨0⟩, .notSwept, "", .icp, none⟩) ∅
    tokenLedgerPrincipals :=
      installed.tokenLedgerPrincipals.insert 1 (.icp, MAINNET_LEDGER_CANISTER_ID) }

/-- The first of them is not in the answer: 100 units are reported, and 101 are held. -/
theorem oldest_not_reported :
    ∃ balances, getBalances (fun _ => none) (getUserVaultTransactions hundredAndOne (some 0))
      (getRegisteredTokens externals hundredAndOne) = .ok balances ∧
      reported balances .icp = [100] ∧ total (records hundredAndOne) .icp = 101 ∧
      ¬ Covers hundredAndOne balances := by
  obtain ⟨balances, hbalances, hreported⟩ :=
    getBalances_reported externals (fun _ => none) hundredAndOne
  have hlisted : total (listed hundredAndOne) .icp = 100 := by decide +kernel
  have hregistered : registrations hundredAndOne .icp = 1 := by decide +kernel
  have htotal : total (records hundredAndOne) .icp = 101 := by decide +kernel
  have hicp := hreported .icp
  rw [hlisted, hregistered] at hicp
  refine ⟨balances, hbalances, hicp, htotal, fun covers => ?_⟩
  have hdue := covers .icp
  rw [hicp, hregistered, htotal] at hdue
  simp at hdue

end SubaccountIndexer.Balances
