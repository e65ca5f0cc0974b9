import SubaccountIndexer.Balances

/-! The rows of a token that a client lists, and the balances it computes: two folds over one
answer of the canister, written apart. The unswept rows of a token add up to its balance. -/

namespace SubaccountIndexer.Balances

/-- A row for the eye: the numbers are texts, the accounts are in hex. -/
structure TransactionRow where
  blockIndex : UInt64
  amount : String
  «from» : String
  «to» : String
  timestamp : UInt64
  sweepStatus : SweepStatus
  memo : String
  txHash : String

variable (E : Externals)

/-- The amount and the accounts of an operation; another kind leaves zero and two empty texts. -/
def operationParts (tx : StoredTransactions) : Nat × String × String :=
  match tx.operation with
  | some (.mint data) => (data.amount.e8s.toNat, "", E.hexEncode data.to)
  | some (.transfer data) => (data.amount.e8s.toNat, E.hexEncode data.from, E.hexEncode data.to)
  | _ => (0, "", "")

def rowOf (tx : StoredTransactions) : TransactionRow :=
  let (amount, «from», «to») := operationParts E tx
  { blockIndex := tx.index
    amount := toString amount
    «from»
    «to»
    timestamp := tx.createdAtTime.timestampNanos
    sweepStatus := tx.sweepStatus
    memo := toString tx.memo.toNat
    txHash := tx.txHash }

/-- `getTransactionsByTokenType`, of the answer to its call. The check of the token before it
passes for every token there is. -/
def getTransactionsByTokenType (transactionsResult : Except String (List StoredTransactions))
    (tokenType : TokenType) : Except String (List TransactionRow) :=
  match transactionsResult with
  | .error e => .error ("Failed to get transactions: " ++ e)
  | .ok allTransactions =>
    let tokenKey := stringify tokenType
    .ok ((allTransactions.filter fun tx => stringify tx.tokenType == tokenKey).map (rowOf E))

variable {E}

/-- The two folds read the same amount. -/
theorem operationParts_amount (tx : StoredTransactions) :
    (operationParts E tx).1 = operationAmount tx := by
  unfold operationParts operationAmount
  cases tx.operation with
  | none => rfl
  | some operation => cases operation <;> rfl

theorem rowOf_amount (tx : StoredTransactions) :
    (rowOf E tx).amount = toString (operationAmount tx) := by
  rw [← operationParts_amount (E := E)]
  rfl

/-- What a token's records come to is the sum over those that are not swept. -/
theorem total_eq_sum (txs : List StoredTransactions) (t : TokenType) :
    total txs t = (((txs.filter fun tx => tx.tokenType = t).filter fun tx =>
      tx.sweepStatus = .notSwept).map operationAmount).sum := by
  induction txs with
  | nil => rfl
  | cons tx txs ih =>
    rw [total, Lib.total_cons, ← total, ih]
    by_cases ht : tx.tokenType = t
    · by_cases hstatus : tx.sweepStatus = .notSwept <;> simp [ht, hstatus, unsweptOf, unsweptAmount]
    · simp [ht, unsweptOf]

/-- The texts compared are those of the tokens. -/
theorem getTransactionsByTokenType_ok (txs : List StoredTransactions) (t : TokenType) :
    getTransactionsByTokenType E (.ok txs) t =
      .ok ((txs.filter fun tx => tx.tokenType = t).map (rowOf E)) := by
  have hkey : (fun tx : StoredTransactions => stringify tx.tokenType == stringify t) =
      fun tx => decide (tx.tokenType = t) := by
    funext tx
    by_cases ht : tx.tokenType = t
    · simp [ht]
    · rw [decide_eq_false ht, beq_eq_false_iff_ne]
      exact fun h => ht (stringify_injective h)
  rw [getTransactionsByTokenType, hkey]

/-- For every store and every registry the amounts printed in the unswept rows of a token add up
to the balance of the token, which is reported once for each of its registrations if it is
positive; the rows are the records of the token that the canister has answered with. -/
theorem rows_add_up (E : Externals) (env : String → Option String) (c : Canister) (t : TokenType) :
    ∃ rows balances, getTransactionsByTokenType E (getUserVaultTransactions c (some 0)) t = .ok rows ∧
      getBalances env (getUserVaultTransactions c (some 0)) (getRegisteredTokens E c) =
        .ok balances ∧
      rows.map TransactionRow.blockIndex =
        ((listed c).filter fun tx => tx.tokenType = t).map StoredTransactions.index ∧
      ∃ amounts : List Nat, amounts.map toString =
          (rows.filter fun row => row.sweepStatus = .notSwept).map TransactionRow.amount ∧
        reported balances t =
          if 0 < amounts.sum then .replicate (registrations c t) amounts.sum else [] := by
  obtain ⟨balances, hbalances, hreported⟩ := getBalances_reported E env c
  refine ⟨_, balances, by rw [getUserVaultTransactions_zero, getTransactionsByTokenType_ok],
    hbalances, by rw [List.map_map]; rfl, _, ?_, by rw [hreported, total_eq_sum]⟩
  rw [List.filter_map, List.map_map, List.map_map]
  exact List.map_congr_left fun tx _ => (rowOf_amount tx).symm

end SubaccountIndexer.Balances
