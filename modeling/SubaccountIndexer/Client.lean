import SubaccountIndexer.Queries

/-! Clients that run `getDepositAddresses` against the canister. A client waits for one canister
call at a time; between two of its calls any other client and any other message of the canister
may run. -/

namespace SubaccountIndexer

/-- `DepositAddress` -/
structure DepositAddress where
  tokenType : TokenType
  tokenName : String
  subaccountId : String
  depositAddress : String
deriving DecidableEq

/-- The call a client waits for while it works on a token -/
inductive ClientCall where
  | getNonce
  /-- `get_registered_tokens` at the start of `addSubaccountForToken` -/
  | registeredTokens (index : UInt32)
  | registerToken (index : UInt32)
  | addSubaccount (index : UInt32)
  | getSubaccountId (index : UInt32)
  | getIcrcAccount (index : UInt32) (subaccountId : String)
deriving DecidableEq

/-- Where `getDepositAddresses` stands -/
inductive Client where
  /-- It waits for the registered tokens. -/
  | starting
  | working (tokenType : TokenType) (tokenName : String) (call : ClientCall)
      (rest : List (TokenType × String)) (addresses : List DepositAddress)
  | returned (addresses : List DepositAddress)
  | threw (message : String)
deriving DecidableEq

namespace Client

/-- The addresses a client has got, to return them at the end -/
def addresses : Client → List DepositAddress
  | .working _ _ _ _ addresses => addresses
  | .returned addresses => addresses
  | .starting | .threw _ => []

/-- The head of the loop over the tokens -/
def nextToken (addresses : List DepositAddress) : List (TokenType × String) → Client
  | [] => .returned addresses
  | (tokenType, tokenName) :: rest => .working tokenType tokenName .getNonce rest addresses

/-- The ledger `addSubaccountForToken` registers for a token when it is given none -/
def defaultLedgerText : TokenType → String
  | .ckusdc => "xevnm-gaaaa-aaaar-qafnq-cai"
  | .ckusdt => "vgmay-piaaa-aaaar-qafoq-cai"
  | .ckbtc => "mxzaz-hqaaa-aaaar-qaada-cai"
  | .icp => "ryjl3-tyaaa-aaaaa-aaaba-cai"

/-- The update call a client waits for; the other calls are queries. -/
def update : Client → Option Method
  | .working tokenType _ (.registerToken _) _ _ =>
    some (.registerToken tokenType (defaultLedgerText tokenType))
  | .working tokenType _ (.addSubaccount _) _ _ => some (.addSubaccount (some tokenType))
  | _ => none

variable (E : Externals)

/-- What an update call returns that runs to its end at once -/
def updateResult (c : Canister) (agent : Principal) (method : Method) : Except String Value :=
  match startCall E c agent method with
  | .ok ⟨_, .finished result, _⟩ => result
  | .ok _ => .error "IC0506: Canister did not reply to the call"
  | .error trap => .error trap.message

/-- Whether the call a client waits for succeeds -/
def succeeds (c : Canister) (agent : Principal) : Client → Bool
  | .starting => (getRegisteredTokens E c).isOk
  | .working tokenType _ call _ _ =>
    match call with
    | .getNonce => (getNonce c).isOk
    | .registeredTokens _ => (getRegisteredTokens E c).isOk
    | .registerToken _ =>
      (updateResult E c agent (.registerToken tokenType (defaultLedgerText tokenType))).isOk
    | .addSubaccount _ => (updateResult E c agent (.addSubaccount (some tokenType))).isOk
    | .getSubaccountId index => (getSubaccountid E c index (some tokenType)).isOk
    | .getIcrcAccount index _ => (getIcrcAccount E c index).isOk
  | .returned _ | .threw _ => true

/-- A client once its call is answered. What `addSubaccountForToken` throws or returns is
ignored, and a lookup that fails ends the work on the token. -/
def proceed (c : Canister) (agent : Principal) : Client → Client
  | .starting =>
    match getRegisteredTokens E c with
    | .error e => .threw ("Failed to get registered tokens: " ++ e)
    | .ok tokens => nextToken [] tokens
  | .working tokenType tokenName call rest addresses =>
    match call with
    | .getNonce =>
      match getNonce c with
      | .error _ => nextToken addresses rest
      | .ok index => .working tokenType tokenName (.registeredTokens index) rest addresses
    | .registeredTokens index =>
      match getRegisteredTokens E c with
      | .error _ => .working tokenType tokenName (.getSubaccountId index) rest addresses
      | .ok tokens =>
        let isTokenRegistered := tokens.any fun entry => entry.1 = tokenType
        let call := if isTokenRegistered then .addSubaccount index else .registerToken index
        .working tokenType tokenName call rest addresses
    | .registerToken index =>
      match updateResult E c agent (.registerToken tokenType (defaultLedgerText tokenType)) with
      | .error _ => .working tokenType tokenName (.getSubaccountId index) rest addresses
      | .ok _ => .working tokenType tokenName (.addSubaccount index) rest addresses
    | .addSubaccount index => .working tokenType tokenName (.getSubaccountId index) rest addresses
    | .getSubaccountId index =>
      match getSubaccountid E c index (some tokenType) with
      | .error _ => nextToken addresses rest
      | .ok subaccountId =>
        .working tokenType tokenName (.getIcrcAccount index subaccountId) rest addresses
    | .getIcrcAccount index subaccountId =>
      match getIcrcAccount E c index with
      | .error _ => nextToken addresses rest
      | .ok depositAddress =>
        nextToken (addresses ++ [{ tokenType, tokenName, subaccountId, depositAddress }]) rest
  | .returned addresses => .returned addresses
  | .threw message => .threw message

/-- A client whose call is rejected; `none` if it waits for none -/
def reject (error : String) : Client → Option Client
  | .starting => some (.threw error)
  | .working tokenType tokenName call rest addresses =>
    match call with
    | .registeredTokens index | .registerToken index | .addSubaccount index =>
      some (.working tokenType tokenName (.getSubaccountId index) rest addresses)
    | .getNonce | .getSubaccountId _ | .getIcrcAccount _ _ => some (nextToken addresses rest)
  | .returned _ | .threw _ => none

/-- Whether a client still waits for a call -/
def waits : Client → Bool
  | .starting | .working .. => true
  | .returned _ | .threw _ => false

end Client

/-! ## Clients and canister -/

/-- The canister and its clients, each with the principal of its agent -/
structure Fleet where
  system : System
  clients : List (Principal × Client)

inductive FleetInput where
  /-- The call of a client runs and is answered. -/
  | client (n : Nat)
  | rejected (n : Nat) (error : String)
  /-- Any other message of the canister -/
  | other (i : Input)

variable (E : Externals)

def Fleet.step (s : Fleet) : FleetInput → Option (Fleet × List Event)
  | .client n =>
    match s.clients[n]? with
    | none => none
    | some (agent, client) =>
      if client.waits then
        let clients := s.clients.set n (agent, client.proceed E s.system.canister agent)
        match client.update with
        | none => some (⟨s.system, clients⟩, [])
        | some method =>
          ((machine E).step s.system (.call agent method)).map fun next =>
            (⟨next.1, clients⟩, next.2)
      else none
  | .rejected n error =>
    match s.clients[n]? with
    | none => none
    | some (agent, client) =>
      (client.reject error).map fun client => (⟨s.system, s.clients.set n (agent, client)⟩, [])
  | .other i => ((machine E).step s.system i).map fun next => (⟨next.1, s.clients⟩, next.2)

/-- The canister together with its clients -/
def fleet : Lib.Machine Fleet FleetInput Event := ⟨Fleet.step E⟩

/-- What the clients return, as far as they have got it -/
def Fleet.returned (s : Fleet) : List DepositAddress :=
  s.clients.flatMap fun client => client.2.addresses

theorem Fleet.returned_eq (s : Fleet) :
    s.returned = (s.clients.map Prod.snd).flatMap Client.addresses := by
  rw [returned, List.flatMap_map]

end SubaccountIndexer
