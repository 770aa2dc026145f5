import N8n.Library.Machine
import N8n.Library.OrderedMap

/-!
# Authorization codes and refresh tokens

The MCP server gives codes to clients, exchanges a code for tokens and a
refresh token for the next one.  A request is looked up first and settled
later by an update or a delete with a condition.
-/

namespace N8n

structure AuthorizationCode where
  code : String
  clientId : String
  userId : String
  redirectUri : String
  codeChallenge : String
  codeChallengeMethod : String := "S256"
  state : Option String
  expiresAt : Nat
  used : Bool := false

structure RefreshToken where
  token : String
  clientId : String
  userId : String
  expiresAt : Nat

inductive OAuthRequest where
  | createAuthorizationCode (clientId userId redirectUri codeChallenge : String)
      (state : Option String)
  | getCodeChallenge (code clientId : String)
  | exchangeAuthorizationCode (code clientId : String) (redirectUri : Option String)
  | validateAndRotateRefreshToken (token clientId : String)
  | revokeRefreshToken (token clientId : String)

inductive CodePurpose where
  | challenge
  | consumption (redirectUri : Option String)

/-- What a request awaits.  The rotation of a token is a transaction from
`findsToken` on, and it holds the row it has deleted until it ends. -/
inductive OAuthPhase where
  | insertsCode (row : AuthorizationCode)
  | findsCode (code clientId : String) (purpose : CodePurpose)
  | validatesCode (row : AuthorizationCode) (clientId : String)
      (foundAt : Nat) (purpose : CodePurpose)
  | removesCode (code : String)
  | consumesCode (row : AuthorizationCode) (clientId : String)
      (foundAt : Nat) (redirectUri : Option String)
  | savesTokenPair (refreshToken clientId userId : String)
  | beginsRotation (token clientId : String) (beganAt : Nat)
  | findsToken (token clientId : String) (beganAt now : Nat)
  | deletesToken (record : RefreshToken) (token clientId : String) (beganAt now : Nat)
  | insertsToken (deleted : String) (beganAt : Nat) (inserted : RefreshToken)
  | revokesToken (token clientId : String)

/-- What has been achieved.  A revocation is listed when it has completed for
a token that was issued to the client. -/
inductive OAuthOutcome where
  | codeIssued (code clientId redirectUri : String) (expiresAt : Nat)
  | codeConsumed (code clientId : String) (redirectUri : Option String) (foundAt : Nat)
  | tokenIssued (token clientId : String) (expiresAt : Nat)
  | tokenExchanged (token clientId : String) (beganAt : Nat)
  | tokenRevoked (token clientId : String)

/-- The tables and the requests in progress.  `generated` counts the random
values, and `history` lists what has been achieved, the latest first. -/
structure McpOAuth where
  now : Nat := 0
  generated : Nat := 0
  authorizationCodes : OrderedMap String AuthorizationCode := .empty
  refreshTokens : OrderedMap String RefreshToken := .empty
  calls : OrderedMap Nat OAuthPhase := .empty
  nextCall : Nat := 0
  history : List OAuthOutcome := []

/-- `answers` runs a request from one await to the next one, and `fails` ends
it with what it awaited. -/
inductive OAuthEvent where
  | passes (milliseconds : Nat)
  | request (request : OAuthRequest)
  | answers (call : Nat)
  | fails (call : Nat)

namespace OAuthPhase

/-- The value a request has generated and not inserted yet. -/
def pending? : OAuthPhase → Option String
  | .insertsCode row => some row.code
  | .savesTokenPair refreshToken _ _ => some refreshToken
  | .insertsToken _ _ inserted => some inserted.token
  | _ => none

/-- The token whose row is deleted in the transaction of the request. -/
def deleted? : OAuthPhase → Option String
  | .insertsToken deleted _ _ => some deleted
  | _ => none

end OAuthPhase

namespace McpOAuth

def AUTHORIZATION_CODE_EXPIRY_MS : Nat := 10 * 60 * 1000

def REFRESH_TOKEN_EXPIRY_MS : Nat := 30 * 24 * 60 * 60 * 1000

/-- A redirect URI is compared if it is given and not empty. -/
def redirectMismatch (row : AuthorizationCode) : Option String → Bool
  | none => false
  | some redirectUri => redirectUri ≠ "" && row.redirectUri ≠ redirectUri

/-- The token has been issued to the client. -/
def isIssuedTo (history : List OAuthOutcome) (token clientId : String) : Bool :=
  history.any fun
    | .tokenIssued issued owner _ => issued = token && owner = clientId
    | _ => false

variable (server : McpOAuth)

/-- Another transaction has deleted the row and has not ended. -/
def isLocked (token : String) : Bool :=
  server.calls.values.any fun phase => phase.deleted? = some token

def setPhase (id : Nat) (phase : OAuthPhase) : McpOAuth :=
  { server with calls := server.calls.set id phase }

def endCall (id : Nat) : McpOAuth :=
  { server with calls := server.calls.delete id }

def achieve (outcome : OAuthOutcome) : McpOAuth :=
  { server with history := outcome :: server.history }

variable (randomBytes : Nat → String) (id : Nat)

/-- A request that takes a new random value and goes on with it. -/
def generate (phase : String → OAuthPhase) : McpOAuth :=
  { server with generated := server.generated + 1 }.setPhase id
    (phase (randomBytes server.generated))

def firstPhase (server : McpOAuth) (id : Nat) : OAuthRequest → McpOAuth
  | .createAuthorizationCode clientId userId redirectUri codeChallenge state =>
    server.generate randomBytes id fun code => .insertsCode
      { code, clientId, userId, redirectUri, codeChallenge, state
        expiresAt := server.now + AUTHORIZATION_CODE_EXPIRY_MS }
  | .getCodeChallenge code clientId =>
    server.setPhase id (.findsCode code clientId .challenge)
  | .exchangeAuthorizationCode code clientId redirectUri =>
    server.setPhase id (.findsCode code clientId (.consumption redirectUri))
  | .validateAndRotateRefreshToken token clientId =>
    server.setPhase id (.beginsRotation token clientId server.now)
  | .revokeRefreshToken token clientId =>
    server.setPhase id (.revokesToken token clientId)

variable (row : AuthorizationCode)

def insertCode : McpOAuth :=
  if server.authorizationCodes.has row.code then server.endCall id
  else
    { server with
      authorizationCodes := server.authorizationCodes.set row.code row
      }.achieve (.codeIssued row.code row.clientId row.redirectUri row.expiresAt) |>.endCall id

def findCode (code clientId : String) (purpose : CodePurpose) : McpOAuth :=
  match server.authorizationCodes.get? code with
  | none => server.endCall id
  | some row =>
    if row.clientId = clientId then
      server.setPhase id (.validatesCode row clientId server.now purpose)
    else server.endCall id

/-- The row that was found is checked. -/
def validateCode (clientId : String) (foundAt : Nat) (purpose : CodePurpose) : McpOAuth :=
  if row.expiresAt < server.now then
    server.setPhase id (.removesCode row.code)
  else match purpose with
    | .challenge => server.endCall id
    | .consumption redirectUri =>
      if redirectMismatch row redirectUri then server.endCall id
      else
        server.setPhase id (.consumesCode row clientId foundAt redirectUri)

def removeCode (code : String) : McpOAuth :=
  { server with
    authorizationCodes := server.authorizationCodes.delete code }.endCall id

def useCode (code : String) (stored : AuthorizationCode) : McpOAuth :=
  { server with
    authorizationCodes := server.authorizationCodes.set code { stored with used := true } }

/-- The update of a code that is not used yet, and then a new token pair. -/
def consumeCode (server : McpOAuth) (id : Nat)
    (row : AuthorizationCode) (clientId : String) (foundAt : Nat)
    (redirectUri : Option String) : McpOAuth :=
  match server.authorizationCodes.get? row.code with
  | none => server.endCall id
  | some stored =>
    if stored.used then server.endCall id
    else
      (server.useCode row.code stored).achieve (.codeConsumed row.code clientId redirectUri foundAt)
        |>.generate randomBytes id fun refreshToken =>
          .savesTokenPair refreshToken clientId row.userId

def insertToken (row : RefreshToken) : McpOAuth :=
  { server with refreshTokens := server.refreshTokens.set row.token row
    }.achieve (.tokenIssued row.token row.clientId row.expiresAt)

def saveTokenPair (token clientId userId : String) : McpOAuth :=
  if server.refreshTokens.has token then server.endCall id
  else
    server.insertToken
      { token, clientId, userId
        expiresAt := server.now + REFRESH_TOKEN_EXPIRY_MS } |>.endCall id

variable (token clientId : String)

def findToken (beganAt now : Nat) : McpOAuth :=
  match server.refreshTokens.get? token with
  | none => server.endCall id
  | some record =>
    if record.clientId = clientId then
      server.setPhase id (.deletesToken record token clientId beganAt now)
    else server.endCall id

/-- The conditional delete waits for another transaction that has deleted the
row. -/
def deleteToken (server : McpOAuth) (id : Nat)
    (record : RefreshToken) (token clientId : String) (beganAt now : Nat) :
    Option McpOAuth :=
  match server.refreshTokens.get? token with
  | none => some (server.endCall id)
  | some row =>
    if row.clientId = clientId && now ≤ row.expiresAt then
      if server.isLocked token then none
      else
        some (server.generate randomBytes id fun newRefreshToken =>
          .insertsToken token beganAt
            { token := newRefreshToken, clientId, userId := record.userId
              expiresAt := now + REFRESH_TOKEN_EXPIRY_MS })
    else some (server.endCall id)

def commitRotation (deleted : String) (beganAt : Nat) (inserted : RefreshToken) : McpOAuth :=
  if server.refreshTokens.has inserted.token then server.endCall id
  else
    { server with refreshTokens := server.refreshTokens.delete deleted
      }.achieve (.tokenExchanged deleted inserted.clientId beganAt)
      |>.insertToken inserted |>.endCall id

def noteRevocation : McpOAuth :=
  if isIssuedTo server.history token clientId then
    server.achieve (.tokenRevoked token clientId)
  else server

def revokeToken : Option McpOAuth :=
  match server.refreshTokens.get? token with
  | none => some ((server.noteRevocation token clientId).endCall id)
  | some row =>
    if row.clientId = clientId then
      if server.isLocked token then none
      else
        some ({ server.noteRevocation token clientId with
          refreshTokens := server.refreshTokens.delete token }.endCall id)
    else some ((server.noteRevocation token clientId).endCall id)

def answer (server : McpOAuth) (id : Nat) : OAuthPhase → Option McpOAuth
  | .insertsCode row => some (server.insertCode id row)
  | .findsCode code clientId purpose =>
    some (server.findCode id code clientId purpose)
  | .validatesCode row clientId foundAt purpose =>
    some (server.validateCode id row clientId foundAt purpose)
  | .removesCode code => some (server.removeCode id code)
  | .consumesCode row clientId foundAt redirectUri =>
    some (server.consumeCode randomBytes id row clientId foundAt redirectUri)
  | .savesTokenPair refreshToken clientId userId =>
    some (server.saveTokenPair id refreshToken clientId userId)
  | .beginsRotation token clientId beganAt =>
    some (server.setPhase id (.findsToken token clientId beganAt server.now))
  | .findsToken token clientId beganAt now =>
    some (server.findToken id token clientId beganAt now)
  | .deletesToken record token clientId beganAt now =>
    server.deleteToken randomBytes id record token clientId beganAt now
  | .insertsToken deleted beganAt inserted =>
    some (server.commitRotation id deleted beganAt inserted)
  | .revokesToken token clientId => server.revokeToken id token clientId

def step : Machine McpOAuth OAuthEvent
  | server, .passes milliseconds =>
    some { server with now := server.now + milliseconds }
  | server, .request request =>
    some ({ server with nextCall := server.nextCall + 1 }.firstPhase
      randomBytes server.nextCall request)
  | server, .answers id =>
    (server.calls.get? id).bind fun phase =>
      server.answer randomBytes id phase
  | server, .fails id => some (server.endCall id)

end McpOAuth

end N8n
