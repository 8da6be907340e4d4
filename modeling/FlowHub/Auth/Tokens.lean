import FlowHub.Table

namespace FlowHub.Auth

/-- `_REFRESH_EXPIRE_DAYS`, in microseconds. -/
def refreshExpiry : Int := 30 * 24 * 3600 * 1000000

structure FlowHubUser where
  id : Nat
  isActive : Bool

structure FlowHubRefreshToken where
  userId : Nat
  tokenHash : String
  expiresAt : Int
  revokedAt : Option Int
  deriving DecidableEq

def getUserById (users : List FlowHubUser) (userId : Nat) : Option FlowHubUser :=
  Table.get FlowHubUser.id users userId

variable (tokens : List FlowHubRefreshToken)

def getActiveRefreshToken (tokenHash : String) : Option FlowHubRefreshToken :=
  tokens.find? fun t => decide (t.tokenHash = tokenHash ∧ t.revokedAt = none)

/-- The commit of `revoke_refresh_token`. -/
def revokeRefreshToken (tokenHash : String) (now : Int) : List FlowHubRefreshToken :=
  Table.set FlowHubRefreshToken.tokenHash tokens tokenHash fun t => { t with revokedAt := some now }

/-- The commit of `store_refresh_token`. -/
def storeRefreshToken (userId : Nat) (tokenHash : String) (now : Int) : List FlowHubRefreshToken :=
  tokens ++ [⟨userId, tokenHash, now + refreshExpiry, none⟩]

/-- Where a request is, between its queries and its commits. -/
inductive Request where
  | refresh (tokenHash : String)
  | found (token : FlowHubRefreshToken)
  | admitted (token : FlowHubRefreshToken)
  | revoking (token : FlowHubRefreshToken)
  | revoked (token : FlowHubRefreshToken)
  | logout (tokenHash : String)
  | leaving (tokenHash : String)
  /-- `login`, behind the check of the password -/
  | login (userId : Nat)
  | answered (tokenHash : String)
  | refused | left
  deriving DecidableEq

namespace Request

def arrives : Request → Bool
  | refresh _ | logout _ | login _ => true
  | _ => false

def isOpen : Request → Bool
  | answered _ | refused | left => false
  | _ => true

/-- A `refresh` has read the token as active and has not committed its revocation. -/
def holds (tokenHash : String) : Request → Bool
  | found token | admitted token | revoking token => decide (token.tokenHash = tokenHash)
  | _ => false

/-- A `refresh` is behind the revocation of the token, and has issued nothing yet. -/
def spent (tokenHash : String) : Request → Bool
  | revoked token => decide (token.tokenHash = tokenHash)
  | _ => false

end Request

/-- A token pair that was issued, for a login or in the place of a token. -/
structure Issue where
  parent : Option String
  child : String
  /-- the token of the login -/
  session : String
  request : Nat

structure World where
  now : Int
  users : List FlowHubUser
  tokens : List FlowHubRefreshToken
  requests : List Request
  issued : List Issue

namespace World

def start : World := ⟨0, [], [], [], []⟩

def session (w : World) (tokenHash : String) : String :=
  ((Table.get Issue.child w.issued tokenHash).map Issue.session).getD tokenHash

variable (w : World)

variable (i : Nat)

/-- Request `i` goes on to where it is next. -/
def move (next : Request) : World := { w with requests := w.requests.set i next }

/-- The query of `refresh` for the token, and the check of its expiry. -/
def look (tokenHash : String) : World :=
  match getActiveRefreshToken w.tokens tokenHash with
  | none => w.move i .refused
  | some stored => if stored.expiresAt < w.now then w.move i .refused else w.move i (.found stored)

/-- The query of `refresh` for the user. -/
def accept (token : FlowHubRefreshToken) : World :=
  match getUserById w.users token.userId with
  | none => w.move i .refused
  | some user => if user.isActive then w.move i (.admitted token) else w.move i .refused

/-- The query of `revoke_refresh_token`; without a row there is nothing to commit. -/
def seek (token : FlowHubRefreshToken) : World :=
  if Table.has FlowHubRefreshToken.tokenHash w.tokens token.tokenHash then w.move i (.revoking token)
  else w.move i (.revoked token)

/-- The commit of `revoke_refresh_token`; it raises where the row is gone. -/
def revoke (token : FlowHubRefreshToken) : World :=
  if Table.has FlowHubRefreshToken.tokenHash w.tokens token.tokenHash then
    { w.move i (.revoked token) with tokens := revokeRefreshToken w.tokens token.tokenHash w.now }
  else w.move i .refused

/-- The commit of `_issue_tokens`; it raises where the user is gone. -/
def issue (parent : Option String) (userId : Nat) (fresh : String) : World :=
  if (getUserById w.users userId).isSome then
    { w.move i (.answered fresh) with
      tokens := storeRefreshToken w.tokens userId fresh w.now
      issued := w.issued ++ [⟨parent, fresh, (parent.map w.session).getD fresh, i⟩] }
  else w.move i .refused

/-- The query of `revoke_refresh_token` in `logout`. -/
def seekLogout (tokenHash : String) : World :=
  if Table.has FlowHubRefreshToken.tokenHash w.tokens tokenHash then w.move i (.leaving tokenHash)
  else w.move i .left

def revokeLogout (tokenHash : String) : World :=
  { w.move i .left with tokens := revokeRefreshToken w.tokens tokenHash w.now }

/-- The users are changed; the tokens of a user that is removed go with it. -/
def account (users : List FlowHubUser) : World :=
  { w with users, tokens := w.tokens.filter fun t => (getUserById users t.userId).isSome }

end World

/-- The steps of the requests, in any order; the label is the token that a `refresh` looks up. A new
token is a random one that was never issued. -/
inductive Step : World → Option String → World → Prop
  | time (w : World) (later : Int) (h : w.now ≤ later) : Step w none { w with now := later }
  | account (w : World) (users : List FlowHubUser) : Step w none (w.account users)
  | arrive (w : World) (request : Request) (h : request.arrives = true) :
      Step w none { w with requests := w.requests ++ [request] }
  | look (w : World) (i : Nat) (tokenHash : String) (h : w.requests[i]? = some (.refresh tokenHash)) :
      Step w (some tokenHash) (w.look i tokenHash)
  | accept (w : World) (i : Nat) (token : FlowHubRefreshToken) (h : w.requests[i]? = some (.found token)) :
      Step w none (w.accept i token)
  | seek (w : World) (i : Nat) (token : FlowHubRefreshToken) (h : w.requests[i]? = some (.admitted token)) :
      Step w none (w.seek i token)
  | revoke (w : World) (i : Nat) (token : FlowHubRefreshToken) (h : w.requests[i]? = some (.revoking token)) :
      Step w none (w.revoke i token)
  | issue (w : World) (i : Nat) (token : FlowHubRefreshToken) (fresh : String)
      (h : w.requests[i]? = some (.revoked token)) (hfresh : fresh ∉ w.issued.map Issue.child) :
      Step w none (w.issue i (some token.tokenHash) token.userId fresh)
  | issueLogin (w : World) (i : Nat) (userId : Nat) (fresh : String)
      (h : w.requests[i]? = some (.login userId)) (hfresh : fresh ∉ w.issued.map Issue.child) :
      Step w none (w.issue i none userId fresh)
  | seekLogout (w : World) (i : Nat) (tokenHash : String) (h : w.requests[i]? = some (.logout tokenHash)) :
      Step w none (w.seekLogout i tokenHash)
  | revokeLogout (w : World) (i : Nat) (tokenHash : String)
      (h : w.requests[i]? = some (.leaving tokenHash)) : Step w none (w.revokeLogout i tokenHash)
  /-- The request is cut off. -/
  | cut (w : World) (i : Nat) (request : Request) (h : w.requests[i]? = some request)
      (hopen : request.isOpen = true) : Step w none (w.move i .refused)

/-- Steps that all meet a condition on the world before them. -/
inductive Run (C : World → Option String → Prop) : World → World → Prop
  | refl (w : World) : Run C w w
  | step {w v v' : World} {label : Option String} (run : Run C w v) (h : Step v label v')
      (hc : C v label) : Run C w v'

end FlowHub.Auth
