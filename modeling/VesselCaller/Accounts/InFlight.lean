import VesselCaller.Accounts.Auth

/-!
# Requests that were let in before others were served

`ManagedSessionMiddleware` checks the session of a request in a transaction of its own.
The view runs later, in another one that locks the organization and then the account, and
asks for the session no more; likewise the public views that send a link select the account
before they lock anything.  Between the two, other requests may be served.  `InFlightOp` is
the second half of such a request: its arguments name the account that was selected and the
session the browser carries, and nothing is assumed about either of them any longer.

## Main definitions

* `InFlightOp` — the second halves of requests that were let in earlier;
* `issueToSelected` — a link that is sent to the account selected in the first half.
-/

namespace VesselCaller.Accounts

open Lib

inductive InFlightOp where
  | changePassword (user session : Id) (currentPassword : String) (password : NewPassword)
      (recentMfa : Bool)
  | putProfile (user : Id) (data : ProfileInput)
  | confirmMfa (user session : Id) (secret : String) (valid : Bool) (codes : List PasswordHash)
  | regenerateRecoveryCodes (user : Id) (valid recentMfa : Bool) (codes : List PasswordHash)
  | disableMfa (user session : Id) (totp : Bool) (password : String)
  | logout (user session : Id)
  | signOutEverywhere (user session : Id)
  | forgotPassword (user : Id) (raw : String)
  | resendVerification (user : Id) (raw : String)
  deriving DecidableEq, Repr

/-- `issue_action_token` for an account a public view has selected: `InactiveActionTarget` is
passed over. -/
def issueToSelected (s : AccountScope) (ctx : Ctx) (userId : Id) (kind : TokenKind) (hours : ℕ)
    (raw : String) (allowPendingApproval : Bool) (response : Response) :
    Result (AccountScope × Response) := do
  if s.organization.opensTokens allowPendingApproval then do
    let user ← orRaise (Table.get userId s.users) (.server "User.DoesNotExist")
    let (s, _) ← issueActionToken s ctx user.id kind hours raw {} allowPendingApproval
    return (s, response)
  else return (s, response)

/-- The second half of a request. -/
def InFlightOp.handle (s : AccountScope) (ctx : Ctx) : InFlightOp → Result (AccountScope × Response)
  | .changePassword userId session currentPassword password recentMfa => do
      let user ← lockActiveCustomerIdentity s userId
      changePasswordOf s ctx user session currentPassword password recentMfa
  | .putProfile userId data => do
      let user ← lockActiveCustomerIdentity s userId
      putProfileOf s ctx user data
  | .confirmMfa userId session secret valid codes => do
      let user ← lockActiveCustomerIdentity s userId
      -- `persist_session` updates the browser's session and fails if it is gone.
      raiseIf (s.sessions.any (fun k => k.sessionKey = session && k.revokedAt.isNone) = false)
        (.server "UpdateError")
      confirmMfaOf s ctx user session secret valid codes
  | .regenerateRecoveryCodes userId valid recentMfa codes => do
      let user ← lockActiveCustomerIdentity s userId
      regenerateRecoveryCodesOf s user valid recentMfa codes
  | .disableMfa userId session totp password => do
      let user ← lockActiveCustomerIdentity s userId
      disableMfaOf s ctx user session totp password
  | .logout userId session => do
      let _ ← lockActiveCustomerIdentity s userId
      return (endCurrentSession s ctx (some session), .noContent)
  | .signOutEverywhere userId session => do
      let user ← lockActiveCustomerIdentity s userId
      return (endCurrentSession (revokeSessions s ctx user.id none) ctx (some session), .noContent)
  | .forgotPassword userId raw =>
      issueToSelected s ctx userId .resetPassword 1 raw false
        (.accepted "If the account exists, reset instructions have been sent")
  | .resendVerification userId raw =>
      issueToSelected s ctx userId .verifyEmail 24 raw true
        (.accepted "If the account is pending, a new link has been sent")

end VesselCaller.Accounts
