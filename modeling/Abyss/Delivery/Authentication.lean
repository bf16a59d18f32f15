import Abyss.Text.Scalar

/-! Runtime authentication state owned exclusively by the delivery worker. -/
namespace Abyss.Delivery
open Abyss.Text

inductive DeliveryPluginError where
  | invalidDeliveryEndpoint (text : Str)
  | invalidCredentialUpdate (text : Str)
  | authenticationMutationUnsupported
  | authenticationUnavailable
  | translate (text : Str)
  | request (text : Str)
  | httpStatus (status : Nat)
  | response (text : Str)
  | rejected (rejected : Nat) (errors : List Str)
  | spool (detail : Str)
  deriving DecidableEq, Repr

inductive DeliveryAuthenticationMode where
  | none | authorizationHeaderFile | cookieHeaderFile | managedBearer
  deriving DecidableEq, Repr

inductive DeliveryAuthenticationState where
  | notRequired | configured | missing | authRequired
  deriving DecidableEq, Repr

structure DeliveryAuthentication where
  authorizationHeader : Option Str
  cookieHeader : Option Str
  deriving DecidableEq, Repr

def DeliveryAuthentication.none : DeliveryAuthentication := ⟨.none, .none⟩

def DeliveryAuthentication.fromBearer (token : Str) : DeliveryAuthentication := ⟨some ("Bearer ".toList ++ token), .none⟩

structure AuthenticationRuntime where
  authentication : DeliveryAuthentication
  state : DeliveryAuthenticationState
  deriving DecidableEq, Repr

/-- What `Url::parse` finds of a URL: its scheme, and the ASCII serialization of its origin. -/
structure Url where
  scheme : Str
  origin : Str
  deriving DecidableEq, Repr

/-- The mode, and the origin of the endpoint. -/
structure AuthenticationConfig where
  mode : DeliveryAuthenticationMode
  endpointOrigin : Str
  parseUrl : Str → Except Str Url

namespace AuthenticationConfig
variable (config : AuthenticationConfig)

def httpOrigin (value : Str) : Except DeliveryPluginError Str := do
  let url ← (config.parseUrl value).mapError .invalidDeliveryEndpoint
  if url.scheme ≠ "http".toList ∧ url.scheme ≠ "https".toList then
    .error (.invalidDeliveryEndpoint "only http and https URLs are supported".toList)
  else if url.origin = "null".toList then .error (.invalidDeliveryEndpoint "URL does not have a network origin".toList)
  else .ok url.origin

/-- `DeliveryAuthenticationManager::load`; `credential` is the content of the credential file of a static mode. -/
def load (credential : Str) : AuthenticationRuntime :=
  match config.mode with
  | .none => ⟨.none, .notRequired⟩
  | .authorizationHeaderFile => ⟨⟨some (trim credential), .none⟩, .configured⟩
  | .cookieHeaderFile => ⟨⟨.none, some (trim credential)⟩, .configured⟩
  | .managedBearer => ⟨.none, .missing⟩

def forRequest (runtime : AuthenticationRuntime) : Option DeliveryAuthentication :=
  match config.mode, runtime.state with
  | .managedBearer, .configured => some runtime.authentication
  | .none, _ | .authorizationHeaderFile, _ | .cookieHeaderFile, _ => some runtime.authentication
  | .managedBearer, _ => .none

/-- The checks of `set_managed_bearer`: the token that it installs. -/
def checkManagedBearer (bearerToken audience : Str) : Except DeliveryPluginError Str := do
  if config.mode ≠ .managedBearer then .error .authenticationMutationUnsupported
  else if trim bearerToken = [] then .error (.invalidCredentialUpdate "bearer_token must not be empty".toList)
  else
    let audience ← config.httpOrigin audience
    if audience ≠ config.endpointOrigin then
      .error (.invalidCredentialUpdate ("credential audience ".toList ++ audience ++
        " does not match delivery endpoint origin ".toList ++ config.endpointOrigin))
    else .ok (trim bearerToken)

/-- The rest of `set_managed_bearer`. -/
def installBearer (token : Str) : AuthenticationRuntime := ⟨.fromBearer token, .configured⟩

def clearedBearer : AuthenticationRuntime := ⟨.none, .missing⟩

/-- `mark_unauthorized`. -/
def markUnauthorized (runtime : AuthenticationRuntime) : AuthenticationRuntime :=
  if config.mode = .managedBearer then ⟨.none, .authRequired⟩ else runtime

variable {config}

theorem forRequest_managed (hmode : config.mode = .managedBearer) {runtime : AuthenticationRuntime}
    {authentication : DeliveryAuthentication} (h : config.forRequest runtime = some authentication) :
    runtime.state = .configured ∧ authentication = runtime.authentication := by
  unfold forRequest at h
  rw [hmode] at h
  cases hstate : runtime.state <;> simp_all

/-- A token is installed only when it is not blank, and for the origin of the endpoint. -/
theorem checkManagedBearer_ok {bearerToken audience token : Str} (h : config.checkManagedBearer bearerToken audience = .ok token) :
    token = trim bearerToken ∧ token ≠ [] ∧ config.httpOrigin audience = .ok config.endpointOrigin := by
  unfold checkManagedBearer at h
  split at h
  · cases h
  split at h
  · cases h
  cases horigin : config.httpOrigin audience with
  | error e =>
    rw [horigin] at h
    cases h
  | ok origin =>
    rw [horigin] at h
    simp only [bind, Except.bind] at h
    split at h
    · cases h
    · next hblank heq =>
      obtain rfl := not_not.mp heq
      cases h
      exact ⟨rfl, hblank, rfl⟩

end AuthenticationConfig
end Abyss.Delivery
