import Abyss.System.ReplacedFile
import Abyss.Text.Base64
import Abyss.Text.Pem
import Abyss.Text.Utf8

/-! The trust store of Debian-family hosts: one certificate file, from which the system's bundle is
generated anew on request. -/
namespace Abyss.Mitm.Ca
open Abyss.Text Abyss.System

section Pem

/-- `chunks(64)`. -/
def chunks : Str → List Str
  | [] => []
  | c :: rest => (c :: rest.take 63) :: chunks (rest.drop 63)
  termination_by s => s.length
  decreasing_by
    rw [List.length_drop, List.length_cons]
    omega

def certificatePem (certificateDer : List UInt8) : Str :=
  Pem.beginLine ++ ['\n'] ++ (chunks (Base64.encode certificateDer)).flatMap (· ++ ['\n']) ++ Pem.endLine ++ ['\n']

def decodeCertificatePem (certificatePem : List UInt8) : Except String (List UInt8) :=
  match fromUtf8 certificatePem with
  | none => .error "certificate is not UTF-8"
  | some text =>
    match ((stripFront Pem.beginLine text).bind (stripBack (Pem.endLine ++ ['\n']))).or
        ((stripFront Pem.beginLine text).bind (stripBack Pem.endLine)) with
    | none => .error "certificate PEM delimiters are invalid"
    | some body =>
      match Base64.decode (Pem.lines body).flatten with
      | none => .error "certificate PEM body is not valid base64"
      | some certificateDer => .ok certificateDer

end Pem

section Model

inductive TrustStoreScope where
  | currentUser
  | localMachine
  deriving DecidableEq, Repr

/-- `CaError`, of what the adapter can fail with. -/
inductive TrustStoreError where
  | unsupportedPlatform (platform capability : String)
  | platform (operation details : String)
  | io (operation : String)
  deriving DecidableEq, Repr

/-- The certificate file, and the certificate file as the last refresh of the system's bundle found it. -/
structure Host where
  store : ReplacedFile
  bundle : Option (List UInt8)

def Host.certificate (host : Host) : Option (List UInt8) := host.store.file

/-- The certificate file is removed. -/
def Host.removed (host : Host) : Host := { host with store := { host.store with file := none } }

/-- The steps behind the write of the temporary certificate file. -/
inductive ReplaceStep where
  | syncAll
  | rename
  deriving DecidableEq, Repr

/-- How the command that refreshes the bundle fails. -/
inductive RefreshFault where
  | spawn
  | failure (details : String)
  deriving DecidableEq, Repr

/-- What the calls to the system do, where they do not succeed. A file is only taken for absent in a
directory that cannot be written either. -/
structure Faults where
  read : Nat → Bool
  hidden : Bool
  write : WriteFaults ReplaceStep
  remove : Bool
  refresh : Option RefreshFault
  hidden_create : hidden = true → write.fault = some .create

variable {Fingerprint : Type} [DecidableEq Fingerprint]

structure TrustStoreStatus (Fingerprint : Type) where
  scope : TrustStoreScope
  installed : Bool
  fingerprintSha256 : Fingerprint
  deriving DecidableEq, Repr

/-- A process that calls the adapter, and what fails under it. -/
structure Process where
  pid : Nat
  faults : Faults

abbrev CaOp := Fallible Host TrustStoreError

def fail {α : Type} (error : TrustStoreError) : CaOp α := Fallible.lift (.error error)

def certificatePath : TrustStoreScope → CaOp Unit
  | .localMachine => pure ()
  | .currentUser => fail (.unsupportedPlatform "linux" "current-user root certificate trust")

namespace PlatformTrustStore
variable (fromDer : List UInt8 → Fingerprint) (process : Process)

/-- The `k`-th look at the certificate file during a call. -/
def certificateMatches (k : Nat) (fingerprint : Fingerprint) : CaOp Bool := do
  let certificate := (← Fallible.get).certificate
  if process.faults.read k then fail (.io "read Ubuntu/Debian root CA certificate")
  else match certificate with
    | none => return false
    | some contents =>
      match decodeCertificatePem contents with
      | .error details => fail (.platform "inspect Ubuntu/Debian root CA certificate" details)
      | .ok certificateDer => return decide (fromDer certificateDer = fingerprint)

def writeOperation : WriteFault ReplaceStep → String
  | .create => "create temporary Ubuntu/Debian root CA certificate"
  | .write _ => "write temporary Ubuntu/Debian root CA certificate"
  | .step .syncAll => "sync temporary Ubuntu/Debian root CA certificate"
  | .step .rename => "replace Ubuntu/Debian root CA certificate"

def writeCertificateAtomically (contents : List UInt8) : CaOp Unit :=
  Fallible.zoom Host.store (fun store host => { host with store }) (fun fault => .io (writeOperation fault))
    (ReplacedFile.replace process.pid process.faults.write contents)

def updateSystemCertificates : CaOp Unit :=
  match process.faults.refresh with
  | some .spawn => fail (.io "run Ubuntu/Debian update-ca-certificates")
  | some (.failure details) => fail (.platform "run Ubuntu/Debian update-ca-certificates" details)
  | none => Fallible.modify fun host => { host with bundle := host.certificate }

def rootCertificateStatus (k : Nat) (fingerprint : Fingerprint) (scope : TrustStoreScope) :
    CaOp (TrustStoreStatus Fingerprint) := do
  certificatePath scope
  return ⟨scope, ← certificateMatches fromDer process k fingerprint, fingerprint⟩

def installRootCertificate (certificateDer : List UInt8) (fingerprint : Fingerprint) (scope : TrustStoreScope) :
    CaOp (TrustStoreStatus Fingerprint) := do
  certificatePath scope
  let found := (← Fallible.get).certificate.isSome && !process.faults.hidden
  let foreign ← if found then (!·) <$> certificateMatches fromDer process 1 fingerprint else pure false
  if foreign then
    fail (.platform "install Ubuntu/Debian root CA certificate" "refusing to replace a different certificate")
  else
    writeCertificateAtomically process (toUtf8 (certificatePem certificateDer))
    updateSystemCertificates process
    rootCertificateStatus fromDer process 2 fingerprint scope

def uninstallRootCertificate (fingerprint : Fingerprint) (scope : TrustStoreScope) :
    CaOp (TrustStoreStatus Fingerprint) := do
  certificatePath scope
  if !(← certificateMatches fromDer process 0 fingerprint) then rootCertificateStatus fromDer process 1 fingerprint scope
  else
    -- the file may have been replaced since the first look at it
    if ← certificateMatches fromDer process 1 fingerprint then
      if process.faults.remove then fail (.io "remove Ubuntu/Debian root CA certificate")
      else
        Fallible.modify Host.removed
        updateSystemCertificates process
        rootCertificateStatus fromDer process 2 fingerprint scope
    else rootCertificateStatus fromDer process 2 fingerprint scope

/-- The platform-neutral installation, which skips a certificate that is already trusted. -/
def install (certificateDer : List UInt8) (scope : TrustStoreScope) : CaOp (TrustStoreStatus Fingerprint) := do
  let fingerprint := fromDer certificateDer
  let status ← rootCertificateStatus fromDer process 0 fingerprint scope
  if status.installed then return status
  else
    let status ← installRootCertificate fromDer process certificateDer fingerprint scope
    if status.installed then return status
    else fail (.platform "install root certificate"
      "the platform trust store does not trust the Abyss root certificate after installation")

end PlatformTrustStore
end Model

section RoundTrip

private theorem visible_not_space {c : Char} (h : isVisible c = true) : isWhitespace c = false := by
  simp only [isVisible, Bool.and_eq_true, decide_eq_true_eq] at h
  simp only [isWhitespace, Bool.or_eq_false_iff, Bool.and_eq_false_iff, decide_eq_false_iff_not, beq_eq_false_iff_ne]
  omega

private theorem trim_visible {s : Str} (h : ∀ c ∈ s, isVisible c = true) : trim s = s := by
  refine trim_eq_self ?_ ?_
  · cases hs : s.head? with
    | none => rfl
    | some c => exact visible_not_space (h c (List.mem_of_head? hs))
  · cases hs : s.getLast? with
    | none => rfl
    | some c => exact visible_not_space (h c (List.mem_of_getLast? hs))

end RoundTrip

/-! What each call of the adapter can do. -/
section Calls
open Fallible PlatformTrustStore
variable {Fingerprint : Type} [DecidableEq Fingerprint] {fromDer : List UInt8 → Fingerprint} {process : Process}
  {host : Host} {fingerprint : Fingerprint} {scope : TrustStoreScope}

/-- The certificate file holds a certificate with this fingerprint. -/
def Host.Holds (fromDer : List UInt8 → Fingerprint) (fingerprint : Fingerprint) (host : Host) : Prop :=
  ∃ contents certificateDer, host.certificate = some contents ∧ decodeCertificatePem contents = .ok certificateDer ∧
    fromDer certificateDer = fingerprint

/-- The process can write the certificate file. -/
def Writable (process : Process) (host : Host) : Prop := host.store.Writable process.pid process.faults.write

/-- Only a temporary file has changed. -/
def Host.Cleared (host : Host) (process : Process) (host' : Host) : Prop :=
  host.store.Cleared process.pid process.faults.write host'.store ∧ host'.bundle = host.bundle

/-- The certificate file, replaced. -/
def Host.replaced (host : Host) (process : Process) (contents : List UInt8) : Host :=
  { host with store := { host.store.cleared process.pid with file := some contents } }

/-- The host behind the refresh of a process. -/
def Host.refreshed (host : Host) (process : Process) : Host :=
  if process.faults.refresh = none then { host with bundle := host.certificate } else host

/-- What an installation has written. -/
def Host.written (host : Host) (process : Process) (certificateDer : List UInt8) : Host :=
  (host.replaced process (toUtf8 (certificatePem certificateDer))).refreshed process

end Calls

/-! What calls of any processes do one after the other. -/
section Runs
open Fallible PlatformTrustStore
variable {Fingerprint : Type} [DecidableEq Fingerprint] {fromDer : List UInt8 → Fingerprint} {certificateDer : List UInt8}
  {host : Host} {processes : List Process}

inductive Task where
  | install
  | uninstall
  | status
  deriving DecidableEq, Repr

structure Call where
  process : Process
  task : Task
  certificateDer : List UInt8
  scope : TrustStoreScope

/-- `RootCertificateAuthority`'s trust-store calls. -/
def Call.run (fromDer : List UInt8 → Fingerprint) (call : Call) : CaOp (TrustStoreStatus Fingerprint) :=
  match call.task with
  | .install => install fromDer call.process call.certificateDer call.scope
  | .uninstall => uninstallRootCertificate fromDer call.process (fromDer call.certificateDer) call.scope
  | .status => rootCertificateStatus fromDer call.process 0 (fromDer call.certificateDer) call.scope

omit [DecidableEq Fingerprint] in
theorem Host.Holds.congr {fingerprint : Fingerprint} {host' : Host} (h : host'.Holds fromDer fingerprint)
    (hcertificate : host'.certificate = host.certificate) : host.Holds fromDer fingerprint := by
  obtain ⟨contents, der, hcontents, hder⟩ := h
  exact ⟨contents, der, hcertificate ▸ hcontents, hder⟩

/-- The contents come whole from an installation. -/
def Written (calls : List Call) (contents : List UInt8) : Prop :=
  ∃ call ∈ calls, call.task = .install ∧ contents = toUtf8 (certificatePem call.certificateDer)

/-- An installation by this process gets past its first look at the file, and can write it. -/
def Process.writes (process : Process) : Bool := !process.faults.read 0 && process.faults.write.fault.isNone

/-- Installations of one certificate by processes in turn. -/
def installs (fromDer : List UInt8 → Fingerprint) (certificateDer : List UInt8) (processes : List Process) :
    Host → List (Except TrustStoreError (TrustStoreStatus Fingerprint)) × Host :=
  all (processes.map fun process => install fromDer process certificateDer .localMachine)

end Runs

end Abyss.Mitm.Ca
