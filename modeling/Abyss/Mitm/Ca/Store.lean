import Abyss.System.Machine
import Abyss.Text.Utf8

/-! The root CA store: three files, written one after another by any number of processes. -/
namespace Abyss.Mitm.Ca
open Abyss.Text

section Files

inductive CaFile where
  | certificateDer
  | certificatePem
  | privateKeyPem
  deriving DecidableEq, Repr

/-- What a key pair and its self-signed certificate are stored as. -/
structure Material where
  certificateDer : List UInt8
  certificatePem : Str
  privateKeyPem : Str
  deriving DecidableEq, Repr

def Material.contents (material : Material) : CaFile → List UInt8
  | .certificateDer => material.certificateDer
  | .certificatePem => toUtf8 material.certificatePem
  | .privateKeyPem => toUtf8 material.privateKeyPem

/-- The contents of the files of a store directory. -/
abbrev Directory := CaFile → Option (List UInt8)

@[grind =] def Directory.set (files : Directory) (file : CaFile) (contents : List UInt8) : Directory :=
  fun other => if other = file then some contents else files other

@[simp] theorem Directory.set_self (files : Directory) (file : CaFile) (contents : List UInt8) :
    files.set file contents file = some contents := if_pos rfl

theorem Directory.set_of_ne (files : Directory) {file other : CaFile} (contents : List UInt8) (h : other ≠ file) :
    files.set file contents other = files other := if_neg h

/-- The files of a store that one generation has written to its end. -/
def Material.stored (material : Material) : Directory := fun file => some (material.contents file)

/-- A write at an offset of its own; a gap behind the end of the file reads as zeroes. -/
def writeAt (contents : List UInt8) (offset : Nat) (chunk : List UInt8) : List UInt8 :=
  contents.take offset ++ List.replicate (offset - contents.length) 0 ++ chunk ++ contents.drop (offset + chunk.length)

end Files

section Store

/-- `CaError`, of what the store can fail with. -/
inductive CaError where
  | io (operation : String) (file : Option CaFile)
  | invalidStore (details : String)
  | missingStore
  | generation (operation : String)
  deriving DecidableEq, Repr

structure CertificateAuthority where
  certificateDer : List UInt8
  certificatePem : Str
  privateKeyPem : Str
  fingerprintSha256 : List UInt8
  deriving DecidableEq, Repr

/-- `digest` stands for SHA-256. -/
def CertificateAuthority.fromParts (digest : List UInt8 → List UInt8) (certificateDer : List UInt8)
    (certificatePem privateKeyPem : Str) : CertificateAuthority :=
  ⟨certificateDer, certificatePem, privateKeyPem, digest certificateDer⟩

def Material.authority (digest : List UInt8 → List UInt8) (material : Material) : CertificateAuthority :=
  .fromParts digest material.certificateDer material.certificatePem material.privateKeyPem

structure CaStorePresence where
  certificateDer : Bool
  certificatePem : Bool
  privateKeyPem : Bool
  deriving DecidableEq, Repr

namespace CaStorePresence
variable (presence : CaStorePresence)

def allMissing : Bool := !presence.certificateDer && !presence.certificatePem && !presence.privateKeyPem

def allPresent : Bool := presence.certificateDer && presence.certificatePem && presence.privateKeyPem

def publicMaterialOnly : Bool := presence.certificateDer && presence.certificatePem && !presence.privateKeyPem

end CaStorePresence

def incompleteDetails : String :=
  "expected abyss-root-ca.der, abyss-root-ca.pem, and abyss-root-ca-key.pem to be present together"

def CaFile.readOperation : CaFile → String
  | .certificateDer => "read root CA DER"
  | .certificatePem => "read root CA PEM"
  | .privateKeyPem => "read root CA private key PEM"

def CaFile.writeOperation : CaFile → String
  | .certificateDer => "write root CA DER"
  | .certificatePem => "write root CA PEM"
  | .privateKeyPem => "write root CA private key PEM"

/-- Who asks for the presence of the files; `load` on behalf of `load_required` or not. -/
inductive Asker where
  | loadWith
  | loadOrGenerateWith
  | load (required : Bool)
  deriving DecidableEq, Repr

/-- What follows `prepare_store`. -/
inductive Prepared where
  | load (required : Bool)
  | generate
  deriving DecidableEq, Repr

/-- Where a process is inside a call. -/
inductive Phase where
  | idle
  | presence (asker : Asker) (seen : List Bool)
  | prepare (prepared : Prepared)
  | readDer
  | readPem (certificateDer : List UInt8)
  | readKey (certificateDer : List UInt8) (certificatePem : Str)
  | generate
  | sign
  | openFile (material : Material) (file : CaFile)
  | writeFile (material : Material) (file : CaFile) (offset : Nat)
  deriving DecidableEq, Repr

abbrev CaResult := Except CaError (Option CertificateAuthority)

/-- What the presence of the files leads to. -/
@[grind =] def decidePresence (asker : Asker) (presence : CaStorePresence) : Phase ⊕ CaResult :=
  match asker with
  | .loadWith => .inl (if presence.allPresent then .prepare (.load false) else .presence (.load false) [])
  | .loadOrGenerateWith =>
    if presence.allPresent then .inl (.prepare (.load true))
    else if presence.allMissing || presence.publicMaterialOnly then .inl (.prepare .generate)
    else .inr (.error (.invalidStore incompleteDetails))
  | .load required =>
    if presence.allMissing then .inr (if required then .error .missingStore else .ok none)
    else if !presence.allPresent then .inr (.error (.invalidStore incompleteDetails))
    else .inl .readDer

/-- The files in the order that they are written in. -/
def CaFile.next : CaFile → Option CaFile
  | .certificateDer => some .certificatePem
  | .certificatePem => some .privateKeyPem
  | .privateKeyPem => none

end Store

section Processes

/-- The store, its processes, and the past: what was generated or was there at the start, and what was returned. -/
structure Store where
  files : Directory
  processes : List Phase
  generated : List Material
  returned : List CaResult

/-- What the next operation of a process does. -/
inductive Outcome where
  | start (asker : Asker)
  | ok
  | fail
  | signed (material : Material)
  | wrote (count : Nat)
  | crash
  deriving DecidableEq, Repr

structure Action where
  process : Nat
  outcome : Outcome
  deriving DecidableEq, Repr

namespace Store
variable (digest : List UInt8 → List UInt8) (s : Store) (i : Nat)

@[grind =] def goto (phase : Phase) : Store := { s with processes := s.processes.set i phase }

@[grind =] def finish (result : CaResult) : Store :=
  { s with processes := s.processes.set i .idle, returned := s.returned ++ [result] }

def fail (error : CaError) : Store := s.finish i (.error error)

/-- One more of the three checks of `presence`. -/
@[grind =] def check (asker : Asker) (found : Bool) : List Bool → Store
  | [certificateDer, certificatePem] =>
    match decidePresence asker ⟨certificateDer, certificatePem, found⟩ with
    | .inl phase => s.goto i phase
    | .inr result => s.finish i result
  | seen => s.goto i (.presence asker (seen ++ [found]))

/-- The file that the next check of `presence` is about. -/
def checked : List Bool → CaFile
  | [] => .certificateDer
  | [_] => .certificatePem
  | _ => .privateKeyPem

/-- `read_file` and what follows it. -/
@[grind =] def read (file : CaFile) (andThen : List UInt8 → Store) : Store :=
  match s.files file with
  | some contents => andThen contents
  | none => s.fail i (.io file.readOperation (some file))

/-- `read_to_string` and what follows it. -/
@[grind =] def readToString (file : CaFile) (andThen : Str → Store) : Store :=
  s.read i file fun contents =>
    match fromUtf8 contents with
    | some text => andThen text
    | none => s.fail i (.io file.readOperation (some file))

/-- One operation of a process that is inside a call. -/
@[grind =] def advance : Phase → Outcome → Option Store
  | .idle, .start asker => some (s.goto i (.presence asker []))
  | .presence asker seen, .ok => some (s.check i asker (s.files (checked seen)).isSome seen)
  | .presence asker seen, .fail => some (s.check i asker false seen)
  | .prepare (.load required), .ok => some (s.goto i (.presence (.load required) []))
  | .prepare .generate, .ok => some (s.goto i .generate)
  | .prepare _, .fail => some (s.fail i (.io "prepare CA material store" none))
  | .readDer, .ok => some (s.read i .certificateDer fun der => s.goto i (.readPem der))
  | .readDer, .fail => some (s.fail i (.io CaFile.certificateDer.readOperation (some .certificateDer)))
  | .readPem der, .ok => some (s.readToString i .certificatePem fun pem => s.goto i (.readKey der pem))
  | .readPem _, .fail => some (s.fail i (.io CaFile.certificatePem.readOperation (some .certificatePem)))
  | .readKey der pem, .ok =>
    some (s.readToString i .privateKeyPem fun key => s.finish i (.ok (some (.fromParts digest der pem key))))
  | .readKey _ _, .fail => some (s.fail i (.io CaFile.privateKeyPem.readOperation (some .privateKeyPem)))
  | .generate, .ok => some (s.goto i .sign)
  | .generate, .fail => some (s.fail i (.generation "generate root CA key"))
  | .sign, .signed material =>
    some { s.goto i (.openFile material .certificateDer) with generated := s.generated ++ [material] }
  | .sign, .fail => some (s.fail i (.generation "self-sign root CA certificate"))
  -- `create(true).truncate(true)`
  | .openFile material file, .ok =>
    some { s.goto i (.writeFile material file 0) with files := s.files.set file [] }
  | .openFile _ file, .fail => some (s.fail i (.io file.writeOperation (some file)))
  | .writeFile material file offset, .wrote count =>
    let chunk := ((material.contents file).drop offset).take count
    some { s.goto i (.writeFile material file (offset + chunk.length)) with
      files := s.files.set file (writeAt ((s.files file).getD []) offset chunk) }
  -- everything is written, synced and protected
  | .writeFile material file offset, .ok =>
    if offset < (material.contents file).length then none
    else match file.next with
      | some next => some (s.goto i (.openFile material next))
      | none => some (s.finish i (.ok (some (material.authority digest))))
  | .writeFile _ file _, .fail => some (s.fail i (.io file.writeOperation (some file)))
  | .idle, _ => none
  | _, .crash => some (s.goto i .idle)
  | _, _ => none

def step (action : Action) : Option Store :=
  s.processes[action.process]?.bind fun phase => s.advance digest action.process phase action.outcome

/-- A store that is empty. -/
def empty (processes : Nat) : Store := ⟨fun _ => none, List.replicate processes .idle, [], []⟩

/-- A store that an earlier generation has completed. -/
def complete (material : Material) (processes : Nat) : Store :=
  ⟨material.stored, List.replicate processes .idle, [material], []⟩

end Store

end Processes
end Abyss.Mitm.Ca
