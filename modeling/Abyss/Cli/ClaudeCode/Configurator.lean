import Abyss.System.Fallible
import Abyss.Text.Json
import Abyss.Text.Pem

/-! Claude Code configuration: the Abyss-managed CA bundle, the settings that name it, and the
state that is kept beside them. -/
namespace Abyss.Cli.ClaudeCode
open Abyss.Text Abyss.System

inductive CliError where
  | filesystem (action : String) (path : Str)
  | invalidConfiguration (details : Str)
  deriving DecidableEq, Repr

section Pem

/-- `replace("\r\n", "\n")`. -/
def replaceCrLf : Str → Str
  | [] => []
  | [c] => [c]
  | c :: d :: rest => if c = '\r' ∧ d = '\n' then '\n' :: replaceCrLf rest else c :: replaceCrLf (d :: rest)

def canonicalPem (content : Str) : Str := (replaceCrLf content).map (fun c => if c = '\r' then '\n' else c)

def normalizedPem (content : Str) : Str := trim (canonicalPem content) ++ ['\n']

def containsCertificate (content certificate : Str) : Bool :=
  decide (trim (normalizedPem certificate) <:+: canonicalPem content)

end Pem

section Paths

/-- `Path::join` with a relative path. -/
def joinPath (directory name : Str) : Str :=
  if directory.getLast? = some '/' then directory ++ name else directory ++ '/' :: name

def isAbsolute (path : Str) : Bool := path.head? = some '/'

/-- The components of an absolute path, which are what two paths are compared by. -/
def components (path : Str) : List Str := (path.splitOn '/').filter (fun name => name ≠ [] ∧ name ≠ ['.'])

end Paths

section Files

abbrev Members := List (Str × Json)

/-- `Map::get`. -/
def member (members : Members) (key : Str) : Option Json := (members.find? (fun m => m.1 = key)).map Prod.snd

/-- `Map::insert`. -/
def setMember (members : Members) (key : Str) (value : Json) : Members :=
  match members with
  | [] => [(key, value)]
  | m :: members => if m.1 = key then (key, value) :: members else m :: setMember members key value

/-- A settings file: none, white space only, one that is not JSON, or its value. -/
inductive SettingsFile where
  | absent
  | blank
  | malformed
  | contents (value : Json)

/-- The document of the state file. -/
structure ConfigurationState where
  configuredAt : Str
  settingsPath : Str
  managedBundlePath : Str
  previousEnvironment : Members
  backupPath : Option Str

/-- The files that configuration reads and writes; the others are found by the components of their path. -/
structure Disk where
  rootCertificate : Option Str
  settings : SettingsFile
  managedBundle : Option Str
  state : Option ConfigurationState
  backups : List (Str × SettingsFile)
  others : List Str → Option Str

/-- Where the write of a file beside its destination stops; the destination stays as it was. -/
inductive WriteFault where
  | createDirectory | openTemporary | writeAll | syncAll | replace
  deriving DecidableEq, Repr

/-- What the calls to the system do, where they do not succeed. -/
structure Faults where
  readRoot : Bool
  readSettings : Bool
  readPrevious : Bool
  createDirectory : Bool
  writeBundle : Option WriteFault
  backup : Bool
  writeSettings : Option WriteFault
  writeState : Option WriteFault

def Faults.none : Faults := ⟨false, false, false, false, .none, false, .none, .none⟩

end Files

/-- The paths below an absolute home directory and the CA directory. -/
structure ClaudeCodeConfigurator where
  home : Str
  caDirectory : Str
  absolute : isAbsolute home = true

def nodeExtraCaCerts : Str := "NODE_EXTRA_CA_CERTS".toList

def envKey : Str := "env".toList

namespace ClaudeCodeConfigurator
variable (configurator : ClaudeCodeConfigurator)

def claudeDirectory : Str := joinPath configurator.home ".claude".toList
def settingsPath : Str := joinPath configurator.claudeDirectory "settings.json".toList
def managedBundlePath : Str := joinPath configurator.claudeDirectory "abyss-ca-bundle.pem".toList
def statePath : Str := joinPath configurator.claudeDirectory "abyss-ca-state.json".toList
def rootCertificatePath : Str := joinPath configurator.caDirectory "abyss-root-ca.pem".toList

section Reads
variable (faults : Faults) (disk : Disk)

def readRootCertificate : Except CliError Str :=
  if faults.readRoot then .error (.filesystem "read Abyss root certificate" configurator.rootCertificatePath)
  else match disk.rootCertificate with
    | some root => .ok root
    | none => .error (.invalidConfiguration ("Abyss root certificate was not found at ".toList ++ configurator.rootCertificatePath))

def readSettings : Except CliError Members :=
  if faults.readSettings then .error (.filesystem "read Claude Code settings" configurator.settingsPath)
  else match disk.settings with
    | .absent => .ok []
    | .blank => .ok []
    | .malformed =>
      .error (.invalidConfiguration ("Claude Code settings are not valid JSON at ".toList ++ configurator.settingsPath))
    | .contents (.obj members) => .ok members
    | .contents _ =>
      .error (.invalidConfiguration ("Claude Code settings must be a JSON object at ".toList ++ configurator.settingsPath))

/-- The environment that `env` holds, which is added where there is none. -/
def environmentObject (settings : Members) : Except CliError Members :=
  match member settings envKey with
  | none => .ok []
  | some (.obj environment) => .ok environment
  | some _ =>
    .error (.invalidConfiguration ("Claude Code settings env field must be a JSON object at ".toList ++ configurator.settingsPath))

def previousEnvironment (environment : Members) : Members :=
  match member environment nodeExtraCaCerts with
  | none => []
  | some value => [(nodeExtraCaCerts, value)]

/-- The path that is not blank, trimmed. -/
def previousPath (previousBundle : Option Str) : Option Str := (previousBundle.map trim).filter (fun path => path ≠ [])

/-- The file at an absolute path. -/
def fileAt (path : Str) : Option Str :=
  if components path = components configurator.managedBundlePath then disk.managedBundle else disk.others (components path)

def readPrevious (path : Str) : Except CliError Str :=
  if components path = components configurator.managedBundlePath ∧ disk.managedBundle = none then .ok []
  else if faults.readPrevious then .error (.filesystem "read existing Claude Code CA bundle" path)
  else match configurator.fileAt disk path with
    | some contents => .ok contents
    | none => .error (.filesystem "read existing Claude Code CA bundle" path)

def mergedBundle (previousBundle : Option Str) (rootCertificate : Str) : Except CliError Str :=
  match previousPath previousBundle with
  | none => .ok (normalizedPem rootCertificate)
  | some path =>
    if ¬ isAbsolute path then
      .error (.invalidConfiguration ("Claude Code NODE_EXTRA_CA_CERTS path must be absolute: ".toList ++ path))
    else match configurator.readPrevious faults disk path with
      | .error error => .error error
      | .ok previousContents =>
        if containsCertificate previousContents rootCertificate then .ok (normalizedPem previousContents)
        else .ok (normalizedPem previousContents ++ '\n' :: normalizedPem rootCertificate)

/-- What a run is going to write. -/
structure Plan where
  bundle : Str
  settings : Members
  previousEnvironment : Members

def plan : Except CliError Plan := do
  let rootCertificate ← configurator.readRootCertificate faults disk
  let settings ← configurator.readSettings faults disk
  let environment ← configurator.environmentObject settings
  let previous := previousEnvironment environment
  let bundle ← configurator.mergedBundle faults disk ((member previous nodeExtraCaCerts).bind Json.asStr) rootCertificate
  let environment := setMember environment nodeExtraCaCerts (.str configurator.managedBundlePath)
  return ⟨bundle, setMember settings envKey (.obj environment), previous⟩

end Reads

section Writes

/-- One run, with the time and the process that its files are named by. -/
structure Run where
  rootCertificate : Str
  configuredAt : Str
  timestamp : Str
  pid : Nat
  faults : Faults

def temporaryPath (fileName : Str) (pid : Nat) : Str :=
  joinPath configurator.claudeDirectory ('.' :: fileName ++ ".tmp-".toList ++ Nat.toDigits 10 pid)

/-- Write a file of the Claude Code directory and put it in place. -/
def writeTextAtomic (fault : Option WriteFault) (fileName : Str) (pid : Nat) (store : Disk → Disk) :
    Fallible Disk CliError Unit := fun disk =>
  match fault with
  | none => (.ok (), store disk)
  | some .createDirectory => (.error (.filesystem "create configuration directory" configurator.claudeDirectory), disk)
  | some .openTemporary =>
    (.error (.filesystem "create temporary Claude Code file" (configurator.temporaryPath fileName pid)), disk)
  | some .writeAll =>
    (.error (.filesystem "write temporary Claude Code file" (configurator.temporaryPath fileName pid)), disk)
  | some .syncAll =>
    (.error (.filesystem "sync temporary Claude Code file" (configurator.temporaryPath fileName pid)), disk)
  | some .replace =>
    (.error (.filesystem "replace Claude Code file" (joinPath configurator.claudeDirectory fileName)), disk)

def backupPath (run : Run) : Str :=
  joinPath configurator.claudeDirectory ("settings.json.abyss-backup-".toList ++ run.timestamp ++ '-' ::
    Nat.toDigits 10 run.pid)

/-- `fs::copy` of the settings, if there are any. -/
def backupSettings (run : Run) : Fallible Disk CliError (Option Str) := fun disk =>
  match disk.settings with
  | .absent => (.ok none, disk)
  | settings =>
    if run.faults.backup then (.error (.filesystem "backup Claude Code settings" (configurator.backupPath run)), disk)
    else (.ok (some (configurator.backupPath run)),
      { disk with backups := (configurator.backupPath run, settings) :: disk.backups })

def readPlan (faults : Faults) : Fallible Disk CliError Plan := fun disk => (configurator.plan faults disk, disk)

def createClaudeDirectory (faults : Faults) : Fallible Disk CliError Unit := fun disk =>
  if faults.createDirectory then
    (.error (.filesystem "create Claude Code configuration directory" configurator.claudeDirectory), disk)
  else (.ok (), disk)

def configure (run : Run) : Fallible Disk CliError Unit := do
  let plan ← configurator.readPlan run.faults
  configurator.createClaudeDirectory run.faults
  configurator.writeTextAtomic run.faults.writeBundle "abyss-ca-bundle.pem".toList run.pid
    (fun disk => { disk with managedBundle := some plan.bundle })
  let backupPath ← configurator.backupSettings run
  configurator.writeTextAtomic run.faults.writeSettings "settings.json".toList run.pid
    (fun disk => { disk with settings := .contents (.obj plan.settings) })
  configurator.writeTextAtomic run.faults.writeState "abyss-ca-state.json".toList run.pid
    (fun disk => { disk with
      state := some ⟨run.configuredAt, configurator.settingsPath, configurator.managedBundlePath,
        plan.previousEnvironment, backupPath⟩ })

/-- A run that finds its own root certificate. -/
def runOn (run : Run) (disk : Disk) : Except CliError Unit × Disk :=
  configurator.configure run { disk with rootCertificate := some run.rootCertificate }

/-- The disk after runs that all succeed. -/
def configureAll : List Run → Disk → Option Disk
  | [], disk => some disk
  | run :: runs, disk => match configurator.runOn run disk with
    | (.ok (), disk) => configureAll runs disk
    | (.error _, _) => none

end Writes
end ClaudeCodeConfigurator

section Bundle
open Abyss.Text

section Normalization

theorem replaceCrLf_eq_self {s : Str} (h : '\r' ∉ s) : replaceCrLf s = s := by
  induction s with
  | nil => rfl
  | cons c s ih =>
    rw [List.mem_cons, not_or] at h
    cases s with
    | nil => rfl
    | cons d s =>
      have hc : ¬ (c = '\r' ∧ d = '\n') := fun hpair => h.1 hpair.1.symm
      rw [replaceCrLf, if_neg hc, ih h.2]

/-- A text without carriage returns is canonical. -/
theorem canonicalPem_eq_self {s : Str} (h : '\r' ∉ s) : canonicalPem s = s := by
  rw [canonicalPem, replaceCrLf_eq_self h]
  conv_rhs => rw [← List.map_id s]
  refine List.map_congr_left fun c hc => if_neg ?_
  rintro rfl
  exact h hc

theorem not_mem_canonicalPem (s : Str) : '\r' ∉ canonicalPem s := by
  intro h
  obtain ⟨c, -, hc⟩ := List.mem_map.mp h
  split at hc
  · exact absurd hc (by decide)
  · next hne => exact hne hc

theorem mem_of_mem_trim {c : Char} {s : Str} (h : c ∈ trim s) : c ∈ s :=
  (List.dropWhile_suffix isWhitespace).subset (( List.rdropWhile_prefix isWhitespace _).subset h)

theorem not_mem_normalizedPem (s : Str) : '\r' ∉ normalizedPem s := by
  intro h
  rcases List.mem_append.mp h with h | h
  · exact not_mem_canonicalPem s (mem_of_mem_trim h)
  · exact absurd (List.mem_singleton.mp h) (by decide)

theorem trim_normalizedPem (s : Str) : trim (normalizedPem s) = trim (canonicalPem s) := by
  rw [normalizedPem, trim_concat (by decide), trim_trim]

end Normalization

section Certificates

/-- The certificates of a bundle. -/
def certificates (content : Str) : List (List Str) := Pem.blocks (Pem.lines (canonicalPem content))

/-- The lines of a root certificate. -/
def rootBlock (rootCertificate : Str) : List Str := Pem.lines (trim (canonicalPem rootCertificate))

theorem lines_normalizedPem (s : Str) : Pem.lines (normalizedPem s) = rootBlock s ++ [[]] :=
  Pem.lines_append (trim (canonicalPem s)) []

theorem certificates_normalizedPem (s : Str) : certificates (normalizedPem s) = certificates s := by
  rw [certificates, canonicalPem_eq_self (not_mem_normalizedPem s), lines_normalizedPem, Pem.blocks_append_blank,
    rootBlock, Pem.blocks_lines_trim, certificates]

theorem certificates_root {root : Str} (h : Pem.IsBlock (rootBlock root)) :
    certificates (normalizedPem root) = [rootBlock root] := by
  rw [certificates, canonicalPem_eq_self (not_mem_normalizedPem root), lines_normalizedPem, Pem.blocks_append_blank,
    Pem.blocks_of_isBlock h]

theorem not_mem_merged (previous root : Str) : '\r' ∉ normalizedPem previous ++ '\n' :: normalizedPem root := by
  rw [List.mem_append, List.mem_cons]
  rintro (h | h | h)
  · exact not_mem_normalizedPem previous h
  · exact absurd h (by decide)
  · exact not_mem_normalizedPem root h

/-- A root certificate that is appended comes last. -/
theorem certificates_merged (previous : Str) {root : Str} (h : Pem.IsBlock (rootBlock root)) :
    certificates (normalizedPem previous ++ '\n' :: normalizedPem root) = certificates previous ++ [rootBlock root] := by
  rw [certificates, canonicalPem_eq_self (not_mem_merged previous root), Pem.lines_append, lines_normalizedPem root,
    ← List.append_assoc, Pem.blocks_append_blank, Pem.blocks_append h, Pem.blocks_of_isBlock h,
    ← canonicalPem_eq_self (not_mem_normalizedPem previous), ← certificates, certificates_normalizedPem]

theorem containsCertificate_iff {content root : Str} :
    containsCertificate content root = true ↔ trim (canonicalPem root) <:+: canonicalPem content := by
  rw [containsCertificate, decide_eq_true_iff, trim_normalizedPem]

theorem containsCertificate_normalizedPem {content root : Str} (h : containsCertificate content root = true) :
    containsCertificate (normalizedPem content) root = true := by
  rw [containsCertificate_iff] at h ⊢
  rw [canonicalPem_eq_self (not_mem_normalizedPem content)]
  exact (infix_trim (head?_trim _) (getLast?_trim _) h).trans (List.prefix_append _ _).isInfix

theorem containsCertificate_merged (previous root : Str) :
    containsCertificate (normalizedPem previous ++ '\n' :: normalizedPem root) root = true := by
  rw [containsCertificate_iff, canonicalPem_eq_self (not_mem_merged previous root)]
  exact ⟨normalizedPem previous ++ ['\n'], ['\n'], by simp [normalizedPem]⟩

theorem containsCertificate_root (root : Str) : containsCertificate (normalizedPem root) root = true := by
  rw [containsCertificate_iff, canonicalPem_eq_self (not_mem_normalizedPem root)]
  exact (List.prefix_append _ _).isInfix

end Certificates

end Bundle

end Abyss.Cli.ClaudeCode
