import Abyss.Data.Result
import Abyss.Stream.Source
import Abyss.System.ReplacedFile
import Abyss.Text.Trim
import Abyss.Text.Utf8
import Abyss.Text.Json

/-! The installation of the version-pinned backend: a release binary is downloaded, verified and kept with its checksum. -/
namespace Abyss.Cli.DeployLocal.Artifacts
open Abyss.Text Abyss.System Abyss.Stream

section Model

/-- `CliError`, with what its texts show. -/
inductive ArtifactError where
  | filesystem (operation : String)
  | invalidConfiguration (details : String)
  | request
  | status (url : Str) (status : Nat)
  | sizeLimit (url : Str) (maximumBytes : Nat)
  | checksumsNotUtf8
  | duplicateEntries (assetName : Str)
  | invalidChecksum (assetName : Str)
  | missingEntry (assetName : Str)
  | checksumMismatch (assetName actual expected : Str)
  deriving DecidableEq, Repr

/-- `MAX_BACKEND_BYTES`. -/
def maxBackendBytes : Nat := 128 * 1024 * 1024

/-- `MAX_CHECKSUM_BYTES`. -/
def maxChecksumBytes : Nat := 1024 * 1024

/-- An HTTP response, with its body as it arrives. -/
structure Response where
  status : Nat
  contentLength : Option Nat
  body : Source UInt8 Unit

def validateDeclaredLength (contentLength : Option Nat) (label : Str) (maximumBytes : Nat) : Except ArtifactError Unit :=
  if contentLength.any (maximumBytes < ·) then .error (.sizeLimit label maximumBytes) else .ok ()

/-- The rest of a body, behind what was read of it. -/
def readRest (label : Str) (maximumBytes : Nat) (bytes : List UInt8) (reader : Source UInt8 Unit) :
    Except ArtifactError (List UInt8) :=
  match _h : reader.read (64 * 1024) with
  | (.error _, _) => .error (.filesystem "read downloaded local artifact")
  | (.ok [], _) => .ok bytes
  | (.ok (b :: bs), rest) =>
    if maximumBytes < bytes.length + (b :: bs).length then .error (.sizeLimit label maximumBytes)
    else readRest label maximumBytes (bytes ++ b :: bs) rest
  termination_by reader.contents.length
  decreasing_by exact Source.read_shrinks _h

def readBounded (reader : Source UInt8 Unit) (label : Str) (maximumBytes : Nat) : Except ArtifactError (List UInt8) :=
  readRest label maximumBytes [] reader

/-- A download from what the server answers, if it does. -/
def download (response : Option Response) (url : Str) (maximumBytes : Nat) : Except ArtifactError (List UInt8) :=
  match response with
  | none => .error .request
  | some response =>
    if response.status < 200 ∨ 300 ≤ response.status then .error (.status url response.status)
    else do
      validateDeclaredLength response.contentLength url maximumBytes
      readBounded response.body url maximumBytes

/-- `str::split_whitespace`. -/
def fields (line : Str) : List Str := (line.splitOnP isWhitespace).filter (fun field => !field.isEmpty)

def isAsciiHexdigit (c : Char) : Bool :=
  (48 ≤ c.toNat && c.toNat ≤ 57) || (65 ≤ c.toNat && c.toNat ≤ 70) || (97 ≤ c.toNat && c.toNat ≤ 102)

def isChecksum (checksum : Str) : Bool := checksum.length == 64 && checksum.all isAsciiHexdigit

/-- The checksum of a line that names the asset. -/
def entryChecksum (assetName line : Str) : Option Str :=
  match fields line with
  | checksum :: fileName :: _ => if fileName.dropWhile (· == '*') = assetName then some checksum else none
  | _ => none

/-- The loop over the lines; a carriage return in front of a line break is white space. -/
def checksumLines (assetName : Str) : Option Str → List Str → Except ArtifactError (Option Str)
  | found, [] => .ok found
  | found, line :: rest =>
    match entryChecksum assetName line with
    | none => checksumLines assetName found rest
    | some checksum =>
      if found.isSome then .error (.duplicateEntries assetName)
      else if isChecksum checksum then checksumLines assetName (some (toAsciiLowercase checksum)) rest
      else .error (.invalidChecksum assetName)

def checksumForAsset (contents : List UInt8) (assetName : Str) : Except ArtifactError Str :=
  match fromUtf8 contents with
  | none => .error .checksumsNotUtf8
  | some text =>
    match checksumLines assetName none (text.splitOn '\n') with
    | .error error => .error error
    | .ok none => .error (.missingEntry assetName)
    | .ok (some checksum) => .ok checksum

/-- What `Url::parse` finds in a URL. -/
structure Url where
  scheme : Str
  host : Option Str
  username : Str
  password : Option Str
  query : Option Str
  fragment : Option Str

def validateReleaseBaseUrl (parseUrl : Str → Option Url) (value : Str) : Except ArtifactError Unit :=
  match parseUrl value with
  | none => .error (.invalidConfiguration "invalid backend release URL")
  | some parsed =>
    if (parsed.scheme ≠ lit "http" ∧ parsed.scheme ≠ lit "https") ∨ parsed.host = none ∨ parsed.username ≠ [] ∨
        parsed.password ≠ none ∨ parsed.query ≠ none ∨ parsed.fragment ≠ none then
      .error (.invalidConfiguration "backend release URL must be absolute HTTP(S) without credentials, query, or fragment")
    else .ok ()

/-- The files of the backend's runtime directory. -/
inductive ArtifactFile where
  | backend
  | sha256
  deriving DecidableEq, Repr

/-- The steps of `atomic_write` behind the write of its temporary file. -/
inductive AtomicStep where
  | sync
  | protect
  | replace
  deriving DecidableEq, Repr

/-- The runtime directory. -/
structure RuntimeDirectory where
  artifact : ArtifactFile → ReplacedFile

def RuntimeDirectory.file (directory : RuntimeDirectory) (file : ArtifactFile) : Option (List UInt8) :=
  (directory.artifact file).file

/-- What goes wrong while the files are used. A process that dies is one that stops and cleans nothing up. -/
structure ArtifactFaults where
  directory : Bool
  hidden : ArtifactFile → Bool
  read : ArtifactFile → Bool
  prepare : ArtifactFile → Bool
  write : ArtifactFile → WriteFaults AtomicStep
  inspect : Bool

/-- The digest, the URL parser and the names that the installer is built with. -/
structure ReleaseEnv where
  sha256Hex : List UInt8 → Str
  parseUrl : Str → Option Url
  releaseBase : Str
  assetName : Str

/-- One run of the installer: its process, its environment, what the server answers, and what goes wrong. -/
structure Installation where
  pid : Nat
  releaseBaseOverride : Option Str
  checksums : Option Response
  backend : Option Response
  faults : ArtifactFaults

inductive ArtifactDisposition where
  | cached
  | installed
  deriving DecidableEq, Repr

abbrev ArtifactOp := Fallible RuntimeDirectory ArtifactError

namespace ArtifactInstaller
variable (env : ReleaseEnv) (run : Installation)

def fail {α : Type} (error : ArtifactError) : ArtifactOp α := Fallible.lift (.error error)

def failIf (fault : Bool) (operation : String) : ArtifactOp Unit := if fault then fail (.filesystem operation) else pure ()

/-- `is_file`. -/
def isFile (directory : RuntimeDirectory) (file : ArtifactFile) : Bool :=
  (directory.file file).isSome && !run.faults.hidden file

def installedBackendIsValid : ArtifactOp Bool := do
  let directory ← Fallible.get
  if !isFile run directory .backend || !isFile run directory .sha256 then return false
  else
    failIf (run.faults.read .sha256) "read installed backend checksum"
    match fromUtf8 ((directory.file .sha256).getD []) with
    | none => fail (.filesystem "read installed backend checksum")
    | some text =>
      if !isChecksum (trim text) then return false
      else
        failIf (run.faults.read .backend) "open installed backend"
        return env.sha256Hex ((directory.file .backend).getD []) == toAsciiLowercase (trim text)

def atomicOperation : WriteFault AtomicStep → String
  | .create => "create temporary local deployment file"
  | .write _ => "write temporary local deployment file"
  | .step .sync => "sync temporary local deployment file"
  | .step .protect => "protect temporary local deployment file"
  | .step .replace => "replace local deployment file"

def atomicWrite (file : ArtifactFile) (contents : List UInt8) : ArtifactOp Unit := do
  failIf (run.faults.prepare file) "prepare local deployment file"
  Fallible.zoom (fun directory => directory.artifact file)
    (fun replaced directory => ⟨Function.update directory.artifact file replaced⟩)
    (fun fault => .filesystem (atomicOperation fault)) (ReplacedFile.replace run.pid (run.faults.write file) contents)

def releaseBaseUrl : Str := (run.releaseBaseOverride.map (trimEndMatches · '/')).getD env.releaseBase

/-- The part of `ensure_backend` that downloads and verifies: the binary, and its expected checksum. -/
def verifiedBackend : Except ArtifactError (List UInt8 × Str) := do
  let releaseBase := releaseBaseUrl env run
  validateReleaseBaseUrl env.parseUrl releaseBase
  let checksums ← download run.checksums (releaseBase ++ lit "/SHA256SUMS") maxChecksumBytes
  let expected ← checksumForAsset checksums env.assetName
  let bytes ← download run.backend (releaseBase ++ lit "/" ++ env.assetName) maxBackendBytes
  let actual := env.sha256Hex bytes
  if actual ≠ expected then .error (.checksumMismatch env.assetName actual expected) else .ok (bytes, expected)

def ensureBackend : ArtifactOp ArtifactDisposition := do
  failIf run.faults.directory "create local deployment directory"
  if ← installedBackendIsValid env run then return .cached
  else
    let (bytes, expected) ← Fallible.lift (verifiedBackend env run)
    atomicWrite run .backend bytes
    atomicWrite run .sha256 (toUtf8 (expected ++ ['\n']))
    failIf run.faults.inspect "inspect local executable"
    return .installed

end ArtifactInstaller
end Model

/-! What a server publishes. -/
section Publications

/-- A body is read to its end, if it has one within the limit. -/
theorem readRest_ok {label : Str} {maximumBytes : Nat} {bytes result : List UInt8} {reader : Source UInt8 Unit} :
    readRest label maximumBytes bytes reader = .ok result ↔ reader.ending = none ∧ result = bytes ++ reader.contents ∧
      (reader.contents ≠ [] → bytes.length + reader.contents.length ≤ maximumBytes) := by
  fun_induction readRest label maximumBytes bytes reader with
  | case1 bytes reader e rest hread =>
    have hending := (Source.read_error hread).2
    simp [hending]
  | case2 bytes reader rest hread =>
    obtain ⟨-, hcontents, hending⟩ := Source.read_empty (by decide) hread
    simp [hcontents, hending, eq_comm]
  | case3 bytes reader b bs rest hread hlimit =>
    have hcontents := (Source.read_contents hread).1
    rw [hcontents, List.length_append]
    constructor
    · rintro ⟨⟩
    · rintro ⟨-, -, h⟩
      have := h (by simp)
      omega
  | case4 bytes reader b bs rest hread hlimit ih =>
    obtain ⟨hcontents, -, hending⟩ := Source.read_contents hread
    rw [ih, hcontents, hending, List.append_assoc, List.length_append, List.length_append]
    constructor
    · rintro ⟨hend, hresult, hrest⟩
      refine ⟨hend, hresult, fun _ => ?_⟩
      cases hc : rest.contents with
      | nil => simpa using hlimit
      | cons c cs =>
        have := hrest (by simp [hc])
        rw [hc] at this
        omega
    · rintro ⟨hend, hresult, hrest⟩
      refine ⟨hend, hresult, fun _ => ?_⟩
      have := hrest (by simp)
      omega

theorem readBounded_ok {label : Str} {maximumBytes : Nat} {result : List UInt8} {reader : Source UInt8 Unit} :
    readBounded reader label maximumBytes = .ok result ↔
      reader.ending = none ∧ result = reader.contents ∧ reader.contents.length ≤ maximumBytes := by
  unfold readBounded
  rw [readRest_ok, List.nil_append, List.length_nil, Nat.zero_add]
  constructor
  · rintro ⟨hend, hresult, hlimit⟩
    refine ⟨hend, hresult, ?_⟩
    by_cases hnil : reader.contents = []
    · simp [hnil]
    · exact hlimit hnil
  · rintro ⟨hend, hresult, hlimit⟩
    exact ⟨hend, hresult, fun _ => hlimit⟩

/-- A successful response with exactly these bytes, within a limit that also its declared length keeps. -/
structure Served (response : Response) (maximumBytes : Nat) (bytes : List UInt8) : Prop where
  success : 200 ≤ response.status ∧ response.status < 300
  declared : ∀ length, response.contentLength = some length → length ≤ maximumBytes
  complete : response.body.ending = none
  contents : response.body.contents = bytes
  bounded : bytes.length ≤ maximumBytes

theorem validateDeclaredLength_ok {contentLength : Option Nat} {label : Str} {maximumBytes : Nat} :
    validateDeclaredLength contentLength label maximumBytes = .ok () ↔
      ∀ length, contentLength = some length → length ≤ maximumBytes := by
  unfold validateDeclaredLength
  cases contentLength with
  | none => simp
  | some length =>
    by_cases h : maximumBytes < length
    · simp [h]
    · simp [h, Nat.le_of_not_lt h]

theorem download_ok {response : Option Response} {url : Str} {maximumBytes : Nat} {bytes : List UInt8} :
    download response url maximumBytes = .ok bytes ↔ ∃ served, response = some served ∧ Served served maximumBytes bytes := by
  unfold download
  cases response with
  | none => simp
  | some response =>
    dsimp only
    split
    · next hstatus =>
      constructor
      · rintro ⟨⟩
      · rintro ⟨served, ⟨⟩, h⟩
        have := h.success
        omega
    · next hstatus =>
      rw [Data.do_eq_ok]
      simp only [readBounded_ok]
      constructor
      · rintro ⟨⟨⟩, hdeclared, hend, rfl, hlimit⟩
        exact ⟨response, rfl, by omega, validateDeclaredLength_ok.mp hdeclared, hend, rfl, hlimit⟩
      · rintro ⟨served, ⟨⟩, h⟩
        exact ⟨(), validateDeclaredLength_ok.mpr h.declared, h.complete, h.contents.symm, h.contents ▸ h.bounded⟩

/-- The checksums that a list of them names for an asset. -/
def listed (assetName text : Str) : List Str := (text.splitOn '\n').filterMap (entryChecksum assetName)

theorem checksumLines_ok {assetName : Str} {found result : Option Str} {lines : List Str} :
    checksumLines assetName found lines = .ok result ↔
      (lines.filterMap (entryChecksum assetName) = [] ∧ result = found) ∨
      (found = none ∧ ∃ checksum, lines.filterMap (entryChecksum assetName) = [checksum] ∧ isChecksum checksum = true ∧
        result = some (toAsciiLowercase checksum)) := by
  induction lines generalizing found with
  | nil =>
    unfold checksumLines
    constructor
    · rintro ⟨⟩
      exact .inl ⟨rfl, rfl⟩
    · rintro (⟨-, rfl⟩ | ⟨-, checksum, hlisted, -⟩)
      · rfl
      · cases hlisted
  | cons line rest ih =>
    unfold checksumLines
    cases hentry : entryChecksum assetName line with
    | none => simp [hentry, ih]
    | some checksum =>
      rw [List.filterMap_cons, hentry]
      cases found with
      | some earlier => simp
      | none =>
        by_cases hvalid : isChecksum checksum = true
        · simp [hvalid, ih]
        · simp [hvalid]

/-- A list of checksums is accepted for an asset iff it names one, and this is a checksum. -/
theorem checksumForAsset_ok {contents : List UInt8} {assetName expected : Str} :
    checksumForAsset contents assetName = .ok expected ↔ ∃ text checksum, fromUtf8 contents = some text ∧
      listed assetName text = [checksum] ∧ isChecksum checksum = true ∧ expected = toAsciiLowercase checksum := by
  unfold checksumForAsset
  cases hutf8 : fromUtf8 contents with
  | none => simp
  | some text =>
    dsimp only
    have hfound := @checksumLines_ok assetName none
    constructor
    · intro h
      split at h
      · cases h
      · cases h
      · next checksum hlines =>
        cases h
        rcases hfound.mp hlines with ⟨-, ⟨⟩⟩ | ⟨-, checksum, hlisted, hvalid, hlower⟩
        exact ⟨text, checksum, rfl, hlisted, hvalid, Option.some.inj hlower⟩
    · rintro ⟨text', checksum, ⟨⟩, hlisted, hvalid, rfl⟩
      rw [hfound.mpr (.inr ⟨rfl, checksum, hlisted, hvalid, rfl⟩)]

end Publications

/-! What one installation can do. -/
section Installations
open Fallible ArtifactInstaller
variable {env : ReleaseEnv} {run : Installation} {d d' : RuntimeDirectory}

/-- The server publishes this binary: its list of checksums names the asset once, with the binary's digest. -/
structure Installation.Publishes (env : ReleaseEnv) (run : Installation) (bytes : List UInt8) : Prop where
  url : validateReleaseBaseUrl env.parseUrl (releaseBaseUrl env run) = .ok ()
  checksum : ∃ response checksums text checksum, run.checksums = some response ∧ Served response maxChecksumBytes checksums ∧
    fromUtf8 checksums = some text ∧ listed env.assetName text = [checksum] ∧ isChecksum checksum = true ∧
    env.sha256Hex bytes = toAsciiLowercase checksum
  backend : ∃ response, run.backend = some response ∧ Served response maxBackendBytes bytes

/-- The binary and the checksum file of a directory match. -/
def Valid (env : ReleaseEnv) (d : RuntimeDirectory) : Prop :=
  ∃ bytes contents text, d.file .backend = some bytes ∧ d.file .sha256 = some contents ∧ fromUtf8 contents = some text ∧
    isChecksum (trim text) = true ∧ env.sha256Hex bytes = toAsciiLowercase (trim text)

/-- Nothing goes wrong with the reading of the files. -/
structure ArtifactFaults.Readable (faults : ArtifactFaults) : Prop where
  directory : faults.directory = false
  hidden : ∀ file, faults.hidden file = false
  read : ∀ file, faults.read file = false

/-- Nothing goes wrong at all. -/
structure ArtifactFaults.None (faults : ArtifactFaults) : Prop extends faults.Readable where
  prepare : ∀ file, faults.prepare file = false
  write : ∀ file, (faults.write file).fault = none
  inspect : faults.inspect = false

/-- The checksum file can be read as text, if there is one. -/
def TextualChecksum (d : RuntimeDirectory) : Prop := ∀ contents, d.file .sha256 = some contents → (fromUtf8 contents).isSome

theorem failIf_post {fault : Bool} {operation : String} :
    Post (failIf fault operation) d (fun r d' => d' = d ∧ (r = .ok () ↔ fault = false)) := by
  unfold failIf
  cases fault with
  | false => exact Post.pure ⟨rfl, by simp⟩
  | true => exact Post.lift ⟨rfl, by simp⟩

/-- The check of what is installed leaves everything as it is, and approves of files that match. -/
theorem installedBackendIsValid_post : Post (installedBackendIsValid env run) d (fun r d' => d' = d ∧
    (r = .ok true → Valid env d) ∧ (run.faults.Readable → TextualChecksum d → ∃ valid, r = .ok valid ∧ (Valid env d → valid = true))) := by
  unfold installedBackendIsValid
  apply Post.get
  split
  · next hmissing =>
    refine Post.pure ⟨rfl, by simp, fun hreadable _ => ⟨false, rfl, ?_⟩⟩
    rintro ⟨bytes, contents, text, hbackend, hsha256, -⟩
    simp [isFile, hbackend, hsha256, hreadable.hidden] at hmissing
  · next hpresent =>
    simp only [isFile, Bool.or_eq_true, Bool.not_eq_true', Bool.and_eq_false_iff, not_or, Bool.not_eq_false] at hpresent
    obtain ⟨bytes, hbackend⟩ := Option.isSome_iff_exists.mp hpresent.1.1
    obtain ⟨contents, hsha256⟩ := Option.isSome_iff_exists.mp hpresent.2.1
    rw [hbackend, hsha256, Option.getD_some, Option.getD_some]
    apply Post.bind failIf_post
    · rintro ⟨⟩ _ ⟨rfl, -⟩
      cases hutf8 : fromUtf8 contents with
      | none =>
        refine Post.lift ⟨rfl, by simp, fun _ htextual => ?_⟩
        have := htextual contents hsha256
        simp [hutf8] at this
      | some text =>
        dsimp only
        split
        · next hinvalid =>
          refine Post.pure ⟨rfl, by simp, fun _ _ => ⟨false, rfl, ?_⟩⟩
          rintro ⟨bytes', contents', text', -, hsha256', hutf8', hchecksum, -⟩
          obtain rfl := Option.some.inj (hsha256.symm.trans hsha256')
          obtain rfl := Option.some.inj (hutf8.symm.trans hutf8')
          simp [hchecksum] at hinvalid
        · next hchecksum =>
          simp only [Bool.not_eq_true', Bool.not_eq_false] at hchecksum
          apply Post.bind failIf_post
          · rintro ⟨⟩ _ ⟨rfl, -⟩
            refine Post.pure ⟨rfl, ?_, fun _ _ => ⟨_, rfl, ?_⟩⟩
            · intro hsame
              exact ⟨bytes, contents, text, hbackend, hsha256, hutf8, hchecksum, by simpa using hsame⟩
            · rintro ⟨bytes', contents', text', hbackend', hsha256', hutf8', -, hdigest⟩
              obtain rfl := Option.some.inj (hbackend.symm.trans hbackend')
              obtain rfl := Option.some.inj (hsha256.symm.trans hsha256')
              obtain rfl := Option.some.inj (hutf8.symm.trans hutf8')
              simp [hdigest]
          · rintro e _ ⟨rfl, hfault⟩
            exact ⟨rfl, by simp, fun hreadable _ => absurd (hfault.mpr (hreadable.read .backend)) (by simp)⟩
    · rintro e _ ⟨rfl, hfault⟩
      exact ⟨rfl, by simp, fun hreadable _ => absurd (hfault.mpr (hreadable.read .sha256)) (by simp)⟩

/-- The temporary files of other processes are the same. -/
def SameTemporaries (pid : Nat) (d d' : RuntimeDirectory) : Prop :=
  ∀ file other, pid ≠ other → (d'.artifact file).temporary other = (d.artifact file).temporary other

/-- A process finds no temporary file under its own name. -/
def NoTemporary (pid : Nat) (d : RuntimeDirectory) : Prop := ∀ file, (d.artifact file).temporary pid = none

theorem SameTemporaries.trans {pid : Nat} {d'' : RuntimeDirectory} (h : SameTemporaries pid d d')
    (h' : SameTemporaries pid d' d'') : SameTemporaries pid d d'' :=
  fun file other hother => (h' file other hother).trans (h file other hother)

/-- A file is written whole or not at all. -/
theorem atomicWrite_post (file : ArtifactFile) (contents : List UInt8) :
    Post (atomicWrite run file contents) d (fun r d' => SameTemporaries run.pid d d' ∧
      (r = .ok () ∧ d'.file = Function.update d.file file (some contents) ∨ (∃ e, r = .error e) ∧ d'.file = d.file) ∧
      (run.faults.None → NoTemporary run.pid d → r = .ok () ∧ NoTemporary run.pid d')) := by
  unfold atomicWrite
  apply Post.bind failIf_post
  · rintro ⟨⟩ d ⟨rfl, -⟩
    refine Post.zoom (ReplacedFile.replace_post contents _) ?_
    rintro r replaced (⟨hwritable, rfl, rfl⟩ | ⟨hwritable, ⟨e, rfl⟩, hcleared⟩)
    · refine ⟨fun other pid hpid => ?_, .inl ⟨rfl, ?_⟩, fun _ hnone => ⟨rfl, fun other => ?_⟩⟩
      · by_cases hother : other = file
        · subst hother
          simp [ReplacedFile.cleared, Function.update_of_ne hpid.symm]
        · simp [Function.update_of_ne hother]
      · funext other
        by_cases hother : other = file
        · subst hother
          simp [RuntimeDirectory.file]
        · simp [RuntimeDirectory.file, Function.update_of_ne hother]
      · by_cases hother : other = file
        · subst hother
          simp [ReplacedFile.cleared]
        · simp [Function.update_of_ne hother, hnone other]
    · refine ⟨fun other pid hpid => ?_, .inr ⟨⟨_, rfl⟩, ?_⟩, fun hfaults hnone => ?_⟩
      · by_cases hother : other = file
        · subst hother
          simp [hcleared.temporary_eq hpid]
        · simp [Function.update_of_ne hother]
      · funext other
        by_cases hother : other = file
        · subst hother
          simp [RuntimeDirectory.file, hcleared.file_eq]
        · simp [RuntimeDirectory.file, Function.update_of_ne hother]
      · exact absurd ⟨hnone file, hfaults.write file⟩ hwritable
  · rintro e d ⟨rfl, hfault⟩
    refine ⟨fun _ _ _ => rfl, .inr ⟨⟨e, rfl⟩, rfl⟩, fun hfaults _ => ?_⟩
    exact absurd (hfault.mpr (hfaults.prepare file)) (by simp)

/-- What is downloaded and verified is what the server publishes. -/
theorem verifiedBackend_ok {bytes : List UInt8} {expected : Str} :
    verifiedBackend env run = .ok (bytes, expected) ↔ run.Publishes env bytes ∧ expected = env.sha256Hex bytes := by
  unfold verifiedBackend
  simp only [Data.do_eq_ok]
  constructor
  · rintro ⟨⟨⟩, hurl, checksums, hchecksums, expected', hexpected, bytes', hbytes, h⟩
    split at h
    · cases h
    · next hmatch =>
      cases h
      obtain ⟨response, hresponse, hserved⟩ := download_ok.mp hchecksums
      obtain ⟨text, checksum, hutf8, hlisted, hvalid, rfl⟩ := checksumForAsset_ok.mp hexpected
      have hdigest := not_not.mp hmatch
      exact ⟨⟨hurl, ⟨response, checksums, text, checksum, hresponse, hserved, hutf8, hlisted, hvalid, hdigest⟩,
        download_ok.mp hbytes⟩, hdigest.symm⟩
  · rintro ⟨hpublishes, rfl⟩
    obtain ⟨response, checksums, text, checksum, hresponse, hserved, hutf8, hlisted, hvalid, hdigest⟩ := hpublishes.checksum
    exact ⟨(), hpublishes.url, checksums, download_ok.mpr ⟨response, hresponse, hserved⟩, env.sha256Hex bytes,
      checksumForAsset_ok.mpr ⟨text, checksum, hutf8, hlisted, hvalid, hdigest⟩, bytes, download_ok.mpr hpublishes.backend,
      if_neg (not_not.mpr rfl)⟩

/-- The checksum file for a binary. -/
def checksumText (env : ReleaseEnv) (bytes : List UInt8) : List UInt8 := toUtf8 (env.sha256Hex bytes ++ ['\n'])

/-- The outcomes of an installation: the files stay, or a published binary is written, with its checksum or without. -/
inductive Ensured (env : ReleaseEnv) (run : Installation) (d : RuntimeDirectory)
    (r : Except ArtifactError ArtifactDisposition) (d' : RuntimeDirectory) : Prop where
  | kept (files : d'.file = d.file) (reported : ∀ disposition, r = .ok disposition → disposition = .cached ∧ Valid env d)
  | stopped (bytes : List UInt8) (publishes : run.Publishes env bytes) (error : ∃ e, r = .error e)
      (backend : d'.file .backend = some bytes) (sha256 : d'.file .sha256 = d.file .sha256)
  | installed (bytes : List UInt8) (publishes : run.Publishes env bytes) (backend : d'.file .backend = some bytes)
      (sha256 : d'.file .sha256 = some (checksumText env bytes))
      (reported : ∀ disposition, r = .ok disposition → disposition = .installed)

/-- An installation without faults that can be served a published binary succeeds. -/
def Succeeds (env : ReleaseEnv) (run : Installation) (d : RuntimeDirectory) (r : Except ArtifactError ArtifactDisposition) :
    Prop :=
  run.faults.None → NoTemporary run.pid d → TextualChecksum d → (∃ bytes, run.Publishes env bytes) → ∃ disposition, r = .ok disposition

/-- What the two writes of an installation leave. -/
inductive Writes (env : ReleaseEnv) (bytes : List UInt8) (d : RuntimeDirectory)
    (r : Except ArtifactError ArtifactDisposition) (d' : RuntimeDirectory) : Prop where
  | none (error : ∃ e, r = .error e) (files : d'.file = d.file)
  | backend (error : ∃ e, r = .error e) (backend : d'.file .backend = some bytes) (sha256 : d'.file .sha256 = d.file .sha256)
  | both (backend : d'.file .backend = some bytes) (sha256 : d'.file .sha256 = some (checksumText env bytes))
      (reported : ∀ disposition, r = .ok disposition → disposition = .installed)

theorem write_post (bytes : List UInt8) (d : RuntimeDirectory) :
    Post (do
      atomicWrite run .backend bytes
      atomicWrite run .sha256 (checksumText env bytes)
      failIf run.faults.inspect "inspect local executable"
      return ArtifactDisposition.installed) d (fun r d' => SameTemporaries run.pid d d' ∧ Writes env bytes d r d' ∧
        (run.faults.None → NoTemporary run.pid d → ∃ disposition, r = .ok disposition)) := by
  apply Post.bind (atomicWrite_post .backend bytes)
  · rintro ⟨⟩ d₁ ⟨htemporaries, hfiles, hnone⟩
    have hbackend : d₁.file = Function.update d.file .backend (some bytes) := by
      rcases hfiles with ⟨-, h⟩ | ⟨⟨e, he⟩, -⟩
      · exact h
      · cases he
    apply Post.bind (atomicWrite_post .sha256 (checksumText env bytes))
    · rintro ⟨⟩ d₂ ⟨htemporaries', hfiles', hnone'⟩
      have hsha256 : d₂.file = Function.update d₁.file .sha256 (some (checksumText env bytes)) := by
        rcases hfiles' with ⟨-, h⟩ | ⟨⟨e, he⟩, -⟩
        · exact h
        · cases he
      have hfile : d₂.file .backend = some bytes ∧ d₂.file .sha256 = some (checksumText env bytes) := by
        rw [hsha256, hbackend]
        exact ⟨rfl, rfl⟩
      apply Post.bind failIf_post
      · rintro ⟨⟩ _ ⟨rfl, -⟩
        refine Post.pure ⟨htemporaries.trans htemporaries', .both hfile.1 hfile.2 ?_, fun _ _ => ⟨_, rfl⟩⟩
        rintro disposition ⟨⟩
        rfl
      · rintro e _ ⟨rfl, hfault⟩
        refine ⟨htemporaries.trans htemporaries', .both hfile.1 hfile.2 (by simp), fun hf _ => ?_⟩
        exact absurd (hfault.mpr hf.inspect) (by simp)
    · rintro e d₂ ⟨htemporaries', hfiles', hnone'⟩
      have hsame : d₂.file = d₁.file := by
        rcases hfiles' with ⟨he, -⟩ | ⟨-, h⟩
        · cases he
        · exact h
      refine ⟨htemporaries.trans htemporaries', .backend ⟨e, rfl⟩ ?_ ?_, fun hf hn => ?_⟩
      · rw [hsame, hbackend]
        rfl
      · rw [hsame, hbackend]
        rfl
      · exact absurd (hnone' hf (hnone hf hn).2).1 (by simp)
  · rintro e d₁ ⟨htemporaries, hfiles, hnone⟩
    have hsame : d₁.file = d.file := by
      rcases hfiles with ⟨he, -⟩ | ⟨-, h⟩
      · cases he
      · exact h
    exact ⟨htemporaries, .none ⟨e, rfl⟩ hsame, fun hf hn => absurd (hnone hf hn).1 (by simp)⟩

theorem ensureBackend_post : Post (ensureBackend env run) d (fun r d' =>
    SameTemporaries run.pid d d' ∧ Ensured env run d r d' ∧ Succeeds env run d r ∧
      (run.faults.Readable → Valid env d → TextualChecksum d → r = .ok .cached ∧ d' = d)) := by
  unfold ensureBackend
  apply Post.bind failIf_post
  · rintro ⟨⟩ d ⟨rfl, -⟩
    apply Post.bind installedBackendIsValid_post
    · rintro valid d ⟨rfl, hvalid, hreadable⟩
      split
      · next h =>
        refine Post.pure ⟨fun _ _ _ => rfl, .kept rfl ?_, fun _ _ _ _ => ⟨_, rfl⟩, fun _ _ _ => ⟨rfl, rfl⟩⟩
        rintro disposition ⟨⟩
        exact ⟨rfl, hvalid (by rw [h])⟩
      · next h =>
        have hcached : run.faults.Readable → Valid env d → TextualChecksum d → False := by
          intro hr hv ht
          obtain ⟨_, ⟨⟩, htrue⟩ := hreadable hr ht
          exact h (htrue hv)
        apply Post.bind_lift
        · rintro ⟨bytes, expected⟩ hverified
          obtain ⟨hpublishes, rfl⟩ := verifiedBackend_ok.mp hverified
          apply Post.mono (write_post bytes d)
          rintro r d' ⟨htemporaries, hwrites, hsucceeds⟩
          refine ⟨htemporaries, ?_, fun hf hn _ _ => hsucceeds hf hn, fun hr hv ht => (hcached hr hv ht).elim⟩
          cases hwrites with
          | none herror hfiles =>
            obtain ⟨e, rfl⟩ := herror
            exact .kept hfiles (by simp)
          | backend herror hbackend hsha256 => exact .stopped bytes hpublishes herror hbackend hsha256
          | both hbackend hsha256 hreported => exact .installed bytes hpublishes hbackend hsha256 hreported
        · intro e hfailed
          refine ⟨fun _ _ _ => rfl, .kept rfl (by simp), ?_, fun hr hv ht => (hcached hr hv ht).elim⟩
          rintro - - - ⟨bytes, hpublishes⟩
          rw [verifiedBackend_ok.mpr ⟨hpublishes, rfl⟩] at hfailed
          cases hfailed
    · rintro e d ⟨rfl, -, hreadable⟩
      have hno : run.faults.Readable → TextualChecksum d → False := by
        intro hr ht
        obtain ⟨_, ⟨⟩, -⟩ := hreadable hr ht
      exact ⟨fun _ _ _ => rfl, .kept rfl (by simp), fun hf _ ht _ => (hno hf.toReadable ht).elim,
        fun hr _ ht => (hno hr ht).elim⟩
  · rintro e d ⟨rfl, hfault⟩
    have hno : ¬ run.faults.Readable := fun hr => absurd (hfault.mpr hr.directory) (by simp)
    exact ⟨fun _ _ _ => rfl, .kept rfl (by simp), fun hf _ _ _ => (hno hf.toReadable).elim, fun hr _ _ => (hno hr).elim⟩

end Installations

/-! Installations one after the other. -/
section Runs
open Fallible ArtifactInstaller
variable {env : ReleaseEnv} {d : RuntimeDirectory} {runs : List Installation}

def installs (env : ReleaseEnv) (runs : List Installation) :
    RuntimeDirectory → List (Except ArtifactError ArtifactDisposition) × RuntimeDirectory :=
  all (runs.map (ensureBackend env))

theorem isHexdigit_not_space {c : Char} (h : isAsciiHexdigit c = true) : isWhitespace c = false := by
  simp only [isAsciiHexdigit, Bool.or_eq_true, Bool.and_eq_true, decide_eq_true_eq] at h
  simp only [isWhitespace, Bool.or_eq_false_iff, Bool.and_eq_false_iff, decide_eq_false_iff_not, beq_eq_false_iff_ne]
  omega

theorem trim_checksum {checksum : Str} (h : isChecksum checksum = true) : trim (checksum ++ ['\n']) = checksum := by
  have hspace : ∀ c ∈ checksum, isWhitespace c = false := by
    intro c hc
    exact isHexdigit_not_space (List.all_eq_true.mp (Bool.and_eq_true_iff.mp h).2 c hc)
  rw [trim_concat (by decide)]
  refine trim_eq_self ?_ ?_
  · cases hs : checksum.head? with
    | none => rfl
    | some c => exact hspace c (List.mem_of_head? hs)
  · cases hs : checksum.getLast? with
    | none => rfl
    | some c => exact hspace c (List.mem_of_getLast? hs)

theorem isChecksum_lower {checksum : Str} (h : isChecksum checksum = true) : isChecksum (toAsciiLowercase checksum) = true := by
  unfold isChecksum toAsciiLowercase at *
  rw [List.length_map]
  refine Bool.and_eq_true_iff.mpr ⟨(Bool.and_eq_true_iff.mp h).1, List.all_eq_true.mpr ?_⟩
  intro lower hlower
  obtain ⟨c, hc, rfl⟩ := List.mem_map.mp hlower
  have hdigit := List.all_eq_true.mp (Bool.and_eq_true_iff.mp h).2 c hc
  simp only [isAsciiHexdigit, Bool.or_eq_true, Bool.and_eq_true, decide_eq_true_eq] at hdigit ⊢
  rcases toLower_cases c with hsame | ⟨hupper, hcase⟩
  · rwa [hsame]
  · omega

theorem lower_lower (s : Str) : toAsciiLowercase (toAsciiLowercase s) = toAsciiLowercase s := by
  unfold toAsciiLowercase
  rw [List.map_map]
  exact List.map_congr_left fun c _ => toLower_idem c

/-- A published binary and its checksum file match. -/
theorem valid_written {run : Installation} {bytes : List UInt8} (h : run.Publishes env bytes)
    (hbackend : d.file .backend = some bytes) (hsha256 : d.file .sha256 = some (checksumText env bytes)) : Valid env d := by
  obtain ⟨-, -, -, checksum, -, -, -, -, hvalid, hdigest⟩ := h.checksum
  have hlower := isChecksum_lower hvalid
  rw [← hdigest] at hlower
  refine ⟨bytes, _, _, hbackend, hsha256, fromUtf8_toUtf8 _, ?_, ?_⟩
  · rwa [trim_checksum hlower]
  · rw [trim_checksum hlower, hdigest, lower_lower]

theorem Ensured.valid {run : Installation} {d' : RuntimeDirectory} {r : Except ArtifactError ArtifactDisposition}
    (h : Ensured env run d r d') {disposition : ArtifactDisposition} (hr : r = .ok disposition) : Valid env d' := by
  cases h with
  | kept hfiles hreported =>
    obtain ⟨-, bytes, contents, text, hbackend, hsha256, hrest⟩ := hreported disposition hr
    exact ⟨bytes, contents, text, hfiles ▸ hbackend, hfiles ▸ hsha256, hrest⟩
  | stopped _ _ herror _ _ =>
    obtain ⟨e, he⟩ := herror
    cases hr.symm.trans he
  | installed bytes hpublishes hbackend hsha256 _ => exact valid_written hpublishes hbackend hsha256

theorem Ensured.textual {run : Installation} {d' : RuntimeDirectory} {r : Except ArtifactError ArtifactDisposition}
    (h : Ensured env run d r d') (htextual : TextualChecksum d) : TextualChecksum d' := by
  intro contents hcontents
  cases h with
  | kept hfiles _ => exact htextual contents (hfiles ▸ hcontents)
  | stopped _ _ _ _ hsha256 => exact htextual contents (hsha256 ▸ hcontents)
  | installed bytes _ _ hsha256 _ =>
    obtain rfl := Option.some.inj (hsha256.symm.trans hcontents)
    rw [checksumText, fromUtf8_toUtf8]
    rfl

theorem installs_append (front back : List Installation) (d : RuntimeDirectory) :
    installs env (front ++ back) d = ((installs env front d).1 ++ (installs env back (installs env front d).2).1,
      (installs env back (installs env front d).2).2) := by
  unfold installs
  rw [List.map_append, all_append]

/-- The outcome of one installation among others. -/
theorem getElem?_installs (front back : List Installation) (run : Installation) (d : RuntimeDirectory) :
    (installs env (front ++ run :: back) d).1[front.length]? = some (ensureBackend env run (installs env front d).2).1 := by
  unfold installs
  have hone := @getElem?_all _ _ _ (front.map (ensureBackend env)) (back.map (ensureBackend env)) d (ensureBackend env run)
  rwa [List.length_map, ← List.map_cons, ← List.map_append] at hone

/-- In any run of installations on a directory without a binary, whatever fails and whatever processes die, a binary that is
there was published by the server of one of them; and where an installation succeeds, it matches its checksum file. -/
theorem backend_verified (hnew : d.file .backend = none) :
    (∀ bytes, (installs env runs d).2.file .backend = some bytes → ∃ run ∈ runs, run.Publishes env bytes) ∧
    ∀ front run back disposition, runs = front ++ run :: back →
      (installs env runs d).1[front.length]? = some (.ok disposition) → Valid env (installs env (front ++ [run]) d).2 := by
  constructor
  · have hpublished := @all_invariant _ _ _ (runs.map (ensureBackend env)) d
      (fun s => ∀ bytes, s.file .backend = some bytes → ∃ run ∈ runs, run.Publishes env bytes) (fun _ => True) ?_ ?_
    · exact hpublished.1
    · intro x hx s hs
      obtain ⟨run, hrun, rfl⟩ := List.mem_map.mp hx
      apply Post.mono ensureBackend_post
      rintro r s' ⟨-, hensured, -⟩
      refine ⟨fun bytes hbytes => ?_, trivial⟩
      cases hensured with
      | kept hfiles _ => exact hs bytes (hfiles ▸ hbytes)
      | stopped written hpublishes _ hbackend _ =>
        obtain rfl := Option.some.inj (hbackend.symm.trans hbytes)
        exact ⟨run, hrun, hpublishes⟩
      | installed written hpublishes hbackend _ _ =>
        obtain rfl := Option.some.inj (hbackend.symm.trans hbytes)
        exact ⟨run, hrun, hpublishes⟩
    · intro bytes hbytes
      rw [hnew] at hbytes
      cases hbytes
  · rintro front run back disposition rfl hok
    rw [getElem?_installs] at hok
    have hensured := (@ensureBackend_post env run (installs env front d).2).2.1
    have hvalid := hensured.valid (Option.some.inj hok)
    rw [installs_append]
    exact hvalid

/-- Whatever earlier installations have left, one without faults that is served a published binary succeeds, and every later
one that can read the files uses what it has installed, whatever the servers then answer. -/
theorem backend_recovers {front later : List Installation} {run : Installation} {bytes : List UInt8}
    (htextual : TextualChecksum d) (hpids : ∀ earlier ∈ front, earlier.pid ≠ run.pid) (htemporary : NoTemporary run.pid d)
    (hfaults : run.faults.None) (hpublishes : run.Publishes env bytes) (hlater : ∀ after ∈ later, after.faults.Readable) :
    (∃ disposition, (installs env (front ++ [run]) d).1[front.length]? = some (.ok disposition)) ∧
    Valid env (installs env (front ++ [run]) d).2 ∧
    (installs env later (installs env (front ++ [run]) d).2).2 = (installs env (front ++ [run]) d).2 ∧
    ∀ r ∈ (installs env later (installs env (front ++ [run]) d).2).1, r = .ok .cached := by
  have hfront := @all_invariant _ _ _ (front.map (ensureBackend env)) d
    (fun s => TextualChecksum s ∧ NoTemporary run.pid s) (fun _ => True) ?_ ⟨htextual, htemporary⟩
  · obtain ⟨-, hensured, hsucceeds, -⟩ := @ensureBackend_post env run (installs env front d).2
    obtain ⟨disposition, hok⟩ := hsucceeds hfaults hfront.1.2 hfront.1.1 ⟨bytes, hpublishes⟩
    have hend : (installs env (front ++ [run]) d).2 = (ensureBackend env run (installs env front d).2).2 := by
      rw [installs_append]
      rfl
    have hvalid : Valid env (installs env (front ++ [run]) d).2 := hend ▸ hensured.valid hok
    have htext : TextualChecksum (installs env (front ++ [run]) d).2 := hend ▸ hensured.textual hfront.1.1
    have hcached := @all_invariant _ _ _ (later.map (ensureBackend env)) (installs env (front ++ [run]) d).2
      (fun s => s = (installs env (front ++ [run]) d).2) (fun r => r = .ok .cached) ?_ rfl
    · refine ⟨⟨disposition, ?_⟩, hvalid, hcached⟩
      rw [getElem?_installs, hok]
    · rintro x hx s rfl
      obtain ⟨after, hafter, rfl⟩ := List.mem_map.mp hx
      apply Post.mono ensureBackend_post
      rintro r s' ⟨-, -, -, hkeeps⟩
      exact (hkeeps (hlater after hafter) hvalid htext).symm
  · rintro x hx s ⟨hs, hnone⟩
    obtain ⟨earlier, hearlier, rfl⟩ := List.mem_map.mp hx
    apply Post.mono ensureBackend_post
    rintro r s' ⟨htemporaries, hensured, -⟩
    refine ⟨⟨hensured.textual hs, fun file => ?_⟩, trivial⟩
    exact (htemporaries file run.pid (hpids earlier hearlier)).trans (hnone file)

end Runs

section Sample

/-- The digest of no bytes at all. -/
def emptyDigest : Str := "e3b0c44298fc1c149afbf4c8996fb92427ae41e4649b934ca495991b7852b855".toList

def sampleChecksums : Str := emptyDigest ++ "  abyss-backend-v2.0.1-x86_64-unknown-linux-musl\n".toList

theorem sampleChecksums_ne : toUtf8 sampleChecksums ≠ [] := by decide +kernel

def sampleEnv : ReleaseEnv where
  sha256Hex _ := emptyDigest
  parseUrl _ := some ⟨lit "https", some (lit "github.com"), [], none, none, none⟩
  releaseBase := lit "https://github.com/lexmount/abyss-backend/releases/download/v2.0.1"
  assetName := "abyss-backend-v2.0.1-x86_64-unknown-linux-musl".toList

def noFaults : ArtifactFaults := ⟨false, fun _ => false, fun _ => false, fun _ => false, fun _ => ⟨none, false⟩, false⟩

/-- An installation that is served an empty binary. -/
def sampleInstallation (pid : Nat) (faults : ArtifactFaults) : Installation where
  pid
  releaseBaseOverride := none
  checksums := some ⟨200, none, ⟨[⟨toUtf8 sampleChecksums, sampleChecksums_ne⟩], none⟩⟩
  backend := some ⟨200, some 0, ⟨[], none⟩⟩
  faults

/-- The process dies with the checksum half written. -/
def dying : Installation :=
  sampleInstallation 7 { noFaults with write := Function.update noFaults.write .sha256 ⟨some (.write [101]), true⟩ }

def emptyDirectory : RuntimeDirectory := ⟨fun _ => ⟨none, fun _ => none⟩⟩

theorem sample_publishes (pid : Nat) (faults : ArtifactFaults) : (sampleInstallation pid faults).Publishes sampleEnv [] where
  url := by simp [validateReleaseBaseUrl, sampleEnv]
  checksum := by
    refine ⟨_, toUtf8 sampleChecksums, sampleChecksums, emptyDigest, rfl, ?_, fromUtf8_toUtf8 _, ?_, ?_, ?_⟩
    · exact ⟨by decide, by rintro length ⟨⟩, rfl, by simp [Source.contents], by decide +kernel⟩
    · decide +kernel
    · decide +kernel
    · decide +kernel
  backend := ⟨_, rfl, by decide, by rintro length ⟨⟩; exact Nat.zero_le _, rfl, rfl, Nat.zero_le _⟩

theorem dying_verified :
    (∀ bytes, (installs sampleEnv [dying] emptyDirectory).2.file .backend = some bytes →
      ∃ run ∈ [dying], run.Publishes sampleEnv bytes) ∧
    ∀ front run back disposition, [dying] = front ++ run :: back →
      (installs sampleEnv [dying] emptyDirectory).1[front.length]? = some (.ok disposition) →
      Valid sampleEnv (installs sampleEnv (front ++ [run]) emptyDirectory).2 :=
  backend_verified rfl

theorem noFaults_none : noFaults.None where
  directory := rfl
  hidden := by simp [noFaults]
  read := by simp [noFaults]
  prepare := by simp [noFaults]
  write := by simp [noFaults]
  inspect := rfl

/-- The next process installs again, and one that is served nothing uses that. -/
theorem dying_recovers :
    Valid sampleEnv (installs sampleEnv ([dying] ++ [sampleInstallation 8 noFaults]) emptyDirectory).2 ∧
    ∀ r ∈ (installs sampleEnv [⟨9, none, none, none, noFaults⟩]
      (installs sampleEnv ([dying] ++ [sampleInstallation 8 noFaults]) emptyDirectory).2).1, r = .ok .cached := by
  have hrecovers := @backend_recovers sampleEnv emptyDirectory [dying] [⟨9, none, none, none, noFaults⟩]
    (sampleInstallation 8 noFaults) [] (by rintro contents ⟨⟩) (by simp [dying, sampleInstallation]) (fun _ => rfl)
    noFaults_none (sample_publishes 8 noFaults) (by simp [noFaults_none.toReadable])
  exact ⟨hrecovers.2.1, hrecovers.2.2.2⟩

end Sample
end Abyss.Cli.DeployLocal.Artifacts
