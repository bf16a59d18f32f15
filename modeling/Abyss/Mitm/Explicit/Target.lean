import Abyss.Mitm.Http.Head
import Abyss.Text.IpAddr

/-! The target an explicit proxy request declares: a normalized host and a port,
read from an authority without resolving names. -/
namespace Abyss.Mitm.Explicit
open Abyss.Text Abyss.Mitm.Http

/-- Why the first request of an explicit proxy connection is rejected. -/
inductive ExplicitRequestError where
  | incompleteRequest
  | headerTooLarge (limit : Nat)
  | tooManyHeaders (limit : Nat)
  | parse (source : HttparseError)
  | unsupportedVersion
  | invalidRequest (reason : String)
  | invalidTarget (target : Str) (reason : String)
  | invalidHost (reason : String)
  | hostMismatch (expected actual : Str)
  | invalidFraming (reason : String)
  | io (source : ErrorKind)
  deriving DecidableEq, Repr

inductive TargetHost where
  | dns (name : Str)
  | ip (address : IpAddr)
  deriving DecidableEq, Repr

/-- Normalized host and nonzero port. -/
structure TargetAuthority where
  host : TargetHost
  port : UInt16
  nonzero : port ≠ 0
  deriving DecidableEq, Repr

theorem httpPort_ne_zero : (80 : UInt16) ≠ 0 := by decide

def TargetHost.display : TargetHost → Str
  | .dns name => name
  | .ip (.v4 address) => address.display
  | .ip (.v6 address) => '[' :: address.display ++ [']']

def TargetAuthority.display (target : TargetAuthority) : Str :=
  target.host.display ++ ':' :: Nat.toDigits 10 target.port.toNat

def TargetAuthority.hostHeaderValue (target : TargetAuthority) (defaultPort : UInt16) : Str :=
  if target.port = defaultPort then target.host.display else target.display

def isAsciiAlphanumeric (c : Char) : Bool :=
  c.isDigit || ('a' ≤ c && c ≤ 'z') || ('A' ≤ c && c ≤ 'Z')

/-- `strip_prefix('[')` followed by `strip_suffix(']')`, or the host as it is. -/
def withoutBrackets (host : Str) : Str :=
  match host with
  | '[' :: rest => if rest.getLast? = some ']' then rest.dropLast else host
  | _ => host

def checkLabel (label : Str) : Except String Unit :=
  if label = [] ∨ 63 < label.length then .error "DNS label length is invalid"
  else if ¬ (label.head?.any isAsciiAlphanumeric ∧ label.getLast?.any isAsciiAlphanumeric ∧
      label.all (fun c => isAsciiAlphanumeric c || c == '-')) then
    .error "DNS labels may contain only letters, digits, and interior hyphens"
  else .ok ()

def checkLabels : List Str → Except String Unit
  | [] => .ok ()
  | label :: rest => do
    checkLabel label
    checkLabels rest

/-- A DNS name in lower case and without one trailing dot. -/
def normalizedDnsName (host : Str) : Str :=
  toAsciiLowercase (if host.getLast? = some '.' then host.dropLast else host)

def dnsTargetHost (normalized : Str) : Except String TargetHost :=
  if normalized = [] ∨ 253 < normalized.length then .error "DNS host length is invalid"
  else match checkLabels (normalized.splitOn '.') with
    | .error reason => .error reason
    | .ok () => .ok (.dns normalized)

/-- Normalize the host portion without resolving it. -/
def normalizeTargetHost (host : Str) : Except String TargetHost :=
  let host := withoutBrackets host
  if host = [] then .error "host must not be empty"
  else if host.contains '%' then .error "scoped or percent-encoded hosts are not supported"
  else match parseIpAddr host with
    | some address => .ok (.ip address)
    | none =>
      if ¬ host.all (fun c => c.toNat < 128) then .error "DNS host must use ASCII or punycode"
      else dnsTargetHost (normalizedDnsName host)

/-- The declared port, or the default where none is declared. -/
def targetPort (raw : Str) (authority : Authority) (defaultPort : Option UInt16) : Except ExplicitRequestError UInt16 :=
  match authority.portU16 with
  | some port => .ok port
  | none =>
    if authority.hasPort then .error (.invalidTarget raw "port must be a valid u16")
    else match defaultPort with
      | some port => .ok port
      | none => .error (.invalidTarget raw "an explicit port is required")

/-- Read an authority; the default port applies where it declares none. -/
def parseTargetAuthority (types : HttpTypes) (raw : Str) (defaultPort : Option UInt16) :
    Except ExplicitRequestError TargetAuthority :=
  if raw.contains '@' then .error (.invalidTarget raw "userinfo is not allowed") else
  match types.authorityTryFrom raw with
  | none => .error (.invalidTarget raw "invalid authority syntax")
  | some authority =>
    match targetPort raw authority defaultPort with
    | .error e => .error e
    | .ok port =>
      if h : port = 0 then .error (.invalidTarget raw "port must not be zero") else
      match normalizeTargetHost authority.host with
      | .error reason => .error (.invalidTarget raw reason)
      | .ok host => .ok ⟨host, port, h⟩

section Rendering

theorem isVisible_of_ip {c : Char} (h : isIpChar c = true) : isVisible c = true := by
  simp only [isIpChar, Char.isDigit, Bool.or_eq_true, Bool.and_eq_true, decide_eq_true_eq, beq_iff_eq, Char.le_def,
    UInt32.le_iff_toNat_le, ge_iff_le] at h
  have hn : c.toNat = c.val.toNat := rfl
  simp only [isVisible, Bool.and_eq_true, decide_eq_true_eq, hn]
  rcases h with ((⟨hlow, hhigh⟩ | ⟨hlow, hhigh⟩) | rfl) | rfl
  · change 48 ≤ _ at hlow
    change _ ≤ 57 at hhigh
    omega
  · change 97 ≤ _ at hlow
    change _ ≤ 102 at hhigh
    omega
  · decide
  · decide

theorem isVisible_of_label {c : Char} (h : (isAsciiAlphanumeric c || c == '-') = true) : isVisible c = true := by
  simp only [isAsciiAlphanumeric, Char.isDigit, Bool.or_eq_true, Bool.and_eq_true, decide_eq_true_eq, beq_iff_eq,
    Char.le_def, UInt32.le_iff_toNat_le, ge_iff_le] at h
  have hn : c.toNat = c.val.toNat := rfl
  simp only [isVisible, Bool.and_eq_true, decide_eq_true_eq, hn]
  rcases h with ((⟨hlow, hhigh⟩ | ⟨hlow, hhigh⟩) | ⟨hlow, hhigh⟩) | rfl
  · change 48 ≤ _ at hlow
    change _ ≤ 57 at hhigh
    omega
  · change 97 ≤ _ at hlow
    change _ ≤ 122 at hhigh
    omega
  · change 65 ≤ _ at hlow
    change _ ≤ 90 at hhigh
    omega
  · decide

theorem checkLabels_ok {labels : List Str} (h : checkLabels labels = .ok ()) :
    ∀ label ∈ labels, ∀ c ∈ label, isVisible c = true := by
  induction labels with
  | nil => simp
  | cons first rest ih =>
    obtain ⟨_, hfirst, hrest⟩ := bind_eq_ok.mp h
    intro label hlabel c hc
    rcases List.mem_cons.mp hlabel with rfl | hlabel
    · unfold checkLabel at hfirst
      split at hfirst
      · cases hfirst
      · split at hfirst
        · cases hfirst
        · next hchars =>
          exact isVisible_of_label (List.all_eq_true.mp (not_not.mp hchars).2.2 c hc)
    · exact ih hrest label hlabel c hc

theorem mem_splitOn {s : Str} (sep : Char) {c : Char} (h : c ∈ s) :
    c = sep ∨ ∃ part ∈ s.splitOn sep, c ∈ part := by
  rw [← @List.intercalate_splitOn _ s _ _ sep] at h
  rcases mem_intercalate h with h | h
  · exact .inl (List.mem_singleton.mp h)
  · exact .inr h

/-- A normalized host is rendered in visible characters. -/
theorem normalizeTargetHost_visible {host : Str} {target : TargetHost} (h : normalizeTargetHost host = .ok target) :
    ∀ c ∈ target.display, isVisible c = true := by
  unfold normalizeTargetHost at h
  simp only at h
  split at h
  · cases h
  · split at h
    · cases h
    · split at h
      · next address _ =>
        cases h
        intro c hc
        cases address with
        | v4 address => exact isVisible_of_ip (address.display_chars c hc)
        | v6 address =>
          rcases List.mem_append.mp hc with hc | hc
          · rcases List.mem_cons.mp hc with rfl | hc
            · decide
            · exact isVisible_of_ip (address.display_chars c hc)
          · obtain rfl := List.mem_singleton.mp hc
            decide
      · split at h
        · cases h
        · unfold dnsTargetHost at h
          split at h
          · cases h
          · split at h
            · cases h
            · next hlabels =>
              cases h
              intro c hc
              rcases mem_splitOn '.' hc with rfl | ⟨label, hlabel, hc⟩
              · decide
              · exact checkLabels_ok hlabels label hlabel c hc

/-- The `Host` value of a parsed target is visible. -/
theorem hostHeaderValue_visible {types : HttpTypes} {raw : Str} {defaultPort : Option UInt16} {target : TargetAuthority}
    (h : parseTargetAuthority types raw defaultPort = .ok target) (port : UInt16) :
    ∀ c ∈ target.hostHeaderValue port, isVisible c = true := by
  have hhost : ∀ c ∈ target.host.display, isVisible c = true := by
    unfold parseTargetAuthority at h
    split at h
    · cases h
    · split at h
      · cases h
      · split at h
        · cases h
        · split at h
          · cases h
          · split at h
            · cases h
            · next hnormal =>
              cases h
              exact normalizeTargetHost_visible hnormal
  intro c hc
  unfold TargetAuthority.hostHeaderValue at hc
  split at hc
  · exact hhost c hc
  · rcases List.mem_append.mp hc with hc | hc
    · exact hhost c hc
    · rcases List.mem_cons.mp hc with rfl | hc
      · decide
      · refine isVisible_of_ip ?_
        rw [isIpChar, Nat.isDigit_of_mem_toDigits (by decide) (by decide) hc]
        rfl

end Rendering
end Abyss.Mitm.Explicit
