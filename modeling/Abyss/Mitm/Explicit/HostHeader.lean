import Abyss.Mitm.Explicit.Replay
import Abyss.Mitm.Tls.HostName
import Abyss.Text.IpRoundTrip

/-! The `Host` value written for a declared target, and how it is read back: a target is
recovered from its own value unless a DNS name looks like an address. -/
namespace Abyss.Mitm.Explicit
open Abyss.Text Abyss.Mitm.Http

/-- The host texts of rendered targets: names and dotted addresses, or a bracketed address. -/
def IsHostText (host : Str) : Prop :=
  (host ≠ [] ∧ ∀ c ∈ host, (isAsciiAlphanumeric c || c == '-') = true ∨ c = '.') ∨
    ∃ address : Ipv6Addr, host = '[' :: address.display ++ [']']

/-- `http::uri::Authority` on rendered targets: the host, and the port behind the last colon. -/
structure AuthorityLaws (types : HttpTypes) : Prop where
  bare {host : Str} : IsHostText host → types.authorityTryFrom host = some ⟨host, false, none⟩
  withPort {host : Str} (port : UInt16) : IsHostText host →
    types.authorityTryFrom (host ++ ':' :: Nat.toDigits 10 port.toNat) = some ⟨host, true, some port⟩

/-- `TargetAuthority::matches_http_authority`. -/
def TargetAuthority.matchesHttpAuthority (types : HttpTypes) (target : TargetAuthority) (raw : Str)
    (defaultPort : UInt16) : Bool :=
  match parseTargetAuthority types (trim raw) (some defaultPort) with
  | .ok declared => declared == target
  | .error _ => false

theorem matchesHttpAuthority_iff {types : HttpTypes} {target : TargetAuthority} {raw : Str} {defaultPort : UInt16} :
    target.matchesHttpAuthority types raw defaultPort = true ↔
      parseTargetAuthority types (trim raw) (some defaultPort) = .ok target := by
  unfold TargetAuthority.matchesHttpAuthority
  split
  · next declared h => simp [h]
  · next e h => simp [h]

section Names

theorem checkLabels_chars {labels : List Str} (h : checkLabels labels = .ok ()) :
    ∀ label ∈ labels, label ≠ [] ∧ ∀ c ∈ label, (isAsciiAlphanumeric c || c == '-') = true := by
  induction labels with
  | nil => simp
  | cons first rest ih =>
    obtain ⟨_, hfirst, hrest⟩ := bind_eq_ok.mp h
    intro label hlabel
    rcases List.mem_cons.mp hlabel with rfl | hlabel
    · unfold checkLabel at hfirst
      split at hfirst
      · cases hfirst
      · next hlen =>
        split at hfirst
        · cases hfirst
        · next hchars =>
          refine ⟨fun hnil => hlen (.inl hnil), ?_⟩
          exact List.all_eq_true.mp (not_not.mp hchars).2.2
    · exact ih hrest label hlabel

/-- A normalized DNS name: what its labels guarantee. -/
structure IsDnsName (name : Str) : Prop where
  accepted : dnsTargetHost name = .ok (.dns name)
  lower : toAsciiLowercase name = name

theorem dnsTargetHost_ok {normalized : Str} {host : TargetHost} (h : dnsTargetHost normalized = .ok host) :
    host = .dns normalized ∧ normalized ≠ [] ∧ normalized.length ≤ 253 ∧
      checkLabels (normalized.splitOn '.') = .ok () := by
  unfold dnsTargetHost at h
  split at h
  · cases h
  · next hlen =>
    split at h
    · cases h
    · next hlabels =>
      obtain rfl := Except.ok.inj h
      exact ⟨rfl, fun hnil => hlen (.inl hnil), Nat.le_of_not_lt fun hlt => hlen (.inr hlt), hlabels⟩

private theorem toAsciiLowercase_idem (s : Str) : toAsciiLowercase (toAsciiLowercase s) = toAsciiLowercase s := by
  unfold toAsciiLowercase
  rw [List.map_map]
  refine List.map_congr_left ?_
  intro c _
  exact toLower_idem c

/-- A normalized host is an address or a normalized name. -/
theorem normalizeTargetHost_cases {host : Str} {target : TargetHost} (h : normalizeTargetHost host = .ok target) :
    (∃ address, target = .ip address) ∨ ∃ name, target = .dns name ∧ IsDnsName name := by
  unfold normalizeTargetHost at h
  simp only at h
  split at h
  · cases h
  · split at h
    · cases h
    · split at h
      · next address _ =>
        obtain rfl := Except.ok.inj h
        exact .inl ⟨address, rfl⟩
      · split at h
        · cases h
        · obtain ⟨rfl, _⟩ := dnsTargetHost_ok h
          exact .inr ⟨_, rfl, h, toAsciiLowercase_idem _⟩

theorem IsDnsName.chars {name : Str} (h : IsDnsName name) :
    ∀ c ∈ name, (isAsciiAlphanumeric c || c == '-') = true ∨ c = '.' := by
  obtain ⟨_, _, _, hlabels⟩ := dnsTargetHost_ok h.accepted
  intro c hc
  rw [← @List.intercalate_splitOn _ name _ _ '.'] at hc
  rcases mem_intercalate hc with hdot | ⟨label, hlabel, hc⟩
  · exact .inr (List.mem_singleton.mp hdot)
  · exact .inl ((checkLabels_chars hlabels label hlabel).2 c hc)

/-- The last label is not empty, so a normalized name ends with no dot. -/
theorem IsDnsName.last {name : Str} (h : IsDnsName name) : name.getLast? ≠ some '.' := by
  obtain ⟨_, _, _, hlabels⟩ := dnsTargetHost_ok h.accepted
  intro hlast
  obtain ⟨front, rfl⟩ := List.getLast?_eq_some_iff.mp hlast
  have hempty : [] ∈ (front ++ ['.']).splitOn '.' := by
    rw [show front ++ ['.'] = front ++ '.' :: [] from rfl, List.splitOn_append_cons_self, List.splitOn_nil]
    exact List.mem_append_right _ List.mem_cons_self
  exact (checkLabels_chars hlabels [] hempty).1 rfl

/-- A normalized name that does not look like an address is its own normal form. -/
theorem IsDnsName.normalize {name : Str} (h : IsDnsName name) (hip : parseIpAddr name = none) :
    normalizeTargetHost name = .ok (.dns name) := by
  obtain ⟨_, hne, _, _⟩ := dnsTargetHost_ok h.accepted
  have hnot : ∀ c, isAsciiAlphanumeric c = false → c ≠ '-' → c ≠ '.' → c ∉ name := by
    intro c halnum hdash hdot hmem
    rcases h.chars c hmem with hlabel | rfl
    · simp [halnum, hdash] at hlabel
    · exact hdot rfl
  have hbrackets : withoutBrackets name = name := by
    unfold withoutBrackets
    split
    · exact absurd List.mem_cons_self (hnot '[' (by decide) (by decide) (by decide))
    · rfl
  have hpercent : name.contains '%' = false := by
    simpa using hnot '%' (by decide) (by decide) (by decide)
  have hascii : name.all (fun c => c.toNat < 128) = true := by
    rw [List.all_eq_true]
    intro c hc
    have hvisible : isVisible c = true := by
      rcases h.chars c hc with hlabel | rfl
      · exact isVisible_of_label hlabel
      · decide
    simp only [isVisible, Bool.and_eq_true, decide_eq_true_eq] at hvisible
    simp only [decide_eq_true_eq]
    omega
  have hnormal : normalizedDnsName name = name := by
    rw [normalizedDnsName, if_neg h.last, h.lower]
  simp only [normalizeTargetHost, hbrackets, hne, if_false, hpercent, Bool.false_eq_true, hip, hascii, not_true,
    hnormal, h.accepted]

end Names

section RoundTrip

private theorem withoutBrackets_bracketed (text : Str) : withoutBrackets ('[' :: text ++ [']']) = text := by
  simp [withoutBrackets]

private theorem not_mem_address {c : Char} (hc : isIpChar c = false) (address : IpAddr) : c ∉ address.display := by
  intro hmem
  rw [address.display_chars c hmem] at hc
  cases hc

private theorem address_ne_nil (address : IpAddr) : address.display ≠ [] := by
  intro hnil
  have hparse := parseIpAddr_display address
  rw [hnil] at hparse
  cases hparse

private theorem normalizeTargetHost_address {host : Str} {address : IpAddr}
    (h : withoutBrackets host = address.display) : normalizeTargetHost host = .ok (.ip address) := by
  have hpercent : address.display.contains '%' = false := by
    simpa using not_mem_address (by decide) address
  simp only [normalizeTargetHost, h, address_ne_nil address, if_false, hpercent, Bool.false_eq_true,
    parseIpAddr_display]

/-- The rendering of a normalized host. -/
theorem normalizeTargetHost_text {raw : Str} {target : TargetHost} (h : normalizeTargetHost raw = .ok target) :
    IsHostText target.display := by
  rcases normalizeTargetHost_cases h with ⟨address, rfl⟩ | ⟨name, rfl, hdns⟩
  · cases address with
    | v4 address =>
      refine .inl ⟨address_ne_nil (.v4 address), ?_⟩
      intro c hc
      rcases mem_intercalate hc with hdot | ⟨part, hpart, hc⟩
      · exact .inr (List.mem_singleton.mp hdot)
      · obtain ⟨octet, _, rfl⟩ := List.mem_map.mp hpart
        left
        rw [isAsciiAlphanumeric, Nat.isDigit_of_mem_toDigits (by decide) (by decide) hc]
        rfl
    | v6 address => exact .inr ⟨address, rfl⟩
  · obtain ⟨_, hne, _, _⟩ := dnsTargetHost_ok hdns.accepted
    exact .inl ⟨hne, hdns.chars⟩

/-- A host that is no misleading name is recovered from its rendering. -/
theorem normalizeTargetHost_display {raw : Str} {target : TargetHost} (h : normalizeTargetHost raw = .ok target)
    (hname : ∀ name, target = .dns name → parseIpAddr name = none) : normalizeTargetHost target.display = .ok target := by
  rcases normalizeTargetHost_cases h with ⟨address, rfl⟩ | ⟨name, rfl, hdns⟩
  · cases address with
    | v4 address =>
      refine normalizeTargetHost_address ?_
      change withoutBrackets (IpAddr.v4 address).display = (IpAddr.v4 address).display
      unfold withoutBrackets
      split
      · next rest hrest =>
        exact absurd (hrest ▸ List.mem_cons_self) (not_mem_address (show isIpChar '[' = false by decide) (.v4 address))
      · rfl
    | v6 address => exact @normalizeTargetHost_address _ (.v6 address) (withoutBrackets_bracketed address.display)
  · exact hdns.normalize (hname name rfl)

theorem IsHostText.not_mem_at {host : Str} (h : IsHostText host) : '@' ∉ host := by
  intro hmem
  rcases h with ⟨_, hchars⟩ | ⟨address, rfl⟩
  · rcases hchars '@' hmem with hlabel | hdot
    · exact absurd hlabel (by decide)
    · exact absurd hdot (by decide)
  · simp only [List.cons_append, List.mem_cons, List.mem_append, List.not_mem_nil, or_false] at hmem
    rcases hmem with hopen | hmem | hclose
    · exact absurd hopen (by decide)
    · exact not_mem_address (by decide) (.v6 address) hmem
    · exact absurd hclose (by decide)

/-- A parsed target carries a normalized host. -/
theorem parseTargetAuthority_host {types : HttpTypes} {raw : Str} {defaultPort : Option UInt16} {target : TargetAuthority}
    (h : parseTargetAuthority types raw defaultPort = .ok target) : ∃ host, normalizeTargetHost host = .ok target.host := by
  unfold parseTargetAuthority at h
  split at h
  · cases h
  · split at h
    · cases h
    · next authority _ =>
      split at h
      · cases h
      · split at h
        · cases h
        · split at h
          · cases h
          · next hnormal =>
            obtain rfl := Except.ok.inj h
            exact ⟨authority.host, hnormal⟩

private theorem isWhitespace_visible {c : Char} (h : isVisible c = true) : isWhitespace c = false := by
  simp only [isVisible, Bool.and_eq_true, decide_eq_true_eq] at h
  simp only [isWhitespace, Bool.or_eq_false_iff, Bool.and_eq_false_iff, decide_eq_false_iff_not, beq_eq_false_iff_ne]
  omega

theorem trim_visible {text : Str} (h : ∀ c ∈ text, isVisible c = true) : trim text = text := by
  refine trim_eq_self ?_ ?_
  · cases hhead : text.head? with
    | none => rfl
    | some c => exact isWhitespace_visible (h c (List.mem_of_head? hhead))
  · cases hlast : text.getLast? with
    | none => rfl
    | some c => exact isWhitespace_visible (h c (List.mem_of_getLast? hlast))

/-- Visible text is read back from a header value. -/
theorem toStr_visible {text : Str} (h : ∀ c ∈ text, isVisible c = true) : toStr (toUtf8 text) = some text := by
  have hall : (toUtf8 text).all (fun b => (32 ≤ b && b < 127) || b == 9) = true := by
    rw [List.all_eq_true]
    intro b hb
    obtain ⟨hlow, hhigh⟩ := toUtf8_visible h b hb
    simp only [Bool.or_eq_true, Bool.and_eq_true, decide_eq_true_eq]
    exact .inl ⟨UInt8.le_trans (by decide) hlow, hhigh⟩
  rw [toStr, if_pos hall, toUtf8_eq_map h, List.map_map]
  refine congrArg some ?_
  refine (List.map_congr_left ?_).trans (List.map_id text)
  intro c hc
  exact byteChar_ofNat (h c hc)

/-- The written `Host` value names the target it is written for. -/
theorem matches_hostHeaderValue {types : HttpTypes} (laws : AuthorityLaws types) {raw : Str}
    {defaultPort : Option UInt16} {target : TargetAuthority}
    (h : parseTargetAuthority types raw defaultPort = .ok target)
    (hname : ∀ name, target.host = .dns name → parseIpAddr name = none) (port : UInt16) :
    target.matchesHttpAuthority types (target.hostHeaderValue port) port = true := by
  rw [matchesHttpAuthority_iff, trim_visible (hostHeaderValue_visible h port)]
  obtain ⟨host, hhost⟩ := parseTargetAuthority_host h
  have hnormal := normalizeTargetHost_display hhost hname
  have htext := normalizeTargetHost_text hhost
  have hat := htext.not_mem_at
  unfold TargetAuthority.hostHeaderValue TargetAuthority.display
  split
  · next hport =>
    have hcontains : target.host.display.contains '@' = false := by simpa using hat
    simp only [parseTargetAuthority, hcontains, Bool.false_eq_true, if_false, laws.bare htext, targetPort,
      ← hport, target.nonzero, dif_neg, not_false_eq_true, hnormal]
  · have hcontains : (target.host.display ++ ':' :: Nat.toDigits 10 target.port.toNat).contains '@' = false := by
      have hdigits : '@' ∉ Nat.toDigits 10 target.port.toNat :=
        fun hmem => absurd (Nat.isDigit_of_mem_toDigits (by decide) (by decide) hmem) (by decide)
      simpa using ⟨hat, hdigits⟩
    simp only [parseTargetAuthority, hcontains, Bool.false_eq_true, if_false, laws.withPort _ htext, targetPort,
      target.nonzero, dif_neg, not_false_eq_true, hnormal]

end RoundTrip
end Abyss.Mitm.Explicit
