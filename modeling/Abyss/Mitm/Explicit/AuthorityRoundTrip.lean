import Abyss.Mitm.Explicit.Authority

/-! Whether the identity of a target is a fixed point of parsing. Addresses and names are recovered from their
rendering; an IPv4 literal with a dot behind it is read as a name, and its rendering as an address. -/
namespace Abyss.Mitm.Explicit
open Abyss.Text Abyss.Mitm.Http

/-- A host that is an IPv4 literal with one more dot behind it. -/
def IsDottedAddress (host : Str) : Prop := ∃ literal, withoutBrackets host = literal ++ ['.'] ∧ (parseIpv4 literal).isSome

/-- A target that parsing recovers from its rendering, whatever the default port. -/
structure FixedPoint (types : HttpTypes) (target : TargetAuthority) : Prop where
  parse : parseTargetAuthority types target.display none = .ok target
  matchesHttpAuthority (defaultPort : UInt16) : target.matchesHttpAuthority types target.display defaultPort = true

section Literals

private theorem splitDoubleColon_none {s : Str} (h : ':' ∉ s) : splitDoubleColon s = none := by
  induction s with
  | nil => rfl
  | cons c rest ih =>
    obtain ⟨hc, hrest⟩ := not_or.mp (mt List.mem_cons.mpr h)
    unfold splitDoubleColon
    split
    · next heq => cases heq
    · next heq => exact absurd (List.cons.inj heq).1.symm hc
    · next heq =>
      obtain ⟨rfl, rfl⟩ := List.cons.inj heq
      rw [ih hrest, Option.map_none]

/-- An address without colons is an IPv4 literal. -/
theorem parseIpAddr_plain {s : Str} (h : ':' ∉ s) : parseIpAddr s = (parseIpv4 s).map .v4 := by
  have hlong : parseIpv6 s = none := by
    unfold parseIpv6
    rw [splitDoubleColon_none h]
    simp only [parseSegments, List.splitOn_eq_singleton h, List.dropLast_singleton, List.mapM_nil]
    by_cases hnil : s = []
    · rw [if_pos hnil]
      rfl
    · rw [if_neg hnil]
      simp only [pure, List.nil_append]
      cases hsegment : parseSegment s with
      | some segment => simp [hsegment, ipv6OfSegments]
      | none => cases hfour : parseIpv4 s <;> simp [hsegment, hfour, ipv6OfSegments]
  unfold parseIpAddr
  cases parseIpv4 s with
  | some address => rfl
  | none => rw [hlong]; rfl

theorem parseIpv4_chars {s : Str} {address : Ipv4Addr} (h : parseIpv4 s = some address) {c : Char} (hc : c ∈ s) :
    c = '.' ∨ c.isDigit = true := by
  by_contra hnot
  obtain ⟨hdot, hdigit⟩ := not_or.mp hnot
  rw [parseIpv4_none hc hdot (by simpa using hdigit)] at h
  cases h

theorem parseIpv4_dotted {s : Str} {address : Ipv4Addr} (h : parseIpv4 s = some address) :
    parseIpAddr (s ++ ['.']) = none := by
  have hcolon : ':' ∉ s ++ ['.'] := by
    intro hmem
    rcases List.mem_append.mp hmem with hmem | hmem
    · rcases parseIpv4_chars h hmem with hdot | hdigit
      · exact absurd hdot (by decide)
      · exact absurd hdigit (by decide)
    · exact absurd (List.mem_singleton.mp hmem) (by decide)
  have hfive : parseIpv4 (s ++ ['.']) = none := by
    unfold parseIpv4 at h ⊢
    split at h
    · next a b c d hparts =>
      rw [show s ++ ['.'] = s ++ '.' :: [] from rfl, List.splitOn_append_cons_self, List.map_append, hparts]
      rfl
    · cases h
  rw [parseIpAddr_plain hcolon, hfive]
  rfl

theorem literal_char_lt {c : Char} (h : c = '.' ∨ c.isDigit = true) : c.toNat < 65 := by
  rcases h with rfl | hdigit
  · decide
  · simp only [Char.isDigit, Bool.and_eq_true, decide_eq_true_eq, UInt32.le_iff_toNat_le] at hdigit
    have hhigh : c.toNat ≤ 57 := hdigit.2
    omega

/-- Digits and dots have no case. -/
theorem toLower_literal {c : Char} (h : c.toNat < 65 ∨ c.toLower.toNat < 65) : c.toLower = c := by
  rcases toLower_cases c with hsame | ⟨hupper, hlower⟩
  · exact hsame
  · omega

theorem toAsciiLowercase_of_lowered {s : Str} (h : ∀ c ∈ toAsciiLowercase s, c.toNat < 65) : toAsciiLowercase s = s :=
  (List.map_congr_left fun _ hc => toLower_literal (.inr (h _ (List.mem_map_of_mem hc)))).trans (List.map_id s)

theorem toAsciiLowercase_literal {s : Str} (h : ∀ c ∈ s, c.toNat < 65) : toAsciiLowercase s = s :=
  (List.map_congr_left fun _ hc => toLower_literal (.inl (h _ hc))).trans (List.map_id s)

end Literals

section Hosts
variable {host : Str} {target : TargetHost}

/-- A normalized host, by how its text was read. -/
theorem normalizeTargetHost_ok (h : normalizeTargetHost host = .ok target) :
    (∃ address, parseIpAddr (withoutBrackets host) = some address ∧ target = .ip address) ∨
      parseIpAddr (withoutBrackets host) = none ∧ target = .dns (normalizedDnsName (withoutBrackets host)) := by
  unfold normalizeTargetHost at h
  simp only at h
  split at h
  · cases h
  · split at h
    · cases h
    · split at h
      · next address haddress => exact .inl ⟨address, haddress, (Except.ok.inj h).symm⟩
      · next hnone =>
        split at h
        · cases h
        · exact .inr ⟨hnone, (dnsTargetHost_ok h).1⟩

theorem IsDnsName.not_mem_colon {name : Str} (h : IsDnsName name) : ':' ∉ name := by
  intro hmem
  rcases h.chars ':' hmem with hlabel | hdot
  · exact absurd hlabel (by decide)
  · exact absurd hdot (by decide)

theorem withoutBrackets_name {name : Str} (h : IsDnsName name) : withoutBrackets name = name := by
  unfold withoutBrackets
  split
  · rcases h.chars '[' List.mem_cons_self with hlabel | hdot
    · exact absurd hlabel (by decide)
    · exact absurd hdot (by decide)
  · rfl

/-- A name reads as an address exactly when it was written as one with a dot behind it. -/
theorem misread_iff (h : normalizeTargetHost host = .ok target) :
    (∃ name, target = .dns name ∧ parseIpAddr name ≠ none) ↔ IsDottedAddress host := by
  constructor
  · rintro ⟨name, rfl, hname⟩
    rcases normalizeTargetHost_ok h with ⟨address, -, heq⟩ | ⟨hnone, heq⟩
    · cases heq
    rcases normalizeTargetHost_cases h with ⟨address, hip⟩ | ⟨name', hdns, hlegal⟩
    · cases hip
    obtain rfl := TargetHost.dns.inj hdns
    rw [parseIpAddr_plain hlegal.not_mem_colon] at hname
    obtain ⟨literal, hliteral⟩ := Option.ne_none_iff_exists'.mp hname
    obtain ⟨address, haddress, -⟩ := Option.map_eq_some_iff.mp hliteral
    have hnormal : name = normalizedDnsName (withoutBrackets host) := TargetHost.dns.inj heq
    unfold normalizedDnsName at hnormal
    have hsame := hnormal
    rw [toAsciiLowercase_of_lowered (hnormal ▸ fun c hc => literal_char_lt (parseIpv4_chars haddress hc))] at hsame
    split at hsame
    · next hlast =>
      obtain ⟨front, hfront⟩ := List.getLast?_eq_some_iff.mp hlast
      refine ⟨front, hfront, ?_⟩
      rw [hfront, List.dropLast_concat] at hsame
      rw [← hsame, haddress]
      rfl
    · rw [← hsame, parseIpAddr_plain hlegal.not_mem_colon, haddress] at hnone
      cases hnone
  · rintro ⟨literal, hliteral, hsome⟩
    obtain ⟨address, haddress⟩ := Option.isSome_iff_exists.mp hsome
    have hnone : parseIpAddr (withoutBrackets host) = none := by
      rw [hliteral]
      exact parseIpv4_dotted haddress
    have hname : normalizedDnsName (withoutBrackets host) = literal := by
      unfold normalizedDnsName
      rw [hliteral, List.getLast?_concat, if_pos rfl, List.dropLast_concat]
      exact toAsciiLowercase_literal (fun c hc => literal_char_lt (parseIpv4_chars haddress hc))
    rcases normalizeTargetHost_ok h with ⟨other, hother, -⟩ | ⟨-, rfl⟩
    · rw [hnone] at hother
      cases hother
    · refine ⟨_, rfl, ?_⟩
      rw [hname, parseIpAddr, haddress]
      exact Option.some_ne_none _

end Hosts

section FixedPoints
variable {types : HttpTypes} {raw : Str} {target : TargetAuthority}

/-- A host is recovered from its rendering unless it was written as an address with a dot behind it. -/
theorem normalizeTargetHost_display_iff {host : Str} {normalized : TargetHost}
    (h : normalizeTargetHost host = .ok normalized) :
    normalizeTargetHost normalized.display = .ok normalized ↔ ¬ IsDottedAddress host := by
  constructor
  · intro hagain hdotted
    obtain ⟨name, rfl, haddress⟩ := (misread_iff h).mpr hdotted
    rcases normalizeTargetHost_cases h with ⟨address, hip⟩ | ⟨name', hdns, hlegal⟩
    · cases hip
    obtain rfl := TargetHost.dns.inj hdns
    have hbrackets : withoutBrackets (TargetHost.dns name).display = name := withoutBrackets_name hlegal
    rcases normalizeTargetHost_ok hagain with ⟨address, -, heq⟩ | ⟨hnone, -⟩
    · cases heq
    · rw [hbrackets] at hnone
      exact haddress hnone
  · intro hplain
    refine normalizeTargetHost_display h ?_
    intro name hname
    by_contra haddress
    exact hplain ((misread_iff h).mp ⟨name, hname, haddress⟩)

theorem normalizeTargetHost_display_iff_all {authority : Authority} {normalized : TargetHost}
    (hauthority : types.authorityTryFrom raw = some authority) (h : normalizeTargetHost authority.host = .ok normalized) :
    normalizeTargetHost normalized.display = .ok normalized ↔
      ∀ authority, types.authorityTryFrom raw = some authority → ¬ IsDottedAddress authority.host := by
  rw [normalizeTargetHost_display_iff h, hauthority]
  simp

private theorem not_mem_at_port {host : Str} (h : IsHostText host) (port : UInt16) :
    '@' ∉ host ++ ':' :: Nat.toDigits 10 port.toNat := by
  intro hmem
  rcases List.mem_append.mp hmem with hmem | hmem
  · exact h.not_mem_at hmem
  · rcases List.mem_cons.mp hmem with hcolon | hmem
    · exact absurd hcolon (by decide)
    · exact absurd (Nat.isDigit_of_mem_toDigits (by decide) (by decide) hmem) (by decide)

/-- A rendered target carries its port, so no default enters. -/
theorem parseTargetAuthority_display (laws : AuthorityLaws types) (htext : IsHostText target.host.display)
    (defaultPort : Option UInt16) : parseTargetAuthority types target.display defaultPort = .ok target ↔
      normalizeTargetHost target.host.display = .ok target.host := by
  have hauthority : types.authorityTryFrom target.display = some ⟨target.host.display, true, some target.port⟩ :=
    laws.withPort target.port htext
  have hat : '@' ∉ target.display := not_mem_at_port htext target.port
  rw [parseTargetAuthority_ok]
  simp only [hauthority, Option.some.injEq, hat, not_false_eq_true, true_and, exists_eq_left']
  rw [targetPort_ok rfl]
  simp

/-- The port a `Host` value leaves out is the default. -/
theorem parseTargetAuthority_hostHeaderValue (laws : AuthorityLaws types) (htext : IsHostText target.host.display)
    (defaultPort : UInt16) :
    parseTargetAuthority types (target.hostHeaderValue defaultPort) (some defaultPort) = .ok target ↔
      normalizeTargetHost target.host.display = .ok target.host := by
  unfold TargetAuthority.hostHeaderValue
  split
  · next hport =>
    rw [parseTargetAuthority_ok]
    simp only [laws.bare htext, Option.some.injEq, htext.not_mem_at, not_false_eq_true, true_and, exists_eq_left']
    rw [targetPort_ok rfl]
    simp [hport]
  · exact parseTargetAuthority_display laws htext (some defaultPort)

theorem display_visible {defaultPort : Option UInt16} (h : parseTargetAuthority types raw defaultPort = .ok target) :
    ∀ c ∈ target.display, isVisible c = true := by
  have hhost : TargetAuthority.hostHeaderValue target (target.port + 1) = target.display := by
    refine if_neg ?_
    intro hport
    simp at hport
  rw [← hhost]
  exact hostHeaderValue_visible h _

/-- A parsed target is a fixed point exactly when its host was not written as an address with a dot behind it. -/
theorem parsed_target_fixed_iff (laws : AuthorityLaws types) (h : parseTargetAuthority types raw none = .ok target) :
    FixedPoint types target ↔
      ∀ authority, types.authorityTryFrom raw = some authority → ¬ IsDottedAddress authority.host := by
  obtain ⟨-, authority, hauthority, -, hhost⟩ := parseTargetAuthority_ok.mp h
  have htext := normalizeTargetHost_text hhost
  have hdisplay := parseTargetAuthority_display laws htext
  rw [← normalizeTargetHost_display_iff_all hauthority hhost]
  constructor
  · exact fun hfixed => (hdisplay none).mp hfixed.parse
  · intro hnormal
    refine ⟨(hdisplay none).mpr hnormal, ?_⟩
    intro defaultPort
    rw [matchesHttpAuthority_iff, trim_visible (display_visible h)]
    exact (hdisplay (some defaultPort)).mpr hnormal

theorem parsed_target_fixed_name : FixedPoint plainTypes ⟨.dns "example.com".toList, 443, by decide⟩ := by
  refine (@parsed_target_fixed_iff plainTypes "Example.com.:443".toList _ (plainAuthority_laws rfl)
    (by decide)).mpr ?_
  intro authority hauthority hdotted
  obtain rfl := Option.some.inj ((by decide : plainTypes.authorityTryFrom "Example.com.:443".toList =
    some ⟨"Example.com.".toList, true, some 443⟩).symm.trans hauthority)
  obtain ⟨literal, hliteral, hsome⟩ := hdotted
  obtain rfl : literal = "Example.com".toList := by
    have hlast := congrArg List.dropLast hliteral
    rw [List.dropLast_concat] at hlast
    exact hlast.symm.trans (by decide)
  exact absurd hsome (by decide)

/-- An address with a dot behind it is parsed to a name that parses to the address. -/
theorem dotted_address_is_no_fixed_point :
    ¬ ∀ types : HttpTypes, AuthorityLaws types → ∀ (raw : Str) (target : TargetAuthority),
      parseTargetAuthority types raw none = .ok target → FixedPoint types target := by
  intro h
  have hfixed := h plainTypes (plainAuthority_laws rfl) "1.2.3.4.:80".toList ⟨.dns "1.2.3.4".toList, 80, by decide⟩
    (by decide)
  exact absurd hfixed.parse (by decide)

end FixedPoints
end Abyss.Mitm.Explicit
