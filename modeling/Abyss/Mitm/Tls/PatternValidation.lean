import Abyss.Mitm.Tls.PolicySemantics

/-! What the validation of a host pattern lets through. A pattern names one literal host or the names one
label below one; an interior wildcard or whitespace inside the host makes a selector no name can meet. -/
namespace Abyss.Mitm.Tls
open Abyss.Text Abyss.Mitm.Explicit

/-- The host a pattern spells: no port, no surrounding whitespace, no trailing dots. -/
def patternHost (pattern : Str) : Str := trimEndMatches (trim (hostPart pattern)) '.'

/-- A literal host has nonempty labels and no wildcard. -/
def IsLiteral (host : Str) : Prop := [] ∉ host.splitOn '.' ∧ '*' ∉ host

/-- A host name is made of nonempty labels without wildcard or whitespace. -/
def IsHostName (name : Str) : Prop :=
  ∀ label ∈ name.splitOn '.', label ≠ [] ∧ '*' ∉ label ∧ label.any isWhitespace = false

/-- A pattern that is one literal host, or the names below one, and that some host name meets. -/
structure SoundPattern (pattern : Str) : Prop where
  literal : ∃ host, IsLiteral host ∧
    (normalizeHost pattern = some host ∨ normalizeHost pattern = some ("*.".toList ++ host))
  live : ∃ name, IsHostName name ∧ hostPatternMatches pattern name = true

section Normalized

theorem count_toAsciiLowercase_star (s : Str) : (toAsciiLowercase s).count '*' = s.count '*' := by
  have hstar := toLower_congr (p := (· == '*')) (fun c hlow _ => char_ne_letter (by decide) c hlow)
  rw [List.count_eq_countP, List.count_eq_countP, toAsciiLowercase, List.countP_map]
  refine List.countP_congr ?_
  intro c _
  rw [Function.comp_apply, hstar c]

theorem any_isWhitespace_toAsciiLowercase (s : Str) : (toAsciiLowercase s).any isWhitespace = s.any isWhitespace := by
  rw [toAsciiLowercase, List.any_map]
  congr 1
  funext c
  exact toLower_congr isWhitespace_letter c

theorem normalizeHost_some {pattern normalized : Str} (h : normalizeHost pattern = some normalized) :
    normalized = toAsciiLowercase (patternHost pattern) := by
  rw [normalizeHost_eq] at h
  split at h
  · cases h
  · exact (Option.some.inj h).symm

/-- What an accepted pattern normalizes to. -/
theorem validateHostPattern_ok {pattern : Str} (h : validateHostPattern pattern = .ok ()) :
    (∃ host, normalizeHost pattern = some ("*.".toList ++ host) ∧ [] ∉ host.splitOn '.') ∨
      ∃ host, normalizeHost pattern = some host ∧ ¬ "*.".toList <+: host ∧ IsLiteral host := by
  unfold validateHostPattern at h
  split at h
  · cases h
  next normalized hnormal =>
  simp only at h
  split at h
  · cases h
  next hwild =>
  split at h
  · cases h
  split at h
  · cases h
  next hlabels =>
  cases hstrip : stripFront "*.".toList normalized with
  | some host =>
    rw [hstrip, Option.getD_some] at hlabels
    exact .inl ⟨host, by rw [hnormal, stripFront_eq_some.mp hstrip], hlabels⟩
  | none =>
    rw [hstrip, Option.getD_none] at hlabels
    refine .inr ⟨normalized, hnormal, ?_, hlabels, ?_⟩
    · rintro ⟨host, rfl⟩
      rw [stripFront_eq_some.mpr rfl] at hstrip
      cases hstrip
    · intro hstar
      exact hwild (by rw [hstrip, List.contains_iff_mem.mpr hstar]; rfl)

end Normalized

section Names

/-- The characters of a host name. -/
theorem IsHostName.chars {name : Str} (h : IsHostName name) {c : Char} (hc : c ∈ name) :
    c ≠ '*' ∧ isWhitespace c = false := by
  rcases mem_splitOn '.' hc with rfl | ⟨label, hlabel, hc⟩
  · exact ⟨by decide, by decide⟩
  · obtain ⟨-, hstar, hwhite⟩ := h label hlabel
    exact ⟨fun heq => hstar (heq ▸ hc), by simpa using List.any_eq_false.mp hwhite c hc⟩

theorem mem_of_mem_splitOn {s part : Str} {sep c : Char} (hpart : part ∈ s.splitOn sep) (hc : c ∈ part) : c ∈ s := by
  rw [← @List.intercalate_splitOn _ s _ _ sep]
  exact mem_intercalate_of_mem hpart hc

/-- A literal host without whitespace is a host name. -/
theorem IsLiteral.isHostName {host : Str} (h : IsLiteral host) (hwhite : host.any isWhitespace = false) :
    IsHostName host := by
  intro label hlabel
  refine ⟨?_, ?_, ?_⟩
  · rintro rfl
    exact h.1 hlabel
  · exact fun hstar => h.2 (mem_of_mem_splitOn hlabel hstar)
  · exact List.any_eq_false.mpr (fun c hc => List.any_eq_false.mp hwhite c (mem_of_mem_splitOn hlabel hc))

/-- One more label in front of a host name. -/
theorem IsHostName.below {host : Str} (h : IsHostName host) : IsHostName ('a' :: '.' :: host) := by
  intro label hlabel
  rw [show 'a' :: '.' :: host = ['a'] ++ '.' :: host from rfl,
    List.splitOn_append_cons_self_of_not_mem (by decide)] at hlabel
  rcases List.mem_cons.mp hlabel with rfl | hlabel
  · exact ⟨by decide, by decide, by decide⟩
  · exact h label hlabel

end Names

section Validation
variable {pattern : Str}

/-- A name that meets a pattern spells every character of its host, a leading wildcard apart. -/
theorem SoundPattern.condition (h : SoundPattern pattern) :
    (patternHost pattern).count '*' ≤ 1 ∧ (patternHost pattern).any isWhitespace = false := by
  obtain ⟨⟨host, ⟨-, hstar⟩, hnormal⟩, name, hname, hmatches⟩ := h
  rw [← count_toAsciiLowercase_star, ← any_isWhitespace_toAsciiLowercase]
  constructor
  · have hcount : host.count '*' = 0 := List.count_eq_zero.mpr hstar
    rcases hnormal with hnormal | hnormal
    · rw [← normalizeHost_some hnormal, hcount]
      exact Nat.zero_le 1
    · rw [← normalizeHost_some hnormal, List.count_append, hcount]
      decide
  · cases hostPatternMatches_iff.mp hmatches with
    | @wildcard suffix label hwild _ _ =>
      rw [← normalizeHost_some hwild]
      have hsuffix : suffix.any isWhitespace = false := List.any_eq_false.mpr (fun c hc => by
        simp [(hname.chars (List.mem_append_right _ (List.mem_cons_of_mem _ hc))).2])
      rw [List.any_append, hsuffix]
      rfl
    | exact hexact _ =>
      rw [← normalizeHost_some hexact]
      exact List.any_eq_false.mpr (fun c hc => by simp [(hname.chars hc).2])

/-- An accepted pattern is sound exactly when its host has no wildcard behind the leading one and no whitespace. -/
theorem validated_pattern_sound_iff (h : validateHostPattern pattern = .ok ()) : SoundPattern pattern ↔
    (patternHost pattern).count '*' ≤ 1 ∧ (patternHost pattern).any isWhitespace = false := by
  constructor
  · exact SoundPattern.condition
  rintro ⟨hcount, hwhite⟩
  rw [← count_toAsciiLowercase_star] at hcount
  rw [← any_isWhitespace_toAsciiLowercase] at hwhite
  rcases validateHostPattern_ok h with ⟨host, hnormal, hlabels⟩ | ⟨host, hnormal, hplain, hliteral⟩
  · rw [← normalizeHost_some hnormal] at hcount hwhite
    have hstar : '*' ∉ host := by
      rw [List.count_append] at hcount
      refine List.count_eq_zero.mp ?_
      have hone : ("*.".toList).count '*' = 1 := by decide
      omega
    have hliteral : IsLiteral host := ⟨hlabels, hstar⟩
    refine ⟨⟨host, hliteral, .inr hnormal⟩, 'a' :: '.' :: host, ?_, ?_⟩
    · rw [List.any_append, Bool.or_eq_false_iff] at hwhite
      exact (hliteral.isHostName hwhite.2).below
    · exact hostPatternMatches_iff.mpr (@Covers.wildcard _ host ['a'] hnormal (by decide) (by decide))
  · rw [← normalizeHost_some hnormal] at hwhite
    exact ⟨⟨host, hliteral, .inl hnormal⟩, host, hliteral.isHostName hwhite,
      hostPatternMatches_iff.mpr (.exact hnormal hplain)⟩

theorem validated_pattern_sound_wildcard : validateHostPattern "*.Example.com.".toList = .ok () ∧
    SoundPattern "*.Example.com.".toList :=
  ⟨by decide, (validated_pattern_sound_iff (by decide)).mpr (by decide)⟩

/-- A second wildcard behind the leading one is accepted. -/
theorem interior_wildcard_is_accepted :
    ¬ ∀ pattern : Str, validateHostPattern pattern = .ok () → SoundPattern pattern := by
  intro h
  have hsound := h "*.a*b.com".toList (by decide)
  have hcount := hsound.condition.1
  exact absurd hcount (by decide)

end Validation
end Abyss.Mitm.Tls
