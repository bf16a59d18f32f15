import Abyss.Mitm.Tls.DecryptPolicy
import Abyss.Text.Trim

/-! Spellings of a host name. Case, a port and trailing dots do not change what a name
normalizes to; a dot behind whitespace does. -/
namespace Abyss.Mitm.Tls
open Abyss.Text

/-- The part of a host in front of its port. -/
def hostPart (host : Str) : Str := host.takeWhile (· ≠ ':')

theorem splitOn_head (host : Str) : (host.splitOn ':').head?.getD host = hostPart host := by
  have hhead : ∀ s : Str, (s.splitOn ':').head? = some (hostPart s) := by
    intro s
    induction s with
    | nil => rfl
    | cons c rest ih =>
      rw [List.splitOn_cons_eq_if_modifyHead]
      by_cases hc : c = ':'
      · subst hc
        rfl
      · have hcons : hostPart (c :: rest) = c :: hostPart rest :=
          List.takeWhile_cons_of_pos (by simpa using hc)
        rw [if_neg (by simpa using hc), List.head?_modifyHead, ih, hcons]
        rfl
  rw [hhead]
  rfl

theorem normalizeHost_eq (host : Str) : normalizeHost host =
    if toAsciiLowercase (trimEndMatches (trim (hostPart host)) '.') = [] then none
    else some (toAsciiLowercase (trimEndMatches (trim (hostPart host)) '.')) := by
  unfold normalizeHost
  rw [splitOn_head]

section Case

theorem trimEndMatches_toAsciiLowercase (s : Str) :
    trimEndMatches (toAsciiLowercase s) '.' = toAsciiLowercase (trimEndMatches s '.') :=
  rdropWhile_toAsciiLowercase (toLower_congr (fun c hlow _ => char_ne_letter (by decide) c hlow)) s

theorem hostPart_toAsciiLowercase (s : Str) : hostPart (toAsciiLowercase s) = toAsciiLowercase (hostPart s) := by
  refine takeWhile_toAsciiLowercase ?_ s
  intro c
  have hcolon := toLower_congr (p := (· == ':')) (fun c hlow _ => char_ne_letter (by decide) c hlow) c
  simpa using congrArg not hcolon

/-- Lower case is the normal form of a name's case. -/
theorem normalizeHost_toAsciiLowercase (host : Str) : normalizeHost (toAsciiLowercase host) = normalizeHost host := by
  have hidem : ∀ s : Str, toAsciiLowercase (toAsciiLowercase s) = toAsciiLowercase s := by
    intro s
    unfold toAsciiLowercase
    rw [List.map_map]
    exact List.map_congr_left (fun c _ => toLower_idem c)
  rw [normalizeHost_eq, normalizeHost_eq, hostPart_toAsciiLowercase, trim_toAsciiLowercase,
    trimEndMatches_toAsciiLowercase, hidem]

end Case

section Endings

theorem hostPart_append_port (host port : Str) : hostPart (host ++ ':' :: port) = hostPart host := by
  induction host with
  | nil => rfl
  | cons c rest ih =>
    unfold hostPart at ih ⊢
    by_cases hc : c = ':'
    · subst hc
      rfl
    · rw [List.cons_append, List.takeWhile_cons_of_pos (by simpa using hc),
        List.takeWhile_cons_of_pos (by simpa using hc), ih]

theorem normalizeHost_port (host port : Str) : normalizeHost (host ++ ':' :: port) = normalizeHost host := by
  rw [normalizeHost_eq, normalizeHost_eq, hostPart_append_port]

theorem hostPart_of_mem {host : Str} (h : ':' ∈ host) (more : Str) : hostPart (host ++ more) = hostPart host := by
  obtain ⟨front, back, rfl⟩ := List.append_of_mem h
  rw [List.append_assoc, List.cons_append, hostPart_append_port, hostPart_append_port]

theorem hostPart_of_not_mem {host : Str} (h : ':' ∉ host) : hostPart host = host := by
  refine List.takeWhile_eq_self_iff.mpr ?_
  intro c hc
  simpa using fun heq : c = ':' => h (heq ▸ hc)

/-- A host to which dots can be added: they do not cover whitespace that trimming would remove. -/
def AcceptsDots (host : Str) : Prop :=
  ':' ∈ host ∨ host.getLast?.any isWhitespace = false ∨ host.all isWhitespace = true

theorem trimEndMatches_dots (s : Str) (n : Nat) : trimEndMatches (s ++ List.replicate n '.') '.' = trimEndMatches s '.' := by
  induction n with
  | zero => rw [List.replicate_zero, List.append_nil]
  | succ n ih =>
    rw [List.replicate_succ', ← List.append_assoc]
    exact (List.rdropWhile_concat_pos _ _ _ (by decide)).trans ih

theorem rdropWhile_whitespace_dots (s : Str) (n : Nat) :
    (s ++ List.replicate (n + 1) '.').rdropWhile isWhitespace = s ++ List.replicate (n + 1) '.' := by
  rw [List.replicate_succ', ← List.append_assoc]
  exact List.rdropWhile_concat_neg _ _ _ (by decide)

private theorem dropWhile_append_stop {p : Char → Bool} (s t : Str) {c : Char} (hc : ¬ p c = true) :
    (s ++ c :: t).dropWhile p = s.dropWhile p ++ c :: t := by
  induction s with
  | nil => exact List.dropWhile_cons_of_neg hc
  | cons d rest ih =>
    by_cases hd : p d = true
    · rw [List.cons_append, List.dropWhile_cons_of_pos hd, List.dropWhile_cons_of_pos hd, ih]
    · rw [List.cons_append, List.dropWhile_cons_of_neg hd, List.dropWhile_cons_of_neg hd, List.cons_append]

theorem trim_dots (s : Str) (n : Nat) :
    trim (s ++ List.replicate (n + 1) '.') = s.dropWhile isWhitespace ++ List.replicate (n + 1) '.' := by
  have hdrop : (s ++ List.replicate (n + 1) '.').dropWhile isWhitespace =
      s.dropWhile isWhitespace ++ List.replicate (n + 1) '.' := by
    rw [List.replicate_succ]
    exact dropWhile_append_stop s _ (by decide)
  rw [trim, hdrop, rdropWhile_whitespace_dots]

/-- A host without whitespace at its end is trimmed at its front only. -/
theorem trim_of_last {s : Str} (h : s.getLast?.any isWhitespace = false) : trim s = s.dropWhile isWhitespace := by
  rcases List.eq_nil_or_concat s with rfl | ⟨front, c, rfl⟩
  · rfl
  · rw [List.concat_eq_append] at h ⊢
    rw [List.getLast?_concat, Option.any_some] at h
    have hc : ¬ isWhitespace c = true := by simp [h]
    rw [trim, dropWhile_append_stop front [] hc, List.rdropWhile_concat_neg _ _ _ hc]

theorem trim_of_all {s : Str} (h : s.all isWhitespace = true) : s.dropWhile isWhitespace = [] ∧ trim s = [] := by
  have hnil : s.dropWhile isWhitespace = [] := List.dropWhile_eq_nil_iff.mpr (List.all_eq_true.mp h)
  refine ⟨hnil, ?_⟩
  rw [trim, hnil]
  rfl

/-- Trailing dots do not change a host that accepts them. -/
theorem normalizeHost_dots {host : Str} (h : AcceptsDots host) (n : Nat) :
    normalizeHost (host ++ List.replicate n '.') = normalizeHost host := by
  by_cases hcolon : ':' ∈ host
  · rw [normalizeHost_eq, normalizeHost_eq, hostPart_of_mem hcolon]
  have hnone : ':' ∉ host ++ List.replicate n '.' := by
    intro hmem
    rcases List.mem_append.mp hmem with hmem | hmem
    · exact hcolon hmem
    · exact absurd (List.eq_of_mem_replicate hmem) (by decide)
  cases n with
  | zero => rw [List.replicate_zero, List.append_nil]
  | succ n =>
    have htrim : trimEndMatches (trim (host ++ List.replicate (n + 1) '.')) '.' = trimEndMatches (trim host) '.' := by
      rw [trim_dots, trimEndMatches_dots]
      rcases h with h | h | h
      · exact absurd h hcolon
      · rw [trim_of_last h]
      · rw [(trim_of_all h).1, (trim_of_all h).2]
    rw [normalizeHost_eq, normalizeHost_eq, hostPart_of_not_mem hnone, hostPart_of_not_mem hcolon, htrim]

end Endings
end Abyss.Mitm.Tls
