import Abyss.Text.Scalar

/-! What trimming keeps of a text. -/
namespace Abyss.Text

theorem dropWhile_of_head {s : Str} {p : Char → Bool} (h : s.head?.any p = false) : s.dropWhile p = s := by
  cases s with
  | nil => rfl
  | cons c rest => exact List.dropWhile_cons_of_neg (by simpa using h)

/-- Trimming keeps a string without whitespace at its ends. -/
theorem trim_eq_self {s : Str} (hhead : s.head?.any isWhitespace = false) (hlast : s.getLast?.any isWhitespace = false) :
    trim s = s := by
  unfold trim
  rw [dropWhile_of_head hhead]
  change (s.reverse.dropWhile isWhitespace).reverse = s
  rw [dropWhile_of_head ?_, List.reverse_reverse]
  rwa [List.head?_reverse]

theorem trim_cons {c : Char} (h : isWhitespace c = true) (s : Str) : trim (c :: s) = trim s := by
  rw [trim, List.dropWhile_cons_of_pos h, trim]

theorem trim_concat {c : Char} (h : isWhitespace c = true) (s : Str) : trim (s ++ [c]) = trim s := by
  induction s with
  | nil => exact trim_cons h []
  | cons d s ih =>
    by_cases hd : isWhitespace d = true
    · rw [List.cons_append, trim_cons hd, trim_cons hd, ih]
    · rw [trim, List.cons_append, List.dropWhile_cons_of_neg hd, ← List.cons_append, List.rdropWhile_concat_pos _ _ _ h,
        trim, List.dropWhile_cons_of_neg hd]

/-- Dropping from the front stops at a part that is not dropped. -/
theorem dropWhile_append_of_head {p : Char → Bool} (s : Str) {t : Str} (h : t.head?.any p = false) :
    ∃ front, (s ++ t).dropWhile p = front ++ t := by
  induction s with
  | nil => exact ⟨[], dropWhile_of_head h⟩
  | cons c s ih =>
    by_cases hc : p c = true
    · rw [List.cons_append, List.dropWhile_cons_of_pos hc]
      exact ih
    · rw [List.cons_append, List.dropWhile_cons_of_neg hc]
      exact ⟨c :: s, rfl⟩

theorem rdropWhile_append_of_last {p : Char → Bool} {t : Str} (h : t.getLast?.any p = false) (s : Str) :
    ∃ back, (t ++ s).rdropWhile p = t ++ back := by
  obtain ⟨front, hfront⟩ := @dropWhile_append_of_head p s.reverse t.reverse (by rwa [List.head?_reverse])
  refine ⟨front.reverse, ?_⟩
  change ((t ++ s).reverse.dropWhile p).reverse = t ++ front.reverse
  rw [List.reverse_append, hfront, List.reverse_append, List.reverse_reverse]

theorem head?_trim (s : Str) : (trim s).head?.any isWhitespace = false := by
  have hdrop : ∀ s : Str, (s.dropWhile isWhitespace).head?.any isWhitespace = false := by
    intro s
    induction s with
    | nil => rfl
    | cons c s ih =>
      by_cases hc : isWhitespace c = true
      · rw [List.dropWhile_cons_of_pos hc]
        exact ih
      · rw [List.dropWhile_cons_of_neg hc]
        simpa using hc
  obtain ⟨back, hback⟩ := List.rdropWhile_prefix isWhitespace (s.dropWhile isWhitespace)
  have hhead := hdrop s
  rw [← hback] at hhead
  unfold trim
  cases hkept : (s.dropWhile isWhitespace).rdropWhile isWhitespace with
  | nil => rfl
  | cons c kept =>
    rw [hkept] at hhead
    exact hhead

theorem getLast?_trim (s : Str) : (trim s).getLast?.any isWhitespace = false := by
  unfold trim
  by_cases hkept : (s.dropWhile isWhitespace).rdropWhile isWhitespace = []
  · rw [hkept]
    rfl
  · rw [List.getLast?_eq_some_getLast hkept, Option.any_some]
    simpa using List.rdropWhile_last_not _ _ hkept

theorem trim_trim (s : Str) : trim (trim s) = trim s := trim_eq_self (head?_trim s) (getLast?_trim s)

/-- A text without whitespace at its ends is found in a text if it is found after trimming. -/
theorem infix_trim {t s : Str} (hhead : t.head?.any isWhitespace = false) (hlast : t.getLast?.any isWhitespace = false)
    (h : t <:+: s) : t <:+: trim s := by
  by_cases hne : t = []
  · rw [hne]
    exact List.nil_infix
  · obtain ⟨front, back, rfl⟩ := h
    obtain ⟨front', hfront⟩ := @dropWhile_append_of_head isWhitespace front (t ++ back)
      (by rwa [List.head?_append_of_ne_nil _ hne])
    obtain ⟨back', hback⟩ := @rdropWhile_append_of_last isWhitespace (front' ++ t)
      (by rwa [List.getLast?_append_of_ne_nil _ hne]) back
    refine ⟨front', back', ?_⟩
    rw [trim, List.append_assoc front, hfront, ← List.append_assoc, hback]

/-! The case of ASCII letters, which trimming does not see. -/
section Case

theorem toLower_cases (c : Char) :
    c.toLower = c ∨ (65 ≤ c.toNat ∧ c.toNat ≤ 90) ∧ c.toLower.toNat = c.toNat + 32 := by
  unfold Char.toLower
  split
  · next h =>
    have hlow : 65 ≤ c.toNat := UInt32.le_iff_toNat_le.mp h.1
    have hhigh : c.toNat ≤ 90 := UInt32.le_iff_toNat_le.mp h.2
    refine .inr ⟨⟨hlow, hhigh⟩, ?_⟩
    change (c.val + 32).toNat = c.val.toNat + 32
    rw [UInt32.toNat_add]
    refine Nat.mod_eq_of_lt ?_
    change c.toNat + 32 < 2 ^ 32
    omega
  · exact .inl rfl

/-- A predicate that holds of no letter does not see the case. -/
theorem toLower_congr {p : Char → Bool} (h : ∀ c : Char, 65 ≤ c.toNat → c.toNat ≤ 122 → p c = false) (c : Char) :
    p c.toLower = p c := by
  rcases toLower_cases c with hsame | ⟨hupper, hlower⟩
  · rw [hsame]
  · rw [h c hupper.1 (by omega), h c.toLower (by omega) (by omega)]

theorem toLower_idem (c : Char) : c.toLower.toLower = c.toLower := by
  rcases toLower_cases c with hsame | ⟨hupper, hlower⟩
  · rw [hsame, hsame]
  · rcases toLower_cases c.toLower with hsame | ⟨hupper', -⟩
    · exact hsame
    · omega

theorem isWhitespace_letter (c : Char) (hlow : 65 ≤ c.toNat) (hhigh : c.toNat ≤ 122) : isWhitespace c = false := by
  simp only [isWhitespace, Bool.or_eq_false_iff, Bool.and_eq_false_iff, decide_eq_false_iff_not, beq_eq_false_iff_ne]
  omega

theorem char_ne_letter {d : Char} (hd : d.toNat < 65) (c : Char) (hlow : 65 ≤ c.toNat) : (c == d) = false := by
  rw [beq_eq_false_iff_ne]
  rintro rfl
  omega

section Commute
variable {p : Char → Bool} (hp : ∀ c : Char, p c.toLower = p c)
include hp

theorem dropWhile_toAsciiLowercase (s : Str) : (toAsciiLowercase s).dropWhile p = toAsciiLowercase (s.dropWhile p) := by
  unfold toAsciiLowercase
  rw [List.dropWhile_map]
  congr 2
  funext c
  exact hp c

theorem takeWhile_toAsciiLowercase (s : Str) : (toAsciiLowercase s).takeWhile p = toAsciiLowercase (s.takeWhile p) := by
  unfold toAsciiLowercase
  rw [List.takeWhile_map]
  congr 2
  funext c
  exact hp c

theorem rdropWhile_toAsciiLowercase (s : Str) :
    (toAsciiLowercase s).rdropWhile p = toAsciiLowercase (s.rdropWhile p) := by
  have hreverse : ∀ t : Str, (toAsciiLowercase t).reverse = toAsciiLowercase t.reverse :=
    fun t => List.map_reverse.symm
  rw [List.rdropWhile, List.rdropWhile, hreverse, dropWhile_toAsciiLowercase hp, hreverse]

end Commute

theorem trim_toAsciiLowercase (s : Str) : trim (toAsciiLowercase s) = toAsciiLowercase (trim s) := by
  have hwhite := toLower_congr isWhitespace_letter
  unfold trim
  rw [dropWhile_toAsciiLowercase hwhite, rdropWhile_toAsciiLowercase hwhite]

end Case
end Abyss.Text
