import Abyss.Text.Json

/-! Every value that the recursion limit admits is read back from its text. -/
namespace Abyss.Text.Json

/-- Integers only, and at most the given number of levels of arrays and objects. -/
def readable : Nat → Json → Bool
  | _, .null => true
  | _, .bool _ => true
  | _, .num (.float _) => false
  | _, .num _ => true
  | _, .str _ => true
  | 0, .arr _ => false
  | 0, .obj _ => false
  | levels + 1, .arr items => items.all (readable levels)
  | levels + 1, .obj members => members.all (fun m => readable levels m.2)

section Strings

theorem parseString_plain {c : Char} {rest : Str} (hquote : c ≠ '"') (hescape : c ≠ '\\')
    (hcontrol : ¬ c.toNat < 0x20) : parseString (c :: rest) = (parseString rest).map (fun p => (c :: p.1, p.2)) := by
  rw [parseString]
  simp only [if_neg hquote, if_neg hescape, if_neg hcontrol]

theorem parseString_escape {c : Char} {escape rest : Str} (h : parseEscape escape = some (c, rest)) :
    parseString ('\\' :: escape) = (parseString rest).map (fun p => (c :: p.1, p.2)) := by
  rw [parseString]
  simp only [show ('\\' : Char) ≠ '"' by decide, if_false, if_true]
  split
  · next h' =>
    rw [h] at h'
    cases h'
  · next h' =>
    rw [h] at h'
    cases h'
    rfl

private theorem hexValue_hexDigit {n : Nat} (h : n < 16) : hexValue (hexDigit n) = some n := by
  have hall : ∀ n : Fin 16, hexValue (hexDigit n.val) = some n.val := by decide
  exact hall ⟨n, h⟩

private theorem parseUnicodeEscape_control {c : Char} {rest : Str} (h : c.toNat < 0x20) :
    parseUnicodeEscape ('0' :: '0' :: hexDigit (c.toNat / 16) :: hexDigit (c.toNat % 16) :: rest) = some (c, rest) := by
  have hzero : hexValue '0' = some 0 := by decide
  have hn : c.toNat / 16 * 16 + c.toNat % 16 = c.toNat := Nat.div_add_mod' _ _
  have hscalar : c.toNat < 0xD800 ∨ 0xDFFF < c.toNat := .inl (by omega)
  simp only [parseUnicodeEscape, hex4, hzero, hexValue_hexDigit (show c.toNat / 16 < 16 by omega),
    hexValue_hexDigit (show c.toNat % 16 < 16 by omega), Option.bind_eq_bind, Option.bind_some, Nat.zero_mul,
    Nat.zero_add, hn, if_pos hscalar, Char.ofNat_toNat]

/-- An escaped character is read back. -/
private theorem parseString_escapeChar (c : Char) (rest : Str) :
    parseString (escapeChar c ++ rest) = (parseString rest).map (fun p => (c :: p.1, p.2)) := by
  have hcode : ∀ {n : Nat}, c.toNat = n → Char.ofNat n = c := fun h => by rw [← h, Char.ofNat_toNat]
  unfold escapeChar
  split
  · next h => exact parseString_escape (by simp [parseEscape, h])
  split
  · next h => exact parseString_escape (by simp [parseEscape, h])
  split
  · next h => exact parseString_escape (by simpa [parseEscape] using hcode h)
  split
  · next h => exact parseString_escape (by simpa [parseEscape] using hcode h)
  split
  · next h => exact parseString_escape (by simpa [parseEscape] using hcode h)
  split
  · next h => exact parseString_escape (by simpa [parseEscape] using hcode h)
  split
  · next h => exact parseString_escape (by simpa [parseEscape] using hcode h)
  split
  · next h =>
    apply parseString_escape
    simp [parseEscape, parseUnicodeEscape_control h]
  · next hquote hescape _ _ _ _ _ hcontrol => exact parseString_plain hquote hescape hcontrol

theorem parseString_flatMap (s rest : Str) : parseString (s.flatMap escapeChar ++ '"' :: rest) = some (s, rest) := by
  induction s with
  | nil => simp [parseString]
  | cons c s ih => simp [List.append_assoc, parseString_escapeChar, ih]

end Strings

section Numbers
variable {rest : Str}

/-- What may follow a value inside a document. -/
def Delimited (rest : Str) : Prop := ∀ c ∈ rest.head?, c = ',' ∨ c = ']' ∨ c = '}'

private theorem digits_append {ds : Str} (hds : ∀ c ∈ ds, c.isDigit = true) (hrest : Delimited rest) :
    digits (ds ++ rest) = (ds, rest) := by
  have hstop : ∀ c ∈ rest.head?, c.isDigit = false := by
    intro c hc
    obtain rfl | rfl | rfl := hrest c hc <;> decide
  cases rest with
  | nil => simp [digits, List.takeWhile_eq_self_iff.mpr hds, List.dropWhile_eq_nil_iff.mpr hds]
  | cons c rest =>
    have hc := hstop c rfl
    simp [digits, List.takeWhile_append_of_pos hds, List.dropWhile_append_of_pos hds, hc]

private theorem parseFraction_absent (hrest : Delimited rest) : parseFraction rest = some ([], rest) := by
  unfold parseFraction
  split
  · next tail =>
    exact absurd (hrest '.' rfl) (by decide)
  · rfl

private theorem parseExponent_absent (hrest : Delimited rest) : parseExponent rest = some ([], rest) := by
  cases rest with
  | nil => rfl
  | cons c rest =>
    have hne : ¬ (c = 'e' ∨ c = 'E') := by
      obtain rfl | rfl | rfl := hrest c rfl <;> decide
    rw [parseExponent, if_neg hne]

private theorem toDigits_isDigit (n : Nat) : ∀ c ∈ Nat.toDigits 10 n, c.isDigit = true :=
  fun _ hc => Nat.isDigit_of_mem_toDigits (by decide) (by decide) hc

/-- A positive number is written without leading zeros. -/
private theorem head_toDigits {n : Nat} (h : 0 < n) : (Nat.toDigits 10 n).head? ≠ some '0' := by
  induction n using Nat.strongRecOn with
  | ind n ih =>
    by_cases hn : n < 10
    · rw [Nat.toDigits_of_lt_base hn]
      have hall : ∀ k : Fin 10, 0 < k.val → [k.val.digitChar].head? ≠ some '0' := by decide
      exact hall ⟨n, hn⟩ h
    · rw [Nat.toDigits_of_base_le (by decide) (by omega), List.head?_append_of_ne_nil _ Nat.toDigits_ne_nil]
      exact ih (n / 10) (by omega) (by omega)

private theorem decimal_toDigits (n : Nat) : decimal (Nat.toDigits 10 n) = n := Nat.ofDigitChars_ten_toDigits

private theorem parseUnsignedNumber_toDigits (negative : Bool) (n : Nat) (hrest : Delimited rest) :
    parseUnsignedNumber negative (Nat.toDigits 10 n ++ rest) = some (integer negative (Nat.toDigits 10 n), rest) := by
  have hint : ¬ (Nat.toDigits 10 n = [] ∨ (Nat.toDigits 10 n).head? = some '0' ∧ Nat.toDigits 10 n ≠ ['0']) := by
    rintro (hnil | ⟨hhead, hne⟩)
    · exact Nat.toDigits_ne_nil hnil
    · rcases Nat.eq_zero_or_pos n with rfl | hpos
      · exact hne (Nat.toDigits_zero 10)
      · exact head_toDigits hpos hhead
  simp only [parseUnsignedNumber, digits_append (toDigits_isDigit n) hrest, if_neg hint, parseFraction_absent hrest,
    parseExponent_absent hrest, Option.bind_eq_bind, Option.bind_some, and_self, if_true]

theorem parseNumber_posInt (n : UInt64) (hrest : Delimited rest) :
    parseNumber (numberText (.posInt n) ++ rest) = some (.posInt n, rest) := by
  have hvalue : integer false (Nat.toDigits 10 n.toNat) = .posInt n := by
    simp [integer, decimal_toDigits, n.toNat_lt]
  have hsign : ∀ tail, Nat.toDigits 10 n.toNat ++ rest ≠ '-' :: tail := by
    intro tail htail
    have hhead : (Nat.toDigits 10 n.toNat).head? = some '-' := by
      rw [← List.head?_append_of_ne_nil _ Nat.toDigits_ne_nil, htail]
      rfl
    exact absurd (toDigits_isDigit n.toNat '-' (List.mem_of_head? hhead)) (by decide)
  rw [numberText, parseNumber.eq_2 _ hsign, parseUnsignedNumber_toDigits _ _ hrest, hvalue]

theorem parseNumber_negInt (n : Fin (2 ^ 63)) (hrest : Delimited rest) :
    parseNumber (numberText (.negInt n) ++ rest) = some (.negInt n, rest) := by
  have hvalue : integer true (Nat.toDigits 10 (n.val + 1)) = .negInt n := by
    have hle : n.val + 1 ≤ 2 ^ 63 := n.isLt
    simp only [integer, decimal_toDigits, if_true]
    rw [dif_pos (show 0 < n.val + 1 ∧ n.val + 1 ≤ 2 ^ 63 from ⟨Nat.succ_pos _, hle⟩)]
    rfl
  rw [numberText, List.cons_append, parseNumber, parseUnsignedNumber_toDigits _ _ hrest, hvalue]

end Numbers

section Values
variable {value : Str → Option (Json × Str)} {rest : Str}

/-- The characters that the parser skips. -/
private def isSpace (c : Char) : Bool := c == ' ' || c == '\n' || c == '\t' || c == '\r'

private theorem skipSpace_cons {c : Char} (h : isSpace c = false) : skipSpace (c :: rest) = c :: rest :=
  List.dropWhile_cons_of_neg (ne_true_of_eq_false h)

private theorem expect_cons {c : Char} (h : isSpace c = false) : expect c (c :: rest) = some rest := by
  rw [expect, skipSpace_cons h, stripFront_eq_some]
  rfl

private theorem expect_other {c d : Char} (h : isSpace d = false) (hne : d ≠ c) : expect c (d :: rest) = none := by
  rw [expect, skipSpace_cons h, Option.eq_none_iff_forall_ne_some]
  intro tail htail
  rw [stripFront_eq_some] at htail
  exact hne (List.cons.inj htail).1

/-- The parser reads the value back from its text. -/
def ReadsBack (value : Str → Option (Json × Str)) (j : Json) : Prop :=
  ∀ rest, Delimited rest → value (j.text ++ rest) = some (j, rest)

private theorem delimited_cons {c : Char} (h : c = ',' ∨ c = ']' ∨ c = '}') : Delimited (c :: rest) := by
  intro d hd
  obtain rfl := Option.some.inj hd
  exact h

/-- A text starts with a character that ends no array. -/
private theorem text_head {levels : Nat} {j : Json} (h : readable levels j = true) :
    ∃ c tail, j.text = c :: tail ∧ isSpace c = false ∧ c ≠ ']' := by
  have hdigit : ∀ n : Nat, ∃ c tail, Nat.toDigits 10 n = c :: tail ∧ isSpace c = false ∧ c ≠ ']' := by
    intro n
    obtain ⟨c, tail, hc⟩ := List.exists_cons_of_ne_nil (@Nat.toDigits_ne_nil n 10)
    have hd := toDigits_isDigit n c (by simp [hc])
    refine ⟨c, tail, hc, ?_, ?_⟩
    · rw [← Bool.not_eq_true]
      intro hs
      simp only [isSpace, Bool.or_eq_true, beq_iff_eq] at hs
      obtain ((rfl | rfl) | rfl) | rfl := hs <;> exact absurd hd (by decide)
    · rintro rfl
      exact absurd hd (by decide)
  cases j with
  | null => exact ⟨_, _, by rw [text], by decide, by decide⟩
  | bool b => cases b <;> exact ⟨_, _, by rw [text], by decide, by decide⟩
  | num n =>
    cases n with
    | posInt n =>
      rw [text, numberText]
      exact hdigit n.toNat
    | negInt n => exact ⟨_, _, by rw [text, numberText], by decide, by decide⟩
    | float literal =>
      cases levels <;> cases h
  | str s => exact ⟨_, _, by rw [text, stringText, List.cons_append], by decide, by decide⟩
  | arr items => exact ⟨_, _, by rw [text], by decide, by decide⟩
  | obj members => exact ⟨_, _, by rw [text], by decide, by decide⟩

private theorem parseItems_text {items : List Json} (hne : items ≠ []) (hitems : ∀ item ∈ items, ReadsBack value item)
    {fuel : Nat} (hfuel : items.length ≤ fuel) : parseItems value fuel (itemsText items ++ rest) = some (items, rest) := by
  induction items generalizing fuel with
  | nil => exact absurd rfl hne
  | cons item items ih =>
    obtain ⟨fuel, rfl⟩ := Nat.exists_eq_succ_of_ne_zero (show fuel ≠ 0 by simp at hfuel; omega)
    have hitem := hitems item List.mem_cons_self
    cases items with
    | nil =>
      rw [itemsText, List.append_assoc, List.singleton_append, parseItems, hitem (']' :: rest) (delimited_cons (by decide))]
      simp [expect_other (show isSpace ']' = false by decide) (show ']' ≠ ',' by decide),
        expect_cons (show isSpace ']' = false by decide)]
    | cons next items =>
      have hrest := @ih (by simp) (fun i hi => hitems i (List.mem_cons_of_mem _ hi)) fuel (by simpa using hfuel)
      rw [itemsText, List.append_assoc, List.cons_append, parseItems,
        hitem (',' :: (itemsText (next :: items) ++ rest)) (delimited_cons (by decide))]
      simp [expect_cons (show isSpace ',' = false by decide), hrest]

private theorem parseMembers_text {members : List (Str × Json)} (hne : members ≠ [])
    (hmembers : ∀ m ∈ members, ReadsBack value m.2) {fuel : Nat} (hfuel : members.length ≤ fuel) :
    parseMembers value fuel (membersText members ++ rest) = some (members, rest) := by
  induction members generalizing fuel with
  | nil => exact absurd rfl hne
  | cons member members ih =>
    obtain ⟨fuel, rfl⟩ := Nat.exists_eq_succ_of_ne_zero (show fuel ≠ 0 by simp at hfuel; omega)
    obtain ⟨key, item⟩ := member
    have hitem : ReadsBack value item := hmembers (key, item) List.mem_cons_self
    have hkey : ∀ tail, expect '"' (stringText key ++ tail) = some (key.flatMap escapeChar ++ '"' :: tail) := by
      intro tail
      rw [stringText, List.append_assoc, List.singleton_append, List.cons_append]
      exact expect_cons (by decide)
    have hcolon : ∀ tail, expect ':' (':' :: tail) = some tail := fun tail => expect_cons (by decide)
    cases members with
    | nil =>
      rw [membersText, parseMembers]
      simp only [List.append_assoc, List.cons_append, hkey, hcolon, parseString_flatMap, Option.bind_eq_bind,
        Option.bind_some]
      rw [List.nil_append, hitem ('}' :: rest) (delimited_cons (by decide))]
      simp [expect_other (show isSpace '}' = false by decide) (show '}' ≠ ',' by decide),
        expect_cons (show isSpace '}' = false by decide)]
    | cons next members =>
      have hrest := @ih (by simp) (fun m hm => hmembers m (List.mem_cons_of_mem _ hm)) fuel (by simpa using hfuel)
      rw [membersText, parseMembers]
      simp only [List.append_assoc, List.cons_append, hkey, hcolon, parseString_flatMap, Option.bind_eq_bind,
        Option.bind_some]
      rw [hitem (',' :: (membersText (next :: members) ++ rest)) (delimited_cons (by decide))]
      simp [expect_cons (show isSpace ',' = false by decide), hrest]

private theorem length_le_itemsText (items : List Json) : items.length ≤ (itemsText items).length := by
  induction items with
  | nil => simp [itemsText]
  | cons item items ih =>
    cases items with
    | nil => simp [itemsText]
    | cons next items =>
      rw [itemsText]
      simp only [List.length_append, List.length_cons] at ih ⊢
      omega

private theorem length_le_membersText (members : List (Str × Json)) : members.length ≤ (membersText members).length := by
  induction members with
  | nil => simp [membersText]
  | cons member members ih =>
    cases members with
    | nil =>
      rw [membersText]
      simp only [List.length_append, List.length_cons]
      omega
    | cons next members =>
      rw [membersText]
      simp only [List.length_append, List.length_cons] at ih ⊢
      omega

private theorem parseArray_text {items : List Json} (hitems : ∀ item ∈ items, ReadsBack value item)
    (hhead : ∀ item ∈ items, ∃ c tail, item.text = c :: tail ∧ isSpace c = false ∧ c ≠ ']') :
    parseArray value (itemsText items ++ rest) = some (items, rest) := by
  cases items with
  | nil =>
    rw [parseArray, itemsText, List.singleton_append, expect_cons (by decide)]
  | cons item items =>
    obtain ⟨c, tail, hc, hspace, hne⟩ := hhead item List.mem_cons_self
    have hopen : expect ']' (itemsText (item :: items) ++ rest) = none := by
      cases items <;> rw [itemsText, hc] <;> exact expect_other hspace hne
    rw [parseArray, hopen]
    apply parseItems_text (by simp) hitems
    exact (length_le_itemsText _).trans (by simp)

private theorem parseObject_text {members : List (Str × Json)} (hmembers : ∀ m ∈ members, ReadsBack value m.2) :
    parseObject value (membersText members ++ rest) = some (members, rest) := by
  cases members with
  | nil =>
    rw [parseObject, membersText, List.singleton_append, expect_cons (by decide)]
  | cons member members =>
    obtain ⟨key, item⟩ := member
    have hopen : expect '}' (membersText ((key, item) :: members) ++ rest) = none := by
      cases members <;> rw [membersText, stringText] <;> exact expect_other (by decide) (by decide)
    rw [parseObject, hopen]
    apply parseMembers_text (by simp) hmembers
    exact (length_le_membersText _).trans (by simp)

private theorem parseWith_number {nested : Option (Str → Option (Json × Str))} {c : Char} {tail : Str}
    (h : c = '-' ∨ c.isDigit = true) :
    parseWith nested (c :: tail) = (parseNumber (c :: tail)).map (fun p => (.num p.1, p.2)) := by
  have hne : ∀ d : Char, d ≠ '-' → d.isDigit = false → c ≠ d := by
    rintro d hd hdigit rfl
    obtain rfl | hc := h
    · exact hd rfl
    · rw [hdigit] at hc
      cases hc
  have hspace : isSpace c = false := by
    simp only [isSpace, Bool.or_eq_false_iff, beq_eq_false_iff_ne]
    exact ⟨⟨⟨hne ' ' (by decide) (by decide), hne '\n' (by decide) (by decide)⟩, hne '\t' (by decide) (by decide)⟩,
      hne '\r' (by decide) (by decide)⟩
  rw [parseWith, skipSpace_cons hspace]
  simp only [if_neg (hne '"' (by decide) (by decide)), if_neg (hne '[' (by decide) (by decide)),
    if_neg (hne '{' (by decide) (by decide)), if_neg (hne 'n' (by decide) (by decide)),
    if_neg (hne 't' (by decide) (by decide)), if_neg (hne 'f' (by decide) (by decide))]

/-- A value that needs no further level is read by `parseWith`. -/
private theorem parseWith_scalar {nested : Option (Str → Option (Json × Str))} {j : Json} (h : readable 0 j = true) :
    ReadsBack (parseWith nested) j := by
  intro rest hrest
  cases j with
  | null =>
    rw [text, List.cons_append, parseWith, skipSpace_cons (by decide)]
    simp [show stripFront ['u', 'l', 'l'] ('u' :: 'l' :: 'l' :: rest) = some rest from stripFront_eq_some.mpr rfl]
  | bool b =>
    cases b with
    | true =>
      rw [text, List.cons_append, parseWith, skipSpace_cons (by decide)]
      simp [show stripFront ['r', 'u', 'e'] ('r' :: 'u' :: 'e' :: rest) = some rest from stripFront_eq_some.mpr rfl]
    | false =>
      rw [text, List.cons_append, parseWith, skipSpace_cons (by decide)]
      simp [show stripFront ['a', 'l', 's', 'e'] ('a' :: 'l' :: 's' :: 'e' :: rest) = some rest from
        stripFront_eq_some.mpr rfl]
  | num n =>
    cases n with
    | posInt n =>
      obtain ⟨c, tail, hc⟩ := List.exists_cons_of_ne_nil (@Nat.toDigits_ne_nil n.toNat 10)
      have hdigit : c.isDigit = true := toDigits_isDigit n.toNat c (by simp [hc])
      have hnumber := parseNumber_posInt n hrest
      rw [text, numberText, hc, List.cons_append] at *
      rw [parseWith_number (.inr hdigit), hnumber]
      rfl
    | negInt n =>
      have hnumber := parseNumber_negInt n hrest
      rw [text]
      rw [numberText, List.cons_append] at hnumber ⊢
      rw [parseWith_number (.inl rfl), hnumber]
      rfl
    | float literal => cases h
  | str s =>
    rw [text, stringText, List.cons_append, List.cons_append, parseWith, skipSpace_cons (by decide)]
    simp [List.append_assoc, parseString_flatMap]
  | arr items => cases h
  | obj members => cases h

theorem parseValue_text (levels : Nat) {j : Json} (h : readable levels j = true) : ReadsBack (parseValue levels) j := by
  induction levels generalizing j with
  | zero => exact parseWith_scalar h
  | succ levels ih =>
    cases j with
    | arr items =>
      rw [readable, List.all_eq_true] at h
      intro rest _
      rw [text, List.cons_append, parseValue, parseWith, skipSpace_cons (by decide)]
      simp [parseArray_text (fun item hitem => ih (h item hitem)) (fun item hitem => text_head (h item hitem))]
    | obj members =>
      rw [readable, List.all_eq_true] at h
      intro rest _
      rw [text, List.cons_append, parseValue, parseWith, skipSpace_cons (by decide)]
      simp [parseObject_text (fun m hm => ih (h m hm))]
    | null => exact parseWith_scalar rfl
    | bool b => exact parseWith_scalar rfl
    | num n => exact parseWith_scalar (by cases n <;> first | rfl | cases h)
    | str s => exact parseWith_scalar rfl

theorem fromSlice_toVec {j : Json} (h : readable maxLevels j = true) : fromSlice j.toVec = some j := by
  have hvalue := parseValue_text maxLevels h [] (by intro c hc; cases hc)
  rw [List.append_nil] at hvalue
  rw [fromSlice, toVec, fromUtf8_toUtf8, Option.bind_some, parse, hvalue]
  rfl

end Values
end Abyss.Text.Json
