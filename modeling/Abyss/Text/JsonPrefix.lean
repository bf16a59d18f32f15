import Abyss.Text.JsonRoundTrip

/-! What parsing the front part of a JSON document gives. -/
namespace Abyss.Text

/-- Bytes that decode keep their meaning in front of others. -/
theorem fromUtf8_append {front : List UInt8} {s : Str} (h : fromUtf8 front = some s) (back : List UInt8) :
    fromUtf8 (front ++ back) = (fromUtf8 back).map (s ++ ·) := by
  fun_induction fromUtf8 front generalizing s with
  | case1 =>
    cases h
    cases hback : fromUtf8 back <;> simp [hback]
  | case2 b₀ r₀ hascii ih =>
    obtain ⟨tail, htail, rfl⟩ := Option.map_eq_some_iff.mp h
    rw [List.cons_append, fromUtf8.eq_def]
    simp only [hascii, if_true, ih htail, Option.map_map]
    rfl
  | case3 => cases h
  | case4 => cases h
  | case5 b₀ hascii b₁ r₁ hcontinuation htwo ih =>
    obtain ⟨tail, htail, rfl⟩ := Option.map_eq_some_iff.mp h
    rw [List.cons_append, List.cons_append, fromUtf8.eq_def]
    simp only [if_neg hascii, if_neg hcontinuation, if_pos htwo, ih htail, Option.map_map]
    rfl
  | case6 => cases h
  | case7 => cases h
  | case8 => cases h
  | case9 b₀ hascii b₁ hfirst htwo b₂ r₂ hsecond hthree n hn =>
    rename_i ih
    obtain ⟨tail, htail, rfl⟩ := Option.map_eq_some_iff.mp h
    rw [List.cons_append, List.cons_append, List.cons_append, fromUtf8.eq_def]
    simp only [if_neg hascii, if_neg hfirst, if_neg htwo, if_neg hsecond, if_pos hthree]
    rw [if_neg hn, ih htail, Option.map_map]
    rfl
  | case10 => cases h
  | case11 => cases h
  | case12 b₀ hascii b₁ hfirst htwo b₂ hsecond hthree b₃ r₃ n hn =>
    rename_i ih
    obtain ⟨tail, htail, rfl⟩ := Option.map_eq_some_iff.mp h
    rw [List.cons_append, List.cons_append, List.cons_append, List.cons_append, fromUtf8.eq_def]
    simp only [if_neg hascii, if_neg hfirst, if_neg htwo, if_neg hsecond, if_neg hthree]
    rw [if_neg hn, ih htail, Option.map_map]
    rfl

namespace Json
variable {s rest back : Str}

section Tokens

theorem skipSpace_append (h : skipSpace s ≠ []) (back : Str) : skipSpace (s ++ back) = skipSpace s ++ back := by
  induction s with
  | nil => exact absurd rfl h
  | cons c s ih =>
    unfold skipSpace at h ih ⊢
    rw [List.cons_append, List.dropWhile_cons, List.dropWhile_cons]
    rw [List.dropWhile_cons] at h
    split
    · next hc =>
      rw [if_pos hc] at h
      exact ih h
    · rfl

theorem expect_some {c : Char} (h : expect c s = some rest) : skipSpace s = c :: rest := stripFront_eq_some.mp h

theorem expect_append {c : Char} (h : expect c s = some rest) (back : Str) : expect c (s ++ back) = some (rest ++ back) := by
  have hskip := expect_some h
  rw [expect, skipSpace_append (by rw [hskip]; exact List.cons_ne_nil _ _), hskip]
  exact stripFront_eq_some.mpr rfl

/-- A character that is missed in front of another one is missed for good. -/
theorem expect_append_none {c : Char} (hne : skipSpace s ≠ []) (h : expect c s = none) (back : Str) :
    expect c (s ++ back) = none := by
  rw [expect, skipSpace_append hne]
  obtain ⟨d, tail, hskip⟩ := List.exists_cons_of_ne_nil hne
  cases hexpect : stripFront [c] (skipSpace s ++ back) with
  | none => rfl
  | some found =>
    have hhead := stripFront_eq_some.mp hexpect
    rw [hskip, List.cons_append] at hhead
    have hd : d = c := (List.cons.inj hhead).1
    have hfound : expect c s = some tail := by
      rw [expect, hskip, hd]
      exact stripFront_eq_some.mpr rfl
    rw [hfound] at h
    cases h

theorem parseUnicodeEscape_append {c : Char} (h : parseUnicodeEscape s = some (c, rest)) (back : Str) :
    parseUnicodeEscape (s ++ back) = some (c, rest ++ back) := by
  unfold parseUnicodeEscape at h
  split at h
  · next a b c' d tail =>
    simp only [List.cons_append]
    unfold parseUnicodeEscape
    simp only [Option.bind_eq_bind, Option.bind_eq_some_iff] at h ⊢
    obtain ⟨n, hn, h⟩ := h
    refine ⟨n, hn, ?_⟩
    split at h
    · next hplain =>
      cases h
      rw [if_pos hplain]
    next hplain =>
      rw [if_neg hplain]
      split at h
      · cases h
      next hhigh =>
        rw [if_neg hhigh]
        split at h
        · simp only [List.cons_append]
          simp only [Option.bind_eq_some_iff] at h ⊢
          obtain ⟨low, hlow, h⟩ := h
          refine ⟨low, hlow, ?_⟩
          by_cases hpair : 0xDC00 ≤ low ∧ low ≤ 0xDFFF
          · rw [if_pos hpair] at h ⊢
            obtain ⟨hchar, hrest⟩ := Prod.mk.inj (Option.some.inj h)
            rw [hchar, hrest]
          · rw [if_neg hpair] at h
            cases h
        · cases h
  · cases h

theorem parseEscape_append {c : Char} (h : parseEscape s = some (c, rest)) (back : Str) :
    parseEscape (s ++ back) = some (c, rest ++ back) := by
  cases s with
  | nil => cases h
  | cons d s =>
    simp only [List.cons_append, parseEscape] at h ⊢
    split
    · next hd => rw [if_pos hd] at h; cases h; rfl
    next hd =>
      rw [if_neg hd] at h
      split
      · next hd => rw [if_pos hd] at h; cases h; rfl
      next hd =>
        rw [if_neg hd] at h
        split
        · next hd => rw [if_pos hd] at h; cases h; rfl
        next hd =>
          rw [if_neg hd] at h
          split
          · next hd => rw [if_pos hd] at h; cases h; rfl
          next hd =>
            rw [if_neg hd] at h
            split
            · next hd => rw [if_pos hd] at h; cases h; rfl
            next hd =>
              rw [if_neg hd] at h
              split
              · next hd => rw [if_pos hd] at h; cases h; rfl
              next hd =>
                rw [if_neg hd] at h
                split
                · next hd =>
                  rw [if_pos hd] at h
                  exact parseUnicodeEscape_append h back
                · next hd =>
                  rw [if_neg hd] at h
                  cases h

theorem parseString_append {text : Str} (h : parseString s = some (text, rest)) (back : Str) :
    parseString (s ++ back) = some (text, rest ++ back) := by
  fun_induction parseString s generalizing text with
  | case1 => cases h
  | case2 tail =>
    cases h
    rw [List.cons_append, parseString, if_pos rfl]
  | case3 => cases h
  | case4 tail escaped behind hescape hquote ih =>
    obtain ⟨pair, hpair, heq⟩ := Option.map_eq_some_iff.mp h
    obtain ⟨rfl, rfl⟩ := Prod.mk.inj heq
    rw [List.cons_append, parseString_escape (parseEscape_append hescape back), ih hpair]
    rfl
  | case5 => cases h
  | case6 c tail hquote hescape hcontrol ih =>
    obtain ⟨pair, hpair, heq⟩ := Option.map_eq_some_iff.mp h
    obtain ⟨rfl, rfl⟩ := Prod.mk.inj heq
    rw [List.cons_append, parseString_plain hquote hescape hcontrol, ih hpair]
    rfl

theorem digits_extend (h : (digits s).2 ≠ []) (back : Str) : digits (s ++ back) = ((digits s).1, (digits s).2 ++ back) := by
  induction s with
  | nil => exact absurd rfl h
  | cons c s ih =>
    unfold digits at h ih ⊢
    rw [List.cons_append]
    by_cases hc : c.isDigit = true
    · rw [List.dropWhile_cons_of_pos hc] at h
      have hrest := Prod.mk.inj (ih h)
      rw [List.takeWhile_cons_of_pos hc, List.dropWhile_cons_of_pos hc, List.takeWhile_cons_of_pos hc,
        List.dropWhile_cons_of_pos hc, hrest.1, hrest.2]
    · rw [List.takeWhile_cons_of_neg hc, List.dropWhile_cons_of_neg hc, List.takeWhile_cons_of_neg hc,
        List.dropWhile_cons_of_neg hc, List.cons_append]

theorem parseFraction_append {fraction : Str} (h : parseFraction s = some (fraction, rest)) (hne : rest ≠ []) (back : Str) :
    parseFraction (s ++ back) = some (fraction, rest ++ back) := by
  cases s with
  | nil =>
    cases h
    exact absurd rfl hne
  | cons c s =>
    by_cases hc : c = '.'
    · subst hc
      rw [parseFraction] at h
      split at h
      · cases h
      · next hdigits =>
        cases h
        rw [List.cons_append, parseFraction, digits_extend hne, if_neg hdigits]
    · have hplain : ∀ tail, parseFraction (c :: tail) = some ([], c :: tail) := by
        intro tail
        unfold parseFraction
        split
        · next heq => exact absurd (List.cons.inj heq).1 hc
        · rfl
      rw [hplain] at h
      cases h
      rw [List.cons_append, hplain]

theorem exponentSign_append (hne : s ≠ []) (back : Str) :
    exponentSign (s ++ back) = ((exponentSign s).1, (exponentSign s).2 ++ back) := by
  obtain ⟨c, tail, rfl⟩ := List.exists_cons_of_ne_nil hne
  rw [List.cons_append]
  by_cases hplus : c = '+'
  · subst hplus
    rfl
  · by_cases hminus : c = '-'
    · subst hminus
      rfl
    · have hplain : ∀ tail, exponentSign (c :: tail) = ([], c :: tail) := by
        intro tail
        unfold exponentSign
        split
        · next heq => exact absurd (List.cons.inj heq).1 hplus
        · next heq => exact absurd (List.cons.inj heq).1 hminus
        · rfl
      rw [hplain, hplain, List.cons_append]

theorem parseExponent_append {exponent : Str} (h : parseExponent s = some (exponent, rest)) (hne : rest ≠ []) (back : Str) :
    parseExponent (s ++ back) = some (exponent, rest ++ back) := by
  cases s with
  | nil =>
    cases h
    exact absurd rfl hne
  | cons c s =>
    simp only [List.cons_append, parseExponent] at h ⊢
    by_cases hc : c = 'e' ∨ c = 'E'
    · rw [if_pos hc] at h ⊢
      split at h
      · cases h
      · next hdigits =>
        cases h
        have hs : s ≠ [] := by
          rintro rfl
          exact hne rfl
        rw [exponentSign_append hs, digits_extend hne, if_neg hdigits]
    · rw [if_neg hc] at h ⊢
      cases h
      rw [List.cons_append]

theorem parseUnsignedNumber_append {negative : Bool} {n : JsonNumber}
    (h : parseUnsignedNumber negative s = some (n, rest)) (hne : rest ≠ []) (back : Str) :
    parseUnsignedNumber negative (s ++ back) = some (n, rest ++ back) := by
  unfold parseUnsignedNumber at h ⊢
  dsimp only at h
  by_cases hint : (digits s).1 = [] ∨ ((digits s).1.head? = some '0' ∧ (digits s).1 ≠ ['0'])
  · rw [if_pos hint] at h
    cases h
  · rw [if_neg hint] at h
    simp only [Option.bind_eq_bind, Option.bind_eq_some_iff] at h
    obtain ⟨⟨fraction, behind⟩, hfraction, ⟨exponent, last⟩, hexponent, hnumber⟩ := h
    have hlast : last = rest := by
      dsimp only at hnumber
      split at hnumber
      · exact (Prod.mk.inj (Option.some.inj hnumber)).2
      · exact (Prod.mk.inj (Option.some.inj hnumber)).2
    subst hlast
    have hbehind : behind ≠ [] := by
      rintro rfl
      exact hne (Prod.mk.inj (Option.some.inj hexponent)).2.symm
    have hdigits : (digits s).2 ≠ [] := by
      intro hnil
      rw [hnil] at hfraction
      exact hbehind (Prod.mk.inj (Option.some.inj hfraction)).2.symm
    rw [digits_extend hdigits]
    dsimp only
    rw [if_neg hint, parseFraction_append hfraction hbehind]
    simp only [Option.bind_eq_bind, Option.bind_some, parseExponent_append hexponent hne]
    split at hnumber
    · next hplain =>
      rw [if_pos hplain]
      rw [(Prod.mk.inj (Option.some.inj hnumber)).1]
    · next hplain =>
      rw [if_neg hplain]
      rw [(Prod.mk.inj (Option.some.inj hnumber)).1]

theorem parseNumber_append {n : JsonNumber} (h : parseNumber s = some (n, rest)) (hne : rest ≠ []) (back : Str) :
    parseNumber (s ++ back) = some (n, rest ++ back) := by
  cases s with
  | nil =>
    have hnone : parseNumber [] = none := rfl
    rw [hnone] at h
    cases h
  | cons c s =>
    rw [List.cons_append]
    by_cases hc : c = '-'
    · subst hc
      exact parseUnsignedNumber_append h hne back
    · have hplain : ∀ tail, parseNumber (c :: tail) = parseUnsignedNumber false (c :: tail) := by
        intro tail
        unfold parseNumber
        split
        · next heq => exact absurd (List.cons.inj heq).1 hc
        · rfl
      rw [hplain] at h ⊢
      exact parseUnsignedNumber_append h hne back

end Tokens

section Values

/-- Values that are followed by something are read the same with more behind. -/
structure Extends (value : Str → Option (Json × Str)) : Prop where
  append : ∀ {s rest : Str} {j : Json}, value s = some (j, rest) → rest ≠ [] → ∀ back,
    value (s ++ back) = some (j, rest ++ back)
  start : ∀ {s rest : Str} {j : Json}, value s = some (j, rest) → skipSpace s ≠ []

theorem ne_nil_of_skipSpace {c : Char} (h : skipSpace s = c :: rest) : s ≠ [] := by
  rintro rfl
  cases h

theorem parseItems_append {value : Str → Option (Json × Str)} (hvalue : Extends value) {fuel more : Nat} {items : List Json}
    (h : parseItems value fuel s = some (items, rest)) (back : Str) :
    parseItems value (fuel + more) (s ++ back) = some (items, rest ++ back) := by
  induction fuel generalizing s items with
  | zero => cases h
  | succ fuel ih =>
    rw [Nat.add_right_comm]
    simp only [parseItems, Option.bind_eq_bind, Option.bind_eq_some_iff] at h ⊢
    obtain ⟨⟨item, behind⟩, hitem, h⟩ := h
    dsimp only at h
    cases hcomma : expect ',' behind with
    | some next =>
      simp only [hcomma, Option.bind_eq_some_iff] at h
      obtain ⟨⟨found, last⟩, hfound, heq⟩ := h
      cases heq
      refine ⟨(item, behind ++ back), hvalue.append hitem (ne_nil_of_skipSpace (expect_some hcomma)) back, ?_⟩
      simp only [expect_append hcomma, ih hfound, Option.bind_some]
    | none =>
      simp only [hcomma, Option.bind_eq_some_iff] at h
      obtain ⟨last, hclose, heq⟩ := h
      cases heq
      have hskip := expect_some hclose
      refine ⟨(item, behind ++ back), hvalue.append hitem (ne_nil_of_skipSpace hskip) back, ?_⟩
      simp only [expect_append_none (by rw [hskip]; exact List.cons_ne_nil _ _) hcomma, expect_append hclose,
        Option.bind_some]

theorem parseMembers_append {value : Str → Option (Json × Str)} (hvalue : Extends value) {fuel more : Nat}
    {members : List (Str × Json)} (h : parseMembers value fuel s = some (members, rest)) (back : Str) :
    parseMembers value (fuel + more) (s ++ back) = some (members, rest ++ back) := by
  induction fuel generalizing s members with
  | zero => cases h
  | succ fuel ih =>
    rw [Nat.add_right_comm]
    simp only [parseMembers, Option.bind_eq_bind, Option.bind_eq_some_iff] at h ⊢
    obtain ⟨opened, hopen, ⟨key, named⟩, hkey, valued, hcolon, ⟨item, behind⟩, hitem, h⟩ := h
    dsimp only at h hcolon
    refine ⟨opened ++ back, expect_append hopen back, (key, named ++ back), parseString_append hkey back, valued ++ back,
      expect_append hcolon back, ?_⟩
    cases hcomma : expect ',' behind with
    | some next =>
      simp only [hcomma, Option.bind_eq_some_iff] at h
      obtain ⟨⟨found, last⟩, hfound, heq⟩ := h
      cases heq
      refine ⟨(item, behind ++ back), hvalue.append hitem (ne_nil_of_skipSpace (expect_some hcomma)) back, ?_⟩
      simp only [expect_append hcomma, ih hfound, Option.bind_some]
    | none =>
      simp only [hcomma, Option.bind_eq_some_iff] at h
      obtain ⟨last, hclose, heq⟩ := h
      cases heq
      have hskip := expect_some hclose
      refine ⟨(item, behind ++ back), hvalue.append hitem (ne_nil_of_skipSpace hskip) back, ?_⟩
      simp only [expect_append_none (by rw [hskip]; exact List.cons_ne_nil _ _) hcomma, expect_append hclose,
        Option.bind_some]

theorem parseArray_append {value : Str → Option (Json × Str)} (hvalue : Extends value) {items : List Json}
    (h : parseArray value s = some (items, rest)) (back : Str) :
    parseArray value (s ++ back) = some (items, rest ++ back) := by
  unfold parseArray at h ⊢
  cases hclose : expect ']' s with
  | some behind =>
    rw [hclose] at h
    cases h
    rw [expect_append hclose]
  | none =>
    simp only [hclose] at h
    have hstart : skipSpace s ≠ [] := by
      cases hlength : s.length with
      | zero =>
        rw [hlength] at h
        cases h
      | succ fuel =>
        rw [hlength] at h
        simp only [parseItems, Option.bind_eq_bind, Option.bind_eq_some_iff] at h
        obtain ⟨⟨item, behind⟩, hitem, -⟩ := h
        exact hvalue.start hitem
    simp only [expect_append_none hstart hclose, List.length_append]
    exact parseItems_append hvalue h back

theorem parseObject_append {value : Str → Option (Json × Str)} (hvalue : Extends value) {members : List (Str × Json)}
    (h : parseObject value s = some (members, rest)) (back : Str) :
    parseObject value (s ++ back) = some (members, rest ++ back) := by
  unfold parseObject at h ⊢
  cases hclose : expect '}' s with
  | some behind =>
    rw [hclose] at h
    cases h
    rw [expect_append hclose]
  | none =>
    simp only [hclose] at h
    have hstart : skipSpace s ≠ [] := by
      cases hlength : s.length with
      | zero =>
        rw [hlength] at h
        cases h
      | succ fuel =>
        rw [hlength] at h
        simp only [parseMembers, Option.bind_eq_bind, Option.bind_eq_some_iff] at h
        obtain ⟨opened, hopen, -⟩ := h
        rw [expect_some hopen]
        exact List.cons_ne_nil _ _
    simp only [expect_append_none hstart hclose, List.length_append]
    exact parseMembers_append hvalue h back

theorem stripFront_append {word : Str} (h : stripFront word s = some rest) (back : Str) :
    stripFront word (s ++ back) = some (rest ++ back) := by
  rw [stripFront_eq_some] at h ⊢
  rw [h, List.append_assoc]

/-- Whether a value is an object is decided by its first character, and an object ends with its own brace. -/
theorem parseWith_append {nested : Option (Str → Option (Json × Str))} (hnested : ∀ value ∈ nested, Extends value)
    {j : Json} (h : parseWith nested s = some (j, rest)) (hend : rest ≠ [] ∨ ∃ members, j = .obj members) (back : Str) :
    parseWith nested (s ++ back) = some (j, rest ++ back) := by
  have hstart : skipSpace s ≠ [] := by
    intro hnil
    rw [parseWith, hnil] at h
    cases h
  obtain ⟨c, tail, hskip⟩ := List.exists_cons_of_ne_nil hstart
  rw [parseWith, skipSpace_append hstart, hskip]
  rw [parseWith, hskip] at h
  simp only [List.cons_append] at h ⊢
  by_cases hquote : c = '"'
  · rw [if_pos hquote] at h ⊢
    obtain ⟨pair, hpair, heq⟩ := Option.map_eq_some_iff.mp h
    obtain ⟨rfl, rfl⟩ := Prod.mk.inj heq
    rw [parseString_append hpair]
    rfl
  rw [if_neg hquote] at h ⊢
  by_cases harray : c = '['
  · rw [if_pos harray] at h ⊢
    obtain ⟨value, hvalue, h⟩ := Option.bind_eq_some_iff.mp h
    obtain ⟨pair, hpair, heq⟩ := Option.map_eq_some_iff.mp h
    obtain ⟨rfl, rfl⟩ := Prod.mk.inj heq
    rw [hvalue, Option.bind_some, parseArray_append (hnested value hvalue) hpair]
    rfl
  rw [if_neg harray] at h ⊢
  by_cases hobject : c = '{'
  · rw [if_pos hobject] at h ⊢
    obtain ⟨value, hvalue, h⟩ := Option.bind_eq_some_iff.mp h
    obtain ⟨pair, hpair, heq⟩ := Option.map_eq_some_iff.mp h
    obtain ⟨rfl, rfl⟩ := Prod.mk.inj heq
    rw [hvalue, Option.bind_some, parseObject_append (hnested value hvalue) hpair]
    rfl
  rw [if_neg hobject] at h ⊢
  by_cases hnull : c = 'n'
  · rw [if_pos hnull] at h ⊢
    obtain ⟨behind, hbehind, heq⟩ := Option.map_eq_some_iff.mp h
    obtain ⟨rfl, rfl⟩ := Prod.mk.inj heq
    rw [stripFront_append hbehind]
    rfl
  rw [if_neg hnull] at h ⊢
  by_cases htrue : c = 't'
  · rw [if_pos htrue] at h ⊢
    obtain ⟨behind, hbehind, heq⟩ := Option.map_eq_some_iff.mp h
    obtain ⟨rfl, rfl⟩ := Prod.mk.inj heq
    rw [stripFront_append hbehind]
    rfl
  rw [if_neg htrue] at h ⊢
  by_cases hfalse : c = 'f'
  · rw [if_pos hfalse] at h ⊢
    obtain ⟨behind, hbehind, heq⟩ := Option.map_eq_some_iff.mp h
    obtain ⟨rfl, rfl⟩ := Prod.mk.inj heq
    rw [stripFront_append hbehind]
    rfl
  rw [if_neg hfalse] at h ⊢
  obtain ⟨pair, hpair, heq⟩ := Option.map_eq_some_iff.mp h
  obtain ⟨rfl, rfl⟩ := Prod.mk.inj heq
  have hne : pair.2 ≠ [] := by
    rcases hend with hne | ⟨members, hmembers⟩
    · exact hne
    · cases hmembers
  have hnumber := parseNumber_append hpair hne back
  rw [List.cons_append] at hnumber
  rw [hnumber]
  rfl

theorem parseWith_start {nested : Option (Str → Option (Json × Str))} {j : Json}
    (h : parseWith nested s = some (j, rest)) : skipSpace s ≠ [] := by
  intro hnil
  rw [parseWith, hnil] at h
  cases h

theorem extends_parseValue (levels : Nat) : Extends (parseValue levels) := by
  induction levels with
  | zero =>
    exact ⟨fun h hne back => parseWith_append (fun _ hvalue => by cases hvalue) h (.inl hne) back, parseWith_start⟩
  | succ levels ih =>
    refine ⟨fun h hne back => parseWith_append (fun value hvalue => ?_) h (.inl hne) back, parseWith_start⟩
    cases hvalue
    exact ih

theorem parseValue_object_append {levels : Nat} {members : List (Str × Json)}
    (h : parseValue levels s = some (.obj members, rest)) (back : Str) :
    parseValue levels (s ++ back) = some (.obj members, rest ++ back) := by
  cases levels with
  | zero => exact parseWith_append (fun _ hvalue => by cases hvalue) h (.inr ⟨members, rfl⟩) back
  | succ levels =>
    refine parseWith_append (fun value hvalue => ?_) h (.inr ⟨members, rfl⟩) back
    cases hvalue
    exact extends_parseValue levels

theorem parseWith_object_iff {nested : Option (Str → Option (Json × Str))} {j : Json}
    (h : parseWith nested s = some (j, rest)) :
    (∃ members, j = .obj members) ↔ (skipSpace s).head? = some '{' := by
  obtain ⟨c, tail, hskip⟩ := List.exists_cons_of_ne_nil (parseWith_start h)
  rw [parseWith, hskip] at h
  rw [hskip, List.head?_cons, Option.some.injEq]
  dsimp only at h
  by_cases hobject : c = '{'
  · subst hobject
    rw [if_neg (by decide), if_neg (by decide), if_pos rfl] at h
    obtain ⟨value, -, h⟩ := Option.bind_eq_some_iff.mp h
    obtain ⟨pair, -, heq⟩ := Option.map_eq_some_iff.mp h
    exact iff_of_true ⟨pair.1, (Prod.mk.inj heq).1.symm⟩ rfl
  · refine iff_of_false ?_ hobject
    rintro ⟨members, rfl⟩
    rw [if_neg hobject] at h
    split at h
    · obtain ⟨pair, -, heq⟩ := Option.map_eq_some_iff.mp h
      cases (Prod.mk.inj heq).1
    split at h
    · obtain ⟨value, -, h⟩ := Option.bind_eq_some_iff.mp h
      obtain ⟨pair, -, heq⟩ := Option.map_eq_some_iff.mp h
      cases (Prod.mk.inj heq).1
    split at h
    · obtain ⟨behind, -, heq⟩ := Option.map_eq_some_iff.mp h
      cases (Prod.mk.inj heq).1
    split at h
    · obtain ⟨behind, -, heq⟩ := Option.map_eq_some_iff.mp h
      cases (Prod.mk.inj heq).1
    split at h
    · obtain ⟨behind, -, heq⟩ := Option.map_eq_some_iff.mp h
      cases (Prod.mk.inj heq).1
    · obtain ⟨pair, -, heq⟩ := Option.map_eq_some_iff.mp h
      cases (Prod.mk.inj heq).1

/-- An object starts with its brace. -/
theorem parseValue_object_iff {levels : Nat} {j : Json} (h : parseValue levels s = some (j, rest)) :
    (∃ members, j = .obj members) ↔ (skipSpace s).head? = some '{' := by
  cases levels with
  | zero => exact parseWith_object_iff h
  | succ levels => exact parseWith_object_iff h

theorem parseValue_start {levels : Nat} {j : Json} (h : parseValue levels s = some (j, rest)) : skipSpace s ≠ [] := by
  cases levels with
  | zero => exact parseWith_start h
  | succ levels => exact parseWith_start h

theorem parse_eq_some {j : Json} (h : parse s = some j) :
    ∃ rest, parseValue maxLevels s = some (j, rest) ∧ skipSpace rest = [] := by
  unfold parse at h
  simp only [Option.bind_eq_bind, Option.bind_eq_some_iff] at h
  obtain ⟨⟨found, rest⟩, hfound, h⟩ := h
  dsimp only at h
  split at h
  · next hrest =>
    cases h
    exact ⟨rest, hfound, hrest⟩
  · cases h

/-- The front part of an object document is no document, or the same object. -/
theorem parse_front {members : List (Str × Json)} (h : parse (s ++ back) = some (.obj members)) {j : Json}
    (hfront : parse s = some j) : j = .obj members := by
  obtain ⟨rest, hwhole, -⟩ := parse_eq_some h
  obtain ⟨behind, hpart, -⟩ := parse_eq_some hfront
  have hstart := parseValue_start hpart
  have hhead := (parseValue_object_iff hwhole).mp ⟨members, rfl⟩
  rw [skipSpace_append hstart, List.head?_append_of_ne_nil _ hstart] at hhead
  obtain ⟨found, rfl⟩ := (parseValue_object_iff hpart).mpr hhead
  have heq := (parseValue_object_append hpart back).symm.trans hwhole
  exact (Prod.mk.inj (Option.some.inj heq)).1

theorem fromSlice_front {front : List UInt8} {members : List (Str × Json)} {tail : List UInt8}
    (h : fromSlice (front ++ tail) = some (.obj members)) {j : Json} (hfront : fromSlice front = some j) :
    j = .obj members := by
  obtain ⟨s, hs, hparse⟩ := Option.bind_eq_some_iff.mp hfront
  obtain ⟨whole, hwhole, hdocument⟩ := Option.bind_eq_some_iff.mp h
  rw [fromUtf8_append hs] at hwhole
  obtain ⟨behind, -, rfl⟩ := Option.map_eq_some_iff.mp hwhole
  exact parse_front hdocument hparse

end Values
end Json
end Abyss.Text
