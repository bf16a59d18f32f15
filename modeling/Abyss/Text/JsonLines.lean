import Abyss.Text.JsonCodec

/-! Files of documents, one on each line. -/
namespace Abyss.Text

section Lines

def newline : UInt8 := 10

/-- The lines of a file that are not empty. A last line without its end counts. -/
def lines (body : List UInt8) : List (List UInt8) := (body.splitOn newline).filter (fun line => !line.isEmpty)

/-- A line as it is written. -/
def endLine (line : List UInt8) : List UInt8 := line ++ [newline]

/-- A line that a file gives back: not empty, and without the end of a line in it. -/
structure IsLine (line : List UInt8) : Prop where
  nonempty : line ≠ []
  single : newline ∉ line

theorem lines_endLine {line : List UInt8} (h : IsLine line) (rest : List UInt8) :
    lines (endLine line ++ rest) = line :: lines rest := by
  have hcons : endLine line ++ rest = line ++ newline :: rest := by simp [endLine]
  rw [lines, hcons, List.splitOn_append_cons_self_of_not_mem h.single, List.filter_cons_of_pos]
  · rfl
  · simp [h.nonempty]

theorem lines_line {line : List UInt8} (h : IsLine line) : lines line = [line] := by
  rw [lines, List.splitOn_eq_singleton h.single, List.filter_cons_of_pos (by simp [h.nonempty]), List.filter_nil]

theorem lines_nil : lines [] = [] := rfl

theorem lines_written {written : List (List UInt8)} (h : ∀ line ∈ written, IsLine line) (rest : List UInt8) :
    lines (written.flatMap endLine ++ rest) = written ++ lines rest := by
  induction written with
  | nil => rfl
  | cons line written ih =>
    rw [List.flatMap_cons, List.append_assoc, lines_endLine (h line List.mem_cons_self),
      ih (fun l hl => h l (List.mem_cons_of_mem _ hl)), List.cons_append]

end Lines

section Documents
open Json

private theorem newline_not_mem_digits (n : Nat) : '\n' ∉ Nat.toDigits 10 n := by
  intro hmem
  exact absurd (Nat.isDigit_of_mem_toDigits (by decide) (by decide) hmem) (by decide)

private theorem newline_not_mem_string (s : Str) : '\n' ∉ stringText s := by
  have hescape : ∀ c : Char, '\n' ∉ escapeChar c := by
    intro c
    have hhex : ∀ n : Nat, n < 16 → hexDigit n ≠ '\n' := by
      intro n hn
      have hall : ∀ n : Fin 16, hexDigit n.val ≠ '\n' := by decide
      exact hall ⟨n, hn⟩
    unfold escapeChar
    repeat' split
    any_goals decide
    case _ hcontrol =>
      have hhigh := hhex (c.toNat / 16) (by omega)
      have hlow := hhex (c.toNat % 16) (by omega)
      simp [hhigh.symm, hlow.symm]
    case _ =>
      intro hmem
      obtain rfl := List.mem_singleton.mp hmem
      contradiction
  simp only [stringText, List.cons_append, List.mem_cons, List.mem_append, List.mem_flatMap, List.not_mem_nil, or_false,
    not_or, not_exists, not_and]
  exact ⟨by decide, fun c _ => hescape c, by decide⟩

private theorem newline_not_mem_items {items : List Json} (h : ∀ item ∈ items, '\n' ∉ item.text) :
    '\n' ∉ itemsText items := by
  induction items with
  | nil => decide
  | cons item rest ih =>
    have hitem := h item List.mem_cons_self
    have hrest := ih (fun i hi => h i (List.mem_cons_of_mem _ hi))
    cases rest with
    | nil => simp [itemsText, hitem]
    | cons next rest => simp [itemsText, hitem, hrest]

private theorem newline_not_mem_members {members : List (Str × Json)} (h : ∀ m ∈ members, '\n' ∉ m.2.text) :
    '\n' ∉ membersText members := by
  induction members with
  | nil => decide
  | cons member rest ih =>
    obtain ⟨key, value⟩ := member
    have hvalue := h (key, value) List.mem_cons_self
    have hrest := ih (fun m hm => h m (List.mem_cons_of_mem _ hm))
    have hkey := newline_not_mem_string key
    cases rest with
    | nil => simp [membersText, hvalue, hkey]
    | cons next rest => simp [membersText, hvalue, hkey, hrest]

private theorem newline_not_mem_scalar {j : Json} (h : readable 0 j = true) : '\n' ∉ j.text := by
  cases j with
  | null => decide
  | bool b => cases b <;> decide
  | num n =>
    cases n with
    | posInt n => exact newline_not_mem_digits _
    | negInt n => simp [text, numberText, newline_not_mem_digits]
    | float literal => cases h
  | str s => exact newline_not_mem_string s
  | arr items => cases h
  | obj members => cases h

/-- The text of a document is a single line. -/
private theorem newline_not_mem_text {levels : Nat} {j : Json} (h : readable levels j = true) : '\n' ∉ j.text := by
  induction levels generalizing j with
  | zero => exact newline_not_mem_scalar h
  | succ levels ih =>
    cases j with
    | arr items =>
      rw [readable, List.all_eq_true] at h
      simp [text, newline_not_mem_items (fun item hitem => ih (h item hitem))]
    | obj members =>
      rw [readable, List.all_eq_true] at h
      simp [text, newline_not_mem_members (fun m hm => ih (h m hm))]
    | null => exact newline_not_mem_scalar rfl
    | bool b => exact newline_not_mem_scalar rfl
    | num n => exact newline_not_mem_scalar (by cases n <;> first | rfl | cases h)
    | str s => exact newline_not_mem_scalar rfl

private theorem text_ne_nil {levels : Nat} {j : Json} (h : readable levels j = true) : j.text ≠ [] := by
  cases j with
  | null => decide
  | bool b => cases b <;> decide
  | num n =>
    cases n with
    | posInt n => exact Nat.toDigits_ne_nil
    | negInt n => exact List.cons_ne_nil _ _
    | float literal => cases levels <;> cases h
  | str s => exact List.cons_ne_nil _ _
  | arr items => exact List.cons_ne_nil _ _
  | obj members => exact List.cons_ne_nil _ _

theorem isLine_toVec {levels : Nat} {j : Json} (h : readable levels j = true) : IsLine j.toVec := by
  constructor
  · obtain ⟨c, rest, htext⟩ := List.exists_cons_of_ne_nil (text_ne_nil h)
    have hpos := c.utf8Size_pos
    intro hnil
    have hlength := congrArg List.length hnil
    rw [toVec, htext, toUtf8, List.flatMap_cons, List.length_append, String.length_utf8EncodeChar, List.length_nil] at hlength
    omega
  · exact fun hmem => newline_not_mem_text h (ascii_mem_toUtf8 (by decide) hmem)

end Documents
end Abyss.Text
