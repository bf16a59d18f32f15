import Abyss.Text.Trim
import Mathlib.Data.List.Infix

/-! Certificate blocks of a text: what joining texts and trimming them leaves of the blocks. -/
namespace Abyss.Text.Pem

def beginLine : Str := "-----BEGIN CERTIFICATE-----".toList
def endLine : Str := "-----END CERTIFICATE-----".toList

section Blocks

/-- The blocks among some lines, behind the lines of a block that is open. A boundary line opens a block anew. -/
def blocksFrom : List Str → Option (List Str) → List (List Str)
  | [], _ => []
  | line :: lines, block =>
    if line = beginLine then blocksFrom lines (some [line])
    else if line = endLine then (block.map (· ++ [line])).toList ++ blocksFrom lines none
    else blocksFrom lines (block.map (· ++ [line]))

def blocks (lines : List Str) : List (List Str) := blocksFrom lines none

/-- The lines of one block. -/
def IsBlock (lines : List Str) : Prop :=
  ∃ body, lines = beginLine :: body ++ [endLine] ∧ beginLine ∉ body ∧ endLine ∉ body

theorem endLine_ne_beginLine : endLine ≠ beginLine := by decide

theorem blank_ne_beginLine : ([] : Str) ≠ beginLine := by decide

theorem blank_ne_endLine : ([] : Str) ≠ endLine := by decide

/-- A line that opens a block ends what is before it. -/
theorem blocksFrom_append (block : Option (List Str)) (front back : List Str) :
    blocksFrom (front ++ beginLine :: back) block = blocksFrom front block ++ blocks (beginLine :: back) := by
  induction front generalizing block with
  | nil =>
    show blocksFrom (beginLine :: back) block = blocksFrom (beginLine :: back) none
    rw [blocksFrom, if_pos rfl, blocksFrom, if_pos rfl]
  | cons line front ih =>
    rw [List.cons_append, blocksFrom, blocksFrom, ih, ih, ih]
    split
    · rfl
    · split
      · rw [List.append_assoc]
      · rfl

theorem blocks_append {front back : List Str} (h : IsBlock back) : blocks (front ++ back) = blocks front ++ blocks back := by
  obtain ⟨body, rfl, -, -⟩ := h
  exact blocksFrom_append none front _

theorem blocksFrom_body {block body : List Str} (hbegin : beginLine ∉ body) (hend : endLine ∉ body) :
    blocksFrom (body ++ [endLine]) (some block) = [block ++ body ++ [endLine]] := by
  induction body generalizing block with
  | nil =>
    rw [List.nil_append, blocksFrom, if_neg endLine_ne_beginLine, if_pos rfl, List.append_nil]
    rfl
  | cons line body ih =>
    rw [List.mem_cons, not_or] at hbegin hend
    rw [List.cons_append, blocksFrom, if_neg (Ne.symm hbegin.1), if_neg (Ne.symm hend.1), Option.map_some,
      ih hbegin.2 hend.2, List.append_assoc block, List.singleton_append]

/-- The lines of a block are one block. -/
theorem blocks_of_isBlock {lines : List Str} (h : IsBlock lines) : blocks lines = [lines] := by
  obtain ⟨body, rfl, hbegin, hend⟩ := h
  rw [blocks, List.cons_append, blocksFrom, if_pos rfl, blocksFrom_body hbegin hend]
  rfl

theorem blocks_cons_blank (lines : List Str) : blocks ([] :: lines) = blocks lines := by
  rw [blocks, blocksFrom, if_neg blank_ne_beginLine, if_neg blank_ne_endLine, Option.map_none, blocks]

theorem blocks_append_blank (lines : List Str) : blocks (lines ++ [[]]) = blocks lines := by
  suffices h : ∀ block, blocksFrom (lines ++ [[]]) block = blocksFrom lines block from h none
  induction lines with
  | nil =>
    intro block
    show blocksFrom [[]] block = []
    rw [blocksFrom, if_neg blank_ne_beginLine, if_neg blank_ne_endLine, blocksFrom]
  | cons line lines ih =>
    intro block
    rw [List.cons_append, blocksFrom, blocksFrom, ih, ih, ih]

end Blocks

section Lines

/-- The lines of a text, without the white space around them. -/
def lines (s : Str) : List Str := (s.splitOn '\n').map trim

theorem lines_append (s t : Str) : lines (s ++ '\n' :: t) = lines s ++ lines t := by
  rw [lines, List.splitOn_append_cons_self, List.map_append, lines, lines]

/-- White space before a text adds at most a blank line. -/
theorem blocks_lines_cons {c : Char} (h : isWhitespace c = true) (s : Str) : blocks (lines (c :: s)) = blocks (lines s) := by
  by_cases hc : c = '\n'
  · subst hc
    exact (congrArg blocks (lines_append [] s)).trans (blocks_cons_blank _)
  · have hlines : lines (c :: s) = lines s := by
      obtain ⟨head, tail, hsplit⟩ := List.exists_cons_of_ne_nil (List.splitOn_ne_nil '\n' s)
      rw [lines, List.splitOn_cons_eq_if_modifyHead, if_neg (by simpa using hc), lines, hsplit, List.modifyHead_cons,
        List.map_cons, List.map_cons, trim_cons h]
    rw [hlines]

theorem splitOn_concat {c : Char} (hc : c ≠ '\n') (s : Str) :
    ∃ front last, s.splitOn '\n' = front ++ [last] ∧ (s ++ [c]).splitOn '\n' = front ++ [last ++ [c]] := by
  induction s with
  | nil =>
    refine ⟨[], [], rfl, ?_⟩
    rw [List.nil_append, List.splitOn_cons_eq_if_modifyHead, if_neg (by simpa using hc)]
    rfl
  | cons d s ih =>
    obtain ⟨front, last, hs, hconcat⟩ := ih
    rw [List.cons_append, List.splitOn_cons_eq_if_modifyHead, List.splitOn_cons_eq_if_modifyHead, hs, hconcat]
    split
    · exact ⟨[] :: front, last, rfl, rfl⟩
    · cases front with
      | nil => exact ⟨[], d :: last, rfl, rfl⟩
      | cons line front => exact ⟨(d :: line) :: front, last, rfl, rfl⟩

/-- White space behind a text adds at most a blank line. -/
theorem blocks_lines_concat {c : Char} (h : isWhitespace c = true) (s : Str) :
    blocks (lines (s ++ [c])) = blocks (lines s) := by
  by_cases hc : c = '\n'
  · subst hc
    exact (congrArg blocks (lines_append s [])).trans (blocks_append_blank _)
  · have hlines : lines (s ++ [c]) = lines s := by
      obtain ⟨front, last, hs, hconcat⟩ := splitOn_concat hc s
      rw [lines, hconcat, lines, hs, List.map_append, List.map_append, List.map_singleton, List.map_singleton,
        trim_concat h]
    rw [hlines]

/-- Trimming a text keeps its blocks. -/
theorem blocks_lines_trim (s : Str) : blocks (lines (trim s)) = blocks (lines s) := by
  have hfront : blocks (lines (s.dropWhile isWhitespace)) = blocks (lines s) := by
    induction s with
    | nil => rfl
    | cons c s ih =>
      by_cases hc : isWhitespace c = true
      · rw [List.dropWhile_cons_of_pos hc, ih, blocks_lines_cons hc]
      · rw [List.dropWhile_cons_of_neg hc]
  rw [trim, ← hfront]
  generalize s.dropWhile isWhitespace = kept
  induction kept using List.reverseRecOn with
  | nil => rfl
  | append_singleton kept c ih =>
    by_cases hc : isWhitespace c = true
    · rw [List.rdropWhile_concat_pos _ _ _ hc, ih, blocks_lines_concat hc]
    · rw [List.rdropWhile_concat_neg _ _ _ hc]

end Lines

end Abyss.Text.Pem
