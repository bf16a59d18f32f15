import Abyss.Text.Scalar

/-! Texts with a separator between them: when they can be told apart again. -/
namespace Abyss.Text.Separated
variable {sep : Char}

/-- Each text with the separator behind it. -/
def ended (sep : Char) (parts : List Str) : Str := parts.flatMap (· ++ [sep])

/-- The first text is told apart if it has no separator. -/
theorem cons_inj {s s' t t' : Str} (hs : sep ∉ s) (hs' : sep ∉ s') (h : s ++ sep :: t = s' ++ sep :: t') :
    s = s' ∧ t = t' := by
  have hsplit := congrArg (·.splitOn sep) h
  simp only [List.splitOn_append_cons_self, List.splitOn_eq_singleton hs, List.splitOn_eq_singleton hs'] at hsplit
  obtain rfl : s = s' := (List.cons.inj hsplit).1
  exact ⟨rfl, (List.cons.inj (List.append_cancel_left h)).2⟩

/-- The last text is told apart if it has no separator. -/
theorem concat_inj {s s' t t' : Str} (ht : sep ∉ t) (ht' : sep ∉ t') (h : s ++ sep :: t = s' ++ sep :: t') :
    s = s' ∧ t = t' := by
  have hreverse := congrArg List.reverse h
  simp only [List.reverse_append, List.reverse_cons, List.append_assoc, List.singleton_append] at hreverse
  have hparts := cons_inj (by rwa [List.mem_reverse]) (by rwa [List.mem_reverse]) hreverse
  exact ⟨List.reverse_inj.mp hparts.2, List.reverse_inj.mp hparts.1⟩

theorem splitOn_inj {s s' : Str} (h : s.splitOn sep = s'.splitOn sep) : s = s' := by
  rw [← @List.intercalate_splitOn _ s _ _ sep, h, List.intercalate_splitOn]

theorem not_mem_of_mem_splitOn {s part : Str} (h : part ∈ s.splitOn sep) : sep ∉ part := by
  induction s generalizing part with
  | nil =>
    rw [List.splitOn_nil, List.mem_singleton] at h
    rw [h]
    exact List.not_mem_nil
  | cons c s ih =>
    rw [List.splitOn_cons_eq_if_modifyHead] at h
    obtain ⟨head, tail, hsplit⟩ := List.exists_cons_of_ne_nil (List.splitOn_ne_nil sep s)
    rw [hsplit] at h ih
    split at h
    · rcases List.mem_cons.mp h with rfl | h
      · exact List.not_mem_nil
      · exact ih h
    · next hc =>
      rw [List.modifyHead_cons] at h
      rcases List.mem_cons.mp h with rfl | h
      · rw [List.mem_cons, not_or]
        exact ⟨fun heq => hc (beq_iff_eq.mpr heq.symm), ih (List.mem_cons_self ..)⟩
      · exact ih (List.mem_cons_of_mem _ h)

theorem splitOn_parts {parts : List Str} (hne : parts ≠ []) (h : ∀ part ∈ parts, sep ∉ part) :
    ∃ s : Str, s.splitOn sep = parts := ⟨[sep].intercalate parts, List.splitOn_intercalate sep h hne⟩

section Middle
variable {ω : Type}

/-- An item among others has one place exactly when no such item is behind the first item before it or before the last
item behind it. -/
theorem place_unique_iff {α : Type} {item : ω → α} {front back : List α} (hfront : front ≠ []) (hback : back ≠ []) (w : ω) :
    (∀ front' w' back', front' ≠ [] → back' ≠ [] → front' ++ item w' :: back' = front ++ item w :: back →
      front' = front) ↔ ∀ w', item w' ∉ front.tail ∧ item w' ∉ back.dropLast := by
  constructor
  · intro h w'
    constructor
    · intro hmem
      obtain ⟨head, tail, rfl⟩ := List.exists_cons_of_ne_nil hfront
      obtain ⟨before, after, hsplit⟩ := List.append_of_mem hmem
      rw [List.tail_cons] at hsplit
      have heq := h (head :: before) w' (after ++ item w :: back) (List.cons_ne_nil _ _) (by simp) (by simp [hsplit])
      have hlength := congrArg List.length heq
      rw [hsplit] at hlength
      simp only [List.length_cons, List.length_append] at hlength
      omega
    · intro hmem
      obtain ⟨before, after, hsplit⟩ := List.append_of_mem hmem
      obtain ⟨last, hlast⟩ : ∃ last, back = before ++ item w' :: after ++ [last] :=
        ⟨back.getLast hback, by rw [← hsplit, List.dropLast_append_getLast]⟩
      have heq := h (front ++ item w :: before) w' (after ++ [last]) (by simp) (by simp) (by simp [hlast])
      have hlength := congrArg List.length heq
      simp only [List.length_cons, List.length_append] at hlength
      omega
  · intro h front' w' back' hfront' hback' heq
    rcases List.append_eq_append_iff.mp heq with ⟨between, hbetween, hrest⟩ | ⟨between, hbetween, hrest⟩
    · cases between with
      | nil => rw [hbetween, List.append_nil]
      | cons first between =>
        obtain ⟨hfirst, -⟩ := List.cons.inj hrest
        refine absurd ?_ (h w').1
        obtain ⟨head, tail, rfl⟩ := List.exists_cons_of_ne_nil hfront'
        rw [hbetween, List.cons_append, List.tail_cons, hfirst]
        exact List.mem_append_right _ (List.mem_cons_self ..)
    · cases between with
      | nil => rw [hbetween, List.append_nil]
      | cons first between =>
        obtain ⟨-, hback⟩ := List.cons.inj hrest
        refine absurd ?_ (h w').2
        have hback : back = between ++ item w' :: back' := hback
        rw [hback, List.dropLast_append_of_ne_nil (List.cons_ne_nil _ _)]
        refine List.mem_append_right _ ?_
        rw [List.dropLast_cons_of_ne_nil hback']
        exact List.mem_cons_self ..

/-- A text, a word and a text. -/
def around (sep : Char) (front middle back : Str) : Str := front ++ sep :: (middle ++ sep :: back)

theorem splitOn_around {front middle back : Str} (h : sep ∉ middle) :
    (around sep front middle back).splitOn sep = front.splitOn sep ++ middle :: back.splitOn sep := by
  rw [around, List.splitOn_append_cons_self, List.splitOn_append_cons_self, List.splitOn_eq_singleton h]
  rfl

/-- A word between two texts is told apart exactly when no word stands behind the first separator of the text before it
or before the last separator of the text behind it. -/
theorem around_unique_iff {word : ω → Str} (hword : ∀ w, sep ∉ word w) (front : Str) (w : ω) (back : Str) :
    (∀ front' w' back', around sep front' (word w') back' = around sep front (word w) back → front' = front) ↔
    ∀ w', word w' ∉ (front.splitOn sep).tail ∧ word w' ∉ (back.splitOn sep).dropLast := by
  rw [← place_unique_iff (List.splitOn_ne_nil sep front) (List.splitOn_ne_nil sep back) w]
  constructor
  · intro h fronts w' backs hfronts hbacks heq
    have hparts : ∀ part ∈ fronts ++ word w' :: backs, sep ∉ part := by
      rw [heq]
      intro part hpart
      rcases List.mem_append.mp hpart with hpart | hpart
      · exact not_mem_of_mem_splitOn hpart
      · rcases List.mem_cons.mp hpart with rfl | hpart
        · exact hword w
        · exact not_mem_of_mem_splitOn hpart
    obtain ⟨front', hfront'⟩ := splitOn_parts hfronts (fun part hpart => hparts part (List.mem_append_left _ hpart))
    obtain ⟨back', hback'⟩ := splitOn_parts hbacks
      (fun part hpart => hparts part (List.mem_append_right _ (List.mem_cons_of_mem _ hpart)))
    have hsame := h front' w' back' (splitOn_inj (by
      rw [splitOn_around (hword w'), splitOn_around (hword w), hfront', hback', heq]))
    rw [← hfront', hsame]
  · intro h front' w' back' heq
    refine splitOn_inj (h (front'.splitOn sep) w' (back'.splitOn sep) (List.splitOn_ne_nil _ _) (List.splitOn_ne_nil _ _) ?_)
    rw [← splitOn_around (hword w'), heq, splitOn_around (hword w)]

end Middle
end Abyss.Text.Separated
