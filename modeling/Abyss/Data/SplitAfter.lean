import Mathlib.Data.List.Basic

/-! Lists cut after every item that ends a segment. -/
namespace Abyss.Data
variable {α β : Type}

/-- The closed segments of a list, the first of which starts with `opened`. -/
def segmentsFrom (ends : α → Bool) (opened : List α) : List α → List (List α)
  | [] => []
  | a :: rest => if ends a then (opened ++ [a]) :: segmentsFrom ends [] rest else segmentsFrom ends (opened ++ [a]) rest

/-- What follows the last item that ends a segment. -/
def openFrom (ends : α → Bool) (opened : List α) : List α → List α
  | [] => opened
  | a :: rest => if ends a then openFrom ends [] rest else openFrom ends (opened ++ [a]) rest

def segments (ends : α → Bool) : List α → List (List α) := segmentsFrom ends []

def openSegment (ends : α → Bool) : List α → List α := openFrom ends []

theorem segmentsFrom_append (ends : α → Bool) (opened front back : List α) :
    segmentsFrom ends opened (front ++ back) =
      segmentsFrom ends opened front ++ segmentsFrom ends (openFrom ends opened front) back := by
  induction front generalizing opened with
  | nil => rfl
  | cons a front ih =>
    rw [List.cons_append, segmentsFrom, segmentsFrom, openFrom]
    split
    · rw [ih, List.cons_append]
    · exact ih _

theorem openFrom_append (ends : α → Bool) (opened front back : List α) :
    openFrom ends opened (front ++ back) = openFrom ends (openFrom ends opened front) back := by
  induction front generalizing opened with
  | nil => rfl
  | cons a front ih =>
    rw [List.cons_append, openFrom, openFrom]
    split
    · exact ih _
    · exact ih _

theorem segments_append_singleton (ends : α → Bool) (front : List α) (a : α) : segments ends (front ++ [a]) =
    if ends a then segments ends front ++ [openSegment ends front ++ [a]] else segments ends front := by
  rw [segments, segmentsFrom_append, segmentsFrom, segmentsFrom]
  split
  · rfl
  · rw [segmentsFrom, List.append_nil]

theorem openSegment_append_singleton (ends : α → Bool) (front : List α) (a : α) : openSegment ends (front ++ [a]) =
    if ends a then [] else openSegment ends front ++ [a] := by
  rw [openSegment, openFrom_append, openFrom, openFrom, openFrom]

theorem segmentsFrom_map (ends : β → Bool) (f : α → β) (opened items : List α) :
    segmentsFrom ends (opened.map f) (items.map f) = (segmentsFrom (ends ∘ f) opened items).map (List.map f) := by
  induction items generalizing opened with
  | nil => rfl
  | cons a items ih =>
    have hopened : opened.map f ++ [f a] = (opened ++ [a]).map f := by rw [List.map_append, List.map_singleton]
    rw [List.map_cons, segmentsFrom, segmentsFrom, Function.comp_apply, hopened]
    split
    · rw [List.map_cons, ← ih []]
      rfl
    · exact ih _

theorem segments_map (ends : β → Bool) (f : α → β) (items : List α) :
    segments ends (items.map f) = (segments (ends ∘ f) items).map (List.map f) :=
  segmentsFrom_map ends f [] items

private theorem mem_of_mem_segmentsFrom {ends : α → Bool} {opened items segment : List α} {a : α}
    (hsegment : segment ∈ segmentsFrom ends opened items) (ha : a ∈ segment) : a ∈ opened ∨ a ∈ items := by
  induction items generalizing opened with
  | nil => cases hsegment
  | cons b items ih =>
    have hopened : a ∈ opened ++ [b] → a ∈ opened ∨ a ∈ b :: items := by
      intro hmem
      obtain hbefore | hlast := List.mem_append.mp hmem
      · exact .inl hbefore
      · rw [List.mem_singleton.mp hlast]
        exact .inr List.mem_cons_self
    rw [segmentsFrom] at hsegment
    split at hsegment
    · obtain rfl | hlater := List.mem_cons.mp hsegment
      · exact hopened ha
      · obtain hnil | hmem := ih hlater
        · cases hnil
        · exact .inr (List.mem_cons_of_mem b hmem)
    · obtain hmem | hmem := ih hsegment
      · exact hopened hmem
      · exact .inr (List.mem_cons_of_mem b hmem)

theorem mem_of_mem_segments {ends : α → Bool} {items segment : List α} {a : α} (hsegment : segment ∈ segments ends items)
    (ha : a ∈ segment) : a ∈ items := by
  obtain hnil | hmem := mem_of_mem_segmentsFrom hsegment ha
  · cases hnil
  · exact hmem

end Abyss.Data
