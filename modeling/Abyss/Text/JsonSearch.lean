import Abyss.Text.Json

/-! The objects within a value, and searches that read a few members of each of them. -/
namespace Abyss.Text
namespace Json

/-- The objects within a value down to a depth, each before the ones inside it. -/
def objectsWithin : Nat → Json → List Json
  | 0, _ => []
  | depth + 1, .obj members => .obj members :: members.flatMap (fun m => objectsWithin depth m.2)
  | depth + 1, .arr items => items.flatMap (objectsWithin depth)
  | _ + 1, _ => []

/-- One step towards a place inside a value. -/
inductive Step where
  | member (key : String)
  | item (position : Nat)
  deriving DecidableEq

/-- The value with another one at a place; unchanged where there is no such place. -/
def replace : List Step → Json → Json → Json
  | [], _, inner => inner
  | .member key :: path, .obj members, inner =>
    .obj (members.map (fun m => (m.1, if m.1 = lit key then replace path m.2 inner else m.2)))
  | .item position :: path, .arr items, inner =>
    .arr (items.zipIdx.map (fun item => if item.2 = position then replace path item.1 inner else item.1))
  | _ :: _, whole, _ => whole

/-- The smallest value with a value at a place. -/
def wrap : List Step → Json → Json
  | [], inner => inner
  | .member key :: path, inner => .obj [(lit key, wrap path inner)]
  | .item position :: path, inner => .arr (List.replicate position .null ++ [wrap path inner])

theorem replace_wrap (path : List Step) (inner inner' : Json) :
    replace path (wrap path inner) inner' = wrap path inner' := by
  induction path with
  | nil => rfl
  | cons step path ih =>
    cases step with
    | member key => simp [replace, wrap, ih]
    | item position =>
      rw [wrap, replace, wrap, List.zipIdx_append, List.map_append]
      congr 2
      · apply List.ext_getElem
        · simp
        · intro n hn _
          rw [List.length_map, List.length_zipIdx, List.length_replicate] at hn
          simp [Nat.ne_of_lt hn]
      · simp [ih]

private theorem get_replaced {key name : String} (h : name ≠ key) (f : Json → Json) (members : List (Str × Json)) :
    (obj (members.map (fun m => (m.1, if m.1 = lit key then f m.2 else m.2)))).get name = (obj members).get name := by
  simp only [get, List.find?_map, Option.map_map]
  change Option.map _ (members.find? fun m => decide (m.1 = lit name)) = _
  cases hfound : members.find? (fun m => decide (m.1 = lit name)) with
  | none => rfl
  | some m =>
    have hname : m.1 = lit name := by simpa using List.find?_some hfound
    have hother : m.1 ≠ lit key := by
      rw [hname]
      exact fun heq => h (lit_inj.mp heq)
    simp [hother]

end Json

/-- A search of objects that reads nothing but the members under a few keys. -/
structure ObjectSearch (γ : Type) where
  keys : List String
  read : Json → List γ
  read_congr : ∀ {object object' : Json}, (∀ key ∈ keys, object.get key = object'.get key) → read object = read object'
  read_empty : read (.obj []) = []

namespace ObjectSearch
open Json
variable {γ : Type} (search : ObjectSearch γ)

/-- What is read from the objects within a value. -/
def found (depth : Nat) (value : Json) : List γ := (objectsWithin depth value).flatMap search.read

/-- No object within the value says anything. -/
def Silent (depth : Nat) (value : Json) : Prop := ∀ object ∈ objectsWithin depth value, search.read object = []

/-- A place outside everything that the search reads. -/
def Outside (path : List Step) : Prop := ∀ key ∈ search.keys, Step.member key ∉ path

theorem found_eq_nil {depth : Nat} {value : Json} : search.found depth value = [] ↔ search.Silent depth value :=
  List.flatMap_eq_nil_iff

@[simp] theorem found_zero (value : Json) : search.found 0 value = [] := by
  cases value <;> rfl

@[simp] theorem found_obj (depth : Nat) (members : List (Str × Json)) : search.found (depth + 1) (.obj members) =
    search.read (.obj members) ++ members.flatMap (fun m => search.found depth m.2) := by
  simp only [found, objectsWithin, List.flatMap_cons, List.flatMap_assoc]

@[simp] theorem found_arr (depth : Nat) (items : List Json) :
    search.found (depth + 1) (.arr items) = items.flatMap (search.found depth) := by
  simp only [found, objectsWithin, List.flatMap_assoc]
  rfl

@[simp] theorem found_null (depth : Nat) : search.found depth .null = [] := by
  cases depth <;> rfl

@[simp] theorem found_str (depth : Nat) (s : Str) : search.found depth (.str s) = [] := by
  cases depth <;> rfl

theorem Outside.tail {search : ObjectSearch γ} {step : Step} {path : List Step} (h : search.Outside (step :: path)) :
    search.Outside path :=
  fun key hkey hmem => h key hkey (List.mem_cons_of_mem _ hmem)

theorem Outside.head {search : ObjectSearch γ} {key name : String} {path : List Step}
    (h : search.Outside (.member key :: path)) (hname : name ∈ search.keys) : name ≠ key := by
  rintro rfl
  exact h name hname List.mem_cons_self

/-- What is found in a value depends on the value at an outside place only through what is found
there with the depth that is left. -/
theorem found_replace {path : List Step} (hpath : search.Outside path) {depth : Nat} {inner inner' : Json}
    (h : search.found (depth - path.length) inner = search.found (depth - path.length) inner') (whole : Json) :
    search.found depth (replace path whole inner) = search.found depth (replace path whole inner') := by
  induction path generalizing depth whole with
  | nil => exact h
  | cons step path ih =>
    cases depth with
    | zero => rw [found_zero, found_zero]
    | succ depth =>
      rw [List.length_cons, Nat.add_sub_add_right] at h
      have hinner := ih hpath.tail h
      cases step with
      | member key =>
        cases whole with
        | obj members =>
          rw [replace, replace, found_obj, found_obj, List.flatMap_map, List.flatMap_map]
          congr 1
          · apply search.read_congr
            intro name hname
            rw [get_replaced (hpath.head hname) (replace path · inner), get_replaced (hpath.head hname) (replace path · inner')]
          · apply List.flatMap_congr
            intro m _
            dsimp only
            split
            · exact hinner m.2
            · rfl
        | _ => rfl
      | item position =>
        cases whole with
        | arr items =>
          rw [replace, replace, found_arr, found_arr, List.flatMap_map, List.flatMap_map]
          apply List.flatMap_congr
          intro item _
          split
          · exact hinner item.1
          · rfl
        | _ => rfl

/-- Nothing is added on the way to an outside place. -/
theorem found_wrap {path : List Step} (hpath : search.Outside path) (depth : Nat) (inner : Json) :
    search.found depth (wrap path inner) = search.found (depth - path.length) inner := by
  induction path generalizing depth with
  | nil => rfl
  | cons step path ih =>
    cases depth with
    | zero => rw [found_zero, Nat.zero_sub, found_zero]
    | succ depth =>
      rw [List.length_cons, Nat.add_sub_add_right, ← ih hpath.tail depth]
      cases step with
      | member key =>
        have hread : search.read (.obj [(lit key, wrap path inner)]) = [] := by
          rw [← search.read_empty]
          apply search.read_congr
          intro name hname
          rw [get_cons, if_neg (hpath.head hname).symm]
        rw [wrap, found_obj, hread]
        simp
      | item position =>
        rw [wrap, found_arr, List.flatMap_append]
        simp

/-- A value can be put at an outside place so that nothing else is found. -/
theorem found_replace_wrap {path : List Step} (hpath : search.Outside path) (depth : Nat) (inner inner' : Json) :
    search.found depth (replace path (wrap path inner) inner') = search.found (depth - path.length) inner' := by
  rw [replace_wrap, found_wrap search hpath]

end ObjectSearch
end Abyss.Text
