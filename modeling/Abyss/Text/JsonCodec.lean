import Abyss.Text.JsonRoundTrip

/-! Typed JSON as `serde` derives it: scalar codecs, sequences, unit variants, and structs whose
members are found by name. -/
namespace Abyss.Text
open Json (readable)

/-- How values of a type are written to JSON and read from it. -/
structure JsonCodec (α : Type) where
  toJson : α → Json
  fromJson : Json → Option α
  levels : Nat
  readable_toJson : ∀ a, readable levels (toJson a) = true

theorem readable_mono {levels more : Nat} {j : Json} (hle : levels ≤ more) (h : readable levels j = true) :
    readable more j = true := by
  induction levels generalizing more j with
  | zero =>
    cases j with
    | null => cases more <;> rfl
    | bool b => cases more <;> rfl
    | num n => cases n <;> cases more <;> first | rfl | cases h
    | str s => cases more <;> rfl
    | arr items => cases h
    | obj members => cases h
  | succ levels ih =>
    obtain ⟨more, rfl⟩ := Nat.exists_eq_succ_of_ne_zero (show more ≠ 0 by omega)
    cases j with
    | null => rfl
    | bool b => rfl
    | num n => cases n <;> first | rfl | cases h
    | str s => rfl
    | arr items =>
      rw [readable, List.all_eq_true] at h ⊢
      exact fun item hitem => ih (by omega) (h item hitem)
    | obj members =>
      rw [readable, List.all_eq_true] at h ⊢
      exact fun m hm => ih (by omega) (h m hm)

namespace JsonCodec
variable {α β : Type}

/-- The JSON of `a` is read as `b`. -/
def Reads (c : JsonCodec α) (a b : α) : Prop := c.fromJson (c.toJson a) = some b

/-- The document of `a` is read as `b`, through the bytes on the wire. -/
theorem fromSlice_toVec {c : JsonCodec α} (hlevels : c.levels ≤ Json.maxLevels) (a : α) :
    Json.fromSlice (c.toJson a).toVec = some (c.toJson a) :=
  Json.fromSlice_toVec (readable_mono hlevels (c.readable_toJson a))

section Scalars

def string : JsonCodec Str where
  toJson := .str
  fromJson
    | .str s => some s
    | _ => none
  levels := 0
  readable_toJson _ := rfl

theorem string_reads (s : Str) : string.Reads s s := rfl

/-- An unsigned integer type with `bound` values. -/
def unsigned (bound : Nat) : JsonCodec (Fin bound) where
  toJson n := .num (.posInt (.ofNat n.val))
  fromJson
    | .num (.posInt n) => if h : n.toNat < bound then some ⟨n.toNat, h⟩ else none
    | _ => none
  levels := 0
  readable_toJson _ := rfl

theorem unsigned_reads {bound : Nat} (hbound : bound ≤ 2 ^ 64) (n : Fin bound) : (unsigned bound).Reads n n := by
  have hn : (UInt64.ofNat n.val).toNat = n.val := Nat.mod_eq_of_lt (Nat.lt_of_lt_of_le n.isLt hbound)
  simp only [Reads, unsigned, hn, n.isLt, dite_true]

end Scalars

section Conversions

/-- `#[serde(try_from, into)]`. -/
def convert (c : JsonCodec α) (into : β → α) (tryFrom : α → Option β) : JsonCodec β where
  toJson b := c.toJson (into b)
  fromJson j := (c.fromJson j).bind tryFrom
  levels := c.levels
  readable_toJson b := c.readable_toJson (into b)

theorem convert_reads {c : JsonCodec α} {into : β → α} {tryFrom : α → Option β} {b b' : β} {a : α}
    (h : c.Reads (into b) a) (hfrom : tryFrom a = some b') : (c.convert into tryFrom).Reads b b' := by
  simp only [Reads, convert] at h ⊢
  rw [h, Option.bind_some, hfrom]

/-- A value that may be `null`. -/
def nullable (c : JsonCodec α) : JsonCodec (Option α) where
  toJson a := (a.map c.toJson).getD .null
  fromJson
    | .null => some none
    | j => (c.fromJson j).map some
  levels := c.levels
  readable_toJson a := by
    cases a with
    | none => exact readable_mono (Nat.zero_le _) (show readable 0 Json.null = true from rfl)
    | some a => exact c.readable_toJson a

theorem nullable_reads {c : JsonCodec α} {a b : α} (h : c.Reads a b) (hnull : c.toJson a ≠ .null) :
    c.nullable.Reads (some a) (some b) := by
  simp only [Reads, nullable, Option.map_some, Option.getD_some] at h ⊢
  rw [h]
  rfl

def list (c : JsonCodec α) : JsonCodec (List α) where
  toJson as := .arr (as.map c.toJson)
  fromJson
    | .arr items => items.mapM c.fromJson
    | _ => none
  levels := c.levels + 1
  readable_toJson as := by
    rw [readable, List.all_eq_true]
    intro item hitem
    obtain ⟨a, _, rfl⟩ := List.mem_map.mp hitem
    exact c.readable_toJson a

theorem list_reads {c : JsonCodec α} {as : List α} (h : ∀ a ∈ as, c.Reads a a) : c.list.Reads as as := by
  simp only [Reads, list]
  induction as with
  | nil => rfl
  | cons a as ih =>
    rw [List.map_cons, List.mapM_cons, h a List.mem_cons_self, ih (fun b hb => h b (List.mem_cons_of_mem _ hb))]
    rfl

/-- An enumeration of unit variants: the name of one, or an object that maps it to `null`. -/
def variants (all : List α) (name : α → Str) : JsonCodec α where
  toJson a := .str (name a)
  fromJson
    | .str s => all.find? (fun a => name a = s)
    | .obj [(key, .null)] => all.find? (fun a => name a = key)
    | _ => none
  levels := 0
  readable_toJson _ := rfl

theorem variants_reads {all : List α} {name : α → Str} {a : α} (h : all.find? (fun b => name b = name a) = some a) :
    (variants all name).Reads a a := h

end Conversions

section Words

def u16 : JsonCodec UInt16 := (unsigned (2 ^ 16)).convert UInt16.toFin (fun n => some (.ofFin n))

def u32 : JsonCodec UInt32 := (unsigned (2 ^ 32)).convert UInt32.toFin (fun n => some (.ofFin n))

def u64 : JsonCodec UInt64 := (unsigned (2 ^ 64)).convert UInt64.toFin (fun n => some (.ofFin n))

theorem u16_reads (n : UInt16) : u16.Reads n n := convert_reads (unsigned_reads (by decide) n.toFin) rfl

theorem u32_reads (n : UInt32) : u32.Reads n n := convert_reads (unsigned_reads (by decide) n.toFin) rfl

theorem u64_reads (n : UInt64) : u64.Reads n n := convert_reads (unsigned_reads (by decide) n.toFin) rfl

end Words
end JsonCodec

/-- A member of a struct: what an absent member stands for, and when it is not written. -/
structure JsonField (α : Type) where
  name : Str
  codec : JsonCodec α
  default : Option α
  skip : α → Bool

namespace JsonField
variable {α : Type}

def required (name : Str) (codec : JsonCodec α) : JsonField α := ⟨name, codec, none, fun _ => false⟩

/-- `default, skip_serializing_if = "Option::is_none"`. -/
def optional (name : Str) (codec : JsonCodec α) : JsonField (Option α) := ⟨name, codec.nullable, some none, Option.isNone⟩

/-- `default, skip_serializing_if = "Vec::is_empty"`. -/
def listed (name : Str) (codec : JsonCodec α) : JsonField (List α) := ⟨name, codec.list, some [], List.isEmpty⟩

def write (f : JsonField α) (a : α) : List (Str × Json) := if f.skip a then [] else [(f.name, f.codec.toJson a)]

/-- The member from the values under its name; two of them are a duplicate field. -/
def read (f : JsonField α) : List Json → Option α
  | [] => f.default
  | [j] => f.codec.fromJson j
  | _ => none

def Reads (f : JsonField α) (a b : α) : Prop := f.read ((f.write a).map Prod.snd) = some b

theorem required_reads {name : Str} {codec : JsonCodec α} {a b : α} (h : codec.Reads a b) :
    (required name codec).Reads a b := h

theorem optional_reads {name : Str} {codec : JsonCodec α} {a : Option α}
    (h : ∀ x ∈ a, codec.Reads x x ∧ codec.toJson x ≠ .null) : (optional name codec).Reads a a := by
  cases a with
  | none => rfl
  | some x => exact JsonCodec.nullable_reads (h x rfl).1 (h x rfl).2

theorem listed_reads {name : Str} {codec : JsonCodec α} {as : List α} (h : ∀ a ∈ as, codec.Reads a a) :
    (listed name codec).Reads as as := by
  cases as with
  | nil => rfl
  | cons a as => exact JsonCodec.list_reads h

end JsonField

/-- The values of the members with a name, in document order. -/
def lookup (members : List (Str × Json)) (name : Str) : List Json :=
  (members.filter (fun m => m.1 = name)).map Prod.snd

/-- The members of a struct. -/
structure JsonFields (α : Type) where
  names : List Str
  write : α → List (Str × Json)
  read : (Str → List Json) → Option α
  readSeq : List Json → Option (α × List Json)
  levels : Nat
  write_names : ∀ a, ∀ m ∈ write a, m.1 ∈ names
  readable_write : ∀ a, ∀ m ∈ write a, readable levels m.2 = true

namespace JsonFields
variable {α β : Type}

def nil : JsonFields Unit where
  names := []
  write _ := []
  read _ := some ()
  readSeq items := some ((), items)
  levels := 0
  write_names _ _ hm := by cases hm
  readable_write _ _ hm := by cases hm

private theorem mem_write {f : JsonField α} {a : α} {m : Str × Json} (hm : m ∈ f.write a) :
    m = (f.name, f.codec.toJson a) := by
  rw [JsonField.write] at hm
  split at hm
  · cases hm
  · exact List.mem_singleton.mp hm

def cons (f : JsonField α) (fs : JsonFields β) : JsonFields (α × β) where
  names := f.name :: fs.names
  write p := f.write p.1 ++ fs.write p.2
  read look := do some (← f.read (look f.name), ← fs.read look)
  readSeq items := do
    let a ← f.read (items.take 1)
    let (b, rest) ← fs.readSeq (items.drop 1)
    some ((a, b), rest)
  levels := max f.codec.levels fs.levels
  write_names p m hm := by
    rcases List.mem_append.mp hm with hm | hm
    · rw [mem_write hm]
      exact List.mem_cons_self
    · exact List.mem_cons_of_mem _ (fs.write_names p.2 m hm)
  readable_write p m hm := by
    rcases List.mem_append.mp hm with hm | hm
    · rw [mem_write hm]
      exact readable_mono (Nat.le_max_left _ _) (f.codec.readable_toJson p.1)
    · exact readable_mono (Nat.le_max_right _ _) (fs.readable_write p.2 m hm)

/-- `#[serde(deny_unknown_fields)]`; a struct may also come as the array of its members. -/
def struct (fs : JsonFields α) (into : β → α) (from' : α → β) : JsonCodec β where
  toJson b := .obj (fs.write (into b))
  fromJson
    | .obj members => if members.all (fun m => m.1 ∈ fs.names) then (fs.read (lookup members)).map from' else none
    | .arr items => (fs.readSeq items).bind (fun p => if p.2 = [] then some (from' p.1) else none)
    | _ => none
  levels := fs.levels + 1
  readable_toJson b := by
    rw [readable, List.all_eq_true]
    exact fun m hm => fs.readable_write (into b) m hm

/-- The members of `a`, among members with other names, are read as `b`. -/
def Reads (fs : JsonFields α) (a b : α) : Prop :=
  ∀ front, (∀ m ∈ front, m.1 ∉ fs.names) → fs.read (lookup (front ++ fs.write a)) = some b

theorem nil_reads : nil.Reads () () := fun _ _ => rfl

private theorem lookup_append (front back : List (Str × Json)) (name : Str) :
    lookup (front ++ back) name = lookup front name ++ lookup back name := by
  simp [lookup]

private theorem lookup_absent {members : List (Str × Json)} {name : Str} (h : ∀ m ∈ members, m.1 ≠ name) :
    lookup members name = [] := by
  rw [lookup, List.map_eq_nil_iff, List.filter_eq_nil_iff]
  exact fun m hm => by simpa using h m hm

private theorem lookup_write (f : JsonField α) (a : α) : lookup (f.write a) f.name = (f.write a).map Prod.snd := by
  rw [JsonField.write]
  split
  · rfl
  · simp [lookup]

theorem cons_reads {f : JsonField α} {fs : JsonFields β} {a a' : α} {b b' : β} (hname : f.name ∉ fs.names)
    (hf : f.Reads a a') (hfs : fs.Reads b b') : (cons f fs).Reads (a, b) (a', b') := by
  intro front hfront
  have hfield : lookup (front ++ (f.write a ++ fs.write b)) f.name = (f.write a).map Prod.snd := by
    rw [lookup_append, lookup_append, lookup_write]
    rw [lookup_absent (fun m hm h => hfront m hm (by rw [h]; exact List.mem_cons_self)),
      lookup_absent (fun m hm h => hname (by rw [← h]; exact fs.write_names b m hm)), List.nil_append, List.append_nil]
  have hrest : fs.read (lookup (front ++ (f.write a ++ fs.write b))) = some b' := by
    rw [← List.append_assoc]
    apply hfs
    intro m hm
    rcases List.mem_append.mp hm with hm | hm
    · exact fun h => hfront m hm (List.mem_cons_of_mem _ h)
    · rw [mem_write hm]
      exact hname
  simp only [cons, hfield, hrest, show f.read ((f.write a).map Prod.snd) = some a' from hf]
  rfl

theorem struct_reads {fs : JsonFields α} {into : β → α} {from' : α → β} {b b' : β} (hfrom : from' (into b') = b')
    (h : fs.Reads (into b) (into b')) : (fs.struct into from').Reads b b' := by
  have hknown : (fs.write (into b)).all (fun m => m.1 ∈ fs.names) = true := by
    rw [List.all_eq_true]
    exact fun m hm => decide_eq_true (fs.write_names (into b) m hm)
  have hread := h [] (by intro m hm; cases hm)
  rw [List.nil_append] at hread
  simp only [JsonCodec.Reads, struct, hknown, if_true, hread, Option.map_some, hfrom]

/-- A member of another name is an unknown field. -/
theorem struct_foreign {fs : JsonFields α} {into : β → α} {from' : α → β} {members : List (Str × Json)} {name : Str}
    {value : Json} (hm : (name, value) ∈ members) (hname : name ∉ fs.names) :
    (fs.struct into from').fromJson (.obj members) = none := by
  have hunknown : ¬ members.all (fun m => m.1 ∈ fs.names) = true := by
    rw [List.all_eq_true]
    exact fun h => hname (of_decide_eq_true (h (name, value) hm))
  simp only [struct, if_neg hunknown]

end JsonFields
end Abyss.Text
