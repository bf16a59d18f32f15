import Abyss.Text.Utf8
import Abyss.Data.LittleEndian

/-! Decoding of the `KERN_PROCARGS2` block of a process: its executable and its startup
arguments, in front of its environment. -/
namespace Abyss.Broker.ProcessContext
open Abyss.Text Abyss.Data

abbrev Bytes := List UInt8

/-- Native executable identity and decoded argv, including argv[0]. -/
structure ProcessArguments where
  executable : Str
  argv : List Str
  deriving DecidableEq, Repr

/-- An `io::Error` of kind `InvalidData`. -/
structure InvalidData where
  message : String
  deriving DecidableEq, Repr

def invalidData {α : Type} (message : String) : Except InvalidData α := .error ⟨message⟩

namespace MacOsProcessArgumentsProvider

def takeString (remaining : Bytes) : Except InvalidData (Str × Bytes) :=
  match remaining.findIdx? (· == 0) with
  | none => invalidData "unterminated process argument"
  | some stop => match fromUtf8 (remaining.take stop) with
    | none => invalidData "non-UTF-8 process argument"
    | some value => .ok (value, remaining.drop (stop + 1))

/-- The loop over `argument_count`. -/
def takeStrings : Nat → Bytes → Except InvalidData (List Str)
  | 0, _ => .ok []
  | count + 1, remaining => match takeString remaining with
    | .error error => .error error
    | .ok (value, remaining) => (takeStrings count remaining).map (value :: ·)

/-- `i32::from_ne_bytes` on the little-endian targets of macOS. -/
def i32FromNeBytes (bytes : Bytes) : Int := (BitVec.ofNat 32 (ofLeBytes bytes)).toInt

/-- `usize::try_from` with the filter behind it. -/
def argumentCount (count : Int) : Option Nat := if 1 ≤ count ∧ count ≤ 4096 then some count.toNat else none

def parse (bytes : Bytes) : Except InvalidData ProcessArguments :=
  match splitAtChecked 4 bytes with
  | none => invalidData "missing argument count"
  | some (count, remaining) => match argumentCount (i32FromNeBytes count) with
    | none => invalidData "invalid argument count"
    | some count => match takeString remaining with
      | .error error => .error error
      | .ok (executable, remaining) =>
        -- the padding has no mark of its own: it ends at the first byte that is not NUL
        match remaining.findIdx? (· != 0) with
        | none => invalidData "missing argv"
        | some start => (takeStrings count (remaining.drop start)).map (⟨executable, ·⟩)

end MacOsProcessArgumentsProvider

/-- A string as the kernel lays it out. -/
def terminated (s : Str) : Bytes := toUtf8 s ++ [0]

/-- What the kernel reports of a process. No string of it holds a NUL. -/
structure KernelBlock where
  executable : Str
  padding : Nat
  argv : List Str
  environment : Bytes
  executable_nulFree : '\x00' ∉ executable
  argv_nulFree : ∀ argument ∈ argv, '\x00' ∉ argument
  argv_ne_nil : argv ≠ []
  argv_length_le : argv.length ≤ 4096

namespace KernelBlock

/-- The layout: the count, the executable, its padding, argv, and the environment. -/
def bytes (block : KernelBlock) : Bytes :=
  leBytes 4 block.argv.length ++ (terminated block.executable ++ (List.replicate block.padding 0 ++
    (block.argv.flatMap terminated ++ block.environment)))

open MacOsProcessArgumentsProvider in
/-- Parsing returns what the block is made of, or an error. -/
def Faithful (block : KernelBlock) : Prop :=
  parse block.bytes = .ok ⟨block.executable, block.argv⟩ ∨ ∃ error, parse block.bytes = .error error

/-- The number of empty arguments in front. -/
def leading (block : KernelBlock) : Nat := (block.argv.takeWhile List.isEmpty).length

/-- The arguments behind them. -/
def marked (block : KernelBlock) : List Str := block.argv.dropWhile List.isEmpty

/-- What follows the marked arguments; without any, the padding goes on into the environment. -/
def following (block : KernelBlock) : Bytes :=
  if block.marked = [] then block.environment.dropWhile (· == 0) else block.environment

end KernelBlock

/-- The bytes start with as many NUL-terminated UTF-8 strings. -/
def Supplies (count : Nat) (bytes : Bytes) : Prop :=
  ∃ pieces : List Bytes, pieces.length = count ∧ (∀ piece ∈ pieces, 0 ∉ piece ∧ (fromUtf8 piece).isSome) ∧
    pieces.flatMap (· ++ [0]) <+: bytes

namespace MacOsProcessArgumentsProvider

section TakeString

private theorem findIdx?_nul {piece : Bytes} (h : 0 ∉ piece) (rest : Bytes) :
    (piece ++ 0 :: rest).findIdx? (· == 0) = some piece.length := by
  have hnone : piece.findIdx? (· == 0) = none := by
    rw [List.findIdx?_eq_none_iff]
    intro byte hbyte
    have hne : byte ≠ 0 := fun hzero => h (hzero ▸ hbyte)
    simpa using hne
  rw [List.findIdx?_append, hnone]
  simp [List.findIdx?_cons]

/-- A terminated string is taken whole. -/
theorem takeString_piece {piece : Bytes} {value : Str} (h : 0 ∉ piece) (hvalue : fromUtf8 piece = some value)
    (rest : Bytes) : takeString (piece ++ 0 :: rest) = .ok (value, rest) := by
  simp only [takeString, findIdx?_nul h, List.take_left, hvalue, ← List.drop_drop, List.drop_left]
  rfl

/-- What is taken was a terminated string. -/
theorem takeString_ok {bytes rest : Bytes} {value : Str} (h : takeString bytes = .ok (value, rest)) :
    ∃ piece, bytes = piece ++ 0 :: rest ∧ 0 ∉ piece ∧ fromUtf8 piece = some value := by
  unfold takeString at h
  split at h
  · cases h
  · next stop hstop =>
    split at h
    · cases h
    · next value' hvalue =>
      cases h
      obtain ⟨hlt, hzero, hbefore⟩ := List.findIdx?_eq_some_iff_getElem.mp hstop
      refine ⟨bytes.take stop, ?_, ?_, hvalue⟩
      · have hget : bytes[stop] = 0 := by simpa using hzero
        rw [← hget, List.getElem_cons_drop, List.take_append_drop]
      · intro hmem
        obtain ⟨i, hi, hget⟩ := List.mem_take_iff_getElem.mp hmem
        exact hbefore i (by omega) (by simpa using hget)

theorem toUtf8_nulFree {s : Str} (h : '\x00' ∉ s) : 0 ∉ toUtf8 s := fun hmem => h (ascii_mem_toUtf8 (by decide) hmem)

theorem takeString_terminated {s : Str} (h : '\x00' ∉ s) (rest : Bytes) :
    takeString (terminated s ++ rest) = .ok (s, rest) := by
  rw [terminated, List.append_assoc, List.singleton_append]
  exact takeString_piece (toUtf8_nulFree h) (fromUtf8_toUtf8 s) rest

end TakeString

section TakeStrings

/-- The loop takes as many strings as there are in front. -/
theorem takeStrings_append {strings : List Str} (h : ∀ s ∈ strings, '\x00' ∉ s) (count : Nat) (rest : Bytes) :
    takeStrings (strings.length + count) (strings.flatMap terminated ++ rest) =
      (takeStrings count rest).map (strings ++ ·) := by
  induction strings with
  | nil =>
    simp only [List.length_nil, Nat.zero_add, List.flatMap_nil, List.nil_append]
    cases takeStrings count rest <;> rfl
  | cons s strings ih =>
    have hcount : (s :: strings).length + count = (strings.length + count) + 1 := by
      rw [List.length_cons]
      omega
    rw [hcount, List.flatMap_cons, List.append_assoc, takeStrings, takeString_terminated (h s (List.mem_cons_self ..))]
    simp only [ih (fun s hs => h s (List.mem_cons_of_mem _ hs))]
    cases takeStrings count rest <;> rfl

/-- The loop ends well where there are enough strings. -/
theorem takeStrings_ok_iff {count : Nat} {bytes : Bytes} :
    (∃ values, takeStrings count bytes = .ok values) ↔ Supplies count bytes := by
  induction count generalizing bytes with
  | zero => exact ⟨fun _ => ⟨[], rfl, by simp, List.nil_prefix ..⟩, fun _ => ⟨[], rfl⟩⟩
  | succ count ih =>
    constructor
    · rintro ⟨values, h⟩
      unfold takeStrings at h
      split at h
      · cases h
      · next value rest htake =>
        obtain ⟨piece, rfl, hnul, hvalue⟩ := takeString_ok htake
        cases hrest : takeStrings count rest with
        | error error =>
          rw [hrest] at h
          cases h
        | ok values' =>
          obtain ⟨pieces, hlength, hpieces, hprefix⟩ := ih.mp ⟨values', hrest⟩
          refine ⟨piece :: pieces, congrArg (· + 1) hlength, ?_, ?_⟩
          · intro piece' hmem
            rcases List.mem_cons.mp hmem with rfl | hmem
            · exact ⟨hnul, by simp [hvalue]⟩
            · exact hpieces _ hmem
          · rw [List.flatMap_cons, List.append_assoc, List.singleton_append, List.prefix_append_right_inj,
              List.cons_prefix_cons]
            exact ⟨rfl, hprefix⟩
    · rintro ⟨pieces, hlength, hpieces, rest, rfl⟩
      obtain ⟨piece, pieces, rfl⟩ := List.exists_cons_of_length_eq_add_one hlength
      obtain ⟨hnul, hsome⟩ := hpieces piece (List.mem_cons_self ..)
      obtain ⟨value, hvalue⟩ := Option.isSome_iff_exists.mp hsome
      obtain ⟨values, hvalues⟩ := ih.mpr ⟨pieces, Nat.succ.inj hlength,
        fun p hp => hpieces p (List.mem_cons_of_mem _ hp), List.prefix_append _ rest⟩
      refine ⟨value :: values, ?_⟩
      rw [takeStrings, List.flatMap_cons, List.append_assoc, List.append_assoc, List.singleton_append,
        takeString_piece hnul hvalue]
      simp only [hvalues]
      rfl

end TakeStrings
end MacOsProcessArgumentsProvider

namespace KernelBlock
open MacOsProcessArgumentsProvider
variable (block : KernelBlock)

/-- Where parsing looks for argv: behind every NUL that follows the executable. -/
def unpadded : Bytes := (block.argv.flatMap terminated ++ block.environment).dropWhile (· == 0)

private theorem i32FromNeBytes_leBytes {n : Nat} (h : n ≤ 4096) : i32FromNeBytes (leBytes 4 n) = n := by
  have htoNat : (BitVec.ofNat 32 n).toNat = n := by
    rw [BitVec.toNat_ofNat]
    omega
  rw [i32FromNeBytes, ofLeBytes_leBytes (by omega), BitVec.toInt_eq_toNat_of_lt (by omega), htoNat]

/-- A parse, with its header and its executable behind it. -/
theorem parse_bytes : parse block.bytes =
    if block.unpadded = [] then invalidData "missing argv"
    else (takeStrings block.argv.length block.unpadded).map (⟨block.executable, ·⟩) := by
  have hcount : argumentCount (i32FromNeBytes (leBytes 4 block.argv.length)) = some block.argv.length := by
    have hle := block.argv_length_le
    have hpos := List.length_pos_of_ne_nil block.argv_ne_nil
    rw [i32FromNeBytes_leBytes hle, argumentCount, if_pos (by omega), Int.toNat_natCast]
  have hpadding (rest : Bytes) :
      (List.replicate block.padding 0 ++ rest).dropWhile (· == 0) = rest.dropWhile (· == 0) := by
    rw [List.dropWhile_append_of_pos]
    intro byte hbyte
    simp [List.eq_of_mem_replicate hbyte]
  unfold parse bytes
  simp only [splitAtChecked_of_length (length_leBytes 4 _), hcount, takeString_terminated block.executable_nulFree]
  rw [unpadded, ← hpadding]
  generalize List.replicate block.padding 0 ++ (block.argv.flatMap terminated ++ block.environment) = remaining
  have hskip : remaining.dropWhile (· == 0) = remaining.drop (remaining.findIdx (· != 0)) := by
    rw [List.dropWhile_eq_drop_findIdx_not]
    rfl
  cases hfind : remaining.findIdx? (· != 0) with
  | none =>
    rw [List.findIdx?_eq_none_iff_findIdx_eq] at hfind
    rw [hskip, hfind, List.drop_length, if_pos rfl]
  | some start =>
    obtain ⟨hlt, hstart⟩ := List.findIdx?_eq_some_iff_findIdx_eq.mp hfind
    have hne : remaining.drop start ≠ [] := by
      rw [Ne, List.drop_eq_nil_iff]
      omega
    rw [hskip, hstart, if_neg hne]

/-- The empty arguments in front stand before the marked ones. -/
theorem argv_eq : block.argv = List.replicate block.leading [] ++ block.marked := by
  have hfront : block.argv.takeWhile List.isEmpty = List.replicate block.leading [] := by
    apply List.eq_replicate_of_mem
    intro argument hargument
    exact List.isEmpty_iff.mp (List.mem_takeWhile_imp hargument)
  rw [← hfront]
  exact List.takeWhile_append_dropWhile.symm

theorem length_argv : block.argv.length = block.marked.length + block.leading := by
  conv_lhs => rw [argv_eq, List.length_append, List.length_replicate, Nat.add_comm]

theorem marked_head {argument : Str} {rest : List Str} (h : block.marked = argument :: rest) : argument ≠ [] := by
  have hhead := List.head?_dropWhile_not List.isEmpty block.argv
  rw [show block.argv.dropWhile List.isEmpty = argument :: rest from h] at hhead
  simpa using hhead

private theorem terminated_head {s : Str} (hne : s ≠ []) (hnul : '\x00' ∉ s) (rest : Bytes) :
    (terminated s ++ rest).dropWhile (· == 0) = terminated s ++ rest := by
  have hfree := toUtf8_nulFree hnul
  cases hbytes : toUtf8 s with
  | nil =>
    have hsome := fromUtf8_toUtf8 s
    rw [hbytes] at hsome
    exact absurd (Option.some.inj hsome).symm hne
  | cons byte bytes =>
    have hbyte : byte ≠ 0 := by
      rintro rfl
      exact hfree (hbytes ▸ List.mem_cons_self ..)
    simp only [terminated, hbytes, List.cons_append]
    rw [List.dropWhile_cons_of_neg]
    simpa using hbyte

/-- The empty arguments in front are taken for padding. -/
theorem unpadded_eq : block.unpadded = block.marked.flatMap terminated ++ block.following := by
  have hpadding : (List.replicate (block.leading) ([] : Str)).flatMap terminated =
      List.replicate (block.leading) 0 := by
    generalize block.leading = count
    induction count with
    | zero => rfl
    | succ count ih =>
      rw [List.replicate_succ, List.flatMap_cons, ih]
      rfl
  have hskip (rest : Bytes) : (List.replicate (block.leading) 0 ++ rest).dropWhile (· == 0) =
      rest.dropWhile (· == 0) := by
    rw [List.dropWhile_append_of_pos]
    intro byte hbyte
    simp [List.eq_of_mem_replicate hbyte]
  rw [unpadded]
  conv_lhs => rw [argv_eq, List.flatMap_append, hpadding, List.append_assoc, hskip]
  cases hmarked : block.marked with
  | nil => simp [following, hmarked]
  | cons argument rest =>
    have hne := block.marked_head hmarked
    have hmem : argument ∈ block.argv :=
      (List.dropWhile_sublist _).subset (show argument ∈ block.marked from hmarked ▸ List.mem_cons_self ..)
    rw [List.flatMap_cons, List.append_assoc, terminated_head hne (block.argv_nulFree argument hmem), following,
      if_neg (by simp [hmarked]), List.append_assoc]

/-- The strings that parsing takes: the marked arguments, then what follows them. -/
theorem takeStrings_unpadded : takeStrings block.argv.length block.unpadded =
    (takeStrings block.leading block.following).map (block.marked ++ ·) := by
  rw [length_argv, unpadded_eq]
  apply takeStrings_append
  intro argument hargument
  exact block.argv_nulFree argument ((List.dropWhile_sublist _).subset hargument)

theorem leading_pos (h : block.argv.head? = some []) : 0 < block.leading := by
  rw [leading]
  cases hargv : block.argv with
  | nil => rw [hargv] at h; cases h
  | cons argument rest =>
    rw [hargv, List.head?_cons, Option.some.injEq] at h
    rw [h, List.takeWhile_cons_of_pos rfl]
    exact Nat.succ_pos _

/-- What follows starts with no empty string where argv has nothing to mark it. -/
theorem following_head (hmarked : block.marked = []) {value : Str} {rest : Bytes}
    (h : takeString block.following = .ok (value, rest)) : value ≠ [] := by
  rintro rfl
  obtain ⟨piece, hbytes, -, hvalue⟩ := takeString_ok h
  rw [following, if_pos hmarked] at hbytes
  have hhead := List.head?_dropWhile_not (· == (0 : UInt8)) block.environment
  rw [hbytes] at hhead
  cases piece with
  | nil => simp at hhead
  | cons byte piece =>
    rw [fromUtf8.eq_def] at hvalue
    repeat' split at hvalue
    all_goals simp_all

/-- With an empty first argument, parsing returns argv shifted into the environment. -/
theorem parse_shifted (h : block.argv.head? = some []) {values : List Str}
    (hvalues : takeStrings block.leading block.following = .ok values) :
    parse block.bytes = .ok ⟨block.executable, block.marked ++ values⟩ ∧ block.marked ++ values ≠ block.argv := by
  have hpos := block.leading_pos h
  have htake := block.takeStrings_unpadded
  rw [hvalues] at htake
  obtain ⟨count, hcount⟩ := Nat.exists_eq_add_of_lt hpos
  rw [Nat.zero_add] at hcount
  constructor
  · rw [parse_bytes, htake, if_neg]
    · rfl
    · intro hempty
      rw [unpadded_eq, List.append_eq_nil_iff] at hempty
      rw [hcount, hempty.2] at hvalues
      cases hvalues
  · intro heq
    have hhead := congrArg List.head? heq
    rw [h] at hhead
    cases hmarked : block.marked with
    | cons argument rest =>
      rw [hmarked, List.cons_append, List.head?_cons, Option.some.injEq] at hhead
      exact block.marked_head hmarked hhead
    | nil =>
      rw [hcount, takeStrings] at hvalues
      split at hvalues
      · cases hvalues
      · next value rest hvalue =>
        have hne := block.following_head hmarked hvalue
        cases hrest : takeStrings count rest with
        | error error =>
          rw [hrest] at hvalues
          cases hvalues
        | ok values' =>
          rw [hrest] at hvalues
          cases hvalues
          rw [hmarked, List.nil_append, List.head?_cons, Option.some.injEq] at hhead
          exact hne hhead

/-- Parsing is faithful exactly where the first argument is not empty, or where the environment does not supply a
string for every empty argument in front. -/
theorem faithful_iff : block.Faithful ↔
    block.argv.head? ≠ some [] ∨ ¬ Supplies block.leading block.following := by
  constructor
  · intro hfaithful
    rw [← imp_iff_not_or]
    intro hhead hsupplies
    obtain ⟨values, hvalues⟩ := takeStrings_ok_iff.mpr hsupplies
    obtain ⟨hparse, hne⟩ := block.parse_shifted hhead hvalues
    rcases hfaithful with hexact | ⟨error, herror⟩
    · rw [hparse, Except.ok.injEq, ProcessArguments.mk.injEq] at hexact
      exact hne hexact.2
    · rw [hparse] at herror
      cases herror
  · rintro (hhead | hsupplies)
    · have hleading : block.leading = 0 := by
        rw [leading]
        cases hargv : block.argv with
        | nil => rfl
        | cons argument rest =>
          rw [hargv, List.head?_cons, Ne, Option.some.injEq] at hhead
          rw [List.takeWhile_cons_of_neg (by simpa using hhead)]
          rfl
      have hmarked : block.marked = block.argv := by
        have heq := block.argv_eq
        rw [hleading] at heq
        exact heq.symm
      have htake := block.takeStrings_unpadded
      rw [hleading] at htake
      left
      rw [parse_bytes, htake, hmarked, if_neg]
      · simp [takeStrings, Except.map]
      · intro hempty
        obtain ⟨argument, rest, hargv⟩ := List.exists_cons_of_ne_nil block.argv_ne_nil
        rw [unpadded_eq, hmarked, hargv, List.append_eq_nil_iff, List.flatMap_cons, List.append_eq_nil_iff,
          terminated, List.append_eq_nil_iff] at hempty
        exact List.cons_ne_nil _ _ hempty.1.1.2
    · right
      rw [parse_bytes]
      split
      · exact ⟨_, rfl⟩
      · rw [takeStrings_unpadded]
        cases hresult : takeStrings block.leading block.following with
        | ok values => exact absurd (takeStrings_ok_iff.mp ⟨values, hresult⟩) hsupplies
        | error error => exact ⟨error, rfl⟩

/-- A program started with an empty first argument, and a secret in its environment. -/
def emptyFirst : KernelBlock where
  executable := "/bin/sh".toList
  padding := 1
  argv := [[], "x".toList]
  environment := terminated "SECRET=value".toList
  executable_nulFree := by decide
  argv_nulFree := by decide
  argv_ne_nil := by decide
  argv_length_le := by decide

/-- Its environment is returned as an argument. -/
theorem emptyFirst_unfaithful :
    parse emptyFirst.bytes = .ok ⟨"/bin/sh".toList, ["x".toList, "SECRET=value".toList]⟩ ∧ ¬ emptyFirst.Faithful := by
  have hvalues : takeStrings emptyFirst.leading emptyFirst.following = .ok ["SECRET=value".toList] := by
    change takeStrings 1 (terminated "SECRET=value".toList) = _
    rw [takeStrings, ← List.append_nil (terminated _), takeString_terminated (by decide)]
    rfl
  obtain ⟨hparse, hne⟩ := emptyFirst.parse_shifted rfl hvalues
  refine ⟨hparse, ?_⟩
  rintro (hexact | ⟨error, herror⟩)
  · rw [hparse, Except.ok.injEq, ProcessArguments.mk.injEq] at hexact
    exact hne hexact.2
  · rw [hparse] at herror
    cases herror

end KernelBlock
end Abyss.Broker.ProcessContext
