import Abyss.Mitm.Explicit.HostHeader

/-! The port of an authority. What is written behind the last colon is read as a port; where it cannot be read,
nothing tells it from a missing port, and the default takes its place. -/
namespace Abyss.Mitm.Explicit
open Abyss.Text Abyss.Mitm.Http

/-- Whether a text ends inside a bracket. -/
def bracketOpen (text : Str) : Bool :=
  text.foldl (fun isOpen c => if c = '[' then true else if c = ']' then false else isOpen) false

/-- `http::uri::Authority::port` and `port_u16`: both are the number behind the last colon, if it is one. -/
structure PortLaws (types : HttpTypes) : Prop where
  closed {raw : Str} {authority : Authority} : types.authorityTryFrom raw = some authority → bracketOpen raw = false
  portU16 {front suffix : Str} {authority : Authority} : types.authorityTryFrom (front ++ ':' :: suffix) = some authority →
    ':' ∉ suffix → authority.portU16 = (parseUnsigned 65536 suffix).map UInt16.ofNat
  hasPort {raw : Str} {authority : Authority} : types.authorityTryFrom raw = some authority →
    authority.hasPort = authority.portU16.isSome

/-- The text behind the last colon outside brackets. -/
def DeclaresPort (raw suffix : Str) : Prop :=
  ∃ front, raw = front ++ ':' :: suffix ∧ bracketOpen front = false ∧
    ∀ more rest, suffix = more ++ ':' :: rest → bracketOpen (front ++ ':' :: more) = true

/-- A decimal number in 1..=65535. -/
structure IsPort (suffix : Str) (port : UInt16) : Prop where
  digits : suffix ≠ [] ∧ suffix.all Char.isDigit = true
  range : 1 ≤ decimal suffix ∧ decimal suffix ≤ 65535
  value : port.toNat = decimal suffix

/-- An authority without userinfo whose host can be normalized. -/
def NamesHost (types : HttpTypes) (raw : Str) : Prop :=
  '@' ∉ raw ∧ ∃ authority host, types.authorityTryFrom raw = some authority ∧ normalizeTargetHost authority.host = .ok host

section Parsing
variable {types : HttpTypes} {raw : Str} {default : Option UInt16} {target : TargetAuthority}

/-- A parsed target, part by part. -/
theorem parseTargetAuthority_ok : parseTargetAuthority types raw default = .ok target ↔
    '@' ∉ raw ∧ ∃ authority, types.authorityTryFrom raw = some authority ∧
      targetPort raw authority default = .ok target.port ∧ normalizeTargetHost authority.host = .ok target.host := by
  have hat : raw.contains '@' = true ↔ '@' ∈ raw := List.contains_iff_mem
  unfold parseTargetAuthority
  split
  · next huser => simp [hat.mp huser]
  · next huser =>
    have huser' : '@' ∉ raw := fun hmem => huser (hat.mpr hmem)
    cases hauthority : types.authorityTryFrom raw with
    | none => simp
    | some authority =>
      cases hport : targetPort raw authority default with
      | error e => simp [hport]
      | ok port =>
        cases hhost : normalizeTargetHost authority.host with
        | error reason =>
          by_cases hzero : port = 0
          · simp [hport, hhost, hzero]
          · simp [hport, hhost, hzero]
        | ok host =>
          by_cases hzero : port = 0
          · subst hzero
            simp only [hport, hhost, dite_true, reduceCtorEq, Option.some.injEq, false_iff]
            rintro ⟨-, _, rfl, hport', -⟩
            rw [hport] at hport'
            exact target.nonzero (Except.ok.inj hport').symm
          · simp only [hport, hhost, hzero, dite_false, Except.ok.injEq, Option.some.injEq]
            constructor
            · rintro rfl
              exact ⟨huser', authority, rfl, hport, hhost⟩
            · rintro ⟨-, _, rfl, hport', hhost'⟩
              rw [hport] at hport'
              rw [hhost] at hhost'
              obtain ⟨_, _, _⟩ := target
              obtain rfl := Except.ok.inj hport'
              obtain rfl := Except.ok.inj hhost'
              rfl

theorem targetPort_ok {authority : Authority} {port : UInt16} (h : authority.hasPort = authority.portU16.isSome) :
    targetPort raw authority default = .ok port ↔ authority.portU16.or default = some port := by
  unfold targetPort
  cases hport : authority.portU16 with
  | some port => simp
  | none =>
    rw [hport] at h
    cases default with
    | none => simp [h]
    | some port => simp [h]

end Parsing

section Brackets

theorem bracketOpen_append {front : Str} (h : bracketOpen front = true) {back : Str} (hclose : ']' ∉ back) :
    bracketOpen (front ++ back) = true := by
  unfold bracketOpen at h ⊢
  rw [List.foldl_append, h]
  clear h
  induction back with
  | nil => rfl
  | cons c rest ih =>
    obtain ⟨hc, hrest⟩ := not_or.mp (mt List.mem_cons.mpr hclose)
    rw [List.foldl_cons, if_neg (Ne.symm hc), ite_self]
    exact ih hrest

theorem bracketOpen_close (front : Str) : bracketOpen (front ++ [']']) = false := by
  unfold bracketOpen
  rw [List.foldl_append]
  rfl

theorem bracketOpen_plain {front : Str} (h : bracketOpen front = false) {back : Str} (hopen : '[' ∉ back) :
    bracketOpen (front ++ back) = false := by
  unfold bracketOpen at h ⊢
  rw [List.foldl_append, h]
  clear h
  induction back with
  | nil => rfl
  | cons c rest ih =>
    obtain ⟨hc, hrest⟩ := not_or.mp (mt List.mem_cons.mpr hopen)
    rw [List.foldl_cons, if_neg (Ne.symm hc), ite_self]
    exact ih hrest

/-- A colon in front of a port is the declared one. -/
theorem declaresPort_plain {front suffix : Str} (h : bracketOpen front = false) (hcolon : ':' ∉ suffix) :
    DeclaresPort (front ++ ':' :: suffix) suffix := by
  refine ⟨front, rfl, h, ?_⟩
  rintro more rest rfl
  exact absurd (List.mem_append_right _ List.mem_cons_self) hcolon

theorem parseUnsigned_foreign {bound : Nat} {s : Str} {c : Char} (hmem : c ∈ s) (hdigit : c.isDigit = false)
    (hplus : c ≠ '+') : parseUnsigned bound s = none := by
  have hrest : c ∈ withoutPlus s := by
    unfold withoutPlus
    split
    · exact (List.mem_cons.mp hmem).resolve_left hplus
    · exact hmem
  refine if_neg ?_
  rintro ⟨-, hall, -⟩
  rw [List.all_eq_true.mp hall c hrest] at hdigit
  cases hdigit

private theorem last_occurrence {s : Str} {c : Char} (h : c ∈ s) : ∃ front back, s = front ++ c :: back ∧ c ∉ back := by
  obtain ⟨back, front, hsplit, hback⟩ := List.eq_append_cons_of_mem (List.mem_reverse.mpr h)
  refine ⟨front.reverse, back.reverse, ?_, fun hmem => hback (List.mem_reverse.mp hmem)⟩
  have hreverse := congrArg List.reverse hsplit
  simpa using hreverse

theorem parseUnsigned_lt {bound n : Nat} {s : Str} (h : parseUnsigned bound s = some n) : n < bound := by
  simp only [parseUnsigned] at h
  split at h
  · next hall =>
    cases h
    exact hall.2.2
  · cases h

/-- The port of an authority is the number it declares. -/
theorem PortLaws.declared {types : HttpTypes} (laws : PortLaws types) {raw suffix : Str} (h : DeclaresPort raw suffix)
    {authority : Authority} (hauthority : types.authorityTryFrom raw = some authority) :
    authority.portU16 = (parseUnsigned 65536 suffix).map UInt16.ofNat := by
  obtain ⟨front, rfl, -, hinner⟩ := h
  by_cases hcolon : ':' ∈ suffix
  · obtain ⟨more, rest, rfl, hrest⟩ := last_occurrence hcolon
    have hopen := hinner more rest rfl
    have hclosed := laws.closed hauthority
    rw [← List.cons_append, ← List.append_assoc] at hauthority hclosed
    have hclose : ']' ∈ rest := by
      by_contra hnot
      have hmem : ']' ∉ ':' :: rest := by simpa using hnot
      rw [bracketOpen_append hopen hmem] at hclosed
      cases hclosed
    rw [laws.portU16 hauthority hrest, parseUnsigned_foreign hclose (by decide) (by decide),
      parseUnsigned_foreign (s := more ++ ':' :: rest) hcolon (by decide) (by decide)]
  · exact laws.portU16 hauthority hcolon

end Brackets

section Declared
variable {types : HttpTypes} {raw suffix : Str} {default : Option UInt16}

/-- When a declared port is kept: no default replaces an unreadable number, and no sign is read over. -/
def PortReadable (suffix : Str) (default : Option UInt16) : Prop :=
  match parseUnsigned 65536 suffix with
  | none => default = none ∨ default = some 0
  | some port => port = 0 ∨ suffix.head? ≠ some '+'

/-- An authority is accepted with the port it declares exactly when its port can be read or nothing replaces it. -/
theorem declared_port_kept_iff (laws : PortLaws types) (hdeclared : DeclaresPort raw suffix) (hne : suffix ≠ []) :
    (∀ target, parseTargetAuthority types raw default = .ok target → IsPort suffix target.port) ↔
      (NamesHost types raw → PortReadable suffix default) := by
  unfold PortReadable
  constructor
  · rintro hkept ⟨hat, authority, host, hauthority, hhost⟩
    have hport := laws.declared hdeclared hauthority
    have haccepted : ∀ port, authority.portU16.or default = some port → port ≠ 0 → IsPort suffix port := by
      intro port hor hzero
      refine hkept ⟨host, port, hzero⟩ (parseTargetAuthority_ok.mpr ⟨hat, authority, hauthority, ?_, hhost⟩)
      exact (targetPort_ok (laws.hasPort hauthority)).mpr hor
    split
    · next hnone =>
      rw [hnone, Option.map_none] at hport
      rw [hport, Option.none_or] at haccepted
      by_contra hdefault
      obtain ⟨port, rfl⟩ := Option.ne_none_iff_exists'.mp (fun h => hdefault (.inl h))
      obtain ⟨⟨-, hdigits⟩, ⟨-, hrange⟩, -⟩ := haccepted port rfl (fun hzero => hdefault (.inr (congrArg some hzero)))
      have hplus : suffix.head? ≠ some '+' :=
        fun hhead => absurd (List.all_eq_true.mp hdigits '+' (List.mem_of_head? hhead)) (by decide)
      have hsome : parseUnsigned 65536 suffix = some (decimal suffix) := by
        simp only [parseUnsigned, withoutPlus_eq hplus]
        exact if_pos ⟨hne, hdigits, by omega⟩
      rw [hsome] at hnone
      cases hnone
    · next n hsome =>
      rw [hsome, Option.map_some] at hport
      by_cases hzero : n = 0
      · exact .inl hzero
      · refine .inr ?_
        intro hhead
        have hlt : n < 65536 := parseUnsigned_lt hsome
        have hne0 : UInt16.ofNat n ≠ 0 := by
          intro heq
          have hnat := congrArg UInt16.toNat heq
          rw [UInt16.toNat_ofNat_of_lt' hlt] at hnat
          exact hzero hnat
        obtain ⟨⟨-, hdigits⟩, -, -⟩ := haccepted (UInt16.ofNat n) (by rw [hport]; rfl) hne0
        exact absurd (List.all_eq_true.mp hdigits '+' (List.mem_of_head? hhead)) (by decide)
  · intro hreadable target htarget
    obtain ⟨hat, authority, hauthority, hport, hhost⟩ := parseTargetAuthority_ok.mp htarget
    have hreadable := hreadable ⟨hat, authority, target.host, hauthority, hhost⟩
    rw [targetPort_ok (laws.hasPort hauthority), laws.declared hdeclared hauthority] at hport
    split at hreadable
    · next hnone =>
      rw [hnone, Option.map_none, Option.none_or] at hport
      rcases hreadable with rfl | rfl
      · cases hport
      · exact absurd (Option.some.inj hport).symm target.nonzero
    · next n hsome =>
      rw [hsome, Option.map_some, Option.some_or] at hport
      have hvalue : UInt16.ofNat n = target.port := Option.some.inj hport
      have hplus : suffix.head? ≠ some '+' := by
        refine hreadable.resolve_left ?_
        rintro rfl
        exact target.nonzero hvalue.symm
      obtain ⟨_, hdigits, hdecimal, hlt⟩ := parseUnsigned_some hsome hplus
      have hnat : target.port.toNat = n := by rw [← hvalue, UInt16.toNat_ofNat_of_lt' hlt]
      have hpos : n ≠ 0 := by
        rintro rfl
        exact target.nonzero hvalue.symm
      exact ⟨⟨hne, hdigits⟩, by omega, by omega⟩

end Declared

section Sample

/-- A host, bracketed or up to the first colon, and what follows it. -/
def authorityParts (text : Str) : Str × Str :=
  match text with
  | '[' :: rest => ('[' :: rest.takeWhile (· ≠ ']') ++ [']'], (rest.dropWhile (· ≠ ']')).drop 1)
  | _ => (text.takeWhile (· ≠ ':'), text.dropWhile (· ≠ ':'))

/-- An authority that is one host and at most one port. -/
def plainAuthority (text : Str) : Option Authority :=
  if bracketOpen text then none else
  match (authorityParts text).2 with
  | [] => some ⟨(authorityParts text).1, false, none⟩
  | ':' :: digits =>
    let port := (parseUnsigned 65536 digits).map UInt16.ofNat
    if ':' ∈ digits then none else some ⟨(authorityParts text).1, port.isSome, port⟩
  | _ => none

private theorem authorityParts_host {host : Str} (h : IsHostText host) {rest : Str}
    (hrest : rest = [] ∨ ∃ digits, rest = ':' :: digits) : authorityParts (host ++ rest) = (host, rest) := by
  rcases h with ⟨hne, hchars⟩ | ⟨address, rfl⟩
  · have hcolon : ∀ c ∈ host, c ≠ ':' := by
      rintro c hc rfl
      rcases hchars ':' hc with hlabel | hdot
      · exact absurd hlabel (by decide)
      · exact absurd hdot (by decide)
    have hsplit : authorityParts (host ++ rest) =
        ((host ++ rest).takeWhile (· ≠ ':'), (host ++ rest).dropWhile (· ≠ ':')) := by
      cases host with
      | nil => exact absurd rfl hne
      | cons c tail =>
        unfold authorityParts
        split
        · next heq =>
          obtain ⟨rfl, _⟩ := List.cons.inj heq
          rcases hchars '[' List.mem_cons_self with hlabel | hdot
          · exact absurd hlabel (by decide)
          · exact absurd hdot (by decide)
        · rfl
    have hall : ∀ c ∈ host, (decide (c ≠ ':')) = true := fun c hc => decide_eq_true (hcolon c hc)
    rw [hsplit, List.takeWhile_append_of_pos hall, List.dropWhile_append_of_pos hall]
    rcases hrest with rfl | ⟨digits, rfl⟩
    · simp
    · simp
  · have hbracket : ∀ c ∈ address.display, (decide (c ≠ ']')) = true := by
      intro c hc
      refine decide_eq_true ?_
      rintro rfl
      exact absurd (address.display_chars ']' hc) (by decide)
    simp only [List.cons_append, authorityParts, List.append_assoc, List.takeWhile_append_of_pos hbracket,
      List.dropWhile_append_of_pos hbracket]
    simp


private theorem bracketOpen_host {host : Str} (h : IsHostText host) : bracketOpen host = false := by
  rcases h with ⟨_, hchars⟩ | ⟨address, rfl⟩
  · refine @bracketOpen_plain [] rfl host ?_
    intro hmem
    rcases hchars '[' hmem with hlabel | hdot
    · exact absurd hlabel (by decide)
    · exact absurd hdot (by decide)
  · exact bracketOpen_close _

private theorem digits_plain {c : Char} (hc : c.isDigit = false) (n : Nat) : c ∉ Nat.toDigits 10 n := by
  intro hmem
  rw [Nat.isDigit_of_mem_toDigits (by decide) (by decide) hmem] at hc
  cases hc

theorem plainAuthority_laws {types : HttpTypes} (h : types.authorityTryFrom = plainAuthority) : AuthorityLaws types where
  bare {host} hhost := by
    have hparts := authorityParts_host hhost (.inl rfl)
    rw [List.append_nil] at hparts
    simp only [h, plainAuthority, bracketOpen_host hhost, hparts, Bool.false_eq_true, if_false]
  withPort {host} port hhost := by
    have hparts := authorityParts_host hhost (.inr ⟨Nat.toDigits 10 port.toNat, rfl⟩)
    have hopen : bracketOpen (host ++ ':' :: Nat.toDigits 10 port.toNat) = false := by
      refine bracketOpen_plain (bracketOpen_host hhost) ?_
      exact not_or.mpr ⟨by decide, digits_plain (by decide) _⟩ ∘ List.mem_cons.mp
    simp only [h, plainAuthority, hopen, hparts, Bool.false_eq_true, if_false,
      parseUnsigned_toDigits port.toNat_lt, Option.map_some, UInt16.ofNat_toNat, digits_plain (c := ':') (by decide),
      Option.isSome_some]

/-- A text is its host and what follows it. -/
private theorem authorityParts_append {text : Str} (h : bracketOpen text = false) :
    text = (authorityParts text).1 ++ (authorityParts text).2 := by
  unfold authorityParts
  split
  · next rest =>
    have hsplit : rest = rest.takeWhile (· ≠ ']') ++ rest.dropWhile (· ≠ ']') := List.takeWhile_append_dropWhile.symm
    cases hdrop : rest.dropWhile (· ≠ ']') with
    | nil =>
      have hclose : ']' ∉ rest := by
        intro hmem
        have hall := List.dropWhile_eq_nil_iff.mp hdrop ']' hmem
        simp at hall
      have hopen := @bracketOpen_append ['['] rfl rest hclose
      rw [List.singleton_append, h] at hopen
      cases hopen
    | cons c tail =>
      have hc : c = ']' := by
        have hhead := List.head?_dropWhile_not (fun c : Char => decide (c ≠ ']')) rest
        rw [hdrop] at hhead
        simpa using hhead
      subst hc
      rw [hdrop] at hsplit
      simpa using hsplit
  · exact List.takeWhile_append_dropWhile.symm

private theorem authorityParts_fst (text : Str) :
    ':' ∉ (authorityParts text).1 ∨ ∃ front, (authorityParts text).1 = front ++ [']'] := by
  unfold authorityParts
  split
  · exact .inr ⟨_, rfl⟩
  · refine .inl ?_
    intro hmem
    simpa using List.mem_takeWhile_imp hmem

private theorem suffix_unique {front other x y : Str} (h : front ++ ':' :: x = other ++ ':' :: y) (hx : ':' ∉ x)
    (hy : ':' ∉ y) : x = y := by
  rcases List.append_eq_append_iff.mp h with ⟨middle, -, hmiddle⟩ | ⟨middle, -, hmiddle⟩
  · cases middle with
    | nil => exact (List.cons.inj hmiddle).2
    | cons c rest => exact absurd ((List.cons.inj hmiddle).2 ▸ List.mem_append_right _ List.mem_cons_self) hx
  · cases middle with
    | nil => exact (List.cons.inj hmiddle).2.symm
    | cons c rest => exact absurd ((List.cons.inj hmiddle).2 ▸ List.mem_append_right _ List.mem_cons_self) hy

theorem plainAuthority_portLaws {types : HttpTypes} (h : types.authorityTryFrom = plainAuthority) : PortLaws types where
  closed {raw authority} hauthority := by
    rw [h, plainAuthority] at hauthority
    split at hauthority
    · cases hauthority
    · next hopen => simpa using hopen
  portU16 {front suffix authority} hauthority hcolon := by
    rw [h, plainAuthority] at hauthority
    split at hauthority
    · cases hauthority
    next hopen =>
    have htext := authorityParts_append (Bool.not_eq_true _ ▸ hopen)
    split at hauthority
    · next hrest =>
      obtain rfl := Option.some.inj hauthority
      rw [hrest, List.append_nil] at htext
      have hclose : ']' ∈ suffix := by
        rcases authorityParts_fst (front ++ ':' :: suffix) with hnot | ⟨host, hhost⟩
        · exact absurd (htext ▸ List.mem_append_right _ List.mem_cons_self) hnot
        · have hlast := congrArg List.getLast? (htext.trans hhost)
          rw [List.getLast?_concat, List.getLast?_append_cons] at hlast
          cases suffix with
          | nil => exact absurd (Option.some.inj hlast) (by decide)
          | cons c rest => exact List.mem_of_getLast? (by simpa using hlast)
      rw [parseUnsigned_foreign hclose (by decide) (by decide)]
      rfl
    · next digits hrest =>
      split at hauthority
      · cases hauthority
      · next hdigits =>
        obtain rfl := Option.some.inj hauthority
        rw [hrest] at htext
        rw [suffix_unique htext hcolon hdigits]
    · cases hauthority
  hasPort {raw authority} hauthority := by
    rw [h, plainAuthority] at hauthority
    split at hauthority
    · cases hauthority
    · split at hauthority
      · obtain rfl := Option.some.inj hauthority
        rfl
      · split at hauthority
        · cases hauthority
        · obtain rfl := Option.some.inj hauthority
          rfl
      · cases hauthority

/-- The constructors of the `http` crate on plain authorities. -/
def plainTypes : HttpTypes := { canonicalTypes with authorityTryFrom := plainAuthority }

theorem declared_port_kept_8080 : ∃ target, parseTargetAuthority plainTypes "h:8080".toList (some 80) = .ok target ∧
    IsPort "8080".toList target.port := by
  have hkept := (@declared_port_kept_iff plainTypes _ _ (some 80) (plainAuthority_portLaws rfl)
    (@declaresPort_plain "h".toList "8080".toList (by decide) (by decide)) (by decide)).mpr (fun _ => .inr (by decide))
  exact ⟨⟨.dns "h".toList, 8080, by decide⟩, by decide, hkept _ (by decide)⟩

/-- A port out of range falls back to the default. -/
theorem port_out_of_range_is_replaced :
    ¬ ∀ (types : HttpTypes), PortLaws types → ∀ (raw suffix : Str), DeclaresPort raw suffix → suffix ≠ [] →
      ∀ (default : Option UInt16) (target : TargetAuthority), parseTargetAuthority types raw default = .ok target →
        IsPort suffix target.port := by
  intro h
  have hport := h plainTypes (plainAuthority_portLaws rfl) "h:99999".toList "99999".toList
    (@declaresPort_plain "h".toList "99999".toList (by decide) (by decide)) (by decide) (some 80)
    ⟨.dns "h".toList, 80, by decide⟩ (by decide)
  exact absurd hport.range.2 (by decide)

end Sample
end Abyss.Mitm.Explicit
