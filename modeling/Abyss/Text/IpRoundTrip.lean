import Abyss.Text.IpAddr

/-! A rendered IP address is parsed back to the address. -/
namespace Abyss.Text

section Ipv4

private theorem parseOctet_display (octet : UInt8) : parseOctet (Nat.toDigits 10 octet.toNat) = some octet := by
  have hall : ∀ n : Fin 256, parseOctet (Nat.toDigits 10 n.val) = some (UInt8.ofNat n.val) := by decide +kernel
  rw [hall ⟨octet.toNat, octet.toNat_lt⟩, UInt8.ofNat_toNat]

private theorem not_mem_octet {c : Char} (hc : c.isDigit = false) (octet : UInt8) :
    c ∉ Nat.toDigits 10 octet.toNat := by
  intro hmem
  rw [Nat.isDigit_of_mem_toDigits (by decide) (by decide) hmem] at hc
  cases hc

theorem parseIpv4_display (address : Ipv4Addr) : parseIpv4 address.display = some address := by
  have hparts : address.display.splitOn '.' =
      [address.a, address.b, address.c, address.d].map (fun octet => Nat.toDigits 10 octet.toNat) := by
    refine List.splitOn_intercalate '.' ?_ (by simp)
    intro part hpart
    obtain ⟨octet, _, rfl⟩ := List.mem_map.mp hpart
    exact not_mem_octet (by decide) octet
  simp only [parseIpv4, hparts, List.map_cons, List.map_nil, parseOctet_display]

/-- A text with a character outside dotted decimals is no IPv4 address. -/
theorem parseIpv4_none {s : Str} {c : Char} (hmem : c ∈ s) (hdot : c ≠ '.') (hdigit : c.isDigit = false) :
    parseIpv4 s = none := by
  have hjoin : ['.'].intercalate (s.splitOn '.') = s := List.intercalate_splitOn '.'
  rw [← hjoin] at hmem
  rcases mem_intercalate hmem with hsep | ⟨part, hpart, hc⟩
  · exact absurd (List.mem_singleton.mp hsep) hdot
  · have hnone : parseOctet part = none := by
      refine if_neg ?_
      rintro ⟨_, hall, _⟩
      rw [List.all_eq_true.mp hall c hc] at hdigit
      cases hdigit
    unfold parseIpv4
    split
    · next a b c d hfour =>
      have hbad : (none : Option UInt8) ∈ (s.splitOn '.').map parseOctet := hnone ▸ List.mem_map_of_mem hpart
      simp [hfour] at hbad
    · rfl

end Ipv4

section Segments

private theorem hexValue_hexDigit {n : Nat} (h : n < 16) : hexValue (hexDigit n) = some n := by
  have hall : ∀ n : Fin 16, hexValue (hexDigit n.val) = some n.val := by decide
  exact hall ⟨n, h⟩

private theorem mapM_hexValue {digits : List Nat} (h : ∀ d ∈ digits, d < 16) :
    (digits.map hexDigit).mapM hexValue = some digits := by
  induction digits with
  | nil => rfl
  | cons d rest ih =>
    rw [List.map_cons, List.mapM_cons, hexValue_hexDigit (h d List.mem_cons_self),
      ih (fun x hx => h x (List.mem_cons_of_mem _ hx))]
    rfl

/-- The digits of a segment without leading zeros. -/
private def segmentDigits (n : Nat) : List Nat :=
  [n / 4096 % 16, n / 256 % 16, n / 16 % 16].dropWhile (· == 0) ++ [n % 16]

private theorem segmentDigits_spec {n : Nat} (h : n < 65536) :
    segmentDigits n ≠ [] ∧ (segmentDigits n).length ≤ 4 ∧ (∀ d ∈ segmentDigits n, d < 16) ∧
      (segmentDigits n).foldl (fun m d => 16 * m + d) 0 = n := by
  unfold segmentDigits
  by_cases ha : n / 4096 % 16 = 0
  · by_cases hb : n / 256 % 16 = 0
    · by_cases hc : n / 16 % 16 = 0
      · simp [ha, hb, hc]
        omega
      · simp [ha, hb, hc]
        omega
    · simp [ha, hb]
      omega
  · simp [ha]
    omega

theorem parseSegment_display (segment : UInt16) : parseSegment (displaySegment segment) = some segment := by
  obtain ⟨hne, hlen, hdigits, hvalue⟩ := segmentDigits_spec segment.toNat_lt
  have htext : displaySegment segment = (segmentDigits segment.toNat).map hexDigit := rfl
  rw [parseSegment, htext, if_neg, mapM_hexValue hdigits, Option.map_some, hvalue, UInt16.ofNat_toNat]
  rw [List.map_eq_nil_iff, List.length_map]
  exact not_or.mpr ⟨hne, Nat.not_lt.mpr hlen⟩

private theorem displaySegment_ne_nil (segment : UInt16) : displaySegment segment ≠ [] := by
  simp [displaySegment]

private theorem hexDigit_ne {n : Nat} (h : n < 16) : hexDigit n ≠ ':' ∧ hexDigit n ≠ '.' := by
  have hall : ∀ n : Fin 16, hexDigit n.val ≠ ':' ∧ hexDigit n.val ≠ '.' := by decide
  exact hall ⟨n, h⟩

private theorem not_mem_segment (segment : UInt16) : ':' ∉ displaySegment segment := by
  intro hmem
  obtain ⟨d, hd, heq⟩ := List.mem_map.mp hmem
  exact (hexDigit_ne ((segmentDigits_spec segment.toNat_lt).2.2.1 d hd)).1 heq

private theorem mapM_parseSegment (segments : List UInt16) :
    (segments.map displaySegment).mapM parseSegment = some segments := by
  induction segments with
  | nil => rfl
  | cons segment rest ih =>
    rw [List.map_cons, List.mapM_cons, parseSegment_display, ih]
    rfl

private theorem splitOn_displaySegments {segments : List UInt16} (hne : segments ≠ []) :
    (displaySegments segments).splitOn ':' = segments.map displaySegment := by
  refine List.splitOn_intercalate ':' ?_ (by simpa using hne)
  intro part hpart
  obtain ⟨segment, _, rfl⟩ := List.mem_map.mp hpart
  exact not_mem_segment segment

private theorem displaySegments_cons (segment : UInt16) (rest : List UInt16) :
    displaySegments (segment :: rest) =
      displaySegment segment ++ if rest = [] then [] else ':' :: displaySegments rest := by
  cases rest <;> simp [displaySegments]

private theorem displaySegments_eq_nil {segments : List UInt16} : displaySegments segments = [] ↔ segments = [] := by
  cases segments with
  | nil => simp [displaySegments]
  | cons segment rest => simp [displaySegments_cons, displaySegment_ne_nil]

theorem parseSegments_display (allowIpv4 : Bool) (segments : List UInt16) :
    parseSegments allowIpv4 (displaySegments segments) = some segments := by
  rcases List.eq_nil_or_concat segments with rfl | ⟨front, last, hlast⟩
  · rfl
  · rw [List.concat_eq_append] at hlast
    subst hlast
    have hne : front ++ [last] ≠ [] := by simp
    rw [parseSegments, if_neg (fun h => hne (displaySegments_eq_nil.mp h))]
    simp only [splitOn_displaySegments hne, List.map_append, List.map_cons, List.map_nil, List.dropLast_concat,
      mapM_parseSegment, List.getLastD_concat, parseSegment_display]

end Segments

section Ipv6

private theorem splitDoubleColon_skip {text : Str} (h : ':' ∉ text) (rest : Str) :
    splitDoubleColon (text ++ rest) = (splitDoubleColon rest).map (fun parts => (text ++ parts.1, parts.2)) := by
  induction text with
  | nil => simp
  | cons c text ih =>
    have hc : c ≠ ':' := fun hc => h (hc ▸ List.mem_cons_self)
    rw [List.cons_append, splitDoubleColon, ih (fun hmem => h (List.mem_cons_of_mem _ hmem)), Option.map_map]
    · rfl
    · intro _ hcolon
      exact absurd hcolon hc

private theorem splitDoubleColon_colon {text : Str} (hne : text ≠ []) (h : text.head? ≠ some ':') :
    splitDoubleColon (':' :: text) = (splitDoubleColon text).map (fun parts => (':' :: parts.1, parts.2)) := by
  obtain ⟨c, rest, rfl⟩ := List.exists_cons_of_ne_nil hne
  rw [splitDoubleColon]
  intro more _ htext
  exact h (by rw [List.cons.inj htext |>.1, List.head?_cons])

private theorem displaySegments_head {segments : List UInt16} (rest : Str) (hne : segments ≠ []) :
    (displaySegments segments ++ rest).head? ≠ some ':' := by
  obtain ⟨segment, more, rfl⟩ := List.exists_cons_of_ne_nil hne
  obtain ⟨c, text, htext⟩ := List.exists_cons_of_ne_nil (displaySegment_ne_nil segment)
  rw [displaySegments_cons, htext]
  intro hc
  have hc' : c = ':' := by simpa using hc
  exact not_mem_segment segment (by rw [htext, hc']; exact List.mem_cons_self)

/-- Rendered segments hide no double colon, not even together with what follows them. -/
private theorem splitDoubleColon_segments (segments : List UInt16) (rest : Str) :
    splitDoubleColon (displaySegments segments ++ rest) =
      (splitDoubleColon rest).map (fun parts => (displaySegments segments ++ parts.1, parts.2)) := by
  induction segments with
  | nil => simp [displaySegments]
  | cons segment more ih =>
    rw [displaySegments_cons, List.append_assoc, splitDoubleColon_skip (not_mem_segment segment)]
    by_cases hmore : more = []
    · simp [hmore]
    · rw [if_neg hmore, List.cons_append, splitDoubleColon_colon ?_ (displaySegments_head rest hmore), ih,
        Option.map_map, Option.map_map]
      · congr 1
        funext parts
        simp
      · intro hnil
        exact hmore (displaySegments_eq_nil.mp (List.append_eq_nil_iff.mp hnil).1)

private theorem foldl_pick {α : Type} (better : α → α → Bool) (init : α) (l : List α) :
    l.foldl (fun best run => if better best run then run else best) init ∈ init :: l := by
  induction l generalizing init with
  | nil => exact List.mem_cons_self
  | cons a rest ih =>
    rw [List.foldl_cons]
    by_cases h : better init a = true
    · rw [if_pos h]
      exact List.mem_cons_of_mem _ (ih a)
    · rw [if_neg h]
      rcases List.mem_cons.mp (ih init) with heq | hmem
      · rw [heq]
        exact List.mem_cons_self
      · exact List.mem_cons_of_mem _ (List.mem_cons_of_mem _ hmem)

/-- The run that is abbreviated consists of zero segments. -/
private theorem longestZeroes_spec (segments : List UInt16) :
    segments = segments.take (longestZeroes segments).1 ++ List.replicate (longestZeroes segments).2 0 ++
      segments.drop ((longestZeroes segments).1 + (longestZeroes segments).2) := by
  have hmem := foldl_pick (fun best run => decide (best.2 < run.2)) ((0, 0) : Nat × Nat)
    ((List.range segments.length).map (fun i => (i, ((segments.drop i).takeWhile (· == 0)).length)))
  simp only [decide_eq_true_eq] at hmem
  change longestZeroes segments ∈ _ at hmem
  generalize longestZeroes segments = run at hmem
  rcases List.mem_cons.mp hmem with rfl | hmem
  · simp
  · obtain ⟨i, _, rfl⟩ := List.mem_map.mp hmem
    have hzero : (segments.drop i).takeWhile (· == 0) =
        List.replicate ((segments.drop i).takeWhile (· == 0)).length 0 := by
      refine List.eq_replicate_iff.mpr ⟨rfl, ?_⟩
      intro segment hsegment
      have hbeq : (segment == 0) = true := @List.mem_takeWhile_imp _ (· == 0) _ _ hsegment
      exact beq_iff_eq.mp hbeq
    have hsplit : segments.drop i = (segments.drop i).takeWhile (· == 0) ++
        (segments.drop i).drop ((segments.drop i).takeWhile (· == 0)).length :=
      (List.prefix_iff_eq_append.mp (List.takeWhile_prefix _)).symm
    simp only
    rw [← hzero, List.append_assoc, ← List.drop_drop, ← hsplit, List.take_append_drop]

private theorem parseSegment_none {s : Str} (h : '.' ∈ s) : parseSegment s = none := by
  have hmapM : s.mapM hexValue = none := by
    induction s with
    | nil => cases h
    | cons c rest ih =>
      rw [List.mapM_cons]
      rcases List.mem_cons.mp h with rfl | h
      · rfl
      · rw [ih h]
        cases hexValue c <;> rfl
  rw [parseSegment, hmapM, Option.map_none, ite_self]

private theorem dot_mem_display (address : Ipv4Addr) : '.' ∈ address.display := by
  simp [Ipv4Addr.display]

private theorem colon_not_mem_display (address : Ipv4Addr) : ':' ∉ address.display := by
  intro hmem
  rcases mem_intercalate hmem with hsep | ⟨part, hpart, hc⟩
  · cases List.mem_singleton.mp hsep
  · obtain ⟨octet, _, rfl⟩ := List.mem_map.mp hpart
    exact not_mem_octet (by decide) octet hc

private theorem segment_of_octets (segment : UInt16) :
    (segment >>> 8).toUInt8.toUInt16 * 256 + segment.toUInt8.toUInt16 = segment := by
  have hlt := segment.toNat_lt
  apply UInt16.toNat_inj.mp
  simp only [UInt16.toNat_add, UInt16.toNat_mul, UInt8.toNat_toUInt16, UInt16.toNat_toUInt8, UInt16.toNat_shiftRight,
    UInt16.toNat_ofNat, Nat.shiftRight_eq_div_pow, Nat.reduceMod, Nat.reducePow] at *
  omega

/-- The mixed notation of a mapped address stands for its last two segments. -/
private theorem parseIpv6_mapped {address : Ipv6Addr} {mapped : Ipv4Addr}
    (h : address.toIpv4Mapped = some mapped) : parseIpv6 address.display = some address := by
  have hparts : ("ffff:".toList ++ mapped.display).splitOn ':' = ["ffff".toList, mapped.display] := by
    have hfirst := @List.splitOn_append_cons_self_of_not_mem Char "ffff".toList _ _ ':' (by decide) mapped.display
    rw [List.splitOn_eq_singleton (colon_not_mem_display mapped)] at hfirst
    exact hfirst
  have hsegments : parseSegments true ("ffff:".toList ++ mapped.display) =
      some [0xffff, mapped.a.toUInt16 * 256 + mapped.b.toUInt16, mapped.c.toUInt16 * 256 + mapped.d.toUInt16] := by
    rw [parseSegments, if_neg (by simp)]
    simp only [hparts, List.dropLast, List.getLastD, List.getLast, parseSegment_none (dot_mem_display mapped),
      parseIpv4_display, if_true]
    rfl
  have htext : address.display = ':' :: ':' :: ("ffff:".toList ++ mapped.display) := by
    rw [Ipv6Addr.display, h]
    rfl
  obtain ⟨segments, eight⟩ := address
  unfold Ipv6Addr.toIpv4Mapped at h
  split at h
  · next high low hsegs =>
    obtain rfl := Option.some.inj h
    obtain rfl : segments = [0, 0, 0, 0, 0, 0xffff, high, low] := hsegs
    rw [htext, parseIpv6, splitDoubleColon]
    simp only [show parseSegments false [] = some [] from rfl, hsegments, segment_of_octets]
    rfl
  · cases h

theorem parseIpv6_display (address : Ipv6Addr) : parseIpv6 address.display = some address := by
  cases hmapped : address.toIpv4Mapped with
  | some mapped => exact parseIpv6_mapped hmapped
  | none =>
    obtain ⟨segments, eight⟩ := address
    have hwhole : ipv6OfSegments segments = some ⟨segments, eight⟩ := dif_pos eight
    simp only [Ipv6Addr.display, hmapped]
    split
    · next hrun =>
      have hsplit := longestZeroes_spec segments
      have hlength := congrArg List.length hsplit
      simp only [List.length_append, List.length_replicate, eight] at hlength
      rw [parseIpv6, splitDoubleColon_segments, splitDoubleColon]
      simp only [Option.map_some, List.append_nil, parseSegments_display]
      rw [if_pos (by omega)]
      have hzeroes : 8 - (segments.take (longestZeroes segments).1).length -
          (segments.drop ((longestZeroes segments).1 + (longestZeroes segments).2)).length =
          (longestZeroes segments).2 := by omega
      rw [hzeroes, ← hsplit, hwhole]
    · have hnone := splitDoubleColon_segments segments []
      rw [List.append_nil, splitDoubleColon, Option.map_none] at hnone
      rw [parseIpv6, hnone]
      simp only [parseSegments_display, Option.bind_some, hwhole]

private theorem colon_mem_display (address : Ipv6Addr) : ':' ∈ address.display := by
  unfold Ipv6Addr.display
  split
  · exact List.mem_cons_self
  · simp only
    split
    · simp
    · obtain ⟨segments, eight⟩ := address
      match segments, eight with
      | first :: second :: rest, _ => simp [displaySegments_cons]

end Ipv6

/-- `Display` and `FromStr` of an address agree. -/
theorem parseIpAddr_display (address : IpAddr) : parseIpAddr address.display = some address := by
  cases address with
  | v4 address => simp only [parseIpAddr, IpAddr.display, parseIpv4_display]
  | v6 address =>
    have hnone := parseIpv4_none (colon_mem_display address) (by decide) (by decide)
    simp only [parseIpAddr, IpAddr.display, hnone, parseIpv6_display, Option.map_some]

end Abyss.Text
