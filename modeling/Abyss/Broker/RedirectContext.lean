import Abyss.Data.LittleEndian
import Abyss.Text.IpAddr
import Abyss.Text.Utf16

/-! The redirect context of the Windows callout driver: a fixed header of 32 bytes, and the
application identifier behind it. -/
namespace Abyss.Broker.Callout
open Abyss.Text Abyss.Data

abbrev Bytes := List UInt8

structure OriginalDestination where
  ip : IpAddr
  port : UInt16
  deriving DecidableEq, Repr

/-- Why a context is refused. `Size` is a `u32`, which always fits `usize`. -/
inductive RedirectContextError where
  | headerTooShort (actual required : Nat)
  | declaredSizeMismatch (declared actual : Nat)
  | reservedFieldNotZero
  | unsupportedAddressFamily (family : UInt32)
  | applicationIdTooLarge (actual maximum : Nat)
  | applicationIdOddLength
  | applicationIdInvalidUtf16
  | applicationIdEmpty
  | applicationIdEmbeddedNul
  deriving DecidableEq, Repr

def RedirectContextError.display : RedirectContextError → String
  | headerTooShort actual required =>
    "redirect context has " ++ toString actual ++ " bytes; the current ABI requires at least " ++ toString required
  | declaredSizeMismatch declared actual =>
    "redirect context declares " ++ toString declared ++ " bytes but WinSock returned " ++ toString actual
  | reservedFieldNotZero => "redirect context reserved field is not zero"
  | unsupportedAddressFamily family => "redirect context uses unsupported Windows address family " ++ toString family
  | applicationIdTooLarge actual maximum =>
    "redirect context application ID is " ++ toString actual ++ " bytes; maximum is " ++ toString maximum
  | applicationIdOddLength => "redirect context application ID has an odd byte length"
  | applicationIdInvalidUtf16 => "redirect context application ID is not valid UTF-16LE"
  | applicationIdEmpty => "redirect context application ID is empty"
  | applicationIdEmbeddedNul => "redirect context application ID contains an embedded NUL"

/-- The address union of the header. -/
abbrev AddressUnion := { bytes : Bytes // bytes.length = 16 }

/-- `ABYSS_CALLOUT_REDIRECT_CONTEXT`. -/
structure NativeContext where
  size : UInt32
  addressFamily : UInt32
  originalPort : UInt16
  reserved : UInt16
  originalDestination : AddressUnion
  processId : UInt32

def headerSize : Nat := 32

def maxApplicationIdBytes : Nat := 4096

/-- `AF_INET` and `AF_INET6` of Windows. -/
def afInet : UInt32 := 2
def afInet6 : UInt32 := 23

def isSupportedAddressFamily (family : UInt32) : Bool := family == afInet || family == afInet6

/-- The bytes of one header field. -/
def fieldBytes (bytes : Bytes) (offset width : Nat) : Bytes := (bytes.drop offset).take width

theorem length_fieldBytes {bytes : Bytes} {offset width : Nat} (h : offset + width ≤ bytes.length) :
    (fieldBytes bytes offset width).length = width := by
  rw [fieldBytes, List.length_take, List.length_drop]
  omega

def u16At (bytes : Bytes) (offset : Nat) : UInt16 := UInt16.ofNat (ofLeBytes (fieldBytes bytes offset 2))
def u32At (bytes : Bytes) (offset : Nat) : UInt32 := UInt32.ofNat (ofLeBytes (fieldBytes bytes offset 4))

/-- `read_unaligned` of the header, at the offsets of its C layout. -/
def NativeContext.readUnaligned (bytes : Bytes) (h : headerSize ≤ bytes.length) : NativeContext where
  size := u32At bytes 0
  addressFamily := u32At bytes 4
  originalPort := u16At bytes 8
  reserved := u16At bytes 10
  originalDestination := ⟨fieldBytes bytes 12 16, length_fieldBytes (Nat.le_trans (by decide) h)⟩
  processId := u32At bytes 28

/-- `u32::from_be` on a little-endian target. -/
def u32FromBe (n : Nat) : Nat := ofLeBytes (leBytes 4 n).reverse

/-- `Ipv4Addr::from(u32)`: the high byte first. -/
def ipv4FromU32 (n : Nat) : Ipv4Addr :=
  ⟨UInt8.ofNat (n / 2 ^ 24), UInt8.ofNat (n / 2 ^ 16), UInt8.ofNat (n / 2 ^ 8), UInt8.ofNat n⟩

/-- Big-endian segments. -/
def segmentsOf : Bytes → List UInt16
  | high :: low :: rest => UInt16.ofNat (high.toNat * 256 + low.toNat) :: segmentsOf rest
  | _ => []

theorem length_segmentsOf (bytes : Bytes) : (segmentsOf bytes).length = bytes.length / 2 := by
  fun_induction segmentsOf bytes with
  | case1 high low rest ih =>
    rw [List.length_cons, ih, List.length_cons, List.length_cons]
    omega
  | case2 bytes hshort =>
    cases bytes with
    | nil => rfl
    | cons high rest =>
      cases rest with
      | nil => simp
      | cons low rest => exact absurd rfl (hshort high low rest)

/-- `Ipv6Addr::from([u8; 16])`. -/
def ipv6FromBytes (bytes : AddressUnion) : Ipv6Addr :=
  ⟨segmentsOf bytes.val, by rw [length_segmentsOf, bytes.property]⟩

/-- `as_chunks` into little-endian units. -/
def codeUnits : Bytes → List UInt16
  | low :: high :: rest => UInt16.ofNat (ofLeBytes [low, high]) :: codeUnits rest
  | _ => []

def decodeApplicationId (bytes : Bytes) : Except RedirectContextError (Option Str) :=
  if bytes = [] then .ok none
  else if bytes.length % 2 ≠ 0 then .error .applicationIdOddLength
  else
    let units := (codeUnits bytes).rdropWhile (· == 0)
    if units = [] then .error .applicationIdEmpty
    else if 0 ∈ units then .error .applicationIdEmbeddedNul
    else match fromUtf16 units with
    | none => .error .applicationIdInvalidUtf16
    | some text => .ok (some text)

namespace RedirectContext

/-- The checks of a native header. -/
def fromNative (inner : NativeContext) (actualSize : Nat) : Except RedirectContextError NativeContext :=
  if inner.size.toNat ≠ actualSize then .error (.declaredSizeMismatch inner.size.toNat actualSize)
  else if inner.reserved ≠ 0 then .error .reservedFieldNotZero
  else if isSupportedAddressFamily inner.addressFamily then .ok inner
  else .error (.unsupportedAddressFamily inner.addressFamily)

/-- The address union, read as its family says. -/
def address (inner : NativeContext) : IpAddr :=
  if inner.addressFamily = afInet then
    .v4 (ipv4FromU32 (u32FromBe (ofLeBytes (inner.originalDestination.val.take 4))))
  else .v6 (ipv6FromBytes inner.originalDestination)

def originalDestination (inner : NativeContext) : OriginalDestination := ⟨address inner, inner.originalPort⟩

def processId (inner : NativeContext) : Option UInt32 := if inner.processId ≠ 0 then some inner.processId else none

def decode (bytes : Bytes) : Except RedirectContextError (OriginalDestination × Option UInt32 × Option Str) :=
  if h : headerSize ≤ bytes.length then do
    let context ← fromNative (.readUnaligned bytes h) bytes.length
    let applicationIdBytes := bytes.drop headerSize
    if maxApplicationIdBytes < applicationIdBytes.length then
      throw (.applicationIdTooLarge applicationIdBytes.length maxApplicationIdBytes)
    let applicationId ← decodeApplicationId applicationIdBytes
    return (originalDestination context, processId context, applicationId)
  else .error (.headerTooShort bytes.length headerSize)

end RedirectContext

/-- An application identifier as the driver appends it. -/
structure ApplicationId where
  text : Str
  terminators : Nat
  nonempty : text ≠ []
  nulFree : '\x00' ∉ text
  fits : 2 * ((encodeUtf16 text).length + terminators) ≤ maxApplicationIdBytes

/-- UTF-16LE. -/
def unitBytes (units : List UInt16) : Bytes := units.flatMap fun unit => leBytes 2 unit.toNat

def ApplicationId.bytes (id : ApplicationId) : Bytes :=
  unitBytes (encodeUtf16 id.text ++ List.replicate id.terminators 0)

/-- The octets of IPv6 segments. -/
def octets (segments : List UInt16) : Bytes :=
  segments.flatMap fun segment => [UInt8.ofNat (segment.toNat / 256), UInt8.ofNat segment.toNat]

/-- What the driver knows of a redirected connection. Of the address union, an IPv4 address leaves twelve bytes unused. -/
structure Context where
  ip : IpAddr
  port : UInt16
  processId : UInt32
  application : Option ApplicationId
  unused : Bytes
  unused_length : unused.length = 12

namespace Context
variable (context : Context)

def addressFamily : UInt32 := match context.ip with
  | .v4 _ => afInet
  | .v6 _ => afInet6

def addressBytes : Bytes := match context.ip with
  | .v4 address => [address.a, address.b, address.c, address.d] ++ context.unused
  | .v6 address => octets address.segments

def tail : Bytes := (context.application.map ApplicationId.bytes).getD []

/-- The layout of the driver's header. -/
def encode : Bytes :=
  leBytes 4 (headerSize + context.tail.length) ++ (leBytes 4 context.addressFamily.toNat ++
    (leBytes 2 context.port.toNat ++ (leBytes 2 0 ++ (context.addressBytes ++
      (leBytes 4 context.processId.toNat ++ context.tail)))))

/-- What decoding is to return. -/
def metadata : OriginalDestination × Option UInt32 × Option Str :=
  (⟨context.ip, context.port⟩, if context.processId ≠ 0 then some context.processId else none,
    context.application.map ApplicationId.text)

end Context

section ApplicationIds

@[simp] theorem length_unitBytes (units : List UInt16) : (unitBytes units).length = 2 * units.length := by
  induction units with
  | nil => rfl
  | cons unit units ih =>
    rw [unitBytes, List.flatMap_cons, List.length_append, length_leBytes, List.length_cons]
    rw [unitBytes] at ih
    omega

theorem codeUnits_unitBytes (units : List UInt16) : codeUnits (unitBytes units) = units := by
  induction units with
  | nil => rfl
  | cons unit units ih =>
    have hlt : unit.toNat < 256 ^ 2 := unit.toNat_lt
    have hbytes : leBytes 2 unit.toNat = [UInt8.ofNat unit.toNat, UInt8.ofNat (unit.toNat / 256)] := rfl
    have hvalue := ofLeBytes_leBytes hlt
    rw [hbytes] at hvalue
    rw [unitBytes, List.flatMap_cons, hbytes, List.cons_append, List.cons_append, List.nil_append, codeUnits, hvalue,
      UInt16.ofNat_toNat]
    exact congrArg _ ih

theorem unitBytes_codeUnits {bytes : Bytes} (h : bytes.length % 2 = 0) : unitBytes (codeUnits bytes) = bytes := by
  fun_induction codeUnits bytes with
  | case1 low high rest ih =>
    have hrest : rest.length % 2 = 0 := by
      rw [List.length_cons, List.length_cons] at h
      omega
    have hlt : ofLeBytes [low, high] < 256 ^ 2 := ofLeBytes_lt [low, high]
    rw [unitBytes, List.flatMap_cons, UInt16.toNat_ofNat', Nat.mod_eq_of_lt (by omega)]
    have hpair : leBytes 2 (ofLeBytes [low, high]) = [low, high] := leBytes_ofLeBytes [low, high]
    rw [hpair]
    exact congrArg ([low, high] ++ ·) (ih hrest)
  | case2 bytes hshort =>
    cases bytes with
    | nil => rfl
    | cons low rest =>
      cases rest with
      | nil => simp at h
      | cons high rest => exact absurd rfl (hshort low high rest)

/-- The terminators of a string are dropped, and nothing else. -/
theorem rdropWhile_terminators {units : List UInt16} (h : 0 ∉ units) (terminators : Nat) :
    (units ++ List.replicate terminators 0).rdropWhile (· == 0) = units := by
  induction terminators with
  | zero =>
    rw [List.replicate_zero, List.append_nil, List.rdropWhile_eq_self_iff]
    intro hne hzero
    exact h ((beq_iff_eq.mp hzero) ▸ List.getLast_mem hne)
  | succ terminators ih =>
    rw [List.replicate_succ', ← List.append_assoc, List.rdropWhile_concat_pos _ _ _ rfl, ih]

theorem exists_terminators (units : List UInt16) :
    ∃ terminators, units = units.rdropWhile (· == 0) ++ List.replicate terminators 0 := by
  induction units using List.reverseRecOn with
  | nil => exact ⟨0, rfl⟩
  | append_singleton units unit ih =>
    by_cases hzero : unit = 0
    · obtain ⟨terminators, hunits⟩ := ih
      subst hzero
      refine ⟨terminators + 1, ?_⟩
      rw [List.rdropWhile_concat_pos _ _ _ rfl, List.replicate_succ', ← List.append_assoc, ← hunits]
    · exact ⟨0, by rw [List.rdropWhile_concat_neg _ _ _ (by simpa using hzero)]; simp⟩

theorem decodeApplicationId_bytes (id : ApplicationId) : decodeApplicationId id.bytes = .ok (some id.text) := by
  have hnul : 0 ∉ encodeUtf16 id.text := fun h => id.nulFree (zero_mem_encodeUtf16.mp h)
  have hunits : encodeUtf16 id.text ≠ [] := by
    intro hempty
    have hread := fromUtf16_encodeUtf16 id.text
    rw [hempty] at hread
    exact id.nonempty (Option.some.inj hread).symm
  have hpos := List.length_pos_of_ne_nil hunits
  have hlength : id.bytes.length = 2 * ((encodeUtf16 id.text).length + id.terminators) := by
    rw [ApplicationId.bytes, length_unitBytes, List.length_append, List.length_replicate]
  have hne : id.bytes ≠ [] := by
    intro hempty
    rw [hempty, List.length_nil] at hlength
    omega
  rw [decodeApplicationId, if_neg hne, if_neg (by omega)]
  simp only [ApplicationId.bytes, codeUnits_unitBytes, rdropWhile_terminators hnul, if_neg hunits, if_neg hnul,
    fromUtf16_encodeUtf16]

/-- What is accepted behind the header is nothing, or an application identifier. -/
theorem decodeApplicationId_ok {bytes : Bytes} {text : Option Str} (hfits : bytes.length ≤ maxApplicationIdBytes)
    (h : decodeApplicationId bytes = .ok text) :
    ∃ application : Option ApplicationId, bytes = (application.map ApplicationId.bytes).getD [] ∧
      text = application.map ApplicationId.text := by
  unfold decodeApplicationId at h
  split at h
  · next hempty =>
    cases h
    exact ⟨none, hempty, rfl⟩
  · split at h
    · cases h
    · next heven =>
      rw [not_not] at heven
      simp only at h
      split at h
      · cases h
      · next hunits =>
        split at h
        · cases h
        · next hnul =>
          split at h
          · cases h
          · next value hvalue =>
            cases h
            obtain ⟨terminators, hsplit⟩ := exists_terminators (codeUnits bytes)
            have hencode := encodeUtf16_fromUtf16 hvalue
            have hbytes : unitBytes (encodeUtf16 value ++ List.replicate terminators 0) = bytes := by
              rw [hencode, ← hsplit, unitBytes_codeUnits heven]
            have hlength := congrArg List.length hbytes
            rw [length_unitBytes, List.length_append, List.length_replicate] at hlength
            refine ⟨some ⟨value, terminators, ?_, ?_, hlength ▸ hfits⟩, hbytes.symm, rfl⟩
            · rintro rfl
              exact hunits hencode.symm
            · intro hmem
              exact hnul (hencode ▸ zero_mem_encodeUtf16.mpr hmem)

end ApplicationIds

section Addresses

private theorem ofNat_byte {n : Nat} {byte : UInt8} (h : n % 256 = byte.toNat) : UInt8.ofNat n = byte := by
  apply UInt8.toNat_inj.mp
  rw [UInt8.toNat_ofNat']
  exact h

/-- Two swaps of the byte order give the octets as they stand in the union. -/
theorem ipv4FromU32_octets (a b c d : UInt8) : ipv4FromU32 (u32FromBe (ofLeBytes [a, b, c, d])) = ⟨a, b, c, d⟩ := by
  have hswap : leBytes 4 (ofLeBytes [a, b, c, d]) = [a, b, c, d] := leBytes_ofLeBytes [a, b, c, d]
  have ha := a.toNat_lt
  have hb := b.toNat_lt
  have hc := c.toNat_lt
  have hd := d.toNat_lt
  rw [u32FromBe, hswap]
  simp only [List.reverse_cons, List.reverse_nil, List.nil_append, List.cons_append, ofLeBytes, ipv4FromU32,
    Ipv4Addr.mk.injEq]
  exact ⟨ofNat_byte (by omega), ofNat_byte (by omega), ofNat_byte (by omega), ofNat_byte (by omega)⟩

@[simp] theorem length_octets (segments : List UInt16) : (octets segments).length = 2 * segments.length := by
  induction segments with
  | nil => rfl
  | cons segment segments ih =>
    rw [octets] at ih
    rw [octets, List.flatMap_cons, List.length_append, ih, List.length_cons, List.length_cons, List.length_cons,
      List.length_nil]
    omega

theorem segmentsOf_octets (segments : List UInt16) : segmentsOf (octets segments) = segments := by
  induction segments with
  | nil => rfl
  | cons segment segments ih =>
    have hlt := segment.toNat_lt
    have hsegment : UInt16.ofNat ((UInt8.ofNat (segment.toNat / 256)).toNat * 256 + (UInt8.ofNat segment.toNat).toNat) =
        segment := by
      apply UInt16.toNat_inj.mp
      rw [UInt16.toNat_ofNat', UInt8.toNat_ofNat', UInt8.toNat_ofNat']
      omega
    rw [octets, List.flatMap_cons, List.cons_append, List.cons_append, List.nil_append, segmentsOf, hsegment]
    exact congrArg _ ih

theorem octets_segmentsOf {bytes : Bytes} (h : bytes.length % 2 = 0) : octets (segmentsOf bytes) = bytes := by
  fun_induction segmentsOf bytes with
  | case1 high low rest ih =>
    have hhigh := high.toNat_lt
    have hlow := low.toNat_lt
    have hrest : rest.length % 2 = 0 := by
      rw [List.length_cons, List.length_cons] at h
      omega
    rw [octets, List.flatMap_cons, UInt16.toNat_ofNat', Nat.mod_eq_of_lt (by omega), @ofNat_byte _ high (by omega),
      @ofNat_byte _ low (by omega)]
    exact congrArg ([high, low] ++ ·) (ih hrest)
  | case2 bytes hshort =>
    cases bytes with
    | nil => rfl
    | cons high rest =>
      cases rest with
      | nil => simp at h
      | cons low rest => exact absurd rfl (hshort high low rest)

end Addresses

section Header

theorem Context.length_addressBytes (context : Context) : context.addressBytes.length = 16 := by
  unfold addressBytes
  split
  · rw [List.length_append, context.unused_length]
    rfl
  · next address _ => rw [length_octets, address.eight]

/-- The bytes of a field that stands behind the given front. -/
private theorem fieldBytes_append {front field rest : Bytes} {offset width : Nat} (hfront : front.length = offset)
    (hfield : field.length = width) : fieldBytes (front ++ (field ++ rest)) offset width = field := by
  rw [fieldBytes, ← hfront, List.drop_left, ← hfield, List.take_left]

private theorem u32_leBytes (n : UInt32) : UInt32.ofNat (ofLeBytes (leBytes 4 n.toNat)) = n := by
  rw [ofLeBytes_leBytes n.toNat_lt, UInt32.ofNat_toNat]

private theorem u16_leBytes (n : UInt16) : UInt16.ofNat (ofLeBytes (leBytes 2 n.toNat)) = n := by
  rw [ofLeBytes_leBytes n.toNat_lt, UInt16.ofNat_toNat]

theorem Context.length_tail_le (context : Context) : context.tail.length ≤ maxApplicationIdBytes := by
  unfold tail
  cases context.application with
  | none => exact Nat.zero_le _
  | some id =>
    have hfits := id.fits
    rw [Option.map_some, Option.getD_some, ApplicationId.bytes, length_unitBytes, List.length_append, List.length_replicate]
    exact hfits

theorem Context.length_encode (context : Context) : context.encode.length = headerSize + context.tail.length := by
  simp only [encode, List.length_append, length_leBytes, length_addressBytes, headerSize]
  omega

/-- The header of an encoded context, read at the offsets of its layout. -/
theorem Context.readUnaligned_encode (context : Context) (h : headerSize ≤ context.encode.length) :
    NativeContext.readUnaligned context.encode h =
      ⟨UInt32.ofNat (headerSize + context.tail.length), context.addressFamily, context.port, 0,
        ⟨context.addressBytes, context.length_addressBytes⟩, context.processId⟩ := by
  have hsize : headerSize + context.tail.length < 256 ^ 4 := by
    have hle := context.length_tail_le
    simp only [headerSize, maxApplicationIdBytes] at *
    omega
  have haddress := context.length_addressBytes
  simp only [NativeContext.readUnaligned, NativeContext.mk.injEq, Subtype.mk.injEq, u32At, u16At, encode]
  refine ⟨?_, ?_, ?_, ?_, ?_, ?_⟩
  · rw [← List.nil_append (leBytes 4 _ ++ _), fieldBytes_append List.length_nil (length_leBytes 4 _), ofLeBytes_leBytes hsize]
  · rw [fieldBytes_append (length_leBytes 4 _) (length_leBytes 4 _), u32_leBytes]
  · rw [← List.append_assoc (leBytes 4 _), fieldBytes_append (by simp) (length_leBytes 2 _), u16_leBytes]
  · rw [← List.append_assoc (leBytes 4 _), ← List.append_assoc (leBytes 4 _ ++ _),
      fieldBytes_append (by simp) (length_leBytes 2 _)]
    rfl
  · rw [← List.append_assoc (leBytes 4 _), ← List.append_assoc (leBytes 4 _ ++ _),
      ← List.append_assoc (leBytes 4 _ ++ _ ++ _), fieldBytes_append (by simp) haddress]
  · rw [← List.append_assoc (leBytes 4 _), ← List.append_assoc (leBytes 4 _ ++ _),
      ← List.append_assoc (leBytes 4 _ ++ _ ++ _), ← List.append_assoc (leBytes 4 _ ++ _ ++ _ ++ _),
      fieldBytes_append (by simp [haddress]) (length_leBytes 4 _), u32_leBytes]

theorem Context.drop_encode (context : Context) : context.encode.drop headerSize = context.tail := by
  have hfront := context.length_addressBytes
  rw [encode]
  simp only [← List.append_assoc]
  rw [List.drop_left']
  simp [headerSize, hfront]

/-- Every header is made of its fields. -/
theorem header_eq (bytes : Bytes) : bytes =
    fieldBytes bytes 0 4 ++ (fieldBytes bytes 4 4 ++ (fieldBytes bytes 8 2 ++ (fieldBytes bytes 10 2 ++
      (fieldBytes bytes 12 16 ++ (fieldBytes bytes 28 4 ++ bytes.drop headerSize))))) := by
  have hstep (offset width : Nat) : fieldBytes bytes offset width ++ bytes.drop (offset + width) = bytes.drop offset := by
    rw [fieldBytes, ← List.drop_drop, List.take_append_drop]
  rw [headerSize, hstep 28 4, hstep 12 16, hstep 10 2, hstep 8 2, hstep 4 4, hstep 0 4, List.drop_zero]

end Header

namespace RedirectContext

private theorem leBytes_u32At {bytes : Bytes} {offset : Nat} (h : offset + 4 ≤ bytes.length) :
    leBytes 4 (u32At bytes offset).toNat = fieldBytes bytes offset 4 := by
  have hlength := length_fieldBytes h
  have hlt := ofLeBytes_lt (fieldBytes bytes offset 4)
  rw [hlength] at hlt
  rw [u32At, UInt32.toNat_ofNat', Nat.mod_eq_of_lt (show _ < 2 ^ 32 from hlt)]
  have hround := leBytes_ofLeBytes (fieldBytes bytes offset 4)
  rwa [hlength] at hround

private theorem leBytes_u16At {bytes : Bytes} {offset : Nat} (h : offset + 2 ≤ bytes.length) :
    leBytes 2 (u16At bytes offset).toNat = fieldBytes bytes offset 2 := by
  have hlength := length_fieldBytes h
  have hlt := ofLeBytes_lt (fieldBytes bytes offset 2)
  rw [hlength] at hlt
  rw [u16At, UInt16.toNat_ofNat', Nat.mod_eq_of_lt (show _ < 2 ^ 16 from hlt)]
  have hround := leBytes_ofLeBytes (fieldBytes bytes offset 2)
  rwa [hlength] at hround

/-- The address of an encoded context. -/
theorem address_encode (context : Context) {size : UInt32} {port reserved : UInt16} {processId : UInt32} :
    address ⟨size, context.addressFamily, port, reserved, ⟨context.addressBytes, context.length_addressBytes⟩, processId⟩ =
      context.ip := by
  unfold address
  cases hip : context.ip with
  | v4 v4 =>
    have hfamily : context.addressFamily = afInet := by rw [Context.addressFamily, hip]
    have hbytes : context.addressBytes.take 4 = [v4.a, v4.b, v4.c, v4.d] := by
      rw [Context.addressBytes, hip]
      exact List.take_left' rfl
    rw [if_pos hfamily, hbytes, ipv4FromU32_octets]
  | v6 v6 =>
    have hfamily : context.addressFamily = afInet6 := by rw [Context.addressFamily, hip]
    have hbytes : context.addressBytes = octets v6.segments := by rw [Context.addressBytes, hip]
    have hother : context.addressFamily ≠ afInet := by
      rw [hfamily]
      decide
    rw [if_neg hother]
    simp only [ipv6FromBytes, hbytes, segmentsOf_octets]

theorem decode_encode (context : Context) : decode context.encode = .ok context.metadata := by
  have hheader : headerSize ≤ context.encode.length := by
    rw [context.length_encode]
    exact Nat.le_add_right ..
  have htail := context.length_tail_le
  have hsize : (UInt32.ofNat (headerSize + context.tail.length)).toNat = context.encode.length := by
    rw [context.length_encode, UInt32.toNat_ofNat', Nat.mod_eq_of_lt]
    simp only [headerSize, maxApplicationIdBytes] at *
    omega
  have hfamily : isSupportedAddressFamily context.addressFamily = true := by
    unfold Context.addressFamily
    split <;> decide
  have happlication : decodeApplicationId context.tail = .ok (context.application.map ApplicationId.text) := by
    rw [Context.tail]
    cases context.application with
    | none => rfl
    | some id => exact decodeApplicationId_bytes id
  rw [decode, dif_pos hheader, context.readUnaligned_encode hheader]
  simp only [fromNative, hsize, ne_eq, not_true_eq_false, if_false, hfamily, if_true, context.drop_encode,
    Nat.not_lt.mpr htail, happlication, bind, Except.bind, pure, Except.pure, Except.ok.injEq]
  rw [originalDestination, address_encode]
  rfl

/-- The address union of a supported family is one of its addresses. -/
theorem exists_address {family : UInt32} (hfamily : isSupportedAddressFamily family = true) (union : AddressUnion) :
    ∃ (ip : IpAddr) (unused : Bytes), unused.length = 12 ∧
      ∀ port processId application (hunused : unused.length = 12),
        (Context.mk ip port processId application unused hunused).addressFamily = family ∧
        (Context.mk ip port processId application unused hunused).addressBytes = union.val := by
  obtain ⟨bytes, hlength⟩ := union
  rw [isSupportedAddressFamily, Bool.or_eq_true, beq_iff_eq, beq_iff_eq] at hfamily
  rcases hfamily with rfl | rfl
  · obtain ⟨a, bytes, rfl⟩ := List.exists_cons_of_length_eq_add_one hlength
    obtain ⟨b, bytes, rfl⟩ := List.exists_cons_of_length_eq_add_one (Nat.succ.inj hlength)
    obtain ⟨c, bytes, rfl⟩ := List.exists_cons_of_length_eq_add_one (Nat.succ.inj (Nat.succ.inj hlength))
    obtain ⟨d, bytes, rfl⟩ := List.exists_cons_of_length_eq_add_one (Nat.succ.inj (Nat.succ.inj (Nat.succ.inj hlength)))
    exact ⟨.v4 ⟨a, b, c, d⟩, bytes, by simpa using hlength, fun _ _ _ _ => ⟨rfl, rfl⟩⟩
  · refine ⟨.v6 (ipv6FromBytes ⟨bytes, hlength⟩), List.replicate 12 0, List.length_replicate, fun _ _ _ _ => ⟨rfl, ?_⟩⟩
    exact octets_segmentsOf (by rw [hlength])

/-- The checks behind an accepted context. -/
theorem decode_checks {bytes : Bytes} {metadata : OriginalDestination × Option UInt32 × Option Str}
    (h : decode bytes = .ok metadata) : headerSize ≤ bytes.length ∧
      (u32At bytes 0).toNat = bytes.length ∧ u16At bytes 10 = 0 ∧
      isSupportedAddressFamily (u32At bytes 4) = true ∧ (bytes.drop headerSize).length ≤ maxApplicationIdBytes ∧
      ∃ text, decodeApplicationId (bytes.drop headerSize) = .ok text := by
  unfold decode at h
  split at h
  · next hheader =>
    refine ⟨hheader, ?_⟩
    cases hnative : fromNative (.readUnaligned bytes hheader) bytes.length with
    | error error =>
      rw [hnative] at h
      cases h
    | ok context =>
      simp only [hnative, bind, Except.bind] at h
      unfold fromNative at hnative
      split at hnative
      · cases hnative
      · next hsize =>
        split at hnative
        · cases hnative
        · next hreserved =>
          split at hnative
          · next hfamily =>
            split at h
            · cases h
            · next hfits =>
              cases happlication : decodeApplicationId (bytes.drop headerSize) with
              | error error =>
                rw [happlication] at h
                cases h
              | ok text =>
                exact ⟨not_not.mp hsize, not_not.mp hreserved, hfamily, Nat.not_lt.mp hfits, text, rfl⟩
          · cases hnative
  · cases h

/-- What decoding accepts is an encoded context. -/
theorem decode_ok {bytes : Bytes} {metadata : OriginalDestination × Option UInt32 × Option Str}
    (h : decode bytes = .ok metadata) : ∃ context : Context, context.encode = bytes := by
  obtain ⟨hheader, hsize, hreserved, hfamily, hfits, text, happlication⟩ := decode_checks h
  have hlength : 32 ≤ bytes.length := hheader
  obtain ⟨application, htail, -⟩ := decodeApplicationId_ok hfits happlication
  obtain ⟨ip, unused, hunused, haddress⟩ :=
    exists_address hfamily (NativeContext.readUnaligned bytes hheader).originalDestination
  obtain ⟨hfamily', hbytes⟩ := haddress (u16At bytes 8) (u32At bytes 28) application hunused
  refine ⟨⟨ip, u16At bytes 8, u32At bytes 28, application, unused, hunused⟩, ?_⟩
  have hwhole : headerSize + (bytes.drop headerSize).length = bytes.length := by
    rw [List.length_drop]
    omega
  have hzero : leBytes 2 0 = leBytes 2 (u16At bytes 10).toNat := by
    rw [hreserved]
    rfl
  rw [Context.encode, hfamily', hbytes]
  simp only [Context.tail, ← htail, hwhole]
  rw [hzero, ← hsize, leBytes_u32At (by omega), leBytes_u32At (by omega), leBytes_u32At (by omega),
    leBytes_u16At (by omega), leBytes_u16At (by omega)]
  exact (header_eq bytes).symm

/-- Decoding accepts exactly the encoded contexts, and returns what they were made of. -/
theorem decode_iff (bytes : Bytes) (metadata : OriginalDestination × Option UInt32 × Option Str) :
    decode bytes = .ok metadata ↔ ∃ context : Context, context.encode = bytes ∧ context.metadata = metadata := by
  constructor
  · intro h
    obtain ⟨context, rfl⟩ := decode_ok h
    rw [decode_encode, Except.ok.injEq] at h
    exact ⟨context, rfl, h⟩
  · rintro ⟨context, rfl, rfl⟩
    exact decode_encode context

end RedirectContext
end Abyss.Broker.Callout
