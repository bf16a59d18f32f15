import Abyss.AgentHook.Event.Normalizer
import Abyss.Data.FilterMap
import Abyss.Mitm.Relay.RequestFraming
import Abyss.Text.Base64
import Abyss.Text.Utf8

/-! What events and logs show of the captured request line and headers: everything but the values of
headers that carry credentials. -/
namespace Abyss.Mitm
open Abyss.Text Http

section Display

def redactedHeaderValue : Str := lit "<redacted>"

def sensitiveHeaderNames : List HeaderName :=
  [ascii "authorization", ascii "proxy-authorization", ascii "cookie", ascii "set-cookie", ascii "api-key",
    ascii "x-api-key", ascii "x-goog-api-key", ascii "anthropic-api-key", ascii "chatgpt-account-id"]

/-- Whether a header carries credentials whose value must be redacted. -/
def isSensitiveHeader (name : HeaderName) : Bool :=
  sensitiveHeaderNames.contains name || decide (ascii "token" <:+: name)

def headerValueDisplay (value : HeaderValue) : Str :=
  match toStr value with
  | some text => text
  | none => lit "<non-utf8: " ++ Nat.toDigits 10 value.length ++ lit " bytes>"

def headerDisplay (entry : HeaderName × HeaderValue) : Str :=
  entry.1.map byteChar ++ lit ": " ++
    (if isSensitiveHeader entry.1 then redactedHeaderValue else headerValueDisplay entry.2)

def httpHeadersDisplay (headers : HeaderMap) : Str :=
  if headers.iter = [] then lit "<empty>" else join ['\n'] (headers.iter.map headerDisplay)

end Display

section Secrets
variable {headers other : HeaderMap}

/-- The same names in the same order, and the same values wherever these are no credentials. -/
structure SameOutsideSecrets (headers other : HeaderMap) : Prop where
  names : headers.iter.map Prod.fst = other.iter.map Prod.fst
  values : ∀ name, isSensitiveHeader name = false → headers.getAll name = other.getAll name

/-- Two header maps look alike through a view of their entries that hides credentials. -/
theorem map_iter_eq_iff {β : Type} {f : HeaderName × HeaderValue → β} (hname : ∀ a b, f a = f b → a.1 = b.1)
    (hshown : ∀ name v v', isSensitiveHeader name = false → f (name, v) = f (name, v') → v = v')
    (hhidden : ∀ name v v', isSensitiveHeader name = true → f (name, v) = f (name, v')) :
    headers.iter.map f = other.iter.map f ↔ SameOutsideSecrets headers other := by
  rw [Data.map_eq_iff_keyed hname hshown fun name v v' h => hhidden name v v' (Bool.of_not_eq_false h)]
  constructor
  · rintro ⟨hnames, hvalues⟩
    refine ⟨hnames, fun name hname => ?_⟩
    rw [← Relay.getAll_iter headers, ← Relay.getAll_iter other]
    exact hvalues name hname
  · rintro ⟨hnames, hvalues⟩
    refine ⟨hnames, fun name hname => ?_⟩
    have hall := hvalues name hname
    rw [← Relay.getAll_iter headers, ← Relay.getAll_iter other] at hall
    exact hall

/-- An entry less its credentials. -/
def withoutSecrets (entry : HeaderName × HeaderValue) : HeaderName × HeaderValue :=
  (entry.1, if isSensitiveHeader entry.1 then [] else entry.2)

/-- A view that hides credentials shows no difference between such header maps. -/
theorem SameOutsideSecrets.map_iter {β : Type} (h : SameOutsideSecrets headers other) {f : HeaderName × HeaderValue → β}
    (hhidden : ∀ name v v', isSensitiveHeader name = true → f (name, v) = f (name, v')) :
    headers.iter.map f = other.iter.map f := by
  -- `f` may confuse what differs, `withoutSecrets` does not
  have hpaired : headers.iter.map withoutSecrets = other.iter.map withoutSecrets := by
    refine (map_iter_eq_iff ?_ ?_ ?_).mpr h
    · intro a b hab
      exact (congrArg Prod.fst hab :)
    · intro name v v' hname hv
      simpa [withoutSecrets, hname] using hv
    · intro name v v' hname
      simp [withoutSecrets, hname]
  have hthrough : ∀ headers : HeaderMap, headers.iter.map f = (headers.iter.map withoutSecrets).map f := by
    intro headers
    rw [List.map_map]
    refine List.map_congr_left fun entry _ => ?_
    by_cases hentry : isSensitiveHeader entry.1 = true
    · exact hhidden _ _ _ hentry
    · simp [withoutSecrets, hentry]
  rw [hthrough headers, hthrough other, hpaired]

/-- Logs do not depend on credentials. -/
theorem SameOutsideSecrets.display (h : SameOutsideSecrets headers other) :
    httpHeadersDisplay headers = httpHeadersDisplay other := by
  have hlines : headers.iter.map headerDisplay = other.iter.map headerDisplay :=
    h.map_iter fun name v v' hname => by simp [headerDisplay, hname]
  have hempty : headers.iter = [] ↔ other.iter = [] := by
    rw [← List.map_eq_nil_iff, hlines, List.map_eq_nil_iff]
  unfold httpHeadersDisplay
  simp only [hempty, hlines]

end Secrets
end Abyss.Mitm

namespace Abyss.AgentHook
open Abyss.Text Abyss.PluginProtocol Mitm Mitm.Http

section Model

def passthroughHeader (entry : HeaderName × HeaderValue) : HttpHeader where
  name := entry.1.map byteChar
  value :=
    if isSensitiveHeader entry.1 then .text redactedHeaderValue
    else match fromUtf8 entry.2 with
      | some value => .text value
      | none => .base64 (Base64.encode entry.2)

def ExchangePassthrough.passthrough (headers : HeaderMap) : List HttpHeader := headers.iter.map passthroughHeader

/-- The path and query of a target. A target without them has no path either. -/
def ExchangePassthrough.pathOf (target : Uri) : Str :=
  match target.pathAndQuery with
  | some path => (fromUtf8 path.asStr).getD []
  | none => []

/-- What the events of one exchange carry of its head. -/
def ExchangePassthrough.new (target : Uri) (request response : HeaderMap) : ExchangePassthrough :=
  ⟨pathOf target, passthrough request, passthrough response⟩

end Model

section Reveals

private theorem byteChar_injective {a b : UInt8} (h : byteChar a = byteChar b) : a = b := by
  have hvalue : ∀ c : UInt8, (byteChar c).toNat = c.toNat := by
    intro c
    have hlt := c.toNat_lt
    rw [byteChar, Char.ofNat, dif_pos (.inl (by omega))]
    rfl
  apply UInt8.toNat.inj
  rw [← hvalue a, ← hvalue b, h]

private theorem names_injective {name other : HeaderName} (h : name.map byteChar = other.map byteChar) : name = other :=
  List.map_injective_iff.mpr (fun _ _ => byteChar_injective) h

/-- The value of a header that carries no credentials is published as it is. -/
theorem passthroughHeader_value {name : HeaderName} {v v' : HeaderValue} (hname : isSensitiveHeader name = false)
    (h : passthroughHeader (name, v) = passthroughHeader (name, v')) : v = v' := by
  have hvalue := congrArg HttpHeader.value h
  simp only [passthroughHeader, hname, Bool.false_eq_true, if_false] at hvalue
  cases hv : fromUtf8 v with
  | some text =>
    cases hv' : fromUtf8 v' with
    | some text' =>
      simp only [hv, hv', HttpHeaderValue.text.injEq] at hvalue
      rw [← toUtf8_of_fromUtf8 hv, ← toUtf8_of_fromUtf8 hv', hvalue]
    | none => simp [hv, hv'] at hvalue
  | none =>
    cases hv' : fromUtf8 v' with
    | some text' => simp [hv, hv'] at hvalue
    | none =>
      simp only [hv, hv', HttpHeaderValue.base64.injEq] at hvalue
      exact Base64.encode_injective hvalue

/-- Published headers show exactly what is no credential. -/
theorem passthrough_eq_iff {headers other : HeaderMap} :
    ExchangePassthrough.passthrough headers = ExchangePassthrough.passthrough other ↔ SameOutsideSecrets headers other := by
  refine map_iter_eq_iff ?_ (fun name v v' hname h => passthroughHeader_value hname h) ?_
  · intro a b hab
    exact names_injective (congrArg HttpHeader.name hab)
  · intro name v v' hname
    simp [passthroughHeader, hname]

variable {Time : Type} [LinearOrder Time] {platform : Platform Time} {device : DeviceIdentity} {parts : ParsedEventParts}
  {clock : Nat → Time} {content : HarnessUsageContentConfig} {declared : Declared}

def ExchangePassthrough.headers (passthrough : ExchangePassthrough) : AgentEventSide → List HttpHeader
  | .request => passthrough.request
  | .response => passthrough.response

/-- Events of two exchanges that differ in what they pass through at most. -/
theorem usageEvents_eq_iff {passthrough other : ExchangePassthrough} {timestamps : EventTimestampSequence Time}
    {sides : List AgentEventSide} :
    usageEvents platform device parts clock timestamps (sides.map (parts.eventSide content declared passthrough)) =
      usageEvents platform device parts clock timestamps (sides.map (parts.eventSide content declared other)) ↔
    ∀ side ∈ sides, passthrough.path = other.path ∧ passthrough.headers side = other.headers side := by
  induction sides generalizing timestamps with
  | nil => simp [usageEvents]
  | cons side sides ih =>
    rw [List.map_cons, List.map_cons, usageEvents, usageEvents, List.forall_mem_cons, ← @ih (timestamps.next platform clock).2]
    simp only [List.cons.injEq]
    refine and_congr_left fun _ => ?_
    cases side <;> simp [usageEvent, ParsedEventParts.eventSide, ExchangePassthrough.headers]

/-- The captured headers of a side. -/
def sideHeaders (request response : HeaderMap) : AgentEventSide → HeaderMap
  | .request => request
  | .response => response

/-- The events of an exchange show its path and everything of its headers but the credentials: two
exchanges have the same events exactly when they agree in that on each side that is emitted. -/
theorem published_exchange_iff (target otherTarget : Uri) (request response otherRequest otherResponse : HeaderMap) :
    eventsForParsedExchange platform device parts clock content declared (.new target request response) =
      eventsForParsedExchange platform device parts clock content declared (.new otherTarget otherRequest otherResponse) ↔
    ∀ side ∈ parts.emittedSides, ExchangePassthrough.pathOf target = ExchangePassthrough.pathOf otherTarget ∧
      SameOutsideSecrets (sideHeaders request response side) (sideHeaders otherRequest otherResponse side) := by
  unfold eventsForParsedExchange
  rw [usageEvents_eq_iff]
  refine forall₂_congr fun side _ => and_congr Iff.rfl ?_
  cases side <;> exact passthrough_eq_iff

end Reveals
end Abyss.AgentHook
