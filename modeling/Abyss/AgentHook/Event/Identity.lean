import Abyss.AgentHook.Event.Normalizer
import Abyss.AgentHook.Harness.Config
import Abyss.Text.Separated

/-! Event identities, and the bytes that an event id is a digest of. -/
namespace Abyss.AgentHook
open Abyss.Text Abyss.PluginProtocol Abyss.AgentHook.Harness

def nul : Char := Char.ofNat 0

section Device

def normalizeHostname (value : Str) : Option Str :=
  let value := trimEndMatches (trim value) '.'
  if value = [] then none else some value

/-- A hostname of the platform has text, and no NUL. -/
def PlatformHostname (hostname : Option Str) : Prop := ∀ name ∈ hostname, name ≠ [] ∧ nul ∉ name

theorem platformHostname_normalize {value : Str} (h : nul ∉ value) : PlatformHostname (normalizeHostname value) := by
  intro name hname
  unfold normalizeHostname at hname
  dsimp only at hname
  split at hname
  · cases hname
  · next hne =>
    cases hname
    refine ⟨hne, fun hmem => h ?_⟩
    have htrimmed := ( List.rdropWhile_prefix _ _).subset hmem
    exact (List.dropWhile_suffix isWhitespace).subset (( List.rdropWhile_prefix isWhitespace _).subset htrimmed)

/-- The part of an id that stands for the device. -/
theorem deviceKey_inj {a b : Option Str} (ha : PlatformHostname a) (hb : PlatformHostname b) (h : a.getD [] = b.getD []) :
    a = b := by
  cases a with
  | none =>
    cases b with
    | none => rfl
    | some name => exact absurd h.symm (hb name rfl).1
  | some name =>
    cases b with
    | none => exact absurd h (ha name rfl).1
    | some other => exact congrArg some h

end Device

/-- What tells one event from another. -/
structure EventIdentity where
  hostname : Option Str
  harnessId : HarnessId
  sessionId : Str
  side : AgentEventSide
  responseIdentity : Str
  contentHash : Str
  hostname_platform : PlatformHostname hostname
  contentHash_plain : nul ∉ contentHash

namespace EventIdentity
variable (identity : EventIdentity)

def parts : List Str :=
  [identity.hostname.getD [], identity.harnessId.asStr, identity.sessionId, identity.side.wireName,
    identity.responseIdentity, identity.contentHash]

/-- The bytes that `stable_event_id` hashes. -/
def preimage : List UInt8 := toUtf8 (Separated.ended nul identity.parts)

/-- No part of the session id behind its first NUL, and none of the response identity before its last, is the name of a
side. -/
def Clear : Prop :=
  ∀ side : AgentEventSide, side.wireName ∉ (identity.sessionId.splitOn nul).tail ∧
    side.wireName ∉ (identity.responseIdentity.splitOn nul).dropLast

end EventIdentity

section Preimage
variable {identity other : EventIdentity}

theorem nul_not_mem_side (side : AgentEventSide) : nul ∉ side.wireName := by cases side <;> decide

theorem wireName_injective : Function.Injective AgentEventSide.wireName := by
  intro a b h
  revert h
  cases a <;> cases b <;> decide

theorem nul_not_mem_harnessId (harnessId : HarnessId) : nul ∉ harnessId.asStr := by
  intro h
  have haccepted := harnessId.accepted
  simp only [isIdText, Bool.and_eq_true, List.all_eq_true] at haccepted
  exact absurd (haccepted.2 nul h) (by decide)

theorem nul_not_mem_deviceKey (identity : EventIdentity) : nul ∉ identity.hostname.getD [] := by
  cases h : identity.hostname with
  | none => exact List.not_mem_nil
  | some name => exact (identity.hostname_platform name h).2

theorem toUtf8_injective {s t : Str} (h : toUtf8 s = toUtf8 t) : s = t := by
  have hread := congrArg fromUtf8 h
  rw [fromUtf8_toUtf8, fromUtf8_toUtf8] at hread
  exact Option.some.inj hread

/-- The parts of an identity that are not between the harness and the hash are told apart by the bytes. -/
theorem preimage_eq_iff : other.preimage = identity.preimage ↔
    other.hostname = identity.hostname ∧ other.harnessId = identity.harnessId ∧ other.contentHash = identity.contentHash ∧
      Separated.around nul other.sessionId other.side.wireName other.responseIdentity =
        Separated.around nul identity.sessionId identity.side.wireName identity.responseIdentity := by
  have hshape : ∀ identity : EventIdentity, Separated.ended nul identity.parts =
      identity.hostname.getD [] ++ nul :: (identity.harnessId.asStr ++ nul ::
        ((Separated.around nul identity.sessionId identity.side.wireName identity.responseIdentity ++
          nul :: identity.contentHash) ++ [nul])) := by
    intro identity
    simp [Separated.ended, EventIdentity.parts, Separated.around]
  constructor
  · intro h
    have h := toUtf8_injective h
    rw [hshape, hshape] at h
    obtain ⟨hdevice, h⟩ := Separated.cons_inj (nul_not_mem_deviceKey other) (nul_not_mem_deviceKey identity) h
    obtain ⟨hharness, h⟩ := Separated.cons_inj (nul_not_mem_harnessId _) (nul_not_mem_harnessId _) h
    obtain ⟨hmiddle, hhash⟩ := Separated.concat_inj other.contentHash_plain identity.contentHash_plain
      (List.append_cancel_right h)
    exact ⟨deviceKey_inj other.hostname_platform identity.hostname_platform hdevice, HarnessId.asStr_inj hharness, hhash,
      hmiddle⟩
  · rintro ⟨hdevice, hharness, hhash, hmiddle⟩
    rw [EventIdentity.preimage, EventIdentity.preimage, hshape, hshape, hdevice, hharness, hhash, hmiddle]

/-- An identity shares its bytes with no other one exactly when the name of no side could be taken for its own. -/
theorem preimage_unique_iff (identity : EventIdentity) :
    (∀ other : EventIdentity, other ≠ identity → other.preimage ≠ identity.preimage) ↔ identity.Clear := by
  rw [EventIdentity.Clear, ← Separated.around_unique_iff nul_not_mem_side identity.sessionId identity.side
    identity.responseIdentity]
  constructor
  · intro h sessionId side responseIdentity hmiddle
    by_contra hne
    refine h { identity with sessionId, side, responseIdentity } ?_ ?_
    · intro heq
      exact hne (congrArg EventIdentity.sessionId heq)
    · exact preimage_eq_iff.mpr ⟨rfl, rfl, rfl, hmiddle⟩
  · intro h other hne hpreimage
    obtain ⟨hdevice, hharness, hhash, hmiddle⟩ := preimage_eq_iff.mp hpreimage
    have hsession := h _ _ _ hmiddle
    refine hne ?_
    rw [Separated.around, Separated.around, hsession] at hmiddle
    obtain ⟨hside, hresponse⟩ := Separated.cons_inj (nul_not_mem_side _) (nul_not_mem_side _)
      (List.cons.inj (List.append_cancel_left hmiddle)).2
    have hside := wireName_injective hside
    cases other
    cases identity
    dsimp only at *
    subst hdevice hharness hhash hsession hside hresponse
    rfl

/-- The id of an event is the digest of the bytes of its identity. -/
theorem usageEvent_eventId {Time : Type} (platform : Platform Time) (device : DeviceIdentity) (parts : ParsedEventParts)
    (side : EventSide) (observedAt : Time) (harnessId : HarnessId) (hharness : parts.harnessName = harnessId.asStr)
    (hhostname : PlatformHostname device.hostname)
    (hhash : nul ∉ eventContentHash platform.digest side.conversation side.attachments) :
    ∃ text, toUtf8 text = (EventIdentity.mk device.hostname harnessId parts.sessionId side.side parts.responseIdentity
        (eventContentHash platform.digest side.conversation side.attachments) hhostname hhash).preimage ∧
      (usageEvent platform device parts side observedAt).eventId = lit "evt_" ++ (platform.digest.sha256Hex text).take 32 := by
  refine ⟨_, rfl, ?_⟩
  rw [usageEvent, stableEventId, hharness]
  rfl

/-- A request whose response identity has a NUL and the name of a side in it. -/
def sampleRequest : EventIdentity :=
  ⟨none, .ofBuiltIn .codex, ['s'], .request, 'r' :: nul :: "response".toList ++ [nul, 't'], [],
    fun _ h => (Option.not_mem_none _ h).elim, List.not_mem_nil⟩

def sampleResponse : EventIdentity :=
  ⟨none, .ofBuiltIn .codex, 's' :: nul :: "request".toList ++ [nul, 'r'], .response, ['t'], [],
    fun _ h => (Option.not_mem_none _ h).elim, List.not_mem_nil⟩

theorem sample_collides : sampleRequest ≠ sampleResponse ∧ sampleRequest.preimage = sampleResponse.preimage := by
  refine ⟨fun h => ?_, by decide⟩
  cases congrArg EventIdentity.side h

end Preimage
end Abyss.AgentHook
