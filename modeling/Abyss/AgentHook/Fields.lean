import Abyss.AgentHook.Conversation
import Abyss.Mitm.Flow.HttpFlow
import Abyss.Text.JsonSearch

/-! Access to the JSON fields and the transport metadata that all dialects share. -/
namespace Abyss.AgentHook
open Abyss.Text Abyss.Mitm Abyss.Mitm.Http

section Json

mutual
/-- The first string under a key, in an object before its members. -/
def collectStringField (key : String) : Json → Option Str
  | .obj members => (Json.obj members).field key <|> collectFromMembers key members
  | .arr items => collectFromItems key items
  | _ => none

def collectFromItems (key : String) : List Json → Option Str
  | [] => none
  | item :: rest => collectStringField key item <|> collectFromItems key rest

def collectFromMembers (key : String) : List (Str × Json) → Option Str
  | [] => none
  | (_, value) :: rest => collectStringField key value <|> collectFromMembers key rest
end

def collectEventTypes : Nat → Json → List Str
  | 0, _ => []
  | depth + 1, .obj members =>
    (Json.obj members).kind.toList ++ members.flatMap (fun m => collectEventTypes depth m.2)
  | depth + 1, .arr items => items.flatMap (collectEventTypes depth)
  | _ + 1, _ => []

/-- The `type` strings of every object in a value, at any depth up to the limit. -/
def eventTypes (value : Json) : List Str := collectEventTypes maxParseDepth value

def stringField (value : Json) (key : String) : Option Str := (value.field key).bind nonEmptyTrimmed

theorem collectEventTypes_eq (depth : Nat) (value : Json) :
    collectEventTypes depth value = (value.objectsWithin depth).filterMap Json.kind := by
  induction depth generalizing value with
  | zero => rw [collectEventTypes, Json.objectsWithin, List.filterMap_nil]
  | succ depth ih =>
    cases value with
    | obj members =>
      rw [collectEventTypes, Json.objectsWithin, List.filterMap_cons, List.filterMap_flatMap]
      simp only [ih]
      cases (Json.obj members).kind with
      | none => rfl
      | some kind => rfl
    | arr items =>
      rw [collectEventTypes, Json.objectsWithin, List.filterMap_flatMap, funext ih]
    | _ => rfl

end Json

section Transport

/-- What is read of a URI by the `http` crate. -/
structure UriParts where
  host : Uri → Option Str
  path : Uri → Str

/-- The part of a flow's metadata that is read here. -/
structure ObservedFlow where
  flowId : Str
  protocol : Flow.TransparentProtocol
  deriving DecidableEq

def header (headers : HeaderMap) (name : String) : Option Str :=
  ((headers.getAll (ascii name)).head?.bind toStr).bind nonEmptyTrimmed

def normalizeHost (host : Str) : Str :=
  toAsciiLowercase (trimEndMatches (trim ((host.splitOn ':').headD host)) '.')

def requestHost (parts : UriParts) (headers : HeaderMap) (uri : Uri) : Option Str :=
  (parts.host uri <|> header headers "host").map normalizeHost

def flowServerName (flow : ObservedFlow) : Option Str :=
  match flow.protocol with
  | .tlsHttp serverName => some (normalizeHost serverName)
  | .plainHttp => none

/-- The session headers of `OpenCode`; the generic alias counts for this client only. -/
def opencodeSessionId (headers : HeaderMap) : Option Str :=
  header headers "x-opencode-session-id" <|> header headers "x-opencode-session" <|>
    if (header headers "user-agent").any (startsWith · (lit "opencode/")) then header headers "x-session-id" else none

end Transport
end Abyss.AgentHook
