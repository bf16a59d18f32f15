import Abyss.AgentHook.Fields
import Abyss.AgentHook.Image
import Abyss.AgentHook.TokenUsage
import Abyss.Text.JsonSearch

/-! OpenAI-family exchanges, including compatible gateways: token accounting, response identity, and the images of a
request. -/
namespace Abyss.AgentHook.OpenAi
open Abyss.Text Abyss.PluginProtocol

section Usage

/-- `Iterator::max_by_key`: the last of the largest. -/
def maxByKey {α κ : Type} [LE κ] [DecidableLE κ] (key : α → κ) (items : List α) : Option α :=
  items.foldl (fun best item => some (best.elim item fun held => if key held ≤ key item then item else held)) none

/-- The usage that an object reports under the names of either API. -/
def usageFromObject (object : Json) : Option TokenUsage :=
  let input := (intField object "input_tokens").or (intField object "prompt_tokens")
  let output := (intField object "output_tokens").or (intField object "completion_tokens")
  let cacheRead := ((nestedIntField object "input_tokens_details" "cached_tokens").or
    ((nestedIntField object "prompt_tokens_details" "cached_tokens").or
    (intField object "cached_tokens"))).getD 0
  let cacheWrite := ((nestedIntField object "input_tokens_details" "cache_creation_tokens").or
    ((nestedIntField object "prompt_tokens_details" "cache_creation_tokens").or
    ((nestedIntField object "input_tokens_details" "cache_write_tokens").or
    (nestedIntField object "prompt_tokens_details" "cache_write_tokens")))).getD 0
  let reasoning := ((nestedIntField object "output_tokens_details" "reasoning_tokens").or
    ((nestedIntField object "completion_tokens_details" "reasoning_tokens").or
    (intField object "reasoning_tokens"))).getD 0
  -- The provider counts cached tokens as input; the counters here are disjoint.
  let input := max (saturatingSub (saturatingSub (input.getD 0) cacheRead) cacheWrite) 0
  let usage := TokenUsage.fromParts input cacheRead cacheWrite (output.getD 0) reasoning
  if usage.isEmpty then none else some usage

def findUsage : Nat → Json → List TokenUsage
  | 0, _ => []
  | depth + 1, .obj members =>
    (usageFromObject (.obj members)).toList ++ (((Json.obj members).get "usage").bind usageFromObject).toList ++
      members.flatMap (fun m => findUsage depth m.2)
  | depth + 1, .arr items => items.flatMap (findUsage depth)
  | _ + 1, _ => []

/-- The usage object with the largest total; final events tend to be cumulative. -/
def bestUsage (values : List Json) : Option TokenUsage :=
  maxByKey (·.totalTokens) (values.flatMap (findUsage maxParseDepth))

theorem maxByKey_eq_none {α κ : Type} [LE κ] [DecidableLE κ] {key : α → κ} {items : List α} :
    maxByKey key items = none ↔ items = [] := by
  constructor
  · intro h
    cases items using List.reverseRecOn with
    | nil => rfl
    | append_singleton items item =>
      rw [maxByKey, List.foldl_append, List.foldl_cons, List.foldl_nil] at h
      cases h
  · rintro rfl
    rfl

/-- The members that an OpenAI usage object is read from. -/
def usageKeys : List String :=
  ["usage", "input_tokens", "prompt_tokens", "output_tokens", "completion_tokens", "cached_tokens", "reasoning_tokens",
    "input_tokens_details", "prompt_tokens_details", "output_tokens_details", "completion_tokens_details"]

theorem usageFromObject_congr {object object' : Json} (h : ∀ key ∈ usageKeys, object.get key = object'.get key) :
    usageFromObject object = usageFromObject object' := by
  have hint := fun key hkey => intField_congr (h key hkey)
  have hnested := fun key hkey child => nestedIntField_congr (h key hkey) child
  simp only [usageKeys, List.forall_mem_cons, List.not_mem_nil, false_implies, implies_true, and_true] at hint hnested
  simp only [usageFromObject, hint, hnested]

/-- The search behind `find_usage`: an object's own counters, then those of its `usage` member. -/
def usageSearch : ObjectSearch TokenUsage where
  keys := usageKeys
  read object := (usageFromObject object).toList ++ ((object.get "usage").bind usageFromObject).toList
  read_congr := by
    intro object object' h
    rw [usageFromObject_congr h, h "usage" (by simp [usageKeys])]
  read_empty := rfl

theorem findUsage_eq (depth : Nat) (value : Json) : findUsage depth value = usageSearch.found depth value := by
  induction depth generalizing value with
  | zero => rw [ObjectSearch.found_zero, findUsage]
  | succ depth ih =>
    cases value with
    | obj members =>
      rw [findUsage, ObjectSearch.found_obj]
      simp only [ih]
      rfl
    | arr items =>
      rw [findUsage, ObjectSearch.found_arr, funext ih]
    | _ => rfl

/-- What a list of documents reports depends only on what the search finds in them. -/
theorem bestUsage_eq (values : List Json) :
    bestUsage values = maxByKey (·.totalTokens) (values.flatMap (usageSearch.found maxParseDepth)) := by
  rw [bestUsage]
  congr 2
  funext value
  exact findUsage_eq maxParseDepth value

end Usage

/-- Wire-level values extracted from one OpenAI-compatible interaction. -/
structure ParsedOpenAiExchange where
  generatesOutput : Option Bool
  sessionId : Str
  requestHash : Str
  requestConversation : Conversation
  responseConversation : Conversation
  requestImages : List ParsedImageAttachment
  usage : TokenUsage
  responseId : Option Str
  previousResponseId : Option Str
  clientMetadata : Option Json
  model : Option Str
  eventTypes : List Str

section Metadata

/-- `response.id` on a stream event, the top-level `id` of a whole document. -/
def responseId (values : List Json) : Option Str :=
  values.findSome? (fun value =>
    (if (value.get "type").isSome then (value.get "response").bind (·.get "id") else value.get "id").bind Json.asStr)

def firstModel (values : List Json) : Option Str := values.findSome? (collectStringField "model")

end Metadata

section Images
variable (decoding : ImageDecoding)

/-- `Some("input_image" | "image_url")`. -/
def isImageType (itemType : Option Str) : Bool :=
  itemType = some (lit "input_image") || itemType = some (lit "image_url")

def imageUrl (object : Json) : Option Str :=
  (object.get "image_url").bind (fun value => value.asStr <|> value.field "url")

/-- One input item: an image itself, or a user message with the images of its content. -/
def collectItem (collector : ImageCollector) (object : Json) (withContent : ImageCollector) : ImageCollector :=
  if isImageType object.kind then (imageUrl object).elim collector (collector.pushDataUrl decoding)
  else if object.field "role" = some (lit "user") then withContent
  else collector

mutual
/-- `collect_openai_input` and `collect_openai_content`. -/
def collectInput (collector : ImageCollector) : Json → ImageCollector
  | .arr items => collectItems collector items
  | .obj members => collectItem decoding collector (.obj members) (collectContent collector members)
  | _ => collector

def collectItems (collector : ImageCollector) : List Json → ImageCollector
  | [] => collector
  | .obj members :: rest =>
    let collector := collectItem decoding collector (.obj members) (collectContent collector members)
    if collector.isFull then collector else collectItems collector rest
  | _ :: rest => if collector.isFull then collector else collectItems collector rest

/-- The images of the `content` member. -/
def collectContent (collector : ImageCollector) : List (Str × Json) → ImageCollector
  | [] => collector
  | (key, value) :: rest => if key = lit "content" then collectInput collector value else collectContent collector rest
end

def extractOpenAiRequestImages (payload : Json) : List ParsedImageAttachment :=
  let collector := (payload.get "input").elim .empty (collectInput decoding .empty)
  ((payload.get "messages").elim collector (collectInput decoding collector)).attachments

end Images

end Abyss.AgentHook.OpenAi
