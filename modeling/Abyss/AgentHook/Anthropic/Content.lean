import Abyss.AgentHook.Conversation
import Abyss.Data.TreeMap

/-! Anthropic content blocks, the request history, and the assembly of a response from whole or
streamed documents. -/
namespace Abyss.AgentHook.Anthropic
open Abyss.Text Abyss.PluginProtocol Abyss.Data

/-- A block type that carries tool calls or tool results. -/
def isToolBlock (blockType : Str) : Bool :=
  blockType = lit "tool_use" || blockType = lit "tool_result" || endsWith blockType (lit "_tool_use") ||
    endsWith blockType (lit "_tool_result")

/-- The visible text of a content value, skipping tool blocks. -/
def contentText (value : Json) (depth : Nat) : Option Str := visibleText isToolBlock depth value

def toolResultPart (value : Json) : Option Str :=
  if value.asObject = none then none
  else if value.kind = some (lit "image") then
    let mediaType := (((value.get "source").filter (fun s => s.asObject.isSome)).bind (·.field "media_type")).getD
      (lit "unknown")
    some (lit "[image attachment: " ++ mediaType ++ lit "]")
  else jsonToText value maxParseDepth <|> some value.text

/-- The text of a `tool_result` block's `content`. -/
def toolResultOutput (content : Json) : Str :=
  match content with
  | .str text => text
  | .arr items => join (lit "\n") (items.filterMap toolResultPart)
  | .obj _ => (toolResultPart content).getD []
  | _ => []

/-- One content block, classified by the block-to-role table. -/
inductive ContentBlock where
  | text (text : Str)
  | reasoning (text signature : Str)
  | toolCall (callId name : Option Str) (input streamedInput : Str)
  | toolResult (callId : Option Str) (output : Str)
  | other (text : Option Str)
  deriving DecidableEq, Repr

namespace ContentBlock

def fromValue (block : Json) : ContentBlock :=
  match block with
  | .str content => .text content
  | block =>
    if block.kind = some (lit "text") then .text ((block.field "text").getD [])
    else if block.kind = some (lit "thinking") then
      .reasoning ((block.field "thinking").getD []) ((block.field "signature").getD [])
    else if block.kind = some (lit "redacted_thinking") then .reasoning [] ((block.field "data").getD [])
    else if block.kind = some (lit "tool_use") ∨ block.kind = some (lit "server_tool_use") ∨
        block.kind = some (lit "mcp_tool_use") then
      .toolCall (block.field "id") (block.field "name")
        (((block.get "input").map ConversationProjection.verbatim).getD []) []
    else if block.kind.any (fun kind => kind = lit "tool_result" || endsWith kind (lit "_tool_result")) then
      .toolResult (block.field "tool_use_id") (((block.get "content").map toolResultOutput).getD [])
    else .other (contentText block maxParseDepth)

/-- A block after one `content_block_delta`: a delta of another type leaves it, and a delta whose
start was not captured starts it. -/
def pushDelta (block : Option ContentBlock) (delta : Json) : Option ContentBlock :=
  let fragment key := (delta.field key).getD []
  let kind := delta.field "type"
  match block with
  | some (.text shown) => some (.text (if kind = some (lit "text_delta") then shown ++ fragment "text" else shown))
  | some (.reasoning thought signature) =>
    some (
      if kind = some (lit "thinking_delta") then .reasoning (thought ++ fragment "thinking") signature
      else if kind = some (lit "signature_delta") then .reasoning thought (signature ++ fragment "signature")
      else .reasoning thought signature)
  | some (.toolCall callId name input streamed) =>
    some (.toolCall callId name input
      (if kind = some (lit "input_json_delta") then streamed ++ fragment "partial_json" else streamed))
  | some (.toolResult callId output) => some (.toolResult callId output)
  | some (.other shown) => some (.other shown)
  | none =>
    if kind = some (lit "text_delta") then some (.text (fragment "text"))
    else if kind = some (lit "thinking_delta") then some (.reasoning (fragment "thinking") [])
    else if kind = some (lit "signature_delta") then some (.reasoning [] (fragment "signature"))
    else if kind = some (lit "input_json_delta") then some (.toolCall none none [] (fragment "partial_json"))
    else none

end ContentBlock

/-- The identity of a thinking block, or none when it carries no signature. -/
def thinkingIdentity (digest : Digest) (signature : Str) : Option Str :=
  if signature = [] then none else some (lit "thinking:" ++ digest.sha256Hex signature)

/-- The block's entry; an unrecognized block without text has none. -/
def ContentBlock.entry (digest : Digest) (role : EntryRole) : ContentBlock → Option ConversationEntry
  | .text shown => some (ConversationProjection.text role shown)
  | .reasoning thought signature =>
    some { ConversationProjection.text .reasoning thought with itemId := thinkingIdentity digest signature }
  | .toolCall callId name input streamed =>
    some (ConversationProjection.toolCall callId name (if streamed = [] then input else streamed))
  | .toolResult callId output => some (ConversationProjection.toolResult callId output)
  | .other shown => shown.map (ConversationProjection.text role)

/-- The blocks of a content value. -/
def blocks : Json → List ContentBlock
  | .arr items => items.map ContentBlock.fromValue
  | .null => []
  | value => [ContentBlock.fromValue value]

/-- One entry per block, in order. -/
def entries (digest : Digest) (blocks : List ContentBlock) (role : EntryRole) : List ConversationEntry :=
  blocks.filterMap (ContentBlock.entry digest role)

structure AnthropicRequest where
  entries : List ConversationEntry
  completeness : ContentCompleteness

/-- The entries of one message of the history. -/
def messageEntries (digest : Digest) (message : Json) : List ConversationEntry :=
  let role := ((message.field "role").map ConversationProjection.role).getD .unknown
  entries digest (blocks ((message.get "content").getD .null)) role

def AnthropicRequest.parse (digest : Digest) (payload : Json) (truncated : Bool) : AnthropicRequest where
  entries :=
    ((payload.get "system").map (fun system => Anthropic.entries digest (blocks system) .system)).getD [] ++
    (((payload.field "prompt").filter (fun prompt => (nonEmptyTrimmed prompt).isSome)).map
      (ConversationProjection.text .user)).toList ++
    ((payload.get "input").map (fun input =>
      Anthropic.entries digest (blocks input) (if input.asStr.isSome then .user else .unknown))).getD [] ++
    (((payload.get "messages").bind Json.asArray).getD []).flatMap (messageEntries digest)
  completeness := ConversationProjection.completeness true truncated

structure AnthropicResponse where
  id : Option Str
  entries : List ConversationEntry
  completeness : ContentCompleteness

/-- What `assemble` has read so far. -/
structure Assembly where
  blocks : TreeMap ContentBlock
  snapshot : Option (List ContentBlock)
  id : Option Str

/-- The blocks of a whole message, by position. -/
def insertBlocks (blocks : TreeMap ContentBlock) (content : List Json) : TreeMap ContentBlock :=
  content.zipIdx.foldl (fun blocks p => blocks.insert p.2 (.fromValue p.1)) blocks

def Assembly.applyMessage (a : Assembly) (value : Json) : Assembly :=
  match value.get "message" with
  | none => a
  | some message =>
    { a with
      id := (message.index "id").asStr <|> a.id
      blocks := match (message.index "content").asArray with
        | some content => insertBlocks a.blocks content
        | none => a.blocks }

def Assembly.applySnapshot (a : Assembly) (value : Json) : Assembly :=
  match (value.get "content").bind Json.asArray with
  | none => a
  | some content =>
    { a with snapshot := some (content.map .fromValue), id := (value.index "id").asStr <|> a.id }

/-- The block that a stream event addresses, after the event. -/
def Assembly.applyEvent (a : Assembly) (value : Json) : Assembly :=
  let index := ((value.index "index").asU64.getD 0).toNat
  if value.field "type" = some (lit "content_block_start") then
    match value.get "content_block" with
    | some block => { a with blocks := a.blocks.insert index (.fromValue block) }
    | none => a
  else if value.field "type" = some (lit "content_block_delta") then
    { a with blocks := a.blocks.alter index (ContentBlock.pushDelta · (value.index "delta")) }
  else match value.field "completion" with
    | some completion =>
      { a with blocks := a.blocks.alter 0 (fun
        | some (.text text) => some (.text (text ++ completion))
        | none => some (.text completion)
        | block => block) }
    | none => a

def Assembly.apply (a : Assembly) (value : Json) : Assembly := ((a.applyMessage value).applySnapshot value).applyEvent value

def Assembly.result (a : Assembly) : List ContentBlock := a.snapshot.getD a.blocks.values

def AnthropicResponse.assemble (digest : Digest) (values : List Json) (incomplete : Bool) : AnthropicResponse :=
  let a := values.foldl Assembly.apply ⟨∅, none, none⟩
  { entries := Anthropic.entries digest a.result .assistant
    id := a.id
    completeness := ConversationProjection.completeness (!values.isEmpty) incomplete }

end Abyss.AgentHook.Anthropic
