import Abyss.PluginProtocol.Event
import Abyss.Text.Json

/-! Text extraction from provider documents and the constructors of public conversation
entries. -/
namespace Abyss.AgentHook
open Abyss.Text Abyss.PluginProtocol

/-- The lowercase hex SHA-256 digest of a text. -/
structure Digest where
  sha256Hex : Str → Str

/-- `MAX_PARSE_DEPTH`. -/
def maxParseDepth : Nat := 12

def nonEmptyTrimmed (value : Str) : Option Str := if trim value = [] then none else some (trim value)

/-- The visible text of a value; an object whose `type` satisfies `isTool` has none. -/
def visibleText (isTool : Str → Bool) : Nat → Json → Option Str
  | 0, _ => none
  | _ + 1, .str text => nonEmptyTrimmed text
  | depth + 1, .arr items => nonEmptyTrimmed (join (lit "\n") (items.filterMap (visibleText isTool depth)))
  | depth + 1, .obj members =>
    let object := Json.obj members
    if object.kind.any isTool then none else
    (object.get "text" <|> object.get "content" <|> object.get "input" <|> object.get "output_text").bind
      (visibleText isTool depth)
  | _ + 1, _ => none

/-- A trimmed text that is kept is not blank. -/
theorem trim_ne_nil {value shown : Str} (h : nonEmptyTrimmed value = some shown) : shown ≠ [] ∧ trim shown ≠ [] := by
  unfold nonEmptyTrimmed at h
  split at h
  · cases h
  · rename_i hne
    obtain rfl := Option.some.inj h
    refine ⟨hne, fun hblank => ?_⟩
    have hlast : ¬ isWhitespace ((trim value).getLast hne) = true := List.rdropWhile_last_not _ _ hne
    apply hlast
    have hdropped : ∀ c ∈ (trim value).dropWhile isWhitespace, isWhitespace c = true := List.rdropWhile_eq_nil_iff.mp hblank
    have hnil : (trim value).dropWhile isWhitespace = [] := by
      by_contra hcontra
      have hhead := List.head_dropWhile_not isWhitespace hcontra
      rw [hdropped _ (List.head_mem hcontra)] at hhead
      cases hhead
    exact List.dropWhile_eq_nil_iff.mp hnil _ (List.getLast_mem hne)

/-- Visible text is never blank. -/
theorem visibleText_not_blank {isTool : Str → Bool} {depth : Nat} {value : Json} {shown : Str}
    (h : visibleText isTool depth value = some shown) : shown ≠ [] ∧ trim shown ≠ [] := by
  induction depth generalizing value with
  | zero => cases value <;> cases h
  | succ depth ih =>
    cases value with
    | str text => exact trim_ne_nil h
    | arr items => exact trim_ne_nil h
    | obj members =>
      simp only [visibleText] at h
      split at h
      · cases h
      · obtain ⟨child, _, hchild⟩ := Option.bind_eq_some_iff.mp h
        exact ih hchild
    | null => cases h
    | bool => cases h
    | num => cases h

def jsonToText (value : Json) (depth : Nat) : Option Str := visibleText (fun _ => false) depth value

namespace ConversationProjection

def empty : Conversation := ⟨[], .complete⟩

/-- The decoding state of one side; truncation outranks decoding. -/
def completeness (decoded truncated : Bool) : ContentCompleteness :=
  if truncated then .partially else if decoded then .complete else .unsupported

/-- Downgrade a completely decoded conversation after a decoding failure. -/
def markPartial (conversation : Conversation) : Conversation :=
  if conversation.completeness = .complete then { conversation with completeness := .partially } else conversation

/-- The entry role of a provider message role. -/
def role (value : Str) : EntryRole :=
  let name := toAsciiLowercase (trim value)
  if name = lit "system" then .system
  else if name = lit "developer" then .developer
  else if name = lit "user" ∨ name = lit "human" then .user
  else if name = lit "assistant" then .assistant
  else if name = lit "tool" ∨ name = lit "function" then .toolResult
  else .unknown

def text (role : EntryRole) (text : Str) : ConversationEntry := ⟨role, text, none, none, none⟩

def toolCall (callId name : Option Str) (input : Str) : ConversationEntry := ⟨.toolCall, input, callId, name, none⟩

def toolResult (callId : Option Str) (output : Str) : ConversationEntry := ⟨.toolResult, output, callId, none, none⟩

/-- Give every entry of one item that item's identity. -/
def identify (entries : List ConversationEntry) (itemId : Option Str) : List ConversationEntry :=
  entries.map (fun entry => { entry with itemId })

/-- A string as sent, or the compact JSON of any other value. -/
def verbatim : Json → Str
  | .str text => text
  | .null => []
  | value => value.text

end ConversationProjection
end Abyss.AgentHook
