import Abyss.PluginProtocol.Event

/-! What a written event is read as: itself, up to a provider that repeats a built-in name. -/
namespace Abyss.PluginProtocol
open Abyss.Text JsonFields JsonField
variable {Time : Type} {time : Rfc3339 Time}

/-- The provider that the wire name stands for. -/
def LlmProvider.normalized (provider : LlmProvider) : LlmProvider := fromWireName provider.wireName

def LlmContext.normalized (llm : LlmContext) : LlmContext := { llm with provider := llm.provider.normalized }

def AgentEvent.normalized (event : AgentEvent Time) : AgentEvent Time := { event with llm := event.llm.normalized }

section Provider
variable {name : Str}

private theorem fromWireName_openai (h : name = "openai".toList) : LlmProvider.fromWireName name = .openAi := by
  rw [LlmProvider.fromWireName, if_pos h]

private theorem fromWireName_anthropic (hne : name ≠ "openai".toList) (h : name = "anthropic".toList) :
    LlmProvider.fromWireName name = .anthropic := by
  rw [LlmProvider.fromWireName, if_neg hne, if_pos h]

private theorem fromWireName_other (h₁ : name ≠ "openai".toList) (h₂ : name ≠ "anthropic".toList) :
    LlmProvider.fromWireName name = .other name := by
  rw [LlmProvider.fromWireName, if_neg h₁, if_neg h₂]

private theorem anthropic_ne_openai : "anthropic".toList ≠ "openai".toList := by decide

theorem LlmProvider.normalized_eq {provider : LlmProvider} (hopenai : provider ≠ .other "openai".toList)
    (hanthropic : provider ≠ .other "anthropic".toList) : provider.normalized = provider := by
  cases provider with
  | openAi => exact fromWireName_openai rfl
  | anthropic => exact fromWireName_anthropic anthropic_ne_openai rfl
  | other name => exact fromWireName_other (fun h => hopenai (congrArg _ h)) (fun h => hanthropic (congrArg _ h))

end Provider

section Variants

theorem ContentCategory.codec_reads (c : ContentCategory) : codec.Reads c c := by
  apply JsonCodec.variants_reads
  cases c <;> decide

theorem EventPurpose.codec_reads (p : EventPurpose) : codec.Reads p p := by
  apply JsonCodec.variants_reads
  cases p <;> decide

theorem AgentEventSide.codec_reads (s : AgentEventSide) : codec.Reads s s := by
  apply JsonCodec.variants_reads
  cases s <;> decide

theorem ImageMediaType.codec_reads (m : ImageMediaType) : codec.Reads m m := by
  apply JsonCodec.variants_reads
  cases m <;> decide

theorem EntryRole.codec_reads (r : EntryRole) : codec.Reads r r := by
  apply JsonCodec.variants_reads
  cases r <;> decide

theorem ContentCompleteness.codec_reads (c : ContentCompleteness) : codec.Reads c c := by
  apply JsonCodec.variants_reads
  cases c <;> decide

end Variants

section Structs

theorem text_reads {name : Str} (s : Option Str) : (optional name .string).Reads s s :=
  optional_reads (fun x _ => ⟨JsonCodec.string_reads x, fun h => by cases h⟩)

theorem Rfc3339.codec_reads (t : Time) : time.codec.Reads t t :=
  JsonCodec.convert_reads (JsonCodec.string_reads (time.format t)) (time.parse_format t)

theorem LlmProvider.codec_reads (p : LlmProvider) : codec.Reads p p.normalized :=
  JsonCodec.convert_reads (JsonCodec.string_reads p.wireName) rfl

theorem HttpHeaderWire.codec_reads (w : HttpHeaderWire) : codec.Reads w w := by
  apply struct_reads rfl
  apply cons_reads (by decide) (required_reads (JsonCodec.string_reads _))
  apply cons_reads (by decide) (text_reads _)
  exact cons_reads (by decide) (text_reads _) nil_reads

theorem HttpHeader.codec_reads (h : HttpHeader) : codec.Reads h h := by
  apply JsonCodec.convert_reads (HttpHeaderWire.codec_reads h.toWire)
  obtain ⟨name, value⟩ := h
  cases value <;> rfl

theorem DeviceContext.codec_reads (d : DeviceContext) : codec.Reads d d := by
  apply struct_reads rfl
  apply cons_reads (by decide) (required_reads (JsonCodec.string_reads _))
  apply cons_reads (by decide) (required_reads (JsonCodec.string_reads _))
  exact cons_reads (by decide) (text_reads _) nil_reads

theorem AgentContext.codec_reads (a : AgentContext) : codec.Reads a a := by
  apply struct_reads rfl
  apply cons_reads (by decide) (required_reads (JsonCodec.string_reads _))
  exact cons_reads (by decide) (text_reads _) nil_reads

theorem LlmContext.codec_reads (l : LlmContext) : codec.Reads l l.normalized := by
  apply struct_reads rfl
  apply cons_reads (by decide) (required_reads (LlmProvider.codec_reads _))
  exact cons_reads (by decide) (required_reads (JsonCodec.string_reads _)) nil_reads

theorem TokenUsage.codec_reads (t : TokenUsage) : codec.Reads t t := by
  apply struct_reads rfl
  apply cons_reads (by decide) (required_reads (JsonCodec.u64_reads _))
  apply cons_reads (by decide) (required_reads (JsonCodec.u64_reads _))
  apply cons_reads (by decide) (required_reads (JsonCodec.u64_reads _))
  apply cons_reads (by decide) (required_reads (JsonCodec.u64_reads _))
  apply cons_reads (by decide) (required_reads (JsonCodec.u64_reads _))
  exact cons_reads (by decide) (required_reads (JsonCodec.u64_reads _)) nil_reads

theorem ImageAttachment.codec_reads (a : ImageAttachment) : codec.Reads a a := by
  apply struct_reads rfl
  apply cons_reads (by decide) (required_reads (JsonCodec.u32_reads _))
  apply cons_reads (by decide) (required_reads (ImageMediaType.codec_reads _))
  apply cons_reads (by decide) (required_reads (JsonCodec.u64_reads _))
  apply cons_reads (by decide) (required_reads (JsonCodec.string_reads _))
  exact cons_reads (by decide) (text_reads _) nil_reads

theorem ConversationEntry.codec_reads (e : ConversationEntry) : codec.Reads e e := by
  apply struct_reads rfl
  apply cons_reads (by decide) (required_reads (EntryRole.codec_reads _))
  apply cons_reads (by decide) (required_reads (JsonCodec.string_reads _))
  apply cons_reads (by decide) (text_reads _)
  apply cons_reads (by decide) (text_reads _)
  exact cons_reads (by decide) (text_reads _) nil_reads

theorem Conversation.codec_reads (c : Conversation) : codec.Reads c c := by
  apply struct_reads rfl
  apply cons_reads (by decide) (required_reads (JsonCodec.list_reads (fun e _ => ConversationEntry.codec_reads e)))
  exact cons_reads (by decide) (required_reads (ContentCompleteness.codec_reads _)) nil_reads

/-- Every event is read back, its provider under the name it has on the wire. -/
theorem AgentEvent.codec_reads (e : AgentEvent Time) : (codec time).Reads e e.normalized := by
  apply struct_reads rfl
  apply cons_reads (by simp only [cons, required]; decide) (required_reads (JsonCodec.string_reads _))
  apply cons_reads (by simp only [cons, required]; decide) (required_reads (Rfc3339.codec_reads _))
  apply cons_reads (by decide) (required_reads (DeviceContext.codec_reads _))
  apply cons_reads (by decide) (required_reads (AgentContext.codec_reads _))
  apply cons_reads (by decide) (required_reads (JsonCodec.string_reads _))
  iterate 5 apply cons_reads (by decide) (text_reads _)
  apply cons_reads (by decide) (optional_reads (fun p _ => ⟨EventPurpose.codec_reads p, fun h => by cases h⟩))
  apply cons_reads (by decide) (required_reads (LlmContext.codec_reads _))
  apply cons_reads (by decide) (required_reads (AgentEventSide.codec_reads _))
  apply cons_reads (by decide) (listed_reads (fun c _ => ContentCategory.codec_reads c))
  apply cons_reads (by decide) (optional_reads (fun c _ => ⟨Conversation.codec_reads c, fun h => by cases h⟩))
  apply cons_reads (by decide) (required_reads (JsonCodec.string_reads _))
  apply cons_reads (by decide) (listed_reads (fun h _ => HttpHeader.codec_reads h))
  apply cons_reads (by decide) (required_reads (TokenUsage.codec_reads _))
  exact cons_reads (by decide) (listed_reads (fun a _ => ImageAttachment.codec_reads a)) nil_reads

end Structs
end Abyss.PluginProtocol
