import Abyss.Text.JsonCodec

/-! Version negotiation and broker control payloads of the plugin protocol. -/
namespace Abyss.PluginProtocol
open Abyss.Text

/-- `MAX_JSON_FRAME_BYTES`. -/
def maxJsonFrameBytes : Nat := 64 * 1024 * 1024

inductive PluginProtocolVersion where
  | v1
  deriving DecidableEq, Repr

def PluginProtocolVersion.wireValue : PluginProtocolVersion → UInt16
  | .v1 => 1

def PluginProtocolVersion.tryFrom (version : UInt16) : Option PluginProtocolVersion :=
  if version = 1 then some .v1 else none

def PluginProtocolVersion.codec : JsonCodec PluginProtocolVersion := JsonCodec.u16.convert wireValue tryFrom

theorem PluginProtocolVersion.codec_reads (version : PluginProtocolVersion) : codec.Reads version version := by
  cases version
  exact JsonCodec.convert_reads (JsonCodec.u16_reads 1) rfl

structure PluginHello where
  protocolVersion : PluginProtocolVersion
  pluginId : Str
  deriving DecidableEq, Repr

def PluginHello.new (pluginId : Str) : PluginHello := ⟨.v1, pluginId⟩

structure BrokerHello where
  protocolVersion : PluginProtocolVersion
  deriving DecidableEq, Repr

structure BrokerError where
  code : UInt32
  reason : Str
  deriving DecidableEq, Repr

structure BrokerClose where
  code : UInt32
  reason : Str
  deriving DecidableEq, Repr

inductive BrokerErrorCode where
  | unsupportedProtocolVersion | invalidHandshake | resourceLimit
  deriving DecidableEq, Repr

def BrokerErrorCode.wireValue : BrokerErrorCode → UInt32
  | .unsupportedProtocolVersion => 1
  | .invalidHandshake => 2
  | .resourceLimit => 3

inductive BrokerCloseCode where
  | brokerShutdown | eventStreamTooSlow
  deriving DecidableEq, Repr

def BrokerCloseCode.wireValue : BrokerCloseCode → UInt32
  | .brokerShutdown => 100
  | .eventStreamTooSlow => 101

def BrokerError.new (code : BrokerErrorCode) (reason : Str) : BrokerError := ⟨code.wireValue, reason⟩

def BrokerClose.new (code : BrokerCloseCode) (reason : Str) : BrokerClose := ⟨code.wireValue, reason⟩

section Codecs
open JsonFields JsonField

def BrokerHello.fields := cons (required "protocol_version".toList PluginProtocolVersion.codec) nil

def BrokerHello.codec : JsonCodec BrokerHello := fields.struct (fun h => (h.protocolVersion, ())) (fun p => ⟨p.1⟩)

def PluginHello.codec : JsonCodec PluginHello :=
  (cons (required "protocol_version".toList PluginProtocolVersion.codec)
    (cons (required "plugin_id".toList .string) nil)).struct (fun h => (h.protocolVersion, h.pluginId, ()))
    (fun p => ⟨p.1, p.2.1⟩)

/-- The members that a rejection and a deliberate close share. -/
def controlFields := cons (required "code".toList JsonCodec.u32) (cons (required "reason".toList .string) nil)

def BrokerError.codec : JsonCodec BrokerError :=
  controlFields.struct (fun e => (e.code, e.reason, ())) (fun p => ⟨p.1, p.2.1⟩)

def BrokerClose.codec : JsonCodec BrokerClose :=
  controlFields.struct (fun c => (c.code, c.reason, ())) (fun p => ⟨p.1, p.2.1⟩)

theorem BrokerHello.codec_reads (hello : BrokerHello) : codec.Reads hello hello := by
  apply struct_reads rfl
  exact cons_reads (by decide) (required_reads (PluginProtocolVersion.codec_reads _)) nil_reads

theorem PluginHello.codec_reads (hello : PluginHello) : codec.Reads hello hello := by
  apply struct_reads rfl
  apply cons_reads (by decide) (required_reads (PluginProtocolVersion.codec_reads _))
  exact cons_reads (by decide) (required_reads (JsonCodec.string_reads _)) nil_reads

theorem controlFields_reads (code : UInt32) (reason : Str) : controlFields.Reads (code, reason, ()) (code, reason, ()) := by
  apply cons_reads (by decide) (required_reads (JsonCodec.u32_reads code))
  exact cons_reads (by decide) (required_reads (JsonCodec.string_reads reason)) nil_reads

theorem BrokerError.codec_reads (error : BrokerError) : codec.Reads error error := by
  apply struct_reads rfl
  exact controlFields_reads error.code error.reason

theorem BrokerClose.codec_reads (close : BrokerClose) : codec.Reads close close := by
  apply struct_reads rfl
  exact controlFields_reads close.code close.reason

end Codecs

section Shapes
open JsonFields

/-- No handshake response is read as the other one. -/
theorem BrokerError.not_hello (error : BrokerError) : BrokerHello.codec.fromJson (BrokerError.codec.toJson error) = none :=
  @struct_foreign _ _ BrokerHello.fields _ _ _ "code".toList _ List.mem_cons_self (by decide)

theorem BrokerHello.not_error (hello : BrokerHello) : BrokerError.codec.fromJson (BrokerHello.codec.toJson hello) = none :=
  @struct_foreign _ _ controlFields _ _ _ "protocol_version".toList _ List.mem_cons_self (by decide)

end Shapes
end Abyss.PluginProtocol
