import Abyss.AgentHook.Event.Normalizer

/-! Validated images of provider requests and the bounded collector that decodes them. -/
namespace Abyss.AgentHook
open Abyss.Text Abyss.PluginProtocol

/-- `MAX_IMAGE_ATTACHMENTS_PER_EVENT`. -/
def maxImageAttachmentsPerEvent : Nat := 8

/-- `MAX_IMAGE_ATTACHMENT_BYTES_PER_EVENT`. -/
def maxImageAttachmentBytesPerEvent : Nat := 8 * 1024 * 1024

/-- `MAX_BASE64_IMAGE_CHARACTERS`. -/
def maxBase64ImageCharacters : Nat := 11184812

/-- The base64 decoder of the standard alphabet and the digest of decoded bytes. -/
structure ImageDecoding where
  base64 : Str → Option (List UInt8)
  sha256BytesHex : List UInt8 → Str

/-- `ImageMediaType::parse`. -/
def parseMediaType (value : Str) : Option ImageMediaType :=
  let name := toAsciiLowercase (trim value)
  if name = lit "image/png" then some .png
  else if name = lit "image/jpeg" ∨ name = lit "image/jpg" then some .jpeg
  else if name = lit "image/webp" then some .webp
  else if name = lit "image/gif" then some .gif
  else none

def matchesSignature (mediaType : ImageMediaType) (bytes : List UInt8) : Bool :=
  match mediaType with
  | .png => [0x89, 0x50, 0x4e, 0x47, 0x0d, 0x0a, 0x1a, 0x0a].isPrefixOf bytes
  | .jpeg => [0xff, 0xd8, 0xff].isPrefixOf bytes
  | .webp => 12 ≤ bytes.length && [0x52, 0x49, 0x46, 0x46].isPrefixOf bytes &&
      (bytes.drop 8).take 4 = [0x57, 0x45, 0x42, 0x50]
  | .gif => [0x47, 0x49, 0x46, 0x38, 0x37, 0x61].isPrefixOf bytes || [0x47, 0x49, 0x46, 0x38, 0x39, 0x61].isPrefixOf bytes

/-- Images decoded so far, within the limits of one event. -/
structure ImageCollector where
  attachments : List ParsedImageAttachment
  decodedBytes : Nat

namespace ImageCollector

def empty : ImageCollector := ⟨[], 0⟩

def isFull (collector : ImageCollector) : Bool :=
  maxImageAttachmentsPerEvent ≤ collector.attachments.length || maxImageAttachmentBytesPerEvent ≤ collector.decodedBytes

def pushBase64 (decoding : ImageDecoding) (collector : ImageCollector) (mediaType encoded : Str) : ImageCollector :=
  if collector.isFull then collector else
  match parseMediaType mediaType with
  | none => collector
  | some mediaType =>
    if maxBase64ImageCharacters < (toUtf8 encoded).length then collector else
    match decoding.base64 encoded with
    | none => collector
    | some bytes =>
      if bytes.isEmpty || maxImageAttachmentBytesPerEvent - collector.decodedBytes < bytes.length ||
          !matchesSignature mediaType bytes then collector
      else ⟨collector.attachments ++ [⟨mediaType, bytes, decoding.sha256BytesHex bytes⟩],
        collector.decodedBytes + bytes.length⟩

def pushDataUrl (decoding : ImageDecoding) (collector : ImageCollector) (dataUrl : Str) : ImageCollector :=
  if !startsWith dataUrl (lit "data:") then collector else
  let value := dataUrl.drop 5
  if ',' ∉ value then collector else
  match (value.takeWhile (· ≠ ',')).splitOn ';' with
  | [] => collector
  | mediaType :: parts =>
    if parts.any (eqIgnoreAsciiCase · (lit "base64")) then
      collector.pushBase64 decoding mediaType ((value.dropWhile (· ≠ ',')).drop 1)
    else collector

end ImageCollector
end Abyss.AgentHook
