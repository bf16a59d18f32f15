import Abyss.Mitm.Types
import Abyss.PluginProtocol.Message
import Abyss.Stream.Polled

/-! The length-prefixed JSON frames of the plugin protocol. The broker and the SDK have the same codec. -/
namespace Abyss.PluginProtocol
open Abyss.Text Abyss.Stream
open Abyss.Mitm (Bytes ErrorKind Writer)

/-- `FRAME_HEADER_BYTES`. -/
def frameHeaderBytes : Nat := 4

def u32Max : Nat := 2 ^ 32 - 1

inductive PluginFrameError where
  | payloadTooLarge (length maximum : Nat)
  | unexpectedEof (part : String)
  | io (operation : String) (source : ErrorKind)
  deriving DecidableEq, Repr

abbrev Socket := Polled UInt8 ErrorKind

section Header

/-- `u32::to_be_bytes`. -/
def headerBytes (payloadLength : Nat) : Bytes :=
  [.ofNat (payloadLength / 2 ^ 24), .ofNat (payloadLength / 2 ^ 16), .ofNat (payloadLength / 2 ^ 8), .ofNat payloadLength]

/-- `u32::from_be_bytes`. -/
def fromBeBytes (header : Bytes) : Nat := header.foldl (fun n b => n * 2 ^ 8 + b.toNat) 0

def validatePayloadLength (payloadLength : Nat) : Except PluginFrameError Unit :=
  if maxJsonFrameBytes < payloadLength then .error (.payloadTooLarge payloadLength maxJsonFrameBytes) else .ok ()

/-- The announced length, which always fits `usize`. -/
def payloadLength (header : Bytes) : Except PluginFrameError Nat := do
  validatePayloadLength (fromBeBytes header)
  .ok (fromBeBytes header)

theorem fromBeBytes_headerBytes {n : Nat} (h : n ≤ u32Max) : fromBeBytes (headerBytes n) = n := by
  simp only [fromBeBytes, headerBytes, List.foldl_cons, List.foldl_nil, UInt8.toNat_ofNat', u32Max] at *
  omega

theorem payloadLength_headerBytes {n : Nat} (h : n ≤ maxJsonFrameBytes) : payloadLength (headerBytes n) = .ok n := by
  have hfits : n ≤ u32Max := Nat.le_trans h (by decide)
  simp only [payloadLength, fromBeBytes_headerBytes hfits, validatePayloadLength, if_neg (Nat.not_lt.mpr h)]
  rfl

/-- A payload behind its length. -/
def frame (payload : Bytes) : Bytes := headerBytes payload.length ++ payload

theorem length_frame (payload : Bytes) : (frame payload).length = frameHeaderBytes + payload.length := by
  rw [frame, List.length_append]
  rfl

end Header

section Write
variable {α : Type}

/-- Serialize and write one payload. -/
def writeJson (codec : JsonCodec α) (writer : Writer) (value : α) : Except PluginFrameError Unit × Writer :=
  let payload := (codec.toJson value).toVec
  if u32Max < payload.length then (.error (.payloadTooLarge u32Max maxJsonFrameBytes), writer)
  else match validatePayloadLength payload.length with
    | .error e => (.error e, writer)
    | .ok () =>
      match writer.writeAll .writeZero (headerBytes payload.length) with
      | (some e, writer) => (.error (.io "write plugin frame header" e), writer)
      | (none, writer) =>
        match writer.writeAll .writeZero payload with
        | (some e, writer) => (.error (.io "write plugin frame payload" e), writer)
        | (none, writer) => (.ok (), writer)

/-- A payload within the limit is written as one frame. -/
theorem writeJson_ok {codec : JsonCodec α} {writer : Writer} {value : α}
    (hfits : (codec.toJson value).toVec.length ≤ maxJsonFrameBytes) (hwrites : writer.WritesSucceed) :
    ∃ writer', writeJson codec writer value = (.ok (), writer') ∧ writer'.WritesSucceed ∧
      writer'.accepted = writer.accepted ++ frame (codec.toJson value).toVec := by
  have hbound : ¬ u32Max < (codec.toJson value).toVec.length := by
    have hmax : maxJsonFrameBytes ≤ u32Max := by decide
    omega
  obtain ⟨next, hheader, hnext⟩ := hwrites.writeAll .writeZero (headerBytes (codec.toJson value).toVec.length)
  obtain ⟨last, hpayload, hlast⟩ := hnext.writeAll .writeZero (codec.toJson value).toVec
  refine ⟨last, ?_, hlast, ?_⟩
  · simp only [writeJson, hbound, if_false, validatePayloadLength, Nat.not_lt.mpr hfits, hheader, hpayload]
  · rw [Sink.writeAll_none hpayload, Sink.writeAll_none hheader, frame, List.append_assoc]

/-- A payload beyond the limit is not written at all. -/
theorem writeJson_long {codec : JsonCodec α} {writer : Writer} {value : α}
    (hlong : maxJsonFrameBytes < (codec.toJson value).toVec.length) : ∃ e, writeJson codec writer value = (.error e, writer) := by
  unfold writeJson
  simp only
  split
  · exact ⟨_, rfl⟩
  · simp [validatePayloadLength, hlong]

end Write

section Read

def mapReadError (part : String) (source : ErrorKind) : PluginFrameError :=
  if source = .unexpectedEof then .unexpectedEof part else .io "read plugin frame" source

def readHeader (reader : Socket) : Except PluginFrameError (Option Bytes) × Socket :=
  match (Polled.read 1).await reader with
  | (.error e, reader) => (.error (.io "read plugin frame header" e), reader)
  | (.ok first, reader) =>
    if first.length = 0 then (.ok none, reader) else
    match reader.readExact .unexpectedEof (frameHeaderBytes - 1) with
    | (.error e, reader) => (.error (mapReadError "header" e), reader)
    | (.ok rest, reader) => (.ok (some (first ++ rest)), reader)

/-- Read one complete payload; `none` for an end at a frame boundary. -/
def readPayload (reader : Socket) : Except PluginFrameError (Option Bytes) × Socket :=
  match readHeader reader with
  | (.error e, reader) => (.error e, reader)
  | (.ok none, reader) => (.ok none, reader)
  | (.ok (some header), reader) =>
    match payloadLength header with
    | .error e => (.error e, reader)
    | .ok n =>
      match reader.readExact .unexpectedEof n with
      | (.error e, reader) => (.error (mapReadError "payload" e), reader)
      | (.ok payload, reader) => (.ok (some payload), reader)

/-- What reading one header can come to. -/
inductive ReadsHeader (reader : Socket) : Except PluginFrameError (Option Bytes) → Socket → Prop
  | header {reader' : Socket} (hlength : frameHeaderBytes ≤ reader.contents.length)
    (hcontents : reader'.contents = reader.contents.drop frameHeaderBytes) (hending : reader'.ending = reader.ending) :
    ReadsHeader reader (.ok (some (reader.contents.take frameHeaderBytes))) reader'
  | ended {reader' : Socket} (hlength : reader.contents.length < frameHeaderBytes) : ReadsHeader reader (.ok none) reader'
  | failed {reader' : Socket} {e : PluginFrameError} (hlength : reader.contents.length < frameHeaderBytes) :
    ReadsHeader reader (.error e) reader'

theorem readHeader_reads (reader : Socket) : ReadsHeader reader (readHeader reader).1 (readHeader reader).2 := by
  have hread := @Polled.read_delivers _ _ reader 1 Nat.one_pos
  rw [readHeader]
  generalize (Polled.read 1).await reader = answer at hread ⊢
  obtain ⟨result, next⟩ := answer
  change Polled.Delivers 1 reader result next at hread
  cases hread with
  | ended hcontents hending => exact .ended (by rw [hcontents]; exact Nat.zero_lt_succ _)
  | failed hcontents hending => exact .failed (by rw [hcontents]; exact Nat.zero_lt_succ _)
  | @items item items _ hcap hcontents hending =>
    obtain rfl := List.eq_nil_of_length_eq_zero (Nat.lt_one_iff.mp hcap)
    have hlength : reader.contents.length = next.contents.length + 1 := by simp [hcontents]
    simp only [List.length_cons, List.length_nil, Nat.zero_add, Nat.one_ne_zero, if_false]
    by_cases hshort : next.contents.length < frameHeaderBytes - 1
    · have hexact := next.readExact_short .unexpectedEof _ hshort
      generalize next.readExact .unexpectedEof (frameHeaderBytes - 1) = answer at hexact ⊢
      obtain ⟨result, reader'⟩ := answer
      obtain rfl : result = _ := hexact
      exact .failed (by omega)
    · obtain ⟨reader', hexact, hcontents', hending'⟩ :=
        next.readExact_ok .unexpectedEof (frameHeaderBytes - 1) (Nat.not_lt.mp hshort)
      have htake : reader.contents.take frameHeaderBytes = [item] ++ next.contents.take (frameHeaderBytes - 1) := by
        rw [hcontents]
        rfl
      simp only [hexact, ← htake]
      exact .header (by omega) (by rw [hcontents', hcontents]; rfl) (hending'.trans hending)

/-- A payload uses up the stream that it is read from. -/
theorem readPayload_shrinks {reader reader' : Socket} {payload : Bytes} (h : readPayload reader = (.ok (some payload), reader')) :
    reader'.contents.length < reader.contents.length := by
  have hheader := readHeader_reads reader
  rw [readPayload] at h
  generalize readHeader reader = answer at hheader h
  obtain ⟨result, next⟩ := answer
  change ReadsHeader reader result next at hheader
  cases hheader with
  | ended _ => cases h
  | failed _ => cases h
  | header hlength hcontents hending =>
    have hnext : next.contents.length + frameHeaderBytes = reader.contents.length := by
      rw [hcontents, List.length_drop]
      omega
    simp only at h
    split at h
    · cases h
    · rename_i n _
      by_cases hshort : next.contents.length < n
      · have hexact := next.readExact_short .unexpectedEof _ hshort
        generalize next.readExact .unexpectedEof n = answer at hexact h
        obtain ⟨result, last⟩ := answer
        obtain rfl : result = _ := hexact
        cases h
      · obtain ⟨last, hexact, hcontents', -⟩ := next.readExact_ok .unexpectedEof n (Nat.not_lt.mp hshort)
        rw [hexact] at h
        obtain rfl := (Prod.mk.inj h).2
        rw [hcontents', List.length_drop]
        simp only [frameHeaderBytes] at hnext
        omega

/-- A frame in front of a stream is read whole, however it arrives. -/
theorem readPayload_frame {reader : Socket} {payload rest : Bytes} (hfits : payload.length ≤ maxJsonFrameBytes)
    (h : reader.contents = frame payload ++ rest) : ∃ reader', readPayload reader = (.ok (some payload), reader') ∧
      reader'.contents = rest ∧ reader'.ending = reader.ending := by
  have hheader := readHeader_reads reader
  rw [readPayload]
  generalize readHeader reader = answer at hheader ⊢
  obtain ⟨result, next⟩ := answer
  change ReadsHeader reader result next at hheader
  have hlength : frameHeaderBytes ≤ reader.contents.length := by
    rw [h, List.length_append, length_frame]
    omega
  cases hheader with
  | ended hshort => omega
  | failed hshort => omega
  | header _ hcontents hending =>
    have htake : reader.contents.take frameHeaderBytes = headerBytes payload.length := by
      rw [h, frame, List.append_assoc]
      rfl
    have hdrop : next.contents = payload ++ rest := by
      rw [hcontents, h, frame, List.append_assoc]
      rfl
    obtain ⟨reader', hexact, hcontents', hending'⟩ :=
      next.readExact_ok .unexpectedEof payload.length (by rw [hdrop, List.length_append]; omega)
    refine ⟨reader', ?_, ?_, hending'.trans hending⟩
    · simp only [htake, payloadLength_headerBytes hfits, hexact, hdrop, List.take_left]
    · rw [hcontents', hdrop, List.drop_left]

/-- A stream that ends within its first frame gives no payload. -/
theorem readPayload_cut {reader : Socket} {payload : Bytes} {n : Nat} (hfits : payload.length ≤ maxJsonFrameBytes)
    (hn : n < (frame payload).length) (h : reader.contents = (frame payload).take n) (found : Bytes) :
    (readPayload reader).1 ≠ .ok (some found) := by
  have hheader := readHeader_reads reader
  rw [readPayload]
  generalize readHeader reader = answer at hheader ⊢
  obtain ⟨result, next⟩ := answer
  change ReadsHeader reader result next at hheader
  rw [length_frame] at hn
  cases hheader with
  | ended _ =>
    intro heq
    cases heq
  | failed _ =>
    intro heq
    cases heq
  | header hlength hcontents hending =>
    have hlong : frameHeaderBytes ≤ n := by
      rw [h, List.length_take] at hlength
      omega
    have htake : reader.contents.take frameHeaderBytes = headerBytes payload.length := by
      rw [h, List.take_take, Nat.min_eq_left hlong]
      rfl
    have hshort : next.contents.length < payload.length := by
      rw [hcontents, List.length_drop, h, List.length_take, length_frame]
      omega
    have hexact := next.readExact_short .unexpectedEof _ hshort
    simp only [htake, payloadLength_headerBytes hfits]
    generalize next.readExact .unexpectedEof payload.length = answer at hexact ⊢
    obtain ⟨result, reader'⟩ := answer
    obtain rfl : result = _ := hexact
    intro heq
    cases heq

end Read
end Abyss.PluginProtocol
