import Abyss.Sdk.Client

/-! The event stream from the broker's codec to the SDK, over any fragmentation and any cut. -/
namespace Abyss.Sdk
open Abyss.Text Abyss.PluginProtocol
open Abyss.Mitm (Bytes Writer)

section Written
variable {α : Type}

/-- Write payloads one after another, up to the first failure. -/
def writeEach (codec : JsonCodec α) : Writer → List α → Except PluginFrameError Unit × Writer
  | writer, [] => (.ok (), writer)
  | writer, value :: rest =>
    match writeJson codec writer value with
    | (.error e, writer) => (.error e, writer)
    | (.ok (), writer) => writeEach codec writer rest

/-- The frame of a value. -/
def frameOf (codec : JsonCodec α) (value : α) : Bytes := frame (codec.toJson value).toVec

def Fits (codec : JsonCodec α) (value : α) : Prop := (codec.toJson value).toVec.length ≤ maxJsonFrameBytes

theorem writeEach_ok {codec : JsonCodec α} {values : List α} {writer : Writer} (hfits : ∀ value ∈ values, Fits codec value)
    (hwrites : writer.WritesSucceed) : ∃ writer', writeEach codec writer values = (.ok (), writer') ∧ writer'.WritesSucceed ∧
      writer'.accepted = writer.accepted ++ values.flatMap (frameOf codec) := by
  induction values generalizing writer with
  | nil => exact ⟨writer, rfl, hwrites, by simp⟩
  | cons value rest ih =>
    obtain ⟨next, hwrite, hnext, haccepted⟩ := writeJson_ok (hfits value List.mem_cons_self) hwrites
    obtain ⟨last, hrest, hlast, haccepted'⟩ := ih (fun v hv => hfits v (List.mem_cons_of_mem _ hv)) hnext
    refine ⟨last, by rw [writeEach, hwrite]; exact hrest, hlast, ?_⟩
    rw [haccepted', haccepted, List.flatMap_cons, List.append_assoc]
    rfl

/-- The values whose frames end within the first `n` bytes. -/
def arrived (codec : JsonCodec α) : Nat → List α → List α
  | _, [] => []
  | n, value :: rest =>
    if (frameOf codec value).length ≤ n then value :: arrived codec (n - (frameOf codec value).length) rest else []

end Written

section Read
variable {Time : Type} (time : Rfc3339 Time)

/-- The broker's side of a stream: events, and then the deliberate close if there is one. -/
def writeStream (writer : Writer) (events : List (AgentEvent Time)) (close : Option BrokerClose) :
    Except PluginFrameError Unit × Writer :=
  match writeEach (AgentEvent.codec time) writer events with
  | (.error e, writer) => (.error e, writer)
  | (.ok (), writer) => writeEach BrokerClose.codec writer close.toList

private theorem levels_event : (AgentEvent.codec time).levels ≤ Json.maxLevels := Nat.le_of_ble_eq_true rfl

/-- No close is read as an event, and no event as a close. -/
theorem close_not_event (close : BrokerClose) : (AgentEvent.codec time).fromJson (BrokerClose.codec.toJson close) = none := by
  have hnames : (AgentEvent.fields time).names = ["event_id".toList, "observed_at".toList, "device".toList, "agent".toList,
      "session_id".toList, "response_id".toList, "previous_response_id".toList, "subagent_id".toList,
      "parent_subagent_id".toList, "turn_id".toList, "purpose".toList, "llm".toList, "side".toList, "omitted".toList,
      "conversation".toList, "path".toList, "headers".toList, "token_usage".toList, "attachments".toList] := rfl
  apply @JsonFields.struct_foreign _ _ (AgentEvent.fields time) _ _ _ "code".toList _ List.mem_cons_self
  rw [hnames]
  simp

theorem event_not_close (event : AgentEvent Time) : BrokerClose.codec.fromJson ((AgentEvent.codec time).toJson event) = none :=
  @JsonFields.struct_foreign _ _ controlFields _ _ _ "event_id".toList (.str event.eventId)
    (List.mem_append_left _ (List.mem_singleton.mpr rfl))
    (by simp [controlFields, JsonFields.cons, JsonFields.nil, JsonField.required])

theorem fromSlice_event (event : AgentEvent Time) :
    StreamMessage.fromSlice time ((AgentEvent.codec time).toJson event).toVec = some (.event event.normalized) := by
  rw [StreamMessage.fromSlice, JsonCodec.fromSlice_toVec (levels_event time), Option.bind_some, StreamMessage.fromJson,
    AgentEvent.codec_reads event]
  rfl

theorem fromSlice_close (close : BrokerClose) :
    StreamMessage.fromSlice time (BrokerClose.codec.toJson close).toVec = some (.close close) := by
  rw [StreamMessage.fromSlice, JsonCodec.fromSlice_toVec (by decide), Option.bind_some, StreamMessage.fromJson,
    close_not_event time close, BrokerClose.codec_reads close]
  rfl

variable {time} {state : EventStreamState}

private theorem collect_some {next : EventStreamState} {item : Except BrokerPluginError (AgentEvent Time)}
    (h : state.next time = (some item, next)) : state.collect time = (item :: (next.collect time).1, (next.collect time).2) := by
  rw [EventStreamState.collect]
  split <;> rename_i h' <;> rw [h] at h' <;> cases h'
  rfl

private theorem collect_none {next : EventStreamState} (h : state.next time = (none, next)) :
    state.collect time = ([], next) := by
  rw [EventStreamState.collect]
  split <;> rename_i h' <;> rw [h] at h' <;> cases h'
  rfl

/-- A complete event is yielded. -/
private theorem next_event {event : AgentEvent Time} {rest : Bytes} (hrunning : state.terminated = false)
    (hfits : Fits (AgentEvent.codec time) event) (h : state.stream.contents = frameOf (AgentEvent.codec time) event ++ rest) :
    ∃ next, state.next time = (some (.ok event.normalized), next) ∧ next.terminated = false ∧ next.close = state.close ∧
      next.stream.contents = rest := by
  obtain ⟨stream, hread, hrest, -⟩ := readPayload_frame hfits h
  refine ⟨{ state with stream }, ?_, hrunning, rfl, hrest⟩
  simp only [EventStreamState.next, hrunning, Bool.false_eq_true, if_false, readStreamMessage, hread, fromSlice_event]

/-- A complete close ends the stream without an error. -/
private theorem collect_close {close : BrokerClose} (hrunning : state.terminated = false)
    (hfits : Fits BrokerClose.codec close) (h : state.stream.contents = frameOf BrokerClose.codec close) :
    ∃ last, state.collect time = ([], last) ∧ last.close = some close := by
  rw [← List.append_nil (frameOf _ _)] at h
  obtain ⟨stream, hread, -⟩ := readPayload_frame hfits h
  refine ⟨{ state with stream, close := some close }, collect_none ?_, rfl⟩
  simp only [EventStreamState.next, hrunning, Bool.false_eq_true, if_false, readStreamMessage, hread, fromSlice_close]

/-- An end within a frame, or before one, is one error, and then the stream has ended. -/
private theorem collect_cut {payload : Bytes} {n : Nat} (hrunning : state.terminated = false)
    (hfits : payload.length ≤ maxJsonFrameBytes) (hn : n < (frame payload).length)
    (h : state.stream.contents = (frame payload).take n) :
    ∃ e last, state.collect time = ([.error e], last) ∧ last.close = state.close := by
  have hnone := readPayload_cut hfits hn h
  have hmessage : ∃ e stream, readStreamMessage time state.stream = (.error e, stream) := by
    unfold readStreamMessage
    split
    · exact ⟨_, _, rfl⟩
    · exact ⟨_, _, rfl⟩
    · rename_i found _ hread
      exact absurd (congrArg Prod.fst hread) (hnone found)
  obtain ⟨e, stream, hread⟩ := hmessage
  have hnext : state.next time = (some (.error e), { state with stream, terminated := true }) := by
    simp only [EventStreamState.next, hrunning, Bool.false_eq_true, if_false, hread]
  have hend : EventStreamState.next time { state with stream, terminated := true } =
      (none, { state with stream, terminated := true }) := rfl
  exact ⟨e, { state with stream, terminated := true }, by rw [collect_some hnext, collect_none hend], rfl⟩

/-- The frames of a stream, and then the frame of its close. -/
private theorem collect_frames {events : List (AgentEvent Time)} {close : Option BrokerClose} {n : Nat}
    (hrunning : state.terminated = false) (hevents : ∀ event ∈ events, Fits (AgentEvent.codec time) event)
    (hclose : ∀ c ∈ close, Fits BrokerClose.codec c)
    (h : state.stream.contents = (events.flatMap (frameOf (AgentEvent.codec time)) ++
      close.toList.flatMap (frameOf BrokerClose.codec)).take n) :
    (∀ c, close = some c → (events.flatMap (frameOf (AgentEvent.codec time)) ++ frameOf BrokerClose.codec c).length ≤ n →
      ∃ last, state.collect time = (events.map (fun event => .ok event.normalized), last) ∧ last.close = some c) ∧
    ((∀ c, close = some c → n < (events.flatMap (frameOf (AgentEvent.codec time)) ++ frameOf BrokerClose.codec c).length) →
      ∃ e last, state.collect time =
        ((arrived (AgentEvent.codec time) n events).map (fun event => .ok event.normalized) ++ [.error e], last) ∧
          last.close = state.close) := by
  induction events generalizing state n with
  | nil =>
    rw [List.flatMap_nil, List.nil_append] at h
    constructor
    · rintro c rfl hn
      rw [List.flatMap_nil, List.nil_append] at hn
      simp only [Option.toList_some, List.flatMap_cons, List.flatMap_nil, List.append_nil] at h
      rw [List.take_of_length_le hn] at h
      exact collect_close hrunning (hclose c rfl) h
    · intro hshort
      rw [arrived]
      cases close with
      | none =>
        have hempty : state.stream.contents = (frame []).take 0 := by simpa using h
        exact collect_cut hrunning (Nat.zero_le _) (by rw [length_frame]; exact Nat.zero_lt_succ _) hempty
      | some c =>
        simp only [Option.toList_some, List.flatMap_cons, List.flatMap_nil, List.append_nil] at h
        exact collect_cut hrunning (hclose c rfl) (hshort c rfl) h
  | cons event events ih =>
    have hfits := hevents event List.mem_cons_self
    rw [List.flatMap_cons, List.append_assoc] at h
    by_cases hwhole : (frameOf (AgentEvent.codec time) event).length ≤ n
    · rw [List.take_append, List.take_of_length_le hwhole] at h
      obtain ⟨next, hnext, hrunning', hheld, hrest⟩ := next_event hrunning hfits h
      obtain ⟨hcomplete, hcut⟩ := ih hrunning' (fun e he => hevents e (List.mem_cons_of_mem _ he)) hrest
      constructor
      · intro c hc hn
        rw [List.flatMap_cons, List.append_assoc, List.length_append] at hn
        obtain ⟨last, hcollect, hlast⟩ := hcomplete c hc (by omega)
        exact ⟨last, by rw [collect_some hnext, hcollect, List.map_cons], hlast⟩
      · intro hshort
        obtain ⟨e, last, hcollect, hlast⟩ := hcut (by
          intro c hc
          have hn := hshort c hc
          rw [List.flatMap_cons, List.append_assoc, List.length_append] at hn
          omega)
        refine ⟨e, last, ?_, hlast.trans hheld⟩
        rw [collect_some hnext, hcollect, arrived, if_pos hwhole]
        rfl
    · rw [List.take_append_of_le_length (by omega)] at h
      constructor
      · intro c _ hn
        rw [List.flatMap_cons, List.append_assoc, List.length_append] at hn
        omega
      · intro _
        rw [arrived, if_neg hwhole]
        exact collect_cut hrunning hfits (Nat.not_le.mp hwhole) h

/-- Events, and a deliberate close if there is one, are read back from the bytes that the broker
writes, however they arrive and wherever they are cut: the events before the cut, each with its
provider under the name it has on the wire, and then either the close or one error. -/
theorem event_stream_round_trip (time : Rfc3339 Time) {events : List (AgentEvent Time)} {close : Option BrokerClose}
    {writer : Writer} (hevents : ∀ event ∈ events, Fits (AgentEvent.codec time) event)
    (hclose : ∀ c ∈ close, Fits BrokerClose.codec c) (hwrites : writer.WritesSucceed) (hempty : writer.accepted = []) :
    (∃ written, writeStream time writer events close = (.ok (), written) ∧
      ∀ (socket : Socket) (n : Nat), socket.contents = written.accepted.take n →
        (∀ c, close = some c → written.accepted.length ≤ n → ∃ last, (EventStreamState.new socket).collect time =
            (events.map (fun event => .ok event.normalized), last) ∧ last.takeClose.1 = some c) ∧
        ((close = none ∨ n < written.accepted.length) → ∃ e last, (EventStreamState.new socket).collect time =
            ((arrived (AgentEvent.codec time) n events).map (fun event => .ok event.normalized) ++ [.error e], last) ∧
              last.takeClose.1 = none)) ∧
    (∀ event : AgentEvent Time, event.llm.provider ≠ .other "openai".toList → event.llm.provider ≠ .other "anthropic".toList →
      event.normalized = event) ∧
    (∀ event : AgentEvent Time, BrokerClose.codec.fromJson ((AgentEvent.codec time).toJson event) = none ∧
      StreamMessage.fromSlice time ((AgentEvent.codec time).toJson event).toVec = some (.event event.normalized)) ∧
    (∀ c : BrokerClose, (AgentEvent.codec time).fromJson (BrokerClose.codec.toJson c) = none ∧
      StreamMessage.fromSlice time (BrokerClose.codec.toJson c).toVec = some (.close c)) ∧
    (∀ hello, HandshakeResponse.fromSlice (BrokerHello.codec.toJson hello).toVec = some (.accepted hello)) ∧
    ∀ error, HandshakeResponse.fromSlice (BrokerError.codec.toJson error).toVec = some (.rejected error) := by
  refine ⟨?_, ?_, fun event => ⟨event_not_close time event, fromSlice_event time event⟩,
    fun c => ⟨close_not_event time c, fromSlice_close time c⟩, fromSlice_hello, fromSlice_error⟩
  · obtain ⟨next, hnext, hnextWrites, hnextAccepted⟩ := writeEach_ok hevents hwrites
    obtain ⟨last, hlast, -, hlastAccepted⟩ := @writeEach_ok _ _ close.toList next
      (fun c hc => hclose c (Option.mem_toList.mp hc)) hnextWrites
    have hbytes : last.accepted = events.flatMap (frameOf (AgentEvent.codec time)) ++
        close.toList.flatMap (frameOf BrokerClose.codec) := by
      rw [hlastAccepted, hnextAccepted, hempty, List.nil_append]
    refine ⟨last, by rw [writeStream, hnext]; exact hlast, ?_⟩
    intro socket n h
    rw [hbytes] at h ⊢
    obtain ⟨hcomplete, hcut⟩ := @collect_frames _ time (.new socket) _ _ _ rfl hevents hclose h
    constructor
    · rintro c rfl hn
      exact hcomplete c rfl (by simpa using hn)
    · intro hshort
      apply hcut
      rintro c rfl
      obtain hnone | hlt := hshort
      · cases hnone
      · simpa using hlt
  · intro event hopenai hanthropic
    rw [AgentEvent.normalized, LlmContext.normalized, LlmProvider.normalized_eq hopenai hanthropic]

end Read

section Samples

private theorem sampleTime_parse : (if "2026-01-02T03:04:05Z".toList = "2026-01-02T03:04:05Z".toList then some () else none) =
    some () := if_pos rfl

private def sampleTime : Rfc3339 Unit where
  format _ := "2026-01-02T03:04:05Z".toList
  parse s := if s = "2026-01-02T03:04:05Z".toList then some () else none
  parse_format _ := sampleTime_parse

private def sampleEvent (provider : LlmProvider) : AgentEvent Unit where
  eventId := "e1".toList
  observedAt := ()
  device := ⟨"host".toList, "linux".toList, none⟩
  agent := ⟨"codex".toList, none⟩
  sessionId := "s1".toList
  responseId := none
  previousResponseId := none
  subagentId := none
  parentSubagentId := none
  turnId := none
  purpose := none
  llm := ⟨provider, "m".toList⟩
  side := .request
  omitted := []
  conversation := none
  path := "/v1/responses".toList
  headers := []
  tokenUsage := ⟨0, 0, 0, 0, 0, 0⟩
  attachments := []

private def sampleClose : BrokerClose := ⟨100, "broker shutdown".toList⟩

/-- An event of a built-in provider and a close, as they arrive. -/
theorem sample_stream_read : ∃ written, writeStream sampleTime Abyss.Mitm.willingWriter [sampleEvent .openAi] (some sampleClose) =
    (.ok (), written) ∧ ∀ socket : Socket, socket.contents = written.accepted → ∃ last,
      (EventStreamState.new socket).collect sampleTime = ([.ok (sampleEvent .openAi).normalized], last) ∧
        last.takeClose.1 = some sampleClose := by
  have hevent : Fits (AgentEvent.codec sampleTime) (sampleEvent .openAi) := by
    unfold Fits
    decide +kernel
  have hclose : Fits BrokerClose.codec sampleClose := by
    unfold Fits
    decide
  obtain ⟨⟨written, hwritten, hread⟩, -⟩ := event_stream_round_trip sampleTime
    (fun event h => List.mem_singleton.mp h ▸ hevent) (fun c h => Option.mem_some_iff.mp h ▸ hclose)
    Abyss.Mitm.willingWriter_succeeds rfl
  refine ⟨written, hwritten, fun socket h => ?_⟩
  exact (hread socket written.accepted.length (by rw [h, List.take_length])).1 sampleClose rfl (Nat.le_refl _)

/-- A provider that is not built in, but has the name of one, is read back as the built-in one. -/
theorem other_openai_read_back : ¬ ∀ (events : List (AgentEvent Unit)) (written : Writer) (socket : Socket),
    (∀ event ∈ events, Fits (AgentEvent.codec sampleTime) event) →
      writeStream sampleTime Abyss.Mitm.willingWriter events none = (.ok (), written) → socket.contents = written.accepted →
        ∃ e last, (EventStreamState.new socket).collect sampleTime = (events.map .ok ++ [.error e], last) := by
  intro h
  have hevent : Fits (AgentEvent.codec sampleTime) (sampleEvent (.other "openai".toList)) := by
    unfold Fits
    decide +kernel
  have hevents : ∀ event ∈ [sampleEvent (.other "openai".toList)], Fits (AgentEvent.codec sampleTime) event :=
    fun event hmem => List.mem_singleton.mp hmem ▸ hevent
  obtain ⟨written, hwritten, -, haccepted⟩ := writeEach_ok hevents Abyss.Mitm.willingWriter_succeeds
  have hstream : writeStream sampleTime Abyss.Mitm.willingWriter [sampleEvent (.other "openai".toList)] none =
      (.ok (), written) := by
    rw [writeStream, hwritten]
    rfl
  have hbytes : written.accepted ≠ [] := by
    rw [haccepted]
    exact List.cons_ne_nil _ _
  have hcontents : (EventStreamState.new ⟨[some ⟨written.accepted, hbytes⟩], none⟩).stream.contents =
      ([sampleEvent (.other "openai".toList)].flatMap (frameOf (AgentEvent.codec sampleTime)) ++
        (none : Option BrokerClose).toList.flatMap (frameOf BrokerClose.codec)).take written.accepted.length := by
    have hall : [sampleEvent (.other "openai".toList)].flatMap (frameOf (AgentEvent.codec sampleTime)) ++
        (none : Option BrokerClose).toList.flatMap (frameOf BrokerClose.codec) = written.accepted := by
      rw [haccepted]
      exact List.append_nil _
    rw [hall, List.take_length]
    simp [EventStreamState.new, Abyss.Stream.Polled.contents]
  obtain ⟨e, last, hcollect, -⟩ := (collect_frames rfl hevents (by intro c hc; cases hc) hcontents).2
    (by intro c hc; cases hc)
  obtain ⟨e', last', hsame⟩ := h _ written ⟨[some ⟨written.accepted, hbytes⟩], none⟩ hevents hstream
    (by simp [Abyss.Stream.Polled.contents])
  have hwhole : (frameOf (AgentEvent.codec sampleTime) (sampleEvent (.other "openai".toList))).length ≤
      written.accepted.length := by
    rw [haccepted]
    simp
  rw [arrived, if_pos hwhole] at hcollect
  have hitems := congrArg Prod.fst (hcollect.symm.trans hsame)
  simp only [List.map_cons, List.cons_append, List.cons.injEq, Except.ok.injEq] at hitems
  have hprovider := congrArg (fun event => event.llm.provider) hitems.1
  revert hprovider
  decide

end Samples
end Abyss.Sdk
