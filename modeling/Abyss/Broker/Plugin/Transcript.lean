import Abyss.Broker.Plugin.Session

/-! What the sessions of the plugin server write, along every schedule. -/
namespace Abyss.Broker.Plugin
open Abyss.Text Abyss.PluginProtocol Abyss.System
open Abyss.Mitm (Bytes Writer)
variable {Time : Type}

section Frames

inductive BrokerFrame (Time : Type) where
  | hello (hello : BrokerHello)
  | error (error : PluginProtocol.BrokerError)
  | event (event : AgentEvent Time)
  | close (close : BrokerClose)

def BrokerFrame.payload (time : Rfc3339 Time) : BrokerFrame Time → Bytes
  | .hello h => (BrokerHello.codec.toJson h).toVec
  | .error e => (PluginProtocol.BrokerError.codec.toJson e).toVec
  | .event e => ((AgentEvent.codec time).toJson e).toVec
  | .close c => (BrokerClose.codec.toJson c).toVec

def BrokerFrame.Fits (time : Rfc3339 Time) (f : BrokerFrame Time) : Prop := (f.payload time).length ≤ maxJsonFrameBytes

/-- The frames that have left through the output of a session. -/
def Session.Wrote (env : SessionEnv Time) (session : Session Time) (frames : List (BrokerFrame Time)) : Prop :=
  session.writer.accepted = frames.flatMap (fun f => frame (f.payload env.time))

/-- An acceptance, and the first `n` events after the subscription. -/
def streamed (published : List (AgentEvent Time)) (subscribedAt : Nat) (hello : BrokerHello) (n : Nat) :
    List (BrokerFrame Time) :=
  .hello hello :: ((published.drop subscribedAt).take n).map .event

/-- The frames of one connection: nothing, a rejection, or an acceptance, a run of the events
published after the subscription without a gap, and at most one close at the end. -/
inductive Transcript (published : List (AgentEvent Time)) (subscribedAt : Nat) : List (BrokerFrame Time) → Prop
  | silent : Transcript published subscribedAt []
  | rejected (error : PluginProtocol.BrokerError) : Transcript published subscribedAt [.error error]
  | streamed (hello : BrokerHello) {n : Nat} (close : Option BrokerClose) (h : subscribedAt + n ≤ published.length) :
    Transcript published subscribedAt (streamed published subscribedAt hello n ++ close.toList.map .close)

/-- The frames of a connection that was not accepted, or that ended with a close. -/
inductive Complete (published : List (AgentEvent Time)) (subscribedAt : Nat) : List (BrokerFrame Time) → Prop
  | silent : Complete published subscribedAt []
  | rejected (error : PluginProtocol.BrokerError) : Complete published subscribedAt [.error error]
  | closed (hello : BrokerHello) {n : Nat} (close : BrokerClose) (h : subscribedAt + n ≤ published.length) :
    Complete published subscribedAt (streamed published subscribedAt hello n ++ [.close close])

variable {published : List (AgentEvent Time)} {subscribedAt : Nat}

theorem streamed_append {hello : BrokerHello} {n : Nat} (h : subscribedAt + n ≤ published.length) (event : AgentEvent Time) :
    streamed (published ++ [event]) subscribedAt hello n = streamed published subscribedAt hello n := by
  have hlength : n ≤ (published.drop subscribedAt).length := by
    rw [List.length_drop]
    omega
  rw [streamed, streamed, List.drop_append_of_le_length (by omega), List.take_append_of_le_length hlength]

theorem streamed_succ {hello : BrokerHello} {n : Nat} {event : AgentEvent Time}
    (h : published[subscribedAt + n]? = some event) :
    streamed published subscribedAt hello (n + 1) = streamed published subscribedAt hello n ++ [.event event] := by
  rw [← List.getElem?_drop] at h
  rw [streamed, streamed, List.take_add_one, h, List.map_append]
  rfl

theorem Transcript.append {frames : List (BrokerFrame Time)} (h : Transcript published subscribedAt frames)
    (event : AgentEvent Time) : Transcript (published ++ [event]) subscribedAt frames := by
  cases h with
  | silent => exact .silent
  | rejected error => exact .rejected error
  | streamed hello close h =>
    rw [← streamed_append h event]
    exact .streamed hello close (by rw [List.length_append]; omega)

theorem Complete.append {frames : List (BrokerFrame Time)} (h : Complete published subscribedAt frames)
    (event : AgentEvent Time) : Complete (published ++ [event]) subscribedAt frames := by
  cases h with
  | silent => exact .silent
  | rejected error => exact .rejected error
  | closed hello close h =>
    rw [← streamed_append h event]
    exact .closed hello close (by rw [List.length_append]; omega)

theorem Complete.transcript {frames : List (BrokerFrame Time)} (h : Complete published subscribedAt frames) :
    Transcript published subscribedAt frames := by
  cases h with
  | silent => exact .silent
  | rejected error => exact .rejected error
  | closed hello close h => exact .streamed hello (some close) h

end Frames

section Invariant

/-- A receiver at `events` has yet to read what was published after the first `n` events. -/
structure Ahead (history published : List (AgentEvent Time)) (start events : Nat) : Prop where
  rest : published.drop start = history.drop events
  published_le : start ≤ published.length
  history_le : events ≤ history.length

/-- The close that a session may write: one of the three that the broker has. -/
def KnownClose (close : BrokerClose) : Prop := close = shutdownClose ∨ close = tooSlowClose ∨ close = streamClosedClose

/-- What a session has written in each phase. With `strict` it does not end without a close. -/
def Session.Sound (env : SessionEnv Time) (strict : Prop) (history published : List (AgentEvent Time))
    (session : Session Time) : Prop :=
  session.writer.WritesSucceed ∧
  match session.phase with
  | .handshake _ | .handshakeChanged _ | .reading _ | .rejecting _ | .validated _ => session.Wrote env []
  | .accepting _ events => session.Wrote env [] ∧ Ahead history published session.subscribedAt events
  | .streaming events | .changed events | .receiving events => ∃ hello n,
      session.Wrote env (streamed published session.subscribedAt hello n) ∧
        Ahead history published (session.subscribedAt + n) events
  | .delivering events event => ∃ hello n, session.Wrote env (streamed published session.subscribedAt hello n) ∧
      published[session.subscribedAt + n]? = some event ∧ Ahead history published (session.subscribedAt + (n + 1)) events
  | .closing _ close => ∃ hello n, session.Wrote env (streamed published session.subscribedAt hello n) ∧
      session.subscribedAt + n ≤ published.length ∧ KnownClose close
  | .ended _ => ∃ frames, session.Wrote env frames ∧ (Complete published session.subscribedAt frames ∨
      ¬ strict ∧ Transcript published session.subscribedAt frames)

variable {env : SessionEnv Time} {strict : Prop} {history published : List (AgentEvent Time)} {session : Session Time}

/-- Reading one event. -/
theorem Ahead.next {start n events : Nat} {event : AgentEvent Time} {rest : List (AgentEvent Time)}
    (h : Ahead history published (start + n) events) (hnext : history.drop events = event :: rest) :
    published[start + n]? = some event ∧ Ahead history published (start + (n + 1)) (events + 1) := by
  have hpublished := h.rest.trans hnext
  have hlt := congrArg List.length hpublished
  have hlt' := congrArg List.length hnext
  rw [List.length_drop, List.length_cons] at hlt hlt'
  refine ⟨?_, ?_, by omega, by omega⟩
  · rw [← List.head?_drop, hpublished]
    rfl
  · rw [← Nat.add_assoc, ← List.tail_drop, ← List.tail_drop, h.rest]

/-- Publishing to a channel that has receivers. -/
theorem Ahead.publish {start events : Nat} (h : Ahead history published start events) (event : AgentEvent Time) :
    Ahead (history ++ [event]) (published ++ [event]) start events := by
  refine ⟨?_, by rw [List.length_append]; exact Nat.le_add_right_of_le h.published_le,
    by rw [List.length_append]; exact Nat.le_add_right_of_le h.history_le⟩
  rw [List.drop_append_of_le_length h.published_le, List.drop_append_of_le_length h.history_le, h.rest]

theorem fits_hello (time : Rfc3339 Time) (hello : BrokerHello) : (BrokerFrame.hello hello).Fits time := by
  obtain ⟨version⟩ := hello
  cases version
  have hfits : (BrokerHello.codec.toJson ⟨.v1⟩).toVec.length ≤ maxJsonFrameBytes := by decide
  exact hfits

theorem KnownClose.fits {close : BrokerClose} (h : KnownClose close) (time : Rfc3339 Time) :
    (BrokerFrame.close close).Fits time := by
  have hfits : (BrokerClose.codec.toJson close).toVec.length ≤ maxJsonFrameBytes := by
    rcases h with rfl | rfl | rfl <;> decide
  exact hfits

/-- Writing either adds one frame, or ends a session whose payload is too long for one. -/
private theorem write_cases {α : Type} {codec : JsonCodec α} {value : α} (next : Phase Time)
    (hwrites : session.writer.WritesSucceed) :
    ((codec.toJson value).toVec.length ≤ maxJsonFrameBytes ∧
      ∃ writer, session.write codec value next = { session with writer, phase := next } ∧ writer.WritesSucceed ∧
        writer.accepted = session.writer.accepted ++ frame (codec.toJson value).toVec) ∨
    (maxJsonFrameBytes < (codec.toJson value).toVec.length ∧
      ∃ e, session.write codec value next = { session with phase := .ended (.returned (.error e)) }) := by
  by_cases hfits : (codec.toJson value).toVec.length ≤ maxJsonFrameBytes
  · obtain ⟨writer, hwrite, hnext, haccepted⟩ := writeJson_ok hfits hwrites
    exact .inl ⟨hfits, writer, by simp only [Session.write, hwrite], hnext, haccepted⟩
  · obtain ⟨e, hwrite⟩ := @writeJson_long _ codec session.writer value (Nat.not_le.mp hfits)
    exact .inr ⟨Nat.not_le.mp hfits, e, by simp only [Session.write, hwrite]⟩

/-- One more frame on the wire. -/
private theorem Session.Wrote.snoc {frames : List (BrokerFrame Time)} {session' : Session Time} (h : session.Wrote env frames)
    (f : BrokerFrame Time) (haccepted : session'.writer.accepted = session.writer.accepted ++ frame (f.payload env.time)) :
    session'.Wrote env (frames ++ [f]) := by
  rw [Wrote] at *
  rw [haccepted, h, List.flatMap_append, List.flatMap_cons, List.flatMap_nil, List.append_nil]

/-- What the payload of a handshake leads to: a rejection, an acceptance, or the end. -/
private theorem handshakePayload_phase (payload : Except PluginFrameError (Option Bytes)) :
    (∃ error, handshakePayload env payload = .rejecting error) ∨
      (∃ version, handshakePayload env payload = .validated version) ∨
      ∃ result, handshakePayload env payload = .ended (.returned result) := by
  unfold handshakePayload
  split
  · exact .inr (.inr ⟨_, rfl⟩)
  · unfold handshakeReply
    split
    · exact .inl ⟨_, rfl⟩
    · split
      · exact .inl ⟨_, rfl⟩
      · split
        · exact .inr (.inl ⟨_, rfl⟩)
        · exact .inl ⟨_, rfl⟩
  · exact .inl ⟨_, rfl⟩
  · exact .inr (.inr ⟨_, rfl⟩)

theorem Session.Sound.proceed {ring : EventRing Time} {shutdown : Watch Bool} {next : Session Time}
    (h : session.Sound env strict history published) (hring : ring.Holds history)
    (hfits : strict → ∀ events event, session.phase = .delivering events event → (BrokerFrame.event event).Fits env.time)
    (hstep : session.proceed env ring shutdown published.length = some next) : next.Sound env strict history published := by
  obtain ⟨phase, reader, writer, seen, start, transport⟩ := session
  obtain ⟨hwrites, hphase⟩ := h
  cases phase with
  | handshake taken =>
    simp only [proceed] at hstep
    split at hstep <;> cases hstep
    · exact ⟨hwrites, hphase⟩
    · exact ⟨hwrites, [], hphase, .inl .silent⟩
    · exact ⟨hwrites, hphase⟩
  | handshakeChanged taken =>
    simp only [proceed] at hstep
    split at hstep <;> cases hstep
    · exact ⟨hwrites, [], hphase, .inl .silent⟩
    · exact ⟨hwrites, hphase⟩
  | reading taken =>
    simp only [proceed] at hstep
    generalize readPayload reader = answer at hstep
    obtain ⟨payload, reader'⟩ := answer
    cases hstep
    have hpayload := @handshakePayload_phase _ env payload
    generalize handshakePayload env payload = phase at hpayload ⊢
    obtain ⟨error, rfl⟩ | ⟨version, rfl⟩ | ⟨result, rfl⟩ := hpayload
    · exact ⟨hwrites, hphase⟩
    · exact ⟨hwrites, hphase⟩
    · exact ⟨hwrites, [], hphase, .inl .silent⟩
  | rejecting error =>
    cases hstep
    obtain ⟨-, writer', hwrite, hwrites', haccepted⟩ | ⟨-, e, hwrite⟩ := write_cases _ hwrites <;> rw [hwrite]
    · exact ⟨hwrites', [.error error], hphase.snoc (.error error) haccepted, .inl (.rejected error)⟩
    · exact ⟨hwrites, [], hphase, .inl .silent⟩
  | validated version =>
    cases hstep
    refine ⟨hwrites, hphase, ?_, Nat.le_refl _, ?_⟩
    · rw [Ring.subscribe, hring.sent, List.drop_length, List.drop_length]
    · rw [Ring.subscribe, hring.sent]
  | accepting version events =>
    cases hstep
    obtain ⟨-, writer', hwrite, hwrites', haccepted⟩ | ⟨hlong, -⟩ := write_cases _ hwrites
    · rw [hwrite]
      exact ⟨hwrites', ⟨version⟩, 0, hphase.1.snoc (.hello ⟨version⟩) haccepted, hphase.2⟩
    · exact absurd (fits_hello env.time ⟨version⟩) (Nat.not_le.mpr hlong)
  | streaming events =>
    simp only [proceed] at hstep
    obtain ⟨hello, n, hwrote, hahead⟩ := hphase
    split at hstep <;> cases hstep
    · exact ⟨hwrites, hello, n, hwrote, hahead⟩
    · exact ⟨hwrites, hello, n, hwrote, hahead.published_le, .inl rfl⟩
    · exact ⟨hwrites, hello, n, hwrote, hahead⟩
  | changed events =>
    simp only [proceed] at hstep
    obtain ⟨hello, n, hwrote, hahead⟩ := hphase
    split at hstep <;> cases hstep
    · exact ⟨hwrites, hello, n, hwrote, hahead.published_le, .inl rfl⟩
    · exact ⟨hwrites, hello, n, hwrote, hahead⟩
  | receiving events =>
    simp only [proceed] at hstep
    obtain ⟨hello, n, hwrote, hahead⟩ := hphase
    have hreceives := hring.receives events
    generalize ring.recv events = received at hreceives hstep
    cases hreceives with
    | nothing _ =>
      cases hstep
      exact ⟨hwrites, hello, n, hwrote, hahead⟩
    | @value event rest hnext _ =>
      cases hstep
      exact ⟨hwrites, hello, n, hwrote, hahead.next hnext⟩
    | lagged _ _ =>
      cases hstep
      exact ⟨hwrites, hello, n, hwrote, hahead.published_le, .inr (.inl rfl)⟩
  | delivering events event =>
    cases hstep
    obtain ⟨hello, n, hwrote, hevent, hahead⟩ := hphase
    obtain ⟨-, writer', hwrite, hwrites', haccepted⟩ | ⟨hlong, e, hwrite⟩ := write_cases _ hwrites <;> rw [hwrite]
    · refine ⟨hwrites', hello, n + 1, ?_, hahead⟩
      rw [streamed_succ hevent]
      exact hwrote.snoc (.event event) haccepted
    · refine ⟨hwrites, _, hwrote, .inr ⟨fun hstrict => ?_, ?_⟩⟩
      · exact absurd (hfits hstrict events event rfl) (Nat.not_le.mpr hlong)
      · rw [← List.append_nil (streamed _ _ _ _)]
        exact .streamed hello none (Nat.le_of_succ_le hahead.published_le)
  | closing events close =>
    cases hstep
    obtain ⟨hello, n, hwrote, hn, hclose⟩ := hphase
    obtain ⟨-, writer', hwrite, hwrites', haccepted⟩ | ⟨hlong, -⟩ := write_cases _ hwrites
    · rw [hwrite]
      exact ⟨hwrites', _, hwrote.snoc (.close close) haccepted, .inl (.closed hello close hn)⟩
    · exact absurd (hclose.fits env.time) (Nat.not_le.mpr hlong)
  | ended outcome => cases hstep

/-- At every moment the frames are a transcript. -/
theorem Session.Sound.transcript (h : session.Sound env strict history published) :
    ∃ frames, session.Wrote env frames ∧ Transcript published session.subscribedAt frames := by
  have hstreamed : ∀ {hello n}, session.subscribedAt + n ≤ published.length →
      Transcript published session.subscribedAt (streamed published session.subscribedAt hello n) := by
    intro hello n hn
    rw [← List.append_nil (streamed _ _ _ _)]
    exact .streamed hello none hn
  obtain ⟨-, hphase⟩ := h
  split at hphase
  case h_6 =>
    exact ⟨[], hphase.1, .silent⟩
  case h_7 | h_8 | h_9 =>
    obtain ⟨hello, n, hwrote, hahead⟩ := hphase
    exact ⟨_, hwrote, hstreamed hahead.published_le⟩
  case h_10 =>
    obtain ⟨hello, n, hwrote, -, hahead⟩ := hphase
    exact ⟨_, hwrote, hstreamed (Nat.le_of_succ_le hahead.published_le)⟩
  case h_11 =>
    obtain ⟨hello, n, hwrote, hn, -⟩ := hphase
    exact ⟨_, hwrote, hstreamed hn⟩
  case h_12 =>
    obtain ⟨frames, hwrote, hcomplete | ⟨-, htranscript⟩⟩ := hphase
    · exact ⟨frames, hwrote, hcomplete.transcript⟩
    · exact ⟨frames, hwrote, htranscript⟩
  all_goals exact ⟨[], hphase, .silent⟩

/-- Before the acceptance nothing is written. -/
theorem Session.Sound.silent (h : session.Sound env strict history published) (haccepted : session.phase.accepted = false)
    (hrunning : ¬ session.phase.isEnded = true) : session.Wrote env [] := by
  obtain ⟨-, hphase⟩ := h
  cases hcase : session.phase with
  | handshake _ | handshakeChanged _ | reading _ | rejecting _ | validated _ =>
    rw [hcase] at hphase
    exact hphase
  | accepting version events =>
    rw [hcase] at hphase
    exact hphase.1
  | ended outcome => exact absurd (by rw [hcase]; rfl) hrunning
  | _ => simp [hcase, Phase.accepted] at haccepted

theorem Session.Sound.step {ring : EventRing Time} {shutdown : Watch Bool} {next : Session Time} {action : SessionAction}
    (h : session.Sound env strict history published) (hring : ring.Holds history)
    (hfits : strict → action = .proceed → ∀ events event, session.phase = .delivering events event →
      (BrokerFrame.event event).Fits env.time)
    (habort : strict → action = .abort → session.phase.accepted = false)
    (hstep : session.step env ring shutdown published.length action = some next) : next.Sound env strict history published := by
  cases action with
  | proceed => exact h.proceed hring (fun hstrict => hfits hstrict rfl) hstep
  | wake taken =>
    simp only [Session.step] at hstep
    split at hstep
    · rename_i before hreading
      split at hstep <;> cases hstep
      obtain ⟨hwrites, hphase⟩ := h
      rw [hreading] at hphase
      exact ⟨hwrites, hphase⟩
    · cases hstep
  | timeOut =>
    simp only [Session.step] at hstep
    split at hstep <;> cases hstep
    rename_i before hreading
    obtain ⟨hwrites, hphase⟩ := h
    rw [hreading] at hphase
    exact ⟨hwrites, [], hphase, .inl .silent⟩
  | abort =>
    simp only [Session.step] at hstep
    split at hstep <;> cases hstep
    rename_i hrunning
    by_cases hstrict : strict
    · exact ⟨h.1, [], h.silent (habort hstrict rfl) hrunning, .inl .silent⟩
    · obtain ⟨frames, hwrote, htranscript⟩ := h.transcript
      exact ⟨h.1, frames, hwrote, .inr ⟨hstrict, htranscript⟩⟩

/-- The history of the ring grows only where there is a receiver. -/
theorem Session.Sound.publish {history' : List (AgentEvent Time)} (h : session.Sound env strict history published)
    (event : AgentEvent Time) (hhistory : session.phase.subscribed = true → history' = history ++ [event]) :
    session.Sound env strict history' (published ++ [event]) := by
  obtain ⟨phase, reader, writer, seen, start, transport⟩ := session
  obtain ⟨hwrites, hphase⟩ := h
  refine ⟨hwrites, ?_⟩
  cases phase with
  | handshake _ | handshakeChanged _ | reading _ | rejecting _ | validated _ => exact hphase
  | accepting version events =>
    rw [hhistory rfl]
    exact ⟨hphase.1, hphase.2.publish event⟩
  | streaming events | changed events | receiving events =>
    rw [hhistory rfl]
    obtain ⟨hello, n, hwrote, hahead⟩ := hphase
    exact ⟨hello, n, by rw [streamed_append hahead.published_le]; exact hwrote, hahead.publish event⟩
  | delivering events next =>
    rw [hhistory rfl]
    obtain ⟨hello, n, hwrote, hnext, hahead⟩ := hphase
    have hn : start + n < published.length := hahead.published_le
    refine ⟨hello, n, ?_, ?_, hahead.publish event⟩
    · rw [streamed_append (Nat.le_of_lt hn)]
      exact hwrote
    · rw [List.getElem?_append_left hn]
      exact hnext
  | closing events close =>
    obtain ⟨hello, n, hwrote, hn, hclose⟩ := hphase
    refine ⟨hello, n, ?_, by rw [List.length_append]; exact Nat.le_add_right_of_le hn, hclose⟩
    rw [streamed_append hn]
    exact hwrote
  | ended outcome =>
    obtain ⟨frames, hwrote, hcomplete | ⟨hstrict, htranscript⟩⟩ := hphase
    · exact ⟨frames, hwrote, .inl (hcomplete.append event)⟩
    · exact ⟨frames, hwrote, .inr ⟨hstrict, htranscript.append event⟩⟩

theorem Session.sound_new (reader : Socket) {writer : Writer} (seen : Nat) (hwrites : writer.WritesSucceed)
    (hempty : writer.accepted = []) : (Session.new reader writer seen).Sound env strict history published := ⟨hwrites, hempty⟩

/-- The output that a session started with is never replaced. -/
theorem Session.step_transport {ring : EventRing Time} {shutdown : Watch Bool} {count : Nat} {next : Session Time}
    {action : SessionAction} (hstep : session.step env ring shutdown count action = some next) :
    next.transport = session.transport := by
  have hwrite : ∀ {α : Type} (codec : JsonCodec α) (value : α) (phase : Phase Time),
      (session.write codec value phase).transport = session.transport := by
    intro α codec value phase
    unfold Session.write
    split <;> rfl
  unfold Session.step Session.proceed at hstep
  repeat' split at hstep
  all_goals cases hstep <;> first | rfl | exact hwrite _ _ _

end Invariant
end Abyss.Broker.Plugin
