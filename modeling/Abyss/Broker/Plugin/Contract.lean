import Abyss.Broker.Plugin.Transcript

/-! The stream contract of the plugin server: what every connection sees along every schedule, and
when an accepted session ends without its close. -/
namespace Abyss.Broker.Plugin
open Abyss.Text Abyss.PluginProtocol Abyss.System
open Abyss.Mitm (Bytes)
variable {Time : Type} {env : SessionEnv Time} {strict : Prop} {server server' : Server Time}

section Runs

/-- The ring holds a history, and every session whose output accepts writes is sound. -/
def Server.Sound (env : SessionEnv Time) (strict : Prop) (server : Server Time) : Prop :=
  ∃ history, server.ring.Holds history ∧ ∀ session ∈ server.sessions,
    session.transport.WritesSucceed → session.Sound env strict history server.published

/-- An event that is written fits a frame, and a failure of the listener finds no accepted session. -/
def Server.Deliverable (env : SessionEnv Time) (server : Server Time) : Action Time → Prop
  | .session index .proceed => ∀ session events event, server.sessions[index]? = some session →
      session.phase = .delivering events event → (BrokerFrame.event event).Fits env.time
  | .session index .abort => ∀ session, server.sessions[index]? = some session → session.phase.accepted = false
  | _ => True

/-- A step of one session changes that session only. -/
theorem stepSession_cases {index : Nat} {action : SessionAction} (h : server.stepSession env index action = some server') :
    ∃ session next, server.sessions[index]? = some session ∧
      session.step env server.ring server.shutdown server.published.length action = some next ∧
      server' = { server with sessions := server.sessions.set index next } ∧ (action = .abort → server.phase = .failed) := by
  unfold Server.stepSession at h
  split at h
  case h_6 habort =>
    simp only [Option.bind_eq_bind, Option.bind_eq_some_iff, Option.some.injEq] at h
    obtain ⟨session, hsession, next, hnext, rfl⟩ := h
    refine ⟨session, next, hsession, hnext, rfl, ?_⟩
    rintro rfl
    cases hphase : server.phase with
    | failed => rfl
    | _ => simp_all
  all_goals cases h

/-- The server's own steps move its phase. -/
theorem proceed_cases (h : server.proceed = some server') : ∃ phase seen, server' = { server with phase, seen } := by
  unfold Server.proceed at h
  split at h
  · split at h <;> cases h <;> exact ⟨_, _, rfl⟩
  · cases h
    exact ⟨_, _, rfl⟩
  · split at h <;> cases h
    exact ⟨_, _, rfl⟩
  all_goals cases h

theorem Server.Sound.step {action : Action Time} (h : server.Sound env strict)
    (hcondition : strict → server.Deliverable env action) (hstep : server.step env action = some server') :
    server'.Sound env strict := by
  obtain ⟨history, hring, hsessions⟩ := h
  cases action with
  | publish event =>
    cases hstep
    by_cases hany : server.sessions.any (·.phase.subscribed) = true
    · refine ⟨history ++ [event], ?_, fun session hmem hwrites => ?_⟩
      · simp only [Server.publish, hany, if_true]
        exact hring.send event
      · exact (hsessions session hmem hwrites).publish event (fun _ => rfl)
    · refine ⟨history, ?_, fun session hmem hwrites => ?_⟩
      · simp only [Server.publish, if_neg hany]
        exact hring
      · refine (hsessions session hmem hwrites).publish event (fun hsubscribed => ?_)
        exact absurd (List.any_eq_true.mpr ⟨session, hmem, hsubscribed⟩) hany
  | sendShutdown value =>
    simp only [Server.step] at hstep
    split at hstep <;> cases hstep
    exact ⟨history, hring, hsessions⟩
  | dropShutdown =>
    cases hstep
    exact ⟨history, hring, hsessions⟩
  | proceed =>
    obtain ⟨phase, seen, rfl⟩ := proceed_cases hstep
    exact ⟨history, hring, hsessions⟩
  | accept reader writes =>
    simp only [Server.step] at hstep
    split at hstep <;> cases hstep
    refine ⟨history, hring, fun session hmem hwrites => ?_⟩
    rcases List.mem_append.mp hmem with hmem | hmem
    · exact hsessions session hmem hwrites
    · obtain rfl := List.mem_singleton.mp hmem
      exact Session.sound_new reader server.seen hwrites rfl
  | acceptFailed =>
    simp only [Server.step] at hstep
    split at hstep <;> cases hstep
    exact ⟨history, hring, hsessions⟩
  | wake =>
    simp only [Server.step] at hstep
    split at hstep <;> cases hstep
    exact ⟨history, hring, hsessions⟩
  | session index action =>
    obtain ⟨session, next, hsession, hnext, rfl, -⟩ := stepSession_cases hstep
    refine ⟨history, hring, fun other hmem hwrites => ?_⟩
    rcases List.mem_or_eq_of_mem_set hmem with hmem | rfl
    · exact hsessions other hmem hwrites
    · have hsound := hsessions session (List.mem_of_getElem? hsession) (Session.step_transport hnext ▸ hwrites)
      refine hsound.step hring ?_ ?_ hnext
      · rintro hstrict rfl events event hdelivering
        exact hcondition hstrict session events event hsession hdelivering
      · rintro hstrict rfl
        exact hcondition hstrict session hsession

theorem Server.sound_bind : (Server.bind : Server Time).Sound env strict :=
  ⟨[], Ring.empty_holds, fun _ hmem _ => by cases hmem⟩

theorem Server.sound_run {actions : List (Action Time)} (h : run (Server.step env) .bind actions = some server) :
    server.Sound env False :=
  run_invariant (fun hsound hstep => hsound.step False.elim hstep) Server.sound_bind h

end Runs

section StreamContract

/-- What a session that looks for its next event finds: what was published after the `n` events that
it has written. It waits, takes the first of them, or is closed because it is too slow. -/
def Session.TakesNext (env : SessionEnv Time) (server : Server Time) (session : Session Time) : Prop :=
  ∀ events, session.phase = .receiving events → ∃ hello n,
    session.Wrote env (streamed server.published session.subscribedAt hello n) ∧
      (∃ phase, session.proceed env server.ring server.shutdown server.published.length = some { session with phase } ∧
        match server.published.drop (session.subscribedAt + n) with
        | [] => phase = .streaming events
        | event :: rest =>
          if rest.length < eventBroadcastCapacity then phase = .delivering (events + 1) event
          else ∃ events, phase = .closing events tooSlowClose)

/-- A session that is closing writes its close as the last frame, unless it is aborted. -/
def Session.ClosesLast (env : SessionEnv Time) (server : Server Time) (session : Session Time) : Prop :=
  ∀ events close, session.phase = .closing events close → ∀ action next,
    session.step env server.ring server.shutdown server.published.length action = some next → action = .abort ∨
      next.phase = .ended (.returned (.ok ())) ∧ next.writer.accepted =
        session.writer.accepted ++ frame ((BrokerFrame.close close : BrokerFrame Time).payload env.time)

theorem Server.Sound.takesNext {session : Session Time} (h : server.Sound env strict) (hmem : session ∈ server.sessions)
    (hwrites : session.transport.WritesSucceed) : session.TakesNext env server := by
  intro events hreceiving
  obtain ⟨history, hring, hsessions⟩ := h
  obtain ⟨-, hphase⟩ := hsessions session hmem hwrites
  rw [hreceiving] at hphase
  obtain ⟨hello, n, hwrote, hahead⟩ := hphase
  refine ⟨hello, n, hwrote, ?_⟩
  rw [hahead.rest]
  have hreceives := hring.receives events
  simp only [Session.proceed, hreceiving]
  generalize server.ring.recv events = received at hreceives ⊢
  have hlength := @List.length_drop _ events history
  cases hreceives with
  | nothing hle =>
    refine ⟨.streaming events, rfl, ?_⟩
    rw [List.drop_eq_nil_of_le hle]
  | @value event rest hnext hretained =>
    refine ⟨.delivering (events + 1) event, rfl, ?_⟩
    simp only [hnext, hretained, if_true]
  | lagged hlag hskipped =>
    refine ⟨.closing _ tooSlowClose, rfl, ?_⟩
    cases hrest : history.drop events with
    | nil =>
      rw [hrest, List.length_nil] at hlength
      omega
    | cons event rest =>
      rw [hrest, List.length_cons] at hlength
      simp only [show ¬ rest.length < eventBroadcastCapacity by omega, if_false]
      exact ⟨_, rfl⟩

theorem Server.Sound.closesLast {session : Session Time} (h : server.Sound env strict) (hmem : session ∈ server.sessions)
    (hwrites : session.transport.WritesSucceed) : session.ClosesLast env server := by
  intro events close hclosing action next hstep
  obtain ⟨history, -, hsessions⟩ := h
  obtain ⟨hsucceed, hphase⟩ := hsessions session hmem hwrites
  rw [hclosing] at hphase
  obtain ⟨hello, n, -, -, hclose⟩ := hphase
  cases action with
  | proceed =>
    simp only [Session.step, Session.proceed, hclosing, Option.some.injEq] at hstep
    obtain ⟨writer, hwrite, -, haccepted⟩ := writeJson_ok (hclose.fits env.time) hsucceed
    simp only [Session.write, hwrite] at hstep
    subst hstep
    exact .inr ⟨rfl, haccepted⟩
  | wake taken | timeOut => simp [Session.step, hclosing] at hstep
  | abort => exact .inl rfl

/-- Along every schedule each connection whose writes succeed carries a transcript, in which no event
is skipped: a session takes the events one after another, or is closed as too slow with that as its
last frame. A publication is always possible and leaves every session as it is, and no step of a
session changes anything but that session. -/
theorem plugin_session_stream (env : SessionEnv Time) {actions : List (Action Time)} {server : Server Time}
    (h : run (Server.step env) .bind actions = some server) :
    (∀ session ∈ server.sessions, session.transport.WritesSucceed →
      (∃ frames, session.Wrote env frames ∧ Transcript server.published session.subscribedAt frames) ∧
        session.TakesNext env server ∧ session.ClosesLast env server) ∧
    (∀ event, ∃ ring, server.step env (.publish event) = some { server with ring, published := server.published ++ [event] }) ∧
    ∀ index action next, server.step env (.session index action) = some next →
      (∃ session, next = { server with sessions := server.sessions.set index session }) ∧
        (action = .abort → server.phase = .failed) := by
  have hsound := Server.sound_run h
  refine ⟨fun session hmem hwrites => ?_, fun event => ⟨_, rfl⟩, ?_⟩
  · obtain ⟨history, -, hsessions⟩ := hsound
    exact ⟨(hsessions session hmem hwrites).transcript, (Server.sound_run h).takesNext hmem hwrites,
      (Server.sound_run h).closesLast hmem hwrites⟩
  · intro index action next hstep
    obtain ⟨session, session', -, -, rfl, habort⟩ := stepSession_cases hstep
    exact ⟨⟨session', rfl⟩, habort⟩

end StreamContract

section DeliberateClose

theorem Server.sound_along {actions : List (Action Time)} (h : run (Server.step env) .bind actions = some server)
    (halong : Along (Server.step env) (Server.Deliverable env) .bind actions) : server.Sound env True :=
  run_invariant_along (fun hcondition hsound hstep => hsound.step (fun _ => hcondition) hstep) Server.sound_bind halong h

/-- As long as the events that are written fit a frame and no accepted session is aborted by a failure of
the listener, an accepted session whose writes succeed ends only after its close, and every event that it
takes is written before it goes on. -/
theorem accepted_session_closes (env : SessionEnv Time) {actions : List (Action Time)} {server : Server Time}
    (h : run (Server.step env) .bind actions = some server)
    (halong : Along (Server.step env) (Server.Deliverable env) .bind actions) :
    ∀ session ∈ server.sessions, session.transport.WritesSucceed →
      (session.phase.isEnded = true →
        ∃ frames, session.Wrote env frames ∧ Complete server.published session.subscribedAt frames) ∧
      ∀ events event, session.phase = .delivering events event → (BrokerFrame.event event).Fits env.time →
        ∃ writer, session.proceed env server.ring server.shutdown server.published.length =
            some { session with writer, phase := .streaming events } ∧
          writer.accepted = session.writer.accepted ++ frame ((BrokerFrame.event event).payload env.time) := by
  obtain ⟨history, -, hsessions⟩ := Server.sound_along h halong
  intro session hmem hwrites
  obtain ⟨hsucceed, hphase⟩ := hsessions session hmem hwrites
  constructor
  · intro hended
    cases hcase : session.phase with
    | ended outcome =>
      rw [hcase] at hphase
      obtain ⟨frames, hwrote, hcomplete | ⟨hstrict, -⟩⟩ := hphase
      · exact ⟨frames, hwrote, hcomplete⟩
      · exact absurd trivial hstrict
    | _ => simp [hcase, Phase.isEnded] at hended
  · intro events event hdelivering hfits
    obtain ⟨writer, hwrite, -, haccepted⟩ := writeJson_ok hfits hsucceed
    refine ⟨writer, ?_, haccepted⟩
    simp only [Session.proceed, hdelivering, Session.write, hwrite]

/-- An event that does not fit ends the session, and nothing more is written. -/
theorem oversized_ends {session : Session Time} {events : Nat} {event : AgentEvent Time}
    (hdelivering : session.phase = .delivering events event) (hlong : ¬ (BrokerFrame.event event).Fits env.time) :
    ∃ e, session.proceed env server.ring server.shutdown server.published.length =
      some { session with phase := .ended (.returned (.error e)) } := by
  obtain ⟨e, hwrite⟩ := @writeJson_long _ (AgentEvent.codec env.time) session.writer event (Nat.not_le.mp hlong)
  exact ⟨e, by simp only [Session.proceed, hdelivering, Session.write, hwrite]⟩

end DeliberateClose

section Lengths
open Json

private theorem length_le_toUtf8 (s : Str) : s.length ≤ (toUtf8 s).length := by
  induction s with
  | nil => exact Nat.zero_le _
  | cons c s ih =>
    have hpos := c.utf8Size_pos
    rw [toUtf8, List.flatMap_cons, List.length_append, String.length_utf8EncodeChar, List.length_cons]
    rw [toUtf8] at ih
    omega

private theorem length_le_stringText (s : Str) : s.length ≤ (stringText s).length := by
  have hescape : s.length ≤ (s.flatMap escapeChar).length := by
    induction s with
    | nil => exact Nat.zero_le _
    | cons c s ih =>
      have hpos : 0 < (escapeChar c).length := by
        unfold escapeChar
        repeat' split
        all_goals exact Nat.zero_lt_succ _
      rw [List.flatMap_cons, List.length_append, List.length_cons]
      omega
  rw [stringText, List.length_append, List.length_cons]
  omega

private theorem length_le_object {members : List (Str × Json)} {key : Str} {value : Json} (h : (key, value) ∈ members) :
    value.text.length ≤ (Json.obj members).text.length := by
  rw [text, List.length_cons]
  apply Nat.le_succ_of_le
  induction members with
  | nil => cases h
  | cons first rest ih =>
    obtain ⟨firstKey, firstValue⟩ := first
    cases rest with
    | nil =>
      cases List.mem_singleton.mp h
      simp only [membersText, List.length_append, List.length_cons]
      omega
    | cons next rest =>
      simp only [membersText, List.length_append, List.length_cons]
      rcases List.mem_cons.mp h with heq | hmem
      · cases heq
        omega
      · have := ih hmem
        omega

private theorem length_le_array {items : List Json} {item : Json} (h : item ∈ items) :
    item.text.length ≤ (Json.arr items).text.length := by
  rw [text, List.length_cons]
  apply Nat.le_succ_of_le
  induction items with
  | nil => cases h
  | cons first rest ih =>
    cases rest with
    | nil =>
      cases List.mem_singleton.mp h
      simp only [itemsText, List.length_append, List.length_cons]
      omega
    | cons next rest =>
      simp only [itemsText, List.length_append, List.length_cons]
      rcases List.mem_cons.mp h with rfl | hmem
      · omega
      · have := ih hmem
        omega

end Lengths

section Samples

private def sampleEnv : SessionEnv Unit where
  time := {
    format := fun _ => "2026-01-02T03:04:05Z".toList
    parse := fun s => if s = "2026-01-02T03:04:05Z".toList then some () else none
    parse_format := fun _ => if_pos rfl }
  jsonError _ := "expected value at line 1 column 1".toList

private def samplePayload : Bytes := (PluginHello.codec.toJson (.new "viewer".toList)).toVec

private def sampleReader : Socket := ⟨[some ⟨frame samplePayload, List.cons_ne_nil _ _⟩], none⟩

/-- A server with one connection and the given publications. -/
private def sampleServer (history : List (AgentEvent Unit)) (shutdown : Watch Bool) (session : Session Unit) : Server Unit :=
  ⟨.running, 0, history.foldl .send .empty, shutdown, [session], history⟩

private def stillRunning : Watch Bool := ⟨false, 0, false⟩

private def sampleAcceptance : List (Action Unit) :=
  [.proceed, .accept sampleReader [], .session 0 .proceed, .session 0 .proceed, .session 0 .proceed, .session 0 .proceed]

private theorem sample_hello : handshakePayload sampleEnv (.ok (some samplePayload)) = .validated .v1 := by
  have hslice : Json.fromSlice samplePayload = some (PluginHello.codec.toJson (.new "viewer".toList)) :=
    JsonCodec.fromSlice_toVec (by decide) _
  have hread : RawPluginHello.fromSlice samplePayload = some ⟨1, "viewer".toList⟩ := by
    rw [RawPluginHello.fromSlice, hslice]
    decide
  have hversion : PluginProtocolVersion.tryFrom 1 = some .v1 := by decide
  have hid : validPluginId "viewer".toList = true := by decide
  simp only [handshakePayload, handshakeReply, hread, hversion, hid, if_true]

private theorem sample_step {history : List (AgentEvent Unit)} {shutdown : Watch Bool} {session next : Session Unit}
    (h : session.proceed sampleEnv (history.foldl .send .empty) shutdown history.length = some next) :
    Server.step sampleEnv (sampleServer history shutdown session) (.session 0 .proceed) =
      some (sampleServer history shutdown next) := by
  simp [Server.step, Server.stepSession, sampleServer, Session.step, h]

private def Reaches (s : Server Unit) (actions : List (Action Unit)) (s' : Server Unit) : Prop :=
  run (Server.step sampleEnv) s actions = some s' ∧ Along (Server.step sampleEnv) (Server.Deliverable sampleEnv) s actions

private theorem reach {s next s' : Server Unit} {action : Action Unit} {rest : List (Action Unit)}
    (hcondition : Server.Deliverable sampleEnv s action) (hstep : Server.step sampleEnv s action = some next)
    (hrest : Reaches next rest s') : Reaches s (action :: rest) s' :=
  ⟨run_cons.mpr ⟨next, hstep, hrest.1⟩, .cons hcondition hstep hrest.2⟩

private theorem sample_accepted : ∃ reader writer, (∀ rest s',
    Reaches (sampleServer [] stillRunning ⟨.streaming 0, reader, writer, 0, 0, Mitm.willingWriter⟩) rest s' →
      Reaches .bind (sampleAcceptance ++ rest) s') ∧
        writer.WritesSucceed ∧ writer.accepted = frame (BrokerHello.codec.toJson ⟨.v1⟩).toVec := by
  obtain ⟨reader, hread, -⟩ := @readPayload_frame sampleReader samplePayload [] (by decide)
    (by simp [sampleReader, Stream.Polled.contents])
  obtain ⟨writer, hwrite, hwrites, haccepted⟩ := writeJson_ok (fits_hello sampleEnv.time ⟨.v1⟩) Mitm.willingWriter_succeeds
  refine ⟨reader, writer, fun rest s' hrest => ?_, hwrites, haccepted⟩
  refine reach trivial rfl ?_
  refine @reach _ (sampleServer [] stillRunning (.new sampleReader Mitm.willingWriter 0)) _ _ _ trivial rfl ?_
  refine reach (by rintro _ _ _ ⟨⟩ ⟨⟩) (sample_step rfl) ?_
  refine @reach _ (sampleServer [] stillRunning ⟨.validated .v1, reader, Mitm.willingWriter, 0, 0, Mitm.willingWriter⟩) _ _ _
    (by rintro _ _ _ ⟨⟩ ⟨⟩) (sample_step ?_) ?_
  · simp only [Session.proceed, hread, sample_hello, Session.new]
  refine reach (by rintro _ _ _ ⟨⟩ ⟨⟩) (sample_step rfl) ?_
  refine reach (by rintro _ _ _ ⟨⟩ ⟨⟩) (sample_step ?_) hrest
  simp only [Session.proceed, Session.write, hwrite]
  rfl

/-- A session that is accepted, and up to date. -/
theorem sample_session_stream : ∃ server session, run (Server.step sampleEnv) .bind sampleAcceptance = some server ∧
    session ∈ server.sessions ∧ session.transport.WritesSucceed ∧
    (∃ frames, session.Wrote sampleEnv frames ∧ Transcript server.published session.subscribedAt frames) ∧
    session.TakesNext sampleEnv server ∧ session.ClosesLast sampleEnv server := by
  obtain ⟨reader, writer, hreaches, -⟩ := sample_accepted
  have hrun := (hreaches [] _ ⟨rfl, trivial⟩).1
  rw [List.append_nil] at hrun
  exact ⟨_, _, hrun, List.mem_singleton_self _, Mitm.willingWriter_succeeds,
    (plugin_session_stream sampleEnv hrun).1 _ (List.mem_singleton_self _) Mitm.willingWriter_succeeds⟩

private def stopped : Watch Bool := ⟨true, 1, false⟩

/-- A session that is accepted, and closed by the shutdown. -/
theorem sample_session_closes : ∃ server session, run (Server.step sampleEnv) .bind
    (sampleAcceptance ++ [.sendShutdown true, .session 0 .proceed, .session 0 .proceed, .session 0 .proceed]) = some server ∧
      session ∈ server.sessions ∧ session.phase.isEnded = true ∧
        ∃ frames, session.Wrote sampleEnv frames ∧ Complete server.published session.subscribedAt frames := by
  obtain ⟨reader, writer, hreaches, hwrites, -⟩ := sample_accepted
  have hfits : KnownClose shutdownClose := .inl rfl
  obtain ⟨writer', hwrite, -⟩ := writeJson_ok (hfits.fits sampleEnv.time) hwrites
  have hclosed : Reaches (sampleServer [] stillRunning ⟨.streaming 0, reader, writer, 0, 0, Mitm.willingWriter⟩)
      [.sendShutdown true, .session 0 .proceed, .session 0 .proceed, .session 0 .proceed]
      (sampleServer [] stopped ⟨.ended (.returned (.ok ())), reader, writer', 1, 0, Mitm.willingWriter⟩) := by
    refine @reach _ (sampleServer [] stopped ⟨.streaming 0, reader, writer, 0, 0, Mitm.willingWriter⟩) _ _ _ trivial rfl ?_
    refine reach (by rintro _ _ _ ⟨⟩ ⟨⟩) (sample_step rfl) ?_
    refine reach (by rintro _ _ _ ⟨⟩ ⟨⟩) (sample_step rfl) ?_
    refine reach (by rintro _ _ _ ⟨⟩ ⟨⟩) (sample_step ?_) ⟨rfl, trivial⟩
    simp only [Session.proceed, Session.write, hwrite]
    rfl
  obtain ⟨hrun, halong⟩ := hreaches _ _ hclosed
  exact ⟨_, _, hrun, List.mem_singleton_self _, rfl, (accepted_session_closes sampleEnv hrun halong _
    (List.mem_singleton_self _) Mitm.willingWriter_succeeds).1 rfl⟩

/-- An answer with a text of `n` characters. -/
private def longEvent (n : Nat) : AgentEvent Unit where
  eventId := "e1".toList
  observedAt := ()
  device := ⟨"host".toList, "linux".toList, none⟩
  agent := ⟨"codex".toList, none⟩
  sessionId := "s1".toList
  responseId := none
  previousResponseId := none
  subagentId := none
  parentSubagentId := none
  turnId := none
  purpose := none
  llm := ⟨.openAi, "m".toList⟩
  side := .response
  omitted := []
  conversation := some ⟨[⟨.assistant, List.replicate n 'a', none, none, none⟩], .complete⟩
  path := "/v1/responses".toList
  headers := []
  tokenUsage := ⟨0, 0, 0, 0, 0, 0⟩
  attachments := []

private theorem longEvent_long (n : Nat) : n ≤ ((BrokerFrame.event (longEvent n)).payload sampleEnv.time).length := by
  let entry : ConversationEntry := ⟨.assistant, List.replicate n 'a', none, none, none⟩
  have hentry : ∃ members, ConversationEntry.codec.toJson entry = .obj members ∧
      ("text".toList, Json.str (List.replicate n 'a')) ∈ members :=
    ⟨_, rfl, List.mem_append_right _ (List.mem_append_left _ List.mem_cons_self)⟩
  have hconversation : ∃ members, Conversation.codec.toJson ⟨[entry], .complete⟩ = .obj members ∧
      ("entries".toList, Json.arr [ConversationEntry.codec.toJson entry]) ∈ members :=
    ⟨_, rfl, List.mem_append_left _ List.mem_cons_self⟩
  have hevent : ∃ members, (AgentEvent.codec sampleEnv.time).toJson (longEvent n) = .obj members ∧
      ("conversation".toList, Conversation.codec.toJson ⟨[entry], .complete⟩) ∈ members := by
    refine ⟨_, rfl, ?_⟩
    simp [AgentEvent.fields, JsonFields.cons, JsonField.write, JsonField.required, JsonField.optional, JsonField.listed,
      JsonCodec.nullable, longEvent, entry]
  obtain ⟨entryMembers, hentryJson, htext⟩ := hentry
  obtain ⟨conversationMembers, hconversationJson, hentries⟩ := hconversation
  obtain ⟨eventMembers, heventJson, hmember⟩ := hevent
  calc n = (List.replicate n 'a').length := List.length_replicate.symm
    _ ≤ (Json.str (List.replicate n 'a')).text.length := by
      rw [Json.text]
      exact length_le_stringText _
    _ ≤ (ConversationEntry.codec.toJson entry).text.length := by
      rw [hentryJson]
      exact length_le_object htext
    _ ≤ (Json.arr [ConversationEntry.codec.toJson entry]).text.length := length_le_array List.mem_cons_self
    _ ≤ (Conversation.codec.toJson ⟨[entry], .complete⟩).text.length := by
      rw [hconversationJson]
      exact length_le_object hentries
    _ ≤ ((AgentEvent.codec sampleEnv.time).toJson (longEvent n)).text.length := by
      rw [heventJson]
      exact length_le_object hmember
    _ ≤ _ := length_le_toUtf8 _

/-- An acceptance alone is not complete. -/
private theorem hello_incomplete {published : List (AgentEvent Unit)} {frames : List (BrokerFrame Unit)}
    (h : Complete published 0 frames) : frames.flatMap (fun f => frame (f.payload sampleEnv.time)) ≠
      frame (BrokerHello.codec.toJson ⟨.v1⟩).toVec := by
  intro heq
  have hlength := congrArg List.length heq
  rw [length_frame] at hlength
  cases h with
  | silent =>
    simp only [List.flatMap_nil, List.length_nil, frameHeaderBytes] at hlength
    omega
  | rejected error =>
    rw [List.flatMap_cons, List.flatMap_nil, List.append_nil] at heq
    have hpayload : (PluginProtocol.BrokerError.codec.toJson error).toVec = (BrokerHello.codec.toJson ⟨.v1⟩).toVec :=
      congrArg (List.drop 4) heq
    have hjson := congrArg Json.fromSlice hpayload
    rw [JsonCodec.fromSlice_toVec (by decide), JsonCodec.fromSlice_toVec (by decide), Option.some.injEq] at hjson
    have hread := BrokerHello.codec_reads ⟨.v1⟩
    rw [JsonCodec.Reads, ← hjson, PluginProtocol.BrokerError.not_hello] at hread
    cases hread
  | @closed hello n close hn =>
    obtain ⟨version⟩ := hello
    cases version
    simp only [streamed, List.cons_append, List.flatMap_cons, List.flatMap_append, List.flatMap_nil, List.length_append,
      length_frame, BrokerFrame.payload, frameHeaderBytes] at hlength
    omega

/-- An event of 64 MiB ends an accepted session after its acceptance, without a close. -/
theorem oversized_event_cuts_session : ¬ ∀ (actions : List (Action Unit)) (server : Server Unit),
    run (Server.step sampleEnv) .bind actions = some server → ∀ session ∈ server.sessions, session.transport.WritesSucceed →
      session.phase.isEnded = true → ∃ frames, session.Wrote sampleEnv frames ∧
        Complete server.published session.subscribedAt frames := by
  intro h
  obtain ⟨reader, writer, hreaches, hwrites, haccepted⟩ := sample_accepted
  have hlong := longEvent_long (maxJsonFrameBytes + 1)
  generalize longEvent (maxJsonFrameBytes + 1) = event at hlong
  have haccept := (hreaches [] _ ⟨rfl, trivial⟩).1
  rw [List.append_nil] at haccept
  obtain ⟨e, hends⟩ := @oversized_ends _ sampleEnv
    (sampleServer [event] stillRunning ⟨.delivering 1 event, reader, writer, 0, 0, Mitm.willingWriter⟩)
    ⟨.delivering 1 event, reader, writer, 0, 0, Mitm.willingWriter⟩ 1 event rfl (Nat.not_le.mpr hlong)
  have hrun : run (Server.step sampleEnv) .bind
      (sampleAcceptance ++ [.publish event, .session 0 .proceed, .session 0 .proceed, .session 0 .proceed]) =
      some (sampleServer [event] stillRunning ⟨.ended (.returned (.error e)), reader, writer, 0, 0, Mitm.willingWriter⟩) := by
    refine run_append.mpr ⟨_, haccept, ?_⟩
    refine run_cons.mpr ⟨sampleServer [event] stillRunning ⟨.streaming 0, reader, writer, 0, 0, Mitm.willingWriter⟩, rfl, ?_⟩
    refine run_cons.mpr ⟨_, sample_step rfl, ?_⟩
    refine run_cons.mpr ⟨_, sample_step rfl, ?_⟩
    exact run_cons.mpr ⟨_, sample_step hends, rfl⟩
  obtain ⟨frames, hwrote, hcomplete⟩ := h _ _ hrun _ (List.mem_singleton_self _) Mitm.willingWriter_succeeds rfl
  exact hello_incomplete hcomplete (hwrote.symm.trans haccepted)

end Samples
end Abyss.Broker.Plugin
