/-
EsphomeApi.Connection.KeepaliveRuns — the keepalive over whole runs.

The transport delivers nothing after `close` and `start` is called before the
first session, or after one (`Restarts`); then every event keeps `Maintained`.
`Watch` counts the sessions and remembers the pings since the last
`PingResponse`; `KeepaliveWorks` is what the two timers are for, said of the
pings of the current session.
-/
import EsphomeApi.Connection.Keepalive

namespace EsphomeApi

open Proto Library

namespace Connection

variable {σ : Type} {E : Environment σ} {Q : σ → Prop} {s t u : Connection σ}
  {pings : List Int}

/-! ## Events -/

/-- A closed transport holds nothing of the connection. -/
def Silenced (s : Connection σ) : Prop :=
  s.transport.closed = true →
    s.transport.connects = 0 ∧ s.transport.reading = false ∧ s.transport.completions = 0

/-- `start` is called before the first session, or in `Failed` or `Closed`. -/
def Restarts (s : Connection σ) : Event → Prop
  | .start _ _ _ => s.state = .disconnected ∨ s.state.terminal = true
  | _ => True

/-- The pings of the session, after an event that may start another. -/
def sessionPings (pings : List Int) : Event → List Int
  | .start _ _ _ => []
  | _ => pings

section

variable (hcalls : ∀ call (s : Connection σ), E.calls call s = [])

include hcalls

theorem passes_start (host : CString) (port : UInt16) (onDone : HandlerId)
    (hrest : Silenced s) (hstate : s.state = .disconnected ∨ s.state.terminal = true)
    (h : Maintained Q pings s) : Passes Q [] s (start E host port onDone s) := by
  have hidle : Idle s := by
    refine h.keepalive.idle fun hconnected => ?_
    simp [hconnected, ConnectionState.terminal] at hstate
  have hempty : s.transport.connects = 0 ∧ s.transport.reading = false ∧
      s.transport.completions = 0 := by
    rcases hstate with hfresh | hended
    · obtain ⟨hconnects, hreading⟩ := h.session.fresh hfresh
      refine ⟨hconnects, hreading, ?_⟩
      by_contra hsome
      have hleft := (h.session.completions hsome).1
      simp [hfresh, ConnectionState.terminal] at hleft
    · exact hrest (h.session.ended hended)
  have hstarted : Entered Q s.state s
      (emit .started { s with connectHandler := some onDone, lastError := none }) :=
    ⟨rfl, rfl, id, rfl, rfl, rfl, rfl, rfl, by simp [pingWriters, emit, Output.pingWriter]⟩
  have hset := hstarted.trans (entered_setStateWith hcalls (disconnect E) .connecting _)
  have hidle' := hidle.congr hset.executor hset.pingTimer hset.pongTimer hset.awaitingPong
  have hconnects : (start E host port onDone s).transport.connects = 1 :=
    (congrArg (·.connects + 1) hset.transport).trans (congrArg (· + 1) hempty.1)
  have hreading : (start E host port onDone s).transport.reading = false :=
    (congrArg Transport.reading hset.transport).trans hempty.2.1
  have hcompletions : (start E host port onDone s).transport.completions = 0 :=
    (congrArg Transport.completions hset.transport).trans hempty.2.2
  have hconnecting : (start E host port onDone s).state = .connecting := hset.state
  have hping : TimerCallback.connectTimeout ≠ .ping := by decide
  have hpong : TimerCallback.connectTimeout ≠ .pongTimeout := by decide
  refine ⟨⟨?_, ?_, fun hsome => absurd rfl hsome⟩, ?_, hreading.trans hempty.2.1.symm⟩
  · have hidle : Idle (start E host port onDone s) := {
      ids := (hidle'.ids.schedule _ .connectTimeout).congr rfl
      ping := (hidle'.ping.schedule _ hping).congr rfl
      pong := (hidle'.pong.schedule _ hpong).congr rfl
      awaitingPong := hidle'.awaitingPong }
    refine hidle.keepalive (fun hconnected => ?_) (Or.inl rfl) .nil (by simp)
    cases hconnecting.symm.trans hconnected
  · exact {
      connects := by rw [hconnects]
      reading := fun hread => by cases hreading.symm.trans hread
      active := fun hactive => by rw [hconnecting] at hactive; cases hactive
      ended := fun hended => by rw [hconnecting] at hended; cases hended
      completions := fun hsome => absurd hcompletions hsome
      fresh := fun hfresh => by cases hconnecting.symm.trans hfresh }
  · rw [← hset.pings]
    exact (entered_emit (Q := Q) (o := .connect host port) rfl _).pings

theorem passes_onConnectedTransport (hcancels : ∀ (s : Connection σ) id, E.cancels s id = true)
    (hL : Latched E.helper Q) (ec : Option ErrorCode) (hrest : Silenced s)
    (hconnects : s.transport.connects ≠ 0) (h : Maintained Q pings s) :
    Maintained Q pings (onConnectedTransport E ec (takeConnect s)) ∧
      (onConnectedTransport E ec (takeConnect s)).pingWriters = s.pingWriters := by
  have hone : s.transport.connects - 1 = 0 := by
    have hle := h.session.connects
    omega
  have hinactive : s.state.active = false := by
    by_contra hactive
    exact hconnects (h.session.active (Bool.not_eq_false _ ▸ hactive)).1
  have hlive : s.state.terminal = false := by
    by_contra hended
    exact hconnects (hrest (h.session.ended (Bool.not_eq_false _ ▸ hended))).1
  have hclosing : s.state ≠ .closing := by
    intro hclosing
    rw [hclosing] at hinactive
    cases hinactive
  have hidle := h.keepalive.idle fun hconnected => by
    rw [hconnected] at hinactive
    cases hinactive
  -- the connect has been taken, and bytes may be delivered
  have htaken : ∀ reading, Maintained Q pings { s with transport :=
      { s.transport with connects := s.transport.connects - 1, reading := reading } } := by
    intro reading
    refine ⟨h.keepalive.congr rfl rfl rfl rfl rfl rfl, ?_, h.served⟩
    exact { h.session with
      connects := by rw [hone]; exact Nat.zero_le _
      reading := fun _ => hone
      active := fun hactive => absurd (hinactive.symm.trans hactive) nofun
      fresh := fun hfresh => absurd (h.session.fresh hfresh).1 hconnects }
  cases ec with
  | some ec =>
      have hpasses := passes_fail hcalls hcancels ec (lit "tcp connect failed")
        (htaken s.transport.reading)
      exact ⟨hpasses.maintained, hpasses.pings⟩
  | none =>
      have hread : Passes Q pings { s with transport :=
          { s.transport with connects := s.transport.connects - 1, reading := true } }
          (startRead (takeConnect s)) :=
        (htaken true).passes.entered (entered_emit (o := .startRead) rfl _)
      unfold onConnectedTransport
      dsimp only
      split
      · have hhooks : Passes Q pings _ { startRead (takeConnect s) with frameHelper :=
            (E.helper.connectBytes (E.helper.setHandshakeHandlers s.frameHelper)).2 } :=
          ⟨hread.maintained.helper (hL.lasting.hooks _), hread.pings, hread.reading⟩
        split
        · exact ⟨hhooks.maintained, hhooks.pings⟩
        · have hwritten := hhooks.entered (entered_emit (o := .writeInitial
            (E.helper.connectBytes (E.helper.setHandshakeHandlers s.frameHelper)).1) rfl _)
          exact ⟨hwritten.maintained, hwritten.pings⟩
      · next hneeds =>
          have hplain := hL.plain (Bool.eq_false_iff.mpr hneeds) s.frameHelper
          have hbefore : Unopened pings (startRead (takeConnect s)) := {
            state := hinactive
            connects := hone
            completions := by
              by_contra hsome
              have hleft := (h.session.completions hsome).1
              simp [hclosing, hlive] at hleft
            pings := by
              have hanswered := h.keepalive.answered hidle.awaitingPong
              simpa [hclosing, hlive] using hanswered }
          have hready := passes_onReady hcalls hL.lasting hbefore hread.maintained hplain
          exact ⟨hready.maintained, hready.pings.trans hread.pings⟩

end

section

variable (hcalls : ∀ call (s : Connection σ), E.calls call s = [])
  (hcancels : ∀ (s : Connection σ) id, E.cancels s id = true)

include hcalls hcancels

/-- A call of the application, which may be a ping of its own. -/
theorem follows_perform (hQ : Lasting E.helper Q) (call : Call) (h : Maintained Q pings s) :
    Follows Q pings s (perform E (disconnect E) call s) := by
  cases call with
  | disconnect => exact (passes_disconnect hcalls hcancels hQ h).follows
  | sendRaw type payload =>
      refine ⟨(Output.pingWriter (.write .application ⟨type, payload⟩
        (E.helper.encode type payload s.frameHelper).1)).toList, ?_, ?_⟩
      · show (s.log ++ [_]).filterMap Output.pingWriter = _
        rw [List.filterMap_append]
        cases hping : Output.pingWriter (.write .application ⟨type, payload⟩
          (E.helper.encode type payload s.frameHelper).1) <;> simp [pingWriters, hping]
      · have hsent : Maintained Q pings (sendRaw E .application type payload s) := by
          have hencoded : Maintained Q pings
              { s with frameHelper := (E.helper.encode type payload s.frameHelper).2 } :=
            h.helper (hQ.encode _ _ _)
          exact ⟨hencoded.keepalive.congr rfl rfl rfl rfl rfl rfl,
            hencoded.session.congr rfl id rfl, hencoded.served⟩
        show Maintained Q _ (sendRaw E .application type payload s)
        by_cases htype : type = MessageId.pingRequest
        · subst htype
          simpa [Output.pingWriter] using hsent
        · simpa [Output.pingWriter, htype] using hsent
  | on type handler =>
      show Follows Q pings s (on E type handler s)
      unfold on
      split
      · refine (h.passes.entered ?_).follows
        exact ⟨rfl, rfl, id, rfl, rfl, rfl, rfl, rfl, rfl⟩
      · exact h.passes.follows
  | _ =>
      refine (h.passes.entered ?_).follows
      exact ⟨rfl, rfl, id, rfl, rfl, rfl, rfl, rfl, rfl⟩

theorem follows_connectResult (hL : Latched E.helper Q) (ec : Option ErrorCode)
    (hrest : Silenced s) (h : Maintained Q pings s) :
    Follows Q pings s (connectResult E ec s) := by
  unfold connectResult
  split
  · exact h.passes.follows
  · next hconnects =>
      obtain ⟨hkept, hpings⟩ := passes_onConnectedTransport hcalls hcancels hL ec hrest hconnects h
      exact ⟨[], by rw [hpings, List.append_nil], by simpa using hkept⟩

theorem follows_readFailed (ec : ErrorCode) (h : Maintained Q pings s) :
    Follows Q pings s (readFailed E ec s) := by
  have hstopped : Maintained Q pings (stopReading s) :=
    ⟨h.keepalive.congr rfl rfl rfl rfl rfl rfl,
      { h.session with
        reading := nofun
        fresh := fun hfresh => ⟨(h.session.fresh hfresh).1, rfl⟩ }, h.served⟩
  unfold readFailed
  split
  · unfold onReadError
    split
    · exact ⟨[], (List.append_nil _).symm, by simpa using hstopped⟩
    · have hfailed := passes_fail hcalls hcancels ec (lit "read failed") hstopped
      exact ⟨[], by rw [hfailed.pings, List.append_nil]; rfl, by simpa using hfailed.maintained⟩
  · exact h.passes.follows

omit hcancels in
theorem passes_writeDone (h : Maintained Q pings s) : Passes Q pings s (writeDone E s) := by
  unfold writeDone
  split
  · exact h.passes
  · next hsome =>
      have hleft := (h.session.completions hsome).1
      have hstate : (takeCompletion s).state ≠ .connected := by
        intro hconnected
        have hsame : s.state = .connected := hconnected
        simp [hsame, ConnectionState.terminal] at hleft
      have htaken : Maintained Q pings (takeCompletion s) :=
        ⟨h.keepalive.congr rfl rfl rfl rfl rfl rfl,
          { h.session with completions := fun _ => h.session.completions hsome }, h.served⟩
      have hfinished := passes_finishDisconnect hcalls hstate htaken
      exact ⟨hfinished.maintained, hfinished.pings, hfinished.reading⟩

omit hcalls hcancels in
/-- Time passes. -/
theorem passes_elapse (ms : Nat) (h : Maintained Q pings s) :
    Passes Q pings s (elapse ms s) := by
  refine ⟨⟨?_, h.session.congr rfl id rfl, h.served⟩, rfl, rfl⟩
  obtain ⟨deadline, hping, hiff⟩ := h.keepalive.ping
  exact { h.keepalive with
    ids := ⟨h.keepalive.ids.nodup, h.keepalive.ids.below, h.keepalive.ids.valid⟩
    ping := ⟨deadline, ⟨hping.1, hping.2⟩, hiff⟩
    pong := ⟨h.keepalive.pong.1, h.keepalive.pong.2⟩
    past := fun sent hsent => (h.keepalive.past sent hsent).trans
      (Int.le_add_of_nonneg_right (Int.natCast_nonneg ms)) }

/-- One event. -/
theorem follows_step (hL : Latched E.helper Q) (e : Event) (hrest : Silenced s)
    (he : Restarts s e) (h : Maintained Q pings s) :
    Follows Q (unanswered (sessionPings pings e) (processed E s e)) s (step E s e) := by
  cases e with
  | start host port onDone => exact (passes_start hcalls host port onDone hrest he h).follows
  | connectResult ec => exact follows_connectResult hcalls hcancels hL ec hrest h
  | bytes data =>
      show Follows Q _ s (receive E data s)
      unfold receive
      split
      · next hreading => exact (passes_onBytes hcalls hcancels hL data hreading h).follows
      · next hreading =>
          have hnone : processed E s (.bytes data) = [] := by simp [processed, turnsOf, hreading]
          rw [hnone]
          exact h.passes.follows
  | readError ec => exact follows_readFailed hcalls hcancels ec h
  | writeDone => exact (passes_writeDone hcalls h).follows
  | timer id => exact follows_onTimer hcalls hcancels hL.lasting id h
  | elapse ms => exact (passes_elapse ms h).follows
  | call call => exact follows_perform hcalls hcancels hL.lasting call h

end

theorem Maintained.silence (h : Maintained Q pings s) :
    Maintained Q pings (silence s) ∧ Silenced (silence s) ∧
      (silence s).pingWriters = s.pingWriters := by
  rcases silence_cases s with ⟨hopen, heq⟩ | ⟨-, heq⟩
  · rw [heq]
    exact ⟨h, fun hclosed => absurd (hclosed.symm.trans hopen) nofun, rfl⟩
  · rw [heq]
    refine ⟨⟨h.keepalive.congr rfl rfl rfl rfl rfl rfl, ?_, h.served⟩, fun _ => ⟨rfl, rfl, rfl⟩,
      rfl⟩
    exact { h.session with
      connects := Nat.zero_le _
      reading := fun _ => rfl
      active := fun hactive => ⟨rfl, (h.session.active hactive).2⟩
      completions := fun hsome => absurd rfl hsome
      fresh := fun _ => ⟨rfl, rfl⟩ }

/-! ## Runs -/

/-- A `PingRequest` that was written. -/
structure Ping where
  sent : Int
  session : Nat
  writer : Writer

/-- A connection with the number of its sessions and the pings since which no
`PingResponse` has been processed. -/
structure Watch (σ : Type) where
  connection : Connection σ
  session : Nat := 0
  pings : List Ping := []

namespace Watch

/-- The number of the session after an event. -/
def sessionAfter (w : Watch σ) : Event → Nat
  | .start _ _ _ => w.session + 1
  | _ => w.session

/-- The pings that an event writes. -/
def sent (E : Environment σ) (w : Watch σ) (e : Event) : List Ping :=
  ((stepClosing E w.connection e).pingWriters.drop w.connection.pingWriters.length).map
    fun writer => ⟨w.connection.executor.now, w.sessionAfter e, writer⟩

/-- One event, with a transport that delivers nothing after `close`. -/
def step (E : Environment σ) (w : Watch σ) (e : Event) : Watch σ where
  connection := stepClosing E w.connection e
  session := w.sessionAfter e
  pings := (if (processed E w.connection e).any ProtoMessage.isPong then [] else w.pings) ++
    w.sent E e

/-- The pings of the keepalive in the current session. -/
def current (w : Watch σ) : List Ping :=
  w.pings.filter fun ping => ping.writer = .connection ∧ ping.session = w.session

end Watch

/-- The connection fails because the pong timer has expired. -/
def TimesOut (E : Environment σ) (s : Connection σ) (e : Event) : Prop :=
  s.state.terminal = false ∧ (step E s e).state = .failed ∧ ∃ id timer, e = .timer id ∧
    (s.executor.timers.find? fun timer => timer.id = id ∧ timer.deadline ≤ s.executor.now) =
      some timer ∧ timer.callback = .pongTimeout

/-- The keepalive works, when the given pings have not been answered. -/
structure KeepaliveWorks (E : Environment σ) (pings : List Ping) (s : Connection σ) : Prop where
  ping : (∃ timer ∈ s.executor.timers, timer.callback = .ping) ↔
    s.state = .connected ∧ 0 < s.options.keepaliveInterval
  pong : (∃ timer ∈ s.executor.timers, timer.callback = .pongTimeout) ↔ s.awaitingPong = true
  connected : (∃ timer ∈ s.executor.timers, timer.callback = .pongTimeout) → s.state = .connected
  failure : ∀ e, TimesOut E s e →
    ∃ ping ∈ pings, ping.sent + s.options.keepaliveTimeout ≤ s.executor.now
  detection : s.state = .connected → ∀ ping ∈ pings, ∃ timer ∈ s.executor.timers,
    timer.callback = .pongTimeout ∧ timer.deadline ≤ ping.sent + s.options.keepaliveTimeout

theorem exists_timer {callback : TimerCallback} {id : TimerId} {deadline : Option Int}
    (h : Holds callback id deadline s) :
    (∃ timer ∈ s.executor.timers, timer.callback = callback) ↔ deadline.isSome := by
  constructor
  · rintro ⟨timer, hmem, rfl⟩
    rw [(h.eq_of_mem hmem).1]
    rfl
  · intro hsome
    obtain ⟨timer, hmem, -, hcallback⟩ := h.mem hsome
    exact ⟨timer, hmem, hcallback⟩

theorem Keepalive.pongDeadline_isSome (h : Keepalive pings s) :
    (pongDeadline pings s).isSome ↔ s.awaitingPong = true := by
  unfold pongDeadline
  cases hawaiting : s.awaitingPong with
  | false => simp
  | true =>
      obtain ⟨first, rest, rfl⟩ := List.exists_cons_of_ne_nil (h.awaiting hawaiting).2
      simp

/-- The pong timer is out before every ping that has not been answered is overdue. -/
theorem Keepalive.deadline_le {deadline sent : Int} (h : Keepalive pings s)
    (hdeadline : pongDeadline pings s = some deadline) (hsent : sent ∈ pings) :
    deadline ≤ sent + s.options.keepaliveTimeout := by
  have hawaiting : s.awaitingPong = true := h.pongDeadline_isSome.mp (by rw [hdeadline]; rfl)
  have hsorted := h.sorted
  cases pings with
  | nil => cases hsent
  | cons first rest =>
      have hfirst : first + s.options.keepaliveTimeout = deadline := by
        simpa [pongDeadline, hawaiting] using hdeadline
      have hle : first ≤ sent := by
        rcases List.mem_cons.mp hsent with heq | hrest
        · exact le_of_eq heq.symm
        · exact List.rel_of_pairwise_cons hsorted hrest
      omega

theorem Keepalive.works {records : List Ping} (h : Keepalive (records.map Ping.sent) s) :
    KeepaliveWorks E records s where
  ping := by
    obtain ⟨deadline, hping, hiff⟩ := h.ping
    exact (exists_timer hping).trans hiff
  pong := (exists_timer h.pong).trans h.pongDeadline_isSome
  connected hsome :=
    (h.awaiting (((exists_timer h.pong).trans h.pongDeadline_isSome).mp hsome)).1
  failure e := by
    rintro ⟨-, -, id, timer, rfl, hfind, hcallback⟩
    have hmem := List.mem_of_find?_eq_some hfind
    have hdue : timer.id = id ∧ timer.deadline ≤ s.executor.now := by
      simpa using List.find?_some hfind
    obtain ⟨-, -, -, sent, hsent, hdeadline⟩ := h.pongTimer hmem hcallback
    obtain ⟨record, hrecord, rfl⟩ := List.mem_map.mp hsent
    exact ⟨record, hrecord, hdeadline ▸ hdue.2⟩
  detection hstate record hrecord := by
    have hmem : record.sent ∈ records.map Ping.sent := List.mem_map_of_mem hrecord
    have hawaiting : s.awaitingPong = true := by
      by_contra hidle
      have hanswered := h.answered (Bool.eq_false_iff.mpr hidle)
      have hnone : records.map Ping.sent = [] := by
        simpa [hstate, ConnectionState.terminal] using hanswered
      rw [hnone] at hmem
      cases hmem
    obtain ⟨timer, htimer, hcallback⟩ :=
      (exists_timer h.pong).mpr (h.pongDeadline_isSome.mpr hawaiting)
    have hdeadline := (Holds.eq_of_mem (hcallback ▸ h.pong) htimer).1
    exact ⟨timer, htimer, hcallback, h.deadline_le hdeadline hmem⟩

/-- What is known of a run. -/
structure Watched (Q : σ → Prop) (w : Watch σ) : Prop where
  maintained : Maintained Q (w.current.map Ping.sent) w.connection
  silenced : Silenced w.connection
  sessions : ∀ ping ∈ w.pings, ping.session ≤ w.session

section

variable (hcalls : ∀ call (s : Connection σ), E.calls call s = [])
  (hcancels : ∀ (s : Connection σ) id, E.cancels s id = true)

include hcalls hcancels

theorem watched_step (hL : Latched E.helper Q) (w : Watch σ) (e : Event) (h : Watched Q w)
    (he : Restarts w.connection e) : Watched Q (w.step E e) := by
  obtain ⟨writers, hwriters, hnext⟩ :=
    follows_step hcalls hcancels hL e h.silenced he h.maintained
  obtain ⟨hmaintained, hsilenced, hsame⟩ := hnext.silence
  have hsent : w.sent E e =
      writers.map fun writer => ⟨w.connection.executor.now, w.sessionAfter e, writer⟩ := by
    unfold Watch.sent stepClosing
    rw [hsame, hwriters, List.drop_left]
  have hle : w.session ≤ w.sessionAfter e := by cases e <;> simp [Watch.sessionAfter]
  have hold : ((if (processed E w.connection e).any ProtoMessage.isPong then [] else w.pings).filter
      fun ping => ping.writer = .connection ∧ ping.session = w.sessionAfter e).map Ping.sent =
      unanswered (sessionPings (w.current.map Ping.sent) e) (processed E w.connection e) := by
    unfold unanswered
    split
    · rfl
    · cases e with
      | start host port onDone =>
          have hnone : ∀ ping ∈ w.pings, ping.session ≠ w.session + 1 := by
            intro ping hping heq
            have hbound := h.sessions ping hping
            omega
          simp only [Watch.sessionAfter, sessionPings, List.map_eq_nil_iff, List.filter_eq_nil_iff]
          intro ping hping
          simp [hnone ping hping]
      | _ => rfl
  have hnew : ((w.sent E e).filter fun ping =>
      ping.writer = .connection ∧ ping.session = w.sessionAfter e).map Ping.sent =
      (writers.filter (· = .connection)).map fun _ => w.connection.executor.now := by
    rw [hsent, List.filter_map, List.map_map]
    simp [Function.comp_def]
  refine ⟨?_, hsilenced, ?_⟩
  · have hcurrent : (w.step E e).current.map Ping.sent =
        unanswered (sessionPings (w.current.map Ping.sent) e) (processed E w.connection e) ++
          (writers.filter (· = .connection)).map fun _ => w.connection.executor.now := by
      rw [← hold, ← hnew, ← List.map_append, ← List.filter_append]
      rfl
    rw [hcurrent]
    exact hmaintained
  · intro ping hping
    rcases List.mem_append.mp hping with hping | hping
    · split at hping
      · cases hping
      · exact (h.sessions ping hping).trans hle
    · rw [hsent] at hping
      obtain ⟨writer, -, rfl⟩ := List.mem_map.mp hping
      exact le_refl (w.sessionAfter e)

theorem states_keepaliveWorks (hL : Latched E.helper Q) {f : σ} {options : ConnectionOptions}
    {events : List Event} (hguard : Guarded (Watch.step E) (fun w => Restarts w.connection)
      ⟨create f options, 0, []⟩ events) :
    ∀ w ∈ states (Watch.step E) ⟨create f options, 0, []⟩ events,
      KeepaliveWorks E w.current w.connection := by
  have hidle : Idle (create f options) := {
    ids := ⟨.nil, by simp [create], Nat.zero_lt_one⟩
    ping := ⟨rfl, by simp [create]⟩
    pong := ⟨rfl, by simp [create]⟩
    awaitingPong := rfl }
  have hstart : Watched Q ⟨create f options, 0, []⟩ := {
    maintained := {
      keepalive := hidle.keepalive (fun hconnected => by cases hconnected) (Or.inl rfl) .nil
        (by simp [Watch.current])
      session := {
        connects := Nat.zero_le _
        reading := fun _ => rfl
        active := fun hactive => by cases hactive
        ended := fun hended => by cases hended
        completions := fun hsome => absurd rfl hsome
        fresh := fun _ => ⟨rfl, rfl⟩ }
      served := fun hsome => absurd rfl hsome }
    silenced := fun hclosed => by cases hclosed
    sessions := by simp }
  have hstep : ∀ (w : Watch σ) (e : Event), Watched Q w → Restarts w.connection e →
      Watched Q (w.step E e) := watched_step hcalls hcancels hL
  intro w hw
  exact (states_of_guarded hstep hstart hguard w hw).maintained.keepalive.works

end

theorem Staged.latched {H : FrameHelper σ} {hooked serving : σ → Prop}
    (h : Staged H hooked serving) (hlasting : Lasting H serving) : Latched H serving :=
  ⟨hlasting, h.ready, fun hneeds f => (h.plain hneeds f).2⟩

open Noise

/-- In every run with handlers that call nothing, an executor that cancels and
a transport that delivers nothing after `close`, the keepalive works for the
pings that the connection itself has written in its current session. -/
theorem keepalive_invariant :
    (∀ E : Environment PlaintextFrameHelper, E.helper = PlaintextFrameHelper.frameHelper →
      (∀ call s, E.calls call s = []) → (∀ s id, E.cancels s id = true) →
        ∀ (f : PlaintextFrameHelper) (options : ConnectionOptions) (events : List Event),
          Guarded (Watch.step E) (fun w => Restarts w.connection) ⟨create f options, 0, []⟩ events →
            ∀ w ∈ states (Watch.step E) ⟨create f options, 0, []⟩ events,
              KeepaliveWorks E w.current w.connection) ∧
    ∀ (P : Primitives) (E : Environment NoiseFrameHelper),
      E.helper = NoiseFrameHelper.frameHelper P →
        (∀ call s, E.calls call s = []) → (∀ s id, E.cancels s id = true) →
          ∀ (f : NoiseFrameHelper) (options : ConnectionOptions) (events : List Event),
            Guarded (Watch.step E) (fun w => Restarts w.connection) ⟨create f options, 0, []⟩
              events →
              ∀ w ∈ states (Watch.step E) ⟨create f options, 0, []⟩ events,
                KeepaliveWorks E w.current w.connection := by
  refine ⟨?_, ?_⟩
  · intro E hhelper hcalls hcancels f options events hguard
    have hlasting : Lasting PlaintextFrameHelper.frameHelper fun _ => True :=
      PlaintextFrameHelper.staged.lasting
    exact states_keepaliveWorks hcalls hcancels
      (hhelper ▸ PlaintextFrameHelper.staged.latched hlasting) hguard
  · intro P E hhelper hcalls hcancels f options events hguard
    exact states_keepaliveWorks hcalls hcancels
      (hhelper ▸ NoiseFrameHelper.staged.latched NoiseFrameHelper.lasting_ready) hguard

/-- A ping is not answered, and the application disconnects and starts again. -/
def twoSessions : List Event :=
  [.start (lit "device.local") 6053 7, .connectResult none, .bytes [0x00, 0x02, 0x02, 0x08, 0x01],
    .elapse 20000, .timer 2, .call .disconnect, .writeDone,
    .start (lit "device.local") 6053 7, .connectResult none, .bytes [0x00, 0x02, 0x02, 0x08, 0x01]]

/-- The application sends a `PingRequest` itself. -/
def applicationPing : List Event :=
  [.start (lit "device.local") 6053 7, .connectResult none, .bytes [0x00, 0x02, 0x02, 0x08, 0x01],
    .call (.sendRaw MessageId.pingRequest [])]

theorem restarts_twoSessions : Guarded (Watch.step plaintextEnvironment)
    (fun w => Restarts w.connection) ⟨create {} {}, 0, []⟩ twoSessions := by
  refine ⟨Or.inl rfl, trivial, trivial, trivial, trivial, trivial, trivial, Or.inr ?_, trivial,
    trivial, trivial⟩
  decide +kernel

theorem restarts_applicationPing : Guarded (Watch.step plaintextEnvironment)
    (fun w => Restarts w.connection) ⟨create {} {}, 0, []⟩ applicationPing :=
  ⟨Or.inl rfl, trivial, trivial, trivial, trivial⟩

/-- In a connection that is `Connected` without a pong timer, a ping that is out
goes undetected. -/
theorem not_keepaliveWorks {pings : List Ping} (hstate : s.state = .connected)
    (hsome : pings.length = 1) (hnone : (s.pending .pongTimeout).length = 0) :
    ¬ KeepaliveWorks E pings s := by
  intro hworks
  obtain ⟨ping, rfl⟩ := List.length_eq_one_iff.mp hsome
  obtain ⟨timer, hmem, hcallback, -⟩ := hworks.detection hstate ping (by simp)
  have hpending : timer ∈ s.pending .pongTimeout := List.mem_filter.mpr ⟨hmem, by simp [hcallback]⟩
  rw [List.length_eq_zero_iff.mp hnone] at hpending
  cases hpending

/-- A ping of an earlier session and a ping of the application are not timed. -/
theorem keepalive_other_pings :
    (Guarded (Watch.step plaintextEnvironment) (fun w => Restarts w.connection)
        ⟨create {} {}, 0, []⟩ twoSessions ∧
      let w := run (Watch.step plaintextEnvironment) ⟨create {} {}, 0, []⟩ twoSessions
      ¬ KeepaliveWorks plaintextEnvironment w.pings w.connection) ∧
    Guarded (Watch.step plaintextEnvironment) (fun w => Restarts w.connection)
        ⟨create {} {}, 0, []⟩ applicationPing ∧
      let w := run (Watch.step plaintextEnvironment) ⟨create {} {}, 0, []⟩ applicationPing
      ¬ KeepaliveWorks plaintextEnvironment w.pings w.connection :=
  ⟨⟨restarts_twoSessions,
      not_keepaliveWorks (by decide +kernel) (by decide +kernel) (by decide +kernel)⟩,
    restarts_applicationPing,
      not_keepaliveWorks (by decide +kernel) (by decide +kernel) (by decide +kernel)⟩

/-- The pong timer of a ping that is not answered, and a Noise connection. -/
theorem keepalive_invariant_ping :
    (let w := run (Watch.step plaintextEnvironment) ⟨create {} {}, 0, []⟩ (twoSessions.take 5)
     w.current.map Ping.sent = [20000] ∧
       KeepaliveWorks plaintextEnvironment w.current w.connection) ∧
    ∃ f, NoiseFrameHelper.create .toy NoiseFrameHelper.zeroConfig (Octets.zero 32) = .ok f ∧
      (let w := run (Watch.step (.quiet (NoiseFrameHelper.frameHelper .toy) .core))
        ⟨create f {}, 0, []⟩ applicationPing
       KeepaliveWorks (.quiet (NoiseFrameHelper.frameHelper .toy) .core) w.current
         w.connection) := by
  refine ⟨⟨by decide +kernel, ?_⟩, ?_⟩
  · exact keepalive_invariant.1 plaintextEnvironment rfl (fun _ _ => rfl) (fun _ _ => rfl) {} {}
      (twoSessions.take 5) ⟨Or.inl rfl, trivial, trivial, trivial, trivial, trivial⟩ _
      (run_mem_states _ _ _)
  · obtain ⟨f, hf⟩ : ∃ f, NoiseFrameHelper.create .toy NoiseFrameHelper.zeroConfig
        (Octets.zero 32) = .ok f := ⟨_, rfl⟩
    refine ⟨f, hf, ?_⟩
    exact keepalive_invariant.2 .toy (.quiet (NoiseFrameHelper.frameHelper .toy) .core) rfl
      (fun _ _ => rfl) (fun _ _ => rfl) f {} applicationPing
      ⟨Or.inl rfl, trivial, trivial, trivial, trivial⟩ _ (run_mem_states _ _ _)

end Connection

end EsphomeApi
