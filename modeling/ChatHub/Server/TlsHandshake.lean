/-
# `ChatHub.Server.TlsHandshake` — a TLS handshake against a timer

`chat-server/src/tls_handshake.cpp`.  `asyncServerHandshake` starts two
operations on one connection, a wait on a timer and the handshake, whose
callbacks share an object (`Shared`) and its strand.  A strand runs one callback
at a time, so the completions of one connection are events, each handled as a
whole; those of different connections come in any order.

What asio does is not part of the repository.  A started operation completes
once, successfully or not, whatever has been done to it since: a wait after the
timer was cancelled, a handshake after the socket was closed (`enabled`).

    timer event        wait outstanding, `ec` or not
    handshake event    handshake outstanding, `ec` or not

There is no clock: the five seconds may be over at any time.  A callback that
follows a null pointer has no result.  `connection_keeps` is the
invariant of one connection, `asyncServerHandshake_race_safe` the statement about
any number of them.
-/
import ChatHub.Lib.Schedule

namespace ChatHub.Server

open Schedule

variable {Socket Tls ι : Type}

inductive HandshakeStatus where
  | ok | timeout | error
  deriving DecidableEq, Repr

/-- `asio::ssl::stream<asio::ip::tcp::socket>`, over its socket and its context. -/
structure SslStream (Socket Tls : Type) where
  lowestLayer : Socket
  context : Tls
  deriving DecidableEq, Repr

/-- The wait of an `asio::steady_timer`. -/
inductive Timer where
  | waiting | cancelled | finished
  deriving DecidableEq, Repr

/-- A wait that is finished, or cancelled already, is not touched. -/
def Timer.cancel : Timer → Timer
  | .waiting => .cancelled
  | timer => timer

/-- What the two callbacks share.  `handler` says whether there is one. -/
structure Shared (Socket Tls : Type) where
  stream : Option (SslStream Socket Tls)
  timer : Timer
  handler : Bool
  completed : Bool := false
  timeoutStarted : Bool := false

/-- A call of the handler: its arguments, and whether the socket was closed. -/
structure Call (Socket Tls : Type) where
  status : HandshakeStatus
  stream : Option (SslStream Socket Tls)
  socketClosed : Bool
  deriving DecidableEq, Repr

/-- A connection: the shared object once there is one, and what the callbacks
have done outside it. -/
structure Connection (Socket Tls : Type) where
  state : Option (Shared Socket Tls) := none
  handshaking : Bool := false
  socketClosed : Bool := false
  calls : List (Call Socket Tls) := []

/-- `state->stream->lowest_layer().close(close_ec)`. -/
def Connection.close (state : Shared Socket Tls) (c : Connection Socket Tls) :
    Option (Connection Socket Tls) :=
  state.stream.map fun _ => { c with socketClosed := true }

/-- `if (state->handler) state->handler(status, stream)`. -/
def Connection.call (state : Shared Socket Tls) (status : HandshakeStatus)
    (stream : Option (SslStream Socket Tls)) (c : Connection Socket Tls) :
    Connection Socket Tls :=
  if state.handler then { c with calls := c.calls ++ [⟨status, stream, c.socketClosed⟩] } else c

def asyncServerHandshake (socket : Socket) (tls : Tls) (handler : Bool)
    (c : Connection Socket Tls) : Connection Socket Tls :=
  { c with
    state := some { stream := some ⟨socket, tls⟩, timer := .waiting, handler }
    handshaking := true }

/-- The callback of `timer.async_wait`. -/
def timerCallback (ec : Bool) (state : Shared Socket Tls) (c : Connection Socket Tls) :
    Option (Connection Socket Tls) :=
  if ec || state.completed then
    some { c with state := some state }
  else do
    let state := { state with timeoutStarted := true }
    let c ← c.close state
    return { c with state := some state }

/-- The callback of `stream->async_handshake`. -/
def handshakeCallback (ec : Bool) (state : Shared Socket Tls) (c : Connection Socket Tls) :
    Option (Connection Socket Tls) :=
  if state.completed then
    some { c with state := some state }
  else
    let state := { state with completed := true, timer := state.timer.cancel }
    if state.timeoutStarted then
      some (Connection.call state .timeout none { c with state := some state })
    else if ec then do
      let c ← c.close state
      return Connection.call state .error none { c with state := some state }
    else
      -- only here does the stream leave the shared object
      let stream := state.stream
      let state := { state with stream := none }
      some (Connection.call state .ok stream { c with state := some state })

/-! ## Events -/

inductive Event (Socket Tls : Type) where
  | start (socket : Socket) (tls : Tls) (handler : Bool)
  | timer (ec : Bool)
  | handshake (ec : Bool)
  deriving DecidableEq, Repr

/-- An operation completes if it was started and has not completed yet. -/
def Connection.enabled (c : Connection Socket Tls) : Event Socket Tls → Prop
  | .start _ _ _ => c.state = none
  | .timer _ => ∃ state, c.state = some state ∧ state.timer ≠ .finished
  | .handshake _ => c.handshaking = true

def Connection.step (c : Connection Socket Tls) :
    Event Socket Tls → Option (Connection Socket Tls)
  | .start socket tls handler => some (asyncServerHandshake socket tls handler c)
  | .timer ec => do timerCallback ec { (← c.state) with timer := .finished } c
  | .handshake ec => do handshakeCallback ec (← c.state) { c with handshaking := false }

def connection (Socket Tls : Type) : System (Connection Socket Tls) (Event Socket Tls) where
  enabled := Connection.enabled
  step := Connection.step

/-! ## One connection -/

/-- The status of the call: the timer comes first. -/
def verdict (expired ec : Bool) : HandshakeStatus :=
  if expired then .timeout else if ec then .error else .ok

theorem verdict_eq_ok {expired ec : Bool} :
    verdict expired ec = .ok ↔ ec = false ∧ ¬ expired = true := by
  cases expired <;> cases ec <;> simp [verdict]

theorem verdict_eq_timeout {expired ec : Bool} : verdict expired ec = .timeout ↔ expired = true := by
  cases expired <;> cases ec <;> simp [verdict]

theorem verdict_eq_error {expired ec : Bool} :
    verdict expired ec = .error ↔ ec = true ∧ ¬ expired = true := by
  cases expired <;> cases ec <;> simp [verdict]

/-- The socket is closed in all cases but `ok`. -/
theorem closed_iff_verdict {expired ec : Bool} : (expired || ec) = true ↔ verdict expired ec ≠ .ok := by
  cases expired <;> cases ec <;> simp [verdict]

/-- A connection whose handshake has completed, with `ec`, and before it a wait
that expired or not. -/
def settled (stream : SslStream Socket Tls) (timer : Timer) (handler expired ec : Bool) :
    Connection Socket Tls where
  state := some
    { stream := if verdict expired ec = .ok then none else some stream
      timer, handler, completed := true, timeoutStarted := expired }
  socketClosed := expired || ec
  calls :=
    if handler then
      [⟨verdict expired ec, if verdict expired ec = .ok then some stream else none, expired || ec⟩]
    else []

def OnlyTimer (es : List (Event Socket Tls)) : Prop := ∀ e ∈ es, ∃ ec, e = .timer ec

/-- Where a connection stands after its events so far. -/
inductive Phase : List (Event Socket Tls) → Connection Socket Tls → Prop
  | fresh : Phase [] {}
  | waiting {socket : Socket} {tls : Tls} {handler expired : Bool} {timer : Timer}
      {ts : List (Event Socket Tls)} : OnlyTimer ts → (expired = true ↔ .timer false ∈ ts) →
      Phase (.start socket tls handler :: ts)
        { state := some
            { stream := some ⟨socket, tls⟩, timer, handler, timeoutStarted := expired }
          handshaking := true
          socketClosed := expired }
  | finished {socket : Socket} {tls : Tls} {handler expired ec : Bool} {timer : Timer}
      {ts us : List (Event Socket Tls)} : OnlyTimer ts → OnlyTimer us →
      (expired = true ↔ .timer false ∈ ts) → timer ≠ .waiting →
      Phase (.start socket tls handler :: (ts ++ .handshake ec :: us))
        (settled ⟨socket, tls⟩ timer handler expired ec)

theorem OnlyTimer.concat {es : List (Event Socket Tls)} (h : OnlyTimer es) (ec : Bool) :
    OnlyTimer (es ++ [.timer ec]) := by
  intro e he
  rcases List.mem_append.mp he with he | he
  · exact h e he
  · exact ⟨ec, List.mem_singleton.mp he⟩

theorem OnlyTimer.not_mem {es : List (Event Socket Tls)} (h : OnlyTimer es)
    {e : Event Socket Tls} (hne : ∀ ec, e ≠ .timer ec) : e ∉ es := by
  intro hmem
  obtain ⟨ec, heq⟩ := h e hmem
  exact hne ec heq

/-- Until the handshake completes there is its start, and the timer. -/
theorem OnlyTimer.handshake_not_mem {ts : List (Event Socket Tls)} (h : OnlyTimer ts)
    (socket : Socket) (tls : Tls) (handler ec : Bool) :
    .handshake ec ∉ Event.start socket tls handler :: ts := by
  intro hmem
  rcases List.mem_cons.mp hmem with heq | hmem
  · cases heq
  · exact absurd hmem (h.not_mem nofun)

/-- There is one start. -/
theorem OnlyTimer.start_eq {ts us : List (Event Socket Tls)} (hts : OnlyTimer ts) (hus : OnlyTimer us)
    {socket socket' : Socket} {tls tls' : Tls} {handler handler' ec : Bool}
    (h : .start socket tls handler ∈
      Event.start socket' tls' handler' :: (ts ++ .handshake ec :: us)) :
    Event.start socket tls handler = .start socket' tls' handler' := by
  rcases List.mem_cons.mp h with heq | hmem
  · exact heq
  · rcases List.mem_append.mp hmem with hmem | hmem
    · exact absurd hmem (hts.not_mem nofun)
    · rcases List.mem_cons.mp hmem with heq | hmem
      · cases heq
      · exact absurd hmem (hus.not_mem nofun)

theorem cancel_ne_waiting (timer : Timer) : timer.cancel ≠ .waiting := by
  cases timer with
  | waiting => exact Timer.noConfusion
  | cancelled => exact Timer.noConfusion
  | finished => exact Timer.noConfusion

/-- After the handshake the wait's callback does nothing. -/
theorem timerCallback_completed {state : Shared Socket Tls} (h : state.completed = true) (ec : Bool)
    (c : Connection Socket Tls) : timerCallback ec state c = some { c with state := some state } := by
  have hreturn : (ec || state.completed) = true := by rw [h, Bool.or_true]
  exact if_pos hreturn

/-- The handshake's callback, the first time it runs. -/
theorem handshakeCallback_settled (stream : SslStream Socket Tls) (timer : Timer)
    (handler expired ec : Bool) :
    handshakeCallback ec { stream := some stream, timer, handler, timeoutStarted := expired }
        { state := some { stream := some stream, timer, handler, timeoutStarted := expired }
          socketClosed := expired }
      = some (settled stream timer.cancel handler expired ec) := by
  cases expired with
  | true => cases handler <;> rfl
  | false =>
      cases ec with
      | true => cases handler <;> rfl
      | false => cases handler <;> rfl

/-- **Each event keeps the phases**, and no callback follows a null pointer. -/
theorem connection_keeps : (connection Socket Tls).Keeps Phase := by
  intro es c e hphase henabled
  cases hphase with
  | fresh =>
      cases e with
      | start socket tls handler =>
          have htimer : OnlyTimer ([] : List (Event Socket Tls)) := nofun
          have hexpired : false = true ↔ Event.timer false ∈ ([] : List (Event Socket Tls)) :=
            ⟨nofun, nofun⟩
          exact ⟨_, rfl, Phase.waiting htimer hexpired⟩
      | timer ec =>
          obtain ⟨state, hstate, -⟩ := henabled
          cases hstate
      | handshake ec => cases henabled
  | @waiting socket tls handler expired timer ts htimer hexpired =>
      cases e with
      | start socket' tls' handler' => cases henabled
      | timer ec =>
          cases ec with
          | true =>
              refine ⟨_, rfl, Phase.waiting (htimer.concat true) (hexpired.trans ?_)⟩
              simp
          | false =>
              have hnow : true = true ↔ .timer false ∈ ts ++ [Event.timer false] := by simp
              exact ⟨_, rfl, Phase.waiting (htimer.concat false) hnow⟩
      | handshake ec =>
          refine ⟨_, handshakeCallback_settled ⟨socket, tls⟩ timer handler expired ec, ?_⟩
          exact Phase.finished htimer nofun hexpired (cancel_ne_waiting timer)
  | @finished socket tls handler expired ec₀ timer ts us htimer hafter hexpired hcancelled =>
      cases e with
      | start socket' tls' handler' => cases henabled
      | timer ec =>
          refine ⟨_, timerCallback_completed rfl ec _, ?_⟩
          have hevents : Event.start socket tls handler :: (ts ++ .handshake ec₀ :: us) ++ [.timer ec]
              = .start socket tls handler :: (ts ++ .handshake ec₀ :: (us ++ [.timer ec])) := by
            simp
          rw [hevents]
          exact Phase.finished htimer (hafter.concat ec) hexpired Timer.noConfusion
      | handshake ec => cases henabled

/-- Before the handshake has completed nobody is called. -/
theorem Phase.calls_eq_nil {es : List (Event Socket Tls)} {c : Connection Socket Tls}
    (h : Phase es c) (hpending : ∀ ec, .handshake ec ∉ es) : c.calls = [] := by
  cases h with
  | fresh => rfl
  | waiting _ _ => rfl
  | @finished socket tls handler expired ec timer ts us _ _ _ _ =>
      have hmem : .handshake ec ∈ Event.start socket tls handler :: (ts ++ .handshake ec :: us) :=
        List.mem_cons_of_mem _ (List.mem_append_right ts List.mem_cons_self)
      exact absurd hmem (hpending ec)

/-- Once it has, the connection is settled by what came before. -/
theorem Phase.eq_settled {pre post : List (Event Socket Tls)} {ec : Bool} {socket : Socket}
    {tls : Tls} {handler : Bool} {c : Connection Socket Tls}
    (h : Phase (pre ++ .handshake ec :: post) c)
    (hstart : .start socket tls handler ∈ pre ++ .handshake ec :: post) :
    ∃ timer expired, timer ≠ .waiting ∧ (expired = true ↔ .timer false ∈ pre) ∧
      c = settled ⟨socket, tls⟩ timer handler expired ec := by
  generalize hes : pre ++ .handshake ec :: post = es at h hstart
  cases h with
  | fresh => cases hstart
  | @waiting socket' tls' handler' expired timer ts htimer hexpired =>
      have hmem : .handshake ec ∈ Event.start socket' tls' handler' :: ts := by
        rw [← hes]
        exact List.mem_append_right pre List.mem_cons_self
      exact absurd hmem (htimer.handshake_not_mem socket' tls' handler' ec)
  | @finished socket' tls' handler' expired ec' timer ts us htimer hafter hexpired hcancelled =>
      have hfirst := htimer.handshake_not_mem socket' tls' handler' ec
      have hlast : .handshake ec ∉ us := hafter.not_mem nofun
      obtain ⟨hpre, hec, -⟩ := (List.append_cons_inj_of_notMem hfirst hlast).mp hes.symm
      cases hec
      have hsame := htimer.start_eq hafter hstart
      cases hsame
      refine ⟨timer, expired, hcancelled, hexpired.trans ?_, rfl⟩
      rw [← hpre]
      simp

/-! ## Any number of connections -/

/-- What the header says of the call: `expired` says that the wait ran out before
the handshake completed, `ec` whether the handshake failed. -/
structure Answered (expired : Prop) (ec : Bool) (stream : SslStream Socket Tls)
    (c : Connection Socket Tls) (call : Call Socket Tls) : Prop where
  ok_iff : call.status = .ok ↔ ec = false ∧ ¬ expired
  timeout_iff : call.status = .timeout ↔ expired
  error_iff : call.status = .error ↔ ec = true ∧ ¬ expired
  stream_eq : call.stream = if call.status = .ok then some stream else none
  closed_before : call.status ≠ .ok → call.socketClosed = true
  never_closed : call.status = .ok → c.socketClosed = false

theorem settled_answered {expired : Bool} {P : Prop} (h : expired = true ↔ P)
    (stream : SslStream Socket Tls) (timer : Timer) (ec : Bool) :
    ∃ call, (settled stream timer true expired ec).calls = [call] ∧
      Answered P ec stream (settled stream timer true expired ec) call := by
  refine ⟨_, rfl, ?_⟩
  exact
    { ok_iff := verdict_eq_ok.trans (and_congr_right' (not_congr h))
      timeout_iff := verdict_eq_timeout.trans h
      error_iff := verdict_eq_error.trans (and_congr_right' (not_congr h))
      stream_eq := rfl
      closed_before := closed_iff_verdict.mpr
      never_closed := fun hok => Bool.eq_false_iff.mpr fun hclosed => closed_iff_verdict.mp hclosed hok }

variable [DecidableEq ι] {es : List (ι × Event Socket Tls)} {w : ι → Connection Socket Tls}

theorem interleave_keeps : ((connection Socket Tls).interleave ι).Keeps
    fun es w => ∀ i, Phase (eventsOf i es) (w i) :=
  connection_keeps.interleave

theorem phase_of_run (hrun : ((connection Socket Tls).interleave ι).Run (fun _ => {}) es w) (i : ι) :
    Phase (eventsOf i es) (w i) :=
  hrun.invariant interleave_keeps (fun _ => Phase.fresh) i

/-- Other connections leave no trace on one whose handshake has completed. -/
theorem settled_of_run (hrun : ((connection Socket Tls).interleave ι).Run (fun _ => {}) es w)
    {i : ι} {socket : Socket} {tls : Tls} {handler ec : Bool} {pre post : List (ι × Event Socket Tls)}
    (hstart : (i, .start socket tls handler) ∈ es) (hes : es = pre ++ (i, .handshake ec) :: post) :
    ∃ timer expired, timer ≠ .waiting ∧ (expired = true ↔ (i, .timer false) ∈ pre) ∧
      w i = settled ⟨socket, tls⟩ timer handler expired ec := by
  have hi := phase_of_run hrun i
  have hown := mem_eventsOf.mpr hstart
  rw [hes, eventsOf_append, eventsOf_cons_self] at hi hown
  obtain ⟨timer, expired, hcancelled, hexpired, hw⟩ := hi.eq_settled hown
  exact ⟨timer, expired, hcancelled, hexpired.trans mem_eventsOf, hw⟩

/-- The handshake leaves no wait running: at worst a cancelled one is to come back. -/
theorem timer_not_waiting (hrun : ((connection Socket Tls).interleave ι).Run (fun _ => {}) es w)
    {i : ι} {socket : Socket} {tls : Tls} {handler ec : Bool} {state : Shared Socket Tls}
    (hstart : (i, .start socket tls handler) ∈ es) (hdone : (i, .handshake ec) ∈ es)
    (hstate : (w i).state = some state) : state.timer ≠ .waiting := by
  obtain ⟨pre, post, hes⟩ := List.append_of_mem hdone
  obtain ⟨timer, expired, hcancelled, -, hw⟩ := settled_of_run hrun hstart hes
  rw [hw] at hstate
  cases hstate
  exact hcancelled

/-- **The race is safe**: after any events of any number of connections, no
callback follows a null pointer, and a connection has had its one call iff its
handshake has completed, with what the header says. -/
theorem asyncServerHandshake_race_safe
    (hrun : ((connection Socket Tls).interleave ι).Run (fun _ => {}) es w) :
    (∀ e, ((connection Socket Tls).interleave ι).enabled w e →
      ((connection Socket Tls).interleave ι).step w e ≠ none) ∧
    ∀ i, ((∀ ec, (i, .handshake ec) ∉ es) → (w i).calls = []) ∧
      ∀ socket tls handler, (i, .start socket tls handler) ∈ es →
        ∀ pre ec post, es = pre ++ (i, .handshake ec) :: post →
          (handler = false → (w i).calls = []) ∧
          (handler = true → ∃ call, (w i).calls = [call] ∧
            Answered ((i, .timer false) ∈ pre) ec ⟨socket, tls⟩ (w i) call) := by
  constructor
  · intro e
    exact hrun.step_ne_none interleave_keeps fun _ => Phase.fresh
  · intro i
    constructor
    · intro hpending
      exact (phase_of_run hrun i).calls_eq_nil fun ec hmem => hpending ec (mem_eventsOf.mp hmem)
    · intro socket tls handler hstart pre ec post hes
      obtain ⟨timer, expired, -, hexpired, hw⟩ := settled_of_run hrun hstart hes
      rw [hw]
      constructor
      · intro hnone
        rw [hnone]
        rfl
      · intro hsome
        rw [hsome]
        exact settled_answered hexpired ⟨socket, tls⟩ timer ec

/-- Two connections.  The wait of the first runs out, and a success that was
queued arrives after the socket was closed; the second succeeds, and an expiry
that was queued arrives after the wait was cancelled. -/
def lateEvents : List (Bool × Event Nat Nat) :=
  [(false, .start 5 0 true), (true, .start 6 0 true), (false, .timer false),
    (true, .handshake false), (false, .handshake false), (true, .timer false)]

theorem asyncServerHandshake_race_safe_late : ∃ w,
    ((connection Nat Nat).interleave Bool).Run (fun _ => {}) lateEvents w ∧
    (∃ call, (w false).calls = [call] ∧ call.status = .timeout) ∧
    ∃ call, (w true).calls = [call] ∧ call.status = .ok ∧ call.stream = some ⟨6, 0⟩ := by
  have hnone : ((connection Nat Nat).interleave Bool).Run (fun _ => {}) [] fun _ => {} := .nil
  have hfirst := hnone.concat (e := (false, Event.start 5 0 true)) rfl rfl
  have hsecond := hfirst.concat (e := (true, Event.start 6 0 true)) rfl rfl
  have hexpiry := hsecond.concat (e := (false, Event.timer false)) ⟨_, rfl, nofun⟩ rfl
  have hsuccess := hexpiry.concat (e := (true, Event.handshake false)) rfl rfl
  have hqueued := hsuccess.concat (e := (false, Event.handshake false)) rfl rfl
  have hlast := hqueued.concat (e := (true, Event.timer false)) ⟨_, rfl, nofun⟩ rfl
  have hrun : ∃ w, ((connection Nat Nat).interleave Bool).Run (fun _ => {}) lateEvents w :=
    ⟨_, hlast⟩
  obtain ⟨w, hrun⟩ := hrun
  obtain ⟨-, hcalls⟩ := asyncServerHandshake_race_safe hrun
  obtain ⟨late, hlate, hanswered⟩ := ((hcalls false).2 5 0 true (by decide)
    (lateEvents.take 4) false (lateEvents.drop 5) rfl).2 rfl
  obtain ⟨good, hgood, hanswered'⟩ := ((hcalls true).2 6 0 true (by decide)
    (lateEvents.take 3) false (lateEvents.drop 4) rfl).2 rfl
  have hok : good.status = .ok := hanswered'.ok_iff.mpr ⟨rfl, by decide⟩
  refine ⟨w, hrun, ⟨late, hlate, hanswered.timeout_iff.mpr (by decide)⟩, good, hgood, hok, ?_⟩
  rw [hanswered'.stream_eq, if_pos hok]

end ChatHub.Server
