/-
# `ChatHub.Server.HandshakeProgress` — every handshake comes to an end

`asyncServerHandshake_race_safe` says what a call of the handler looks like.
Here it is shown that there is one, and what it takes.  A handshake does not end
by itself: its peer brings it to an end, or the socket is closed.  So a
connection is looked at together with its peer and its clock (`Link`):

    timer event        without `ec` once the five seconds are over,
                       with `ec` only if the wait was cancelled
    handshake event    once the peer has answered, or with `ec` once the socket
                       is closed

Time passes and the peer answers when they like, or never.  A peer that stays
silent is where the timer is needed: its expiry closes the socket, and that ends
the handshake.  The whole is a connection in its surroundings (`link_around`), so
what holds of the connection by itself holds here.

A start puts two operations under way, and neither callback starts another:

    completions so far  +  operations outstanding  =  2 · starts     (`Balanced`)

so the completions come to rest, and at rest a connection whose peer has answered
or whose five seconds are over has called its handler (`finished_of_quiet`).
-/
import ChatHub.Server.TlsHandshake

namespace ChatHub.Server

open Schedule

variable {Socket Tls ι : Type}

/-! ## A connection, its peer and its clock -/

/-- `std::chrono::seconds(5)`, in the nanoseconds of the steady clock. -/
def kHandshakeTimeout : Nat := 5000000000

/-- A connection with its peer and its clock: the time since the start, and
whether the peer has brought the handshake to an end, good or bad. -/
structure Link (Socket Tls : Type) where
  connection : Connection Socket Tls := {}
  elapsed : Nat := 0
  answered : Bool := false

inductive LinkEvent (Socket Tls : Type) where
  | own (e : Event Socket Tls)
  | pass (time : Nat)
  | answer
  deriving DecidableEq, Repr

/-- What the peer and the clock have to say about an event of the connection. -/
def Link.allows (l : Link Socket Tls) : Event Socket Tls → Prop
  | .start _ _ _ => True
  | .timer false => kHandshakeTimeout ≤ l.elapsed
  | .timer true => ∃ state, l.connection.state = some state ∧ state.timer = .cancelled
  | .handshake ec => l.answered = true ∨ (ec = true ∧ l.connection.socketClosed = true)

/-- The clock runs from the start on; a peer answers at most once. -/
def Link.enabled (l : Link Socket Tls) : LinkEvent Socket Tls → Prop
  | .own e => l.connection.enabled e ∧ l.allows e
  | .pass _ => l.connection.state ≠ none
  | .answer => l.connection.handshaking = true ∧ l.answered = false

def Link.step (l : Link Socket Tls) : LinkEvent Socket Tls → Option (Link Socket Tls)
  | .own e => (l.connection.step e).map fun c => { l with connection := c }
  | .pass time => some { l with elapsed := l.elapsed + time }
  | .answer => some { l with answered := true }

def link (Socket Tls : Type) : System (Link Socket Tls) (LinkEvent Socket Tls) where
  enabled := Link.enabled
  step := Link.step

/-- The event of the connection, if it is one. -/
def LinkEvent.event? : LinkEvent Socket Tls → Option (Event Socket Tls)
  | .own e => some e
  | _ => none

theorem link_around :
    System.Around (link Socket Tls) (connection Socket Tls) Link.connection LinkEvent.event? where
  enabled := by
    intro l e e₀ hown henabled
    cases e with
    | own e =>
        cases hown
        exact henabled.1
    | pass time => cases hown
    | answer => cases hown
  step := by
    intro l e e₀ hown
    cases e with
    | own e =>
        cases hown
        show ((l.connection.step e₀).map fun c => { l with connection := c }).map Link.connection =
          l.connection.step e₀
        cases l.connection.step e₀ with
        | none => rfl
        | some c => rfl
    | pass time => cases hown
    | answer => cases hown
  other := by
    intro l e hown henabled
    cases e with
    | own e => cases hown
    | pass time => exact ⟨_, rfl, rfl⟩
    | answer => exact ⟨_, rfl, rfl⟩

/-! ## Two completions belong to a start -/

def Event.isStart : Event Socket Tls → Bool
  | .start _ _ _ => true
  | _ => false

def Event.isCompletion : Event Socket Tls → Bool
  | .start _ _ _ => false
  | _ => true

/-- The operations of a connection that have not completed. -/
def Connection.outstanding (c : Connection Socket Tls) : Nat :=
  c.handshaking.toNat +
    match c.state with
    | some state => if state.timer = .finished then 0 else 1
    | none => 0

/-- Two completions belong to a start. -/
def Balanced (es : List (Event Socket Tls)) (c : Connection Socket Tls) : Prop :=
  es.countP Event.isCompletion + c.outstanding = 2 * es.countP Event.isStart

theorem cancel_eq_finished {timer : Timer} : timer.cancel = .finished ↔ timer = .finished := by
  cases timer with
  | waiting => exact ⟨nofun, nofun⟩
  | cancelled => exact Iff.rfl
  | finished => exact Iff.rfl

/-- A completion takes one away. -/
theorem Balanced.concat {es : List (Event Socket Tls)} {c c' : Connection Socket Tls}
    {e : Event Socket Tls} (h : Balanced es c) (he : e.isCompletion = true)
    (hone : c'.outstanding + 1 = c.outstanding) : Balanced (es ++ [e]) c' := by
  have hstart : e.isStart = false := by
    cases e with
    | start socket tls handler => cases he
    | timer ec => rfl
    | handshake ec => rfl
  rw [Balanced] at h ⊢
  rw [List.countP_append, List.countP_append, List.countP_singleton, List.countP_singleton, he,
    hstart]
  simp only [if_true, Bool.false_eq_true, if_false]
  omega

theorem balanced_step (es : List (Event Socket Tls)) (c : Connection Socket Tls)
    (e : Event Socket Tls) (c' : Connection Socket Tls) (hphase : Phase es c) (h : Balanced es c)
    (henabled : (connection Socket Tls).enabled c e) (hstep : (connection Socket Tls).step c e = some c') :
    Balanced (es ++ [e]) c' := by
  cases hphase with
  | fresh =>
      cases e with
      | start socket tls handler =>
          cases hstep
          rfl
      | timer ec =>
          obtain ⟨state, hstate, -⟩ := henabled
          cases hstate
      | handshake ec => cases henabled
  | @waiting socket tls handler expired timer ts htimer hexpired =>
      cases e with
      | start socket' tls' handler' => cases henabled
      | timer ec =>
          obtain ⟨state, hstate, hne⟩ := henabled
          cases hstate
          have hbefore : (Connection.mk (some ⟨some ⟨socket, tls⟩, timer, handler, false, expired⟩)
              true expired []).outstanding = 2 := congrArg (1 + ·) (if_neg hne)
          cases ec with
          | true =>
              cases hstep
              exact h.concat rfl hbefore.symm
          | false =>
              cases hstep
              exact h.concat rfl hbefore.symm
      | handshake ec =>
          have hsettled := handshakeCallback_settled ⟨socket, tls⟩ timer handler expired ec
          cases hstep.symm.trans hsettled
          refine h.concat rfl ?_
          show 0 + (if timer.cancel = .finished then 0 else 1) + 1 = 1 + if timer = .finished then 0 else 1
          simp only [cancel_eq_finished, Nat.zero_add]
          exact Nat.add_comm _ 1
  | @finished socket tls handler expired ec₀ timer ts us htimer hafter hexpired hcancelled =>
      cases e with
      | start socket' tls' handler' => cases henabled
      | timer ec =>
          obtain ⟨state, hstate, hne⟩ := henabled
          cases hstate
          cases hstep.symm.trans (timerCallback_completed rfl ec _)
          refine h.concat rfl ?_
          exact (congrArg (0 + ·) (if_neg hne)).symm
      | handshake ec => cases henabled

theorem connection_balanced :
    (connection Socket Tls).Keeps fun es c => Phase es c ∧ Balanced es c :=
  connection_keeps.and balanced_step

/-! ## What the peer and the clock have done -/

/-- What the peer and the clock have done is on record. -/
structure Recorded (es : List (LinkEvent Socket Tls)) (l : Link Socket Tls) : Prop where
  answered : l.answered = true ↔ .answer ∈ es
  passed : ∀ time, .pass time ∈ es → time ≤ l.elapsed

theorem recorded_step {es : List (LinkEvent Socket Tls)} {l l' : Link Socket Tls}
    {e : LinkEvent Socket Tls} (h : Recorded es l) (hstep : l.step e = some l') :
    Recorded (es ++ [e]) l' := by
  cases e with
  | own e =>
      obtain ⟨c, -, rfl⟩ := Option.map_eq_some_iff.mp hstep
      refine ⟨h.answered.trans (by simp), ?_⟩
      intro time hmem
      exact h.passed time (by simpa using hmem)
  | pass time =>
      cases hstep
      refine ⟨h.answered.trans (by simp), ?_⟩
      intro time' hmem
      rcases List.mem_append.mp hmem with hold | hnew
      · exact Nat.le_trans (h.passed time' hold) (Nat.le_add_right _ _)
      · cases List.mem_singleton.mp hnew
        exact Nat.le_add_left _ _
  | answer =>
      cases hstep
      refine ⟨iff_of_true rfl (List.mem_append_right es List.mem_cons_self), ?_⟩
      intro time hmem
      exact h.passed time (by simpa using hmem)

/-- How the flags of a connection go with its peer and its clock: before the
handshake has completed the wait is under way or has closed the socket, and
afterwards there was an answer or an expiry. -/
structure Timely (l : Link Socket Tls) : Prop where
  before : ∀ state, l.connection.state = some state → state.completed = false →
    state.timer = .waiting ∨ (state.timer = .finished ∧ state.timeoutStarted = true)
  after : ∀ state, l.connection.state = some state → state.completed = true →
    state.timeoutStarted = true ∨ l.answered = true
  expired : ∀ state, l.connection.state = some state → state.timeoutStarted = true →
    kHandshakeTimeout ≤ l.elapsed

/-- An event of the connection, where the peer and the clock allow it. -/
theorem Timely.own {es : List (Event Socket Tls)} {c c' : Connection Socket Tls} {elapsed : Nat}
    {answered : Bool} {e : Event Socket Tls} (hphase : Phase es c)
    (h : Timely ⟨c, elapsed, answered⟩) (henabled : c.enabled e)
    (hallows : Link.allows ⟨c, elapsed, answered⟩ e) (hstep : c.step e = some c') :
    Timely ⟨c', elapsed, answered⟩ := by
  cases hphase with
  | fresh =>
      cases e with
      | start socket tls handler =>
          cases hstep
          refine ⟨?_, ?_, ?_⟩
          · rintro state ⟨⟩ -
            exact .inl rfl
          · rintro state ⟨⟩ hcompleted
            cases hcompleted
          · rintro state ⟨⟩ hstarted
            cases hstarted
      | timer ec =>
          obtain ⟨state, hstate, -⟩ := henabled
          cases hstate
      | handshake ec => cases henabled
  | @waiting socket tls handler expired timer ts htimer hexpired =>
      cases e with
      | start socket' tls' handler' => cases henabled
      | timer ec =>
          cases ec with
          | true =>
              -- only the handshake's callback cancels the wait
              obtain ⟨state, hstate, hcancelled⟩ := hallows
              cases hstate
              rcases h.before _ rfl rfl with hwaiting | ⟨hfinished, -⟩
              · cases hcancelled.symm.trans hwaiting
              · cases hcancelled.symm.trans hfinished
          | false =>
              cases hstep
              refine ⟨?_, ?_, ?_⟩
              · rintro state ⟨⟩ -
                exact .inr ⟨rfl, rfl⟩
              · rintro state ⟨⟩ hcompleted
                cases hcompleted
              · rintro state ⟨⟩ -
                exact hallows
      | handshake ec =>
          have hsettled := handshakeCallback_settled ⟨socket, tls⟩ timer handler expired ec
          cases hstep.symm.trans hsettled
          refine ⟨?_, ?_, ?_⟩
          · rintro state ⟨⟩ hcompleted
            cases hcompleted
          · rintro state ⟨⟩ -
            exact hallows.symm.imp And.right id
          · rintro state ⟨⟩ hstarted
            exact h.expired _ rfl hstarted
  | @finished socket tls handler expired ec₀ timer ts us htimer hafter hexpired hcancelled =>
      cases e with
      | start socket' tls' handler' => cases henabled
      | timer ec =>
          cases hstep.symm.trans (timerCallback_completed rfl ec _)
          refine ⟨?_, ?_, ?_⟩
          · rintro state ⟨⟩ hcompleted
            cases hcompleted
          · rintro state ⟨⟩ -
            have hended := h.after _ rfl rfl
            exact hended
          · rintro state ⟨⟩ hstarted
            exact h.expired _ rfl hstarted
      | handshake ec => cases henabled

/-- All that is known of a connection in its surroundings. -/
structure Standing (es : List (LinkEvent Socket Tls)) (l : Link Socket Tls) : Prop where
  phase : Phase (es.filterMap LinkEvent.event?) l.connection
  balanced : Balanced (es.filterMap LinkEvent.event?) l.connection
  recorded : Recorded es l
  timely : Timely l

theorem standing_fresh : Standing ([] : List (LinkEvent Socket Tls)) {} := by
  refine ⟨Phase.fresh, rfl, ⟨⟨nofun, nofun⟩, nofun⟩, ?_, ?_, ?_⟩
  · intro state hstate
    cases hstate
  · intro state hstate
    cases hstate
  · intro state hstate
    cases hstate

theorem timely_step {es : List (LinkEvent Socket Tls)} {l l' : Link Socket Tls}
    {e : LinkEvent Socket Tls} (h : Standing es l) (henabled : l.enabled e)
    (hstep : l.step e = some l') : Timely l' := by
  obtain ⟨hphase, -, -, htimely⟩ := h
  obtain ⟨c, elapsed, answered⟩ := l
  cases e with
  | own e =>
      obtain ⟨c', hc', rfl⟩ := Option.map_eq_some_iff.mp hstep
      exact htimely.own hphase henabled.1 henabled.2 hc'
  | pass time =>
      cases hstep
      refine ⟨htimely.before, htimely.after, ?_⟩
      intro state hstate hstarted
      exact Nat.le_trans (htimely.expired state hstate hstarted) (Nat.le_add_right elapsed time)
  | answer =>
      cases hstep
      exact ⟨htimely.before, fun _ _ _ => .inr rfl, htimely.expired⟩

/-- **A connection in its surroundings stays in order**, and no callback follows
a null pointer. -/
theorem link_keeps : (link Socket Tls).Keeps Standing := by
  intro es l e h henabled
  obtain ⟨l', hstep, hphase, hbalanced⟩ :=
    connection_balanced.around link_around es l e ⟨h.phase, h.balanced⟩ henabled
  exact ⟨l', hstep, hphase, hbalanced, recorded_step h.recorded hstep, timely_step h henabled hstep⟩

/-! ## At rest -/

def LinkEvent.isStart (e : LinkEvent Socket Tls) : Bool := e.event?.any Event.isStart

/-- A callback, and neither a start nor something that the peer or the clock does. -/
def LinkEvent.isCompletion (e : LinkEvent Socket Tls) : Bool := e.event?.any Event.isCompletion

/-- The handler was called once, if there is one, and no operation is under way. -/
structure Finished (handler : Bool) (l : Link Socket Tls) : Prop where
  called : l.connection.calls.length = handler.toNat
  idle : l.connection.outstanding = 0

/-- A call tells the truth about the peer and the clock.  After a silent peer the
socket is closed. -/
structure Truthful (es : List (LinkEvent Socket Tls)) (l : Link Socket Tls)
    (call : Call Socket Tls) : Prop where
  timeout : call.status = .timeout → kHandshakeTimeout ≤ l.elapsed
  ok : call.status = .ok → .answer ∈ es
  silent : .answer ∉ es → call.status = .timeout ∧ call.socketClosed = true

theorem mem_events {es : List (LinkEvent Socket Tls)} {e : Event Socket Tls} :
    e ∈ es.filterMap LinkEvent.event? ↔ .own e ∈ es := by
  rw [List.mem_filterMap]
  constructor
  · rintro ⟨e', hmem, heq⟩
    cases e' with
    | own e' =>
        cases heq
        exact hmem
    | pass time => cases heq
    | answer => cases heq
  · intro hmem
    exact ⟨_, hmem, rfl⟩

theorem Phase.state_ne_none {es : List (Event Socket Tls)} {c : Connection Socket Tls}
    {e : Event Socket Tls} (h : Phase es c) (hmem : e ∈ es) : c.state ≠ none := by
  cases h with
  | fresh => cases hmem
  | waiting _ _ => exact Option.some_ne_none _
  | finished _ _ _ _ => exact Option.some_ne_none _

theorem length_calls_settled (stream : SslStream Socket Tls) (timer : Timer)
    (handler expired ec : Bool) :
    (settled stream timer handler expired ec).calls.length = handler.toNat := by
  cases handler with
  | true => rfl
  | false => rfl

/-- **At rest a connection has called its handler**, if its peer has answered or
its five seconds are over. -/
theorem finished_of_quiet {es : List (LinkEvent Socket Tls)} {l : Link Socket Tls}
    (h : Standing es l) (hquiet : ∀ e, e.isCompletion = true → ¬ l.enabled e) {socket : Socket}
    {tls : Tls} {handler : Bool} (hstart : .own (.start socket tls handler) ∈ es)
    (hover : kHandshakeTimeout ≤ l.elapsed ∨ .answer ∈ es) : Finished handler l := by
  obtain ⟨hphase, -, hrecorded, htimely⟩ := h
  have hown := mem_events.mpr hstart
  obtain ⟨c, elapsed, answered⟩ := l
  dsimp only at hphase hover
  generalize es.filterMap LinkEvent.event? = es₀ at hphase hown
  cases hphase with
  | fresh => cases hown
  | @waiting socket' tls' handler' expired timer ts htimer hexpired =>
      -- the handshake can complete, or the wait can, which lets it
      exfalso
      rcases hover with htime | hanswer
      · rcases htimely.before _ rfl rfl with hwaiting | ⟨-, hstarted⟩
        · refine hquiet (.own (.timer false)) rfl ⟨⟨_, rfl, ?_⟩, htime⟩
          rw [hwaiting]
          exact Timer.noConfusion
        · exact hquiet (.own (.handshake true)) rfl ⟨rfl, .inr ⟨rfl, hstarted⟩⟩
      · exact hquiet (.own (.handshake false)) rfl ⟨rfl, .inl (hrecorded.answered.mpr hanswer)⟩
  | @finished socket' tls' handler' expired ec timer ts us htimer hafter hexpired hcancelled =>
      cases htimer.start_eq hafter hown
      have hfinished : timer = .finished := by
        cases timer with
        | waiting => exact absurd rfl hcancelled
        | cancelled =>
            exact absurd ⟨⟨_, rfl, Timer.noConfusion⟩, _, rfl, rfl⟩
              (hquiet (.own (.timer true)) rfl)
        | finished => rfl
      subst hfinished
      exact ⟨length_calls_settled _ _ _ _ _, rfl⟩

/-- Calls tell the truth, at rest or not. -/
theorem truthful_of_standing {es : List (LinkEvent Socket Tls)} {l : Link Socket Tls}
    (h : Standing es l) : ∀ call ∈ l.connection.calls, Truthful es l call := by
  obtain ⟨hphase, -, hrecorded, htimely⟩ := h
  obtain ⟨c, elapsed, answered⟩ := l
  dsimp only at hphase
  generalize es.filterMap LinkEvent.event? = es₀ at hphase
  cases hphase with
  | fresh => exact fun _ => nofun
  | waiting _ _ => exact fun _ => nofun
  | @finished socket tls handler expired ec timer ts us htimer hafter hexpired hcancelled =>
      intro call hcall
      have hended : expired = true ∨ .answer ∈ es :=
        (htimely.after _ rfl rfl).imp id hrecorded.answered.mp
      cases handler with
      | false => cases hcall
      | true =>
          obtain rfl := List.mem_singleton.mp hcall
          refine ⟨?_, ?_, ?_⟩
          · intro htimeout
            exact htimely.expired _ rfl (verdict_eq_timeout.mp htimeout)
          · intro hok
            exact hended.resolve_left (verdict_eq_ok.mp hok).2
          · intro hsilent
            have hexpired' := hended.resolve_right hsilent
            refine ⟨verdict_eq_timeout.mpr hexpired', ?_⟩
            rw [hexpired']
            exact Bool.true_or ec

/-! ## Any number of connections -/

variable [DecidableEq ι] {es : List (ι × LinkEvent Socket Tls)} {w : ι → Link Socket Tls}

theorem standing_of_run (hrun : ((link Socket Tls).interleave ι).Run (fun _ => {}) es w) (i : ι) :
    Standing (eventsOf i es) (w i) :=
  hrun.invariant link_keeps.interleave (fun _ => standing_fresh) i

omit [DecidableEq ι] in
theorem countP_events (p : Event Socket Tls → Bool) (es : List (LinkEvent Socket Tls)) :
    (es.filterMap LinkEvent.event?).countP p = es.countP fun e => e.event?.any p := by
  rw [List.countP_filterMap]
  refine congrArg (List.countP · es) (funext fun e => ?_)
  cases e.event? with
  | none => rfl
  | some e => rfl

theorem completions_le (hrun : ((link Socket Tls).interleave ι).Run (fun _ => {}) es w) :
    (es.countP fun e => e.2.isCompletion) ≤ 2 * es.countP fun e => e.2.isStart := by
  refine countP_le_of_eventsOf fun i => ?_
  have hbalanced := (standing_of_run hrun i).balanced
  rw [Balanced, countP_events, countP_events] at hbalanced
  exact Nat.le_of_add_right_le (Nat.le_of_eq hbalanced)

/-- What bounds the length of a run: its completions come from its starts. -/
def roomFor (es : List (ι × LinkEvent Socket Tls)) : Nat :=
  2 * (es.countP fun e => e.2.isStart) + es.countP fun e => !e.2.isCompletion

theorem length_le_roomFor (hrun : ((link Socket Tls).interleave ι).Run (fun _ => {}) es w) :
    es.length ≤ roomFor es := by
  have hsplit := List.length_eq_countP_add_countP
    (fun e : ι × LinkEvent Socket Tls => e.2.isCompletion) (l := es)
  have hnot : (es.countP fun e => decide ¬e.2.isCompletion = true) =
      es.countP fun e => !e.2.isCompletion := by
    refine congrArg (List.countP · es) (funext fun e => ?_)
    cases e.2.isCompletion with
    | false => rfl
    | true => rfl
  have hle := completions_le hrun
  rw [hnot] at hsplit
  rw [roomFor]
  omega

omit [DecidableEq ι] in
theorem roomFor_concat (es : List (ι × LinkEvent Socket Tls)) {e : ι × LinkEvent Socket Tls}
    (he : e.2.isCompletion = true) : roomFor (es ++ [e]) = roomFor es := by
  have hstart : e.2.isStart = false := by
    obtain ⟨i, e⟩ := e
    cases e with
    | own e =>
        cases e with
        | start socket tls handler => cases he
        | timer ec => rfl
        | handshake ec => rfl
    | pass time => rfl
    | answer => rfl
  simp [roomFor, List.countP_append, he, hstart]

/-- Without an answer: five seconds, and completions. -/
theorem exists_finished (hrun : ((link Socket Tls).interleave ι).Run (fun _ => {}) es w) {i : ι}
    {socket : Socket} {tls : Tls} {handler : Bool}
    (hstart : (i, .own (.start socket tls handler)) ∈ es) :
    ∃ more w', ((link Socket Tls).interleave ι).Run (fun _ => {})
        (es ++ (i, .pass kHandshakeTimeout) :: more) w' ∧
      (∀ e ∈ more, e.2.isCompletion = true) ∧ Finished handler (w' i) := by
  have hstarted : (w i).connection.state ≠ none :=
    (standing_of_run hrun i).phase.state_ne_none (mem_events.mpr (mem_eventsOf.mpr hstart))
  have hpass := hrun.concat (e := (i, LinkEvent.pass kHandshakeTimeout)) hstarted rfl
  obtain ⟨more, w', hrun', hmore, hquiet⟩ := hpass.exists_quiet
    (fun e => e.2.isCompletion = true) roomFor length_le_roomFor (fun es _ he => roomFor_concat es he)
    (fun h henabled => h.step_ne_none link_keeps.interleave (fun _ => standing_fresh) henabled)
  rw [List.append_assoc] at hrun'
  have hpassed : (i, LinkEvent.pass kHandshakeTimeout) ∈
      es ++ ([(i, LinkEvent.pass kHandshakeTimeout)] ++ more) :=
    List.mem_append_right es List.mem_cons_self
  have hstanding := standing_of_run hrun' i
  refine ⟨more, w', hrun', hmore, ?_⟩
  refine finished_of_quiet hstanding (fun e he => hquiet (i, e) he)
    (mem_eventsOf.mpr (List.mem_append_left _ hstart)) (.inl ?_)
  exact hstanding.recorded.passed _ (mem_eventsOf.mpr hpassed)

/-- **Every handshake comes to an end**, whatever its peer does.  From any point
of any run of any number of connections:

* there are at most two completions for each start;
* without an answer of a peer, after five seconds in which nothing else happens,
  completions lead to where a given handshake is finished;
* where no completion is left to come, every handshake is finished whose peer has
  answered or whose five seconds are over;
* a call says `timeout` only after five seconds and `ok` only after an answer,
  and if the peer has not answered it says `timeout` and finds the socket closed. -/
theorem asyncServerHandshake_completes
    (hrun : ((link Socket Tls).interleave ι).Run (fun _ => {}) es w) :
    ((es.countP fun e => e.2.isCompletion) ≤ 2 * es.countP fun e => e.2.isStart) ∧
    (∀ i socket tls handler, (i, .own (.start socket tls handler)) ∈ es →
      ∃ more w', ((link Socket Tls).interleave ι).Run (fun _ => {})
          (es ++ (i, .pass kHandshakeTimeout) :: more) w' ∧
        (∀ e ∈ more, e.2.isCompletion = true) ∧ Finished handler (w' i)) ∧
    ((∀ e : ι × LinkEvent Socket Tls, e.2.isCompletion = true →
        ¬ ((link Socket Tls).interleave ι).enabled w e) →
      ∀ i socket tls handler, (i, .own (.start socket tls handler)) ∈ es →
        kHandshakeTimeout ≤ (w i).elapsed ∨ (i, .answer) ∈ es → Finished handler (w i)) ∧
    ∀ i, ∀ call ∈ (w i).connection.calls, Truthful (eventsOf i es) (w i) call := by
  refine ⟨completions_le hrun, ?_, ?_, ?_⟩
  · intro i socket tls handler hstart
    exact exists_finished hrun hstart
  · intro hquiet i socket tls handler hstart hover
    exact finished_of_quiet (standing_of_run hrun i) (fun e he => hquiet (i, e) he)
      (mem_eventsOf.mpr hstart) (hover.imp id mem_eventsOf.mpr)
  · intro i
    exact truthful_of_standing (standing_of_run hrun i)

/-- One connection is started, its peer stays silent, and it comes to its call. -/
theorem asyncServerHandshake_completes_silent : ∃ more w,
    ((link Nat Nat).interleave Bool).Run (fun _ => {})
      ((false, .own (.start 5 0 true)) :: more) w ∧
    ∃ call, (w false).connection.calls = [call] ∧ call.status = .timeout ∧
      call.socketClosed = true := by
  have hnone : ((link Nat Nat).interleave Bool).Run (fun _ => {}) [] fun _ => {} := .nil
  have hstart := hnone.concat (e := (false, LinkEvent.own (Event.start 5 0 true)))
    ⟨rfl, trivial⟩ rfl
  obtain ⟨-, hpossible, -⟩ := asyncServerHandshake_completes hstart
  obtain ⟨more, w, hrun, hmore, hfinished⟩ := hpossible false 5 0 true List.mem_cons_self
  obtain ⟨-, -, -, htruthful⟩ := asyncServerHandshake_completes hrun
  obtain ⟨call, hcall⟩ := List.length_eq_one_iff.mp hfinished.called
  have hsilent : LinkEvent.answer ∉ eventsOf false ([(false, LinkEvent.own (Event.start 5 0 true))] ++
      (false, .pass kHandshakeTimeout) :: more) := by
    intro hmem
    rcases List.mem_append.mp (mem_eventsOf.mp hmem) with hfirst | hrest
    · cases List.mem_singleton.mp hfirst
    · rcases List.mem_cons.mp hrest with hpass | hlater
      · cases hpass
      · cases hmore _ hlater
  obtain ⟨htimeout, hclosed⟩ :=
    (htruthful false call (hcall ▸ List.mem_cons_self)).silent hsilent
  exact ⟨_, w, hrun, call, hcall, htimeout, hclosed⟩

end ChatHub.Server
