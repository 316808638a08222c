import Lasterm.Agent.Daemon

/-!
# The active connection and the others

Three statements about runs of the daemon, each with the condition under which it holds.

* OUTPUT and the events of channels are for connections that have passed AUTH. The slot is given
  away before AUTH, so this holds exactly when no output is routed while AUTH of the connection in
  the slot is outstanding (`authGates_iff`).
* The events of a channel belong on the active connection. They go to the connection that handled
  the SPAWN, which is the active one exactly when it was the last to be accepted
  (`eventsFollow_iff`).
* A displaced connection stops. It does if the signal finds it waiting in `select!`, and `select!`
  then takes the branch of the signal (`displaced_stops`).
-/

namespace Lasterm.Agent

open Runs

/-- The frames that AUTH guards. -/
def Frame.guarded : Frame → Bool
  | .output _ | .event _ _ => true
  | _ => false

namespace Daemon

variable {expected : Option String} {token : String} {s s' : Daemon} {e : DaemonEvent} {n k : ℕ}

/-! ## AUTH -/

theorem passed_step_iff (hstep : s.step (some token) e = some s') (hn : n < s.connections.length) :
    s'.passed n = true ↔ s.passed n = true ∨
      ∃ msg, e = .turn n (.firstMessage (.ok msg)) ∧ passesAuth token msg = true := by
  cases e with
  | accept =>
    cases hstep
    simp [passed_accept hn]
  | turn m t =>
    obtain ⟨c, c', hc, hturn, hconn, -⟩ := step_turn hstep
    rw [passed, passed, hconn]
    by_cases hm : m = n
    · subst hm
      rw [List.getElem?_set_self hn, hc, Option.any_some, Option.any_some, hturn.passed_iff]
      simp
    · rw [List.getElem?_set_ne hm]
      simp [hm]
  | output b encoded => simp [passed, (step_output hstep).1]
  | channelEvent r event =>
    obtain ⟨x, -, hconn, -⟩ := step_channelEvent hstep
    simp [passed, hconn]

theorem length_le_step (hstep : s.step expected e = some s') :
    s.connections.length ≤ s'.connections.length := by
  cases e with
  | accept =>
    cases hstep
    rw [length_accept]
    exact Nat.le_succ _
  | turn m t =>
    obtain ⟨c, c', -, -, hconn, -⟩ := step_turn hstep
    rw [hconn, List.length_set]
  | output b encoded => rw [(step_output hstep).1]
  | channelEvent r event =>
    obtain ⟨x, -, hconn, -⟩ := step_channelEvent hstep
    rw [hconn]

/-- **Over a run**, a connection passes AUTH exactly by sending the token. -/
theorem passed_run_iff {es : List DaemonEvent} (hrun : run (step (some token)) s es = some s')
    (hn : n < s.connections.length) :
    s'.passed n = true ↔ s.passed n = true ∨
      ∃ msg, .turn n (.firstMessage (.ok msg)) ∈ es ∧ passesAuth token msg = true := by
  induction es generalizing s with
  | nil =>
    cases hrun
    simp
  | cons e es ih =>
    rw [run_cons, Option.bind_eq_some_iff] at hrun
    obtain ⟨t, ht, hrun⟩ := hrun
    rw [ih hrun (lt_of_lt_of_le hn (length_le_step ht)), passed_step_iff ht hn, or_assoc,
      ← exists_or]
    simp only [List.mem_cons, or_and_right, eq_comm]

/-- The guarded frames of a step go to connections that have passed AUTH. -/
def SentToPassed (s : Daemon) (_ : DaemonEvent) (s' : Daemon) : Prop :=
  ∀ n frame, (n, frame) ∈ s'.sent.drop s.sent.length → frame.guarded = true → s.passed n = true

/-- Output is routed only while the connection in the slot, if there is one, has passed AUTH. -/
def RoutedAfterAuth (s : Daemon) (e : DaemonEvent) (_ : Daemon) : Prop :=
  ∀ b k, e = .output b true → s.active = some k → s.passed k = true

theorem guarded_greeting {c : Connection} {t : Turn} {frame : Frame} (h : frame ∈ s.greeting c t) :
    frame.guarded = false := by
  have hstates : ∀ f ∈ s.channelStates, f.guarded = false := by
    intro f hf
    rw [channelStates, List.mem_append, List.mem_map] at hf
    rcases hf with ⟨x, -, rfl⟩ | hf
    · rfl
    · rw [List.mem_singleton.mp hf]
      rfl
  rw [greeting.eq_def] at h
  split at h
  · rcases List.mem_cons.mp h with rfl | h
    · rfl
    · split at h
      · exact hstates frame h
      · cases h
  · split at h
    · exact hstates frame h
    · cases h
  · cases h

theorem sentToPassed_iff (h : s.Valid) (hstep : s.step expected e = some s') :
    s.SentToPassed e s' ↔ s.RoutedAfterAuth e s' := by
  cases e with
  | accept =>
    cases hstep
    simp [SentToPassed, RoutedAfterAuth, Daemon.accept]
  | turn m t =>
    obtain ⟨c, c', -, -, -, -, -, hsent⟩ := step_turn hstep
    refine iff_of_true ?_ (by simp [RoutedAfterAuth])
    intro n frame hmem hguarded
    rw [hsent, List.drop_left, List.mem_map] at hmem
    obtain ⟨f, hf, heq⟩ := hmem
    obtain ⟨rfl, rfl⟩ := Prod.mk.inj heq
    rcases List.mem_append.mp hf with hf | hf
    · rw [guarded_greeting hf] at hguarded
      cases hguarded
    · obtain ⟨r, -, rfl⟩ := List.mem_map.mp hf
      cases hguarded
  | output b encoded =>
    have hsent := (step_output hstep).2.2.2
    constructor
    · rintro hgated b' k heq hk
      obtain ⟨rfl, rfl⟩ := DaemonEvent.output.inj heq
      rw [if_pos rfl, hk, Option.toList_some, List.flatMap_singleton] at hsent
      refine hgated k (.output b) ?_ rfl
      rw [hsent, List.drop_left]
      exact List.mem_map_of_mem (List.mem_append_right _ List.mem_cons_self)
    · intro hrouted n frame hmem _
      rw [hsent, List.drop_left] at hmem
      cases encoded with
      | false => cases hmem
      | true =>
        rw [if_pos rfl, List.mem_flatMap] at hmem
        obtain ⟨k, hk, hmem⟩ := hmem
        obtain ⟨b', -, heq⟩ := List.mem_map.mp hmem
        rw [← (Prod.mk.inj heq).1]
        exact hrouted b k rfl (Option.mem_toList.mp hk)
  | channelEvent r event =>
    obtain ⟨x, hx, -, -, -, hsent⟩ := step_channelEvent hstep
    refine iff_of_true ?_ (by simp [RoutedAfterAuth])
    intro n frame hmem _
    rw [hsent, List.drop_left, List.mem_singleton, Prod.mk.injEq] at hmem
    rw [hmem.1]
    exact h.readers _ (List.mem_map_of_mem (List.mem_of_getElem? hx))

/-- **AUTH gates everything.** Guarded frames go to connections that have passed AUTH; and a
connection that takes the slot from one that has passed AUTH passes it too. -/
def AuthGates (token : String) (es : List DaemonEvent) : Prop :=
  Along (step (some token)) SentToPassed init es ∧
    ∀ es₁ es₂ s k s', es = es₁ ++ .accept :: es₂ → run (step (some token)) init es₁ = some s →
      s.active = some k → s.passed k = true → run (step (some token)) init es = some s' →
      s'.passed s.connections.length = true

/-- No output is routed while AUTH of the connection in the slot is outstanding, and a connection
that is accepted while the slot holds one that has passed AUTH sends the token. -/
def AuthInTime (token : String) (es : List DaemonEvent) : Prop :=
  Along (step (some token)) RoutedAfterAuth init es ∧
    ∀ es₁ es₂ s k, es = es₁ ++ .accept :: es₂ → run (step (some token)) init es₁ = some s →
      s.active = some k → s.passed k = true →
      ∃ msg, .turn s.connections.length (.firstMessage (.ok msg)) ∈ es₂ ∧
        passesAuth token msg = true

/-- **When AUTH gates everything**, over every run of a daemon with a token. -/
theorem authGates_iff (token : String) (es : List DaemonEvent)
    (hrun : (run (step (some token)) init es).isSome) :
    AuthGates token es ↔ AuthInTime token es := by
  obtain ⟨s', hrun⟩ := Option.isSome_iff_exists.mp hrun
  refine and_congr ?_ ?_
  · exact along_congr Valid (fun s e t hs ht ↦ ⟨hs.step ht, sentToPassed_iff hs ht⟩) valid_init
  · -- the connection is new at the `accept`, and then passes by its token only
    have hpass : ∀ es₁ es₂ s, es = es₁ ++ .accept :: es₂ →
        run (step (some token)) init es₁ = some s →
        (s'.passed s.connections.length = true ↔
          ∃ msg, .turn s.connections.length (.firstMessage (.ok msg)) ∈ es₂ ∧
            passesAuth token msg = true) := by
      rintro es₁ es₂ s rfl hs
      rw [run_append, hs, Option.bind_some, run_cons, step, Option.bind_some] at hrun
      rw [passed_run_iff hrun (by rw [length_accept]; exact Nat.lt_succ_self _), passed,
        getElem?_accept_length]
      simp [Connection.new]
    constructor
    · intro h es₁ es₂ s k hes hs hk hp
      exact (hpass es₁ es₂ s hes hs).mp (h es₁ es₂ s k s' hes hs hk hp hrun)
    · intro h es₁ es₂ s k t hes hs hk hp ht
      obtain rfl : s' = t := Option.some.inj (hrun.symm.trans ht)
      exact (hpass es₁ es₂ s hes hs).mpr (h es₁ es₂ s k hes hs hk hp)

/-- One connection, which passes AUTH before output comes. -/
def oneHub : List DaemonEvent :=
  [.accept, .turn 0 .hello, .turn 0 (.firstMessage (.ok (.auth "t"))), .output ⟨"c", 1, [36]⟩ true]

theorem authGates_oneHub : AuthGates "t" oneHub := by
  refine (authGates_iff "t" oneHub rfl).mpr ⟨?_, ?_⟩
  · rw [oneHub]
    repeat rw [along_cons_of_eq rfl]
    refine ⟨?_, ?_, ?_, ?_, trivial⟩
    · intro b k h
      cases h
    · intro b k h
      cases h
    · intro b k h
      cases h
    · intro b k _ hk
      rw [← Option.some.inj hk]
      decide
  · intro es₁ es₂ s k hes hs hk
    -- the one connection found the slot empty
    cases es₁ with
    | nil =>
      rw [← Option.some.inj hs] at hk
      cases hk
    | cons e es₁ =>
      rw [oneHub, List.cons_append, List.cons.injEq] at hes
      have hmem : DaemonEvent.accept ∈ es₁ ++ .accept :: es₂ := by simp
      rw [← hes.2] at hmem
      simp at hmem

/-- A second connection is accepted, sends nothing, and gets the output. -/
def intruder : List DaemonEvent :=
  [.accept, .turn 0 .hello, .turn 0 (.firstMessage (.ok (.auth "t"))), .accept,
    .output ⟨"c", 1, [36]⟩ true]

theorem intruder_gets_output : ¬ AuthGates "t" intruder := by
  rintro ⟨hsent, -⟩
  rw [intruder] at hsent
  repeat rw [along_cons_of_eq rfl] at hsent
  have h := hsent.2.2.2.2.1 1 (.output ⟨"c", 1, [36]⟩) (by decide) rfl
  exact absurd h (by decide)

/-! ## Events of channels -/

/-- **Events follow the active connection.** -/
def EventsFollow (s : Daemon) (e : DaemonEvent) (s' : Daemon) : Prop :=
  ∀ r event x k, e = .channelEvent r event → s.readers[r]? = some x → s.active = some k →
    s'.sent = s.sent ++ [(k, .event x.channelId event)]

/-- The channel was spawned over the connection that was accepted last. -/
def SpawnedOverLast (s : Daemon) (e : DaemonEvent) (_ : Daemon) : Prop :=
  ∀ r event x, e = .channelEvent r event → s.readers[r]? = some x → s.active.isSome →
    x.connection + 1 = s.connections.length

theorem eventsFollow_step_iff (h : s.Valid) (hstep : s.step expected e = some s') :
    s.EventsFollow e s' ↔ s.SpawnedOverLast e s' := by
  constructor
  · rintro hfollow r event x rfl hx hactive
    obtain ⟨k, hk⟩ := Option.isSome_iff_exists.mp hactive
    obtain ⟨y, hy, -, -, -, hsent⟩ := step_channelEvent hstep
    obtain rfl : x = y := Option.some.inj (hx.symm.trans hy)
    rw [hfollow r event x k rfl hx hk, List.append_cancel_left_eq, List.singleton_inj,
      Prod.mk.injEq] at hsent
    rw [← hsent.1]
    exact h.active_last k hk
  · rintro hlast r event x k rfl hx hk
    obtain ⟨y, hy, -, -, -, hsent⟩ := step_channelEvent hstep
    obtain rfl : x = y := Option.some.inj (hx.symm.trans hy)
    have hxk : x.connection = k := by
      have h₁ := hlast r event x rfl hx (by rw [hk]; rfl)
      have h₂ := h.active_last k hk
      omega
    rw [hsent, hxk]

/-- **When the events follow the active connection**, over every run. -/
theorem eventsFollow_iff (expected : Option String) (es : List DaemonEvent) :
    Along (step expected) EventsFollow init es ↔ Along (step expected) SpawnedOverLast init es :=
  along_congr Valid (fun _ _ _ hs ht ↦ ⟨hs.step ht, eventsFollow_step_iff hs ht⟩) valid_init

/-- A channel is spawned over one connection and rings under the next. -/
def bellAfterReconnect : List DaemonEvent :=
  [.accept, .turn 0 .hello,
    .turn 0 (.read (.messages [.spawn "r" (some "c") none none none none 80 24 none none none none
      none])),
    .turn 0 (.dispatch (quietWorld 0)), .turn 0 (.read .endOfStream), .accept, .turn 1 .hello,
    .channelEvent 0 .bell]

theorem bell_lost_after_reconnect : ¬ Along (step none) EventsFollow init bellAfterReconnect := by
  rw [bellAfterReconnect]
  repeat rw [along_cons_of_eq rfl]
  rintro ⟨-, -, -, -, -, -, -, h, -⟩
  exact absurd (h 0 .bell ⟨"c", 0, true⟩ 1 rfl (by decide) (by decide)) (by decide)

/-! ## Displacement -/

/-- The connection has stopped, or will without reading again: it has the messages in hand that it
read before, or the signal waits for it. -/
def Stopping (c : Connection) : Prop :=
  c.phase = .ended ∨ (∃ ms, c.phase = .dispatching ms ∧ c.late = false) ∨
    (c.phase = .selecting ∧ c.notified = true)

/-- **Displacement is final.** Every displaced connection is stopping, and no message is handled
that was read after the signal. -/
def DisplacementFinal (s : Daemon) (e : DaemonEvent) (s' : Daemon) : Prop :=
  (∀ (n : ℕ) c, s'.connections[n]? = some c → c.displaced = true → Stopping c) ∧
    ∀ n answers c, e = .turn n (.dispatch answers) → s.connections[n]? = some c → c.late = false

/-- The signal finds the connection waiting in `select!`, and while it is there `select!` does not
take messages off the socket. -/
def SignalTaken (s : Daemon) (e : DaemonEvent) (_ : Daemon) : Prop :=
  (e = .accept → ∀ k c, s.active = some k → s.connections[k]? = some c → c.phase = .selecting) ∧
    ∀ n ms c, e = .turn n (.read (.messages ms)) → s.connections[n]? = some c → c.notified = false

/-- What a connection keeps as long as its signals are taken. -/
structure Orderly (c : Connection) : Prop where
  punctual : c.late = false
  stopped : c.displaced = true → c.phase = .ended ∨ (c.phase = .selecting ∧ c.notified = true)

theorem orderly_new : Orderly .new := ⟨rfl, by intro h; cases h⟩

theorem Orderly.signal {c : Connection} (h : Orderly c) (hphase : c.phase = .selecting) :
    Orderly c.signal where
  punctual := h.punctual
  stopped _ := Or.inr ⟨hphase, by simp [Connection.signal, hphase]⟩

theorem Orderly.turn {c c' : Connection} {t : Turn} (h : Orderly c)
    (hturn : Connection.Turns expected c t c')
    (hread : ∀ ms, t = .read (.messages ms) → c.notified = false) : Orderly c' := by
  -- a displaced connection that has not ended waits in `select!`,
  -- where only two turns are open to it
  have hwaits : c.displaced = true → c.phase ≠ .ended → c.phase = .selecting := by
    intro hdis hne
    rcases h.stopped hdis with hended | ⟨hsel, -⟩
    · exact absurd hended hne
    · exact hsel
  cases hturn with
  | hello hphase | welcome hphase | pass hphase | next hphase | fail hphase =>
    refine ⟨h.punctual, fun hdis ↦ absurd (hwaits hdis ?_) ?_⟩ <;> simp [hphase]
  | refuse | close | wake => exact ⟨h.punctual, fun _ ↦ Or.inl rfl⟩
  | read hphase =>
    -- without a signal there, the connection that waits has not been displaced
    have hdis : c.displaced = false := by
      refine Bool.eq_false_iff.mpr fun hdis ↦ ?_
      rcases h.stopped hdis with hended | ⟨-, hnotified⟩
      · exact absurd (hended.symm.trans hphase) (by simp)
      · exact absurd ((hread _ rfl).symm.trans hnotified) Bool.false_ne_true
    exact ⟨hdis, fun h ↦ absurd (hdis.symm.trans h) Bool.false_ne_true⟩

theorem orderly_step (h : ∀ (n : ℕ) c, s.connections[n]? = some c → Orderly c)
    (htaken : s.SignalTaken e s') (hstep : s.step expected e = some s') {c : Connection}
    (hc : s'.connections[n]? = some c) : Orderly c := by
  cases origin_of_step hstep hc with
  | same hs => exact h n c hs
  | signal hs hk => exact (h n _ hs).signal (htaken.1 rfl n _ hk hs)
  | turn hs ht => exact (h n _ hs).turn ht fun ms hread ↦ htaken.2 n ms _ (by rw [hread]) hs
  | new => exact orderly_new

/-- **When displacement is final**: in every run in which the signal finds the displaced connection
waiting in `select!`, and `select!` does not prefer messages on the socket to a signal that is
there. -/
theorem displaced_stops (expected : Option String) (es : List DaemonEvent)
    (h : Along (step expected) SignalTaken init es) :
    Along (step expected) DisplacementFinal init es := by
  refine along_of_invariant (fun s ↦ ∀ (n : ℕ) c, s.connections[n]? = some c → Orderly c) ?_ ?_ h
  · intro s e s' hs htaken hstep
    have hs' : ∀ (n : ℕ) c, s'.connections[n]? = some c → Orderly c := fun n c hc ↦
      orderly_step hs htaken hstep hc
    refine ⟨hs', ?_, ?_⟩
    · intro n c hc hdis
      rcases (hs' n c hc).stopped hdis with hended | hsel
      · exact Or.inl hended
      · exact Or.inr (Or.inr hsel)
    · intro n answers c _ hc
      exact (hs n c hc).punctual
  · intro n c hc
    simp [init] at hc

/-- A connection is displaced while it waits for bytes, and wakes up. -/
def orderlyHandover : List DaemonEvent :=
  [.accept, .turn 0 .hello, .accept, .turn 0 .wake]

theorem displaced_stops_orderlyHandover :
    Along (step none) DisplacementFinal init orderlyHandover := by
  refine displaced_stops none orderlyHandover ?_
  rw [orderlyHandover]
  repeat rw [along_cons_of_eq rfl]
  refine ⟨⟨?_, ?_⟩, ⟨?_, ?_⟩, ⟨?_, ?_⟩, ⟨?_, ?_⟩, trivial⟩
  · intro _ k c hk
    cases hk
  · intro n ms c h
    cases h
  · intro h
    cases h
  · intro n ms c h
    cases h
  · intro _ k c hk hc
    cases hk
    rw [← Option.some.inj hc]
  · intro n ms c h
    cases h
  · intro h
    cases h
  · intro n ms c h
    cases h

/-- A connection is displaced while it handles a message, and goes on to read another. -/
def signalMissed : List DaemonEvent :=
  [.accept, .turn 0 .hello, .turn 0 (.read (.messages [.heartbeat "0"])), .accept,
    .turn 0 (.dispatch (quietWorld 0)), .turn 0 (.read (.messages [.input "c" [3]])),
    .turn 0 (.dispatch (quietWorld 0))]

theorem displaced_connection_goes_on : ¬ Along (step none) DisplacementFinal init signalMissed := by
  rw [signalMissed]
  repeat rw [along_cons_of_eq rfl]
  rintro ⟨-, -, -, -, -, -, h, -⟩
  exact absurd (h.2 0 (quietWorld 0) ⟨.dispatching [.input "c" [3]], true, false, true, true⟩ rfl
    (by decide)) (by decide)

end Daemon

end Lasterm.Agent
