import Lasterm.Agent.MessageLoop
import Lasterm.Hub.Tracking

/-!
# What becomes of the channels when a daemon is connected again

A daemon that still runs reports its channels, and `reconcileChannelState` keeps those that it knows
and marks the others of the current session dead. Behind a warm restart, every channel of the host
that is not dead is spawned once more. The daemon refuses that for a channel that it has, and the
hub takes the refusal for a failure. `killsNothing_iff` says when the channels come through.
-/

namespace Lasterm.Hub

open Agent (Terminals)

/-- A SPAWN with this id is not refused for the id. -/
def Accepts (d : Terminals) (c : ChannelId) : Prop :=
  d.shuttingDown = false ∧ d.channels.get c = none

instance (d : Terminals) (c : ChannelId) : Decidable (Accepts d c) :=
  inferInstanceAs (Decidable (_ ∧ _))

namespace SessionHub

open Runs SharedSessionContext

variable {db : Database} {h h' g g' : SessionHub db} {s : SharedSessionContext}
  {es : List (ChannelId × ℕ)} {hostId : String} {d : Terminals} {e : ChannelId × ℕ}

/-- The caller of a warm restart, and the replies to its SPAWN frames, in the order in which they
come. -/
structure WarmRestart where
  task : ℕ
  session : ℕ
  rest : Option (List HostGroup)
  /-- With the tasks that wait for them. -/
  replies : List (ℕ × Outcome)

/-- The events of a connection. `task` is the attach. -/
def connection (task : ℕ) (states : List (ChannelId × Bool)) (restart : Option WarmRestart) :
    List Event :=
  [.resume task (.connected false), .resume task (.channelStates states)] ++
    restart.elim [] fun w ↦ .resume w.task .settled :: w.replies.map fun r ↦ .resume r.1 r.2

/-- A SPAWN of a warm restart is answered with SPAWN_OK only where the daemon accepts the id. -/
def Answered (d : Terminals) (h : SessionHub db) (e : Event) (_ : SessionHub db) : Prop :=
  match e with
  | .resume m (.spawnOk _) =>
    match h.tasks[m]? with
    | some (some (.hostSpawn _ c _ _)) => Accepts d c
    | _ => True
  | _ => True

instance (d : Terminals) (h : SessionHub db) (e : Event) (h' : SessionHub db) :
    Decidable (Answered d h e h') := by
  unfold Answered
  split
  · split <;> infer_instance
  · infer_instance

/-- A daemon that still runs is connected: from `h`, where the attach waits for the connect, to
`h'`. With a warm restart, all its SPAWN frames are answered in `h'`. -/
structure DaemonConnection (h h' : SessionHub db) where
  daemon : Terminals
  hostId : String
  task : ℕ
  attach : ℕ
  session : ℕ
  fence : ℕ
  states : List (ChannelId × Bool)
  restart : Option WarmRestart
  connects : h.tasks[task]? = some (some (.daemonConnects attach hostId session fence))
  sessionHost : h.ctx.sessionHost session = some hostId
  /-- The daemon has what it reports alive. -/
  reported : ∀ c, (c, true) ∈ states → (daemon.channels.get c).isSome = true
  awaits : ∀ w ∈ restart, h.tasks[w.task]? = some (some (.warmAwaits attach w.session w.rest)) ∧
    h.ctx.sessionHost w.session = some hostId
  run_eq : run step h (connection task states restart) = some h'
  /-- The replies are for tasks that the restart has launched. -/
  replies : ∀ w ∈ restart, ∀ r ∈ w.replies, h.tasks.length ≤ r.1
  answered : Along step (Answered daemon) h (connection task states restart)
  complete : ∀ m, h.tasks.length ≤ m → m < h'.tasks.length → h'.tasks[m]? = some none

/-- Between the two states a warm restart has had SPAWN_OK for the channel. -/
def Respawned (h h' : SessionHub db) (c : ChannelId) : Prop :=
  ∃ n, ContextAction.hostSpawned false c n ∈ h'.journal.entries.drop h.journal.entries.length

/-- No channel of the host that the daemon reports alive has died, and each of the others is dead or
respawned. -/
structure KillsNothing (x : DaemonConnection h h') : Prop where
  alive : ∀ c ch, h.ctx.channels.get c = some ch → ch.hostId = x.hostId → ch.status ≠ .dead →
    (c, true) ∈ x.states → ∃ ch' ∈ h'.ctx.channels.get c, ch'.status ≠ .dead
  lost : ∀ c ch, h.ctx.channels.get c = some ch → ch.hostId = x.hostId → (c, true) ∉ x.states →
    (∃ ch' ∈ h'.ctx.channels.get c, ch'.status = .dead) ∨ Respawned h h' c

/-- Without a warm restart: the channels of the host that are not dead and not reported alive are of
the current session. With one: no channel of the host that is not dead is reported alive. -/
def DaemonConnection.Benign (x : DaemonConnection h h') : Prop :=
  match x.restart with
  | none => ∀ c ch, h.ctx.channels.get c = some ch → ch.hostId = x.hostId → ch.status ≠ .dead →
    (c, true) ∉ x.states → h.ctx.sessions.get x.hostId = some ch.sessionId
  | some _ => ∀ c ch, h.ctx.channels.get c = some ch → ch.hostId = x.hostId → ch.status ≠ .dead →
    (c, true) ∉ x.states

/-! ## The attach -/

theorem step_resume {n : ℕ} {t : Task} {o : Outcome} (ht : h.tasks[n]? = some (some t)) :
    h.step (.resume n o) = (h.resume n t o).map fun r ↦
      { r.1 with tasks := r.1.tasks.set n r.2 } := by
  rw [step, ht]

theorem isQuitFenceCurrent_iff {fence : ℕ} :
    s.isQuitFenceCurrent fence = true ↔ s.captureQuitFence = some fence := by
  rw [isQuitFenceCurrent, captureQuitFence]
  rcases s.quitting with _ | _ <;> simp

theorem captureQuitFence_daemonReady (i a : ℕ) (states : List (ChannelId × Bool)) :
    (s.daemonReady i a states).captureQuitFence = s.captureQuitFence := by
  rw [daemonReady]
  split
  · rfl
  · rw [reconcileChannelState]
    split <;> rfl

/-- A hub that a daemon has been connected to, and that has its report. -/
structure Attached (h g : SessionHub db) (task attach session a fence : ℕ)
    (states : List (ChannelId × Bool)) : Prop where
  entries : g.journal.entries = h.journal.entries ++ [.daemonReady session a states]
  ctx : g.ctx = h.ctx.daemonReady session a states
  daemon : g.isDaemon a = true
  attaches : g.attaches = h.attaches.set attach (.resolved a)
  length : g.tasks.length = h.tasks.length
  tasks : ∀ m, m ≠ task → g.tasks[m]? = h.tasks[m]?
  calm : g.ctx.captureQuitFence = some fence

theorem tasks_failAttach (p : ℕ) (hostId : String) (a : ℕ) :
    (h.failAttach p hostId a).tasks = h.tasks := by
  rw [failAttach]
  split <;> rfl

/-- The report of a daemon, for an attach whose fence is current. -/
theorem attached_of_report {task attach session a fence : ℕ} {states : List (ChannelId × Bool)}
    (hwaits : h.tasks[task]? = some (some (.daemonWaits attach hostId session a fence)))
    (hdaemon : h.isDaemon a = true) (hfence : h.ctx.isQuitFenceCurrent fence = true)
    (hstep : h.step (.resume task (.channelStates states)) = some g) :
    Attached h g task attach session a fence states := by
  rw [step_resume hwaits] at hstep
  have hresume : h.resume task (.daemonWaits attach hostId session a fence)
    (.channelStates states) =
      some (h.daemonReported attach hostId session a fence states) := rfl
  rw [hresume, Option.map_some, daemonReported, if_pos hfence] at hstep
  cases hstep
  have hctx : ((h.act (.daemonReady session a states)).ctx) =
      h.ctx.daemonReady session a states := rfl
  exact {
    entries := rfl
    ctx := hctx
    daemon := hdaemon
    attaches := rfl
    length := List.length_set
    tasks := fun m hm ↦ List.getElem?_set_ne (Ne.symm hm)
    calm := (captureQuitFence_daemonReady session a states).trans
      (isQuitFenceCurrent_iff.mp hfence) }

theorem attached_of_run {task attach session fence : ℕ} {states : List (ChannelId × Bool)}
    (hconnects : h.tasks[task]? = some (some (.daemonConnects attach hostId session fence)))
    (hrun : run step h [.resume task (.connected false), .resume task (.channelStates states)] =
      some g) :
    ∃ a, Attached h g task attach session a fence states := by
  have hlt : task < h.tasks.length := (List.getElem?_eq_some_iff.mp hconnects).1
  rw [run_cons, step_resume hconnects] at hrun
  have hresume : h.resume task (.daemonConnects attach hostId session fence) (.connected false) =
      some (h.daemonConnected attach hostId session fence) := rfl
  rw [hresume, Option.map_some, Option.bind_some, daemonConnected] at hrun
  obtain ⟨t, ht⟩ : ∃ t, t = (h.wireAgentEvents hostId session true).1 := ⟨_, rfl⟩
  have hwire : h.wireAgentEvents hostId session true = (t, h.agentObjects.length) := by rw [ht]; rfl
  rw [hwire] at hrun
  dsimp only at hrun
  have htasks : t.tasks = h.tasks := by rw [ht]; rfl
  have hdaemon : t.isDaemon h.agentObjects.length = true := by
    rw [ht, isDaemon, wireAgentEvents, List.getElem?_concat_length]
    rfl
  split at hrun
  · rename_i hfence
    rw [run_cons, Option.bind_eq_some_iff] at hrun
    obtain ⟨g', hstep, hrun⟩ := hrun
    obtain rfl := Option.some.inj hrun
    obtain ⟨w, hw⟩ : ∃ w, w = Task.daemonWaits attach hostId session h.agentObjects.length fence :=
      ⟨_, rfl⟩
    have hwaits : (t.tasks.set task (some w))[task]? =
        some (some (.daemonWaits attach hostId session h.agentObjects.length fence)) := by
      rw [← hw]
      exact List.getElem?_set_self (htasks ▸ hlt)
    rw [← hw] at hstep
    have hattached : Attached { t with tasks := t.tasks.set task (some w) } g' task attach session
        h.agentObjects.length fence states := attached_of_report hwaits hdaemon hfence hstep
    refine ⟨h.agentObjects.length, ?_⟩
    exact {
      entries := by rw [hattached.entries, ht]; rfl
      ctx := by rw [hattached.ctx, ht]; rfl
      daemon := hattached.daemon
      attaches := by rw [hattached.attaches, ht]; rfl
      length := by rw [hattached.length, List.length_set, htasks]
      tasks := fun m hm ↦ by
        rw [hattached.tasks m hm, ← htasks]
        exact List.getElem?_set_ne (Ne.symm hm)
      calm := hattached.calm }
  · -- The attach has failed, and waits for no report.
    rw [run_cons,
      step_resume (List.getElem?_set_self (by rw [tasks_failAttach, htasks]; exact hlt))] at hrun
    cases hrun

/-! ## The SPAWN frames -/

/-- A SPAWN to a daemon is sent or dropped, and never throws. -/
theorem sendSpawn_daemon {a : ℕ} (ha : h.isDaemon a = true) (c : Option ChannelId) :
    ∃ g, h.sendSpawn a c = some g ∧ g.journal = h.journal ∧ g.tasks = h.tasks ∧
      g.agentObjects = h.agentObjects := by
  rw [sendSpawn]
  split
  · exact ⟨_, rfl, rfl, rfl, rfl⟩
  · exact ⟨h, rfl, rfl, rfl, rfl⟩

theorem spawnHostChannels_daemon {a fence : ℕ} (reAttach : Bool) (ha : h.isDaemon a = true)
    (hfence : h.ctx.isQuitFenceCurrent fence = true) (es : List (ChannelId × ℕ)) :
    (spawnHostChannels reAttach a fence h es).1.journal = h.journal ∧
      (spawnHostChannels reAttach a fence h es).1.tasks =
        h.tasks ++ es.map fun e ↦ some (.hostSpawn reAttach e.1 e.2 fence) := by
  induction es generalizing h with
  | nil => exact ⟨rfl, (List.append_nil _).symm⟩
  | cons e es ih =>
    obtain ⟨g, hg, hjournal, htasks, hobjects⟩ := sendSpawn_daemon ha (some e.1)
    obtain ⟨t, ht⟩ : ∃ t, t = g.launch (.hostSpawn reAttach e.1 e.2 fence) := ⟨_, rfl⟩
    have hone : h.spawnHostChannel reAttach a fence e = some t := by
      rw [spawnHostChannel, if_pos hfence, hg, ht]
      rfl
    have hdaemon : t.isDaemon a = true := by
      rw [ht, isDaemon, launch, hobjects]
      exact ha
    have hcurrent : t.ctx.isQuitFenceCurrent fence = true := by
      rw [ht, ctx, launch, hjournal]
      exact hfence
    obtain ⟨hjournal', htasks'⟩ := ih hdaemon hcurrent
    rw [spawnHostChannels, hone]
    dsimp only
    rw [hjournal', htasks', ht, launch, hjournal, htasks, List.append_assoc]
    exact ⟨rfl, rfl⟩

/-- A hub whose warm restart has sent its SPAWN frames. -/
structure Respawning (h g : SessionHub db) (fence : ℕ) (es : List (ChannelId × ℕ)) : Prop where
  journal : g.journal = h.journal
  length : g.tasks.length = h.tasks.length + es.length
  tasks : ∀ j e, es[j]? = some e →
    g.tasks[h.tasks.length + j]? = some (some (.hostSpawn false e.1 e.2 fence))

theorem respawning_of_step {task attach session a fence : ℕ} {rest : Option (List HostGroup)}
    (hawaits : h.tasks[task]? = some (some (.warmAwaits attach session rest)))
    (hattach : ∀ r ∈ h.attaches[attach]?, r = .resolved a)
    (hhost : h.ctx.sessionHost session = some hostId)
    (ha : h.isDaemon a = true) (hfence : h.ctx.captureQuitFence = some fence)
    (hstep : h.step (.resume task .settled) = some g) :
    Respawning h g fence (h.hostChannels hostId) := by
  have hlt : task < h.tasks.length := (List.getElem?_eq_some_iff.mp hawaits).1
  rw [step_resume hawaits] at hstep
  rcases hr : h.attaches[attach]? with _ | r
  · unfold resume at hstep
    dsimp only at hstep
    rw [hr] at hstep
    cases hstep
  · obtain rfl := hattach r hr
    have hresume : h.resume task (.warmAwaits attach session rest) .settled =
        some (h.warmRestarted hostId a rest) := by
      unfold resume
      dsimp only
      rw [hr, hhost]
    obtain ⟨hjournal, htasks⟩ :=
      spawnHostChannels_daemon false ha (isQuitFenceCurrent_iff.mpr hfence)
      (h.hostChannels hostId)
    rw [hresume, warmRestarted, spawnChannelsForHost, hfence] at hstep
    cases hstep
    exact {
      journal := hjournal
      length := by
        rw [List.length_set, htasks, List.length_append, List.length_map]
      tasks := fun j e he ↦ by
        rw [List.getElem?_set_ne (by omega), htasks,
          List.getElem?_append_right (Nat.le_add_right ..),
          Nat.add_sub_cancel_left, List.getElem?_map, he]
        rfl }

/-! ## The replies -/

/-- The channel of a SPAWN that was answered: it is dead, or was respawned. -/
def Settled (d : Terminals) (h g : SessionHub db) (c : ChannelId) : Prop :=
  (∃ ch ∈ g.ctx.channels.get c, ch.status = .dead) ∨ (Accepts d c ∧ Respawned h g c)

/-- Between the SPAWN frames of a warm restart and the last of the replies. `n` is the first of its
tasks. -/
structure Replying (d : Terminals) (h : SessionHub db) (s : SharedSessionContext) (n fence : ℕ)
    (es : List (ChannelId × ℕ)) (g : SessionHub db) : Prop where
  calm : g.ctx.captureQuitFence = some fence
  length : g.tasks.length = n + es.length
  entries : h.journal.entries.length ≤ g.journal.entries.length
  kept : ∀ c ch, s.channels.get c = some ch →
    ∃ ch', g.ctx.channels.get c = some ch' ∧ (ch.status = .dead → ch'.status = .dead)
  present : ∀ e ∈ es, (g.ctx.channels.get e.1).isSome = true
  tasks : ∀ j e, es[j]? = some e →
    g.tasks[n + j]? = some (some (.hostSpawn false e.1 e.2 fence)) ∨
      (g.tasks[n + j]? = some none ∧ Settled d h g e.1)

/-- Code behind a reply: the channels that were dead are dead, and the answered one is settled. -/
theorem Replying.answer {n fence j : ℕ} {a : ContextAction}
    (hg : Replying d h s n fence es g) (he : es[j]? = some e)
    (hpending : g.tasks[n + j]? = some (some (.hostSpawn false e.1 e.2 fence)))
    (hfence : (g.ctx.apply a).captureQuitFence = g.ctx.captureQuitFence)
    (hkept : ∀ c ch, g.ctx.channels.get c = some ch →
      ∃ ch', (g.ctx.apply a).channels.get c = some ch' ∧ (ch.status = .dead → ch'.status = .dead))
    (hsettled : (∃ ch ∈ (g.ctx.apply a).channels.get e.1, ch.status = .dead) ∨
      (Accepts d e.1 ∧ ∃ m, a = .hostSpawned false e.1 m)) :
    Replying d h s n fence es { g.act a with tasks := (g.act a).tasks.set (n + j) none } := by
  obtain ⟨g', hg'⟩ : ∃ g', g' = { g.act a with tasks := (g.act a).tasks.set (n + j) none } :=
    ⟨_, rfl⟩
  have hctx : g'.ctx = g.ctx.apply a := by rw [hg']; rfl
  have hentries : g'.journal.entries = g.journal.entries ++ [a] := by rw [hg']; rfl
  have htasks : g'.tasks = g.tasks.set (n + j) none := by rw [hg']; rfl
  have hrespawned : ∀ c, Respawned h g c → Respawned h g' c := by
    rintro c ⟨m, hm⟩
    refine ⟨m, ?_⟩
    rw [hentries, List.drop_append_of_le_length hg.entries]
    exact List.mem_append_left _ hm
  have hkeeps : ∀ c, Settled d h g c → Settled d h g' c := by
    rintro c (⟨ch, hch, hdead⟩ | ⟨hac, hr⟩)
    · obtain ⟨ch', hch', hdead'⟩ := hkept c ch hch
      exact .inl ⟨ch', by rw [hctx]; exact hch', hdead' hdead⟩
    · exact .inr ⟨hac, hrespawned c hr⟩
  rw [← hg']
  refine ⟨by rw [hctx, hfence]; exact hg.calm, by rw [htasks, List.length_set]; exact hg.length, ?_,
    fun c ch hch ↦ ?_, fun e' he' ↦ ?_, fun j' e' he' ↦ ?_⟩
  · rw [hentries, List.length_append]
    exact hg.entries.trans (Nat.le_add_right ..)
  · obtain ⟨ch', hch', hdead⟩ := hg.kept c ch hch
    obtain ⟨ch'', hch'', hdead'⟩ := hkept c ch' hch'
    exact ⟨ch'', by rw [hctx]; exact hch'', fun h ↦ hdead' (hdead h)⟩
  · obtain ⟨ch, hch⟩ := Option.isSome_iff_exists.mp (hg.present e' he')
    obtain ⟨ch', hch', -⟩ := hkept e'.1 ch hch
    rw [hctx, hch']
    rfl
  · by_cases hj : j' = j
    · -- The task that was answered is over.
      subst hj
      cases he.symm.trans he'
      refine .inr ⟨?_, ?_⟩
      · rw [htasks]
        exact List.getElem?_set_self (List.getElem?_eq_some_iff.mp hpending).1
      · rcases hsettled with ⟨ch, hch, hdead⟩ | ⟨hac, m, rfl⟩
        · exact .inl ⟨ch, by rw [hctx]; exact hch, hdead⟩
        · refine .inr ⟨hac, m, ?_⟩
          rw [hentries, List.drop_append_of_le_length hg.entries]
          exact List.mem_append_right _ (List.mem_singleton.mpr rfl)
    · have hother : g'.tasks[n + j']? = g.tasks[n + j']? := by
        rw [htasks]
        exact List.getElem?_set_ne (by omega)
      rw [hother]
      rcases hg.tasks j' e' he' with hp | ⟨hdone, hs⟩
      · exact .inl hp
      · exact .inr ⟨hdone, hkeeps _ hs⟩

theorem Replying.fail {n fence j : ℕ} (hg : Replying d h s n fence es g) (he : es[j]? = some e)
    (hpending : g.tasks[n + j]? = some (some (.hostSpawn false e.1 e.2 fence))) :
    Replying d h s n fence es { g.act (.hostSpawnFailed e.1) with
      tasks := (g.act (.hostSpawnFailed e.1)).tasks.set (n + j) none } := by
  refine hg.answer he hpending rfl (fun c ch hch ↦ ?_) (.inl ?_)
  · change ∃ ch', (g.ctx.updateChannelStatus e.1 .dead).channels.get c = some ch' ∧ _
    rw [get_updateChannelStatus, hch]
    split
    · exact ⟨{ ch with status := .dead }, rfl, fun _ ↦ rfl⟩
    · exact ⟨ch, rfl, id⟩
  · obtain ⟨ch, hch⟩ := Option.isSome_iff_exists.mp (hg.present e (List.mem_of_getElem? he))
    refine ⟨{ ch with status := .dead }, ?_, rfl⟩
    change (g.ctx.updateChannelStatus e.1 .dead).channels.get e.1 = _
    rw [get_updateChannelStatus, if_pos rfl, hch]
    rfl

theorem Replying.step {n m fence : ℕ} {o : Outcome} (hg : Replying d h s n fence es g) (hm : n ≤ m)
    (hanswered : Answered d g (.resume m o) g') (hstep : g.step (.resume m o) = some g') :
    Replying d h s n fence es g' := by
  rcases htask : g.tasks[m]? with _ | t
  · rw [SessionHub.step, htask] at hstep
    cases hstep
  · obtain ⟨j, rfl⟩ := Nat.exists_eq_add_of_le hm
    have hlt : n + j < n + es.length := hg.length ▸ (List.getElem?_eq_some_iff.mp htask).1
    obtain ⟨e, he⟩ : ∃ e, es[j]? = some e := ⟨_, List.getElem?_eq_getElem (by omega)⟩
    rcases hg.tasks j e he with hpending | ⟨hdone, -⟩
    · rw [step_resume hpending] at hstep
      have hcurrent := isQuitFenceCurrent_iff.mpr hg.calm
      have hfailed : ∀ r, g.resume (n + j) (.hostSpawn false e.1 e.2 fence) r =
          some (g.act (.hostSpawnFailed e.1), none) → o = r → Replying d h s n fence es g' := by
        rintro r hr rfl
        rw [hr] at hstep
        cases hstep
        exact hg.fail he hpending
      cases o with
      | spawnOk c =>
        have hresume : g.resume (n + j) (.hostSpawn false e.1 e.2 fence) (.spawnOk c) =
            some (g.act (.hostSpawned false e.1 e.2), none) := by
          unfold resume
          dsimp only
          rw [if_pos hcurrent]
        rw [hresume] at hstep
        cases hstep
        have haccepts : Accepts d e.1 := by
          unfold Answered at hanswered
          dsimp only at hanswered
          rw [hpending] at hanswered
          exact hanswered
        exact hg.answer he hpending rfl (fun c ch hch ↦ ⟨ch, hch, id⟩) (.inr ⟨haccepts, e.2, rfl⟩)
      | spawnErr r =>
        refine hfailed _ ?_ rfl
        unfold resume
        dsimp only
        rw [if_pos hcurrent]
      | timeout => exact hfailed _ rfl rfl
      | _ => cases hstep
    · rw [SessionHub.step, hdone] at hstep
      cases hstep

theorem Replying.run {n fence : ℕ}
    {replies : List (ℕ × Outcome)} (hg : Replying d h s n fence es g) (hn : ∀ r ∈ replies, n ≤ r.1)
    (hanswered : Along SessionHub.step (Answered d) g (replies.map fun r ↦ .resume r.1 r.2))
    (hrun : run SessionHub.step g (replies.map fun r ↦ .resume r.1 r.2) = some g') :
    Replying d h s n fence es g' := by
  induction replies generalizing g with
  | nil => exact Option.some.inj hrun ▸ hg
  | cons r replies ih =>
    rw [List.forall_mem_cons] at hn
    rw [List.map_cons, run_cons, Option.bind_eq_some_iff] at hrun
    obtain ⟨t, ht, hrun⟩ := hrun
    rw [List.map_cons] at hanswered
    obtain ⟨hone, hanswered⟩ := hanswered t ht
    exact ih (hg.step hn.1 hone ht) hn.2 hanswered hrun

/-! ## What is reported -/

theorem get_daemonReady {i : ℕ} (hhost : s.sessionHost i = some hostId)
    (a : ℕ) (states : List (ChannelId × Bool)) (c : ChannelId) :
    (s.daemonReady i a states).channels.get c = (s.channels.get c).map fun ch ↦
      { ch with status := s.reconciledStatus hostId states c ch } := by
  rw [SharedSessionContext.sessionHost, Option.map_eq_some_iff] at hhost
  obtain ⟨session, hsession, rfl⟩ := hhost
  rw [daemonReady, hsession]
  exact get_reconcileChannelState session.hostId states c

theorem sessionHost_daemonReady (i a : ℕ) (states : List (ChannelId × Bool)) (j : ℕ) :
    (s.daemonReady i a states).sessionHost j = s.sessionHost j := by
  rw [daemonReady]
  split
  · rfl
  · rw [sessionHost_updateSessionStatus, reconcileChannelState]
    split <;> rfl

section

variable {s : SharedSessionContext} {hostId : String} {states : List (ChannelId × Bool)}
  {c : ChannelId} {ch : ChannelState}

theorem mem_reportedIds : c ∈ (states.filter Prod.snd).map Prod.fst ↔ (c, true) ∈ states := by
  rw [List.mem_map]
  constructor
  · rintro ⟨⟨c, alive⟩, hmem, rfl⟩
    rw [List.mem_filter] at hmem
    obtain ⟨hmem, rfl⟩ := hmem
    exact hmem
  · intro hmem
    exact ⟨(c, true), List.mem_filter.mpr ⟨hmem, rfl⟩, rfl⟩

/-- A dead channel is dead on. -/
theorem reconciledStatus_of_dead (hdead : ch.status = .dead) :
    s.reconciledStatus hostId states c ch = .dead := by
  rw [reconciledStatus]
  rcases s.sessions.get hostId with _ | j
  · exact hdead
  · rw [Option.elim_some, reconciled, hdead]
    split
    · split
      · rfl
      · rfl
    · rfl

/-- A channel that is reported alive does not die. -/
theorem reconciledStatus_of_reported (hmem : (c, true) ∈ states) (halive : ch.status ≠ .dead) :
    s.reconciledStatus hostId states c ch ≠ .dead := by
  rw [reconciledStatus]
  rcases s.sessions.get hostId with _ | j
  · exact halive
  · rw [Option.elim_some, reconciled]
    split
    · rw [if_pos (mem_reportedIds.mpr hmem)]
      split
      · decide
      · exact halive
    · exact halive

/-- A channel that is not reported dies where it is of the current session. -/
theorem reconciledStatus_eq_dead_iff (hhost : ch.hostId = hostId) (hmem : (c, true) ∉ states)
    (halive : ch.status ≠ .dead) :
    s.reconciledStatus hostId states c ch = .dead ↔ s.sessions.get hostId = some ch.sessionId := by
  rw [reconciledStatus]
  rcases s.sessions.get hostId with _ | j
  · exact ⟨fun h ↦ absurd h halive, fun h ↦ by simp at h⟩
  · rw [Option.elim_some, reconciled, if_neg (mt mem_reportedIds.mp hmem), Option.some.injEq]
    split
    · rename_i hcurrent
      exact ⟨fun _ ↦ hcurrent.2.symm, fun _ ↦ rfl⟩
    · rename_i hnot
      exact ⟨fun h ↦ absurd h halive, fun h ↦ absurd ⟨hhost, h.symm⟩ hnot⟩

end

theorem mem_hostChannels :
    e ∈ h.hostChannels hostId ↔
      ∃ ch, h.ctx.channels.get e.1 = some ch ∧ ch.hostId = hostId ∧ ch.status ≠ .dead ∧
        e.2 = ch.clients := by
  rw [hostChannels, List.mem_filterMap]
  constructor
  · rintro ⟨⟨c, ch⟩, hmem, hsome⟩
    dsimp only at hsome
    split at hsome
    · rename_i hguard
      cases hsome
      exact ⟨ch, OrderedMap.get_eq_some_iff.mpr hmem, hguard.1, hguard.2, rfl⟩
    · cases hsome
  · rintro ⟨ch, hch, hhost, halive, hclients⟩
    refine ⟨(e.1, ch), OrderedMap.get_eq_some_iff.mp hch, ?_⟩
    rw [if_pos ⟨hhost, halive⟩, ← hclients]

/-! ## The connection -/

namespace DaemonConnection

variable (x : DaemonConnection h h')

/-- Without a warm restart only the report is written. -/
theorem attached (hnone : x.restart = none) :
    ∃ a, Attached h h' x.task x.attach x.session a x.fence x.states := by
  refine attached_of_run x.connects ?_
  rw [← x.run_eq, connection, hnone]
  rfl

/-- In a warm restart the channels that are alive behind the report are settled. -/
theorem settled {w : WarmRestart} (hsome : x.restart = some w) :
    (∀ c ch, h.ctx.channels.get c = some ch → ch.hostId = x.hostId →
        h.ctx.reconciledStatus x.hostId x.states c ch ≠ .dead → Settled x.daemon h h' c) ∧
      ∀ c ch, h.ctx.channels.get c = some ch →
      h.ctx.reconciledStatus x.hostId x.states c ch = .dead →
        ∃ ch' ∈ h'.ctx.channels.get c, ch'.status = .dead := by
  obtain ⟨hawaits, hhost⟩ := x.awaits w hsome
  have hrun := x.run_eq
  have hanswered := x.answered
  rw [connection, hsome, Option.elim_some, run_append, Option.bind_eq_some_iff] at hrun
  rw [connection, hsome, Option.elim_some, along_append] at hanswered
  obtain ⟨g, hattach, hrun⟩ := hrun
  have hanswered := hanswered.2 g hattach
  obtain ⟨a, hg⟩ := attached_of_run x.connects hattach
  rw [run_cons, Option.bind_eq_some_iff] at hrun
  obtain ⟨t, ht, hrun⟩ := hrun
  obtain ⟨-, hanswered⟩ := hanswered t ht
  -- The caller goes on behind the report.
  have hne : w.task ≠ x.task := by
    rintro heq
    have hconnects := x.connects
    rw [← heq, hawaits] at hconnects
    cases hconnects
  have hresolved : ∀ r ∈ g.attaches[x.attach]?, r = .resolved a := by
    intro r hr
    rw [hg.attaches, Option.mem_def, List.getElem?_set_self', Option.map_eq_map,
      Option.map_eq_some_iff] at hr
    obtain ⟨-, -, rfl⟩ := hr
    rfl
  have hhost' : g.ctx.sessionHost w.session = some x.hostId := by
    rw [hg.ctx, sessionHost_daemonReady]
    exact hhost
  have hspawn :=
    respawning_of_step ((hg.tasks w.task hne).trans hawaits) hresolved hhost' hg.daemon hg.calm ht
  have hctx : t.ctx = g.ctx := by rw [ctx, hspawn.journal]; rfl
  have hstart : Replying x.daemon h g.ctx h.tasks.length x.fence (g.hostChannels x.hostId) t := by
    refine ⟨by rw [hctx]; exact hg.calm, by rw [hspawn.length, hg.length], ?_,
      fun c ch hch ↦ ⟨ch, by rw [hctx]; exact hch, id⟩, fun e he ↦ ?_, fun j e he ↦ .inl ?_⟩
    · rw [hspawn.journal, hg.entries, List.length_append]
      exact Nat.le_add_right ..
    · obtain ⟨ch, hch, -⟩ := mem_hostChannels.mp he
      rw [hctx, hch]
      rfl
    · rw [← hg.length]
      exact hspawn.tasks j e he
  have hend := hstart.run (x.replies w hsome) hanswered hrun
  have hget : ∀ c ch, h.ctx.channels.get c = some ch → g.ctx.channels.get c =
      some { ch with status := h.ctx.reconciledStatus x.hostId x.states c ch } := by
    intro c ch hch
    rw [hg.ctx, get_daemonReady x.sessionHost, hch]
    rfl
  constructor
  · intro c ch hch hch' halive
    have hmem : (c, ch.clients) ∈ g.hostChannels x.hostId :=
      mem_hostChannels.mpr ⟨_, hget c ch hch, hch', halive, rfl⟩
    obtain ⟨j, hj⟩ := List.mem_iff_getElem?.mp hmem
    have hlt : j < (g.hostChannels x.hostId).length := (List.getElem?_eq_some_iff.mp hj).1
    have hdone := x.complete (h.tasks.length + j) (Nat.le_add_right ..) (by rw [hend.length]; omega)
    rcases hend.tasks j _ hj with hpending | ⟨-, hsettled⟩
    · rw [hdone] at hpending
      cases hpending
    · exact hsettled
  · intro c ch hch hdead
    obtain ⟨ch', hch', hdead'⟩ := hend.kept c _ (hget c ch hch)
    exact ⟨ch', hch', hdead' hdead⟩

end DaemonConnection

/-- **A connection kills nothing** that is reported alive, and loses nothing, exactly where it is
benign. -/
theorem killsNothing_iff (x : DaemonConnection h h') : KillsNothing x ↔ x.Benign := by
  rcases hr : x.restart with _ | w
  · obtain ⟨a, hg⟩ := x.attached hr
    have hget : ∀ c ch, h.ctx.channels.get c = some ch → h'.ctx.channels.get c =
        some { ch with status := h.ctx.reconciledStatus x.hostId x.states c ch } := by
      intro c ch hch
      rw [hg.ctx, get_daemonReady x.sessionHost, hch]
      rfl
    have hnone : ∀ c, ¬ Respawned h h' c := by
      rintro c ⟨n, hn⟩
      rw [hg.entries, List.drop_left, List.mem_singleton] at hn
      cases hn
    rw [DaemonConnection.Benign, hr]
    constructor
    · intro hk c ch hch hhost halive hmem
      rcases hk.lost c ch hch hhost hmem with ⟨ch', hch', hdead⟩ | hrespawned
      · rw [hget c ch hch] at hch'
        cases hch'
        exact (reconciledStatus_eq_dead_iff hhost hmem halive).mp hdead
      · exact absurd hrespawned (hnone c)
    · intro hb
      refine ⟨fun c ch hch hhost halive hmem ↦
          ⟨_, hget c ch hch, reconciledStatus_of_reported hmem halive⟩,
        fun c ch hch hhost hmem ↦ .inl ⟨_, hget c ch hch, ?_⟩⟩
      by_cases hdead : ch.status = .dead
      · exact reconciledStatus_of_dead hdead
      · exact (reconciledStatus_eq_dead_iff hhost hmem hdead).mpr (hb c ch hch hhost hdead hmem)
  · obtain ⟨hsettled, hkept⟩ := x.settled hr
    rw [DaemonConnection.Benign, hr]
    constructor
    · intro hk c ch hch hhost halive hmem
      obtain ⟨ch', hch', halive'⟩ := hk.alive c ch hch hhost halive hmem
      rcases hsettled c ch hch hhost (reconciledStatus_of_reported hmem halive) with
        ⟨ch'', hch'', hdead⟩ | ⟨haccepts, -⟩
      · cases hch'.symm.trans hch''
        exact halive' hdead
      · -- The daemon has the channel, and refuses the SPAWN.
        have hhas := x.reported c hmem
        rw [haccepts.2] at hhas
        cases hhas
    · intro hb
      refine ⟨fun c ch hch hhost halive hmem ↦ absurd hmem (hb c ch hch hhost halive),
        fun c ch hch hhost hmem ↦ ?_⟩
      by_cases hdead : h.ctx.reconciledStatus x.hostId x.states c ch = .dead
      · exact .inl (hkept c ch hch hdead)
      · rcases hsettled c ch hch hhost hdead with hdead' | ⟨-, hrespawned⟩
        · exact .inl hdead'
        · exact .inr hrespawned

/-- A daemon with one channel. -/
def holding (c : ChannelId) : Terminals :=
  ⟨OrderedMap.empty.set c ⟨1, 0, 80, 24, []⟩, .empty, false, []⟩

theorem holding_reported {c : ChannelId} : ∀ c', (c', true) ∈ [(c, true)] →
    ((holding c).channels.get c').isSome = true := by
  intro c' hmem
  rw [List.mem_singleton, Prod.mk.injEq] at hmem
  rw [hmem.1, holding, OrderedMap.get_set_self]
  rfl

/-- The agent of a host with a channel is lost, and the hub waits for the daemon. -/
def reconnecting : List Event :=
  spawning ++ [.resume 0 (.spawnOk "c"), .resume 1 .settled, .lost 0, .closed 0 false]

/-- The daemon still has the channel, and the channel comes through. -/
theorem killsNothing_reconnecting :
    ∃ (h h' : SessionHub (.ofHost "desk" .daemon)) (x : DaemonConnection h h'),
      run step (start _) reconnecting = some h ∧ x.states = [("c", true)] ∧ KillsNothing x := by
  refine ⟨(run step (start _) reconnecting).get rfl,
    (run step (start _) (reconnecting ++ connection 2 [("c", true)] none)).get rfl,
    ⟨holding "c", "desk", 2, 1, 0, 0, [("c", true)], none, rfl, rfl, holding_reported, nofun,
    rfl, nofun,
      by decide, fun m hm hlt ↦ absurd (Nat.lt_of_le_of_lt hm hlt) (by decide)⟩, rfl, rfl,
    (killsNothing_iff _).mpr ?_⟩
  change ∀ c ch, _ → _
  decide

/-- The attach of `startup` has got no report in time, and a warm restart has begun. -/
def restarting : List Event :=
  [.startup, .resume 0 (.connected false), .resume 0 (.failed false), .resume 0 .settled,
    .resume 1 .settled]

/-- The daemon reports a channel alive, refuses to spawn it again, and the channel is dead. -/
theorem refused_channel_dies :
    ∃ (h h' : SessionHub (.ofChannel "desk" .daemon "c")) (x : DaemonConnection h h'),
      run step (start _) restarting = some h ∧ ¬ KillsNothing x := by
  refine ⟨(run step (start _) restarting).get rfl, (run step (start _) (restarting ++
    connection 2 [("c", true)] (some ⟨1, 0, some [], [(3, .spawnErr false)]⟩))).get rfl,
    ⟨holding "c", "desk", 2, 1, 0, 0, [("c", true)], some ⟨1, 0, some [], [(3, .spawnErr false)]⟩,
    rfl, rfl,
      holding_reported, ?_, rfl, ?_, by decide, ?_⟩, rfl, fun hk ↦ ?_⟩
  · rintro w ⟨⟩
    exact ⟨rfl, rfl⟩
  · rintro w ⟨⟩
    decide
  · intro m hm hlt
    obtain rfl : m = 3 := Nat.le_antisymm (Nat.le_of_lt_succ hlt) hm
    rfl
  · obtain ⟨ch, hch, halive⟩ := hk.alive "c" _ rfl rfl (by decide) (List.mem_singleton.mpr rfl)
    cases hch
    exact halive rfl

end SessionHub

end Lasterm.Hub
