import Lasterm.Library.Runs
import Mathlib.Data.List.Basic

/-!
# Attaching to a channel

Model of the part of `handleAttach` that asks the agent for a snapshot, for one channel whose agent
is connected. Every ATTACH of a client sends an ATTACH to the agent, arms a timer and puts a handler
into `ctx.pendingRequests` under `attach:${channelId}`, where there is room for one.
`wireAgentEvents` gives an ATTACH_OK or ERROR of the agent to the handler that is there.

A call of `handleAttach` is the number of its start. The code behind the handler and the timer runs
in the same step as these.

While one call waits at a time, each gets the snapshot that the agent sent for it. A call that
starts while another waits takes the place of its handler, and the other one is left to its timer
(`independent_iff_apart`).
-/

namespace Lasterm.Hub

open Runs

/-- The answer of the agent to an ATTACH. -/
inductive AgentReply
  | attachOk (snapshot : String)
  /-- `channelNotFound` is `isAgentChannelNotFoundError`. -/
  | error (channelNotFound : Bool)

/-- The answer of the hub to the ATTACH of a client. -/
inductive ClientReply
  | attachOk (snapshot : Option String) (cached : Bool)
  /-- The error CHANNEL_DEAD. -/
  | channelDead

/-- A call of `handleAttach`. -/
structure AttachCall where
  clientId : String
  /-- The timer is armed and the promise is pending. -/
  waiting : Bool
  /-- What the agent has answered to the ATTACH of this call. -/
  reply : Option AgentReply

structure Attaches where
  calls : List AttachCall
  /-- `ctx.pendingRequests.get("attach:" + channelId)`. -/
  pendingRequest : Option ℕ
  /-- The latest snapshot in the spool. -/
  stored : Option String
  /-- The channel is in `ctx.channels`. -/
  present : Bool
  sent : List (ℕ × ClientReply)

inductive AttachEvent
  | attach (clientId : String)
  /-- The agent answers the ATTACH of a call. -/
  | reply (n : ℕ) (msg : AgentReply)
  /-- The timer of a call expires. -/
  | expire (n : ℕ)

namespace Attaches

def start (stored : Option String) : Attaches := ⟨[], none, stored, true, []⟩

/-- Take a handler out of the registry, clear its timer and send an answer to its client. -/
def settle (s : Attaches) (n : ℕ) (answer : ClientReply) : Attaches :=
  { s with
    calls := s.calls.modify n fun c ↦ { c with waiting := false }
    pendingRequest := none
    sent := s.sent ++ [(n, answer)] }

/-- The handler of a call, with the code behind the promise. -/
def handle (s : Attaches) (n : ℕ) : AgentReply → Attaches
  | .attachOk snapshot =>
    { s.settle n (.attachOk (some snapshot) false) with stored := some snapshot }
  | .error true => { s.settle n .channelDead with present := false }
  | .error false => s.settle n (.attachOk s.stored true)

def step (s : Attaches) : AttachEvent → Option Attaches
  | .attach clientId =>
    if s.present then
      some { s with
        calls := s.calls ++ [⟨clientId, true, none⟩]
        pendingRequest := some s.calls.length }
    else none
  | .reply n msg =>
    match s.calls[n]? with
    | some ⟨_, _, none⟩ =>
      let t := { s with calls := s.calls.modify n fun c ↦ { c with reply := some msg } }
      match s.pendingRequest with
      | none => some t
      | some m => some (t.handle m msg)
    | _ => none
  | .expire n =>
    match s.calls[n]? with
    | some ⟨_, true, _⟩ => some (s.settle n (.attachOk s.stored true))
    | _ => none

/-! ## Runs in which the agent answers in time -/

/-- The agent answers with ATTACH_OK, and no timer expires before the agent has answered. -/
def Timely (s : Attaches) : AttachEvent → Attaches → Prop
  | .attach _, _ => True
  | .reply _ msg, _ => ∃ snapshot, msg = .attachOk snapshot
  | .expire n, _ => ∀ c ∈ s.calls[n]?, c.reply ≠ none

/-- Everything that was asked for has been answered, and no call waits any more. -/
def Complete (s : Attaches) : Prop := ∀ c ∈ s.calls, c.waiting = false ∧ c.reply ≠ none

/-- Every call has sent one ATTACH_OK, with the snapshot that the agent sent for it. -/
def AllFresh (s : Attaches) : Prop :=
  ∀ (n : ℕ) c, s.calls[n]? = some c → ∃ snapshot, c.reply = some (.attachOk snapshot) ∧
    s.sent.filter (·.1 = n) = [(n, .attachOk (some snapshot) false)]

/-- A timer that expires leaves the handlers of other calls in the registry. -/
def SparesOthers (s : Attaches) : AttachEvent → Attaches → Prop
  | .expire n, s' => ∀ m, s.pendingRequest = some m → m ≠ n → s'.pendingRequest = some m
  | _, _ => True

/-- A call starts only while no other one waits. -/
def Apart (s : Attaches) : AttachEvent → Attaches → Prop
  | .attach _, _ => ∀ c ∈ s.calls, c.waiting = false
  | _, _ => True

variable {s s' : Attaches} {n m : ℕ} {c : AttachCall} {answer : ClientReply}
  {stored : Option String}

/-! ## What holds in every run -/

/-- The handler in the registry is that of a waiting call, and a waiting call has sent nothing. -/
structure Coherent (s : Attaches) : Prop where
  registered : ∀ n, s.pendingRequest = some n → ∃ c, s.calls[n]? = some c ∧ c.waiting = true
  silent : ∀ (n : ℕ) c, s.calls[n]? = some c → c.waiting = true → s.sent.filter (·.1 = n) = []
  bounded : ∀ x ∈ s.sent, x.1 < s.calls.length

theorem coherent_start : (start stored).Coherent where
  registered n h := absurd h (by simp [start])
  silent n c h := absurd h (by simp [start])
  bounded x h := absurd h (by simp [start])

theorem calls_settle : (s.settle n answer).calls[m]? =
    s.calls[m]?.map fun c ↦ if n = m then { c with waiting := false } else c := by
  rw [settle, List.getElem?_modify]
  rfl

theorem filter_sent_settle : (s.settle n answer).sent.filter (·.1 = m) =
    s.sent.filter (·.1 = m) ++ if n = m then [(n, answer)] else [] := by
  rw [settle, List.filter_append]
  by_cases h : n = m <;> simp [h]

/-- Storing a snapshot and retiring the channel do not touch the calls. -/
theorem Coherent.congr (h : s.Coherent) (hcalls : s'.calls = s.calls)
    (hpending : s'.pendingRequest = s.pendingRequest) (hsent : s'.sent = s.sent) : s'.Coherent where
  registered := by rw [hcalls, hpending]; exact h.registered
  silent := by rw [hcalls, hsent]; exact h.silent
  bounded := by rw [hcalls, hsent]; exact h.bounded

theorem Coherent.settle (h : s.Coherent) (hn : n < s.calls.length) :
    (s.settle n answer).Coherent where
  registered m hm := nomatch hm
  silent m c hc hwaiting := by
    rw [calls_settle, Option.map_eq_some_iff] at hc
    obtain ⟨c, hc, rfl⟩ := hc
    rw [filter_sent_settle]
    by_cases hnm : n = m
    · rw [if_pos hnm] at hwaiting
      cases hwaiting
    · rw [if_neg hnm] at hwaiting ⊢
      rw [h.silent m c hc hwaiting, List.append_nil]
  bounded x hx := by
    rw [Attaches.settle, List.mem_append, List.mem_singleton] at hx
    rw [Attaches.settle, List.length_modify]
    rcases hx with hx | rfl
    · exact h.bounded x hx
    · exact hn

theorem Coherent.handle (h : s.Coherent) (hn : n < s.calls.length) (msg : AgentReply) :
    (s.handle n msg).Coherent := by
  rcases msg with snapshot | notFound | notFound
  · exact (h.settle hn).congr rfl rfl rfl
  · exact h.settle hn
  · exact (h.settle hn).congr rfl rfl rfl

/-- `t` is `s` with the answer of the agent to a call noted. -/
def noted (s : Attaches) (n : ℕ) (msg : AgentReply) : Attaches :=
  { s with calls := s.calls.modify n fun c ↦ { c with reply := some msg } }

theorem calls_noted {msg : AgentReply} : (s.noted n msg).calls[m]? =
    s.calls[m]?.map fun c ↦ if n = m then { c with reply := some msg } else c := by
  rw [noted, List.getElem?_modify]
  rfl

theorem Coherent.noted (h : s.Coherent) (n : ℕ) (msg : AgentReply) : (s.noted n msg).Coherent where
  registered m hm := by
    obtain ⟨c, hc, hwaiting⟩ := h.registered m hm
    refine ⟨_, by rw [calls_noted, hc, Option.map_some], ?_⟩
    split <;> exact hwaiting
  silent m c hc hwaiting := by
    rw [calls_noted, Option.map_eq_some_iff] at hc
    obtain ⟨c, hc, rfl⟩ := hc
    refine h.silent m c hc ?_
    split at hwaiting <;> exact hwaiting
  bounded x hx := by
    rw [Attaches.noted, List.length_modify]
    exact h.bounded x hx

/-- What the events do. -/
theorem step_cases {e : AttachEvent} (hstep : s.step e = some s') :
    (∃ clientId, e = .attach clientId ∧ s' = { s with
        calls := s.calls ++ [⟨clientId, true, none⟩], pendingRequest := some s.calls.length }) ∨
    (∃ n msg c, e = .reply n msg ∧ s.calls[n]? = some c ∧ c.reply = none ∧
        ((s.pendingRequest = none ∧ s' = s.noted n msg) ∨
          ∃ m, s.pendingRequest = some m ∧ s' = (s.noted n msg).handle m msg)) ∨
    (∃ n c, e = .expire n ∧ s.calls[n]? = some c ∧ c.waiting = true ∧
        s' = s.settle n (.attachOk s.stored true)) := by
  cases e with
  | attach clientId =>
    simp only [step] at hstep
    split at hstep
    · exact .inl ⟨clientId, rfl, (Option.some.inj hstep).symm⟩
    · cases hstep
  | reply n msg =>
    refine .inr (.inl ⟨n, msg, ?_⟩)
    simp only [step] at hstep
    split at hstep
    · rename_i clientId waiting hc
      refine ⟨_, rfl, hc, rfl, ?_⟩
      rcases hpending : s.pendingRequest with _ | m
      · rw [hpending] at hstep
        refine .inl ⟨rfl, ?_⟩
        rw [noted, ← Option.some.inj hstep, hpending]
      · rw [hpending] at hstep
        exact .inr ⟨m, rfl, (Option.some.inj hstep).symm⟩
    · cases hstep
  | expire n =>
    refine .inr (.inr ⟨n, ?_⟩)
    simp only [step] at hstep
    split at hstep
    · rename_i clientId reply hc
      exact ⟨_, rfl, hc, rfl, (Option.some.inj hstep).symm⟩
    · cases hstep

theorem lt_of_getElem? (hc : s.calls[n]? = some c) : n < s.calls.length :=
  (List.getElem?_eq_some_iff.mp hc).1

theorem Coherent.lt (h : s.Coherent) (hn : s.pendingRequest = some n) : n < s.calls.length := by
  obtain ⟨c, hc, -⟩ := h.registered n hn
  exact lt_of_getElem? hc

theorem filter_sent_eq_nil (h : s.Coherent) : s.sent.filter (·.1 = s.calls.length) = [] := by
  rw [List.filter_eq_nil_iff]
  intro x hx
  simpa using Nat.ne_of_lt (h.bounded x hx)

theorem Coherent.attach (h : s.Coherent) (clientId : String) : Coherent { s with
    calls := s.calls ++ [⟨clientId, true, none⟩], pendingRequest := some s.calls.length } where
  registered m hm := by
    cases hm
    exact ⟨_, List.getElem?_concat_length, rfl⟩
  silent m c hc hwaiting := by
    rw [List.getElem?_append] at hc
    split at hc
    · exact h.silent m c hc hwaiting
    · rename_i hm
      obtain ⟨hlt, -⟩ := List.getElem?_eq_some_iff.mp hc
      rw [List.length_singleton] at hlt
      rw [show m = s.calls.length by omega]
      exact filter_sent_eq_nil h
  bounded x hx := by
    rw [List.length_append]
    exact Nat.lt_add_right 1 (h.bounded x hx)

theorem step_coherent (h : s.Coherent) {e : AttachEvent} (hstep : s.step e = some s') :
    s'.Coherent := by
  rcases step_cases hstep with ⟨clientId, -, rfl⟩ | ⟨n, msg, c, -, -, -, ⟨-, rfl⟩ | ⟨m, hm, rfl⟩⟩ |
    ⟨n, c, -, hc, -, rfl⟩
  · exact h.attach clientId
  · exact h.noted n msg
  · exact (h.noted n msg).handle (n := m) ((h.noted n msg).lt hm) msg
  · exact h.settle (lt_of_getElem? hc)

/-! ## One call at a time -/

/-- A call that waits is the one in the registry and has no answer; any other one has sent the
snapshot that the agent sent for it. -/
structure OneWaiting (s : Attaches) : Prop where
  waiting : ∀ (n : ℕ) c, s.calls[n]? = some c → c.waiting = true →
    c.reply = none ∧ s.pendingRequest = some n
  fresh : ∀ (n : ℕ) c, s.calls[n]? = some c → c.waiting = false →
    ∃ snapshot, c.reply = some (.attachOk snapshot) ∧
      s.sent.filter (·.1 = n) = [(n, .attachOk (some snapshot) false)]

theorem OneWaiting.attach (h : s.OneWaiting) (hapart : ∀ c ∈ s.calls, c.waiting = false)
    (clientId : String) : OneWaiting { s with
      calls := s.calls ++ [⟨clientId, true, none⟩], pendingRequest := some s.calls.length } where
  waiting m c hc hwaiting := by
    rw [List.getElem?_append] at hc
    split at hc
    · rw [hapart c (List.mem_of_getElem? hc)] at hwaiting
      cases hwaiting
    · rename_i hm
      obtain ⟨hlt, heq⟩ := List.getElem?_eq_some_iff.mp hc
      rw [List.length_singleton] at hlt
      rw [List.getElem_singleton] at heq
      exact ⟨heq ▸ rfl, by rw [show m = s.calls.length by omega]⟩
  fresh m c hc hsettled := by
    rw [List.getElem?_append] at hc
    split at hc
    · exact h.fresh m c hc hsettled
    · obtain ⟨hlt, heq⟩ := List.getElem?_eq_some_iff.mp hc
      rw [List.getElem_singleton] at heq
      rw [← heq] at hsettled
      cases hsettled

/-- The answer of the agent to the call that waits. -/
theorem OneWaiting.reply (h : s.OneWaiting) (hcoherent : s.Coherent)
    (hc : s.calls[n]? = some c) (hwaiting : c.waiting = true) (snapshot : String) :
    ((s.noted n (.attachOk snapshot)).handle n (.attachOk snapshot)).OneWaiting := by
  have hcalls : ∀ m : ℕ,
      ((s.noted n (.attachOk snapshot)).handle n (.attachOk snapshot)).calls[m]? =
      s.calls[m]?.map fun c ↦
        if n = m then { c with waiting := false, reply := some (.attachOk snapshot) } else c := by
    intro m
    change ((s.noted n _).settle n (.attachOk (some snapshot) false)).calls[m]? = _
    rw [calls_settle, calls_noted, Option.map_map]
    congr 1
    funext c
    by_cases hnm : n = m <;> simp [hnm]
  have hsent : ∀ m, ((s.noted n (.attachOk snapshot)).handle n (.attachOk snapshot)).sent.filter
      (·.1 = m) = s.sent.filter (·.1 = m) ++
        if n = m then [(n, .attachOk (some snapshot) false)] else [] := by
    intro m
    change ((s.noted n _).settle n (.attachOk (some snapshot) false)).sent.filter _ = _
    rw [filter_sent_settle]
    rfl
  constructor
  · intro m d hd hd'
    rw [hcalls, Option.map_eq_some_iff] at hd
    obtain ⟨d, hd, rfl⟩ := hd
    by_cases hnm : n = m
    · rw [if_pos hnm] at hd'
      cases hd'
    · rw [if_neg hnm] at hd'
      -- Only one call waits.
      have hm := (h.waiting m d hd hd').2
      rw [(h.waiting n c hc hwaiting).2] at hm
      exact absurd (Option.some.inj hm) hnm
  · intro m d hd hd'
    rw [hcalls, Option.map_eq_some_iff] at hd
    obtain ⟨d, hd, rfl⟩ := hd
    rw [hsent]
    by_cases hnm : n = m
    · subst hnm
      rw [if_pos rfl, if_pos rfl, hcoherent.silent n c hc hwaiting, List.nil_append]
      exact ⟨snapshot, rfl, rfl⟩
    · rw [if_neg hnm] at hd' ⊢
      rw [if_neg hnm, List.append_nil]
      exact h.fresh m d hd hd'

theorem step_oneWaiting (h : s.OneWaiting) (hcoherent : s.Coherent) {e : AttachEvent}
    (hapart : Apart s e s') (htimely : Timely s e s') (hstep : s.step e = some s') :
    s'.OneWaiting ∧ SparesOthers s e s' := by
  rcases step_cases hstep with ⟨clientId, rfl, rfl⟩ | ⟨n, msg, c, rfl, hc, hreply, hs'⟩ |
    ⟨n, c, rfl, hc, hwaiting, rfl⟩
  · exact ⟨h.attach hapart clientId, trivial⟩
  · obtain ⟨snapshot, rfl⟩ := htimely
    have hwaiting : c.waiting = true := by
      by_contra hnot
      obtain ⟨_, hsome, -⟩ := h.fresh n c hc (Bool.eq_false_iff.mpr hnot)
      rw [hreply] at hsome
      cases hsome
    have hpending := (h.waiting n c hc hwaiting).2
    rcases hs' with ⟨hnone, -⟩ | ⟨m, hm, rfl⟩
    · rw [hpending] at hnone
      cases hnone
    · cases hpending.symm.trans hm
      exact ⟨h.reply hcoherent hc hwaiting snapshot, trivial⟩
  · exact absurd (h.waiting n c hc hwaiting).1 (htimely c hc)

/-! ## A call that starts while another waits -/

/-- The handler of a call is no longer in the registry, and the call has sent no fresh snapshot. -/
structure Lost (s : Attaches) (n : ℕ) : Prop where
  called : n < s.calls.length
  unregistered : s.pendingRequest ≠ some n
  stale : ∀ snapshot, (n, .attachOk snapshot false) ∉ s.sent

theorem Lost.settle (h : s.Lost n)
    (hanswer : m = n → ∀ snapshot, answer ≠ .attachOk snapshot false) :
    (s.settle m answer).Lost n where
  called := by
    rw [Attaches.settle, List.length_modify]
    exact h.called
  unregistered := nofun
  stale snapshot hmem := by
    rw [Attaches.settle, List.mem_append, List.mem_singleton] at hmem
    rcases hmem with hmem | heq
    · exact h.stale snapshot hmem
    · obtain ⟨rfl, hanswer'⟩ := Prod.mk.inj heq
      exact hanswer rfl snapshot hanswer'.symm

theorem Lost.handle (h : s.Lost n) (hne : m ≠ n) (msg : AgentReply) : (s.handle m msg).Lost n := by
  rcases msg with snapshot | notFound | notFound
  · have hlost : (s.settle m (.attachOk (some snapshot) false)).Lost n :=
      h.settle fun heq ↦ absurd heq hne
    exact ⟨hlost.called, hlost.unregistered, hlost.stale⟩
  · exact h.settle fun heq ↦ absurd heq hne
  · have hlost : (s.settle m .channelDead).Lost n := h.settle fun heq ↦ absurd heq hne
    exact ⟨hlost.called, hlost.unregistered, hlost.stale⟩

theorem Lost.noted (h : s.Lost n) (m : ℕ) (msg : AgentReply) : (s.noted m msg).Lost n where
  called := by
    rw [Attaches.noted, List.length_modify]
    exact h.called
  unregistered := h.unregistered
  stale := h.stale

theorem step_lost (h : s.Lost n) {e : AttachEvent} (hstep : s.step e = some s') : s'.Lost n := by
  rcases step_cases hstep with ⟨clientId, -, rfl⟩ | ⟨m, msg, c, -, -, -, ⟨-, rfl⟩ | ⟨k, hk, rfl⟩⟩ |
    ⟨m, c, -, -, -, rfl⟩
  · refine ⟨?_, ?_, h.stale⟩
    · rw [List.length_append]
      exact Nat.lt_add_right 1 h.called
    · intro heq
      exact absurd (Option.some.inj heq) (Nat.ne_of_gt h.called)
  · exact h.noted m msg
  · exact (h.noted m msg).handle (fun heq ↦ h.unregistered (heq ▸ hk)) msg
  · exact h.settle fun _ snapshot heq ↦ by cases heq

theorem Coherent.lost (h : s.Coherent) (hc : s.calls[n]? = some c) (hwaiting : c.waiting = true)
    (clientId : String) : Lost { s with
      calls := s.calls ++ [⟨clientId, true, none⟩], pendingRequest := some s.calls.length } n where
  called := by
    rw [List.length_append]
    exact Nat.lt_add_right 1 (lt_of_getElem? hc)
  unregistered heq := absurd (Option.some.inj heq) (Nat.ne_of_gt (lt_of_getElem? hc))
  stale snapshot hmem := by
    have hmem' : (n, ClientReply.attachOk snapshot false) ∈ s.sent.filter (·.1 = n) := by
      rw [List.mem_filter]
      exact ⟨hmem, by simp⟩
    rw [h.silent n c hc hwaiting] at hmem'
    cases hmem'

theorem Lost.not_allFresh (h : s.Lost n) : ¬ s.AllFresh := by
  intro hfresh
  obtain ⟨snapshot, -, hsent⟩ := hfresh n _ (List.getElem?_eq_getElem h.called)
  have hmem : (n, ClientReply.attachOk (some snapshot) false) ∈ s.sent.filter (·.1 = n) := by
    rw [hsent]
    exact List.mem_singleton_self _
  exact h.stale _ (List.mem_filter.mp hmem).1

/-! ## Whole runs -/

theorem not_allFresh_of_not_apart {es : List AttachEvent} (h : s.Coherent)
    (hapart : ¬ Along step Apart s es) (hrun : run step s es = some s') : ¬ s'.AllFresh := by
  obtain ⟨es₁, e, es₂, t, t', rfl, hrun₁, hstep, hnot⟩ := exists_of_not_along hapart
  have ht : t.Coherent :=
    run_invariant Coherent (fun _ _ _ h ht ↦ step_coherent h ht) h hrun₁
  rw [run_append, hrun₁, Option.bind_some, run_cons, hstep, Option.bind_some] at hrun
  have hlost : ∃ n, t'.Lost n := by
    rcases step_cases hstep with ⟨clientId, rfl, rfl⟩ | ⟨n, msg, c, rfl, -⟩ | ⟨n, c, rfl, -⟩
    · simp only [Apart, not_forall, Bool.not_eq_false] at hnot
      obtain ⟨c, hc, hwaiting⟩ := hnot
      obtain ⟨n, hn⟩ := List.getElem?_of_mem hc
      exact ⟨n, ht.lost hn hwaiting clientId⟩
    · exact absurd trivial hnot
    · exact absurd trivial hnot
  obtain ⟨n, hn⟩ := hlost
  exact (run_invariant (Lost · n) (fun _ _ _ h ht ↦ step_lost h ht) hn hrun).not_allFresh

/-- **Attaches are independent exactly while they do not overlap.** In a run in which the agent
answers every ATTACH in time and that is over, every call has answered its client once, with the
snapshot that the agent sent for it, and no timer has removed the handler of another call, if and
only if no call started while another one waited. -/
theorem independent_iff_apart {es : List AttachEvent} (hrun : run step (start stored) es = some s)
    (htimely : Along step Timely (start stored) es) (hcomplete : s.Complete) :
    (s.AllFresh ∧ Along step SparesOthers (start stored) es) ↔
    Along step Apart (start stored) es := by
  constructor
  · rintro ⟨hfresh, -⟩
    by_contra hapart
    exact not_allFresh_of_not_apart coherent_start hapart hrun hfresh
  · intro hapart
    have hstart : (start stored).OneWaiting :=
      ⟨fun _ _ hc ↦ absurd hc (by simp [start]), fun _ _ hc ↦ absurd hc (by simp [start])⟩
    have hstep : ∀ t e t', t.Coherent ∧ t.OneWaiting → Apart t e t' ∧ Timely t e t' →
        t.step e = some t' → (t'.Coherent ∧ t'.OneWaiting) ∧ SparesOthers t e t' := by
      rintro t e t' ⟨hcoherent, hone⟩ ⟨hap, htime⟩ ht
      obtain ⟨hone', hspares⟩ := step_oneWaiting hone hcoherent hap htime ht
      exact ⟨⟨step_coherent hcoherent ht, hone'⟩, hspares⟩
    have hboth := along_and hapart htimely
    refine ⟨fun n c hc ↦ ?_, along_of_invariant _ hstep ⟨coherent_start, hstart⟩ hboth⟩
    have hinv := run_invariant_along (fun t ↦ t.Coherent ∧ t.OneWaiting)
      (fun t e t' hinv hcond ht ↦ (hstep t e t' hinv hcond ht).1) ⟨coherent_start, hstart⟩
      hboth hrun
    exact hinv.2.fresh n c hc (hcomplete c (List.mem_of_getElem? hc)).1

/-- Two clients, one after the other. -/
def inTurn : List AttachEvent :=
  [.attach "first", .reply 0 (.attachOk "a"), .attach "second", .reply 1 (.attachOk "b")]

theorem independent_iff_apart_inTurn :
    ∃ s, run step (start none) inTurn = some s ∧
      ((s.AllFresh ∧ Along step SparesOthers (start none) inTurn) ↔
        Along step Apart (start none) inTurn) := by
  refine ⟨⟨[⟨"first", false, some (.attachOk "a")⟩, ⟨"second", false, some (.attachOk "b")⟩], none,
    some "b", true, [(0, .attachOk (some "a") false), (1, .attachOk (some "b") false)]⟩, rfl, ?_⟩
  refine independent_iff_apart rfl ?_ ?_
  · refine fun _ _ ↦ ⟨trivial,
      fun _ _ ↦ ⟨⟨_, rfl⟩, fun _ _ ↦ ⟨trivial, fun _ _ ↦ ⟨⟨_, rfl⟩, trivial⟩⟩⟩⟩
  · simp [Complete]

/-- Two clients at the same time: both answers of the agent arrive in time, and the first client
gets a cached ATTACH_OK when its timer expires. -/
theorem overlap_answers_cached :
    ∃ es s, run step (start none) es = some s ∧ Along step Timely (start none) es ∧ s.Complete ∧
      s.sent = [(1, .attachOk (some "a") false), (0, .attachOk (some "a") true)] ∧
      ¬ s.AllFresh := by
  refine ⟨[.attach "first", .attach "second", .reply 0 (.attachOk "a"), .reply 1 (.attachOk "b"),
    .expire 0], ⟨[⟨"first", false, some (.attachOk "a")⟩, ⟨"second", false, some (.attachOk "b")⟩],
    none, some "a", true, [(1, .attachOk (some "a") false), (0, .attachOk (some "a") true)]⟩,
    rfl, ?_, ?_, rfl, ?_⟩
  · refine fun _ h₁ ↦ ⟨trivial, fun _ h₂ ↦ ⟨trivial, fun _ h₃ ↦ ⟨⟨_, rfl⟩, fun _ h₄ ↦ ⟨⟨_, rfl⟩,
      fun _ _ ↦ ⟨?_, trivial⟩⟩⟩⟩⟩
    cases h₁
    cases h₂
    obtain rfl := Option.some.inj h₃
    obtain rfl := Option.some.inj h₄
    intro c hc
    cases hc
    simp
  · simp [Complete]
  · intro hfresh
    obtain ⟨snapshot, -, hsent⟩ := hfresh 0 _ rfl
    simp at hsent

end Attaches

end Lasterm.Hub
