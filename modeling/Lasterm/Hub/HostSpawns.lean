import Lasterm.Hub.SessionManager
import Mathlib.Data.List.Count

/-!
# The promise of `spawnChannelsForHost`

Model of how `spawnChannelsForHost` counts the answers to its SPAWNs. The loop over the channels of
the host runs in one turn: it sends a SPAWN, arms a timer and registers a handler for each channel
that is not dead. Answers and timers come in later turns, in any order, and what the hub does in
between may write to its channels or begin to quit. Each of them counts `pending` down, and the
promise of the call is resolved where that reaches zero.

Any number of calls may be open. The number of a SPAWN stands for its request id, which is fresh. An
agent may refuse a frame, which throws out of the loop: such a call returns no promise. What
`onSpawnOk` and `onSpawnErr` do is left to the writes in between.
-/

namespace Lasterm.Hub

open Runs

/-- The callback that an answer leads to: `onSpawnOk`, or `onSpawnErr`. -/
inductive SpawnCallback
  | onSpawnOk
  | onSpawnErr
  deriving DecidableEq

/-- One round of the loop, with what its closures do later. -/
structure HostSpawn where
  /-- The call of `spawnChannelsForHost`. -/
  call : ℕ
  channelId : ChannelId
  quitEpoch : ℕ
  /-- The timer is armed. -/
  timeout : Bool
  /-- The handler is in `pendingRequests`. -/
  handler : Bool
  callbacks : List SpawnCallback

/-- A call of `spawnChannelsForHost`. -/
structure HostSpawnCall where
  pending : ℤ
  resolved : Bool
  /-- The call has not thrown. -/
  returned : Bool

structure HostSpawns where
  quitting : Bool
  quitEpoch : ℕ
  channels : OrderedMap ChannelId ChannelState
  spawns : List HostSpawn
  calls : List HostSpawnCall

inductive HostSpawnEvent
  /-- The rest of the hub writes to its channels. -/
  | channels (channels : OrderedMap ChannelId ChannelState)
  | beginQuit
  /-- `refuses` says for which channels the agent throws on the frame. -/
  | spawnChannelsForHost (hostId : String) (refuses : ChannelId → Bool)
  /-- A message with the request id, of any type: `ok` says that it is SPAWN_OK. -/
  | answer (requestId : ℕ) (ok : Bool)
  /-- `SPAWN_TIMEOUT_MS` are over. -/
  | timeout (requestId : ℕ)

/-- What an answer or a timer is about. -/
def HostSpawnEvent.requestId : HostSpawnEvent → Option ℕ
  | .answer requestId _ | .timeout requestId => some requestId
  | _ => none

def HostSpawnCall.count (n : ℤ) (c : HostSpawnCall) : HostSpawnCall :=
  { c with pending := c.pending + n }

theorem HostSpawnCall.count_zero : HostSpawnCall.count 0 = id := by
  funext c
  rw [count, Int.add_zero]
  rfl

theorem HostSpawnCall.count_count (m n : ℤ) :
    HostSpawnCall.count n ∘ HostSpawnCall.count m = HostSpawnCall.count (m + n) := by
  funext c
  rw [Function.comp_apply, count, count, count, Int.add_assoc]

/-- `settle`. -/
def HostSpawnCall.settle (c : HostSpawnCall) : HostSpawnCall :=
  { c with pending := c.pending - 1, resolved := c.resolved || c.pending - 1 = 0 }

/-- The timer is cleared or has fired, and the handler is deleted. -/
def HostSpawn.close (x : HostSpawn) (callbacks : List SpawnCallback) : HostSpawn :=
  { x with timeout := false, handler := false, callbacks := x.callbacks ++ callbacks }

namespace HostSpawns

def empty : HostSpawns := ⟨false, 0, .empty, [], []⟩

variable (s : HostSpawns)

def captureQuitFence : Option ℕ := if s.quitting then none else some s.quitEpoch

def isQuitFenceCurrent (fence : ℕ) : Bool := !s.quitting && s.quitEpoch == fence

def modifyCall (k : ℕ) (f : HostSpawnCall → HostSpawnCall) : HostSpawns :=
  { s with calls := s.calls.modify k f }

/-- The loop of call `k`. The second component says that the agent has thrown. -/
def sendSpawns (k fence : ℕ) (hostId : String) (refuses : ChannelId → Bool) :
    HostSpawns → List (ChannelId × ChannelState) → HostSpawns × Bool
  | s, [] => (s, false)
  | s, e :: es =>
    if e.2.hostId ≠ hostId ∨ e.2.status = .dead then sendSpawns k fence hostId refuses s es
    else
      let t := s.modifyCall k (.count 1)
      if t.isQuitFenceCurrent fence = false then (t, false)
      else if refuses e.1 then (t, true)
      else
        sendSpawns k fence hostId refuses
          { t with spawns := t.spawns ++ [⟨k, e.1, fence, true, true, []⟩] } es

def spawnChannelsForHost (hostId : String) (refuses : ChannelId → Bool) : HostSpawns :=
  match s.captureQuitFence with
  | none => { s with calls := s.calls ++ [⟨0, true, true⟩] }
  | some fence =>
    let t := { s with calls := s.calls ++ [⟨0, false, false⟩] }
    match sendSpawns s.calls.length fence hostId refuses t s.channels.entries with
    | (t, true) => t
    | (t, false) => t.modifyCall s.calls.length fun c ↦
        { c with resolved := c.resolved || c.pending = 0, returned := true }

/-- The end of request `n`: its timer and its handler are gone, and its call counts it. -/
def settle (n : ℕ) (x : HostSpawn) (callbacks : List SpawnCallback) : HostSpawns :=
  { s with spawns := s.spawns.set n (x.close callbacks) }.modifyCall x.call .settle

/-- A message for request `n`. One that finds no handler is dropped. -/
def answer (n : ℕ) (ok : Bool) : HostSpawns :=
  match s.spawns[n]? with
  | none => s
  | some x =>
    if x.handler then
      if s.isQuitFenceCurrent x.quitEpoch then
        s.settle n x [if ok then .onSpawnOk else .onSpawnErr]
      else s.settle n x []
    else s

def step : HostSpawnEvent → Option HostSpawns
  | .channels channels => some { s with channels := channels }
  | .beginQuit =>
    some (if s.quitting then s else { s with quitting := true, quitEpoch := s.quitEpoch + 1 })
  | .spawnChannelsForHost hostId refuses => some (s.spawnChannelsForHost hostId refuses)
  | .answer n ok => some (s.answer n ok)
  | .timeout n =>
    match s.spawns[n]? with
    | none => none
    | some x => if x.timeout then some (s.settle n x [.onSpawnErr]) else none

/-- A request that was sent has been answered, or has timed out. -/
def Settled (es : List HostSpawnEvent) (n : ℕ) : Prop :=
  ∃ es₁ e es₂ t, es = es₁ ++ e :: es₂ ∧ run step empty es₁ = some t ∧ n < t.spawns.length ∧
    e.requestId = some n

variable {s} {s' : HostSpawns} {es : List HostSpawnEvent} {e : HostSpawnEvent} {n k fence : ℕ}
  {x : HostSpawn} {c : HostSpawnCall}

/-! ## What the loop sends -/

/-- The channels that the loop does not skip. -/
def liveChannels (hostId : String) (es : List (ChannelId × ChannelState)) : List ChannelId :=
  es.filterMap fun e ↦ if e.2.hostId = hostId ∧ e.2.status ≠ .dead then some e.1 else none

/-- Call `k` has sent a SPAWN for each of `cs`, and has counted `n` of them. -/
def sent (s : HostSpawns) (k fence : ℕ) (cs : List ChannelId) (n : ℤ) : HostSpawns :=
  { s with
    spawns := s.spawns ++ cs.map fun c ↦ ⟨k, c, fence, true, true, []⟩
    calls := s.calls.modify k (.count n) }

theorem sent_nil (s : HostSpawns) (k fence : ℕ) : s.sent k fence [] 0 = s := by
  rw [sent, HostSpawnCall.count_zero, List.modify_id, List.map_nil, List.append_nil]

theorem sent_sent (s : HostSpawns) (k fence : ℕ) (cs cs' : List ChannelId) (m n : ℤ) :
    (s.sent k fence cs m).sent k fence cs' n = s.sent k fence (cs ++ cs') (m + n) := by
  rw [sent, sent, sent, List.modify_modify_eq, HostSpawnCall.count_count, List.map_append,
    List.append_assoc]

/-- The loop sends, and counts what it sends. Where the agent takes every frame it goes through all
channels. The fence of the call does not change in the turn of the loop, so that it does not break
out of it. -/
theorem exists_sendSpawns (k : ℕ) (hostId : String) (refuses : ChannelId → Bool)
    (entries : List (ChannelId × ChannelState)) (hfence : s.isQuitFenceCurrent fence = true) :
    ∃ cs n, (sendSpawns k fence hostId refuses s entries).1 = s.sent k fence cs n ∧
      ((sendSpawns k fence hostId refuses s entries).2 = false →
        n = cs.length ∧ cs = liveChannels hostId entries) ∧
      ((∀ c, refuses c = false) → (sendSpawns k fence hostId refuses s entries).2 = false) := by
  induction entries generalizing s with
  | nil => exact ⟨[], 0, (sent_nil s k fence).symm, fun _ ↦ ⟨rfl, rfl⟩, fun _ ↦ rfl⟩
  | cons e es ih =>
    rw [sendSpawns]
    split
    · rename_i hskip
      obtain ⟨cs, n, hsent, hall, htakes⟩ := ih hfence
      refine ⟨cs, n, hsent, fun h ↦ ⟨(hall h).1, ?_⟩, htakes⟩
      rw [(hall h).2, liveChannels, liveChannels, List.filterMap_cons_none]
      exact if_neg fun hlive ↦ hskip.elim (absurd hlive.1) hlive.2
    · rename_i hlive
      rw [not_or, not_not] at hlive
      -- `pending` is counted before the fence is looked at, so that a frame refused leaves it high
      have hcurrent : (s.sent k fence [] 1).isQuitFenceCurrent fence = true := hfence
      have hcount : s.modifyCall k (.count 1) = s.sent k fence [] 1 := by
        rw [sent, List.map_nil, List.append_nil]
        rfl
      simp only [hcount, hcurrent, Bool.true_eq_false, ↓reduceIte]
      -- The agent throws, or the loop goes on behind one more SPAWN.
      split
      · rename_i hrefuses
        exact ⟨[], 1, rfl, fun h ↦ Bool.noConfusion h,
          fun htakes ↦ absurd (hrefuses.symm.trans (htakes e.1)) (by decide)⟩
      · have hcurrent' : (s.sent k fence [e.1] 1).isQuitFenceCurrent fence = true := hfence
        obtain ⟨cs, n, hsent, hall, htakes⟩ := ih hcurrent'
        have hone : { s.sent k fence [] 1 with
            spawns := (s.sent k fence [] 1).spawns ++ [⟨k, e.1, fence, true, true, []⟩] } =
              s.sent k fence [e.1] 1 := by
          rw [sent, sent, List.map_nil, List.append_nil, List.map_singleton]
        rw [hone]
        refine ⟨e.1 :: cs, 1 + n, hsent.trans (sent_sent ..), fun h ↦ ?_, htakes⟩
        obtain ⟨rfl, rfl⟩ := hall h
        refine ⟨?_, ?_⟩
        · rw [List.length_cons]
          push_cast
          exact Int.add_comm ..
        · rw [liveChannels, liveChannels, List.filterMap_cons_some]
          exact if_pos hlive

theorem modify_length_concat {α : Type*} (l : List α) (a : α) (f : α → α) :
    (l ++ [a]).modify l.length f = l ++ [f a] := by
  induction l with
  | nil => rfl
  | cons b l ih => exact congrArg (b :: ·) ih

/-- A call of a hub that is not quitting, and what it leaves. -/
theorem exists_spawnChannelsForHost (hostId : String) (refuses : ChannelId → Bool)
    (hquitting : s.quitting = false) :
    ∃ cs n returned, s.spawnChannelsForHost hostId refuses =
        { s with
          spawns := s.spawns ++ cs.map fun c ↦ ⟨s.calls.length, c, s.quitEpoch, true, true, []⟩
          calls := s.calls ++ [⟨n, returned && n = 0, returned⟩] } ∧
      (returned = true → n = cs.length ∧ cs = liveChannels hostId s.channels.entries) ∧
      ((∀ c, refuses c = false) → returned = true) := by
  have hfence : ({ s with calls := s.calls ++ [⟨0, false, false⟩] } : HostSpawns).isQuitFenceCurrent
      s.quitEpoch = true := by
    rw [isQuitFenceCurrent, hquitting]
    exact beq_self_eq_true _
  obtain ⟨cs, n, hsent, hall, htakes⟩ :=
    exists_sendSpawns s.calls.length hostId refuses s.channels.entries hfence
  have hcapture : s.captureQuitFence = some s.quitEpoch := by
    rw [captureQuitFence, hquitting]
    rfl
  rw [spawnChannelsForHost, hcapture]
  simp only
  generalize hloop : sendSpawns s.calls.length s.quitEpoch hostId refuses
    { s with calls := s.calls ++ [⟨0, false, false⟩] } s.channels.entries = r at hsent hall htakes
  obtain ⟨t, thrown⟩ := r
  obtain rfl : t = _ := hsent
  -- A call that has thrown has not returned its promise, and resolves nothing.
  cases thrown with
  | true =>
    refine ⟨cs, n, false, ?_, fun h ↦ Bool.noConfusion h, fun h ↦ (htakes h).symm⟩
    simp only [sent, modify_length_concat, HostSpawnCall.count, Int.zero_add, Bool.false_and]
  | false =>
    refine ⟨cs, n, true, ?_, fun _ ↦ hall rfl, fun _ ↦ rfl⟩
    simp only [sent, modifyCall, modify_length_concat, HostSpawnCall.count, Int.zero_add,
      Bool.false_or, Bool.true_and]

/-! ## The invariant -/

theorem settled_concat {t : HostSpawns} (hrun : run step empty es = some t) :
    Settled (es ++ [e]) n ↔ Settled es n ∨ n < t.spawns.length ∧ e.requestId = some n := by
  constructor
  · rintro ⟨es₁, e', es₂, u, hes, hu, hlt, he⟩
    rcases List.eq_nil_or_concat es₂ with rfl | ⟨es₂, e'', rfl⟩
    · obtain ⟨rfl, hee⟩ := List.append_inj' hes rfl
      obtain rfl := List.singleton_inj.mp hee
      cases hrun.symm.trans hu
      exact Or.inr ⟨hlt, he⟩
    · rw [List.concat_eq_append, ← List.cons_append, ← List.append_assoc] at hes
      obtain ⟨rfl, -⟩ := List.append_inj' hes rfl
      exact Or.inl ⟨es₁, e', es₂, u, rfl, hu, hlt, he⟩
  · rintro (⟨es₁, e', es₂, u, rfl, hu, hlt, he⟩ | ⟨hlt, he⟩)
    · exact ⟨es₁, e', es₂ ++ [e], u, List.append_assoc .., hu, hlt, he⟩
    · exact ⟨es, e, [], t, rfl, hrun, hlt, he⟩

/-- The SPAWNs of call `k` that wait for an answer. -/
def openSpawns (s : HostSpawns) (k : ℕ) : ℕ := s.spawns.countP fun x ↦ x.timeout && x.call == k

end HostSpawns

/-- A request is open, or has been settled: by one callback, or by none if the hub began to quit. -/
def HostSpawn.Stands (quitting : Bool) (x : HostSpawn) : Prop :=
  (x.timeout = true ∧ x.handler = true ∧ x.callbacks = []) ∨
    (x.timeout = false ∧ x.handler = false ∧ x.callbacks.length ≤ 1 ∧
      (quitting = false → x.callbacks.length = 1))

namespace HostSpawns

variable {s s' : HostSpawns} {es : List HostSpawnEvent} {e : HostSpawnEvent} {n k fence : ℕ}
  {x : HostSpawn} {c : HostSpawnCall}

structure Valid (es : List HostSpawnEvent) (s : HostSpawns) : Prop where
  fence : s.quitting = false → ∀ x ∈ s.spawns, x.quitEpoch = s.quitEpoch
  call_lt : ∀ x ∈ s.spawns, x.call < s.calls.length
  stands : ∀ x ∈ s.spawns, x.Stands s.quitting
  settled : ∀ n x, s.spawns[n]? = some x → (x.timeout = false ↔ Settled es n)
  lt : ∀ n, Settled es n → n < s.spawns.length
  call : ∀ k c, s.calls[k]? = some c → c.returned = true →
    c.pending = (s.openSpawns k : ℤ) ∧ (c.resolved = true ↔ c.pending = 0)

theorem valid_empty : Valid [] empty where
  fence _ x hx := absurd hx List.not_mem_nil
  call_lt x hx := absurd hx List.not_mem_nil
  stands x hx := absurd hx List.not_mem_nil
  settled n x hx := by cases hx
  lt n hn := by
    obtain ⟨es₁, e, es₂, t, hes, -⟩ := hn
    exact absurd hes.symm (List.append_ne_nil_of_right_ne_nil _ (List.cons_ne_nil _ _))
  call k c hc := by cases hc

/-- An event that settles nothing that is open. -/
theorem Valid.pass (h : Valid es s) (hrun : run step empty es = some s)
    (hpass : ∀ n x, e.requestId = some n → s.spawns[n]? = some x → x.timeout = false) :
    Valid (es ++ [e]) s where
  fence := h.fence
  call_lt := h.call_lt
  stands := h.stands
  settled n x hx := by
    rw [settled_concat hrun, ← h.settled n x hx]
    constructor
    · exact Or.inl
    · rintro (hclosed | ⟨-, he⟩)
      · exact hclosed
      · exact hpass n x he hx
  lt n hn := by
    rcases (settled_concat hrun).mp hn with hn | ⟨hlt, -⟩
    · exact h.lt n hn
    · exact hlt
  call := h.call

/-- A request is settled. -/
theorem Valid.settle (h : Valid es s) (hrun : run step empty es = some s)
    (hx : s.spawns[n]? = some x) (hopen : x.timeout = true) (he : e.requestId = some n)
    {callbacks : List SpawnCallback} (hmost : callbacks.length ≤ 1)
    (hone : s.quitting = false → callbacks.length = 1) :
    Valid (es ++ [e]) (s.settle n x callbacks) := by
  obtain ⟨hlt, hget⟩ := List.getElem?_eq_some_iff.mp hx
  have hxs : x ∈ s.spawns := List.mem_of_getElem? hx
  have hlength : (s.settle n x callbacks).calls.length = s.calls.length := List.length_modify ..
  refine ⟨fun hquitting y hy ↦ ?_, fun y hy ↦ ?_, fun y hy ↦ ?_, fun m y hy ↦ ?_, fun m hm ↦ ?_,
    fun k c hc hreturned ↦ ?_⟩
  · rcases List.mem_or_eq_of_mem_set hy with hy | rfl
    · exact h.fence hquitting y hy
    · exact h.fence hquitting x hxs
  · rw [hlength]
    rcases List.mem_or_eq_of_mem_set hy with hy | rfl
    · exact h.call_lt y hy
    · exact h.call_lt x hxs
  · rcases List.mem_or_eq_of_mem_set hy with hy | rfl
    · exact h.stands y hy
    · rcases h.stands x hxs with ⟨-, -, hnone⟩ | ⟨hclosed, -⟩
      · refine Or.inr ⟨rfl, rfl, ?_⟩
        rw [HostSpawn.close, hnone]
        exact ⟨hmost, hone⟩
      · exact absurd (hopen.symm.trans hclosed) (by decide)
  · rw [settled_concat hrun, he, Option.some.injEq]
    change (s.spawns.set n (x.close callbacks))[m]? = some y at hy
    by_cases hmn : n = m
    · subst hmn
      rw [List.getElem?_set_self hlt] at hy
      cases hy
      exact iff_of_true rfl (Or.inr ⟨hlt, rfl⟩)
    · rw [List.getElem?_set_ne hmn] at hy
      rw [h.settled m y hy]
      exact (or_iff_left fun hm ↦ hmn hm.2).symm
  · change m < (s.spawns.set n (x.close callbacks)).length
    rw [List.length_set]
    rcases (settled_concat hrun).mp hm with hm | ⟨hm, -⟩
    · exact h.lt m hm
    · exact hm
  · change (s.calls.modify x.call .settle)[k]? = some c at hc
    -- one open SPAWN of the call less
    have hcount : (s.settle n x callbacks).openSpawns k =
        s.openSpawns k - (if x.call = k then 1 else 0) := by
      change (s.spawns.set n (x.close callbacks)).countP _ = _
      rw [List.countP_set hlt, hget, hopen]
      simp [openSpawns, HostSpawn.close]
    rw [List.getElem?_modify] at hc
    split at hc
    · rename_i hk
      subst hk
      obtain ⟨d, hd, rfl⟩ := Option.map_eq_some_iff.mp hc
      obtain ⟨hpending, hresolved⟩ := h.call _ d hd hreturned
      -- `x` itself was open, so that the truncated subtraction takes one away
      have hpos : 0 < s.openSpawns x.call := by
        rw [openSpawns, List.countP_pos_iff]
        exact ⟨x, hxs, by rw [hopen, Bool.true_and, beq_self_eq_true]⟩
      rw [if_pos rfl] at hcount
      refine ⟨?_, ?_⟩
      · change d.pending - 1 = _
        rw [hcount, hpending]
        omega
      change (d.resolved || decide (d.pending - 1 = 0)) = true ↔ d.pending - 1 = 0
      rw [Bool.or_eq_true, hresolved, decide_eq_true_eq]
      constructor
      · rintro (hzero | hzero)
        · omega
        · exact hzero
      · exact Or.inr
    · rename_i hk
      obtain ⟨d, hd, rfl⟩ := Option.map_eq_some_iff.mp hc
      rw [hcount, if_neg hk]
      exact h.call k d hd hreturned

/-- Calls and SPAWNs come in that no call has had before, and nothing is settled. -/
theorem Valid.extend (h : Valid es s) (hrun : run step empty es = some s)
    (hnone : e.requestId = none) (cs : List ChannelId) {call : HostSpawnCall}
    (hcall : call.returned = true →
      call.pending = cs.length ∧ (call.resolved = true ↔ call.pending = 0)) :
    Valid (es ++ [e])
      { s with
        spawns := s.spawns ++ cs.map fun c ↦ ⟨s.calls.length, c, s.quitEpoch, true, true, []⟩
        calls := s.calls ++ [call] } := by
  have hsettled : ∀ n, Settled (es ++ [e]) n ↔ Settled es n := by
    intro n
    rw [settled_concat hrun, hnone]
    exact or_iff_left fun hn ↦ Option.some_ne_none n hn.2.symm
  refine ⟨fun hquitting x hx ↦ ?_, fun x hx ↦ ?_, fun x hx ↦ ?_, fun n x hx ↦ ?_, fun n hn ↦ ?_,
    fun k c hc hreturned ↦ ?_⟩
  · rcases List.mem_append.mp hx with hx | hx
    · exact h.fence hquitting x hx
    · obtain ⟨c, -, rfl⟩ := List.mem_map.mp hx
      rfl
  · rw [List.length_append, List.length_singleton]
    rcases List.mem_append.mp hx with hx | hx
    · exact (h.call_lt x hx).trans (Nat.lt_succ_self _)
    · obtain ⟨c, -, rfl⟩ := List.mem_map.mp hx
      exact Nat.lt_succ_self _
  · rcases List.mem_append.mp hx with hx | hx
    · exact h.stands x hx
    · obtain ⟨c, -, rfl⟩ := List.mem_map.mp hx
      exact Or.inl ⟨rfl, rfl, rfl⟩
  · rw [hsettled]
    rcases Nat.lt_or_ge n s.spawns.length with hlt | hge
    · rw [List.getElem?_append_left hlt] at hx
      exact h.settled n x hx
    · rw [List.getElem?_append_right hge] at hx
      obtain ⟨c, -, rfl⟩ := List.mem_map.mp (List.mem_of_getElem? hx)
      exact iff_of_false Bool.true_eq_false.mp fun hn ↦ absurd (h.lt n hn) (Nat.not_lt.mpr hge)
  · rw [List.length_append]
    exact Nat.lt_add_right _ (h.lt n ((hsettled n).mp hn))
  · rw [openSpawns, List.countP_append]
    -- An old call has none of the new SPAWNs, the new one has none of the old ones.
    rcases Nat.lt_or_ge k s.calls.length with hlt | hge
    · rw [List.getElem?_append_left hlt] at hc
      have hnew : (cs.map fun c ↦ (⟨s.calls.length, c, s.quitEpoch, true, true, []⟩ :
          HostSpawn)).countP (fun x ↦ x.timeout && x.call == k) = 0 := by
        rw [List.countP_eq_zero]
        intro x hx
        obtain ⟨c, -, rfl⟩ := List.mem_map.mp hx
        rw [Bool.true_and, beq_iff_eq]
        exact Nat.ne_of_gt hlt
      rw [hnew, Nat.add_zero]
      exact h.call k c hc hreturned
    · obtain rfl : k = s.calls.length := by
        have hk := (List.getElem?_eq_some_iff.mp hc).1
        rw [List.length_append, List.length_singleton] at hk
        omega
      rw [List.getElem?_concat_length] at hc
      cases hc
      have hold : s.spawns.countP (fun x ↦ x.timeout && x.call == s.calls.length) = 0 := by
        rw [List.countP_eq_zero]
        intro x hx hk
        rw [Bool.and_eq_true, beq_iff_eq] at hk
        exact absurd hk.2 (Nat.ne_of_lt (h.call_lt x hx))
      have hnew : (cs.map fun c ↦ (⟨s.calls.length, c, s.quitEpoch, true, true, []⟩ :
          HostSpawn)).countP (fun x ↦ x.timeout && x.call == s.calls.length) = cs.length := by
        rw [List.countP_eq_length.mpr, List.length_map]
        intro x hx
        obtain ⟨c, -, rfl⟩ := List.mem_map.mp hx
        exact beq_self_eq_true _
      rw [hold, hnew, Nat.zero_add]
      exact hcall hreturned

theorem Stands.quit {quitting : Bool} (h : x.Stands quitting) : x.Stands true := by
  rcases h with hopen | ⟨htimeout, hhandler, hmost, -⟩
  · exact Or.inl hopen
  · exact Or.inr ⟨htimeout, hhandler, hmost, fun h ↦ Bool.noConfusion h⟩

theorem valid_step (h : Valid es s) (hrun : run step empty es = some s) :
    Ensures (Valid (es ++ [e])) (s.step e) := by
  cases e with
  | channels channels =>
    refine .of_some ?_
    have hpass := h.pass (e := .channels channels) hrun fun n x he ↦ by cases he
    exact ⟨hpass.fence, hpass.call_lt, hpass.stands, hpass.settled, hpass.lt, hpass.call⟩
  | beginQuit =>
    refine .of_some ?_
    have hpass := h.pass (e := .beginQuit) hrun fun n x he ↦ by cases he
    split
    · exact hpass
    · exact ⟨fun hquitting ↦ Bool.noConfusion hquitting, hpass.call_lt,
        fun x hx ↦ Stands.quit (hpass.stands x hx), hpass.settled, hpass.lt, hpass.call⟩
  | spawnChannelsForHost hostId refuses =>
    refine .of_some ?_
    rcases hquitting : s.quitting with _ | _
    · obtain ⟨cs, n, returned, heq, hall, -⟩ :=
        exists_spawnChannelsForHost hostId refuses hquitting
      rw [heq]
      refine h.extend hrun rfl cs fun hreturned ↦ ⟨(hall hreturned).1, ?_⟩
      subst hreturned
      rw [Bool.true_and, decide_eq_true_eq]
    · have hrefused : s.spawnChannelsForHost hostId refuses =
          { s with calls := s.calls ++ [⟨0, true, true⟩] } := by
        rw [spawnChannelsForHost, captureQuitFence, if_pos hquitting]
      have hcall : (⟨0, true, true⟩ : HostSpawnCall).resolved = true ↔ (0 : ℤ) = 0 :=
        iff_of_true rfl rfl
      have hextend := h.extend (e := .spawnChannelsForHost hostId refuses) hrun rfl []
        fun _ ↦ ⟨rfl, hcall⟩
      rw [List.map_nil, List.append_nil] at hextend
      exact hrefused ▸ hextend
  | answer n ok =>
    refine .of_some ?_
    rw [answer]
    split
    · rename_i hnone
      refine h.pass hrun fun m x he hx ↦ ?_
      cases he
      rw [hnone] at hx
      cases hx
    · rename_i x hx
      have hxs : x ∈ s.spawns := List.mem_of_getElem? hx
      split
      · rename_i hhandler
        have hopen : x.timeout = true := by
          rcases h.stands x hxs with hopen | hclosed
          · exact hopen.1
          · exact absurd (hhandler.symm.trans hclosed.2.1) (by decide)
        split
        · exact h.settle hrun hx hopen rfl Nat.le.refl fun _ ↦ rfl
        -- The fence is not current any more: no callback, but then the hub has begun to quit.
        · rename_i hfence
          refine h.settle hrun hx hopen rfl (Nat.zero_le 1) fun hquitting ↦ absurd ?_ hfence
          rw [isQuitFenceCurrent, hquitting, h.fence hquitting x hxs]
          exact beq_self_eq_true _
      · rename_i hhandler
        refine h.pass hrun fun m y he hy ↦ ?_
        cases he
        cases hx.symm.trans hy
        rcases h.stands x hxs with hopen | hclosed
        · exact absurd hopen.2.1 hhandler
        · exact hclosed.1
  | timeout n =>
    rw [step]
    split
    · exact .of_none
    · rename_i x hx
      exact .guard fun hopen ↦ .of_some (h.settle hrun hx hopen rfl Nat.le.refl fun _ ↦ rfl)

theorem valid_run (hrun : run step empty es = some s) : Valid es s :=
  run_history Valid valid_empty (fun _ _ _ _ hrun h hstep ↦ valid_step h hrun hstep) hrun

/-- In every run each SPAWN leads to at most one callback; to one, if the hub has not begun to quit,
as soon as it is answered or times out, which it can do as long as it has not. The promise of a call
is resolved when all SPAWNs of the call have been answered or have timed out, and only then. -/
theorem run_answersOnce (hrun : run step empty es = some s) :
    (∀ n x, s.spawns[n]? = some x → x.callbacks.length ≤ 1 ∧
      (s.quitting = false → Settled es n → x.callbacks.length = 1) ∧
      (¬ Settled es n → x.callbacks = [] ∧ (s.step (.timeout n)).isSome)) ∧
    ∀ k c, s.calls[k]? = some c → c.returned = true →
      (c.resolved = true ↔ ∀ n x, s.spawns[n]? = some x → x.call = k → Settled es n) := by
  have h := valid_run hrun
  refine ⟨fun n x hx ↦ ?_, fun k c hc hreturned ↦ ?_⟩
  · rw [← h.settled n x hx]
    rcases h.stands x (List.mem_of_getElem? hx) with
      ⟨htimeout, -, hnone⟩ | ⟨htimeout, -, hmost, hone⟩
    · refine ⟨by rw [hnone]; exact Nat.zero_le 1, fun _ hclosed ↦ ?_, fun _ ↦ ⟨hnone, ?_⟩⟩
      · exact absurd (htimeout.symm.trans hclosed) (by decide)
      · rw [step, hx]
        simp only [htimeout, ↓reduceIte, Option.isSome_some]
    · exact ⟨hmost, fun hquitting _ ↦ hone hquitting, fun hopen ↦ absurd htimeout hopen⟩
  · obtain ⟨hpending, hresolved⟩ := h.call k c hc hreturned
    rw [hresolved, hpending, Int.natCast_eq_zero, openSpawns, List.countP_eq_zero]
    constructor
    · intro hzero n x hx hk
      rw [← h.settled n x hx, ← Bool.not_eq_true]
      intro hopen
      exact hzero x (List.mem_of_getElem? hx) (by rw [hopen, hk, Bool.true_and, beq_self_eq_true])
    · intro hall x hx hopen
      rw [Bool.and_eq_true, beq_iff_eq] at hopen
      obtain ⟨n, hn⟩ := List.mem_iff_getElem?.mp hx
      exact absurd (hopen.1.symm.trans ((h.settled n x hn).mpr (hall n x hn hopen.2))) (by decide)

/-- One SPAWN is answered, the other one times out. -/
theorem run_answersOnce_two :
    ∃ s : HostSpawns, run step empty
      [.channels ((OrderedMap.empty.set "a" ⟨0, "local", .live, 0⟩).set "b"
          ⟨0, "local", .orphan, 1⟩),
        .spawnChannelsForHost "local" fun _ ↦ false, .answer 1 true, .timeout 0] = some s ∧
      ∀ (n : ℕ) x, s.spawns[n]? = some x → x.callbacks.length ≤ 1 :=
  ⟨_, rfl, fun n x hx ↦ ((@run_answersOnce _
    [.channels ((OrderedMap.empty.set "a" ⟨0, "local", .live, 0⟩).set "b"
        ⟨0, "local", .orphan, 1⟩),
      .spawnChannelsForHost "local" fun _ ↦ false, .answer 1 true, .timeout 0] rfl).1 n x hx).1⟩

end HostSpawns

end Lasterm.Hub
