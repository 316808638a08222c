import Lasterm.Web.Channels

/-!
# Overlapping fetches of channels

`fetchChannels` of `stores/channels.ts` with its two requests and the body of one of them, for any
number of calls at once and any hosts. Every call waits for both requests, and a request that fails
ends it at once; what comes of the other one then is not looked at.

All calls share the fields of the store, and a call that is not the last one only takes away its own
entry of `wsAddedDuringFetch`. So the store is, apart from that, what the last call made of it when
it started and when it was settled (`Since`), whatever the order of the answers (`lastFetch_wins`).
The statuses that messages had buffered before are applied to the channels of the answer, unless the
call started with an empty list or for another host.
-/

namespace Lasterm.Web

open Runs

/-! ## The store -/

structure ChannelGroup where
  id : String
  hostId : String
  name : String
  sortOrder : ℤ
  collapsed : Bool
  createdAt : String

theorem ChannelStore.fetchGeneration_startFetch (s : ChannelStore) (hostId : String) :
    (s.startFetch hostId).fetchGeneration = s.fetchGeneration + 1 := by
  rw [startFetch]
  split <;> rfl

theorem ChannelStore.startFetch_fields (s : ChannelStore) (hostId : String) :
    (s.startFetch hostId).activeHostId = some hostId ∧ (s.startFetch hostId).error = none := by
  rw [startFetch]
  split <;> exact ⟨rfl, rfl⟩

theorem ChannelStore.get_wsAddedDuringFetch_startFetch (s : ChannelStore) (hostId : String) :
    (s.startFetch hostId).wsAddedDuringFetch.get (s.fetchGeneration + 1) = some [] := by
  have hget := (s.wsAddedDuringFetch.get_set (s.fetchGeneration + 1) (s.fetchGeneration + 1) [])
  rw [if_pos rfl] at hget
  rw [startFetch]
  split <;> exact hget

/-- What `_fetchGroupsRaw` returns. -/
structure FetchedGroups where
  groups : List ChannelGroup
  generalCollapsed : Bool

structure FetchStore extends ChannelStore where
  groups : List ChannelGroup
  generalCollapsed : Bool
  channelHostMap : OrderedMap String String

/-- How a call of `fetchChannels` ends. -/
inductive FetchOutcome
  | failed (message : String)
  | succeeded (data : List Channel) (fetched : FetchedGroups)

namespace FetchStore

def new : FetchStore := ⟨.new, [], false, .empty⟩

variable (s : FetchStore)

def startFetch (hostId : String) : FetchStore :=
  { s with toChannelStore := s.toChannelStore.startFetch hostId }

def failFetch (generation : ℕ) (message : String) : FetchStore :=
  { s with toChannelStore := s.toChannelStore.failFetch generation message }

def finishFetch (generation : ℕ) (hostId : String) (data : List Channel) (fetched : FetchedGroups) :
    FetchStore :=
  let next := { s with toChannelStore := s.toChannelStore.finishFetch generation data }
  if s.fetchGeneration ≠ generation then next
  else
    { next with
      groups := fetched.groups
      generalCollapsed := fetched.generalCollapsed
      channelHostMap := (s.merged generation data).foldl (fun hosts c ↦ hosts.set c.id hostId)
        s.channelHostMap }

def settleFetch (generation : ℕ) (hostId : String) : FetchOutcome → FetchStore
  | .failed message => s.failFetch generation message
  | .succeeded data fetched => s.finishFetch generation hostId data fetched

/-- The stores differ in nothing but `wsAddedDuringFetch`, which is not a field of the store that is
seen from outside. -/
def Same (s t : FetchStore) : Prop := t = { s with wsAddedDuringFetch := t.wsAddedDuringFetch }

variable {s} {t u : FetchStore}

@[refl] theorem Same.refl (s : FetchStore) : Same s s := rfl

theorem Same.trans (h : Same s t) (h' : Same t u) : Same s u := by
  rw [Same] at h h' ⊢
  rw [h', h]

theorem fetchGeneration_settleFetch (s : FetchStore) (generation : ℕ) (hostId : String)
    (o : FetchOutcome) :
    (s.settleFetch generation hostId o).fetchGeneration = s.fetchGeneration := by
  cases o with
  | failed message =>
    simp only [settleFetch, failFetch, ChannelStore.failFetch]
    split <;> rfl
  | succeeded data fetched =>
    simp only [settleFetch, finishFetch, ChannelStore.finishFetch]
    split <;> rfl

/-- A call that is not the last one leaves the store as it is. -/
theorem settleFetch_of_ne {generation : ℕ} (h : s.fetchGeneration ≠ generation) (hostId : String)
    (o : FetchOutcome) : s.settleFetch generation hostId o =
      { s with wsAddedDuringFetch := s.wsAddedDuringFetch.delete generation } := by
  cases o with
  | failed message => rw [settleFetch, failFetch, ChannelStore.failFetch, if_pos h]
  | succeeded data fetched =>
    rw [settleFetch, finishFetch, if_pos h, ChannelStore.finishFetch, if_pos h]

/-- The last call does the same to stores that agree on what it tracks. -/
theorem Same.settleFetch {generation : ℕ} (h : Same s t) (hs : s.fetchGeneration = generation)
    (hadded : t.wsAddedDuringFetch.get generation = s.wsAddedDuringFetch.get generation)
    (hostId : String) (o : FetchOutcome) :
    Same (s.settleFetch generation hostId o) (t.settleFetch generation hostId o) := by
  obtain ⟨added, rfl⟩ : ∃ added, t = { s with wsAddedDuringFetch := added } := ⟨_, h⟩
  have ht : ¬({ s with wsAddedDuringFetch := added } : FetchStore).fetchGeneration ≠ generation :=
    not_not_intro hs
  cases o with
  | failed message =>
    simp only [FetchStore.settleFetch, failFetch, ChannelStore.failFetch, if_neg ht]
    rfl
  | succeeded data fetched =>
    have hmerged : ({ s with wsAddedDuringFetch := added } : FetchStore).merged generation data =
        s.merged generation data := by
      rw [ChannelStore.merged, ChannelStore.merged, ChannelStore.wsChannelsToKeep,
        ChannelStore.wsChannelsToKeep, hadded]
      rfl
    simp only [FetchStore.settleFetch, finishFetch, ChannelStore.finishFetch, if_neg ht, hmerged]
    rfl

end FetchStore

/-! ## Calls -/

/-- What a call waits for: the answers to its requests that have not come, or the body of the
answer with the channels. Of that answer the status is known. -/
inductive FetchWait
  | requests (channels : Option ℕ) (groups : Option FetchedGroups)
  | body (groups : FetchedGroups)

structure PendingFetch where
  generation : ℕ
  hostId : String
  phase : FetchWait

/-- `settled` has the outcome of every call that has ended. -/
structure FetchPage where
  store : FetchStore
  pending : List PendingFetch
  settled : List (ℕ × FetchOutcome)

/-- `channelsBody` is the end of `channelsRes.json()`. -/
inductive ChannelFetchEvent
  | fetchChannels (token : Option String) (hostId : String)
  | channelsResponse (generation : ℕ) (response : Except String ℕ)
  | groupsResponse (generation : ℕ) (response : Except String FetchedGroups)
  | channelsBody (generation : ℕ) (response : Except String (List Channel))

/-- The call that an answer is for. -/
def ChannelFetchEvent.generation : ChannelFetchEvent → Option ℕ
  | .fetchChannels _ _ => none
  | .channelsResponse generation _ => some generation
  | .groupsResponse generation _ => some generation
  | .channelsBody generation _ => some generation

namespace FetchPage

/-- A page with this store, before any call. -/
def start (store : FetchStore) : FetchPage := ⟨store, [], []⟩

variable (s : FetchPage)

def pendingFetch (generation : ℕ) : Option PendingFetch :=
  s.pending.find? fun p ↦ p.generation = generation

def setPhase (generation : ℕ) (phase : FetchWait) : FetchPage :=
  { s with
    pending := s.pending.map fun p ↦ if p.generation = generation then { p with phase } else p }

/-- A call ends. -/
def settle (generation : ℕ) (hostId : String) (outcome : FetchOutcome) : FetchPage where
  store := s.store.settleFetch generation hostId outcome
  pending := s.pending.filter fun p ↦ p.generation ≠ generation
  settled := s.settled ++ [(generation, outcome)]

/-- `Promise.all`, and the check of the answer with the channels. -/
def proceed (p : PendingFetch) (channels : Option ℕ) (groups : Option FetchedGroups) : FetchPage :=
  match channels, groups with
  | some status, some groups =>
    if 200 ≤ status ∧ status ≤ 299 then s.setPhase p.generation (.body groups)
    else s.settle p.generation p.hostId (.failed s!"GET /api/channels failed: {status}")
  | channels, groups => s.setPhase p.generation (.requests channels groups)

/-- What the answer does to the call that it is for. -/
def answer (p : PendingFetch) : ChannelFetchEvent → Option FetchPage
  | .fetchChannels _ _ => none
  | .channelsResponse _ response =>
    match p.phase, response with
    | .requests none groups, .ok status => some (s.proceed p (some status) groups)
    | .requests none _, .error message =>
      some (s.settle p.generation p.hostId (.failed message))
    | _, _ => none
  | .groupsResponse _ response =>
    match p.phase, response with
    | .requests channels none, .ok groups => some (s.proceed p channels (some groups))
    | .requests _ none, .error message =>
      some (s.settle p.generation p.hostId (.failed message))
    | _, _ => none
  | .channelsBody _ response =>
    match p.phase, response with
    | .body fetched, .ok data =>
      some (s.settle p.generation p.hostId (.succeeded data fetched))
    | .body _, .error message => some (s.settle p.generation p.hostId (.failed message))
    | _, _ => none

/-- Without a token a call returns at once. -/
def step (s : FetchPage) : ChannelFetchEvent → Option FetchPage
  | .fetchChannels none _ => some s
  | .fetchChannels (some _) hostId =>
    some { s with
      store := s.store.startFetch hostId
      pending := s.pending ++ [⟨s.store.fetchGeneration + 1, hostId, .requests none none⟩] }
  | e => e.generation.bind fun generation ↦ (s.pendingFetch generation).bind fun p ↦ s.answer p e

variable {s s' : FetchPage} {p : PendingFetch} {e : ChannelFetchEvent}

theorem proceed_cases (channels : Option ℕ) (groups : Option FetchedGroups) :
    (∃ phase, s.proceed p channels groups = s.setPhase p.generation phase) ∨
      ∃ o, s.proceed p channels groups = s.settle p.generation p.hostId o := by
  rw [proceed.eq_def]
  split
  · split
    · exact .inl ⟨_, rfl⟩
    · exact .inr ⟨_, rfl⟩
  · exact .inl ⟨_, rfl⟩

/-- An answer moves its call on or ends it. -/
theorem answer_cases :
    Ensures (fun s' ↦ (∃ phase, s' = s.setPhase p.generation phase) ∨
      ∃ o, s' = s.settle p.generation p.hostId o) (s.answer p e) := by
  cases e with
  | fetchChannels token hostId => exact .of_none
  | channelsResponse generation response | groupsResponse generation response =>
    dsimp only [answer]
    split
    · exact .of_some (proceed_cases _ _)
    · exact .of_some (.inr ⟨_, rfl⟩)
    · exact .of_none
  | channelsBody generation response =>
    dsimp only [answer]
    split
    · exact .of_some (.inr ⟨_, rfl⟩)
    · exact .of_some (.inr ⟨_, rfl⟩)
    · exact .of_none

/-- What a step can do. -/
inductive Steps (s : FetchPage) : ChannelFetchEvent → FetchPage → Prop
  | loggedOut (hostId : String) : Steps s (.fetchChannels none hostId) s
  | fetch (token hostId : String) :
    Steps s (.fetchChannels (some token) hostId)
      { s with
        store := s.store.startFetch hostId
        pending := s.pending ++ [⟨s.store.fetchGeneration + 1, hostId, .requests none none⟩] }
  | phase (e : ChannelFetchEvent) (p : PendingFetch) (phase : FetchWait) : p ∈ s.pending →
    e.generation = some p.generation → Steps s e (s.setPhase p.generation phase)
  | settle (e : ChannelFetchEvent) (p : PendingFetch) (o : FetchOutcome) : p ∈ s.pending →
    e.generation = some p.generation → Steps s e (s.settle p.generation p.hostId o)

theorem steps_of_step : Ensures (Steps s e) (step s e) := by
  have hanswer : Ensures (Steps s e) (e.generation.bind fun generation ↦
      (s.pendingFetch generation).bind fun p ↦ s.answer p e) := by
    refine .bind fun generation hgeneration ↦ .bind fun p hp _ hanswer ↦ ?_
    have hmem : p ∈ s.pending := List.mem_of_find?_eq_some hp
    have hid := List.find?_some (p := fun p : PendingFetch ↦ decide (p.generation = generation)) hp
    obtain rfl := of_decide_eq_true hid
    rcases answer_cases hanswer with ⟨phase, rfl⟩ | ⟨o, rfl⟩
    · exact .phase e p phase hmem hgeneration
    · exact .settle e p o hmem hgeneration
  cases e with
  | fetchChannels token hostId =>
    cases token with
    | none => exact .of_some (.loggedOut hostId)
    | some token => exact .of_some (.fetch token hostId)
  | channelsResponse generation response => exact hanswer
  | groupsResponse generation response => exact hanswer
  | channelsBody generation response => exact hanswer

theorem pending_setPhase {generation : ℕ} {phase : FetchWait} {q : PendingFetch}
    (hq : q ∈ (s.setPhase generation phase).pending) :
    ∃ p ∈ s.pending, p.generation = q.generation ∧ p.hostId = q.hostId := by
  obtain ⟨p, hp, rfl⟩ := List.mem_map.mp hq
  refine ⟨p, hp, ?_⟩
  split <;> exact ⟨rfl, rfl⟩

theorem mem_settled_settle {generation g : ℕ} {hostId : String} {o o' : FetchOutcome} :
    (g, o') ∈ (s.settle generation hostId o).settled ↔
      (g, o') ∈ s.settled ∨ g = generation ∧ o' = o := by
  rw [settle, List.mem_append, List.mem_singleton, Prod.mk.injEq]

theorem mem_pending_settle {generation : ℕ} {hostId : String} {o : FetchOutcome}
    {q : PendingFetch} :
    q ∈ (s.settle generation hostId o).pending ↔ q ∈ s.pending ∧ q.generation ≠ generation := by
  rw [settle, List.mem_filter, decide_eq_true_iff]

/-- No call has a later generation than the last one. -/
structure Bounded (s : FetchPage) : Prop where
  pending : ∀ p ∈ s.pending, p.generation ≤ s.store.fetchGeneration
  settled : ∀ c ∈ s.settled, c.1 ≤ s.store.fetchGeneration

theorem Bounded.step (h : s.Bounded) (hstep : FetchPage.step s e = some s') : s'.Bounded := by
  cases steps_of_step hstep with
  | loggedOut hostId => exact h
  | fetch token hostId =>
    have hgeneration : (s.store.startFetch hostId).fetchGeneration = s.store.fetchGeneration + 1 :=
      s.store.toChannelStore.fetchGeneration_startFetch hostId
    refine ⟨fun p hp ↦ ?_, fun c hc ↦ ?_⟩
    · rw [hgeneration]
      rcases List.mem_append.mp hp with hp | hp
      · exact (h.pending p hp).trans (Nat.le_succ _)
      · rw [List.mem_singleton.mp hp]
    · rw [hgeneration]
      exact (h.settled c hc).trans (Nat.le_succ _)
  | phase e p phase hp he =>
    refine ⟨fun q hq ↦ ?_, h.settled⟩
    obtain ⟨p, hp, hgeneration, -⟩ := pending_setPhase hq
    exact hgeneration ▸ h.pending p hp
  | settle e p o hp he =>
    have hgeneration : (s.settle p.generation p.hostId o).store.fetchGeneration =
        s.store.fetchGeneration := s.store.fetchGeneration_settleFetch _ _ o
    refine ⟨fun q hq ↦ ?_, fun c hc ↦ ?_⟩
    · rw [hgeneration]
      exact h.pending q (mem_pending_settle.mp hq).1
    · rw [hgeneration]
      rcases mem_settled_settle.mp hc with hc | ⟨hc, -⟩
      · exact h.settled c hc
      · exact hc ▸ h.pending p hp

/-- Since the call with this generation, which left the store `b` behind when it started, there is
no later one: the call is under way and the store is still `b`, or it is settled and the store is
what became of `b` then. -/
structure Since (b : FetchStore) (generation : ℕ) (hostId : String) (s : FetchPage) : Prop where
  generation_eq : s.store.fetchGeneration = generation
  host : ∀ p ∈ s.pending, p.generation = generation → p.hostId = hostId
  state :
    ((∃ p ∈ s.pending, p.generation = generation) ∧ (∀ o, (generation, o) ∉ s.settled) ∧
      FetchStore.Same b s.store ∧
      s.store.wsAddedDuringFetch.get generation = b.wsAddedDuringFetch.get generation) ∨
    ((∀ p ∈ s.pending, p.generation ≠ generation) ∧
      ∃ o, (∀ o', (generation, o') ∈ s.settled ↔ o' = o) ∧
        FetchStore.Same (b.settleFetch generation hostId o) s.store)

variable {b : FetchStore} {g : ℕ} {hostId : String}

theorem Since.step (h : s.Since b g hostId) (hb : b.fetchGeneration = g)
    (hlast : ∀ token hostId, e ≠ .fetchChannels (some token) hostId)
    (hstep : FetchPage.step s e = some s') : s'.Since b g hostId := by
  cases steps_of_step hstep with
  | loggedOut hostId => exact h
  | fetch token hostId => exact absurd rfl (hlast token hostId)
  | phase e p phase hp he =>
    refine ⟨h.generation_eq, fun q hq hqg ↦ ?_, ?_⟩
    · obtain ⟨p, hp, hgeneration, hhost⟩ := pending_setPhase hq
      exact hhost ▸ h.host p hp (hgeneration.trans hqg)
    · refine h.state.imp ?_ ?_
      · rintro ⟨⟨q, hq, hqg⟩, hrest⟩
        refine ⟨⟨_, List.mem_map_of_mem hq, ?_⟩, hrest⟩
        split <;> exact hqg
      · rintro ⟨hnone, hrest⟩
        refine ⟨fun q hq ↦ ?_, hrest⟩
        obtain ⟨p, hp, hgeneration, -⟩ := pending_setPhase hq
        exact hgeneration ▸ hnone p hp
  | settle e p o hp he =>
    have hgeneration : (s.settle p.generation p.hostId o).store.fetchGeneration = g :=
      (s.store.fetchGeneration_settleFetch _ _ o).trans h.generation_eq
    refine ⟨hgeneration, fun q hq hqg ↦ h.host q (mem_pending_settle.mp hq).1 hqg, ?_⟩
    by_cases hpg : p.generation = g
    · -- the last call ends here
      rcases h.state with ⟨-, hnone, hsame, hadded⟩ | ⟨hnone, -⟩
      · refine .inr ⟨fun q hq ↦ hpg ▸ (mem_pending_settle.mp hq).2, o, fun o' ↦ ?_, ?_⟩
        · rw [mem_settled_settle, or_iff_right (hnone o'), and_iff_right hpg.symm]
        · have hsettle := hsame.settleFetch hb hadded hostId o
          rw [settle, hpg, h.host p hp hpg]
          exact hsettle
      · exact absurd hpg (hnone p hp)
    · have hne : s.store.fetchGeneration ≠ p.generation := by
        rw [h.generation_eq]
        exact Ne.symm hpg
      have hstore : (s.settle p.generation p.hostId o).store =
          { s.store with wsAddedDuringFetch := s.store.wsAddedDuringFetch.delete p.generation } :=
        FetchStore.settleFetch_of_ne hne p.hostId o
      have hsame : FetchStore.Same s.store (s.settle p.generation p.hostId o).store := by
        rw [hstore]
        rfl
      have hsettled : ∀ o', (g, o') ∈ (s.settle p.generation p.hostId o).settled ↔
          (g, o') ∈ s.settled := by
        intro o'
        rw [mem_settled_settle, or_iff_left fun heq ↦ hpg heq.1.symm]
      refine h.state.imp ?_ ?_
      · rintro ⟨⟨q, hq, hqg⟩, hnone, hb, hadded⟩
        refine ⟨⟨q, mem_pending_settle.mpr ⟨hq, fun heq ↦ hpg (heq ▸ hqg)⟩, hqg⟩, ?_,
          hb.trans hsame, ?_⟩
        · exact fun o' ho' ↦ hnone o' ((hsettled o').mp ho')
        · rw [hstore]
          exact (OrderedMap.get_delete_of_ne _ hpg).trans hadded
      · rintro ⟨hnone, o', ho', hb⟩
        exact ⟨fun q hq ↦ hnone q (mem_pending_settle.mp hq).1, o',
          fun o'' ↦ (hsettled o'').trans (ho' o''), hb.trans hsame⟩

theorem since_fetchChannels {token : String} (h : s.Bounded)
    (hstep : FetchPage.step s (.fetchChannels (some token) hostId) = some s') :
    s'.Since (s.store.startFetch hostId) (s.store.fetchGeneration + 1) hostId := by
  cases hstep
  have hgeneration := s.store.toChannelStore.fetchGeneration_startFetch hostId
  refine ⟨hgeneration, fun p hp hpg ↦ ?_, .inl ⟨?_, fun o ho ↦ ?_, .refl _, rfl⟩⟩
  · rcases List.mem_append.mp hp with hp | hp
    · have hle := h.pending p hp
      omega
    · rw [List.mem_singleton.mp hp]
  · exact ⟨_, List.mem_append_right _ List.mem_cons_self, rfl⟩
  · have hle : s.store.fetchGeneration + 1 ≤ s.store.fetchGeneration := h.settled _ ho
    omega

/-! ## The last call -/

/-- What the store `t` is like when the last call, which left `b` behind when it started, has ended
with `outcome`. -/
structure Won (b : FetchStore) (hostId : String) (outcome : FetchOutcome) (t : FetchStore) :
    Prop where
  loading : t.loading = false
  activeHostId : t.activeHostId = some hostId
  error : t.error.isSome ↔ ∃ message, outcome = .failed message
  groups : ∀ data fetched, outcome = .succeeded data fetched →
    t.groups = fetched.groups ∧ t.generalCollapsed = fetched.generalCollapsed
  channels : ∀ data fetched, outcome = .succeeded data fetched →
    List.Forall₂ (fun c row ↦ c.id = row.id ∧ (b.isAbsent row.id = false → c = b.applyPending row))
      t.channels data
  unbuffered : ∀ data fetched, outcome = .succeeded data fetched →
    b.pendingStatuses = .empty → b.lastSyncIds = none → t.channels = data

theorem merged_startFetch (store : ChannelStore) (hostId : String) (data : List Channel) :
    (store.startFetch hostId).merged (store.fetchGeneration + 1) data =
      data.map fun c ↦ (store.startFetch hostId).markAbsent
        ((store.startFetch hostId).applyPending c) := by
  have hkeep :
      (store.startFetch hostId).wsChannelsToKeep (store.fetchGeneration + 1) data = [] := by
    rw [ChannelStore.wsChannelsToKeep, store.get_wsAddedDuringFetch_startFetch hostId]
    exact List.filter_eq_nil_iff.mpr fun c _ ↦ Bool.noConfusion
  rw [ChannelStore.merged, hkeep, List.append_nil]

theorem won_settleFetch (store : FetchStore) (hostId : String) (o : FetchOutcome) :
    Won (store.startFetch hostId) hostId o
      ((store.startFetch hostId).settleFetch (store.fetchGeneration + 1) hostId o) := by
  have hlast : ¬(store.startFetch hostId).fetchGeneration ≠ store.fetchGeneration + 1 :=
    not_not_intro (store.toChannelStore.fetchGeneration_startFetch hostId)
  obtain ⟨hhost, herror⟩ := store.toChannelStore.startFetch_fields hostId
  cases o with
  | failed message =>
    rw [FetchStore.settleFetch, FetchStore.failFetch, ChannelStore.failFetch, if_neg hlast]
    refine ⟨rfl, hhost, iff_of_true rfl ⟨message, rfl⟩, ?_, ?_, ?_⟩
    · rintro _ _ ⟨⟩
    · rintro _ _ ⟨⟩
    · rintro _ _ ⟨⟩
  | succeeded data fetched =>
    have hmerged : (store.startFetch hostId).merged (store.fetchGeneration + 1) data =
        data.map fun c ↦ (store.startFetch hostId).markAbsent
          ((store.startFetch hostId).applyPending c) :=
      merged_startFetch store.toChannelStore hostId data
    rw [FetchStore.settleFetch, FetchStore.finishFetch, if_neg hlast, ChannelStore.finishFetch,
      if_neg hlast]
    refine ⟨rfl, hhost, ?_, ?_, ?_, ?_⟩
    · have hnone : (store.startFetch hostId).error.isSome = false := by
        rw [show (store.startFetch hostId).error = none from herror]
        rfl
      refine iff_of_false (fun h ↦ Bool.false_ne_true (hnone.symm.trans h)) ?_
      rintro ⟨_, ⟨⟩⟩
    · rintro _ _ ⟨⟩
      exact ⟨rfl, rfl⟩
    · rintro _ _ ⟨⟩
      dsimp only
      rw [hmerged, List.forall₂_map_left_iff, List.forall₂_same]
      intro row _
      refine ⟨ChannelPage.id_reconciled _ row, fun habsent ↦ ?_⟩
      rw [← ChannelPage.id_applyPending] at habsent
      exact ChannelPage.markAbsent_of_not_absent habsent
    · rintro _ _ ⟨⟩ hpending hsync
      dsimp only
      rw [hmerged]
      refine (List.map_congr_left fun row _ ↦ ?_).trans (List.map_id _)
      have habsent : ∀ id, (store.startFetch hostId).isAbsent id = false := by
        intro id
        rw [ChannelStore.isAbsent, hsync]
        rfl
      rw [ChannelPage.markAbsent_of_not_absent (habsent _), ChannelPage.applyPending_of_eq_none]
      · rfl
      · rw [hpending]
        rfl

theorem won_of_same {store t : FetchStore} {o : FetchOutcome}
    (h : FetchStore.Same
      ((store.startFetch hostId).settleFetch (store.fetchGeneration + 1) hostId o) t) :
    Won (store.startFetch hostId) hostId o t := by
  have hwon := won_settleFetch store hostId o
  rw [FetchStore.Same] at h
  rw [h]
  exact ⟨hwon.loading, hwon.activeHostId, hwon.error, hwon.groups, hwon.channels, hwon.unbuffered⟩

theorem step_superseded (hstep : step s e = some s') (hg : e.generation = some g)
    (hlast : g ≠ s.store.fetchGeneration) : FetchStore.Same s.store s'.store := by
  cases steps_of_step hstep with
  | loggedOut hostId => exact .refl _
  | fetch token hostId => cases hg
  | phase e p phase hp he => exact .refl _
  | settle e p o hp he =>
    have hgeneration : p.generation = g := Option.some.inj (he.symm.trans hg)
    have hstore : (s.settle p.generation p.hostId o).store =
        { s.store with wsAddedDuringFetch := s.store.wsAddedDuringFetch.delete p.generation } :=
      FetchStore.settleFetch_of_ne (hgeneration ▸ hlast.symm) p.hostId o
    rw [hstore]
    rfl

/-- **The last fetch wins.** An answer to a call that is not the last one changes no field of the
store; and when all calls have ended, the store is as the last one left it. -/
theorem lastFetch_wins (store : FetchStore) {events : List ChannelFetchEvent}
    (hrun : run step (start store) events = some s) :
    Along step (fun s e s' ↦ ∀ g, e.generation = some g → g ≠ s.store.fetchGeneration →
        FetchStore.Same s.store s'.store) (start store) events ∧
      ∀ before token hostId after s₁,
        events = before ++ .fetchChannels (some token) hostId :: after →
        (∀ e ∈ after, ∀ token hostId, e ≠ .fetchChannels (some token) hostId) →
        run step (start store) before = some s₁ → s.pending = [] →
        ∃ o, (∀ o', (s₁.store.fetchGeneration + 1, o') ∈ s.settled ↔ o' = o) ∧
          Won (s₁.store.startFetch hostId) hostId o s.store := by
  refine ⟨along_of_forall_mem fun e _ s s' hstep g hg hlast ↦ step_superseded hstep hg hlast, ?_⟩
  rintro before token hostId after s₁ rfl hlast hbefore hpending
  have hstart : (start store).Bounded := ⟨fun _ hp ↦ (nomatch hp), fun _ hc ↦ (nomatch hc)⟩
  have hbounded : s₁.Bounded := run_invariant Bounded (fun _ _ _ h ↦ h.step) hstart hbefore
  rw [run_append, hbefore, Option.bind_some, run_cons, Option.bind_eq_some_iff] at hrun
  obtain ⟨s₂, hcall, hafter⟩ := hrun
  have hb := s₁.store.toChannelStore.fetchGeneration_startFetch hostId
  have hnone : Along step (fun _ e _ ↦ ∀ token hostId, e ≠ .fetchChannels (some token) hostId) s₂
      after := along_of_forall_mem fun e he _ _ _ ↦ hlast e he
  have hsince := run_invariant_along _ (fun _ _ _ h hlast hstep ↦ h.step hb hlast hstep)
    (since_fetchChannels hbounded hcall) hnone hafter
  rcases hsince.state with ⟨⟨p, hp, -⟩, -⟩ | ⟨-, o, ho, hsame⟩
  · rw [hpending] at hp
    exact absurd hp List.not_mem_nil
  · exact ⟨o, ho, won_of_same hsame⟩

def twoFetches : List ChannelFetchEvent :=
  [.fetchChannels (some "t") "a", .fetchChannels (some "t") "b", .groupsResponse 2 (.ok ⟨[], true⟩),
    .channelsResponse 2 (.ok 200), .channelsBody 2 (.ok [⟨"x", .live, none⟩]),
    .channelsResponse 1 (.error "gone")]

theorem lastFetch_wins_twoFetches : ∃ s, run step (start .new) twoFetches = some s ∧
    ∃ o, (∀ o', (2, o') ∈ s.settled ↔ o' = o) ∧
      Won ((FetchStore.new.startFetch "a").startFetch "b") "b" o s.store := by
  have hrun : run step (start .new) twoFetches = some _ := rfl
  exact ⟨_, hrun, (lastFetch_wins .new hrun).2 [.fetchChannels (some "t") "a"] "t" "b" _ _ rfl
    (by simp) rfl rfl⟩

/-- A list with one channel, and a status that a message has brought for another. -/
def buffered : FetchStore :=
  let store := (ChannelStore.new.startFetch "a").finishFetch 1 [⟨"x", .live, none⟩]
  { FetchStore.new with toChannelStore := store.updateChannelStatus "y" ⟨.dead, none⟩ }

/-- Without a token the host does not become the active one, and a buffered status is put in the
place of the one in the answer. -/
theorem lastFetch_not_exact :
    (∃ s, run step (start .new) [.fetchChannels none "a"] = some s ∧ s.pending = [] ∧
      s.store.activeHostId ≠ some "a") ∧
    ∃ s, run step (start buffered) [.fetchChannels (some "t") "a", .channelsResponse 2 (.ok 200),
        .groupsResponse 2 (.ok ⟨[], false⟩),
        .channelsBody 2 (.ok [⟨"x", .live, none⟩, ⟨"y", .live, none⟩])] = some s ∧
      s.pending = [] ∧ s.settled =
        [(2, .succeeded [⟨"x", .live, none⟩, ⟨"y", .live, none⟩] ⟨[], false⟩)] ∧
      s.store.channels ≠ [⟨"x", .live, none⟩, ⟨"y", .live, none⟩] :=
  ⟨⟨_, rfl, rfl, by decide⟩, ⟨_, rfl, rfl, rfl, by decide⟩⟩

end FetchPage

end Lasterm.Web
