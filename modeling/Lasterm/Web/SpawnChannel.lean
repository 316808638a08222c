import Lasterm.Library.Runs
import Mathlib.Data.List.Sort

/-!
# Spawning channels from a page

`spawnChannel` of `stores/channels.ts`, with any number of calls at once. A call listens for
SPAWN_OK and for ERROR until one of them comes or ten seconds have passed. Neither message says
which SPAWN it answers, and an ERROR may be about something else entirely: the first one that comes
settles every call that listens.

`served_iff_careful` says that the calls get what they asked for exactly in the runs where every
SPAWN_OK comes while its own call is the only one that waits, and every ERROR while no other call
than its own waits.
-/

namespace Lasterm.Web

open Runs

/-! ## Calls -/

structure SpawnOptions where
  cols : Option ℕ
  rows : Option ℕ
  /-- `select !== false`. -/
  select : Bool
  launchProfileId : Option String
  shell : Option String
  args : List String
  directProcess : Bool

structure SpawnMessage where
  hostId : String
  groupId : Option String
  size : Option (ℕ × ℕ)
  launchProfileId : Option String
  shell : Option String
  args : Option (List String)
  directProcess : Bool

structure GroupRow where
  id : String
  sortOrder : ℤ

/-- The group of a new channel, where the configuration says `"first"`. -/
def autoGroupId (autoGroup : Option String) (groups : List GroupRow) : Option String :=
  if autoGroup = some "first" then
    (groups.mergeSort fun a b ↦ a.sortOrder ≤ b.sortOrder).head?.map GroupRow.id
  else none

def spawnMessage (hostId : String) (groupId : Option String) (opts : SpawnOptions) :
    SpawnMessage where
  hostId
  groupId
  size := opts.cols.bind fun cols ↦ opts.rows.map fun rows ↦ (cols, rows)
  launchProfileId := opts.launchProfileId
  shell := opts.shell
  args := if opts.args = [] then none else some opts.args
  directProcess := opts.directProcess

inductive SpawnOutcome where
  | resolved (channelId : String)
  | rejected (message : String)

structure SpawnCall where
  hostId : String
  select : Bool
  /-- The timer runs and both listeners are registered. -/
  listening : Bool
  /-- How the promise is settled. -/
  outcome : Option SpawnOutcome

namespace SpawnCall

/-- A promise is settled once. -/
def settle (c : SpawnCall) (outcome : SpawnOutcome) : SpawnCall :=
  if c.listening then
    { c with listening := false, outcome := some (c.outcome.getD outcome) }
  else c

def Pending (c : SpawnCall) : Prop := c.listening = true ∧ c.outcome = none

instance (c : SpawnCall) : Decidable c.Pending := inferInstanceAs (Decidable (_ ∧ _))

variable {c : SpawnCall} {o o' : SpawnOutcome}

theorem settle_of_pending (h : c.Pending) : (c.settle o).outcome = some o := by
  rw [settle, if_pos h.1, h.2]
  rfl

/-- A rejection resolves nothing. -/
theorem settle_rejected {message channelId : String} :
    (c.settle (.rejected message)).outcome = some (.resolved channelId) ↔
      c.outcome = some (.resolved channelId) := by
  rw [settle]
  split
  · cases houtcome : c.outcome with
    | none => exact iff_of_false nofun nofun
    | some o => rfl
  · rfl

theorem settle_of_not_pending (h : ¬ c.Pending) : (c.settle o).outcome = c.outcome := by
  rw [settle]
  split
  · rename_i hlistening
    obtain ⟨settled, hsettled⟩ := Option.ne_none_iff_exists'.mp fun hnone ↦ h ⟨hlistening, hnone⟩
    rw [hsettled]
    rfl
  · rfl

end SpawnCall

/-! ## Pages -/

structure SpawnPage where
  calls : List SpawnCall
  /-- The hosts of the calls of `fetchChannels`. -/
  fetched : List String
  activeChannelId : Option String
  /-- The calls whose SPAWN was sent, with what was sent. -/
  sent : List (ℕ × SpawnMessage)
  /-- The calls whose SPAWN was answered with SPAWN_OK. -/
  created : List (ℕ × String)
  /-- The calls whose SPAWN was answered with ERROR. -/
  failed : List ℕ
  /-- The calls that an ERROR has rejected, with the call that it was about. -/
  blamed : List (ℕ × Option ℕ)

/-- `about` is the call whose SPAWN an ERROR answers. The code does not see it. -/
inductive SpawnEvent where
  | spawnChannel (hostId : String) (opts : SpawnOptions) (autoGroup : Option String)
      (groups : List GroupRow) (connected : Bool)
  | timeout (n : ℕ)
  | spawnOk (n : ℕ) (channelId : String)
  | error (about : Option ℕ) (code message : String)

namespace SpawnPage

def start : SpawnPage := ⟨[], [], none, [], [], [], []⟩

variable (s : SpawnPage)

/-- Where the socket is closed, `send` throws: the promise is rejected, and the listeners stay. -/
def spawnChannel (hostId : String) (opts : SpawnOptions) (autoGroup : Option String)
    (groups : List GroupRow) (connected : Bool) : SpawnPage :=
  { s with
    calls := s.calls ++ [⟨hostId, opts.select, true,
      if connected then none else some (.rejected "WebSocket not connected")⟩]
    sent := if connected then
        s.sent ++ [(s.calls.length, spawnMessage hostId (autoGroupId autoGroup groups) opts)]
      else s.sent }

def timeout (n : ℕ) : SpawnPage :=
  { s with
    calls := s.calls.modify n fun c ↦
      c.settle (.rejected "SPAWN timeout — no SPAWN_OK after 10s") }

/-- Every listener hears of it, in the order in which they were registered. -/
def spawnOk (channelId : String) : SpawnPage :=
  { s with
    calls := s.calls.map fun c ↦ c.settle (.resolved channelId)
    fetched := s.fetched ++ (s.calls.filter SpawnCall.listening).map SpawnCall.hostId
    activeChannelId := if s.calls.any fun c ↦ c.listening && c.select then some channelId
      else s.activeChannelId }

def errorMessage (code message : String) : String := code ++ ": " ++ message

def error (code message : String) : SpawnPage :=
  { s with calls := s.calls.map fun c ↦ c.settle (.rejected (errorMessage code message)) }

/-- The calls that wait for an answer. -/
def Pending (m : ℕ) : Prop := ∃ c, s.calls[m]? = some c ∧ c.Pending

def outcome (m : ℕ) : Option SpawnOutcome := s.calls[m]?.bind SpawnCall.outcome

/-- The calls that are settled by the next message. -/
def pendingCalls : List ℕ :=
  (List.range s.calls.length).filter fun m ↦ s.calls[m]?.any fun c ↦ decide c.Pending

/-- A SPAWN that the hub has not answered yet. -/
def Unanswered (n : ℕ) : Prop :=
  n ∈ s.sent.map Prod.fst ∧ n ∉ s.created.map Prod.fst ∧ n ∉ s.failed

instance (n : ℕ) : Decidable (s.Unanswered n) := inferInstanceAs (Decidable (_ ∧ _ ∧ _))

def isInformational (code : String) : Bool := code = "AGENT_UPDATED"

/-- An ERROR for a page. -/
def deliverError (about : Option ℕ) (code message : String) : SpawnPage :=
  if isInformational code then s
  else
    { s.error code message with
      failed := s.failed ++ about.toList
      blamed := s.blamed ++ s.pendingCalls.map fun m ↦ (m, about) }

/-- The hub answers a SPAWN at most once, and never gives a channel's id to another one. -/
def step : SpawnEvent → Option SpawnPage
  | .spawnChannel hostId opts autoGroup groups connected =>
    some (s.spawnChannel hostId opts autoGroup groups connected)
  | .timeout n => some (s.timeout n)
  | .spawnOk n channelId =>
    if s.Unanswered n ∧ channelId ∉ s.created.map Prod.snd then
      some { s.spawnOk channelId with created := s.created ++ [(n, channelId)] }
    else none
  | .error about code message =>
    if ∀ n ∈ about, s.Unanswered n then some (s.deliverError about code message) else none

/-! ## What a call may rely on -/

/-- Every call gets the channel that was created for it, or its own failure. -/
structure Served : Prop where
  resolved : ∀ m c, s.outcome m = some (.resolved c) ↔ (m, c) ∈ s.created
  rejected : ∀ m about, (m, about) ∈ s.blamed → about = some m
  distinct : ∀ m n c, s.outcome m = some (.resolved c) → s.outcome n = some (.resolved c) → m = n

/-- An answer comes while its call is the only one that waits. -/
def Careful : SpawnEvent → Prop
  | .spawnChannel _ _ _ _ _ | .timeout _ => True
  | .spawnOk n _ => ∀ m, s.Pending m ↔ m = n
  | .error about code _ => isInformational code = true ∨ ∀ m, s.Pending m → about = some m

variable {s} {s' : SpawnPage} {m n : ℕ} {c : String}

theorem outcome_of_pending (h : s.Pending m) : s.outcome m = none := by
  obtain ⟨call, hcall, hpending⟩ := h
  rw [outcome, hcall, Option.bind_some, hpending.2]

theorem outcome_spawnOk_of_pending (h : s.Pending m) :
    (s.spawnOk c).outcome m = some (.resolved c) := by
  obtain ⟨call, hcall, hpending⟩ := h
  rw [outcome, spawnOk, List.getElem?_map, hcall, Option.map_some, Option.bind_some,
    SpawnCall.settle_of_pending hpending]

theorem outcome_spawnOk_of_not_pending (h : ¬ s.Pending m) :
    (s.spawnOk c).outcome m = s.outcome m := by
  rw [outcome, outcome, spawnOk, List.getElem?_map]
  cases hcall : s.calls[m]? with
  | none => rfl
  | some call => exact SpawnCall.settle_of_not_pending fun hpending ↦ h ⟨call, hcall, hpending⟩

theorem outcome_error {code message : String} :
    (s.error code message).outcome m = some (.resolved c) ↔ s.outcome m = some (.resolved c) := by
  rw [outcome, outcome, error, List.getElem?_map]
  cases s.calls[m]? with
  | none => exact Iff.rfl
  | some call => exact SpawnCall.settle_rejected

theorem outcome_timeout :
    (s.timeout n).outcome m = some (.resolved c) ↔ s.outcome m = some (.resolved c) := by
  rw [outcome, outcome, timeout, List.getElem?_modify]
  cases s.calls[m]? with
  | none => exact Iff.rfl
  | some call =>
    by_cases hnm : n = m
    · simp only [hnm, if_true]
      exact SpawnCall.settle_rejected
    · simp only [hnm, if_false]
      exact Iff.rfl

theorem outcome_spawnChannel {hostId : String} {opts : SpawnOptions} {autoGroup : Option String}
    {groups : List GroupRow} {connected : Bool} :
    (s.spawnChannel hostId opts autoGroup groups connected).outcome m = some (.resolved c) ↔
      s.outcome m = some (.resolved c) := by
  rw [outcome, outcome, spawnChannel]
  rcases lt_trichotomy m s.calls.length with hlt | rfl | hgt
  · rw [List.getElem?_append_left hlt]
  · rw [List.getElem?_append_right le_rfl, Nat.sub_self, List.getElem?_eq_none le_rfl]
    cases connected <;> exact iff_of_false nofun nofun
  · rw [List.getElem?_eq_none (by simp; omega), List.getElem?_eq_none hgt.le]

theorem mem_pendingCalls : m ∈ s.pendingCalls ↔ s.Pending m := by
  rw [pendingCalls, List.mem_filter, List.mem_range, Option.any_eq_true]
  constructor
  · rintro ⟨-, call, hcall, hpending⟩
    exact ⟨call, hcall, of_decide_eq_true hpending⟩
  · rintro ⟨call, hcall, hpending⟩
    obtain ⟨hlt, -⟩ := List.getElem?_eq_some_iff.mp hcall
    exact ⟨hlt, call, hcall, decide_eq_true hpending⟩

/-! ## Runs -/

structure Inv (s : SpawnPage) : Prop where
  served : s.Served
  nodup : (s.created.map Prod.snd).Nodup

theorem Inv.not_mem_created (h : s.Inv) (hm : s.Pending m) : (m, c) ∉ s.created := by
  intro hcreated
  have houtcome := (h.served.resolved m c).mpr hcreated
  rw [outcome_of_pending hm] at houtcome
  cases houtcome

/-- A channel is created for one call. -/
theorem eq_of_mem_created {created : List (ℕ × String)} (h : (created.map Prod.snd).Nodup)
    (hm : (m, c) ∈ created) (hn : (n, c) ∈ created) : m = n :=
  congrArg Prod.fst (List.inj_on_of_nodup_map h hm hn rfl)

/-- What does not settle a call keeps the page in order. -/
theorem Inv.keep (h : s.Inv)
    (houtcome : ∀ m c, s'.outcome m = some (.resolved c) ↔ s.outcome m = some (.resolved c))
    (hcreated : s'.created = s.created)
    (hblamed : ∀ m about, (m, about) ∈ s'.blamed → about = some m) : s'.Inv where
  served :=
    { resolved := fun m c ↦ by rw [houtcome, hcreated, h.served.resolved]
      rejected := hblamed
      distinct := fun m n c hm hn ↦
        h.served.distinct m n c ((houtcome m c).mp hm) ((houtcome n c).mp hn) }
  nodup := hcreated ▸ h.nodup

theorem Inv.spawnOk (h : s.Inv) (hn : s.Unanswered n) (hc : c ∉ s.created.map Prod.snd)
    (hcareful : ∀ m, s.Pending m ↔ m = n) :
    Inv { s.spawnOk c with created := s.created ++ [(n, c)] } := by
  have hnodup : ((s.created ++ [(n, c)]).map Prod.snd).Nodup := by
    rw [List.map_append, List.nodup_append]
    refine ⟨h.nodup, List.nodup_singleton _, ?_⟩
    rintro d hd e he rfl
    obtain rfl : d = c := List.mem_singleton.mp he
    exact hc hd
  have hresolved : ∀ m d, (s.spawnOk c).outcome m = some (.resolved d) ↔
      (m, d) ∈ s.created ++ [(n, c)] := by
    intro m d
    rw [List.mem_append, List.mem_singleton, Prod.mk.injEq]
    by_cases hm : m = n
    · subst hm
      have hpending := (hcareful m).mpr rfl
      rw [outcome_spawnOk_of_pending hpending]
      constructor
      · rintro ⟨⟩
        exact .inr ⟨rfl, rfl⟩
      · rintro (hold | ⟨-, rfl⟩)
        · exact absurd hold (h.not_mem_created hpending)
        · rfl
    · rw [outcome_spawnOk_of_not_pending fun hpending ↦ hm ((hcareful m).mp hpending),
        h.served.resolved]
      exact ⟨.inl, fun h ↦ h.resolve_right fun hnew ↦ hm hnew.1⟩
  refine ⟨⟨hresolved, h.served.rejected, fun m m' d hm hm' ↦ ?_⟩, hnodup⟩
  exact eq_of_mem_created hnodup ((hresolved m d).mp hm) ((hresolved m' d).mp hm')

theorem careful_of_served_spawnOk (h : s.Inv) (hn : s.Unanswered n)
    (hc : c ∉ s.created.map Prod.snd)
    (hserved : Served { s.spawnOk c with created := s.created ++ [(n, c)] }) (m : ℕ) :
    s.Pending m ↔ m = n := by
  have hfresh : ∀ m, (m, c) ∉ s.created := fun m hm ↦ hc (List.mem_map_of_mem hm)
  constructor
  · intro hm
    have hcreated := (hserved.resolved m c).mp (outcome_spawnOk_of_pending hm)
    rcases List.mem_append.mp hcreated with hold | hnew
    · exact absurd hold (hfresh m)
    · exact congrArg Prod.fst (List.mem_singleton.mp hnew)
  · rintro rfl
    by_contra hm
    have houtcome : (s.spawnOk c).outcome m = some (.resolved c) :=
      (hserved.resolved m c).mpr (List.mem_append_right _ (List.mem_singleton.mpr rfl))
    rw [outcome_spawnOk_of_not_pending hm] at houtcome
    exact hfresh m ((h.served.resolved m c).mp houtcome)

theorem served_deliverError (h : s.Inv) {about : Option ℕ} {code message : String} :
    ((s.deliverError about code message).Served ↔ s.Careful (.error about code message)) ∧
      (s.Careful (.error about code message) → (s.deliverError about code message).Inv) := by
  rw [deliverError]
  by_cases hinfo : isInformational code = true
  · rw [if_pos hinfo]
    exact ⟨iff_of_true h.served (.inl hinfo), fun _ ↦ h⟩
  · rw [if_neg hinfo]
    have hcareful : s.Careful (.error about code message) → Inv
        { s.error code message with
          failed := s.failed ++ about.toList
          blamed := s.blamed ++ s.pendingCalls.map fun m ↦ (m, about) } := by
      intro hcareful
      refine h.keep (fun m c ↦ outcome_error) rfl fun m about' hm ↦ ?_
      rcases List.mem_append.mp hm with hold | hnew
      · exact h.served.rejected m about' hold
      · obtain ⟨m', hm', heq⟩ := List.mem_map.mp hnew
        cases heq
        exact hcareful.resolve_left hinfo m (mem_pendingCalls.mp hm')
    refine ⟨⟨fun hserved ↦ .inr fun m hm ↦ ?_, fun hc ↦ (hcareful hc).served⟩, hcareful⟩
    exact hserved.rejected m about
      (List.mem_append_right _ (List.mem_map_of_mem (mem_pendingCalls.mpr hm)))

theorem step_served {e : SpawnEvent} (h : s.Inv) :
    Ensures (fun s' ↦ (s'.Served ↔ s.Careful e) ∧ (s.Careful e → s'.Inv)) (s.step e) := by
  cases e with
  | spawnChannel hostId opts autoGroup groups connected =>
    refine .of_some ?_
    have hinv : (s.spawnChannel hostId opts autoGroup groups connected).Inv :=
      h.keep (fun m c ↦ outcome_spawnChannel) rfl h.served.rejected
    exact ⟨iff_of_true hinv.served trivial, fun _ ↦ hinv⟩
  | timeout n =>
    refine .of_some ?_
    have hinv : (s.timeout n).Inv := h.keep (fun m c ↦ outcome_timeout) rfl h.served.rejected
    exact ⟨iff_of_true hinv.served trivial, fun _ ↦ hinv⟩
  | spawnOk n c =>
    rw [step]
    refine .guard fun hguard ↦ .of_some ?_
    have hinv := h.spawnOk hguard.1 hguard.2
    exact ⟨⟨fun hserved ↦ careful_of_served_spawnOk h hguard.1 hguard.2 hserved,
      fun hcareful ↦ (hinv hcareful).served⟩, hinv⟩
  | error about code message =>
    rw [step]
    exact .guard fun _ ↦ .of_some (served_deliverError h)

theorem inv_start : start.Inv where
  served := ⟨fun m c ↦ iff_of_false (by simp [outcome, start]) List.not_mem_nil, nofun,
    fun m n c hm ↦ by simp [outcome, start] at hm⟩
  nodup := List.nodup_nil

/-- **The calls of a page are served exactly where they do not overlap at an answer**, over every
run of calls, timeouts and answers. -/
theorem served_iff_careful (es : List SpawnEvent) :
    Along step (fun _ _ s' ↦ s'.Served) start es ↔
      Along step (fun s e _ ↦ s.Careful e) start es := by
  refine along_congr_of_keeps Inv (fun s e s' h hstep ↦ ?_) inv_start
  exact step_served h hstep

/-- Two panes that are opened at once, for two hosts. -/
def twoPanes : List SpawnEvent :=
  [.spawnChannel "a" ⟨none, none, false, none, none, [], false⟩ none [] true,
    .spawnChannel "b" ⟨none, none, false, none, none, [], false⟩ none [] true,
    .spawnOk 0 "x", .spawnOk 1 "y"]

/-- Both panes show the first channel, and nobody has asked for the second. -/
theorem twoPanes_not_served :
    (∃ s, run step start twoPanes = some s ∧ s.outcome 0 = some (.resolved "x") ∧
      s.outcome 1 = some (.resolved "x") ∧ s.created = [(0, "x"), (1, "y")]) ∧
    ¬ Along step (fun _ _ s' ↦ s'.Served) start twoPanes := by
  refine ⟨⟨_, rfl, rfl, rfl, rfl⟩, fun h ↦ ?_⟩
  have hserved := along_getElem h 2 rfl rfl rfl
  have hcreated : (1, "x") ∈ [(0, "x")] := (hserved.resolved 1 "x").mp rfl
  exact absurd hcreated (by decide)

end SpawnPage

end Lasterm.Web
