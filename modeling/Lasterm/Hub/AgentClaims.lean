import Lasterm.Hub.AgentSlot

/-!
# Claims to the place of the agent

Who may be the agent of a host: the agent in `ctx.agents`, as long as it is connected, the
acquisition, the attempt to reconnect, and the attach to the daemon. The invariant `AgentSlot.Inv`
says that no two have a claim at a time, and that a connected agent belongs to the one that has.
Most operations only take claims away (`Shrinks`). A path that starts needs that nobody else has a
claim, and `adoptAgent` hands the claim of its path over to the agent.
-/

namespace Lasterm.Hub

/-! ## Acquisitions that are aborted -/

namespace Acquisitions

variable {s s' s'' : Acquisitions} {a l : ℕ} {q : Acquisition} {P : ℕ → Prop}

/-- No acquisition comes into the map, and those with the property only leave it aborted. -/
structure Withdraws (s s' : Acquisitions) (P : ℕ → Prop) : Prop where
  aborted : ∀ a, s.isAborted a = true → s'.isAborted a = true
  stays : ∀ h a, P a → s.map.get h = some a → s'.map.get h = some a ∨ s'.isAborted a = true
  fresh : ∀ h a, s'.map.get h = some a → s.map.get h = some a

theorem Withdraws.refl : s.Withdraws s P where
  aborted _ h := h
  stays _ _ _ h := .inl h
  fresh _ _ h := h

theorem Withdraws.trans (h : s.Withdraws s' P) (h' : s'.Withdraws s'' P) : s.Withdraws s'' P where
  aborted a ha := h'.aborted a (h.aborted a ha)
  stays k a hP hmap := by
    rcases h.stays k a hP hmap with hmap | habort
    · exact h'.stays k a hP hmap
    · exact .inr (h'.aborted a habort)
  fresh k a hmap := h.fresh k a (h'.fresh k a hmap)

/-- Acquisitions of which none becomes unaborted. -/
theorem isAborted_of_acqs {f : Acquisition → Acquisition}
    (hacqs : ∀ b, s'.acqs[b]? = s.acqs[b]?.map fun q ↦ if a = b then f q else q)
    (hf : ∀ q, q.aborted = true → (f q).aborted = true) {b : ℕ} (h : s.isAborted b = true) :
    s'.isAborted b = true := by
  rw [isAborted, Option.any_eq_true] at h ⊢
  obtain ⟨q, hq, habort⟩ := h
  refine ⟨_, (hacqs b).trans (by rw [hq, Option.map_some]), ?_⟩
  split
  · exact hf q habort
  · exact habort

theorem withdraws_of_map_eq {f : Acquisition → Acquisition}
    (hacqs : ∀ b, s'.acqs[b]? = s.acqs[b]?.map fun q ↦ if a = b then f q else q)
    (hf : ∀ q, q.aborted = true → (f q).aborted = true) (hmap : s'.map = s.map) :
    s.Withdraws s' P where
  aborted _ h := isAborted_of_acqs hacqs hf h
  stays _ _ _ h := .inl (hmap ▸ h)
  fresh _ _ h := hmap ▸ h

theorem withdraws_leave (f : Acquisition → Acquisition) (hq : s.acqs[a]? = some q)
    (hf : ∀ q, q.aborted = true → (f q).aborted = true) (hP : P a → ∀ q, (f q).aborted = true)
    (hostId : String) : s.Withdraws ((s.evict hostId a).modify a f) P where
  aborted b h := isAborted_of_acqs (fun b ↦ by rw [acqs_modify, acqs_evict]) hf h
  stays h b hPb hmap := by
    by_cases hba : b = a
    · subst hba
      refine .inr ?_
      rw [isAborted, acqs_modify, acqs_evict, hq]
      simpa using hP hPb q
    · refine .inl ?_
      rw [modify, get_evict, if_neg, hmap]
      rintro ⟨rfl, hmap'⟩
      exact hba (Option.some.inj (hmap.symm.trans hmap'))
  fresh h b hmap := by
    rw [modify, get_evict] at hmap
    split at hmap
    · cases hmap
    · exact hmap

theorem withdraws_join (s : Acquisitions) (a : ℕ) (clientId : String) :
    s.Withdraws (s.join a clientId).1 P := by
  rw [join]
  split
  · exact .refl
  · split
    · exact .refl
    · exact withdraws_of_map_eq (acqs_modify _) (fun _ h ↦ h) rfl

theorem Coherent.withdraws_release (h : s.Coherent) (l : ℕ) (hasChannels : Bool) :
    (s.release l hasChannels).1.Coherent ∧ s.Withdraws (s.release l hasChannels).1 P := by
  rcases hx : s.leases[l]? with _ | x
  · rw [Acquisitions.release, hx]
    exact ⟨h, .refl⟩
  · refine ⟨h.release (List.getElem?_eq_some_iff.mp hx).1 hasChannels, ?_⟩
    have hdrop : s.Withdraws (s.drop l x.acq) P := withdraws_of_map_eq acqs_drop (fun _ h ↦ h) rfl
    rcases Bool.eq_false_or_eq_true x.released with hreleased | hheld
    · rw [release_of_released hx hreleased]
      exact .refl
    · rcases release_eq hx hheld hasChannels with heq | heq
      · rw [heq]
        exact hdrop
      · obtain ⟨q, hq, -⟩ := h.owner l x hx
        have hq' : (s.drop l x.acq).acqs[x.acq]? = some { q with leases := q.leases.erase l } := by
          rw [acqs_drop, hq, Option.map_some, if_pos rfl]
        rw [heq]
        exact hdrop.trans (withdraws_leave _ hq' (fun _ _ ↦ rfl) (fun _ _ ↦ rfl) x.hostId)

theorem Coherent.withdraws_close (h : s.Coherent) (hostId : String) :
    (s.close hostId).Coherent ∧ s.Withdraws (s.close hostId) P := by
  refine ⟨h.close, ?_⟩
  rcases hmap : s.map.get hostId with _ | a
  · rw [Acquisitions.close, hmap]
    exact .refl
  · obtain ⟨q, hq, -⟩ := h.pending _ _ hmap
    rw [Acquisitions.close, hmap]
    exact withdraws_leave _ hq (fun _ _ ↦ rfl) (fun _ _ ↦ rfl) hostId

theorem Coherent.withdraws_fail (h : s.Coherent) (a : ℕ) (message : String) :
    (s.fail a message).Coherent ∧ s.Withdraws (s.fail a message) (· ≠ a) := by
  rcases hq : s.acqs[a]? with _ | q
  · rw [fail, hq]
    exact ⟨h, .refl⟩
  · rw [fail_eq hq]
    refine ⟨h.leave (settledBy_fail message) hq, withdraws_leave _ hq ?_ ?_ q.hostId⟩
    · exact fun _ habort ↦ habort
    · exact fun hne ↦ absurd rfl hne

theorem Coherent.withdraws_commit (h : s.Coherent) (hmap : s.map.get q.hostId = some a)
    (hq : s.acqs[a]? = some q) (sessionId : String) :
    (s.commit a sessionId).Coherent ∧ s.Withdraws (s.commit a sessionId) (· ≠ a) ∧
      (s.commit a sessionId).map.get q.hostId = none := by
  rw [commit_eq hq]
  refine ⟨h.leave (settledBy_commit sessionId) hq, withdraws_leave _ hq ?_ ?_ q.hostId, ?_⟩
  · exact fun _ habort ↦ habort
  · exact fun hne ↦ absurd rfl hne
  · rw [modify, get_evict, if_pos ⟨rfl, hmap⟩]

end Acquisitions

/-! ## Claims to the place -/

/-- Who may have a claim to be the agent of the host. -/
inductive Claimant
  | agent
  | acquisition
  | attempt
  | attach
  deriving DecidableEq

namespace AgentSlot

def Claims (s : AgentSlot) : Claimant → Prop
  | .agent => s.agentConnected = true
  | .acquisition => s.acquisitions.map.get s.hostId ≠ none
  | .attempt => ∃ n ∈ s.controller, ∃ at' ∈ s.attempts[n]?, at'.settled = false
  | .attach => s.attach ≠ none ∧ s.attach ≠ some .settled

instance (s : AgentSlot) : (c : Claimant) → Decidable (s.Claims c)
  | .agent => inferInstanceAs (Decidable (_ = true))
  | .acquisition => inferInstanceAs (Decidable (_ ≠ none))
  | .attempt =>
    inferInstanceAs (Decidable (∃ n ∈ s.controller, ∃ at' ∈ s.attempts[n]?, at'.settled = false))
  | .attach => inferInstanceAs (Decidable (_ ∧ _))

/-- At most this one has a claim. -/
def Spares (s : AgentSlot) (c : Claimant) : Prop := ∀ c', s.Claims c' → c' = c

instance (s : AgentSlot) (c : Claimant) : Decidable (s.Spares c) :=
  decidable_of_iff (∀ c' ∈ [Claimant.agent, .acquisition, .attempt, .attach], s.Claims c' → c' = c)
    ⟨fun h c' ↦ h c' (by rcases c' <;> decide), fun h c' _ ↦ h c'⟩

variable {s s' : AgentSlot} {a b n sessionId lease : ℕ} {c : Claimant} {t : Acquisitions}

theorem connected_eq_true : s.connected a = true ↔
    ∃ g, s.agents[a]? = some g ∧ g.isOpen = true ∧
      ∀ x, g.signal = some x → s.isAborted x = false := by
  rw [connected, Option.any_eq_true]
  simp [Option.any_eq_false]

/-- An abort only disconnects. -/
theorem connected_of_isAborted (hagents : s'.agents = s.agents)
    (haborted : ∀ x, s.isAborted x = true → s'.isAborted x = true) (h : s'.connected a = true) :
    s.connected a = true := by
  obtain ⟨g, hg, hopen, hsignal⟩ := connected_eq_true.mp h
  refine connected_eq_true.mpr ⟨g, hagents ▸ hg, hopen, fun x hx ↦ ?_⟩
  by_contra hne
  have habort := haborted x (by simpa using hne)
  rw [hsignal x hx] at habort
  cases habort

theorem connected_closeAgent :
    (s.closeAgent a).connected b = true ↔ s.connected b = true ∧ a ≠ b := by
  rw [connected_eq_true, connected_eq_true, closeAgent, List.getElem?_modify]
  by_cases hab : a = b
  · subst hab
    simp
  · simp [hab, isAborted]

theorem connected_wireAgentEvents {g : WiredAgent} (h : (s.wireAgentEvents g).connected b = true) :
    s.connected b = true ∨ b = s.agents.length := by
  obtain ⟨g', hg', hopen, hsignal⟩ := connected_eq_true.mp h
  rw [wireAgentEvents, List.getElem?_append] at hg'
  split at hg'
  · exact .inl (connected_eq_true.mpr ⟨g', hg', hopen, hsignal⟩)
  · rename_i hlt
    rw [List.getElem?_singleton] at hg'
    split at hg'
    · exact .inr (by omega)
    · cases hg'

/-! ## The invariant -/

/-- The acquisition is in the map, or it was aborted. -/
def Tracks (s : AgentSlot) (n : ℕ) : Prop :=
  s.acquisitions.isAborted n = true ∨ s.acquisitions.map.get s.hostId = some n

/-- The agent is in `ctx.agents`, or it is wired and its path goes on with it. -/
def Holds (s : AgentSlot) (a : ℕ) : Prop :=
  s.agent = some a ∨ (∃ n sessionId lease, s.leading n = .wired sessionId lease a) ∨
    ∃ sessionId, s.attach = some (.wired sessionId a)

structure Inv (s : AgentSlot) : Prop where
  coherent : s.acquisitions.Coherent
  exclusive : ∀ c, s.Claims c → s.Spares c
  /-- The call that leads an acquisition is only left alone with it by an abort. -/
  tracks : ∀ n, s.leading n ≠ .idle → s.Tracks n
  signal : ∀ n sessionId lease a, s.leading n = .wired sessionId lease a →
    ∃ g, s.agents[a]? = some g ∧ g.signal = some (.acquisition n)
  agent_lt : ∀ a, s.agent = some a → a < s.agents.length
  attach_lt : ∀ sessionId a, s.attach = some (.wired sessionId a) → a < s.agents.length
  holds : ∀ a, s.connected a = true → s.Holds a

theorem inv_new (hostId : String) : (new hostId).Inv where
  coherent := Acquisitions.coherent_empty
  exclusive c hc := by
    rcases c
    · cases hc
    · exact absurd rfl hc
    · obtain ⟨n, hn, -⟩ := hc
      cases hn
    · exact absurd rfl hc.1
  tracks n h := absurd rfl h
  signal n _ _ _ h := by cases h
  agent_lt a h := by cases h
  attach_lt _ a h := by cases h
  holds a h := by cases h

/-- **A connected agent has a claim**, or the path that goes on with it has. -/
theorem Inv.claim (h : s.Inv) (ha : s.connected a = true) :
    (s.agent = some a ∧ s.Claims .agent) ∨
      (∃ n sessionId lease, s.leading n = .wired sessionId lease a ∧
        s.acquisitions.map.get s.hostId = some n ∧ s.Claims .acquisition) ∨
      ∃ sessionId, s.attach = some (.wired sessionId a) ∧ s.Claims .attach := by
  rcases h.holds a ha with hagent | ⟨n, sessionId, lease, hn⟩ | ⟨sessionId, hattach⟩
  · exact .inl ⟨hagent, by rw [Claims, agentConnected, hagent]; exact ha⟩
  · refine .inr (.inl ⟨n, sessionId, lease, hn, ?_⟩)
    obtain ⟨g, hg, hsignal⟩ := h.signal n sessionId lease a hn
    obtain ⟨g', hg', -, hrunning⟩ := connected_eq_true.mp ha
    cases hg.symm.trans hg'
    rcases h.tracks n (by rw [hn]; exact Leading.noConfusion) with habort | hmap
    · have hrunning : s.acquisitions.isAborted n = false := hrunning _ hsignal
      rw [habort] at hrunning
      cases hrunning
    · exact ⟨hmap, by rw [Claims, hmap]; exact Option.some_ne_none n⟩
  · exact .inr (.inr ⟨sessionId, hattach, by rw [Claims, hattach]; simp⟩)

/-- No two agents are connected. -/
theorem Inv.unique (h : s.Inv) (ha : s.connected a = true) (hb : s.connected b = true) : a = b := by
  rcases h.claim ha with ⟨ha, hc⟩ | ⟨n, i, l, ha, hmap, hc⟩ | ⟨i, ha, hc⟩ <;>
    rcases h.claim hb with ⟨hb, hc'⟩ | ⟨m, j, k, hb, hmap', hc'⟩ | ⟨j, hb, hc'⟩
  · exact Option.some.inj (ha.symm.trans hb)
  · cases h.exclusive _ hc _ hc'
  · cases h.exclusive _ hc _ hc'
  · cases h.exclusive _ hc _ hc'
  · cases hmap.symm.trans hmap'
    rw [ha] at hb
    cases hb
    rfl
  · cases h.exclusive _ hc _ hc'
  · cases h.exclusive _ hc _ hc'
  · cases h.exclusive _ hc _ hc'
  · rw [ha] at hb
    cases hb
    rfl

/-! ## Steps that only take away -/

/-- Claims and connections are given up, and no path starts. -/
structure Shrinks (s s' : AgentSlot) : Prop where
  coherent : s'.acquisitions.Coherent
  claims : ∀ c, s'.Claims c → s.Claims c
  agents : ∀ (a : ℕ) g, s.agents[a]? = some g → ∃ g', s'.agents[a]? = some g' ∧ g'.signal = g.signal
  connected : ∀ a, s'.connected a = true → s.connected a = true
  agent : ∀ a, s'.agent = some a → s.agent = some a
  attach : ∀ sessionId a, s'.attach = some (.wired sessionId a) →
    s.attach = some (.wired sessionId a)
  leading : ∀ n, s'.leading n ≠ .idle → s'.leading n = s.leading n ∧ (s.Tracks n → s'.Tracks n)
  holds : ∀ a, s'.connected a = true → s.Holds a → s'.Holds a

theorem Inv.shrink (h : s.Inv) (hs : s.Shrinks s') : s'.Inv where
  coherent := hs.coherent
  exclusive c hc c' hc' := h.exclusive c (hs.claims c hc) c' (hs.claims c' hc')
  tracks n hn := by
    obtain ⟨heq, htracks⟩ := hs.leading n hn
    exact htracks (h.tracks n (heq ▸ hn))
  signal n sessionId lease a hn := by
    have hactive : s'.leading n ≠ .idle := by rw [hn]; exact Leading.noConfusion
    obtain ⟨g, hg, hsignal⟩ :=
      h.signal n sessionId lease a ((hs.leading n hactive).1.symm.trans hn)
    obtain ⟨g', hg', heq⟩ := hs.agents a g hg
    exact ⟨g', hg', heq.trans hsignal⟩
  agent_lt a ha := by
    obtain ⟨g', hg', -⟩ := hs.agents a _ (List.getElem?_eq_getElem (h.agent_lt a (hs.agent a ha)))
    exact (List.getElem?_eq_some_iff.mp hg').1
  attach_lt sessionId a ha := by
    obtain ⟨g', hg', -⟩ :=
      hs.agents a _ (List.getElem?_eq_getElem (h.attach_lt sessionId a (hs.attach sessionId a ha)))
    exact (List.getElem?_eq_some_iff.mp hg').1
  holds a ha := hs.holds a ha (h.holds a (hs.connected a ha))

theorem Shrinks.refl (h : s.acquisitions.Coherent) : s.Shrinks s where
  coherent := h
  claims _ hc := hc
  agents _ g hg := ⟨g, hg, rfl⟩
  connected _ ha := ha
  agent _ ha := ha
  attach _ _ ha := ha
  leading _ _ := ⟨rfl, id⟩
  holds _ _ ha := ha

theorem agentConnected_of_shrinks (hconnected : ∀ a, s'.connected a = true → s.connected a = true)
    (hagent : ∀ a, s'.agent = some a → s.agent = some a) (h : s'.Claims .agent) :
    s.Claims .agent := by
  rw [Claims, agentConnected, Option.any_eq_true] at h ⊢
  obtain ⟨a, ha, hconn⟩ := h
  exact ⟨a, hagent a ha, hconnected a hconn⟩

theorem Inv.closeAgent (h : s.Inv) (a : ℕ) : (s.closeAgent a).Inv := by
  have hconnected : ∀ b, (s.closeAgent a).connected b = true → s.connected b = true :=
    fun b hb ↦ (connected_closeAgent.mp hb).1
  refine h.shrink ⟨h.coherent, ?_, fun b g hg ↦ ?_, hconnected, fun _ hb ↦ hb, fun _ _ hb ↦ hb,
    fun _ _ ↦ ⟨rfl, id⟩, fun _ _ hb ↦ hb⟩
  · rintro (_ | _ | _ | _) hc
    · exact agentConnected_of_shrinks hconnected (fun _ hb ↦ hb) hc
    · exact hc
    · exact hc
    · exact hc
  · refine ⟨if a = b then { g with isOpen := false } else g, ?_, ?_⟩
    · rw [AgentSlot.closeAgent, List.getElem?_modify, hg]
      rfl
    · split <;> rfl

theorem agentConnected_eq_false :
    s.agentConnected = false ↔ ∀ a, s.agent = some a → s.connected a = false := by
  rw [agentConnected, Option.any_eq_false]

/-- The entry of an agent that is not connected is deleted. -/
theorem Inv.deleteAgent (h : s.Inv) (hdead : s.agentConnected = false) : s.deleteAgent.Inv := by
  refine h.shrink ⟨h.coherent, ?_, fun _ g hg ↦ ⟨g, hg, rfl⟩, fun _ ha ↦ ha,
    fun _ ha ↦ absurd ha (by simp [AgentSlot.deleteAgent]), fun _ _ ha ↦ ha,
    fun _ _ ↦ ⟨rfl, id⟩, ?_⟩
  · rintro (_ | _ | _ | _) hc
    · cases hc
    · exact hc
    · exact hc
    · exact hc
  · rintro a ha (hagent | hother)
    · have hfalse : s.connected a = false := agentConnected_eq_false.mp hdead a hagent
      rw [show s.connected a = true from ha] at hfalse
      cases hfalse
    · exact .inr hother

theorem agentConnected_closeAgent (ha : s.agent = some a) :
    (s.closeAgent a).agentConnected = false := by
  refine agentConnected_eq_false.mpr fun b hb ↦ ?_
  cases ha.symm.trans hb
  by_contra hne
  exact (connected_closeAgent.mp (by simpa using hne)).2 rfl

theorem Inv.closeCurrent (h : s.Inv) : s.closeCurrent.Inv := by
  rw [AgentSlot.closeCurrent.eq_def]
  split
  · exact h
  · rename_i a ha
    exact (h.closeAgent a).deleteAgent (agentConnected_closeAgent ha)

theorem attach_closeCurrent : s.closeCurrent.attach = s.attach := by
  rw [AgentSlot.closeCurrent.eq_def]
  split <;> rfl

theorem acquisitions_closeCurrent : s.closeCurrent.acquisitions = s.acquisitions := by
  rw [AgentSlot.closeCurrent.eq_def]
  split <;> rfl

theorem claims_closeCurrent (h : s.closeCurrent.Claims c) : s.Claims c := by
  rw [AgentSlot.closeCurrent.eq_def] at h
  split at h
  · exact h
  · rcases c
    · cases h
    · exact h
    · exact h
    · exact h

theorem Inv.discard (h : s.Inv) (a : ℕ) : (s.discard a).Inv := by
  rw [AgentSlot.discard]
  split
  · rename_i ha
    exact (h.closeAgent a).deleteAgent (agentConnected_closeAgent ha)
  · exact h.closeAgent a

/-- Attempts that are aborted or settled, and a controller that is deleted. -/
theorem shrinks_attempts (h : s.acquisitions.Coherent) {f : Attempt → Attempt}
    {controller : Option ℕ}
    (haborted : ∀ at', at'.aborted = true → (f at').aborted = true)
    (hsettled : ∀ at', (f at').settled = false → at'.settled = false)
    (hcontroller : ∀ m, controller = some m → s.controller = some m) :
    s.Shrinks { s with attempts := s.attempts.modify n f, controller := controller } := by
  have hget (m : ℕ) : (s.attempts.modify n f)[m]? =
      s.attempts[m]?.map fun at' ↦ if n = m then f at' else at' := List.getElem?_modify ..
  have hconnected : ∀ a, AgentSlot.connected
      { s with attempts := s.attempts.modify n f, controller := controller } a = true →
      s.connected a = true := by
    intro a
    apply connected_of_isAborted
    · rfl
    · rintro (m | m) habort
      · exact habort
      · rw [isAborted, Option.any_eq_true] at habort ⊢
        obtain ⟨at', hat, habort⟩ := habort
        refine ⟨_, (hget m).trans (by rw [hat, Option.map_some]), ?_⟩
        split
        · exact haborted at' habort
        · exact habort
  refine ⟨h, ?_, fun _ g hg ↦ ⟨g, hg, rfl⟩, hconnected, fun _ ha ↦ ha, fun _ _ ha ↦ ha,
    fun _ _ ↦ ⟨rfl, id⟩, fun _ _ ha ↦ ha⟩
  rintro (_ | _ | _ | _) hc
  · exact agentConnected_of_shrinks hconnected (fun _ ha ↦ ha) hc
  · exact hc
  · obtain ⟨m, hm, at', hat, hrunning⟩ := hc
    rw [Option.mem_def, hget, Option.map_eq_some_iff] at hat
    obtain ⟨at', hat, rfl⟩ := hat
    refine ⟨m, hcontroller m hm, at', hat, ?_⟩
    split at hrunning
    · exact hsettled at' hrunning
    · exact hrunning
  · exact hc

theorem shrinks_abortController (h : s.acquisitions.Coherent) : s.Shrinks s.abortController := by
  rw [abortController.eq_def]
  split
  · exact .refl h
  · exact shrinks_attempts h (fun _ _ ↦ rfl) (fun _ hrunning ↦ hrunning) fun _ hm ↦ by cases hm

theorem leading_abortController : s.abortController.leading = s.leading := by
  rw [abortController.eq_def]
  split <;> rfl

theorem leading_discard : (s.discard a).leading = s.leading := by
  rw [discard]
  split <;> rfl

theorem attach_discard : (s.discard a).attach = s.attach := by
  rw [discard]
  split <;> rfl

theorem connected_discard : (s.discard a).connected a = false := by
  rw [discard]
  by_contra hne
  exact (connected_closeAgent.mp (by simpa using hne)).2 rfl

theorem shrinks_settleAttempt (h : s.acquisitions.Coherent) (n : ℕ) :
    s.Shrinks (s.settleAttempt n) :=
  shrinks_attempts h (fun _ habort ↦ habort) (fun _ hrunning ↦ by cases hrunning) fun _ hm ↦ hm

theorem Inv.settleAttempt (h : s.Inv) (n : ℕ) : (s.settleAttempt n).Inv :=
  h.shrink (shrinks_settleAttempt h.coherent n)

theorem claims_deleteController (hc : (s.deleteController n).Claims c) : s.Claims c := by
  rw [deleteController] at hc
  split at hc
  · rcases c
    · exact hc
    · exact hc
    · obtain ⟨m, hm, -⟩ := hc
      cases hm
    · exact hc
  · exact hc

theorem Inv.deleteController (h : s.Inv) (n : ℕ) : (s.deleteController n).Inv := by
  rw [AgentSlot.deleteController]
  split
  · have hshrinks : s.Shrinks { s with attempts := s.attempts.modify 0 id, controller := none } :=
      shrinks_attempts h.coherent (fun _ habort ↦ habort) (fun _ hrunning ↦ hrunning)
        fun _ hm ↦ by cases hm
    have hmodify : s.attempts.modify 0 id = s.attempts := List.modify_id ..
    rw [hmodify] at hshrinks
    exact h.shrink hshrinks
  · exact h

theorem connected_of_withdraws {P : ℕ → Prop} {l : ℕ → Leading}
    (hwithdraws : s.acquisitions.Withdraws t P)
    (h : AgentSlot.connected { s with acquisitions := t, leading := l } b = true) :
    s.connected b = true := by
  refine connected_of_isAborted ?_ ?_ h
  · rfl
  · rintro (m | m) habort
    · exact hwithdraws.aborted m habort
    · exact habort

/-- A claim that is left was there before. -/
theorem claims_of_withdraws {P : ℕ → Prop} {l : ℕ → Leading}
    (hwithdraws : s.acquisitions.Withdraws t P)
    (h : AgentSlot.Claims { s with acquisitions := t, leading := l } c) : s.Claims c := by
  rcases c
  · exact agentConnected_of_shrinks (fun _ ↦ connected_of_withdraws hwithdraws) (fun _ ha ↦ ha) h
  · obtain ⟨m, hm⟩ := Option.ne_none_iff_exists'.mp h
    rw [Claims, hwithdraws.fresh _ m hm]
    exact Option.some_ne_none m
  · exact h
  · exact h

/-- Acquisitions that leave the map in the hands of other calls. -/
theorem Inv.withAcquisitions (h : s.Inv) (hcoherent : t.Coherent)
    (hwithdraws : s.acquisitions.Withdraws t fun _ ↦ True) : Inv { s with acquisitions := t } := by
  refine h.shrink ⟨hcoherent, fun _ ↦ claims_of_withdraws hwithdraws, fun _ g hg ↦ ⟨g, hg, rfl⟩,
    fun _ ↦ connected_of_withdraws hwithdraws, fun _ ha ↦ ha, fun _ _ ha ↦ ha,
    fun m _ ↦ ⟨rfl, ?_⟩, fun _ _ ha ↦ ha⟩
  rintro (habort | hmap)
  · exact .inl (hwithdraws.aborted m habort)
  · exact (hwithdraws.stays _ m trivial hmap).symm

/-- The call that leads an acquisition ends with it. Its agent, if it has wired one, is closed. -/
theorem Inv.endLeading (h : s.Inv) (hcoherent : t.Coherent)
    (hwithdraws : s.acquisitions.Withdraws t (· ≠ n))
    (hclosed : ∀ sessionId lease a, s.leading n = .wired sessionId lease a →
      s.connected a = false) :
    Inv { s with acquisitions := t, leading := Function.update s.leading n .idle } := by
  refine h.shrink ⟨hcoherent, fun _ ↦ claims_of_withdraws hwithdraws, fun _ g hg ↦ ⟨g, hg, rfl⟩,
    fun _ ↦ connected_of_withdraws hwithdraws, fun _ ha ↦ ha, fun _ _ ha ↦ ha, fun m hm ↦ ?_,
    fun a ha hholds ↦ ?_⟩
  · have hmn : m ≠ n := by
      rintro rfl
      exact hm (Function.update_self ..)
    refine ⟨Function.update_of_ne hmn .., ?_⟩
    rintro (habort | hmap)
    · exact .inl (hwithdraws.aborted m habort)
    · exact (hwithdraws.stays _ m hmn hmap).symm
  · rcases hholds with hagent | ⟨m, sessionId, lease, hm⟩ | hattach
    · exact .inl hagent
    · refine .inr (.inl ⟨m, sessionId, lease, ?_⟩)
      have hmn : m ≠ n := by
        rintro rfl
        have hfalse := hclosed sessionId lease a hm
        rw [connected_of_withdraws hwithdraws ha] at hfalse
        cases hfalse
      exact (Function.update_of_ne hmn ..).trans hm
    · exact .inr (.inr hattach)

theorem Inv.failConnectingAcq (h : s.Inv) (message : String)
    (hclosed : ∀ sessionId lease a, s.leading n = .wired sessionId lease a →
      s.connected a = false) :
    (s.failConnectingAcq n lease message).Inv := by
  obtain ⟨hcoherent, hfail⟩ := h.coherent.withdraws_fail n message
  obtain ⟨hcoherent', hrelease⟩ := hcoherent.withdraws_release (P := (· ≠ n)) lease false
  exact h.endLeading hcoherent' (hfail.trans hrelease) hclosed

/-! ## Steps that start a path -/

theorem claims_agent_of_isAborted (haborted : ∀ x, s.isAborted x = true → s'.isAborted x = true)
    (hagents : s'.agents = s.agents) (hagent : s'.agent = s.agent) (h : s'.Claims .agent) :
    s.Claims .agent :=
  agentConnected_of_shrinks (fun _ ↦ connected_of_isAborted hagents haborted)
    (fun _ ha ↦ hagent ▸ ha) h

/-- A new claim, where nobody else has one. -/
theorem Inv.start (h : s.Inv) (hcoherent : s'.acquisitions.Coherent)
    (hclaims : ∀ c', s'.Claims c' → c' = c) (hagents : s'.agents = s.agents)
    (hagent : s'.agent = s.agent) (haborted : ∀ x, s.isAborted x = true → s'.isAborted x = true)
    (htracks : ∀ n, s'.leading n ≠ .idle → s'.Tracks n)
    (hleading : ∀ n i l a, s'.leading n = .wired i l a ↔ s.leading n = .wired i l a)
    (hattach : ∀ i a, s'.attach = some (.wired i a) ↔ s.attach = some (.wired i a)) : s'.Inv where
  coherent := hcoherent
  exclusive c' hc' c'' hc'' := (hclaims c'' hc'').trans (hclaims c' hc').symm
  tracks := htracks
  signal n i l a hn := hagents ▸ h.signal n i l a ((hleading n i l a).mp hn)
  agent_lt a ha := hagents ▸ h.agent_lt a (hagent ▸ ha)
  attach_lt i a ha := hagents ▸ h.attach_lt i a ((hattach i a).mp ha)
  holds a ha := by
    rcases h.holds a (connected_of_isAborted hagents haborted ha) with hag | ⟨n, i, l, hn⟩ |
      ⟨i, hat⟩
    · exact .inl (hagent.trans hag)
    · exact .inr (.inl ⟨n, i, l, (hleading n i l a).mpr hn⟩)
    · exact .inr (.inr ⟨i, (hattach i a).mpr hat⟩)

/-- An attempt may replace another one. -/
theorem Inv.startAttempt (h : s.Inv) (hfree : s.Spares .attempt) (sessionId : ℕ) (timed : Bool) :
    (s.startAttempt sessionId timed).Inv := by
  have hshrinks := shrinks_abortController h.coherent
  have haborted : ∀ x, s.abortController.isAborted x = true →
      (s.startAttempt sessionId timed).isAborted x = true := by
    rintro (n | n) habort
    · exact habort
    · rw [isAborted, Option.any_eq_true] at habort ⊢
      obtain ⟨at', hat, habort⟩ := habort
      refine ⟨at', ?_, habort⟩
      exact (List.getElem?_append_left (List.getElem?_eq_some_iff.mp hat).1).trans hat
  refine (h.shrink hshrinks).start hshrinks.coherent (c := .attempt) ?_ rfl rfl haborted
    (h.shrink hshrinks).tracks (fun _ _ _ _ ↦ Iff.rfl) fun _ _ ↦ Iff.rfl
  rintro (_ | _ | _ | _) hc
  · have hagent : s.abortController.Claims .agent := claims_agent_of_isAborted haborted rfl rfl hc
    exact hfree _ (hshrinks.claims _ hagent)
  · exact hfree _ (hshrinks.claims .acquisition hc)
  · rfl
  · exact hfree _ (hshrinks.claims .attach hc)

/-- The hub leads an acquisition only where there is none. -/
theorem Inv.lead (h : s.Inv) (hmap : s.acquisitions.map.get s.hostId = none)
    (hfree : s.Spares .acquisition) (clientId : String) (sessionId : ℕ) :
    (s.lead clientId sessionId).Inv := by
  have haborted : ∀ x, s.isAborted x = true → (s.lead clientId sessionId).isAborted x = true := by
    rintro (n | n) habort
    · rw [isAborted, Acquisitions.isAborted, Option.any_eq_true] at habort
      obtain ⟨q, hq, habort⟩ := habort
      have hq' : (s.acquisitions.acquire s.hostId clientId).acqs[n]? = some q :=
        (Acquisitions.getElem?_acquire_acqs (List.getElem?_eq_some_iff.mp hq).1).trans hq
      exact (Option.any_eq_true _ _).mpr ⟨q, hq', habort⟩
    · exact habort
  have hleading : (s.lead clientId sessionId).leading = Function.update s.leading
      s.acquisitions.acqs.length (.connecting sessionId s.acquisitions.leases.length) := rfl
  have hidle : s.leading s.acquisitions.acqs.length = .idle := by
    by_contra hactive
    rcases h.tracks _ hactive with habort | hmap'
    · rw [Acquisitions.isAborted, List.getElem?_eq_none (Nat.le_refl _)] at habort
      cases habort
    · rw [hmap] at hmap'
      cases hmap'
  refine h.start (h.coherent.acquire hmap) (c := .acquisition) ?_ rfl rfl haborted ?_ ?_
    fun _ _ ↦ Iff.rfl
  · rintro (_ | _ | _ | _) hc
    · have hagent : s.Claims .agent := claims_agent_of_isAborted haborted rfl rfl hc
      exact hfree .agent hagent
    · rfl
    · exact hfree .attempt hc
    · exact hfree .attach hc
  · intro n hn
    by_cases hfresh : n = s.acquisitions.acqs.length
    · subst hfresh
      exact .inr (OrderedMap.get_set_self ..)
    · have hn' : s.leading n ≠ .idle := by
        rw [hleading, Function.update_of_ne hfresh] at hn
        exact hn
      rcases h.tracks n hn' with habort | hmap'
      · exact .inl (haborted (.acquisition n) habort)
      · rw [hmap] at hmap'
        cases hmap'
  · intro n i l a
    by_cases hfresh : n = s.acquisitions.acqs.length
    · subst hfresh
      rw [hleading, Function.update_self, hidle]
      exact iff_of_false Leading.noConfusion Leading.noConfusion
    · rw [hleading, Function.update_of_ne hfresh]

theorem Inv.joinAttach (h : s.Inv) (hfree : s.attach = none → s.Spares .attach) (sessionId : ℕ) :
    (s.joinAttach sessionId).Inv := by
  rw [AgentSlot.joinAttach]
  split
  · exact h
  · rename_i hnone
    have hnone : s.attach = none := by simpa using hnone
    refine h.start h.coherent (c := .attach) ?_ rfl rfl (fun _ habort ↦ habort) h.tracks
      (fun _ _ _ _ ↦ Iff.rfl) fun i a ↦ iff_of_false (by simp) (by simp [hnone])
    rintro (_ | _ | _ | _) hc
    · exact hfree hnone .agent hc
    · exact hfree hnone .acquisition hc
    · exact hfree hnone .attempt hc
    · rfl

/-- The attach ends. Its agent, if it has wired one, is closed. -/
theorem Inv.endAttach (h : s.Inv) {attach : Option Attach}
    (hend : attach = none ∨ attach = some .settled)
    (hclosed : ∀ i a, s.attach = some (.wired i a) → s.connected a = false) :
    Inv { s with attach := attach } := by
  have hwired : ∀ i a, attach ≠ some (.wired i a) := by
    rcases hend with rfl | rfl <;> simp
  refine h.shrink ⟨h.coherent, ?_, fun _ g hg ↦ ⟨g, hg, rfl⟩, fun _ ha ↦ ha, fun _ ha ↦ ha,
    fun i a ha ↦ absurd ha (hwired i a), fun _ _ ↦ ⟨rfl, id⟩, fun a ha hholds ↦ ?_⟩
  · rintro (_ | _ | _ | _) hc
    · exact hc
    · exact hc
    · exact hc
    · rcases hend with rfl | rfl
      · exact absurd rfl hc.1
      · exact absurd rfl hc.2
  · rcases hholds with hagent | hleading | ⟨i, hattach⟩
    · exact .inl hagent
    · exact .inr (.inl hleading)
    · have hfalse := hclosed i a hattach
      rw [show s.connected a = true from ha] at hfalse
      cases hfalse

/-! ## Steps that wire an agent and hand over a claim -/

theorem Inv.claims_wireAgentEvents (h : s.Inv) {g : WiredAgent}
    (hc : (s.wireAgentEvents g).Claims c) :
    s.Claims c := by
  rcases c
  · rw [Claims, agentConnected, Option.any_eq_true] at hc ⊢
    obtain ⟨a, ha, hconnected⟩ := hc
    refine ⟨a, ha, ?_⟩
    rcases connected_wireAgentEvents hconnected with hconnected | rfl
    · exact hconnected
    · exact absurd (h.agent_lt _ ha) (Nat.lt_irrefl _)
  · exact hc
  · exact hc
  · exact hc

theorem getElem?_wireAgentEvents {g g' : WiredAgent} (hg : s.agents[a]? = some g') :
    (s.wireAgentEvents g).agents[a]? = some g' :=
  (List.getElem?_append_left (List.getElem?_eq_some_iff.mp hg).1).trans hg

section

variable (h : s.Inv)
include h

/-- An agent is wired, and what it is wired for holds it. -/
theorem Inv.wire (g : WiredAgent) {leading : ℕ → Leading} {attach : Option Attach}
    (hclaim : attach ≠ none ∧ attach ≠ some .settled → s.Claims .attach)
    (htracks : ∀ n, leading n ≠ .idle → s.leading n ≠ .idle)
    (hleading : ∀ n i l a, leading n = .wired i l a →
      s.leading n = .wired i l a ∨ a = s.agents.length ∧ g.signal = some (.acquisition n))
    (hattach : ∀ i a, attach = some (.wired i a) →
      s.attach = some (.wired i a) ∨ a = s.agents.length) (hkept : ∀ a, s.Holds a →
      Holds { s.wireAgentEvents g with leading := leading, attach := attach } a)
    (hnew : g.isOpen = true →
      Holds { s.wireAgentEvents g with leading := leading, attach := attach } s.agents.length) :
    Inv { s.wireAgentEvents g with leading := leading, attach := attach } where
  coherent := h.coherent
  exclusive := by
    have hclaims : ∀ c, Claims { s.wireAgentEvents g with leading := leading, attach := attach } c →
        s.Claims c := by
      rintro (_ | _ | _ | _) hc
      · exact h.claims_wireAgentEvents (c := .agent) hc
      · exact hc
      · exact hc
      · exact hclaim hc
    intro c hc c' hc'
    exact h.exclusive c (hclaims c hc) c' (hclaims c' hc')
  tracks n hn := h.tracks n (htracks n hn)
  signal n i l a hn := by
    rcases hleading n i l a hn with hn | ⟨rfl, hg⟩
    · obtain ⟨g', hg', hsignal⟩ := h.signal n i l a hn
      exact ⟨g', getElem?_wireAgentEvents hg', hsignal⟩
    · exact ⟨g, List.getElem?_concat_length, hg⟩
  agent_lt a ha := Nat.lt_of_lt_of_le (h.agent_lt a ha) (by simp [wireAgentEvents])
  attach_lt i a ha := by
    rcases hattach i a ha with ha | rfl
    · exact Nat.lt_of_lt_of_le (h.attach_lt i a ha) (by simp [wireAgentEvents])
    · simp [wireAgentEvents]
  holds a ha := by
    have ha : (s.wireAgentEvents g).connected a = true := ha
    rcases connected_wireAgentEvents ha with hold | rfl
    · exact hkept a (h.holds a hold)
    · obtain ⟨g', hg', hopen, -⟩ := connected_eq_true.mp ha
      cases List.getElem?_concat_length.symm.trans hg'
      exact hnew hopen

/-- The agent of a leader, which has not been aborted. -/
theorem Inv.wireLeader (hn : s.leading n = .connecting sessionId lease) (alive : Bool) :
    Inv { s.wireAgentEvents ⟨false, sessionId, some (.acquisition n), alive⟩ with
      leading := Function.update s.leading n (.wired sessionId lease s.agents.length) } := by
  have hne {m i l a} (hm : s.leading m = .wired i l a) : m ≠ n := by
    rintro rfl
    rw [hn] at hm
    cases hm
  refine h.wire _ id (fun m hm ↦ ?_) (fun m i l a hm ↦ ?_) (fun _ _ ↦ .inl) ?_ fun _ ↦ ?_
  · by_cases hmn : m = n
    · rw [hmn, hn]
      exact Leading.noConfusion
    · rwa [Function.update_of_ne hmn] at hm
  · by_cases hmn : m = n
    · subst hmn
      rw [Function.update_self] at hm
      cases hm
      exact .inr ⟨rfl, rfl⟩
    · rw [Function.update_of_ne hmn] at hm
      exact .inl hm
  · rintro a (hagent | ⟨m, i, l, hm⟩ | hattach)
    · exact .inl hagent
    · exact .inr (.inl ⟨m, i, l, (Function.update_of_ne (hne hm) ..).trans hm⟩)
    · exact .inr (.inr hattach)
  · exact .inr (.inl ⟨n, sessionId, lease, Function.update_self ..⟩)

theorem Inv.wireDaemon (hattach : s.attach = some (.connecting sessionId))
    (g : WiredAgent) :
    Inv { s.wireAgentEvents g with attach := some (.wired sessionId s.agents.length) } := by
  refine h.wire g (fun _ ↦ ?_) (fun _ ↦ id) (fun _ _ _ _ ↦ .inl) (fun i a ha ↦ ?_) ?_ fun _ ↦ ?_
  · rw [Claims, hattach]
    simp
  · cases ha
    exact .inr rfl
  · rintro a (hagent | hleading | ⟨i, ha⟩)
    · exact .inl hagent
    · exact .inr (.inl hleading)
    · rw [hattach] at ha
      cases ha
  · exact .inr (.inr ⟨sessionId, rfl⟩)

/-- An agent that is wired and closed at once. -/
theorem Inv.wireDiscard (g : WiredAgent) : ((s.wireAgentEvents g).discard s.agents.length).Inv := by
  have heq : (s.wireAgentEvents g).discard s.agents.length =
      s.wireAgentEvents { g with isOpen := false } := by
    have hne : (s.wireAgentEvents g).agent ≠ some s.agents.length :=
      fun ha ↦ absurd (h.agent_lt _ ha) (Nat.lt_irrefl _)
    rw [AgentSlot.discard, if_neg hne, AgentSlot.closeAgent, wireAgentEvents, wireAgentEvents]
    simp only [List.modify_eq_take_drop, List.take_left, List.drop_left, List.modifyHead_cons]
  rw [heq]
  exact h.wire _ id (fun _ ↦ id) (fun _ _ _ _ ↦ .inl) (fun _ _ ↦ .inl)
    (fun _ ↦ id) nofun

/-- **An agent is adopted**: nobody has a claim any more but the agent, and no other is
connected. -/
theorem Inv.adopt (hcoherent : s'.acquisitions.Coherent)
    (haborted : ∀ x, s.isAborted x = true → s'.isAborted x = true) (hagents : s'.agents = s.agents)
    (ha : s'.agent = some a) (hlt : a < s.agents.length) (hclaims : ∀ c, s'.Claims c → c = .agent)
    (htracks : ∀ n, s'.leading n ≠ .idle → s'.Tracks n)
    (hleading : ∀ n i l b, s'.leading n = .wired i l b → s.leading n = .wired i l b)
    (hattach : ∀ i b, s'.attach = some (.wired i b) → s.attach = some (.wired i b))
    (hothers : ∀ b, s.connected b = true → b = a) : s'.Inv where
  coherent := hcoherent
  exclusive c hc c' hc' := (hclaims c' hc').trans (hclaims c hc).symm
  tracks := htracks
  signal n i l b hn := hagents ▸ h.signal n i l b (hleading n i l b hn)
  agent_lt b hb := by
    cases ha.symm.trans hb
    exact hagents ▸ hlt
  attach_lt i b hb := hagents ▸ h.attach_lt i b (hattach i b hb)
  holds b hb := by
    obtain rfl := hothers b (connected_of_isAborted hagents haborted hb)
    exact .inl ha

theorem Inv.adoptLeader (hn : s.leading n = .wired sessionId lease a)
    (hmap : s.acquisitions.map.get s.hostId = some n) :
    ((s.adoptAgent a).commit n sessionId).Inv := by
  obtain ⟨q, hq, hhost, -⟩ := h.coherent.pending _ _ hmap
  obtain ⟨hcoherent, hwithdraws, hnone⟩ :=
    h.coherent.withdraws_commit (hhost ▸ hmap) hq (toString sessionId)
  have hc : s.Claims .acquisition := by rw [Claims, hmap]; exact Option.some_ne_none n
  have haborted : ∀ x, s.isAborted x = true →
      ((s.adoptAgent a).commit n sessionId).isAborted x = true := by
    rintro (m | m) habort
    · exact hwithdraws.aborted m habort
    · exact habort
  have hleading : ((s.adoptAgent a).commit n sessionId).leading =
      Function.update s.leading n .idle := rfl
  obtain ⟨g, hg, -⟩ := h.signal n sessionId lease a hn
  refine h.adopt hcoherent haborted rfl rfl (List.getElem?_eq_some_iff.mp hg).1 ?_ (fun m hm ↦ ?_)
    (fun m i l b hm ↦ ?_) (fun _ _ ↦ id) fun b hb ↦ ?_
  · rintro (_ | _ | _ | _) hc'
    · rfl
    · rw [hhost] at hnone
      exact absurd hnone hc'
    · cases h.exclusive _ hc .attempt hc'
    · cases h.exclusive _ hc .attach hc'
  · have hmn : m ≠ n := by
      rintro rfl
      exact hm (Function.update_self ..)
    rw [hleading, Function.update_of_ne hmn] at hm
    rcases h.tracks m hm with habort | hmap'
    · exact .inl (hwithdraws.aborted m habort)
    · exact absurd (Option.some.inj (hmap'.symm.trans hmap)) hmn
  · by_cases hmn : m = n
    · rw [hmn, hleading, Function.update_self] at hm
      cases hm
    · rwa [hleading, Function.update_of_ne hmn] at hm
  · rcases h.claim hb with ⟨-, hc'⟩ | ⟨m, i, l, hm, hmap', -⟩ | ⟨i, -, hc'⟩
    · cases h.exclusive _ hc _ hc'
    · cases hmap'.symm.trans hmap
      rw [hn] at hm
      cases hm
      rfl
    · cases h.exclusive _ hc _ hc'

theorem Inv.adoptDaemon (hattach : s.attach = some (.wired sessionId a)) :
    Inv { s.adoptAgent a with attach := some .settled } := by
  have hc : s.Claims .attach := by rw [Claims, hattach]; simp
  refine h.adopt h.coherent (fun _ ↦ id) rfl rfl (h.attach_lt sessionId a hattach) ?_ h.tracks
    (fun _ _ _ _ ↦ id) (fun _ _ hb ↦ by cases hb) fun b hb ↦ ?_
  · rintro (_ | _ | _ | _) hc'
    · rfl
    · cases h.exclusive _ hc .acquisition hc'
    · cases h.exclusive _ hc .attempt hc'
    · exact absurd rfl hc'.2
  · rcases h.claim hb with ⟨-, hc'⟩ | ⟨-, -, -, -, -, hc'⟩ | ⟨i, hattach', -⟩
    · cases h.exclusive _ hc _ hc'
    · cases h.exclusive _ hc _ hc'
    · rw [hattach] at hattach'
      cases hattach'
      rfl

/-- The agent of an attempt, which is wired and adopted at once. -/
theorem Inv.wireAdopt (hfree : ∀ c, ¬ s.Claims c) (g : WiredAgent) :
    ((s.wireAgentEvents g).adoptAgent s.agents.length).Inv where
  coherent := h.coherent
  exclusive := by
    have hclaims : ∀ c, ((s.wireAgentEvents g).adoptAgent s.agents.length).Claims c →
        c = .agent := by
      rintro (_ | _ | _ | _) hc
      · rfl
      · exact absurd hc (hfree .acquisition)
      · exact absurd hc (hfree .attempt)
      · exact absurd hc (hfree .attach)
    intro c hc c' hc'
    exact (hclaims c' hc').trans (hclaims c hc).symm
  tracks := h.tracks
  signal n i l a hn := by
    obtain ⟨g', hg', hsignal⟩ := h.signal n i l a hn
    exact ⟨g', getElem?_wireAgentEvents hg', hsignal⟩
  agent_lt a ha := by
    cases ha
    simp [adoptAgent, wireAgentEvents]
  attach_lt i a ha :=
    Nat.lt_of_lt_of_le (h.attach_lt i a ha) (by simp [adoptAgent, wireAgentEvents])
  holds a ha := by
    rcases connected_wireAgentEvents ha with hold | rfl
    · rcases h.claim hold with ⟨-, hc⟩ | ⟨-, -, -, -, -, hc⟩ | ⟨-, -, hc⟩
      · exact absurd hc (hfree _)
      · exact absurd hc (hfree _)
      · exact absurd hc (hfree _)
    · exact .inl rfl

end

end AgentSlot

end Lasterm.Hub
