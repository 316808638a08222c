import Lasterm.Agent.Phases
import Lasterm.Wire.Session

/-!
# Output at the end of a channel

When the process of a channel exits, its reader sends CHANNEL_EXIT straight into the frame queue,
past output that is still with the batch loop; the hub untracks the channel when it handles the
frame and drops what comes later.

The hub tracks a channel from its SPAWN_OK on, once, and until then there is no output (`Followed`).
So the first step that ends the tracking settles what the spool will ever have: the output in the
frames handled so far. Whether this is all that was read depends on what is on the way at that
moment, `onTheWay` (`spooled_eq_read_iff`).
-/

namespace Lasterm.Wire

open Agent Hub

namespace System

variable {S : Type} {term : SnapshotInfo → S} {json : SnapshotJson UInt8 S} {s s' : System S}
  {c : String} {events : List SystemEvent}

/-- The frames the hub has handled. -/
def handledFrames (s : System S) : List AgentToHub := s.agent.frames.take s.handled

/-- The output of a channel that the agent has read and the hub has not handled. -/
def onTheWay (s : System S) (c : String) : List UInt8 :=
  outputBytes c (s.agent.frames.drop s.handled) ++ s.agent.batch.inFlight c

/-- The output of a channel in frames handled so far, and what the hub makes of it. -/
structure Followed (c : String) (s : System S) : Prop where
  announced : s.agent.Announced c
  /-- The hub asks only for channels it knows. -/
  requests : ∀ x ∈ s.toAgent, x.2 = c → s.agent.phaseOf c ≠ none
  rejected : c ∈ s.rejected → s.agent.Quiet c
  handled_le : s.handled ≤ s.agent.frames.length
  early : .spawnOk c ∉ s.handledFrames → s.fed c = ⟨false, []⟩
  live : (s.fed c).tracked = true → (s.fed c).data = outputBytes c s.handledFrames

theorem followed_new (c : String) : Followed c (new : System S) where
  announced := AgentState.announced_new c
  requests := nofun
  rejected h := nomatch h
  handled_le := Nat.le_refl _
  early _ := rfl
  live h := nomatch h

namespace Followed

theorem phaseOf_ne_none_of_mem (h : Followed c s) (hmem : .spawnOk c ∈ s.agent.frames) :
    s.agent.phaseOf c ≠ none :=
  fun hnone ↦ (h.announced.unspawned hnone).1 hmem

/-- A channel that is or was tracked has been spawned. -/
theorem mem_of_tracked (h : Followed c s) (ht : (s.fed c).tracked = true) :
    .spawnOk c ∈ s.handledFrames := by
  by_contra hno
  rw [h.early hno] at ht
  cases ht

theorem phaseOf_of_tracked (h : Followed c s) (ht : (s.fed c).tracked = true) :
    s.agent.phaseOf c ≠ none :=
  h.phaseOf_ne_none_of_mem (List.mem_of_mem_take (h.mem_of_tracked ht))

/-- SPAWN_OK is handled once. -/
theorem not_mem_of_next (h : Followed c s) (hf : s.agent.frames[s.handled]? = some (.spawnOk c)) :
    .spawnOk c ∉ s.handledFrames := by
  intro hmem
  have honce := h.announced.once (h.phaseOf_ne_none_of_mem (List.mem_of_getElem? hf))
  have hsplit := List.take_append_drop s.handled s.agent.frames
  rw [← hsplit, List.count_append] at honce
  have hleft := List.count_pos_iff.mpr hmem
  have hright : 0 < (s.agent.frames.drop s.handled).count (.spawnOk c) := by
    refine List.count_pos_iff.mpr (List.mem_of_getElem? (i := 0) ?_)
    rw [List.getElem?_drop, Nat.add_zero, hf]
  rw [handledFrames] at hleft
  omega

end Followed

theorem handledFrames_succ {f : AgentToHub} (hf : s.agent.frames[s.handled]? = some f) :
    s.agent.frames.take (s.handled + 1) = s.handledFrames ++ [f] := by
  rw [List.take_add_one, hf]
  rfl

/-- What the handler of a frame leaves alone. -/
theorem dispatch_fields {now : ℕ} {f : AgentToHub} {t : System S}
    (h : t.dispatch term json now f = some s') :
    s'.agent = t.agent ∧ s'.handled = t.handled ∧ s'.toAgent = t.toAgent ∧
      ∀ c ∈ s'.rejected, c ∈ t.rejected ∨ f = .channelNotFound c := by
  cases f with
  | spawnOk c | output c seq data | snapshotRes c info lastSeq | channelExit c =>
    rw [(perform_eq_some h).2]
    exact ⟨rfl, rfl, rfl, fun _ hc ↦ .inl hc⟩
  | attachOk c info lastSeq =>
    rw [dispatch] at h
    split at h <;> (obtain rfl := Option.some.inj h; exact ⟨rfl, rfl, rfl, fun _ hc ↦ .inl hc⟩)
  | channelNotFound c =>
    rw [dispatch] at h
    split at h
    · cases h
      refine ⟨rfl, rfl, rfl, fun c' hc' ↦ ?_⟩
      rcases List.mem_append.mp hc' with hc' | hc'
      · exact .inl hc'
      · rw [List.mem_singleton.mp hc']
        exact .inr rfl
    · cases h
      exact ⟨rfl, rfl, rfl, fun _ hc ↦ .inl hc⟩
  | log c =>
    cases h
    exact ⟨rfl, rfl, rfl, fun _ hc ↦ .inl hc⟩

namespace Followed

section

variable (h : Followed c s)
include h

/-- A step of the hub that handles no frame can only end the tracking. -/
theorem of_fed (hagent : s'.agent = s.agent) (hhandled : s'.handled = s.handled)
    (hreq : ∀ x ∈ s'.toAgent, x ∈ s.toAgent ∨ (s.fed x.2).tracked = true)
    (hrej : c ∈ s'.rejected → c ∈ s.rejected)
    (hfed : s'.fed c = s.fed c ∨ s'.fed c = { s.fed c with tracked := false }) : Followed c s' := by
  have hframes : s'.handledFrames = s.handledFrames := by
    rw [handledFrames, hagent, hhandled, handledFrames]
  refine ⟨hagent ▸ h.announced, fun x hx hc ↦ ?_, fun hc ↦ ?_, ?_, fun hno ↦ ?_, fun ht ↦ ?_⟩
  · rw [hagent]
    rcases hreq x hx with hx | ht
    · exact h.requests x hx hc
    · exact h.phaseOf_of_tracked (hc ▸ ht)
  · rw [hagent]
    exact h.rejected (hrej hc)
  · rw [hagent, hhandled]
    exact h.handled_le
  · rw [hframes] at hno
    have hearly := h.early hno
    rcases hfed with hfed | hfed <;> rw [hfed, hearly]
  · rcases hfed with hfed | hfed
    · rw [hfed] at ht ⊢
      rw [hframes]
      exact h.live ht
    · rw [hfed] at ht
      cases ht

/-- The agent takes a step. -/
theorem agentStep {e : AgentEvent} (hstep : s.agentStep e = some s') :
    Followed c s' := by
  obtain ⟨hagent, -, hops, hhandled, -, -, hrejected, hto⟩ := agentStep_eq_some hstep
  have hfed : s'.fed c = s.fed c := by rw [fed, hops, fed]
  have hframes : s'.handledFrames = s.handledFrames := by
    rw [handledFrames, AgentState.frames_step hagent, hhandled,
      List.take_append_of_le_length h.handled_le, handledFrames]
  refine ⟨?_, fun x hx hc ↦ ?_, fun hc ↦ ?_, ?_, fun hno ↦ ?_, fun ht ↦ ?_⟩
  · refine h.announced.step hagent fun req he ↦ ?_
    rcases hto with ⟨-, hne⟩ | ⟨req', c', he', hto⟩
    · exact absurd he (hne req c)
    · rw [he'] at he
      obtain ⟨rfl, rfl⟩ := AgentEvent.request.inj he
      exact h.requests _ (hto ▸ List.mem_cons_self) rfl
  · refine AgentState.phaseOf_ne_none_step (h.requests x ?_ hc) hagent
    rcases hto with ⟨hto, -⟩ | ⟨_, _, -, hto⟩
    · exact hto ▸ hx
    · exact hto ▸ List.mem_cons_of_mem _ hx
  · exact AgentState.quiet_step (h.rejected (hrejected ▸ hc)) hagent
  · rw [hhandled, AgentState.frames_step hagent, List.length_append]
    exact Nat.le_trans h.handled_le (Nat.le_add_right _ _)
  · rw [hfed]
    exact h.early (hframes ▸ hno)
  · rw [hfed] at ht ⊢
    rw [hframes]
    exact h.live ht

/-- The hub handles a frame, which does to the channel what `fed'` says. -/
theorem of_frame {now : ℕ} {f : AgentToHub} (hf : s.agent.frames[s.handled]? = some f)
    (hstep : dispatch term json now { s with handled := s.handled + 1 } f = some s')
    (hearly : .spawnOk c ∉ s.handledFrames ++ [f] → s'.fed c = s.fed c)
    (hlive : (s'.fed c).tracked = true →
      (s'.fed c).data = outputBytes c s.handledFrames ++ outputBytes c [f]) : Followed c s' := by
  obtain ⟨hagent, hhandled, hto, hrej⟩ := dispatch_fields hstep
  have hframes : s'.handledFrames = s.handledFrames ++ [f] := by
    rw [handledFrames, hagent, hhandled]
    exact handledFrames_succ hf
  refine ⟨hagent ▸ h.announced, ?_, fun hc ↦ ?_, ?_, fun hno ↦ ?_, fun ht ↦ ?_⟩
  · rw [hagent, hto]
    exact h.requests
  · rw [hagent]
    rcases hrej c hc with hc | rfl
    · exact h.rejected hc
    · exact h.announced.ended (.inr (List.mem_of_getElem? hf))
  · rw [hagent, hhandled]
    exact (List.getElem?_eq_some_iff.mp hf).1
  · rw [hframes] at hno
    rw [hearly hno]
    exact h.early fun hmem ↦ hno (List.mem_append_left _ hmem)
  · rw [hframes, outputBytes_append]
    exact hlive ht

/-- The hub handles a frame. -/
theorem handle {now : ℕ} {f : AgentToHub} (hf : s.agent.frames[s.handled]? = some f)
    (hstep : dispatch term json now { s with handled := s.handled + 1 } f = some s') :
    Followed c s' := by
  have hfed : s'.fed c = (frameOp term now f).elim (s.fed c) fun op ↦ (s.fed c).step c op :=
    (moves_dispatch (s := s) hstep rfl rfl).fed c
  -- nothing happens to the channel
  have hsame : s'.fed c = s.fed c → outputBytes c [f] = [] → Followed c s' := by
    intro heq hout
    refine h.of_frame hf hstep (fun _ ↦ heq) fun ht ↦ ?_
    rw [heq] at ht ⊢
    rw [hout, List.append_nil]
    exact h.live ht
  cases f with
  | spawnOk c' =>
    rw [frameOp, Option.elim_some, Fed.step] at hfed
    by_cases hc : c' = c
    · subst hc
      rw [if_pos rfl] at hfed
      refine h.of_frame hf hstep (fun hno ↦ absurd (by simp) hno) fun _ ↦ ?_
      have hno := h.not_mem_of_next hf
      have hpre : s.handledFrames <+: s.agent.frames := List.take_prefix _ _
      rw [hfed, h.early hno, h.announced.first _ hpre hno]
      rfl
    · rw [if_neg hc] at hfed
      exact hsame hfed rfl
  | output c' seq data =>
    rw [frameOp, Option.elim_some, Fed.step] at hfed
    have hout : outputBytes c [.output c' seq data] = if c' = c then data else [] :=
      List.append_nil _
    by_cases hc : c' = c
    · subst hc
      cases ht : (s.fed c').tracked with
      | true =>
        rw [if_pos ⟨rfl, ht⟩] at hfed
        refine h.of_frame hf hstep (fun hno ↦ ?_) fun _ ↦ ?_
        · exact absurd (List.mem_append_left _ (h.mem_of_tracked ht)) hno
        · rw [hfed, hout, if_pos rfl]
          exact congrArg (· ++ data) (h.live ht)
      | false =>
        rw [if_neg (by simp [ht])] at hfed
        refine h.of_frame hf hstep (fun _ ↦ hfed) fun ht' ↦ ?_
        rw [hfed, ht] at ht'
        cases ht'
    · rw [if_neg (by simp [hc])] at hfed
      exact hsame hfed (by rw [hout, if_neg hc])
  | channelExit c' =>
    rw [frameOp, Option.elim_some, Fed.step] at hfed
    by_cases hc : c' = c
    · rw [if_pos hc] at hfed
      refine h.of_frame hf hstep (fun hno ↦ ?_) fun ht ↦ ?_
      · rw [hfed, h.early fun hmem ↦ hno (List.mem_append_left _ hmem)]
      · rw [hfed] at ht
        cases ht
    · rw [if_neg hc] at hfed
      exact hsame hfed rfl
  | snapshotRes c' info lastSeq => exact hsame hfed rfl
  | attachOk c' info lastSeq => exact hsame hfed rfl
  | channelNotFound c' => exact hsame hfed rfl
  | log c' => exact hsame hfed rfl

/-- **One step.** -/
theorem step (hstored : s.Stored json) {e : SystemEvent}
    (hstep : s.step term json e = some s') : Followed c s' := by
  have hmoves := step_moves hstep
  have hfed := hmoves.fed c
  cases e with
  | agent e => exact h.agentStep hstep
  | handle now =>
    rw [System.step, Option.bind_eq_bind, Option.bind_eq_some_iff] at hstep
    obtain ⟨f, hf, hstep⟩ := hstep
    exact h.handle hf hstep
  | timer now c' =>
    have heq := (perform_eq_some hstep).2
    refine h.of_fed (by rw [heq]) (by rw [heq]) (fun x hx ↦ ?_) (fun hc ↦ ?_) (.inl hfed)
    · rw [heq] at hx
      exact .inl hx
    · rw [heq] at hc
      exact hc
  | attach c' | schedule c' =>
    rw [System.step] at hstep
    split at hstep
    · rename_i htracked
      rw [hstored.tracked_eq] at htracked
      cases hstep
      refine h.of_fed rfl rfl (fun x hx ↦ ?_) (fun hc ↦ hc) (.inl rfl)
      rcases List.mem_append.mp hx with hx | hx
      · exact .inl hx
      · rw [List.mem_singleton.mp hx]
        exact .inr htracked
    · cases hstep
  | continueAttach now i =>
    rw [System.step] at hstep
    split at hstep
    · cases hstep
    · rename_i c' info lastSeq hi
      rw [opOf, hi] at hfed
      have heq := (perform_eq_some hstep).2
      refine h.of_fed (by rw [heq]) (by rw [heq]) (fun x hx ↦ ?_) (fun hc ↦ ?_) (.inl hfed)
      · rw [heq] at hx
        exact .inl hx
      · rw [heq] at hc
        exact hc
  | continueReject now i =>
    rw [System.step] at hstep
    split at hstep
    · cases hstep
    · rename_i c' hi
      rw [opOf, hi] at hfed
      have heq := (perform_eq_some hstep).2
      refine h.of_fed (by rw [heq]) (by rw [heq]) (fun x hx ↦ ?_) (fun hc ↦ ?_) ?_
      · rw [heq] at hx
        exact .inl hx
      · rw [heq] at hc
        exact List.mem_of_mem_eraseIdx hc
      · by_cases hc : c' = c
        · exact .inr (hfed.trans (if_pos hc))
        · exact .inl (hfed.trans (if_neg hc))

end

end Followed

theorem followed_run (h : Runs.run (step term json) new events = some s)
    (c : String) : Followed c s ∧ s.Stored json := by
  have hnew : (new : System S).Stored json := rfl
  exact Runs.run_invariant (fun s ↦ Followed c s ∧ s.Stored json)
    (fun _ _ _ hinv hstep ↦ ⟨hinv.1.step hinv.2 hstep, (step_moves hstep).stored hinv.2⟩)
    ⟨followed_new c, hnew⟩ h

/-! ## After the tracking has ended -/

/-- What untracks a channel: the exit of its process, or a rejected ATTACH. -/
theorem quiet_of_untracked (h : Followed c s) {e : SystemEvent}
    (hstep : s.step term json e = some s') (ht : (s.fed c).tracked = true)
    (ht' : (s'.fed c).tracked = false) :
    s.agent.Quiet c ∧ s'.fed c = ⟨false, (s.fed c).data⟩ := by
  have hfed := (step_moves hstep).fed c
  -- the operation untracks the channel
  have hop : ∀ op, s.opOf term e = some op → ∃ now, op = (now, .untrackChannel c) := by
    intro op hop
    rw [hop, Option.elim_some] at hfed
    obtain ⟨now, op⟩ := op
    rw [hfed] at ht'
    cases op with
    | untrackChannel c' =>
      rw [Fed.step] at ht'
      by_cases hc : c' = c
      · exact ⟨now, by rw [hc]⟩
      · rw [if_neg hc, ht] at ht'
        cases ht'
    | trackChannel c' =>
      rw [Fed.step] at ht'
      split at ht'
      · cases ht'
      · rw [ht] at ht'
        cases ht'
    | onOutput c' data =>
      rw [Fed.step] at ht'
      split at ht' <;> (rw [ht] at ht'; cases ht')
    | onTimer c' | storeSnapshot c' x n =>
      rw [Fed.step, ht] at ht'
      cases ht'
  cases hopOf : s.opOf term e with
  | none =>
    rw [hopOf, Option.elim_none] at hfed
    rw [hfed, ht] at ht'
    cases ht'
  | some op =>
    obtain ⟨now, rfl⟩ := hop op hopOf
    rw [hopOf, Option.elim_some, Fed.step, if_pos rfl] at hfed
    refine ⟨?_, hfed⟩
    cases e with
    | handle now' =>
      rw [opOf, Option.bind_eq_some_iff] at hopOf
      obtain ⟨f, hf, hf'⟩ := hopOf
      cases f with
      | channelExit c' =>
        rw [frameOp] at hf'
        cases hf'
        exact h.announced.ended (.inl (List.mem_of_getElem? hf))
      | spawnOk _ | output _ _ _ | snapshotRes _ _ _ | attachOk _ _ _ | channelNotFound _ | log _ =>
        cases hf'
    | continueReject now' i =>
      rw [opOf, Option.map_eq_some_iff] at hopOf
      obtain ⟨c', hc', heq⟩ := hopOf
      cases heq
      exact h.rejected (List.mem_of_getElem? hc')
    | continueAttach now' i =>
      rw [opOf, Option.map_eq_some_iff] at hopOf
      obtain ⟨x, -, heq⟩ := hopOf
      cases heq
    | timer _ _ | agent _ | attach _ | schedule _ => cases hopOf

/-- The hub has tracked a channel and does so no more; it holds `data` of it. -/
structure Ended (json : SnapshotJson UInt8 S) (c : String) (data : List UInt8) (s : System S) :
    Prop where
  followed : Followed c s
  stored : s.Stored json
  mem : .spawnOk c ∈ s.handledFrames
  fed_eq : s.fed c = ⟨false, data⟩
  quiet : s.agent.Quiet c

/-- Handled frames stay handled. -/
theorem mem_handledFrames_step {e : SystemEvent} (h : Followed c s)
    (hstep : s.step term json e = some s') {f : AgentToHub} (hf : f ∈ s.handledFrames) :
    f ∈ s'.handledFrames := by
  have hle : s.handled ≤ s'.handled ∧ s.agent.frames <+: s'.agent.frames := by
    cases e with
    | agent e =>
      obtain ⟨hagent, -, -, hhandled, -⟩ := agentStep_eq_some hstep
      rw [hhandled, AgentState.frames_step hagent]
      exact ⟨Nat.le_refl _, List.prefix_append _ _⟩
    | handle now =>
      rw [step, Option.bind_eq_bind, Option.bind_eq_some_iff] at hstep
      obtain ⟨f, -, hstep⟩ := hstep
      obtain ⟨hagent, hhandled, -⟩ := dispatch_fields hstep
      rw [hagent, hhandled]
      exact ⟨Nat.le_succ _, List.prefix_refl _⟩
    | timer now c' =>
      rw [(perform_eq_some hstep).2]
      exact ⟨Nat.le_refl _, List.prefix_refl _⟩
    | attach c' | schedule c' =>
      rw [step] at hstep
      split at hstep
      · cases hstep
        exact ⟨Nat.le_refl _, List.prefix_refl _⟩
      · cases hstep
    | continueAttach now i | continueReject now i =>
      rw [step] at hstep
      split at hstep
      · cases hstep
      · rw [(perform_eq_some hstep).2]
        exact ⟨Nat.le_refl _, List.prefix_refl _⟩
  obtain ⟨hhandled, q, hq⟩ := hle
  rw [handledFrames, ← hq]
  have hsub : s.agent.frames.take s.handled <+: (s.agent.frames ++ q).take s'.handled := by
    have htake : (s.agent.frames ++ q).take s.handled = s.agent.frames.take s.handled :=
      List.take_append_of_le_length h.handled_le
    rw [← htake]
    exact List.take_prefix_take_left hhandled
  exact hsub.subset hf

namespace Ended

variable {data : List UInt8}

theorem step (h : Ended json c data s) {e : SystemEvent} (hstep : s.step term json e = some s') :
    Ended json c data s' := by
  have hfed := (step_moves hstep).fed c
  refine ⟨h.followed.step h.stored hstep, (step_moves hstep).stored h.stored,
    mem_handledFrames_step h.followed hstep h.mem, ?_, ?_⟩
  · rw [hfed, h.fed_eq]
    cases hop : s.opOf term e with
    | none => rfl
    | some op =>
      obtain ⟨now, op⟩ := op
      cases op with
      | trackChannel c' =>
        rw [Option.elim_some, Fed.step]
        -- SPAWN_OK of the channel has been handled before
        refine if_neg fun hc ↦ ?_
        subst hc
        cases e with
        | handle now' =>
          rw [opOf, Option.bind_eq_some_iff] at hop
          obtain ⟨f, hf, hf'⟩ := hop
          cases f with
          | spawnOk c'' =>
            rw [frameOp] at hf'
            cases hf'
            exact h.followed.not_mem_of_next hf h.mem
          | channelExit _ | output _ _ _ | snapshotRes _ _ _ | attachOk _ _ _ | channelNotFound _
          | log _ => cases hf'
        | continueReject now' i =>
          rw [opOf, Option.map_eq_some_iff] at hop
          obtain ⟨x, -, hx⟩ := hop
          cases hx
        | continueAttach now' i =>
          rw [opOf, Option.map_eq_some_iff] at hop
          obtain ⟨x, -, hx⟩ := hop
          cases hx
        | timer _ _ | agent _ | attach _ | schedule _ => cases hop
      | untrackChannel c' =>
        rw [Option.elim_some, Fed.step]
        split <;> rfl
      | onOutput c' data =>
        rw [Option.elim_some, Fed.step]
        exact if_neg (by simp)
      | onTimer c' => rfl
      | storeSnapshot c' x n => rfl
  · rcases agent_step hstep with ⟨e', -, he'⟩ | heq
    · exact AgentState.quiet_step h.quiet (agentStep_eq_some he').1
    · exact heq ▸ h.quiet

/-- The spool has what the channel was fed. -/
theorem spooledOutput_eq (h : Ended json c data s) : s.hub.spooledOutput c = data := by
  obtain ⟨hord, hholds⟩ := h.stored.lane c
  rw [h.fed_eq] at hholds
  have hbuffer : (s.hub.lanes c).buffered = [] := by
    rw [Lane.buffered, Option.isSome_eq_false_iff.mp hholds.tracked |> Option.isNone_iff_eq_none.mp]
    rfl
  have hdata := hholds.data
  rw [hbuffer, List.append_nil] at hdata
  rw [OutputChunker.spooledOutput_eq hord, hdata]

end Ended

/-! ## What was read -/

/-- What an event reads from the terminal of a channel. -/
def reads (c : String) : SystemEvent → List (List UInt8)
  | .agent (.read c' raw) => if c' = c then [raw] else []
  | _ => []

/-- What a run reads from the terminal of a channel, read by read. -/
def readsOf (c : String) (events : List SystemEvent) : List (List UInt8) := events.flatMap (reads c)

/-- The events of the agent in a run of the system. -/
def agentEvents : List SystemEvent → List AgentEvent
  | [] => []
  | .agent e :: es => e :: agentEvents es
  | _ :: es => agentEvents es

theorem run_agent {s s' : System S} (h : Runs.run (step term json) s events = some s') :
    Runs.run AgentState.step s.agent (agentEvents events) = some s'.agent := by
  induction events generalizing s with
  | nil =>
    cases h
    rfl
  | cons e events ih =>
    rw [Runs.run_cons, Option.bind_eq_some_iff] at h
    obtain ⟨t, ht, h⟩ := h
    have hrest := ih h
    rcases agent_step ht with ⟨e', rfl, he'⟩ | heq
    · rw [agentEvents, Runs.run_cons, (agentStep_eq_some he').1, Option.bind_some]
      exact hrest
    · cases e with
      | agent e =>
        rw [agentEvents, Runs.run_cons, (agentStep_eq_some ht).1, Option.bind_some]
        exact hrest
      | handle _ | timer _ _ | attach _ | schedule _ | continueAttach _ _ | continueReject _ _ =>
        rw [← heq]
        exact hrest

/-- The output of a run is what it reads, without queries. -/
theorem output_agentEvents (c : String) (events : List SystemEvent) :
    (agentEvents events).flatMap (AgentEvent.output c) = (readsOf c events).flatMap stripDsr := by
  induction events with
  | nil => rfl
  | cons e events ih =>
    rw [readsOf, List.flatMap_cons, List.flatMap_append, ← readsOf, ← ih]
    cases e with
    | agent e =>
      rw [agentEvents, List.flatMap_cons]
      congr 1
      cases e with
      | read c' raw =>
        rw [AgentEvent.output, reads]
        split
        · exact (List.append_nil _).symm
        · rfl
      | _ => rfl
    | _ => rfl

/-- What was read is in the frames handled, or on the way. -/
theorem read_eq_handled_append_onTheWay
    (h : Runs.run (step term json) new events = some s) (c : String) :
    (readsOf c events).flatMap stripDsr = outputBytes c s.handledFrames ++ s.onTheWay c := by
  obtain ⟨frames, hframes, -, hflow⟩ := AgentState.run_flows (run_agent h) c
  rw [← output_agentEvents, onTheWay, ← List.append_assoc, ← outputBytes_append, handledFrames,
    List.take_append_drop]
  have hnew : (new : System S).agent.frames = [] := rfl
  have hempty : (new : System S).agent.batch.inFlight c = [] := rfl
  rw [hnew, List.nil_append] at hframes
  rw [hempty, List.nil_append] at hflow
  rw [hframes, hflow]

/-- A quiet reader reads nothing more. -/
theorem reads_eq_nil_of_quiet {e : SystemEvent} (h : s.agent.Quiet c)
    (hstep : s.step term json e = some s') : reads c e = [] := by
  cases e with
  | agent e =>
    cases e with
    | read c' raw =>
      refine if_neg ?_
      rintro rfl
      have hphase : s.agent.phaseOf c' ≠ some .reading := by
        rcases h with h | h <;> (rw [h]; decide)
      have hagent : s.agentStep (.read c' raw) = some s' := hstep
      exact AgentState.ne_read_of_phase (agentStep_eq_some hagent).1 hphase rfl
    | _ => rfl
  | _ => rfl

theorem Ended.run {data : List UInt8} {s s' : System S}
    (h : Ended json c data s) (hrun : Runs.run (System.step term json) s events = some s') :
    Ended json c data s' ∧ readsOf c events = [] := by
  induction events generalizing s with
  | nil =>
    cases hrun
    exact ⟨h, rfl⟩
  | cons e events ih =>
    rw [Runs.run_cons, Option.bind_eq_some_iff] at hrun
    obtain ⟨t, ht, hrun⟩ := hrun
    obtain ⟨hended, hreads⟩ := ih (h.step ht) hrun
    refine ⟨hended, ?_⟩
    rw [readsOf, List.flatMap_cons, reads_eq_nil_of_quiet h.quiet ht]
    exact hreads

/-- Queries are all that is lost between the terminal and the pipeline. -/
theorem length_flatMap_stripDsr (L : List (List UInt8)) :
    (L.flatMap stripDsr).length ≤ L.flatten.length ∧
      ((L.flatMap stripDsr).length = L.flatten.length ↔ ∀ raw ∈ L, ¬ DSR <:+: raw) := by
  induction L with
  | nil => simp
  | cons raw L ih =>
    obtain ⟨hle, hiff⟩ := ih
    have hraw := length_stripDsr_le raw
    rw [List.flatMap_cons, List.flatten_cons, List.length_append, List.length_append,
      List.forall_mem_cons, ← length_stripDsr_eq_iff, ← hiff]
    omega

theorem flatMap_stripDsr_of_no_query {L : List (List UInt8)} (h : ∀ raw ∈ L, ¬ DSR <:+: raw) :
    L.flatMap stripDsr = L.flatten := by
  rw [List.flatMap_def]
  congr 1
  exact (List.map_congr_left (g := id) fun raw hraw ↦ if_neg (h raw hraw)).trans (List.map_id _)

/-- **When nothing is lost at exit.** After any run a step of the hub ends the tracking of a
channel, and any run follows. The spool then has every byte read from the terminal of the channel
exactly when no output of it was on the way at that step, and no read had a query in it (those are
taken out on purpose). -/
theorem spooled_eq_read_iff {events events' : List SystemEvent} {e : SystemEvent}
    {s₀ s₁ s₂ : System S} (hrun : Runs.run (step term json) new events = some s₀)
    (hstep : s₀.step term json e = some s₁) (hrun' : Runs.run (step term json) s₁ events' = some s₂)
    (ht : s₀.tracked c = true) (ht' : s₁.tracked c = false) :
    s₂.hub.spooledOutput c = (readsOf c (events ++ e :: events')).flatten ↔
      s₀.onTheWay c = [] ∧ ∀ raw ∈ readsOf c (events ++ e :: events'), ¬ DSR <:+: raw := by
  obtain ⟨hfollowed, hstored⟩ := followed_run hrun c
  have hstored₁ := (step_moves hstep).stored hstored
  rw [hstored.tracked_eq] at ht
  rw [hstored₁.tracked_eq] at ht'
  obtain ⟨hquiet, hfed⟩ := quiet_of_untracked hfollowed hstep ht ht'
  have hended : Ended json c (s₀.fed c).data s₁ :=
    { followed := hfollowed.step hstored hstep
      stored := hstored₁
      mem := mem_handledFrames_step hfollowed hstep (hfollowed.mem_of_tracked ht)
      fed_eq := hfed
      quiet := by
        rcases agent_step hstep with ⟨e', -, he'⟩ | heq
        · exact AgentState.quiet_step hquiet (agentStep_eq_some he').1
        · exact heq ▸ hquiet }
  obtain ⟨hended₂, hreads⟩ := hended.run hrun'
  have hall : readsOf c (events ++ e :: events') = readsOf c events := by
    rw [readsOf, List.flatMap_append, List.flatMap_cons, reads_eq_nil_of_quiet hquiet hstep,
      ← readsOf, ← readsOf, hreads, List.append_nil, List.append_nil]
  have hsplit := read_eq_handled_append_onTheWay hrun c
  rw [hended₂.spooledOutput_eq, hall, hfollowed.live ht]
  obtain ⟨hle, hiff⟩ := length_flatMap_stripDsr (readsOf c events)
  rw [hsplit, List.length_append] at hle hiff
  constructor
  · intro heq
    have hlen := congrArg List.length heq
    exact ⟨List.length_eq_zero_iff.mp (by omega), hiff.mp (by omega)⟩
  · rintro ⟨hnone, hno⟩
    rw [flatMap_stripDsr_of_no_query hno, hnone, List.append_nil] at hsplit
    exact hsplit.symm

/-- A shell prints, its output reaches the hub, and it exits. -/
def exitAfterOutput : List SystemEvent :=
  [.agent (.spawn "c"), .handle 0, .agent (.read "c" [36]), .agent .batchRecv,
    .agent (.batchTick ["c"]), .agent .write, .handle 0, .agent (.eof "c"), .agent (.cleanup "c"),
    .agent (.exit "c"), .handle 0]

/-- A shell prints and exits before the batch loop has passed its output on. -/
def exitBeforeTick : List SystemEvent :=
  [.agent (.spawn "c"), .handle 0, .agent (.read "c" [36]), .agent (.eof "c"),
    .agent (.cleanup "c"), .agent (.exit "c"), .handle 0]

/-- The output that was left behind comes through. -/
def lateOutput : List SystemEvent :=
  [.agent .batchRecv, .agent (.batchTick ["c"]), .agent .write, .handle 0]

theorem spooled_eq_read_iff_exitAfterOutput : ∃ s₀ s₁ : System (List UInt8),
    Runs.run (step SnapshotInfo.bytes quotedJson) new exitAfterOutput = some s₀ ∧
      s₀.step SnapshotInfo.bytes quotedJson (.handle 0) = some s₁ ∧
      s₀.tracked "c" = true ∧ s₁.tracked "c" = false ∧
      (s₁.hub.spooledOutput "c" = (readsOf "c" (exitAfterOutput ++ [.handle 0])).flatten ↔
        s₀.onTheWay "c" = [] ∧
          ∀ raw ∈ readsOf "c" (exitAfterOutput ++ [.handle 0]), ¬ DSR <:+: raw) := by
  refine ⟨_, _, rfl, rfl, rfl, rfl, ?_⟩
  exact @spooled_eq_read_iff _ SnapshotInfo.bytes quotedJson "c" exitAfterOutput [] (.handle 0)
    _ _ _ rfl rfl rfl rfl rfl

/-- CHANNEL_EXIT overtakes the last output, which the hub then drops. -/
theorem exit_overtakes_output :
    ¬ ∀ (term : SnapshotInfo → List UInt8) (json : SnapshotJson UInt8 (List UInt8)) (c : String)
      (events events' : List SystemEvent) (e : SystemEvent) (s₀ s₁ s₂ : System (List UInt8)),
      Runs.run (step term json) new events = some s₀ → s₀.step term json e = some s₁ →
      Runs.run (step term json) s₁ events' = some s₂ → s₀.tracked c = true →
      s₁.tracked c = false →
      s₂.hub.spooledOutput c = (readsOf c (events ++ e :: events')).flatten := by
  intro h
  have hlast := h SnapshotInfo.bytes quotedJson "c" exitBeforeTick lateOutput (.handle 0) _ _ _
    rfl rfl rfl rfl rfl
  revert hlast
  decide

/-! ## At any time -/

/-- A channel that is not tracked behind an operation has got nothing by it. -/
theorem data_step_of_untracked {f : Fed UInt8} {op : ℕ × SpoolOp UInt8 S}
    (h : (f.step c op).tracked = false) : (f.step c op).data = f.data := by
  obtain ⟨now, op⟩ := op
  cases op with
  | onOutput c' data =>
    rw [Fed.step] at h ⊢
    split
    · rename_i hc
      rw [if_pos hc] at h
      exact absurd hc.2 (Bool.not_eq_true _ ▸ h)
    · rfl
  | trackChannel c' | untrackChannel c' =>
    rw [Fed.step]
    split <;> rfl
  | onTimer c' | storeSnapshot c' x n => rfl

/-- **The hub has a beginning of the output.** At any time, of what was read from the terminal of a
channel, the spool and the buffer behind it have all up to some byte, each once and in order. -/
theorem recorded_isPrefix {events : List SystemEvent}
    (h : Runs.run (step term json) new events = some s) (c : String) :
    s.hub.spooledOutput c ++ s.hub.buffered c <+: (readsOf c events).flatMap stripDsr := by
  obtain ⟨hord, hholds⟩ := (followed_run h c).2.lane c
  rw [OutputChunker.spooledOutput_eq hord, OutputChunker.buffered, hholds.data]
  refine Runs.run_history (fun es s ↦ (s.fed c).data <+: (readsOf c es).flatMap stripDsr)
    List.nil_prefix ?_ h
  intro es t e t' hrun hpre hstep
  have hrun' : Runs.run (step term json) new (es ++ [e]) = some t' := by
    rw [Runs.run_append, hrun, Option.bind_some, Runs.run_cons, hstep]
    rfl
  have hfed := (step_moves hstep).fed c
  cases ht : (t'.fed c).tracked with
  | true =>
    rw [(followed_run hrun' c).1.live ht]
    exact ⟨_, (read_eq_handled_append_onTheWay hrun' c).symm⟩
  | false =>
    have hsame : (t'.fed c).data = (t.fed c).data := by
      rw [hfed] at ht ⊢
      cases hop : t.opOf term e with
      | none => rfl
      | some op =>
        rw [hop] at ht
        exact data_step_of_untracked ht
    rw [hsame, readsOf, List.flatMap_append, List.flatMap_append]
    exact hpre.trans (List.prefix_append _ _)

theorem recorded_isPrefix_exitBeforeTick : ∃ s : System (List UInt8),
    Runs.run (step SnapshotInfo.bytes quotedJson) new (exitBeforeTick ++ lateOutput) = some s ∧
      s.hub.spooledOutput "c" ++ s.hub.buffered "c" <+: [36] :=
  ⟨_, rfl,
    @recorded_isPrefix _ SnapshotInfo.bytes quotedJson _ (exitBeforeTick ++ lateOutput) rfl "c"⟩

end System

end Lasterm.Wire
