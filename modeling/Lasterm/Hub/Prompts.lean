import Lasterm.Hub.PromptContext

/-!
# What happens to a prompt

The registry of prompts has four indexes: `promptContexts` with the set of prompts of each context,
`promptIndex`, `inFlight` and `pendingPrompts`. Its operations are followed prompt by prompt.

## The invariant

The four indexes agree (`Linked`), whatever the flags and routes of the contexts are. `Coherent`
adds that the contexts are open, that one with prompts in flight is routed to a client of the hub,
and that a prompt in an index has been created.

## Fates

Every operation is described by what it does to one prompt (`Fate`): the prompt stays, is issued,
ends with a value for its promise, or moves to another client. Each fate has the mail and the
answers that come with it, so that what a client is sent, and how often a promise is resolved, is
read off the fates. `step_fate` says it for every operation, and that `Coherent` is kept.

The loops, over the prompts of a context and over the contexts of a client, go prompt by prompt.
Each has a lemma on what is gone or redelivered behind it (`foldl_dismiss`, `foldl_redeliver`,
`foldl_reroute`). Another prompt has the fate to stay (`Same`).
-/

namespace Lasterm.Hub

open Runs

namespace Prompts

variable {s t u : Prompts} {p : ℕ} {contextId : ContextId} {context : PromptContext}
  {clientId : String} {ps qs : List ℕ}

/-! ## The four indexes -/

/-- The indexes hold the same prompts, each under the context that has it in its set. -/
structure Linked (s : Prompts) : Prop where
  index : ∀ p contextId, s.promptIndex.get p = some contextId ↔
    ∃ context, s.promptContexts.get contextId = some context ∧ p ∈ context.prompts
  inFlight : ∀ p, (s.inFlight.get p).map InFlightPrompt.contextId = s.promptIndex.get p
  pending : ∀ p, (s.pendingPrompts.get p).map PendingPrompt.contextId = s.promptIndex.get p
  distinct : ∀ contextId context, s.promptContexts.get contextId = some context →
    context.prompts.Nodup

/-- `t` is `s` without some prompts. -/
structure Cleared (ps : List ℕ) (s t : Prompts) : Prop where
  contexts : ∀ id, t.promptContexts.get id =
    (s.promptContexts.get id).map fun c ↦ { c with prompts := c.prompts.filter (· ∉ ps) }
  index : ∀ p, t.promptIndex.get p = if p ∈ ps then none else s.promptIndex.get p
  pending : ∀ p, t.pendingPrompts.get p = if p ∈ ps then none else s.pendingPrompts.get p
  inFlight : ∀ p, t.inFlight.get p = if p ∈ ps then none else s.inFlight.get p
  created : t.created = s.created
  clients : t.clients = s.clients

/-! ### Without some prompts -/

theorem Cleared.refl (s : Prompts) : Cleared [] s s where
  contexts id := by simp
  index p := by simp
  pending p := by simp
  inFlight p := by simp
  created := rfl
  clients := rfl

theorem Cleared.trans (h : Cleared ps s t) (h' : Cleared qs t u) : Cleared (ps ++ qs) s u where
  contexts id := by
    rw [h'.contexts, h.contexts, Option.map_map]
    congr 1
    funext c
    simp [List.filter_filter, Bool.and_comm]
  index p := by
    rw [h'.index, h.index]
    by_cases hp : p ∈ ps <;> simp [hp]
  pending p := by
    rw [h'.pending, h.pending]
    by_cases hp : p ∈ ps <;> simp [hp]
  inFlight p := by
    rw [h'.inFlight, h.inFlight]
    by_cases hp : p ∈ ps <;> simp [hp]
  created := h'.created.trans h.created
  clients := h'.clients.trans h.clients

theorem Linked.cleared (h : s.Linked) (hcleared : Cleared ps s t) : t.Linked where
  index p contextId := by
    rw [hcleared.index, hcleared.contexts]
    by_cases hp : p ∈ ps
    · simp [hp]
    · rw [if_neg hp, h.index]
      constructor
      · rintro ⟨c, hc, hmem⟩
        exact ⟨_, Option.map_eq_some_iff.mpr ⟨c, hc, rfl⟩, by simp [hmem, hp]⟩
      · rintro ⟨c', hc', hmem⟩
        obtain ⟨c, hc, rfl⟩ := Option.map_eq_some_iff.mp hc'
        exact ⟨c, hc, (List.mem_filter.mp hmem).1⟩
  inFlight p := by
    rw [hcleared.index, hcleared.inFlight, ← h.inFlight]
    split <;> rfl
  pending p := by
    rw [hcleared.index, hcleared.pending, ← h.pending]
    split <;> rfl
  distinct contextId c' hc' := by
    rw [hcleared.contexts] at hc'
    obtain ⟨c, hc, rfl⟩ := Option.map_eq_some_iff.mp hc'
    exact (h.distinct _ c hc).filter _

/-- A context whose set of prompts is left alone. -/
theorem Linked.setContext (h : s.Linked) {context' : PromptContext}
    (hc : s.promptContexts.get contextId = some context)
    (hps : context'.prompts = context.prompts) :
    (s.setContext contextId context').Linked where
  index p id := by
    rw [show (s.setContext contextId context').promptIndex = s.promptIndex from rfl, h.index,
      Prompts.setContext, OrderedMap.get_set]
    by_cases hid : contextId = id
    · subst hid
      simp [hc, hps]
    · simp [hid]
  inFlight := h.inFlight
  pending := h.pending
  distinct id c hget := by
    rw [Prompts.setContext, OrderedMap.get_set] at hget
    split at hget
    · cases hget
      exact hps ▸ h.distinct _ _ hc
    · exact h.distinct id c hget

/-! ### `clearPrompt` -/

theorem get_clearPrompt (h : s.Linked) (id : ContextId) :
    (s.clearPrompt p).promptContexts.get id =
      (s.promptContexts.get id).map fun c ↦ { c with prompts := c.prompts.erase p } := by
  have hout : ∀ c, s.promptContexts.get id = some c → s.promptIndex.get p ≠ some id →
      c.prompts.erase p = c.prompts :=
    fun c hc hne ↦ List.erase_of_not_mem fun hmem ↦ hne ((h.index p id).mpr ⟨c, hc, hmem⟩)
  rw [clearPrompt]
  rcases hp : s.promptIndex.get p with _ | contextId
  · rcases hc : s.promptContexts.get id with _ | c
    · rfl
    · rw [Option.map_some, hout c hc (by simp [hp])]
  · obtain ⟨context, hcontext, -⟩ := (h.index p contextId).mp hp
    simp only [hcontext, Prompts.setContext, OrderedMap.get_set]
    by_cases hid : contextId = id
    · subst hid
      rw [if_pos rfl, hcontext, Option.map_some]
    · rw [if_neg hid]
      rcases hc : s.promptContexts.get id with _ | c
      · rfl
      · rw [Option.map_some, hout c hc (by simpa [hp] using hid)]

theorem clearPrompt_fields (s : Prompts) (p : ℕ) :
    (s.clearPrompt p).promptIndex = s.promptIndex.delete p ∧
      (s.clearPrompt p).pendingPrompts = s.pendingPrompts.delete p ∧
      (s.clearPrompt p).inFlight = s.inFlight.delete p ∧
      (s.clearPrompt p).created = s.created ∧ (s.clearPrompt p).clients = s.clients ∧
      (s.clearPrompt p).sent = s.sent ∧ (s.clearPrompt p).resolved = s.resolved := by
  rw [clearPrompt]
  split
  · exact ⟨rfl, rfl, rfl, rfl, rfl, rfl, rfl⟩
  · split <;> exact ⟨rfl, rfl, rfl, rfl, rfl, rfl, rfl⟩

theorem cleared_clearPrompt (h : s.Linked) (p : ℕ) : Cleared [p] s (s.clearPrompt p) := by
  obtain ⟨hindex, hpending, hinFlight, hcreated, hclients, -, -⟩ := clearPrompt_fields s p
  refine ⟨fun id ↦ ?_, fun q ↦ ?_, fun q ↦ ?_, fun q ↦ ?_, hcreated, hclients⟩
  · rw [get_clearPrompt h]
    rcases hc : s.promptContexts.get id with _ | c
    · rfl
    · rw [Option.map_some, Option.map_some, (h.distinct id c hc).erase_eq_filter]
      simp [bne, beq_eq_decide]
  · rw [hindex, OrderedMap.get_delete]
    simp [eq_comm]
  · rw [hpending, OrderedMap.get_delete]
    simp [eq_comm]
  · rw [hinFlight, OrderedMap.get_delete]
    simp [eq_comm]

/-! ## Clearing a context -/

/-- In a list that is put together from distinct keys, what belongs to one key is what this key
gave. -/
theorem filter_flatMap_of_key {β : Type*} {key : β → ℕ} {g : ℕ → List β}
    (hkey : ∀ q, ∀ x ∈ g q, key x = q) (hps : ps.Nodup) (p : ℕ) :
    (ps.flatMap g).filter (fun x ↦ key x = p) = if p ∈ ps then g p else [] := by
  induction ps with
  | nil => rfl
  | cons q ps ih =>
    rw [List.nodup_cons] at hps
    rw [List.flatMap_cons, List.filter_append, ih hps.2]
    by_cases hqp : q = p
    · subst hqp
      rw [if_neg hps.1, if_pos List.mem_cons_self, List.append_nil, List.filter_eq_self]
      intro x hx
      simpa using hkey q x hx
    · have hnone : (g q).filter (fun x ↦ key x = p) = [] := by
        rw [List.filter_eq_nil_iff]
        intro x hx
        simpa [hkey q x hx] using hqp
      rw [hnone, List.nil_append]
      simp [Ne.symm hqp]

theorem send_eq (s : Prompts) (clientId : String) (msg : PromptMessage) :
    s.send clientId msg =
      { s with sent := s.sent ++ if clientId ∈ s.clients then [(clientId, msg)] else [] } := by
  rw [send]
  split
  · rfl
  · rw [List.append_nil]

/-- The PROMPT_CANCEL that a `send` given to `clearContext` puts out. -/
def cancellation (s : Prompts) (routeClientId : String) (cancel : Bool) (p : ℕ) :
    List (String × PromptMessage) :=
  if cancel ∧ routeClientId ∈ s.clients then [(routeClientId, .cancel p)] else []

theorem dismiss_spec (h : s.Linked) (hp : (s.inFlight.get p).isSome) (routeClientId : String)
    (cancel : Bool) :
    Cleared [p] s (dismiss routeClientId cancel s p) ∧
      (dismiss routeClientId cancel s p).sent = s.sent ++ s.cancellation routeClientId cancel p ∧
      (dismiss routeClientId cancel s p).resolved = s.resolved ++ [(p, none)] := by
  obtain ⟨f, hf⟩ := Option.isSome_iff_exists.mp hp
  have heq : dismiss routeClientId cancel s p =
      ({ s with sent := s.sent ++ s.cancellation routeClientId cancel p }.clearPrompt p).resolve p
        none := by
    rw [dismiss, hf, cancellation, send_eq]
    rcases cancel with _ | _
    · simp
    · simp
  have hlinked : Linked { s with sent := s.sent ++ s.cancellation routeClientId cancel p } :=
    ⟨h.index, h.inFlight, h.pending, h.distinct⟩
  have hcleared := cleared_clearPrompt hlinked p
  obtain ⟨-, -, -, -, -, hsent, hresolved⟩ :=
    clearPrompt_fields { s with sent := s.sent ++ s.cancellation routeClientId cancel p } p
  rw [heq]
  refine ⟨⟨hcleared.contexts, hcleared.index, hcleared.pending, hcleared.inFlight, hcleared.created,
    hcleared.clients⟩, hsent, ?_⟩
  rw [resolve, hresolved]

theorem foldl_dismiss (h : s.Linked) (hps : ps.Nodup) (hin : ∀ p ∈ ps, (s.inFlight.get p).isSome)
    (routeClientId : String) (cancel : Bool) :
    Cleared ps s (ps.foldl (dismiss routeClientId cancel) s) ∧
      (ps.foldl (dismiss routeClientId cancel) s).sent =
        s.sent ++ ps.flatMap (s.cancellation routeClientId cancel) ∧
      (ps.foldl (dismiss routeClientId cancel) s).resolved =
        s.resolved ++ ps.flatMap fun p ↦ [(p, none)] := by
  induction ps generalizing s with
  | nil => exact ⟨.refl s, (List.append_nil _).symm, (List.append_nil _).symm⟩
  | cons p ps ih =>
    rw [List.nodup_cons] at hps
    obtain ⟨hcleared, hsent, hresolved⟩ :=
      dismiss_spec h (hin p List.mem_cons_self) routeClientId cancel
    have hin' : ∀ q ∈ ps, ((dismiss routeClientId cancel s p).inFlight.get q).isSome := by
      intro q hq
      have hne : q ≠ p := fun heq ↦ hps.1 (heq ▸ hq)
      rw [hcleared.inFlight, if_neg (by simpa using hne)]
      exact hin q (List.mem_cons_of_mem _ hq)
    obtain ⟨hcleared', hsent', hresolved'⟩ := ih (h.cleared hcleared) hps.2 hin'
    have hcancellation : (dismiss routeClientId cancel s p).cancellation routeClientId cancel =
        s.cancellation routeClientId cancel := by
      funext q
      rw [cancellation, cancellation, hcleared.clients]
    refine ⟨hcleared.trans hcleared', ?_, ?_⟩
    · rw [List.foldl_cons, hsent', hsent, hcancellation, List.flatMap_cons, List.append_assoc]
    · rw [List.foldl_cons, hresolved', hresolved, List.flatMap_cons, List.append_assoc]

/-- `t` is `s` without a context and its prompts. -/
structure Gone (contextId : ContextId) (s t : Prompts) : Prop where
  contexts : ∀ id, t.promptContexts.get id =
    if contextId = id then none else s.promptContexts.get id
  index : ∀ p, t.promptIndex.get p =
    if s.promptIndex.get p = some contextId then none else s.promptIndex.get p
  pending : ∀ p, t.pendingPrompts.get p =
    if s.promptIndex.get p = some contextId then none else s.pendingPrompts.get p
  inFlight : ∀ p, t.inFlight.get p =
    if s.promptIndex.get p = some contextId then none else s.inFlight.get p
  created : t.created = s.created
  clients : t.clients = s.clients

/-! ### A context that is gone -/

theorem Linked.isSome_inFlight (h : s.Linked) :
    (s.inFlight.get p).isSome = (s.promptIndex.get p).isSome := by
  rw [← h.inFlight, Option.isSome_map]

theorem Linked.mem_iff (h : s.Linked) (hc : s.promptContexts.get contextId = some context) :
    p ∈ context.prompts ↔ s.promptIndex.get p = some contextId := by
  rw [h.index]
  constructor
  · intro hmem
    exact ⟨context, hc, hmem⟩
  · rintro ⟨c, hc', hmem⟩
    cases hc.symm.trans hc'
    exact hmem

theorem Linked.gone (h : s.Linked) (hgone : Gone contextId s t) : t.Linked where
  index p id := by
    rw [hgone.index, hgone.contexts]
    by_cases hid : contextId = id
    · subst hid
      rw [if_pos rfl]
      constructor
      · intro hget
        split at hget
        · cases hget
        · exact absurd hget ‹_›
      · rintro ⟨c, hc, -⟩
        cases hc
    · rw [if_neg hid, ← h.index]
      split
      · rename_i hget
        simp [hget, hid]
      · rfl
  inFlight p := by
    rw [hgone.inFlight, hgone.index]
    split
    · rfl
    · exact h.inFlight p
  pending p := by
    rw [hgone.pending, hgone.index]
    split
    · rfl
    · exact h.pending p
  distinct id c hc := by
    rw [hgone.contexts] at hc
    split at hc
    · cases hc
    · exact h.distinct id c hc

theorem clearContext_spec (h : s.Linked) (hc : s.promptContexts.get contextId = some context)
    (hopen : context.closed = false) (cancel : Bool) :
    Gone contextId s (s.clearContext contextId cancel) ∧
      (s.clearContext contextId cancel).sent =
        s.sent ++ context.prompts.flatMap (s.cancellation context.routeClientId cancel) ∧
      (s.clearContext contextId cancel).resolved =
        s.resolved ++ context.prompts.flatMap fun p ↦ [(p, none)] := by
  have hlinked : (s.setContext contextId { context with closed := true }).Linked :=
    h.setContext hc rfl
  have hin : ∀ p ∈ context.prompts,
      ((s.setContext contextId { context with closed := true }).inFlight.get p).isSome := by
    intro p hp
    have hindex : s.promptIndex.get p = some contextId := (h.mem_iff hc).mp hp
    rw [show (s.setContext contextId _).inFlight = s.inFlight from rfl, h.isSome_inFlight, hindex]
    rfl
  obtain ⟨hcleared, hsent, hresolved⟩ :=
    foldl_dismiss hlinked (h.distinct _ _ hc) hin context.routeClientId cancel
  have heq : s.clearContext contextId cancel =
      let t := context.prompts.foldl (dismiss context.routeClientId cancel)
        (s.setContext contextId { context with closed := true })
      { t with promptContexts := t.promptContexts.delete contextId } := by
    rw [clearContext, hc]
    simp [hopen]
  rw [heq]
  refine ⟨⟨fun id ↦ ?_, fun p ↦ ?_, fun p ↦ ?_, fun p ↦ ?_, hcleared.created, hcleared.clients⟩,
    hsent,
    hresolved⟩
  · rw [OrderedMap.get_delete]
    by_cases hid : contextId = id
    · rw [if_pos hid, if_pos hid]
    · rw [if_neg hid, if_neg hid, hcleared.contexts, setContext, OrderedMap.get_set_of_ne _ _ hid]
      rcases hid' : s.promptContexts.get id with _ | c
      · rfl
      · have hkeep : c.prompts.filter (· ∉ context.prompts) = c.prompts := by
          rw [List.filter_eq_self]
          intro p hp
          rw [decide_eq_true_iff, h.mem_iff hc, (h.mem_iff hid').mp hp]
          simpa using Ne.symm hid
        rw [Option.map_some, hkeep]
  · simp only [← h.mem_iff hc]
    exact hcleared.index p
  · simp only [← h.mem_iff hc]
    exact hcleared.pending p
  · simp only [← h.mem_iff hc]
    exact hcleared.inFlight p

/-! ## Moving a context to another client -/

/-- A prompt that is in flight, delivered once more. -/
def InFlightPrompt.again (f : InFlightPrompt) : InFlightPrompt :=
  { f with deliveryEpoch := f.deliveryEpoch + 1 }

/-- What `retarget` sends about a prompt. -/
def redelivery (s : Prompts) (old new : String) (p : ℕ) : List (String × PromptMessage) :=
  (s.inFlight.get p).toList.flatMap fun f ↦
    (if old ≠ new ∧ old ∈ s.clients then [(old, .cancel p)] else []) ++
      if new ∈ s.clients then [(new, .prompt f.type f.resendPayload p (f.deliveryEpoch + 1))]
        else []

/-- `t` is `s` after some prompts were delivered once more. -/
structure Redelivered (ps : List ℕ) (s t : Prompts) : Prop where
  contexts : t.promptContexts = s.promptContexts
  index : t.promptIndex = s.promptIndex
  pending : ∀ p, (t.pendingPrompts.get p).map PendingPrompt.contextId =
    (s.pendingPrompts.get p).map PendingPrompt.contextId
  inFlight : ∀ p, t.inFlight.get p =
    if p ∈ ps then (s.inFlight.get p).map InFlightPrompt.again else s.inFlight.get p
  created : t.created = s.created
  clients : t.clients = s.clients
  resolved : t.resolved = s.resolved

theorem redeliver_spec (s : Prompts) (old new : String) (p : ℕ) :
    Redelivered [p] s (redeliver old new s p) ∧
      (redeliver old new s p).sent = s.sent ++ s.redelivery old new p := by
  rw [redeliver, redelivery]
  rcases hf : s.inFlight.get p with _ | f
  · refine ⟨⟨rfl, rfl, fun _ ↦ rfl, fun q ↦ ?_, rfl, rfl, rfl⟩, by simp⟩
    by_cases hq : q = p
    · simp [hq, hf]
    · simp [hq]
  · simp only [send_eq]
    refine ⟨⟨?_, ?_, fun q ↦ ?_, fun q ↦ ?_, ?_, ?_, ?_⟩, ?_⟩
    · split <;> rfl
    · split <;> rfl
    · rcases hpending : s.pendingPrompts.get p with _ | r
      · split <;> rfl
      · by_cases hq : p = q
        · subst hq
          split <;> simp [hpending]
        · split <;> simp [hq]
    · by_cases hq : p = q
      · subst hq
        split <;> simp [hf, InFlightPrompt.again]
      · split <;> simp [hq, Ne.symm hq]
    · split <;> rfl
    · split <;> rfl
    · split <;> rfl
    · by_cases hne : old = new
      · simp [hne]
      · simp [hne]

theorem foldl_redeliver (hps : ps.Nodup) (s : Prompts) (old new : String) :
    Redelivered ps s (ps.foldl (redeliver old new) s) ∧
      (ps.foldl (redeliver old new) s).sent = s.sent ++ ps.flatMap (s.redelivery old new) := by
  induction ps generalizing s with
  | nil =>
    exact ⟨⟨rfl, rfl, fun _ ↦ rfl, fun _ ↦ by simp, rfl, rfl, rfl⟩, (List.append_nil _).symm⟩
  | cons p ps ih =>
    rw [List.nodup_cons] at hps
    obtain ⟨hp, hsent⟩ := redeliver_spec s old new p
    obtain ⟨hps', hsent'⟩ := ih hps.2 (redeliver old new s p)
    have hredelivery : ∀ q ∈ ps, (redeliver old new s p).redelivery old new q =
        s.redelivery old new q := by
      intro q hq
      have hne : q ≠ p := fun heq ↦ hps.1 (heq ▸ hq)
      simp only [redelivery, hp.inFlight, hp.clients, List.mem_singleton, if_neg hne]
    refine ⟨⟨hps'.contexts.trans hp.contexts, hps'.index.trans hp.index,
      fun q ↦ (hps'.pending q).trans (hp.pending q), fun q ↦ ?_, hps'.created.trans hp.created,
      hps'.clients.trans hp.clients, hps'.resolved.trans hp.resolved⟩, ?_⟩
    · rw [List.foldl_cons, hps'.inFlight, hp.inFlight]
      by_cases hqp : q = p
      · subst hqp
        simp [hps.1]
      · simp [hqp]
    · rw [List.foldl_cons, hsent', hsent, List.flatMap_cons, List.append_assoc,
        List.flatMap_congr hredelivery]

/-! ### `retarget` -/

theorem retarget_spec (h : s.Linked) (hc : s.promptContexts.get contextId = some context)
    (hopen : context.closed = false) (hkind : context.kind = .session) (new : String) :
    Redelivered context.prompts (s.setContext contextId { context with routeClientId := new })
        (s.retarget contextId new) ∧
      (s.retarget contextId new).sent =
        s.sent ++ context.prompts.flatMap (s.redelivery context.routeClientId new) := by
  have heq : s.retarget contextId new = context.prompts.foldl (redeliver context.routeClientId new)
      (s.setContext contextId { context with routeClientId := new }) := by
    rw [retarget, hc]
    simp [hopen, hkind]
  rw [heq]
  exact foldl_redeliver (h.distinct _ _ hc) _ _ _

theorem Linked.redelivered (h : s.Linked) (hps : Redelivered ps s t) : t.Linked where
  index p id := by
    rw [hps.index, hps.contexts]
    exact h.index p id
  inFlight p := by
    rw [hps.index, hps.inFlight, ← h.inFlight]
    split
    · rw [Option.map_map]
      rfl
    · rfl
  pending p := by
    rw [hps.index, hps.pending, h.pending]
  distinct id c hc := h.distinct id c (hps.contexts ▸ hc)

/-! ## Fates -/

/-- Where a prompt that is in flight was delivered last. -/
structure Delivery where
  clientId : String
  type : PromptType
  payload : String
  deliveryEpoch : ℕ

def delivery (s : Prompts) (p : ℕ) : Option Delivery :=
  (s.inFlight.get p).bind fun f ↦ (s.promptContexts.get f.contextId).map fun c ↦
    ⟨c.routeClientId, f.type, f.resendPayload, f.deliveryEpoch⟩

/-- What was sent about a prompt. -/
def mail (s : Prompts) (p : ℕ) : List (String × PromptMessage) :=
  s.sent.filter fun m ↦ m.2.promptId = p

/-- The values with which the promise of a prompt was resolved. -/
def answers (s : Prompts) (p : ℕ) : List (Option String) :=
  (s.resolved.filter fun r ↦ r.1 = p).map Prod.snd

def Delivery.message (d : Delivery) (p : ℕ) : PromptMessage :=
  .prompt d.type d.payload p d.deliveryEpoch

/-- The ways in which a prompt ends without a word to the client that shows it. -/
inductive Silent (s : Prompts) (p : ℕ) : Event → Option String → Prop
  | answer {clientId : String} {deliveryEpoch : Option ℕ} {value : Option String}
      (haccepts : s.accepts p clientId deliveryEpoch = true) :
      Silent s p (.respond p clientId deliveryEpoch value) value
  | timeout : Silent s p (.timeout p) none
  | clear {contextId : ContextId} (hindex : s.promptIndex.get p = some contextId) :
      Silent s p (.clearContext contextId false) none

/-- What an operation does to one prompt. -/
inductive Fate (e : Event) (p : ℕ) (s t : Prompts) : Prop
  | stays (hdelivery : t.delivery p = s.delivery p) (hmail : t.mail p = s.mail p)
      (hanswers : t.answers p = s.answers p)
  /-- The prompt is new, and sent to its client. -/
  | opens (d : Delivery) (hp : p = s.created) (hbefore : s.delivery p = none)
      (hafter : t.delivery p = some d) (hclient : d.clientId ∈ s.clients)
      (hmail : t.mail p = s.mail p ++ [(d.clientId, d.message p)])
      (hanswers : t.answers p = s.answers p)
  /-- The prompt is new, but could not be sent. -/
  | fails (hp : p = s.created) (hcreated : p < t.created) (hbefore : s.delivery p = none)
      (hafter : t.delivery p = none)
      (hmail : t.mail p = s.mail p) (hanswers : t.answers p = s.answers p ++ [none])
  /-- The prompt ends, and its client is told. -/
  | cancelled (d : Delivery) (hbefore : s.delivery p = some d) (hafter : t.delivery p = none)
      (hmail : t.mail p = s.mail p ++ [(d.clientId, .cancel p)])
      (hanswers : t.answers p = s.answers p ++ [none])
  | ends (d : Delivery) (value : Option String) (hsilent : s.Silent p e value)
      (hbefore : s.delivery p = some d) (hafter : t.delivery p = none) (hmail : t.mail p = s.mail p)
      (hanswers : t.answers p = s.answers p ++ [value])
  /-- The client of the prompt is gone, and another one gets it. -/
  | moves (d : Delivery) (new : String) (hevent : e = .removeClient d.clientId)
      (hbefore : s.delivery p = some d)
      (hafter : t.delivery p =
        some { d with clientId := new, deliveryEpoch := d.deliveryEpoch + 1 })
      (hne : new ≠ d.clientId) (hclient : new ∈ s.clients)
      (hmail : t.mail p = s.mail p ++ [(d.clientId, .cancel p),
        (new, .prompt d.type d.payload p (d.deliveryEpoch + 1))])
      (hanswers : t.answers p = s.answers p)

/-! ### Coherent registries -/

/-- The invariant of the registry. -/
structure Coherent (s : Prompts) : Prop extends s.Linked where
  opened : ∀ contextId context, s.promptContexts.get contextId = some context →
    context.closed = false
  /-- A context with prompts in flight routes to a registered client. -/
  routed : ∀ contextId context, s.promptContexts.get contextId = some context →
    context.prompts ≠ [] → context.routeClientId ∈ s.clients
  issued : ∀ p, s.promptIndex.get p ≠ none → p < s.created

theorem Linked.delivery_eq_none (h : s.Linked) (hp : s.promptIndex.get p = none) :
    s.delivery p = none := by
  rw [← h.inFlight, Option.map_eq_none_iff] at hp
  rw [delivery, hp, Option.bind_none]

theorem Linked.delivery_eq (h : s.Linked) (hp : s.promptIndex.get p = some contextId)
    (hc : s.promptContexts.get contextId = some context) :
    ∃ f, s.inFlight.get p = some f ∧ f.contextId = contextId ∧
      s.delivery p = some ⟨context.routeClientId, f.type, f.resendPayload, f.deliveryEpoch⟩ := by
  rw [← h.inFlight, Option.map_eq_some_iff] at hp
  obtain ⟨f, hf, rfl⟩ := hp
  exact ⟨f, hf, rfl, by rw [delivery, hf, Option.bind_some, hc, Option.map_some]⟩

/-! ## Single steps -/

/-- Nothing happens to a prompt. -/
structure Same (p : ℕ) (s t : Prompts) : Prop where
  delivery : t.delivery p = s.delivery p
  mail : t.mail p = s.mail p
  answers : t.answers p = s.answers p

variable {e : Event}

theorem Same.fate (h : Same p s t) : Fate e p s t := .stays h.delivery h.mail h.answers

theorem Fate.trans_same (h : Fate e p s t) (h' : Same p t u) (hle : t.created ≤ u.created) :
    Fate e p s u := by
  rcases h with ⟨hd, hm, ha⟩ | ⟨d, hp, hb, hd, hc, hm, ha⟩ | ⟨hp, hlt, hb, hd, hm, ha⟩ |
    ⟨d, hb, hd, hm, ha⟩ | ⟨d, v, hv, hb, hd, hm, ha⟩ | ⟨d, c, he, hb, hd, hne, hc, hm, ha⟩
  · exact .stays (h'.delivery.trans hd) (h'.mail.trans hm) (h'.answers.trans ha)
  · exact .opens d hp hb (h'.delivery.trans hd) hc (h'.mail.trans hm) (h'.answers.trans ha)
  · exact .fails hp (lt_of_lt_of_le hlt hle) hb (h'.delivery.trans hd) (h'.mail.trans hm)
      (h'.answers.trans ha)
  · exact .cancelled d hb (h'.delivery.trans hd) (h'.mail.trans hm) (h'.answers.trans ha)
  · exact .ends d v hv hb (h'.delivery.trans hd) (h'.mail.trans hm) (h'.answers.trans ha)
  · exact .moves d c he hb (h'.delivery.trans hd) hne hc (h'.mail.trans hm) (h'.answers.trans ha)

theorem Same.trans_fate (h : Same p s t) (hclients : t.clients = s.clients)
    (hcreated : t.created = s.created) (h' : Fate (.removeClient clientId) p t u) :
    Fate (.removeClient clientId) p s u := by
  rcases h' with ⟨hd, hm, ha⟩ | ⟨d, hp, hb, hd, hc, hm, ha⟩ | ⟨hp, hlt, hb, hd, hm, ha⟩ |
    ⟨d, hb, hd, hm, ha⟩ | ⟨d, v, hv, -⟩ | ⟨d, c, he, hb, hd, hne, hc, hm, ha⟩
  · exact .stays (hd.trans h.delivery) (hm.trans h.mail) (ha.trans h.answers)
  · exact .opens d (hcreated ▸ hp) (h.delivery ▸ hb) hd (hclients ▸ hc) (h.mail ▸ hm)
      (h.answers ▸ ha)
  · exact .fails (hcreated ▸ hp) hlt (h.delivery ▸ hb) hd (h.mail ▸ hm) (h.answers ▸ ha)
  · exact .cancelled d (h.delivery ▸ hb) hd (h.mail ▸ hm) (h.answers ▸ ha)
  · cases hv
  · exact .moves d c he (h.delivery ▸ hb) hd hne (hclients ▸ hc) (h.mail ▸ hm) (h.answers ▸ ha)

/-! ### Prompts that stay -/

theorem mail_append {ms : List (String × PromptMessage)} (h : t.sent = s.sent ++ ms) (p : ℕ) :
    t.mail p = s.mail p ++ ms.filter fun m ↦ m.2.promptId = p := by
  rw [mail, h, List.filter_append, mail]

theorem answers_append {rs : List (ℕ × Option String)} (h : t.resolved = s.resolved ++ rs) (p : ℕ) :
    t.answers p = s.answers p ++ (rs.filter fun r ↦ r.1 = p).map Prod.snd := by
  rw [answers, h, List.filter_append, List.map_append, answers]

/-- Routes may change where no prompt is in flight. -/
theorem same_of_routes (hinFlight : t.inFlight = s.inFlight) (hsent : t.sent = s.sent)
    (hresolved : t.resolved = s.resolved)
    (hroutes : ∀ f, s.inFlight.get p = some f →
      (t.promptContexts.get f.contextId).map PromptContext.routeClientId =
        (s.promptContexts.get f.contextId).map PromptContext.routeClientId) : Same p s t := by
  refine ⟨?_, by rw [mail, hsent, mail], by rw [answers, hresolved, answers]⟩
  rw [delivery, delivery, hinFlight]
  rcases hf : s.inFlight.get p with _ | f
  · rfl
  · have hroute := congrArg (Option.map fun r ↦
      (⟨r, f.type, f.resendPayload, f.deliveryEpoch⟩ : Delivery)) (hroutes f hf)
    rw [Option.map_map, Option.map_map] at hroute
    exact hroute

theorem Gone.same (hgone : Gone contextId s t) (hindex : s.promptIndex.get p ≠ some contextId)
    (h : s.Linked) (hmail : t.mail p = s.mail p) (hanswers : t.answers p = s.answers p) :
    Same p s t := by
  refine ⟨?_, hmail, hanswers⟩
  rw [delivery, delivery, hgone.inFlight, if_neg hindex]
  rcases hf : s.inFlight.get p with _ | f
  · rfl
  · have hf' : s.promptIndex.get p = some f.contextId := by rw [← h.inFlight, hf, Option.map_some]
    have hne : contextId ≠ f.contextId := fun heq ↦ hindex (heq ▸ hf')
    rw [Option.bind_some, Option.bind_some, hgone.contexts, if_neg hne]

theorem Coherent.gone (h : s.Coherent) (hgone : Gone contextId s t) : t.Coherent where
  toLinked := h.toLinked.gone hgone
  opened id c hc := by
    rw [hgone.contexts] at hc
    split at hc
    · cases hc
    · exact h.opened id c hc
  routed id c hc hne := by
    rw [hgone.contexts] at hc
    split at hc
    · cases hc
    · rw [hgone.clients]
      exact h.routed id c hc hne
  issued p hp := by
    rw [hgone.index] at hp
    rw [hgone.created]
    split at hp
    · exact absurd rfl hp
    · exact h.issued p hp

/-! ### Prompts that end -/

theorem promptId_cancellation (s : Prompts) (clientId : String) (cancel : Bool) (q : ℕ) :
    ∀ m ∈ s.cancellation clientId cancel q, m.2.promptId = q := by
  intro m hm
  rw [cancellation] at hm
  split at hm
  · obtain rfl := List.mem_singleton.mp hm
    rfl
  · cases hm

/-- What `clearContext` does to the prompts of its context, and to the others. -/
theorem clearContext_fate (h : s.Coherent) (contextId : ContextId) (cancel : Bool)
    (hsilent : cancel = false → ∀ q, s.promptIndex.get q = some contextId → s.Silent q e none) :
    (s.clearContext contextId cancel).Coherent ∧
      Gone contextId s (s.clearContext contextId cancel) ∧
      (∀ p, s.promptIndex.get p ≠ some contextId → Same p s (s.clearContext contextId cancel)) ∧
      ∀ p, s.promptIndex.get p = some contextId → Fate e p s (s.clearContext contextId cancel) := by
  rcases hc : s.promptContexts.get contextId with _ | context
  · have heq : s.clearContext contextId cancel = s := by rw [clearContext, hc]
    have hnone : ∀ p, s.promptIndex.get p ≠ some contextId := by
      intro p hp
      obtain ⟨c, hc', -⟩ := (h.index p contextId).mp hp
      rw [hc] at hc'
      cases hc'
    rw [heq]
    refine ⟨h, ⟨fun id ↦ ?_, fun p ↦ (if_neg (hnone p)).symm, fun p ↦ (if_neg (hnone p)).symm,
      fun p ↦ (if_neg (hnone p)).symm, rfl, rfl⟩, fun p _ ↦ ⟨rfl, rfl, rfl⟩,
      fun p hp ↦ absurd hp (hnone p)⟩
    by_cases hid : contextId = id
    · rw [if_pos hid, ← hid, hc]
    · rw [if_neg hid]
  · obtain ⟨hgone, hsent, hresolved⟩ :=
      clearContext_spec h.toLinked hc (h.opened _ _ hc) cancel
    have hps := h.distinct _ _ hc
    have hmail : ∀ p, (s.clearContext contextId cancel).mail p = s.mail p ++
        if p ∈ context.prompts then s.cancellation context.routeClientId cancel p else [] := by
      intro p
      rw [mail_append hsent, filter_flatMap_of_key (promptId_cancellation s _ cancel) hps]
    have hanswers : ∀ p, (s.clearContext contextId cancel).answers p = s.answers p ++
        if p ∈ context.prompts then [none] else [] := by
      intro p
      rw [answers_append hresolved, filter_flatMap_of_key (by simp) hps]
      split <;> rfl
    refine ⟨h.gone hgone, hgone, fun p hp ↦ ?_, fun p hp ↦ ?_⟩
    · have hout : p ∉ context.prompts := fun hmem ↦ hp ((h.mem_iff hc).mp hmem)
      refine hgone.same hp h.toLinked ?_ ?_
      · rw [hmail, if_neg hout, List.append_nil]
      · rw [hanswers, if_neg hout, List.append_nil]
    · have hin : p ∈ context.prompts := (h.mem_iff hc).mpr hp
      have hroute : context.routeClientId ∈ s.clients := h.routed _ _ hc (List.ne_nil_of_mem hin)
      obtain ⟨f, -, -, hbefore⟩ := h.toLinked.delivery_eq hp hc
      have hafter : (s.clearContext contextId cancel).delivery p = none := by
        refine (h.gone hgone).toLinked.delivery_eq_none ?_
        rw [hgone.index, if_pos hp]
      have hanswer := hanswers p
      have hmail' := hmail p
      rw [if_pos hin] at hanswer hmail'
      rcases hcancel : cancel with _ | _
      · rw [hcancel] at hmail' hafter hanswer
        rw [cancellation, if_neg (by simp), List.append_nil] at hmail'
        exact .ends _ none (hsilent hcancel p hp) hbefore hafter hmail' hanswer
      · rw [hcancel] at hmail' hafter hanswer
        rw [cancellation, if_pos ⟨rfl, hroute⟩] at hmail'
        exact .cancelled _ hbefore hafter hmail' hanswer

theorem Coherent.cleared (h : s.Coherent) (hcleared : Cleared ps s t) : t.Coherent where
  toLinked := h.toLinked.cleared hcleared
  opened id c hc := by
    rw [hcleared.contexts] at hc
    obtain ⟨c', hc', rfl⟩ := Option.map_eq_some_iff.mp hc
    exact h.opened id c' hc'
  routed id c hc hne := by
    rw [hcleared.contexts] at hc
    obtain ⟨c', hc', rfl⟩ := Option.map_eq_some_iff.mp hc
    rw [hcleared.clients]
    exact h.routed id c' hc' fun hnil ↦ hne (by simp [hnil])
  issued p hp := by
    rw [hcleared.index] at hp
    rw [hcleared.created]
    split at hp
    · exact absurd rfl hp
    · exact h.issued p hp

theorem Cleared.delivery_eq (hcleared : Cleared ps s t) (hp : p ∉ ps) :
    t.delivery p = s.delivery p := by
  rw [delivery, delivery, hcleared.inFlight, if_neg hp]
  congr 1
  funext f
  rw [hcleared.contexts, Option.map_map]
  rfl

theorem delivery_clearPrompt (h : s.Coherent) (p : ℕ) (value : Option String) :
    ((s.clearPrompt p).resolve p value).delivery p = none := by
  have hcleared := cleared_clearPrompt h.toLinked p
  refine (h.cleared hcleared).toLinked.delivery_eq_none ?_
  rw [hcleared.index, if_pos (List.mem_singleton_self p)]

/-- A prompt that is in flight ends with a value, and no client is told. -/
theorem clearPrompt_fate (h : s.Coherent) {value : Option String} (hsilent : s.Silent p e value)
    (hp : s.promptIndex.get p = some contextId) (q : ℕ) :
    Fate e q s ((s.clearPrompt p).resolve p value) := by
  have hcleared := cleared_clearPrompt h.toLinked p
  obtain ⟨-, -, -, -, -, hsent, hresolved⟩ := clearPrompt_fields s p
  have hmail : ((s.clearPrompt p).resolve p value).mail q = s.mail q := by
    rw [mail, resolve, hsent, mail]
  have hanswers := answers_append (s := s) (t := (s.clearPrompt p).resolve p value)
    (by rw [resolve, hresolved]) q
  by_cases hqp : q = p
  · subst hqp
    obtain ⟨c, hc, -⟩ := (h.index q contextId).mp hp
    obtain ⟨f, -, -, hbefore⟩ := h.toLinked.delivery_eq hp hc
    exact .ends _ value hsilent hbefore (delivery_clearPrompt h q value) hmail
      (by simpa using hanswers)
  · refine .stays ?_ hmail (by simpa [Ne.symm hqp] using hanswers)
    exact hcleared.delivery_eq (by simpa using hqp)

/-! ### Routes -/

/-- A context that was not there, or that has no prompts and whose route changes. -/
theorem Coherent.setEmpty (h : s.Coherent) (context' : PromptContext)
    (hindex : ∀ q, s.promptIndex.get q ≠ some contextId) (hps : context'.prompts = [])
    (hopen : context'.closed = false) :
    (s.setContext contextId context').Coherent ∧
    ∀ p, Same p s (s.setContext contextId context') := by
  have hget : ∀ id, (s.setContext contextId context').promptContexts.get id =
      if contextId = id then some context' else s.promptContexts.get id :=
    fun id ↦ OrderedMap.get_set _ _ _ _
  refine ⟨⟨⟨fun p id ↦ ?_, h.inFlight, h.pending, fun id c hc ↦ ?_⟩, fun id c hc ↦ ?_,
    fun id c hc hne ↦ ?_, h.issued⟩, fun p ↦ same_of_routes rfl rfl rfl fun f hf ↦ ?_⟩
  · rw [show (s.setContext contextId context').promptIndex = s.promptIndex from rfl, hget]
    by_cases hid : contextId = id
    · subst hid
      simp [hps, hindex p]
    · rw [if_neg hid, h.index]
  · rw [hget] at hc
    split at hc
    · cases hc
      rw [hps]
      exact List.nodup_nil
    · exact h.distinct id c hc
  · rw [hget] at hc
    split at hc
    · cases hc
      exact hopen
    · exact h.opened id c hc
  · rw [hget] at hc
    split at hc
    · cases hc
      exact absurd hps hne
    · exact h.routed id c hc hne
  · have hf' : s.promptIndex.get p = some f.contextId := by rw [← h.inFlight, hf, Option.map_some]
    rw [hget, if_neg fun heq : contextId = f.contextId ↦ hindex p (heq ▸ hf')]

theorem Coherent.index_ne (h : s.Coherent) (hc : s.promptContexts.get contextId = some context)
    (hroute : context.routeClientId ∉ s.clients) (q : ℕ) :
    s.promptIndex.get q ≠ some contextId := by
  intro hq
  exact hroute (h.routed _ _ hc (List.ne_nil_of_mem ((h.mem_iff hc).mpr hq)))

theorem mem_of_first {cs : List String} {c : String} (h : first cs = some c) : c ∈ cs :=
  (List.mem_insertionSort _).mp (List.mem_of_head? h)

theorem mem_of_pickReconnectRouteCandidate {hostId sessionId : String} {exclude : Option String}
    (h : s.pickReconnectRouteCandidate hostId sessionId exclude = some clientId) :
    clientId ∈ s.clients ∧ some clientId ≠ exclude := by
  obtain ⟨channel, -, hmem⟩ := List.mem_flatMap.mp (mem_of_first h)
  split at hmem
  · cases hmem
  · have hfilter := (List.mem_filter.mp hmem).2
    simp only [decide_eq_true_eq] at hfilter
    exact ⟨hfilter.2, hfilter.1⟩

/-- A candidate is registered, and not the client that is excluded. -/
theorem mem_of_pickRouteCandidate {exclude : String}
    (h : s.pickRouteCandidate contextId exclude = some clientId) :
    clientId ∈ s.clients ∧ clientId ≠ exclude := by
  rw [pickRouteCandidate.eq_def] at h
  split at h
  · cases h
  · split at h
    · cases h
    · split at h
      · split at h
        · cases h
        · obtain ⟨hmem, hne⟩ := mem_of_pickReconnectRouteCandidate h
          exact ⟨hmem, fun heq ↦ hne (congrArg some heq)⟩
      · obtain ⟨e, -, hmem⟩ := List.mem_flatMap.mp (mem_of_first h)
        obtain ⟨q, -, hmem⟩ := List.mem_flatMap.mp hmem
        obtain ⟨x, hx, rfl⟩ := List.mem_map.mp hmem
        have hfilter := (List.mem_filter.mp hx).2
        simp only [decide_eq_true_eq] at hfilter
        exact ⟨hfilter.2.2, hfilter.1⟩

/-! ### Prompts that are issued -/

theorem Coherent.fresh (h : s.Coherent) : s.promptIndex.get s.created = none := by
  by_contra hne
  exact Nat.lt_irrefl _ (h.issued _ hne)

theorem Coherent.store (h : s.Coherent) (hc : s.promptContexts.get contextId = some context)
    {route : String} (hroute : route ∈ s.clients) (type : PromptType) (payload : String) :
    (s.store contextId { context with routeClientId := route } type payload).Coherent := by
  have hfresh := h.fresh
  have hout : s.created ∉ context.prompts := fun hmem ↦ by
    rw [(h.mem_iff hc).mp hmem] at hfresh
    cases hfresh
  refine ⟨⟨fun p id ↦ ?_, fun p ↦ ?_, fun p ↦ ?_, fun id c hget ↦ ?_⟩, fun id c hget ↦ ?_,
    fun id c hget hne ↦ ?_, fun p hp ↦ ?_⟩
  · rw [Prompts.store, Prompts.setContext, OrderedMap.get_set, OrderedMap.get_set]
    by_cases hp : s.created = p
    · subst hp
      by_cases hid : contextId = id
      · simp [hid]
      · have hnone : ¬ ∃ c, s.promptContexts.get id = some c ∧ s.created ∈ c.prompts := by
          rw [← h.index, hfresh]
          simp
        simpa [hid] using hnone
    · rw [if_neg hp]
      by_cases hid : contextId = id
      · subst hid
        rw [h.index]
        simp [hc, Ne.symm hp]
      · rw [if_neg hid, h.index]
  · rw [Prompts.store, OrderedMap.get_set, OrderedMap.get_set]
    split
    · rfl
    · exact h.inFlight p
  · rw [Prompts.store, OrderedMap.get_set, OrderedMap.get_set]
    split
    · rfl
    · exact h.pending p
  · rw [Prompts.store, Prompts.setContext, OrderedMap.get_set] at hget
    split at hget
    · cases hget
      rw [List.nodup_append]
      refine ⟨h.distinct contextId context hc, List.nodup_singleton _, ?_⟩
      rintro q hq r hr rfl
      exact hout (List.mem_singleton.mp hr ▸ hq)
    · exact h.distinct id c hget
  · rw [Prompts.store, Prompts.setContext, OrderedMap.get_set] at hget
    split at hget
    · cases hget
      exact h.opened contextId context hc
    · exact h.opened id c hget
  · rw [Prompts.store, Prompts.setContext, OrderedMap.get_set] at hget
    split at hget
    · cases hget
      exact hroute
    · exact h.routed id c hget hne
  · rw [Prompts.store, OrderedMap.get_set] at hp
    split at hp
    · rename_i heq
      exact heq ▸ Nat.lt_succ_self _
    · exact Nat.lt_succ_of_lt (h.issued p hp)

/-- A new prompt leaves the others alone. The route of its context may change if there are none. -/
theorem same_store (h : s.Coherent) (hc : s.promptContexts.get contextId = some context)
    {route : String} (hkeep : context.prompts ≠ [] → route = context.routeClientId)
    (type : PromptType)
    (payload : String) (hp : p ≠ s.created) :
    Same p s (s.store contextId { context with routeClientId := route } type payload) := by
  refine ⟨?_, rfl, rfl⟩
  rw [delivery, delivery, Prompts.store, OrderedMap.get_set_of_ne _ _ (Ne.symm hp)]
  rcases hf : s.inFlight.get p with _ | f
  · rfl
  · rw [Option.bind_some, Option.bind_some, setContext, OrderedMap.get_set]
    by_cases hid : contextId = f.contextId
    · have hmem : p ∈ context.prompts := by
        rw [h.mem_iff hc, ← h.inFlight, hf, Option.map_some, hid]
      rw [if_pos hid, ← hid, hc, Option.map_some, Option.map_some, hkeep (List.ne_nil_of_mem hmem)]
    · rw [if_neg hid]

/-- The end of `prompt`, for a context whose route is registered. -/
theorem issue_fate (h : s.Coherent) (hc : s.promptContexts.get contextId = some context)
    {route : String} (hroute : route ∈ s.clients)
    (hkeep : context.prompts ≠ [] → route = context.routeClientId) (type : PromptType)
    (payload : String) (sendThrows : Bool) :
    (s.issue contextId { context with routeClientId := route } type payload sendThrows).Coherent ∧
      ∀ p, Fate e p s
        (s.issue contextId { context with routeClientId := route } type payload sendThrows) := by
  have hstore := h.store hc hroute type payload
  have hsame := fun p ↦ same_store (p := p) h hc hkeep type payload
  have hbefore : s.delivery s.created = none := h.toLinked.delivery_eq_none h.fresh
  set t := s.store contextId { context with routeClientId := route } type payload with ht
  rcases sendThrows with _ | _
  · have heq : s.issue contextId { context with routeClientId := route } type payload false =
        { t with sent := t.sent ++ [(route, .prompt type payload s.created 1)] } := by
      rw [issue]
      simp only [Bool.false_eq_true, if_false, send_eq]
      rw [if_pos (show route ∈ t.clients from hroute)]
    rw [heq]
    refine ⟨⟨⟨hstore.index, hstore.inFlight, hstore.pending, hstore.distinct⟩, hstore.opened,
      hstore.routed, hstore.issued⟩, fun p ↦ ?_⟩
    have hmail := mail_append (s := t) (t := { t with
      sent := t.sent ++ [(route, .prompt type payload s.created 1)] }) rfl p
    by_cases hp : p = s.created
    · subst hp
      refine .opens ⟨route, type, payload, 1⟩ rfl hbefore ?_ hroute ?_ rfl
      · simp [delivery, ht, Prompts.store, setContext]
      · rw [hmail]
        simp [PromptMessage.promptId, Delivery.message]
        rfl
    · refine Same.fate ⟨(hsame p hp).delivery, ?_, (hsame p hp).answers⟩
      rw [hmail, (hsame p hp).mail]
      simp [PromptMessage.promptId, Ne.symm hp]
  · have heq : s.issue contextId { context with routeClientId := route } type payload true =
        (t.clearPrompt s.created).resolve s.created none := rfl
    have hcleared := cleared_clearPrompt hstore.toLinked s.created
    obtain ⟨-, -, -, hcreated, -, hsent, hresolved⟩ := clearPrompt_fields t s.created
    rw [heq]
    have hcoherent := hstore.cleared hcleared
    refine ⟨⟨⟨hcoherent.index, hcoherent.inFlight, hcoherent.pending, hcoherent.distinct⟩,
      hcoherent.opened, hcoherent.routed, hcoherent.issued⟩, fun p ↦ ?_⟩
    have hmail : ((t.clearPrompt s.created).resolve s.created none).mail p = t.mail p := by
      rw [mail, resolve, hsent, mail]
    have hanswers := answers_append (s := t)
      (t := (t.clearPrompt s.created).resolve s.created none) (by rw [resolve, hresolved]) p
    by_cases hp : p = s.created
    · subst hp
      have hanswers' : ((t.clearPrompt s.created).resolve s.created none).answers s.created =
          s.answers s.created ++ [none] := by
        rw [hanswers, show t.answers s.created = s.answers s.created from rfl]
        simp
      have hlt : s.created < ((t.clearPrompt s.created).resolve s.created none).created := by
        rw [resolve, hcreated]
        exact Nat.lt_succ_self _
      refine .fails rfl hlt hbefore ?_ hmail hanswers'
      refine hcoherent.toLinked.delivery_eq_none ?_
      rw [hcleared.index, if_pos (List.mem_singleton_self _)]
    · refine Same.fate ⟨?_, hmail.trans (hsame p hp).mail, ?_⟩
      · exact (hcleared.delivery_eq (by simpa using hp)).trans (hsame p hp).delivery
      · rw [hanswers, (hsame p hp).answers]
        simp [Ne.symm hp]

/-! ### Numbers -/

/-- Ids are used once, what was sent stays sent, and no client is added. -/
structure Advances (s t : Prompts) : Prop where
  created : s.created ≤ t.created
  sent : s.sent <+: t.sent
  clients : t.clients ⊆ s.clients

theorem advances_of_eq (hcreated : t.created = s.created) (hsent : t.sent = s.sent)
    (hclients : t.clients = s.clients) : s.Advances t :=
  ⟨hcreated.ge, hsent ▸ List.prefix_refl _, hclients ▸ List.Subset.refl _⟩

theorem Advances.refl (s : Prompts) : s.Advances s := advances_of_eq rfl rfl rfl

theorem Advances.trans (h : s.Advances t) (h' : t.Advances u) : s.Advances u :=
  ⟨h.created.trans h'.created, h.sent.trans h'.sent, List.Subset.trans h'.clients h.clients⟩

theorem clearContext_advances (h : s.Coherent) (contextId : ContextId) (cancel : Bool) :
    s.Advances (s.clearContext contextId cancel) := by
  rcases hc : s.promptContexts.get contextId with _ | context
  · rw [clearContext, hc]
    exact .refl s
  · obtain ⟨hgone, hsent, -⟩ := clearContext_spec h.toLinked hc (h.opened _ _ hc) cancel
    exact ⟨hgone.created.ge, hsent ▸ List.prefix_append _ _, hgone.clients ▸ List.Subset.refl _⟩

/-! ## Clients that leave -/

theorem promptId_redelivery (s : Prompts) (old new : String) (q : ℕ) :
    ∀ m ∈ s.redelivery old new q, m.2.promptId = q := by
  intro m hm
  obtain ⟨f, -, hm⟩ := List.mem_flatMap.mp hm
  rcases List.mem_append.mp hm with hm | hm
  · split at hm
    · obtain rfl := List.mem_singleton.mp hm
      rfl
    · cases hm
  · split at hm
    · obtain rfl := List.mem_singleton.mp hm
      rfl
    · cases hm

/-- `retarget` moves the prompts of one context from a client that leaves to one that stays. -/
theorem retarget_fate (h : s.Coherent) (hc : s.promptContexts.get contextId = some context)
    (hkind : context.kind = .session) (hold : context.routeClientId = clientId) {new : String}
    (hnew : new ∈ s.clients) (hne : new ≠ clientId) :
    (s.retarget contextId new).Coherent ∧
      Redelivered context.prompts (s.setContext contextId { context with routeClientId := new })
        (s.retarget contextId new) ∧
      (∀ p, s.promptIndex.get p ≠ some contextId → Same p s (s.retarget contextId new)) ∧
      ∀ p, s.promptIndex.get p = some contextId →
        Fate (.removeClient clientId) p s (s.retarget contextId new) := by
  obtain ⟨hps, hsent⟩ := retarget_spec h.toLinked hc (h.opened _ _ hc) hkind new
  have hdistinct := h.distinct _ _ hc
  have hget : ∀ id, (s.retarget contextId new).promptContexts.get id =
      if contextId = id then some { context with routeClientId := new }
      else s.promptContexts.get id := by
    intro id
    rw [hps.contexts]
    exact OrderedMap.get_set _ _ _ _
  have hset : (s.setContext contextId { context with routeClientId := new }).Linked :=
    h.toLinked.setContext hc rfl
  have hlinked : (s.retarget contextId new).Linked := hset.redelivered hps
  have hmail : ∀ p, (s.retarget contextId new).mail p = s.mail p ++
      if p ∈ context.prompts then s.redelivery context.routeClientId new p else [] := by
    intro p
    rw [mail_append hsent, filter_flatMap_of_key (promptId_redelivery s _ new) hdistinct]
  have hanswers : ∀ p, (s.retarget contextId new).answers p = s.answers p := by
    intro p
    rw [answers, hps.resolved]
    rfl
  refine ⟨⟨hlinked, fun id c hget' ↦ ?_, fun id c hget' hne' ↦ ?_, fun p hp ↦ ?_⟩, hps,
    fun p hp ↦ ?_,
    fun p hp ↦ ?_⟩
  · rw [hget] at hget'
    split at hget'
    · cases hget'
      exact h.opened contextId context hc
    · exact h.opened id c hget'
  · rw [hget] at hget'
    rw [hps.clients]
    split at hget'
    · cases hget'
      exact hnew
    · exact h.routed id c hget' hne'
  · rw [hps.index] at hp
    rw [hps.created]
    exact h.issued p hp
  · have hout : p ∉ context.prompts := fun hmem ↦ hp ((h.mem_iff hc).mp hmem)
    refine ⟨?_, by rw [hmail, if_neg hout, List.append_nil], hanswers p⟩
    rw [delivery, delivery, hps.inFlight, if_neg hout]
    rcases hf : s.inFlight.get p with _ | f
    · rw [show (s.setContext contextId _).inFlight = s.inFlight from rfl, hf]
      rfl
    · have hf' : s.promptIndex.get p = some f.contextId := by rw [← h.inFlight, hf, Option.map_some]
      have hid : contextId ≠ f.contextId := fun heq ↦ hp (heq ▸ hf')
      rw [show (s.setContext contextId _).inFlight = s.inFlight from rfl, hf, Option.bind_some,
        Option.bind_some, hget, if_neg hid]
  · have hin : p ∈ context.prompts := (h.mem_iff hc).mpr hp
    have hroute : context.routeClientId ∈ s.clients := h.routed _ _ hc (List.ne_nil_of_mem hin)
    obtain ⟨f, hf, hid, hbefore⟩ := h.toLinked.delivery_eq hp hc
    subst hold
    refine .moves _ new rfl hbefore ?_ hne hnew ?_ (hanswers p)
    · rw [delivery, hps.inFlight, if_pos hin, show (s.setContext contextId _).inFlight = s.inFlight
        from rfl, hf, Option.map_some, Option.bind_some, hget,
        if_pos (show contextId = (InFlightPrompt.again f).contextId from hid.symm)]
      rfl
    · rw [hmail, if_pos hin, redelivery, hf, Option.toList_some, List.flatMap_singleton,
        if_pos ⟨Ne.symm hne, hroute⟩, if_pos hnew]
      rfl

/-! ### Contexts that move -/

/-- What one round of `clientDisconnect` does. -/
structure Rerouted (clientId : String) (contextId : ContextId) (s t : Prompts) : Prop where
  coherent : t.Coherent
  clients : t.clients = s.clients
  created : t.created = s.created
  advances : s.Advances t
  contexts : ∀ id, id ≠ contextId → t.promptContexts.get id = s.promptContexts.get id
  left : ∀ c, t.promptContexts.get contextId = some c → c.routeClientId ≠ clientId
  same : ∀ p, s.promptIndex.get p ≠ some contextId →
    Same p s t ∧ t.promptIndex.get p = s.promptIndex.get p
  fate : ∀ p, s.promptIndex.get p = some contextId → Fate (.removeClient clientId) p s t ∧
    ∀ id, t.promptIndex.get p = some id → id = contextId

theorem rerouted_of_clearContext (h : s.Coherent) :
    Rerouted clientId contextId s (s.clearContext contextId true) := by
  obtain ⟨hcoherent, hgone, hsame, hfate⟩ :=
    clearContext_fate (e := .removeClient clientId) h contextId true (by simp)
  refine ⟨hcoherent, hgone.clients, hgone.created, clearContext_advances h contextId true,
    fun id hid ↦ ?_, fun c hc ↦ ?_, fun p hp ↦ ?_, fun p hp ↦ ⟨hfate p hp, fun id hid ↦ ?_⟩⟩
  · rw [hgone.contexts, if_neg (Ne.symm hid)]
  · rw [hgone.contexts, if_pos rfl] at hc
    cases hc
  · exact ⟨hsame p hp, by rw [hgone.index, if_neg hp]⟩
  · rw [hgone.index, if_pos hp] at hid
    cases hid

theorem reroute_spec (h : s.Coherent) (clientId : String) (contextId : ContextId) :
    Rerouted clientId contextId s (reroute clientId s contextId) := by
  have hrefl (hleft : ∀ c, s.promptContexts.get contextId = some c → c.routeClientId ≠ clientId) :
      Rerouted clientId contextId s s :=
    ⟨h, rfl, rfl, .refl s, fun _ _ ↦ rfl, hleft, fun _ _ ↦ ⟨⟨rfl, rfl, rfl⟩, rfl⟩,
      fun _ hp ↦ ⟨.stays rfl rfl rfl, fun _ hid ↦ Option.some.inj (hid.symm.trans hp)⟩⟩
  rw [reroute]
  rcases hc : s.promptContexts.get contextId with _ | context
  · exact hrefl (by simp [hc])
  · simp only [h.opened _ _ hc, Bool.false_eq_true, false_or]
    by_cases hold : context.routeClientId = clientId
    · rw [if_neg (not_not_intro hold)]
      by_cases hkind : context.kind = .session
      · rw [if_neg (not_not_intro hkind)]
        split
        · rename_i new hpick
          obtain ⟨hnew, hne⟩ := mem_of_pickRouteCandidate hpick
          obtain ⟨hcoherent, hps, hsame, hfate⟩ := retarget_fate h hc hkind hold hnew hne
          have hsent := (retarget_spec h.toLinked hc (h.opened _ _ hc) hkind new).2
          refine ⟨hcoherent, hps.clients, hps.created,
            ⟨hps.created.ge, hsent ▸ List.prefix_append _ _, hps.clients ▸ List.Subset.refl _⟩,
            fun id hid ↦ ?_, fun c hget ↦ ?_,
            fun p hp ↦ ⟨hsame p hp, by rw [hps.index]; rfl⟩,
            fun p hp ↦ ⟨hfate p hp, fun id hid ↦ ?_⟩⟩
          · rw [hps.contexts]
            exact OrderedMap.get_set_of_ne _ _ (Ne.symm hid)
          · rw [hps.contexts, setContext, OrderedMap.get_set_self] at hget
            cases hget
            exact hne
          · rw [hps.index] at hid
            exact Option.some.inj (hid.symm.trans hp)
        · exact rerouted_of_clearContext h
      · rw [if_pos hkind]
        exact rerouted_of_clearContext h
    · rw [if_pos hold]
      refine hrefl fun c hc' ↦ ?_
      cases hc.symm.trans hc'
      exact hold

theorem foldl_reroute {ids : List ContextId} (hids : ids.Nodup) (h : s.Coherent)
    (clientId : String) :
    (ids.foldl (reroute clientId) s).Coherent ∧
      (ids.foldl (reroute clientId) s).clients = s.clients ∧
      (ids.foldl (reroute clientId) s).created = s.created ∧
      s.Advances (ids.foldl (reroute clientId) s) ∧
      (∀ id c, id ∈ ids → (ids.foldl (reroute clientId) s).promptContexts.get id = some c →
        c.routeClientId ≠ clientId) ∧
      (∀ id, id ∉ ids →
        (ids.foldl (reroute clientId) s).promptContexts.get id = s.promptContexts.get id) ∧
      (∀ p, (∀ id ∈ ids, s.promptIndex.get p ≠ some id) →
        Same p s (ids.foldl (reroute clientId) s)) ∧
      ∀ p, Fate (.removeClient clientId) p s (ids.foldl (reroute clientId) s) := by
  induction ids generalizing s with
  | nil =>
    exact ⟨h, rfl, rfl, .refl s, fun _ _ hid ↦ absurd hid List.not_mem_nil, fun _ _ ↦ rfl,
      fun _ _ ↦ ⟨rfl, rfl, rfl⟩, fun _ ↦ .stays rfl rfl rfl⟩
  | cons id ids ih =>
    rw [List.nodup_cons] at hids
    have hround := reroute_spec h clientId id
    obtain ⟨hcoherent, hclients, hcreated, hadvances, hleft, hother, hsame, hfate⟩ :=
      ih hids.2 hround.coherent
    rw [List.foldl_cons]
    refine ⟨hcoherent, hclients.trans hround.clients, hcreated.trans hround.created,
      hround.advances.trans hadvances, fun id' c hid' hc ↦ ?_, fun id' hid' ↦ ?_,
      fun p hp ↦ ?_, fun p ↦ ?_⟩
    · rcases List.mem_cons.mp hid' with rfl | hid'
      · rw [hother _ hids.1] at hc
        exact hround.left c hc
      · exact hleft id' c hid' hc
    · rw [List.mem_cons, not_or] at hid'
      exact (hother id' hid'.2).trans (hround.contexts id' hid'.1)
    · obtain ⟨hhead, hindex⟩ := hround.same p (hp id List.mem_cons_self)
      have htail := hsame p fun id' hid' ↦ by
        rw [hindex]
        exact hp id' (List.mem_cons_of_mem _ hid')
      exact ⟨htail.delivery.trans hhead.delivery, htail.mail.trans hhead.mail,
        htail.answers.trans hhead.answers⟩
    · by_cases hp : s.promptIndex.get p = some id
      · obtain ⟨hhead, hindex⟩ := hround.fate p hp
        refine hhead.trans_same (hsame p fun id' hid' heq ↦ hids.1 ?_) hcreated.ge
        exact hindex id' heq ▸ hid'
      · exact (hround.same p hp).1.trans_fate hround.clients hround.created (hfate p)

theorem mem_keys_of_get {id : ContextId} {c : PromptContext}
    (hc : s.promptContexts.get id = some c) :
    id ∈ s.promptContexts.keys :=
  List.mem_map.mpr ⟨(id, c), OrderedMap.get_eq_some_iff.mp hc, rfl⟩

section

variable (h : s.Coherent)
include h

theorem removeClient_fate (clientId : String) : (s.removeClient clientId).Coherent ∧
      ∀ p, Fate (.removeClient clientId) p s (s.removeClient clientId) := by
  obtain ⟨hcoherent, -, -, -, hleft, hother, -, hfate⟩ :=
    foldl_reroute s.promptContexts.nodup h clientId
  refine ⟨⟨⟨hcoherent.index, hcoherent.inFlight, hcoherent.pending, hcoherent.distinct⟩,
    hcoherent.opened, fun id c hc hne ↦ ?_, hcoherent.issued⟩,
    fun p ↦ (hfate p).trans_same ⟨rfl, rfl, rfl⟩ le_rfl⟩
  have hroute : c.routeClientId ≠ clientId := by
    by_cases hid : id ∈ s.promptContexts.keys
    · exact hleft id c hid hc
    · have hc' : s.promptContexts.get id = some c := (hother id hid).symm.trans hc
      exact absurd (mem_keys_of_get hc') hid
  exact List.mem_filter.mpr ⟨hcoherent.routed id c hc hne, by simpa using hroute⟩

/-! ## Every step -/

theorem Coherent.index_ne_of_none (hc : s.promptContexts.get contextId = none)
    (q : ℕ) :
    s.promptIndex.get q ≠ some contextId := by
  intro hq
  obtain ⟨c, hc', -⟩ := (h.index q contextId).mp hq
  rw [hc] at hc'
  cases hc'

/-- A context that was not there changes nothing for any prompt. -/
theorem openContext_same (hc : s.promptContexts.get contextId = none)
    (kind : ContextKind) (hostId routeClientId : String) :
    (s.openContext contextId kind hostId routeClientId).Coherent ∧
      ∀ p, Same p s (s.openContext contextId kind hostId routeClientId) :=
  h.setEmpty _ (h.index_ne_of_none hc) rfl rfl

theorem getOrOpen_fate (contextId : ContextId) (hostId clientId : String) :
    (s.getOrOpenSessionPromptContext contextId hostId clientId).Coherent ∧
      ∀ p, Fate e p s (s.getOrOpenSessionPromptContext contextId hostId clientId) := by
  have hrefl : s.Coherent ∧ ∀ p, Fate e p s s := ⟨h, fun p ↦ .stays rfl rfl rfl⟩
  have hopen (hc : s.promptContexts.get contextId = none) (routeClientId : String) :
      (s.openContext contextId .session hostId routeClientId).Coherent ∧
        ∀ p, Fate e p s (s.openContext contextId .session hostId routeClientId) :=
    ⟨(openContext_same h hc _ _ _).1, fun p ↦ ((openContext_same h hc _ _ _).2 p).fate⟩
  rw [getOrOpenSessionPromptContext.eq_def]
  rcases hc : s.promptContexts.get contextId with _ | context
  · rw [Option.filter_none]
    rcases contextId with id | sessionId
    · simp only
      split
      · exact hopen hc _
      · exact hrefl
    · simp only
      split
      · exact hrefl
      · split
        · exact hrefl
        · exact hopen hc _
  · rw [Option.filter_some, if_pos (by simp [h.opened _ _ hc])]
    simp only
    split
    · exact hrefl
    · rename_i hroute
      have hindex := h.index_ne hc hroute
      split
      · obtain ⟨hcoherent, -, hsame, -⟩ := clearContext_fate (e := e) h contextId false
          (fun _ q hq ↦ absurd hq (hindex q))
        exact ⟨hcoherent, fun p ↦ (hsame p (hindex p)).fate⟩
      · rename_i candidate hpick
        have hps : context.prompts = [] := by
          rw [List.eq_nil_iff_forall_not_mem]
          intro q hq
          exact hindex q ((h.mem_iff hc).mp hq)
        obtain ⟨hcoherent, hsame⟩ :=
          h.setEmpty { context with routeClientId := candidate } hindex hps
          (h.opened contextId context hc)
        exact ⟨hcoherent, fun p ↦ (hsame p).fate⟩

theorem prompt_fate (contextId : ContextId) (type : PromptType) (payload : String)
    (sendThrows : Bool) : (s.prompt contextId type payload sendThrows).Coherent ∧
      ∀ p, Fate e p s (s.prompt contextId type payload sendThrows) := by
  rw [Prompts.prompt]
  rcases hc : s.promptContexts.get contextId with _ | context
  · exact ⟨h, fun p ↦ .stays rfl rfl rfl⟩
  · simp only
    rw [if_neg (by simp [h.opened _ _ hc])]
    split
    · rename_i hroute
      exact issue_fate h hc hroute (fun _ ↦ rfl) type payload sendThrows
    · rename_i hroute
      have hindex := h.index_ne hc hroute
      split
      · obtain ⟨hcoherent, -, hsame, -⟩ := clearContext_fate (e := e) h contextId true (by simp)
        exact ⟨hcoherent, fun p ↦ (hsame p (hindex p)).fate⟩
      · rename_i candidate hpick
        refine issue_fate h hc (mem_of_pickRouteCandidate hpick).1 (fun hne ↦ absurd ?_ hroute) type
          payload sendThrows
        exact h.routed _ _ hc hne

/-- **Every step** keeps the invariant, and gives every prompt one of the fates. -/
theorem step_fate :
    Ensures (fun t ↦ t.Coherent ∧ ∀ p, Fate e p s t) (s.step e) := by
  cases e with
  | openContext contextId kind hostId routeClientId =>
    refine .of_ite fun hc ↦ ?_
    obtain ⟨hcoherent, hsame⟩ := openContext_same h hc kind hostId routeClientId
    exact ⟨hcoherent, fun p ↦ (hsame p).fate⟩
  | getOrOpen contextId hostId clientId =>
    exact .of_some (getOrOpen_fate h contextId hostId clientId)
  | prompt contextId type payload sendThrows =>
    exact .of_some (prompt_fate h contextId type payload sendThrows)
  | respond p clientId epoch value =>
    refine .of_some ?_
    rw [respond]
    split
    · rename_i haccepts
      have hindex : ∃ contextId, s.promptIndex.get p = some contextId := by
        rw [accepts] at haccepts
        split at haccepts
        · cases haccepts
        · exact ⟨_, ‹_›⟩
      obtain ⟨contextId, hindex⟩ := hindex
      have hcoherent := h.cleared (cleared_clearPrompt h.toLinked p)
      exact ⟨⟨⟨hcoherent.index, hcoherent.inFlight, hcoherent.pending, hcoherent.distinct⟩,
        hcoherent.opened, hcoherent.routed, hcoherent.issued⟩,
        clearPrompt_fate h (.answer haccepts) hindex⟩
    · exact ⟨h, fun q ↦ .stays rfl rfl rfl⟩
  | clearContext contextId cancel =>
    refine .of_some ?_
    obtain ⟨hcoherent, -, hsame, hfate⟩ :=
      clearContext_fate (e := .clearContext contextId cancel) h contextId cancel
        (fun hcancel q hq ↦ hcancel ▸ .clear hq)
    refine ⟨hcoherent, fun p ↦ ?_⟩
    by_cases hp : s.promptIndex.get p = some contextId
    · exact hfate p hp
    · exact (hsame p hp).fate
  | timeout p =>
    refine .of_ite fun hp ↦ ?_
    rw [h.isSome_inFlight] at hp
    obtain ⟨contextId, hindex⟩ := Option.isSome_iff_exists.mp hp
    have hcoherent := h.cleared (cleared_clearPrompt h.toLinked p)
    exact ⟨⟨⟨hcoherent.index, hcoherent.inFlight, hcoherent.pending, hcoherent.distinct⟩,
      hcoherent.opened, hcoherent.routed, hcoherent.issued⟩, clearPrompt_fate h .timeout hindex⟩
  | addClient clientId =>
    refine .of_some ?_
    exact ⟨⟨⟨h.index, h.inFlight, h.pending, h.distinct⟩, h.opened,
      fun id c hc hne ↦ List.mem_append_left _ (h.routed id c hc hne), h.issued⟩,
      fun p ↦ .stays rfl rfl rfl⟩
  | removeClient clientId => exact .of_some (removeClient_fate h clientId)
  | environment acquisitions channels =>
    refine .of_some ?_
    exact ⟨⟨⟨h.index, h.inFlight, h.pending, h.distinct⟩, h.opened, h.routed, h.issued⟩,
      fun p ↦ .stays rfl rfl rfl⟩

/-! ## Answers -/

/-- What `respond` checks: the answer comes from the client that the prompt was delivered to last,
and an epoch that it carries is the one of that delivery. -/
theorem accepts_iff {deliveryEpoch : Option ℕ} :
    s.accepts p clientId deliveryEpoch = true ↔
      ∃ d, s.delivery p = some d ∧ clientId = d.clientId ∧
        ∀ n ∈ deliveryEpoch, n = d.deliveryEpoch := by
  rcases hp : s.promptIndex.get p with _ | contextId
  · rw [accepts, hp, h.toLinked.delivery_eq_none hp]
    simp
  · obtain ⟨c, hc, -⟩ := (h.index p contextId).mp hp
    obtain ⟨f, hf, -, hdelivery⟩ := h.toLinked.delivery_eq hp hc
    rw [accepts, hp, hdelivery]
    simp only [hc, hf, h.opened _ _ hc]
    rcases deliveryEpoch with _ | n
    · simp
    · simp

end

theorem issue_advances (s : Prompts) (contextId : ContextId) (context : PromptContext)
    (type : PromptType) (payload : String) (sendThrows : Bool) :
    s.Advances (s.issue contextId context type payload sendThrows) := by
  rw [issue]
  split
  · obtain ⟨-, -, -, hcreated, hclients, hsent, -⟩ :=
      clearPrompt_fields (s.store contextId context type payload) s.created
    refine ⟨?_, ?_, ?_⟩
    · rw [resolve, hcreated]
      exact Nat.le_succ _
    · rw [resolve, hsent]
      exact List.prefix_refl _
    · rw [resolve, hclients]
      exact List.Subset.refl _
  · rw [send_eq]
    exact ⟨Nat.le_succ _, List.prefix_append _ _, List.Subset.refl _⟩

theorem clearPrompt_advances (s : Prompts) (p : ℕ) (value : Option String) :
    s.Advances ((s.clearPrompt p).resolve p value) := by
  obtain ⟨-, -, -, hcreated, hclients, hsent, -⟩ := clearPrompt_fields s p
  exact advances_of_eq hcreated hsent hclients

theorem step_advances (h : s.Coherent) (hadd : ∀ c, e ≠ .addClient c) :
    Ensures s.Advances (s.step e) := by
  cases e with
  | openContext contextId kind hostId routeClientId =>
    exact .of_ite fun _ ↦ advances_of_eq rfl rfl rfl
  | getOrOpen contextId hostId clientId =>
    refine .of_some ?_
    rw [getOrOpenSessionPromptContext.eq_def]
    split
    · split
      · exact .refl s
      · split
        · exact clearContext_advances h contextId false
        · exact advances_of_eq rfl rfl rfl
    · split
      · split
        · exact .refl s
        · split <;> exact advances_of_eq rfl rfl rfl
      · split <;> exact advances_of_eq rfl rfl rfl
  | prompt contextId type payload sendThrows =>
    refine .of_some ?_
    rw [Prompts.prompt]
    split
    · exact .refl s
    · split
      · exact .refl s
      · split
        · exact issue_advances s _ _ _ _ _
        · split
          · exact clearContext_advances h contextId true
          · exact issue_advances s _ _ _ _ _
  | respond p clientId epoch value =>
    refine .of_some ?_
    rw [respond]
    split
    · exact clearPrompt_advances s p value
    · exact .refl s
  | clearContext contextId cancel => exact .of_some (clearContext_advances h contextId cancel)
  | timeout p =>
    exact .of_ite fun _ ↦ clearPrompt_advances s p none
  | addClient clientId => exact absurd rfl (hadd clientId)
  | removeClient clientId =>
    refine .of_some ?_
    obtain ⟨-, -, -, hadvances, -⟩ := foldl_reroute s.promptContexts.nodup h clientId
    exact ⟨hadvances.created, hadvances.sent,
      fun c hc ↦ hadvances.clients (List.mem_filter.mp hc).1⟩
  | environment acquisitions channels => exact .of_some (advances_of_eq rfl rfl rfl)

theorem created_le_step (h : s.Coherent) (hstep : s.step e = some t) : s.created ≤ t.created := by
  by_cases hadd : ∃ c, e = .addClient c
  · obtain ⟨c, rfl⟩ := hadd
    cases hstep
    exact le_rfl
  · exact (step_advances h (fun c heq ↦ hadd ⟨c, heq⟩) hstep).created

/-! ### Mail that is sent once -/

/-- No promise was resolved twice, and none of a prompt that is in flight or still to come. -/
def Once (s : Prompts) : Prop :=
  ∀ p, (s.answers p).length ≤ 1 ∧ (s.answers p ≠ [] → s.delivery p = none ∧ p < s.created)

theorem Coherent.lt_of_delivery (h : s.Coherent) {d : Delivery} (hd : s.delivery p = some d) :
    p < s.created := by
  apply h.issued
  intro hp
  rw [h.toLinked.delivery_eq_none hp] at hd
  cases hd

/-- A prompt in flight was delivered to a registered client. -/
theorem Coherent.mem_clients (h : s.Coherent) {d : Delivery} (hd : s.delivery p = some d) :
    d.clientId ∈ s.clients := by
  rcases hp : s.promptIndex.get p with _ | contextId
  · rw [h.toLinked.delivery_eq_none hp] at hd
    cases hd
  · obtain ⟨c, hc, hmem⟩ := (h.index p contextId).mp hp
    obtain ⟨f, -, -, hdelivery⟩ := h.toLinked.delivery_eq hp hc
    cases hdelivery.symm.trans hd
    exact h.routed contextId c hc (List.ne_nil_of_mem hmem)

theorem step_once (h : s.Coherent) (honce : s.Once) (hstep : s.step e = some t) : t.Once := by
  intro p
  obtain ⟨hlen, hanswered⟩ := honce p
  have hle := created_le_step h hstep
  -- Nothing was answered where the prompt is in flight, or is issued in this step.
  have hnil (hnot : ¬ (s.delivery p = none ∧ p < s.created)) : s.answers p = [] := by
    by_contra hne
    exact hnot (hanswered hne)
  rcases (step_fate h hstep).2 p with ⟨hd, -, ha⟩ | ⟨d, hp, -, -, -, -, ha⟩ |
    ⟨hp, hlt, -, hd, -, ha⟩ |
    ⟨d, hb, hd, -, ha⟩ | ⟨d, v, -, hb, hd, -, ha⟩ | ⟨d, c, -, hb, -, -, -, -, ha⟩
  · rw [ha, hd]
    exact ⟨hlen, fun hne ↦ ⟨(hanswered hne).1, lt_of_lt_of_le (hanswered hne).2 hle⟩⟩
  · rw [ha, hnil (by simp [hp])]
    simp
  · rw [ha, hnil (by simp [hp])]
    exact ⟨le_rfl, fun _ ↦ ⟨hd, hlt⟩⟩
  · rw [ha, hnil (by simp [hb])]
    exact ⟨le_rfl, fun _ ↦ ⟨hd, lt_of_lt_of_le (h.lt_of_delivery hb) hle⟩⟩
  · rw [ha, hnil (by simp [hb])]
    exact ⟨le_rfl, fun _ ↦ ⟨hd, lt_of_lt_of_le (h.lt_of_delivery hb) hle⟩⟩
  · rw [ha, hnil (by simp [hb])]
    simp

/-! ### How a promise is resolved -/

/-- How the promise of a prompt is resolved in a step: by an answer from the client that the prompt
was delivered to last, for the epoch of that delivery if it names one, or else with null. -/
inductive Resolution (s : Prompts) (p : ℕ) (e : Event) : Option String → Prop
  | answer {clientId : String} {deliveryEpoch : Option ℕ} {value : Option String} (d : Delivery)
      (hdelivery : s.delivery p = some d) (hroute : clientId = d.clientId)
      (hepoch : ∀ n ∈ deliveryEpoch, n = d.deliveryEpoch)
      (hevent : e = .respond p clientId deliveryEpoch value) : Resolution s p e value
  | null (hevent : ∀ q clientId deliveryEpoch value, e ≠ .respond q clientId deliveryEpoch value) :
      Resolution s p e none

theorem step_resolution (h : s.Coherent) (hstep : s.step e = some t) (p : ℕ) :
    t.answers p =
      s.answers p ∨ ∃ value, s.Resolution p e value ∧ t.answers p = s.answers p ++ [value] := by
  by_cases hrespond : ∃ q c n v, e = .respond q c n v
  · obtain ⟨q, c, n, v, rfl⟩ := hrespond
    cases hstep
    rw [respond]
    split
    · rename_i haccepts
      obtain ⟨d, hd, hroute, hepoch⟩ := (accepts_iff h).mp haccepts
      have hanswers := answers_append (s := s) (t := (s.clearPrompt q).resolve q v)
        (by rw [resolve, (clearPrompt_fields s q).2.2.2.2.2.2]) p
      by_cases hqp : q = p
      · subst hqp
        exact .inr ⟨v, .answer d hd hroute hepoch rfl, by simpa using hanswers⟩
      · exact .inl (by simpa [hqp] using hanswers)
    · exact .inl rfl
  · have hnull : s.Resolution p e none :=
      .null fun q c n v heq ↦ hrespond ⟨q, c, n, v, heq⟩
    rcases (step_fate h hstep).2 p with ⟨-, -, ha⟩ | ⟨d, -, -, -, -, -, ha⟩ | ⟨-, -, -, -, -, ha⟩ |
      ⟨d, -, -, -, ha⟩ | ⟨d, v, hv, -, -, -, ha⟩ | ⟨d, c, -, -, -, -, -, -, ha⟩
    · exact .inl ha
    · exact .inl ha
    · exact .inr ⟨none, hnull, ha⟩
    · exact .inr ⟨none, hnull, ha⟩
    · rcases hv with _ | _ | _
      · exact absurd ⟨_, _, _, _, rfl⟩ hrespond
      · exact .inr ⟨none, hnull, ha⟩
      · exact .inr ⟨none, hnull, ha⟩
    · exact .inl ha

/-! ### Whole runs -/

theorem coherent_empty : empty.Coherent where
  index p contextId := by simp [empty]
  inFlight p := rfl
  pending p := rfl
  distinct contextId context hc := by cases hc
  opened contextId context hc := by cases hc
  routed contextId context hc := by cases hc
  issued p hp := absurd rfl hp

theorem run_coherent {es : List Event} (hrun : run step empty es = some s) :
    s.Coherent ∧ s.Once := by
  refine run_invariant (fun s ↦ s.Coherent ∧ s.Once) ?_ ⟨coherent_empty, fun p ↦ ?_⟩ hrun
  · rintro s e t ⟨h, honce⟩ hstep
    exact ⟨(step_fate h hstep).1, step_once h honce hstep⟩
  · exact ⟨Nat.zero_le _, fun hne ↦ absurd rfl hne⟩

/-- **The registry is coherent** after every sequence of operations: `promptIndex`,
`pendingPrompts`, the in-flight table and the sets of the contexts hold the same ids, a prompt in
flight belongs to an OPEN context that routes to a registered client, and no promise was resolved
twice. The next step resolves a promise with the answer of the client that is its route at that
moment, for the latest delivery, or with null. -/
theorem prompts_coherent {es : List Event} (hrun : run step empty es = some s) :
    (∀ p, (s.promptIndex.get p).isSome = (s.pendingPrompts.get p).isSome ∧
      (s.promptIndex.get p).isSome = (s.inFlight.get p).isSome ∧
      ((s.promptIndex.get p).isSome ↔
        ∃ id c, s.promptContexts.get id = some c ∧ p ∈ c.prompts)) ∧
    (∀ p f, s.inFlight.get p = some f → ∃ c, s.promptContexts.get f.contextId = some c ∧
      p ∈ c.prompts ∧ c.closed = false) ∧
    (∀ id c, s.promptContexts.get id = some c → c.prompts ≠ [] → c.routeClientId ∈ s.clients) ∧
    (∀ p, (s.answers p).length ≤ 1) ∧
    ∀ e t, s.step e = some t → ∀ p, t.answers p = s.answers p ∨
      ∃ value, s.Resolution p e value ∧ t.answers p = s.answers p ++ [value] := by
  obtain ⟨h, honce⟩ := run_coherent hrun
  refine ⟨fun p ↦ ⟨?_, ?_, ?_⟩, fun p f hf ↦ ?_, h.routed, fun p ↦ (honce p).1,
    fun e t hstep p ↦ step_resolution h hstep p⟩
  · rw [← h.pending, Option.isSome_map]
  · rw [h.isSome_inFlight]
  · rw [Option.isSome_iff_exists]
    simp only [h.index]
  · have hindex : s.promptIndex.get p =
        some f.contextId := by rw [← h.inFlight, hf, Option.map_some]
    obtain ⟨c, hc, hmem⟩ := (h.index p f.contextId).mp hindex
    exact ⟨c, hc, hmem, h.opened _ _ hc⟩

/-- Two clients hold leases on the acquisition of a host, and the first of them is asked for a
passphrase and leaves. -/
def handover : List Event :=
  [.environment ((Acquisitions.empty.acquire "web" "a").join 0 "b").1 [], .addClient "a",
    .addClient "b", .getOrOpen (.owned "acq") "web" "a",
    .prompt (.owned "acq") .passphrase "Passphrase?" false, .removeClient "a"]

/-- The prompt moves to the second client, whose answer to the second delivery is the one that
counts. -/
theorem prompts_coherent_handover :
    ∃ s t, run step empty handover = some s ∧
      s.step (.respond 0 "b" (some 2) (some "pw")) = some t ∧
      t.answers 0 = [some "pw"] ∧ (t.answers 0 = s.answers 0 ∨
        ∃ value, s.Resolution 0 (.respond 0 "b" (some 2) (some "pw")) value ∧
          t.answers 0 = s.answers 0 ++ [value]) := by
  refine ⟨_, _, rfl, rfl, rfl, ?_⟩
  have hrun : run step empty handover = some _ := rfl
  exact (prompts_coherent hrun).2.2.2.2 (.respond 0 "b" (some 2) (some "pw")) _ rfl 0

end Prompts

end Lasterm.Hub
