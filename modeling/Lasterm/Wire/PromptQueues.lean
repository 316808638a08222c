import Lasterm.Hub.Prompts
import Lasterm.Web.PromptQueue

/-!
# Prompts between the hub and the pages

The registry of the hub and the stores of any number of pages, with the messages that are on their
way. A page is one browser page: it connects again under a new client id, and keeps its stores.

For a connected page, a prompt of the hub is in one of five states (`Agrees`): not for this page, on
its way, shown, answered, or ended at the hub with the PROMPT_CANCEL on its way. Every step moves
each prompt between these states as long as it is `Careful`, and then the dialogs of a page to which
nothing is on its way are the prompts that are open for it (`shows_of_careful`).

What a careful step excludes is what the two sides do not agree upon: prompts that the hub ends
without a PROMPT_CANCEL (the timer, and `clearContext` without a `send`), stores that survive a
reconnect, the dismissal of an `agent-verify` dialog, and secrets that the hub refuses.
-/

namespace Lasterm.Wire

open Runs Lasterm.Hub Lasterm.Web

/-- `String.prototype.length`. -/
def utf16Length (s : String) : ℕ :=
  s.toList.foldl (fun n c ↦ if c.toNat < 0x10000 then n + 1 else n + 2) 0

/-- What the handlers of the hub check of an answer before they look for its prompt. -/
def valid (a : PromptAnswer) : Bool :=
  match a.store with
  | .auth => a.value.all fun secret ↦ utf16Length secret ≤ 4096
  | .hostVerify | .agentVerify =>
    a.value ∈ [some "trust_permanent", some "trust_once", some "reject"]

structure PromptPage where
  /-- The client id of its connection, while it has one. -/
  clientId : Option String
  stores : PromptStores
  /-- Messages from the hub, the oldest first. -/
  down : List PromptMessage
  /-- Answers to the hub, the oldest first. -/
  up : List PromptAnswer

namespace PromptPage

def fresh : PromptPage := ⟨none, .empty, [], []⟩

/-- What the hub sends reaches the page if it goes to the client id of its connection. -/
def push (sent : List (String × PromptMessage)) (page : PromptPage) : PromptPage :=
  match page.clientId with
  | none => page
  | some c => { page with down := page.down ++ (sent.filter fun m ↦ m.1 = c).map Prod.snd }

def downFor (page : PromptPage) (p : ℕ) : List PromptMessage :=
  page.down.filter fun m ↦ m.promptId = p

def upFor (page : PromptPage) (p : ℕ) : List PromptAnswer := page.up.filter fun a ↦ a.promptId = p

end PromptPage

structure PromptQueues where
  hub : Prompts
  pages : List PromptPage
  /-- The client ids that were given out. -/
  used : List String

namespace PromptQueues

inductive Event
  | openPage
  | connect (i : ℕ) (clientId : String)
  /-- The connection of a page breaks, and what is on its way is lost. -/
  | drop (i : ℕ)
  /-- The hub notices that a connection is gone. -/
  | noticed (clientId : String)
  /-- An operation of the registry that no client asks for. -/
  | hub (e : Prompts.Event)
  | deliver (i : ℕ)
  | receive (i : ℕ)
  | act (i : ℕ) (action : PromptStores.UserAction)

def empty : PromptQueues := ⟨.empty, [], []⟩

/-- The operations of the registry that are not the arrival of an answer or the coming and going of
clients. -/
def internal : Prompts.Event → Bool
  | .respond .. | .addClient _ | .removeClient _ => false
  | _ => true

/-- An operation of the registry, with the messages that it sends. -/
def advance (s : PromptQueues) (e : Prompts.Event) : Option PromptQueues :=
  (s.hub.step e).map fun hub ↦
    { s with hub := hub, pages := s.pages.map (.push (hub.sent.drop s.hub.sent.length)) }

def setPage (s : PromptQueues) (i : ℕ) (page : PromptPage) : PromptQueues :=
  { s with pages := s.pages.set i page }

def step (s : PromptQueues) : Event → Option PromptQueues
  | .openPage => some { s with pages := s.pages ++ [.fresh] }
  | .connect i clientId =>
    match s.pages[i]? with
    | some page =>
      if page.clientId = none ∧ clientId ∉ s.used then
        some { s.setPage i { page with clientId := some clientId, down := [], up := [] } with
          hub := s.hub.addClient clientId, used := clientId :: s.used }
      else none
    | none => none
  | .drop i =>
    s.pages[i]?.map fun page ↦ s.setPage i { page with clientId := none, down := [], up := [] }
  | .noticed clientId =>
    if ∀ page ∈ s.pages, page.clientId ≠ some clientId then s.advance (.removeClient clientId)
      else none
  | .hub e => if internal e then s.advance e else none
  | .deliver i =>
    match s.pages[i]? with
    | some page =>
      match page.down with
      | [] => none
      | m :: rest => some (s.setPage i { page with stores := page.stores.handle m, down := rest })
    | none => none
  | .receive i =>
    match s.pages[i]? with
    | some page =>
      match page.clientId, page.up with
      | some c, a :: rest =>
        let t := s.setPage i { page with up := rest }
        if valid a then t.advance (.respond a.promptId c a.deliveryEpoch a.value) else some t
      | _, _ => none
    | none => none
  | .act i action =>
    s.pages[i]?.map fun page ↦
      let result := page.stores.act page.clientId.isSome action
      s.setPage i { page with stores := result.1, up := page.up ++ result.2.toList }

/-! ## Careful steps -/

/-- The operation ends the prompt, and sends no PROMPT_CANCEL for it. -/
def EndsSilently (hub : Prompts) (e : Prompts.Event) (p : ℕ) : Prop :=
  e = .timeout p ∨ ∃ contextId, e = .clearContext contextId false ∧
    hub.promptIndex.get p = some contextId

/-- The hub gets an answer that it does not refuse unseen. -/
def reaches : PromptStores.UserAction → Bool
  | .respond (some secret) _ => utf16Length secret ≤ 4096
  | .dismiss .agentVerify _ => false
  | .respond none _ | .verifyHost _ _ | .verifyAgent _ _ | .dismiss .auth _
  | .dismiss .hostVerify _ => true

/-- The condition on a step. A page connects with empty stores. A prompt only ends without a
PROMPT_CANCEL when its answer is on its way. While its prompt is open, a dialog is answered, not
just dismissed, and with no more than the hub takes. -/
def Careful (s : PromptQueues) (e : Event) (_ : PromptQueues) : Prop :=
  match e with
  | .connect i _ => ∀ page ∈ s.pages[i]?, ∀ k, page.stores k = []
  | .hub e => ∀ p d, EndsSilently s.hub e p → s.hub.delivery p = some d →
      ∀ page ∈ s.pages, page.clientId = some d.clientId → ∃ a ∈ page.up, a.promptId = p
  | .act i action => ∀ page ∈ s.pages[i]?, page.clientId ≠ none →
      ∀ e ∈ headPrompt (page.stores action.store) action.promptId,
        s.hub.delivery e.promptId ≠ none → reaches action = true
  | .openPage | .drop _ | .noticed _ | .deliver _ | .receive _ => True

/-! ## The states of a prompt -/

/-- How a connected page with client id `c` stands to a prompt of the hub. -/
inductive Agrees (hub : Prompts) (page : PromptPage) (c : String) (p : ℕ) : Prop
  /-- The prompt is not for this page. Answers are only on their way if it has ended. -/
  | away (hroute : ∀ d, hub.delivery p = some d → d.clientId ≠ c)
      (hstores : page.stores.entries p = .empty) (hdown : page.downFor p = [])
      (hup : page.upFor p ≠ [] → hub.delivery p = none ∧ p < hub.created)
  | coming (d : Prompts.Delivery) (hdelivery : hub.delivery p = some d) (hclient : d.clientId = c)
      (hstores : page.stores.entries p = .empty) (hdown : page.downFor p = [d.message p])
      (hup : page.upFor p = [])
  | shown (d : Prompts.Delivery) (hdelivery : hub.delivery p = some d) (hclient : d.clientId = c)
      (hstores : page.stores.entries p =
        .single (store d.type) ((store d.type).entry p d.deliveryEpoch))
      (hdown : page.downFor p = []) (hup : page.upFor p = [])
  | answered (d : Prompts.Delivery) (hdelivery : hub.delivery p = some d) (hclient : d.clientId = c)
      (hstores : page.stores.entries p = .empty) (hdown : page.downFor p = []) (a : PromptAnswer)
      (hup : page.upFor p = [a]) (hvalid : valid a = true)
      (hepoch : ∀ n ∈ a.deliveryEpoch, n = d.deliveryEpoch)
  /-- The prompt has ended, and the last message about it is the PROMPT_CANCEL. -/
  | ended (hdelivery : hub.delivery p = none) (hissued : p < hub.created) (ms : List PromptMessage)
      (hdown : page.downFor p = ms ++ [.cancel p])

variable {hub hub' : Prompts} {page page' : PromptPage} {c : String} {p : ℕ} {e : Prompts.Event}

theorem Agrees.congr (h : Agrees hub page c p) (hdelivery : hub'.delivery p = hub.delivery p)
    (hcreated : hub.created ≤ hub'.created)
    (hstores : page'.stores.entries p = page.stores.entries p)
    (hdown : page'.downFor p = page.downFor p) (hup : page'.upFor p = page.upFor p) :
    Agrees hub' page' c p := by
  rcases h with ⟨hr, hs, hd, hu⟩ | ⟨d, hde, hc, hs, hd, hu⟩ | ⟨d, hde, hc, hs, hd, hu⟩ |
    ⟨d, hde, hc, hs, hd, a, hu, hv, he⟩ | ⟨hde, hlt, ms, hd⟩
  · refine .away (fun d hd' ↦ hr d (hdelivery ▸ hd')) (hstores.trans hs)
      (hdown.trans hd) fun hne ↦ ?_
    obtain ⟨hnone, hlt⟩ := hu (hup ▸ hne)
    exact ⟨hdelivery.trans hnone, lt_of_lt_of_le hlt hcreated⟩
  · exact .coming d (hdelivery.trans hde) hc (hstores.trans hs) (hdown.trans hd) (hup.trans hu)
  · exact .shown d (hdelivery.trans hde) hc (hstores.trans hs) (hdown.trans hd) (hup.trans hu)
  · exact .answered d (hdelivery.trans hde) hc (hstores.trans hs) (hdown.trans hd) a
      (hup.trans hu) hv he
  · exact .ended (hdelivery.trans hde) (lt_of_lt_of_le hlt hcreated) ms (hdown.trans hd)

/-- A prompt that is in flight for another client, or for none, is away or has ended. -/
theorem Agrees.away_of_ne (h : Agrees hub page c p) {d : Prompts.Delivery}
    (hd : hub.delivery p = some d) (hne : d.clientId ≠ c) :
    page.stores.entries p = .empty ∧ page.downFor p = [] ∧ page.upFor p = [] := by
  rcases h with ⟨-, hs, hdown, hu⟩ | ⟨d', hd', hc, -⟩ | ⟨d', hd', hc, -⟩ | ⟨d', hd', hc, -⟩ |
    ⟨hd', -⟩
  · refine ⟨hs, hdown, ?_⟩
    by_contra hup
    rw [(hu hup).1] at hd
    cases hd
  · cases hd.symm.trans hd'
    exact absurd hc hne
  · cases hd.symm.trans hd'
    exact absurd hc hne
  · cases hd.symm.trans hd'
    exact absurd hc hne
  · rw [hd'] at hd
    cases hd

/-- A prompt that is still to be issued is unknown to the page. -/
theorem Agrees.away_of_created (h : Agrees hub page c p) (hd : hub.delivery p = none)
    (hp : p = hub.created) :
    page.stores.entries p = .empty ∧ page.downFor p = [] ∧ page.upFor p = [] := by
  rcases h with ⟨-, hs, hdown, hu⟩ | ⟨d', hd', -⟩ | ⟨d', hd', -⟩ | ⟨d', hd', -⟩ | ⟨-, hlt, -⟩
  · refine ⟨hs, hdown, ?_⟩
    by_contra hup
    exact absurd (hu hup).2 (by omega)
  · rw [hd] at hd'
    cases hd'
  · rw [hd] at hd'
    cases hd'
  · rw [hd] at hd'
    cases hd'
  · omega

theorem downFor_push (sent : List (String × PromptMessage)) (hc : page.clientId = some c) (p : ℕ) :
    (page.push sent).downFor p =
      page.downFor p ++
        ((sent.filter fun m ↦ m.2.promptId = p).filter fun m ↦ m.1 = c).map Prod.snd := by
  rw [PromptPage.push, hc, PromptPage.downFor, List.filter_append, List.filter_map,
    List.filter_filter,
    List.filter_filter, PromptPage.downFor]
  simp only [Function.comp_def, Bool.and_comm]

/-- **An operation of the registry**, with the messages that it sends, moves every prompt between
the states, for a page whose client stays, if no prompt ends silently unless it was answered. -/
theorem Agrees.hub_step (h : Agrees hub page c p) (hcoherent : hub.Coherent)
    (hstep : hub.step e = some hub') (hc : page.clientId = some c) (hstays : e ≠ .removeClient c)
    (hadd : ∀ c, e ≠ .addClient c)
    (hquiet : ∀ d value, hub.delivery p = some d → d.clientId = c → hub.Silent p e value →
      page.upFor p ≠ []) :
    Agrees hub' (page.push (hub'.sent.drop hub.sent.length)) c p := by
  obtain ⟨hcreated, hsent, -⟩ := Prompts.step_advances hcoherent hadd hstep
  obtain ⟨news, hnews⟩ := hsent
  have hdrop : hub'.sent.drop hub.sent.length = news := by rw [← hnews, List.drop_left]
  have hmail := Prompts.mail_append hnews.symm p
  have hdown := downFor_push news hc p
  have hstores : (page.push news).stores = page.stores := by rw [PromptPage.push, hc]
  have hup : (page.push news).upFor p = page.upFor p := by rw [PromptPage.push, hc]; rfl
  rw [hdrop]
  rcases (Prompts.step_fate hcoherent hstep).2 p with ⟨hd, hm, -⟩ | ⟨d, hp, hb, hd, -, hm, -⟩ |
    ⟨hp, hlt, hb, hd, hm, -⟩ | ⟨d, hb, hd, hm, -⟩ | ⟨d, v, hv, hb, hd, hm, -⟩ |
    ⟨d, new, he, hb, hd, hne, -, hm, -⟩
  · rw [hm, List.self_eq_append_right] at hmail
    rw [hmail, List.filter_nil, List.map_nil, List.append_nil] at hdown
    exact h.congr hd hcreated (by rw [hstores]) hdown hup
  · -- A new prompt.
    obtain ⟨hs, hd', hu⟩ := h.away_of_created hb hp
    rw [hm, List.append_cancel_left_eq] at hmail
    rw [← hmail, hd', List.nil_append] at hdown
    by_cases hroute : d.clientId = c
    · refine .coming d hd hroute (by rw [hstores, hs]) ?_ (hup.trans hu)
      simpa [hroute] using hdown
    · refine .away (fun d' hd' ↦ ?_) (by rw [hstores, hs]) ?_ fun hne ↦ absurd (hup.trans hu) hne
      · cases hd.symm.trans hd'
        exact hroute
      · simpa [hroute] using hdown
  · -- A new prompt that could not be sent.
    obtain ⟨hs, hd', hu⟩ := h.away_of_created hb hp
    rw [hm, List.self_eq_append_right] at hmail
    rw [hmail, List.filter_nil, List.map_nil, List.append_nil, hd'] at hdown
    exact .away (fun d' hd' ↦ by rw [hd] at hd'; cases hd') (by rw [hstores, hs]) hdown
      fun hne ↦ absurd (hup.trans hu) hne
  · -- The client of the prompt is told that it has ended.
    rw [hm, List.append_cancel_left_eq] at hmail
    rw [← hmail] at hdown
    by_cases hroute : d.clientId = c
    · refine .ended hd (lt_of_lt_of_le (hcoherent.lt_of_delivery hb) hcreated) (page.downFor p) ?_
      simpa [hroute] using hdown
    · obtain ⟨hs, hd', hu⟩ := h.away_of_ne hb hroute
      refine .away (fun d' hd' ↦ by rw [hd] at hd'; cases hd') (by rw [hstores, hs]) ?_
        fun hne ↦ absurd (hup.trans hu) hne
      simpa [hroute, hd'] using hdown
  · -- The prompt ends silently: its answer is on the way, or it is not for this page.
    rw [hm, List.self_eq_append_right] at hmail
    rw [hmail, List.filter_nil, List.map_nil, List.append_nil] at hdown
    have hlt : p < hub'.created := lt_of_lt_of_le (hcoherent.lt_of_delivery hb) hcreated
    have haway (hs : page.stores.entries p = .empty) (hd' : page.downFor p = []) :
        Agrees hub' (page.push news) c p :=
      .away (fun d' hd' ↦ by rw [hd] at hd'; cases hd') (by rw [hstores, hs]) (hdown.trans hd')
        fun _ ↦ ⟨hd, hlt⟩
    by_cases hroute : d.clientId = c
    · have hanswer := hquiet d v hb hroute hv
      rcases h with ⟨hr, hs, hd', -⟩ | ⟨-, -, -, -, -, hu⟩ | ⟨-, -, -, -, -, hu⟩ |
        ⟨d', -, -, hs, hd', -⟩ | ⟨hde, -⟩
      · exact haway hs hd'
      · exact absurd hu hanswer
      · exact absurd hu hanswer
      · exact haway hs hd'
      · rw [hde] at hb
        cases hb
    · obtain ⟨hs, hd', -⟩ := h.away_of_ne hb hroute
      exact haway hs hd'
  · -- The prompt moves away from a client that leaves, perhaps to this page.
    have hroute : d.clientId ≠ c := fun heq ↦ hstays (heq ▸ he)
    obtain ⟨hs, hd', hu⟩ := h.away_of_ne hb hroute
    rw [hm, List.append_cancel_left_eq] at hmail
    rw [← hmail, hd', List.nil_append] at hdown
    by_cases hnew : new = c
    · refine .coming _ hd hnew (by rw [hstores, hs]) ?_ (hup.trans hu)
      simpa [hroute, hnew, Prompts.Delivery.message] using hdown
    · refine .away (fun d' hd' ↦ ?_) (by rw [hstores, hs]) ?_ fun hne ↦ absurd (hup.trans hu) hne
      · cases hd.symm.trans hd'
        exact hnew
      · simpa [hroute, hnew] using hdown

/-- **A message arrives** at the page. -/
theorem Agrees.deliver (h : Agrees hub page c p) {m : PromptMessage} {rest : List PromptMessage}
    (hdown : page.down = m :: rest) :
    Agrees hub { page with stores := page.stores.handle m, down := rest } c p := by
  by_cases hm : m.promptId = p
  · subst hm
    have hfor : page.downFor m.promptId =
        m :: ({ page with stores := page.stores.handle m, down := rest } : PromptPage).downFor
          m.promptId := by
      rw [PromptPage.downFor, hdown, List.filter_cons_of_pos (by simp)]
      rfl
    rcases h with ⟨-, -, hd, -⟩ | ⟨d, hde, hc, hs, hd, hu⟩ | ⟨-, -, -, -, hd, -⟩ |
      ⟨-, -, -, -, hd, -⟩ |
      ⟨hde, hlt, ms, hd⟩
    · rw [hfor] at hd
      cases hd
    · rw [hfor] at hd
      obtain ⟨hhead, htail⟩ := List.cons.inj hd
      refine .shown d hde hc ?_ htail hu
      have hentries := PromptStores.entries_handle_prompt hs d.type d.payload d.deliveryEpoch
      rw [show m = .prompt d.type d.payload m.promptId d.deliveryEpoch from hhead]
      exact hentries
    · rw [hfor] at hd
      cases hd
    · rw [hfor] at hd
      cases hd
    · rw [hfor] at hd
      rcases ms with _ | ⟨m', ms⟩
      · obtain ⟨hhead, htail⟩ := List.cons.inj hd
        refine .away (fun d hd' ↦ by rw [hde] at hd'; cases hd') ?_ htail fun _ ↦ ⟨hde, hlt⟩
        have hentries := PromptStores.entries_handle_cancel page.stores m.promptId
        rw [← hhead] at hentries
        exact hentries
      · exact .ended hde hlt ms (List.cons.inj hd).2
  · refine h.congr rfl le_rfl (PromptStores.entries_handle_of_ne hm) ?_ rfl
    rw [PromptPage.downFor, PromptPage.downFor, hdown, List.filter_cons_of_neg (by simpa using hm)]

variable {k : PromptStore} {entry : PromptEntry} {rest : List PromptAnswer} {a : PromptAnswer}

section

variable (h : Agrees hub page c p)
include h

/-- **A dialog is answered**. Where its prompt is still open, the hub takes the answer. -/
theorem Agrees.answer (hk : page.stores k = entry :: (page.stores k).tail) {value : Option String}
    (hvalid : hub.delivery entry.promptId ≠ none → valid (k.answer entry value) = true) :
    Agrees hub { page with
      stores := page.stores.pop k, up := page.up ++ [k.answer entry value] } c p := by
  by_cases hp : entry.promptId = p
  · subst hp
    have hup : ({ page with stores := page.stores.pop k, up := page.up ++ [k.answer entry value] } :
        PromptPage).upFor entry.promptId = page.upFor entry.promptId ++ [k.answer entry value] := by
      rw [PromptPage.upFor, List.filter_append,
        List.filter_cons_of_pos (by simp [PromptStore.answer])]
      rfl
    rcases h with ⟨-, hs, -⟩ | ⟨-, -, -, hs, -⟩ | ⟨d, hde, hc, hs, hd, hu⟩ | ⟨-, -, -, hs, -⟩ |
      ⟨hde, hlt, ms, hd⟩
    · exact absurd hs (PromptStores.entries_ne_empty hk)
    · exact absurd hs (PromptStores.entries_ne_empty hk)
    · obtain ⟨-, hentry, hempty⟩ := PromptStores.entries_pop hk hs
      refine .answered d hde hc hempty hd _ (by rw [hup, hu, List.nil_append])
        (hvalid (by simp [hde])) ?_
      intro n hn
      have hepoch : entry.deliveryEpoch = if store d.type = .hostVerify then none
          else some d.deliveryEpoch := congrArg PromptEntry.deliveryEpoch hentry
      rw [PromptStore.answer] at hn
      simp only at hn
      split at hn
      · rw [hepoch] at hn
        split at hn
        · cases hn
        · exact (Option.some.inj hn).symm
      · cases hn
    · exact absurd hs (PromptStores.entries_ne_empty hk)
    · exact .ended hde hlt ms hd
  · refine h.congr rfl le_rfl (PromptStores.entries_pop_of_ne hk hp) rfl ?_
    rw [PromptPage.upFor, List.filter_append, List.filter_cons_of_neg
      (by simp [PromptStore.answer, hp]), List.filter_nil, List.append_nil, PromptPage.upFor]

/-- A dialog is dismissed after its prompt has ended. -/
theorem Agrees.dismiss (hk : page.stores k = entry :: (page.stores k).tail)
    (hgone : hub.delivery entry.promptId = none) :
    Agrees hub { page with stores := page.stores.pop k } c p := by
  by_cases hp : entry.promptId = p
  · subst hp
    rcases h with ⟨-, hs, -⟩ | ⟨d, hde, -⟩ | ⟨d, hde, -⟩ | ⟨d, hde, -⟩ | ⟨hde, hlt, ms, hd⟩
    · exact absurd hs (PromptStores.entries_ne_empty hk)
    · rw [hgone] at hde
      cases hde
    · rw [hgone] at hde
      cases hde
    · rw [hgone] at hde
      cases hde
    · exact .ended hde hlt ms hd
  · exact h.congr rfl le_rfl (PromptStores.entries_pop_of_ne hk hp) rfl rfl

/-- An answer leaves the way without an effect on its prompt, which is not open for the page. -/
theorem Agrees.forget (hup : page.up = a :: rest)
    (hclosed : a.promptId = p → ∀ d, hub.delivery p = some d → d.clientId ≠ c) :
    Agrees hub { page with up := rest } c p := by
  by_cases hp : a.promptId = p
  · have hroute := hclosed hp
    rcases h with ⟨hr, hs, hd, hu⟩ | ⟨d, hde, hc, -⟩ | ⟨d, hde, hc, -⟩ | ⟨d, hde, hc, -⟩ |
      ⟨hde, hlt, ms, hd⟩
    · refine .away hr hs hd fun _ ↦ hu ?_
      rw [PromptPage.upFor, hup, List.filter_cons_of_pos (by simpa using hp)]
      exact List.cons_ne_nil _ _
    · exact absurd hc (hroute d hde)
    · exact absurd hc (hroute d hde)
    · exact absurd hc (hroute d hde)
    · exact .ended hde hlt ms hd
  · refine h.congr rfl le_rfl rfl rfl ?_
    rw [PromptPage.upFor, PromptPage.upFor, hup, List.filter_cons_of_neg (by simpa using hp)]

/-- An answer on the way to a prompt that is open for the page is valid, for the latest delivery,
and the page has nothing else of the prompt. -/
theorem Agrees.of_mem_up (hup : page.up = a :: rest) (hp : a.promptId = p) {d : Prompts.Delivery}
    (hd : hub.delivery p = some d) (hc : d.clientId = c) :
    valid a = true ∧ (∀ n ∈ a.deliveryEpoch, n = d.deliveryEpoch) ∧
      page.stores.entries p = .empty ∧ page.downFor p = [] := by
  have hfor : page.upFor p = a :: rest.filter fun a ↦ a.promptId = p := by
    rw [PromptPage.upFor, hup, List.filter_cons_of_pos (by simpa using hp)]
  rcases h with ⟨hr, -⟩ | ⟨-, -, -, -, -, hu⟩ | ⟨-, -, -, -, -, hu⟩ |
    ⟨d', hde, -, hs, hdown, a', hu, hv, he⟩ | ⟨hde, -⟩
  · exact absurd hc (hr d hd)
  · rw [hu] at hfor
    cases hfor
  · rw [hu] at hfor
    cases hfor
  · rw [hu] at hfor
    obtain ⟨rfl, -⟩ := List.cons.inj hfor
    cases hd.symm.trans hde
    exact ⟨hv, he, hs, hdown⟩
  · rw [hde] at hd
    cases hd

/-- An answer that the hub refuses unseen. -/
theorem Agrees.refuse (hup : page.up = a :: rest) (hrefused : valid a ≠ true) :
    Agrees hub { page with up := rest } c p :=
  h.forget hup fun hp _ hd hc ↦ hrefused (h.of_mem_up hup hp hd hc).1

/-- **An answer arrives** at the hub. -/
theorem Agrees.receive (hcoherent : hub.Coherent)
    (hc : page.clientId = some c) (hup : page.up = a :: rest)
    (hstep : hub.step (.respond a.promptId c a.deliveryEpoch a.value) = some hub') :
    Agrees hub'
      (({ page with up := rest } : PromptPage).push (hub'.sent.drop hub.sent.length)) c p := by
  by_cases hopen : ∃ d, a.promptId = p ∧ hub.delivery p = some d ∧ d.clientId = c
  · -- The answer is accepted and ends its prompt.
    obtain ⟨d, rfl, hd, hclient⟩ := hopen
    obtain ⟨-, hepoch, hs, hdown⟩ := h.of_mem_up hup rfl hd hclient
    have haccepts : hub.accepts a.promptId c a.deliveryEpoch = true :=
      (Prompts.accepts_iff hcoherent).mpr ⟨d, hd, hclient.symm, hepoch⟩
    obtain rfl : (hub.clearPrompt a.promptId).resolve a.promptId a.value = hub' := by
      have heq := Option.some.inj hstep
      rw [Prompts.respond, if_pos haccepts] at heq
      exact heq
    obtain ⟨-, -, -, hcreated, -, hsent, -⟩ := Prompts.clearPrompt_fields hub a.promptId
    have hnone := Prompts.delivery_clearPrompt hcoherent a.promptId a.value
    have hpush : ({ page with up := rest } : PromptPage).push
        (((hub.clearPrompt a.promptId).resolve a.promptId a.value).sent.drop hub.sent.length) =
          { page with up := rest } := by
      rw [Prompts.resolve, hsent, List.drop_length, PromptPage.push, hc]
      simp
    rw [hpush]
    refine .away (fun d hd ↦ by rw [hnone] at hd; cases hd) hs hdown fun _ ↦ ⟨hnone, ?_⟩
    rw [Prompts.resolve, hcreated]
    exact hcoherent.lt_of_delivery hd
  · have hforgot := h.forget hup fun hp d hd hclient ↦ hopen ⟨d, hp, hd, hclient⟩
    refine hforgot.hub_step hcoherent hstep hc
      (by simp) (by simp) ?_
    intro d value hd hclient hsilent
    rcases hsilent with _ | _ | _
    exact absurd ⟨d, rfl, hd, hclient⟩ hopen

end

/-! ## Runs -/

/-- The registry is coherent, and connected pages have client ids of their own. -/
structure Wired (s : PromptQueues) : Prop where
  hub : s.hub.Coherent
  clients : ∀ c ∈ s.hub.clients, c ∈ s.used
  connected : ∀ (i : ℕ) page, s.pages[i]? = some page → ∀ c ∈ page.clientId, c ∈ s.used
  unique : ∀ (i j : ℕ) page page', s.pages[i]? = some page → s.pages[j]? = some page' →
    page.clientId = page'.clientId → page.clientId ≠ none → i = j

/-- The invariant: connected pages agree with the hub upon every prompt. -/
structure Inv (s : PromptQueues) : Prop extends s.Wired where
  agrees : ∀ (i : ℕ) page, s.pages[i]? = some page → ∀ c ∈ page.clientId, ∀ p, Agrees s.hub page c p

variable {s s' : PromptQueues}

theorem inv_empty : empty.Inv where
  hub := Prompts.coherent_empty
  clients c hc := by cases hc
  connected i page hpage := by simp [empty] at hpage
  unique i j page page' hpage := by simp [empty] at hpage
  agrees i page hpage := by simp [empty] at hpage

theorem clientId_push (sent : List (String × PromptMessage)) (page : PromptPage) :
    (page.push sent).clientId = page.clientId := by
  rw [PromptPage.push]
  split
  · rfl
  · rfl

theorem getElem?_setPage {i : ℕ} (hpage : s.pages[i]? = some page) {j : ℕ} {r : PromptPage}
    (hr : (s.setPage i page').pages[j]? = some r) :
    (j = i ∧ r = page') ∨ (j ≠ i ∧ s.pages[j]? = some r) := by
  by_cases hij : i = j
  · subst hij
    rw [setPage, List.getElem?_set_self (List.getElem?_eq_some_iff.mp hpage).1] at hr
    exact .inl ⟨rfl, (Option.some.inj hr).symm⟩
  · rw [setPage, List.getElem?_set_ne hij] at hr
    exact .inr ⟨Ne.symm hij, hr⟩

/-- A page that changes, and may lose its connection. -/
theorem Wired.setPage (h : s.Wired) {i : ℕ} (hpage : s.pages[i]? = some page)
    (hclient : page'.clientId = page.clientId ∨ page'.clientId = none) :
    (s.setPage i page').Wired := by
  have hsame : page'.clientId ≠ none → page'.clientId = page.clientId :=
    fun hne ↦ hclient.resolve_right hne
  refine ⟨h.hub, h.clients, fun j r hr c hc ↦ ?_, fun j k r r' hr hr' heq hne ↦ ?_⟩
  · rcases getElem?_setPage hpage hr with ⟨-, rfl⟩ | ⟨-, hr⟩
    · refine h.connected i page hpage c ?_
      rw [← hsame (by rw [Option.mem_def.mp hc]; simp)]
      exact hc
    · exact h.connected j r hr c hc
  · rcases getElem?_setPage hpage hr with ⟨rfl, rfl⟩ | ⟨hj, hold⟩
    · rcases getElem?_setPage hpage hr' with ⟨rfl, -⟩ | ⟨hk, hold⟩
      · rfl
      · rw [hsame hne] at heq hne
        exact absurd (h.unique j k page r' hpage hold heq hne).symm hk
    · rcases getElem?_setPage hpage hr' with ⟨rfl, rfl⟩ | ⟨-, hold'⟩
      · rw [hsame (heq ▸ hne)] at heq
        exact absurd (h.unique j k r page hold hpage heq hne) hj
      · exact h.unique j k r r' hold hold' heq hne

theorem Inv.setPage (h : s.Inv) {i : ℕ} (hpage : s.pages[i]? = some page)
    (hclient : page'.clientId = page.clientId ∨ page'.clientId = none)
    (hagrees : ∀ c ∈ page'.clientId, ∀ p, Agrees s.hub page' c p) : (s.setPage i page').Inv where
  toWired := h.toWired.setPage hpage hclient
  agrees j r hr c hc p := by
    rcases getElem?_setPage hpage hr with ⟨-, rfl⟩ | ⟨-, hr⟩
    · exact hagrees c hc p
    · exact h.agrees j r hr c hc p

theorem Wired.advance (h : s.Wired) (hstep : s.advance e = some s') (hadd : ∀ c, e ≠ .addClient c)
    (hagrees : ∀ (i : ℕ) page, s.pages[i]? = some page → ∀ c ∈ page.clientId, ∀ p hub',
      s.hub.step e = some hub' →
        Agrees hub' (page.push (hub'.sent.drop s.hub.sent.length)) c p) : s'.Inv := by
  rw [PromptQueues.advance, Option.map_eq_some_iff] at hstep
  obtain ⟨hub', hhub, rfl⟩ := hstep
  have hget : ∀ (j : ℕ) r, (s.pages.map (.push (hub'.sent.drop s.hub.sent.length)))[j]? = some r →
      ∃ page, s.pages[j]? = some page ∧ r = page.push (hub'.sent.drop s.hub.sent.length) := by
    intro j r hr
    rw [List.getElem?_map, Option.map_eq_some_iff] at hr
    obtain ⟨page, hpage, rfl⟩ := hr
    exact ⟨page, hpage, rfl⟩
  refine ⟨⟨(Prompts.step_fate h.hub hhub).1, fun c hc ↦ ?_, fun j r hr c hc ↦ ?_,
    fun j k r r' hr hr' heq hne ↦ ?_⟩, fun j r hr c hc p ↦ ?_⟩
  · exact h.clients c ((Prompts.step_advances h.hub hadd hhub).clients hc)
  · obtain ⟨page, hpage, rfl⟩ := hget j r hr
    rw [clientId_push] at hc
    exact h.connected j page hpage c hc
  · obtain ⟨page, hpage, rfl⟩ := hget j r hr
    obtain ⟨page', hpage', rfl⟩ := hget k r' hr'
    rw [clientId_push, clientId_push] at heq
    rw [clientId_push] at hne
    exact h.unique j k page page' hpage hpage' heq hne
  · obtain ⟨page, hpage, rfl⟩ := hget j r hr
    rw [clientId_push] at hc
    exact hagrees j page hpage c hc p hub' hhub

theorem valid_verdict (hk : k ≠ .auth) (e : PromptEntry) (action : TrustAction) :
    valid (k.answer e (some action.text)) = true := by
  rcases k with _ | _ | _
  · exact absurd rfl hk
  all_goals rcases action with _ | _ | _ <;> simp [valid, PromptStore.answer, TrustAction.text]

/-- What a user does with the dialogs of a page. -/
theorem Agrees.act (h : ∀ p, Agrees hub page c p) {action : PromptStores.UserAction}
    (hcareful : ∀ e ∈ headPrompt (page.stores action.store) action.promptId,
      hub.delivery e.promptId ≠ none → reaches action = true) (p : ℕ) :
    Agrees hub { page with
      stores := (page.stores.act true action).1,
      up := page.up ++ (page.stores.act true action).2.toList } c p := by
  have hnothing : Agrees hub
      { page with up := page.up ++ (none : Option PromptAnswer).toList } c p := by
    rw [Option.toList_none, List.append_nil]
    exact h p
  have hsend : ∀ k value q, (∀ e ∈ headPrompt (page.stores k) q, hub.delivery e.promptId ≠ none →
      valid (k.answer e value) = true) → Agrees hub { page with
        stores := (page.stores.send true k value q).1,
        up := page.up ++ (page.stores.send true k value q).2.toList } c p := by
    intro k value q hvalid
    rw [PromptStores.send]
    rcases hhead : headPrompt (page.stores k) q with _ | e
    · exact hnothing
    · exact (h p).answer (PromptStores.headPrompt_eq_some hhead) (hvalid e hhead)
  rcases action with ⟨secret, q⟩ | ⟨a, q⟩ | ⟨a, q⟩ | ⟨k, q⟩
  · refine hsend .auth secret q fun e he hd ↦ ?_
    have hreaches := hcareful e he hd
    rcases secret with _ | secret
    · rfl
    · exact hreaches
  · exact hsend .hostVerify _ q fun e _ _ ↦ valid_verdict (by decide) e a
  · exact hsend .agentVerify _ q fun e _ _ ↦ valid_verdict (by decide) e a
  · rcases k with _ | _ | _
    · exact hsend .auth none q fun e _ _ ↦ rfl
    · exact hsend .hostVerify _ q fun e _ _ ↦ valid_verdict (by decide) e .reject
    · rw [PromptStores.act]
      rcases hhead : headPrompt (page.stores .agentVerify) q with _ | e
      · exact hnothing
      · have hgone : hub.delivery e.promptId = none := by
          by_contra hne
          cases hcareful e hhead hne
        have hdismiss := (h p).dismiss (PromptStores.headPrompt_eq_some hhead) hgone
        rw [Option.toList_none, List.append_nil]
        exact hdismiss

/-- A new page is not connected. -/
theorem Inv.openPage (h : s.Inv) : Inv { s with pages := s.pages ++ [.fresh] } := by
  have hget : ∀ (j : ℕ) r, (s.pages ++ [PromptPage.fresh])[j]? = some r → r.clientId ≠ none →
      s.pages[j]? = some r := by
    intro j r hr hne
    rw [List.getElem?_append] at hr
    split at hr
    · exact hr
    · rw [List.getElem?_singleton] at hr
      split at hr
      · cases hr
        exact absurd rfl hne
      · cases hr
  have hne : ∀ {r : PromptPage} {c}, c ∈ r.clientId → r.clientId ≠ none := by
    intro r c hc
    rw [Option.mem_def.mp hc]
    simp
  refine ⟨⟨h.hub, h.clients, fun j r hr c hc ↦ ?_, fun j k r r' hr hr' heq hne' ↦ ?_⟩,
    fun j r hr c hc p ↦ ?_⟩
  · exact h.connected j r (hget j r hr (hne hc)) c hc
  · exact h.unique j k r r' (hget j r hr hne') (hget k r' hr' (heq ▸ hne')) heq hne'
  · exact h.agrees j r (hget j r hr (hne hc)) c hc p

/-- A page with empty stores connects under a client id that is new. -/
theorem Inv.connect (h : s.Inv) {i : ℕ} (hpage : s.pages[i]? = some page) (hfresh : c ∉ s.used)
    (hempty : ∀ k, page.stores k = []) :
    Inv { s.setPage i { page with clientId := some c, down := [], up := [] } with
      hub := s.hub.addClient c, used := c :: s.used } := by
  have hadd := Prompts.step_fate h.hub (e := .addClient c) rfl
  have hget {j : ℕ} {r : PromptPage}
      (hr : (s.setPage i { page with clientId := some c, down := [], up := [] }).pages[j]? =
        some r) :=
    getElem?_setPage hpage hr
  have hother : ∀ (j : ℕ) r, s.pages[j]? = some r → r.clientId ≠ some c := by
    intro j r hr hc
    exact hfresh (h.connected j r hr c hc)
  refine ⟨⟨hadd.1, fun c' hc' ↦ ?_, fun j r hr c' hc' ↦ ?_, fun j k r r' hr hr' heq hne ↦ ?_⟩,
    fun j r hr c' hc' p ↦ ?_⟩
  · rcases List.mem_append.mp hc' with hc' | hc'
    · exact List.mem_cons_of_mem _ (h.clients c' hc')
    · exact List.mem_singleton.mp hc' ▸ List.mem_cons_self
  · rcases hget hr with ⟨-, rfl⟩ | ⟨-, hr⟩
    · exact Option.some.inj hc' ▸ List.mem_cons_self
    · exact List.mem_cons_of_mem _ (h.connected j r hr c' hc')
  · rcases hget hr with ⟨rfl, rfl⟩ | ⟨-, hold⟩
    · rcases hget hr' with ⟨rfl, -⟩ | ⟨-, hold⟩
      · rfl
      · exact absurd heq.symm (hother k r' hold)
    · rcases hget hr' with ⟨rfl, rfl⟩ | ⟨-, hold'⟩
      · exact absurd heq (hother j r hold)
      · exact h.unique j k r r' hold hold' heq hne
  · rcases hget hr with ⟨-, rfl⟩ | ⟨-, hr⟩
    · obtain rfl : c = c' := Option.some.inj hc'
      refine .away (fun d hd hroute ↦ hfresh ?_) ?_ rfl fun hne ↦ absurd rfl hne
      · exact hroute ▸ h.clients _ (h.hub.mem_clients hd)
      · funext k
        rw [PromptStores.entries, hempty k]
        rfl
    · exact (h.agrees j r hr c' hc' p).congr rfl le_rfl rfl rfl rfl

/-- **Every careful step** keeps the invariant. -/
theorem step_inv {ev : Event} (h : s.Inv) (hcareful : Careful s ev s')
    (hstep : s.step ev = some s') :
    s'.Inv := by
  cases ev with
  | openPage =>
    cases hstep
    exact h.openPage
  | connect i clientId =>
    rw [step] at hstep
    split at hstep
    · rename_i page hpage
      rw [Option.ite_none_right_eq_some] at hstep
      obtain ⟨⟨hnone, hfresh⟩, hs'⟩ := hstep
      cases hs'
      exact h.connect hpage hfresh (hcareful page hpage)
    · cases hstep
  | drop i =>
    -- A broken connection.
    rw [step, Option.map_eq_some_iff] at hstep
    obtain ⟨page, hpage, rfl⟩ := hstep
    exact h.setPage hpage (.inr rfl) fun c hc ↦ by cases hc
  | noticed clientId =>
    rw [step, Option.ite_none_right_eq_some] at hstep
    obtain ⟨hgone, hadvance⟩ := hstep
    refine h.toWired.advance hadvance (by simp) fun i page hpage c hc p hub' hhub ↦ ?_
    refine (h.agrees i page hpage c hc p).hub_step h.hub hhub hc ?_ (by simp) ?_
    · intro heq
      obtain rfl := Prompts.Event.removeClient.inj heq
      exact hgone page (List.mem_of_getElem? hpage) hc
    · intro d value hd hroute hsilent
      cases hsilent
  | hub e =>
    rw [step, Option.ite_none_right_eq_some] at hstep
    obtain ⟨hinternal, hadvance⟩ := hstep
    have hadd : ∀ c, e ≠ .addClient c := by
      rintro c rfl
      cases hinternal
    refine h.toWired.advance hadvance hadd fun i page hpage c hc p hub' hhub ↦ ?_
    refine (h.agrees i page hpage c hc p).hub_step h.hub hhub hc ?_ hadd ?_
    · rintro rfl
      cases hinternal
    · intro d value hd hroute hsilent
      have hends : EndsSilently s.hub e p := by
        rcases hsilent with _ | _ | hindex
        · cases hinternal
        · exact .inl rfl
        · exact .inr ⟨_, rfl, hindex⟩
      obtain ⟨a, ha, hp⟩ :=
        hcareful p d hends hd page (List.mem_of_getElem? hpage) (hroute ▸ hc)
      exact List.ne_nil_of_mem (List.mem_filter.mpr ⟨ha, by simpa using hp⟩)
  | deliver i =>
    rw [step] at hstep
    split at hstep
    · rename_i page hpage
      split at hstep
      · cases hstep
      · rename_i m rest hdown
        cases hstep
        exact h.setPage hpage (.inl rfl) fun c hc p ↦ (h.agrees i page hpage c hc p).deliver hdown
    · cases hstep
  | receive i =>
    rw [step] at hstep
    split at hstep
    · rename_i page hpage
      split at hstep
      · rename_i c a rest hc hup
        have hagrees := h.agrees i page hpage c hc
        simp only at hstep
        split at hstep
        · have hwired : (s.setPage i { page with up := rest }).Wired :=
            h.toWired.setPage hpage (.inl rfl)
          refine hwired.advance hstep (by simp) fun j r hr c' hc' p hub' hhub ↦ ?_
          rcases getElem?_setPage hpage hr with ⟨-, rfl⟩ | ⟨hj, hold⟩
          · obtain rfl : c = c' := Option.some.inj (hc.symm.trans hc')
            exact (hagrees p).receive h.hub hc hup hhub
          · refine (h.agrees j r hold c' hc' p).hub_step h.hub hhub hc' (by simp) (by simp) ?_
            -- An accepted answer ends a prompt of the page it came from.
            intro d value hd hroute hsilent
            rcases hsilent with haccepts | _ | _
            obtain ⟨d', hd', hroute', -⟩ := (Prompts.accepts_iff h.hub).mp haccepts
            cases hd.symm.trans hd'
            have heq : r.clientId = page.clientId :=
              hc'.trans ((hroute.symm.trans hroute'.symm) ▸ hc.symm)
            exact absurd (h.unique j i r page hold hpage heq (by simp [Option.mem_def.mp hc'])) hj
        · rename_i hrefused
          cases hstep
          refine h.setPage hpage (.inl rfl) fun c' hc' p ↦ ?_
          obtain rfl : c = c' := Option.some.inj (hc.symm.trans hc')
          exact (hagrees p).refuse hup hrefused
      · cases hstep
    · cases hstep
  | act i action =>
    rw [step, Option.map_eq_some_iff] at hstep
    obtain ⟨page, hpage, rfl⟩ := hstep
    refine h.setPage hpage (.inl rfl) fun c hc p ↦ ?_
    have hconnected : page.clientId.isSome = true := Option.isSome_iff_exists.mpr ⟨c, hc⟩
    rw [hconnected]
    exact Agrees.act (h.agrees i page hpage c hc)
      (hcareful page hpage (Option.isSome_iff_ne_none.mp hconnected)) p

theorem run_inv {es : List Event} (hcareful : Along step Careful empty es)
    (hrun : run step empty es = some s) : s.Inv :=
  run_invariant_along Inv
    (fun t ev _ h hcareful (hstep : step t ev = some _) ↦ step_inv h hcareful hstep) inv_empty
      hcareful hrun

/-! ## The dialogs that are shown -/

/-- The dialogs of a page are the prompts that are open for it: each once, as it was delivered last,
and its answer is accepted. -/
structure Shows (hub : Prompts) (page : PromptPage) (c : String) : Prop where
  once : ∀ k, ((page.stores k).map PromptEntry.promptId).Nodup
  mem_iff : ∀ k e, e ∈ page.stores k ↔ ∃ d, hub.delivery e.promptId = some d ∧ d.clientId = c ∧
    store d.type = k ∧ e = k.entry e.promptId d.deliveryEpoch
  accepted : ∀ k e value, (page.stores k).head? = some e →
    hub.accepts e.promptId c (k.answer e value).deliveryEpoch = true

/-- The pages to which and from which nothing is on its way show the prompts that are open for
them. -/
def Agreement (s : PromptQueues) : Prop :=
  ∀ page ∈ s.pages, ∀ c ∈ page.clientId, page.down = [] → page.up = [] → Shows s.hub page c

/-- Where nothing is on its way, a prompt is shown or it is not for this page. -/
theorem Agrees.quiet (h : Agrees hub page c p) (hdown : page.down = []) (hup : page.up = []) :
    (page.stores.entries p = .empty ∧ ∀ d, hub.delivery p = some d → d.clientId ≠ c) ∨
      ∃ d, hub.delivery p = some d ∧ d.clientId = c ∧ page.stores.entries p =
        .single (store d.type) ((store d.type).entry p d.deliveryEpoch) := by
  have hdownFor : page.downFor p = [] := by rw [PromptPage.downFor, hdown, List.filter_nil]
  have hupFor : page.upFor p = [] := by rw [PromptPage.upFor, hup, List.filter_nil]
  rcases h with ⟨hr, hs, -⟩ | ⟨d, -, -, -, hd, -⟩ | ⟨d, hde, hc, hs, -⟩ |
    ⟨d, -, -, -, -, a, hu, -⟩ |
    ⟨-, -, ms, hd⟩
  · exact .inl ⟨hs, hr⟩
  · rw [hdownFor] at hd
    cases hd
  · exact .inr ⟨d, hde, hc, hs⟩
  · rw [hupFor] at hu
    cases hu
  · rw [hdownFor] at hd
    exact absurd hd.symm (by simp)

theorem nodup_of_filter {queue : List PromptEntry}
    (h : ∀ p, (queue.filter fun e ↦ e.promptId = p).length ≤ 1) :
    (queue.map PromptEntry.promptId).Nodup := by
  rw [List.nodup_iff_count_le_one]
  intro p
  have hcount := h p
  rw [List.count_eq_countP, List.countP_map, List.countP_eq_length_filter]
  simpa [Function.comp_def, beq_eq_decide] using hcount

theorem shows_of_agrees (hcoherent : hub.Coherent) (h : ∀ p, Agrees hub page c p)
    (hdown : page.down = []) (hup : page.up = []) : Shows hub page c := by
  have hmem : ∀ k e, e ∈ page.stores k ↔ ∃ d, hub.delivery e.promptId = some d ∧ d.clientId = c ∧
      store d.type = k ∧ e = k.entry e.promptId d.deliveryEpoch := by
    intro k e
    have hfilter : e ∈ page.stores k ↔ e ∈ page.stores.entries e.promptId k := by
      rw [PromptStores.entries, List.mem_filter]
      simp
    rw [hfilter]
    rcases (h e.promptId).quiet hdown hup with ⟨hs, hr⟩ | ⟨d, hd, hc, hs⟩
    · rw [hs]
      refine iff_of_false (by simp [PromptStores.empty]) ?_
      rintro ⟨d, hd, hc, -⟩
      exact hr d hd hc
    · rw [hs, PromptStores.single]
      constructor
      · intro he
        split at he
        · rename_i hk
          subst hk
          exact ⟨d, hd, hc, rfl, List.mem_singleton.mp he⟩
        · cases he
      · rintro ⟨d', hd', -, hk, he⟩
        cases hd.symm.trans hd'
        rw [if_pos hk.symm, hk]
        exact List.mem_singleton.mpr he
  refine ⟨fun k ↦ nodup_of_filter fun p ↦ ?_, hmem, fun k e value hhead ↦ ?_⟩
  · rcases (h p).quiet hdown hup with ⟨hs, -⟩ | ⟨d, -, -, hs⟩
    · exact (congrArg List.length (congrFun hs k)).trans_le (Nat.zero_le _)
    · refine (congrArg List.length (congrFun hs k)).trans_le ?_
      rw [PromptStores.single]
      split <;> simp
  · obtain ⟨d, hd, hc, -, he⟩ := (hmem k e).mp (List.mem_of_head? hhead)
    refine (Prompts.accepts_iff hcoherent).mpr ⟨d, hd, hc.symm, fun n hn ↦ ?_⟩
    have hepoch : e.deliveryEpoch = if k = .hostVerify then none else some d.deliveryEpoch :=
      congrArg PromptEntry.deliveryEpoch he
    rw [PromptStore.answer] at hn
    simp only at hn
    split at hn
    · rw [hepoch] at hn
      split at hn
      · cases hn
      · exact (Option.some.inj hn).symm
    · cases hn

/-- **Careful runs end in agreement**: as long as every step of a run is careful, the dialogs of a
page to which nothing is on its way are the prompts that are open for it. -/
theorem shows_of_careful {es : List Event} (hcareful : Along step Careful empty es)
    (hrun : run step empty es = some s) : s.Agreement := by
  have hinv : s.Inv := run_inv hcareful hrun
  intro page hpage c hc hdown hup
  obtain ⟨i, hi⟩ := List.mem_iff_getElem?.mp hpage
  exact shows_of_agrees hinv.hub (hinv.agrees i page hi c hc) hdown hup

/-- A page that connects, and a passphrase that it is asked for. -/
def asked : List Event :=
  [.openPage, .connect 0 "c", .hub (.openContext (.owned "x") .test "web" "c"),
    .hub (.prompt (.owned "x") .passphrase "Passphrase?" false), .deliver 0]

theorem careful_asked : Along step Careful empty asked := by
  rw [asked]
  repeat rw [along_cons_of_eq rfl]
  refine ⟨trivial, ?_, ?_, ?_, trivial, trivial⟩
  · rintro page hpage k
    cases hpage
    rfl
  · rintro p d (h | ⟨contextId, h, -⟩)
    · cases h
    · cases h
  · rintro p d (h | ⟨contextId, h, -⟩)
    · cases h
    · cases h

theorem shows_of_careful_asked : ∃ s, run step empty asked = some s ∧ s.Agreement :=
  ⟨_, rfl, shows_of_careful careful_asked rfl⟩

/-- The dialog stays when the timer of its prompt fires: no PROMPT_CANCEL tells the page. -/
theorem timeout_leaves_dialog : ∃ s, run step empty (asked ++ [.hub (.timeout 0)]) = some s ∧
    ¬ s.Agreement := by
  refine ⟨_, rfl, fun h ↦ ?_⟩
  have hshows := h _ List.mem_cons_self "c" rfl rfl rfl
  obtain ⟨d, hd, -⟩ := (hshows.mem_iff .auth ⟨0, some 1⟩).mp List.mem_cons_self
  cases hd

end PromptQueues

end Lasterm.Wire
