import Lasterm.Hub.PromptContext

/-!
# The prompt stores of a page

Model of `composables/usePromptQueue.ts` and of the stores `auth-prompt`, `host-verify` and
`agent-verify`, which queue prompts by their ids. The first entry of a queue is the dialog that
is shown.

The stores differ in what they keep and send. `host-verify` drops the delivery epoch, `agent-verify`
keeps it but does not send it back, and dismissing an `agent-verify` dialog sends nothing at all.
-/

namespace Lasterm.Web

open Lasterm.Hub

inductive PromptStore
  | auth
  | hostVerify
  | agentVerify
  deriving DecidableEq

/-- The store that a prompt ends up in. -/
def store : PromptType → PromptStore
  | .passphrase | .elevation => .auth
  | .hostVerify => .hostVerify
  | .agentVerify => .agentVerify

structure PromptEntry where
  promptId : ℕ
  deliveryEpoch : Option ℕ

/-- An AUTH_PROMPT_RESPONSE, HOST_VERIFY_RESPONSE or AGENT_BINARY_VERIFY_RESPONSE. -/
structure PromptAnswer where
  store : PromptStore
  promptId : ℕ
  deliveryEpoch : Option ℕ
  value : Option String

inductive TrustAction
  | trustPermanent
  | trustOnce
  | reject
  deriving DecidableEq

def TrustAction.text : TrustAction → String
  | .trustPermanent => "trust_permanent"
  | .trustOnce => "trust_once"
  | .reject => "reject"

namespace PromptStore

/-- What a store keeps of a prompt. -/
def entry (k : PromptStore) (promptId deliveryEpoch : ℕ) : PromptEntry :=
  ⟨promptId, if k = .hostVerify then none else some deliveryEpoch⟩

/-- What a store sends when a dialog is answered. -/
def answer (k : PromptStore) (e : PromptEntry) (value : Option String) : PromptAnswer :=
  ⟨k, e.promptId, if k = .auth then e.deliveryEpoch else none, value⟩

end PromptStore

/-! ## The queue -/

def enqueue (queue : List PromptEntry) (e : PromptEntry) : List PromptEntry :=
  if queue.any fun pending ↦ pending.promptId = e.promptId then queue else queue ++ [e]

def removeByPromptId (queue : List PromptEntry) (p : ℕ) : List PromptEntry :=
  queue.filter fun e ↦ e.promptId ≠ p

/-- The entry that `withHeadPrompt` hands to its callback. -/
def headPrompt (queue : List PromptEntry) (p : Option ℕ) : Option PromptEntry :=
  queue.head?.filter fun e ↦ p.all fun q ↦ q = e.promptId

/-! ## The stores -/

abbrev PromptStores := PromptStore → List PromptEntry

namespace PromptStores

def empty : PromptStores := fun _ ↦ []

/-- The handlers of the messages from the hub. -/
def handle (s : PromptStores) : PromptMessage → PromptStores
  | .prompt type _ p epoch =>
    Function.update s (store type) (enqueue (s (store type)) ((store type).entry p epoch))
  | .cancel p => fun k ↦ removeByPromptId (s k) p

/-- What a user does with the dialogs. -/
inductive UserAction
  | respond (secret : Option String) (promptId : Option ℕ)
  | verifyHost (action : TrustAction) (promptId : Option ℕ)
  | verifyAgent (action : TrustAction) (promptId : Option ℕ)
  | dismiss (k : PromptStore) (promptId : Option ℕ)

/-- The store that an action is about. -/
def UserAction.store : UserAction → PromptStore
  | .respond _ _ => .auth
  | .verifyHost _ _ => .hostVerify
  | .verifyAgent _ _ => .agentVerify
  | .dismiss k _ => k

def UserAction.promptId : UserAction → Option ℕ
  | .respond _ p | .verifyHost _ p | .verifyAgent _ p | .dismiss _ p => p

/-- `resolveHead`. -/
def pop (s : PromptStores) (k : PromptStore) : PromptStores := Function.update s k (s k).tail

/-- Answer the dialog of a store. Where the socket is not open, the send throws before the entry is
taken from the queue. -/
def send (s : PromptStores) (connected : Bool) (k : PromptStore) (value : Option String)
    (p : Option ℕ) : PromptStores × Option PromptAnswer :=
  match headPrompt (s k) p with
  | none => (s, none)
  | some e => if connected then (s.pop k, some (k.answer e value)) else (s, none)

def act (s : PromptStores) (connected : Bool) : UserAction → PromptStores × Option PromptAnswer
  | .respond secret p => s.send connected .auth secret p
  | .verifyHost action p => s.send connected .hostVerify (some action.text) p
  | .verifyAgent action p => s.send connected .agentVerify (some action.text) p
  | .dismiss .auth p => s.send connected .auth none p
  | .dismiss .hostVerify p => s.send connected .hostVerify (some TrustAction.reject.text) p
  | .dismiss .agentVerify p =>
    match headPrompt (s .agentVerify) p with
    | none => (s, none)
    | some _ => (s.pop .agentVerify, none)

/-! ## One prompt in the stores -/

/-- The entries of a prompt. -/
def entries (s : PromptStores) (p : ℕ) : PromptStores := fun k ↦ (s k).filter fun e ↦ e.promptId = p

variable {s : PromptStores} {p : ℕ} {k : PromptStore} {e : PromptEntry}

/-- A prompt that stands in one store, once. -/
def single (k : PromptStore) (e : PromptEntry) : PromptStores := fun k' ↦ if k' = k then [e] else []

theorem entries_handle_of_ne {msg : PromptMessage} (h : msg.promptId ≠ p) :
    (s.handle msg).entries p = s.entries p := by
  funext k
  rcases msg with ⟨type, payload, q, epoch⟩ | q
  · by_cases hk : k = store type
    · subst hk
      simp only [handle, entries, Function.update_self, enqueue]
      split
      · rfl
      · have hq : q ≠ p := h
        rw [List.filter_append]
        simp [PromptStore.entry, hq]
    · simp only [handle, entries, Function.update_of_ne hk]
  · have hq : q ≠ p := h
    simp only [handle, entries, removeByPromptId, List.filter_filter]
    congr 1
    funext e
    by_cases he : e.promptId = p
    · simp [he, Ne.symm hq]
    · simp [he]

theorem entries_handle_prompt (h : s.entries p = empty) (type : PromptType) (payload : String)
    (epoch : ℕ) :
    (s.handle (.prompt type payload p epoch)).entries p =
      single (store type) ((store type).entry p epoch) := by
  have hout : ∀ k, ∀ e ∈ s k, e.promptId ≠ p := by
    intro k e he heq
    have hmem : e ∈ s.entries p k := List.mem_filter.mpr ⟨he, by simpa using heq⟩
    rw [h] at hmem
    cases hmem
  funext k
  have hk' : (s k).filter (fun e ↦ e.promptId = p) = [] := congrFun h k
  by_cases hk : k = store type
  · subst hk
    have hany : ((s (store type)).any fun pending ↦
        pending.promptId = ((store type).entry p epoch).promptId) = false := by
      rw [List.any_eq_false]
      intro e he
      have hne : ¬ e.promptId = p := hout (store type) e he
      simp [PromptStore.entry, hne]
    simp only [handle, entries, Function.update_self, enqueue, hany, Bool.false_eq_true, if_false,
      List.filter_append, hk', List.nil_append, single, if_true]
    simp [PromptStore.entry]
  · simp only [handle, entries, Function.update_of_ne hk, hk', single, if_neg hk]

theorem entries_handle_cancel (s : PromptStores) (p : ℕ) :
    (s.handle (.cancel p)).entries p = empty := by
  funext k
  simp [handle, entries, removeByPromptId, List.filter_filter, empty]

theorem headPrompt_eq_some {queue : List PromptEntry} {q : Option ℕ}
    (h : headPrompt queue q = some e) :
    queue = e :: queue.tail := by
  rw [headPrompt, Option.filter_eq_some_iff] at h
  rcases queue with _ | ⟨e', queue⟩
  · cases h.1
  · rw [List.head?_cons] at h
    obtain rfl := Option.some.inj h.1
    rfl

theorem entries_pop_of_ne (hk : s k = e :: (s k).tail) (hp : e.promptId ≠ p) :
    (s.pop k).entries p = s.entries p := by
  funext k'
  by_cases hkk' : k' = k
  · subst hkk'
    rw [entries, entries, pop, Function.update_self]
    conv_rhs => rw [hk]
    rw [List.filter_cons_of_neg (by simpa using hp)]
  · rw [entries, entries, pop, Function.update_of_ne hkk']

theorem entries_ne_empty (hk : s k = e :: (s k).tail) : s.entries e.promptId ≠ empty := by
  intro hempty
  have hmem : e ∈ s.entries e.promptId k :=
    List.mem_filter.mpr ⟨hk ▸ List.mem_cons_self, by simp⟩
  rw [hempty] at hmem
  cases hmem

/-- The dialog that is popped was the only entry of its prompt. -/
theorem entries_pop (hk : s k = e :: (s k).tail) {k' : PromptStore} {e' : PromptEntry}
    (h : s.entries e.promptId = single k' e') :
    k = k' ∧ e = e' ∧ (s.pop k).entries e.promptId = empty := by
  have hhead : s.entries e.promptId k = e :: (s k).tail.filter fun r ↦ r.promptId = e.promptId := by
    rw [entries]
    conv_lhs => rw [hk]
    rw [List.filter_cons_of_pos (by simp)]
  have hsingle := congrFun h k
  rw [hhead, single] at hsingle
  split at hsingle
  · rename_i hkk'
    obtain ⟨rfl, htail⟩ := List.cons.inj hsingle
    refine ⟨hkk', rfl, ?_⟩
    funext r
    by_cases hr : r = k
    · subst hr
      rw [entries, pop, Function.update_self, htail]
      rfl
    · have hother := congrFun h r
      rw [single, if_neg (hkk' ▸ hr)] at hother
      rw [entries, pop, Function.update_of_ne hr]
      exact hother
  · cases hsingle

end PromptStores

end Lasterm.Web
