import Lasterm.Wire.PromptQueues
import Mathlib.Data.Rat.Defs

/-!
# Which messages answer which prompts

The messages with which a client answers prompts, with arbitrary contents: the checks of the
handlers under `ws/handlers`, the search for the prompt in `SshConnectionManager`, and what is done
with the value that a prompt is resolved with.

All prompts share one registry, and `respond` does not look at the type of a prompt. Trust prompts
are resolved with trust answers exactly while each answer that is accepted is of the kind of its
prompt (`trustAnswers_iff_matched`). A secret that names a `host_verify` prompt resolves it, and
`_connectSshAgent` takes any text but `reject` for an approval (`secret_approves_host_key`).

The cache of passphrases is left out: it does not decide what a prompt is resolved with.
-/

namespace Lasterm.Wire

open Runs Lasterm.Hub

/-! ## The messages -/

def isUlidChar (c : Char) : Bool :=
  c.isDigit || c.toUpper ∈ "ABCDEFGHJKMNPQRSTVWXYZ".toList

def isValidUlid (id : String) : Bool := id.toList.length = 26 && id.toList.all isUlidChar

/-- A text in the place of a `promptId`. The ids that the hub made are known by their numbers. -/
inductive PromptIdField
  | ulid (p : ℕ)
  | other (text : String)

inductive SecretField
  | null
  | text (s : String)
  /-- Neither null nor a string. -/
  | other

inductive EpochField
  | missing
  | number (q : ℚ)
  /-- Not a finite number. -/
  | other

inductive ClientMessage
  | authPromptResponse (hostId : String) (secret : SecretField) (promptId : Option PromptIdField)
      (deliveryEpoch : EpochField)
  | hostVerifyResponse (promptId : PromptIdField) (action : String)
  | agentBinaryVerifyResponse (promptId : PromptIdField) (action : String)

def actions : List String := ["trust_permanent", "trust_once", "reject"]

/-- The answer of a HOST_VERIFY_RESPONSE or an AGENT_BINARY_VERIFY_RESPONSE. -/
def ClientMessage.action : ClientMessage → Option String
  | .authPromptResponse .. => none
  | .hostVerifyResponse _ action | .agentBinaryVerifyResponse _ action => some action

/-- The arguments of a call of `respond`, up to the client. -/
structure Answer where
  promptId : ℕ
  deliveryEpoch : Option ℕ
  value : Option String

/-- `_resolveLegacyAuthPromptId`: the prompt for a secret or an elevation, if there is exactly one
that the client is asked. -/
def resolveLegacyAuthPromptId (s : Prompts) (clientId hostId : String) : Option ℕ :=
  let found := s.promptContexts.entries.flatMap fun e ↦
    if e.2.closed ∨ e.2.hostId ≠ hostId ∨ e.2.routeClientId ≠ clientId then []
    else e.2.prompts.filter fun p ↦ (s.pendingPrompts.get p).any fun q ↦
      q.hostId = hostId && (q.type = .passphrase || q.type = .elevation)
  match found with
  | [p] => some p
  | _ => none

/-- The checks of `handleAuthPromptResponse`, with the value. -/
def secretValue : SecretField → Option (Option String)
  | .null => some none
  | .text s => if utf16Length s ≤ 4096 then some (some s) else none
  | .other => none

/-- The epoch that is passed on. A number that is no epoch is equal to none. -/
def epochValue : EpochField → Option (Option ℕ)
  | .missing => some none
  | .number q => if 0 ≤ q ∧ q.den = 1 then some (some q.num.toNat) else none
  | .other => none

/-- The call of `respond` that a message leads to. There is none if a check fails, and none for an
id that is not in the registry. -/
def answer (s : Prompts) (clientId : String) : ClientMessage → Option Answer
  | .authPromptResponse hostId secret promptId deliveryEpoch =>
    if isValidUlid hostId then
      (secretValue secret).bind fun value ↦ (epochValue deliveryEpoch).bind fun epoch ↦
        match promptId with
        | some (.ulid p) => some ⟨p, epoch, value⟩
        | some (.other _) => none
        | none => (resolveLegacyAuthPromptId s clientId hostId).map fun p ↦ ⟨p, none, value⟩
    else none
  | .hostVerifyResponse (.ulid p) action | .agentBinaryVerifyResponse (.ulid p) action =>
    if action ∈ actions then some ⟨p, none, some action⟩ else none
  | .hostVerifyResponse (.other _) _ | .agentBinaryVerifyResponse (.other _) _ => none

/-! ## What is done with the value -/

inductive TrustDecision
  | rejected
  | permanent
  | once
  deriving DecidableEq

/-- `promptHostKeyVerify`, and what `_connectSshAgent` does with its result. -/
def hostKeyDecision (result : Option String) : TrustDecision :=
  let action := result.getD "reject"
  if action = "reject" then .rejected
  else if action = "trust_permanent" then .permanent
  else .once

/-- `buildBinaryVerifyPrompt`, and what `deployAgentIfNeeded` does with its result. -/
def agentBinaryDecision (result : Option String) : TrustDecision :=
  let action := result.getD "reject"
  if action = "trust_permanent" then .permanent
  else if action = "trust_once" then .once
  else .rejected

/-- Whether a host key or an agent binary is accepted when a prompt is resolved with a value. -/
def approves : PromptType → Option String → Bool
  | .hostVerify, result => hostKeyDecision result ≠ .rejected
  | .agentVerify, result => agentBinaryDecision result ≠ .rejected
  | .passphrase, _ | .elevation, _ => false

def isTrust : PromptType → Bool
  | .hostVerify | .agentVerify => true
  | .passphrase | .elevation => false

/-! ## Runs -/

inductive AnswerEvent
  /-- An operation of the registry that is not the arrival of an answer. -/
  | registry (e : Prompts.Event)
  | message (clientId : String) (msg : ClientMessage)

/-- The answer that comes with a verify response. -/
def AnswerEvent.action : AnswerEvent → Option String
  | .registry _ => none
  | .message _ msg => msg.action

def isRespond : Prompts.Event → Bool
  | .respond .. => true
  | _ => false

def step (s : Prompts) : AnswerEvent → Option Prompts
  | .registry e => if isRespond e then none else s.step e
  | .message clientId msg =>
    match answer s clientId msg with
    | none => some s
    | some a => s.step (.respond a.promptId clientId a.deliveryEpoch a.value)

/-- What a prompt may be resolved with. A prompt that is issued in the same step has no type yet. -/
def Proper (e : AnswerEvent) : Option PromptType → Option String → Prop
  | none, value => value = none
  | some type, value =>
    (isTrust type → value = none ∨ ∃ action ∈ e.action, action ∈ actions ∧ value = some action) ∧
      (approves type value →
        ∃ action ∈ e.action, action ∈ ["trust_permanent", "trust_once"] ∧ value = some action) ∧
      (isTrust type = false → e.action = none)

/-- Trust prompts only take trust answers, and prompts for secrets no verify responses. -/
def TrustAnswers (s : Prompts) (e : AnswerEvent) (s' : Prompts) : Prop :=
  ∀ p value, s'.answers p = s.answers p ++ [value] →
    Proper e ((s.delivery p).map Prompts.Delivery.type) value

/-- A message that the registry accepts for a prompt is of the kind of this prompt: a secret that
names a verification, or a verify response that names a prompt for a secret, does not come from the
client that the prompt was sent to. -/
def Matched (s : Prompts) : AnswerEvent → Prompts → Prop
  | .registry _, _ => True
  | .message clientId msg, _ =>
    ∀ a ∈ answer s clientId msg, s.accepts a.promptId clientId a.deliveryEpoch →
      ∀ d ∈ s.delivery a.promptId,
        if msg.action.isSome then isTrust d.type = true else isTrust d.type = true → a.value = none

variable {s s' : Prompts} {e : AnswerEvent} {clientId : String} {msg : ClientMessage} {a : Answer}

/-! ## One step -/

theorem answer_value_of_action (ha : answer s clientId msg = some a) {action : String}
    (haction : msg.action = some action) : action ∈ actions ∧ a.value = some action := by
  rcases msg with ⟨hostId, secret, promptId, epoch⟩ | ⟨p | text, action'⟩ | ⟨p | text, action'⟩
  · cases haction
  all_goals
    cases haction
    simp only [answer] at ha
    first
      | cases ha
      | split at ha
        · rename_i hmem
          cases ha
          exact ⟨hmem, rfl⟩
        · cases ha

theorem answers_respond (s : Prompts) (haccepts : s.accepts a.promptId clientId a.deliveryEpoch) :
    (s.respond a.promptId clientId a.deliveryEpoch a.value).1.answers a.promptId =
      s.answers a.promptId ++ [a.value] := by
  have hresolved : ((s.clearPrompt a.promptId).resolve a.promptId a.value).resolved =
      s.resolved ++ [(a.promptId, a.value)] := by
    rw [Prompts.resolve, (Prompts.clearPrompt_fields s a.promptId).2.2.2.2.2.2]
  rw [Prompts.respond, if_pos haccepts, Prompts.answers_append hresolved]
  simp

theorem approves_trust_action {type : PromptType} {action : String} (hmem : action ∈ actions)
    (happroves : approves type (some action)) : action ∈ ["trust_permanent", "trust_once"] := by
  simp only [actions, List.mem_cons, List.not_mem_nil, or_false] at hmem ⊢
  rcases hmem with rfl | rfl | rfl
  · exact .inl rfl
  · exact .inr rfl
  · rcases type <;> simp [approves, hostKeyDecision, agentBinaryDecision] at happroves

theorem not_approves_none (type : PromptType) : approves type none = false := by
  rcases type <;> rfl

theorem approves_isTrust {type : PromptType} {value : Option String} (h : approves type value) :
    isTrust type = true := by
  rcases type <;> first | rfl | cases h

/-- A promise that is resolved with null, and not by a verify response. -/
theorem proper_none (hnone : e.action = none) (type : Option PromptType) : Proper e type none := by
  rcases type with _ | type
  · rfl
  · refine ⟨fun _ ↦ .inl rfl, fun h ↦ ?_, fun _ ↦ hnone⟩
    rw [not_approves_none] at h
    cases h

/-- An accepted message. -/
theorem proper_iff (ha : answer s clientId msg = some a) (type : PromptType) :
    Proper (.message clientId msg) (some type) a.value ↔
      if msg.action.isSome then isTrust type = true else isTrust type = true → a.value = none := by
  rcases haction : msg.action with _ | action
  · have hnone : ∀ action, ¬ action ∈ (AnswerEvent.message clientId msg).action := by
      intro action hmem
      rw [AnswerEvent.action, haction] at hmem
      cases hmem
    simp only [Option.isSome_none, Bool.false_eq_true, if_false]
    constructor
    · rintro ⟨htrust, -, -⟩ htype
      rcases htrust htype with hvalue | ⟨action, hmem, -⟩
      · exact hvalue
      · exact absurd hmem (hnone action)
    · intro h
      refine ⟨fun htype ↦ .inl (h htype), fun happroves ↦ ?_, fun _ ↦ haction⟩
      rw [h (approves_isTrust happroves), not_approves_none] at happroves
      cases happroves
  · obtain ⟨hmem, hvalue⟩ := answer_value_of_action ha haction
    simp only [Option.isSome_some, if_true]
    constructor
    · rintro ⟨-, -, hsecret⟩
      by_contra htype
      have := hsecret (Bool.eq_false_iff.mpr htype)
      rw [AnswerEvent.action, haction] at this
      cases this
    · intro htype
      refine ⟨fun _ ↦ .inr ⟨action, haction, hmem, hvalue⟩, fun happroves ↦ ?_, fun hfalse ↦ ?_⟩
      · rw [hvalue] at happroves
        exact ⟨action, haction, approves_trust_action hmem happroves, hvalue⟩
      · rw [htype] at hfalse
        cases hfalse

theorem trustAnswers_iff_matched_step (h : s.Coherent) (hstep : step s e = some s') :
    s'.Coherent ∧ (TrustAnswers s e s' ↔ Matched s e s') := by
  rcases e with e | ⟨clientId, msg⟩
  · simp only [step] at hstep
    obtain ⟨hrespond, hstep⟩ := Option.ite_none_left_eq_some.mp hstep
    refine ⟨(Prompts.step_fate h hstep).1, fun _ ↦ trivial, fun _ p value hvalue ↦ ?_⟩
    rcases Prompts.step_resolution h hstep p with hsame | ⟨value', hresolution, hanswers⟩
    · rw [hsame] at hvalue
      simp at hvalue
    · obtain rfl : value' = value := by simpa using hanswers.symm.trans hvalue
      rcases hresolution with ⟨d, -, -, -, rfl⟩ | -
      · exact absurd rfl hrespond
      · exact proper_none rfl _
  · simp only [step] at hstep
    rcases ha : answer s clientId msg with _ | a
    · rw [ha] at hstep
      cases hstep
      refine ⟨h, fun _ a ha' ↦ ?_, fun _ p value hvalue ↦ ?_⟩
      · rw [ha] at ha'
        cases ha'
      · simp at hvalue
    · rw [ha] at hstep
      refine ⟨(Prompts.step_fate h hstep).1, fun htrust a' ha' haccepts d hd ↦ ?_,
        fun hmatched p value hvalue ↦ ?_⟩
      · cases ha.symm.trans ha'
        have hanswers : s'.answers a.promptId = s.answers a.promptId ++ [a.value] := by
          rw [← Option.some.inj hstep]
          exact answers_respond s haccepts
        have hproper := htrust a.promptId a.value hanswers
        rw [show s.delivery a.promptId = some d from hd, Option.map_some] at hproper
        exact (proper_iff ha d.type).mp hproper
      · rcases Prompts.step_resolution h hstep p with hsame | ⟨value', hresolution, hanswers⟩
        · rw [hsame] at hvalue
          simp at hvalue
        · obtain rfl : value' = value := by simpa using hanswers.symm.trans hvalue
          rcases hresolution with ⟨d, hd, hroute, hepoch, hevent⟩ | hnever
          · cases hevent
            have haccepts : s.accepts a.promptId clientId a.deliveryEpoch :=
              (Prompts.accepts_iff h).mpr ⟨d, hd, hroute, hepoch⟩
            rw [hd, Option.map_some]
            exact (proper_iff ha d.type).mpr (hmatched a ha haccepts d hd)
          · exact absurd rfl (hnever _ _ _ _)

/-! ## Whole runs -/

/-- **Trust prompts take trust answers exactly while the kinds match.** Along a run of the registry
with any messages from clients, a host-key or agent-binary verification is resolved with null or
with the answer of a verify response only, nothing else approves a key or a binary, and no verify
response resolves a prompt for a secret, if and only if every message that the registry accepts is
of the kind of its prompt. -/
theorem trustAnswers_iff_matched (es : List AnswerEvent) :
    Along step TrustAnswers Prompts.empty es ↔ Along step Matched Prompts.empty es := by
  have hstep : ∀ s e s', s.Coherent → step s e = some s' →
      s'.Coherent ∧ (TrustAnswers s e s' ↔ Matched s e s') :=
    fun _ _ _ h hstep ↦ trustAnswers_iff_matched_step h hstep
  exact along_congr Prompts.Coherent hstep Prompts.coherent_empty

/-- A client asks for a session on an unknown host, and answers the HOST_VERIFY with the secret of
an AUTH_PROMPT_RESPONSE. -/
def secretForHostKey : List AnswerEvent :=
  [.registry (.addClient "page"),
    .registry (.getOrOpen (.owned "acq") "01ARZ3NDEKTSV4RRFFQ69G5FAV" "page"),
    .registry (.prompt (.owned "acq") .hostVerify "SHA256:unknown" false),
    .message "page" (.authPromptResponse "01ARZ3NDEKTSV4RRFFQ69G5FAV" (.text "hunter2")
      (some (.ulid 0))
      .missing)]

/-- The secret resolves the verification of the host key, and the key is approved. -/
theorem secret_approves_host_key :
    ∃ es s, run step Prompts.empty es = some s ∧ s.answers 0 = [some "hunter2"] ∧
      hostKeyDecision (some "hunter2") = .once ∧ ¬ Along step TrustAnswers Prompts.empty es := by
  refine ⟨secretForHostKey, _, rfl, rfl, rfl, fun halong ↦ ?_⟩
  have htrust := along_getElem halong 3 rfl rfl rfl
  rcases (htrust 0 (some "hunter2") rfl).1 rfl with h | ⟨action, h, -⟩
  · cases h
  · cases h

end Lasterm.Wire
