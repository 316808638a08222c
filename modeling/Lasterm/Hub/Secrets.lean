import Lasterm.Hub.PromptContext
import Lasterm.Hub.Spool
import Lasterm.Library.OrderedSet

/-!
# Cached secrets

What the hub keeps of the secrets that users enter. A connect over SSH asks for the passphrase of a
key, and `passphraseCache` keeps the answer under the host. An elevated spawn or restart asks for a
password if the agent needs one, and `elevationCache` keeps the answer under the host and the
client. Later attempts look there first. An answer has the client that gave it and the prompt that
it is for, so that it can be traced through the caches to the attempts and the SPAWN frames.

A prompt is seen from outside: it is answered by the client that it is routed to, or its promise is
resolved with null, and a prompt of a connect may move to another client. What routes it is the
subject of `Hub.PromptContext`. What a key file makes of a passphrase, and what an agent answers, is
a guess of an event. Host ids have no colon, so that a key of `elevationCache` is a pair.

## The invariant

A secret in a SPAWN frame is of the client of the spawn, or of the client that a restart would
prompt. `Owned` carries this from the prompt to the frame: an answer that is not for a session is of
the client that its prompt is routed to, an elevation waits for a prompt that is routed to its own
client, an entry of `elevationCache` is of the client of its key, and a frame has an answer of the
client of its elevation (`Elevation.Owns`). The exception is a restart that finds no client to
prompt (`secrets_stay`).

Prompts change in one way only (`Becomes`): a result is set once, and a prompt for an elevation does
not move. An operation that leaves the cache of elevations, the elevations and the frames alone
(`Aside`) keeps the invariant for this reason.

## Other secrets

That the secrets of other clients make no difference is shown with a relabelling of the secrets
(`relabel`): the hub looks at no secret, so that it commutes with every step (`step_relabel`), and
the frames of a client are the same with the secrets of all others blank (`framesOf_run`).
-/

namespace Lasterm.Hub

open Runs

/-- The `promptType` of an AUTH_PROMPT. -/
inductive AuthPromptType
  | password
  | passphrase
  | elevation
  deriving DecidableEq

/-- A secret, with the client that entered it and the prompt that it answers. -/
structure SecretAnswer where
  clientId : ℕ
  promptId : ℕ
  secret : String

/-- An entry of one of the caches. -/
structure CachedSecret where
  answer : SecretAnswer
  expiresAt : ℕ

/-- A prompt, with what `handleAuthPromptResponse` reads of its context. -/
structure AuthPrompt where
  hostId : String
  kind : ContextKind
  type : PromptType
  /-- Of the payload. -/
  promptType : Option AuthPromptType
  routeClientId : ℕ
  deliveryEpoch : ℕ
  /-- What the promise is resolved with: null or an answer. -/
  result : Option (Option SecretAnswer)

/-- The `buildSshConnectConfig` of a connect that has asked. -/
structure SshConnect where
  promptType : AuthPromptType
  promptId : ℕ
  settled : Bool

inductive ElevationOrigin
  | spawn (clientId : ℕ)
  | restart (channelId : ChannelId) (requestingClientId : Option ℕ)

inductive ElevationStage
  /-- A SPAWN without a secret is out, and a prompt follows if the agent needs one. -/
  | passwordless
  | prompting (promptId : ℕ)
  /-- The last SPAWN is out. -/
  | last (answer : Option SecretAnswer)
  | done

/-- An elevated spawn, or an elevated restart. -/
structure Elevation where
  origin : ElevationOrigin
  hostId : String
  /-- The client to prompt. -/
  client : Option ℕ
  stage : ElevationStage
  /-- The client was prompted. -/
  prompted : Bool

/-- An elevated SPAWN to an agent. Its `elevationSecret` is that of the answer. -/
structure SpawnFrame where
  /-- The number of the elevation. -/
  elevation : ℕ
  hostId : String
  answer : Option SecretAnswer

inductive SpawnErrCode
  /-- ELEVATION_PASSWORD_REQUIRED. -/
  | passwordRequired
  /-- Another code of an elevation. -/
  | elevation
  | other
  deriving DecidableEq

inductive SpawnReply
  | ok
  | err (code : SpawnErrCode)
  /-- A timeout, or the end of the hub. -/
  | none

structure SecretHub where
  now : ℕ
  clients : OrderedSet ℕ
  /-- The prompts that there ever were. -/
  prompts : List AuthPrompt
  passphraseCache : OrderedMap String CachedSecret
  elevationCache : OrderedMap (String × ℕ) CachedSecret
  connects : List SshConnect
  elevations : List Elevation
  /-- The elevated SPAWN frames, the latest first. -/
  frames : List SpawnFrame
  /-- The entries of the caches that were used, the latest first. -/
  replays : List CachedSecret
  /-- The prompts whose answers have failed. -/
  rejected : List ℕ

inductive SecretEvent
  | tick (time : ℕ)
  | addClient (k : ℕ)
  | removeClient (k : ℕ)
  /-- `retarget`. -/
  | reroute (p k : ℕ)
  /-- A prompt is over without an answer. -/
  | cancel (p : ℕ)
  /-- A prompt of `promptHostKeyVerify`, or one for an agent binary. -/
  | verify (hostId : String) (kind : ContextKind) (type : PromptType) (k : ℕ)
  /-- The connect of a SPAWN, or of a restart. `route` is the client of the context, if there is
  one. -/
  | connect (hostId : String) (promptType : AuthPromptType) (route : Option ℕ) (decrypts : Bool)
  /-- An attempt of `scheduleReconnect`. -/
  | reconnect (hostId : String) (decrypts : Bool)
  | testConnect (hostId : String) (promptType : AuthPromptType) (k : ℕ)
  /-- A connect goes on behind its prompt. -/
  | connectAnswered (n : ℕ) (decrypts : Bool)
  /-- AUTH_PROMPT_RESPONSE. -/
  | response (k : ℕ) (hostId : String) (secret : Option String) (rememberSession : Bool)
    (promptId deliveryEpoch : Option ℕ)
  /-- The elevated branch of `handleSpawn`. -/
  | spawn (k : ℕ) (hostId : String)
  /-- That of `restartChannel`. `attached` is the first client of the channel object that it has. -/
  | restart (c : ChannelId) (hostId : String) (requestingClientId attached : Option ℕ)
  /-- What the agent answers to the SPAWN of an elevation. -/
  | reply (n : ℕ) (r : SpawnReply)
  /-- An elevation goes on behind its prompt. -/
  | elevationAnswered (n : ℕ)

/-- A code of an elevation. -/
def SpawnErrCode.isElevation : SpawnErrCode → Bool
  | other => false
  | _ => true

namespace ElevationOrigin

/-- The client that asks. -/
def requester : ElevationOrigin → Option ℕ
  | spawn clientId => some clientId
  | restart _ requestingClientId => requestingClientId

def isRestart : ElevationOrigin → Bool
  | spawn _ => false
  | restart .. => true

/-- How long `elevationCache` keeps an answer, in milliseconds. -/
def ttl : ElevationOrigin → ℕ
  | spawn _ => 300000
  | restart .. => 900000

end ElevationOrigin

namespace AuthPrompt

def isPending (q : AuthPrompt) : Bool := q.result = none

/-- `_isCacheableSessionPassphrase`. -/
def isCacheable (q : AuthPrompt) : Bool :=
  q.type = .passphrase ∧ q.kind = .session ∧ q.promptType = some .passphrase

/-- What `respond` checks of an answer. -/
def accepts (q : AuthPrompt) (k : ℕ) (deliveryEpoch : Option ℕ) : Bool :=
  q.isPending ∧ q.routeClientId = k ∧ ∀ epoch ∈ deliveryEpoch, epoch = q.deliveryEpoch

/-- What `_resolveLegacyAuthPromptId` looks for. -/
def isLegacyMatch (q : AuthPrompt) (k : ℕ) (hostId : String) : Bool :=
  q.isPending ∧ q.hostId = hostId ∧ q.routeClientId = k ∧
    (q.type = .passphrase ∨ q.type = .elevation)

end AuthPrompt

namespace SecretHub

def start : SecretHub := ⟨0, .empty, [], .empty, .empty, [], [], [], [], []⟩

variable (s : SecretHub)

/-! ## Prompts -/

def openPrompt (q : AuthPrompt) : SecretHub := { s with prompts := s.prompts ++ [q] }

def setPrompt (p : ℕ) (f : AuthPrompt → AuthPrompt) : SecretHub :=
  { s with prompts := s.prompts.modify p f }

/-- Resolve the promise of a prompt with null, if it is pending. -/
def cancel (p : ℕ) : SecretHub :=
  s.setPrompt p fun q ↦ if q.isPending then { q with result := some none } else q

/-- The client goes, and with it the prompts that cannot move. -/
def removeClient (k : ℕ) : SecretHub :=
  { s with
    clients := s.clients.delete k
    prompts := s.prompts.map fun q ↦
      if q.isPending ∧ q.kind ≠ .session ∧ q.routeClientId = k then { q with result := some none }
      else q }

def reroute (p k : ℕ) : SecretHub :=
  s.setPrompt p fun q ↦
    if q.isPending ∧ q.kind = .session then
      { q with routeClientId := k, deliveryEpoch := q.deliveryEpoch + 1 }
    else q

/-- `prompt` on a context that is routed to a client. -/
def prompt (hostId : String) (kind : ContextKind) (type : PromptType)
    (promptType : Option AuthPromptType) (k : ℕ) : SecretHub :=
  s.openPrompt ⟨hostId, kind, type, promptType, k, 1, none⟩

/-- `respondCtx` for a prompt that accepts the answer, and `_cacheAcceptedPassphrase`. -/
def respond (p : ℕ) (q : AuthPrompt) (answer : Option SecretAnswer) (rememberSession : Bool) :
    SecretHub :=
  let t := s.setPrompt p fun q ↦ { q with result := some answer }
  match answer with
  | none => t
  | some a =>
    if q.isCacheable then
      let ttl := if rememberSession then 15 * 60 * 1000 else 60 * 1000
      { t with passphraseCache := s.passphraseCache.set q.hostId ⟨a, s.now + ttl⟩ }
    else t

/-- The prompts that an answer without an id may be for. -/
def legacyMatches (k : ℕ) (hostId : String) : List ℕ :=
  (List.range s.prompts.length).filter fun p ↦
    s.prompts[p]?.any fun q ↦ q.isLegacyMatch k hostId

/-- The prompt that an answer is for. -/
def addressee (k : ℕ) (hostId : String) (promptId : Option ℕ) : Option ℕ :=
  match promptId with
  | some p => some p
  | none =>
    match s.legacyMatches k hostId with
    | [p] => some p
    | _ => none

def handleAuthPromptResponse (k : ℕ) (hostId : String) (secret : Option String)
    (rememberSession : Bool) (promptId deliveryEpoch : Option ℕ) : SecretHub :=
  match s.addressee k hostId promptId with
  | none => s
  | some p =>
    match s.prompts[p]? with
    | none => s
    | some q =>
      if q.accepts k deliveryEpoch then s.respond p q (secret.map (⟨k, p, ·⟩)) rememberSession
      else s

/-! ## Connects -/

/-- The entry of a cache, if it has not expired. -/
def fresh (e : Option CachedSecret) : Option CachedSecret := e.filter fun e ↦ s.now < e.expiresAt

/-- A cached secret is used. -/
def useCached (e : CachedSecret) : SecretHub := { s with replays := e :: s.replays }

/-- An answer has failed. -/
def reject (a : SecretAnswer) : SecretHub := { s with rejected := a.promptId :: s.rejected }

/-- `buildSshConnectConfig` with a passphrase. -/
def tryPassphrase (a : SecretAnswer) (decrypts : Bool) : SecretHub :=
  if decrypts then s else s.reject a

def askSecret (hostId : String) (kind : ContextKind) (promptType : AuthPromptType) (k : ℕ) :
    SecretHub :=
  if k ∈ s.clients then
    { s.prompt hostId kind .passphrase (some promptType) k with
      connects := s.connects ++ [⟨promptType, s.prompts.length, false⟩] }
  else s

/-- The callback of `buildPromptAuth`. -/
def connect (hostId : String) (promptType : AuthPromptType) (route : Option ℕ) (decrypts : Bool) :
    SecretHub :=
  if promptType = .passphrase then
    match s.fresh (s.passphraseCache.get hostId) with
    | some e => (s.useCached e).tryPassphrase e.answer decrypts
    | none =>
      let t := { s with passphraseCache := s.passphraseCache.delete hostId }
      route.elim t fun k ↦ t.askSecret hostId .session promptType k
  else route.elim s fun k ↦ s.askSecret hostId .session promptType k

/-- That of `buildCacheOnlyPromptAuth`, for a passphrase. -/
def reconnect (hostId : String) (decrypts : Bool) : SecretHub :=
  match s.fresh (s.passphraseCache.get hostId) with
  | some e => (s.useCached e).tryPassphrase e.answer decrypts
  | none => { s with passphraseCache := s.passphraseCache.delete hostId }

def connectAnswered (n : ℕ) (x : SshConnect) (result : Option SecretAnswer) (decrypts : Bool) :
    SecretHub :=
  let t := { s with connects := s.connects.set n { x with settled := true } }
  match result with
  | none => t
  | some a => if x.promptType = .passphrase then t.tryPassphrase a decrypts else t

/-! ## Elevations -/

def setElevation (n : ℕ) (o : Elevation) : SecretHub :=
  { s with elevations := s.elevations.set n o }

def sendSpawn (n : ℕ) (hostId : String) (answer : Option SecretAnswer) : SecretHub :=
  { s with frames := ⟨n, hostId, answer⟩ :: s.frames }

/-- The first SPAWN of an elevation. -/
def elevate (o : Elevation) (answer : Option SecretAnswer) : SecretHub :=
  { s with elevations := s.elevations ++ [o] }.sendSpawn s.elevations.length o.hostId answer

/-- An elevation with a client to prompt. -/
def elevateFor (origin : ElevationOrigin) (hostId : String) (k : ℕ) : SecretHub :=
  match s.fresh (s.elevationCache.get (hostId, k)) with
  | some e =>
    (s.useCached e).elevate ⟨origin, hostId, some k, .last (some e.answer), false⟩ (some e.answer)
  | none => s.elevate ⟨origin, hostId, some k, .passwordless, false⟩ none

def handleSpawn (k : ℕ) (hostId : String) : SecretHub := s.elevateFor (.spawn k) hostId k

/-- The client that a restart would prompt: the one that asks for it, or the first of the
channel. -/
def promptClient (requestingClientId attached : Option ℕ) : Option ℕ :=
  (requestingClientId.filter (· ∈ s.clients)).or (attached.filter (· ∈ s.clients))

/-- The first entry of the host that has not expired. -/
def anyCached (hostId : String) : Option CachedSecret :=
  (s.elevationCache.entries.find? fun e ↦ e.1.1 = hostId ∧ s.now < e.2.expiresAt).map Prod.snd

def restartChannel (c : ChannelId) (hostId : String) (requestingClientId attached : Option ℕ) :
    SecretHub :=
  let origin := ElevationOrigin.restart c requestingClientId
  match s.promptClient requestingClientId attached with
  | some k => s.elevateFor origin hostId k
  | none =>
    match s.anyCached hostId with
    | some e =>
      (s.useCached e).elevate ⟨origin, hostId, none, .last (some e.answer), false⟩ (some e.answer)
    | none => s.elevate ⟨origin, hostId, none, .last none, false⟩ none

/-- The agent needs a password. -/
def askElevation (n : ℕ) (o : Elevation) (k : ℕ) : SecretHub :=
  if k ∈ s.clients then
    (s.prompt o.hostId .elevation .elevation (some .elevation) k).setElevation n
      { o with stage := .prompting s.prompts.length, prompted := true }
  else s.setElevation n { o with stage := .done }

/-- What the agent answers to the last SPAWN. -/
def spawnSettled (answer : Option SecretAnswer) (r : SpawnReply) : SecretHub :=
  match answer, r with
  | some a, .err code => if code.isElevation then s.reject a else s
  | _, _ => s

def reply (n : ℕ) (o : Elevation) (r : SpawnReply) : Option SecretHub :=
  match o.stage with
  | .passwordless =>
    match o.client, r with
    | some k, .err .passwordRequired => some (s.askElevation n o k)
    | _, _ => some (s.setElevation n { o with stage := .done })
  | .last answer => some ((s.spawnSettled answer r).setElevation n { o with stage := .done })
  | _ => none

def cacheElevation (hostId : String) (k : ℕ) (e : CachedSecret) : SecretHub :=
  { s with elevationCache := s.elevationCache.set (hostId, k) e }

/-- The answer is cached, and goes out with a second SPAWN. -/
def elevationAnswered (n : ℕ) (o : Elevation) (result : Option SecretAnswer) : SecretHub :=
  match o.client, result with
  | some k, some a =>
    ((s.cacheElevation o.hostId k ⟨a, s.now + o.origin.ttl⟩).setElevation n
      { o with stage := .last (some a) }).sendSpawn n o.hostId (some a)
  | _, _ => s.setElevation n { o with stage := .done }

/-! ## Steps -/

def result (p : ℕ) : Option (Option SecretAnswer) := s.prompts[p]?.bind AuthPrompt.result

/-- The prompt that an elevation waits for. -/
def awaited : ElevationStage → Option ℕ
  | .prompting p => some p
  | _ => none

def step : SecretEvent → Option SecretHub
  | .tick time => some { s with now := s.now + time }
  | .addClient k => some { s with clients := s.clients.add k }
  | .removeClient k => some (s.removeClient k)
  | .reroute p k => some (s.reroute p k)
  | .cancel p => some (s.cancel p)
  | .verify hostId kind type k => some (s.prompt hostId kind type none k)
  | .connect hostId promptType route decrypts => some (s.connect hostId promptType route decrypts)
  | .reconnect hostId decrypts => some (s.reconnect hostId decrypts)
  | .testConnect hostId promptType k => some (s.askSecret hostId .test promptType k)
  | .connectAnswered n decrypts =>
    (s.connects[n]?.filter fun x ↦ !x.settled).bind fun x ↦
      (s.result x.promptId).map fun result ↦ s.connectAnswered n x result decrypts
  | .response k hostId secret rememberSession promptId deliveryEpoch =>
    if k ∈ s.clients then
      some (s.handleAuthPromptResponse k hostId secret rememberSession promptId deliveryEpoch)
    else none
  | .spawn k hostId => some (s.handleSpawn k hostId)
  | .restart c hostId requestingClientId attached =>
    some (s.restartChannel c hostId requestingClientId attached)
  | .reply n r => s.elevations[n]?.bind fun o ↦ s.reply n o r
  | .elevationAnswered n =>
    s.elevations[n]?.bind fun o ↦ (awaited o.stage).bind fun p ↦
      (s.result p).map fun result ↦ s.elevationAnswered n o result

/-! ## What becomes of a prompt -/

/-- A prompt stays what it is, and is resolved once: with null, or by the client that it is routed
to. Only a prompt of a session moves. -/
structure Becomes (q q' : AuthPrompt) : Prop where
  hostId : q'.hostId = q.hostId
  kind : q'.kind = q.kind
  type : q'.type = q.type
  promptType : q'.promptType = q.promptType
  route : q.kind ≠ .session → q'.routeClientId = q.routeClientId
  result : q'.result = q.result ∨
    (q.result = none ∧ ∀ a, q'.result = some (some a) → a.clientId = q.routeClientId)

/-- What became of the prompts of `s`. Those that came since have no result. -/
structure PromptsBecome (s t : SecretHub) : Prop where
  old : ∀ (p : ℕ) q, s.prompts[p]? = some q → ∃ q', t.prompts[p]? = some q' ∧ Becomes q q'
  new : ∀ (p : ℕ) q', t.prompts[p]? = some q' →
    q'.result = none ∨ ∃ q, s.prompts[p]? = some q ∧ Becomes q q'

variable {s} {t u : SecretHub} {q q' : AuthPrompt} {o : Elevation} {k n p : ℕ} {hostId : String}
  {answer : Option SecretAnswer}

theorem Becomes.refl (q : AuthPrompt) : Becomes q q := ⟨rfl, rfl, rfl, rfl, fun _ ↦ rfl, .inl rfl⟩

theorem promptsBecome_of_eq (h : t.prompts = s.prompts) : PromptsBecome s t where
  old _ q hq := ⟨q, h ▸ hq, .refl q⟩
  new _ q hq := .inr ⟨q, h ▸ hq, .refl q⟩

theorem promptsBecome_map {f : AuthPrompt → AuthPrompt} (h : t.prompts = s.prompts.map f)
    (hf : ∀ q, Becomes q (f q)) : PromptsBecome s t where
  old p q hq := ⟨f q, by rw [h, List.getElem?_map, hq, Option.map_some], hf q⟩
  new p q' hq' := by
    rw [h, List.getElem?_map] at hq'
    obtain ⟨q, hq, rfl⟩ := Option.map_eq_some_iff.mp hq'
    exact .inr ⟨q, hq, hf q⟩

theorem promptsBecome_modify {f : AuthPrompt → AuthPrompt} (h : t.prompts = s.prompts.modify p f)
    (hf : ∀ q, s.prompts[p]? = some q → Becomes q (f q)) : PromptsBecome s t where
  old p' q hq := by
    rw [h, List.getElem?_modify, hq]
    refine ⟨_, rfl, ?_⟩
    split
    · rename_i heq
      exact hf q (heq ▸ hq)
    · exact .refl q
  new p' q' hq' := by
    rw [h, List.getElem?_modify] at hq'
    obtain ⟨q, hq, rfl⟩ := Option.map_eq_some_iff.mp hq'
    refine .inr ⟨q, hq, ?_⟩
    split
    · rename_i heq
      exact hf q (heq ▸ hq)
    · exact .refl q

theorem promptsBecome_append (h : t.prompts = s.prompts ++ [q]) (hq : q.result = none) :
    PromptsBecome s t where
  old p q' hq' := by
    rw [h, List.getElem?_append_left (List.getElem?_eq_some_iff.mp hq').1]
    exact ⟨q', hq', .refl q'⟩
  new p q' hq' := by
    rw [h, List.getElem?_append] at hq'
    split at hq'
    · exact .inr ⟨q', hq', .refl q'⟩
    · rw [List.getElem?_singleton] at hq'
      split at hq'
      · cases hq'
        exact .inl hq
      · cases hq'

/-- No elevation goes on. -/
structure Untouched (s t : SecretHub) : Prop where
  cache : t.elevationCache = s.elevationCache
  elevations : t.elevations = s.elevations
  frames : t.frames = s.frames

/-! ### Prompts that end or move -/

theorem promptsBecome_cancel (p : ℕ) : PromptsBecome s (s.cancel p) := by
  refine promptsBecome_modify rfl fun q _ ↦ ?_
  split
  · rename_i hpending
    exact ⟨rfl, rfl, rfl, rfl, fun _ ↦ rfl, .inr ⟨of_decide_eq_true hpending, by simp⟩⟩
  · exact .refl q

theorem promptsBecome_removeClient (k : ℕ) : PromptsBecome s (s.removeClient k) := by
  refine promptsBecome_map rfl fun q ↦ ?_
  split
  · rename_i hcond
    exact ⟨rfl, rfl, rfl, rfl, fun _ ↦ rfl, .inr ⟨of_decide_eq_true hcond.1, by simp⟩⟩
  · exact .refl q

theorem promptsBecome_reroute (p k : ℕ) : PromptsBecome s (s.reroute p k) := by
  refine promptsBecome_modify rfl fun q _ ↦ ?_
  split
  · rename_i hcond
    exact ⟨rfl, rfl, rfl, rfl, fun hkind ↦ absurd hcond.2 hkind, .inl rfl⟩
  · exact .refl q

/-! ### Prompts that are answered -/

theorem prompts_respond {rememberSession : Bool} : (s.respond p q answer rememberSession).prompts =
      s.prompts.modify p fun q ↦ { q with result := some answer } := by
  rcases answer with _ | a
  · rfl
  · dsimp only [respond]
    split <;> rfl

theorem untouched_respond {rememberSession : Bool} :
    Untouched s (s.respond p q answer rememberSession) := by
  rcases answer with _ | a
  · exact ⟨rfl, rfl, rfl⟩
  · dsimp only [respond]
    split <;> exact ⟨rfl, rfl, rfl⟩

/-- An answer is taken or not, and does nothing else. -/
theorem handleAuthPromptResponse_rule {motive : SecretHub → Prop} {secret : Option String}
    {rememberSession : Bool} {promptId deliveryEpoch : Option ℕ} (h : motive s)
    (hrespond : ∀ p q, s.prompts[p]? = some q → q.result = none → q.routeClientId = k →
      motive (s.respond p q (secret.map (⟨k, p, ·⟩)) rememberSession)) :
    motive (s.handleAuthPromptResponse k hostId secret rememberSession promptId deliveryEpoch) := by
  rw [handleAuthPromptResponse]
  split
  · exact h
  · split
    · exact h
    · rename_i p _ _ q hq
      split
      · rename_i haccepts
        obtain ⟨hpending, hroute, -⟩ := of_decide_eq_true haccepts
        exact hrespond p q hq (of_decide_eq_true hpending) hroute
      · exact h

theorem promptsBecome_respond (hq : s.prompts[p]? = some q) (hnone : q.result = none)
    (hroute : q.routeClientId = k) (secret : Option String) (rememberSession : Bool) :
    PromptsBecome s (s.respond p q (secret.map (⟨k, p, ·⟩)) rememberSession) := by
  refine promptsBecome_modify prompts_respond fun q' hq' ↦ ?_
  cases hq.symm.trans hq'
  refine ⟨rfl, rfl, rfl, rfl, fun _ ↦ rfl, .inr ⟨hnone, fun a ha ↦ ?_⟩⟩
  obtain ⟨x, -, rfl⟩ := Option.map_eq_some_iff.mp (Option.some.inj ha)
  exact hroute.symm

theorem promptsBecome_response {secret : Option String} {rememberSession : Bool}
    {promptId deliveryEpoch : Option ℕ} : PromptsBecome s
      (s.handleAuthPromptResponse k hostId secret rememberSession promptId deliveryEpoch) :=
  handleAuthPromptResponse_rule (promptsBecome_of_eq rfl) fun _ _ hq hnone hroute ↦
    promptsBecome_respond hq hnone hroute secret rememberSession

theorem untouched_response {secret : Option String} {rememberSession : Bool}
    {promptId deliveryEpoch : Option ℕ} : Untouched s
      (s.handleAuthPromptResponse k hostId secret rememberSession promptId deliveryEpoch) :=
  handleAuthPromptResponse_rule ⟨rfl, rfl, rfl⟩ fun _ _ _ _ _ ↦ untouched_respond

/-! ### Connects that ask -/

/-- A prompt of a connect is new. -/
theorem promptsBecome_askSecret (hostId : String) (kind : ContextKind) (promptType : AuthPromptType)
    (k : ℕ) : PromptsBecome s (s.askSecret hostId kind promptType k) := by
  rw [askSecret]
  split
  · exact promptsBecome_append rfl rfl
  · exact promptsBecome_of_eq rfl

theorem untouched_askSecret (hostId : String) (kind : ContextKind) (promptType : AuthPromptType)
    (k : ℕ) : Untouched s (s.askSecret hostId kind promptType k) := by
  rw [askSecret]
  split <;> exact ⟨rfl, rfl, rfl⟩

theorem prompts_tryPassphrase (a : SecretAnswer) (decrypts : Bool) :
    (s.tryPassphrase a decrypts).prompts = s.prompts := by
  rw [tryPassphrase]
  split <;> rfl

theorem untouched_tryPassphrase (a : SecretAnswer) (decrypts : Bool) :
    Untouched s (s.tryPassphrase a decrypts) := by
  rw [tryPassphrase]
  split <;> exact ⟨rfl, rfl, rfl⟩

theorem connect_cases (hostId : String) (promptType : AuthPromptType) (route : Option ℕ)
    (decrypts : Bool) :
    let t := s.connect hostId promptType route decrypts
    (∃ e, promptType = .passphrase ∧ s.fresh (s.passphraseCache.get hostId) = some e ∧
        t = (s.useCached e).tryPassphrase e.answer decrypts) ∨
      ∃ u : SecretHub, (u = s ∨ u = { s with passphraseCache := s.passphraseCache.delete hostId }) ∧
        (t = u ∨ ∃ k, t = u.askSecret hostId .session promptType k) := by
  dsimp only
  rw [connect]
  split
  · rename_i htype
    split
    · rename_i e he
      exact .inl ⟨e, htype, he, rfl⟩
    · refine .inr ⟨_, .inr rfl, ?_⟩
      rcases route with _ | k
      · exact .inl rfl
      · exact .inr ⟨k, rfl⟩
  · refine .inr ⟨_, .inl rfl, ?_⟩
    rcases route with _ | k
    · exact .inl rfl
    · exact .inr ⟨k, rfl⟩

/-! ### Steps beside the elevations -/

/-- What a step does that belongs to no elevation. -/
structure Aside (s t : SecretHub) : Prop extends PromptsBecome s t, Untouched s t

theorem aside_of_eq (h : t.prompts = s.prompts) (ht : Untouched s t) : Aside s t :=
  ⟨promptsBecome_of_eq h, ht⟩

theorem aside_connect (hostId : String) (promptType : AuthPromptType) (route : Option ℕ)
    (decrypts : Bool) : Aside s (s.connect hostId promptType route decrypts) := by
  rcases s.connect_cases hostId promptType route decrypts with
    ⟨e, -, -, h⟩ | ⟨u, hu, h⟩
  · rw [h]
    refine aside_of_eq (prompts_tryPassphrase ..) ?_
    obtain ⟨hcache, helevations, hframes⟩ :=
      (s.useCached e).untouched_tryPassphrase e.answer decrypts
    exact ⟨hcache, helevations, hframes⟩
  -- Nothing fresh was there: an entry that has expired is dropped, and the client is asked.
  · have hsame : u.prompts = s.prompts ∧ Untouched s u := by
      rcases hu with rfl | rfl
      · exact ⟨rfl, rfl, rfl, rfl⟩
      · exact ⟨rfl, rfl, rfl, rfl⟩
    obtain ⟨hprompts, hcache, helevations, hframes⟩ := hsame
    rcases h with h | ⟨k, h⟩
    · rw [h]
      exact aside_of_eq hprompts ⟨hcache, helevations, hframes⟩
    · rw [h]
      have hask := u.promptsBecome_askSecret hostId .session promptType k
      have huntouched := u.untouched_askSecret hostId .session promptType k
      refine ⟨⟨fun p q hq ↦ hask.old p q (hprompts ▸ hq), fun p q hq ↦ ?_⟩,
        huntouched.cache.trans hcache, huntouched.elevations.trans helevations,
        huntouched.frames.trans hframes⟩
      rw [← hprompts]
      exact hask.new p q hq

theorem aside_reconnect (hostId : String) (decrypts : Bool) :
    Aside s (s.reconnect hostId decrypts) := by
  rw [reconnect]
  split
  · rename_i e _
    obtain ⟨hcache, helevations, hframes⟩ :=
      (s.useCached e).untouched_tryPassphrase e.answer decrypts
    exact aside_of_eq (prompts_tryPassphrase ..) ⟨hcache, helevations, hframes⟩
  · exact aside_of_eq rfl ⟨rfl, rfl, rfl⟩

theorem aside_connectAnswered (n : ℕ) (x : SshConnect) (result : Option SecretAnswer)
    (decrypts : Bool) : Aside s (s.connectAnswered n x result decrypts) := by
  rcases result with _ | a
  · exact aside_of_eq rfl ⟨rfl, rfl, rfl⟩
  · dsimp only [connectAnswered]
    split
    · have huntouched := { s with connects := s.connects.set n { x with settled := true } }
        |>.untouched_tryPassphrase a decrypts
      exact aside_of_eq (prompts_tryPassphrase ..)
        ⟨huntouched.cache, huntouched.elevations, huntouched.frames⟩
    · exact aside_of_eq rfl ⟨rfl, rfl, rfl⟩

/-- The event is of an elevation. -/
def elevates : SecretEvent → Prop
  | .spawn .. | .restart .. | .reply .. | .elevationAnswered .. => True
  | _ => False

theorem aside_step {e : SecretEvent} (he : ¬ elevates e) : Ensures (Aside s) (s.step e) := by
  cases e with
  | tick time => exact .of_some (aside_of_eq rfl ⟨rfl, rfl, rfl⟩)
  | addClient k => exact .of_some (aside_of_eq rfl ⟨rfl, rfl, rfl⟩)
  | removeClient k => exact .of_some ⟨promptsBecome_removeClient k, rfl, rfl, rfl⟩
  | reroute p k => exact .of_some ⟨promptsBecome_reroute p k, rfl, rfl, rfl⟩
  | cancel p => exact .of_some ⟨promptsBecome_cancel p, rfl, rfl, rfl⟩
  | verify hostId kind type k => exact .of_some ⟨promptsBecome_append rfl rfl, rfl, rfl, rfl⟩
  | connect hostId promptType route decrypts =>
    exact .of_some (aside_connect hostId promptType route decrypts)
  | reconnect hostId decrypts => exact .of_some (aside_reconnect hostId decrypts)
  | testConnect hostId promptType k =>
    exact .of_some ⟨promptsBecome_askSecret .., untouched_askSecret ..⟩
  | connectAnswered n decrypts =>
    exact .bind fun x _ ↦ .map fun result _ ↦ aside_connectAnswered n x result decrypts
  | response k hostId secret rememberSession promptId deliveryEpoch =>
    rw [step]
    exact .guard fun _ ↦ .of_some ⟨promptsBecome_response, untouched_response⟩
  | _ => exact absurd trivial he

/-! ## Whose secret a frame has -/

/-- The frame has no secret, or that of the client of its elevation, which only a restart may
lack. -/
def Elevation.Owns (o : Elevation) (answer : Option SecretAnswer) : Prop :=
  ∀ a, answer = some a → o.client = some a.clientId ∨ (o.client = none ∧ o.origin.isRestart)

structure Owned (s : SecretHub) : Prop where
  cache : ∀ hostId k e, s.elevationCache.get (hostId, k) = some e → e.answer.clientId = k
  prompting : ∀ (n : ℕ) o p, s.elevations[n]? = some o → o.stage = .prompting p →
    ∃ q, s.prompts[p]? = some q ∧ q.kind = .elevation ∧ o.client = some q.routeClientId
  answered : ∀ (p : ℕ) q a, s.prompts[p]? = some q → q.kind ≠ .session →
    q.result = some (some a) → a.clientId = q.routeClientId
  frames : ∀ f ∈ s.frames, ∃ o, s.elevations[f.elevation]? = some o ∧ Elevation.Owns o f.answer

section

variable (h : s.Owned)
include h

theorem Owned.answered_of_becomes (ht : PromptsBecome s t) (p : ℕ) (q : AuthPrompt)
    (a : SecretAnswer) (hq : t.prompts[p]? = some q) (hkind : q.kind ≠ .session)
    (ha : q.result = some (some a)) : a.clientId = q.routeClientId := by
  rcases ht.new p q hq with hnone | ⟨q₀, hq₀, hbecomes⟩
  · exact nomatch hnone.symm.trans ha
  · rw [hbecomes.kind] at hkind
    rw [hbecomes.route hkind]
    rcases hbecomes.result with hsame | ⟨-, hroute⟩
    · exact h.answered p q₀ a hq₀ hkind (hsame ▸ ha)
    · exact hroute a ha

theorem Owned.prompting_of_becomes (ht : PromptsBecome s t) (n : ℕ) (o : Elevation)
    (p : ℕ) (ho : s.elevations[n]? = some o) (hstage : o.stage = .prompting p) :
    ∃ q, t.prompts[p]? = some q ∧ q.kind = .elevation ∧ o.client = some q.routeClientId := by
  obtain ⟨q, hq, hkind, hclient⟩ := h.prompting n o p ho hstage
  obtain ⟨q', hq', hbecomes⟩ := ht.old p q hq
  refine ⟨q', hq', hbecomes.kind.trans hkind, ?_⟩
  rw [hbecomes.route (by rw [hkind]; decide), hclient]

theorem Owned.aside (ht : Aside s t) : t.Owned where
  cache := by
    rw [ht.cache]
    exact h.cache
  prompting n o p ho := by
    rw [ht.elevations] at ho
    exact h.prompting_of_becomes ht.toPromptsBecome n o p ho
  answered := h.answered_of_becomes ht.toPromptsBecome
  frames := by
    rw [ht.frames, ht.elevations]
    exact h.frames

/-! ### Elevations that start -/

/-- A new elevation, with its first SPAWN. -/
theorem Owned.elevate (hstage : ∀ p, o.stage ≠ .prompting p) (howns : Elevation.Owns o answer) :
    (s.elevate o answer).Owned where
  cache := h.cache
  prompting n o' p ho' hp := by
    change (s.elevations ++ [o])[n]? = some o' at ho'
    rw [List.getElem?_append] at ho'
    split at ho'
    · exact h.prompting n o' p ho' hp
    · rw [List.getElem?_singleton] at ho'
      split at ho'
      · cases ho'
        exact absurd hp (hstage p)
      · cases ho'
  answered := h.answered
  frames f hf := by
    rcases List.mem_cons.mp hf with rfl | hf
    · exact ⟨o, List.getElem?_concat_length, howns⟩
    · obtain ⟨o', ho', hown⟩ := h.frames f hf
      exact ⟨o', (List.getElem?_append_left (List.getElem?_eq_some_iff.mp ho').1).trans ho', hown⟩

/-- An elevation goes on, for the same client. -/
theorem Owned.setElevation {x : Elevation} (ho : s.elevations[n]? = some o)
    (hclient : x.client = o.client) (horigin : x.origin = o.origin)
    (hstage : ∀ p, x.stage = .prompting p →
      ∃ q, s.prompts[p]? = some q ∧ q.kind = .elevation ∧ o.client = some q.routeClientId) :
    (s.setElevation n x).Owned where
  cache := h.cache
  prompting m y p hy hp := by
    change (s.elevations.set n x)[m]? = some y at hy
    rw [List.getElem?_set] at hy
    split at hy
    · split at hy
      · cases hy
        rw [hclient]
        exact hstage p hp
      · cases hy
    · exact h.prompting m y p hy hp
  answered := h.answered
  frames f hf := by
    obtain ⟨y, hy, hown⟩ := h.frames f hf
    change ∃ y, (s.elevations.set n x)[f.elevation]? = some y ∧ _
    by_cases hn : n = f.elevation
    -- A frame of this elevation: it has the same client.
    · subst hn
      cases ho.symm.trans hy
      refine ⟨x, List.getElem?_set_self (List.getElem?_eq_some_iff.mp ho).1, fun a ha ↦ ?_⟩
      rw [hclient, horigin]
      exact hown a ha
    · exact ⟨y, by rw [List.getElem?_set_ne hn, hy], hown⟩

theorem Owned.useCached (e : CachedSecret) : (s.useCached e).Owned :=
  ⟨h.cache, h.prompting, h.answered, h.frames⟩

end

theorem fresh_eq_some {e : Option CachedSecret} {e' : CachedSecret} (h : s.fresh e = some e') :
    e = some e' ∧ s.now < e'.expiresAt := by
  obtain ⟨rfl, hlt⟩ := Option.filter_eq_some_iff.mp h
  exact ⟨rfl, of_decide_eq_true hlt⟩

section

variable (h : s.Owned)
include h

theorem Owned.elevateFor (origin : ElevationOrigin) (hostId : String) (k : ℕ) :
    (s.elevateFor origin hostId k).Owned := by
  rw [SecretHub.elevateFor]
  split
  · rename_i e he
    refine (h.useCached e).elevate (by simp) fun a ha ↦ .inl ?_
    cases ha
    rw [h.cache hostId k e (fresh_eq_some he).1]
  · exact h.elevate (by simp) (by simp [Elevation.Owns])

theorem Owned.restartChannel (c : ChannelId) (hostId : String)
    (requestingClientId attached : Option ℕ) :
    (s.restartChannel c hostId requestingClientId attached).Owned := by
  rw [SecretHub.restartChannel]
  split
  · exact h.elevateFor _ _ _
  · split
    · rename_i e _
      exact (h.useCached e).elevate (by simp) fun a _ ↦ .inr ⟨rfl, rfl⟩
    · exact h.elevate (by simp) (by simp [Elevation.Owns])

/-! ### Elevations that go on -/

theorem Owned.askElevation (ho : s.elevations[n]? = some o) (hk : o.client = some k) :
    (s.askElevation n o k).Owned := by
  rw [SecretHub.askElevation]
  split
  · have hprompt : Aside s (s.prompt o.hostId .elevation .elevation (some .elevation) k) :=
      ⟨promptsBecome_append rfl rfl, rfl, rfl, rfl⟩
    refine (h.aside hprompt).setElevation ho rfl rfl fun p hp ↦ ?_
    obtain rfl := ElevationStage.prompting.inj hp
    exact ⟨_, List.getElem?_concat_length, rfl, hk⟩
  · exact h.setElevation ho rfl rfl (by simp)

theorem Owned.spawnSettled (answer : Option SecretAnswer) (r : SpawnReply) :
    (s.spawnSettled answer r).Owned ∧ (s.spawnSettled answer r).elevations = s.elevations := by
  unfold SecretHub.spawnSettled
  split
  · split
    · exact ⟨⟨h.cache, h.prompting, h.answered, h.frames⟩, rfl⟩
    · exact ⟨h, rfl⟩
  · exact ⟨h, rfl⟩

theorem Owned.reply (ho : s.elevations[n]? = some o) {r : SpawnReply}
    (hreply : s.reply n o r = some t) : t.Owned := by
  unfold SecretHub.reply at hreply
  split at hreply
  · split at hreply
    · rename_i k hk
      cases hreply
      exact h.askElevation ho hk
    · cases hreply
      exact h.setElevation ho rfl rfl (by simp)
  · rename_i answer _
    cases hreply
    obtain ⟨hsettled, hsame⟩ := h.spawnSettled answer r
    have ho' : (s.spawnSettled answer r).elevations[n]? = some o := by rw [hsame, ho]
    exact hsettled.setElevation ho' rfl rfl (by simp)
  · cases hreply

theorem Owned.elevationAnswered (ho : s.elevations[n]? = some o)
    (hstage : o.stage = .prompting p) {result : Option SecretAnswer}
    (hresult : s.result p = some result) : (s.elevationAnswered n o result).Owned := by
  obtain ⟨q, hq, hkind, hclient⟩ := h.prompting n o p ho hstage
  unfold SecretHub.elevationAnswered
  split
  · rename_i k a hk
    cases hk.symm.trans hclient
    -- The answer is that of the client that was asked.
    have ha : a.clientId = q.routeClientId := by
      rw [SecretHub.result, hq, Option.bind_some] at hresult
      exact h.answered p q a hq (by rw [hkind]; decide) hresult
    have hcached :
        (s.cacheElevation o.hostId q.routeClientId ⟨a, s.now + o.origin.ttl⟩).Owned := by
      refine ⟨fun hostId k e he ↦ ?_, h.prompting, h.answered, h.frames⟩
      rw [cacheElevation, OrderedMap.get_set] at he
      split at he
      · rename_i heq
        cases he
        exact ha.trans (Prod.mk.inj heq).2
      · exact h.cache hostId k e he
    have hset := hcached.setElevation (x := { o with stage := .last (some a) }) ho rfl rfl (by simp)
    refine ⟨hset.cache, hset.prompting, hset.answered, fun f hf ↦ ?_⟩
    rcases List.mem_cons.mp hf with rfl | hf
    · refine ⟨_, List.getElem?_set_self (List.getElem?_eq_some_iff.mp ho).1, fun a' ha' ↦ .inl ?_⟩
      cases ha'
      exact hclient.trans (congrArg some ha.symm)
    · exact hset.frames f hf
  · exact h.setElevation ho rfl rfl (by simp)

theorem Owned.step {e : SecretEvent} (hstep : s.step e = some t) : t.Owned := by
  rcases Classical.em (elevates e) with he | he
  · cases e with
    | spawn k hostId =>
      cases hstep
      exact h.elevateFor _ _ _
    | restart c hostId requestingClientId attached =>
      cases hstep
      exact h.restartChannel _ _ _ _
    | reply n r =>
      obtain ⟨o, ho, hreply⟩ := Option.bind_eq_some_iff.mp hstep
      exact h.reply ho hreply
    | elevationAnswered n =>
      obtain ⟨o, ho, hrest⟩ := Option.bind_eq_some_iff.mp hstep
      obtain ⟨p, hp, hrest⟩ := Option.bind_eq_some_iff.mp hrest
      obtain ⟨result, hresult, rfl⟩ := Option.map_eq_some_iff.mp hrest
      refine h.elevationAnswered ho ?_ hresult
      rcases hstage : o.stage with _ | p' | _ | _ <;> rw [hstage] at hp <;> cases hp
      rfl
    | _ => cases he
  · exact h.aside (aside_step he hstep)

end

theorem owned_start : start.Owned :=
  ⟨fun _ _ _ h ↦ (nomatch h), fun _ _ _ h ↦ (nomatch h), fun _ _ _ h ↦ (nomatch h),
    fun _ h ↦ (nomatch h)⟩

theorem owned_run {es : List SecretEvent} (hrun : run SecretHub.step start es = some t) : t.Owned :=
  run_invariant Owned (fun s e t h (hstep : s.step e = some t) ↦ h.step hstep) owned_start hrun

/-! ## Other secrets -/

/-- Change the secrets that clients enter. -/
def relabelAnswer (f : ℕ → String → String) (a : SecretAnswer) : SecretAnswer :=
  { a with secret := f a.clientId a.secret }

def relabelCached (f : ℕ → String → String) (e : CachedSecret) : CachedSecret :=
  { e with answer := relabelAnswer f e.answer }

def relabelPrompt (f : ℕ → String → String) (q : AuthPrompt) : AuthPrompt :=
  { q with result := q.result.map (Option.map (relabelAnswer f)) }

def relabelStage (f : ℕ → String → String) : ElevationStage → ElevationStage
  | .last answer => .last (answer.map (relabelAnswer f))
  | stage => stage

def relabelElevation (f : ℕ → String → String) (o : Elevation) : Elevation :=
  { o with stage := relabelStage f o.stage }

def relabelFrame (f : ℕ → String → String) (x : SpawnFrame) : SpawnFrame :=
  { x with answer := x.answer.map (relabelAnswer f) }

def relabel (f : ℕ → String → String) (s : SecretHub) : SecretHub where
  now := s.now
  clients := s.clients
  prompts := s.prompts.map (relabelPrompt f)
  passphraseCache := s.passphraseCache.mapValues fun _ ↦ relabelCached f
  elevationCache := s.elevationCache.mapValues fun _ ↦ relabelCached f
  connects := s.connects
  elevations := s.elevations.map (relabelElevation f)
  frames := s.frames.map (relabelFrame f)
  replays := s.replays.map (relabelCached f)
  rejected := s.rejected

def relabelEvent (f : ℕ → String → String) : SecretEvent → SecretEvent
  | .response k hostId secret rememberSession promptId deliveryEpoch =>
    .response k hostId (secret.map (f k)) rememberSession promptId deliveryEpoch
  | e => e

variable {f : ℕ → String → String}

/-! ### Prompts -/

theorem map_modify_of_comm {α β : Type*} {g : α → β} {h : α → α} {h' : β → β}
    (hcomm : ∀ x, g (h x) = h' (g x)) (l : List α) (n : ℕ) :
    (l.modify n h).map g = (l.map g).modify n h' := by
  apply List.ext_getElem?
  intro m
  rw [List.getElem?_map, List.getElem?_modify, List.getElem?_modify, List.getElem?_map]
  rcases l[m]? with _ | x
  · rfl
  · simp only [Option.map_eq_map, Option.map_some, Option.some.injEq]
    split
    · exact hcomm x
    · rfl

theorem isPending_relabelPrompt (q : AuthPrompt) : (relabelPrompt f q).isPending = q.isPending := by
  rcases q with ⟨_, _, _, _, _, _, _ | _⟩ <;> rfl

theorem getElem?_relabel_prompts (p : ℕ) :
    (s.relabel f).prompts[p]? = s.prompts[p]?.map (relabelPrompt f) := List.getElem?_map ..

theorem setPrompt_relabel (g g' : AuthPrompt → AuthPrompt)
    (hcomm : ∀ q, relabelPrompt f (g q) = g' (relabelPrompt f q)) (p : ℕ) :
    (s.relabel f).setPrompt p g' = (s.setPrompt p g).relabel f := by
  rw [setPrompt, setPrompt, relabel, relabel, map_modify_of_comm hcomm]

theorem cancel_relabel (p : ℕ) : (s.relabel f).cancel p = (s.cancel p).relabel f := by
  refine setPrompt_relabel _ _ (fun q ↦ ?_) p
  rw [isPending_relabelPrompt]
  split <;> rfl

theorem reroute_relabel (p k : ℕ) : (s.relabel f).reroute p k = (s.reroute p k).relabel f := by
  refine setPrompt_relabel _ _ (fun q ↦ ?_) p
  rw [isPending_relabelPrompt]
  change _ = if q.isPending ∧ q.kind = .session then _ else _
  split <;> rfl

theorem removeClient_relabel (k : ℕ) :
    (s.relabel f).removeClient k = (s.removeClient k).relabel f := by
  rw [removeClient, removeClient, relabel, relabel]
  simp only [List.map_map, SecretHub.mk.injEq, true_and, and_true]
  refine List.map_congr_left fun q _ ↦ ?_
  rw [Function.comp_apply, Function.comp_apply, isPending_relabelPrompt]
  change (if q.isPending ∧ q.kind ≠ .session ∧ q.routeClientId = k then _ else _) = _
  split <;> rfl

theorem openPrompt_relabel (q : AuthPrompt) (hq : q.result = none) :
    (s.relabel f).openPrompt q = (s.openPrompt q).relabel f := by
  have hsame : relabelPrompt f q = q := by
    rw [relabelPrompt, hq]
    rcases q with ⟨_, _, _, _, _, _, _⟩
    exact congrArg _ hq.symm
  rw [openPrompt, openPrompt, relabel, relabel, List.map_append, List.map_singleton, hsame]

theorem prompt_relabel (hostId : String) (kind : ContextKind) (type : PromptType)
    (promptType : Option AuthPromptType) (k : ℕ) :
    (s.relabel f).prompt hostId kind type promptType k =
      (s.prompt hostId kind type promptType k).relabel f := openPrompt_relabel _ rfl

theorem respond_relabel (p : ℕ) (q : AuthPrompt) (answer : Option SecretAnswer)
    (rememberSession : Bool) :
    (s.relabel f).respond p (relabelPrompt f q) (answer.map (relabelAnswer f)) rememberSession =
      (s.respond p q answer rememberSession).relabel f := by
  have hset : (s.relabel f).setPrompt p
      (fun q ↦ { q with result := some (answer.map (relabelAnswer f)) }) =
      (s.setPrompt p fun q ↦ { q with result := some answer }).relabel f :=
    setPrompt_relabel (fun q ↦ { q with result := some answer })
      (fun q ↦ { q with result := some (answer.map (relabelAnswer f)) }) (fun _ ↦ rfl) p
  rcases answer with _ | a
  · exact hset
  · dsimp only [respond, Option.map_some]
    change (if q.isCacheable = true then _ else _) = _
    split
    · rw [Option.map_some] at hset
      rw [hset]
      have hcache := s.passphraseCache.mapValues_set (fun _ ↦ relabelCached f) q.hostId
        ⟨a, s.now + if rememberSession then 15 * 60 * 1000 else 60 * 1000⟩
      exact congrArg (fun cache ↦ { (s.setPrompt p fun q ↦
        { q with result := some (some a) }).relabel f with passphraseCache := cache }) hcache.symm
    · exact hset

theorem legacyMatches_relabel (k : ℕ) (hostId : String) :
    (s.relabel f).legacyMatches k hostId = s.legacyMatches k hostId := by
  have hlength : (s.relabel f).prompts.length = s.prompts.length := List.length_map _
  rw [legacyMatches, legacyMatches, hlength]
  refine List.filter_congr fun p _ ↦ ?_
  rw [getElem?_relabel_prompts, Option.any_map]
  congr 1
  funext q
  rw [AuthPrompt.isLegacyMatch, AuthPrompt.isLegacyMatch, isPending_relabelPrompt]
  rfl

theorem handleAuthPromptResponse_relabel (k : ℕ) (hostId : String) (secret : Option String)
    (rememberSession : Bool) (promptId deliveryEpoch : Option ℕ) :
    (s.relabel f).handleAuthPromptResponse k hostId (secret.map (f k)) rememberSession promptId
        deliveryEpoch =
      (s.handleAuthPromptResponse k hostId secret rememberSession promptId deliveryEpoch).relabel
        f := by
  -- Which prompt is answered, and whether it takes the answer, does not depend on the secret.
  have haddressee : (s.relabel f).addressee k hostId promptId = s.addressee k hostId promptId := by
    unfold addressee
    rw [legacyMatches_relabel]
  rw [handleAuthPromptResponse, handleAuthPromptResponse, haddressee]
  rcases s.addressee k hostId promptId with _ | p
  · rfl
  · dsimp only
    rw [getElem?_relabel_prompts]
    rcases s.prompts[p]? with _ | q
    · rfl
    · dsimp only [Option.map_some]
      have haccepts : (relabelPrompt f q).accepts k deliveryEpoch = q.accepts k deliveryEpoch := by
        rw [AuthPrompt.accepts, AuthPrompt.accepts, isPending_relabelPrompt]
        rfl
      rw [haccepts]
      split
      · rw [← respond_relabel]
        congr 1
        rcases secret with _ | x <;> rfl
      · rfl

/-! ### Connects -/

theorem fresh_relabel (e : Option CachedSecret) :
    (s.relabel f).fresh (e.map (relabelCached f)) = (s.fresh e).map (relabelCached f) := by
  rcases e with _ | e
  · rfl
  · rw [fresh, fresh, Option.map_some, Option.filter_some, Option.filter_some]
    change (if decide (s.now < e.expiresAt) = true then _ else _) = _
    split <;> rfl

theorem tryPassphrase_relabel (a : SecretAnswer) (decrypts : Bool) :
    (s.relabel f).tryPassphrase (relabelAnswer f a) decrypts =
      (s.tryPassphrase a decrypts).relabel f := by
  rw [tryPassphrase, tryPassphrase]
  split <;> rfl

theorem askSecret_relabel (hostId : String) (kind : ContextKind) (promptType : AuthPromptType)
    (k : ℕ) :
    (s.relabel f).askSecret hostId kind promptType k =
      (s.askSecret hostId kind promptType k).relabel f := by
  have hlength : (s.relabel f).prompts.length = s.prompts.length := List.length_map _
  rw [askSecret, askSecret]
  change (if k ∈ s.clients then _ else _) = _
  split
  · rw [prompt_relabel, hlength]
    rfl
  · rfl

theorem evict_relabel (hostId : String) :
    { s.relabel f with passphraseCache := (s.relabel f).passphraseCache.delete hostId } =
      relabel f { s with passphraseCache := s.passphraseCache.delete hostId } := by
  rw [relabel, relabel]
  simp only [SecretHub.mk.injEq, true_and, and_true]
  exact (OrderedMap.mapValues_delete ..).symm

theorem fresh_passphrase_relabel (hostId : String) :
    (s.relabel f).fresh ((s.relabel f).passphraseCache.get hostId) =
      (s.fresh (s.passphraseCache.get hostId)).map (relabelCached f) := by
  rw [← fresh_relabel]
  congr 1
  exact OrderedMap.get_mapValues ..

theorem connect_relabel (hostId : String) (promptType : AuthPromptType) (route : Option ℕ)
    (decrypts : Bool) :
    (s.relabel f).connect hostId promptType route decrypts =
      (s.connect hostId promptType route decrypts).relabel f := by
  rw [connect, connect]
  split
  · rw [fresh_passphrase_relabel]
    rcases s.fresh (s.passphraseCache.get hostId) with _ | e
    · dsimp only [Option.map_none]
      rw [evict_relabel]
      rcases route with _ | k
      · rfl
      · exact askSecret_relabel ..
    · exact (s.useCached e).tryPassphrase_relabel e.answer decrypts
  · rcases route with _ | k
    · rfl
    · exact askSecret_relabel ..

theorem reconnect_relabel (hostId : String) (decrypts : Bool) :
    (s.relabel f).reconnect hostId decrypts = (s.reconnect hostId decrypts).relabel f := by
  rw [reconnect, reconnect, fresh_passphrase_relabel]
  rcases s.fresh (s.passphraseCache.get hostId) with _ | e
  · exact evict_relabel hostId
  · exact (s.useCached e).tryPassphrase_relabel e.answer decrypts

theorem connectAnswered_relabel (n : ℕ) (x : SshConnect) (result : Option SecretAnswer)
    (decrypts : Bool) :
    (s.relabel f).connectAnswered n x (result.map (relabelAnswer f)) decrypts =
      (s.connectAnswered n x result decrypts).relabel f := by
  rcases result with _ | a
  · rfl
  · dsimp only [connectAnswered, Option.map_some]
    split
    · exact tryPassphrase_relabel (s := { s with
        connects := s.connects.set n { x with settled := true } }) a decrypts
    · rfl

theorem result_relabel (p : ℕ) :
    (s.relabel f).result p = (s.result p).map (Option.map (relabelAnswer f)) := by
  rw [result, result, getElem?_relabel_prompts]
  rcases s.prompts[p]? with _ | q <;> rfl

/-! ### Elevations -/

theorem setElevation_relabel (n : ℕ) (o : Elevation) :
    (s.relabel f).setElevation n (relabelElevation f o) = (s.setElevation n o).relabel f := by
  rw [setElevation, setElevation, relabel, relabel, List.map_set]

theorem elevate_relabel (o : Elevation) (answer : Option SecretAnswer) :
    (s.relabel f).elevate (relabelElevation f o) (answer.map (relabelAnswer f)) =
      (s.elevate o answer).relabel f := by
  have hlength : (s.relabel f).elevations.length = s.elevations.length := List.length_map _
  rw [elevate, elevate, hlength, relabel, relabel]
  simp only [sendSpawn, List.map_append, List.map_cons, List.map_nil, SecretHub.mk.injEq, true_and,
    and_true]
  rfl

theorem elevateFor_relabel (origin : ElevationOrigin) (hostId : String) (k : ℕ) :
    (s.relabel f).elevateFor origin hostId k = (s.elevateFor origin hostId k).relabel f := by
  have hfresh : (s.relabel f).fresh ((s.relabel f).elevationCache.get (hostId, k)) =
      (s.fresh (s.elevationCache.get (hostId, k))).map (relabelCached f) := by
    rw [← fresh_relabel]
    congr 1
    exact OrderedMap.get_mapValues ..
  rw [elevateFor, elevateFor, hfresh]
  rcases s.fresh (s.elevationCache.get (hostId, k)) with _ | e
  · exact elevate_relabel ⟨origin, hostId, some k, .passwordless, false⟩ none
  · exact (s.useCached e).elevate_relabel ⟨origin, hostId, some k, .last (some e.answer), false⟩
      (some e.answer)

theorem anyCached_relabel (hostId : String) :
    (s.relabel f).anyCached hostId = (s.anyCached hostId).map (relabelCached f) := by
  change ((s.elevationCache.entries.map fun e ↦ (e.1, relabelCached f e.2)).find? _).map _ = _
  rw [anyCached, List.find?_map, Option.map_map, Option.map_map]
  rfl

theorem restartChannel_relabel (c : ChannelId) (hostId : String)
    (requestingClientId attached : Option ℕ) :
    (s.relabel f).restartChannel c hostId requestingClientId attached =
      (s.restartChannel c hostId requestingClientId attached).relabel f := by
  rw [restartChannel, restartChannel, anyCached_relabel]
  change (match s.promptClient requestingClientId attached with
    | some k => _
    | none => _) = _
  rcases s.promptClient requestingClientId attached with _ | k
  · rcases s.anyCached hostId with _ | e
    · exact elevate_relabel ⟨.restart c requestingClientId, hostId, none, .last none, false⟩ none
    · exact (s.useCached e).elevate_relabel
        ⟨.restart c requestingClientId, hostId, none, .last (some e.answer), false⟩ (some e.answer)
  · exact elevateFor_relabel ..

theorem askElevation_relabel (n : ℕ) (o : Elevation) (k : ℕ) :
    (s.relabel f).askElevation n (relabelElevation f o) k = (s.askElevation n o k).relabel f := by
  have hlength : (s.relabel f).prompts.length = s.prompts.length := List.length_map _
  rw [askElevation, askElevation]
  change (if k ∈ s.clients then _ else _) = _
  split
  · rw [← setElevation_relabel, ← prompt_relabel, hlength]
    rfl
  · rw [← setElevation_relabel]
    rfl

theorem spawnSettled_relabel (answer : Option SecretAnswer) (r : SpawnReply) :
    (s.relabel f).spawnSettled (answer.map (relabelAnswer f)) r =
      (s.spawnSettled answer r).relabel f := by
  rcases answer with _ | a
  · rfl
  · rcases r with _ | code | _
    · rfl
    · dsimp only [spawnSettled, Option.map_some]
      split <;> rfl
    · rfl

theorem reply_relabel (n : ℕ) (o : Elevation) (r : SpawnReply) :
    (s.relabel f).reply n (relabelElevation f o) r = (s.reply n o r).map (relabel f) := by
  have hset (x : Elevation) :
      some ((s.relabel f).setElevation n (relabelElevation f x)) =
        (some (s.setElevation n x)).map (relabel f) := congrArg some (setElevation_relabel n x)
  rcases o with ⟨origin, hostId, client, stage, prompted⟩
  rcases stage with _ | p | answer | _
  · rcases client with _ | k
    · exact hset ⟨origin, hostId, none, .done, prompted⟩
    · rcases r with _ | (_ | _ | _) | _
      · exact hset ⟨origin, hostId, some k, .done, prompted⟩
      · exact congrArg some
          (askElevation_relabel n ⟨origin, hostId, some k, .passwordless, prompted⟩ k)
      · exact hset ⟨origin, hostId, some k, .done, prompted⟩
      · exact hset ⟨origin, hostId, some k, .done, prompted⟩
      · exact hset ⟨origin, hostId, some k, .done, prompted⟩
  · rfl
  · have hlast := (s.spawnSettled answer r).setElevation_relabel (f := f) n
      ⟨origin, hostId, client, .done, prompted⟩
    rw [← spawnSettled_relabel] at hlast
    exact congrArg some hlast
  · rfl

theorem elevationAnswered_relabel (n : ℕ) (o : Elevation) (result : Option SecretAnswer) :
    (s.relabel f).elevationAnswered n (relabelElevation f o) (result.map (relabelAnswer f)) =
      (s.elevationAnswered n o result).relabel f := by
  rcases o with ⟨origin, hostId, client, stage, prompted⟩
  rcases client with _ | k
  · exact setElevation_relabel n ⟨origin, hostId, none, .done, prompted⟩
  · rcases result with _ | a
    · exact setElevation_relabel n ⟨origin, hostId, some k, .done, prompted⟩
    · have hcache : (s.relabel f).cacheElevation hostId k
          (relabelCached f ⟨a, s.now + origin.ttl⟩) =
          (s.cacheElevation hostId k ⟨a, s.now + origin.ttl⟩).relabel f := by
        rw [cacheElevation, cacheElevation, relabel, relabel]
        simp only [SecretHub.mk.injEq, true_and, and_true]
        exact (OrderedMap.mapValues_set ..).symm
      have hset := (s.cacheElevation hostId k ⟨a, s.now + origin.ttl⟩).setElevation_relabel
        (f := f) n ⟨origin, hostId, some k, .last (some a), prompted⟩
      rw [← hcache] at hset
      exact congrArg (fun t ↦ t.sendSpawn n hostId (some (relabelAnswer f a))) hset

/-! ### Every step -/

theorem awaited_relabelStage (stage : ElevationStage) :
    awaited (relabelStage f stage) = awaited stage := by
  rcases stage with _ | _ | _ | _ <;> rfl

/-- **Other secrets, the same run**: no step looks at a secret. -/
theorem step_relabel (e : SecretEvent) :
    (s.relabel f).step (relabelEvent f e) = (s.step e).map (relabel f) := by
  cases e with
  | tick time => rfl
  | addClient k => rfl
  | removeClient k => exact congrArg some (removeClient_relabel k)
  | reroute p k => exact congrArg some (reroute_relabel p k)
  | cancel p => exact congrArg some (cancel_relabel p)
  | verify hostId kind type k => exact congrArg some (prompt_relabel hostId kind type none k)
  | connect hostId promptType route decrypts =>
    exact congrArg some (connect_relabel hostId promptType route decrypts)
  | reconnect hostId decrypts => exact congrArg some (reconnect_relabel hostId decrypts)
  | testConnect hostId promptType k =>
    exact congrArg some (askSecret_relabel hostId .test promptType k)
  | connectAnswered n decrypts =>
    change ((s.connects[n]?).filter _).bind _ = (((s.connects[n]?).filter _).bind _).map _
    rw [Option.map_bind]
    refine congrArg _ (funext fun x ↦ ?_)
    rw [result_relabel, Function.comp_apply, Option.map_map, Option.map_map]
    refine congrArg₂ _ (funext fun result ↦ ?_) rfl
    exact connectAnswered_relabel n x result decrypts
  | response k hostId secret rememberSession promptId deliveryEpoch =>
    rw [relabelEvent, step, step]
    change (if k ∈ s.clients then _ else _) = _
    split
    · exact congrArg some (handleAuthPromptResponse_relabel ..)
    · rfl
  | spawn k hostId => exact congrArg some (elevateFor_relabel ..)
  | restart c hostId requestingClientId attached =>
    exact congrArg some (restartChannel_relabel ..)
  | reply n r =>
    change ((s.elevations.map (relabelElevation f))[n]?).bind _ = ((s.elevations[n]?).bind _).map _
    rw [List.getElem?_map]
    rcases s.elevations[n]? with _ | o
    · rfl
    · exact reply_relabel n o r
  | elevationAnswered n =>
    change ((s.elevations.map (relabelElevation f))[n]?).bind _ = ((s.elevations[n]?).bind _).map _
    rw [List.getElem?_map]
    rcases s.elevations[n]? with _ | o
    · rfl
    · change (awaited (relabelStage f o.stage)).bind _ = ((awaited o.stage).bind _).map _
      rw [awaited_relabelStage]
      rcases awaited o.stage with _ | p
      · rfl
      · dsimp only [Option.bind_some]
        rw [result_relabel, Option.map_map, Option.map_map]
        refine congrArg₂ _ (funext fun result ↦ ?_) rfl
        exact elevationAnswered_relabel n o result

theorem run_relabel (es : List SecretEvent) :
    run step (s.relabel f) (es.map (relabelEvent f)) = (run step s es).map (relabel f) := by
  induction es generalizing s with
  | nil => rfl
  | cons e es ih =>
    rw [List.map_cons, run_cons, run_cons, step_relabel, Option.map_bind, Option.bind_map]
    exact congrArg _ (funext fun t ↦ ih)

/-! ## Whole runs -/

/-! ### Frames and their owners -/

/-- A secret in a SPAWN frame is of a client that asked for the spawn or restart, or of the one that
it would prompt. -/
def StaysWithOwner (s : SecretHub) : Prop :=
  ∀ x ∈ s.frames, ∃ o, s.elevations[x.elevation]? = some o ∧
    ∀ a, x.answer = some a → o.origin.requester = some a.clientId ∨ o.client = some a.clientId

/-- A secret in a SPAWN frame is of the client that the spawn or restart would prompt. Only a
restart without such a client may have the secret of any. -/
def StaysWithClient (s : SecretHub) : Prop :=
  ∀ x ∈ s.frames, ∃ o, s.elevations[x.elevation]? = some o ∧ Elevation.Owns o x.answer

/-- The SPAWN frames of the spawns of a client, and of the restarts that would prompt it. -/
def framesOf (k : ℕ) (s : SecretHub) : List SpawnFrame :=
  s.frames.filter fun x ↦ s.elevations[x.elevation]?.any fun o ↦ o.client = some k

/-- Forget the secrets that other clients enter. -/
def onlyOf (k : ℕ) : ℕ → String → String := fun j secret ↦ if j = k then secret else ""

theorem framesOf_relabel (k : ℕ) :
    (s.relabel f).framesOf k = (s.framesOf k).map (relabelFrame f) := by
  change (s.frames.map (relabelFrame f)).filter _ = _
  rw [List.filter_map]
  refine congrArg _ (List.filter_congr fun x _ ↦ ?_)
  change ((s.elevations.map (relabelElevation f))[x.elevation]?).any _ = _
  rw [List.getElem?_map, Option.any_map]
  rfl

/-- The frames of a client have no secret of another. -/
theorem Owned.framesOf_onlyOf (h : s.Owned) (k : ℕ) :
    (s.relabel (onlyOf k)).framesOf k = s.framesOf k := by
  rw [framesOf_relabel]
  refine (List.map_congr_left fun x hx ↦ ?_).trans (List.map_id _)
  obtain ⟨hmem, hany⟩ := List.mem_filter.mp hx
  obtain ⟨o, ho, howns⟩ := h.frames x hmem
  rw [ho, Option.any_some, decide_eq_true_iff] at hany
  have hsame : ∀ a, x.answer = some a → relabelAnswer (onlyOf k) a = a := fun a ha ↦ by
    rcases howns a ha with hclient | ⟨hnone, -⟩
    · have hk : a.clientId = k := Option.some.inj (hclient.symm.trans hany)
      rw [relabelAnswer, onlyOf, if_pos hk]
    · exact nomatch hnone.symm.trans hany
  rcases x with ⟨n, hostId, _ | a⟩
  · rfl
  · exact congrArg (fun a ↦ (⟨n, hostId, some a⟩ : SpawnFrame)) (hsame a rfl)

theorem framesOf_run (k : ℕ) (es : List SecretEvent) :
    (run step start (es.map (relabelEvent (onlyOf k)))).map (framesOf k) =
      (run step start es).map (framesOf k) := by
  have hrun := run_relabel (s := start) (f := onlyOf k) es
  have hstart : start.relabel (onlyOf k) = start := rfl
  rw [hstart] at hrun
  rw [hrun, Option.map_map]
  rcases ht : run step start es with _ | t
  · rfl
  · exact congrArg some ((owned_run ht).framesOf_onlyOf k)

/-- **Secrets stay with their clients**: whatever the run, a SPAWN frame has no secret but that of
the client that its spawn or restart would prompt, if there is one. And two runs that differ in the
secrets of other clients send the same frames for this client. -/
theorem secrets_stay :
    (∀ es, ∀ t ∈ run step start es, t.StaysWithClient) ∧
      ∀ (k : ℕ) (es es' : List SecretEvent),
        es.map (relabelEvent (onlyOf k)) = es'.map (relabelEvent (onlyOf k)) →
          (run step start es).map (framesOf k) = (run step start es').map (framesOf k) := by
  constructor
  · intro es t ht
    exact (owned_run ht).frames
  · intro k es es' heq
    rw [← framesOf_run, heq, framesOf_run]

/-- Client 0 enters "root", and client 1 another secret or none: the frames of client 0 are the
same. -/
theorem secrets_stay_two :
    let es (x : String) : List SecretEvent :=
      [.addClient 0, .addClient 1, .spawn 0 "h", .spawn 1 "h", .reply 0 (.err .passwordRequired),
        .reply 1 (.err .passwordRequired), .response 1 "h" (some x) false (some 1) none,
        .response 0 "h" (some "root") false (some 0) none, .elevationAnswered 1,
        .elevationAnswered 0]
    (run step start (es "a")).map (framesOf 0) = (run step start (es "b")).map (framesOf 0) :=
  secrets_stay.2 0 _ _ rfl

/-- Client 0 enters a secret for a spawn and goes. A restart that no client asks for, of a channel
without clients, takes it. -/
def orphanRestart : List SecretEvent :=
  [.addClient 0, .spawn 0 "h", .reply 0 (.err .passwordRequired),
    .response 0 "h" (some "root") false (some 0) none, .elevationAnswered 0, .reply 0 .ok,
    .removeClient 0, .restart "c" "h" none none]

theorem orphanRestart_strays : ∃ t ∈ run step start orphanRestart, ¬ t.StaysWithOwner := by
  refine ⟨_, rfl, fun hstays ↦ ?_⟩
  obtain ⟨o, ho, hstays⟩ := hstays _ (List.mem_cons_self ..)
  cases ho
  exact absurd (hstays _ rfl) (by decide)

end SecretHub

end Lasterm.Hub
