import Lasterm.Hub.Acquisition
import Mathlib.Data.List.Sort

/-!
# The registry of prompts

Model of `session/prompt-context.ts`. A prompt belongs to a context, which routes it to one client.
Its id stands in four indexes at once: the set of its context, `promptIndex`, `pendingPrompts` and
the in-flight table of the module.

Ids of prompts count their creations. Ids of contexts are those made by `generateId`, or name the
session of a reconnect; an id of the first kind never starts with the text that marks the second.

The state records what is handed to the sockets of registered clients (`sent`) and each call of the
`resolve` of a promise (`resolved`), in order.
-/

namespace Lasterm.Hub

open Runs

inductive ContextId
  | owned (id : String)
  /-- `reconnectContextId`. -/
  | reconnect (sessionId : String)
  deriving DecidableEq

inductive ContextKind
  | session
  | test
  | elevation
  deriving DecidableEq

inductive PromptType
  | passphrase
  | hostVerify
  | agentVerify
  | elevation
  deriving DecidableEq

structure PromptContext where
  kind : ContextKind
  hostId : String
  routeClientId : String
  /-- The state is CLOSED. -/
  closed : Bool
  prompts : List ℕ

/-- An entry of `_inFlight`. Its timer is armed as long as the entry exists. -/
structure InFlightPrompt where
  contextId : ContextId
  type : PromptType
  deliveryEpoch : ℕ
  resendPayload : String

/-- An entry of `pendingPrompts`. -/
structure PendingPrompt where
  hostId : String
  clientId : String
  contextId : ContextId
  type : PromptType
  deliveryEpoch : ℕ
  resendPayload : String

/-- What the registry sends to a client. -/
inductive PromptMessage
  | prompt (type : PromptType) (payload : String) (promptId deliveryEpoch : ℕ)
  | cancel (promptId : ℕ)

def PromptMessage.promptId : PromptMessage → ℕ
  | .prompt _ _ p _ | .cancel p => p

/-- What `pickReconnectRouteCandidate` reads of a channel. -/
structure PromptChannel where
  hostId : String
  sessionId : String
  dead : Bool
  clients : List String

structure Prompts where
  promptContexts : OrderedMap ContextId PromptContext
  promptIndex : OrderedMap ℕ ContextId
  pendingPrompts : OrderedMap ℕ PendingPrompt
  inFlight : OrderedMap ℕ InFlightPrompt
  /-- How many prompt ids were generated. -/
  created : ℕ
  clients : List String
  acquisitions : Acquisitions
  channels : List PromptChannel
  sent : List (String × PromptMessage)
  /-- Calls of `resolve`; the value `none` is null. -/
  resolved : List (ℕ × Option String)

namespace Prompts

def empty : Prompts := ⟨.empty, .empty, .empty, .empty, 0, [], .empty, [], [], []⟩

/-! ## Choosing a route -/

/-- The first of the candidates in the order of their ids. -/
def first (candidates : List String) : Option String := (candidates.insertionSort (· ≤ ·)).head?

variable (s : Prompts)

def pickReconnectRouteCandidate (hostId sessionId : String)
    (excludeClientId : Option String) : Option String :=
  first <| s.channels.flatMap fun channel ↦
    if channel.hostId ≠ hostId ∨ channel.sessionId ≠ sessionId ∨ channel.dead then []
    else channel.clients.filter fun c ↦ some c ≠ excludeClientId ∧ c ∈ s.clients

/-- The clients with a live lease on an acquisition of the host. -/
def leaseHolders (hostId excludeClientId : String) : List String :=
  s.acquisitions.map.entries.flatMap fun e ↦
    (s.acquisitions.acqs[e.2]?.toList.filter fun q ↦ q.hostId = hostId).flatMap fun q ↦
      ((q.leases.filterMap fun l ↦ s.acquisitions.leases[l]?).filter fun x ↦
        x.clientId ≠ excludeClientId ∧ x.released = false ∧
        x.clientId ∈ s.clients).map Lease.clientId

def pickRouteCandidate (contextId : ContextId) (excludeClientId : String) :
    Option String :=
  match s.promptContexts.get contextId with
  | none => none
  | some context =>
    if context.kind ≠ .session then none
    else
      match contextId with
      | .reconnect sessionId =>
        if sessionId = "" then none
        else s.pickReconnectRouteCandidate context.hostId sessionId (some excludeClientId)
      | .owned _ => first (s.leaseHolders context.hostId excludeClientId)

/-! ## The operations -/

def send (clientId : String) (msg : PromptMessage) : Prompts :=
  if clientId ∈ s.clients then { s with sent := s.sent ++ [(clientId, msg)] } else s

/-- Call the `resolve` of a prompt. -/
def resolve (p : ℕ) (value : Option String) : Prompts :=
  { s with resolved := s.resolved ++ [(p, value)] }

def setContext (contextId : ContextId) (context : PromptContext) : Prompts :=
  { s with promptContexts := s.promptContexts.set contextId context }

def openContext (contextId : ContextId) (kind : ContextKind)
    (hostId routeClientId : String) : Prompts :=
  s.setContext contextId ⟨kind, hostId, routeClientId, false, []⟩

/-- `_clearPrompt`: take a prompt out of the four indexes. -/
def clearPrompt (p : ℕ) : Prompts :=
  let t := { s with
    inFlight := s.inFlight.delete p
    promptIndex := s.promptIndex.delete p
    pendingPrompts := s.pendingPrompts.delete p }
  match s.promptIndex.get p with
  | none => t
  | some contextId =>
    match s.promptContexts.get contextId with
    | none => t
    | some context => t.setContext contextId { context with prompts := context.prompts.erase p }

/-- The body of the loop of `clearContext`; `cancel` says that it was given a `send`. -/
def dismiss (routeClientId : String) (cancel : Bool) (s : Prompts) (p : ℕ) : Prompts :=
  let t := if cancel then s.send routeClientId (.cancel p) else s
  match s.inFlight.get p with
  | none => t.clearPrompt p
  | some _ => (t.clearPrompt p).resolve p none

def clearContext (contextId : ContextId) (cancel : Bool) : Prompts :=
  match s.promptContexts.get contextId with
  | none => s
  | some context =>
    if context.closed then s
    else
      let t := context.prompts.foldl (dismiss context.routeClientId cancel)
        (s.setContext contextId { context with closed := true })
      { t with promptContexts := t.promptContexts.delete contextId }

/-- The middle of `prompt`: a new prompt enters the four indexes. -/
def store (contextId : ContextId) (context : PromptContext) (type : PromptType)
    (payload : String) : Prompts :=
  { s.setContext contextId { context with prompts := context.prompts ++ [s.created] } with
    created := s.created + 1
    promptIndex := s.promptIndex.set s.created contextId
    pendingPrompts := s.pendingPrompts.set s.created
      ⟨context.hostId, context.routeClientId, contextId, type, 1, payload⟩
    inFlight := s.inFlight.set s.created ⟨contextId, type, 1, payload⟩ }

/-- The end of `prompt`: store the prompt and then send it. `sendThrows` says that the send throws;
the prompt is then cleaned up at once. -/
def issue (contextId : ContextId) (context : PromptContext) (type : PromptType)
    (payload : String) (sendThrows : Bool) : Prompts :=
  let t := s.store contextId context type payload
  if sendThrows then (t.clearPrompt s.created).resolve s.created none
  else t.send context.routeClientId (.prompt type payload s.created 1)

def prompt (contextId : ContextId) (type : PromptType) (payload : String)
    (sendThrows : Bool) : Prompts :=
  match s.promptContexts.get contextId with
  | none => s
  | some context =>
    if context.closed then s
    else if context.routeClientId ∈ s.clients then s.issue contextId context type payload sendThrows
    else
      match s.pickRouteCandidate contextId context.routeClientId with
      | none => s.clearContext contextId true
      | some candidate =>
        s.issue contextId { context with routeClientId := candidate } type payload sendThrows

/-- What `respond` checks of an answer. -/
def accepts (p : ℕ) (clientId : String) (deliveryEpoch : Option ℕ) : Bool :=
  match s.promptIndex.get p with
  | none => false
  | some contextId =>
    match s.promptContexts.get contextId, s.inFlight.get p with
    | some context, some inFlight =>
      !context.closed && clientId = context.routeClientId
        && deliveryEpoch.all fun epoch ↦ epoch = inFlight.deliveryEpoch
    | _, _ => false

def respond (p : ℕ) (clientId : String) (deliveryEpoch : Option ℕ)
    (value : Option String) : Prompts × Bool :=
  if s.accepts p clientId deliveryEpoch then ((s.clearPrompt p).resolve p value, true)
    else (s, false)

/-- The timer of a prompt. -/
def timeout (p : ℕ) : Prompts := (s.clearPrompt p).resolve p none

/-- The body of the loop of `retarget`. -/
def redeliver (old new : String) (s : Prompts) (p : ℕ) : Prompts :=
  match s.inFlight.get p with
  | none => s
  | some f =>
    let epoch := f.deliveryEpoch + 1
    let t := { s with
      inFlight := s.inFlight.set p { f with deliveryEpoch := epoch }
      pendingPrompts :=
        match s.pendingPrompts.get p with
        | none => s.pendingPrompts
        | some q => s.pendingPrompts.set p { q with clientId := new, deliveryEpoch := epoch } }
    (if old ≠ new then t.send old (.cancel p) else t).send new
      (.prompt f.type f.resendPayload p epoch)

def retarget (contextId : ContextId) (newRouteClientId : String) : Prompts :=
  match s.promptContexts.get contextId with
  | none => s
  | some context =>
    if context.closed ∨ context.kind ≠ .session then s
    else
      context.prompts.foldl (redeliver context.routeClientId newRouteClientId)
        (s.setContext contextId { context with routeClientId := newRouteClientId })

/-- The body of the loop of `clientDisconnect`. -/
def reroute (clientId : String) (s : Prompts) (contextId : ContextId) : Prompts :=
  match s.promptContexts.get contextId with
  | none => s
  | some context =>
    if context.closed ∨ context.routeClientId ≠ clientId then s
    else if context.kind ≠ .session then s.clearContext contextId true
    else
      match s.pickRouteCandidate contextId clientId with
      | some candidate => s.retarget contextId candidate
      | none => s.clearContext contextId true

def clientDisconnect (clientId : String) : Prompts :=
  s.promptContexts.keys.foldl (reroute clientId) s

/-- `SessionManager.removeClient`: the client is forgotten after its prompts were moved. -/
def removeClient (clientId : String) : Prompts :=
  let t := s.clientDisconnect clientId
  { t with clients := t.clients.filter (· ≠ clientId) }

def addClient (clientId : String) : Prompts :=
  { s with clients := s.clients ++ [clientId] }

/-- `_getOrOpenSessionPromptContext` for the id of an acquisition or of a reconnect. -/
def getOrOpenSessionPromptContext (contextId : ContextId) (hostId clientId : String) :
    Prompts :=
  match (s.promptContexts.get contextId).filter fun context ↦ !context.closed with
  | some context =>
    if context.routeClientId ∈ s.clients then s
    else
      match s.pickRouteCandidate contextId context.routeClientId with
      | none => s.clearContext contextId false
      | some candidate => s.setContext contextId { context with routeClientId := candidate }
  | none =>
    match contextId with
    | .reconnect sessionId =>
      if sessionId = "" then s
      else
        match s.pickReconnectRouteCandidate hostId sessionId none with
        | none => s
        | some candidate => s.openContext contextId .session hostId candidate
    | .owned _ =>
      if clientId ∈ s.clients then s.openContext contextId .session hostId clientId else s

/-! ## Runs -/

inductive Event
  /-- A context under a fresh id. -/
  | openContext (contextId : ContextId) (kind : ContextKind) (hostId routeClientId : String)
  | getOrOpen (contextId : ContextId) (hostId clientId : String)
  | prompt (contextId : ContextId) (type : PromptType) (payload : String) (sendThrows : Bool)
  | respond (p : ℕ) (clientId : String) (deliveryEpoch : Option ℕ) (value : Option String)
  | clearContext (contextId : ContextId) (cancel : Bool)
  | timeout (p : ℕ)
  | addClient (clientId : String)
  | removeClient (clientId : String)
  /-- Leases and channels change, on which the choice of a route depends. -/
  | environment (acquisitions : Acquisitions) (channels : List PromptChannel)

def step : Event → Option Prompts
  | .openContext contextId kind hostId routeClientId =>
    if s.promptContexts.get contextId = none then
      some (s.openContext contextId kind hostId routeClientId)
    else none
  | .getOrOpen contextId hostId clientId =>
    some (s.getOrOpenSessionPromptContext contextId hostId clientId)
  | .prompt contextId type payload sendThrows => some (s.prompt contextId type payload sendThrows)
  | .respond p clientId deliveryEpoch value => some (s.respond p clientId deliveryEpoch value).1
  | .clearContext contextId cancel => some (s.clearContext contextId cancel)
  | .timeout p => if (s.inFlight.get p).isSome then some (s.timeout p) else none
  | .addClient clientId => some (s.addClient clientId)
  | .removeClient clientId => some (s.removeClient clientId)
  | .environment acquisitions channels =>
    some { s with acquisitions := acquisitions, channels := channels }

end Prompts

end Lasterm.Hub
