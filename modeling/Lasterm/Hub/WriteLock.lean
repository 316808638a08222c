import Lasterm.Hub.Seating

/-!
# Write locks

`WriteLockManager`, and its handlers over the shared context. The manager keeps who holds the lock
of a channel, and who is attached to it. It tells the clients by two callbacks: one reaches a client
that is connected, the other the clients that the context has in the channel. A client gets into the
two sets at two times: into that of the context when its ATTACH comes or its SPAWN is answered, and
into that of the manager when the call is over (`settled`).

Client ids are numbers, in the order in which clients come. They are never empty, and the target of
a WRITE_GRANT or a WRITE_DENY may be a number of no client. The hub has no call to `removeChannel`.
-/

namespace Lasterm.Hub

/-- A message of the write-lock protocol, with its channel. -/
inductive LockMessage
  | writeLock (channelId : ChannelId) (holder : Option ℕ)
  | writeRequest (channelId : ChannelId) (fromClientId : ℕ)
  | writeDeny (channelId : ChannelId) (toClientId : ℕ)
  | writeRevoked (channelId : ChannelId)

/-- A call of `sendToClient` or of `broadcastToChannel`. -/
inductive LockSend
  | toClient (clientId : ℕ) (msg : LockMessage)
  | toChannel (channelId : ChannelId) (msg : LockMessage)

/-- The holder that a WRITE_LOCK for the channel has. -/
def LockMessage.holderIn (c : ChannelId) : LockMessage → Option (Option ℕ)
  | writeLock c' holder => if c' = c then some holder else none
  | _ => none

def LockSend.msg : LockSend → LockMessage
  | toClient _ msg => msg
  | toChannel _ msg => msg

structure WriteLockManager where
  holders : OrderedMap ChannelId ℕ
  attached : OrderedMap ChannelId (OrderedSet ℕ)

namespace WriteLockManager

variable (m : WriteLockManager) (c : ChannelId) (k : ℕ)

def broadcastLock (holder : Option ℕ) : LockSend := .toChannel c (.writeLock c holder)

def attachedTo : OrderedSet ℕ := (m.attached.get c).getD .empty

def getHolder : Option ℕ := m.holders.get c

def isWriteLockHolder : Bool := m.getHolder c = none || m.getHolder c = some k

def setHolder : WriteLockManager := { m with holders := m.holders.set c k }

def deleteHolder : WriteLockManager := { m with holders := m.holders.delete c }

def attach : WriteLockManager × List LockSend :=
  let m := { m with attached := m.attached.set c ((m.attachedTo c).add k) }
  match m.getHolder c with
  | none => (m.setHolder c k, [broadcastLock c (some k)])
  | some holder => (m, [.toClient k (.writeLock c (some holder))])

def detach : WriteLockManager × List LockSend :=
  let m := { m with attached := m.attached.modify c fun clients ↦ clients.delete k }
  if m.getHolder c = some k then (m.deleteHolder c, [broadcastLock c none]) else (m, [])

def claim : WriteLockManager × List LockSend :=
  match m.getHolder c with
  | none => (m.setHolder c k, [broadcastLock c (some k)])
  | some current => (m, if current = k then [] else [.toClient current (.writeRequest c k)])

def grant (toClientId : ℕ) : WriteLockManager × List LockSend :=
  if m.getHolder c = some k then
    (m.setHolder c toClientId, [broadcastLock c (some toClientId)])
  else (m, [])

def deny (toClientId : ℕ) : WriteLockManager × List LockSend :=
  (m, if m.getHolder c = some k then [.toClient toClientId (.writeDeny c toClientId)] else [])

def force : WriteLockManager × List LockSend :=
  let revoked := ((m.getHolder c).filter (· ≠ k)).toList.map fun current ↦
    LockSend.toClient current (.writeRevoked c)
  (m.setHolder c k, revoked ++ [broadcastLock c (some k)])

def release : WriteLockManager × List LockSend :=
  if m.getHolder c = some k then (m.deleteHolder c, [broadcastLock c none]) else (m, [])

/-- The channels whose lock the client holds. -/
def heldBy : List ChannelId := (m.holders.entries.filter fun e ↦ e.2 = k).map Prod.fst

def onClientDisconnect : WriteLockManager × List LockSend :=
  ({ holders := (m.heldBy k).foldl OrderedMap.delete m.holders
     attached := m.attached.mapValues fun _ clients ↦ clients.delete k },
    (m.heldBy k).map fun c ↦ broadcastLock c none)

/-! ## Who holds the lock behind a call -/

variable {m c k} {c' : ChannelId} {k' : ℕ}

theorem getHolder_setHolder :
    (m.setHolder c k).getHolder c' = if c = c' then some k else m.getHolder c' :=
  OrderedMap.get_set ..

theorem getHolder_deleteHolder :
    (m.deleteHolder c).getHolder c' = if c = c' then none else m.getHolder c' :=
  OrderedMap.get_delete ..

theorem getHolder_attach :
    (m.attach c k).1.getHolder c' =
      if c = c' ∧ m.getHolder c = none then some k else m.getHolder c' := by
  rw [attach]
  split
  · rename_i hnone
    have hfree : m.getHolder c = none := hnone
    rw [getHolder_setHolder, hfree]
    simp only [and_true]
    rfl
  · rename_i holder hholder
    have htaken : m.getHolder c = some holder := hholder
    rw [htaken, if_neg (by simp)]
    rfl

theorem getHolder_claim :
    (m.claim c k).1.getHolder c' =
      if c = c' ∧ m.getHolder c = none then some k else m.getHolder c' := by
  rw [claim]
  split
  · rename_i hnone
    rw [getHolder_setHolder]
    simp only [hnone, and_true]
  · rename_i holder hholder
    rw [hholder]
    simp

theorem getHolder_grant {toClientId : ℕ} :
    (m.grant c k toClientId).1.getHolder c' =
      if c = c' ∧ m.getHolder c = some k then some toClientId else m.getHolder c' := by
  rw [grant]
  split
  · rename_i hholder
    rw [getHolder_setHolder]
    simp only [hholder, and_true]
  · rename_i hnot
    rw [if_neg fun h ↦ hnot h.2]

theorem getHolder_force :
    (m.force c k).1.getHolder c' = if c = c' then some k else m.getHolder c' :=
  getHolder_setHolder

theorem getHolder_release :
    (m.release c k).1.getHolder c' =
      if c = c' ∧ m.getHolder c = some k then none else m.getHolder c' := by
  rw [release]
  split
  · rename_i hholder
    rw [getHolder_deleteHolder]
    simp only [hholder, and_true]
  · rename_i hnot
    rw [if_neg fun h ↦ hnot h.2]

theorem getHolder_detach :
    (m.detach c k).1.getHolder c' =
      if c = c' ∧ m.getHolder c = some k then none else m.getHolder c' := by
  rw [detach]
  split
  · rename_i hholder
    have hheld : m.getHolder c = some k := hholder
    rw [getHolder_deleteHolder]
    simp only [hheld, and_true]
    rfl
  · rename_i hnot
    rw [if_neg fun h ↦ hnot h.2]
    rfl

theorem get_foldl_delete (cs : List ChannelId) (holders : OrderedMap ChannelId ℕ) :
    (cs.foldl OrderedMap.delete holders).get c = if c ∈ cs then none else holders.get c := by
  induction cs generalizing holders with
  | nil => rfl
  | cons c' cs ih =>
    rw [List.foldl_cons, ih, OrderedMap.get_delete]
    by_cases hc : c' = c
    · simp [hc]
    · simp [hc, Ne.symm hc]

theorem mem_heldBy : c ∈ m.heldBy k ↔ m.getHolder c = some k := by
  rw [heldBy, List.mem_map, getHolder, OrderedMap.get_eq_some_iff]
  constructor
  · rintro ⟨e, he, rfl⟩
    obtain ⟨hmem, hk⟩ := List.mem_filter.mp he
    rw [decide_eq_true_eq] at hk
    exact hk ▸ hmem
  · intro hmem
    exact ⟨(c, k), List.mem_filter.mpr ⟨hmem, by simp⟩, rfl⟩

theorem getHolder_onClientDisconnect :
    (m.onClientDisconnect k).1.getHolder c =
      if m.getHolder c = some k then none else m.getHolder c := by
  rw [getHolder, onClientDisconnect, get_foldl_delete]
  simp only [mem_heldBy]
  rfl

/-! ## What a call announces -/

/-- The call tells the clients of a channel each holder that it sets, and a client that it adds. -/
structure Announces (m : WriteLockManager) (r : WriteLockManager × List LockSend) : Prop where
  changed : ∀ c, r.1.getHolder c = m.getHolder c ∨ broadcastLock c (r.1.getHolder c) ∈ r.2
  joined : ∀ c k, k ∈ r.1.attachedTo c → k ∈ m.attachedTo c ∨
    broadcastLock c (r.1.getHolder c) ∈ r.2 ∨ .toClient k (.writeLock c (r.1.getHolder c)) ∈ r.2
  /-- A WRITE_LOCK has the holder behind the call. -/
  true : ∀ o ∈ r.2, ∀ c holder, o.msg = .writeLock c holder → holder = r.1.getHolder c

/-- A call that leaves the locks as they are. -/
theorem announces_same {os : List LockSend}
    (h : ∀ o ∈ os, ∀ c holder, o.msg ≠ .writeLock c holder) : Announces m (m, os) where
  changed _ := .inl rfl
  joined _ _ := .inl
  true o ho c holder heq := absurd heq (h o ho c holder)

/-- A call that sets or takes one lock. -/
theorem announces_broadcast {m' : WriteLockManager} {holder : Option ℕ} (os : List LockSend)
    (hholder : ∀ c', m'.getHolder c' = if c = c' then holder else m.getHolder c')
    (hattached : ∀ c' k, k ∈ m'.attachedTo c' → c = c' ∨ k ∈ m.attachedTo c')
    (hos : ∀ o ∈ os, ∀ c holder, o.msg ≠ .writeLock c holder) :
    Announces m (m', os ++ [broadcastLock c holder]) where
  changed c' := by
    rw [hholder]
    split
    · rename_i heq
      exact .inr (by simp [heq])
    · exact .inl rfl
  joined c' k hk := by
    rcases hattached c' k hk with rfl | hk
    · exact .inr (.inl (by simp [hholder]))
    · exact .inl hk
  true o ho c' holder' heq := by
    rcases List.mem_append.mp ho with ho | ho
    · exact absurd heq (hos o ho c' holder')
    · obtain rfl := List.mem_singleton.mp ho
      obtain ⟨rfl, rfl⟩ := LockMessage.writeLock.inj heq
      rw [hholder, if_pos rfl]

theorem announces_setHolder : Announces m (m.setHolder c k, [broadcastLock c (some k)]) :=
  announces_broadcast [] (fun _ ↦ getHolder_setHolder) (fun _ _ ↦ .inr) (by simp)

theorem announces_deleteHolder : Announces m (m.deleteHolder c, [broadcastLock c none]) :=
  announces_broadcast [] (fun _ ↦ getHolder_deleteHolder) (fun _ _ ↦ .inr) (by simp)

theorem attachedTo_set {set : OrderedSet ℕ} {holders : OrderedMap ChannelId ℕ} :
    (WriteLockManager.mk holders (m.attached.set c set)).attachedTo c' =
      if c = c' then set else m.attachedTo c' := by
  rw [attachedTo, OrderedMap.get_set]
  split <;> rfl

theorem mem_attachedTo_attach : k' ∈ (m.attach c k).1.attachedTo c' ↔
    k' ∈ m.attachedTo c' ∨ (c = c' ∧ k' = k) := by
  have hset : (m.attach c k).1.attachedTo c' =
      if c = c' then (m.attachedTo c).add k else m.attachedTo c' := by
    rw [attach]
    split <;> exact attachedTo_set
  rw [hset]
  split
  · rename_i heq
    subst heq
    simp [or_comm]
  · rename_i hne
    simp [hne]

theorem announces_attach (m : WriteLockManager) (c : ChannelId) (k : ℕ) :
    Announces m (m.attach c k) := by
  have hadded := @mem_attachedTo_attach m c k
  have hholder := @getHolder_attach m c k
  rcases hfree : m.getHolder c with _ | holder
  -- The lock is free: the client gets it, and all are told.
  · have hattach : m.attach c k = (({ m with
        attached := m.attached.set c ((m.attachedTo c).add k) } : WriteLockManager).setHolder c k,
          [broadcastLock c (some k)]) := by
      rw [attach]
      split
      · rfl
      · rename_i hsome
        exact nomatch hsome.symm.trans hfree
    rw [hattach] at hadded ⊢
    refine announces_broadcast [] (fun c' ↦ getHolder_setHolder) (fun c' k' hk ↦ ?_) (by simp)
    rcases hadded.mp hk with hk | hk
    · exact .inr hk
    · exact .inl hk.1
  -- Another client holds the lock: the new one alone is told.
  · have hattach : m.attach c k = ({ m with
        attached := m.attached.set c ((m.attachedTo c).add k) },
          [.toClient k (.writeLock c (some holder))]) := by
      rw [attach]
      split
      · rename_i hnone
        exact nomatch hnone.symm.trans hfree
      · rename_i current hcurrent
        cases hcurrent.symm.trans hfree
        rfl
    rw [hattach] at hadded ⊢
    refine ⟨fun c' ↦ .inl rfl, fun c' k' hk ↦ ?_, fun o ho c' holder' heq ↦ ?_⟩
    · rcases hadded.mp hk with hk | ⟨rfl, rfl⟩
      · exact .inl hk
      · exact .inr (.inr (by rw [← hfree]; exact List.mem_singleton_self _))
    · obtain rfl := List.mem_singleton.mp ho
      obtain ⟨rfl, rfl⟩ := LockMessage.writeLock.inj heq
      exact hfree.symm

theorem attachedTo_deleted {set : OrderedSet ℕ} (h : k' ∈ set.delete k) : k' ∈ set :=
  (OrderedSet.mem_delete.mp h).1

theorem mem_attachedTo_detach (h : k' ∈ (m.detach c k).1.attachedTo c') : k' ∈ m.attachedTo c' := by
  have hset : (m.detach c k).1.attachedTo c' =
      if c = c' then ((m.attached.get c').map fun set ↦ set.delete k).getD .empty
      else m.attachedTo c' := by
    rw [detach]
    split <;>
      · change (OrderedMap.get (m.attached.modify c _) c').getD .empty = _
        rw [OrderedMap.get_modify]
        split <;> rfl
  rw [hset] at h
  split at h
  · rw [attachedTo]
    rcases hget : m.attached.get c' with _ | set
    · rw [hget] at h
      exact h
    · rw [hget] at h
      exact attachedTo_deleted h
  · exact h

theorem announces_detach (m : WriteLockManager) (c : ChannelId) (k : ℕ) :
    Announces m (m.detach c k) := by
  have hattached := @mem_attachedTo_detach m c k
  rcases Classical.em (m.getHolder c = some k) with hheld | hnot
  · have hdetach : m.detach c k = (({ m with
        attached := m.attached.modify c fun clients ↦ clients.delete k } :
          WriteLockManager).deleteHolder c, [broadcastLock c none]) := if_pos hheld
    rw [hdetach] at hattached ⊢
    exact announces_broadcast [] (fun c' ↦ getHolder_deleteHolder)
      (fun c' k' hk ↦ .inr (hattached hk)) (by simp)
  · have hdetach : m.detach c k = ({ m with
        attached := m.attached.modify c fun clients ↦ clients.delete k }, []) := if_neg hnot
    rw [hdetach] at hattached ⊢
    exact ⟨fun _ ↦ .inl rfl, fun c' k' hk ↦ .inl (hattached hk), by simp⟩

theorem announces_claim (m : WriteLockManager) (c : ChannelId) (k : ℕ) :
    Announces m (m.claim c k) := by
  rw [claim]
  split
  · exact announces_setHolder
  · refine announces_same fun o ho c' holder ↦ ?_
    split at ho
    · cases ho
    · obtain rfl := List.mem_singleton.mp ho
      simp [LockSend.msg]

theorem announces_grant (m : WriteLockManager) (c : ChannelId) (k toClientId : ℕ) :
    Announces m (m.grant c k toClientId) := by
  rw [grant]
  split
  · exact announces_setHolder
  · exact announces_same (by simp)

theorem announces_deny (m : WriteLockManager) (c : ChannelId) (k toClientId : ℕ) :
    Announces m (m.deny c k toClientId) := by
  refine announces_same fun o ho c' holder ↦ ?_
  split at ho
  · obtain rfl := List.mem_singleton.mp ho
    simp [LockSend.msg]
  · cases ho

theorem announces_force (m : WriteLockManager) (c : ChannelId) (k : ℕ) :
    Announces m (m.force c k) := by
  refine announces_broadcast _ (fun _ ↦ getHolder_setHolder)
    (fun _ _ ↦ .inr) fun o ho c' holder ↦ ?_
  obtain ⟨current, -, rfl⟩ := List.mem_map.mp ho
  simp [LockSend.msg]

theorem announces_release (m : WriteLockManager) (c : ChannelId) (k : ℕ) :
    Announces m (m.release c k) := by
  rw [release]
  split
  · exact announces_deleteHolder
  · exact announces_same (by simp)

theorem mem_attachedTo_onClientDisconnect (h : k' ∈ (m.onClientDisconnect k).1.attachedTo c) :
    k' ∈ m.attachedTo c := by
  rw [attachedTo, onClientDisconnect, OrderedMap.get_mapValues] at h
  rw [attachedTo]
  rcases hget : m.attached.get c with _ | set
  · rw [hget] at h
    exact h
  · rw [hget] at h
    exact attachedTo_deleted h

theorem announces_onClientDisconnect (m : WriteLockManager) (k : ℕ) :
    Announces m (m.onClientDisconnect k) where
  changed c := by
    rw [getHolder_onClientDisconnect]
    split
    · rename_i hheld
      exact .inr (List.mem_map_of_mem (mem_heldBy.mpr hheld))
    · exact .inl rfl
  joined c k' hk := .inl (mem_attachedTo_onClientDisconnect hk)
  true o ho c holder heq := by
    obtain ⟨c', hc', rfl⟩ := List.mem_map.mp ho
    obtain ⟨rfl, rfl⟩ := LockMessage.writeLock.inj heq
    rw [getHolder_onClientDisconnect, if_pos (mem_heldBy.mp hc')]

end WriteLockManager

/-- The hub, as far as write locks are concerned. -/
structure LockHub where
  ctx : SharedSessionContext
  locks : WriteLockManager
  /-- The calls for a client and a channel that are not over: an ATTACH, and a SPAWN that has got
  its channel. -/
  pending : List (ℕ × ChannelId)
  /-- What clients were sent, the latest first. -/
  sent : List (ℕ × LockMessage)
  /-- The INPUT that agents were sent, the latest first. -/
  forwarded : List (ℕ × ChannelId)

inductive LockEvent
  /-- A write to the context, behind what its handler does to the locks. -/
  | act (a : ContextAction)
  /-- A call is over. `ok` says that it has the channel. -/
  | settled (n : ℕ) (ok : Bool)
  | claim (k : ℕ) (c : ChannelId)
  | release (k : ℕ) (c : ChannelId)
  | force (k : ℕ) (c : ChannelId)
  | grant (k : ℕ) (c : ChannelId) (toClientId : ℕ)
  | deny (k : ℕ) (c : ChannelId) (toClientId : ℕ)
  | input (k : ℕ) (c : ChannelId)

namespace SharedSessionContext

/-- The call that the action begins, or gets a channel for. -/
def request (s : SharedSessionContext) : ContextAction → Option (ℕ × ChannelId)
  | .handleAttach k c => if s.isConnected k ∧ (s.channels.get c).isSome then some (k, c) else none
  | .spawned k c i _ =>
    if (s.sessionStates[i]?).isSome ∧ s.channelRows.get c = none then some (k, c) else none
  | .respawned k c i => if (s.sessionStates[i]?).isSome then some (k, c) else none
  | _ => none

/-- The client whose handler acts has been there, and is there if the handler acts at once. -/
def serves (s : SharedSessionContext) : ContextAction → Bool
  | .detachClient k _ | .handleAttach k _ => s.isConnected k
  | .removeClient k | .spawned k .. | .respawned k .. => k < s.clients.length
  | _ => true

end SharedSessionContext

namespace LockHub

def start (db : Database) : LockHub where
  ctx := .opened db
  locks := ⟨.empty, .empty⟩
  pending := []
  sent := []
  forwarded := []

variable (s : LockHub)

/-- The clients that a message goes to. `isOpen` says which sockets are open. -/
def receivers (isOpen : ℕ → Bool) : LockSend → List ℕ
  | .toClient k _ => [k].filter isOpen
  | .toChannel c _ => (s.ctx.members c).elems.filter isOpen

/-- What a call of the manager does. -/
def lock (isOpen : ℕ → Bool) (r : WriteLockManager × List LockSend) : LockHub :=
  { s with
    locks := r.1
    sent := r.2.foldl (fun sent o ↦ ((s.receivers isOpen o).map fun k ↦ (k, o.msg)) ++ sent)
      s.sent }

/-- What the handler of an action does to the locks, before the action. The socket of a client that
leaves is closed by then. -/
def prepare : ContextAction → LockHub
  | .detachClient k c => s.lock s.ctx.isConnected (s.locks.detach c k)
  | .removeClient k =>
    s.lock (fun k' ↦ s.ctx.isConnected k' && k' != k) (s.locks.onClientDisconnect k)
  | _ => s

def act (a : ContextAction) : LockHub :=
  { s.prepare a with ctx := s.ctx.apply a, pending := s.pending ++ (s.ctx.request a).toList }

/-- The handler of a message of the client `k`. -/
def handle (k : ℕ) (r : WriteLockManager × List LockSend) : Option LockHub :=
  if s.ctx.isConnected k then some (s.lock s.ctx.isConnected r) else none

/-- The channel is there, and its host has an agent. -/
def hasAgent (c : ChannelId) : Bool :=
  (s.ctx.channels.get c).any fun ch ↦ (s.ctx.agents.get ch.hostId).isSome

def handleInput (k : ℕ) (c : ChannelId) : LockHub :=
  if s.locks.isWriteLockHolder c k ∧ s.hasAgent c then
    { s with forwarded := (k, c) :: s.forwarded }
  else s

def settle (n : ℕ) (ok : Bool) (k : ℕ) (c : ChannelId) : LockHub :=
  let t := { s with pending := s.pending.eraseIdx n }
  if ok then t.lock t.ctx.isConnected (t.locks.attach c k) else t

def step : LockEvent → Option LockHub
  | .act a => if s.ctx.serves a then some (s.act a) else none
  | .settled n ok => s.pending[n]?.map fun p ↦ s.settle n ok p.1 p.2
  | .claim k c => s.handle k (s.locks.claim c k)
  | .release k c => s.handle k (s.locks.release c k)
  | .force k c => s.handle k (s.locks.force c k)
  | .grant k c toClientId => s.handle k (s.locks.grant c k toClientId)
  | .deny k c toClientId => s.handle k (s.locks.deny c k toClientId)
  | .input k c => if s.ctx.isConnected k then some (s.handleInput k c) else none

/-! ## Steps -/

variable {s} {t : LockHub} {a : ContextAction} {r : WriteLockManager × List LockSend}
  {isOpen : ℕ → Bool} {k k' n : ℕ} {c c' : ChannelId} {e : LockEvent} (db : Database)

open WriteLockManager SharedSessionContext

/-- The client is connected, and the context has it in the channel. -/
def Present (s : LockHub) (k : ℕ) (c : ChannelId) : Prop :=
  s.ctx.isConnected k = true ∧ k ∈ s.ctx.members c

instance (s : LockHub) (k : ℕ) (c : ChannelId) : Decidable (s.Present k c) :=
  inferInstanceAs (Decidable (_ ∧ _))

theorem handle_eq_some (h : s.handle k r = some t) :
    s.ctx.isConnected k = true ∧ t = s.lock s.ctx.isConnected r := by
  rw [handle] at h
  split at h
  · rename_i hconnected
    exact ⟨hconnected, (Option.some.inj h).symm⟩
  · cases h

theorem prepare_eq (hremove : ∀ k, a ≠ .removeClient k) (hdetach : ∀ k c, a ≠ .detachClient k c) :
    s.prepare a = s := by
  cases a with
  | removeClient k => exact absurd rfl (hremove k)
  | detachClient k c => exact absurd rfl (hdetach k c)
  | _ => rfl

theorem getHolder_prepare (h : (s.prepare a).locks.getHolder c = some k) :
    s.locks.getHolder c = some k ∧ (∀ k', a = .removeClient k' → k ≠ k') ∧
      ∀ k', a = .detachClient k' c → k ≠ k' := by
  cases a with
  | removeClient k' =>
    change (s.locks.onClientDisconnect k').1.getHolder c = some k at h
    rw [getHolder_onClientDisconnect] at h
    split at h
    · cases h
    · rename_i hnot
      refine ⟨h, ?_, by simp⟩
      rintro k₁ heq rfl
      obtain rfl := ContextAction.removeClient.inj heq
      exact hnot h
  | detachClient k' c' =>
    change (s.locks.detach c' k').1.getHolder c = some k at h
    rw [getHolder_detach] at h
    split at h
    · cases h
    · rename_i hnot
      refine ⟨h, by simp, ?_⟩
      rintro k₁ heq rfl
      obtain ⟨rfl, rfl⟩ := ContextAction.detachClient.inj heq
      exact hnot ⟨rfl, h⟩
  | _ => exact ⟨h, by simp, by simp⟩

/-- A client that is present stays so, unless the action puts it out. -/
theorem present_act (hbound : s.ctx.Bound) (hadd : a ≠ .addClient)
    (hremove : ∀ k, a ≠ .removeClient k) (h : s.Present k c) :
    (s.act a).Present k c ↔ ¬ s.ctx.PutOut k c a := by
  have hseat := seating_apply hbound a hadd hremove
  change (s.ctx.apply a).isConnected k = true ∧ k ∈ (s.ctx.apply a).members c ↔ _
  rw [hseat.isConnected, hseat.members]
  constructor
  · rintro ⟨-, ⟨-, hout⟩ | hin⟩
    · exact hout
    · exact not_putOut_of_putIn hin
  · intro hout
    exact ⟨h.1, .inl ⟨h.2, hout⟩⟩

theorem present_addClient (h : s.Present k c) : (s.act .addClient).Present k c := by
  have hlt : k < s.ctx.clients.length := by
    obtain ⟨x, hx, -⟩ := isConnected_iff.mp h.1
    exact (List.getElem?_eq_some_iff.mp hx).1
  change (s.ctx.apply .addClient).isConnected k = true ∧ k ∈ (s.ctx.apply .addClient).members c
  rw [isConnected_addClient hlt, members_addClient]
  exact h

theorem present_removeClient (hbound : s.ctx.Bound) (hne : k' ≠ k) :
    (s.act (.removeClient k)).Present k' c ↔ s.Present k' c := by
  have hleaves := leaves_removeClient hbound k
  change (s.ctx.removeClient k).isConnected k' = true ∧ k' ∈ (s.ctx.removeClient k).members c ↔ _
  rw [hleaves.connected, hleaves.members k' c hne]
  simp [hne, Present]

theorem act_of_step (hstep : s.step (.act a) = some t) : t = s.act a := by
  rw [step] at hstep
  split at hstep
  · exact (Option.some.inj hstep).symm
  · cases hstep

/-- INPUT is forwarded for a client that nobody keeps from it. -/
theorem input_of_step (hstep : s.step (.input k c) = some t) :
    t.locks = s.locks ∧ t.ctx = s.ctx ∧ t.pending = s.pending ∧ t.sent = s.sent ∧
      (t.forwarded = s.forwarded ∨
        t.forwarded = (k, c) :: s.forwarded ∧ s.locks.isWriteLockHolder c k = true) := by
  rw [step] at hstep
  split at hstep
  · cases hstep
    rw [handleInput]
    split
    · rename_i hcond
      exact ⟨rfl, rfl, rfl, rfl, .inr ⟨rfl, hcond.1⟩⟩
    · exact ⟨rfl, rfl, rfl, rfl, .inl rfl⟩
  · cases hstep

/-- Only an action writes to the context. -/
theorem ctx_step (hstep : s.step e = some t) :
    t.ctx = s.ctx ∨ ∃ a, e = .act a ∧ t = s.act a := by
  cases e with
  | act a => exact .inr ⟨a, rfl, act_of_step hstep⟩
  | settled n ok =>
    obtain ⟨p, -, rfl⟩ := Option.map_eq_some_iff.mp hstep
    rw [settle]
    split <;> exact .inl rfl
  | input k c => exact .inl (input_of_step hstep).2.1
  | _ =>
    obtain ⟨-, rfl⟩ := handle_eq_some hstep
    exact .inl rfl

theorem bound_step (h : s.ctx.Bound) (hstep : s.step e = some t) : t.ctx.Bound := by
  rcases ctx_step hstep with hctx | ⟨a, -, rfl⟩
  · rwa [hctx]
  · exact bound_apply h a

/-! ## Holders are present -/

/-- Whoever holds a lock is connected, and in the channel. -/
def HoldersPresent (s : LockHub) : Prop :=
  ∀ c k, s.locks.getHolder c = some k → s.Present k c

/-- The lock goes to a client only where it is present, and no holder is taken out of its channel.
The channel that a client leaves by a DETACH counts only where another channel has the same set. -/
def PresenceCareful (s : LockHub) : LockEvent → Prop
  | .act (.detachClient k c) =>
    ∀ c' ≠ c, s.locks.getHolder c' = some k → ¬ s.ctx.PutOut k c' (.detachClient k c)
  | .act (.removeClient _) => True
  | .act a => ∀ c k, s.locks.getHolder c = some k → ¬ s.ctx.PutOut k c a
  | .settled n ok => ok = true → ∀ k c, s.pending[n]? = some (k, c) →
    s.locks.getHolder c = none → s.Present k c
  | .claim k c => s.locks.getHolder c = none → k ∈ s.ctx.members c
  | .force k c => k ∈ s.ctx.members c
  | .grant k c toClientId => s.locks.getHolder c = some k → s.Present toClientId c
  | _ => True

structure PresenceInv (s : LockHub) : Prop where
  bound : s.ctx.Bound
  present : s.HoldersPresent

/-- A call that gives one lock away, under a condition. -/
theorem holdersPresent_set (h : s.HoldersPresent) {p : Prop} [Decidable p]
    (hholder : ∀ c', r.1.getHolder c' = if c = c' ∧ p then some k else s.locks.getHolder c') :
    (s.lock isOpen r).HoldersPresent ↔ (p → s.Present k c) := by
  change (∀ c' k', r.1.getHolder c' = some k' → s.Present k' c') ↔ _
  constructor
  · intro hpresent hp
    exact hpresent c k (by rw [hholder, if_pos ⟨rfl, hp⟩])
  · intro hp c' k' hk
    rw [hholder] at hk
    split at hk
    · rename_i heq
      cases hk
      exact heq.1 ▸ hp heq.2
    · exact h c' k' hk

/-- A call that gives no lock away. -/
theorem holdersPresent_drop (h : s.HoldersPresent)
    (hholder : ∀ c k, r.1.getHolder c = some k → s.locks.getHolder c = some k) :
    (s.lock isOpen r).HoldersPresent := fun c k hk ↦ h c k (hholder c k hk)

theorem holdersPresent_act_iff (h : s.PresenceInv) (a : ContextAction) :
    (s.act a).HoldersPresent ↔ s.PresenceCareful (.act a) := by
  -- No lock changes hands where nobody leaves.
  have hquiet : (∀ k, a ≠ .removeClient k) → (∀ k c, a ≠ .detachClient k c) → a ≠ .addClient →
      ((s.act a).HoldersPresent ↔ ∀ c k, s.locks.getHolder c = some k → ¬ s.ctx.PutOut k c a) := by
    intro hremove hdetach hadd
    refine forall₂_congr fun c k ↦ ?_
    change ((s.prepare a).locks.getHolder c = some k → _) ↔ _
    rw [prepare_eq hremove hdetach]
    exact imp_congr_right fun hk ↦ present_act h.bound hadd hremove (h.present c k hk)
  cases a with
  | addClient =>
    refine iff_of_true (fun c k hk ↦ ?_) fun _ _ _ ↦ id
    exact present_addClient (h.present c k hk)
  | removeClient k =>
    refine iff_of_true (fun c k' hk ↦ ?_) trivial
    obtain ⟨hk, hne, -⟩ := getHolder_prepare (a := .removeClient k) hk
    exact (present_removeClient h.bound (hne k rfl)).mpr (h.present c k' hk)
  | detachClient k c =>
    constructor
    · -- The locks that the client holds elsewhere stay with it.
      intro hpresent c' hne hk
      refine (present_act h.bound (by simp) (by simp) (h.present c' k hk)).mp (hpresent c' k ?_)
      change (s.locks.detach c k).1.getHolder c' = some k
      rw [getHolder_detach, if_neg fun heq ↦ hne heq.1.symm]
      exact hk
    · intro hcareful c' k' hk'
      obtain ⟨hk, -, hne⟩ := getHolder_prepare (a := .detachClient k c) hk'
      refine (present_act h.bound (by simp) (by simp) (h.present c' k' hk)).mpr fun hout ↦ ?_
      obtain rfl := hout.1
      refine hcareful c' ?_ hk hout
      rintro rfl
      exact hne k' rfl rfl
  | _ => exact hquiet (by simp) (by simp) (by simp)

/-- **One step**: the holders are present behind it exactly if it is careful. -/
theorem holdersPresent_step (h : s.PresenceInv) (hstep : s.step e = some t) :
    t.HoldersPresent ↔ s.PresenceCareful e := by
  cases e with
  | act a =>
    obtain rfl := act_of_step hstep
    exact holdersPresent_act_iff h a
  | settled n ok =>
    obtain ⟨⟨k, c⟩, hpending, rfl⟩ := Option.map_eq_some_iff.mp hstep
    have hsame : ({ s with pending := s.pending.eraseIdx n } : LockHub).HoldersPresent := h.present
    dsimp only [settle]
    split
    · rename_i hok
      rw [holdersPresent_set hsame fun c' ↦ getHolder_attach]
      constructor
      · rintro hp - k' c' heq hnone
        obtain ⟨rfl, rfl⟩ := Prod.mk.inj (Option.some.inj (hpending.symm.trans heq))
        exact hp hnone
      · intro hcareful hnone
        exact hcareful hok k c hpending hnone
    · rename_i hok
      exact iff_of_true hsame fun htrue ↦ absurd htrue hok
  | claim k c =>
    obtain ⟨hconnected, rfl⟩ := handle_eq_some hstep
    rw [holdersPresent_set h.present fun c' ↦ getHolder_claim]
    exact imp_congr_right fun _ ↦ and_iff_right hconnected
  | force k c =>
    obtain ⟨hconnected, rfl⟩ := handle_eq_some hstep
    have hforce : ∀ c', (s.locks.force c k).1.getHolder c' =
        if c = c' ∧ True then some k else s.locks.getHolder c' := fun c' ↦ by
      rw [getHolder_force]
      simp only [and_true]
    rw [holdersPresent_set h.present hforce, true_imp_iff]
    exact and_iff_right hconnected
  | grant k c toClientId =>
    obtain ⟨-, rfl⟩ := handle_eq_some hstep
    rw [holdersPresent_set h.present fun c' ↦ getHolder_grant]
    exact Iff.rfl
  | release k c =>
    obtain ⟨-, rfl⟩ := handle_eq_some hstep
    refine iff_of_true (holdersPresent_drop h.present fun c' k' hk ↦ ?_) trivial
    rw [getHolder_release] at hk
    split at hk
    · cases hk
    · exact hk
  | deny k c toClientId =>
    obtain ⟨-, rfl⟩ := handle_eq_some hstep
    exact iff_of_true (holdersPresent_drop h.present fun c' k' ↦ id) trivial
  | input k c =>
    obtain ⟨hlocks, hctx, -⟩ := input_of_step hstep
    refine iff_of_true (fun c' k' hk ↦ ?_) trivial
    rw [Present, hctx]
    exact h.present c' k' (hlocks ▸ hk)

theorem presenceInv_start : (start db).PresenceInv := ⟨nofun, nofun⟩

open Runs in
/-- **Write-lock holders are present** along a run exactly if its steps are careful. -/
theorem holdersPresent_iff_careful (db : Database) (es : List LockEvent) :
    Along step (fun _ _ t ↦ t.HoldersPresent) (start db) es ↔
      Along step (fun s e _ ↦ s.PresenceCareful e) (start db) es :=
  along_congr_of_keeps PresenceInv
    (fun s e t h (hstep : s.step e = some t) ↦ ⟨holdersPresent_step h hstep, fun hcareful ↦
      ⟨bound_step h.bound hstep, (holdersPresent_step h hstep).mpr hcareful⟩⟩)
    (presenceInv_start db)

open Runs in
/-- A client leaves while its SPAWN is in flight, and holds the lock of the channel it gets. -/
theorem gone_client_holds_lock :
    ∃ t, run step (start (.ofHost "desk" .daemon)) [.act .serve, .act .addClient,
        .act (.createSession "desk"), .act (.removeClient 0), .act (.spawned 0 "c" 0 false),
        .settled 0 true] = some t ∧ ¬ t.HoldersPresent := by
  refine ⟨_, rfl, fun hpresent ↦ ?_⟩
  cases (hpresent "c" 0 rfl).1

/-! ## Views agree -/

/-- The holder that the last WRITE_LOCK for a channel has, if the client got one. -/
def lastLock (sent : List (ℕ × LockMessage)) (k : ℕ) (c : ChannelId) : Option (Option ℕ) :=
  sent.findSome? fun e ↦ if e.1 = k then e.2.holderIn c else none

/-- A client that is in a channel, also for the locks, was last told who holds the lock. -/
def ViewsAgree (s : LockHub) : Prop :=
  ∀ k c, s.Present k c → k ∈ s.locks.attachedTo c →
    lastLock s.sent k c = some (s.locks.getHolder c)

/-- INPUT that the event forwards is of a client beside which nobody holds the lock. -/
def ForwardsOwn (s : LockHub) (e : LockEvent) (t : LockHub) : Prop :=
  t.forwarded = s.forwarded ∨ ∃ k c, e = .input k c ∧ t.forwarded = (k, c) :: s.forwarded ∧
    ∀ k', s.locks.getHolder c = some k' → k' = k

/-- Whom the action puts into a channel, and the locks have there from before, was last told who
holds the lock. -/
def ViewsCareful (s : LockHub) : LockEvent → Prop
  | .act a => ∀ k c, s.ctx.PutIn k c a → s.ctx.isConnected k = true →
    k ∈ s.locks.attachedTo c → lastLock s.sent k c = some (s.locks.getHolder c)
  | _ => True

structure ViewsInv (s : LockHub) : Prop where
  bound : s.ctx.Bound
  agree : s.ViewsAgree
  /-- The locks only have clients that have been there. -/
  known : ∀ k c, k ∈ s.locks.attachedTo c → k < s.ctx.clients.length
  pending : ∀ p ∈ s.pending, p.1 < s.ctx.clients.length

theorem holderIn_eq_some {msg : LockMessage} {holder : Option ℕ}
    (h : msg.holderIn c = some holder) : msg = .writeLock c holder := by
  cases msg with
  | writeLock c' holder' =>
    rw [LockMessage.holderIn] at h
    split at h
    · rename_i heq
      rw [heq, Option.some.inj h]
    · cases h
  | _ => cases h

theorem lastLock_send (ks : List ℕ) (msg : LockMessage) (sent : List (ℕ × LockMessage)) :
    (∃ holder, msg = .writeLock c holder ∧
      lastLock ((ks.map fun k ↦ (k, msg)) ++ sent) k c = some holder) ∨
    (∀ holder, msg = .writeLock c holder → k ∉ ks) ∧
      lastLock ((ks.map fun k ↦ (k, msg)) ++ sent) k c = lastLock sent k c := by
  have happend : lastLock ((ks.map fun k ↦ (k, msg)) ++ sent) k c =
      ((ks.findSome? fun k' ↦ if k' = k then msg.holderIn c else none).or (lastLock sent k c)) := by
    rw [lastLock, List.findSome?_append, List.findSome?_map]
    rfl
  rw [happend]
  rcases hfound : ks.findSome? fun k' ↦ if k' = k then msg.holderIn c else none with _ | holder
  · refine .inr ⟨fun holder hmsg hk ↦ ?_, rfl⟩
    have hnone := List.findSome?_eq_none_iff.mp hfound k hk
    rw [if_pos rfl, hmsg, LockMessage.holderIn, if_pos rfl] at hnone
    cases hnone
  · obtain ⟨k', -, hk'⟩ := List.exists_of_findSome?_eq_some hfound
    split at hk'
    · exact .inl ⟨holder, holderIn_eq_some hk', rfl⟩
    · cases hk'

/-- What a client was last told behind a call: as before, or what the call says. -/
theorem lastLock_foldl (s : LockHub) (isOpen : ℕ → Bool) (k : ℕ) (c : ChannelId)
    (os : List LockSend) (sent : List (ℕ × LockMessage)) :
    (∃ o ∈ os, ∃ holder, o.msg = .writeLock c holder ∧
      lastLock
        (os.foldl (fun sent o ↦ ((s.receivers isOpen o).map fun k ↦ (k, o.msg)) ++ sent) sent)
        k c = some holder) ∨
    (∀ o ∈ os, ∀ holder, o.msg = .writeLock c holder → k ∉ s.receivers isOpen o) ∧
      lastLock
        (os.foldl (fun sent o ↦ ((s.receivers isOpen o).map fun k ↦ (k, o.msg)) ++ sent) sent)
        k c = lastLock sent k c := by
  induction os generalizing sent with
  | nil => exact .inr ⟨by simp, rfl⟩
  | cons o os ih =>
    rw [List.foldl_cons]
    rcases ih (((s.receivers isOpen o).map fun k ↦ (k, o.msg)) ++ sent) with
      ⟨o', ho', holder, hmsg, hlast⟩ | ⟨hnone, hlast⟩
    · exact .inl ⟨o', List.mem_cons_of_mem o ho', holder, hmsg, hlast⟩
    · rw [hlast]
      rcases lastLock_send (s.receivers isOpen o) o.msg sent (k := k) (c := c) with
        ⟨holder, hmsg, hlast⟩ | ⟨hnot, hlast⟩
      · exact .inl ⟨o, List.mem_cons_self, holder, hmsg, hlast⟩
      · refine .inr ⟨fun o' ho' holder hmsg ↦ ?_, hlast⟩
        rcases List.mem_cons.mp ho' with rfl | ho'
        · exact hnot holder hmsg
        · exact hnone o' ho' holder hmsg

/-- **A call of the manager keeps the views** of all clients whose sockets are open. -/
theorem lastLock_lock (h : s.ViewsAgree) (hr : Announces s.locks r) (hopen : isOpen k = true)
    (hpresent : s.Present k c) (hattached : k ∈ r.1.attachedTo c) :
    lastLock (s.lock isOpen r).sent k c = some (r.1.getHolder c) := by
  have hchannel : k ∈ s.receivers isOpen (broadcastLock c (r.1.getHolder c)) :=
    List.mem_filter.mpr ⟨hpresent.2, hopen⟩
  rcases s.lastLock_foldl isOpen k c r.2 s.sent with
    ⟨o, ho, holder, hmsg, hlast⟩ | ⟨hnone, hlast⟩
  · rw [← hr.true o ho c holder hmsg]
    exact hlast
  · have hsilent : broadcastLock c (r.1.getHolder c) ∉ r.2 := fun hmem ↦
      hnone _ hmem _ rfl hchannel
    have hsame := (hr.changed c).resolve_right hsilent
    refine hlast.trans ?_
    rcases hr.joined c k hattached with hbefore | hmem | hmem
    · rw [hsame]
      exact h k c hpresent hbefore
    · exact absurd hmem hsilent
    · refine absurd ?_ (hnone _ hmem _ rfl)
      exact List.mem_filter.mpr ⟨List.mem_singleton_self k, hopen⟩

theorem viewsAgree_lock (h : s.ViewsAgree) (hr : Announces s.locks r) :
    (s.lock s.ctx.isConnected r).ViewsAgree :=
  fun _ _ hpresent hattached ↦ lastLock_lock h hr hpresent.1 hpresent hattached

theorem viewsAgree_act_iff (h : s.ViewsInv) (a : ContextAction) :
    (s.act a).ViewsAgree ↔ s.ViewsCareful (.act a) := by
  have hnone : (∀ k c, ¬ s.ctx.PutIn k c a) → s.ViewsCareful (.act a) :=
    fun hnot k c hin ↦ absurd hin (hnot k c)
  -- Where nobody leaves, locks and messages stay, and a client may only come in.
  have hquiet : (∀ k, a ≠ .removeClient k) → (∀ k c, a ≠ .detachClient k c) → a ≠ .addClient →
      ((s.act a).ViewsAgree ↔ s.ViewsCareful (.act a)) := by
    intro hremove hdetach hadd
    have hseat := seating_apply h.bound a hadd hremove
    have hlast : ∀ k c, lastLock (s.act a).sent k c = some ((s.act a).locks.getHolder c) ↔
        lastLock s.sent k c = some (s.locks.getHolder c) := fun k c ↦ by
      rw [act, prepare_eq hremove hdetach]
    have hattached : ∀ k c, k ∈ (s.act a).locks.attachedTo c ↔ k ∈ s.locks.attachedTo c :=
      fun k c ↦ by rw [act, prepare_eq hremove hdetach]
    constructor
    · intro hagree k c hin hconnected hk
      refine (hlast k c).mp (hagree k c ⟨?_, ?_⟩ ((hattached k c).mpr hk))
      · exact (hseat.isConnected k).trans hconnected
      · exact (hseat.members k c).mpr (.inr hin)
    · intro hcareful k c hpresent hk
      have hconnected := (hseat.isConnected k).symm.trans hpresent.1
      refine (hlast k c).mpr ?_
      rcases (hseat.members k c).mp hpresent.2 with hbefore | hin
      · exact h.agree k c ⟨hconnected, hbefore.1⟩ ((hattached k c).mp hk)
      · exact hcareful k c hin hconnected ((hattached k c).mp hk)
  cases a with
  | addClient =>
    refine iff_of_true (fun k c hpresent hk ↦ ?_) (hnone fun _ _ ↦ id)
    have hconnected := (isConnected_addClient (h.known k c hk)).symm.trans hpresent.1
    refine h.agree k c ⟨hconnected, ?_⟩ hk
    rw [← members_addClient]
    exact hpresent.2
  | removeClient k =>
    refine iff_of_true (fun k' c hpresent hk ↦ ?_) (hnone fun _ _ ↦ id)
    -- `onClientDisconnect` tells those that stay.
    have hne : k' ≠ k := (((leaves_removeClient h.bound k).connected k').mp hpresent.1).2
    have hbefore := (present_removeClient h.bound hne).mp hpresent
    exact lastLock_lock h.agree (announces_onClientDisconnect _ _) (by simp [hbefore.1, hne])
      hbefore
      hk
  | detachClient k c =>
    refine iff_of_true (fun k' c' hpresent hk ↦ ?_) (hnone fun _ _ ↦ id)
    have hseat := seating_apply h.bound (.detachClient k c) (by simp) (by simp)
    have hbefore : s.Present k' c' :=
      ⟨(hseat.isConnected k').symm.trans hpresent.1,
        (((hseat.members k' c').mp hpresent.2).resolve_right id).1⟩
    exact viewsAgree_lock h.agree (announces_detach _ _ _) k' c' hbefore hk
  | _ => exact hquiet (by simp) (by simp) (by simp)

/-- **One step**: the views agree behind it exactly if it is careful. -/
theorem viewsAgree_step (h : s.ViewsInv) (hstep : s.step e = some t) :
    t.ViewsAgree ↔ s.ViewsCareful e := by
  cases e with
  | act a =>
    obtain rfl := act_of_step hstep
    exact viewsAgree_act_iff h a
  | settled n ok =>
    obtain ⟨⟨k, c⟩, hpending, rfl⟩ := Option.map_eq_some_iff.mp hstep
    have hsame : ({ s with pending := s.pending.eraseIdx n } : LockHub).ViewsAgree := h.agree
    refine iff_of_true ?_ trivial
    dsimp only [settle]
    split
    · exact viewsAgree_lock hsame (announces_attach s.locks c k)
    · exact hsame
  | claim k c =>
    obtain ⟨-, rfl⟩ := handle_eq_some hstep
    exact iff_of_true (viewsAgree_lock h.agree (announces_claim _ _ _)) trivial
  | release k c =>
    obtain ⟨-, rfl⟩ := handle_eq_some hstep
    exact iff_of_true (viewsAgree_lock h.agree (announces_release _ _ _)) trivial
  | force k c =>
    obtain ⟨-, rfl⟩ := handle_eq_some hstep
    exact iff_of_true (viewsAgree_lock h.agree (announces_force _ _ _)) trivial
  | grant k c toClientId =>
    obtain ⟨-, rfl⟩ := handle_eq_some hstep
    exact iff_of_true (viewsAgree_lock h.agree (announces_grant _ _ _ _)) trivial
  | deny k c toClientId =>
    obtain ⟨-, rfl⟩ := handle_eq_some hstep
    exact iff_of_true (viewsAgree_lock h.agree (announces_deny _ _ _ _)) trivial
  | input k c =>
    obtain ⟨hlocks, hctx, -, hsent, -⟩ := input_of_step hstep
    refine iff_of_true (fun k' c' hpresent hk ↦ ?_) trivial
    rw [Present, hctx] at hpresent
    rw [hsent, hlocks]
    exact h.agree k' c' hpresent (hlocks ▸ hk)

/-- INPUT is never forwarded for a client beside another that holds the lock. -/
theorem forwardsOwn_step (hstep : s.step e = some t) : s.ForwardsOwn e t := by
  cases e with
  | act a =>
    obtain rfl := act_of_step hstep
    refine .inl ?_
    change (s.prepare a).forwarded = _
    cases a <;> rfl
  | settled n ok =>
    obtain ⟨p, -, rfl⟩ := Option.map_eq_some_iff.mp hstep
    rw [settle]
    split <;> exact .inl rfl
  | input k c =>
    obtain ⟨-, -, -, -, hsame | ⟨hforwarded, hholder⟩⟩ := input_of_step hstep
    · exact .inl hsame
    · refine .inr ⟨k, c, rfl, hforwarded, fun k' hk' ↦ ?_⟩
      simpa [isWriteLockHolder, hk'] using hholder
  | _ =>
    obtain ⟨-, rfl⟩ := handle_eq_some hstep
    exact .inl rfl

/-- The locks get a client when a call of it is over. -/
theorem attachedTo_step (hstep : s.step e = some t)
    (h : k ∈ t.locks.attachedTo c) : k ∈ s.locks.attachedTo c ∨ (k, c) ∈ s.pending := by
  cases e with
  | act a =>
    obtain rfl := act_of_step hstep
    refine .inl ?_
    change k ∈ (s.prepare a).locks.attachedTo c at h
    cases a with
    | removeClient k' => exact mem_attachedTo_onClientDisconnect h
    | detachClient k' c' => exact mem_attachedTo_detach h
    | _ => exact h
  | settled n ok =>
    obtain ⟨⟨k', c'⟩, hpending, rfl⟩ := Option.map_eq_some_iff.mp hstep
    dsimp only [settle] at h
    split at h
    · rcases mem_attachedTo_attach.mp h with hk | ⟨rfl, rfl⟩
      · exact .inl hk
      · exact .inr (List.mem_of_getElem? hpending)
    · exact .inl h
  | input k' c' => exact .inl ((input_of_step hstep).1 ▸ h)
  | claim k' c' =>
    obtain ⟨-, rfl⟩ := handle_eq_some hstep
    change k ∈ (s.locks.claim c' k').1.attachedTo c at h
    rw [WriteLockManager.claim] at h
    split at h <;> exact .inl h
  | force k' c' =>
    obtain ⟨-, rfl⟩ := handle_eq_some hstep
    exact .inl h
  | deny k' c' toClientId =>
    obtain ⟨-, rfl⟩ := handle_eq_some hstep
    exact .inl h
  | grant k' c' toClientId =>
    obtain ⟨-, rfl⟩ := handle_eq_some hstep
    change k ∈ (s.locks.grant c' k' toClientId).1.attachedTo c at h
    rw [WriteLockManager.grant] at h
    split at h <;> exact .inl h
  | release k' c' =>
    obtain ⟨-, rfl⟩ := handle_eq_some hstep
    change k ∈ (s.locks.release c' k').1.attachedTo c at h
    rw [WriteLockManager.release] at h
    split at h <;> exact .inl h

theorem lt_length_of_request {p : ℕ × ChannelId} (hserves : s.ctx.serves a = true)
    (h : p ∈ s.ctx.request a) : p.1 < s.ctx.clients.length := by
  cases a with
  | handleAttach k c =>
    rw [request] at h
    split at h
    · cases h
      exact lt_length_of_isConnected hserves
    · cases h
  | spawned k c i elevated =>
    rw [request] at h
    split at h
    · cases h
      exact of_decide_eq_true hserves
    · cases h
  | respawned k c i =>
    rw [request] at h
    split at h
    · cases h
      exact of_decide_eq_true hserves
    · cases h
  | _ => cases h

theorem length_le_step (h : s.ctx.Bound) (hstep : s.step e = some t) :
    s.ctx.clients.length ≤ t.ctx.clients.length := by
  rcases ctx_step hstep with hctx | ⟨a, -, rfl⟩
  · rw [hctx]
  · exact length_le_apply h a

theorem pending_step (h : s.ViewsInv) (hstep : s.step e = some t) :
    ∀ p ∈ t.pending, p.1 < s.ctx.clients.length := by
  cases e with
  | act a =>
    rw [step] at hstep
    split at hstep
    · rename_i hserves
      cases hstep
      intro p hp
      rcases List.mem_append.mp hp with hp | hp
      · exact h.pending p hp
      · exact lt_length_of_request hserves (Option.mem_toList.mp hp)
    · cases hstep
  | settled n ok =>
    obtain ⟨q, -, rfl⟩ := Option.map_eq_some_iff.mp hstep
    intro p hp
    refine h.pending p (List.mem_of_mem_eraseIdx (i := n) ?_)
    rw [settle] at hp
    split at hp <;> exact hp
  | input k c =>
    rw [(input_of_step hstep).2.2.1]
    exact h.pending
  | _ =>
    obtain ⟨-, rfl⟩ := handle_eq_some hstep
    exact h.pending

theorem ViewsInv.step (h : s.ViewsInv) (hstep : s.step e = some t)
    (hcareful : s.ViewsCareful e) : t.ViewsInv where
  bound := bound_step h.bound hstep
  agree := (viewsAgree_step h hstep).mpr hcareful
  known k c hk := by
    refine Nat.lt_of_lt_of_le ?_ (length_le_step h.bound hstep)
    rcases attachedTo_step hstep hk with hk | hk
    · exact h.known k c hk
    · exact h.pending _ hk
  pending p hp := (pending_step h hstep p hp).trans_le (length_le_step h.bound hstep)

theorem viewsInv_start : (start db).ViewsInv where
  bound := nofun
  agree k c hpresent _ := by cases hpresent.1
  known k c hk := absurd hk (OrderedSet.not_mem_empty k)
  pending := by simp [start]

open Runs in
/-- **Write-lock views agree** along a run exactly if its steps are careful, and INPUT is forwarded
as the locks say. -/
theorem viewsAgree_iff_careful (db : Database) (es : List LockEvent) :
    Along step (fun s e t ↦ t.ViewsAgree ∧ s.ForwardsOwn e t) (start db) es ↔
      Along step (fun s e _ ↦ s.ViewsCareful e) (start db) es :=
  along_congr_of_keeps ViewsInv
    (fun s e t h (hstep : s.step e = some t) ↦
      ⟨(and_iff_left (forwardsOwn_step hstep)).trans (viewsAgree_step h hstep), h.step hstep⟩)
    (viewsInv_start db)

open Runs in
/-- A client attaches, and detaches before the call is over, so that it gets the free lock and is
not told. When it attaches again, it is in the channel, and the locks have it there. -/
theorem holder_not_told :
    ∃ t, run step (start (.ofHost "desk" .daemon)) [.act .serve, .act .addClient,
        .act (.createSession "desk"), .act (.spawned 0 "c" 0 false), .settled 0 true,
        .release 0 "c", .act .addClient, .act (.handleAttach 1 "c"), .act (.detachClient 1 "c"),
        .settled 0 true, .act (.handleAttach 1 "c")] = some t ∧ ¬ t.ViewsAgree := by
  refine ⟨_, rfl, fun hagree ↦ ?_⟩
  have hlast := hagree 1 "c" (by decide) (by decide)
  cases hlast

end LockHub

end Lasterm.Hub
