import Lasterm.Library.Optimistic
import Lasterm.Web.ChannelFetches

/-!
# Edits of the channels of a page

The calls of `stores/channels.ts` that show their effect at once: `moveChannelToGroup`,
`setWelcomeChannel`, `clearWelcomeChannel`, `renameChannel`, `renameGroup` and `reorderGroups`. Each
sends one request, and where that fails it puts back what it had kept before: the whole list of
channels, all groups, or for `renameChannel` the one channel. Messages of the hub change the same
lists meanwhile.

So a failed call takes with it whatever has changed since in what it kept. `replayed_of_careful`
says that a run leads to what the calls that have not failed and the messages lead to, as long as
nothing of the kind has come before a failure.

After a failure `renameChannel` fetches the lists again. The answer replaces them, with whatever a
pending call shows by then.

The host ids of the calls go into the requests only.
-/

namespace Lasterm.Web.ChannelEdits

open Runs Optimistic
open Hub (ChannelStatus)

variable {ρ : Type}

/-! ## The lists -/

/-- `rest` has the fields that nothing here looks at. -/
structure Channel (ρ : Type) where
  id : String
  groupId : Option String
  title : Option String
  status : ChannelStatus
  exitCode : Option ℤ
  isWelcome : Bool
  dynamicTitle : Option String
  processTitle : Option String
  displayTitle : Option String
  rest : ρ

structure Lists (ρ : Type) where
  channels : List (Channel ρ)
  groups : List ChannelGroup

def findChannel (id : String) (channels : List (Channel ρ)) : Option (Channel ρ) :=
  channels.find? fun c ↦ c.id = id

/-- `next[idx] = …` with the `findIndex` of the channel. -/
def modifyChannel (id : String) (f : Channel ρ → Channel ρ) (channels : List (Channel ρ)) :
    List (Channel ρ) :=
  channels.modify (channels.findIdx fun c ↦ c.id = id) f

theorem modifyChannel_cons (id : String) (f : Channel ρ → Channel ρ) (c : Channel ρ)
    (cs : List (Channel ρ)) : modifyChannel id f (c :: cs) =
      if c.id = id then f c :: cs else c :: modifyChannel id f cs := by
  rw [modifyChannel, List.findIdx_cons]
  by_cases h : c.id = id
  · rw [if_pos h, decide_eq_true h]
    rfl
  · rw [if_neg h, decide_eq_false h]
    rfl

theorem modifyChannel_append {id : String} {f : Channel ρ → Channel ρ} {before : List (Channel ρ)}
    (hbefore : ∀ c ∈ before, c.id ≠ id) {a : Channel ρ} (ha : a.id = id)
    (after : List (Channel ρ)) :
    modifyChannel id f (before ++ a :: after) = before ++ f a :: after := by
  induction before with
  | nil => rw [List.nil_append, modifyChannel_cons, if_pos ha, List.nil_append]
  | cons c before ih =>
    obtain ⟨hc, hbefore⟩ := List.forall_mem_cons.mp hbefore
    rw [List.cons_append, modifyChannel_cons, if_neg hc, ih hbefore, List.cons_append]

theorem exists_of_findChannel {id : String} {cs : List (Channel ρ)} {c : Channel ρ}
    (h : findChannel id cs = some c) :
    c.id = id ∧ ∃ before after, cs = before ++ c :: after ∧ ∀ d ∈ before, d.id ≠ id := by
  obtain ⟨hc, before, after, rfl, hbefore⟩ := List.find?_eq_some_iff_append.mp h
  exact ⟨of_decide_eq_true hc, before, after, rfl, fun d hd ↦ by simpa using hbefore d hd⟩

theorem findChannel_append {id : String} {before after : List (Channel ρ)} {b : Channel ρ}
    (hbefore : ∀ d ∈ before, d.id ≠ id) (hb : b.id = id) :
    findChannel id (before ++ b :: after) = some b := by
  refine List.find?_eq_some_iff_append.mpr ⟨decide_eq_true hb, before, after, rfl, fun d hd ↦ ?_⟩
  simpa using hbefore d hd

theorem modifyChannel_of_findChannel_eq_none {id : String} {f : Channel ρ → Channel ρ}
    {cs : List (Channel ρ)} (h : findChannel id cs = none) : modifyChannel id f cs = cs := by
  induction cs with
  | nil => rfl
  | cons c cs ih =>
    have hnone := List.find?_eq_none.mp h
    have hc : c.id ≠ id := fun hid ↦ hnone c List.mem_cons_self (decide_eq_true hid)
    rw [modifyChannel_cons, if_neg hc,
      ih (List.find?_eq_none.mpr fun d hd ↦ hnone d (List.mem_cons_of_mem c hd))]

theorem findChannel_cons (id : String) (c : Channel ρ) (cs : List (Channel ρ)) :
    findChannel id (c :: cs) = if c.id = id then some c else findChannel id cs := by
  by_cases h : c.id = id
  · rw [if_pos h]
    exact List.find?_cons_of_pos (decide_eq_true h)
  · rw [if_neg h]
    exact List.find?_cons_of_neg (by simpa using h)

theorem findChannel_map {f : Channel ρ → Channel ρ} (hf : ∀ c, (f c).id = c.id) (id : String)
    (cs : List (Channel ρ)) : findChannel id (cs.map f) = (findChannel id cs).map f := by
  have hid : (fun c : Channel ρ ↦ decide (c.id = id)) ∘ f = fun c ↦ decide (c.id = id) :=
    funext fun c ↦ congrArg (fun i ↦ decide (i = id)) (hf c)
  rw [findChannel, List.find?_map, hid]
  rfl

theorem findChannel_modifyChannel {f : Channel ρ → Channel ρ} {id' : String}
    (hf : ∀ c, c.id = id' → (f c).id = id') (id : String) (cs : List (Channel ρ)) :
    findChannel id (modifyChannel id' f cs) =
      if id = id' then (findChannel id cs).map f else findChannel id cs := by
  induction cs with
  | nil => exact (ite_self _).symm
  | cons c cs ih =>
    rw [modifyChannel_cons, findChannel_cons id c]
    by_cases hc : c.id = id'
    · rw [if_pos hc, findChannel_cons, hf c hc, hc]
      by_cases hid : id = id'
      · rw [if_pos hid.symm, if_pos hid, if_pos hid.symm]
        rfl
      · rw [if_neg (Ne.symm hid), if_neg hid, if_neg (Ne.symm hid)]
    · rw [if_neg hc, findChannel_cons, ih]
      by_cases hid : c.id = id
      · rw [if_pos hid, if_pos hid, if_neg fun h ↦ hc (hid.trans h)]
      · rw [if_neg hid, if_neg hid]

def Channel.withStatus (c : Channel ρ) (p : PendingStatus) : Channel ρ :=
  { c with status := p.status, exitCode := p.exitCode <|> c.exitCode }

def moveChannelToGroup (channelId : String) (groupId : Option String)
    (channels : List (Channel ρ)) : List (Channel ρ) :=
  channels.map fun ch ↦ if ch.id ≠ channelId then ch else { ch with groupId }

def setWelcomeChannel (channelId : String) (channels : List (Channel ρ)) : List (Channel ρ) :=
  channels.map fun ch ↦
    if ch.id = channelId then { ch with isWelcome := true } else { ch with isWelcome := false }

def clearWelcomeChannel (channels : List (Channel ρ)) : List (Channel ρ) :=
  channels.map fun ch ↦ { ch with isWelcome := false }

def renameChannel (channelId : String) (title : Option String) (channels : List (Channel ρ)) :
    List (Channel ρ) :=
  modifyChannel channelId (fun existing ↦ { existing with title }) channels

def renameGroup (groupId name : String) (groups : List ChannelGroup) : List ChannelGroup :=
  groups.map fun g ↦ if g.id = groupId then { g with name } else g

def reorderGroups (groupIds : List String) (groups : List ChannelGroup) : List ChannelGroup :=
  groupIds.filterMap (fun id ↦ groups.find? fun g ↦ g.id = id) ++
    groups.filter fun g ↦ g.id ∉ groupIds

def updateChannelStatus (channelId : String) (p : PendingStatus) (channels : List (Channel ρ)) :
    List (Channel ρ) :=
  modifyChannel channelId (·.withStatus p) channels

def setDynamicTitle (channelId title : String) (channels : List (Channel ρ)) : List (Channel ρ) :=
  modifyChannel channelId ({ · with dynamicTitle := some title }) channels

def updateProcessTitle (channelId title : String) (channels : List (Channel ρ)) :
    List (Channel ρ) :=
  modifyChannel channelId ({ · with processTitle := some title }) channels

def setDisplayTitle (channelId displayTitle : String) (channels : List (Channel ρ)) :
    List (Channel ρ) :=
  modifyChannel channelId ({ · with displayTitle := some displayTitle }) channels

structure ChannelCreatedMessage (ρ : Type) where
  channelId : String
  hostId : String
  status : ChannelStatus
  displayTitle : String
  rest : ρ

def handleChannelCreated (msg : ChannelCreatedMessage ρ) (channels : List (Channel ρ)) :
    List (Channel ρ) :=
  if channels.any fun c ↦ c.id = msg.channelId then channels
  else
    channels ++
      [{ id := msg.channelId, groupId := none, title := none, status := msg.status,
         exitCode := none, isWelcome := false, dynamicTitle := none, processTitle := none,
         displayTitle := some msg.displayTitle, rest := msg.rest }]

/-! ## The calls and the messages -/

inductive ChannelEdit
  | moveChannelToGroup (channelId : String) (groupId : Option String)
  | setWelcomeChannel (channelId : String)
  | clearWelcomeChannel
  | renameChannel (channelId : String) (title : Option String)
  | renameGroup (groupId name : String)
  | reorderGroups (groupIds : List String)

inductive ChannelMessage (ρ : Type)
  | CHANNEL_STATE (channelId : String) (status : ChannelStatus) (exitCode : Option ℤ)
  | CHANNEL_CREATED (msg : ChannelCreatedMessage ρ)
  | TITLE_CHANGE (channelId title : String) (displayTitle : Option String)
  | PROCESS_TITLE (channelId title : String) (displayTitle : Option String)

inductive Update (ρ : Type)
  | edit (e : ChannelEdit)
  | message (m : ChannelMessage ρ)

/-- `if (msg.displayTitle)`: the empty title is left out, too. -/
def withDisplayTitle (channelId : String) (displayTitle : Option String)
    (channels : List (Channel ρ)) : List (Channel ρ) :=
  match displayTitle with
  | some title => if title = "" then channels else setDisplayTitle channelId title channels
  | none => channels

namespace Update

def channels : Update ρ → List (Channel ρ) → List (Channel ρ)
  | .edit (.moveChannelToGroup channelId groupId) => moveChannelToGroup channelId groupId
  | .edit (.setWelcomeChannel channelId) => setWelcomeChannel channelId
  | .edit .clearWelcomeChannel => clearWelcomeChannel
  | .edit (.renameChannel channelId title) => renameChannel channelId title
  | .edit (.renameGroup _ _) => id
  | .edit (.reorderGroups _) => id
  | .message (.CHANNEL_STATE channelId status exitCode) =>
    updateChannelStatus channelId ⟨status, exitCode⟩
  | .message (.CHANNEL_CREATED msg) => handleChannelCreated msg
  | .message (.TITLE_CHANGE channelId title displayTitle) => fun channels ↦
    withDisplayTitle channelId displayTitle (setDynamicTitle channelId title channels)
  | .message (.PROCESS_TITLE channelId title displayTitle) => fun channels ↦
    withDisplayTitle channelId displayTitle (updateProcessTitle channelId title channels)

def groups : Update ρ → List ChannelGroup → List ChannelGroup
  | .edit (.renameGroup groupId name) => renameGroup groupId name
  | .edit (.reorderGroups groupIds) => reorderGroups groupIds
  | _ => id

def apply (u : Update ρ) (x : Lists ρ) : Lists ρ := ⟨u.channels x.channels, u.groups x.groups⟩

end Update

/-- What a call keeps until its request has ended. The channel that `renameChannel` keeps has the id
that it was found by, and is put back by that. -/
inductive Captured (ρ : Type)
  | channels (oldChannels : List (Channel ρ))
  | groups (oldGroups : List ChannelGroup)
  | channel (oldChannel : Channel ρ)

/-- `renameChannel` returns at once where there is no such channel. -/
def Update.capture : Update ρ → Lists ρ → Option (Captured ρ)
  | .edit (.moveChannelToGroup _ _), x => some (.channels x.channels)
  | .edit (.setWelcomeChannel _), x => some (.channels x.channels)
  | .edit .clearWelcomeChannel, x => some (.channels x.channels)
  | .edit (.renameChannel channelId _), x =>
    (findChannel channelId x.channels).map .channel
  | .edit (.renameGroup _ _), x => some (.groups x.groups)
  | .edit (.reorderGroups _), x => some (.groups x.groups)
  | .message _, _ => none

/-- The rollback. -/
def Captured.undo : Captured ρ → Lists ρ → Lists ρ
  | .channels oldChannels, x => { x with channels := oldChannels }
  | .groups oldGroups, x => { x with groups := oldGroups }
  | .channel oldChannel, x =>
    { x with channels := modifyChannel oldChannel.id (fun _ ↦ oldChannel) x.channels }

def Captured.Fresh : Captured ρ → Lists ρ → Prop
  | .channels oldChannels, x => x.channels = oldChannels
  | .groups oldGroups, x => x.groups = oldGroups
  | .channel oldChannel, x => findChannel oldChannel.id x.channels = some oldChannel

/-- The lists differ in the first channel with the id at most. -/
inductive OffFirst (id : String) : List (Channel ρ) → List (Channel ρ) → Prop
  | refl (cs : List (Channel ρ)) : OffFirst id cs cs
  | first (before after : List (Channel ρ)) (a b : Channel ρ) :
    (∀ c ∈ before, c.id ≠ id) → a.id = id → b.id = id →
      OffFirst id (before ++ a :: after) (before ++ b :: after)

def Captured.Off : Captured ρ → Lists ρ → Lists ρ → Prop
  | .channels _, x, y => x.groups = y.groups
  | .groups _, x, y => x.channels = y.channels
  | .channel oldChannel, x, y =>
    OffFirst oldChannel.id x.channels y.channels ∧ x.groups = y.groups

/-! ## What the updates do to one channel -/

section

variable {id : String} {cs ds : List (Channel ρ)} {f : Channel ρ → Channel ρ}

section

variable (h : OffFirst id cs ds)
include h

theorem OffFirst.map (hf : ∀ c, (f c).id = c.id) :
    OffFirst id (cs.map f) (ds.map f) := by
  cases h with
  | refl => exact .refl _
  | first before after a b hbefore ha hb =>
    rw [List.map_append, List.map_append, List.map_cons, List.map_cons]
    refine .first _ _ _ _ (fun d hd ↦ ?_) ((hf a).trans ha) ((hf b).trans hb)
    obtain ⟨c, hc, rfl⟩ := List.mem_map.mp hd
    exact hf c ▸ hbefore c hc

theorem OffFirst.cons {c : Channel ρ} (hc : c.id ≠ id) :
    OffFirst id (c :: cs) (c :: ds) := by
  cases h with
  | refl => exact .refl _
  | first before after a b hbefore ha hb =>
    exact .first (c :: before) after a b (List.forall_mem_cons.mpr ⟨hc, hbefore⟩) ha hb

theorem OffFirst.modifyChannel (hf : ∀ c, (f c).id = c.id) (id' : String) :
    OffFirst id (modifyChannel id' f cs) (modifyChannel id' f ds) := by
  cases h with
  | refl => exact .refl _
  | first before after a b hbefore ha hb =>
    induction before with
    | nil =>
      rw [List.nil_append, List.nil_append, modifyChannel_cons, modifyChannel_cons, ha, hb]
      by_cases hid : id = id'
      · rw [if_pos hid, if_pos hid]
        exact .first [] after _ _ (List.forall_mem_nil _) ((hf a).trans ha) ((hf b).trans hb)
      · rw [if_neg hid, if_neg hid]
        exact .first [] _ a b (List.forall_mem_nil _) ha hb
    | cons c before ih =>
      obtain ⟨hc, hbefore⟩ := List.forall_mem_cons.mp hbefore
      rw [List.cons_append, List.cons_append, modifyChannel_cons, modifyChannel_cons]
      by_cases hid : c.id = id'
      · rw [if_pos hid, if_pos hid]
        exact (OffFirst.first before after a b hbefore ha hb).cons (hf c ▸ hc)
      · rw [if_neg hid, if_neg hid]
        exact (ih hbefore).cons hc

theorem OffFirst.append (es : List (Channel ρ)) :
    OffFirst id (cs ++ es) (ds ++ es) := by
  cases h with
  | refl => exact .refl _
  | first before after a b hbefore ha hb =>
    rw [List.append_assoc, List.append_assoc, List.cons_append, List.cons_append]
    exact .first before _ a b hbefore ha hb

theorem OffFirst.map_id : cs.map Channel.id = ds.map Channel.id := by
  cases h with
  | refl => rfl
  | first before after a b hbefore ha hb =>
    rw [List.map_append, List.map_append, List.map_cons, List.map_cons, ha, hb]

theorem OffFirst.any_id (id' : String) :
    (cs.any fun c ↦ c.id = id') = ds.any fun c ↦ c.id = id' := by
  have hany : ∀ cs : List (Channel ρ),
      (cs.any fun c ↦ c.id = id') = (cs.map Channel.id).any fun i ↦ i = id' := by
    intro cs
    rw [List.any_map]
    rfl
  rw [hany, hany, h.map_id]

end

end

/-- What becomes of the first channel with an id depends on nothing else, and nothing else depends
on it. -/
structure Local (F : List (Channel ρ) → List (Channel ρ)) : Prop where
  offFirst : ∀ {id cs ds}, OffFirst id cs ds → OffFirst id (F cs) (F ds)
  findChannel : ∀ {id cs ds c}, findChannel id cs = some c → findChannel id ds = some c →
    ∃ d, findChannel id (F cs) = some d ∧ findChannel id (F ds) = some d

theorem local_id : Local (id : List (Channel ρ) → List (Channel ρ)) := ⟨id, fun hc hd ↦ ⟨_, hc, hd⟩⟩

theorem Local.comp {F G : List (Channel ρ) → List (Channel ρ)} (hG : Local G) (hF : Local F) :
    Local (G ∘ F) where
  offFirst h := hG.offFirst (hF.offFirst h)
  findChannel hc hd := by
    obtain ⟨d, hc, hd⟩ := hF.findChannel hc hd
    exact hG.findChannel hc hd

section

variable {f : Channel ρ → Channel ρ} (hf : ∀ c, (f c).id = c.id)

include hf

theorem local_map : Local (List.map f) where
  offFirst h := h.map hf
  findChannel {id cs ds c} hc hd := by
    rw [findChannel_map hf, findChannel_map hf, hc, hd]
    exact ⟨f c, rfl, rfl⟩

theorem local_modifyChannel (id : String) : Local (modifyChannel id f) where
  offFirst h := h.modifyChannel hf id
  findChannel {id' cs ds c} hc hd := by
    have hfid : ∀ c, c.id = id → (f c).id = id := fun c hc ↦ (hf c).trans hc
    rw [findChannel_modifyChannel hfid, findChannel_modifyChannel hfid, hc, hd]
    split
    · exact ⟨f c, rfl, rfl⟩
    · exact ⟨c, rfl, rfl⟩

end

theorem local_handleChannelCreated (msg : ChannelCreatedMessage ρ) :
    Local (handleChannelCreated msg) where
  offFirst {id cs ds} h := by
    rw [handleChannelCreated, handleChannelCreated, h.any_id]
    split
    · exact h
    · exact h.append _
  findChannel {id cs ds c} hc hd := by
    have hfind : ∀ es : List (Channel ρ), findChannel id es = some c →
        findChannel id (handleChannelCreated msg es) = some c := by
      intro es h
      rw [handleChannelCreated]
      split
      · exact h
      · rw [findChannel, List.find?_append, ← findChannel, h, Option.some_or]
    exact ⟨c, hfind cs hc, hfind ds hd⟩

theorem local_setDisplayTitle (channelId displayTitle : String) :
    Local (setDisplayTitle channelId displayTitle : List (Channel ρ) → List (Channel ρ)) :=
  local_modifyChannel (fun _ ↦ by rfl) channelId

theorem local_withDisplayTitle (channelId : String) (displayTitle : Option String) :
    Local (withDisplayTitle channelId displayTitle : List (Channel ρ) → List (Channel ρ)) := by
  cases displayTitle with
  | none => exact local_id
  | some title =>
    by_cases h : title = ""
    · have hid : (withDisplayTitle channelId (some title) :
          List (Channel ρ) → List (Channel ρ)) = id := funext fun _ ↦ if_pos h
      exact hid ▸ local_id
    · have hset : (withDisplayTitle channelId (some title) :
          List (Channel ρ) → List (Channel ρ)) = setDisplayTitle channelId title :=
        funext fun _ ↦ if_neg h
      exact hset ▸ local_setDisplayTitle channelId title

theorem Update.local_channels (u : Update ρ) : Local u.channels := by
  cases u with
  | edit e =>
    cases e with
    | moveChannelToGroup channelId groupId => exact local_map fun ch ↦ by split <;> rfl
    | setWelcomeChannel channelId => exact local_map fun ch ↦ by split <;> rfl
    | clearWelcomeChannel => exact local_map fun ch ↦ rfl
    | renameChannel channelId title => exact local_modifyChannel (fun _ ↦ by rfl) channelId
    | renameGroup groupId name => exact local_id
    | reorderGroups groupIds => exact local_id
  | message m =>
    cases m with
    | CHANNEL_STATE channelId status exitCode =>
      exact local_modifyChannel (fun _ ↦ by rfl) channelId
    | CHANNEL_CREATED msg => exact local_handleChannelCreated msg
    | TITLE_CHANGE channelId title displayTitle =>
      exact (local_withDisplayTitle channelId displayTitle).comp
        (local_modifyChannel (fun _ ↦ by rfl) channelId)
    | PROCESS_TITLE channelId title displayTitle =>
      exact (local_withDisplayTitle channelId displayTitle).comp
        (local_modifyChannel (fun _ ↦ by rfl) channelId)

/-! ## Rollbacks -/

theorem fresh_capture {u : Update ρ} {x : Lists ρ} {k : Captured ρ} (h : u.capture x = some k) :
    k.Fresh x := by
  cases u with
  | edit e =>
    cases e with
    | renameChannel channelId title =>
      obtain ⟨oldChannel, hold, rfl⟩ := Option.map_eq_some_iff.mp h
      obtain ⟨rfl, -⟩ := exists_of_findChannel hold
      exact hold
    | _ =>
      cases h
      rfl
  | message m => cases h

theorem offFirst_modifyChannel {f : Channel ρ → Channel ρ} (hf : ∀ c, (f c).id = c.id) (id : String)
    (cs : List (Channel ρ)) : OffFirst id (modifyChannel id f cs) cs := by
  cases hfind : findChannel id cs with
  | none => exact (modifyChannel_of_findChannel_eq_none hfind).symm ▸ .refl cs
  | some c =>
    obtain ⟨hc, before, after, rfl, hbefore⟩ := exists_of_findChannel hfind
    rw [modifyChannel_append hbefore hc]
    exact .first before after (f c) c hbefore ((hf c).trans hc) hc

theorem modifyChannel_eq_of_offFirst {id : String} {cs ds : List (Channel ρ)} {old : Channel ρ}
    (h : OffFirst id cs ds) (hds : findChannel id ds = some old) :
    modifyChannel id (fun _ ↦ old) cs = ds := by
  cases h with
  | refl =>
    obtain ⟨hold, before, after, rfl, hbefore⟩ := exists_of_findChannel hds
    exact modifyChannel_append hbefore hold after
  | first before after a b hbefore ha hb =>
    obtain rfl : b = old := Option.some.inj ((findChannel_append hbefore hb).symm.trans hds)
    exact modifyChannel_append hbefore ha after

theorem off_apply {u : Update ρ} {x : Lists ρ} {k : Captured ρ} (h : u.capture x = some k)
    (y : Lists ρ) : k.Off (u.apply y) y := by
  cases u with
  | edit e =>
    cases e with
    | renameChannel channelId title =>
      obtain ⟨oldChannel, hold, rfl⟩ := Option.map_eq_some_iff.mp h
      obtain ⟨rfl, -⟩ := exists_of_findChannel hold
      exact ⟨offFirst_modifyChannel (fun _ ↦ by rfl) _ y.channels, rfl⟩
    | _ =>
      cases h
      rfl
  | message m => cases h

theorem off_congr {k : Captured ρ} {x y : Lists ρ} (u : Update ρ) (h : k.Off x y) :
    k.Off (u.apply x) (u.apply y) := by
  cases k with
  | channels oldChannels => exact congrArg u.groups h
  | groups oldGroups => exact congrArg u.channels h
  | channel oldChannel => exact ⟨u.local_channels.offFirst h.1, congrArg u.groups h.2⟩

theorem undo_eq {k : Captured ρ} {x y : Lists ρ} (h : k.Off x y) (hy : k.Fresh y) :
    k.undo x = y := by
  obtain ⟨channels, groups⟩ := x
  obtain ⟨channels', groups'⟩ := y
  cases k with
  | channels oldChannels =>
    obtain rfl : groups = groups' := h
    obtain rfl : channels' = oldChannels := hy
    rfl
  | groups oldGroups =>
    obtain rfl : channels = channels' := h
    obtain rfl : groups' = oldGroups := hy
    rfl
  | channel oldChannel =>
    obtain ⟨hoff, rfl⟩ : OffFirst oldChannel.id channels channels' ∧ groups = groups' := h
    exact congrArg (fun channels ↦ (⟨channels, groups⟩ : Lists ρ))
      (modifyChannel_eq_of_offFirst hoff hy)

def rollbacks (ρ : Type) : Rollbacks (Lists ρ) (Update ρ) (Captured ρ) where
  apply := Update.apply
  capture := Update.capture
  undo := Captured.undo
  Fresh := Captured.Fresh
  Off := Captured.Off
  fresh_capture := fresh_capture
  off_apply := off_apply
  off_congr := off_congr
  undo_eq := undo_eq

/-- Just what was kept. -/
def Captured.alone : Captured ρ → Lists ρ
  | .channels oldChannels => ⟨oldChannels, []⟩
  | .groups oldGroups => ⟨[], oldGroups⟩
  | .channel oldChannel => ⟨[oldChannel], []⟩

theorem findChannel_singleton (c : Channel ρ) : findChannel c.id [c] = some c := by
  rw [findChannel_cons, if_pos rfl]

theorem Captured.fresh_alone (k : Captured ρ) : k.Fresh k.alone := by
  cases k with
  | channels oldChannels => rfl
  | groups oldGroups => rfl
  | channel oldChannel => exact findChannel_singleton oldChannel

/-- Whether an update leaves alone what was kept shows on just that. -/
theorem keeps_apply_iff {k : Captured ρ} {u : Update ρ} :
    Keeps (rollbacks ρ) k u.apply ↔ k.Fresh (u.apply k.alone) := by
  refine ⟨fun h ↦ h k.alone k.fresh_alone, fun h x hx ↦ ?_⟩
  cases k with
  | channels oldChannels =>
    obtain rfl : x.channels = oldChannels := hx
    exact h
  | groups oldGroups =>
    obtain rfl : x.groups = oldGroups := hx
    exact h
  | channel oldChannel =>
    obtain ⟨d, hd, hd'⟩ := u.local_channels.findChannel (findChannel_singleton oldChannel) hx
    exact hd'.trans (hd.symm.trans h)

/-! ## The store -/

/-- `history` has the lists and the requests of the calls; `inFlight` are the fetches. -/
structure EditStore (ρ : Type) where
  history : History (Lists ρ) (Update ρ) (Captured ρ)
  token : Option String
  activeHostId : Option String
  pendingStatuses : OrderedMap String PendingStatus
  lastSyncIds : Option (List String)
  fetchGeneration : ℕ
  wsAddedDuringFetch : OrderedMap ℕ (List String)
  inFlight : List ℕ

/-- `ok` is whether a request succeeds; where an `answer` is missing, a fetch has failed. -/
inductive EditEvent (ρ : Type)
  | call (e : ChannelEdit)
  | settle (id : ℕ) (ok : Bool)
  | message (m : ChannelMessage ρ)
  | fetchSettles (generation : ℕ) (answer : Option (Lists ρ))

/-- `renameChannel` does not look at the token. -/
def ChannelEdit.needsToken : ChannelEdit → Bool
  | .renameChannel _ _ => false
  | _ => true

namespace EditStore

variable (s : EditStore ρ)

def lists : Lists ρ := s.history.value

def call (e : ChannelEdit) : EditStore ρ :=
  if e.needsToken ∧ s.token = none then s
  else { s with history := s.history.call (rollbacks ρ) (.edit e) }

def receive (m : ChannelMessage ρ) : EditStore ρ :=
  let next := { s with history := s.history.update (rollbacks ρ) (.message m) }
  match m with
  | .CHANNEL_STATE channelId status exitCode =>
    if s.lists.channels.any fun c ↦ c.id = channelId then next
    else { next with pendingStatuses := s.pendingStatuses.set channelId ⟨status, exitCode⟩ }
  | .CHANNEL_CREATED msg =>
    if s.activeHostId ≠ some msg.hostId then s
    else
      let next := { next with pendingStatuses := s.pendingStatuses.delete msg.channelId }
      if s.lists.channels.any fun c ↦ c.id = msg.channelId then next
      else
        { next with
          wsAddedDuringFetch :=
            s.wsAddedDuringFetch.mapValues fun _ added ↦ added ++ [msg.channelId] }
  | .TITLE_CHANGE _ _ _ => next
  | .PROCESS_TITLE _ _ _ => next

/-- `fetchChannels` for the host that is shown, up to its requests. -/
def startFetch : EditStore ρ :=
  let next :=
    { s with
      fetchGeneration := s.fetchGeneration + 1
      wsAddedDuringFetch := s.wsAddedDuringFetch.set (s.fetchGeneration + 1) []
      inFlight := s.inFlight ++ [s.fetchGeneration + 1] }
  if s.lists.channels = [] then { next with pendingStatuses := .empty, lastSyncIds := none }
  else next

def request (id : ℕ) : Option (Request (Captured ρ)) :=
  s.history.requests.find? fun r ↦ r.id = id

/-- `renameChannel` alone fetches then. -/
def fail (r : Request (Captured ρ)) : EditStore ρ :=
  let next := { s with history := s.history.fail (rollbacks ρ) r }
  match r.captured with
  | .channel _ => if s.activeHostId = none ∨ s.token = none then next else next.startFetch
  | _ => next

def wsChannelsToKeep (generation : ℕ) (data : List (Channel ρ)) : List (Channel ρ) :=
  s.lists.channels.filter fun c ↦
    c.id ∈ (s.wsAddedDuringFetch.get generation).getD [] && c.id ∉ data.map Channel.id

def applyPending (c : Channel ρ) : Channel ρ :=
  match s.pendingStatuses.get c.id with
  | some p => c.withStatus p
  | none => c

def markAbsent (c : Channel ρ) : Channel ρ :=
  if c.status ≠ .dead ∧ (s.lastSyncIds.any fun ids ↦ c.id ∉ ids) = true then
    { c with status := .dead }
  else c

/-- The lists that come of an answer. -/
def merged (generation : ℕ) (answer : Lists ρ) : Lists ρ where
  channels := (answer.channels ++ s.wsChannelsToKeep generation answer.channels).map fun c ↦
    s.markAbsent (s.applyPending c)
  groups := answer.groups

def finishFetch (generation : ℕ) (answer : Option (Lists ρ)) : EditStore ρ :=
  let next :=
    { s with
      wsAddedDuringFetch := s.wsAddedDuringFetch.delete generation
      inFlight := s.inFlight.filter (· ≠ generation) }
  match answer with
  | none => next
  | some answer =>
    if s.fetchGeneration ≠ generation then next
    else
      { next with
        history := { s.history with value := s.merged generation answer }
        pendingStatuses := .empty
        lastSyncIds := none }

def step (s : EditStore ρ) : EditEvent ρ → Option (EditStore ρ)
  | .call e => some (s.call e)
  | .settle id true => (s.request id).map fun _ ↦ { s with history := s.history.succeed id }
  | .settle id false => (s.request id).map s.fail
  | .message m => some (s.receive m)
  | .fetchSettles generation answer =>
    if generation ∈ s.inFlight then some (s.finishFetch generation answer) else none

/-- The lists are what the messages lead to, and the calls that have not failed. -/
def Replayed (base : Lists ρ) : Prop := s.lists = replay (rollbacks ρ) base s.history.log

/-- A request does not fail once what was kept has changed, and a fetch brings what is shown. -/
def Careful : EditEvent ρ → Prop
  | .settle id false => ∀ r ∈ s.request id, Clear (rollbacks ρ) s.history.log r
  | .fetchSettles generation (some answer) =>
    s.fetchGeneration = generation → s.merged generation answer = s.lists
  | _ => True

variable {s} {s' : EditStore ρ} {base : Lists ρ} {e : EditEvent ρ}

theorem history_receive (m : ChannelMessage ρ) : (s.receive m).history = s.history ∨
    (s.receive m).history = s.history.update (rollbacks ρ) (.message m) := by
  cases m with
  | CHANNEL_STATE channelId status exitCode =>
    refine .inr ?_
    dsimp only [receive]
    split <;> rfl
  | CHANNEL_CREATED msg =>
    dsimp only [receive]
    split
    · exact .inl rfl
    · refine .inr ?_
      split <;> rfl
  | TITLE_CHANGE channelId title displayTitle => exact .inr rfl
  | PROCESS_TITLE channelId title displayTitle => exact .inr rfl

theorem history_startFetch : s.startFetch.history = s.history := by
  dsimp only [startFetch]
  split <;> rfl

theorem history_fail (r : Request (Captured ρ)) :
    (s.fail r).history = s.history.fail (rollbacks ρ) r := by
  rw [fail.eq_def]
  split
  · split
    · rfl
    · exact history_startFetch
  · rfl

theorem history_finishFetch {generation : ℕ} {answer : Option (Lists ρ)}
    (hcareful : s.Careful (.fetchSettles generation answer)) :
    (s.finishFetch generation answer).history = s.history := by
  cases answer with
  | none => rfl
  | some answer =>
    dsimp only [finishFetch]
    split
    · rfl
    · rename_i hgeneration
      have hmerged : s.merged generation answer = s.history.value :=
        hcareful (not_not.mp hgeneration)
      rw [hmerged]

theorem sound_step (h : Sound (rollbacks ρ) base s.history) (hcareful : s.Careful e)
    (hstep : s.step e = some s') : Sound (rollbacks ρ) base s'.history := by
  cases e with
  | call e =>
    cases hstep
    rw [call]
    split
    · exact h
    · exact h.call (.edit e)
  | settle id ok =>
    cases ok with
    | true =>
      obtain ⟨r, -, rfl⟩ := Option.map_eq_some_iff.mp hstep
      exact h.succeed id
    | false =>
      obtain ⟨r, hr, rfl⟩ := Option.map_eq_some_iff.mp hstep
      rw [history_fail]
      exact h.fail (List.mem_of_find?_eq_some hr) (hcareful r hr)
  | message m =>
    cases hstep
    rcases history_receive (s := s) m with heq | heq
    · exact heq ▸ h
    · exact heq ▸ h.update (.message m)
  | fetchSettles generation answer =>
    obtain ⟨-, hstep⟩ := Option.ite_none_right_eq_some.mp hstep
    cases hstep
    exact (history_finishFetch hcareful).symm ▸ h

theorem replayed_of_careful {events : List (EditEvent ρ)} (hs : s.history = .start base)
    (hcareful : Along step (fun s e _ ↦ s.Careful e) s events)
    (hrun : run step s events = some s') : s'.Replayed base := by
  have hstep : ∀ (s : EditStore ρ) e s', Sound (rollbacks ρ) base s.history → s.Careful e →
      s.step e = some s' → Sound (rollbacks ρ) base s'.history :=
    fun s e s' h hcareful hstep ↦ sound_step h hcareful hstep
  have hsound : Sound (rollbacks ρ) base s.history := hs ▸ sound_start base
  exact (run_invariant_along _ hstep hsound hcareful hrun).value

/-- A page that shows a host. -/
def shown (lists : Lists ρ) : EditStore ρ where
  history := .start lists
  token := some "token"
  activeHostId := some "host"
  pendingStatuses := .empty
  lastSyncIds := none
  fetchGeneration := 1
  wsAddedDuringFetch := .empty
  inFlight := []

def liveChannel (id : String) : Channel Unit where
  id
  groupId := none
  title := none
  status := .live
  exitCode := none
  isWelcome := false
  dynamicTitle := none
  processTitle := none
  displayTitle := none
  rest := ()

def someGroup (id : String) : ChannelGroup := ⟨id, "host", id, 0, false, ""⟩

def someLists : Lists Unit :=
  ⟨[liveChannel "a", liveChannel "b"], [someGroup "g", someGroup "h"]⟩

/-- The second call fails first, and a message is about another channel. -/
def carefulEvents : List (EditEvent Unit) :=
  [.call (.renameChannel "a" (some "x")), .message (.CHANNEL_STATE "b" .dead none),
    .call (.moveChannelToGroup "b" (some "g")), .settle 1 false, .settle 0 false,
    .fetchSettles 2 (some ⟨[liveChannel "a", { liveChannel "b" with status := .dead }],
      someLists.groups⟩)]

theorem replayed_of_careful_carefulEvents :
    ∃ s, run step (shown someLists) carefulEvents = some s ∧ s.Replayed someLists := by
  have hrun : run step (shown someLists) carefulEvents = some _ := rfl
  refine ⟨_, hrun, replayed_of_careful rfl ?_ hrun⟩
  rw [carefulEvents]
  repeat rw [along_cons_of_eq rfl]
  refine ⟨trivial, trivial, trivial, fun r hr ↦ ?_, fun r hr ↦ ?_, fun _ ↦ rfl, trivial⟩
  · -- Nothing came behind the second call.
    cases hr
    exact ⟨List.forall_mem_nil _, List.forall_mem_nil _⟩
  · cases hr
    refine ⟨List.forall_mem_singleton.mpr ?_, List.forall_mem_nil _⟩
    exact keeps_apply_iff.mpr rfl

/-- A channel dies while it is moved. -/
def diedWhileMoved : List (EditEvent Unit) :=
  [.call (.moveChannelToGroup "a" (some "g")), .message (.CHANNEL_STATE "a" .dead none),
    .settle 0 false]

/-- The groups are reordered while one of them is renamed. -/
def reorderedWhileRenamed : List (EditEvent Unit) :=
  [.call (.renameGroup "g" "x"), .call (.reorderGroups ["h", "g"]), .settle 1 true, .settle 0 false]

theorem not_replayed_diedWhileMoved :
    (∃ s, run step (shown someLists) diedWhileMoved = some s ∧ s.history.requests = [] ∧
        ¬s.Replayed someLists) ∧
      ∃ s, run step (shown someLists) reorderedWhileRenamed = some s ∧ s.history.requests = [] ∧
        ¬s.Replayed someLists := by
  refine ⟨⟨_, rfl, rfl, fun h ↦ ?_⟩, ⟨_, rfl, rfl, fun h ↦ ?_⟩⟩
  · have hstatus := congrArg (fun x ↦ x.channels.map Channel.status) h
    revert hstatus
    decide
  · have hids := congrArg (fun x ↦ x.groups.map ChannelGroup.id) h
    revert hids
    decide

end EditStore

end Lasterm.Web.ChannelEdits
