import Lasterm.Library.OrderedMap
import Lasterm.Web.SettingsCascade

/-!
# Where the edits of the settings panel are sent

`updateSetting` of `stores/settings.ts` shows an edit at once and saves it half a second later. The
timers are kept by scope, section and key, without the host or the channel that is edited, and a
timer that fires sends what it has to the host or the channel that is current by then.

A save remembers the target that was current when it was made (`Save.target`); the code does not.
What has become of the saves is written down as they are given up, sent or dropped, and
`isDelivered_iff_isGood` reads from it whether every edit has reached its target. A run delivers
every edit (`delivered_iff`) if and only if no edit of another target or another key takes the timer
of one, every timer fires while its target is current, with a value that the request can carry, and
no save is answered with an HTTP error.

The key `__proto__`, under which the source makes no property, is left out, and so are keys with it
as a part.
-/

namespace Lasterm.Web.Settings

open Config ConfigValue Runs Shell

/-! ## Saves -/

inductive Target
  | global
  | host (id : Text)
  | channel (id : Text)

/-- What the callback of a timer has closed over, with the number of the call, and with the target
that was current then. -/
structure Save where
  number : ℕ
  scope : Scope
  sec : Section
  key : Text
  value : ConfigValue
  target : Option Target

inductive Endpoint
  | configGlobal
  | configAppearance
  | configElevation
  | configUi
  | hostProfile (id : Text)
  | channelProfile (id : Text)

def Endpoint.target : Endpoint → Target
  | hostProfile id => .host id
  | channelProfile id => .channel id
  | _ => .global

structure SaveRequest where
  endpoint : Endpoint
  body : ConfigValue

/-- What the callback does: it sends a request, or goes on without one, or returns. -/
inductive Sending
  | request (r : SaveRequest)
  | skipped
  | returned

def object (key : Text) (value : ConfigValue) : ConfigValue :=
  .obj false (Function.update noProps key value)

/-- The parts of a key behind the first one. -/
def uiKey (key : Text) : Text := ".".toList.intercalate (parts key).tail

def uiSection (key : Text) : Text := (parts key).headD []

def globalSending (s : Save) : Sending :=
  match s.sec with
  | .terminal => .request ⟨.configGlobal, object "terminal".toList (object s.key s.value)⟩
  | .appearance =>
    .request ⟨.configAppearance, .obj false (setNestedValue noProps (parts s.key) s.value)⟩
  | .elevation => .request ⟨.configElevation, object s.key s.value⟩
  | _ =>
    if uiKey s.key = [] then .skipped
    else .request ⟨.configUi, object (uiSection s.key) (object (uiKey s.key) s.value)⟩

/-- An id that is the empty text counts as none. -/
def given (id : Option Text) : Option Text := id.filter (· ≠ [])

def sending (hostId channelId : Option Text) (s : Save) : Sending :=
  match s.scope, given hostId, given channelId with
  | .global, _, _ => globalSending s
  | .host, some id, _ =>
    .request ⟨.hostProfile id, object "profile".toList (object s.key s.value)⟩
  | .channel, _, some id =>
    .request ⟨.channelProfile id, object "profile".toList (object s.key s.value)⟩
  | _, _, _ => .returned

def Scope.text : Scope → Text
  | global => "global".toList
  | host => "host".toList
  | channel => "channel".toList

def Section.text : Section → Text
  | terminal => "terminal".toList
  | ui => "ui".toList
  | appearance => "appearance".toList
  | elevation => "elevation".toList
  | other name => name

def debounceKey (scope : Scope) (sec : Section) (key : Text) : Text :=
  scope.text ++ ':' :: (sec.text ++ ':' :: key)

def Save.debounceKey (save : Save) : Text := Settings.debounceKey save.scope save.sec save.key

/-! ## The store -/

structure SettingsStore where
  token : Option Text
  currentHostId : Option Text
  currentChannelId : Option Text
  cascade : Option CascadeResponse
  pendingUpdates : OrderedMap Text Save
  dirty : List Text

inductive SaveOutcome
  | ok
  | httpError (status : ℕ)
  | networkFailure

namespace SettingsStore

variable (st : SettingsStore)

/-- `loadCascade` up to its request. -/
def loadCascade (hostId channelId : Option Text) : SettingsStore :=
  if st.token = none then st
  else { st with currentHostId := hostId, currentChannelId := channelId }

/-- The target of an edit that is made now. -/
def target : Scope → Option Target
  | .global => some .global
  | .host => (given st.currentHostId).map .host
  | .channel => (given st.currentChannelId).map .channel

def updateSetting (save : Save) : SettingsStore :=
  { st with
    cascade := applyOptimistic st.cascade save.sec ⟨save.scope, save.key, save.value⟩
    pendingUpdates := st.pendingUpdates.set (save.debounceKey) save }

/-- What a callback does before it waits for the answer. -/
def fire (save : Save) : Sending :=
  if st.token = none then .returned else sending st.currentHostId st.currentChannelId save

def clearDirty (key : Text) : SettingsStore := { st with dirty := st.dirty.filter (· ≠ key) }

/-- What a callback does with the answer. `fetch` throws where there is none, and nowhere else. -/
def settle (key : Text) : SaveOutcome → SettingsStore
  | .ok | .httpError _ => st.clearDirty key
  | .networkFailure =>
    { st with dirty := if key ∈ st.dirty then st.dirty else st.dirty ++ [key] }

end SettingsStore

/-- An answer to a save, and whether its key is marked dirty behind it. -/
structure SaveAnswer where
  save : Save
  outcome : SaveOutcome
  dirty : Bool

/-- The store with the saves that wait for their answers. Behind these is the record of all saves
that were made, and of those that a later one has taken the timer of, that were sent, that were
dropped, and that were answered. -/
structure SettingsPage where
  store : SettingsStore
  saving : List Save
  made : List Save
  replaced : List (Save × Save)
  sent : List (Save × SaveRequest)
  dropped : List Save
  answers : List SaveAnswer

inductive SettingsEvent
  | loadCascade (hostId channelId : Option Text)
  | cascadeLoaded (cascade : CascadeResponse)
  | updateSetting (scope : Scope) (sec : Section) (key : Text) (value : ConfigValue)
  | resetSetting (scope : Scope) (sec : Section) (key : Text)
  | fires (debounceKey : Text)
  /-- The save at the place gets its answer. -/
  | answered (place : ℕ) (outcome : SaveOutcome)

namespace SettingsPage

variable (p : SettingsPage)

def updateSetting (scope : Scope) (sec : Section) (key : Text) (value : ConfigValue) :
    SettingsPage :=
  let save : Save := ⟨p.made.length, scope, sec, key, value, p.store.target scope⟩
  let existing := p.store.pendingUpdates.get (debounceKey scope sec key)
  { p with
    store := p.store.updateSetting save
    made := p.made ++ [save]
    replaced := p.replaced ++ (existing.map fun old ↦ (old, save)).toList }

/-- The timer of the save fires. -/
def fire (save : Save) : SettingsPage :=
  let key := save.debounceKey
  let store := { p.store with pendingUpdates := p.store.pendingUpdates.delete key }
  match store.fire save with
  | .request r =>
    { p with store, saving := p.saving ++ [save], sent := p.sent ++ [(save, r)] }
  | .skipped => { p with store := store.clearDirty key, dropped := p.dropped ++ [save] }
  | .returned => { p with store, dropped := p.dropped ++ [save] }

def settle (place : ℕ) (save : Save) (outcome : SaveOutcome) : SettingsPage :=
  let key := save.debounceKey
  let store := p.store.settle key outcome
  { p with
    store, saving := p.saving.eraseIdx place
    answers := p.answers ++ [⟨save, outcome, key ∈ store.dirty⟩] }

def step : SettingsEvent → Option SettingsPage
  | .loadCascade hostId channelId =>
    some { p with store := p.store.loadCascade hostId channelId }
  | .cascadeLoaded cascade => some { p with store := { p.store with cascade := some cascade } }
  | .updateSetting scope sec key value => some (p.updateSetting scope sec key value)
  | .resetSetting scope sec key => some (p.updateSetting scope sec key .null)
  | .fires key => (p.store.pendingUpdates.get key).map p.fire
  | .answered place outcome => p.saving[place]?.map fun save ↦ p.settle place save outcome

/-! ## What is delivered -/

/-- Where the body of a request has the value. -/
def bodyPath (save : Save) : List Text :=
  match save.scope, save.sec with
  | .global, .terminal => ["terminal".toList, save.key]
  | .global, .appearance => parts save.key
  | .global, .elevation => [save.key]
  | .global, _ => [uiSection save.key, uiKey save.key]
  | _, _ => ["profile".toList, save.key]

/-- The request has the value in it. What is `undefined` is in no body. -/
def Carries (r : SaveRequest) (save : Save) : Prop :=
  r.body.getIn (bodyPath save) = save.value ∧ save.value ≠ .undefined

/-- The later save is of the same setting. -/
def SameSetting (save later : Save) : Prop :=
  later.target = save.target ∧ later.sec = save.sec ∧ later.key = save.key

def waiting : List Save := p.store.pendingUpdates.entries.map Prod.snd

/-- Every edit that was made for a target waits for its timer, or was given up for a later edit of
the same setting there, or was sent to the target once; nothing else was sent; and after each answer
the key was dirty if and only if the hub had not accepted the save. -/
structure IsDelivered : Prop where
  saves : ∀ save ∈ p.made, ∀ target, save.target = some target →
    save ∈ p.waiting ∨ (∃ later, (save, later) ∈ p.replaced ∧ SameSetting save later) ∨
      ∃ before r after, p.sent = before ++ (save, r) :: after ∧
        (∀ other ∈ before ++ after, other.1.number ≠ save.number) ∧
        r.endpoint.target = target ∧ Carries r save
  strays : ∀ s ∈ p.sent, s.1 ∈ p.made ∧ s.1.target ≠ none
  answers : ∀ a ∈ p.answers, a.dirty = true ↔ a.outcome ≠ .ok

/-- The same of each record by itself. -/
structure IsGood : Prop where
  replaced : ∀ pair ∈ p.replaced, pair.1.target ≠ none → SameSetting pair.1 pair.2
  sent : ∀ s ∈ p.sent, s.1.target = some s.2.endpoint.target ∧ Carries s.2 s.1
  dropped : ∀ save ∈ p.dropped, save.target = none
  answers : ∀ a ∈ p.answers, a.dirty = true ↔ a.outcome ≠ .ok

/-- A save that waits under its key, and an edit of the settings for all is for all. -/
def HasKey (key : Text) (save : Save) : Prop :=
  key = save.debounceKey ∧ (save.scope = .global → save.target = some .global)

/-- Every save that was made is in one place. -/
structure Conserves : Prop where
  perm : p.made.Perm
    (p.waiting ++ (p.replaced.map Prod.fst ++ (p.sent.map Prod.fst ++ p.dropped)))
  numbers : p.made.map Save.number = List.range p.made.length
  keys : ∀ key save, p.store.pendingUpdates.get key = some save → HasKey key save

variable {p}

theorem Conserves.nodup (h : p.Conserves) : p.made.Nodup :=
  List.Nodup.of_map Save.number (h.numbers ▸ List.nodup_range)

theorem Conserves.number_inj (h : p.Conserves) {save save' : Save} (hmem : save ∈ p.made)
    (hmem' : save' ∈ p.made) (hnumber : save.number = save'.number) : save = save' :=
  List.inj_on_of_nodup_map (h.numbers ▸ List.nodup_range) hmem hmem' hnumber

/-- No save is in two places. -/
theorem Conserves.disjoint (h : p.Conserves) :
    (∀ save ∈ p.waiting, (∀ pair ∈ p.replaced, pair.1 ≠ save) ∧ (∀ s ∈ p.sent, s.1 ≠ save) ∧
      save ∉ p.dropped) ∧
    (∀ pair ∈ p.replaced, (∀ s ∈ p.sent, s.1 ≠ pair.1) ∧ pair.1 ∉ p.dropped) ∧
    (∀ s ∈ p.sent, s.1 ∉ p.dropped) ∧ (p.replaced.map Prod.fst).Nodup ∧
      (p.sent.map Prod.fst).Nodup := by
  have hnodup := h.perm.nodup_iff.mp h.nodup
  obtain ⟨-, hnodup, hwaiting⟩ := List.nodup_append.mp hnodup
  obtain ⟨hreplaced, hnodup, hsplit⟩ := List.nodup_append.mp hnodup
  obtain ⟨hsent, -, hdropped⟩ := List.nodup_append.mp hnodup
  refine ⟨fun save hsave ↦ ⟨fun pair hpair heq ↦ ?_, fun s hs heq ↦ ?_, fun hdrop ↦ ?_⟩,
    fun pair hpair ↦ ⟨fun s hs heq ↦ ?_, fun hdrop ↦ ?_⟩, fun s hs hdrop ↦ ?_, hreplaced, hsent⟩
  · exact hwaiting save hsave pair.1
      (List.mem_append_left _ (List.mem_map_of_mem hpair)) heq.symm
  · exact hwaiting save hsave s.1 (List.mem_append_right _
      (List.mem_append_left _ (List.mem_map_of_mem hs))) heq.symm
  · exact hwaiting save hsave save (List.mem_append_right _ (List.mem_append_right _ hdrop)) rfl
  · exact hsplit pair.1 (List.mem_map_of_mem hpair) s.1
      (List.mem_append_left _ (List.mem_map_of_mem hs)) heq.symm
  · exact hsplit pair.1 (List.mem_map_of_mem hpair) pair.1 (List.mem_append_right _ hdrop) rfl
  · exact hdropped s.1 (List.mem_map_of_mem hs) s.1 hdrop rfl

theorem Conserves.mem_made (h : p.Conserves) {save : Save} : save ∈ p.made ↔
    save ∈ p.waiting ∨ (∃ pair ∈ p.replaced, pair.1 = save) ∨ (∃ s ∈ p.sent, s.1 = save) ∨
      save ∈ p.dropped := by
  rw [h.perm.mem_iff, List.mem_append, List.mem_append, List.mem_append, List.mem_map,
    List.mem_map]

theorem IsDelivered.isGood (hd : p.IsDelivered) (h : p.Conserves) : p.IsGood := by
  obtain ⟨hwaiting, hreplaced, hsent, hpairs, -⟩ := h.disjoint
  refine ⟨fun pair hpair htarget ↦ ?_, fun s hs ↦ ?_, fun save hdrop ↦ ?_, hd.answers⟩
  · obtain ⟨target, htarget⟩ := Option.ne_none_iff_exists'.mp htarget
    have hmade := h.mem_made.mpr (.inr (.inl ⟨pair, hpair, rfl⟩))
    rcases hd.saves pair.1 hmade target htarget with hwait | ⟨later, hlater, hsame⟩ |
      ⟨before, r, after, hsplit, -⟩
    · exact absurd rfl ((hwaiting _ hwait).1 pair hpair)
    · have hpair' : (pair.1, later) = pair := List.inj_on_of_nodup_map hpairs hlater hpair rfl
      exact hpair' ▸ hsame
    · have hmem : (pair.1, r) ∈ p.sent :=
        hsplit ▸ List.mem_append_right _ List.mem_cons_self
      exact absurd rfl ((hreplaced pair hpair).1 _ hmem)
  · obtain ⟨hmade, htarget⟩ := hd.strays s hs
    obtain ⟨target, htarget⟩ := Option.ne_none_iff_exists'.mp htarget
    rcases hd.saves s.1 hmade target htarget with hwait | ⟨later, hlater, -⟩ |
      ⟨before, r, after, hsplit, hother, hr, hcarries⟩
    · exact absurd rfl ((hwaiting _ hwait).2.1 s hs)
    · exact absurd rfl ((hreplaced _ hlater).1 s hs)
    · have hs' := hs
      rw [hsplit, List.mem_append, List.mem_cons] at hs'
      rcases hs' with hs' | hs' | hs'
      · exact absurd rfl (hother s (List.mem_append_left _ hs'))
      · have hrequest : s.2 = r := congrArg Prod.snd hs'
        exact hrequest.symm ▸ ⟨hr ▸ htarget, hcarries⟩
      · exact absurd rfl (hother s (List.mem_append_right _ hs'))
  · by_contra htarget
    obtain ⟨target, htarget⟩ := Option.ne_none_iff_exists'.mp htarget
    have hmade := h.mem_made.mpr (.inr (.inr (.inr hdrop)))
    rcases hd.saves save hmade target htarget with hwait | ⟨later, hlater, -⟩ |
      ⟨before, r, after, hsplit, -⟩
    · exact (hwaiting _ hwait).2.2 hdrop
    · exact (hreplaced _ hlater).2 hdrop
    · have hmem : (save, r) ∈ p.sent := hsplit ▸ List.mem_append_right _ List.mem_cons_self
      exact hsent _ hmem hdrop

theorem IsGood.isDelivered (hg : p.IsGood) (h : p.Conserves) : p.IsDelivered := by
  refine ⟨fun save hmade target htarget ↦ ?_, fun s hs ↦ ?_, hg.answers⟩
  · have hsome : save.target ≠ none := fun hnone ↦ by cases hnone.symm.trans htarget
    rcases h.mem_made.mp hmade with hwait | ⟨pair, hpair, rfl⟩ | ⟨s, hs, rfl⟩ | hdrop
    · exact .inl hwait
    · exact .inr (.inl ⟨pair.2, hpair, hg.replaced pair hpair hsome⟩)
    · obtain ⟨before, after, hsplit⟩ := List.append_of_mem hs
      obtain ⟨hr, hcarries⟩ := hg.sent s hs
      refine .inr (.inr ⟨before, s.2, after, hsplit, fun other hother hnumber ↦ ?_,
        Option.some.inj (hr.symm.trans htarget), hcarries⟩)
      have hmem : other ∈ p.sent := by
        rw [hsplit, List.mem_append, List.mem_cons]
        exact (List.mem_append.mp hother).imp_right .inr
      have hsave := h.number_inj (h.mem_made.mpr (.inr (.inr (.inl ⟨other, hmem, rfl⟩)))) hmade
        hnumber
      -- The save would stand twice among those that were sent.
      have hnodup := h.disjoint.2.2.2.2
      rw [hsplit, List.map_append, List.map_cons, List.nodup_middle, List.nodup_cons,
        ← List.map_append] at hnodup
      exact hnodup.1 (hsave ▸ List.mem_map_of_mem hother)
    · exact absurd (hg.dropped save hdrop) hsome
  · refine ⟨h.mem_made.mpr (.inr (.inr (.inl ⟨s, hs, rfl⟩))), ?_⟩
    rw [(hg.sent s hs).1]
    exact Option.some_ne_none _

theorem isDelivered_iff_isGood (h : p.Conserves) : p.IsDelivered ↔ p.IsGood :=
  ⟨fun hd ↦ hd.isGood h, fun hg ↦ hg.isDelivered h⟩

/-! ## What a step does -/

/-- The body of a request can say the value: `undefined` is in no body, `appearance` has no way to
say `null`, and a key of another section of the hub has two parts. -/
def Sendable (save : Save) : Prop :=
  save.value ≠ .undefined ∧ (save.scope = .global →
    match save.sec with
    | .terminal | .elevation => True
    | .appearance => save.value ≠ .null
    | _ => uiKey save.key ≠ [])

/-- **When a step delivers what it has to**, by what it finds. -/
def Delivers (p : SettingsPage) : SettingsEvent → Prop
  | .updateSetting scope sec key _ | .resetSetting scope sec key =>
    ∀ old, p.store.pendingUpdates.get (debounceKey scope sec key) = some old → old.target ≠ none →
      p.store.target scope = old.target ∧ sec = old.sec ∧ key = old.key
  | .fires key =>
    ∀ save, p.store.pendingUpdates.get key = some save →
      (∀ target, save.target = some target →
        p.store.token ≠ none ∧ p.store.target save.scope = some target ∧ Sendable save) ∧
      (save.target = none → p.store.token = none ∨ p.store.target save.scope = none)
  | .answered _ outcome => ∀ status, outcome ≠ .httpError status
  | _ => True

theorem getIn_object (key : Text) (value : ConfigValue) (path : List Text) :
    (object key value).getIn (key :: path) = value.getIn path := by
  have hprops : (object key value).props key = value := Function.update_self ..
  rw [getIn, List.foldl_cons, hprops, getIn]

theorem nonNull_eq_iff {value : ConfigValue} : value.nonNull = value ↔ value ≠ .null := by
  cases value with
  | null => exact iff_of_false nofun (fun h ↦ h rfl)
  | _ => exact iff_of_true rfl nofun

section Fire

variable {st : SettingsStore} {save : Save} {r : SaveRequest}

theorem carries_iff_of_eq (h : r.body.getIn (bodyPath save) = save.value) (P : Prop) (hP : P) :
    Carries r save ↔ save.value ≠ .undefined ∧ P := by
  rw [Carries, and_iff_right h, and_iff_left hP]

theorem globalSending_request (hscope : save.scope = .global)
    (h : globalSending save = .request r) :
    r.endpoint.target = .global ∧ (Carries r save ↔ Sendable save) := by
  obtain ⟨number, scope, sec, key, value, target⟩ := save
  obtain rfl : scope = .global := hscope
  unfold globalSending at h
  have hui : ∀ sec', bodyPath ⟨number, .global, sec', key, value, target⟩ =
        [uiSection key, uiKey key] →
      (if uiKey key = [] then Sending.skipped
        else .request ⟨.configUi, object (uiSection key) (object (uiKey key) value)⟩) = .request r →
      r.endpoint.target = .global ∧ uiKey key ≠ [] ∧
        r.body.getIn (bodyPath ⟨number, .global, sec', key, value, target⟩) = value := by
    intro sec' hpath h
    split at h
    · cases h
    · rename_i hkey
      cases h
      rw [hpath, getIn_object, getIn_object]
      exact ⟨rfl, hkey, rfl⟩
  cases sec with
  | terminal =>
    cases h
    refine ⟨rfl, carries_iff_of_eq ?_ _ fun _ ↦ trivial⟩
    exact (getIn_object ..).trans (getIn_object ..)
  | elevation =>
    cases h
    exact ⟨rfl, carries_iff_of_eq (getIn_object ..) _ fun _ ↦ trivial⟩
  | appearance =>
    cases h
    refine ⟨rfl, ?_⟩
    have hread : (obj false (setNestedValue noProps (parts key) value)).getIn (parts key) =
        value.nonNull := by
      rw [obj_setNestedValue, getIn_setIn]
    unfold Carries
    refine Iff.trans (and_congr_left' ((iff_of_eq (congrArg (· = value) hread)).trans
      nonNull_eq_iff)) ?_
    rw [and_comm]
    exact and_congr_right' ⟨fun hvalue _ ↦ hvalue, fun hvalue ↦ hvalue rfl⟩
  | ui =>
    obtain ⟨htarget, hkey, hread⟩ := hui .ui rfl h
    exact ⟨htarget, carries_iff_of_eq hread _ fun _ ↦ hkey⟩
  | other name =>
    obtain ⟨htarget, hkey, hread⟩ := hui (.other name) rfl h
    exact ⟨htarget, carries_iff_of_eq hread _ fun _ ↦ hkey⟩

theorem sending_global (hscope : save.scope = .global) (hostId channelId : Option Text) :
    sending hostId channelId save = globalSending save := by
  unfold sending
  rw [hscope]

theorem globalSending_ne_returned : globalSending save ≠ .returned := by
  intro h
  unfold globalSending at h
  split at h
  · cases h
  · cases h
  · cases h
  · split at h
    · cases h
    · cases h

theorem globalSending_skipped (hscope : save.scope = .global) (h : globalSending save = .skipped) :
    ¬Sendable save := by
  obtain ⟨number, scope, sec, key, value, target⟩ := save
  rintro ⟨-, hsendable⟩
  have hsection := hsendable hscope
  unfold globalSending at h
  cases sec with
  | terminal => cases h
  | appearance => cases h
  | elevation => cases h
  | ui =>
    rw [if_neg hsection] at h
    cases h
  | other name =>
    rw [if_neg hsection] at h
    cases h

/-- A callback of a host or a channel: what it sends, and where. -/
theorem sending_profile (hscope : save.scope ≠ .global) :
    (∃ r, sending st.currentHostId st.currentChannelId save = .request r ∧
      st.target save.scope = some r.endpoint.target ∧ (Carries r save ↔ Sendable save)) ∨
    sending st.currentHostId st.currentChannelId save = .returned ∧
      st.target save.scope = none := by
  obtain ⟨number, scope, sec, key, value, target⟩ := save
  have hcarries : ∀ endpoint, scope ≠ .global →
      (Carries ⟨endpoint, object "profile".toList (object key value)⟩
        ⟨number, scope, sec, key, value, target⟩ ↔
          Sendable ⟨number, scope, sec, key, value, target⟩) := by
    intro endpoint hne
    refine carries_iff_of_eq ?_ _ fun hglobal ↦ absurd hglobal hne
    cases scope with
    | global => exact absurd rfl hne
    | host => exact (getIn_object ..).trans (getIn_object ..)
    | channel => exact (getIn_object ..).trans (getIn_object ..)
  unfold sending SettingsStore.target
  cases scope with
  | global => exact absurd rfl hscope
  | host =>
    cases given st.currentHostId with
    | none => exact .inr ⟨rfl, rfl⟩
    | some id => exact .inl ⟨_, rfl, rfl, hcarries (.hostProfile id) hscope⟩
  | channel =>
    cases given st.currentHostId <;> cases given st.currentChannelId with
    | none => exact .inr ⟨rfl, rfl⟩
    | some id => exact .inl ⟨_, rfl, rfl, hcarries (.channelProfile id) hscope⟩

/-- **What a timer that fires does.** -/
theorem fire_cases (st : SettingsStore) (save : Save) :
    (∃ r, st.fire save = .request r ∧ st.token ≠ none ∧
      st.target save.scope = some r.endpoint.target ∧ (Carries r save ↔ Sendable save)) ∨
    (st.fire save = .skipped ∧ save.scope = .global ∧ ¬Sendable save) ∨
    st.fire save = .returned ∧ (st.token = none ∨ st.target save.scope = none) := by
  unfold SettingsStore.fire
  by_cases htoken : st.token = none
  · rw [if_pos htoken]
    exact .inr (.inr ⟨rfl, .inl htoken⟩)
  · rw [if_neg htoken]
    by_cases hscope : save.scope = .global
    · rw [sending_global hscope]
      have htarget : st.target save.scope = some .global := by
        rw [hscope]
        rfl
      cases hsends : globalSending save with
      | request r =>
        obtain ⟨hr, hcarries⟩ := globalSending_request hscope hsends
        exact .inl ⟨r, rfl, htoken, hr.symm ▸ htarget, hcarries⟩
      | skipped => exact .inr (.inl ⟨rfl, hscope, globalSending_skipped hscope hsends⟩)
      | returned => exact absurd hsends globalSending_ne_returned
    · have hprofile : (∃ r, sending st.currentHostId st.currentChannelId save = .request r ∧
          st.target save.scope = some r.endpoint.target ∧ (Carries r save ↔ Sendable save)) ∨
          sending st.currentHostId st.currentChannelId save = .returned ∧
            st.target save.scope = none := sending_profile hscope
      rcases hprofile with ⟨r, hsends, hr⟩ | ⟨hreturned, hnone⟩
      · exact .inl ⟨r, hsends, htoken, hr⟩
      · exact .inr (.inr ⟨hreturned, .inr hnone⟩)

end Fire

/-! ### Every save is kept track of -/

private theorem perm_move {made waiting front back : List Save} {save : Save}
    (h : made.Perm (save :: waiting ++ (front ++ back))) :
    made.Perm (waiting ++ (front ++ save :: back)) :=
  h.trans (List.perm_middle.symm.trans (List.perm_middle.symm.append_left waiting))

theorem Conserves.updateSetting (h : p.Conserves) (scope : Scope) (sec : Section) (key : Text)
    (value : ConfigValue) : (p.updateSetting scope sec key value).Conserves := by
  have hset := p.store.pendingUpdates.perm_entries_set (debounceKey scope sec key)
    ⟨p.made.length, scope, sec, key, value, p.store.target scope⟩
  refine ⟨?_, ?_, ?_⟩
  · unfold SettingsPage.updateSetting waiting SettingsStore.updateSetting
    dsimp only
    refine .trans ?_ ((hset.map Prod.snd).symm.append_right _)
    refine (List.perm_append_singleton _ _).trans (.cons _ ?_)
    have hperm := h.perm
    unfold waiting at hperm
    cases hget : p.store.pendingUpdates.get (debounceKey scope sec key) with
    | none =>
      rw [OrderedMap.entries_delete_of_get_eq_none hget, Option.map_none, Option.toList_none,
        List.append_nil]
      exact hperm
    | some old =>
      have hold := (OrderedMap.perm_entries_delete hget).map Prod.snd
      rw [Option.map_some, Option.toList_some, List.map_append, List.append_assoc]
      exact perm_move (hperm.trans (hold.append_right _))
  · change (p.made ++ [_]).map Save.number = List.range (p.made ++ [_]).length
    rw [List.map_append, h.numbers, List.length_append, List.length_singleton, List.range_succ]
    rfl
  · refine OrderedMap.forall_get_set (Q := HasKey) h.keys ⟨rfl, fun hscope ↦ ?_⟩
    have hglobal : scope = .global := hscope
    rw [hglobal]
    rfl

theorem Conserves.fire (h : p.Conserves) {key : Text} {save : Save}
    (hget : p.store.pendingUpdates.get key = some save) : (p.fire save).Conserves := by
  obtain ⟨rfl, -⟩ := h.keys key save hget
  have hdelete := (OrderedMap.perm_entries_delete hget).map Prod.snd
  have hperm := h.perm.trans (hdelete.append_right _)
  have hkeys := OrderedMap.forall_get_delete (Q := HasKey)
    (k := save.debounceKey) h.keys
  rw [List.map_cons] at hperm
  unfold SettingsPage.fire
  dsimp only
  have hdropped : p.made.Perm ((p.store.pendingUpdates.delete save.debounceKey).entries.map
      Prod.snd ++ (p.replaced.map Prod.fst ++ (p.sent.map Prod.fst ++ (p.dropped ++ [save])))) := by
    rw [← List.append_assoc _ _ [save], ← List.append_assoc _ _ [save]]
    refine perm_move ?_
    rwa [List.append_nil]
  split
  · refine ⟨?_, h.numbers, hkeys⟩
    rw [List.map_append, List.append_assoc (p.sent.map _), ← List.append_assoc (p.replaced.map _)]
    refine @perm_move _ _ _ p.dropped _ ?_
    rwa [List.append_assoc (p.replaced.map _)]
  · exact ⟨hdropped, h.numbers, hkeys⟩
  · exact ⟨hdropped, h.numbers, hkeys⟩

theorem Conserves.step (h : p.Conserves) {e : SettingsEvent} :
    Ensures Conserves (p.step e) := by
  cases e with
  | loadCascade hostId channelId =>
    refine .of_some ?_
    have hpending : (p.store.loadCascade hostId channelId).pendingUpdates =
        p.store.pendingUpdates := by
      unfold SettingsStore.loadCascade
      split <;> rfl
    refine ⟨?_, h.numbers, ?_⟩
    · unfold waiting
      dsimp only
      rw [hpending]
      exact h.perm
    · dsimp only
      rw [hpending]
      exact h.keys
  | cascadeLoaded cascade => exact .of_some ⟨h.perm, h.numbers, h.keys⟩
  | updateSetting scope sec key value => exact .of_some (h.updateSetting scope sec key value)
  | resetSetting scope sec key => exact .of_some (h.updateSetting scope sec key .null)
  | fires key =>
    exact .map fun save hget ↦ h.fire hget
  | answered place outcome =>
    refine .map fun save _ ↦ ?_
    have hpending : ∀ key, (p.store.settle key outcome).pendingUpdates =
        p.store.pendingUpdates := by
      intro key
      cases outcome <;> rfl
    refine ⟨?_, h.numbers, ?_⟩
    · unfold waiting SettingsPage.settle
      dsimp only
      rw [hpending]
      exact h.perm
    · unfold SettingsPage.settle
      dsimp only
      rw [hpending]
      exact h.keys

/-! ### What is good about a step -/

theorem isGood_updateSetting (scope : Scope) (sec : Section) (key : Text) (value : ConfigValue) :
    (p.updateSetting scope sec key value).IsGood ↔
      p.IsGood ∧ Delivers p (.updateSetting scope sec key value) := by
  unfold SettingsPage.updateSetting Delivers
  constructor
  · intro h
    refine ⟨⟨fun pair hpair ↦ h.replaced pair (List.mem_append_left _ hpair), h.sent, h.dropped,
      h.answers⟩, fun old hold htarget ↦ ?_⟩
    have hpair := h.replaced (old, _) (List.mem_append_right _ (by
      rw [hold]
      exact List.mem_singleton_self _)) htarget
    exact hpair
  · rintro ⟨h, hold⟩
    refine ⟨fun pair hpair htarget ↦ ?_, h.sent, h.dropped, h.answers⟩
    rcases List.mem_append.mp hpair with hpair | hpair
    · exact h.replaced pair hpair htarget
    · rw [Option.mem_toList, Option.map_eq_some_iff] at hpair
      obtain ⟨old, hget, rfl⟩ := hpair
      exact hold old hget htarget

theorem target_delete (st : SettingsStore) (key : Text) (scope : Scope) :
    { st with pendingUpdates := st.pendingUpdates.delete key : SettingsStore }.target scope =
      st.target scope := by
  cases scope <;> rfl

/-- A save that is dropped is a good one if it was made for no target. -/
theorem isGood_dropped {save : Save} {p' : SettingsPage} (hreplaced : p'.replaced = p.replaced)
    (hsent : p'.sent = p.sent) (hdropped : p'.dropped = p.dropped ++ [save])
    (hanswers : p'.answers = p.answers) : p'.IsGood ↔ p.IsGood ∧ save.target = none := by
  constructor
  · rintro ⟨h₁, h₂, h₃, h₄⟩
    rw [hreplaced] at h₁
    rw [hsent] at h₂
    rw [hdropped, List.forall_mem_append, List.forall_mem_singleton] at h₃
    rw [hanswers] at h₄
    exact ⟨⟨h₁, h₂, h₃.1, h₄⟩, h₃.2⟩
  · rintro ⟨⟨h₁, h₂, h₃, h₄⟩, hsave⟩
    refine ⟨hreplaced ▸ h₁, hsent ▸ h₂, ?_, hanswers ▸ h₄⟩
    rw [hdropped, List.forall_mem_append, List.forall_mem_singleton]
    exact ⟨h₃, hsave⟩

theorem isGood_fire {save : Save} (hglobal : save.scope = .global → save.target = some .global) :
    (p.fire save).IsGood ↔ p.IsGood ∧
      (∀ target, save.target = some target →
        p.store.token ≠ none ∧ p.store.target save.scope = some target ∧ Sendable save) ∧
      (save.target = none → p.store.token = none ∨ p.store.target save.scope = none) := by
  unfold SettingsPage.fire
  dsimp only
  rcases fire_cases
    { p.store with pendingUpdates := p.store.pendingUpdates.delete save.debounceKey } save with
    ⟨r, hfire, htoken, htarget, hcarries⟩ | ⟨hfire, hscope, hsend⟩ | ⟨hfire, hnone⟩
  · rw [hfire]
    rw [target_delete] at htarget
    constructor
    · intro h
      obtain ⟨hsave, hbody⟩ :=
        h.sent (save, r) (List.mem_append_right _ (List.mem_singleton_self _))
      refine ⟨⟨h.replaced, fun s hs ↦ h.sent s (List.mem_append_left _ hs), h.dropped, h.answers⟩,
        fun target ht ↦ ?_, fun hnone ↦ ?_⟩
      · cases hsave.symm.trans ht
        exact ⟨htoken, htarget, hcarries.mp hbody⟩
      · cases hsave.symm.trans hnone
    · rintro ⟨h, hsome, hnone⟩
      refine ⟨h.replaced, fun s hs ↦ ?_, h.dropped, h.answers⟩
      rcases List.mem_append.mp hs with hs | hs
      · exact h.sent s hs
      · obtain rfl := List.mem_singleton.mp hs
        cases hsave : save.target with
        | none =>
          rcases hnone hsave with htoken' | htarget'
          · exact absurd htoken' htoken
          · cases htarget'.symm.trans htarget
        | some target =>
          obtain ⟨-, htarget', hsend⟩ := hsome target hsave
          exact ⟨htarget'.symm.trans htarget, hcarries.mpr hsend⟩
  · rw [hfire]
    refine Iff.trans (b := p.IsGood ∧ save.target = none) ?_ (and_congr_right' ?_)
    · exact isGood_dropped rfl rfl rfl rfl
    rw [hglobal hscope]
    refine iff_of_false (Option.some_ne_none _) fun h ↦ ?_
    exact hsend (h.1 _ rfl).2.2
  · rw [hfire]
    rw [target_delete] at hnone
    refine Iff.trans (b := p.IsGood ∧ save.target = none) ?_ (and_congr_right' ?_)
    · exact isGood_dropped rfl rfl rfl rfl
    constructor
    · intro htarget
      refine ⟨fun target ht ↦ ?_, fun _ ↦ hnone⟩
      cases htarget.symm.trans ht
    · rintro ⟨hsome, -⟩
      by_contra htarget
      obtain ⟨target, htarget⟩ := Option.ne_none_iff_exists'.mp htarget
      obtain ⟨htoken, hcurrent, -⟩ := hsome target htarget
      rcases hnone with hnone | hnone
      · exact htoken hnone
      · cases hnone.symm.trans hcurrent

theorem mem_dirty_settle (st : SettingsStore) (key : Text) (outcome : SaveOutcome) :
    key ∈ (st.settle key outcome).dirty ↔ outcome = .networkFailure := by
  have hclear : key ∉ (st.clearDirty key).dirty := by
    intro hmem
    exact of_decide_eq_true (List.mem_filter.mp hmem).2 rfl
  cases outcome with
  | ok => exact iff_of_false hclear nofun
  | httpError status => exact iff_of_false hclear nofun
  | networkFailure =>
    refine iff_of_true ?_ rfl
    unfold SettingsStore.settle
    dsimp only
    split
    · assumption
    · exact List.mem_append_right _ (List.mem_singleton_self key)

theorem isGood_settle (place : ℕ) (save : Save) (outcome : SaveOutcome) :
    (p.settle place save outcome).IsGood ↔ p.IsGood ∧ ∀ status, outcome ≠ .httpError status := by
  have hright : (decide (save.debounceKey ∈ (p.store.settle save.debounceKey outcome).dirty) =
      true ↔ outcome ≠ .ok) ↔ ∀ status, outcome ≠ .httpError status := by
    rw [decide_eq_true_iff, mem_dirty_settle]
    cases outcome <;> simp
  rw [← hright]
  unfold SettingsPage.settle
  constructor
  · intro h
    refine ⟨⟨h.replaced, h.sent, h.dropped, fun a ha ↦ h.answers a (List.mem_append_left _ ha)⟩, ?_⟩
    exact h.answers _ (List.mem_append_right _ (List.mem_singleton_self _))
  · rintro ⟨h, hanswer⟩
    refine ⟨h.replaced, h.sent, h.dropped, fun a ha ↦ ?_⟩
    rcases List.mem_append.mp ha with ha | ha
    · exact h.answers a ha
    · obtain rfl := List.mem_singleton.mp ha
      exact hanswer

/-- **A step is good or not by what it finds.** -/
theorem isGood_step (h : p.Conserves) {e : SettingsEvent} :
    Ensures (fun p' ↦ p'.IsGood ↔ p.IsGood ∧ Delivers p e) (p.step e) := by
  cases e with
  | loadCascade hostId channelId =>
    refine .of_some ?_
    exact ⟨fun ⟨h₁, h₂, h₃, h₄⟩ ↦ ⟨⟨h₁, h₂, h₃, h₄⟩, trivial⟩, fun ⟨⟨h₁, h₂, h₃, h₄⟩, _⟩ ↦
      ⟨h₁, h₂, h₃, h₄⟩⟩
  | cascadeLoaded cascade =>
    refine .of_some ?_
    exact ⟨fun ⟨h₁, h₂, h₃, h₄⟩ ↦ ⟨⟨h₁, h₂, h₃, h₄⟩, trivial⟩, fun ⟨⟨h₁, h₂, h₃, h₄⟩, _⟩ ↦
      ⟨h₁, h₂, h₃, h₄⟩⟩
  | updateSetting scope sec key value => exact .of_some (isGood_updateSetting scope sec key value)
  | resetSetting scope sec key => exact .of_some (isGood_updateSetting scope sec key .null)
  | fires key =>
    refine .map fun save hget ↦ ?_
    rw [isGood_fire (h.keys key save hget).2]
    refine and_congr_right' ⟨fun hsave save' hget' ↦ ?_, fun hsave ↦ hsave save hget⟩
    exact Option.some.inj (hget.symm.trans hget') ▸ hsave
  | answered place outcome =>
    exact .map fun save _ ↦ isGood_settle place save outcome

/-- A page on which no setting was edited yet. -/
structure IsFresh (p : SettingsPage) : Prop where
  pending : p.store.pendingUpdates.entries = []
  made : p.made = []
  replaced : p.replaced = []
  sent : p.sent = []
  dropped : p.dropped = []
  answers : p.answers = []

theorem IsFresh.conserves (h : p.IsFresh) : p.Conserves := by
  refine ⟨?_, ?_, fun key save hget ↦ ?_⟩
  · unfold waiting
    rw [h.pending, h.made, h.replaced, h.sent, h.dropped]
    exact .refl _
  · rw [h.made]
    rfl
  · have hmem := OrderedMap.get_eq_some_iff.mp hget
    rw [h.pending] at hmem
    exact absurd hmem List.not_mem_nil

theorem IsFresh.isGood (h : p.IsFresh) : p.IsGood := by
  refine ⟨?_, ?_, ?_, ?_⟩
  · rw [h.replaced]
    exact List.forall_mem_nil _
  · rw [h.sent]
    exact List.forall_mem_nil _
  · rw [h.dropped]
    exact List.forall_mem_nil _
  · rw [h.answers]
    exact List.forall_mem_nil _

/-- **A run delivers every edit if and only if each of its steps does.** -/
theorem delivered_iff {events : List SettingsEvent} {p p' : SettingsPage} (hp : p.IsFresh)
    (hrun : run step p events = some p') :
    p'.IsDelivered ↔ Along step (fun p e _ ↦ Delivers p e) p events := by
  have hconserves : p'.Conserves :=
    run_invariant Conserves (fun _ _ _ h hstep ↦ h.step hstep) hp.conserves hrun
  rw [isDelivered_iff_isGood hconserves,
    run_iff_along Conserves (fun _ _ _ h hstep ↦ ⟨h.step hstep, isGood_step h hstep⟩) hp.conserves
      hrun]
  exact and_iff_right hp.isGood

section Switch

/-- A page that has nothing yet. -/
def signedIn : SettingsPage :=
  ⟨⟨some "token".toList, none, none, none, OrderedMap.empty, []⟩, [], [], [], [], [], []⟩

theorem isFresh_signedIn : IsFresh signedIn := ⟨rfl, rfl, rfl, rfl, rfl, rfl⟩

def fontSizeKey (scope : Scope) : Text := debounceKey scope .terminal "fontSize".toList

def savedGlobally : List SettingsEvent :=
  [.updateSetting .global .terminal "fontSize".toList (.scalar (.num 20)),
    .fires (fontSizeKey .global), .answered 0 .ok]

theorem delivered_iff_savedGlobally :
    ∃ p', run step signedIn savedGlobally = some p' ∧ p'.IsDelivered := by
  refine ⟨_, rfl, (@delivered_iff savedGlobally _ _ isFresh_signedIn rfl).mpr ?_⟩
  rw [savedGlobally]
  repeat rw [along_cons_of_eq rfl]
  refine ⟨fun old hold ↦ ?_, fun save hsave ↦ ?_, fun status ↦ ?_, trivial⟩
  · cases hold
  · cases hsave
    refine ⟨fun target htarget ↦ ?_, fun hnone ↦ ?_⟩
    · cases htarget
      exact ⟨Option.some_ne_none _, rfl, nofun, fun _ ↦ trivial⟩
    · cases hnone
  · exact nofun

/-- An edit of a host, and another host is selected before its timer fires. -/
def switchedHost : List SettingsEvent :=
  [.loadCascade (some "a".toList) none,
    .updateSetting .host .terminal "fontSize".toList (.scalar (.num 20)),
    .loadCascade (some "b".toList) none, .fires (fontSizeKey .host)]

/-- The edit is sent to the other host. -/
theorem not_delivered_switchedHost :
    ¬∀ (events : List SettingsEvent) (p p' : SettingsPage), p.IsFresh →
      run step p events = some p' → p'.IsDelivered := by
  intro h
  have hrun : run step signedIn switchedHost = some _ := rfl
  have hconserves :=
    run_invariant Conserves (fun _ _ _ h hstep ↦ h.step hstep) isFresh_signedIn.conserves hrun
  have hg := (h switchedHost signedIn _ isFresh_signedIn hrun).isGood hconserves
  have hsent := (hg.sent _ List.mem_cons_self).1
  cases hsent

end Switch

end SettingsPage

end Lasterm.Web.Settings
