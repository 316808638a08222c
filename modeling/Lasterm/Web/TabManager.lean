import Lasterm.Web.PaneTree

/-!
# Tabs

`useTabManager` opens and closes tabs, puts them in another order and takes a pane out into a tab of
its own. It works on the state of `usePaneTree`: whoever adds a tab gives it a tree and an active
pane, and whoever removes one takes both away.
-/

namespace Lasterm.Web

namespace Layout

variable (ids : IdSource)

variable (s : Layout)

def tabIds : List String := s.tabs.map Tab.id

/-- A new tab at an index, with a terminal for all of its area, becomes the tab in front. -/
def addTab (index : ℕ) (newTabId channelId newPaneId : String) : Layout where
  tabs := s.tabs.insertIdx index ⟨newTabId⟩
  activeTabIndex := index
  layouts := s.layouts.set newTabId (some (.leaf (.terminal channelId newPaneId)))
  activePaneIds := s.activePaneIds.set newTabId newPaneId
  generated := s.generated

/-- `Math.max(0, Math.min(index, length))`. -/
def clampIndex (index : ℤ) (length : ℕ) : ℕ := (min index length).toNat

/-- The part of `openTab` that opens a tab; `afterActive` is what the configuration says of the
position of new tabs. -/
def openNewTab (channelId : String) (afterActive : Bool) : Layout :=
  let newPaneId := s.nextId ids
  let newTabId := s.generateId.nextId ids
  let index :=
    if afterActive then clampIndex (s.activeTabIndex + 1) s.tabs.length else s.tabs.length
  s.generateId.generateId.addTab index newTabId channelId newPaneId

def openTab (channelId : String) (afterActive : Bool) : Layout :=
  match s.findTabForChannel channelId with
  | none => s.openNewTab ids channelId afterActive
  | some existingTabId =>
    match s.tabs.findIdx? fun t ↦ t.id = existingTabId with
    | some existingIdx => { s with activeTabIndex := existingIdx }
    | none => s.openNewTab ids channelId afterActive

def closeTab (index : ℤ) : Layout :=
  match s.tabAt index with
  | none => s
  | some tab =>
    let next := s.tabs.eraseIdx index.toNat
    { s with
      tabs := next
      layouts := s.layouts.delete tab.id
      activePaneIds := s.activePaneIds.delete tab.id
      activeTabIndex :=
        if s.activeTabIndex ≥ next.length then max 0 (next.length - 1)
        else if s.activeTabIndex > index then s.activeTabIndex - 1
        else s.activeTabIndex }

def setActiveTab (index : ℤ) : Layout :=
  if 0 ≤ index ∧ index < s.tabs.length then { s with activeTabIndex := index } else s

def reorderTab (fromIndex toIndex : ℤ) : Layout :=
  if fromIndex = toIndex then s
  else
    match s.tabAt fromIndex with
    | none => s
    | some moved =>
      let clampedTo : ℤ := max 0 (min toIndex (s.tabs.length - 1))
      if fromIndex = clampedTo then s
      else
        { s with
          tabs := (s.tabs.eraseIdx fromIndex.toNat).insertIdx clampedTo.toNat moved
          activeTabIndex :=
            if s.activeTabIndex = fromIndex then clampedTo
            else if fromIndex < s.activeTabIndex ∧ clampedTo ≥ s.activeTabIndex then
              s.activeTabIndex - 1
            else if fromIndex > s.activeTabIndex ∧ clampedTo ≤ s.activeTabIndex then
              s.activeTabIndex + 1
            else s.activeTabIndex }

/-- One tab and what belongs to it; a tree that is `null` is not kept. -/
def keepOnly (tabs : List Tab) (tabId : String) : Layout :=
  { s with
    tabs := tabs
    activeTabIndex := 0
    layouts :=
      match s.root tabId with
      | some keptLayout => OrderedMap.empty.set tabId (some keptLayout)
      | none => OrderedMap.empty
    activePaneIds :=
      match s.activePaneIds.get tabId with
      | some keptPaneId => OrderedMap.empty.set tabId keptPaneId
      | none => OrderedMap.empty }

def closeOthers (keepIndex : ℤ) : Layout :=
  match s.tabAt keepIndex with
  | none => s
  | some kept => s.keepOnly [kept] kept.id

/-- Where `slice` cuts a list: a negative index counts from the end. -/
def sliceIndex (index : ℤ) (length : ℕ) : ℕ :=
  if index < 0 then (length + index).toNat else min index.toNat length

def closeToRight (fromIndex : ℤ) : Layout :=
  let cut := sliceIndex (fromIndex + 1) s.tabs.length
  let removed := s.tabs.drop cut
  let kept := s.tabs.take cut
  { s with
    tabs := kept
    layouts := removed.foldl (fun layouts tab ↦ layouts.delete tab.id) s.layouts
    activePaneIds := removed.foldl (fun panes tab ↦ panes.delete tab.id) s.activePaneIds
    activeTabIndex :=
      if s.activeTabIndex ≥ kept.length then max 0 (kept.length - 1) else s.activeTabIndex }

/-- No tab at all. -/
def cleared : Layout :=
  { s with
    tabs := []
    activeTabIndex := 0
    layouts := OrderedMap.empty
    activePaneIds := OrderedMap.empty }

def closeAll (exceptWelcomeChannelId : Option String) : Layout :=
  match exceptWelcomeChannelId with
  | none => s.cleared
  | some channelId =>
    if channelId = "" then s.cleared
    else
      match s.findTabForChannel channelId with
      | none => s.cleared
      | some welcomeTabId =>
        let kept := (s.tabs.find? fun t ↦ t.id = welcomeTabId).toList
        if welcomeTabId = "" then { s.cleared with tabs := kept } else s.keepOnly kept welcomeTabId

def moveToNewTab (sourceChannelId : String) (insertAtIndex : ℤ) : Layout :=
  match s.findTabForChannel sourceChannelId with
  | none => s
  | some sourceTabKey =>
    let vacated := s.vacatePaneInTab ids sourceTabKey sourceChannelId
    let newTabId := vacated.nextId ids
    let newPaneId := vacated.generateId.nextId ids
    vacated.generateId.generateId.addTab (clampIndex insertAtIndex vacated.tabs.length) newTabId
      sourceChannelId newPaneId

end Layout

end Lasterm.Web
