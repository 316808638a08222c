import Lasterm.Library.OrderedMap
import Lasterm.Library.SplitTree
import Mathlib.Data.Rat.Defs

/-!
# Panes

The terminal area of the web client is a row of tabs, and the area of a tab is cut in two again and
again. Every part shows the terminal of a channel or is vacant. `usePaneTree` holds the tree of
every tab and which pane of it is active; this module has its operations.

The leaves of a tree are addressed in three ways: by the channel that is shown, by the id of a
vacant slot, and by the id of either kind of leaf, its own id or its pane's. The helpers of the
source for the three are the two of the library, `findPath` and `replaceFirst`, with three
properties of leaves.

An operation on the tab in front is described by what is around the leaf it addresses: a context
with that leaf in its hole (`exists_context_of_findPath`). The context stays, and another
tree comes into the hole; or the context loses its innermost split, and the other half of that split
comes (`collapse_plug`).
-/

namespace Lasterm.Web

/-! ## Trees -/

inductive Direction where
  | horizontal
  | vertical
  deriving DecidableEq

/-- What a split has besides its halves. -/
structure Split where
  direction : Direction
  ratio : ℚ

inductive Leaf where
  | terminal (channelId paneId : String)
  | vacant (id : String)

abbrev PaneNode := SplitTree Split Leaf

inductive DropZone where
  | left
  | right
  | top
  | bottom
  | center
  deriving DecidableEq

abbrev NodePath := SplitTree.Path

def MAX_PANE_COUNT : ℕ := 4

namespace Leaf

/-- The leaf shows a channel. -/
def shows (channelId : String) : Leaf → Bool
  | terminal channelId' _ => channelId' = channelId
  | vacant _ => false

theorem shows_terminal (channelId paneId : String) :
    (terminal channelId paneId).shows channelId = true := decide_eq_true rfl

theorem exists_of_shows {l : Leaf} {channelId : String} (h : l.shows channelId = true) :
    ∃ paneId, l = terminal channelId paneId := by
  cases l with
  | terminal channelId' paneId => exact ⟨paneId, by rw [of_decide_eq_true h]⟩
  | vacant id => cases h

def isVacant (vacantId : String) : Leaf → Bool
  | terminal _ _ => false
  | vacant id => id = vacantId

/-- `getLeafId`. -/
def leafId : Leaf → String
  | terminal _ paneId => paneId
  | vacant id => id

def channels : Leaf → List String
  | terminal channelId _ => [channelId]
  | vacant _ => []

def paneIds : Leaf → List String
  | terminal _ paneId => [paneId]
  | vacant _ => []

end Leaf

namespace PaneNode

open SplitTree

def countLeaves : PaneNode → ℕ
  | .leaf _ => 1
  | .split _ first second => countLeaves first + countLeaves second

def countPanes : PaneNode → ℕ
  | .leaf _ => 1
  | .split _ first second => countPanes first + countPanes second

def truncateToMaxPanes (max : ℕ) : PaneNode → PaneNode
  | .leaf l => .leaf l
  | .split label first second =>
    if countLeaves (.split label first second) ≤ max then .split label first second
    else truncateToMaxPanes max first

def findFirstLeafPaneId : PaneNode → Option String
  | .leaf (.terminal _ paneId) => some paneId
  | .leaf (.vacant _) => none
  | .split _ first second => findFirstLeafPaneId first <|> findFirstLeafPaneId second

def findChannelByPaneId (paneId : String) : PaneNode → Option String
  | .leaf (.terminal channelId paneId') => if paneId' = paneId then some channelId else none
  | .leaf (.vacant _) => none
  | .split _ first second => findChannelByPaneId paneId first <|> findChannelByPaneId paneId second

def collectTerminalChannelIds : PaneNode → List String
  | .leaf (.terminal channelId _) => [channelId]
  | .leaf (.vacant _) => []
  | .split _ first second => collectTerminalChannelIds first ++ collectTerminalChannelIds second

def setNodeAtPath (root : PaneNode) (path : NodePath) (node : PaneNode) : PaneNode :=
  root.setAt path node

def getNodeAtPath (root : PaneNode) (path : NodePath) : Option PaneNode := root.get path

def findChannelPath (root : PaneNode) (channelId : String) : Option NodePath :=
  root.findPath (Leaf.shows channelId)

def findVacantPath (root : PaneNode) (vacantId : String) : Option NodePath :=
  root.findPath (Leaf.isVacant vacantId)

def findNodePathByPaneId (root : PaneNode) (paneId : String) : Option NodePath :=
  root.findPath fun l ↦ l.leafId = paneId

def replaceTerminalNode (node : PaneNode) (channelId : String) (replacement : PaneNode) :
    Option PaneNode :=
  node.replaceFirst (Leaf.shows channelId) replacement

def replaceNodeByPaneId (node : PaneNode) (paneId : String) (replacement : PaneNode) :
    Option PaneNode :=
  node.replaceFirst (fun l ↦ l.leafId = paneId) replacement

/-- The tree in which the split above a path has made way for its other half, as three operations
write it out. At the root there is no split above. -/
def collapse (root : PaneNode) (path : NodePath) : Option PaneNode :=
  match path.getLast? with
  | none => none
  | some lastTurn =>
    match root.getNodeAtPath path.dropLast with
    | some (.split _ first second) =>
      some (root.setNodeAtPath path.dropLast (if lastTurn = .first then second else first))
    | _ => none

/-! ## Lists of leaves -/

/-- The ids of the leaves, of panes and of vacant slots. -/
def leafIds (root : PaneNode) : List String := root.leaves.map Leaf.leafId

/-- The ids of the panes with a terminal. -/
def paneIds (root : PaneNode) : List String := root.leaves.flatMap Leaf.paneIds

variable (root : PaneNode)

theorem countLeaves_eq : root.countLeaves = root.leaves.length := by
  induction root with
  | leaf l => rfl
  | split label first second ihfirst ihsecond =>
    rw [countLeaves, leaves_split, List.length_append, ihfirst, ihsecond]

theorem countPanes_eq : root.countPanes = root.leaves.length := by
  induction root with
  | leaf l => rfl
  | split label first second ihfirst ihsecond =>
    rw [countPanes, leaves_split, List.length_append, ihfirst, ihsecond]

theorem collectTerminalChannelIds_eq :
    root.collectTerminalChannelIds = root.leaves.flatMap Leaf.channels := by
  induction root with
  | leaf l => cases l <;> rfl
  | split label first second ihfirst ihsecond =>
    rw [collectTerminalChannelIds, leaves_split, List.flatMap_append, ihfirst, ihsecond]

theorem findFirstLeafPaneId_eq :
    root.findFirstLeafPaneId = root.paneIds.head? := by
  induction root with
  | leaf l => cases l <;> rfl
  | split label first second ihfirst ihsecond =>
    rw [findFirstLeafPaneId, paneIds, leaves_split, List.flatMap_append, List.head?_append,
      ihfirst, ihsecond, Option.orElse_eq_orElse, Option.orElse_eq_or]
    rfl

/-! ## Collapsing a split -/

/-- The split above the hole makes way for its other half. -/
theorem collapse_plug (c : Context Split Leaf) (t : PaneNode) :
    collapse (Context.plug c t) (Context.path c) = Context.close c := by
  obtain rfl | ⟨c, f, rfl⟩ := c.eq_nil_or_concat'
  · rfl
  have hlast : (Context.path (c ++ [f])).getLast? = some f.turn := by
    rw [Context.path, List.map_append, List.map_singleton, List.getLast?_concat]
  have hparent : (Context.path (c ++ [f])).dropLast = Context.path c := by
    rw [Context.path, List.map_append, List.map_singleton, List.dropLast_concat]
    rfl
  rw [collapse, hlast, hparent, Context.plug_append, getNodeAtPath, Context.get_plug,
    Context.close_concat]
  obtain ⟨label, turn, sibling⟩ := f
  cases turn <;> exact congrArg some (Context.setAt_plug c _ sibling)

end PaneNode

/-! ## Tabs and their trees -/

structure Tab where
  id : String
  deriving DecidableEq

/-- What `generateId` returns, call after call: never the same and never the empty text. -/
structure IdSource where
  gen : ℕ → String
  injective : Function.Injective gen
  ne_empty : ∀ n, gen n ≠ ""

/-- Ids that only count. -/
def IdSource.counted : IdSource where
  gen n := String.ofList (List.replicate (n + 1) '0')
  injective m n h := by
    have hlength := congrArg List.length (String.ofList_injective h)
    simpa using hlength
  ne_empty n h := by
    have hlength := congrArg String.length h
    simp at hlength

/-- The state that `usePaneTree` and `useTabManager` share. -/
structure Layout where
  tabs : List Tab
  activeTabIndex : ℤ
  /-- The tree of every tab, by the tab's id; a tab may have none. -/
  layouts : OrderedMap String (Option PaneNode)
  /-- The pane with the focus, by the tab's id. -/
  activePaneIds : OrderedMap String String
  /-- How often `generateId` was called. -/
  generated : ℕ

namespace Layout

variable (ids : IdSource)

variable (s : Layout)

/-- `tabs.value[index]`. -/
def tabAt (index : ℤ) : Option Tab := if 0 ≤ index then s.tabs[index.toNat]? else none

def activeTab : Option Tab := s.tabAt s.activeTabIndex

/-- `layouts.value[tabId]`, where `null` and `undefined` are treated alike. -/
def root (tabId : String) : Option PaneNode := (s.layouts.get tabId).join

def setRoot (tabId : String) (node : PaneNode) : Layout :=
  { s with layouts := s.layouts.set tabId (some node) }

def setActivePaneId (tabId paneId : String) : Layout :=
  { s with activePaneIds := s.activePaneIds.set tabId paneId }

def clearActivePaneId (tabId : String) : Layout :=
  { s with activePaneIds := s.activePaneIds.delete tabId }

/-- The id that `generateId` returns next. -/
def nextId : String := ids.gen s.generated

/-- A call of `generateId`. -/
def generateId : Layout := { s with generated := s.generated + 1 }

/-- An operation on the tab in front, if it has a tree. -/
def onActiveTab (f : String → PaneNode → Layout) : Layout :=
  match s.activeTab with
  | none => s
  | some tab =>
    match s.root tab.id with
    | none => s
    | some root => f tab.id root

def splitPane (channelId : String) (direction : Direction) : Layout :=
  s.onActiveTab fun tabId root ↦
    if root.countLeaves ≥ MAX_PANE_COUNT then s
    else
      match root.findChannelPath channelId with
      | none => s
      | some path =>
        match root.getNodeAtPath path with
        | none => s
        | some existingNode =>
          let splitNode : PaneNode :=
            .split ⟨direction, 1 / 2⟩ existingNode (.leaf (.vacant (s.nextId ids)))
          s.generateId.setRoot tabId (root.setNodeAtPath path splitNode)

def unsplitPane (channelId : String) : Layout :=
  s.onActiveTab fun tabId root ↦
    match root.findChannelPath channelId with
    | none => s
    | some path =>
      match root.collapse path with
      | none => s
      | some newRoot => s.setRoot tabId newRoot

/-- The end of `vacatePane`, `closePane` and `vacatePaneInTab`: if the active pane showed the
channel in the old tree, the first terminal of the new one becomes the active pane. -/
def moveFocus (tabId channelId : String) (root updated : PaneNode) : Layout :=
  match s.activePaneIds.get tabId with
  | none => s
  | some activePaneId =>
    if root.findChannelByPaneId activePaneId = some channelId then
      match updated.findFirstLeafPaneId with
      | some newActive => s.setActivePaneId tabId newActive
      | none => s.clearActivePaneId tabId
    else s

def vacatePaneInTab (tabId channelId : String) : Layout :=
  match s.root tabId with
  | none => s
  | some root =>
    match root.replaceTerminalNode channelId (.leaf (.vacant (s.nextId ids))) with
    | none => s.generateId
    | some updated => (s.generateId.setRoot tabId updated).moveFocus tabId channelId root updated

/-- The body is that of `vacatePaneInTab`, with the tab in front. -/
def vacatePane (channelId : String) : Layout :=
  match s.activeTab with
  | none => s
  | some tab => s.vacatePaneInTab ids tab.id channelId

def fillVacant (vacantId channelId : String) : Layout :=
  s.onActiveTab fun tabId root ↦
    match root.findVacantPath vacantId with
    | none => s
    | some path =>
      let newPaneId := s.nextId ids
      (s.generateId.setRoot tabId (root.setNodeAtPath path (.leaf (.terminal channelId newPaneId))))
        |>.setActivePaneId tabId newPaneId

def rearrangeVacant (vacantId : String) : Layout :=
  s.onActiveTab fun tabId root ↦
    match root.findVacantPath vacantId with
    | none => s
    | some path =>
      match root.collapse path with
      | none => s
      | some newRoot => s.setRoot tabId newRoot

def closePane (channelId : String) : Layout :=
  s.onActiveTab fun tabId root ↦
    match root.findChannelPath channelId with
    | none => s
    | some [] =>
      (s.generateId.setRoot tabId (.leaf (.vacant (s.nextId ids)))).clearActivePaneId tabId
    | some path =>
      match root.collapse path with
      | none => s
      | some newRoot => (s.setRoot tabId newRoot).moveFocus tabId channelId root newRoot

/-- The tab that shows a channel: the one in front if it does, else the first. -/
def findTabForChannel (channelId : String) : Option String :=
  let showsChannel (root : PaneNode) : Bool := (root.findChannelPath channelId).isSome
  let firstMatch := (s.layouts.entries.find? fun e ↦ e.2.any showsChannel).map Prod.fst
  match s.activeTab with
  | none => firstMatch
  | some active => if (s.root active.id).any showsChannel then some active.id else firstMatch

/-- Where a pane comes into a tree that is not replaced: before or behind the pane it is dropped on.
-/
def dropSplit (zone : DropZone) (sourceNode existingNode : PaneNode) : PaneNode :=
  let direction : Direction := if zone = .left ∨ zone = .right then .vertical else .horizontal
  if zone = .left ∨ zone = .top then .split ⟨direction, 1 / 2⟩ sourceNode existingNode
  else .split ⟨direction, 1 / 2⟩ existingNode sourceNode

def movePaneTo (sourceChannelId targetPaneId targetTabId : String) (zone : DropZone) :
    Layout :=
  match s.findTabForChannel sourceChannelId with
  | none => s
  | some sourceTabKey =>
    let vacated := s.vacatePaneInTab ids sourceTabKey sourceChannelId
    match vacated.root targetTabId with
    | none => vacated
    | some targetRoot =>
      let newSourcePaneId := vacated.nextId ids
      let sourceNode : PaneNode := .leaf (.terminal sourceChannelId newSourcePaneId)
      if zone = .center then
        match targetRoot.replaceNodeByPaneId targetPaneId sourceNode with
        | none => vacated.generateId
        | some updated =>
          (vacated.generateId.setRoot targetTabId updated).setActivePaneId targetTabId
            newSourcePaneId
      else
        match targetRoot.findNodePathByPaneId targetPaneId with
        | none => vacated.generateId
        | some targetPath =>
          match targetRoot.getNodeAtPath targetPath with
          | none => vacated.generateId
          | some existingNode =>
            let updated := targetRoot.setNodeAtPath targetPath
              (dropSplit zone sourceNode existingNode)
            (vacated.generateId.setRoot targetTabId updated).setActivePaneId targetTabId
              newSourcePaneId

end Layout

end Lasterm.Web
