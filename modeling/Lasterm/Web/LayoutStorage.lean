import Lasterm.Web.TabManager

/-!
# The stored layout

The layout is written to the browser's storage after every change and read back when the page is
loaded. What is read can be older than the code that reads it: tabs that are still named by a
channel, terminals that have no pane id yet, trees with more panes than are allowed now.
`loadFromStorage` brings all of it up to date.

A terminal without a pane id is one whose pane id is the empty text; the code treats both alike.
-/

namespace Lasterm.Web

open SplitTree

/-! ## What is stored -/

/-- A tab of either format: the old one has a channel, the new one an id. -/
structure StoredTab where
  id : Option String
  channelId : Option String

/-- What `JSON.parse` gives. -/
structure Stored where
  tabs : Option (List StoredTab)
  activeTabIndex : Option ℤ
  layouts : Option (OrderedMap String (Option PaneNode))
  activePaneIds : Option (OrderedMap String String)

namespace Stored

/-- The first tab has a channel. -/
def isOld (stored : Stored) : Bool :=
  match stored.tabs with
  | some (tab :: _) => tab.channelId.isSome
  | _ => false

end Stored

namespace PaneNode

variable (ids : IdSource)

/-- Give every terminal without a pane id a new one; `n` is how often `generateId` was called. -/
def ensurePaneIds : PaneNode → ℕ → PaneNode × ℕ
  | .leaf (.terminal channelId paneId), n =>
    if paneId ≠ "" then (.leaf (.terminal channelId paneId), n)
    else (.leaf (.terminal channelId (ids.gen n)), n + 1)
  | .leaf (.vacant id), n => (.leaf (.vacant id), n)
  | .split label first second, n =>
    let (first, n) := ensurePaneIds first n
    let (second, n) := ensurePaneIds second n
    (.split label first second, n)

end PaneNode

namespace Layout

variable (ids : IdSource)

/-- A property of a JavaScript object that is looked up with `undefined` as its name. -/
def keyOf (key : Option String) : String := key.getD "undefined"

/-- The loop body over the tabs of the old format. -/
def migrateTab (oldLayouts : OrderedMap String (Option PaneNode)) (s : Layout)
    (oldTab : StoredTab) : Layout :=
  let newId := s.nextId ids
  let s := { s.generateId with tabs := s.tabs ++ [(⟨newId⟩ : Tab)] }
  match (oldLayouts.get (keyOf oldTab.channelId)).join with
  | none => { s with layouts := s.layouts.set newId none }
  | some tree =>
    let (tree, n) := tree.ensurePaneIds ids s.generated
    let tree := tree.truncateToMaxPanes MAX_PANE_COUNT
    let s := { s with generated := n }.setRoot newId tree
    match tree.findFirstLeafPaneId with
    | none => s
    | some paneId => if paneId ≠ "" then s.setActivePaneId newId paneId else s

/-- The loop body over the keys of the new format's trees. -/
def migrateTree (s : Layout) (key : String) : Layout :=
  match s.root key with
  | none => s
  | some tree =>
    let (tree, n) := tree.ensurePaneIds ids s.generated
    { s with generated := n }.setRoot key (tree.truncateToMaxPanes MAX_PANE_COUNT)

/-- Stored state of the new format as it stands, with the defaults of `useLayout` for what is not
there; `n` is how often `generateId` was called so far. -/
def ofStored (stored : Stored) (n : ℕ) : Layout where
  tabs := (stored.tabs.getD []).map fun tab ↦ ⟨keyOf tab.id⟩
  activeTabIndex := stored.activeTabIndex.getD 0
  layouts := stored.layouts.getD .empty
  activePaneIds := stored.activePaneIds.getD .empty
  generated := n

/-- Stored state of the new format without trees makes the function throw. -/
def loadFromStorage (stored : Stored) (n : ℕ) : Option Layout :=
  if stored.isOld then
    some ((stored.tabs.getD []).foldl (migrateTab ids (stored.layouts.getD .empty))
      ⟨[], stored.activeTabIndex.getD 0, .empty, .empty, n⟩)
  else
    stored.layouts.map fun layouts ↦
      layouts.keys.foldl (migrateTree ids) (ofStored stored n)

/-- The state of a page that has found this in the storage. -/
def useLayout (stored : Option Stored) (n : ℕ) : Layout :=
  (stored.bind fun stored ↦ loadFromStorage ids stored n).getD ⟨[], 0, .empty, .empty, n⟩

/-- What `saveToStorage` writes. -/
def saved (s : Layout) : Stored where
  tabs := some (s.tabs.map fun tab ↦ ⟨some tab.id, none⟩)
  activeTabIndex := some s.activeTabIndex
  layouts := some s.layouts
  activePaneIds := some s.activePaneIds

end Layout

/-! ## Trees brought up to date -/

/-- The ids that the leaves have, without those of terminals that have none yet. -/
def Leaf.storedIds : Leaf → List String
  | .terminal _ paneId => if paneId = "" then [] else [paneId]
  | .vacant id => [id]

namespace PaneNode

def storedIds (root : PaneNode) : List String := root.leaves.flatMap Leaf.storedIds

/-- What is left of a tree with too many panes: of every split the first half, down to one that has
no more than are allowed. -/
def keptPart (root : PaneNode) : PaneNode := root.truncateToMaxPanes MAX_PANE_COUNT

theorem leaves_truncateToMaxPanes (max : ℕ) (root : PaneNode) :
    (root.truncateToMaxPanes max).leaves <+: root.leaves := by
  induction root with
  | leaf l => exact List.prefix_refl _
  | split label first second ihfirst ihsecond =>
    rw [truncateToMaxPanes]
    split
    · exact List.prefix_refl _
    · exact ihfirst.trans (List.prefix_append _ _)

theorem length_leaves_truncateToMaxPanes {max : ℕ} (hmax : 0 < max) (root : PaneNode) :
    (root.truncateToMaxPanes max).leaves.length ≤ max := by
  induction root with
  | leaf l => exact hmax
  | split label first second ihfirst ihsecond =>
    rw [truncateToMaxPanes]
    split
    · rename_i hle
      rwa [countLeaves_eq] at hle
    · exact ihfirst

theorem truncateToMaxPanes_of_le {max : ℕ} {root : PaneNode} (h : root.leaves.length ≤ max) :
    root.truncateToMaxPanes max = root := by
  cases root with
  | leaf l => rfl
  | split label first second =>
    rw [truncateToMaxPanes, if_pos]
    rwa [countLeaves_eq]

end PaneNode

/-- Of a list of leaves, those without an id have got those that were generated from the first
number on up to the second. -/
inductive Filled (ids : IdSource) : ℕ → ℕ → List Leaf → List Leaf → Prop
  | nil (n : ℕ) : Filled ids n n [] []
  | keep {n n' : ℕ} {l : Leaf} {ls ls' : List Leaf} (hl : ∀ channelId, l ≠ .terminal channelId "")
    (h : Filled ids n n' ls ls') : Filled ids n n' (l :: ls) (l :: ls')
  | fill {n n' : ℕ} {ls ls' : List Leaf} (channelId : String) (h : Filled ids (n + 1) n' ls ls') :
    Filled ids n n' (.terminal channelId "" :: ls) (.terminal channelId (ids.gen n) :: ls')

namespace Filled

variable {ids : IdSource} {n n' : ℕ} {ls ls' : List Leaf}

theorem le (h : Filled ids n n' ls ls') : n ≤ n' := by
  induction h with
  | nil n => exact le_rfl
  | keep hl h ih => exact ih
  | fill channelId h ih => exact (Nat.le_succ _).trans ih

theorem length_eq (h : Filled ids n n' ls ls') : ls'.length = ls.length := by
  induction h with
  | nil n => rfl
  | keep hl h ih => rw [List.length_cons, List.length_cons, ih]
  | fill channelId h ih => rw [List.length_cons, List.length_cons, ih]

theorem append {n'' : ℕ} {ks ks' : List Leaf} (h : Filled ids n n' ls ls')
    (h' : Filled ids n' n'' ks ks') : Filled ids n n'' (ls ++ ks) (ls' ++ ks') := by
  induction h with
  | nil n => exact h'
  | keep hl h ih => exact .keep hl (ih h')
  | fill channelId h ih => exact .fill channelId (ih h')

end Filled

namespace PaneNode

variable {ids : IdSource}

theorem filled_ensurePaneIds (root : PaneNode) (n : ℕ) : Filled ids n (root.ensurePaneIds ids n).2
    root.leaves (root.ensurePaneIds ids n).1.leaves := by
  induction root generalizing n with
  | leaf l =>
    cases l with
    | vacant id => exact .keep (fun channelId h ↦ by cases h) (.nil n)
    | terminal channelId paneId =>
      rw [ensurePaneIds]
      split
      · rename_i hpane
        exact .keep (fun channelId' h ↦ hpane (Leaf.terminal.inj h).2) (.nil n)
      · rename_i hpane
        cases not_not.mp hpane
        exact .fill channelId (.nil (n + 1))
  | split label first second ihfirst ihsecond => exact (ihfirst n).append (ihsecond _)

variable (ids) in
/-- To give ids and to cut is to cut and to give ids, of which fewer are needed then. -/
theorem truncateToMaxPanes_ensurePaneIds (max : ℕ) (root : PaneNode) (n : ℕ) :
    (root.ensurePaneIds ids n).1.truncateToMaxPanes max
      = ((root.truncateToMaxPanes max).ensurePaneIds ids n).1 ∧
    ((root.truncateToMaxPanes max).ensurePaneIds ids n).2 ≤ (root.ensurePaneIds ids n).2 := by
  induction root with
  | leaf l =>
    refine ⟨?_, le_rfl⟩
    cases l with
    | vacant id => rfl
    | terminal channelId paneId =>
      rw [truncateToMaxPanes, ensurePaneIds]
      split <;> rfl
  | split label first second ihfirst ihsecond =>
    have hcount : countLeaves (ensurePaneIds ids (.split label first second) n).1
        = countLeaves (.split label first second) := by
      rw [countLeaves_eq, countLeaves_eq, (filled_ensurePaneIds _ n).length_eq]
    have hsplit : (ensurePaneIds ids (.split label first second) n).1 = .split label
        (ensurePaneIds ids first n).1
        (ensurePaneIds ids second (ensurePaneIds ids first n).2).1 := rfl
    rw [hsplit] at hcount ⊢
    rw [truncateToMaxPanes, hcount, truncateToMaxPanes]
    split
    · exact ⟨hsplit.symm, le_rfl⟩
    · exact ⟨ihfirst.1, ihfirst.2.trans (filled_ensurePaneIds second _).le⟩

variable (ids) in
/-- A tree that is read is what is kept of the stored one, with an id at every terminal. -/
theorem exists_filled (root : PaneNode) (n : ℕ) :
    ∃ m ≤ (root.ensurePaneIds ids n).2, Filled ids n m root.keptPart.leaves
      ((root.ensurePaneIds ids n).1.truncateToMaxPanes MAX_PANE_COUNT).leaves := by
  obtain ⟨htree, hle⟩ := truncateToMaxPanes_ensurePaneIds ids MAX_PANE_COUNT root n
  rw [htree]
  exact ⟨_, hle, filled_ensurePaneIds root.keptPart n⟩

end PaneNode

end Lasterm.Web
