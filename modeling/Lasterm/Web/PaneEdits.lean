import Lasterm.Web.PaneTree

/-!
# Edits of one pane

Six operations address a leaf of the tree in front, by its channel or as a vacant slot, and change
the tree there and nowhere else. The leaf is the first from the left that fits. With what is around
it as a context, the new tree is the same context around something else, or the context less its
innermost split (`PaneEdit.result`). The leaves of the new tree are therefore those of the old one
but for the addressed one, in their order (`leaves_result`).

That the code does what `result` says, and nothing to other tabs, is `paneEdit_local`.
-/

namespace Lasterm.Web

open SplitTree

inductive PaneEdit where
  | splitPane (channelId : String) (direction : Direction)
  | unsplitPane (channelId : String)
  | closePane (channelId : String)
  | vacatePane (channelId : String)
  | fillVacant (vacantId channelId : String)
  | rearrangeVacant (vacantId : String)

namespace PaneEdit

/-- The function of the source. -/
def apply (ids : IdSource) (s : Layout) : PaneEdit → Layout
  | splitPane channelId direction => s.splitPane ids channelId direction
  | unsplitPane channelId => s.unsplitPane channelId
  | closePane channelId => s.closePane ids channelId
  | vacatePane channelId => s.vacatePane ids channelId
  | fillVacant vacantId channelId => s.fillVacant ids vacantId channelId
  | rearrangeVacant vacantId => s.rearrangeVacant vacantId

/-- The leaves that the edit can be about. -/
def addresses : PaneEdit → Leaf → Bool
  | splitPane channelId _ => Leaf.shows channelId
  | unsplitPane channelId => Leaf.shows channelId
  | closePane channelId => Leaf.shows channelId
  | vacatePane channelId => Leaf.shows channelId
  | fillVacant vacantId _ => Leaf.isVacant vacantId
  | rearrangeVacant vacantId => Leaf.isVacant vacantId

/-- The tree after the edit of a leaf with a context around it; `none` if the edit does nothing. -/
def result (newId : String) (c : Context Split Leaf) (l : Leaf) : PaneEdit → Option PaneNode
  | splitPane _ direction =>
    if (Context.plug c (.leaf l)).leaves.length ≥ MAX_PANE_COUNT then none
    else some (Context.plug c (.split ⟨direction, 1 / 2⟩ (.leaf l) (.leaf (.vacant newId))))
  | unsplitPane _ => Context.close c
  | closePane _ => some ((Context.close c).getD (.leaf (.vacant newId)))
  | vacatePane _ => some (Context.plug c (.leaf (.vacant newId)))
  | fillVacant _ channelId => some (Context.plug c (.leaf (.terminal channelId newId)))
  | rearrangeVacant _ => Context.close c

/-- The leaves that stand where the addressed one stood. -/
def newLeaves (newId : String) (c : Context Split Leaf) (l : Leaf) : PaneEdit → List Leaf
  | splitPane _ _ => [l, .vacant newId]
  | unsplitPane _ => []
  | closePane _ => if c = [] then [.vacant newId] else []
  | vacatePane _ => [.vacant newId]
  | fillVacant _ channelId => [.terminal channelId newId]
  | rearrangeVacant _ => []

/-- The leaves before and behind the addressed one stay, in their order. -/
theorem leaves_result {newId : String} {c : Context Split Leaf} {l : Leaf} {e : PaneEdit}
    {root : PaneNode} (h : e.result newId c l = some root) :
    root.leaves = Context.before c ++ e.newLeaves newId c l ++ Context.after c := by
  cases e with
  | splitPane channelId direction =>
    rw [result] at h
    split at h
    · cases h
    · cases h
      exact Context.leaves_plug c _
  | unsplitPane channelId =>
    rw [Context.leaves_close h, newLeaves, List.append_nil]
  | closePane channelId =>
    cases h
    rw [newLeaves]
    obtain rfl | ⟨c, f, rfl⟩ := c.eq_nil_or_concat'
    · rfl
    · rw [if_neg (List.append_ne_nil_of_right_ne_nil c (List.cons_ne_nil f [])), List.append_nil,
        ← Context.leaves_close (Context.close_concat c f), Context.close_concat, Option.getD_some]
  | vacatePane channelId =>
    cases h
    exact Context.leaves_plug c _
  | fillVacant vacantId channelId =>
    cases h
    exact Context.leaves_plug c _
  | rearrangeVacant vacantId =>
    rw [Context.leaves_close h, newLeaves, List.append_nil]

end PaneEdit

/-! ## What the operations do to the tree in front -/

namespace Layout

variable (ids : IdSource) {s : Layout} {tab : Tab} {root : PaneNode}

theorem onActiveTab_eq (htab : s.activeTab = some tab) (hroot : s.root tab.id = some root)
    (f : String → PaneNode → Layout) : s.onActiveTab f = f tab.id root := by
  simp only [onActiveTab, htab, hroot]

theorem onActiveTab_eq_self {f : String → PaneNode → Layout}
    (h : ∀ tab root, s.activeTab = some tab → s.root tab.id = some root → f tab.id root = s) :
    s.onActiveTab f = s := by
  rw [onActiveTab]
  split
  · rfl
  · rename_i tab htab
    split
    · rfl
    · rename_i root hroot
      exact h tab root htab hroot

@[simp] theorem root_setRoot (s : Layout) (tabId : String) (node : PaneNode) :
    (s.setRoot tabId node).root tabId = some node := by
  rw [root, setRoot, OrderedMap.get_set_self, Option.join_some]

/-- Only the focus moves. -/
theorem exists_moveFocus (s : Layout) (tabId channelId : String) (root updated : PaneNode) :
    ∃ activePaneIds,
      s.moveFocus tabId channelId root updated = { s with activePaneIds := activePaneIds } := by
  unfold moveFocus
  split
  · exact ⟨_, rfl⟩
  · split
    · split <;> exact ⟨_, rfl⟩
    · exact ⟨_, rfl⟩

@[simp] theorem tabs_moveFocus (s : Layout) (tabId channelId : String) (root updated : PaneNode) :
    (s.moveFocus tabId channelId root updated).tabs = s.tabs := by
  obtain ⟨activePaneIds, h⟩ := s.exists_moveFocus tabId channelId root updated
  rw [h]

@[simp] theorem generated_moveFocus (s : Layout) (tabId channelId : String)
    (root updated : PaneNode) :
    (s.moveFocus tabId channelId root updated).generated = s.generated := by
  obtain ⟨activePaneIds, h⟩ := s.exists_moveFocus tabId channelId root updated
  rw [h]

@[simp] theorem layouts_moveFocus (s : Layout) (tabId channelId : String)
    (root updated : PaneNode) : (s.moveFocus tabId channelId root updated).layouts = s.layouts := by
  obtain ⟨activePaneIds, h⟩ := s.exists_moveFocus tabId channelId root updated
  rw [h]

/-- Only the tree of one tab changes, and to this one; `none` stands for no change at all. -/
def Becomes (s s' : Layout) (tabId : String) : Option PaneNode → Prop
  | none => s'.layouts = s.layouts ∧ s'.activePaneIds = s.activePaneIds
  | some root => s'.layouts = s.layouts.set tabId (some root)

theorem Becomes.get_of_ne {s' : Layout} {tabId tabId' : String} {root : Option PaneNode}
    (h : s.Becomes s' tabId root) (hne : tabId ≠ tabId') :
    s'.layouts.get tabId' = s.layouts.get tabId' := by
  cases root with
  | none => rw [h.1]
  | some root =>
    have hset : s'.layouts = s.layouts.set tabId (some root) := h
    rw [hset, OrderedMap.get_set_of_ne _ _ hne]

section Addressed

variable {c : Context Split Leaf} {l : Leaf} {channelId vacantId : String}

section

variable (htab : s.activeTab = some tab)
include htab

section

variable (hroot : s.root tab.id = some (Context.plug c (.leaf l)))
include hroot

theorem splitPane_eq
    (hfind : PaneNode.findChannelPath (Context.plug c (.leaf l)) channelId = some (Context.path c))
    (direction : Direction) : s.splitPane ids channelId direction =
      if (Context.plug c (.leaf l)).leaves.length ≥ MAX_PANE_COUNT then s
      else s.generateId.setRoot tab.id (Context.plug c
        (.split ⟨direction, 1 / 2⟩ (.leaf l) (.leaf (.vacant (s.nextId ids))))) := by
  rw [splitPane, onActiveTab_eq htab hroot, PaneNode.countLeaves_eq]
  simp only [hfind, PaneNode.getNodeAtPath, Context.get_plug, PaneNode.setNodeAtPath,
    Context.setAt_plug]

/-- The two operations that only close a hole. -/
theorem collapse_eq (find : PaneNode → Option NodePath)
    (hfind : find (Context.plug c (.leaf l)) = some (Context.path c)) :
    (s.onActiveTab fun tabId root ↦
      match find root with
      | none => s
      | some path =>
        match root.collapse path with
        | none => s
        | some newRoot => s.setRoot tabId newRoot) =
    match Context.close c with
    | none => s
    | some newRoot => s.setRoot tab.id newRoot := by
  rw [onActiveTab_eq htab hroot]
  simp only [hfind, PaneNode.collapse_plug]
  cases Context.close c <;> rfl

theorem unsplitPane_eq (hfind : PaneNode.findChannelPath (Context.plug c (.leaf l)) channelId
      = some (Context.path c)) :
    s.unsplitPane channelId =
      match Context.close c with
      | none => s
      | some newRoot => s.setRoot tab.id newRoot :=
  collapse_eq htab hroot (fun root ↦ root.findChannelPath channelId) hfind

theorem rearrangeVacant_eq
    (hfind : PaneNode.findVacantPath (Context.plug c (.leaf l)) vacantId = some (Context.path c)) :
    s.rearrangeVacant vacantId =
      match Context.close c with
      | none => s
      | some newRoot => s.setRoot tab.id newRoot :=
  collapse_eq htab hroot (fun root ↦ root.findVacantPath vacantId) hfind

theorem closePane_eq (hfind : PaneNode.findChannelPath (Context.plug c (.leaf l)) channelId
      = some (Context.path c)) :
    s.closePane ids channelId =
      match Context.close c with
      | none =>
        (s.generateId.setRoot tab.id (.leaf (.vacant (s.nextId ids)))).clearActivePaneId tab.id
      | some newRoot => (s.setRoot tab.id newRoot).moveFocus tab.id channelId
        (Context.plug c (.leaf l)) newRoot := by
  rw [closePane, onActiveTab_eq htab hroot]
  cases c with
  | nil => simp only [hfind, Context.path, List.map_nil, Context.close_nil]
  | cons f c =>
    have hclose : Context.close (f :: c) ≠ none := fun h ↦
      List.cons_ne_nil f c (Context.close_eq_none_iff.mp h)
    obtain ⟨newRoot, hnew⟩ := Option.ne_none_iff_exists'.mp hclose
    have hpath : PaneNode.findChannelPath (Context.plug (f :: c) (.leaf l)) channelId
      = some (f.turn :: Context.path c) := hfind
    have hcollapse : PaneNode.collapse (Context.plug (f :: c) (.leaf l))
      (f.turn :: Context.path c) = some newRoot := (PaneNode.collapse_plug (f :: c) _).trans hnew
    simp only [hpath, hcollapse, hnew]

end

end

theorem vacatePaneInTab_eq {tabId : String}
    (hroot : s.root tabId = some (Context.plug c (.leaf l)))
    (hfind : PaneNode.findChannelPath (Context.plug c (.leaf l)) channelId
      = some (Context.path c)) :
    s.vacatePaneInTab ids tabId channelId =
      (s.generateId.setRoot tabId (Context.plug c (.leaf (.vacant (s.nextId ids))))).moveFocus tabId
        channelId (Context.plug c (.leaf l)) (Context.plug c (.leaf (.vacant (s.nextId ids)))) := by
  have hreplace : PaneNode.replaceTerminalNode (Context.plug c (.leaf l)) channelId
      (.leaf (.vacant (s.nextId ids))) =
        some (Context.plug c (.leaf (.vacant (s.nextId ids)))) := by
    rw [PaneNode.findChannelPath] at hfind
    rw [PaneNode.replaceTerminalNode, replaceFirst_eq, hfind, Option.map_some, Context.setAt_plug]
  simp only [vacatePaneInTab, hroot, hreplace]

theorem vacatePane_eq (htab : s.activeTab = some tab) :
    s.vacatePane ids channelId = s.vacatePaneInTab ids tab.id channelId := by
  rw [vacatePane, htab]

theorem fillVacant_eq (htab : s.activeTab = some tab)
    (hroot : s.root tab.id = some (Context.plug c (.leaf l)))
    (hfind : PaneNode.findVacantPath (Context.plug c (.leaf l)) vacantId = some (Context.path c))
    (channelId : String) : s.fillVacant ids vacantId channelId =
      (s.generateId.setRoot tab.id (Context.plug c
        (.leaf (.terminal channelId (s.nextId ids))))).setActivePaneId tab.id (s.nextId ids) := by
  rw [fillVacant, onActiveTab_eq htab hroot]
  simp only [hfind, PaneNode.setNodeAtPath, Context.setAt_plug]

end Addressed

/-- Nothing has changed but for the number of ids generated. -/
structure Stays (s s' : Layout) : Prop where
  tabs : s'.tabs = s.tabs
  layouts : s'.layouts = s.layouts
  activePaneIds : s'.activePaneIds = s.activePaneIds
  generated : s.generated ≤ s'.generated

theorem Stays.refl (s : Layout) : Stays s s := ⟨rfl, rfl, rfl, le_rfl⟩

end Layout

namespace PaneEdit

open Layout

variable (ids : IdSource) {s : Layout} {tab : Tab} {c : Context Split Leaf} {l : Leaf}

theorem apply_becomes (e : PaneEdit) (htab : s.activeTab = some tab)
    (hroot : s.root tab.id = some (Context.plug c (.leaf l)))
    (hfind : (Context.plug c (.leaf l)).findPath e.addresses = some (Context.path c)) :
    s.Becomes (e.apply ids s) tab.id (e.result (s.nextId ids) c l) := by
  cases e with
  | splitPane channelId direction =>
    rw [apply, splitPane_eq ids htab hroot hfind, result]
    split
    · exact ⟨rfl, rfl⟩
    · rfl
  | unsplitPane channelId =>
    rw [apply, unsplitPane_eq htab hroot hfind, result]
    cases Context.close c with
    | none => exact ⟨rfl, rfl⟩
    | some newRoot => rfl
  | closePane channelId =>
    rw [apply, closePane_eq ids htab hroot hfind, result]
    cases Context.close c with
    | none => rfl
    | some newRoot => exact layouts_moveFocus ..
  | vacatePane channelId =>
    rw [apply, vacatePane_eq ids htab, vacatePaneInTab_eq ids hroot hfind, result]
    exact layouts_moveFocus ..
  | fillVacant vacantId channelId =>
    rw [apply, fillVacant_eq ids htab hroot hfind, result]
    rfl
  | rearrangeVacant vacantId =>
    rw [apply, rearrangeVacant_eq htab hroot hfind, result]
    cases Context.close c with
    | none => exact ⟨rfl, rfl⟩
    | some newRoot => rfl

/-- Without a leaf to be about, an edit does nothing. -/
theorem apply_of_unknown (e : PaneEdit) (h : ∀ tab root, s.activeTab = some tab →
      s.root tab.id = some root → root.findPath e.addresses = none) : Stays s (e.apply ids s) := by
  have hstay : ∀ f : String → PaneNode → Layout,
      (∀ tab root, s.activeTab = some tab → s.root tab.id = some root → f tab.id root = s) →
      Stays s (s.onActiveTab f) := fun f hf ↦ by
    rw [onActiveTab_eq_self hf]
    exact Stays.refl s
  cases e with
  | splitPane channelId direction =>
    rw [apply, Layout.splitPane]
    refine hstay _ fun tab root htab hroot ↦ ?_
    have hfind : root.findChannelPath channelId = none := h tab root htab hroot
    simp only [hfind, ite_self]
  | unsplitPane channelId =>
    rw [apply, Layout.unsplitPane]
    refine hstay _ fun tab root htab hroot ↦ ?_
    have hfind : root.findChannelPath channelId = none := h tab root htab hroot
    simp only [hfind]
  | closePane channelId =>
    rw [apply, Layout.closePane]
    refine hstay _ fun tab root htab hroot ↦ ?_
    have hfind : root.findChannelPath channelId = none := h tab root htab hroot
    simp only [hfind]
  | vacatePane channelId =>
    rw [apply, Layout.vacatePane]
    split
    · exact Stays.refl s
    · rename_i tab htab
      rw [vacatePaneInTab]
      split
      · exact Stays.refl s
      · rename_i root hroot
        have hfind : root.findPath (Leaf.shows channelId) = none := h tab root htab hroot
        rw [PaneNode.replaceTerminalNode, replaceFirst_eq, hfind]
        exact ⟨rfl, rfl, rfl, Nat.le_succ _⟩
  | fillVacant vacantId channelId =>
    rw [apply, Layout.fillVacant]
    refine hstay _ fun tab root htab hroot ↦ ?_
    have hfind : root.findVacantPath vacantId = none := h tab root htab hroot
    simp only [hfind]
  | rearrangeVacant vacantId =>
    rw [apply, Layout.rearrangeVacant]
    refine hstay _ fun tab root htab hroot ↦ ?_
    have hfind : root.findVacantPath vacantId = none := h tab root htab hroot
    simp only [hfind]

/-- An edit is about no leaf, or about the first that it can be about. -/
theorem apply_cases (s : Layout) (e : PaneEdit) :
    Stays s (e.apply ids s) ∨
    ∃ tab c l, s.activeTab = some tab ∧ s.root tab.id = some (Context.plug c (.leaf l)) ∧
      (Context.plug c (.leaf l)).findPath e.addresses = some (Context.path c) ∧
      e.addresses l = true ∧ ∀ b ∈ Context.before c, e.addresses b = false := by
  by_cases h : ∃ tab root path, s.activeTab = some tab ∧ s.root tab.id = some root ∧
      root.findPath e.addresses = some path
  · obtain ⟨tab, root, path, htab, hroot, hpath⟩ := h
    obtain ⟨c, l, rfl, rfl, hl, hbefore⟩ := exists_context_of_findPath hpath
    exact .inr ⟨tab, c, l, htab, hroot, hpath, hl, hbefore⟩
  · refine .inl (apply_of_unknown ids e fun tab root htab hroot ↦ ?_)
    rw [Option.eq_none_iff_forall_ne_some]
    exact fun path hpath ↦ h ⟨tab, root, path, htab, hroot, hpath⟩

/-- What an edit is to do: nothing if it is about no leaf of the tree in front; and else, with the
first leaf that it can be about and the context of that leaf, put the result in the place of the
tree. -/
structure IsLocal (s s' : Layout) (e : PaneEdit) : Prop where
  otherTabs : ∀ tabId, (∀ tab, s.activeTab = some tab → tab.id ≠ tabId) →
    s'.layouts.get tabId = s.layouts.get tabId
  unknown : (∀ tab root, s.activeTab = some tab → s.root tab.id = some root →
      ∀ l ∈ root.leaves, e.addresses l = false) →
    s'.layouts = s.layouts ∧ s'.activePaneIds = s.activePaneIds
  addressed : ∀ tab root, s.activeTab = some tab → s.root tab.id = some root →
    (∃ l ∈ root.leaves, e.addresses l = true) →
    ∃ c l, root = Context.plug c (.leaf l) ∧ e.addresses l = true ∧
      (∀ b ∈ Context.before c, e.addresses b = false) ∧
      root.leaves = Context.before c ++ [l] ++ Context.after c ∧
      s.Becomes s' tab.id (e.result (s.nextId ids) c l) ∧
      ∀ root', e.result (s.nextId ids) c l = some root' →
        root'.leaves = Context.before c ++ e.newLeaves (s.nextId ids) c l ++ Context.after c

/-- **Pane edits are local.** -/
theorem paneEdit_local (s : Layout) (e : PaneEdit) : IsLocal ids s (e.apply ids s) e where
  otherTabs tabId hother := by
    obtain hstays | ⟨tab, c, l, htab, hroot, hfind, -⟩ := apply_cases ids s e
    · rw [hstays.layouts]
    · exact (apply_becomes ids e htab hroot hfind).get_of_ne (hother tab htab)
  unknown h := by
    have hstays := apply_of_unknown ids e fun tab root htab hroot ↦
      findPath_eq_none_iff.mpr (h tab root htab hroot)
    exact ⟨hstays.layouts, hstays.activePaneIds⟩
  addressed tab root htab hroot hsome := by
    have hfound : root.findPath e.addresses ≠ none := by
      intro hnone
      obtain ⟨l, hl, htrue⟩ := hsome
      exact absurd (findPath_eq_none_iff.mp hnone l hl) (by rw [htrue]; decide)
    obtain ⟨path, hpath⟩ := Option.ne_none_iff_exists'.mp hfound
    obtain ⟨c, l, rfl, rfl, hl, hbefore⟩ := exists_context_of_findPath hpath
    exact ⟨c, l, rfl, hl, hbefore, Context.leaves_plug c _, apply_becomes ids e htab hroot hpath,
      fun root' ↦ leaves_result⟩

end PaneEdit

end Lasterm.Web
