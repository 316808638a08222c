import Lasterm.Web.LayoutStorage
import Lasterm.Web.PaneMoves
import Mathlib.Data.List.Perm.Subperm

/-!
# The invariant of the layout

A layout is well formed if no tab has more panes than are allowed, no id stands at two leaves, and
the trees and active panes belong to tabs (`Layout.WellFormed`). What an operation changes is one
tree, with the active pane of its tab, or which tabs there are; a lemma for each of the two kinds
says when the layout stays well formed (`Inv.change`, `Inv.restrict`).

A tree is changed around a leaf: what comes into its place has the id of the leaf, a new id, or both
(`Inv.edit`). The active pane needs more care, since it may be the leaf that goes. Operations with
`moveFocus` look after it, and `unsplitPane` does not.
-/

namespace Lasterm.Web

open SplitTree

/-- No later call of `generateId` returns this id. -/
def IdSource.Earlier (ids : IdSource) (n : ℕ) (id : String) : Prop := ∀ m, n ≤ m → ids.gen m ≠ id

namespace IdSource

variable {ids : IdSource} {n m : ℕ} {id : String}

theorem Earlier.mono (h : ids.Earlier n id) (hle : n ≤ m) : ids.Earlier m id :=
  fun k hk ↦ h k (hle.trans hk)

theorem earlier_gen (h : m < n) : ids.Earlier n (ids.gen m) :=
  fun _ hk heq ↦ absurd (ids.injective heq) (h.trans_le hk).ne'

end IdSource

namespace PaneNode

theorem leafIds_plug (c : Context Split Leaf) (t : PaneNode) :
    leafIds (Context.plug c t) = (Context.before c).map Leaf.leafId ++ t.leafIds ++
      (Context.after c).map Leaf.leafId := by
  rw [leafIds, Context.leaves_plug, List.map_append, List.map_append, leafIds]

variable {c : Context Split Leaf}

theorem paneIds_of_leaves {root : PaneNode} {news : List Leaf}
    (h : root.leaves = Context.before c ++ news ++ Context.after c) {paneId : String} :
    paneId ∈ root.paneIds ↔ paneId ∈ (Context.before c ++ Context.after c).flatMap Leaf.paneIds ∨
      paneId ∈ news.flatMap Leaf.paneIds := by
  rw [paneIds, h]
  simp only [List.flatMap_append, List.mem_append]
  tauto

theorem ne_leafId_of_mem_around {l : Leaf} {paneId : String}
    (h : (leafIds (Context.plug c (.leaf l))).Nodup)
    (hpane : paneId ∈ (Context.before c ++ Context.after c).flatMap Leaf.paneIds) :
    paneId ≠ l.leafId := by
  rintro rfl
  rw [leafIds, Context.leaves_plug, leaves_leaf, List.append_assoc, List.singleton_append,
    List.map_append, List.map_cons, List.nodup_middle, ← List.map_append, List.nodup_cons] at h
  obtain ⟨other, hother, hid⟩ := List.mem_flatMap.mp hpane
  cases other with
  | vacant id => cases hid
  | terminal channelId paneId' =>
    have hmem := List.mem_map_of_mem (f := Leaf.leafId) hother
    rw [show Leaf.leafId (.terminal channelId paneId') = l.leafId from
      (List.mem_singleton.mp hid).symm] at hmem
    exact h.1 hmem

/-- The channel that a leaf shows, if it is the pane with this id. -/
def channelAt (paneId : String) : Leaf → Option String
  | .terminal channelId paneId' => if paneId' = paneId then some channelId else none
  | .vacant _ => none

theorem findChannelByPaneId_eq (paneId : String) (root : PaneNode) :
    root.findChannelByPaneId paneId = root.leaves.findSome? (channelAt paneId) := by
  induction root with
  | leaf l =>
    rw [leaves_leaf, List.findSome?_singleton]
    cases l <;> rfl
  | split label first second ihfirst ihsecond =>
    rw [findChannelByPaneId, leaves_split, List.findSome?_append, ihfirst, ihsecond,
      Option.orElse_eq_orElse, Option.orElse_eq_or]

/-- Where ids are distinct, a pane is found at its place. -/
theorem findChannelByPaneId_plug {channelId paneId : String}
    (h : (leafIds (Context.plug c (.leaf (.terminal channelId paneId)))).Nodup) :
    findChannelByPaneId paneId (Context.plug c (.leaf (.terminal channelId paneId)))
      = some channelId := by
  have hbefore : (Context.before c).findSome? (channelAt paneId) = none := by
    refine List.findSome?_eq_none_iff.mpr fun l hl ↦ ?_
    cases l with
    | vacant id => rfl
    | terminal channelId' paneId' =>
      refine if_neg fun heq ↦ ?_
      rw [leafIds_plug, List.append_assoc] at h
      exact List.disjoint_of_nodup_append h (List.mem_map_of_mem (f := Leaf.leafId) hl)
        (heq ▸ List.mem_append_left _ (List.mem_singleton_self _))
  rw [findChannelByPaneId_eq, Context.leaves_plug, List.findSome?_append, List.findSome?_append,
    hbefore, leaves_leaf, List.findSome?_singleton, channelAt, if_pos rfl]
  rfl

end PaneNode

namespace Layout

/-- What the layout owes: few panes, distinct ids, and trees and active panes only of tabs that are
there. -/
structure WellFormed (s : Layout) : Prop where
  atMostFour : ∀ tabId root, s.root tabId = some root → root.leaves.length ≤ MAX_PANE_COUNT
  nodup : ∀ tabId root, s.root tabId = some root → root.leafIds.Nodup
  disjoint : ∀ tabId tabId' root root' id, s.root tabId = some root → s.root tabId' = some root' →
    id ∈ root.leafIds → id ∈ root'.leafIds → tabId = tabId'
  active : ∀ tabId paneId, s.activePaneIds.get tabId = some paneId →
    ∃ root, s.root tabId = some root ∧ paneId ∈ root.paneIds
  layoutsOfTabs : ∀ tabId tree, s.layouts.get tabId = some tree → tabId ∈ s.tabIds
  activeOfTabs : ∀ tabId paneId, s.activePaneIds.get tabId = some paneId → tabId ∈ s.tabIds

/-- Well-formed, and `generateId` will not return what stands in a tree. -/
structure Inv (ids : IdSource) (s : Layout) : Prop extends WellFormed s where
  named : ∀ tabId root paneId, s.root tabId = some root → paneId ∈ root.paneIds → paneId ≠ ""
  earlier : ∀ tabId root id, s.root tabId = some root → id ∈ root.leafIds →
    ids.Earlier s.generated id

section Change

variable {ids : IdSource} {s s' : Layout} {tabId : String} {new : PaneNode}

section

variable (hlayouts : s'.layouts = s.layouts.set tabId (some new))
include hlayouts

theorem root_of_set {tabId' : String} (hne : tabId ≠ tabId') :
    s'.root tabId' = s.root tabId' := by
  rw [root, hlayouts, OrderedMap.get_set_of_ne _ _ hne, root]

theorem root_of_set_self :
    s'.root tabId = some new := by
  rw [root, hlayouts, OrderedMap.get_set_self, Option.join_some]

/-- A fact about every tree of the new layout is one about the new tree and one about the others. -/
theorem forall_root_of_set {P : String → PaneNode → Prop} (hnew : P tabId new)
    (hold : ∀ tabId' root, tabId ≠ tabId' → s.root tabId' = some root → P tabId' root)
    (tabId' : String) (root : PaneNode) (hroot : s'.root tabId' = some root) : P tabId' root := by
  by_cases htabId : tabId = tabId'
  · subst htabId
    cases (root_of_set_self hlayouts).symm.trans hroot
    exact hnew
  · exact hold tabId' root htabId (root_of_set hlayouts htabId ▸ hroot)

end

/-- Trees stay disjoint if the new one has nothing of the others. -/
theorem disjoint_of_set (f : PaneNode → List String)
    (hlayouts : s'.layouts = s.layouts.set tabId (some new))
    (hold : ∀ tabId₁ tabId₂ root₁ root₂ id, s.root tabId₁ = some root₁ →
      s.root tabId₂ = some root₂ → id ∈ f root₁ → id ∈ f root₂ → tabId₁ = tabId₂)
    (hforeign : ∀ tabId' root id, tabId ≠ tabId' → s.root tabId' = some root → id ∈ f root →
      id ∉ f new) (tabId₁ tabId₂ : String) (root₁ root₂ : PaneNode) (id : String)
    (hroot₁ : s'.root tabId₁ = some root₁) (hroot₂ : s'.root tabId₂ = some root₂)
    (hid₁ : id ∈ f root₁) (hid₂ : id ∈ f root₂) : tabId₁ = tabId₂ := by
  have hself := root_of_set_self hlayouts
  by_cases h₁ : tabId = tabId₁
  · by_cases h₂ : tabId = tabId₂
    · exact h₁.symm.trans h₂
    · subst h₁
      cases hself.symm.trans hroot₁
      exact absurd hid₁ (hforeign _ _ _ h₂ (root_of_set hlayouts h₂ ▸ hroot₂) hid₂)
  · by_cases h₂ : tabId = tabId₂
    · subst h₂
      cases hself.symm.trans hroot₂
      exact absurd hid₂ (hforeign _ _ _ h₁ (root_of_set hlayouts h₁ ▸ hroot₁) hid₁)
    · exact hold _ _ _ _ _ (root_of_set hlayouts h₁ ▸ hroot₁)
        (root_of_set hlayouts h₂ ▸ hroot₂) hid₁ hid₂

/-- A tab that is there or new gets another tree. What is new in it are ids that were generated on
the way. -/
theorem Inv.change (h : Inv ids s) (htabs : ∀ tabId' ∈ s.tabIds, tabId' ∈ s'.tabIds)
    (htab : tabId ∈ s'.tabIds) (hlayouts : s'.layouts = s.layouts.set tabId (some new))
    (hgenerated : s.generated ≤ s'.generated)
    (hcount : new.leaves.length ≤ MAX_PANE_COUNT) (hnodup : new.leafIds.Nodup)
    (hids : ∀ id ∈ new.leafIds, (∃ root, s.root tabId = some root ∧ id ∈ root.leafIds) ∨
      ∃ m, s.generated ≤ m ∧ m < s'.generated ∧ ids.gen m = id)
    (hnamed : ∀ paneId ∈ new.paneIds, paneId ≠ "")
    (hother : ∀ tabId', tabId ≠ tabId' →
      s'.activePaneIds.get tabId' = s.activePaneIds.get tabId')
    (hactive : ∀ paneId, s'.activePaneIds.get tabId = some paneId → paneId ∈ new.paneIds) :
    Inv ids s' := by
  have hself := root_of_set_self hlayouts
  have hforeign : ∀ tabId' root id, tabId ≠ tabId' → s.root tabId' = some root →
      id ∈ root.leafIds → id ∉ new.leafIds := by
    intro tabId' root id hne hroot hid hmem
    obtain ⟨old, hold, hidOld⟩ | ⟨m, hm, -, rfl⟩ := hids id hmem
    · exact hne (h.disjoint _ _ _ _ _ hold hroot hidOld hid)
    · exact h.earlier _ _ _ hroot hid m hm rfl
  refine ⟨⟨?_, ?_, ?_, ?_, ?_, ?_⟩, ?_, ?_⟩
  · exact forall_root_of_set (P := fun _ root ↦ root.leaves.length ≤ MAX_PANE_COUNT) hlayouts hcount
      fun tabId' root _ ↦ h.atMostFour tabId' root
  · exact forall_root_of_set (P := fun _ root ↦ root.leafIds.Nodup) hlayouts hnodup
      fun tabId' root _ ↦ h.nodup tabId' root
  · exact disjoint_of_set PaneNode.leafIds hlayouts h.disjoint hforeign
  · intro tabId' paneId hpane
    by_cases htabId : tabId = tabId'
    · subst htabId
      exact ⟨new, hself, hactive paneId hpane⟩
    · rw [hother tabId' htabId] at hpane
      rw [root_of_set hlayouts htabId]
      exact h.active tabId' paneId hpane
  · intro tabId' tree hget
    by_cases htabId : tabId = tabId'
    · exact htabId ▸ htab
    · rw [hlayouts, OrderedMap.get_set_of_ne _ _ htabId] at hget
      exact htabs _ (h.layoutsOfTabs tabId' tree hget)
  · intro tabId' paneId hpane
    by_cases htabId : tabId = tabId'
    · exact htabId ▸ htab
    · exact htabs _ (h.activeOfTabs tabId' paneId (hother tabId' htabId ▸ hpane))
  · exact fun tabId' root paneId hroot hpane ↦ forall_root_of_set
      (P := fun _ root ↦ ∀ paneId ∈ root.paneIds, paneId ≠ "") hlayouts hnamed
      (fun tabId' root _ hroot paneId hp ↦ h.named tabId' root paneId hroot hp) tabId' root hroot
      paneId hpane
  · refine fun tabId' root id hroot hid ↦ forall_root_of_set
      (P := fun _ root ↦ ∀ id ∈ root.leafIds, ids.Earlier s'.generated id) hlayouts
      (fun id hmem ↦ ?_)
      (fun tabId' root _ hroot id hid ↦ (h.earlier tabId' root id hroot hid).mono hgenerated)
      tabId' root hroot id hid
    obtain ⟨old, hold, hidOld⟩ | ⟨m, -, hm, rfl⟩ := hids id hmem
    · exact (h.earlier _ _ _ hold hidOld).mono hgenerated
    · exact IdSource.earlier_gen hm

/-- Tabs go, and with them their trees and active panes, or all stay as they are. -/
theorem Inv.restrict (h : Inv ids s) (hgenerated : s.generated ≤ s'.generated)
    (hlayouts : ∀ tabId tree, s'.layouts.get tabId = some tree →
      s.layouts.get tabId = some tree ∧ tabId ∈ s'.tabIds)
    (hactive : ∀ tabId paneId, s'.activePaneIds.get tabId = some paneId →
      s.activePaneIds.get tabId = some paneId ∧ tabId ∈ s'.tabIds ∧ s'.root tabId = s.root tabId) :
    Inv ids s' := by
  have hroot : ∀ {tabId root}, s'.root tabId = some root → s.root tabId = some root := by
    intro tabId root hroot
    obtain ⟨hget, -⟩ := hlayouts tabId _ (get_eq_of_root hroot)
    exact Option.join_eq_some_iff.mpr hget
  refine ⟨⟨?_, ?_, ?_, ?_, ?_, ?_⟩, ?_, ?_⟩
  · exact fun tabId root hr ↦ h.atMostFour tabId root (hroot hr)
  · exact fun tabId root hr ↦ h.nodup tabId root (hroot hr)
  · exact fun tabId tabId' root root' id hr hr' ↦ h.disjoint _ _ _ _ id (hroot hr) (hroot hr')
  · intro tabId paneId hpane
    obtain ⟨hold, -, hsame⟩ := hactive tabId paneId hpane
    rw [hsame]
    exact h.active tabId paneId hold
  · exact fun tabId tree hget ↦ (hlayouts tabId tree hget).2
  · exact fun tabId paneId hpane ↦ (hactive tabId paneId hpane).2.1
  · exact fun tabId root paneId hr ↦ h.named tabId root paneId (hroot hr)
  · exact fun tabId root id hr hid ↦ (h.earlier tabId root id (hroot hr) hid).mono hgenerated

/-- The index of the tab in front and the order of the tabs are of no account. -/
theorem Inv.of_same (h : Inv ids s) (htabs : ∀ tabId ∈ s.tabIds, tabId ∈ s'.tabIds)
    (hlayouts : s'.layouts = s.layouts) (hactive : s'.activePaneIds = s.activePaneIds)
    (hgenerated : s.generated ≤ s'.generated) : Inv ids s' := by
  have hroot : ∀ tabId, s'.root tabId = s.root tabId := fun tabId ↦ by rw [root, hlayouts, root]
  refine h.restrict hgenerated (fun tabId tree hget ↦ ?_) fun tabId paneId hpane ↦ ?_
  · rw [hlayouts] at hget
    exact ⟨hget, htabs tabId (h.layoutsOfTabs tabId tree hget)⟩
  · rw [hactive] at hpane
    exact ⟨hpane, htabs tabId (h.activeOfTabs tabId paneId hpane), hroot tabId⟩

theorem Inv.stays (h : Inv ids s) (hstays : Stays s s') : Inv ids s' :=
  h.of_same (fun tabId htab ↦ by rwa [tabIds, hstays.tabs]) hstays.layouts hstays.activePaneIds
    hstays.generated

end Change

/-! ## Edits around a leaf -/

/-- Between the same neighbours an id and a new one can stand where the id stood alone, in either
order, or less. -/
theorem nodup_of_subperm {before after news : List String} {old new : String}
    (h : (before ++ [old] ++ after).Nodup) (hnew : new ∉ before ++ [old] ++ after)
    (hnews : news.Subperm [old, new]) : (before ++ news ++ after).Nodup := by
  have hboth : (before ++ [old, new] ++ after).Nodup := by
    have hperm : (before ++ [old, new] ++ after).Perm (new :: (before ++ [old] ++ after)) := by
      rw [List.perm_iff_count]
      intro id
      simp only [List.count_append, List.count_cons, List.count_nil]
      omega
    exact hperm.nodup_iff.mpr (List.nodup_cons.mpr ⟨hnew, h⟩)
  obtain ⟨news', hperm, hsub⟩ := hnews
  have hsublist : (before ++ news' ++ after).Sublist (before ++ [old, new] ++ after) :=
    ((List.Sublist.refl before).append hsub).append (List.Sublist.refl after)
  exact ((List.Perm.append_left before hperm).append_right after).nodup_iff.mp
    (hboth.sublist hsublist)

section Edit

variable {ids : IdSource} {s s' : Layout} {tabId : String} {c : Context Split Leaf} {l : Leaf}
  {new : PaneNode} {news : List Leaf}

/-- The ids of leaves that come into the place of one: its own, a new one, or both. -/
structure NewLeaves (ids : IdSource) (s : Layout) (l : Leaf) (news : List Leaf) : Prop where
  leafIds : (news.map Leaf.leafId).Subperm [l.leafId, s.nextId ids]
  paneIds : ∀ paneId ∈ news.flatMap Leaf.paneIds, paneId = s.nextId ids ∨ paneId ∈ l.paneIds

theorem Inv.edit (h : Inv ids s) (hroot : s.root tabId = some (Context.plug c (.leaf l)))
    (htabs : s'.tabs = s.tabs) (hlayouts : s'.layouts = s.layouts.set tabId (some new))
    (hleaves : new.leaves = Context.before c ++ news ++ Context.after c)
    (hnews : NewLeaves ids s l news) (hgenerated : s.generated ≤ s'.generated)
    (hfresh : s.nextId ids ∈ news.map Leaf.leafId → s.generated < s'.generated)
    (hcount : new.leaves.length ≤ MAX_PANE_COUNT)
    (hother : ∀ tabId', tabId ≠ tabId' →
      s'.activePaneIds.get tabId' = s.activePaneIds.get tabId')
    (hactive : ∀ paneId, s'.activePaneIds.get tabId = some paneId → paneId ∈ new.paneIds) :
    Inv ids s' := by
  have htabIds : s'.tabIds = s.tabIds := by rw [tabIds, htabs, tabIds]
  have hold := PaneNode.leafIds_plug c (.leaf l)
  have hnew : new.leafIds = (Context.before c).map Leaf.leafId ++ news.map Leaf.leafId ++
      (Context.after c).map Leaf.leafId := by
    rw [PaneNode.leafIds, hleaves, List.map_append, List.map_append]
  have hnext : s.nextId ids ∉ (Context.before c).map Leaf.leafId ++ [l.leafId] ++
      (Context.after c).map Leaf.leafId := fun hmem ↦
    h.earlier _ _ _ hroot (hold ▸ hmem) s.generated le_rfl rfl
  refine h.change (fun tabId' htab ↦ htabIds ▸ htab)
    (htabIds ▸ h.layoutsOfTabs tabId _ (get_eq_of_root hroot)) hlayouts hgenerated hcount ?_ ?_ ?_
    hother hactive
  · rw [hnew]
    exact nodup_of_subperm (hold ▸ h.nodup _ _ hroot) hnext hnews.leafIds
  · intro id hid
    have holdId : ∀ id ∈ (Context.before c).map Leaf.leafId ++ [l.leafId] ++
        (Context.after c).map Leaf.leafId, ∃ root, s.root tabId = some root ∧ id ∈ root.leafIds :=
      fun id hmem ↦ ⟨_, hroot, hold ▸ hmem⟩
    rw [hnew, List.append_assoc, List.mem_append, List.mem_append] at hid
    obtain hbefore | hmem | hafter := hid
    · exact .inl (holdId id (by simp only [List.mem_append]; exact .inl (.inl hbefore)))
    · obtain rfl | hmem' := List.mem_cons.mp (List.Subperm.subset hnews.leafIds hmem)
      · exact .inl (holdId _ (by simp))
      · cases List.mem_singleton.mp hmem'
        exact .inr ⟨s.generated, le_rfl, hfresh hmem, rfl⟩
    · exact .inl (holdId id (by simp only [List.mem_append]; exact .inr hafter))
  · intro paneId hpane
    have holdPane : ∀ paneId ∈ (Context.before c ++ [l] ++ Context.after c).flatMap Leaf.paneIds,
        paneId ≠ "" := fun paneId hmem ↦
      h.named _ _ _ hroot (by rw [PaneNode.paneIds, Context.leaves_plug]; exact hmem)
    rw [PaneNode.paneIds, hleaves, List.flatMap_append, List.flatMap_append, List.mem_append,
      List.mem_append] at hpane
    obtain (hbefore | hmem) | hafter := hpane
    · exact holdPane paneId (by
        simp only [List.flatMap_append, List.mem_append]; exact .inl (.inl hbefore))
    · obtain rfl | hmem := hnews.paneIds paneId hmem
      · exact ids.ne_empty _
      · exact holdPane paneId (by
          simp only [List.flatMap_append, List.flatMap_singleton, List.mem_append]
          exact .inl (.inr hmem))
    · exact holdPane paneId (by
        simp only [List.flatMap_append, List.mem_append]; exact .inr hafter)

end Edit

/-! ## The focus -/

section Focus

variable {ids : IdSource} {s : Layout} {tabId channelId paneId : String} {c : Context Split Leaf}
  {updated : PaneNode}

theorem get_moveFocus_of_ne {tabId' : String} (s : Layout) (channelId : String)
    (root updated : PaneNode) (hne : tabId ≠ tabId') :
    (s.moveFocus tabId channelId root updated).activePaneIds.get tabId'
      = s.activePaneIds.get tabId' := by
  unfold moveFocus
  split
  · rfl
  · split
    · split
      · exact OrderedMap.get_set_of_ne _ _ hne
      · exact OrderedMap.get_delete_of_ne _ hne
    · rfl

/-- If the active pane is the one that goes, the first of the new tree becomes active, and if not,
it stays where it is. -/
theorem mem_paneIds_of_moveFocus
    (hnodup : (PaneNode.leafIds (Context.plug c (.leaf (.terminal channelId paneId)))).Nodup)
    (hold : ∀ paneId', s.activePaneIds.get tabId = some paneId' →
      paneId' ∈ PaneNode.paneIds (Context.plug c (.leaf (.terminal channelId paneId))))
    (hkept : ∀ paneId' ∈ PaneNode.paneIds (Context.plug c (.leaf (.terminal channelId paneId))),
      paneId' ≠ paneId → paneId' ∈ updated.paneIds)
    {paneId' : String} (hget : (s.moveFocus tabId channelId
      (Context.plug c (.leaf (.terminal channelId paneId))) updated).activePaneIds.get tabId
        = some paneId') : paneId' ∈ updated.paneIds := by
  unfold moveFocus at hget
  split at hget
  · rename_i hnone
    rw [hnone] at hget
    cases hget
  · rename_i activePaneId hactive
    split at hget
    · split at hget
      · rename_i newActive hfirst
        rw [PaneNode.findFirstLeafPaneId_eq] at hfirst
        rw [setActivePaneId, OrderedMap.get_set_self] at hget
        cases hget
        exact List.mem_of_head? hfirst
      · rw [clearActivePaneId, OrderedMap.get_delete_self] at hget
        cases hget
    · rename_i hother
      cases hactive.symm.trans hget
      refine hkept _ (hold _ hactive) ?_
      rintro rfl
      exact hother (PaneNode.findChannelByPaneId_plug hnodup)

end Focus

/-! ## Edits of the tree in front -/

section PaneEdits

variable {ids : IdSource} {s s' : Layout} {tab : Tab} {c : Context Split Leaf} {l : Leaf}
  {new : PaneNode}

theorem newLeaves_edit (ids : IdSource) (s : Layout) (c : Context Split Leaf) (l : Leaf)
    (e : PaneEdit) : NewLeaves ids s l (e.newLeaves (s.nextId ids) c l) := by
  have hnext : [s.nextId ids].Subperm [l.leafId, s.nextId ids] :=
    (List.sublist_cons_self _ _).subperm
  cases e with
  | splitPane channelId direction =>
    refine ⟨List.Subperm.refl _, fun paneId hpane ↦ .inr ?_⟩
    simpa [PaneEdit.newLeaves, Leaf.paneIds] using hpane
  | unsplitPane channelId => exact ⟨List.nil_subperm, fun paneId hpane ↦ by cases hpane⟩
  | closePane channelId =>
    rw [PaneEdit.newLeaves]
    split
    · exact ⟨hnext, fun paneId hpane ↦ by cases hpane⟩
    · exact ⟨List.nil_subperm, fun paneId hpane ↦ by cases hpane⟩
  | vacatePane channelId => exact ⟨hnext, fun paneId hpane ↦ by cases hpane⟩
  | fillVacant vacantId channelId =>
    exact ⟨hnext, fun paneId hpane ↦ .inl (List.mem_singleton.mp hpane)⟩
  | rearrangeVacant vacantId => exact ⟨List.nil_subperm, fun paneId hpane ↦ by cases hpane⟩

/-- A split is made below the limit only, and no other edit adds a pane. -/
theorem length_result {newId : String} {e : PaneEdit} (h : e.result newId c l = some new)
    (hold : (Context.plug c (.leaf l)).leaves.length ≤ MAX_PANE_COUNT) :
    new.leaves.length ≤ MAX_PANE_COUNT := by
  have hnew := congrArg List.length (PaneEdit.leaves_result h)
  rw [Context.leaves_plug, leaves_leaf] at hold
  simp only [List.length_append, List.length_singleton] at hnew hold
  cases e with
  | splitPane channelId direction =>
    rw [PaneEdit.result] at h
    split at h
    · cases h
    · rename_i hfull
      rw [Context.leaves_plug] at hfull
      simp only [List.length_append, PaneEdit.newLeaves, List.length_cons,
        List.length_nil, leaves_leaf] at hnew hfull
      omega
  | unsplitPane channelId => simp only [PaneEdit.newLeaves, List.length_nil] at hnew; omega
  | closePane channelId =>
    rw [PaneEdit.newLeaves] at hnew
    split at hnew <;> simp only [List.length_singleton, List.length_nil] at hnew <;> omega
  | vacatePane channelId => simp only [PaneEdit.newLeaves, List.length_singleton] at hnew; omega
  | fillVacant vacantId channelId =>
    simp only [PaneEdit.newLeaves, List.length_singleton] at hnew; omega
  | rearrangeVacant vacantId => simp only [PaneEdit.newLeaves, List.length_nil] at hnew; omega

theorem Inv.paneEdit (h : Inv ids s) {tabId : String}
    (hroot : s.root tabId = some (Context.plug c (.leaf l))) {e : PaneEdit}
    (hresult : e.result (s.nextId ids) c l = some new) (htabs : s'.tabs = s.tabs)
    (hlayouts : s'.layouts = s.layouts.set tabId (some new))
    (hgenerated : s.generated ≤ s'.generated)
    (hfresh : e.newLeaves (s.nextId ids) c l = [] ∨ s.generated < s'.generated)
    (hother : ∀ tabId', tabId ≠ tabId' →
      s'.activePaneIds.get tabId' = s.activePaneIds.get tabId')
    (hactive : ∀ paneId, s'.activePaneIds.get tabId = some paneId → paneId ∈ new.paneIds) :
    Inv ids s' := by
  refine h.edit hroot htabs hlayouts (PaneEdit.leaves_result hresult) (newLeaves_edit ids s c l e)
    hgenerated (fun hmem ↦ ?_) (length_result hresult (h.atMostFour _ _ hroot)) hother hactive
  obtain hnil | hlt := hfresh
  · rw [hnil] at hmem
    cases hmem
  · exact hlt

/-- The active pane of a tab that an edit leaves active, where its leaf is left or another one goes.
-/
theorem Inv.active_of_kept (h : Inv ids s) {tabId : String}
    (hroot : s.root tabId = some (Context.plug c (.leaf l))) {news : List Leaf}
    (hleaves : new.leaves = Context.before c ++ news ++ Context.after c)
    (hkept : ∀ paneId ∈ l.paneIds, s.activePaneIds.get tabId = some paneId →
      paneId ∈ news.flatMap Leaf.paneIds)
    (paneId : String) (hget : s.activePaneIds.get tabId = some paneId) : paneId ∈ new.paneIds := by
  obtain ⟨root, hroot', hpane⟩ := h.active tabId paneId hget
  cases hroot.symm.trans hroot'
  obtain haround | hl := (PaneNode.paneIds_of_leaves (Context.leaves_plug c _)).mp hpane
  · exact (PaneNode.paneIds_of_leaves hleaves).mpr (.inl haround)
  · rw [leaves_leaf, List.flatMap_singleton] at hl
    exact (PaneNode.paneIds_of_leaves hleaves).mpr (.inr (hkept paneId hl hget))

/-- What comes in place of a pane leaves the other panes. -/
theorem mem_paneIds_of_ne {news : List Leaf} {channelId paneId paneId' : String}
    (hleaves : new.leaves = Context.before c ++ news ++ Context.after c)
    (hpane : paneId' ∈ PaneNode.paneIds (Context.plug c (.leaf (.terminal channelId paneId))))
    (hne : paneId' ≠ paneId) : paneId' ∈ new.paneIds := by
  obtain haround | hself := (PaneNode.paneIds_of_leaves (Context.leaves_plug c _)).mp hpane
  · exact (PaneNode.paneIds_of_leaves hleaves).mpr (.inl haround)
  · exact absurd (List.mem_singleton.mp hself) hne

section

variable (h : Inv ids s)
include h

/-- The focus after an edit that takes a pane away and looks after the focus. -/
theorem Inv.moveFocus {s₁ : Layout} {tabId channelId paneId : String} {e : PaneEdit}
    (hroot : s.root tabId = some (Context.plug c (.leaf (.terminal channelId paneId))))
    (hresult : e.result (s.nextId ids) c (.terminal channelId paneId) = some new)
    (htabs : s₁.tabs = s.tabs) (hlayouts : s₁.layouts = s.layouts.set tabId (some new))
    (hactive : s₁.activePaneIds = s.activePaneIds) (hgenerated : s.generated ≤ s₁.generated)
    (hfresh : e.newLeaves (s.nextId ids) c (.terminal channelId paneId) = [] ∨
      s.generated < s₁.generated) :
    Inv ids (s₁.moveFocus tabId channelId
      (Context.plug c (.leaf (.terminal channelId paneId))) new) := by
  refine h.paneEdit hroot hresult ((tabs_moveFocus ..).trans htabs)
    ((layouts_moveFocus ..).trans hlayouts) ((generated_moveFocus ..).symm ▸ hgenerated)
    ((generated_moveFocus ..).symm ▸ hfresh) (fun tabId' hne ↦ ?_) fun paneId' hget ↦ ?_
  · rw [get_moveFocus_of_ne s₁ channelId _ _ hne, hactive]
  · refine mem_paneIds_of_moveFocus (h.nodup _ _ hroot) (fun paneId' hget ↦ ?_)
      (fun paneId' ↦ mem_paneIds_of_ne (PaneEdit.leaves_result hresult)) hget
    rw [hactive] at hget
    obtain ⟨root, hroot', hpane⟩ := h.active tabId paneId' hget
    cases hroot.symm.trans hroot'
    exact hpane

theorem Inv.vacatePaneInTab {tabId channelId paneId : String}
    (hroot : s.root tabId = some (Context.plug c (.leaf (.terminal channelId paneId))))
    (hfind : PaneNode.findChannelPath (Context.plug c (.leaf (.terminal channelId paneId)))
      channelId = some (Context.path c)) : Inv ids (s.vacatePaneInTab ids tabId channelId) := by
  rw [vacatePaneInTab_eq ids hroot hfind]
  exact h.moveFocus (e := .vacatePane channelId) hroot rfl rfl rfl rfl (Nat.le_succ _)
    (.inr (Nat.lt_succ_self _))

theorem Inv.splitPane {channelId : String} (htab : s.activeTab = some tab)
    (hroot : s.root tab.id = some (Context.plug c (.leaf l)))
    (hfind : PaneNode.findChannelPath (Context.plug c (.leaf l)) channelId = some (Context.path c))
    (direction : Direction) : Inv ids (s.splitPane ids channelId direction) := by
  rw [splitPane_eq ids htab hroot hfind]
  split
  · exact h
  · rename_i hfull
    have hresult : (PaneEdit.splitPane channelId direction).result (s.nextId ids) c l
      = some (Context.plug c (.split ⟨direction, 1 / 2⟩ (.leaf l)
        (.leaf (.vacant (s.nextId ids))))) := if_neg hfull
    refine h.paneEdit (e := .splitPane channelId direction) hroot hresult rfl rfl (Nat.le_succ _)
      (.inr (Nat.lt_succ_self _)) (fun _ _ ↦ rfl) ?_
    exact h.active_of_kept hroot (PaneEdit.leaves_result (e := .splitPane channelId direction)
      hresult) fun paneId hpane _ ↦ List.mem_append_left _ hpane

/-- A split is collapsed over a leaf that is not the active pane. -/
theorem Inv.collapse (hroot : s.root tab.id = some (Context.plug c (.leaf l)))
    (hother : ∀ paneId ∈ l.paneIds, Context.close c ≠ none →
      s.activePaneIds.get tab.id ≠ some paneId) :
    Inv ids (match Context.close c with
      | none => s
      | some newRoot => s.setRoot tab.id newRoot) := by
  cases hclose : Context.close c with
  | none => exact h
  | some newRoot =>
    refine h.paneEdit (e := .unsplitPane "") hroot hclose rfl rfl le_rfl (.inl rfl)
      (fun _ _ ↦ rfl) ?_
    have hleaves : newRoot.leaves = Context.before c ++
        (PaneEdit.unsplitPane "").newLeaves (s.nextId ids) c l ++ Context.after c :=
      PaneEdit.leaves_result hclose
    refine h.active_of_kept hroot hleaves fun paneId hpane hget ↦ ?_
    exact absurd hget (hother paneId hpane (hclose ▸ Option.some_ne_none newRoot))

theorem Inv.closePane {channelId paneId : String} (htab : s.activeTab = some tab)
    (hroot : s.root tab.id = some (Context.plug c (.leaf (.terminal channelId paneId))))
    (hfind : PaneNode.findChannelPath (Context.plug c (.leaf (.terminal channelId paneId)))
      channelId = some (Context.path c)) : Inv ids (s.closePane ids channelId) := by
  rw [closePane_eq ids htab hroot hfind]
  have hresult : (PaneEdit.closePane channelId).result (s.nextId ids) c (.terminal channelId paneId)
      = some ((Context.close c).getD (.leaf (.vacant (s.nextId ids)))) := rfl
  cases hclose : Context.close c with
  | none =>
    rw [hclose] at hresult
    refine h.paneEdit hroot hresult rfl rfl (Nat.le_succ _) (.inr (Nat.lt_succ_self _))
      (fun tabId' hne ↦ OrderedMap.get_delete_of_ne _ hne) fun paneId' hget ↦ ?_
    cases (OrderedMap.get_delete_self _ _).symm.trans hget
  | some newRoot =>
    rw [hclose] at hresult
    have hne : c ≠ [] := fun hnil ↦ by
      rw [hnil] at hclose
      cases hclose
    exact h.moveFocus hroot hresult rfl rfl rfl le_rfl (.inl (if_neg hne))

theorem Inv.fillVacant {vacantId : String} (htab : s.activeTab = some tab)
    (hroot : s.root tab.id = some (Context.plug c (.leaf l)))
    (hfind : PaneNode.findVacantPath (Context.plug c (.leaf l)) vacantId = some (Context.path c))
    (channelId : String) : Inv ids (s.fillVacant ids vacantId channelId) := by
  rw [fillVacant_eq ids htab hroot hfind]
  refine h.paneEdit (e := .fillVacant vacantId channelId) hroot rfl rfl rfl (Nat.le_succ _)
    (.inr (Nat.lt_succ_self _)) (fun tabId' hne ↦ OrderedMap.get_set_of_ne _ _ hne)
    fun paneId hget ↦ ?_
  cases (OrderedMap.get_set_self _ _ _).symm.trans hget
  exact (PaneNode.paneIds_of_leaves (Context.leaves_plug c _)).mpr
    (.inr (List.mem_singleton_self _))

end

end PaneEdits

end Layout

namespace PaneEdit

open Layout

variable {ids : IdSource} {s : Layout}

/-- The edit does not take the active pane out of a tree and leave the focus there: if it is
`unsplitPane`, the first pane that shows the channel, in a tree of several, is not the active one.
-/
def Careful (s : Layout) : PaneEdit → Prop
  | unsplitPane channelId => ∀ tab root paneId, s.activeTab = some tab → s.root tab.id = some root →
      1 < root.leaves.length →
      root.leaves.find? (Leaf.shows channelId) = some (.terminal channelId paneId) →
      s.activePaneIds.get tab.id ≠ some paneId
  | _ => True

theorem find?_leaves_plug {p : Leaf → Bool} {c : Context Split Leaf} {l : Leaf} (hl : p l = true)
    (hbefore : ∀ b ∈ Context.before c, p b = false) :
    (Context.plug c (.leaf l)).leaves.find? p = some l := by
  rw [Context.leaves_plug, List.append_assoc, List.find?_append,
    List.find?_eq_none.mpr fun b hb ↦ by rw [hbefore b hb]; exact Bool.false_ne_true,
    Option.none_or, leaves_leaf, List.singleton_append, List.find?_cons_of_pos hl]

/-- An edit that is careful of the focus keeps the layout well formed. -/
theorem inv_apply (h : Inv ids s) (e : PaneEdit) (hcareful : e.Careful s) :
    Inv ids (e.apply ids s) := by
  obtain hstays | ⟨tab, c, l, htab, hroot, hfind, hl, hbefore⟩ := apply_cases ids s e
  · exact h.stays hstays
  cases e with
  | splitPane channelId direction => exact h.splitPane htab hroot hfind direction
  | unsplitPane channelId =>
    rw [apply, unsplitPane_eq htab hroot hfind]
    refine h.collapse hroot fun paneId hpane hclose ↦ ?_
    obtain ⟨paneId', rfl⟩ := Leaf.exists_of_shows hl
    cases List.mem_singleton.mp hpane
    exact hcareful tab _ paneId htab hroot ((Context.close_ne_none_iff _).mp hclose)
      (find?_leaves_plug hl hbefore)
  | closePane channelId =>
    obtain ⟨paneId, rfl⟩ := Leaf.exists_of_shows hl
    exact h.closePane htab hroot hfind
  | vacatePane channelId =>
    obtain ⟨paneId, rfl⟩ := Leaf.exists_of_shows hl
    rw [apply, vacatePane_eq ids htab]
    exact h.vacatePaneInTab hroot hfind
  | fillVacant vacantId channelId => exact h.fillVacant htab hroot hfind channelId
  | rearrangeVacant vacantId =>
    rw [apply, rearrangeVacant_eq htab hroot hfind]
    refine h.collapse hroot fun paneId hpane ↦ ?_
    cases l with
    | terminal channelId paneId => cases hl
    | vacant id => cases hpane

/-- An edit that is not leaves an active pane that is in no tree. -/
theorem careful_of_wellFormed (h : Inv ids s) (e : PaneEdit)
    (hwell : WellFormed (e.apply ids s)) : e.Careful s := by
  cases e with
  | unsplitPane channelId =>
    intro tab root paneId htab hroot hlength hfirst hactive
    have hfound : root.findPath (Leaf.shows channelId) ≠ none := fun hnone ↦
      absurd (List.find?_some hfirst) (by
        rw [findPath_eq_none_iff.mp hnone _ (List.mem_of_find?_eq_some hfirst)]; decide)
    obtain ⟨path, hpath⟩ := Option.ne_none_iff_exists'.mp hfound
    obtain ⟨c, l, rfl, rfl, hl, hbefore⟩ := exists_context_of_findPath hpath
    cases (find?_leaves_plug hl hbefore).symm.trans hfirst
    obtain ⟨newRoot, hclose⟩ :=
      Option.ne_none_iff_exists'.mp ((Context.close_ne_none_iff _).mpr hlength)
    rw [apply, unsplitPane_eq htab hroot hpath, hclose] at hwell
    obtain ⟨root, hroot', hpane⟩ := hwell.active tab.id paneId hactive
    cases (root_setRoot ..).symm.trans hroot'
    have hleaves : newRoot.leaves = Context.before c ++
        (PaneEdit.unsplitPane channelId).newLeaves (s.nextId ids) c (.terminal channelId paneId) ++
        Context.after c := leaves_result hclose
    obtain haround | hnone := (PaneNode.paneIds_of_leaves hleaves).mp hpane
    · exact PaneNode.ne_leafId_of_mem_around (h.nodup _ _ hroot) haround rfl
    · cases hnone
  | splitPane channelId direction => trivial
  | closePane channelId => trivial
  | vacatePane channelId => trivial
  | fillVacant vacantId channelId => trivial
  | rearrangeVacant vacantId => trivial

end PaneEdit

namespace Layout

/-! ## Moves -/

section Moves

variable {ids : IdSource} {s : Layout} {sourceChannelId targetPaneId targetTabId : String}
  {zone : DropZone}

/-- A vacated tree has as many leaves as before. -/
theorem exists_root_of_vacated {sourceTabKey paneId : String} {c : Context Split Leaf}
    (hroot : s.root sourceTabKey
      = some (Context.plug c (.leaf (.terminal sourceChannelId paneId))))
    (hpath : PaneNode.findChannelPath (Context.plug c (.leaf (.terminal sourceChannelId paneId)))
      sourceChannelId = some (Context.path c)) (targetTabId : String) {root : PaneNode}
    (h : (s.vacatePaneInTab ids sourceTabKey sourceChannelId).root targetTabId = some root) :
    ∃ old, s.root targetTabId = some old ∧ old.leaves.length = root.leaves.length := by
  obtain ⟨hlayouts, -⟩ := vacatePaneInTab_layouts ids hroot hpath
  by_cases htab : sourceTabKey = targetTabId
  · subst htab
    cases (root_of_set_self hlayouts).symm.trans h
    exact ⟨_, hroot, by simp only [Context.leaves_plug, leaves_leaf, List.length_append,
      List.length_singleton]⟩
  · rw [root_of_set hlayouts htab] at h
    exact ⟨root, h, rfl⟩

theorem newLeaves_dropped (v : Layout) (zone : DropZone) (sourceChannelId : String) (x : Leaf) :
    NewLeaves ids v x (dropped zone (.leaf (.terminal sourceChannelId (v.nextId ids)))
      (.leaf x)).leaves := by
  unfold dropped
  split
  · exact ⟨(List.sublist_cons_self _ _).subperm, fun paneId hpane ↦
      .inl (List.mem_singleton.mp hpane)⟩
  · have hperm := leaves_dropSplit_perm zone
      (.leaf (.terminal sourceChannelId (v.nextId ids))) (.leaf x)
    refine ⟨?_, fun paneId hpane ↦ ?_⟩
    · exact ((hperm.map Leaf.leafId).trans (List.Perm.swap x.leafId _ [])).subperm
    · have hmem := (hperm.flatMap_right Leaf.paneIds).mem_iff.mp hpane
      obtain rfl | hmem := List.mem_cons.mp hmem
      · exact .inl rfl
      · exact .inr (by simpa using hmem)

theorem length_leaves_dropped (zone : DropZone) (l x : Leaf) :
    (dropped zone (.leaf l) (.leaf x)).leaves.length = if zone = .center then 1 else 2 := by
  unfold dropped
  split
  · rfl
  · exact (leaves_dropSplit_perm zone _ _).length_eq

/-- A pane comes into a tab that has room for it, or in place of another one. -/
theorem Inv.movePaneTo (h : Inv ids s) (hroom : zone ≠ .center → ∀ root,
      s.root targetTabId = some root → root.leaves.length < MAX_PANE_COUNT) :
    Inv ids (s.movePaneTo ids sourceChannelId targetPaneId targetTabId zone) := by
  cases hfind : s.findTabForChannel sourceChannelId with
  | none =>
    rw [Layout.movePaneTo, hfind]
    exact h
  | some sourceTabKey =>
    obtain ⟨c, paneId, hroot, hpath, -⟩ := exists_context_of_findTabForChannel hfind
    have hvacated := h.vacatePaneInTab hroot hpath
    have hlength {root : PaneNode} := @exists_root_of_vacated ids s sourceChannelId sourceTabKey
      paneId c hroot hpath targetTabId root
    generalize hv : s.vacatePaneInTab ids sourceTabKey sourceChannelId = v at *
    by_cases hfound : ∃ root path, v.root targetTabId = some root ∧
        root.findNodePathByPaneId targetPaneId = some path
    · obtain ⟨root, path, htarget, htargetPath⟩ := hfound
      obtain ⟨d, x, rfl, rfl, -, -⟩ := exists_context_of_findPath htargetPath
      rw [movePaneTo_of_found ids hfind hv htarget htargetPath]
      refine hvacated.edit htarget rfl rfl (Context.leaves_plug d _)
        (newLeaves_dropped v zone sourceChannelId x) (Nat.le_succ _)
        (fun _ ↦ Nat.lt_succ_self _) ?_ (fun tabId' hne ↦ OrderedMap.get_set_of_ne _ _ hne)
        fun paneId' hget ↦ ?_
      · obtain ⟨old, hold, hsame⟩ := hlength htarget
        have hfour := hvacated.atMostFour _ _ htarget
        rw [Context.leaves_plug, List.length_append, List.length_append, leaves_leaf,
          List.length_singleton] at hfour hsame
        rw [Context.leaves_plug, List.length_append, List.length_append, length_leaves_dropped]
        split
        · exact hfour
        · rename_i hzone
          have hless := hroom hzone old hold
          omega
      · cases (OrderedMap.get_set_self _ _ _).symm.trans hget
        refine (PaneNode.paneIds_of_leaves (Context.leaves_plug d _)).mpr (.inr ?_)
        exact List.mem_flatMap.mpr ⟨_, mem_leaves_dropped zone _ _, List.mem_singleton_self _⟩
    · refine hvacated.stays (movePaneTo_of_not_found ids hfind hv (fun root htarget ↦ ?_) zone)
      exact Option.eq_none_iff_forall_ne_some.mpr fun path hp ↦ hfound ⟨root, path, htarget, hp⟩

end Moves

end Layout

end Lasterm.Web
