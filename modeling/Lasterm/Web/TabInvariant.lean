import Lasterm.Web.LayoutInvariant
import Mathlib.Data.List.InsertIdx

/-!
# Tabs and the invariant of the layout

A new tab comes with a tree of one leaf, which has a new id. A tab that is closed takes its tree and
its active pane with it, and what is left of both belongs to the tabs that are left.
-/

namespace Lasterm.Web

namespace Layout

variable {ids : IdSource} {s : Layout}

/-! ## New tabs -/

theorem mem_tabIds_insertIdx {tabs : List Tab} {index : ℕ} (hindex : index ≤ tabs.length)
    (tab : Tab)
    {tabId : String} :
    tabId ∈ (tabs.insertIdx index tab).map Tab.id ↔ tabId = tab.id ∨ tabId ∈ tabs.map Tab.id := by
  simp only [List.mem_map, List.mem_insertIdx hindex]
  constructor
  · rintro ⟨tab', rfl | htab', rfl⟩
    · exact .inl rfl
    · exact .inr ⟨tab', htab', rfl⟩
  · rintro (rfl | ⟨tab', htab', rfl⟩)
    · exact ⟨tab, .inl rfl, rfl⟩
    · exact ⟨tab', .inr htab', rfl⟩

theorem clampIndex_le (index : ℤ) (length : ℕ) : clampIndex index length ≤ length := by
  unfold clampIndex
  omega

/-- A new tab whose pane has one of the two ids generated before. -/
theorem Inv.addTab (h : Inv ids s) {index : ℕ} (hindex : index ≤ s.tabs.length)
    (newTabId channelId : String) {m : ℕ} (hm : m < 2) :
    Inv ids (s.generateId.generateId.addTab index newTabId channelId
      (ids.gen (s.generated + m))) := by
  have hlayouts : (s.generateId.generateId.addTab index newTabId channelId
      (ids.gen (s.generated + m))).layouts = s.layouts.set newTabId
        (some (.leaf (.terminal channelId (ids.gen (s.generated + m))))) := rfl
  refine h.change (fun tabId' htab ↦ (mem_tabIds_insertIdx hindex _).mpr (.inr htab))
    ((mem_tabIds_insertIdx hindex _).mpr (.inl rfl)) hlayouts (Nat.le_add_right _ 2)
    (Nat.succ_le_succ (Nat.zero_le 3)) (List.nodup_singleton _) (fun id hid ↦ .inr ?_)
    (fun paneId hpane ↦ ?_)
    (fun tabId' hne ↦ OrderedMap.get_set_of_ne _ _ hne) fun paneId hget ↦ ?_
  · cases List.mem_singleton.mp hid
    exact ⟨s.generated + m, Nat.le_add_right _ m, Nat.add_lt_add_left hm _, rfl⟩
  · cases List.mem_singleton.mp hpane
    exact ids.ne_empty _
  · cases (OrderedMap.get_set_self _ _ _).symm.trans hget
    exact List.mem_singleton_self _

theorem Inv.openNewTab (h : Inv ids s) (channelId : String) (afterActive : Bool) :
    Inv ids (s.openNewTab ids channelId afterActive) := by
  refine h.addTab (m := 0) ?_ _ channelId Nat.two_pos
  split
  · exact clampIndex_le _ _
  · exact le_rfl

theorem Inv.withActiveTab (h : Inv ids s) (index : ℤ) :
    Inv ids { s with activeTabIndex := index } :=
  h.of_same (fun _ htab ↦ htab) rfl rfl le_rfl

theorem Inv.openTab (h : Inv ids s) (channelId : String) (afterActive : Bool) :
    Inv ids (s.openTab ids channelId afterActive) := by
  rw [Layout.openTab]
  split
  · exact h.openNewTab channelId afterActive
  · split
    · exact h.withActiveTab _
    · exact h.openNewTab channelId afterActive

theorem Inv.moveToNewTab (h : Inv ids s) (sourceChannelId : String) (insertAtIndex : ℤ) :
    Inv ids (s.moveToNewTab ids sourceChannelId insertAtIndex) := by
  rw [Layout.moveToNewTab]
  cases hfind : s.findTabForChannel sourceChannelId with
  | none => exact h
  | some sourceTabKey =>
    obtain ⟨c, paneId, hroot, hpath, -⟩ := exists_context_of_findTabForChannel hfind
    exact (h.vacatePaneInTab hroot hpath).addTab (m := 1) (clampIndex_le _ _) _ sourceChannelId
      (by decide)

/-! ## Tabs that go -/

theorem exists_getElem?_of_tabAt {index : ℤ} {tab : Tab} (h : s.tabAt index = some tab) :
    s.tabs[index.toNat]? = some tab := by
  rw [tabAt] at h
  split at h
  · exact h
  · cases h

/-- What is not the tab at an index is left when that tab goes. -/
theorem mem_eraseIdx_of_ne {tabs : List Tab} {n : ℕ} {tab tab' : Tab} (h : tabs[n]? = some tab)
    (hmem : tab' ∈ tabs) (hne : tab' ≠ tab) : tab' ∈ tabs.eraseIdx n := by
  obtain ⟨i, hi⟩ := List.mem_iff_getElem?.mp hmem
  refine List.mem_eraseIdx_iff_getElem?.mpr ⟨i, fun heq ↦ hne ?_, hi⟩
  rw [heq, h] at hi
  exact (Option.some.inj hi).symm

section

variable (h : Inv ids s)
include h

theorem Inv.closeTab (index : ℤ) : Inv ids (s.closeTab index) := by
  rw [Layout.closeTab]
  split
  · exact h
  · rename_i tab htab
    have hleft : ∀ tabId ∈ s.tabIds, tab.id ≠ tabId →
        tabId ∈ (s.tabs.eraseIdx index.toNat).map Tab.id := by
      intro tabId hmem hne
      obtain ⟨tab', htab', rfl⟩ := List.mem_map.mp hmem
      exact List.mem_map_of_mem (mem_eraseIdx_of_ne (exists_getElem?_of_tabAt htab) htab'
        fun heq ↦ hne (congrArg Tab.id heq).symm)
    refine h.restrict le_rfl (fun tabId tree hget ↦ ?_) fun tabId paneId hget ↦ ?_
    · have hget' := (OrderedMap.get_delete _ _ _).symm.trans hget
      split at hget'
      · cases hget'
      · rename_i hne
        exact ⟨hget', hleft tabId (h.layoutsOfTabs tabId tree hget') hne⟩
    · have hget' := (OrderedMap.get_delete _ _ _).symm.trans hget
      split at hget'
      · cases hget'
      · rename_i hne
        refine ⟨hget', hleft tabId (h.activeOfTabs tabId paneId hget') hne, ?_⟩
        exact congrArg Option.join (OrderedMap.get_delete_of_ne _ hne)

theorem Inv.setActiveTab (index : ℤ) : Inv ids (s.setActiveTab index) := by
  rw [Layout.setActiveTab]
  split
  · exact h.withActiveTab index
  · exact h

theorem Inv.reorderTab (fromIndex toIndex : ℤ) :
    Inv ids (s.reorderTab fromIndex toIndex) := by
  rw [Layout.reorderTab]
  split
  · exact h
  · split
    · exact h
    · rename_i moved hmoved
      have hget := exists_getElem?_of_tabAt hmoved
      have hlt := (List.getElem?_eq_some_iff.mp hget).1
      dsimp only
      split
      · exact h
      · refine h.of_same (fun tabId hmem ↦ ?_) rfl rfl le_rfl
        have hindex : (max 0 (min toIndex (s.tabs.length - 1))).toNat
            ≤ (s.tabs.eraseIdx fromIndex.toNat).length := by
          rw [List.length_eraseIdx_of_lt hlt]
          omega
        obtain ⟨tab', htab', rfl⟩ := List.mem_map.mp hmem
        refine (mem_tabIds_insertIdx hindex moved).mpr ?_
        by_cases heq : tab' = moved
        · exact .inl (congrArg Tab.id heq)
        · exact .inr (List.mem_map_of_mem (mem_eraseIdx_of_ne hget htab' heq))

theorem Inv.keepOnly {tabs : List Tab} {tabId : String}
    (htab : tabId ∈ s.tabIds → tabId ∈ tabs.map Tab.id) : Inv ids (s.keepOnly tabs tabId) := by
  have hlayouts : ∀ tabId' tree, (s.keepOnly tabs tabId).layouts.get tabId' = some tree →
      tabId' = tabId ∧ s.layouts.get tabId = some tree := by
    intro tabId' tree hget
    cases hroot : s.root tabId with
    | none =>
      simp only [Layout.keepOnly, hroot, OrderedMap.get_empty] at hget
      cases hget
    | some keptLayout =>
      simp only [Layout.keepOnly, hroot, OrderedMap.get_set] at hget
      split at hget
      · cases hget
        exact ⟨Eq.symm ‹_›, get_eq_of_root hroot⟩
      · cases hget
  refine h.restrict le_rfl (fun tabId' tree hget ↦ ?_) fun tabId' paneId hget ↦ ?_
  · obtain ⟨rfl, hget⟩ := hlayouts tabId' tree hget
    exact ⟨hget, htab (h.layoutsOfTabs _ _ hget)⟩
  · cases hactive : s.activePaneIds.get tabId with
    | none =>
      simp only [Layout.keepOnly, hactive, OrderedMap.get_empty] at hget
      cases hget
    | some keptPaneId =>
      simp only [Layout.keepOnly, hactive, OrderedMap.get_set] at hget
      obtain ⟨heq, hget⟩ := Option.ite_none_right_eq_some.mp hget
      cases hget
      subst heq
      obtain ⟨root, hroot, -⟩ := h.active _ _ hactive
      have hkept : (s.keepOnly tabs tabId).layouts = OrderedMap.empty.set tabId (some root) := by
        simp only [Layout.keepOnly, hroot]
      refine ⟨hactive, htab (h.activeOfTabs _ _ hactive), ?_⟩
      rw [hroot, Layout.root, hkept, OrderedMap.get_set_self, Option.join_some]

theorem Inv.cleared (tabs : List Tab) :
    Inv ids { s.cleared with tabs := tabs } :=
  h.restrict le_rfl (fun tabId tree hget ↦ by cases hget) fun tabId paneId hget ↦ by cases hget

theorem Inv.closeOthers (keepIndex : ℤ) : Inv ids (s.closeOthers keepIndex) := by
  rw [Layout.closeOthers]
  split
  · exact h
  · exact h.keepOnly fun _ ↦ List.mem_singleton_self _

end

theorem get_foldl_delete {ν : Type*} (removed : List Tab) (m : OrderedMap String ν)
    (tabId : String) :
    (removed.foldl (fun m tab ↦ m.delete tab.id) m).get tabId
      = if tabId ∈ removed.map Tab.id then none else m.get tabId := by
  induction removed generalizing m with
  | nil => rfl
  | cons tab removed ih =>
    rw [List.foldl_cons, ih, OrderedMap.get_delete, List.map_cons]
    by_cases hmem : tabId ∈ removed.map Tab.id
    · rw [if_pos hmem, if_pos (List.mem_cons_of_mem _ hmem)]
    · rw [if_neg hmem]
      by_cases heq : tab.id = tabId
      · rw [if_pos heq, if_pos (heq ▸ List.mem_cons_self)]
      · rw [if_neg heq, if_neg fun h ↦ (List.mem_cons.mp h).elim (fun h ↦ heq h.symm) hmem]

theorem Inv.closeToRight (h : Inv ids s) (fromIndex : ℤ) : Inv ids (s.closeToRight fromIndex) := by
  have hleft : ∀ cut, ∀ tabId ∈ s.tabIds, tabId ∉ (s.tabs.drop cut).map Tab.id →
      tabId ∈ (s.tabs.take cut).map Tab.id := by
    intro cut tabId hmem hnot
    rw [tabIds, ← List.take_append_drop cut s.tabs, List.map_append, List.mem_append] at hmem
    exact hmem.resolve_right hnot
  refine h.restrict le_rfl (fun tabId tree hget ↦ ?_) fun tabId paneId hget ↦ ?_
  · have hget' := (get_foldl_delete _ _ _).symm.trans hget
    split at hget'
    · cases hget'
    · rename_i hnot
      exact ⟨hget', hleft _ tabId (h.layoutsOfTabs tabId tree hget') hnot⟩
  · have hget' := (get_foldl_delete _ _ _).symm.trans hget
    split at hget'
    · cases hget'
    · rename_i hnot
      refine ⟨hget', hleft _ tabId (h.activeOfTabs tabId paneId hget') hnot, ?_⟩
      exact congrArg Option.join ((get_foldl_delete _ _ _).trans (if_neg hnot))

theorem Inv.closeAll (h : Inv ids s) (exceptWelcomeChannelId : Option String) :
    Inv ids (s.closeAll exceptWelcomeChannelId) := by
  unfold Layout.closeAll
  split
  · exact h.cleared []
  · split
    · exact h.cleared []
    · split
      · exact h.cleared []
      · rename_i welcomeTabId _
        dsimp only
        split
        · exact h.cleared _
        · refine h.keepOnly fun hmem ↦ ?_
          obtain ⟨tab, htab, rfl⟩ := List.mem_map.mp hmem
          have hfound : (s.tabs.find? fun t ↦ t.id = tab.id).isSome :=
            List.find?_isSome.mpr ⟨tab, htab, decide_eq_true rfl⟩
          obtain ⟨keepTab, hkeep⟩ := Option.isSome_iff_exists.mp hfound
          have hid := List.find?_some hkeep
          rw [hkeep]
          exact List.mem_singleton.mpr (of_decide_eq_true hid).symm

end Layout

end Lasterm.Web
