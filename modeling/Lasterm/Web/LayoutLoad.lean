import Lasterm.Web.TabInvariant

/-!
# Reading the stored layout

What is read is well formed if what was stored was, but for trees with too many panes and terminals
without ids. There are two exceptions, one for each format.

In the new format the active panes are read as they are stored, and a pane that was cut off with its
half of a tree can be among them. So the layout is well formed exactly if every active pane is in
what is kept of its tree (`ActiveKept`). In the old format a tree belongs to a channel, and two tabs
of one channel get the same tree each, with the same ids. Either condition is enough
(`inv_useLayout`) and needed (`carefulLoad_of_wellFormed`).
-/

namespace Lasterm.Web

open SplitTree

/-! ## The ids of a tree that was read -/

namespace Filled

variable {ids : IdSource} {n n' : ℕ} {ls ls' : List Leaf}

theorem storedIds_of_ne {l : Leaf} (h : ∀ channelId, l ≠ .terminal channelId "") :
    l.storedIds = [l.leafId] := by
  cases l with
  | vacant id => rfl
  | terminal channelId paneId =>
    refine if_neg fun heq ↦ h channelId ?_
    rw [heq]

section

variable (h : Filled ids n n' ls ls')
include h

/-- An id of the new leaves was stored or has been generated on the way. -/
theorem mem_leafIds {id : String} (hid : id ∈ ls'.map Leaf.leafId) :
    id ∈ ls.flatMap Leaf.storedIds ∨ ∃ m, n ≤ m ∧ m < n' ∧ ids.gen m = id := by
  induction h with
  | nil n => cases hid
  | keep hl h ih =>
    rw [List.flatMap_cons, storedIds_of_ne hl]
    obtain rfl | hid := List.mem_cons.mp hid
    · exact .inl (List.mem_append_left _ (List.mem_singleton_self _))
    · exact (ih hid).imp_left (List.mem_append_right _)
  | fill channelId h ih =>
    obtain rfl | hid := List.mem_cons.mp hid
    · exact .inr ⟨_, le_rfl, h.le, rfl⟩
    · exact (ih hid).imp (List.mem_append_right _) fun ⟨m, hm, hlt, hgen⟩ ↦
        ⟨m, (Nat.le_succ _).trans hm, hlt, hgen⟩

theorem mem_leafIds_of_stored {id : String}
    (hid : id ∈ ls.flatMap Leaf.storedIds) : id ∈ ls'.map Leaf.leafId := by
  induction h with
  | nil n => cases hid
  | keep hl h ih =>
    rw [List.flatMap_cons, storedIds_of_ne hl] at hid
    obtain rfl | hid := List.mem_cons.mp hid
    · exact List.mem_cons_self
    · exact List.mem_cons_of_mem _ (ih hid)
  | fill channelId h ih => exact List.mem_cons_of_mem _ (ih hid)

theorem nodup_iff (hearlier : ∀ id ∈ ls.flatMap Leaf.storedIds, ids.Earlier n id) :
    (ls'.map Leaf.leafId).Nodup ↔ (ls.flatMap Leaf.storedIds).Nodup := by
  induction h with
  | nil n => exact iff_of_true List.nodup_nil List.nodup_nil
  | @keep n n' l ls ls' hl h ih =>
    rw [List.flatMap_cons, storedIds_of_ne hl, List.singleton_append] at hearlier
    obtain ⟨hself, hrest⟩ := List.forall_mem_cons.mp hearlier
    have hmem : l.leafId ∈ ls'.map Leaf.leafId ↔ l.leafId ∈ ls.flatMap Leaf.storedIds := by
      refine ⟨fun hid ↦ (h.mem_leafIds hid).resolve_right ?_, h.mem_leafIds_of_stored⟩
      rintro ⟨m, hm, -, hgen⟩
      exact hself m hm hgen
    rw [List.map_cons, List.nodup_cons, List.flatMap_cons, storedIds_of_ne hl,
      List.singleton_append, List.nodup_cons, hmem, ih hrest]
  | @fill n n' ls ls' channelId h ih =>
    have hself : ids.gen n ∉ ls'.map Leaf.leafId := by
      intro hid
      obtain hstored | ⟨m, hm, -, hgen⟩ := h.mem_leafIds hid
      · exact hearlier _ hstored n le_rfl rfl
      · cases ids.injective hgen
        exact Nat.not_succ_le_self n hm
    rw [List.map_cons, List.nodup_cons]
    exact (and_iff_right hself).trans (ih fun id hid ↦ (hearlier id hid).mono (Nat.le_succ n))

theorem ne_empty {paneId : String} (hpane : paneId ∈ ls'.flatMap Leaf.paneIds) : paneId ≠ "" := by
  induction h with
  | nil n => cases hpane
  | @keep n n' l ls ls' hl h ih =>
    obtain hself | hpane := List.mem_append.mp (List.flatMap_cons ▸ hpane)
    · rintro rfl
      cases l with
      | vacant id => cases hself
      | terminal channelId paneId =>
        cases List.mem_singleton.mp hself
        exact hl channelId rfl
    · exact ih hpane
  | fill channelId h ih =>
    obtain rfl | hpane := List.mem_cons.mp hpane
    · exact ids.ne_empty _
    · exact ih hpane

/-- All leaves have ids. -/
theorem storedIds_eq :
    ls'.flatMap Leaf.storedIds = ls'.map Leaf.leafId := by
  induction h with
  | nil n => rfl
  | keep hl h ih => rw [List.flatMap_cons, storedIds_of_ne hl, ih]; rfl
  | fill channelId h ih =>
    rw [List.flatMap_cons, ih, storedIds_of_ne fun channelId' heq ↦
      ids.ne_empty _ (Leaf.terminal.inj heq).2]
    rfl

/-- A pane that had an id stays, and no other pane gets this id. -/
theorem mem_paneIds_iff {paneId : String} (hne : paneId ≠ "") (hearlier : ids.Earlier n paneId) :
    paneId ∈ ls'.flatMap Leaf.paneIds ↔ paneId ∈ ls.flatMap Leaf.paneIds := by
  induction h with
  | nil n => exact Iff.rfl
  | keep hl h ih => rw [List.flatMap_cons, List.mem_append, ih hearlier, List.flatMap_cons,
      List.mem_append]
  | @fill n n' ls ls' channelId h ih =>
    have hgen : paneId ≠ ids.gen n := fun heq ↦ hearlier n le_rfl heq.symm
    rw [List.flatMap_cons, List.mem_append, ih (hearlier.mono (Nat.le_succ n)), List.flatMap_cons,
      List.mem_append]
    exact or_congr_left (iff_of_false (fun hmem ↦ hgen (List.mem_singleton.mp hmem))
      fun hmem ↦ hne (List.mem_singleton.mp hmem))

end

end Filled

namespace Layout

variable {ids : IdSource} {s s' : Layout}

/-! ## The new format -/

/-- The ids that leaves have are distinct, and none is generated again. -/
structure Distinct (ids : IdSource) (s : Layout) : Prop where
  nodup : ∀ tabId root, s.root tabId = some root → root.storedIds.Nodup
  disjoint : ∀ tabId tabId' root root' id, s.root tabId = some root → s.root tabId' = some root' →
    id ∈ root.storedIds → id ∈ root'.storedIds → tabId = tabId'
  earlier : ∀ tabId root id, s.root tabId = some root → id ∈ root.storedIds →
    ids.Earlier s.generated id

/-- A layout as an earlier version of the program may have saved it: there may be too many panes,
and terminals without id, but all belongs to tabs. -/
structure Saved (ids : IdSource) (s : Layout) : Prop extends Distinct ids s where
  active : ∀ tabId paneId, s.activePaneIds.get tabId = some paneId →
    paneId ≠ "" ∧ ∃ root, s.root tabId = some root ∧ paneId ∈ root.paneIds
  layoutsOfTabs : ∀ tabId tree, s.layouts.get tabId = some tree → tabId ∈ s.tabIds
  activeOfTabs : ∀ tabId paneId, s.activePaneIds.get tabId = some paneId → tabId ∈ s.tabIds

/-- What a tree is read as: what is kept of it, with ids that were generated after `s`. -/
def ReadAs (ids : IdSource) (s : Layout) (root root' : PaneNode) : Prop :=
  ∃ n n', s.generated ≤ n ∧ Filled ids n n' root.keptPart.leaves root'.leaves

theorem storedIds_keptPart_sublist (root : PaneNode) :
    root.keptPart.storedIds.Sublist root.storedIds := by
  obtain ⟨rest, hrest⟩ := PaneNode.leaves_truncateToMaxPanes MAX_PANE_COUNT root
  rw [PaneNode.storedIds, PaneNode.storedIds, ← hrest, List.flatMap_append]
  exact List.sublist_append_left _ _

/-- Reading one tree. -/
theorem migrateTree_cases (ids : IdSource) (s : Layout) (key : String) :
    (s.root key = none ∧ migrateTree ids s key = s) ∨
    ∃ root root' n, s.root key = some root ∧ s.generated ≤ n ∧
      (∃ m ≤ n, Filled ids s.generated m root.keptPart.leaves root'.leaves) ∧
      migrateTree ids s key = { s with generated := n }.setRoot key root' := by
  rw [migrateTree]
  cases hroot : s.root key with
  | none => exact .inl ⟨rfl, rfl⟩
  | some root => exact .inr ⟨root, _, _, rfl, (PaneNode.filled_ensurePaneIds root _).le,
      PaneNode.exists_filled ids root _, rfl⟩

theorem Distinct.migrateTree (h : Distinct ids s) (key : String) :
    Distinct ids (migrateTree ids s key) := by
  obtain ⟨-, hsame⟩ | ⟨root, root', n, hroot, hn, ⟨m, hm, hfilled⟩, hset⟩ :=
    migrateTree_cases ids s key
  · rwa [hsame]
  have hnew : root'.storedIds = root'.leafIds := hfilled.storedIds_eq
  have hkept : ∀ id ∈ root.keptPart.storedIds, id ∈ root.storedIds := fun id hid ↦
    (storedIds_keptPart_sublist root).subset hid
  have hearlier : ∀ id ∈ root.keptPart.storedIds, ids.Earlier s.generated id := fun id hid ↦
    h.earlier key root id hroot (hkept id hid)
  have hlayouts : (Layout.migrateTree ids s key).layouts = s.layouts.set key (some root') := by
    rw [hset]
    rfl
  have hgenerated : (Layout.migrateTree ids s key).generated = n := by
    rw [hset]
    rfl
  refine ⟨?_, ?_, ?_⟩
  · refine forall_root_of_set (P := fun _ root ↦ root.storedIds.Nodup) hlayouts ?_
      fun tabId' root _ ↦ h.nodup tabId' root
    rw [hnew]
    exact (hfilled.nodup_iff hearlier).mpr
      ((h.nodup key root hroot).sublist (storedIds_keptPart_sublist root))
  · refine disjoint_of_set PaneNode.storedIds hlayouts h.disjoint
      fun tabId' other id hne hother hid hmem ↦ ?_
    rw [hnew] at hmem
    obtain hstored | ⟨m', hm', -, rfl⟩ := hfilled.mem_leafIds hmem
    · exact hne (h.disjoint _ _ _ _ id hroot hother (hkept id hstored) hid)
    · exact h.earlier _ _ _ hother hid m' hm' rfl
  · rw [hgenerated]
    refine fun tabId' other id hother hid ↦ forall_root_of_set
      (P := fun _ root ↦ ∀ id ∈ root.storedIds, ids.Earlier n id) hlayouts (fun id hmem ↦ ?_)
      (fun tabId' root _ hroot id hid ↦ (h.earlier tabId' root id hroot hid).mono hn) tabId' other
      hother id hid
    rw [hnew] at hmem
    obtain hstored | ⟨m', -, hm', rfl⟩ := hfilled.mem_leafIds hmem
    · exact (hearlier id hstored).mono hn
    · exact IdSource.earlier_gen (hm'.trans_le hm)

/-- What the loop over the trees does, with these of its keys still to come. -/
structure Migrated (ids : IdSource) (keys : List String) (s s' : Layout) : Prop where
  distinct : Distinct ids s → Distinct ids s'
  tabs : s'.tabs = s.tabs
  activePaneIds : s'.activePaneIds = s.activePaneIds
  layouts : ∀ tabId tree, s'.layouts.get tabId = some tree → ∃ old, s.layouts.get tabId = some old
  others : ∀ tabId, tabId ∉ keys → s'.root tabId = s.root tabId
  none : ∀ tabId, s.root tabId = none → s'.root tabId = none
  read : ∀ tabId root, tabId ∈ keys → s.root tabId = some root →
    ∃ root', s'.root tabId = some root' ∧ ReadAs ids s root root'

theorem migrated_migrateTree (ids : IdSource) (s : Layout) (key : String) :
    Migrated ids [key] s (migrateTree ids s key) ∧
      s.generated ≤ (migrateTree ids s key).generated := by
  obtain ⟨hnone, hsame⟩ | ⟨root, root', n, hroot, hn, ⟨m, hm, hfilled⟩, hset⟩ :=
    migrateTree_cases ids s key
  · rw [hsame]
    refine ⟨⟨id, rfl, rfl, fun tabId tree hget ↦ ⟨tree, hget⟩, fun _ _ ↦ rfl, fun _ ↦ id,
      fun tabId root hmem hroot ↦ ?_⟩, le_rfl⟩
    cases List.mem_singleton.mp hmem
    cases hnone.symm.trans hroot
  · have hlayouts : (migrateTree ids s key).layouts = s.layouts.set key (some root') := by
      rw [hset]
      rfl
    refine ⟨⟨fun h ↦ h.migrateTree key, by rw [hset]; rfl, by rw [hset]; rfl,
      fun tabId tree hget ↦ ?_, fun tabId hnot ↦ ?_, fun tabId hnone ↦ ?_,
      fun tabId old hmem hold ↦ ?_⟩, by rw [hset]; exact hn⟩
    · by_cases htab : key = tabId
      · subst htab
        exact ⟨_, get_eq_of_root hroot⟩
      · rw [hlayouts, OrderedMap.get_set_of_ne _ _ htab] at hget
        exact ⟨tree, hget⟩
    · exact root_of_set hlayouts fun heq ↦ hnot (List.mem_singleton.mpr heq.symm)
    · by_cases htab : key = tabId
      · subst htab
        cases hroot.symm.trans hnone
      · rwa [root_of_set hlayouts htab]
    · cases List.mem_singleton.mp hmem
      cases hroot.symm.trans hold
      exact ⟨root', root_of_set_self hlayouts, _, _, le_rfl, hfilled⟩

theorem migrated_foldl (ids : IdSource) {keys : List String} (hkeys : keys.Nodup) (s : Layout) :
    Migrated ids keys s (keys.foldl (migrateTree ids) s) := by
  induction keys generalizing s with
  | nil => exact ⟨id, rfl, rfl, fun tabId tree hget ↦ ⟨tree, hget⟩, fun _ _ ↦ rfl, fun _ ↦ id,
      fun tabId root hmem ↦ by cases hmem⟩
  | cons key keys ih =>
    obtain ⟨hkey, hkeys⟩ := List.nodup_cons.mp hkeys
    obtain ⟨hfirst, hgenerated⟩ := migrated_migrateTree ids s key
    have hrest := ih hkeys (migrateTree ids s key)
    rw [List.foldl_cons]
    refine ⟨fun h ↦ hrest.distinct (hfirst.distinct h), hrest.tabs.trans hfirst.tabs,
      hrest.activePaneIds.trans hfirst.activePaneIds, fun tabId tree hget ↦ ?_,
      fun tabId hnot ↦ ?_, fun tabId hnone ↦ hrest.none tabId (hfirst.none tabId hnone),
      fun tabId root hmem hroot ↦ ?_⟩
    · obtain ⟨old, hold⟩ := hrest.layouts tabId tree hget
      exact hfirst.layouts tabId old hold
    · rw [List.mem_cons, not_or] at hnot
      rw [hrest.others tabId hnot.2, hfirst.others tabId fun h ↦
        hnot.1 (List.mem_singleton.mp h)]
    · obtain rfl | hmem := List.mem_cons.mp hmem
      · rw [hrest.others _ hkey]
        exact hfirst.read _ root (List.mem_singleton_self _) hroot
      · have hne : tabId ∉ [key] := fun h ↦ hkey (List.mem_singleton.mp h ▸ hmem)
        obtain ⟨root', hroot', n, n', hn, hfilled⟩ :=
          hrest.read tabId root hmem ((hfirst.others tabId hne).trans hroot)
        exact ⟨root', hroot', n, n', hgenerated.trans hn, hfilled⟩

/-- Every active pane is in what is kept of its tree. -/
def ActiveKept (s : Layout) : Prop := ∀ tabId paneId root, s.activePaneIds.get tabId = some paneId →
  s.root tabId = some root → paneId ∈ root.keptPart.paneIds

section NewFormat

theorem exists_of_root_migrated (hmigrated : Migrated ids s.layouts.keys s s') {tabId : String}
    {root' : PaneNode} (h : s'.root tabId = some root') :
    ∃ root, s.root tabId = some root ∧ ReadAs ids s root root' := by
  cases hroot : s.root tabId with
  | none => cases (hmigrated.none tabId hroot).symm.trans h
  | some root =>
    have hmem : tabId ∈ s.layouts.keys :=
      List.mem_map_of_mem (f := Prod.fst) (OrderedMap.get_eq_some_iff.mp (get_eq_of_root hroot))
    obtain ⟨root₁, hroot₁, hread⟩ := hmigrated.read tabId root hmem hroot
    cases hroot₁.symm.trans h
    exact ⟨root, rfl, hread⟩

theorem mem_storedIds_of_mem_paneIds {root : PaneNode} {paneId : String} (hne : paneId ≠ "")
    (h : paneId ∈ root.paneIds) : paneId ∈ root.storedIds := by
  obtain ⟨l, hl, hpane⟩ := List.mem_flatMap.mp h
  refine List.mem_flatMap.mpr ⟨l, hl, ?_⟩
  cases l with
  | vacant id => cases hpane
  | terminal channelId paneId' =>
    cases List.mem_singleton.mp hpane
    rw [Leaf.storedIds, if_neg hne]
    exact List.mem_singleton_self _

/-- An active pane is in the tree that was read exactly if it is in what was kept. -/
theorem active_mem_iff (hsaved : Saved ids s) {tabId paneId : String} {root root' : PaneNode}
    (hactive : s.activePaneIds.get tabId = some paneId) (hroot : s.root tabId = some root)
    (hread : ReadAs ids s root root') :
    paneId ∈ root'.paneIds ↔ paneId ∈ root.keptPart.paneIds := by
  obtain ⟨hne, root₁, hroot₁, hpane⟩ := hsaved.active tabId paneId hactive
  cases hroot.symm.trans hroot₁
  obtain ⟨n, n', hn, hfilled⟩ := hread
  have hearlier := hsaved.earlier tabId root paneId hroot (mem_storedIds_of_mem_paneIds hne hpane)
  exact hfilled.mem_paneIds_iff hne (hearlier.mono hn)

/-- If every active pane is kept, the layout that was read is well formed. -/
theorem inv_of_activeKept (hsaved : Saved ids s) (hmigrated : Migrated ids s.layouts.keys s s')
    (hkept : ActiveKept s) : Inv ids s' := by
  have hdistinct := hmigrated.distinct hsaved.toDistinct
  have htabIds : s'.tabIds = s.tabIds := by rw [tabIds, hmigrated.tabs, tabIds]
  have hread : ∀ {tabId root'}, s'.root tabId = some root' →
      ∃ root, s.root tabId = some root ∧
        ReadAs ids s root root' := exists_of_root_migrated hmigrated
  have hids : ∀ {tabId root'}, s'.root tabId = some root' → root'.leafIds = root'.storedIds := by
    intro tabId root' hroot'
    obtain ⟨root, -, n, n', -, hfilled⟩ := hread hroot'
    exact hfilled.storedIds_eq.symm
  refine ⟨⟨?_, ?_, ?_, ?_, ?_, ?_⟩, ?_, ?_⟩
  · intro tabId root' hroot'
    obtain ⟨root, -, n, n', -, hfilled⟩ := hread hroot'
    rw [hfilled.length_eq]
    exact PaneNode.length_leaves_truncateToMaxPanes (by decide) root
  · intro tabId root' hroot'
    rw [hids hroot']
    exact hdistinct.nodup tabId root' hroot'
  · intro tabId₁ tabId₂ root₁ root₂ id hroot₁ hroot₂ hid₁ hid₂
    rw [hids hroot₁] at hid₁
    rw [hids hroot₂] at hid₂
    exact hdistinct.disjoint _ _ _ _ id hroot₁ hroot₂ hid₁ hid₂
  · intro tabId paneId hactive
    rw [hmigrated.activePaneIds] at hactive
    obtain ⟨-, root, hroot, -⟩ := hsaved.active tabId paneId hactive
    have hmem : tabId ∈ s.layouts.keys :=
      List.mem_map_of_mem (f := Prod.fst) (OrderedMap.get_eq_some_iff.mp (get_eq_of_root hroot))
    obtain ⟨root', hroot', hreadAs⟩ := hmigrated.read tabId root hmem hroot
    exact ⟨root', hroot', (active_mem_iff hsaved hactive hroot hreadAs).mpr
      (hkept tabId paneId root hactive hroot)⟩
  · intro tabId tree hget
    obtain ⟨old, hold⟩ := hmigrated.layouts tabId tree hget
    exact htabIds ▸ hsaved.layoutsOfTabs tabId old hold
  · intro tabId paneId hactive
    rw [hmigrated.activePaneIds] at hactive
    exact htabIds ▸ hsaved.activeOfTabs tabId paneId hactive
  · intro tabId root' paneId hroot' hpane
    obtain ⟨root, -, n, n', -, hfilled⟩ := hread hroot'
    exact hfilled.ne_empty hpane
  · intro tabId root' id hroot' hid
    rw [hids hroot'] at hid
    exact hdistinct.earlier tabId root' id hroot' hid

/-- And if it is well formed, every active pane was kept. -/
theorem activeKept_of_wellFormed (hsaved : Saved ids s)
    (hmigrated : Migrated ids s.layouts.keys s s') (h : WellFormed s') : ActiveKept s := by
  intro tabId paneId root hactive hroot
  obtain ⟨root', hroot', hpane⟩ := h.active tabId paneId (hmigrated.activePaneIds ▸ hactive)
  obtain ⟨root₁, hroot₁, hread⟩ := exists_of_root_migrated hmigrated hroot'
  cases hroot.symm.trans hroot₁
  exact (active_mem_iff hsaved hactive hroot hread).mp hpane

end NewFormat

/-! ## Reading back what was saved -/

theorem ofStored_saved (s : Layout) : ofStored s.saved s.generated = s := by
  have htabs : (s.tabs.map fun tab ↦ StoredTab.mk (some tab.id) none).map
      (fun tab ↦ Tab.mk (keyOf tab.id)) = s.tabs := by
    rw [List.map_map]
    exact List.map_id s.tabs
  rw [ofStored, saved, Option.getD_some, htabs]
  rfl

theorem isOld_saved (s : Layout) : s.saved.isOld = false := by
  rw [Stored.isOld, saved]
  cases s.tabs <;> rfl

theorem storedIds_sublist_leafIds (root : PaneNode) : root.storedIds.Sublist root.leafIds := by
  rw [PaneNode.storedIds, PaneNode.leafIds]
  induction root.leaves with
  | nil => exact List.Sublist.refl _
  | cons l ls ih =>
    rw [List.flatMap_cons, List.map_cons, ← List.singleton_append]
    refine List.Sublist.append ?_ ih
    cases l with
    | vacant id => exact List.Sublist.refl _
    | terminal channelId paneId =>
      rw [Leaf.storedIds]
      split
      · exact List.nil_sublist _
      · exact List.Sublist.refl _

/-- A well-formed layout is one that may have been saved. -/
theorem Inv.saved (h : Inv ids s) : Saved ids s where
  nodup tabId root hroot := (h.nodup tabId root hroot).sublist (storedIds_sublist_leafIds root)
  disjoint tabId tabId' root root' id hroot hroot' hid hid' :=
    h.disjoint tabId tabId' root root' id hroot hroot' ((storedIds_sublist_leafIds root).subset hid)
      ((storedIds_sublist_leafIds root').subset hid')
  earlier tabId root id hroot hid :=
    h.earlier tabId root id hroot ((storedIds_sublist_leafIds root).subset hid)
  active tabId paneId hactive := by
    obtain ⟨root, hroot, hpane⟩ := h.active tabId paneId hactive
    exact ⟨h.named tabId root paneId hroot hpane, root, hroot, hpane⟩
  layoutsOfTabs := h.layoutsOfTabs
  activeOfTabs := h.activeOfTabs

/-- All of it is kept. -/
theorem Inv.activeKept (h : Inv ids s) : ActiveKept s := by
  intro tabId paneId root hactive hroot
  obtain ⟨root₁, hroot₁, hpane⟩ := h.active tabId paneId hactive
  cases hroot.symm.trans hroot₁
  rw [PaneNode.keptPart, PaneNode.truncateToMaxPanes_of_le (h.atMostFour tabId root hroot)]
  exact hpane

theorem loadFromStorage_of_new {stored : Stored} (hnew : stored.isOld = false) (n : ℕ)
    {layouts : OrderedMap String (Option PaneNode)} (hlayouts : stored.layouts = some layouts) :
    loadFromStorage ids stored n
      = some ((ofStored stored n).layouts.keys.foldl (migrateTree ids) (ofStored stored n)) := by
  rw [loadFromStorage, hnew, if_neg Bool.false_ne_true, ofStored, hlayouts]
  rfl

theorem Inv.reload (h : Inv ids s) : Inv ids (useLayout ids (some s.saved) s.generated) := by
  rw [useLayout, Option.bind_some, loadFromStorage_of_new (isOld_saved s) _ rfl, Option.getD_some,
    ofStored_saved]
  exact inv_of_activeKept h.saved (migrated_foldl ids s.layouts.nodup s) h.activeKept

theorem inv_empty (ids : IdSource) (n : ℕ) : Inv ids ⟨[], 0, .empty, .empty, n⟩ where
  atMostFour tabId root hroot := by cases hroot
  nodup tabId root hroot := by cases hroot
  disjoint tabId tabId' root root' id hroot := by cases hroot
  active tabId paneId hactive := by cases hactive
  layoutsOfTabs tabId tree hget := by cases hget
  activeOfTabs tabId paneId hactive := by cases hactive
  named tabId root paneId hroot := by cases hroot
  earlier tabId root id hroot := by cases hroot

/-! ## The old format -/

section OldFormat

variable {oldLayouts : OrderedMap String (Option PaneNode)} {oldTab : StoredTab} {n : ℕ}
  {migratedTabs : List StoredTab}

/-- The ids in what is kept of the tree of a tab's channel. -/
def keptIds (oldLayouts : OrderedMap String (Option PaneNode)) (oldTab : StoredTab) : List String :=
  match (oldLayouts.get (keyOf oldTab.channelId)).join with
  | none => []
  | some tree => tree.keptPart.storedIds

/-- Reading one tab. -/
theorem migrateTab_cases (ids : IdSource) (oldLayouts : OrderedMap String (Option PaneNode))
    (s : Layout) (oldTab : StoredTab) {s' : Layout}
    (h : migrateTab ids oldLayouts s oldTab = s') : s'.tabs = s.tabs ++ [⟨s.nextId ids⟩] ∧
    ((keptIds oldLayouts oldTab = [] ∧ s'.layouts = s.layouts.set (s.nextId ids) none ∧
      s'.activePaneIds = s.activePaneIds ∧ s'.generated = s.generated + 1) ∨
    ∃ (tree root : PaneNode) (m : ℕ), keptIds oldLayouts oldTab = tree.keptPart.storedIds ∧
      m ≤ s'.generated ∧ Filled ids (s.generated + 1) m tree.keptPart.leaves root.leaves ∧
      s'.layouts = s.layouts.set (s.nextId ids) (some root) ∧
      (s'.activePaneIds = s.activePaneIds ∨ ∃ paneId ∈ root.paneIds,
        s'.activePaneIds = s.activePaneIds.set (s.nextId ids) paneId)) := by
  subst h
  rw [migrateTab, keptIds]
  cases htree : (oldLayouts.get (keyOf oldTab.channelId)).join with
  | none => exact ⟨rfl, .inl ⟨rfl, rfl, rfl, rfl⟩⟩
  | some tree =>
    obtain ⟨m, hm, hfilled⟩ := PaneNode.exists_filled ids tree (s.generated + 1)
    dsimp only
    split
    · exact ⟨rfl, .inr ⟨tree, _, m, rfl, hm, hfilled, rfl, .inl rfl⟩⟩
    · rename_i paneId hfirst
      rw [PaneNode.findFirstLeafPaneId_eq] at hfirst
      split
      · exact ⟨rfl, .inr ⟨tree, _, m, rfl, hm, hfilled, rfl, .inr ⟨paneId,
          List.mem_of_head? hfirst, rfl⟩⟩⟩
      · exact ⟨rfl, .inr ⟨tree, _, m, rfl, hm, hfilled, rfl, .inl rfl⟩⟩

/-- What the loop over the tabs has made of those that it has come by. Their ids are distinct
exactly if no stored one was kept twice. -/
structure MigratedTabs (ids : IdSource) (oldLayouts : OrderedMap String (Option PaneNode)) (n : ℕ)
    (migratedTabs : List StoredTab) (s : Layout) : Prop where
  generated : n ≤ s.generated
  layouts : ∀ tabId tree, s.layouts.get tabId = some tree →
    tabId ∈ s.tabIds ∧ ids.Earlier s.generated tabId
  atMostFour : ∀ tabId root, s.root tabId = some root → root.leaves.length ≤ MAX_PANE_COUNT
  active : ∀ tabId paneId, s.activePaneIds.get tabId = some paneId →
    ∃ root, s.root tabId = some root ∧ paneId ∈ root.paneIds
  named : ∀ tabId root paneId, s.root tabId = some root → paneId ∈ root.paneIds → paneId ≠ ""
  mem : ∀ tabId root id, s.root tabId = some root → id ∈ root.leafIds →
    id ∈ migratedTabs.flatMap (keptIds oldLayouts) ∨
      ∃ m, n ≤ m ∧ m < s.generated ∧ ids.gen m = id
  stored : ∀ id ∈ migratedTabs.flatMap (keptIds oldLayouts),
    ∃ tabId root, s.root tabId = some root ∧ id ∈ root.leafIds
  distinct : ((∀ tabId root, s.root tabId = some root → root.leafIds.Nodup) ∧
      ∀ tabId tabId' root root' id, s.root tabId = some root → s.root tabId' = some root' →
        id ∈ root.leafIds → id ∈ root'.leafIds → tabId = tabId') ↔
    (migratedTabs.flatMap (keptIds oldLayouts)).Nodup

section

variable (h : MigratedTabs ids oldLayouts n migratedTabs s)
include h

theorem MigratedTabs.nextId_free :
    s.layouts.get (s.nextId ids) = none := by
  rw [Option.eq_none_iff_forall_ne_some]
  exact fun tree hget ↦ (h.layouts _ _ hget).2 s.generated le_rfl rfl

theorem MigratedTabs.ne_nextId {tabId : String}
    {root : PaneNode} (hroot : s.root tabId = some root) : s.nextId ids ≠ tabId := by
  rintro rfl
  cases h.nextId_free.symm.trans (get_eq_of_root hroot)

theorem MigratedTabs.layouts_grown
    {tree : Option PaneNode} (htabs : s'.tabs = s.tabs ++ [⟨s.nextId ids⟩])
    (hlayouts : s'.layouts = s.layouts.set (s.nextId ids) tree)
    (hgenerated : s.generated + 1 ≤ s'.generated) (tabId : String) (tree' : Option PaneNode)
    (hget : s'.layouts.get tabId = some tree') :
    tabId ∈ s'.tabIds ∧ ids.Earlier s'.generated tabId := by
  have htabIds : s'.tabIds = s.tabIds ++ [s.nextId ids] := by
    rw [tabIds, htabs, List.map_append]
    rfl
  rw [htabIds]
  by_cases heq : s.nextId ids = tabId
  · subst heq
    exact ⟨List.mem_append_right _ (List.mem_singleton_self _), IdSource.earlier_gen hgenerated⟩
  · rw [hlayouts, OrderedMap.get_set_of_ne _ _ heq] at hget
    obtain ⟨hmem, hearlier⟩ := h.layouts tabId tree' hget
    exact ⟨List.mem_append_left _ hmem, hearlier.mono ((Nat.le_succ _).trans hgenerated)⟩

/-- A tab without a tree changes no tree. -/
theorem MigratedTabs.bare
    (hkept : keptIds oldLayouts oldTab = []) (htabs : s'.tabs = s.tabs ++ [⟨s.nextId ids⟩])
    (hlayouts : s'.layouts = s.layouts.set (s.nextId ids) none)
    (hactive : s'.activePaneIds = s.activePaneIds) (hgenerated : s'.generated = s.generated + 1) :
    MigratedTabs ids oldLayouts n (migratedTabs ++ [oldTab]) s' := by
  have hroot : ∀ tabId, s'.root tabId = s.root tabId := by
    intro tabId
    rw [root, root, hlayouts, OrderedMap.get_set]
    split
    · rename_i heq
      rw [← heq, h.nextId_free]
      rfl
    · rfl
  have hids : (migratedTabs ++ [oldTab]).flatMap (keptIds oldLayouts)
      = migratedTabs.flatMap (keptIds oldLayouts) := by
    rw [List.flatMap_append, List.flatMap_singleton, hkept, List.append_nil]
  have hle : s.generated ≤ s'.generated := hgenerated ▸ Nat.le_succ _
  refine ⟨h.generated.trans hle, h.layouts_grown htabs hlayouts hgenerated.ge, ?_, ?_, ?_, ?_, ?_,
    ?_⟩
  · simpa only [hroot] using h.atMostFour
  · simpa only [hroot, hactive] using h.active
  · simpa only [hroot] using h.named
  · rw [hids]
    simp only [hroot]
    refine fun tabId root id hr hid ↦ (h.mem tabId root id hr hid).imp_right ?_
    rintro ⟨m, hm, hlt, hgen⟩
    exact ⟨m, hm, hlt.trans_le hle, hgen⟩
  · simpa only [hids, hroot] using h.stored
  · simpa only [hids, hroot] using h.distinct

end

section Grown

variable {tree root : PaneNode} {m : ℕ}

section

variable (h : MigratedTabs ids oldLayouts n migratedTabs s)
include h

/-- The leaves of a new tree have nothing of the other trees, but for ids that were stored. -/
theorem MigratedTabs.foreign_iff
    (hearlier : ∀ oldTab, ∀ id ∈ keptIds oldLayouts oldTab, ids.Earlier n id)
    (hkept : keptIds oldLayouts oldTab = tree.keptPart.storedIds)
    (hfilled : Filled ids (s.generated + 1) m tree.keptPart.leaves root.leaves) :
    (∀ tabId other id, s.nextId ids ≠ tabId → s.root tabId = some other → id ∈ other.leafIds →
        id ∉ root.leafIds) ↔
      ∀ id ∈ migratedTabs.flatMap (keptIds oldLayouts), ∀ id' ∈ tree.keptPart.storedIds,
        id ≠ id' := by
  constructor
  · rintro hother id hid _ hid' rfl
    obtain ⟨tabId, other, hroot, hmem⟩ := h.stored id hid
    exact hother tabId other id (h.ne_nextId hroot) hroot hmem
      (hfilled.mem_leafIds_of_stored hid')
  · intro hne tabId other id _ hroot hid hmem
    obtain hnew | ⟨m₂, hlt₂, -, hgen₂⟩ := hfilled.mem_leafIds hmem
    · obtain hold | ⟨m₁, hn₁, -, hgen₁⟩ := h.mem tabId other id hroot hid
      · exact hne id hold id hnew rfl
      · exact hearlier oldTab id (hkept ▸ hnew) m₁ hn₁ hgen₁
    · obtain hold | ⟨m₁, -, hlt₁, hgen₁⟩ := h.mem tabId other id hroot hid
      · obtain ⟨oldTab', -, hid'⟩ := List.mem_flatMap.mp hold
        exact hearlier oldTab' id hid' m₂ (h.generated.trans (Nat.le_of_succ_le hlt₂)) hgen₂
      · cases ids.injective (hgen₁.trans hgen₂.symm)
        exact absurd hlt₁ (Nat.le_of_succ_le hlt₂).not_gt

theorem MigratedTabs.active_grown (hlayouts : s'.layouts = s.layouts.set (s.nextId ids) (some root))
    (hactive : s'.activePaneIds = s.activePaneIds ∨ ∃ paneId ∈ root.paneIds,
      s'.activePaneIds = s.activePaneIds.set (s.nextId ids) paneId) (tabId paneId : String)
    (hget : s'.activePaneIds.get tabId = some paneId) :
    ∃ root, s'.root tabId = some root ∧ paneId ∈ root.paneIds := by
  have hcases : s.activePaneIds.get tabId = some paneId ∨
      s.nextId ids = tabId ∧ paneId ∈ root.paneIds := by
    obtain hsame | ⟨paneId', hpane', hset⟩ := hactive
    · exact .inl (hsame ▸ hget)
    · rw [hset, OrderedMap.get_set] at hget
      split at hget
      · cases hget
        exact .inr ⟨‹_›, hpane'⟩
      · exact .inl hget
  obtain hold | ⟨rfl, hpane⟩ := hcases
  · obtain ⟨other, hroot, hpane⟩ := h.active tabId paneId hold
    exact ⟨other, (root_of_set hlayouts (h.ne_nextId hroot)).trans hroot, hpane⟩
  · exact ⟨root, root_of_set_self hlayouts, hpane⟩

/-- The trees are distinct behind another one exactly if they were and the other one is. -/
theorem MigratedTabs.distinct_grown
    (hlayouts : s'.layouts = s.layouts.set (s.nextId ids) (some root)) :
    ((∀ tabId root, s'.root tabId = some root → root.leafIds.Nodup) ∧
      ∀ tabId tabId' root root' id, s'.root tabId = some root → s'.root tabId' = some root' →
        id ∈ root.leafIds → id ∈ root'.leafIds → tabId = tabId') ↔
    (migratedTabs.flatMap (keptIds oldLayouts)).Nodup ∧ root.leafIds.Nodup ∧
      ∀ tabId other id, s.nextId ids ≠ tabId → s.root tabId = some other → id ∈ other.leafIds →
        id ∉ root.leafIds := by
  have hself := root_of_set_self hlayouts
  have hold : ∀ {tabId other}, s.root tabId = some other → s'.root tabId = some other :=
    fun hroot ↦ (root_of_set hlayouts (h.ne_nextId hroot)).trans hroot
  rw [← h.distinct]
  constructor
  · rintro ⟨hn, hd⟩
    refine ⟨⟨fun tabId other hroot ↦ hn tabId other (hold hroot), ?_⟩, hn _ _ hself, ?_⟩
    · exact fun tabId tabId' other other' id hroot hroot' ↦ hd _ _ _ _ id (hold hroot) (hold hroot')
    · exact fun tabId other id hne hroot hid hmem ↦
        hne (hd _ _ _ _ id hself (hold hroot) hmem hid)
  · rintro ⟨⟨hn, hd⟩, hnew, hother⟩
    exact ⟨forall_root_of_set (P := fun _ root ↦ root.leafIds.Nodup) hlayouts hnew
      fun tabId other _ ↦ hn tabId other, disjoint_of_set PaneNode.leafIds hlayouts hd hother⟩

/-- A tab with a tree adds that tree. -/
theorem MigratedTabs.grown (hearlier : ∀ oldTab, ∀ id ∈ keptIds oldLayouts oldTab, ids.Earlier n id)
    (hkept : keptIds oldLayouts oldTab = tree.keptPart.storedIds) (hm : m ≤ s'.generated)
    (hfilled : Filled ids (s.generated + 1) m tree.keptPart.leaves root.leaves)
    (htabs : s'.tabs = s.tabs ++ [⟨s.nextId ids⟩])
    (hlayouts : s'.layouts = s.layouts.set (s.nextId ids) (some root))
    (hactive : s'.activePaneIds = s.activePaneIds ∨ ∃ paneId ∈ root.paneIds,
      s'.activePaneIds = s.activePaneIds.set (s.nextId ids) paneId) :
    MigratedTabs ids oldLayouts n (migratedTabs ++ [oldTab]) s' := by
  have hlt : s.generated < s'.generated := hfilled.le.trans hm
  have hflat : (migratedTabs ++ [oldTab]).flatMap (keptIds oldLayouts)
      = migratedTabs.flatMap (keptIds oldLayouts) ++ tree.keptPart.storedIds := by
    rw [List.flatMap_append, List.flatMap_singleton, hkept]
  refine ⟨h.generated.trans hlt.le, h.layouts_grown htabs hlayouts hlt, ?_,
    h.active_grown hlayouts hactive, ?_, ?_, ?_, ?_⟩
  · refine forall_root_of_set (P := fun _ root ↦ root.leaves.length ≤ MAX_PANE_COUNT) hlayouts ?_
      fun tabId other _ ↦ h.atMostFour tabId other
    rw [hfilled.length_eq]
    exact PaneNode.length_leaves_truncateToMaxPanes (by decide) tree
  · exact fun tabId other paneId hroot hpane ↦ forall_root_of_set
      (P := fun _ root ↦ ∀ paneId ∈ root.paneIds, paneId ≠ "") hlayouts
      (fun paneId hp ↦ hfilled.ne_empty hp)
      (fun tabId other _ hroot paneId hp ↦ h.named tabId other paneId hroot hp) tabId other
      hroot paneId hpane
  · rw [hflat]
    refine fun tabId other id hroot hid ↦ forall_root_of_set (P := fun _ root ↦
      ∀ id ∈ root.leafIds, id ∈ migratedTabs.flatMap (keptIds oldLayouts) ++
        tree.keptPart.storedIds ∨ ∃ m, n ≤ m ∧ m < s'.generated ∧ ids.gen m = id) hlayouts
      (fun id hmem ↦ ?_) (fun tabId other _ hroot id hmem ↦ ?_) tabId other hroot id hid
    · obtain hstored | ⟨m', hm', hlt', hgen⟩ := hfilled.mem_leafIds hmem
      · exact .inl (List.mem_append_right _ hstored)
      · exact .inr ⟨m', h.generated.trans (Nat.le_of_succ_le hm'), hlt'.trans_le hm, hgen⟩
    · obtain hold | ⟨m', hm', hlt', hgen⟩ := h.mem tabId other id hroot hmem
      · exact .inl (List.mem_append_left _ hold)
      · exact .inr ⟨m', hm', hlt'.trans hlt, hgen⟩
  · rw [hflat]
    intro id hid
    obtain hid | hid := List.mem_append.mp hid
    · obtain ⟨tabId, other, hroot, hmem⟩ := h.stored id hid
      exact ⟨tabId, other, (root_of_set hlayouts (h.ne_nextId hroot)).trans hroot, hmem⟩
    · exact ⟨_, root, root_of_set_self hlayouts, hfilled.mem_leafIds_of_stored hid⟩
  · have hnodup : root.leafIds.Nodup ↔ tree.keptPart.storedIds.Nodup :=
      hfilled.nodup_iff fun id hid ↦
        (hearlier oldTab id (hkept ▸ hid)).mono (h.generated.trans (Nat.le_succ _))
    rw [hflat, List.nodup_append, ← hnodup, ← h.foreign_iff hearlier hkept hfilled]
    exact h.distinct_grown hlayouts

end

end Grown

theorem MigratedTabs.foldl
    (hearlier : ∀ oldTab, ∀ id ∈ keptIds oldLayouts oldTab, ids.Earlier n id)
    (h : MigratedTabs ids oldLayouts n migratedTabs s) (oldTabs : List StoredTab) :
    MigratedTabs ids oldLayouts n (migratedTabs ++ oldTabs)
      (oldTabs.foldl (migrateTab ids oldLayouts) s) := by
  induction oldTabs generalizing migratedTabs s with
  | nil =>
    rw [List.append_nil]
    exact h
  | cons oldTab oldTabs ih =>
    rw [List.foldl_cons, List.append_cons]
    apply ih
    obtain ⟨htabs, ⟨hkept, hlayouts, hactive, hgenerated⟩ |
      ⟨tree, root, m, hkept, hm, hfilled, hlayouts, hactive⟩⟩ := migrateTab_cases ids oldLayouts s
        oldTab rfl
    · exact h.bare hkept htabs hlayouts hactive hgenerated
    · exact h.grown hearlier hkept hm hfilled htabs hlayouts hactive

theorem migratedTabs_start (ids : IdSource) (oldLayouts : OrderedMap String (Option PaneNode))
    (index : ℤ) (n : ℕ) : MigratedTabs ids oldLayouts n [] ⟨[], index, .empty, .empty, n⟩ where
  generated := le_rfl
  layouts tabId tree hget := by cases hget
  atMostFour tabId root hroot := by cases hroot
  active tabId paneId hactive := by cases hactive
  named tabId root paneId hroot := by cases hroot
  mem tabId root id hroot := by cases hroot
  stored id hid := by cases hid
  distinct := iff_of_true ⟨(fun tabId root hroot ↦ by cases hroot),
    (fun tabId tabId' root root' id hroot ↦ by cases hroot)⟩ List.nodup_nil

/-- The layout that was read is well formed exactly if no stored id was kept twice. -/
theorem MigratedTabs.inv (h : MigratedTabs ids oldLayouts n migratedTabs s)
    (hearlier : ∀ oldTab, ∀ id ∈ keptIds oldLayouts oldTab, ids.Earlier n id)
    (hnodup : (migratedTabs.flatMap (keptIds oldLayouts)).Nodup) : Inv ids s where
  atMostFour := h.atMostFour
  nodup := (h.distinct.mpr hnodup).1
  disjoint := (h.distinct.mpr hnodup).2
  active := h.active
  layoutsOfTabs tabId tree hget := (h.layouts tabId tree hget).1
  activeOfTabs tabId paneId hactive := by
    obtain ⟨root, hroot, -⟩ := h.active tabId paneId hactive
    exact (h.layouts tabId _ (get_eq_of_root hroot)).1
  named := h.named
  earlier tabId root id hroot hid := by
    obtain hstored | ⟨m, -, hlt, rfl⟩ := h.mem tabId root id hroot hid
    · obtain ⟨oldTab, -, hkept⟩ := List.mem_flatMap.mp hstored
      exact (hearlier oldTab id hkept).mono h.generated
    · exact IdSource.earlier_gen hlt

theorem MigratedTabs.nodup_of_wellFormed (h : MigratedTabs ids oldLayouts n migratedTabs s)
    (hwell : WellFormed s) : (migratedTabs.flatMap (keptIds oldLayouts)).Nodup :=
  h.distinct.mp ⟨hwell.nodup, hwell.disjoint⟩

end OldFormat

/-! ## Either format -/

/-- What a version of this program may have stored while `generateId` was called so often: it
returned other ids than it will, and a layout of the new format was whole but for the limit and
missing ids. -/
structure Storable (ids : IdSource) (n : ℕ) (stored : Stored) : Prop where
  earlier : ∀ tabId root id, (ofStored stored n).root tabId = some root → id ∈ root.storedIds →
    ids.Earlier n id
  saved : stored.isOld = false → Saved ids (ofStored stored n)

/-- In the old format no id is kept in two places; in the new one every active pane is kept. -/
def CarefulLoad (stored : Stored) : Prop :=
  if stored.isOld then
    ((stored.tabs.getD []).flatMap (keptIds (stored.layouts.getD .empty))).Nodup
  else ActiveKept (ofStored stored 0)

section Load

variable {n : ℕ} {stored : Stored}

theorem Storable.keptIds_earlier (h : Storable ids n stored) (oldTab : StoredTab) :
    ∀ id ∈ keptIds (stored.layouts.getD .empty) oldTab, ids.Earlier n id := by
  intro id hid
  rw [keptIds] at hid
  split at hid
  · cases hid
  · rename_i tree htree
    exact h.earlier _ tree id htree ((storedIds_keptPart_sublist tree).subset hid)

theorem migratedTabs_useLayout (h : Storable ids n stored) (hold : stored.isOld = true) :
    MigratedTabs ids (stored.layouts.getD .empty) n (stored.tabs.getD [])
      (useLayout ids (some stored) n) := by
  rw [useLayout, Option.bind_some, loadFromStorage, if_pos hold, Option.getD_some]
  exact (migratedTabs_start ids _ _ n).foldl h.keptIds_earlier _

variable (ids n) in
theorem useLayout_of_new (hnew : stored.isOld = false) :
    (stored.layouts = none ∧ useLayout ids (some stored) n = ⟨[], 0, .empty, .empty, n⟩) ∨
      Migrated ids (ofStored stored n).layouts.keys (ofStored stored n)
        (useLayout ids (some stored) n) := by
  cases hlayouts : stored.layouts with
  | none =>
    refine .inl ⟨rfl, ?_⟩
    rw [useLayout, Option.bind_some, loadFromStorage, hnew, if_neg Bool.false_ne_true, hlayouts]
    rfl
  | some layouts =>
    refine .inr ?_
    rw [useLayout, Option.bind_some, loadFromStorage_of_new hnew n hlayouts, Option.getD_some]
    exact migrated_foldl ids (ofStored stored n).layouts.nodup _

theorem inv_useLayout (h : Storable ids n stored) (hcareful : CarefulLoad stored) :
    Inv ids (useLayout ids (some stored) n) := by
  rw [CarefulLoad] at hcareful
  split at hcareful
  · rename_i hold
    exact (migratedTabs_useLayout h hold).inv h.keptIds_earlier hcareful
  · rename_i hnew
    have hnew := Bool.eq_false_iff.mpr hnew
    obtain ⟨-, hempty⟩ | hmigrated := useLayout_of_new ids n hnew
    · rw [hempty]
      exact inv_empty ids n
    · exact inv_of_activeKept (h.saved hnew) hmigrated hcareful

theorem carefulLoad_of_wellFormed (h : Storable ids n stored)
    (hwell : WellFormed (useLayout ids (some stored) n)) : CarefulLoad stored := by
  rw [CarefulLoad]
  split
  · rename_i hold
    exact (migratedTabs_useLayout h hold).nodup_of_wellFormed hwell
  · rename_i hnew
    have hnew := Bool.eq_false_iff.mpr hnew
    obtain ⟨hlayouts, -⟩ | hmigrated := useLayout_of_new ids n hnew
    · intro tabId paneId tree _ htree
      rw [root, ofStored, hlayouts] at htree
      cases htree
    · have hkept : ActiveKept (ofStored stored n) :=
        activeKept_of_wellFormed (h.saved hnew) hmigrated hwell
      exact hkept

end Load

end Layout

end Lasterm.Web
