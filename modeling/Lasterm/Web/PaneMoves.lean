import Lasterm.Web.PaneEdits

/-!
# Moving a pane

`movePaneTo` takes a channel from the place where it is shown and puts it in the place of another
pane (dropped on the centre) or next to it (dropped on an edge). The place it comes from is vacated
before the other pane is looked for, and stays so if there is no such pane: then the channel is
gone.

Nothing is lost exactly if the channel was not shown at all, or the pane it is dropped on is among
those that remain once the channel has left its place (`movePaneTo_iff`). A pane is not among them
when its tab or the pane itself has gone meanwhile, and when it is the very place that the channel
has left.
-/

namespace Lasterm.Web

open SplitTree

namespace Layout

variable (ids : IdSource)

/-- The channels shown over all tabs. -/
def shownChannels (s : Layout) : List String :=
  s.layouts.entries.flatMap fun e ↦ (e.2.map PaneNode.collectTerminalChannelIds).getD []

/-- The leaves of a tab once a channel has left its place: where the first of its panes was, there
is a vacant slot. -/
def remaining (s : Layout) (sourceChannelId sourceTabKey tabId : String) (root : PaneNode) :
    List Leaf :=
  if tabId = sourceTabKey then
    .vacant (s.nextId ids) :: root.leaves.eraseP (Leaf.shows sourceChannelId)
  else root.leaves

/-- The pane that the channel is dropped on is there once the channel has left its place. -/
def Receives (s : Layout) (sourceChannelId sourceTabKey targetPaneId targetTabId : String) : Prop :=
  ∃ root, s.root targetTabId = some root ∧
    ∃ l ∈ s.remaining ids sourceChannelId sourceTabKey targetTabId root, l.leafId = targetPaneId

/-- The move is complete: a new pane of the target tab shows the channel. All channels are shown as
before, except that of a pane which was replaced. -/
def Moved (s s' : Layout) (sourceChannelId sourceTabKey targetPaneId targetTabId : String)
    (zone : DropZone) : Prop :=
  (∃ root', s'.root targetTabId = some root' ∧
    .terminal sourceChannelId (ids.gen (s.generated + 1)) ∈ root'.leaves) ∧
  if zone = .center then
    ∃ root, s.root targetTabId = some root ∧
      ∃ replaced ∈ s.remaining ids sourceChannelId sourceTabKey targetTabId root,
        replaced.leafId = targetPaneId ∧
        s.shownChannels.Perm (replaced.channels ++ s'.shownChannels)
  else s.shownChannels.Perm s'.shownChannels

/-- The move is complete, or all trees and active panes are as they were. -/
def LosesNothing (s s' : Layout) (sourceChannelId targetPaneId targetTabId : String)
    (zone : DropZone) : Prop :=
  (s'.layouts = s.layouts ∧ s'.activePaneIds = s.activePaneIds) ∨
  ∃ sourceTabKey, s.findTabForChannel sourceChannelId = some sourceTabKey ∧
    Moved ids s s' sourceChannelId sourceTabKey targetPaneId targetTabId zone

/-! ## Channels of a changed tree -/

section Shown

variable {s : Layout} {tabId : String} {c : Context Split Leaf} {t : PaneNode}

theorem get_eq_of_root {root : PaneNode} (h : s.root tabId = some root) :
    s.layouts.get tabId = some (some root) := Option.join_eq_some_iff.mp h

/-- To fill the hole of a tree with something else changes what is shown there and nothing else. -/
theorem exists_shownChannels (hroot : s.root tabId = some (Context.plug c t)) :
    ∃ others, s.shownChannels.Perm (t.leaves.flatMap Leaf.channels ++ others) ∧
      ∀ (s' : Layout) (t' : PaneNode),
        s'.layouts = s.layouts.set tabId (some (Context.plug c t')) →
        s'.shownChannels.Perm (t'.leaves.flatMap Leaf.channels ++ others) := by
  obtain ⟨es, es', hentries, hset⟩ := OrderedMap.exists_entries_set (get_eq_of_root hroot)
  let shown : List (String × Option PaneNode) → List String :=
    List.flatMap fun e ↦ (e.2.map PaneNode.collectTerminalChannelIds).getD []
  let others : List String := (Context.before c ++ Context.after c).flatMap Leaf.channels ++
    (shown es ++ shown es')
  have hplug : ∀ t : PaneNode, (shown (es ++ (tabId, some (Context.plug c t)) :: es')).Perm
      (t.leaves.flatMap Leaf.channels ++ others) := by
    intro t
    rw [List.perm_iff_count]
    intro channelId
    simp only [shown, others, List.flatMap_append, List.flatMap_cons, Option.map_some,
      Option.getD_some,
      PaneNode.collectTerminalChannelIds_eq, Context.leaves_plug, List.count_append]
    omega
  refine ⟨others, ?_, fun s' t' hs' ↦ ?_⟩
  · rw [shownChannels, hentries]
    exact hplug t
  · rw [shownChannels, hs', hset]
    exact hplug t'

end Shown

/-! ## Where a channel is -/

/-- The tab that is found shows the channel, in a first place. -/
theorem exists_context_of_findTabForChannel {s : Layout} {channelId tabId : String}
    (h : s.findTabForChannel channelId = some tabId) : ∃ c paneId,
      s.root tabId = some (Context.plug c (.leaf (.terminal channelId paneId))) ∧
      PaneNode.findChannelPath (Context.plug c (.leaf (.terminal channelId paneId))) channelId
        = some (Context.path c) ∧
      ∀ b ∈ Context.before c, b.shows channelId = false := by
  have hfirst : (s.layouts.entries.find? fun e ↦
      e.2.any fun root ↦ (root.findChannelPath channelId).isSome).map Prod.fst = some tabId →
      ∃ root, s.root tabId = some root ∧ (root.findChannelPath channelId).isSome := by
    intro hmatch
    obtain ⟨⟨tabId', tree⟩, hfound, rfl⟩ := Option.map_eq_some_iff.mp hmatch
    have hany := List.find?_some hfound
    cases tree with
    | none => cases hany
    | some root =>
      have hget := OrderedMap.get_eq_some_iff.mpr (List.mem_of_find?_eq_some hfound)
      exact ⟨root, Option.join_eq_some_iff.mpr hget, hany⟩
  have hshown : ∃ root, s.root tabId = some root ∧ (root.findChannelPath channelId).isSome := by
    rw [findTabForChannel] at h
    split at h
    · exact hfirst h
    · rename_i active hactive
      split at h
      · rename_i hany
        cases h
        exact (Option.any_eq_true _ _).mp hany
      · exact hfirst h
  obtain ⟨root, hroot, hsome⟩ := hshown
  obtain ⟨path, hpath⟩ := Option.isSome_iff_exists.mp hsome
  obtain ⟨c, l, rfl, rfl, hl, hbefore⟩ := exists_context_of_findPath hpath
  obtain ⟨paneId, rfl⟩ := Leaf.exists_of_shows hl
  exact ⟨c, paneId, hroot, hpath, hbefore⟩

/-! ## The move -/

section Move

variable {s : Layout} {sourceChannelId sourceTabKey targetPaneId targetTabId paneId : String}
  {zone : DropZone} {c d : Context Split Leaf} {x : Leaf}

/-- What comes into the place of a pane that another one is dropped on. -/
def dropped (zone : DropZone) (sourceNode existingNode : PaneNode) : PaneNode :=
  if zone = .center then sourceNode else dropSplit zone sourceNode existingNode

theorem leaves_dropSplit_perm (zone : DropZone) (sourceNode existingNode : PaneNode) :
    (dropSplit zone sourceNode existingNode).leaves.Perm
      (sourceNode.leaves ++ existingNode.leaves) := by
  cases zone with
  | left => exact List.Perm.refl _
  | top => exact List.Perm.refl _
  | right => exact List.perm_append_comm
  | bottom => exact List.perm_append_comm
  | center => exact List.perm_append_comm

theorem mem_leaves_dropped (zone : DropZone) (l : Leaf) (existingNode : PaneNode) :
    l ∈ (dropped zone (.leaf l) existingNode).leaves := by
  unfold dropped
  split
  · exact List.mem_singleton_self l
  · exact (leaves_dropSplit_perm zone _ existingNode).mem_iff.mpr List.mem_cons_self

theorem movePaneTo_of_found (hfind : s.findTabForChannel sourceChannelId = some sourceTabKey)
    {v : Layout} (hv : s.vacatePaneInTab ids sourceTabKey sourceChannelId = v)
    (hroot : v.root targetTabId = some (Context.plug d (.leaf x)))
    (hpath : PaneNode.findNodePathByPaneId (Context.plug d (.leaf x)) targetPaneId
      = some (Context.path d)) :
    s.movePaneTo ids sourceChannelId targetPaneId targetTabId zone =
      (v.generateId.setRoot targetTabId (Context.plug d (dropped zone
        (.leaf (.terminal sourceChannelId (v.nextId ids))) (.leaf x)))).setActivePaneId targetTabId
          (v.nextId ids) := by
  have hreplace (new : PaneNode) : PaneNode.replaceNodeByPaneId (Context.plug d (.leaf x))
      targetPaneId new = some (Context.plug d new) := by
    rw [PaneNode.findNodePathByPaneId] at hpath
    rw [PaneNode.replaceNodeByPaneId, replaceFirst_eq, hpath, Option.map_some, Context.setAt_plug]
  rw [movePaneTo]
  simp only [hfind, hv, hroot, hreplace, hpath, PaneNode.getNodeAtPath, Context.get_plug,
    PaneNode.setNodeAtPath, Context.setAt_plug, dropped]
  split <;> rfl

theorem movePaneTo_of_not_found
    (hfind : s.findTabForChannel sourceChannelId = some sourceTabKey)
    {v : Layout} (hv : s.vacatePaneInTab ids sourceTabKey sourceChannelId = v)
    (hnone : ∀ root, v.root targetTabId = some root →
      root.findNodePathByPaneId targetPaneId = none) (zone : DropZone) :
    Stays v (s.movePaneTo ids sourceChannelId targetPaneId targetTabId zone) := by
  rw [movePaneTo]
  simp only [hfind, hv]
  split
  · exact Stays.refl v
  · rename_i root hroot
    have hpath := hnone root hroot
    have hreplace (new : PaneNode) : root.replaceNodeByPaneId targetPaneId new = none := by
      rw [PaneNode.findNodePathByPaneId] at hpath
      rw [PaneNode.replaceNodeByPaneId, replaceFirst_eq, hpath, Option.map_none]
    simp only [hpath, hreplace]
    split <;> exact ⟨rfl, rfl, rfl, Nat.le_succ _⟩

theorem vacatePaneInTab_layouts
    (hroot : s.root sourceTabKey
      = some (Context.plug c (.leaf (.terminal sourceChannelId paneId))))
    (hpath : PaneNode.findChannelPath (Context.plug c (.leaf (.terminal sourceChannelId paneId)))
      sourceChannelId = some (Context.path c)) :
    (s.vacatePaneInTab ids sourceTabKey sourceChannelId).layouts = s.layouts.set sourceTabKey
      (some (Context.plug c (.leaf (.vacant (s.nextId ids))))) ∧
    (s.vacatePaneInTab ids sourceTabKey sourceChannelId).generated = s.generated + 1 := by
  rw [vacatePaneInTab_eq ids hroot hpath, layouts_moveFocus, generated_moveFocus]
  exact ⟨rfl, rfl⟩

/-- What remains once the channel has left its place is what the code finds then. -/
theorem exists_remaining_iff (targetTabId : String) (P : Leaf → Prop)
    (hroot : s.root sourceTabKey
      = some (Context.plug c (.leaf (.terminal sourceChannelId paneId))))
    (hpath : PaneNode.findChannelPath (Context.plug c (.leaf (.terminal sourceChannelId paneId)))
      sourceChannelId = some (Context.path c))
    (hbefore : ∀ b ∈ Context.before c, b.shows sourceChannelId = false) :
    (∃ root, s.root targetTabId = some root ∧
      ∃ l ∈ s.remaining ids sourceChannelId sourceTabKey targetTabId root, P l) ↔
    ∃ root, (s.vacatePaneInTab ids sourceTabKey sourceChannelId).root targetTabId = some root ∧
      ∃ l ∈ root.leaves, P l := by
  obtain ⟨hlayouts, -⟩ := vacatePaneInTab_layouts ids hroot hpath
  by_cases htab : targetTabId = sourceTabKey
  · subst htab
    have hnew : (s.vacatePaneInTab ids targetTabId sourceChannelId).root targetTabId
        = some (Context.plug c (.leaf (.vacant (s.nextId ids)))) := by
      rw [root, hlayouts, OrderedMap.get_set_self, Option.join_some]
    have herase : (Context.plug c (.leaf (.terminal sourceChannelId paneId))).leaves.eraseP
        (Leaf.shows sourceChannelId) = Context.before c ++ Context.after c := by
      rw [Context.leaves_plug, leaves_leaf, List.append_assoc, List.eraseP_append_right _
        fun b hb ↦ by rw [hbefore b hb]; exact Bool.false_ne_true, List.singleton_append,
        List.eraseP_cons_of_pos (Leaf.shows_terminal sourceChannelId paneId)]
    have hmem (l : Leaf) : l ∈ s.remaining ids sourceChannelId targetTabId targetTabId
        (Context.plug c (.leaf (.terminal sourceChannelId paneId))) ↔
        l ∈ (Context.plug c (.leaf (.vacant (s.nextId ids)))).leaves := by
      rw [remaining, if_pos rfl, herase, Context.leaves_plug]
      simp only [leaves_leaf, List.mem_cons, List.mem_append, List.not_mem_nil, or_false]
      tauto
    simp only [hroot, hnew, Option.some.injEq, exists_eq_left', hmem]
  · have hsame : (s.vacatePaneInTab ids sourceTabKey sourceChannelId).root targetTabId
        = s.root targetTabId := by
      rw [root, hlayouts, OrderedMap.get_set_of_ne _ _ (Ne.symm htab), root]
    simp only [remaining, if_neg htab, hsame]

section

variable (hroot : s.root sourceTabKey =
  some (Context.plug c (.leaf (.terminal sourceChannelId paneId))))
include hroot

/-- The channel is missing once it has left its place. -/
theorem shownChannels_vacated {v : Layout} (hv : v.layouts = s.layouts.set sourceTabKey
      (some (Context.plug c (.leaf (.vacant (s.nextId ids)))))) :
    s.shownChannels.Perm (sourceChannelId :: v.shownChannels) := by
  obtain ⟨others, hs, hset⟩ := exists_shownChannels hroot
  exact hs.trans (List.Perm.cons _ (hset v _ hv).symm)

theorem moved_of_found
    (hpath : PaneNode.findChannelPath (Context.plug c (.leaf (.terminal sourceChannelId paneId)))
      sourceChannelId = some (Context.path c))
    (hbefore : ∀ b ∈ Context.before c, b.shows sourceChannelId = false)
    (hfind : s.findTabForChannel sourceChannelId = some sourceTabKey)
    (htarget : (s.vacatePaneInTab ids sourceTabKey sourceChannelId).root targetTabId
      = some (Context.plug d (.leaf x)))
    (hfound : PaneNode.findNodePathByPaneId (Context.plug d (.leaf x)) targetPaneId
      = some (Context.path d)) (hx : x.leafId = targetPaneId) :
    Moved ids s (s.movePaneTo ids sourceChannelId targetPaneId targetTabId zone) sourceChannelId
      sourceTabKey targetPaneId targetTabId zone := by
  obtain ⟨hlayouts, hgenerated⟩ := vacatePaneInTab_layouts ids hroot hpath
  have hremaining := fun P ↦ exists_remaining_iff ids targetTabId P hroot hpath
    hbefore
  generalize hv : s.vacatePaneInTab ids sourceTabKey sourceChannelId = v at *
  rw [movePaneTo_of_found ids hfind hv htarget hfound]
  have hnext : v.nextId ids = ids.gen (s.generated + 1) := by rw [nextId, hgenerated]
  rw [hnext]
  let sourceLeaf : Leaf := .terminal sourceChannelId (ids.gen (s.generated + 1))
  generalize hs' : setActivePaneId _ targetTabId _ = s'
  have hmoved : s'.layouts = v.layouts.set targetTabId
      (some (Context.plug d (dropped zone (.leaf sourceLeaf) (.leaf x)))) := hs' ▸ rfl
  obtain ⟨others, hshown, hset⟩ := exists_shownChannels htarget
  have hbefore : s.shownChannels.Perm (sourceChannelId :: (x.channels ++ others)) := by
    refine (shownChannels_vacated ids hroot hlayouts).trans (List.Perm.cons _ (hshown.trans ?_))
    rw [leaves_leaf, List.flatMap_singleton]
  have hafter := hset s' _ hmoved
  refine ⟨⟨_, by rw [root, hmoved, OrderedMap.get_set_self, Option.join_some], ?_⟩, ?_⟩
  · rw [Context.leaves_plug]
    exact List.mem_append_left _ (List.mem_append_right _ (mem_leaves_dropped zone sourceLeaf _))
  split
  · rename_i hzone
    obtain ⟨root, hr, replaced, hreplaced, rfl⟩ := (hremaining fun l ↦ x = l).mpr
      ⟨_, htarget, x, by simp [Context.leaves_plug], rfl⟩
    refine ⟨root, hr, x, hreplaced, hx, hbefore.trans ?_⟩
    rw [dropped, if_pos hzone] at hafter
    exact List.perm_middle.symm.trans (List.Perm.append_left _ hafter.symm)
  · rename_i hzone
    rw [dropped, if_neg hzone] at hafter
    have hsplit := (leaves_dropSplit_perm zone (.leaf sourceLeaf) (.leaf x)).flatMap_right
      Leaf.channels
    rw [leaves_leaf, leaves_leaf, List.flatMap_append, List.flatMap_singleton,
      List.flatMap_singleton] at hsplit
    exact hbefore.trans (hafter.trans (List.Perm.append_right _ hsplit)).symm

end

/-- **Moving a pane loses nothing** exactly if the channel is not shown, or the pane it is dropped
on remains once it has left its place. -/
theorem movePaneTo_iff (s : Layout) (sourceChannelId targetPaneId targetTabId : String)
    (zone : DropZone) :
    LosesNothing ids s (s.movePaneTo ids sourceChannelId targetPaneId targetTabId zone)
        sourceChannelId targetPaneId targetTabId zone ↔
      ∀ sourceTabKey, s.findTabForChannel sourceChannelId = some sourceTabKey →
        s.Receives ids sourceChannelId sourceTabKey targetPaneId targetTabId := by
  cases hfind : s.findTabForChannel sourceChannelId with
  | none =>
    refine iff_of_true (.inl ?_) fun sourceTabKey h ↦ by cases h
    rw [movePaneTo, hfind]
    exact ⟨rfl, rfl⟩
  | some sourceTabKey =>
    obtain ⟨c, paneId, hroot, hpath, hbefore⟩ := exists_context_of_findTabForChannel hfind
    have hremaining := fun P ↦ exists_remaining_iff ids targetTabId P hroot hpath
      hbefore
    by_cases hfound : ∃ root path,
        (s.vacatePaneInTab ids sourceTabKey sourceChannelId).root targetTabId = some root ∧
          root.findNodePathByPaneId targetPaneId = some path
    · obtain ⟨root, path, htarget, htargetPath⟩ := hfound
      obtain ⟨d, x, rfl, rfl, hx, -⟩ := exists_context_of_findPath htargetPath
      have hid : x.leafId = targetPaneId := of_decide_eq_true hx
      refine iff_of_true (.inr ⟨sourceTabKey, hfind, ?_⟩) fun sourceTabKey' hkey ↦ ?_
      · exact moved_of_found ids hroot hpath hbefore hfind htarget htargetPath hid
      · cases hkey
        refine (hremaining _).mpr ⟨_, htarget, x, ?_, hid⟩
        rw [Context.leaves_plug]
        exact List.mem_append_left _ (List.mem_append_right _ (List.mem_singleton_self x))
    · have hnone : ∀ root,
          (s.vacatePaneInTab ids sourceTabKey sourceChannelId).root targetTabId = some root →
            root.findNodePathByPaneId targetPaneId = none := fun root htarget ↦
        Option.eq_none_iff_forall_ne_some.mpr fun path hp ↦ hfound ⟨root, path, htarget, hp⟩
      have hreceives : ¬s.Receives ids sourceChannelId sourceTabKey targetPaneId targetTabId := by
        intro h
        obtain ⟨root, htarget, l, hl, hid⟩ := (hremaining _).mp h
        exact absurd (findPath_eq_none_iff.mp (hnone root htarget) l hl) (by simpa using hid)
      -- The channel has left its place, and that is all that has happened.
      obtain ⟨hlayouts, -⟩ := vacatePaneInTab_layouts ids hroot hpath
      have hlost := shownChannels_vacated ids hroot
        ((movePaneTo_of_not_found ids hfind rfl hnone zone).layouts.trans hlayouts)
      have hlength := hlost.length_eq
      rw [List.length_cons] at hlength
      refine iff_of_false (fun h ↦ ?_) fun h ↦ hreceives (h sourceTabKey rfl)
      obtain ⟨hsame, -⟩ | ⟨sourceTabKey', hkey, -, hmoved⟩ := h
      · rw [shownChannels, shownChannels, hsame] at hlength
        omega
      · rw [hfind] at hkey
        cases hkey
        split at hmoved
        · obtain ⟨root, hr, replaced, hreplaced, hid, -⟩ := hmoved
          exact hreceives ⟨root, hr, replaced, hreplaced, hid⟩
        · have hequal := hmoved.length_eq
          omega

/-- One tab with two panes, and both show the same channel. -/
def shownTwice : Layout where
  tabs := [⟨"tab"⟩]
  activeTabIndex := 0
  layouts := OrderedMap.empty.set "tab" (some (.split ⟨.vertical, 1 / 2⟩
    (.leaf (.terminal "build" "left pane")) (.leaf (.terminal "build" "right pane"))))
  activePaneIds := OrderedMap.empty.set "tab" "right pane"
  generated := 0

/-- The right pane is dropped on the left one. The channel leaves the left one, which is the first
to show it, and there is no left pane any more. -/
theorem left_pane_lost : ∃ ids : IdSource,
    let s' := shownTwice.movePaneTo ids "build" "left pane" "tab" .top
    ¬LosesNothing ids shownTwice s' "build" "left pane" "tab" .top ∧
      shownTwice.shownChannels = ["build", "build"] ∧ s'.shownChannels = ["build"] := by
  refine ⟨IdSource.counted, fun h ↦ ?_, rfl, rfl⟩
  obtain ⟨hsame, -⟩ | ⟨tabId, -, -, hperm⟩ := h
  · exact absurd (congrArg (fun m ↦ (m.get "tab").join.map PaneNode.leafIds) hsame) (by decide)
  · exact absurd hperm.length_eq (by decide)

end Move

end Layout

end Lasterm.Web
