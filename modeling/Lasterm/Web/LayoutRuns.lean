import Lasterm.Library.Runs
import Lasterm.Web.LayoutLoad

/-!
# The layout over whole runs

A page works on the layout and is loaded again with what the storage holds: what it saved last, or
what some earlier version has left there. In every state that is reached the layout is to be well
formed.

It is, as long as three things do not happen: `unsplitPane` takes the active pane out of its tree; a
stored tree of the new format is cut and the active pane goes with the part that is cut off; or two
tabs of the old format share a tree that has ids. Each of them breaks it (`wellFormed_iff_careful`).
-/

namespace Lasterm.Web

open Runs

inductive LayoutEvent where
  | edit (e : PaneEdit)
  | openTab (channelId : String) (afterActive : Bool)
  | paneDrop (sourceChannelId targetPaneId targetTabId : String) (zone : DropZone)
  | moveToNewTab (sourceChannelId : String) (insertAtIndex : ℤ)
  | closeTab (index : ℤ)
  | closeOthers (keepIndex : ℤ)
  | closeToRight (fromIndex : ℤ)
  | closeAll (exceptWelcomeChannelId : Option String)
  | setActiveTab (index : ℤ)
  | reorderTab (fromIndex toIndex : ℤ)
  /-- The page is loaded with what was saved last. -/
  | reload
  /-- The page is loaded with something else that was stored, or nothing. -/
  | load (stored : Option Stored)

namespace Layout

variable (ids : IdSource)

/-- The handler of a drop, `onDropPane`: next to a pane there must be room in the tab. -/
def onDropPane (s : Layout) (sourceChannelId targetPaneId targetTabId : String) (zone : DropZone) :
    Layout :=
  if zone ≠ .center ∧ (s.root targetTabId).any fun root ↦ root.countPanes ≥ 4 then s
  else s.movePaneTo ids sourceChannelId targetPaneId targetTabId zone

def apply (s : Layout) : LayoutEvent → Layout
  | .edit e => e.apply ids s
  | .openTab channelId afterActive => s.openTab ids channelId afterActive
  | .paneDrop sourceChannelId targetPaneId targetTabId zone =>
    s.onDropPane ids sourceChannelId targetPaneId targetTabId zone
  | .moveToNewTab sourceChannelId insertAtIndex => s.moveToNewTab ids sourceChannelId insertAtIndex
  | .closeTab index => s.closeTab index
  | .closeOthers keepIndex => s.closeOthers keepIndex
  | .closeToRight fromIndex => s.closeToRight fromIndex
  | .closeAll exceptWelcomeChannelId => s.closeAll exceptWelcomeChannelId
  | .setActiveTab index => s.setActiveTab index
  | .reorderTab fromIndex toIndex => s.reorderTab fromIndex toIndex
  | .reload => useLayout ids (some s.saved) s.generated
  | .load stored => useLayout ids stored s.generated

def step (s : Layout) (e : LayoutEvent) : Option Layout := some (s.apply ids e)

/-- The page is loaded for the first time. -/
def start : Layout := ⟨[], 0, .empty, .empty, 0⟩

/-- What is loaded is something that a version of the program can have stored. -/
def IsStorable (s : Layout) : LayoutEvent → Prop
  | .load (some stored) => Storable ids s.generated stored
  | _ => True

/-- The active pane is not taken out of its tree, and what is loaded keeps every active pane and no
id twice. -/
def Careful (s : Layout) : LayoutEvent → Prop
  | .edit e => e.Careful s
  | .load (some stored) => CarefulLoad stored
  | _ => True

variable {ids} {s : Layout}

theorem Inv.onDropPane (h : Inv ids s) (sourceChannelId targetPaneId targetTabId : String)
    (zone : DropZone) :
    Inv ids (s.onDropPane ids sourceChannelId targetPaneId targetTabId zone) := by
  rw [Layout.onDropPane]
  split
  · exact h
  · rename_i hguard
    refine h.movePaneTo fun hzone root hroot ↦ ?_
    by_contra hfull
    refine hguard ⟨hzone, ?_⟩
    rw [hroot, Option.any_some, decide_eq_true_iff, PaneNode.countPanes_eq]
    exact not_lt.mp hfull

theorem inv_apply (h : Inv ids s) {e : LayoutEvent} (hstorable : IsStorable ids s e)
    (hcareful : s.Careful e) : Inv ids (s.apply ids e) := by
  cases e with
  | edit e => exact PaneEdit.inv_apply h e hcareful
  | openTab channelId afterActive => exact h.openTab channelId afterActive
  | paneDrop sourceChannelId targetPaneId targetTabId zone =>
    exact h.onDropPane sourceChannelId targetPaneId targetTabId zone
  | moveToNewTab sourceChannelId insertAtIndex =>
    exact h.moveToNewTab sourceChannelId insertAtIndex
  | closeTab index => exact h.closeTab index
  | closeOthers keepIndex => exact h.closeOthers keepIndex
  | closeToRight fromIndex => exact h.closeToRight fromIndex
  | closeAll exceptWelcomeChannelId => exact h.closeAll exceptWelcomeChannelId
  | setActiveTab index => exact h.setActiveTab index
  | reorderTab fromIndex toIndex => exact h.reorderTab fromIndex toIndex
  | reload => exact h.reload
  | load stored =>
    cases stored with
    | none => exact inv_empty ids s.generated
    | some stored => exact inv_useLayout hstorable hcareful

theorem careful_of_wellFormed (h : Inv ids s) {e : LayoutEvent} (hstorable : IsStorable ids s e)
    (hwell : WellFormed (s.apply ids e)) : s.Careful e := by
  cases e with
  | edit e => exact PaneEdit.careful_of_wellFormed h e hwell
  | load stored =>
    cases stored with
    | none => trivial
    | some stored => exact carefulLoad_of_wellFormed hstorable hwell
  | openTab channelId afterActive => trivial
  | paneDrop sourceChannelId targetPaneId targetTabId zone => trivial
  | moveToNewTab sourceChannelId insertAtIndex => trivial
  | closeTab index => trivial
  | closeOthers keepIndex => trivial
  | closeToRight fromIndex => trivial
  | closeAll exceptWelcomeChannelId => trivial
  | setActiveTab index => trivial
  | reorderTab fromIndex toIndex => trivial
  | reload => trivial

/-- **The pane layout invariant.** Over a run with storable loads the layout is well formed in every
state exactly if every step is careful. -/
theorem wellFormed_iff_careful (ids : IdSource) {es : List LayoutEvent}
    (hstorable : Along (step ids) (fun s e _ ↦ IsStorable ids s e) start es) :
    (WellFormed start ∧ Along (step ids) (fun _ _ s' ↦ WellFormed s') start es) ↔
      Along (step ids) (fun s e _ ↦ s.Careful e) start es := by
  have hstart : Inv ids start := inv_empty ids 0
  rw [and_iff_right hstart.toWellFormed]
  refine along_congr_under (Inv ids) (fun s e s' h hload hstep ↦ ?_) hstart hstorable
  cases hstep
  have hkeeps : s.Careful e → Inv ids (s.apply ids e) := inv_apply h hload
  exact ⟨⟨careful_of_wellFormed h hload, fun hcareful ↦ (hkeeps hcareful).toWellFormed⟩, hkeeps⟩

/-- A tab of the old format with a tree of its time: the terminal has no pane id. -/
def oldStored : Stored where
  tabs := some [⟨none, some "build"⟩]
  activeTabIndex := some 0
  layouts := some (OrderedMap.empty.set "build" (some (.split ⟨.vertical, 1 / 2⟩
    (.leaf (.terminal "build" "")) (.leaf (.vacant "slot")))))
  activePaneIds := none

theorem storable_oldStored (n : ℕ) : Storable IdSource.counted n oldStored where
  earlier tabId root id hroot hid := by
    have hget := OrderedMap.get_eq_some_iff.mp (get_eq_of_root hroot)
    cases List.mem_singleton.mp hget
    cases List.mem_singleton.mp hid
    intro m _ heq
    have hchars := congrArg (fun text ↦ 's' ∈ text.toList) heq
    simp [IdSource.counted] at hchars
  saved hnew := by cases hnew

/-- The layout is well formed all through a run that reads what an older version has stored. -/
theorem wellFormed_of_migration : WellFormed start ∧
    Along (step IdSource.counted) (fun _ _ s' ↦ WellFormed s') start
      [.load oldStored, .edit (.fillVacant "slot" "logs"), .reload, .closeTab 0] := by
  refine (wellFormed_iff_careful IdSource.counted ?_).mpr ?_
  · exact fun s₁ _ ↦ ⟨storable_oldStored _, fun s₂ _ ↦ ⟨trivial, fun s₃ _ ↦ ⟨trivial,
      fun s₄ _ ↦ ⟨trivial, trivial⟩⟩⟩⟩
  · refine fun s₁ _ ↦ ⟨?_, fun s₂ _ ↦ ⟨trivial, fun s₃ _ ↦ ⟨trivial,
      fun s₄ _ ↦ ⟨trivial, trivial⟩⟩⟩⟩
    exact (by decide : ["slot"].Nodup)

/-- A tab is opened and split, its new half is filled, and then the split is taken back. -/
def unsplitRun : List LayoutEvent :=
  [.openTab "build" false, .edit (.splitPane "build" .vertical),
    .edit (.fillVacant (IdSource.counted.gen 2) "logs"), .edit (.unsplitPane "logs")]

/-- The pane of the half that has gone is still the active one. -/
theorem unsplitRun_dangles : ∃ s, run (step IdSource.counted) start unsplitRun = some s ∧
    s.activePaneIds.get (IdSource.counted.gen 1) = some (IdSource.counted.gen 3) ∧
    s.root (IdSource.counted.gen 1) = some (.leaf (.terminal "build" (IdSource.counted.gen 0))) ∧
    ¬WellFormed s := by
  obtain ⟨s, hs, hactive, hroot⟩ : ∃ s, run (step IdSource.counted) start unsplitRun = some s ∧
      s.activePaneIds.get (IdSource.counted.gen 1) = some (IdSource.counted.gen 3) ∧
      s.root (IdSource.counted.gen 1)
        = some (.leaf (.terminal "build" (IdSource.counted.gen 0))) := ⟨_, rfl, rfl, rfl⟩
  refine ⟨s, hs, hactive, hroot, fun h ↦ ?_⟩
  obtain ⟨root, hroot', hpane⟩ := h.active _ _ hactive
  cases hroot.symm.trans hroot'
  exact absurd (IdSource.counted.injective (List.mem_singleton.mp hpane)) (by decide)

/-! ## Reloads -/

theorem ensurePaneIds_of_named {root : PaneNode} (h : ∀ paneId ∈ root.paneIds, paneId ≠ "")
    (n : ℕ) : root.ensurePaneIds ids n = (root, n) := by
  induction root generalizing n with
  | leaf l =>
    cases l with
    | vacant id => rfl
    | terminal channelId paneId => exact if_pos (h paneId (List.mem_singleton_self _))
  | split label first second ihfirst ihsecond =>
    rw [PaneNode.paneIds, SplitTree.leaves_split, List.flatMap_append] at h
    rw [PaneNode.ensurePaneIds, ihfirst fun paneId hid ↦ h paneId (List.mem_append_left _ hid)]
    dsimp only
    rw [ihsecond fun paneId hid ↦ h paneId (List.mem_append_right _ hid)]

/-- A tree of a well-formed layout is read as it is. -/
theorem Inv.migrateTree_eq (h : Inv ids s) (key : String) : migrateTree ids s key = s := by
  rw [migrateTree]
  cases hroot : s.root key with
  | none => rfl
  | some root =>
    dsimp only
    rw [ensurePaneIds_of_named (h.named key root · hroot) s.generated,
      PaneNode.truncateToMaxPanes_of_le (h.atMostFour key root hroot), setRoot,
      OrderedMap.set_eq_self (get_eq_of_root hroot)]

/-- **Saving and loading is a round trip**: nothing that comes behind a reload can tell that there
was one. -/
theorem run_reload {es : List LayoutEvent}
    (hstorable : Along (step ids) (fun s e _ ↦ IsStorable ids s e) start es)
    (hcareful : Along (step ids) (fun s e _ ↦ s.Careful e) start es) (es' : List LayoutEvent) :
    run (step ids) start (es ++ .reload :: es') = run (step ids) start (es ++ es') := by
  rw [run_append, run_append]
  refine Option.bind_congr fun s hrun ↦ ?_
  have hinv : Inv ids s := by
    refine run_invariant_along (Inv ids) (fun t e t' h hmay hstep ↦ ?_) (inv_empty ids 0)
      (along_and hstorable hcareful) hrun
    cases hstep
    exact inv_apply h hmay.1 hmay.2
  have hread : ∀ keys : List String, keys.foldl (migrateTree ids) s = s := by
    intro keys
    induction keys with
    | nil => rfl
    | cons key keys ih => rw [List.foldl_cons, hinv.migrateTree_eq, ih]
  have hreload : s.apply ids .reload = s := by
    rw [apply, useLayout, Option.bind_some, loadFromStorage_of_new (isOld_saved s) _ rfl,
      Option.getD_some, ofStored_saved, hread]
  rw [run_cons, step, hreload, Option.bind_some]

theorem run_reload_split : run (step IdSource.counted) start
      ([.openTab "build" false, .edit (.splitPane "build" .vertical)] ++ [.reload, .closeTab 0]) =
    run (step IdSource.counted) start
      ([.openTab "build" false, .edit (.splitPane "build" .vertical)] ++ [.closeTab 0]) := by
  refine run_reload ?_ ?_ [.closeTab 0] <;>
    exact fun s₁ _ ↦ ⟨trivial, fun s₂ _ ↦ ⟨trivial, trivial⟩⟩

end Layout

end Lasterm.Web
