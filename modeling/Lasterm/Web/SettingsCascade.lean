import Lasterm.Library.Runs
import Lasterm.Shared.DeepMerge

/-!
# The cascade of the settings panel

The hub answers with the layers of the terminal profile and with what they are merged to
(`getCascade` of `config.ts`), and `applyOptimistic` of `stores/settings.ts` edits both of them. It
writes the value into the layer of its scope and into the merged profile, whatever the other layers
have at that place.

An edit keeps the cascade one (`isCascade_edit_iff`) if and only if the layer is there
and the value stays as it is between what the wider and the narrower layers have at its path, or
the layer is not there and the merged profile has the value already. So an override of a narrower
layer is hidden by a wider edit, and what a reset would fall back to is not shown.

No key has a part `__proto__`: the source would reach the prototype there and make no property.
-/

namespace Lasterm.Web.Settings

open Config ConfigValue Runs Shell

/-! ## The cascade -/

structure TerminalCascade where
  defaults : Props
  globals : Props
  host : Option Props
  channel : Option Props
  resolved : Props

structure UiCascade where
  globals : Props
  resolved : Props

structure CascadeResponse where
  terminal : TerminalCascade
  ui : UiCascade
  appearance : Props
  elevation : Option Props

inductive Scope
  | global
  | host
  | channel
  deriving DecidableEq

inductive Section
  | terminal
  | ui
  | appearance
  | elevation
  | other (name : Text)

/-! ### The hub's answer -/

/-- A step of `resolve`. -/
def withLayer (profile : Props) : Option Props → Props
  | some layer => deepMerge [some profile, some layer]
  | none => profile

/-- `resolve`, for what the file and the tables of the hub have. -/
def resolve (defaults : Props) (fileConfig host channel : Option Props) : Props :=
  withLayer (withLayer (withLayer (deepMerge [some defaults]) fileConfig) host) channel

/-- The terminal profile in `getCascade`. -/
def getCascade (defaults : Props) (fileConfig host channel : Option Props) : TerminalCascade :=
  ⟨defaults, fileConfig.getD noProps, host, channel, resolve defaults fileConfig host channel⟩

/-! ### Edits -/

/-- `JSON.parse(JSON.stringify(value))`: what an array has under other names than indices is
lost. A place of an array that was deleted is `null` then, as good as nothing. -/
def copy : ConfigValue → ConfigValue
  | .obj true props => .obj true fun key ↦
      if key ≠ [] ∧ key.all Char.isDigit then copy (props key) else .undefined
  | .obj false props => .obj false fun key ↦ copy (props key)
  | v => v

def copyProps (props : Props) : Props := fun key ↦ copy (props key)

/-- `setNestedValue`; a path has a part at least, and what is no object on the way becomes an empty
one. -/
def setNestedValue (props : Props) : List Text → ConfigValue → Props
  | [], _ => props
  | [lastKey], value => Function.update props lastKey value.nonNull
  | part :: parts, value =>
    let current := props part
    Function.update props part (.obj current.isArray (setNestedValue current.props parts value))

def parts (key : Text) : List Text := key.splitOn '.'

structure Edit where
  scope : Scope
  key : Text
  value : ConfigValue

/-- The branch of `applyOptimistic` for the terminal, on the copy. -/
def TerminalCascade.edit (t : TerminalCascade) (e : Edit) : TerminalCascade :=
  let t := match e.scope, t.host, t.channel with
    | .global, _, _ => { t with globals := setNestedValue t.globals (parts e.key) e.value }
    | .host, some host, _ => { t with host := some (setNestedValue host (parts e.key) e.value) }
    | .channel, _, some channel =>
      { t with channel := some (setNestedValue channel (parts e.key) e.value) }
    | _, _, _ => t
  { t with resolved := setNestedValue t.resolved (parts e.key) e.value }

def TerminalCascade.copy (t : TerminalCascade) : TerminalCascade :=
  ⟨copyProps t.defaults, copyProps t.globals, t.host.map copyProps, t.channel.map copyProps,
    copyProps t.resolved⟩

def CascadeResponse.copy (c : CascadeResponse) : CascadeResponse :=
  ⟨c.terminal.copy, ⟨copyProps c.ui.globals, copyProps c.ui.resolved⟩, copyProps c.appearance,
    c.elevation.map copyProps⟩

def applyOptimistic (cascade : Option CascadeResponse) (sec : Section) (e : Edit) :
    Option CascadeResponse :=
  cascade.map fun cascade ↦
    let next := cascade.copy
    match sec with
    | .terminal => { next with terminal := next.terminal.edit e }
    | .ui =>
      let globals := setNestedValue next.ui.globals (parts e.key) e.value
      { next with ui := ⟨globals, setNestedValue next.ui.resolved (parts e.key) e.value⟩ }
    | .appearance =>
      { next with appearance := setNestedValue next.appearance (parts e.key) e.value }
    | .elevation =>
      { next with elevation := next.elevation.map fun elevation ↦
          Function.update elevation e.key e.value }
    | .other _ => next

theorem setNestedValue_cons (props : Props) (part : Text) (path : List Text)
    (value : ConfigValue) : setNestedValue props (part :: path) value =
      Function.update props part ((props part).setIn path value) := by
  induction path generalizing props part with
  | nil => rfl
  | cons key path ih =>
    exact congrArg (fun ps ↦ Function.update props part (.obj _ ps)) (ih (props part).props key)

theorem obj_setNestedValue (props : Props) (key : Text) (value : ConfigValue) :
    obj false (setNestedValue props (parts key) value) =
      (obj false props).setIn (parts key) value := by
  obtain ⟨part, path, hparts⟩ := List.exists_cons_of_ne_nil (List.splitOn_ne_nil '.' key)
  rw [parts, hparts, setNestedValue_cons]
  rfl

/-! ## What is kept -/

namespace TerminalCascade

variable {t : TerminalCascade} {e : Edit}

/-- From the widest to the narrowest. -/
def layers (t : TerminalCascade) : List (Option Props) :=
  [some t.defaults, some t.globals, t.host, t.channel]

/-- The merged profile is what the layers are merged to. -/
def IsCascade (t : TerminalCascade) : Prop :=
  ∀ key, (t.resolved key).Same (deepMerge t.layers key)

def wider (t : TerminalCascade) : Scope → List (Option Props)
  | .global => [some t.defaults]
  | .host => [some t.defaults, some t.globals]
  | .channel => [some t.defaults, some t.globals, t.host]

def layer (t : TerminalCascade) : Scope → Option Props
  | .global => some t.globals
  | .host => t.host
  | .channel => t.channel

def narrower (t : TerminalCascade) : Scope → List (Option Props)
  | .global => [t.host, t.channel]
  | .host => [t.channel]
  | .channel => []

/-- A layer as a value; a layer that is not there is empty. -/
def ofLayer (layer : Option Props) : ConfigValue := obj false (layer.getD noProps)

def valueAt (key : Text) (layer : Option Props) : ConfigValue := (ofLayer layer).getIn (parts key)

/-- No layer has anything but groups in front of the key. -/
def Passable (t : TerminalCascade) (key : Text) : Prop :=
  ∀ layer ∈ t.layers, (ofLayer layer).OpenAt (parts key)

/-- The value stays as it is between what the other layers have at the key: no narrower layer has
another value there, and no wider one has anything that the value does not hide. For `null` there is
nothing in the other layers. -/
def Fits (t : TerminalCascade) (e : Edit) : Prop :=
  (stack ((t.wider e.scope).map (valueAt e.key) ++
    e.value.nonNull :: (t.narrower e.scope).map (valueAt e.key))).Same e.value.nonNull

/-- The merged profile has the value already. -/
def IsShown (t : TerminalCascade) (e : Edit) : Prop :=
  (obj false (setNestedValue t.resolved (parts e.key) e.value)).Same (obj false t.resolved)

/-- **When an edit keeps the cascade one.** -/
def Settles (t : TerminalCascade) (e : Edit) : Prop :=
  if (t.layer e.scope).isSome then t.Passable e.key ∧ t.Fits e else t.IsShown e

theorem layers_eq (t : TerminalCascade) (scope : Scope) :
    t.layers = t.wider scope ++ t.layer scope :: t.narrower scope := by
  cases scope <;> rfl

theorem layers_edit (t : TerminalCascade) (e : Edit) :
    (t.edit e).layers = t.wider e.scope ++
      (t.layer e.scope).map (setNestedValue · (parts e.key) e.value) :: t.narrower e.scope := by
  obtain ⟨scope, key, value⟩ := e
  obtain ⟨defaults, globals, host, channel, resolved⟩ := t
  cases scope with
  | global => rfl
  | host => cases host <;> rfl
  | channel => cases channel <;> rfl

theorem resolved_edit (t : TerminalCascade) (e : Edit) :
    (t.edit e).resolved = setNestedValue t.resolved (parts e.key) e.value := by
  obtain ⟨scope, key, value⟩ := e
  obtain ⟨defaults, globals, host, channel, resolved⟩ := t
  cases scope with
  | global => rfl
  | host => cases host <;> rfl
  | channel => cases channel <;> rfl

theorem isGroup_ofLayer (layer : Option Props) : (ofLayer layer).IsGroup := .inr ⟨_, rfl⟩

/-- The merged profile as one value. -/
theorem isCascade_iff :
    t.IsCascade ↔ (obj false t.resolved).Same (stack (t.layers.map ofLayer)) := by
  have hgroups : ∀ v ∈ t.layers.map ofLayer, v.IsGroup :=
    List.forall_mem_map.mpr fun layer _ ↦ isGroup_ofLayer layer
  obtain ⟨merged, hmerged⟩ := stack_group hgroups
    (List.mem_map_of_mem (f := ofLayer) (List.mem_cons_self (a := some t.defaults)))
  rw [hmerged, same_obj_iff, IsCascade]
  refine forall_congr' fun key ↦ ?_
  have hkey := stack_plainProps hgroups key
  rw [hmerged, List.map_map] at hkey
  rw [deepMerge_apply]
  exact ⟨fun h ↦ h.trans hkey.symm, fun h ↦ h.trans hkey⟩

/-- **An edit of a layer that is there**, at a key that all layers let through. -/
theorem isCascade_edit_iff_fits (h : t.IsCascade) (hpass : t.Passable e.key) {own : Props}
    (hlayer : t.layer e.scope = some own) : (t.edit e).IsCascade ↔ t.Fits e := by
  rw [isCascade_iff, t.layers_eq e.scope, List.map_append, List.map_cons] at h
  rw [Passable, t.layers_eq e.scope] at hpass
  rw [isCascade_iff, resolved_edit, layers_edit, hlayer, List.map_append, List.map_cons,
    Option.map_some, ofLayer, Option.getD_some, obj_setNestedValue, obj_setNestedValue, Fits]
  have hwide : ∀ w ∈ (t.wider e.scope).map ofLayer, w.OpenAt (parts e.key) :=
    List.forall_mem_map.mpr fun l hl ↦ hpass l (List.mem_append_left _ hl)
  have hown : (ofLayer (t.layer e.scope)).OpenAt (parts e.key) :=
    hpass _ (List.mem_append_right _ List.mem_cons_self)
  have hnarrow : ∀ w ∈ (t.narrower e.scope).map ofLayer, w.OpenAt (parts e.key) :=
    List.forall_mem_map.mpr fun l hl ↦
      hpass l (List.mem_append_right _ (List.mem_cons_of_mem _ hl))
  have hstack := @stack_setIn_iff _ _ _ _ e.value _ hwide hown hnarrow h
  rw [List.map_map, List.map_map, hlayer] at hstack
  exact Iff.trans ⟨Same.symm, Same.symm⟩ hstack

/-- An edit of a layer that is not there. -/
theorem isCascade_edit_iff_isShown (h : t.IsCascade) (hlayer : t.layer e.scope = none) :
    (t.edit e).IsCascade ↔ t.IsShown e := by
  have hlayers : (t.edit e).layers = t.layers := by
    rw [layers_edit, t.layers_eq e.scope, hlayer, Option.map_none]
  rw [isCascade_iff] at h
  rw [isCascade_iff, hlayers, resolved_edit, IsShown]
  exact ⟨fun h' ↦ h'.trans h.symm, fun h' ↦ h'.trans h⟩

end TerminalCascade

/-! ## The copy -/

theorem copy_nonNull (v : ConfigValue) : copy v.nonNull = (copy v).nonNull := by
  rcases v with _ | _ | _ | ⟨_ | _, _⟩ <;> rfl

theorem copy_mergeValue (v w : ConfigValue) :
    copy (mergeValue v w) = mergeValue (copy v) (copy w) := by
  induction w generalizing v with
  | undefined =>
    rw [mergeValue_undefined]
    exact (mergeValue_undefined _).symm
  | null => rfl
  | scalar s => rfl
  | obj isArray source ih =>
    cases isArray with
    | true => rfl
    | false =>
      rcases v with _ | _ | _ | ⟨_ | _, result⟩
      case obj.false =>
        rw [mergeValue, copy, copy, copy, mergeValue]
        congr 1
        funext key
        rw [ih, copy_nonNull]
      all_goals rfl

theorem copy_stack (vs : List ConfigValue) : copy (stack vs) = stack (vs.map copy) := by
  have hfold : ∀ v, copy (vs.foldl mergeValue v) = (vs.map copy).foldl mergeValue (copy v) := by
    induction vs with
    | nil => exact fun v ↦ rfl
    | cons w vs ih =>
      intro v
      rw [List.foldl_cons, ih, List.map_cons, List.foldl_cons, copy_mergeValue]
  exact hfold .undefined

theorem erase_copy (v : ConfigValue) : (copy v).erase = copy v.erase := by
  induction v with
  | undefined => rfl
  | null => rfl
  | scalar s => rfl
  | obj isArray props ih =>
    cases isArray with
    | false => exact congrArg (ConfigValue.obj false) (funext ih)
    | true =>
      refine congrArg (ConfigValue.obj true) (funext fun key ↦ ?_)
      dsimp only
      split
      · exact ih key
      · rfl

variable {t : TerminalCascade}

/-- The copy of a cascade is one. -/
theorem TerminalCascade.IsCascade.copy (h : t.IsCascade) :
    t.copy.IsCascade := by
  intro key
  have hlayers : t.copy.layers = t.layers.map (Option.map copyProps) := rfl
  have hcopy : deepMerge t.copy.layers key = Settings.copy (deepMerge t.layers key) := by
    rw [hlayers, deepMerge_apply, deepMerge_apply, copy_stack, List.map_map, List.map_map]
    congr 1
    refine List.map_congr_left fun layer _ ↦ ?_
    cases layer <;> rfl
  have hsame : (t.resolved key).erase = (deepMerge t.layers key).erase := h key
  rw [hcopy, Same, erase_copy, ← hsame, ← erase_copy]
  rfl

/-! ## The hub's answer is a cascade -/

theorem withLayer_same {profile : Props} {sources : List (Option Props)}
    (h : ∀ key, (profile key).Same (deepMerge sources key)) (layer : Option Props) (key : Text) :
    (withLayer profile layer key).Same (deepMerge (sources ++ [layer]) key) := by
  have hsplit : deepMerge (sources ++ [layer]) key =
      mergeValue (deepMerge sources key) (layer.getD noProps key) := by
    rw [deepMerge_apply, deepMerge_apply, List.map_append, stack, stack, List.foldl_append]
    rfl
  rw [hsplit]
  cases layer with
  | none =>
    rw [Option.getD_none, noProps, mergeValue_undefined]
    exact h key
  | some layer =>
    have hstart : (mergeValue .undefined (profile key)).Same (deepMerge sources key) := by
      rw [mergeValue_undefined_left]
      exact (same_nonNull _).trans (h key)
    exact hstart.mergeValue (layer key)

/-- **The hub answers with a cascade.** -/
theorem isCascade_getCascade (defaults : Props) (fileConfig host channel : Option Props) :
    (getCascade defaults fileConfig host channel).IsCascade := by
  intro key
  have hfile : deepMerge (getCascade defaults fileConfig host channel).layers key =
      deepMerge [some defaults, fileConfig, host, channel] key := by
    rw [deepMerge_apply, deepMerge_apply]
    rfl
  rw [hfile]
  let base := deepMerge [some defaults]
  have hbase : ∀ key, (base key).Same (deepMerge [some defaults] key) := fun _ ↦ .refl _
  have hfileConfig : ∀ key, (withLayer base fileConfig key).Same
      (deepMerge [some defaults, fileConfig] key) := withLayer_same hbase fileConfig
  have hhost : ∀ key, (withLayer (withLayer base fileConfig) host key).Same
      (deepMerge [some defaults, fileConfig, host] key) := withLayer_same hfileConfig host
  exact withLayer_same hhost channel key

/-! ## Sequences of calls -/

inductive Call
  | updateSetting (scope : Scope) (key : Text) (value : ConfigValue)
  | resetSetting (scope : Scope) (key : Text)

/-- What a call edits at once; `resetSetting` is `updateSetting` with `null`. -/
def Call.edit : Call → Edit
  | updateSetting scope key value => ⟨scope, key, value⟩
  | resetSetting scope key => ⟨scope, key, .null⟩

/-- A call for the terminal. -/
def step (c : CascadeResponse) (call : Call) : Option CascadeResponse :=
  applyOptimistic (some c) .terminal call.edit

/-- A layer that is edited lets the key through. -/
def Reaches (t : TerminalCascade) (e : Edit) : Prop :=
  (t.layer e.scope).isSome = true → t.Passable e.key

theorem isCascade_edit_iff {e : Edit} (h : t.IsCascade)
    (hreach : Reaches t e) : (t.edit e).IsCascade ↔ t.Settles e := by
  unfold TerminalCascade.Settles
  cases hlayer : t.layer e.scope with
  | none => exact TerminalCascade.isCascade_edit_iff_isShown h hlayer
  | some own =>
    have hpass := hreach (hlayer ▸ rfl)
    exact (TerminalCascade.isCascade_edit_iff_fits h hpass hlayer).trans
      (and_iff_right hpass).symm

theorem TerminalCascade.Settles.reaches {e : Edit} (h : t.Settles e) :
    Reaches t e := by
  intro hlayer
  rw [Settles, if_pos hlayer] at h
  exact h.1

/-- **The cascade stays one where every call settles.** For a call whose key the layers let through
this is also the only way. -/
theorem cascade_kept_iff (c : CascadeResponse) (hc : c.terminal.IsCascade) :
    (∀ calls, Along step (fun c call _ ↦ c.terminal.copy.Settles call.edit) c calls →
      Along step (fun _ _ c' ↦ c'.terminal.IsCascade) c calls) ∧
    ∀ call c', step c call = some c' → Reaches c.terminal.copy call.edit →
      (c'.terminal.IsCascade ↔ c.terminal.copy.Settles call.edit) := by
  have hstep : ∀ (c : CascadeResponse) (call : Call) (c' : CascadeResponse),
      c.terminal.IsCascade → Reaches c.terminal.copy call.edit → step c call = some c' →
      (c'.terminal.IsCascade ↔ c.terminal.copy.Settles call.edit) := by
    intro c call c' hc hreach hstep
    cases hstep
    exact isCascade_edit_iff hc.copy hreach
  refine ⟨fun calls hcalls ↦ ?_, fun call c' h hreach ↦ hstep c call c' hc hreach h⟩
  refine along_of_invariant (fun c ↦ c.terminal.IsCascade) ?_ hc hcalls
  intro c call c' hc hsettles hcall
  have hc' := (hstep c call c' hc hsettles.reaches hcall).mpr hsettles
  exact ⟨hc', hc'⟩

section Overrides

def fontSize (n : ℚ) : Props := Function.update noProps "fontSize".toList (.scalar (.num n))

/-- A host with an override, or without a profile. -/
def fontCascade (host : Option Props) : CascadeResponse :=
  ⟨getCascade (fontSize 14) none host none, ⟨noProps, noProps⟩, noProps, none⟩

def widerEdit : Call := .updateSetting .global "fontSize".toList (.scalar (.num 20))

theorem parts_fontSize : parts "fontSize".toList = ["fontSize".toList] := by
  decide +kernel

theorem cascade_kept_iff_noOverride :
    Along step (fun _ _ c' ↦ c'.terminal.IsCascade) (fontCascade none) [widerEdit] := by
  refine (cascade_kept_iff (fontCascade none) (isCascade_getCascade _ _ _ _)).1 _
    ((along_cons_of_eq rfl).mpr ⟨?_, trivial⟩)
  refine ⟨fun layer _ ↦ ?_, ?_⟩
  · rw [TerminalCascade.ofLayer, widerEdit, Call.edit, parts_fontSize]
    exact ⟨.inr ⟨_, rfl⟩, trivial⟩
  · rw [TerminalCascade.Fits]
    unfold TerminalCascade.valueAt
    rw [widerEdit, Call.edit, parts_fontSize]
    rfl

/-- The wider edit hides the override of the host. -/
theorem not_cascade_kept_override :
    ¬∀ (c : CascadeResponse) (calls : List Call), c.terminal.IsCascade →
      Along step (fun _ _ c' ↦ c'.terminal.IsCascade) c calls := by
  intro h
  have hkept := h (fontCascade (some (fontSize 16))) [widerEdit] (isCascade_getCascade _ _ _ _)
  have hcascade := ((along_cons_of_eq rfl).mp hkept).1 "fontSize".toList
  rw [TerminalCascade.resolved_edit, widerEdit, Call.edit, parts_fontSize] at hcascade
  have hsame : ConfigValue.scalar (.num 20) = .scalar (.num 16) := hcascade
  injection hsame with hscalar
  injection hscalar with hnum
  exact absurd hnum (by decide)

end Overrides

end Lasterm.Web.Settings
