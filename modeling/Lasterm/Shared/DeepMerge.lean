import Lasterm.Library.Shell
import Mathlib.Data.Rat.Defs

/-!
# Merging layers of settings

`deepMerge` of `shared/config.ts` puts layers of settings over one another: what a later layer has
under a name wins, objects are merged name by name, and `null` takes a name away.

A value is what is read under each name, without the order of the names. A name that an object does
not have reads as `undefined`, and an array is an object of its own kind with its indices for names.
Where `null` is left inside a value, it is one setting that is not there (`Same`).

Layers that have nothing but objects on the way to a path can be merged at the path alone
(`stack_setIn_iff`): to put a value there in one of the layers puts it there in what they are merged
to, if and only if the value stays as it is between what the other layers have there.
-/

namespace Lasterm.Config

open Shell

inductive Scalar
  | bool (b : Bool)
  | num (n : ℚ)
  | str (s : Text)

inductive ConfigValue
  | undefined
  | null
  | scalar (s : Scalar)
  | obj (isArray : Bool) (props : Text → ConfigValue)

abbrev Props := Text → ConfigValue

namespace ConfigValue

def noProps : Props := fun _ ↦ .undefined

/-- What is left of a value where `null` removes the key. -/
def nonNull : ConfigValue → ConfigValue
  | null => undefined
  | v => v

/-! ## `deepMerge` -/

/-- What stands in the result under a key, from what stood there and what the source has. -/
def mergeValue : ConfigValue → ConfigValue → ConfigValue
  | v, undefined => v
  | _, null => undefined
  | _, scalar s => scalar s
  | _, obj true props => obj true props
  -- Both are plain objects: `deepMerge` of the two, which starts with the first one without its
  -- nulls.
  | obj false result, obj false source =>
    obj false fun key ↦ mergeValue (result key).nonNull (source key)
  | _, obj false source => obj false source

def mergeInto (result source : Props) : Props := fun key ↦ mergeValue (result key) (source key)

def deepMerge (sources : List (Option Props)) : Props :=
  sources.foldl (fun result source ↦ (source.map (mergeInto result)).getD result) noProps

theorem mergeValue_undefined_left (v : ConfigValue) : mergeValue undefined v = v.nonNull := by
  rcases v with _ | _ | _ | ⟨_ | _, _⟩ <;> rfl

@[simp] theorem mergeValue_undefined (v : ConfigValue) : mergeValue v undefined = v := by
  cases v <;> rfl

/-! ## Settings that are there -/

/-- The value with nothing where it has `null`. -/
def erase : ConfigValue → ConfigValue
  | null => undefined
  | obj isArray props => obj isArray fun key ↦ erase (props key)
  | v => v

/-- The two have the same settings. -/
def Same (v w : ConfigValue) : Prop := v.erase = w.erase

@[refl] theorem Same.refl (v : ConfigValue) : v.Same v := rfl

theorem Same.symm {v w : ConfigValue} (h : v.Same w) : w.Same v := Eq.symm h

theorem Same.trans {u v w : ConfigValue} (h : u.Same v) (h' : v.Same w) : u.Same w := Eq.trans h h'

theorem same_nonNull (v : ConfigValue) : v.nonNull.Same v := by
  cases v <;> rfl

theorem same_obj_iff {isArray : Bool} {props props' : Props} :
    (obj isArray props).Same (obj isArray props') ↔ ∀ key, (props key).Same (props' key) := by
  rw [Same, erase, erase, obj.injEq, funext_iff]
  exact and_iff_right rfl

/-- What a plain object has under its keys, and nothing for any other value. -/
def plainProps : ConfigValue → Props
  | obj false props => props
  | _ => noProps

theorem Same.plainProps {v v' : ConfigValue} (h : v.Same v') (key : Text) :
    (v.plainProps key).Same (v'.plainProps key) := by
  have herase : ∀ w : ConfigValue, (w.plainProps key).erase = w.erase.plainProps key := by
    intro w
    rcases w with _ | _ | _ | ⟨_ | _, _⟩ <;> rfl
  have heq : v.erase = v'.erase := h
  rw [Same, herase, herase, heq]

/-- Under a plain object, every other value is as good as an empty one. -/
private theorem mergeValue_obj_same (v : ConfigValue) (source : Props) :
    (mergeValue v (obj false source)).Same
      (obj false fun key ↦ mergeValue (v.plainProps key).nonNull (source key)) := by
  have hother : (obj false source).Same
      (obj false fun key ↦ mergeValue (noProps key).nonNull (source key)) :=
    same_obj_iff.mpr fun key ↦
      (mergeValue_undefined_left (source key) ▸ same_nonNull (source key)).symm
  rcases v with _ | _ | _ | ⟨_ | _, _⟩
  case obj.false => rfl
  all_goals exact hother

/-- What is merged over a value depends on the settings of the value only. -/
theorem Same.mergeValue {v v' : ConfigValue} (h : v.Same v') (w : ConfigValue) :
    (mergeValue v w).Same (mergeValue v' w) := by
  induction w generalizing v v' with
  | undefined =>
    rw [mergeValue_undefined, mergeValue_undefined]
    exact h
  | null => rfl
  | scalar s => rfl
  | obj isArray source ih =>
    cases isArray with
    | true => rfl
    | false =>
      refine (mergeValue_obj_same v source).trans (.trans ?_ (mergeValue_obj_same v' source).symm)
      refine same_obj_iff.mpr fun key ↦ ih key ?_
      exact (same_nonNull _).trans ((h.plainProps key).trans (same_nonNull _).symm)

theorem same_mergeValue_obj (v : ConfigValue) (source : Props) :
    (mergeValue v (obj false source)).Same
      (obj false fun key ↦ mergeValue (v.plainProps key) (source key)) :=
  (mergeValue_obj_same v source).trans
    (same_obj_iff.mpr fun key ↦ (same_nonNull _).mergeValue (source key))

/-! ## What layers have under a key -/

/-- What the layers have at one place, merged. -/
def stack (vs : List ConfigValue) : ConfigValue := vs.foldl mergeValue undefined

/-- Layers that are put over one another key by key are merged at each key. -/
theorem foldl_sources_apply (f : ConfigValue → ConfigValue → ConfigValue)
    (hf : ∀ v, f v undefined = v) (sources : List (Option Props)) (result : Props) (key : Text) :
    sources.foldl (fun result source ↦
        (source.map fun source key ↦ f (result key) (source key)).getD result) result key =
      (sources.map fun source ↦ source.getD noProps key).foldl f (result key) := by
  induction sources generalizing result with
  | nil => rfl
  | cons source sources ih =>
    rw [List.foldl_cons, ih, List.map_cons, List.foldl_cons]
    cases source with
    | none => exact (congrArg (fun v ↦ (List.map _ sources).foldl f v) (hf (result key))).symm
    | some source => rfl

theorem deepMerge_apply (sources : List (Option Props)) (key : Text) :
    deepMerge sources key = stack (sources.map fun source ↦ source.getD noProps key) :=
  foldl_sources_apply mergeValue mergeValue_undefined sources noProps key

theorem Same.foldl_mergeValue {v v' : ConfigValue} (h : v.Same v') (vs : List ConfigValue) :
    (vs.foldl ConfigValue.mergeValue v).Same (vs.foldl ConfigValue.mergeValue v') := by
  induction vs generalizing v v' with
  | nil => exact h
  | cons w vs ih => exact ih (h.mergeValue w)

/-- A plain object or nothing: where settings are grouped. -/
def IsGroup (v : ConfigValue) : Prop := v = undefined ∨ ∃ props, v = obj false props

theorem IsGroup.mergeValue {v w : ConfigValue} (hv : v.IsGroup) (hw : w.IsGroup) :
    (mergeValue v w).IsGroup := by
  rcases hw with rfl | ⟨source, rfl⟩
  · rwa [mergeValue_undefined]
  · rcases hv with rfl | ⟨result, rfl⟩ <;> exact .inr ⟨_, rfl⟩

/-- Groups are merged key by key. -/
theorem IsGroup.same_mergeValue {v w : ConfigValue} (hw : w.IsGroup) (key : Text) :
    ((ConfigValue.mergeValue v w).plainProps key).Same
      (ConfigValue.mergeValue (v.plainProps key) (w.plainProps key)) := by
  rcases hw with rfl | ⟨source, rfl⟩
  · rw [mergeValue_undefined]
    exact congrArg erase (mergeValue_undefined _).symm
  · exact (same_mergeValue_obj v source).plainProps key

variable {vs : List ConfigValue} {v : ConfigValue}

theorem stack_plainProps (h : ∀ v ∈ vs, v.IsGroup) (key : Text) :
    ((stack vs).plainProps key).Same (stack (vs.map (·.plainProps key))) := by
  have hfold : ∀ v : ConfigValue, ((vs.foldl ConfigValue.mergeValue v).plainProps key).Same
      ((vs.map (·.plainProps key)).foldl ConfigValue.mergeValue (v.plainProps key)) := by
    induction vs with
    | nil => exact fun v ↦ .refl _
    | cons w vs ih =>
      intro v
      rw [List.foldl_cons, List.map_cons, List.foldl_cons]
      refine (ih (fun u hu ↦ h u (List.mem_cons_of_mem w hu)) _).trans ?_
      exact ((h w List.mem_cons_self).same_mergeValue key).foldl_mergeValue _
  exact hfold undefined

/-- A group that is there in one of the layers is there. -/
theorem stack_group (h : ∀ v ∈ vs, v.IsGroup) {props : Props}
    (hmem : obj false props ∈ vs) : ∃ merged, stack vs = obj false merged := by
  have hkept : ∀ (ws : List ConfigValue) (result : Props), (∀ w ∈ ws, w.IsGroup) →
      ∃ merged, ws.foldl ConfigValue.mergeValue (obj false result) = obj false merged := by
    intro ws
    induction ws with
    | nil => exact fun result _ ↦ ⟨result, rfl⟩
    | cons w ws ih =>
      intro result hws
      rw [List.forall_mem_cons] at hws
      rcases hws.1 with rfl | ⟨source, rfl⟩
      · exact ih result hws.2
      · exact ih _ hws.2
  have hfold : ∀ v : ConfigValue, v.IsGroup →
      ∃ merged, vs.foldl ConfigValue.mergeValue v = obj false merged := by
    induction vs with
    | nil => exact absurd hmem List.not_mem_nil
    | cons w vs ih =>
      intro v hv
      rw [List.forall_mem_cons] at h
      rcases List.mem_cons.mp hmem with rfl | hmem
      · rcases hv with rfl | ⟨result, rfl⟩ <;> exact hkept vs _ h.2
      · exact ih h.2 hmem _ (hv.mergeValue h.1)
  exact hfold undefined (.inl rfl)

/-! ## A value at a path -/

/-- What is under the keys of an object, of arrays too. -/
def props : ConfigValue → Props
  | obj _ props => props
  | _ => noProps

def isArray : ConfigValue → Bool
  | obj isArray _ => isArray
  | _ => false

/-- The value at a path is replaced; on the way, what is no object becomes an empty one. `null`
removes the key. -/
def setIn (v : ConfigValue) : List Text → ConfigValue → ConfigValue
  | [], value => value.nonNull
  | key :: path, value =>
    obj v.isArray (Function.update v.props key (setIn (v.props key) path value))

def getIn (v : ConfigValue) (path : List Text) : ConfigValue :=
  path.foldl (fun v key ↦ v.props key) v

theorem getIn_setIn (v : ConfigValue) (path : List Text) (value : ConfigValue) :
    (v.setIn path value).getIn path = value.nonNull := by
  induction path generalizing v with
  | nil => rfl
  | cons key path ih =>
    have hinner : (v.setIn (key :: path) value).props key = (v.props key).setIn path value :=
      Function.update_self ..
    rw [getIn, List.foldl_cons, hinner]
    exact ih (v.props key)

/-- There are only groups in front of the path. -/
def OpenAt (v : ConfigValue) : List Text → Prop
  | [] => True
  | key :: path => v.IsGroup ∧ OpenAt (v.props key) path

theorem IsGroup.props_eq (h : v.IsGroup) : v.props = v.plainProps := by
  rcases h with rfl | ⟨props, rfl⟩ <;> rfl

theorem IsGroup.setIn_cons (h : v.IsGroup) (key : Text) (path : List Text)
    (value : ConfigValue) : v.setIn (key :: path) value =
      obj false (Function.update v.plainProps key (setIn (v.plainProps key) path value)) := by
  rcases h with rfl | ⟨props, rfl⟩ <;> rfl

theorem setIn_cons_of_plain (h : v = null ∨ v.IsGroup) (key : Text)
    (path : List Text) (value : ConfigValue) : v.setIn (key :: path) value =
      obj false (Function.update v.plainProps key (setIn (v.plainProps key) path value)) := by
  rcases h with rfl | h
  · rfl
  · exact h.setIn_cons key path value

theorem stack_isGroup (h : ∀ v ∈ vs, v.IsGroup) : (stack vs).IsGroup := by
  have hfold : ∀ v : ConfigValue, v.IsGroup → (vs.foldl ConfigValue.mergeValue v).IsGroup := by
    induction vs with
    | nil => exact fun v hv ↦ hv
    | cons w vs ih =>
      intro v hv
      rw [List.forall_mem_cons] at h
      exact ih h.2 _ (hv.mergeValue h.1)
  exact hfold undefined (.inl rfl)

theorem IsGroup.of_same {v w : ConfigValue} (hw : w.IsGroup) (h : v.Same w) :
    v = null ∨ v.IsGroup := by
  have herase : v.erase = w.erase := h
  rcases hw with rfl | ⟨props, rfl⟩ <;> rcases v with _ | _ | _ | ⟨isArray, props'⟩
  all_goals try cases herase
  · exact .inr (.inl rfl)
  · exact .inl rfl
  · obtain ⟨rfl, -⟩ := obj.inj herase
    exact .inr (.inr ⟨props', rfl⟩)

theorem IsGroup.getIn_cons (h : v.IsGroup) (key : Text) (path : List Text) :
    v.getIn (key :: path) = (v.plainProps key).getIn path := by
  rw [getIn, List.foldl_cons, h.props_eq, getIn]

theorem getIn_cons_map {key : Text} {path : List Text} (h : ∀ v ∈ vs, v.OpenAt (key :: path)) :
    vs.map (·.getIn (key :: path)) = (vs.map (·.plainProps key)).map (·.getIn path) := by
  rw [List.map_map]
  exact List.map_congr_left fun v hv ↦ (h v hv).1.getIn_cons key path

theorem OpenAt.tail {key : Text} {path : List Text} (h : v.OpenAt (key :: path)) :
    (v.plainProps key).OpenAt path :=
  h.1.props_eq ▸ h.2

/-- **To put a value at a path of one layer puts it there in the merged value, if and only if it
stays as it is between what the other layers have there.** -/
theorem stack_setIn_iff {wide narrow : List ConfigValue} {v resolved value : ConfigValue}
    {path : List Text} (hwide : ∀ w ∈ wide, w.OpenAt path) (hv : v.OpenAt path)
    (hnarrow : ∀ w ∈ narrow, w.OpenAt path)
    (hresolved : resolved.Same (stack (wide ++ v :: narrow))) :
    (stack (wide ++ v.setIn path value :: narrow)).Same (resolved.setIn path value) ↔
      (stack (wide.map (·.getIn path) ++ value.nonNull :: narrow.map (·.getIn path))).Same
        value.nonNull := by
  induction path generalizing wide narrow v resolved with
  | nil =>
    have hid : ∀ vs : List ConfigValue, vs.map (·.getIn []) = vs := fun vs ↦ List.map_id vs
    rw [hid, hid]
    exact Iff.rfl
  | cons key path ih =>
    have hlayers : ∀ w : ConfigValue, w.IsGroup → ∀ u ∈ wide ++ w :: narrow, u.IsGroup := by
      intro w hw u hu
      rcases List.mem_append.mp hu with hu | hu
      · exact (hwide u hu).1
      · rcases List.mem_cons.mp hu with rfl | hu
        · exact hw
        · exact (hnarrow u hu).1
    have hplain := (stack_isGroup (hlayers v hv.1)).of_same hresolved
    rw [hv.1.setIn_cons, setIn_cons_of_plain hplain]
    generalize hinner : (v.plainProps key).setIn path value = inner
    have hedited := hlayers (obj false (Function.update v.plainProps key inner)) (.inr ⟨_, rfl⟩)
    obtain ⟨merged, hmerged⟩ := stack_group hedited (List.mem_append_right _ List.mem_cons_self)
    have hunder : ∀ k, (merged k).Same (stack (wide.map (·.plainProps k) ++
        Function.update v.plainProps key inner k :: narrow.map (·.plainProps k))) := by
      intro k
      have hstack := stack_plainProps hedited k
      rw [hmerged, List.map_append, List.map_cons] at hstack
      exact hstack
    have hbefore : ∀ k, (resolved.plainProps k).Same (stack (wide.map (·.plainProps k) ++
        v.plainProps k :: narrow.map (·.plainProps k))) := by
      intro k
      have hstack := stack_plainProps (hlayers v hv.1) k
      rw [List.map_append, List.map_cons] at hstack
      exact (hresolved.plainProps k).trans hstack
    rw [hmerged, same_obj_iff, getIn_cons_map hwide, getIn_cons_map hnarrow]
    have hwide' : ∀ w ∈ wide.map (·.plainProps key), w.OpenAt path :=
      List.forall_mem_map.mpr fun w hw ↦ (hwide w hw).tail
    have hnarrow' : ∀ w ∈ narrow.map (·.plainProps key), w.OpenAt path :=
      List.forall_mem_map.mpr fun w hw ↦ (hnarrow w hw).tail
    have hih := ih hwide' hv.tail hnarrow' (hbefore key)
    have hat := hunder key
    rw [Function.update_self] at hat
    rw [← hih, hinner]
    constructor
    · intro h
      have hkey := h key
      rw [Function.update_self] at hkey
      exact hat.symm.trans hkey
    · intro h k
      by_cases hk : k = key
      · subst hk
        rw [Function.update_self]
        exact hat.trans h
      · -- Beside the path nothing has changed.
        rw [Function.update_of_ne hk]
        have hother := hunder k
        rw [Function.update_of_ne hk] at hother
        exact hother.trans (hbefore k).symm

end ConfigValue

end Lasterm.Config
