import Mathlib.Data.List.Induction
import Lasterm.Shared.DeepMerge

/-!
# The documented rules of a merge

The docstring of `deepMerge` gives rules, and `refMerge` follows them at every depth: `null` removes
the key, scalars and arrays replace, and an object is merged key by key into the object before it,
or into an empty one.

`deepMerge` takes an object that is new under its key as it is, with the nulls in it. What the rules
give is what it gives without these nulls (`stripNulls_stack`), so that the two differ just where a
null is left in an object. Whether one is left is decided at one place of the layers: by the last
layer that says something there, and the last one before it (`HidesNull`,
`under_stack_eq_null_iff`).
-/

namespace Lasterm.Config

open Shell

namespace ConfigValue

/-! ## The rules -/

/-- What stands under a key by the rules. -/
def refValue : ConfigValue → ConfigValue → ConfigValue
  | v, undefined => v
  | _, null => undefined
  | _, scalar s => scalar s
  | _, obj true props => obj true props
  | obj false result, obj false source => obj false fun key ↦ refValue (result key) (source key)
  | _, obj false source => obj false fun key ↦ refValue undefined (source key)

def refInto (result source : Props) : Props := fun key ↦ refValue (result key) (source key)

/-- The left fold over the layers, from the empty object on. -/
def refMerge (sources : List (Option Props)) : Props :=
  sources.foldl (fun result source ↦ (source.map (refInto result)).getD result) noProps

/-- What plain objects have at a path. -/
def under (v : ConfigValue) (path : List Text) : ConfigValue :=
  path.foldl (fun v key ↦ v.plainProps key) v

/-- There is no null at any depth of plain objects. -/
def NullFree (v : ConfigValue) : Prop := ∀ path, v.under path ≠ null

/-! ## What a layer says -/

/-- What a layer says at a path: `undefined` is nothing, and what is no plain object says that there
is no object at any place below it. -/
def wordAt : ConfigValue → List Text → ConfigValue
  | v, [] => v
  | obj false props, key :: path => wordAt (props key) path
  | undefined, _ :: _ => undefined
  | _, _ :: _ => null

def isUndefined : ConfigValue → Bool
  | undefined => true
  | _ => false

def isPlain : ConfigValue → Bool
  | obj false _ => true
  | _ => false

/-- The words that are not `undefined`. -/
def said (words : List ConfigValue) : List ConfigValue := words.filter fun v ↦ !v.isUndefined

/-- Nothing is said, or in the end that there is no object. -/
def Closed (words : List ConfigValue) : Prop := ∀ v ∈ (said words).getLast?, v.isPlain = false

/-- The last word is an object with a null under the key, and no object is said before it. -/
def HidesNull (words : List ConfigValue) (key : Text) : Prop :=
  ∃ front source, said words = front ++ [obj false source] ∧ source key = null ∧ Closed front

/-! ## The rules and the code -/

/-- A value without the nulls in plain objects. -/
def stripNulls : ConfigValue → ConfigValue
  | null => undefined
  | obj false props => obj false fun key ↦ stripNulls (props key)
  | v => v

theorem stripNulls_nonNull (v : ConfigValue) : v.nonNull.stripNulls = v.stripNulls := by
  cases v <;> rfl

/-- The step of the rules does without nulls what the step of the code does with them. -/
theorem refValue_stripNulls (v w : ConfigValue) :
    refValue v.stripNulls w = (mergeValue v w).stripNulls := by
  induction w generalizing v with
  | undefined => rw [mergeValue_undefined, refValue]
  | null => rfl
  | scalar s => rfl
  | obj isArray source ih =>
    cases isArray with
    | true => rfl
    | false =>
      have hnew : (obj false fun key ↦ refValue undefined (source key)) =
          stripNulls (obj false source) := by
        rw [stripNulls]
        congr 1
        funext key
        have hkey := ih key undefined
        rwa [mergeValue_undefined_left, stripNulls_nonNull] at hkey
      rcases v with _ | _ | _ | ⟨_ | _, result⟩
      case obj.false =>
        rw [stripNulls, refValue, mergeValue, stripNulls]
        congr 1
        funext key
        rw [← ih key, stripNulls_nonNull]
      all_goals exact hnew

/-- What the rules give for layers is what the code gives without the nulls in it. -/
theorem stripNulls_stack (vs : List ConfigValue) :
    (stack vs).stripNulls = vs.foldl refValue undefined := by
  have hfold : ∀ v : ConfigValue,
      (vs.foldl mergeValue v).stripNulls = vs.foldl refValue v.stripNulls := by
    induction vs with
    | nil => exact fun v ↦ rfl
    | cons w vs ih =>
      intro v
      rw [List.foldl_cons, ih, List.foldl_cons, refValue_stripNulls]
  exact hfold undefined

theorem refMerge_apply (sources : List (Option Props)) (key : Text) :
    refMerge sources key = (deepMerge sources key).stripNulls := by
  have hundefined (v : ConfigValue) : refValue v undefined = v := by
    cases v <;> rfl
  rw [deepMerge_apply, stripNulls_stack]
  exact foldl_sources_apply refValue hundefined sources noProps key

theorem under_cons (v : ConfigValue) (key : Text) (path : List Text) :
    v.under (key :: path) = (v.plainProps key).under path := rfl

theorem under_undefined (path : List Text) : undefined.under path = undefined := by
  induction path with
  | nil => rfl
  | cons key path ih => exact ih

theorem plainProps_of_not_plain {v : ConfigValue} (h : v.isPlain = false) (key : Text) :
    v.plainProps key = undefined := by
  rcases v with _ | _ | _ | ⟨_ | _, _⟩
  case obj.false => cases h
  all_goals rfl

theorem under_of_not_plain {v : ConfigValue} (h : v.isPlain = false) {path : List Text}
    (hpath : path ≠ []) : v.under path = undefined := by
  cases path with
  | nil => exact absurd rfl hpath
  | cons key path => rw [under_cons, plainProps_of_not_plain h, under_undefined]

theorem nullFree_of_not_plain {v : ConfigValue} (h : v.isPlain = false) (hnull : v ≠ null) :
    v.NullFree := by
  intro path
  cases path with
  | nil => exact hnull
  | cons key path =>
    rw [under_of_not_plain h (List.cons_ne_nil key path)]
    exact ConfigValue.noConfusion

theorem nullFree_obj_iff {props : Props} :
    (obj false props).NullFree ↔ ∀ key, (props key).NullFree := by
  refine ⟨fun h key path ↦ h (key :: path), fun h path ↦ ?_⟩
  cases path with
  | nil => exact ConfigValue.noConfusion
  | cons key path => exact h key path

theorem stripNulls_eq_self_iff {v : ConfigValue} : v.stripNulls = v ↔ v.NullFree := by
  induction v with
  | undefined => exact iff_of_true rfl (nullFree_of_not_plain rfl ConfigValue.noConfusion)
  | null => exact iff_of_false ConfigValue.noConfusion fun h ↦ h [] rfl
  | scalar s => exact iff_of_true rfl (nullFree_of_not_plain rfl ConfigValue.noConfusion)
  | obj isArray props ih =>
    cases isArray with
    | true => exact iff_of_true rfl (nullFree_of_not_plain rfl ConfigValue.noConfusion)
    | false =>
      rw [nullFree_obj_iff, stripNulls, obj.injEq, eq_self_iff_true, true_and, funext_iff]
      exact forall_congr' ih

/-! ## What is said -/

variable {vs front : List ConfigValue} {objs : List Props} {v w : ConfigValue} {key : Text}
  {path : List Text}

theorem said_append (words words' : List ConfigValue) :
    said (words ++ words') = said words ++ said words' := List.filter_append ..

theorem said_cons_of_said (hv : v.isUndefined = false) (words : List ConfigValue) :
    said (v :: words) = v :: said words := List.filter_cons_of_pos (by simp [hv])

theorem eq_undefined_of_isUndefined (hv : v.isUndefined = true) : v = undefined := by
  cases v
  case undefined => rfl
  all_goals cases hv

theorem said_said (words : List ConfigValue) : said (said words) = said words := by
  rw [said, said, List.filter_filter]
  exact List.filter_congr fun v _ ↦ Bool.and_self _

theorem said_objs (objs : List Props) : said (objs.map (obj false)) = objs.map (obj false) := by
  refine List.filter_eq_self.mpr fun v hv ↦ ?_
  obtain ⟨o, -, rfl⟩ := List.mem_map.mp hv
  rfl

/-- Who says nothing says nothing at any path. -/
theorem said_map_wordAt (vs : List ConfigValue) (path : List Text) :
    said ((said vs).map (·.wordAt path)) = said (vs.map (·.wordAt path)) := by
  induction vs with
  | nil => rfl
  | cons v vs ih =>
    cases hv : v.isUndefined with
    | true =>
      obtain rfl := eq_undefined_of_isUndefined hv
      have hword : undefined.wordAt path = undefined := by
        cases path <;> rfl
      rw [List.map_cons, hword]
      exact ih
    | false =>
      have happend (words : List ConfigValue) : said (v.wordAt path :: words) =
          said [v.wordAt path] ++ said words := said_append [v.wordAt path] words
      rw [said_cons_of_said hv, List.map_cons, List.map_cons, happend, ih, ← happend]

theorem stack_said (vs : List ConfigValue) : stack (said vs) = stack vs := by
  have hfold : ∀ v : ConfigValue, (said vs).foldl mergeValue v = vs.foldl mergeValue v := by
    induction vs with
    | nil => exact fun v ↦ rfl
    | cons w vs ih =>
      intro v
      cases hw : w.isUndefined with
      | true =>
        obtain rfl := eq_undefined_of_isUndefined hw
        rw [List.foldl_cons, mergeValue_undefined]
        exact ih v
      | false => rw [said_cons_of_said hw, List.foldl_cons, List.foldl_cons, ih]
  exact hfold undefined

theorem said_singleton (hv : v.isUndefined = false) : said [v] = [v] := said_cons_of_said hv []

theorem closed_append_singleton (hv : v.isUndefined = false) (hplain : v.isPlain = false) :
    Closed (front ++ [v]) := by
  intro w hw
  rw [said_append, said_singleton hv, List.getLast?_concat] at hw
  cases hw
  exact hplain

/-- Words end with objects, if only with none of them. -/
theorem exists_objects (vs : List ConfigValue) : ∃ (front : List ConfigValue) (objs : List Props),
    said vs = front ++ objs.map (obj false) ∧ Closed front := by
  induction vs using List.reverseRecOn with
  | nil => exact ⟨[], [], rfl, nofun⟩
  | append_singleton vs v ih =>
    obtain ⟨front, objs, hsaid, hclosed⟩ := ih
    rw [said_append]
    cases hv : v.isUndefined with
    | true =>
      obtain rfl := eq_undefined_of_isUndefined hv
      exact ⟨front, objs, (List.append_nil _).trans hsaid, hclosed⟩
    | false =>
      rw [said_singleton hv]
      cases hplain : v.isPlain with
      | true =>
        obtain ⟨source, rfl⟩ : ∃ source, v = obj false source := by
          rcases v with _ | _ | _ | ⟨_ | _, source⟩
          case obj.false => exact ⟨source, rfl⟩
          all_goals cases hplain
        exact ⟨front, objs ++ [source], by simp [hsaid], hclosed⟩
      | false => exact ⟨said vs ++ [v], [], by simp, closed_append_singleton hv hplain⟩

theorem wordAt_nil (v : ConfigValue) : v.wordAt [] = v := by
  cases v <;> rfl

/-- What is said to be no object is said to be none at any path. -/
theorem wordAt_of_not_plain (hv : v.isUndefined = false) (hplain : v.isPlain = false)
    (path : List Text) : (v.wordAt path).isUndefined = false ∧ (v.wordAt path).isPlain = false := by
  cases path with
  | nil => exact ⟨(wordAt_nil v).symm ▸ hv, (wordAt_nil v).symm ▸ hplain⟩
  | cons key path =>
    rcases v with _ | _ | _ | ⟨_ | _, _⟩
    case undefined => cases hv
    case obj.false => cases hplain
    all_goals exact ⟨rfl, rfl⟩

theorem Closed.map_wordAt (h : Closed front) (path : List Text) :
    Closed (front.map (·.wordAt path)) := by
  rw [Closed, ← said_map_wordAt, ← Closed]
  rw [Closed] at h
  have hsaid : ∀ v ∈ said front, v.isUndefined = false := fun v hv ↦ by
    simpa using (List.mem_filter.mp hv).2
  rcases List.eq_nil_or_concat (said front) with hnil | ⟨words, v, hwords⟩
  · rw [hnil]
    exact nofun
  · rw [hwords, List.concat_eq_append] at h hsaid ⊢
    have hplain := h v (List.getLast?_concat ..)
    have hv := hsaid v (by simp)
    rw [List.map_append]
    obtain ⟨hword, hword'⟩ := wordAt_of_not_plain hv hplain path
    exact closed_append_singleton hword hword'

theorem closed_append_iff (h : Closed front) : Closed (front ++ vs) ↔ Closed vs := by
  rw [Closed, said_append, List.getLast?_append, Closed]
  cases hlast : (said vs).getLast? with
  | none => exact iff_of_true h nofun
  | some v => rfl

/-- What comes before the last word that is no object does not count. -/
theorem hidesNull_append_iff (h : Closed front) :
    HidesNull (front ++ vs) key ↔ HidesNull vs key := by
  have hfront : Closed (said front) := by rwa [Closed, said_said]
  rw [HidesNull, said_append]
  constructor
  · rintro ⟨before, source, heq, hnull, hclosed⟩
    rcases List.eq_nil_or_concat (said vs) with hnil | ⟨words, v, hwords⟩
    · rw [hnil, List.append_nil] at heq
      have hlast := h (obj false source) (by rw [heq]; exact List.getLast?_concat ..)
      cases hlast
    · rw [hwords, List.concat_eq_append, ← List.append_assoc] at heq
      obtain ⟨rfl, hv⟩ := List.append_inj' heq rfl
      rw [closed_append_iff hfront] at hclosed
      rw [HidesNull, hwords, List.concat_eq_append, hv]
      exact ⟨words, source, rfl, hnull, hclosed⟩
  · rintro ⟨before, source, heq, hnull, hclosed⟩
    refine ⟨said front ++ before, source, ?_, hnull, (closed_append_iff hfront).mpr hclosed⟩
    rw [heq, List.append_assoc]

theorem hidesNull_singleton_iff : HidesNull [v] key ↔ v.plainProps key = null := by
  constructor
  · rintro ⟨front, source, heq, hnull, -⟩
    have hmem : obj false source ∈ said [v] := by
      rw [heq]
      exact List.mem_append_right _ (List.mem_singleton_self _)
    obtain rfl := List.mem_singleton.mp (List.mem_of_mem_filter hmem)
    exact hnull
  · intro hnull
    rcases v with _ | _ | _ | ⟨_ | _, source⟩
    case obj.false => exact ⟨[], source, rfl, hnull, nofun⟩
    all_goals cases hnull

/-- A single word hides a null where its object has one. -/
theorem hidesNull_wordAt_iff :
    HidesNull [v.wordAt path] key ↔ v.under (path ++ [key]) = null := by
  induction path generalizing v with
  | nil =>
    rw [wordAt_nil]
    exact hidesNull_singleton_iff
  | cons k path ih =>
    rw [List.cons_append, under_cons]
    rcases v with _ | _ | _ | ⟨_ | _, props⟩
    case obj.false => exact ih
    all_goals
      rw [hidesNull_singleton_iff, plainProps_of_not_plain rfl, plainProps_of_not_plain rfl,
        under_undefined]

theorem not_hidesNull_objs (o o' : Props) (objs : List Props) (key : Text) :
    ¬ HidesNull ((o :: o' :: objs).map (obj false)) key := by
  rintro ⟨front, source, heq, -, hclosed⟩
  rw [said_objs] at heq
  have hne : front ≠ [] := by
    rintro rfl
    cases heq
  have hmem : ∀ v ∈ front, ∃ o, v = obj false o := by
    intro v hv
    obtain ⟨o, -, rfl⟩ := List.mem_map.mp (heq ▸ List.mem_append_left [obj false source] hv)
    exact ⟨o, rfl⟩
  have hsaid : said front = front := List.filter_eq_self.mpr fun v hv ↦ by
    obtain ⟨o, rfl⟩ := hmem v hv
    rfl
  obtain ⟨o, ho⟩ := hmem _ (List.getLast_mem hne)
  have hlast := hclosed (front.getLast hne) (by
    rw [hsaid]
    exact List.getLast_mem_getLast? hne)
  rw [ho] at hlast
  cases hlast

/-! ## Where a null is left -/

theorem mergeValue_ne_null (hv : v ≠ null) (w : ConfigValue) : mergeValue v w ≠ null := by
  rcases w with _ | _ | _ | ⟨_ | _, source⟩
  case undefined => rwa [mergeValue_undefined]
  case obj.false => rcases v with _ | _ | _ | ⟨_ | _, result⟩ <;> exact ConfigValue.noConfusion
  all_goals exact ConfigValue.noConfusion

theorem nonNull_ne_null (v : ConfigValue) : v.nonNull ≠ null := by
  cases v <;> exact ConfigValue.noConfusion

theorem nonNull_of_ne_null (hv : v ≠ null) : v.nonNull = v := by
  cases v
  case null => exact absurd rfl hv
  all_goals rfl

theorem stack_ne_null (vs : List ConfigValue) : stack vs ≠ null := by
  have hfold : ∀ v : ConfigValue, v ≠ null → vs.foldl mergeValue v ≠ null := by
    induction vs with
    | nil => exact fun v hv ↦ hv
    | cons w vs ih => exact fun v hv ↦ ih _ (mergeValue_ne_null hv w)
  exact hfold undefined ConfigValue.noConfusion

theorem isPlain_stack_of_closed (h : Closed front) : (stack front).isPlain = false := by
  rw [← stack_said]
  rw [Closed] at h
  have hsaid : ∀ v ∈ said front, v.isUndefined = false := fun v hv ↦ by
    simpa using (List.mem_filter.mp hv).2
  rcases List.eq_nil_or_concat (said front) with hnil | ⟨words, v, hwords⟩
  · rw [hnil]
    rfl
  · rw [hwords, List.concat_eq_append] at h hsaid ⊢
    have hplain := h v (List.getLast?_concat ..)
    have hv := hsaid v (by simp)
    rw [stack, List.foldl_append, List.foldl_cons, List.foldl_nil]
    rcases v with _ | _ | _ | ⟨_ | _, source⟩
    case undefined => cases hv
    case obj.false => cases hplain
    all_goals rfl

/-- One object over what is no object is taken as it is. -/
theorem mergeValue_of_not_plain (hv : v.isPlain = false) (source : Props) :
    mergeValue v (obj false source) = obj false source := by
  rcases v with _ | _ | _ | ⟨_ | _, result⟩
  case obj.false => cases hv
  all_goals rfl

/-- Objects over an object are merged key by key. -/
theorem foldl_objs (result o : Props) (objs : List Props) :
    ((o :: objs).map (obj false)).foldl mergeValue (obj false result) =
      obj false fun key ↦ stack ((result :: o :: objs).map (· key)) := by
  induction objs generalizing result o with
  | nil =>
    rw [List.map_cons, List.map_nil, List.foldl_cons, List.foldl_nil, mergeValue]
    congr 1
    funext key
    exact congrArg (mergeValue · (o key)) (mergeValue_undefined_left (result key)).symm
  | cons o' objs ih =>
    rw [List.map_cons, List.foldl_cons, mergeValue, ih]
    congr 1
    funext key
    have hnull : mergeValue (result key).nonNull (o key) ≠ null :=
      mergeValue_ne_null (nonNull_ne_null _) _
    rw [List.map_cons, stack, List.foldl_cons, mergeValue_undefined_left, nonNull_of_ne_null hnull,
      ← mergeValue_undefined_left]
    rfl

section Objects

variable (hsaid : said vs = front ++ objs.map (obj false)) (hclosed : Closed front)
include hsaid

theorem stack_eq_foldl : stack vs = (objs.map (obj false)).foldl mergeValue (stack front) := by
  rw [← stack_said, hsaid, stack, List.foldl_append, stack]

include hclosed

theorem hidesNull_iff_objs (path : List Text) (key : Text) :
    HidesNull (vs.map (·.wordAt path)) key ↔
      HidesNull ((objs.map (obj false)).map (·.wordAt path)) key := by
  have hfew : HidesNull (vs.map (·.wordAt path)) key ↔
      HidesNull ((said vs).map (·.wordAt path)) key := by
    rw [HidesNull, HidesNull, said_map_wordAt]
  rw [hfew, hsaid, List.map_append, hidesNull_append_iff (hclosed.map_wordAt path)]

/-- Without two objects, nothing is merged key by key. -/
theorem under_stack_of_length_le (hlength : objs.length ≤ 1) (path : List Text) (key : Text) :
    (stack vs).under (path ++ [key]) = null ↔ HidesNull (vs.map (·.wordAt path)) key := by
  have hplain := isPlain_stack_of_closed hclosed
  rw [hidesNull_iff_objs hsaid hclosed, stack_eq_foldl hsaid]
  rcases objs with _ | ⟨o, _ | ⟨o', objs⟩⟩
  · rw [List.map_nil, List.foldl_nil, under_of_not_plain hplain (by simp)]
    refine iff_of_false ConfigValue.noConfusion ?_
    rintro ⟨words, source, heq, -⟩
    cases words <;> cases heq
  · rw [List.map_cons, List.map_nil, List.foldl_cons, List.foldl_nil,
      mergeValue_of_not_plain hplain]
    exact hidesNull_wordAt_iff.symm
  · rw [List.length_cons, List.length_cons] at hlength
    omega

omit hsaid hclosed in
/-- Two objects or more are merged key by key. -/
theorem stack_objects {o o' : Props}
    (hsaid : said vs = front ++ (o :: o' :: objs).map (obj false)) (hclosed : Closed front) :
    stack vs = obj false fun key ↦ stack ((o :: o' :: objs).map (· key)) := by
  rw [stack_eq_foldl hsaid, List.map_cons, List.foldl_cons,
    mergeValue_of_not_plain (isPlain_stack_of_closed hclosed), foldl_objs]

end Objects

/-- **A null is left in the merged layers where one layer hides it.** -/
theorem under_stack_eq_null_iff (vs : List ConfigValue) (path : List Text) (key : Text) :
    (stack vs).under (path ++ [key]) = null ↔ HidesNull (vs.map (·.wordAt path)) key := by
  induction path generalizing vs with
  | nil =>
    obtain ⟨front, objs, hsaid, hclosed⟩ := exists_objects vs
    rcases objs with _ | ⟨o, _ | ⟨o', objs⟩⟩
    · exact under_stack_of_length_le hsaid hclosed (Nat.zero_le _) [] key
    · exact under_stack_of_length_le hsaid hclosed le_rfl [] key
    · have hid (words : List ConfigValue) : words.map (·.wordAt []) = words :=
        (List.map_congr_left fun v _ ↦ wordAt_nil v).trans (List.map_id words)
      rw [hidesNull_iff_objs hsaid hclosed, stack_objects hsaid hclosed, hid]
      exact iff_of_false (stack_ne_null _) (not_hidesNull_objs o o' objs key)
  | cons k path ih =>
    obtain ⟨front, objs, hsaid, hclosed⟩ := exists_objects vs
    rcases objs with _ | ⟨o, _ | ⟨o', objs⟩⟩
    · exact under_stack_of_length_le hsaid hclosed (Nat.zero_le _) (k :: path) key
    · exact under_stack_of_length_le hsaid hclosed le_rfl (k :: path) key
    · -- below the key the words are those of what the objects have under it
      rw [hidesNull_iff_objs hsaid hclosed, stack_objects hsaid hclosed, List.cons_append,
        under_cons, List.map_map]
      refine (ih _).trans (iff_of_eq ?_)
      rw [List.map_map]
      rfl

/-- **Layers are merged by the rules, and to something without null, unless one of them hides a
null.** -/
theorem deepMerge_eq_refMerge_iff (sources : List (Option Props)) :
    (deepMerge sources = refMerge sources ∧ ∀ name, (deepMerge sources name).NullFree) ↔
      ∀ name path key,
        ¬ HidesNull (sources.map fun source ↦ (source.getD noProps name).wordAt path) key := by
  have hrules : deepMerge sources = refMerge sources ↔
      ∀ name, (deepMerge sources name).NullFree := by
    rw [funext_iff]
    refine forall_congr' fun name ↦ ?_
    rw [refMerge_apply, ← stripNulls_eq_self_iff, eq_comm]
  have hwords (name : Text) (path : List Text) :
      (sources.map fun source ↦ (source.getD noProps name).wordAt path) =
        (sources.map fun source ↦ source.getD noProps name).map (·.wordAt path) := by
    rw [List.map_map]
    rfl
  rw [and_iff_right_of_imp hrules.mpr]
  refine forall_congr' fun name ↦ ?_
  rw [deepMerge_apply]
  constructor
  · intro h path key
    rw [hwords, ← under_stack_eq_null_iff]
    exact h _
  · intro h path
    rcases List.eq_nil_or_concat path with rfl | ⟨path, key, rfl⟩
    · exact stack_ne_null _
    · rw [List.concat_eq_append, Ne, under_stack_eq_null_iff, ← hwords]
      exact h path key

/-- The layer `{ui: {tabs: null}}` alone is merged to itself, and the rules leave `ui` empty. -/
theorem not_deepMerge_eq_refMerge :
    ¬ ∀ sources : List (Option Props), deepMerge sources = refMerge sources ∧
      ∀ name, (deepMerge sources name).NullFree := by
  intro h
  have hfree := (h [some (Function.update noProps "ui".toList
    (obj false (Function.update noProps "tabs".toList null)))]).2 "ui".toList
  exact hfree ["tabs".toList] rfl

end ConfigValue

end Lasterm.Config
