import Lasterm.Hub.ConfigFile
import Lasterm.Library.Runs

/-!
# Writing the configuration

The four `PUT` routes of `api/config.ts` go through the body of a request, refuse what is not to be
there and save the rest key by key. Each `saveGlobalKey` edits the text of `config.toml`, replaces
the file and loads it again.

What a route does next never depends on what was saved. So it is a list of steps, the saves and the
refusals in their order, and `runSteps` goes through them up to the first one that fails.

The routes keep the configuration whole (`config_kept_iff`) if and only if no request is refused
behind a save that changes the file, and none takes the `[terminal]` table away. `PUT /ui` and
`PUT /elevation` save what stands in front of what they refuse, and what was loaded from a
`[terminal]` table outlives the table.

The TOML editor is a parameter: it sets or removes the given path, and may drop a table that became
empty. No fault of the file system is modelled.
-/

namespace Lasterm.Hub.ConfigWrites

open ConfigFile KeyedTree Runs Shell

/-! ## The file -/

/-- `TOML.parse` and `edit` on texts `τ`, where `none` is an error that is thrown. -/
structure TomlEditor (τ : Type) where
  /-- The text of a new file. -/
  empty : τ
  parse : τ → Option Document
  edit : τ → Text → Option Value → Option τ
  parse_empty : parse empty = some []
  edit_malformed : ∀ {text} path value, parse text = none → edit text path value = none
  parse_edit : ∀ {text parsed} path value, parse text = some parsed →
    ∃ text' drop, edit text path value = some text' ∧
      parse text' = some (editAt drop parsed (path.splitOn '.') value)

variable {τ : Type} (ed : TomlEditor τ)

structure ConfigState (τ : Type) where
  /-- `config.toml`, if it is there. -/
  file : Option τ
  configResolver : ConfigResolver

def loadFromFile (r : ConfigResolver) (file : Option τ) : ConfigResolver :=
  ((file.bind ed.parse).map (loadParsed r)).getD r

/-- A fresh resolver that has loaded the file. -/
def fresh (file : Option τ) : ConfigResolver := loadFromFile ed initial file

def start (file : Option τ) : ConfigState τ := ⟨file, fresh ed file⟩

/-! ### `saveGlobalKey` -/

/-- The arguments of a call. -/
structure Save where
  table : Text
  key : Text
  value : Value

namespace Save

def path (w : Save) : Text :=
  ['.'].intercalate ((w.table.splitOn '.').map camelToSnake) ++ '.' :: camelToSnake w.key

/-- `null` removes the key. -/
def editValue (w : Save) : Option Value :=
  match w.value with
  | .scalar .null => none
  | value => some value

/-- The path as the editor takes it. -/
def keys (w : Save) : List Text := w.path.splitOn '.'

theorem keys_ne_nil (w : Save) : w.keys ≠ [] := List.splitOn_ne_nil _ _

end Save

def saveGlobalKey (s : ConfigState τ) (w : Save) : Option (ConfigState τ) :=
  (ed.edit (s.file.getD ed.empty) w.path w.editValue).map fun text ↦
    ⟨some text, loadFromFile ed s.configResolver (some text)⟩

/-! ## The routes -/

inductive Step
  | save (w : Save)
  | refuse (code message : Text)

inductive Answer
  | ok
  /-- Status 400. -/
  | refused (code message : Text)
  /-- Status 500. -/
  | thrown

def runSteps : ConfigState τ → List Step → ConfigState τ × Answer
  | s, [] => (s, .ok)
  | s, .refuse code message :: _ => (s, .refused code message)
  | s, .save w :: steps =>
    match saveGlobalKey ed s w with
    | some s' => runSteps s' steps
    | none => (s, .thrown)

def validationError (message : Text) : Step := .refuse "VALIDATION_ERROR".toList message

def invalidValue (message : Text) : Step := .refuse "INVALID_VALUE".toList message

/-- The keys of an object that are not in a list, each with its refusal. -/
def unknownKeys (known : List String) (message : String) (entries : Document) : List Step :=
  (entries.filter fun e ↦ !known.any fun key ↦ key.toList = e.1).map fun e ↦
    validationError (message.toList ++ e.1)

def saveEntries (table : Text) (entries : Document) : List Step :=
  entries.map fun e ↦ .save ⟨table, e.1, e.2⟩

def TERMINAL_PROFILE_KEYS : List String :=
  ["fontFamily", "fontSize", "theme", "themeOverrides", "cursorStyle", "scrollback", "bellSound",
    "bellCustomFile", "bellBadge", "scrollbarMarkers", "wallpaper", "wallpaperBlur",
    "wallpaperDim", "backgroundMode", "windowEffect"]

/-- `body?.[name]`. -/
def property (body : Value) (name : String) : Option Value :=
  match body with
  | .table entries => lookup entries name.toList
  | _ => none

/-- `PUT /api/config/global`. The check in `saveGlobalTerminal` is the one that is made before. -/
def putGlobal (body : Value) : List Step :=
  match (property body "terminal").bind objectEntries with
  | none => [validationError "body.terminal must be an object".toList]
  | some terminal =>
    unknownKeys TERMINAL_PROFILE_KEYS "Unknown terminal key: " terminal ++
      saveEntries "terminal".toList terminal

def UI_CONFIG_SECTIONS : List String :=
  ["tabs", "panes", "channels", "startup", "title", "search", "layout"]

def isBoolean (v : Value) : Bool := (boolean v).isSome

def isString (v : Value) : Bool := (anyString v).isSome

def isOneOf (values : List String) (v : Value) : Bool := (oneOf values v).isSome

/-- A number without a fraction, from `least` on. -/
def isInteger (least : ℚ) (v : Value) : Bool :=
  (number (fun n ↦ if n.isInt ∧ least ≤ n then some n else none) v).isSome

def isAtMost (most : ℚ) (v : Value) : Bool :=
  (number (fun n ↦ if n ≤ most then some n else none) v).isSome

/-- The keys are the ones of `UI_SECTION_KEYS`: each has a validator. -/
def UI_VALUE_VALIDATORS : List (String × List (String × (Value → Bool))) :=
  [("tabs", [("closeButton", isBoolean), ("newTabPosition", isOneOf ["end", "afterActive"]),
      ("confirmCloseAll", isBoolean), ("confirmCloseOthers", isBoolean)]),
    ("panes", [("maxPanes", isInteger 1),
      ("defaultSplitDirection", isOneOf ["horizontal", "vertical"])]),
    ("channels", [("defaultShell", isString), ("defaultGroupName", isString),
      ("autoGroup", isOneOf ["none", "first"])]),
    ("startup", [("autoOpenWelcome", isBoolean)]),
    ("title", [("source", isOneOf ["dynamic", "static", "process"]), ("staticTitle", isString),
      ("maxLength", isInteger 1), ("truncation", isOneOf ["end", "middle", "start"]),
      ("prefix", isString), ("windowTitle", isBoolean), ("windowFormat", isString)]),
    ("search", [("position", isOneOf ["top-right", "bottom-right", "bottom-bar"]),
      ("highlightOnClose", isOneOf ["clear", "fade", "persist"]), ("scrollbarMarkers", isBoolean),
      ("historySize", fun v ↦ isInteger 0 v && isAtMost 100 v)]),
    ("layout", [("hostRailWidth", isInteger 0), ("sidebarWidth", isInteger 0)])]

def validator (name key : Text) : Option (Value → Bool) :=
  (UI_VALUE_VALIDATORS.find? fun s ↦ s.1.toList = name).bind fun s ↦
    (s.2.find? fun e ↦ e.1.toList = key).map Prod.snd

/-- What is wrong with a key of a section. `stringify` is `JSON.stringify`. -/
def uiKeyError (stringify : Value → Text) (name : Text) (e : Text × Value) : Option Step :=
  match validator name e.1 with
  | none =>
    some (validationError ("Unknown key \"".toList ++ e.1 ++ "\" in UI section \"".toList ++ name ++
      "\"".toList))
  | some valid =>
    if valid e.2 then none
    else some (invalidValue ("Invalid value for \"".toList ++ name ++ ['.'] ++ e.1 ++
      "\": ".toList ++ stringify e.2))

/-- A section of the body. -/
def uiSteps (stringify : Value → Text) (e : Text × Value) : List Step :=
  if !UI_CONFIG_SECTIONS.any fun name ↦ name.toList = e.1 then
    [validationError ("Unknown UI section: ".toList ++ e.1)]
  else
    match objectEntries e.2 with
    | none => []
    | some entries => entries.filterMap (uiKeyError stringify e.1) ++ saveEntries e.1 entries

/-- `PUT /api/config/ui`. -/
def putUi (stringify : Value → Text) (body : Value) : List Step :=
  match objectEntries body with
  | none => [validationError "body must be an object".toList]
  | some entries => entries.flatMap (uiSteps stringify)

def APPEARANCE_KEYS : List String := ["theme", "autoSwitch", "opacity", "scrollbar"]

def appearanceSteps (e : Text × Value) : List Step :=
  match e.2 with
  | .table entries => saveEntries ("appearance.".toList ++ e.1) entries
  | value => [.save ⟨"appearance".toList, e.1, value⟩]

/-- `PUT /api/config/appearance`. -/
def putAppearance (body : Value) : List Step :=
  match objectEntries body with
  | none => [validationError "body must be an object".toList]
  | some entries =>
    unknownKeys APPEARANCE_KEYS "Unknown appearance key: " entries ++
      entries.flatMap appearanceSteps

def ELEVATION_CONFIG_KEYS : List String :=
  ["methodLinux", "methodDarwin", "methodWindows", "customCommandLinux", "customCommandDarwin",
    "customCommandWindows"]

/-- The refusal of a value for a key. -/
def invalidKey (key : Text) (message : String) : Step :=
  invalidValue ("Invalid value for \"".toList ++ key ++ "\": ".toList ++ message.toList)

/-- The check of a method. -/
def methodError (methods : List String) (e : Text × Value) : Option Step :=
  if isOneOf methods e.2 then none
  else some (invalidKey e.1 ("must be one of " ++ ", ".intercalate methods))

def commandError (e : Text × Value) : Option Step :=
  if (string (· ≠ []) e.2).isSome then none else some (invalidKey e.1 "must be a non-empty string")

def elevationKeyError (e : Text × Value) : Option Step :=
  if e.1 = "methodLinux".toList then methodError ELEVATION_METHODS_LINUX e
  else if e.1 = "methodDarwin".toList then methodError ELEVATION_METHODS_DARWIN e
  else if e.1 = "methodWindows".toList then methodError ELEVATION_METHODS_WINDOWS e
  else if e.1 = "customCommandLinux".toList ∨ e.1 = "customCommandDarwin".toList ∨
      e.1 = "customCommandWindows".toList then commandError e
  else none

def elevationSteps (e : Text × Value) : List Step :=
  (elevationKeyError e).toList ++ [.save ⟨"elevation".toList, e.1, e.2⟩]

/-- `PUT /api/config/elevation`. -/
def putElevation (body : Value) : List Step :=
  match objectEntries body with
  | none => [validationError "body must be an object".toList]
  | some entries =>
    unknownKeys ELEVATION_CONFIG_KEYS "Unknown elevation key: " entries ++
      entries.flatMap elevationSteps

/-! ### Requests -/

/-- No key of an object occurs twice. -/
def KeysOnce (v : Value) : Prop := (((objectEntries v).getD []).map Prod.fst).Nodup

/-- A body as `JSON.parse` gives it. -/
structure Body where
  value : Value
  once : KeysOnce value
  once_within : ∀ e ∈ (objectEntries value).getD [], KeysOnce e.2

inductive Request
  | global (body : Body)
  | ui (body : Body)
  | appearance (body : Body)
  | elevation (body : Body)

def stepsOf (stringify : Value → Text) : Request → List Step
  | .global body => putGlobal body.value
  | .ui body => putUi stringify body.value
  | .appearance body => putAppearance body.value
  | .elevation body => putElevation body.value

def put (stringify : Value → Text) (s : ConfigState τ) (r : Request) : ConfigState τ × Answer :=
  runSteps ed s (stepsOf stringify r)

/-! ## What is to hold -/

def documentOf (s : ConfigState τ) : Option Document := ed.parse (s.file.getD ed.empty)

/-- The file and the configuration are as before. -/
def Same (s s' : ConfigState τ) : Prop :=
  documentOf ed s' = documentOf ed s ∧ s'.configResolver = s.configResolver

def Coherent (s : ConfigState τ) : Prop := s.configResolver = fresh ed s.file

/-! ### The conditions -/

/-- The saves in front of the first refusal. -/
def saves : List Step → List Save
  | .save w :: steps => w :: saves steps
  | _ => []

/-- The answer, if no save throws. -/
def answerOf : List Step → Answer
  | [] => .ok
  | .refuse code message :: _ => .refused code message
  | .save _ :: steps => answerOf steps

/-- What stands in a body in front of what is refused is in the file already. -/
def SavesNothing (stringify : Value → Text) (s : ConfigState τ) (r : Request) : Prop :=
  answerOf (stepsOf stringify r) ≠ .ok → ∀ parsed, documentOf ed s = some parsed →
    ∀ w ∈ saves (stepsOf stringify r), getAt parsed w.keys = w.editValue

/-- The text after the edits of saves. -/
def textAfter (text : τ) (ws : List Save) : τ :=
  ws.foldl (fun text w ↦ (ed.edit text w.path w.editValue).getD text) text

def HasTerminal (parsed : Option Document) : Prop := (parsed.bind terminalOverrides).isSome

/-- The edits do not take the `[terminal]` table away. -/
def KeepsTerminal (stringify : Value → Text) (s : ConfigState τ) (r : Request) : Prop :=
  HasTerminal (documentOf ed s) → HasTerminal
    (ed.parse (textAfter ed (s.file.getD ed.empty) (saves (stepsOf stringify r))))

/-! ## What a request does -/

/-- What saves make of a document and of what is loaded. -/
inductive Saved : Document → ConfigResolver → List Save → Document → ConfigResolver → Prop
  | nil (parsed : Document) (r : ConfigResolver) : Saved parsed r [] parsed r
  | cons {parsed parsed' : Document} {r r' : ConfigResolver} {w : Save} {ws : List Save}
    (drop : Bool)
    (h : Saved (editAt drop parsed w.keys w.editValue)
      (loadParsed r (editAt drop parsed w.keys w.editValue)) ws parsed' r') :
    Saved parsed r (w :: ws) parsed' r'

variable {ed} {parsed parsed' : Document} {r r' : ConfigResolver} {ws : List Save}
  {s : ConfigState τ} {e : Text × Value} {stringify : Value → Text} {entries : Document}

theorem runSteps_of_malformed (h : documentOf ed s = none) (steps : List Step) :
    (runSteps ed s steps).1 = s := by
  cases steps with
  | nil => rfl
  | cons step steps =>
    cases step with
    | refuse code message => rfl
    | save w =>
      rw [runSteps, saveGlobalKey, ed.edit_malformed w.path w.editValue h]
      rfl

/-- **What a request does** with a file that can be parsed: the saves in front of the first refusal.
-/
theorem runSteps_spec {parsed : Document} (h : documentOf ed s = some parsed)
    (steps : List Step) : (runSteps ed s steps).2 = answerOf steps ∧
      ∃ parsed', ed.parse (textAfter ed (s.file.getD ed.empty) (saves steps)) = some parsed' ∧
        documentOf ed (runSteps ed s steps).1 = some parsed' ∧
        Saved parsed s.configResolver (saves steps) parsed'
          (runSteps ed s steps).1.configResolver := by
  induction steps generalizing s parsed with
  | nil => exact ⟨rfl, parsed, h, h, .nil _ _⟩
  | cons step steps ih =>
    cases step with
    | refuse code message => exact ⟨rfl, parsed, h, h, .nil _ _⟩
    | save w =>
      obtain ⟨text, drop, hedit, hparse⟩ := ed.parse_edit w.path w.editValue h
      have hsave : saveGlobalKey ed s w = some
          ⟨some text, loadParsed s.configResolver (editAt drop parsed w.keys w.editValue)⟩ := by
        rw [saveGlobalKey, hedit, Option.map_some, loadFromFile, Option.bind_some, hparse]
        rfl
      have hafter : textAfter ed (s.file.getD ed.empty) (saves (.save w :: steps)) =
          textAfter ed text (saves steps) := by
        rw [saves, textAfter, List.foldl_cons, hedit]
        rfl
      rw [runSteps, hsave, hafter, answerOf, saves]
      obtain ⟨hanswer, parsed', htext, hdocument, hsaved⟩ :=
        ih (s := ⟨some text, loadParsed s.configResolver (editAt drop parsed w.keys w.editValue)⟩)
          hparse
      exact ⟨hanswer, parsed', htext, hdocument, .cons drop hsaved⟩

/-! ### What is loaded -/

/-- A load of the document would change nothing. -/
def Loaded (r : ConfigResolver) (parsed : Document) : Prop := loadParsed r parsed = r

theorem loaded_loadParsed (r : ConfigResolver) (parsed : Document) :
    Loaded (loadParsed r parsed) parsed := by
  rw [Loaded, loadParsed_loadParsed]
  unfold loadParsed
  cases terminalOverrides parsed <;> rfl

theorem coherent_iff {parsed : Document} (h : documentOf ed s = some parsed) :
    Coherent ed s ↔ s.configResolver = loadParsed initial parsed := by
  have hfresh : fresh ed s.file = loadParsed initial parsed := by
    unfold documentOf at h
    unfold fresh loadFromFile
    cases hfile : s.file with
    | some text =>
      rw [hfile] at h
      rw [Option.bind_some, show ed.parse text = _ from h]
      rfl
    | none =>
      -- A file that is not there reads as one in which nothing is.
      rw [hfile, Option.getD_none, ed.parse_empty, Option.some.injEq] at h
      rw [← h]
      exact loadParsed_initial_nil.symm
  rw [Coherent, hfresh]

theorem Saved.loaded
    (h : Saved parsed r ws parsed' r') (hloaded : Loaded r parsed) : Loaded r' parsed' := by
  induction h with
  | nil => exact hloaded
  | cons drop _ ih => exact ih (loaded_loadParsed _ _)

/-- What holds the overrides of a document, and no more. -/
theorem Loaded.eq_iff {r : ConfigResolver} {parsed : Document} (h : Loaded r parsed) :
    r = loadParsed initial parsed ↔ (terminalOverrides parsed = none → r.fileConfig = none) := by
  rw [← loadParsed_eq_iff, show loadParsed r parsed = r from h]

/-! ### The `[terminal]` table -/

/-- Two paths that do not go on from one another. -/
def Apart (path path' : List Text) : Prop := ¬path <+: path' ∧ ¬path' <+: path

theorem apart_of_length {path path' : List Text} (hlength : path.length = path'.length)
    (h : path ≠ path') : Apart path path' :=
  ⟨fun hsub ↦ h (hsub.eq_of_length hlength), fun hsub ↦ h (hsub.eq_of_length hlength.symm).symm⟩

theorem Saved.getAt_of_apart
    (h : Saved parsed r ws parsed' r') {path : List Text} (hws : ∀ w ∈ ws, Apart w.keys path) :
    getAt parsed' path = getAt parsed path := by
  induction h with
  | nil => rfl
  | @cons _ _ _ _ w _ drop _ ih =>
    obtain ⟨hw, hws⟩ := List.forall_mem_cons.mp hws
    rw [ih hws, getAt_editAt_of_apart drop _ hw.1 hw.2]

theorem terminalOverrides_ne_none_of_getAt {parsed : Document} {key : Text} {v : Value}
    (h : getAt parsed ["terminal".toList, key] = some v) : terminalOverrides parsed ≠ none := by
  have htable := eq_table_of_getAt h
  unfold terminalOverrides
  rw [htable]
  exact Option.some_ne_none _

/-- The saves that go into `[terminal]` have a key of their own each. -/
def Tidy : List Save → Prop
  | [] => True
  | w :: ws =>
    (w.keys.head? = some "terminal".toList → (∃ key, w.keys = ["terminal".toList, key]) ∧
      ∀ w' ∈ ws, Apart w'.keys w.keys) ∧ Tidy ws

/-- A save that makes a `[terminal]` table puts something into it. -/
theorem getAt_of_terminal {parsed : Document} {w : Save} {drop : Bool}
    (htidy : w.keys.head? = some "terminal".toList → ∃ key, w.keys = ["terminal".toList, key])
    (h : terminalOverrides parsed = none)
    (h' : terminalOverrides (editAt drop parsed w.keys w.editValue) ≠ none) :
    ∃ key v, w.keys = ["terminal".toList, key] ∧
      getAt (editAt drop parsed w.keys w.editValue) w.keys = some v := by
  obtain ⟨first, rest, hkeys⟩ := List.exists_cons_of_ne_nil w.keys_ne_nil
  have hfirst : first = "terminal".toList := by
    by_contra hne
    refine h' ?_
    unfold terminalOverrides
    rw [hkeys, lookup_editAt_of_ne drop parsed hne]
    exact h
  obtain ⟨key, hpair⟩ := htidy (by rw [hkeys, hfirst]; rfl)
  refine ⟨key, ?_⟩
  cases hvalue : w.editValue with
  | some v => exact ⟨v, hpair, getAt_editAt_self drop parsed (hpair ▸ List.cons_ne_nil _ _) _⟩
  | none =>
    rw [hvalue, hpair] at h'
    refine absurd ?_ h'
    -- Without the table there is nothing to take away.
    have hkeep : editAt drop parsed ["terminal".toList, key] none = parsed := by
      rw [editAt, removeAt]
      split
      · rename_i entries htable
        unfold terminalOverrides at h
        rw [htable] at h
        cases h
      · rfl
    rw [hkeep]
    exact h

section

variable (h : Saved parsed r ws parsed' r')
include h

/-- The overrides of a table that is gone are kept. -/
theorem Saved.fileConfig_ne_none (hr : r.fileConfig ≠ none) :
    r'.fileConfig ≠ none := by
  induction h with
  | nil => exact hr
  | cons drop _ ih =>
    refine ih ?_
    rw [loadParsed]
    dsimp only
    rw [Ne, Option.or_eq_none_iff, not_and_or]
    exact .inr hr

theorem Saved.fileConfig_eq_none (htidy : Tidy ws)
    (hr : r.fileConfig = none) (hparsed : terminalOverrides parsed = none)
    (hparsed' : terminalOverrides parsed' = none) : r'.fileConfig = none := by
  induction h with
  | nil => exact hr
  | @cons parsed parsed' r r' w ws drop hsaved ih =>
    obtain ⟨hw, hws⟩ := htidy
    have hedited : terminalOverrides (editAt drop parsed w.keys w.editValue) = none := by
      by_contra hmade
      obtain ⟨key, v, hkeys, hget⟩ := getAt_of_terminal (fun hhead ↦ (hw hhead).1) hparsed hmade
      have hapart := (hw (by rw [hkeys]; rfl)).2
      rw [← hsaved.getAt_of_apart hapart, hkeys] at hget
      exact terminalOverrides_ne_none_of_getAt hget hparsed'
    refine ih hws ?_ hedited hparsed'
    rw [loadParsed]
    dsimp only
    rw [hedited, hr]
    rfl

/-- **When a resolver stays one that could be fresh**: if and only if the table stays. -/
theorem Saved.eq_iff (htidy : Tidy ws) (hr : r = loadParsed initial parsed) :
    r' = loadParsed initial parsed' ↔
      (terminalOverrides parsed ≠ none → terminalOverrides parsed' ≠ none) := by
  have hloaded : Loaded r parsed := hr ▸ loaded_loadParsed initial parsed
  have hfile : r.fileConfig = terminalOverrides parsed := by
    rw [hr, loadParsed]
    exact Option.or_none
  rw [(h.loaded hloaded).eq_iff]
  constructor
  · intro hcoherent hbefore hafter
    exact h.fileConfig_ne_none (hfile.symm ▸ hbefore) (hcoherent hafter)
  · intro hkeeps hafter
    have hbefore : terminalOverrides parsed = none := by
      by_contra hbefore
      exact hkeeps hbefore hafter
    exact h.fileConfig_eq_none htidy (hfile.trans hbefore) hbefore hafter

/-! ### Saves that change nothing -/

theorem Saved.getAt_keys (hapart : ws.Pairwise fun w w' ↦ Apart w'.keys w.keys) :
    ∀ w ∈ ws, getAt parsed' w.keys = w.editValue := by
  induction h with
  | nil => exact fun w hw ↦ absurd hw (List.not_mem_nil (a := w))
  | @cons parsed parsed' r r' w ws drop hsaved ih =>
    obtain ⟨hw, hws⟩ := List.pairwise_cons.mp hapart
    refine List.forall_mem_cons.mpr ⟨?_, ih hws⟩
    rw [hsaved.getAt_of_apart hw]
    exact getAt_editAt_self drop parsed w.keys_ne_nil w.editValue

/-- **When saves leave everything as it was**: if and only if they save what is there. -/
theorem Saved.same_iff (hloaded : Loaded r parsed)
    (hapart : ws.Pairwise fun w w' ↦ Apart w'.keys w.keys) (hset : ∀ w ∈ ws, w.editValue ≠ none) :
    parsed' = parsed ∧ r' = r ↔ ∀ w ∈ ws, getAt parsed w.keys = w.editValue := by
  constructor
  · rintro ⟨rfl, -⟩
    exact h.getAt_keys hapart
  · intro hthere
    induction h with
    | nil => exact ⟨rfl, rfl⟩
    | @cons parsed parsed' r r' w ws drop hsaved ih =>
      obtain ⟨hw, hws⟩ := List.forall_mem_cons.mp hthere
      obtain ⟨hsetw, hset⟩ := List.forall_mem_cons.mp hset
      obtain ⟨v, hv⟩ := Option.ne_none_iff_exists'.mp hsetw
      have hedit : editAt drop parsed w.keys w.editValue = parsed := by
        rw [hv] at hw ⊢
        exact setAt_of_getAt hw
      rw [hedit, show loadParsed r parsed = r from hloaded] at ih
      exact ih hloaded (List.pairwise_cons.mp hapart).2 hset hws

end

/-! ### The keys that are let through -/

/-- The tables and keys of the routes without free keys. -/
def KNOWN : List (String × String) :=
  TERMINAL_PROFILE_KEYS.map (("terminal", ·)) ++
    UI_VALUE_VALIDATORS.flatMap (fun s ↦ s.2.map fun e ↦ (s.1, e.1)) ++
    ELEVATION_CONFIG_KEYS.map (("elevation", ·))

/-- The path that a known key has in the file. -/
def knownPath (p : String × String) : List Text := [p.1.toList, camelToSnake p.2.toList]

theorem keys_known : ∀ p ∈ KNOWN, ['.'].intercalate ((p.1.toList.splitOn '.').map camelToSnake) =
    p.1.toList ∧ '.' ∉ p.1.toList ∧ '.' ∉ camelToSnake p.2.toList ∧
      snakeToCamel (camelToSnake p.2.toList) = p.2.toList :=
  List.forall_mem_append.mpr
    ⟨List.forall_mem_append.mpr ⟨by decide +kernel, by decide +kernel⟩, by decide +kernel⟩

/-- A save of a known key. -/
def Save.IsKnown (w : Save) : Prop := ∃ p ∈ KNOWN, w.table = p.1.toList ∧ w.key = p.2.toList

theorem Save.keys_of_known {w : Save} {p : String × String} (hp : p ∈ KNOWN)
    (htable : w.table = p.1.toList) (hkey : w.key = p.2.toList) : w.keys = knownPath p := by
  obtain ⟨hsnake, htabledot, hkeydot, -⟩ := keys_known p hp
  rw [Save.keys, Save.path, htable, hkey, hsnake, List.splitOn_append_cons_self,
    List.splitOn_eq_singleton htabledot, List.splitOn_eq_singleton hkeydot]
  rfl

theorem apart_of_known {w w' : Save} (hw : w.IsKnown) (hw' : w'.IsKnown)
    (h : (w.table, w.key) ≠ (w'.table, w'.key)) : Apart w'.keys w.keys := by
  obtain ⟨p, hp, htable, hkey⟩ := hw
  obtain ⟨p', hp', htable', hkey'⟩ := hw'
  rw [Save.keys_of_known hp htable hkey, Save.keys_of_known hp' htable' hkey']
  refine apart_of_length rfl fun hpath ↦ h ?_
  simp only [knownPath, List.cons.injEq, and_true] at hpath
  have hback := (keys_known p hp).2.2.2
  rw [← hpath.2, (keys_known p' hp').2.2.2] at hback
  rw [htable, hkey, htable', hkey', hpath.1, hback]

theorem tidy_of_known (hknown : ∀ w ∈ ws, w.IsKnown)
    (hdistinct : ws.Pairwise fun w w' ↦ (w.table, w.key) ≠ (w'.table, w'.key)) : Tidy ws := by
  induction ws with
  | nil => trivial
  | cons w ws ih =>
    obtain ⟨hw, hws⟩ := List.forall_mem_cons.mp hknown
    obtain ⟨hne, hdistinct⟩ := List.pairwise_cons.mp hdistinct
    refine ⟨fun hhead ↦ ⟨?_, fun w' hw' ↦ apart_of_known hw (hws w' hw') (hne w' hw')⟩,
      ih hws hdistinct⟩
    obtain ⟨p, hp, htable, hkey⟩ := hw
    rw [Save.keys_of_known hp htable hkey, knownPath] at hhead ⊢
    rw [Option.some.inj hhead]
    exact ⟨_, rfl⟩

theorem tidy_of_head_ne (h : ∀ w ∈ ws, w.keys.head? ≠ some "terminal".toList) :
    Tidy ws := by
  induction ws with
  | nil => trivial
  | cons w ws ih =>
    obtain ⟨hw, hws⟩ := List.forall_mem_cons.mp h
    exact ⟨fun hhead ↦ absurd hhead hw, ih hws⟩

/-! ### The saves of a route -/

def Step.IsRefusal : Step → Prop
  | .save _ => False
  | .refuse _ _ => True

theorem saves_append_of_refusals {refusals : List Step} (h : ∀ step ∈ refusals, step.IsRefusal)
    (hne : refusals ≠ []) (steps : List Step) :
    saves (refusals ++ steps) = [] := by
  obtain ⟨step, rest, rfl⟩ := List.exists_cons_of_ne_nil hne
  cases step with
  | save w => exact (h _ (List.mem_cons_self ..)).elim
  | refuse code message => rfl

theorem saves_saveEntries (table : Text) (entries : Document) :
    saves (saveEntries table entries) = entries.map fun e ↦ ⟨table, e.1, e.2⟩ := by
  induction entries with
  | nil => rfl
  | cons e entries ih => exact congrArg (_ :: ·) ih

theorem answerOf_saveEntries (table : Text) (entries : Document) :
    answerOf (saveEntries table entries) = .ok := by
  induction entries with
  | nil => rfl
  | cons e entries ih => exact ih

/-- The saves behind a refusal are not made. -/
theorem saves_append_sublist (steps steps' : List Step) :
    (saves (steps ++ steps')).Sublist (saves steps ++ saves steps') := by
  induction steps with
  | nil => exact List.Sublist.refl _
  | cons step steps ih =>
    cases step with
    | save w => exact ih.cons_cons w
    | refuse code message => exact List.nil_sublist _

theorem saves_flatMap_sublist {α : Type} (f : α → List Step) (entries : List α) :
    (saves (entries.flatMap f)).Sublist (entries.flatMap fun e ↦ saves (f e)) := by
  induction entries with
  | nil => exact List.Sublist.refl _
  | cons e entries ih =>
    rw [List.flatMap_cons, List.flatMap_cons]
    exact (saves_append_sublist _ _).trans (ih.append_left _)

theorem isRefusal_of_mem_unknownKeys {known : List String} {message : String} :
    ∀ step ∈ unknownKeys known message entries, step.IsRefusal := by
  intro step hstep
  obtain ⟨e, -, rfl⟩ := List.mem_map.mp hstep
  trivial

theorem known_of_unknownKeys {known : List String} {message : String}
    (h : unknownKeys known message entries = []) (he : e ∈ entries) :
    ∃ key ∈ known, key.toList = e.1 := by
  rw [unknownKeys, List.map_eq_nil_iff, List.filter_eq_nil_iff] at h
  have hknown := h e he
  rw [Bool.not_eq_true, Bool.not_eq_false', List.any_eq_true] at hknown
  obtain ⟨key, hkey, heq⟩ := hknown
  exact ⟨key, hkey, of_decide_eq_true heq⟩

/-- The saves of one table. -/
theorem pairwise_saveEntries {table : Text} (h : (entries.map Prod.fst).Nodup) :
    (entries.map fun e ↦ (⟨table, e.1, e.2⟩ : Save)).Pairwise fun w w' ↦
      (w.table, w.key) ≠ (w'.table, w'.key) := by
  rw [List.pairwise_map]
  exact (List.pairwise_map.mp h).imp fun hne heq ↦ hne (Prod.mk.inj heq).2

theorem editValue_ne_none {w : Save} (h : w.value ≠ .scalar .null) : w.editValue ≠ none := by
  unfold Save.editValue
  split
  · exact absurd ‹_› h
  · exact Option.some_ne_none _

/-- What is saved by the routes without free keys. -/
structure Plain (steps : List Step) : Prop where
  known : ∀ w ∈ saves steps, w.IsKnown
  distinct : (saves steps).Pairwise fun w w' ↦ (w.table, w.key) ≠ (w'.table, w'.key)
  /-- What is saved by a request that is refused is set. -/
  refused : answerOf steps ≠ .ok → ∀ w ∈ saves steps, w.editValue ≠ none

theorem plain_of_saves_eq_nil {steps : List Step} (h : saves steps = []) : Plain steps := by
  have hnone : ∀ w, w ∉ saves steps := fun w hw ↦ List.not_mem_nil (h ▸ hw)
  exact ⟨fun w hw ↦ absurd hw (hnone w), h ▸ List.Pairwise.nil, fun _ w hw ↦ absurd hw (hnone w)⟩

theorem plain_putGlobal (body : Body) : Plain (putGlobal body.value) := by
  unfold putGlobal
  split
  · exact plain_of_saves_eq_nil rfl
  · rename_i terminal hterminal
    by_cases hunknown : unknownKeys TERMINAL_PROFILE_KEYS "Unknown terminal key: " terminal = []
    · have honce : (terminal.map Prod.fst).Nodup := by
        obtain ⟨v, hv, hentries⟩ := Option.bind_eq_some_iff.mp hterminal
        have hmem : ("terminal".toList, v) ∈ (objectEntries body.value).getD [] := by
          unfold property at hv
          split at hv
          · rename_i entries hbody
            obtain ⟨e, he, rfl⟩ := Option.map_eq_some_iff.mp hv
            have hname := List.find?_some he
            rw [hbody, ← of_decide_eq_true hname]
            exact List.mem_of_find?_eq_some he
          · cases hv
        have honce := body.once_within _ hmem
        rwa [KeysOnce, hentries, Option.getD_some] at honce
      rw [hunknown, List.nil_append]
      refine ⟨?_, ?_, fun h ↦ absurd (answerOf_saveEntries _ _) h⟩
      · rw [saves_saveEntries]
        intro w hw
        obtain ⟨e, he, rfl⟩ := List.mem_map.mp hw
        obtain ⟨key, hkey, heq⟩ := known_of_unknownKeys hunknown he
        refine ⟨("terminal", key), ?_, rfl, heq.symm⟩
        exact List.mem_append_left _ (List.mem_append_left _ (List.mem_map_of_mem hkey))
      · rw [saves_saveEntries]
        exact pairwise_saveEntries honce
    · exact plain_of_saves_eq_nil
        (saves_append_of_refusals isRefusal_of_mem_unknownKeys hunknown _)

/-! #### `PUT /ui` -/

theorem isRefusal_of_uiKeyError {name : Text}
    {step : Step} (h : uiKeyError stringify name e = some step) : step.IsRefusal := by
  unfold uiKeyError at h
  split at h
  · exact Option.some.inj h ▸ trivial
  · rw [Option.ite_none_left_eq_some] at h
    exact Option.some.inj h.2 ▸ trivial

theorem validator_null : ∀ s ∈ UI_VALUE_VALIDATORS, ∀ e ∈ s.2, e.2 (.scalar .null) = false := by
  decide +kernel

/-- A key that passes is one of the whitelist, and its value is not `null`. -/
theorem known_of_uiKeyError {name : Text} (h : uiKeyError stringify name e = none) :
    Save.IsKnown ⟨name, e.1, e.2⟩ ∧ e.2 ≠ .scalar .null := by
  unfold uiKeyError at h
  split at h
  · cases h
  · rename_i valid hvalid
    obtain ⟨s, hs, hkey⟩ := Option.bind_eq_some_iff.mp hvalid
    obtain ⟨entry, hentry, rfl⟩ := Option.map_eq_some_iff.mp hkey
    have hs' := List.mem_of_find?_eq_some hs
    have hentry' := List.mem_of_find?_eq_some hentry
    have hname := List.find?_some hs
    have hkey := List.find?_some hentry
    constructor
    · refine ⟨(s.1, entry.1), ?_, (of_decide_eq_true hname).symm, (of_decide_eq_true hkey).symm⟩
      refine List.mem_append_left _ (List.mem_append_right _ (List.mem_flatMap.mpr ⟨s, hs', ?_⟩))
      exact List.mem_map.mpr ⟨entry, hentry', rfl⟩
    · intro hnull
      rw [hnull, validator_null s hs' entry hentry'] at h
      cases h

/-- The saves of a section: all of its keys, or none. -/
theorem saves_uiSteps (stringify : Value → Text) (e : Text × Value) :
    saves (uiSteps stringify e) = [] ∨ ∃ entries, objectEntries e.2 = some entries ∧
      saves (uiSteps stringify e) = entries.map (fun e' ↦ ⟨e.1, e'.1, e'.2⟩) ∧
      ∀ e' ∈ entries, uiKeyError stringify e.1 e' = none := by
  unfold uiSteps
  split
  · exact .inl rfl
  · split
    · exact .inl rfl
    · rename_i entries hentries
      by_cases herrors : entries.filterMap (uiKeyError stringify e.1) = []
      · refine .inr ⟨entries, hentries, ?_, List.filterMap_eq_nil_iff.mp herrors⟩
        rw [herrors, List.nil_append, saves_saveEntries]
      · refine .inl (saves_append_of_refusals (fun step hstep ↦ ?_) herrors _)
        obtain ⟨e', -, herror⟩ := List.mem_filterMap.mp hstep
        exact isRefusal_of_uiKeyError herror

theorem plain_putUi (stringify : Value → Text) (body : Body) :
    Plain (putUi stringify body.value) := by
  unfold putUi
  split
  · exact plain_of_saves_eq_nil rfl
  · rename_i entries hentries
    have honce := body.once
    have hwithin := body.once_within
    rw [KeysOnce, hentries, Option.getD_some] at honce
    rw [hentries, Option.getD_some] at hwithin
    have hsub := saves_flatMap_sublist (uiSteps stringify) entries
    -- What a section saves.
    have hsection : ∀ e, ∀ w ∈ saves (uiSteps stringify e),
        w.table = e.1 ∧ w.IsKnown ∧ w.editValue ≠ none := by
      intro e w hw
      rcases saves_uiSteps stringify e with hnil | ⟨entries', -, hsaves, hkeys⟩
      · exact absurd (hnil ▸ hw) List.not_mem_nil
      · rw [hsaves] at hw
        obtain ⟨e', he', rfl⟩ := List.mem_map.mp hw
        obtain ⟨hknown, hvalue⟩ := known_of_uiKeyError (hkeys e' he')
        exact ⟨rfl, hknown, editValue_ne_none hvalue⟩
    have hmem : ∀ w ∈ saves (entries.flatMap (uiSteps stringify)),
        w.IsKnown ∧ w.editValue ≠ none := by
      intro w hw
      obtain ⟨e, -, hw⟩ := List.mem_flatMap.mp (hsub.subset hw)
      exact (hsection e w hw).2
    refine ⟨fun w hw ↦ (hmem w hw).1, List.Pairwise.sublist hsub ?_, fun _ w hw ↦ (hmem w hw).2⟩
    rw [List.pairwise_flatMap]
    constructor
    · intro e he
      rcases saves_uiSteps stringify e with hnil | ⟨entries', hentries', hsaves, -⟩
      · rw [hnil]
        exact List.Pairwise.nil
      · rw [hsaves]
        have honce' := hwithin e he
        rw [KeysOnce, hentries', Option.getD_some] at honce'
        exact pairwise_saveEntries honce'
    · refine (List.pairwise_map.mp honce).imp fun hne w hw w' hw' heq ↦ hne ?_
      rw [← (hsection _ w hw).1, ← (hsection _ w' hw').1]
      exact (Prod.mk.inj heq).1

/-! #### `PUT /elevation` -/

theorem isRefusal_of_elevationKeyError {step : Step}
    (h : elevationKeyError e = some step) : step.IsRefusal := by
  have hmethod : ∀ methods, methodError methods e = some step → step.IsRefusal := by
    intro methods hmethod
    unfold methodError at hmethod
    exact Option.some.inj (Option.ite_none_left_eq_some.mp hmethod).2 ▸ trivial
  unfold elevationKeyError at h
  split_ifs at h
  · exact hmethod _ h
  · exact hmethod _ h
  · exact hmethod _ h
  · unfold commandError at h
    exact Option.some.inj (Option.ite_none_left_eq_some.mp h).2 ▸ trivial

theorem elevationKeyError_null : ∀ key ∈ ELEVATION_CONFIG_KEYS,
    (elevationKeyError (key.toList, .scalar .null)).isSome := by decide +kernel

theorem saves_elevationSteps (e : Text × Value) :
    saves (elevationSteps e) =
      if (elevationKeyError e).isSome then [] else [⟨"elevation".toList, e.1, e.2⟩] := by
  unfold elevationSteps
  cases herror : elevationKeyError e with
  | none => rfl
  | some step =>
    exact saves_append_of_refusals
      (fun step' hstep ↦ isRefusal_of_elevationKeyError (herror.trans (Option.mem_toList.mp hstep)))
      (List.cons_ne_nil _ _) _

theorem plain_putElevation (body : Body) : Plain (putElevation body.value) := by
  unfold putElevation
  split
  · exact plain_of_saves_eq_nil rfl
  · rename_i entries hentries
    by_cases hunknown : unknownKeys ELEVATION_CONFIG_KEYS "Unknown elevation key: " entries = []
    · have honce := body.once
      rw [KeysOnce, hentries, Option.getD_some] at honce
      rw [hunknown, List.nil_append]
      have hsub := saves_flatMap_sublist elevationSteps entries
      have hkey : ∀ e, ∀ w ∈ saves (elevationSteps e),
          w = ⟨"elevation".toList, e.1, e.2⟩ ∧ (elevationKeyError e).isSome = false := by
        intro e w hw
        rw [saves_elevationSteps] at hw
        split_ifs at hw with herror
        · exact absurd hw List.not_mem_nil
        · exact ⟨List.mem_singleton.mp hw, Bool.not_eq_true _ ▸ herror⟩
      have hmem : ∀ w ∈ saves (entries.flatMap elevationSteps),
          w.IsKnown ∧ w.editValue ≠ none := by
        intro w hw
        obtain ⟨e, he, hw⟩ := List.mem_flatMap.mp (hsub.subset hw)
        obtain ⟨rfl, hpasses⟩ := hkey e w hw
        obtain ⟨key, hkey, heq⟩ := known_of_unknownKeys hunknown he
        refine ⟨⟨("elevation", key), ?_, rfl, heq.symm⟩, editValue_ne_none fun hnull ↦ ?_⟩
        · exact List.mem_append_right _ (List.mem_map_of_mem hkey)
        · have hrefused := elevationKeyError_null key hkey
          rw [heq, ← show e.2 = _ from hnull, hpasses] at hrefused
          cases hrefused
      refine ⟨fun w hw ↦ (hmem w hw).1, List.Pairwise.sublist hsub ?_, fun _ w hw ↦ (hmem w hw).2⟩
      rw [List.pairwise_flatMap]
      constructor
      · intro e _
        rw [saves_elevationSteps]
        split
        · exact List.Pairwise.nil
        · exact List.pairwise_singleton _ _
      · refine (List.pairwise_map.mp honce).imp fun hne w hw w' hw' heq ↦ hne ?_
        obtain ⟨rfl, -⟩ := hkey _ w hw
        obtain ⟨rfl, -⟩ := hkey _ w' hw'
        exact (Prod.mk.inj heq).2
    · exact plain_of_saves_eq_nil
        (saves_append_of_refusals isRefusal_of_mem_unknownKeys hunknown _)

/-! #### `PUT /appearance` -/

theorem answerOf_append_of_ok {steps : List Step} (h : answerOf steps = .ok) (steps' : List Step) :
    answerOf (steps ++ steps') = answerOf steps' := by
  induction steps with
  | nil => rfl
  | cons step steps ih =>
    cases step with
    | save w => exact ih h
    | refuse code message => cases h

theorem answerOf_flatMap_appearanceSteps (entries : Document) :
    answerOf (entries.flatMap appearanceSteps) = .ok := by
  induction entries with
  | nil => rfl
  | cons e entries ih =>
    rw [List.flatMap_cons, answerOf_append_of_ok, ih]
    unfold appearanceSteps
    split
    · exact answerOf_saveEntries _ _
    · rfl

/-- The tables that are written to. -/
theorem splitOn_appearance : ∀ key ∈ APPEARANCE_KEYS, ∃ rest,
    (['.'].intercalate ((("appearance.".toList ++ key.toList).splitOn '.').map
      camelToSnake)).splitOn '.' = "appearance".toList :: rest := by
  intro key hkey
  have hhead : ∀ key ∈ APPEARANCE_KEYS,
      ((['.'].intercalate ((("appearance.".toList ++ key.toList).splitOn '.').map
        camelToSnake)).splitOn '.').head? = some "appearance".toList := by decide +kernel
  exact (List.head?_eq_some_iff.mp (hhead key hkey))

theorem head?_keys_putAppearance (body : Body) :
    ∀ w ∈ saves (putAppearance body.value), w.keys.head? ≠ some "terminal".toList := by
  intro w hw
  unfold putAppearance at hw
  split at hw
  · exact absurd hw List.not_mem_nil
  · rename_i entries _
    by_cases hunknown : unknownKeys APPEARANCE_KEYS "Unknown appearance key: " entries = []
    · rw [hunknown, List.nil_append] at hw
      obtain ⟨e, he, hw⟩ := List.mem_flatMap.mp ((saves_flatMap_sublist _ entries).subset hw)
      have htable : ∃ rest,
          (['.'].intercalate ((w.table.splitOn '.').map camelToSnake)).splitOn '.' =
            "appearance".toList :: rest := by
        unfold appearanceSteps at hw
        split at hw
        · rw [saves_saveEntries] at hw
          obtain ⟨e', -, rfl⟩ := List.mem_map.mp hw
          obtain ⟨key, hkey, heq⟩ := known_of_unknownKeys hunknown he
          rw [← heq]
          exact splitOn_appearance key hkey
        · have hflat : (['.'].intercalate (("appearance".toList.splitOn '.').map
              camelToSnake)).splitOn '.' = ["appearance".toList] := by decide +kernel
          rw [List.mem_singleton.mp hw]
          exact ⟨[], hflat⟩
      obtain ⟨rest, htable⟩ := htable
      rw [Save.keys, Save.path, List.splitOn_append_cons_self, htable]
      exact fun h ↦ absurd (Option.some.inj h) (by decide +kernel)
    · rw [saves_append_of_refusals isRefusal_of_mem_unknownKeys hunknown] at hw
      exact absurd hw List.not_mem_nil

theorem saves_putAppearance_of_refused {body : Body}
    (h : answerOf (putAppearance body.value) ≠ .ok) : saves (putAppearance body.value) = [] := by
  unfold putAppearance at h ⊢
  split
  · rfl
  · rename_i entries hentries
    rw [hentries] at h
    by_cases hunknown : unknownKeys APPEARANCE_KEYS "Unknown appearance key: " entries = []
    · dsimp only at h
      rw [hunknown] at h
      exact absurd (answerOf_flatMap_appearanceSteps entries) h
    · exact saves_append_of_refusals isRefusal_of_mem_unknownKeys hunknown _

/-! ### All of the routes -/

theorem tidy_stepsOf (stringify : Value → Text) (r : Request) :
    Tidy (saves (stepsOf stringify r)) := by
  cases r with
  | global body => exact tidy_of_known (plain_putGlobal body).known (plain_putGlobal body).distinct
  | ui body =>
    exact tidy_of_known (plain_putUi stringify body).known (plain_putUi stringify body).distinct
  | appearance body => exact tidy_of_head_ne (head?_keys_putAppearance body)
  | elevation body =>
    exact tidy_of_known (plain_putElevation body).known (plain_putElevation body).distinct

/-- What a request that is refused saves: values for keys of their own. -/
theorem refused_stepsOf {r : Request} (h : answerOf (stepsOf stringify r) ≠ .ok) :
    (saves (stepsOf stringify r)).Pairwise (fun w w' ↦ Apart w'.keys w.keys) ∧
      ∀ w ∈ saves (stepsOf stringify r), w.editValue ≠ none := by
  have hplain : ∀ steps, Plain steps → answerOf steps ≠ .ok →
      (saves steps).Pairwise (fun w w' ↦ Apart w'.keys w.keys) ∧
        ∀ w ∈ saves steps, w.editValue ≠ none := by
    intro steps hsteps hrefused
    exact ⟨hsteps.distinct.imp_of_mem fun hw hw' hne ↦
      apart_of_known (hsteps.known _ hw) (hsteps.known _ hw') hne, hsteps.refused hrefused⟩
  cases r with
  | global body => exact hplain _ (plain_putGlobal body) h
  | ui body => exact hplain _ (plain_putUi stringify body) h
  | appearance body => exact hplain _ (plain_of_saves_eq_nil (saves_putAppearance_of_refused h)) h
  | elevation body => exact hplain _ (plain_putElevation body) h

theorem hasTerminal_iff {parsed : Document} :
    HasTerminal (some parsed) ↔ terminalOverrides parsed ≠ none := by
  rw [HasTerminal, Option.bind_some, Option.isSome_iff_ne_none]

/-- **What a request does to the configuration.** -/
theorem put_iff (stringify : Value → Text) (h : Coherent ed s) (r : Request) :
    ((put ed stringify s r).2 ≠ .ok → Same ed s (put ed stringify s r).1) ∧
        Coherent ed (put ed stringify s r).1 ↔
      SavesNothing ed stringify s r ∧ KeepsTerminal ed stringify s r := by
  unfold put
  cases hparsed : documentOf ed s with
  | none =>
    -- The first save throws.
    rw [runSteps_of_malformed hparsed]
    refine iff_of_true ⟨fun _ ↦ ⟨rfl, rfl⟩, h⟩ ⟨fun _ parsed hsome ↦ ?_, fun hsome ↦ ?_⟩
    · rw [hparsed] at hsome
      cases hsome
    · rw [hparsed] at hsome
      cases hsome
  | some parsed =>
    obtain ⟨hanswer, parsed', htext, hparsed', hsaved⟩ :=
      runSteps_spec hparsed (stepsOf stringify r)
    have hr := (coherent_iff hparsed).mp h
    have hsame : Same ed s (runSteps ed s (stepsOf stringify r)).1 ↔
        parsed' = parsed ∧ (runSteps ed s (stepsOf stringify r)).1.configResolver =
          s.configResolver := by
      rw [Same, hparsed, hparsed', Option.some.injEq]
    have hkeeps : KeepsTerminal ed stringify s r ↔
        (terminalOverrides parsed ≠ none → terminalOverrides parsed' ≠ none) := by
      rw [KeepsTerminal, hparsed, htext, hasTerminal_iff, hasTerminal_iff]
    have hnothing : SavesNothing ed stringify s r ↔ (answerOf (stepsOf stringify r) ≠ .ok →
        ∀ w ∈ saves (stepsOf stringify r), getAt parsed w.keys = w.editValue) := by
      unfold SavesNothing
      rw [hparsed]
      exact forall_congr' fun _ ↦ ⟨fun hall ↦ hall parsed rfl,
        fun hall parsed' hsome ↦ Option.some.inj hsome ▸ hall⟩
    rw [hanswer, coherent_iff hparsed', hsaved.eq_iff (tidy_stepsOf stringify r) hr, hkeeps, hsame,
      hnothing]
    refine and_congr_left fun _ ↦ forall_congr' fun hrefused ↦ ?_
    obtain ⟨hapart, hset⟩ := refused_stepsOf hrefused
    exact hsaved.same_iff (hr ▸ loaded_loadParsed initial parsed) hapart hset

variable (ed)

/-- The requests come one after another. -/
def step (stringify : Value → Text) (s : ConfigState τ) (r : Request) : Option (ConfigState τ) :=
  some (put ed stringify s r).1

/-- **The configuration is kept whole**: an error leaves it as it was, and a fresh resolver loads
what is held, after each request if and only if none is refused behind what it saves and none takes
the `[terminal]` table away. -/
theorem config_kept_iff (stringify : Value → Text) (file : Option τ) (rs : List Request) :
    Along (step ed stringify)
        (fun s r s' ↦ ((put ed stringify s r).2 ≠ .ok → Same ed s s') ∧ Coherent ed s')
        (start ed file) rs ↔
      Along (step ed stringify)
        (fun s r _ ↦ SavesNothing ed stringify s r ∧ KeepsTerminal ed stringify s r)
        (start ed file) rs := by
  refine along_congr_of_keeps (Coherent ed) ?_ rfl
  intro s r s' hs hstep
  cases hstep
  have hiff := put_iff stringify hs r
  exact ⟨hiff, fun h ↦ (hiff.mpr h).2⟩

/-! ### Two requests -/

/-- An editor of documents that drops what became empty. -/
def documentEditor : TomlEditor Document where
  empty := []
  parse := some
  edit text path value := some (editAt true text (path.splitOn '.') value)
  parse_empty := rfl
  edit_malformed _ _ h := by cases h
  parse_edit path value h :=
    ⟨_, true, rfl, by rw [Option.some.inj h]⟩

/-- `{"tabs": {"closeButton": false}, "panes": {"maxPanes": 0}}` -/
def twoSections : Body where
  value := .table [("tabs".toList, .table [("closeButton".toList, bool false)]),
    ("panes".toList, .table [("maxPanes".toList, num 0)])]
  once := by unfold KeysOnce; decide +kernel
  once_within := by unfold KeysOnce; decide +kernel

/-- `{"terminal": {"theme": null}}` -/
def resetTheme : Body where
  value := .table [("terminal".toList, .table [("theme".toList, .scalar .null)])]
  once := by unfold KeysOnce; decide +kernel
  once_within := by unfold KeysOnce; decide +kernel

/-- `{"terminal": {"theme": "nord"}}` -/
def setTheme : Body where
  value := .table [("terminal".toList, .table [("theme".toList, str "nord")])]
  once := by unfold KeysOnce; decide +kernel
  once_within := by unfold KeysOnce; decide +kernel

theorem config_kept_iff_setTheme :
    Along (step documentEditor fun _ ↦ [])
      (fun s r s' ↦ ((put documentEditor (fun _ ↦ []) s r).2 ≠ .ok → Same documentEditor s s') ∧
        Coherent documentEditor s')
      (start documentEditor none) [.global setTheme] := by
  refine (config_kept_iff documentEditor (fun _ ↦ []) none [.global setTheme]).mpr ?_
  refine (along_cons_of_eq rfl).mpr
    ⟨⟨fun hrefused ↦ absurd rfl hrefused, fun hbefore ↦ ?_⟩, trivial⟩
  have hnone : ¬HasTerminal (documentOf documentEditor (start documentEditor none)) := nofun
  exact absurd hbefore hnone

/-- The second section is refused and the first one is saved; and a theme that was reset is still
there in memory. -/
theorem not_config_kept_twoSections :
    let s := start documentEditor none
    let themed := start documentEditor
      (some [("terminal".toList, .table [("theme".toList, str "nord")])])
    ((put documentEditor (fun _ ↦ []) s (.ui twoSections)).2 ≠ .ok ∧
        ¬Same documentEditor s (put documentEditor (fun _ ↦ []) s (.ui twoSections)).1) ∧
      (put documentEditor (fun _ ↦ []) themed (.global resetTheme)).2 = .ok ∧
      ¬Coherent documentEditor
        (put documentEditor (fun _ ↦ []) themed (.global resetTheme)).1 := by
  intro s themed
  refine ⟨⟨?_, ?_⟩, ?_, ?_⟩
  · have hanswer : (put documentEditor (fun _ ↦ []) s (.ui twoSections)).2 =
        .refused "INVALID_VALUE".toList "Invalid value for \"panes.maxPanes\": ".toList := by
      rfl
    rw [hanswer]
    exact nofun
  · intro hsame
    have hafter : documentOf documentEditor
        (put documentEditor (fun _ ↦ []) s (.ui twoSections)).1 =
        some [("tabs".toList, .table [("close_button".toList, bool false)])] := by
      rfl
    have hbefore : documentOf documentEditor s = some [] := rfl
    rw [Same, hafter, hbefore] at hsame
    exact List.cons_ne_nil _ _ (Option.some.inj hsame.1)
  · rfl
  · intro hcoherent
    have hkept : (put documentEditor (fun _ ↦ []) themed
        (.global resetTheme)).1.configResolver.fileConfig =
          some [("theme".toList, str "nord")] := by
      rfl
    have hfresh : (fresh documentEditor (put documentEditor (fun _ ↦ []) themed
        (.global resetTheme)).1.file).fileConfig = none := by
      rfl
    rw [hcoherent, hfresh] at hkept
    cases hkept

end Lasterm.Hub.ConfigWrites
