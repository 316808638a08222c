import Lasterm.Hub.AgentCache
import Lasterm.Library.KeyedTree
import Mathlib.Data.Rat.Floor

/-!
# The configuration of the hub

`ConfigResolver` of `config.ts` holds what `config.toml` says. `loadFromFile` goes through the
sections of the file and takes over what passes the check of its key, and the default otherwise.

All but one of the sections are put together anew at each load. What `[terminal]` says is only
replaced where the file has this section, so that what an earlier load left is kept where it has
not (`loadParsed_loadParsed`).

A document is what the TOML parser makes of the text, without comments and layout.
-/

namespace Lasterm.Hub.ConfigFile

open AgentDeployer KeyedTree OrderedMap Shell

/-! ## Values -/

/-- What is no array and no table. Of a date nothing is read. -/
inductive Atom
  | null
  | bool (b : Bool)
  | num (n : ℚ)
  | str (t : Text)
  | date (t : Text)

abbrev Value := KeyedTree Text Atom

abbrev Document := Entries Text Atom

def bool (b : Bool) : Value := .scalar (.bool b)

def num (n : ℚ) : Value := .scalar (.num n)

def str (s : String) : Value := .scalar (.str s.toList)

/-- `Object.entries`, of what has `typeof` equal to `"object"` and is not null. -/
def objectEntries : Value → Option Document
  | .table entries => some entries
  | .array items => some (items.zipIdx.map fun item ↦ ((toString item.2).toList, item.1))
  | .scalar (.date _) => some []
  | .scalar _ => none

/-! ## The checks of the keys -/

def boolean : Value → Option Value
  | .scalar (.bool b) => some (bool b)
  | _ => none

def string (p : Text → Bool) : Value → Option Value
  | .scalar (.str t) => if p t then some (.scalar (.str t)) else none
  | _ => none

def number (f : ℚ → Option ℚ) : Value → Option Value
  | .scalar (.num n) => (f n).map num
  | _ => none

def anyString : Value → Option Value := string fun _ ↦ true

def oneOf (values : List String) : Value → Option Value :=
  string fun t ↦ values.any fun s ↦ s.toList = t

def atLeast (least : ℚ) : Value → Option Value :=
  number fun n ↦ if least ≤ n then some n else none

def notNegative : Value → Option Value := number fun n ↦ some (max 0 n)

def strings : Value → Option Value
  | .array items => if items.all fun v ↦ (anyString v).isSome then some (.array items) else none
  | _ => none

/-- What is taken over from a document: the value at a path, if it passes the check. -/
structure Field where
  path : List Text
  name : List Text
  check : Value → Option Value
  default : Option Value

/-- A key of a table, with its name in the configuration. -/
def field (table key name : String) (check : Value → Option Value) (default : Option Value) :
    Field :=
  ⟨[table.toList, key.toList], [name.toList], check, default⟩

/-- A key of a table, for a configuration that has tables as well. -/
def fieldOf (table key name : String) (check : Value → Option Value) (default : Option Value) :
    Field :=
  ⟨[table.toList, key.toList], [table.toList, name.toList], check, default⟩

abbrev Config := List (List Text × Option Value)

def extract (fields : List Field) (parsed : Document) : Config :=
  fields.map fun f ↦ (f.name, ((getAt parsed f.path).bind f.check).or f.default)

def defaults (fields : List Field) : Config := fields.map fun f ↦ (f.name, f.default)

theorem extract_nil (fields : List Field) : extract fields [] = defaults fields := by
  refine List.map_congr_left fun f _ ↦ ?_
  rw [getAt_nil]
  rfl

/-! ## The sections -/

def gcFields : List Field :=
  [field "gc" "dead_retention_hours" "deadRetentionHours" notNegative (num 24),
    field "gc" "max_size_per_channel_mb" "maxSizePerChannelMb" notNegative (num 10)]

def extractGcConfig : Document → Config := extract gcFields

def uiFields : List Field :=
  [field "ui" "on_channel_dead" "onChannelDead" (oneOf ["close", "readonly"]) (str "readonly"),
    fieldOf "tabs" "close_button" "closeButton" boolean (bool true),
    fieldOf "tabs" "new_tab_position" "newTabPosition" (oneOf ["end", "afterActive"]) (str "end"),
    fieldOf "tabs" "confirm_close_all" "confirmCloseAll" boolean (bool true),
    fieldOf "tabs" "confirm_close_others" "confirmCloseOthers" boolean (bool true),
    fieldOf "panes" "max_panes" "maxPanes" (atLeast 1) (num 4),
    fieldOf "panes" "default_split_direction" "defaultSplitDirection"
      (oneOf ["horizontal", "vertical"]) (str "horizontal"),
    fieldOf "channels" "default_shell" "defaultShell" anyString none,
    fieldOf "channels" "default_group_name" "defaultGroupName" (string (· ≠ [])) (str "General"),
    fieldOf "channels" "auto_group" "autoGroup" (oneOf ["none", "first"]) (str "none"),
    fieldOf "startup" "auto_open_welcome" "autoOpenWelcome" boolean (bool true),
    fieldOf "title" "source" "source" (oneOf ["dynamic", "static", "process"]) (str "dynamic"),
    fieldOf "title" "static_title" "staticTitle" anyString none,
    fieldOf "title" "max_length" "maxLength" (atLeast 1) (num 50),
    fieldOf "title" "truncation" "truncation" (oneOf ["end", "middle", "start"]) (str "end"),
    fieldOf "title" "prefix" "prefix" anyString none,
    fieldOf "title" "window_title" "windowTitle" boolean (bool true),
    fieldOf "title" "window_format" "windowFormat" anyString
      (str "lasterm - \x7bprefix\x7d\x7bhost\x7d - \x7btitle\x7d"),
    fieldOf "search" "position" "position" (oneOf ["top-right", "bottom-right", "bottom-bar"])
      (str "top-right"),
    fieldOf "search" "highlight_on_close" "highlightOnClose" (oneOf ["clear", "fade", "persist"])
      (str "clear"),
    fieldOf "search" "scrollbar_markers" "scrollbarMarkers" boolean (bool true),
    fieldOf "search" "history_size" "historySize" (atLeast 1) (num 20),
    fieldOf "layout" "host_rail_width" "hostRailWidth" (atLeast 0) (num 48),
    fieldOf "layout" "sidebar_width" "sidebarWidth" (atLeast 0) (num 200)]

def extractUiConfig : Document → Config := extract uiFields

/-- A key of a table in `[appearance]`. -/
def appearanceField (table key group name : String) (check : Value → Option Value)
    (default : Value) : Field :=
  ⟨["appearance".toList, table.toList, key.toList], [group.toList, name.toList], check, default⟩

def appearanceFields : List Field :=
  let anyNumber := number some
  [field "appearance" "theme" "theme" anyString (str "catppuccin-mocha"),
    appearanceField "auto_switch" "enabled" "autoSwitch" "enabled" boolean (bool false),
    appearanceField "auto_switch" "dark_theme" "autoSwitch" "darkTheme" anyString
      (str "catppuccin-mocha"),
    appearanceField "auto_switch" "light_theme" "autoSwitch" "lightTheme" anyString
      (str "one-half-light"),
    appearanceField "opacity" "terminal" "opacity" "terminal" anyNumber (num 100),
    appearanceField "opacity" "sidebar" "opacity" "sidebar" anyNumber (num 100),
    appearanceField "opacity" "host_rail" "opacity" "hostRail" anyNumber (num 100),
    appearanceField "opacity" "tab_bar" "opacity" "tabBar" anyNumber (num 100),
    appearanceField "scrollbar" "style" "scrollbar" "style" (oneOf ["thin", "wide", "hidden"])
      (str "thin"),
    appearanceField "scrollbar" "thumb_color" "scrollbar" "thumbColor" anyString (str ""),
    appearanceField "scrollbar" "track_color" "scrollbar" "trackColor" anyString (str ""),
    appearanceField "scrollbar" "width_thin" "scrollbar" "widthThin" anyNumber (num 6),
    appearanceField "scrollbar" "width_wide" "scrollbar" "widthWide" anyNumber (num 14)]

def extractAppearanceConfig : Document → Config := extract appearanceFields

def ELEVATION_METHODS_LINUX : List String := ["sudo", "doas", "pkexec", "custom"]

def ELEVATION_METHODS_DARWIN : List String := ["sudo", "doas", "custom"]

def ELEVATION_METHODS_WINDOWS : List String := ["gsudo", "custom"]

/-- How many units of UTF-16 a text takes. -/
def utf16Units (t : Text) : ℕ := (t.map fun c ↦ if 0xFFFF < c.toNat then 2 else 1).sum

def isPathSeparator (c : Char) : Bool := c = '/' || c = backslash

/-- The message, if the command does not pass. -/
def validateCustomCommand (cmd : Text) : Option String :=
  let segments := cmd.splitOnP isPathSeparator
  let isWindowsAbsolute := match cmd with
    | drive :: ':' :: c :: _ => drive.isAlpha && isPathSeparator c
    | _ => false
  if cmd = [] then some "custom_command must not be empty"
  else if 4096 < utf16Units cmd then some "custom_command exceeds maximum length"
  else if cmd.any fun c ↦ 127 < c.toNat then
    some "custom_command must contain only ASCII characters"
  else if cmd.any fun c ↦ c.toNat = 0 then some "custom_command contains invalid characters"
  else if ¬cmd.all fun c ↦ c.isAlphanum || isPathSeparator c || c ∈ "._ :-".toList then
    some "custom_command contains invalid characters"
  else if cmd.head? ≠ some '/' ∧ isWindowsAbsolute = false then
    some "custom_command must be an absolute path"
  -- `..` in front of a separator, or at the end and behind one.
  else if (segments.dropLast.any fun s ↦ s = ['.', '.']) ∨
      2 ≤ segments.length ∧ segments.getLast? = some ['.', '.'] then
    some "custom_command must not contain path traversal"
  else none

def customCommand : Value → Option Value :=
  string fun t ↦ t ≠ [] && (validateCustomCommand t).isNone

def elevationFields : List Field :=
  [field "elevation" "method_linux" "methodLinux" (oneOf ELEVATION_METHODS_LINUX) (str "sudo"),
    field "elevation" "method_darwin" "methodDarwin" (oneOf ELEVATION_METHODS_DARWIN) (str "sudo"),
    field "elevation" "method_windows" "methodWindows" (oneOf ELEVATION_METHODS_WINDOWS)
      (str "gsudo"),
    field "elevation" "custom_command_linux" "customCommandLinux" customCommand none,
    field "elevation" "custom_command_darwin" "customCommandDarwin" customCommand none,
    field "elevation" "custom_command_windows" "customCommandWindows" customCommand none]

/-- `extractElevationConfig`, over `DEFAULT_ELEVATION_CONFIG`. -/
def extractElevationConfig : Document → Config := extract elevationFields

def DEFAULT_CORS_ORIGINS : Value := .array [str "tauri://localhost", str "http://tauri.localhost"]

def corsFields : List Field :=
  [field "server" "cors_origins" "corsOrigins" strings DEFAULT_CORS_ORIGINS]

/-- `extractCorsConfig`, or `DEFAULT_CORS_ORIGINS`. -/
def extractCorsConfig : Document → Config := extract corsFields

def logLevel (name : String) : Field :=
  field "logging" "level" name (oneOf ["trace", "debug", "info", "warn", "error"]) (str "info")

def logFormat (name : String) : Field :=
  field "logging" "format" name (oneOf ["text", "jsonl"]) (str "jsonl")

def logFields : List Field :=
  [logLevel "level", logFormat "format",
    field "logging" "output" "output" (oneOf ["stderr", "file", "both"]) (str "file"),
    field "logging" "max_age_days" "maxAgeDays" notNegative (num 30),
    field "logging" "max_size_mb" "maxSizeMb" notNegative (num 50)]

def extractLogConfig : Document → Config := extract logFields

/-- The number that the digits at the start of a text make, where `none` is no number. -/
def parseDigits (t : Text) : Option ℚ :=
  let digits := t.takeWhile Char.isDigit
  if digits = [] then none else some (Nat.ofDigitChars 10 digits 0)

/-- `Number.parseInt(text, 10)`. -/
def parseInt : Text → Option ℚ
  | '-' :: t => (parseDigits t).map (-·)
  | '+' :: t => parseDigits t
  | t => parseDigits t

def multiplier (unit : Text) : Option ℚ :=
  match String.ofList (unit.map Char.toUpper) with
  | "" | "B" => some 1
  | "KB" => some 1024
  | "MB" => some (1024 * 1024)
  | "GB" => some (1024 * 1024 * 1024)
  | _ => none

/-- Here `none` is no number. -/
def parseSize : Value → Option ℚ
  | .scalar (.num n) => some n
  | .scalar (.str t) =>
    let trimmed := trim t
    let whole := trimmed.takeWhile Char.isDigit
    let behind := trimmed.dropWhile Char.isDigit
    let decimals := match behind with
      | '.' :: rest => rest.takeWhile Char.isDigit
      | _ => []
    let rest := if decimals = [] then behind else behind.drop (decimals.length + 1)
    match multiplier (rest.dropWhile isSpace) with
    | some m =>
      if whole = [] then parseInt trimmed
      else
        let value : ℚ := Nat.ofDigitChars 10 (whole ++ decimals) 0 / 10 ^ decimals.length
        some (value * m).floor
    | none => parseInt trimmed
  | _ => none

/-- `parseSizeOrDefault`, without the default. -/
def size (v : Value) : Option Value := ((parseSize v).filter (0 ≤ ·)).map num

/-- `parseAgentConfig`, with the level and the format of the log. -/
def agentFields : List Field :=
  [field "agent" "socket_path" "socketPath" (string (· ≠ [])) none,
    field "agent" "buffer_per_channel" "bufferPerChannel" size (num (1024 * 1024)),
    field "agent" "buffer_global" "bufferGlobal" size (num (20 * 1024 * 1024)),
    logLevel "logLevel", logFormat "logFormat",
    field "agent" "bind_timeout" "bindTimeout"
      (number fun n ↦ if 0 < n then some n else none) (num 5000)]

def extractAgentConfig : Document → Config := extract agentFields

/-! ## The resolver -/

def snakeToCamel : Text → Text
  | '_' :: c :: rest =>
    if c.isLower then c.toUpper :: snakeToCamel rest else '_' :: snakeToCamel (c :: rest)
  | c :: rest => c :: snakeToCamel rest
  | [] => []

def camelToSnake (t : Text) : Text := t.flatMap fun c ↦ if c.isUpper then ['_', c.toLower] else [c]

def profileKey (key : Text) (value : Value) : Text :=
  if key = "theme_overrides".toList ∧ (objectEntries value).isSome then "themeOverrides".toList
  else snakeToCamel key

/-- What the `[terminal]` section says, if there is one. -/
def terminalOverrides (parsed : Document) : Option Document :=
  ((lookup parsed "terminal".toList).bind objectEntries).map fun entries ↦
    entries.foldl (fun flat e ↦ setEntries (profileKey e.1 e.2) e.2 flat) []

/-- The part of `ConfigResolver` that the file decides on. -/
structure ConfigResolver where
  fileConfig : Option Document
  gcConfig : Config
  uiConfig : Config
  appearance : Config
  elevation : Config
  corsOrigins : Config
  logConfig : Config
  agentConfig : Config

/-- A new resolver. -/
def initial : ConfigResolver :=
  ⟨none, defaults gcFields, defaults uiFields, defaults appearanceFields, defaults elevationFields,
    defaults corsFields, defaults logFields, defaults agentFields⟩

/-- The rest of `loadFromFile`, behind `TOML.parse`. -/
def loadParsed (r : ConfigResolver) (parsed : Document) : ConfigResolver where
  fileConfig := (terminalOverrides parsed).or r.fileConfig
  gcConfig := extractGcConfig parsed
  uiConfig := extractUiConfig parsed
  appearance := extractAppearanceConfig parsed
  elevation := extractElevationConfig parsed
  corsOrigins := extractCorsConfig parsed
  logConfig := extractLogConfig parsed
  agentConfig := extractAgentConfig parsed

theorem loadParsed_initial_nil : loadParsed initial [] = initial := by
  rw [loadParsed, extractGcConfig, extractUiConfig, extractAppearanceConfig, extractElevationConfig,
    extractCorsConfig, extractLogConfig, extractAgentConfig]
  simp only [extract_nil]
  rfl

/-- A load leaves nothing of what was loaded before, but for the overrides of a `[terminal]` section
that is not there any more. -/
theorem loadParsed_loadParsed (r : ConfigResolver) (parsed parsed' : Document) :
    loadParsed (loadParsed r parsed) parsed' =
      { loadParsed r parsed' with
        fileConfig := (terminalOverrides parsed').or
          ((terminalOverrides parsed).or r.fileConfig) } := rfl

/-- A resolver that holds what the document says, and no more. -/
theorem loadParsed_eq_iff (r : ConfigResolver) (parsed : Document) :
    loadParsed r parsed = loadParsed initial parsed ↔
      (terminalOverrides parsed = none → r.fileConfig = none) := by
  have hfile : ∀ r, (loadParsed r parsed).fileConfig = (terminalOverrides parsed).or r.fileConfig :=
    fun r ↦ rfl
  constructor
  · intro h hnone
    have hsame := congrArg ConfigResolver.fileConfig h
    rw [hfile, hfile, hnone] at hsame
    exact hsame
  · intro h
    cases hterminal : terminalOverrides parsed with
    | some overrides =>
      unfold loadParsed
      rw [hterminal]
      rfl
    | none =>
      unfold loadParsed
      rw [hterminal, h hterminal]
      rfl

end Lasterm.Hub.ConfigFile
