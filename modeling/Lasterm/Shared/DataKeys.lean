import Lasterm.Shared.Codec
import Mathlib.Data.List.Infix

/-!
# Keys that are data

Two maps of the protocol have keys that are data and not field names: the `env` of a SPAWN, and the
`themeOverlay` in the visual hints of a HELLO. `RAW_VALUE_KEYS` has the first one only. The keys of
an overlay are converted as if they were fields, and those where a lower-case letter follows an
underscore do not come back (`message_returns_iff`). Those that do are the ones with no such letter,
upper-case letters or not: conversion of a key to the wire form and back leaves it alone
(`snakeToCamelChars_camelToSnakeChars_of_noSnake`), and what comes back from any key at all is one
of these (`noSnake_snakeToCamelChars`).
-/

namespace Lasterm

/-! ## Keys -/

/-- No lower-case letter follows an underscore. -/
def NoSnake (cs : List Char) : Prop := ∀ c : Char, 'a' ≤ c → c ≤ 'z' → ¬['_', c] <:+: cs

section Keys

variable {c : Char} {cs : List Char}

section

variable (h : 'a' ≤ c ∧ c ≤ 'z')
include h

theorem toLower_toUpper : ('A' ≤ c.toUpper ∧ c.toUpper ≤ 'Z') ∧ c.toUpper.toLower = c := by
  obtain ⟨hlow, hup⟩ := h
  have hlo : 97 ≤ c.toNat := hlow
  have hhi : c.toNat ≤ 122 := hup
  rw [← Char.ofNat_toNat c]
  generalize c.toNat = n at hlo hhi
  interval_cases n <;> decide

/-- The letter that takes an underscore's place is an upper-case one. -/
theorem upper_toUpper : 'A' ≤ c.toUpper ∧ c.toUpper ≤ 'Z' :=
  (toLower_toUpper h).1

theorem not_lower_toUpper : ¬('a' ≤ c.toUpper ∧ c.toUpper ≤ 'z') :=
  fun hlower ↦ absurd (hlower.1.trans (upper_toUpper h).2) (by decide)

theorem toUpper_ne_underscore : c.toUpper ≠ '_' :=
  fun heq ↦ absurd (heq ▸ (upper_toUpper h).2) (by decide)

end

theorem NoSnake.tail (h : NoSnake (c :: cs)) : NoSnake cs :=
  fun d hlow hup hinfix ↦ h d hlow hup (List.infix_cons_iff.mpr (.inr hinfix))

theorem noSnake_nil : NoSnake [] := by
  rintro d - - hinfix
  cases List.infix_nil.mp hinfix

theorem noSnake_cons (hc : c = '_' → ∀ d, cs.head? = some d → ¬('a' ≤ d ∧ d ≤ 'z'))
    (h : NoSnake cs) : NoSnake (c :: cs) := by
  intro d hlow hup hinfix
  obtain hprefixed | hinfix := List.infix_cons_iff.mp hinfix
  · obtain ⟨rest, hrest⟩ := hprefixed
    cases hrest
    exact hc rfl d rfl ⟨hlow, hup⟩
  · exact h d hlow hup hinfix

theorem snakeToCamelChars_underscore (h : ∀ d, cs.head? = some d → ¬('a' ≤ d ∧ d ≤ 'z')) :
    snakeToCamelChars ('_' :: cs) = '_' :: snakeToCamelChars cs := by
  cases cs with
  | nil => rfl
  | cons d cs => rw [snakeToCamelChars, if_neg fun hd ↦ h d rfl hd.2]

theorem head?_of_noSnake (h : NoSnake ('_' :: cs)) (d : Char) (hd : cs.head? = some d) :
    ¬('a' ≤ d ∧ d ≤ 'z') := by
  rintro ⟨hlow, hup⟩
  obtain ⟨rest, rfl⟩ := List.head?_eq_some_iff.mp hd
  exact h d hlow hup ⟨[], rest, rfl⟩

theorem camelToSnakeChars_cons : camelToSnakeChars (c :: cs)
    = (if 'A' ≤ c ∧ c ≤ 'Z' then ['_', c.toLower] else [c]) ++ camelToSnakeChars cs :=
  List.flatMap_cons

/-- What is written for a key starts with a letter in lower case only if the key does. -/
theorem head?_camelToSnakeChars (h : ∀ d, cs.head? = some d → ¬('a' ≤ d ∧ d ≤ 'z')) (d : Char)
    (hd : (camelToSnakeChars cs).head? = some d) : ¬('a' ≤ d ∧ d ≤ 'z') := by
  cases cs with
  | nil => cases hd
  | cons e cs =>
    rw [camelToSnakeChars, List.flatMap_cons] at hd
    split at hd
    · cases hd
      decide
    · exact h d hd

theorem snakeToCamelChars_camelToSnakeChars_of_noSnake (h : NoSnake cs) :
    snakeToCamelChars (camelToSnakeChars cs) = cs := by
  induction cs with
  | nil => rfl
  | cons c cs ih =>
    have hrest := ih h.tail
    rw [camelToSnakeChars_cons]
    by_cases hupper : 'A' ≤ c ∧ c ≤ 'Z'
    · obtain ⟨hlow, hup⟩ := toUpper_toLower hupper
      rw [if_pos hupper, List.cons_append, List.cons_append, List.nil_append, snakeToCamelChars,
        if_pos ⟨rfl, hlow⟩, hup, hrest]
    · rw [if_neg hupper, List.cons_append, List.nil_append]
      by_cases hc : c = '_'
      · subst hc
        rw [snakeToCamelChars_underscore (head?_camelToSnakeChars (head?_of_noSnake h)), hrest]
      · rw [snakeToCamelChars_cons hc, hrest]

/-- What is read for a key starts with a letter in lower case only if the wire's key does. -/
theorem head?_snakeToCamelChars (h : ∀ d, cs.head? = some d → ¬('a' ≤ d ∧ d ≤ 'z')) (d : Char)
    (hd : (snakeToCamelChars cs).head? = some d) : ¬('a' ≤ d ∧ d ≤ 'z') := by
  cases cs using snakeToCamelChars.fun_cases with
  | case1 => cases hd
  | case2 c => exact h d hd
  | case3 c e cs hletter =>
    rw [snakeToCamelChars, if_pos hletter] at hd
    cases hd
    exact not_lower_toUpper hletter.2
  | case4 c e cs hletter =>
    rw [snakeToCamelChars, if_neg hletter] at hd
    exact h d hd

/-- What is read for a key has no such letter left, whatever stood on the wire. -/
theorem noSnake_snakeToCamelChars (cs : List Char) : NoSnake (snakeToCamelChars cs) := by
  induction cs using snakeToCamelChars.induct with
  | case1 => exact noSnake_nil
  | case2 c => exact noSnake_cons (fun _ d hd ↦ by cases hd) noSnake_nil
  | case3 c d cs hletter ih =>
    rw [snakeToCamelChars, if_pos hletter]
    exact noSnake_cons (fun hc ↦ (toUpper_ne_underscore hletter.2 hc).elim) ih
  | case4 c d cs hletter ih =>
    rw [snakeToCamelChars, if_neg hletter]
    refine noSnake_cons (fun hc ↦ head?_snakeToCamelChars ?_) ih
    -- An underscore that stays has no lower-case letter behind it.
    rintro _ ⟨⟩ hlower
    exact hletter ⟨hc, hlower⟩

theorem lower_toLower (h : 'A' ≤ c ∧ c ≤ 'Z') : ¬('A' ≤ c.toLower ∧ c.toLower ≤ 'Z') :=
  fun hupper ↦ absurd ((toUpper_toLower h).1.1.trans hupper.2) (by decide)

theorem not_upper_of_mem_camelToSnakeChars (h : c ∈ camelToSnakeChars cs) :
    ¬('A' ≤ c ∧ c ≤ 'Z') := by
  obtain ⟨d, -, hc⟩ := List.mem_flatMap.mp h
  split at hc
  · rename_i hd
    obtain rfl | hc := List.mem_cons.mp hc
    · decide
    · rw [List.mem_singleton.mp hc]
      exact lower_toLower hd
  · rename_i hd
    rw [List.mem_singleton.mp hc]
    exact hd

/-- Without upper-case letters on the wire, what is read is written back as it was. -/
theorem camelToSnakeChars_snakeToCamelChars (h : ∀ c ∈ cs, ¬('A' ≤ c ∧ c ≤ 'Z')) :
    camelToSnakeChars (snakeToCamelChars cs) = cs := by
  induction cs using snakeToCamelChars.induct with
  | case1 => rfl
  | case2 c =>
    rw [snakeToCamelChars, camelToSnakeChars_cons, if_neg (h c List.mem_cons_self)]
    rfl
  | case3 c d cs hletter ih =>
    rw [snakeToCamelChars, if_pos hletter, camelToSnakeChars_cons,
      if_pos (upper_toUpper hletter.2), (toLower_toUpper hletter.2).2, hletter.1,
      ih fun e he ↦ h e (List.mem_cons_of_mem _ (List.mem_cons_of_mem _ he))]
    rfl
  | case4 c d cs hletter ih =>
    rw [snakeToCamelChars, if_neg hletter, camelToSnakeChars_cons, if_neg (h c List.mem_cons_self),
      ih fun e he ↦ h e (List.mem_cons_of_mem _ he)]
    rfl

end Keys

theorem camelToSnake_snakeToCamel_camelToSnake (key : String) :
    camelToSnake (snakeToCamel (camelToSnake key)) = camelToSnake key := by
  have hback := camelToSnakeChars_snakeToCamelChars fun c (hc : c ∈ camelToSnakeChars key.toList) ↦
    not_upper_of_mem_camelToSnakeChars hc
  rw [camelToSnake, snakeToCamel, camelToSnake, String.toList_ofList, String.toList_ofList, hback]

theorem noSnake_snakeToCamel (key : String) : NoSnake (snakeToCamel key).toList := by
  rw [snakeToCamel, String.toList_ofList]
  exact noSnake_snakeToCamelChars _

theorem snakeToCamel_camelToSnake_of_noSnake {key : String} (h : NoSnake key.toList) :
    snakeToCamel (camelToSnake key) = key := by
  rw [snakeToCamel, camelToSnake, String.toList_ofList,
    snakeToCamelChars_camelToSnakeChars_of_noSnake h, String.ofList_toList]

/-! ## Messages -/

/-- What a value is for the protocol: an ordinary value, whose object keys are fields, or one of the
two maps with keys of the user's. -/
inductive Role where
  | ordinary
  | env
  | themeOverlay
  deriving DecidableEq

/-- The role of the value of a field. -/
def roleBelow (key : String) : Role :=
  if key = "env" then .env else if key = "themeOverlay" then .themeOverlay else .ordinary

mutual

/-- A value that a message can have in a place with this role: fields are without underscore, no
object has a key twice, and an overlay has text for every key. -/
def MessageValue : Value → Role → Prop
  | .null, _ => True
  | .bool _, _ => True
  | .num _, _ => True
  | .str _, _ => True
  | .bytes _, _ => True
  | .arr items, _ => MessageItems items
  | .obj fields, .ordinary => (fields.map Prod.fst).Nodup ∧ MessageFields fields
  | .obj _, .env => True
  | .obj fields, .themeOverlay =>
    (fields.map Prod.fst).Nodup ∧ ∀ f ∈ fields, ∃ text, f.2 = .str text

def MessageItems : List Value → Prop
  | [] => True
  | v :: vs => MessageValue v .ordinary ∧ MessageItems vs

def MessageFields : List (String × Value) → Prop
  | [] => True
  | (k, v) :: fs => '_' ∉ k.toList ∧ MessageValue v (roleBelow k) ∧ MessageFields fs

end

/-- A key that survives the conversion: no lower-case letter stands right behind an underscore, and
the key is not the one that is written as `__proto__`. -/
def PlainKey (key : String) : Prop := NoSnake key.toList ∧ key ≠ "_Proto__"

mutual

/-- Every key of an overlay, at any depth, is a plain one. -/
def PlainOverlays : Value → Role → Prop
  | .null, _ => True
  | .bool _, _ => True
  | .num _, _ => True
  | .str _, _ => True
  | .bytes _, _ => True
  | .arr items, _ => PlainOverlaysItems items
  | .obj fields, .ordinary => PlainOverlaysFields fields
  | .obj _, .env => True
  | .obj fields, .themeOverlay => ∀ f ∈ fields, PlainKey f.1

def PlainOverlaysItems : List Value → Prop
  | [] => True
  | v :: vs => PlainOverlays v .ordinary ∧ PlainOverlaysItems vs

def PlainOverlaysFields : List (String × Value) → Prop
  | [] => True
  | (k, v) :: fs => PlainOverlays v (roleBelow k) ∧ PlainOverlaysFields fs

end

theorem contains_rawValueKeys (key : String) :
    RAW_VALUE_KEYS.contains key = decide (roleBelow key = .env) := by
  by_cases henv : key = "env"
  · subst henv
    decide
  · have hrole : roleBelow key ≠ .env := by
      rw [roleBelow, if_neg henv]
      split <;> decide
    rw [decide_eq_false hrole, Bool.eq_false_iff]
    simpa [RAW_VALUE_KEYS] using henv

theorem messageFields_key {fs : List (String × Value)} (h : MessageFields fs) :
    ∀ f ∈ fs, '_' ∉ f.1.toList := by
  induction fs with
  | nil => exact fun f hf ↦ absurd hf List.not_mem_nil
  | cons f fs ih =>
    obtain ⟨hkey, -, hfields⟩ := h
    exact List.forall_mem_cons.mpr ⟨hkey, ih hfields⟩

theorem key_of_mem_setField {out : List (String × Value)} {key k : String} {value : Value}
    (h : k ∈ (setField out key value).map Prod.fst) :
    k ∈ out.map Prod.fst ∨ k = key ∧ k ≠ "__proto__" := by
  unfold setField at h
  split at h
  · exact .inl h
  · rename_i hproto
    split at h
    · obtain ⟨g, hg, rfl⟩ := List.mem_map.mp h
      obtain ⟨f, hf, rfl⟩ := List.mem_map.mp hg
      split
      · exact .inr ⟨rfl, hproto⟩
      · exact .inl (List.mem_map_of_mem hf)
    · rw [List.map_append, List.mem_append] at h
      obtain hk | hk := h
      · exact .inl hk
      · cases List.mem_singleton.mp hk
        exact .inr ⟨rfl, hproto⟩

/-- Every key of what the loop over the entries fills in is one it converted, or one that was there
before. -/
theorem key_of_mem_mapFields {key : String → String} {raw : String → Bool} {k : String}
    {fs out : List (String × Value)} (h : k ∈ (mapFields key raw fs out).map Prod.fst) :
    k ∈ out.map Prod.fst ∨ (∃ f ∈ fs, k = key f.1) ∧ k ≠ "__proto__" := by
  induction fs generalizing out with
  | nil => exact .inl h
  | cons f fs ih =>
    rw [mapFields] at h
    obtain hk | ⟨⟨g, hg, hkey⟩, hproto⟩ := ih h
    · obtain hk | ⟨hkey, hproto⟩ := key_of_mem_setField hk
      · exact .inl hk
      · exact .inr ⟨⟨f, List.mem_cons_self, hkey⟩, hproto⟩
    · exact .inr ⟨⟨g, List.mem_cons_of_mem _ hg, hkey⟩, hproto⟩

/-! ## Which messages come back -/

section Overlay

variable {fields : List (String × Value)}

/-- What comes back from the conversion has plain keys, whatever was sent. -/
theorem plainKey_of_mem_returned {back : List (String × Value)}
    (h : returned (.obj fields) false = .obj back) {k : String} (hk : k ∈ back.map Prod.fst) :
    PlainKey k := by
  rw [returned, toSnakeCase, toCamelCase, mapKeys, if_neg Bool.false_ne_true, mapKeys,
    if_neg Bool.false_ne_true] at h
  rw [← Value.obj.inj h] at hk
  obtain hnone | ⟨⟨g, hg, rfl⟩, -⟩ := key_of_mem_mapFields hk
  · cases hnone
  refine ⟨noSnake_snakeToCamel g.1, fun hread ↦ ?_⟩
  -- The wire has no `__proto__`, and nothing else in lower case is read as `_Proto__`.
  obtain hnone | ⟨⟨f, -, hwire⟩, hproto⟩ := key_of_mem_mapFields (List.mem_map_of_mem hg)
  · cases hnone
  · rw [hwire] at hread hproto
    apply hproto
    rw [← camelToSnake_snakeToCamel_camelToSnake, hread]
    decide

/-- An overlay comes back exactly if its keys are plain. -/
theorem overlay_returns_iff (hnodup : (fields.map Prod.fst).Nodup)
    (htext : ∀ f ∈ fields, ∃ text, f.2 = .str text) :
    returned (.obj fields) false = .obj fields ↔ ∀ f ∈ fields, PlainKey f.1 := by
  constructor
  · exact fun h f hf ↦ plainKey_of_mem_returned h (List.mem_map_of_mem hf)
  · intro hplain
    have hback : ∀ f ∈ fields, snakeToCamel (camelToSnake f.1) = f.1 := fun f hf ↦
      snakeToCamel_camelToSnake_of_noSnake (hplain f hf).1
    have hvalues : ∀ f ∈ fields,
        (f.1, returned f.2 (RAW_VALUE_KEYS.contains (camelToSnake f.1))) = f := by
      intro f hf
      obtain ⟨text, hf2⟩ := htext f hf
      rw [hf2, returned, toSnakeCase, mapKeys, toCamelCase, mapKeys, ← hf2]
    rw [returned, toCamelCase_toSnakeCase_obj hback (fun f hf ↦ (hplain f hf).2) hnodup,
      List.map_congr_left hvalues, List.map_id']

end Overlay

theorem returned_env (fields : List (String × Value)) :
    returned (.obj fields) true = .obj fields := by
  rw [returned, toSnakeCase, mapKeys, if_pos rfl, toCamelCase, mapKeys, if_pos rfl]

mutual

/-- A value comes back as it was exactly if the overlays in it have plain keys. -/
theorem returned_eq_iff : ∀ (v : Value) (role : Role), MessageValue v role →
    (returned v (decide (role = .env)) = v ↔ PlainOverlays v role)
  | .null, _, _ => iff_of_true rfl trivial
  | .bool _, _, _ => iff_of_true rfl trivial
  | .num _, _, _ => iff_of_true rfl trivial
  | .str _, _, _ => iff_of_true rfl trivial
  | .bytes _, _, _ => iff_of_true rfl trivial
  | .arr items, role, h => by
    rw [MessageValue] at h
    rw [PlainOverlays, ← returnedItems_eq_iff items h, returned, toSnakeCase, mapKeys, toCamelCase,
      mapKeys, Value.arr.injEq]
  | .obj fields, .env, _ => iff_of_true (returned_env fields) trivial
  | .obj fields, .themeOverlay, h => overlay_returns_iff h.1 h.2
  | .obj fields, .ordinary, h => by
    obtain ⟨hnodup, hfields⟩ := h
    have hback : ∀ f ∈ fields, snakeToCamel (camelToSnake f.1) = f.1 := fun f hf ↦
      snakeToCamel_camelToSnake (messageFields_key hfields f hf)
    change toCamelCase (toSnakeCase (.obj fields) false) false = _ ↔ _
    have hproto : ∀ f ∈ fields, f.1 ≠ "_Proto__" := fun f hf heq ↦
      messageFields_key hfields f hf (heq ▸ by decide)
    rw [toCamelCase_toSnakeCase_obj hback hproto hnodup, Value.obj.injEq, PlainOverlays,
      returnedFields_eq_iff fields hfields]

theorem returnedItems_eq_iff : ∀ vs : List Value, MessageItems vs →
    (mapItems snakeToCamel (fun k ↦ RAW_VALUE_KEYS.contains k)
      (mapItems camelToSnake (fun k ↦ RAW_VALUE_KEYS.contains (camelToSnake k)) vs) = vs
      ↔ PlainOverlaysItems vs)
  | [], _ => iff_of_true rfl trivial
  | v :: vs, h => by
    obtain ⟨hvalue, hitems⟩ := h
    rw [mapItems, mapItems, List.cons_eq_cons, PlainOverlaysItems, returnedItems_eq_iff vs hitems]
    exact and_congr_left' (returned_eq_iff v .ordinary hvalue)

theorem returnedFields_eq_iff : ∀ fs : List (String × Value), MessageFields fs →
    (fs.map (fun f ↦ (f.1, returned f.2 (RAW_VALUE_KEYS.contains (camelToSnake f.1)))) = fs
      ↔ PlainOverlaysFields fs)
  | [], _ => iff_of_true rfl trivial
  | (k, v) :: fs, h => by
    obtain ⟨hkey, hvalue, hfields⟩ := h
    rw [List.map_cons, List.cons_eq_cons, PlainOverlaysFields, returnedFields_eq_iff fs hfields,
      contains_camelToSnake hkey, contains_rawValueKeys, Prod.mk.injEq, and_iff_right rfl,
      returned_eq_iff v (roleBelow k) hvalue]

end

/-- A message of the protocol, with the maps it carries. -/
structure DataMessage where
  value : Value
  typed : MessageValue value .ordinary

/-- **Keys that are data.** A message comes back as it was sent exactly if every key of an overlay
in it is plain. -/
theorem message_returns_iff (m : DataMessage) :
    toCamelCase (toSnakeCase m.value false) false = m.value ↔ PlainOverlays m.value .ordinary :=
  returned_eq_iff m.value .ordinary m.typed

/-- The announcement of an agent whose theme sets one colour. -/
def helloWithColour (colour : String) : Value :=
  .obj [("type", .str "HELLO"), ("version", .num 0x3FF0000000000000),
    ("agentVersion", .str "0.2.0"), ("capabilities", .arr [.str "multiplex"]),
    ("visualHints", .obj [("themeOverlay", .obj [(colour, .str "#555555")])])]

theorem messageValue_helloWithColour (colour : String) :
    MessageValue (helloWithColour colour) .ordinary :=
  ⟨(by decide : ["type", "version", "agentVersion", "capabilities", "visualHints"].Nodup),
    by decide, trivial, by decide, trivial, by decide, trivial, by decide,
    ⟨trivial, trivial⟩, by decide,
    ⟨List.nodup_singleton _, by decide, ⟨List.nodup_singleton _, List.forall_mem_singleton.mpr
      ⟨"#555555", rfl⟩⟩, trivial⟩, trivial⟩

/-- The colour `bright_black` is a key of the user's, and arrives as `brightBlack`. -/
theorem brightBlack_arrives : ∃ m : DataMessage, m.value = helloWithColour "bright_black" ∧
    toCamelCase (toSnakeCase m.value false) false = helloWithColour "brightBlack" ∧
    helloWithColour "brightBlack" ≠ m.value := by
  refine ⟨⟨_, messageValue_helloWithColour "bright_black"⟩, rfl, rfl, fun h ↦ ?_⟩
  simp [helloWithColour] at h

end Lasterm
