import Mathlib.Data.List.Nodup
import Mathlib.Data.String.Basic
import Mathlib.Tactic.IntervalCases

/-!
# The message codec

`codec.ts` wraps the MessagePack library: object keys are camelCase in TypeScript and snake_case on
the wire, and `encodeMessage` and `decodeMessage` convert between the two on the way out and in.
The library itself is outside the repository, so it is a parameter (`MsgPack`); the key conversion
is the repository's and is modelled in full, with the one exception it makes: the value of a key in
`RAW_VALUE_KEYS` is a map with user-defined keys and passes through unconverted.

Both conversions walk a value in the same way and differ in the key function and in which spelling
of a key is looked up in `RAW_VALUE_KEYS`, so they are two instances of `mapKeys`.

Each conversion loses something on some keys. `toCamelCase_toSnakeCase_obj` is the step of every
proof about the trip there and back: an object whose keys come back comes back with them, and with
what comes back of its values.
-/

namespace Lasterm

/-! ## Values -/

/-- A JavaScript value as MessagePack carries it. Numbers are the 64 bits of the double. -/
inductive Value where
  | null
  | bool (b : Bool)
  | num (bits : UInt64)
  | str (s : String)
  | bytes (data : List UInt8)
  | arr (items : List Value)
  | obj (fields : List (String × Value))

/-- `out[key] = value` on an object under construction: a key that is already there keeps its place
and gets the new value. To set `__proto__` gives an object no field. -/
def setField (out : List (String × Value)) (key : String) (value : Value) :
    List (String × Value) :=
  if key = "__proto__" then out
  else if key ∈ out.map Prod.fst then out.map fun f ↦ if f.1 = key then (key, value) else f
  else out ++ [(key, value)]

theorem setField_of_not_mem {out : List (String × Value)} {key : String} {value : Value}
    (hproto : key ≠ "__proto__") (h : key ∉ out.map Prod.fst) :
    setField out key value = out ++ [(key, value)] := by
  rw [setField, if_neg hproto, if_neg h]

/-! ## Keys -/

/-- `/([A-Z])/g` to an underscore and the lower-case letter. -/
def camelToSnakeChars (cs : List Char) : List Char :=
  cs.flatMap fun c ↦ if 'A' ≤ c ∧ c ≤ 'Z' then ['_', c.toLower] else [c]

/-- `/_([a-z])/g` to the upper-case letter, from left to right. -/
def snakeToCamelChars : List Char → List Char
  | [] => []
  | [c] => [c]
  | c :: d :: cs =>
    if c = '_' ∧ 'a' ≤ d ∧ d ≤ 'z' then d.toUpper :: snakeToCamelChars cs
    else c :: snakeToCamelChars (d :: cs)

def camelToSnake (key : String) : String := String.ofList (camelToSnakeChars key.toList)

def snakeToCamel (key : String) : String := String.ofList (snakeToCamelChars key.toList)

/-- Keys whose values are maps with user-defined keys. -/
def RAW_VALUE_KEYS : List String := ["env"]

/-! ## The conversion -/

mutual

/-- The walk common to both conversions: `key` converts a key, `raw` says whether the value below a
key is left alone. -/
def mapKeys (key : String → String) (raw : String → Bool) : Value → Bool → Value
  | .null, _ => .null
  | .bool b, _ => .bool b
  | .num n, _ => .num n
  | .str s, _ => .str s
  | .bytes d, _ => .bytes d
  | .arr items, _ => .arr (mapItems key raw items)
  | .obj fields, rawValue =>
    if rawValue then .obj fields else .obj (mapFields key raw fields [])

def mapItems (key : String → String) (raw : String → Bool) : List Value → List Value
  | [] => []
  | v :: vs => mapKeys key raw v false :: mapItems key raw vs

/-- The loop over `Object.entries`, filling `out`. -/
def mapFields (key : String → String) (raw : String → Bool) :
    List (String × Value) → List (String × Value) → List (String × Value)
  | [], out => out
  | (k, v) :: fs, out => mapFields key raw fs (setField out (key k) (mapKeys key raw v (raw k)))

end

/-- The snake_case form; the converted key is looked up in `RAW_VALUE_KEYS`. -/
def toSnakeCase (value : Value) (rawValue : Bool) : Value :=
  mapKeys camelToSnake (fun k ↦ RAW_VALUE_KEYS.contains (camelToSnake k)) value rawValue

/-- The camelCase form; the wire key is looked up in `RAW_VALUE_KEYS`. -/
def toCamelCase (value : Value) (rawValue : Bool) : Value :=
  mapKeys snakeToCamel (fun k ↦ RAW_VALUE_KEYS.contains k) value rawValue

/-! ## Encoding and decoding -/

/-- The MessagePack library. `decode` throws on a payload it cannot read, here `none`. -/
structure MsgPack where
  encode : Value → List UInt8
  decode : List UInt8 → Option Value

def encodeMessage (mp : MsgPack) (message : Value) : List UInt8 :=
  mp.encode (toSnakeCase message false)

def decodeMessage (mp : MsgPack) (data : List UInt8) : Option Value :=
  (mp.decode data).map fun raw ↦ toCamelCase raw false

/-! ## Keys there and back -/

theorem toUpper_toLower {c : Char} (h : 'A' ≤ c ∧ c ≤ 'Z') :
    ('a' ≤ c.toLower ∧ c.toLower ≤ 'z') ∧ c.toLower.toUpper = c := by
  obtain ⟨h1, h2⟩ := h
  have hlo : 65 ≤ c.toNat := h1
  have hhi : c.toNat ≤ 90 := h2
  rw [← Char.ofNat_toNat c]
  generalize c.toNat = n at hlo hhi
  interval_cases n <;> decide

theorem snakeToCamelChars_cons {c : Char} (hc : c ≠ '_') (cs : List Char) :
    snakeToCamelChars (c :: cs) = c :: snakeToCamelChars cs := by
  cases cs with
  | nil => rfl
  | cons d cs => rw [snakeToCamelChars, if_neg fun h ↦ hc h.1]

theorem snakeToCamelChars_camelToSnakeChars {cs : List Char} (h : '_' ∉ cs) :
    snakeToCamelChars (camelToSnakeChars cs) = cs := by
  induction cs with
  | nil => rfl
  | cons c cs ih =>
    rw [List.mem_cons, not_or] at h
    have hrest := ih h.2
    rw [camelToSnakeChars] at hrest ⊢
    rw [List.flatMap_cons]
    by_cases hc : 'A' ≤ c ∧ c ≤ 'Z'
    · obtain ⟨hlow, hup⟩ := toUpper_toLower hc
      rw [if_pos hc, List.cons_append, List.cons_append, List.nil_append, snakeToCamelChars,
        if_pos ⟨rfl, hlow⟩, hup, hrest]
    · rw [if_neg hc, List.cons_append, List.nil_append,
        snakeToCamelChars_cons fun hcu ↦ h.1 hcu.symm, hrest]

theorem snakeToCamel_camelToSnake {k : String} (h : '_' ∉ k.toList) :
    snakeToCamel (camelToSnake k) = k := by
  rw [snakeToCamel, camelToSnake, String.toList_ofList, snakeToCamelChars_camelToSnakeChars h,
    String.ofList_toList]

/-- A key that comes back is not `__proto__` on the way, unless it is the one that becomes it. -/
theorem ne_proto_of_returns {k : String} (hback : snakeToCamel (camelToSnake k) = k)
    (h : k ≠ "_Proto__") : camelToSnake k ≠ "__proto__" ∧ k ≠ "__proto__" := by
  have hread : snakeToCamel "__proto__" = "_Proto__" := by decide
  refine ⟨fun hk ↦ h ?_, ?_⟩
  · rw [← hback, hk, hread]
  · rintro rfl
    revert hback
    decide

/-- Both sides of the wire agree on which keys are raw. -/
theorem contains_camelToSnake {k : String} (h : '_' ∉ k.toList) :
    RAW_VALUE_KEYS.contains (camelToSnake k) = RAW_VALUE_KEYS.contains k := by
  have hiff : camelToSnake k = "env" ↔ k = "env" := by
    constructor
    · intro hk
      rw [← snakeToCamel_camelToSnake h, hk]
      decide
    · rintro rfl
      decide
  simp only [RAW_VALUE_KEYS, List.contains_cons, List.contains_nil, Bool.or_false]
  rw [Bool.eq_iff_iff, beq_iff_eq, beq_iff_eq]
  exact hiff

/-! ## Values there and back -/

/-- On distinct keys the loop over the entries is a `map`. -/
theorem mapFields_of_nodup (key : String → String) (raw : String → Bool)
    (fs out : List (String × Value)) (hproto : ∀ f ∈ fs, key f.1 ≠ "__proto__")
    (h : (out.map Prod.fst ++ fs.map fun f ↦ key f.1).Nodup) :
    mapFields key raw fs out
      = out ++ fs.map fun f ↦ (key f.1, mapKeys key raw f.2 (raw f.1)) := by
  induction fs generalizing out with
  | nil => rw [mapFields, List.map_nil, List.append_nil]
  | cons f fs ih =>
    obtain ⟨k, v⟩ := f
    have hfresh : key k ∉ out.map Prod.fst := by
      intro hmem
      exact List.disjoint_of_nodup_append h hmem (by simp)
    obtain ⟨hhead, htail⟩ := List.forall_mem_cons.mp hproto
    rw [mapFields, setField_of_not_mem hhead hfresh, ih _ htail, List.append_assoc, List.map_cons]
    · rfl
    · rw [List.map_append, List.append_assoc]
      exact h

theorem nodup_map_of_leftInverse {α β : Type*} {f : α → β} {g : β → α} {l : List α}
    (hg : ∀ a ∈ l, g (f a) = a) (h : l.Nodup) : (l.map f).Nodup :=
  h.map_on fun a ha b hb hab ↦ by rw [← hg a ha, ← hg b hb, hab]

/-- There and back, for the value of a key that is raw or not. -/
def returned (value : Value) (rawValue : Bool) : Value :=
  toCamelCase (toSnakeCase value rawValue) rawValue

/-- One level of the trip. -/
theorem toCamelCase_toSnakeCase_obj {fields : List (String × Value)}
    (hback : ∀ f ∈ fields, snakeToCamel (camelToSnake f.1) = f.1)
    (hproto : ∀ f ∈ fields, f.1 ≠ "_Proto__") (hnodup : (fields.map Prod.fst).Nodup) :
    toCamelCase (toSnakeCase (.obj fields) false) false = .obj (fields.map fun f ↦
      (f.1, returned f.2 (RAW_VALUE_KEYS.contains (camelToSnake f.1)))) := by
  have hsnake : (fields.map fun f ↦ camelToSnake f.1).Nodup := by
    have hcomp : (fields.map fun f ↦ camelToSnake f.1)
        = (fields.map Prod.fst).map camelToSnake := by
      rw [List.map_map]
      rfl
    rw [hcomp]
    refine nodup_map_of_leftInverse (g := snakeToCamel) ?_ hnodup
    intro k hk
    obtain ⟨f, hf, rfl⟩ := List.mem_map.mp hk
    exact hback f hf
  have hcamel : (fields.map fun f ↦ snakeToCamel (camelToSnake f.1)) = fields.map Prod.fst :=
    List.map_congr_left hback
  have hset : ∀ f ∈ fields, camelToSnake f.1 ≠ "__proto__" ∧ f.1 ≠ "__proto__" := fun f hf ↦
    ne_proto_of_returns (hback f hf) (hproto f hf)
  rw [toSnakeCase, mapKeys, if_neg Bool.false_ne_true,
    mapFields_of_nodup _ _ fields [] (fun f hf ↦ (hset f hf).1) hsnake, List.nil_append,
    toCamelCase, mapKeys, if_neg Bool.false_ne_true, mapFields_of_nodup, List.nil_append,
    List.map_map]
  · refine congrArg Value.obj (List.map_congr_left fun f hf ↦ ?_)
    exact Prod.ext (hback f hf) rfl
  · intro g hg
    obtain ⟨f, hf, rfl⟩ := List.mem_map.mp hg
    rw [hback f hf]
    exact (hset f hf).2
  · rw [List.map_nil, List.nil_append, List.map_map, Function.comp_def, hcamel]
    exact hnodup

end Lasterm
