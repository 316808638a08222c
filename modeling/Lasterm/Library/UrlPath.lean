import Lasterm.Library.Shell

/-!
# The path of a URL, read in two ways

A server that gets a URL as text can read its path off in two ways. `pathname` is what the URL
standard makes of it: dot segments are resolved, a backslash is a slash, percent-encoded characters
stay encoded, and two slashes at the start are followed by a host. `decodedPath` is the text up to
the query, with its percent-encoded characters decoded.

The two agree on plain paths (`pathname_of_plain`, `decodedPath_of_plain`): no character of them has
to be encoded, is a backslash or a percent sign, and no segment is a dot segment.

Hosts are not modelled, and neither are schemes other than those of HTTP, WebSockets and FTP; both
are parameters.
-/

namespace UrlPath

open Shell

/-! ## The URL standard -/

def isSlash (c : Char) : Bool := c = '/' || c = backslash

/-- Where a path ends. -/
def isPathEnd (c : Char) : Bool := c = '?' || c = '#'

/-- C0 controls and the space, which do not count at the ends. -/
def isC0OrSpace (c : Char) : Bool := c.toNat ≤ 0x20

def isTabOrNewline (c : Char) : Bool := c.toNat ∈ [0x9, 0xA, 0xD]

def cleaned (url : Text) : Text :=
  ((((url.dropWhile isC0OrSpace).reverse.dropWhile isC0OrSpace).reverse).filter
    fun c ↦ ¬ isTabOrNewline c)

/-- The path percent-encode set. -/
def isEncoded (c : Char) : Bool :=
  c.toNat ≤ 0x20 || 0x7E < c.toNat ||
    c.toNat ∈ [0x22, 0x23, 0x3C, 0x3E, 0x3F, 0x5E, 0x60, 0x7B, 0x7D]

def hexDigit (n : ℕ) : Char := if n < 10 then Char.ofNat (48 + n) else Char.ofNat (55 + n)

def encodeByte (b : UInt8) : Text := ['%', hexDigit (b.toNat / 16), hexDigit (b.toNat % 16)]

def encodeChar (c : Char) : Text :=
  if isEncoded c then (String.utf8EncodeChar c).flatMap encodeByte else [c]

def isSingleDot (segment : Text) : Bool :=
  [".".toList, "%2e".toList].contains (segment.map Char.toLower)

def isDoubleDot (segment : Text) : Bool :=
  ["..".toList, ".%2e".toList, "%2e.".toList, "%2e%2e".toList].contains (segment.map Char.toLower)

/-- The segments of a path, from the ones that were read. Behind a dot segment at the end an empty
one is added. -/
def resolve : List Text → List Text → List Text
  | path, [] => path
  | path, [segment] =>
    if isDoubleDot segment then path.dropLast ++ [[]]
    else if isSingleDot segment then path ++ [[]]
    else path ++ [segment.flatMap encodeChar]
  | path, segment :: segments =>
    if isDoubleDot segment then resolve path.dropLast segments
    else if isSingleDot segment then resolve path segments
    else resolve (path ++ [segment.flatMap encodeChar]) segments

def serialize (path : List Text) : Text := path.flatMap fun segment ↦ '/' :: segment

/-- The path state, for what stands behind the first slash. -/
def pathOf (t : Text) : Text :=
  serialize (resolve [] ((t.takeWhile fun c ↦ ¬ isPathEnd c).splitOnP isSlash))

/-- Behind an authority a path may begin with a slash. -/
def dropSlash : Text → Text
  | [] => []
  | c :: t => if isSlash c then t else c :: t

variable (hostOk : Text → Bool)

/-- An authority, with what stands behind it. -/
def authorityPath (t : Text) : Option Text :=
  if hostOk (t.takeWhile fun c ↦ ¬ (isSlash c || isPathEnd c)) then
    some (pathOf (dropSlash (t.dropWhile fun c ↦ ¬ (isSlash c || isPathEnd c))))
  else none

/-- A URL without a scheme, against a base that has an empty path. -/
def relativePath : Text → Option Text
  | c :: d :: t =>
    if isSlash c then
      if isSlash d then authorityPath hostOk (t.dropWhile isSlash) else some (pathOf (d :: t))
    else some (pathOf (c :: d :: t))
  | t => some (pathOf (dropSlash t))

def isSchemeChar (c : Char) : Bool := c.isAlphanum || c ∈ "+-.".toList

def splitScheme : Text → Option (Text × Text)
  | [] => none
  | c :: t =>
    if c.isAlpha then
      match t.dropWhile isSchemeChar with
      | ':' :: rest => some ((c :: t.takeWhile isSchemeChar).map Char.toLower, rest)
      | _ => none
    else none

/-- `new URL(url, "http://host").pathname`, if it does not throw. -/
def pathname (foreign : Text → Option Text) (url : Text) : Option Text :=
  match splitScheme (cleaned url) with
  | none => relativePath hostOk (cleaned url)
  | some (scheme, rest) =>
    if scheme = "http".toList then relativePath hostOk rest
    else if ["https".toList, "ws".toList, "wss".toList, "ftp".toList].contains scheme then
      authorityPath hostOk (rest.dropWhile isSlash)
    else foreign (cleaned url)

/-! ## Percent-decoding -/

def hexValue (c : Char) : Option ℕ :=
  if 48 ≤ c.toNat ∧ c.toNat ≤ 57 then some (c.toNat - 48)
  else if 97 ≤ c.toNat ∧ c.toNat ≤ 102 then some (c.toNat - 87)
  else if 65 ≤ c.toNat ∧ c.toNat ≤ 70 then some (c.toNat - 55)
  else none

/-- The bytes that a text stands for. The first argument is what of a `%` has been read. -/
def decodeBytes : Option (Option ℕ) → Text → Option (List UInt8)
  | none, [] => some []
  | some _, [] => none
  | none, c :: t =>
    if c = '%' then decodeBytes (some none) t
    else (decodeBytes none t).map (String.utf8EncodeChar c ++ ·)
  | some none, c :: t => (hexValue c).bind fun high ↦ decodeBytes (some (some high)) t
  | some (some high), c :: t =>
    (hexValue c).bind fun low ↦ (decodeBytes none t).map (UInt8.ofNat (16 * high + low) :: ·)

/-- A character of UTF-8 that is not complete: its bits so far, how many bytes are missing, and the
bounds of the next one. -/
structure Unfinished where
  code : ℕ
  missing : ℕ
  lower : ℕ
  upper : ℕ

/-- What one byte gives: a character, or the rest of one to wait for. -/
abbrev ByteRead := Text × Option Unfinished

def startChar (b : UInt8) : Option ByteRead :=
  if b.toNat ≤ 0x7F then some ([Char.ofNat b.toNat], none)
  else if 0xC2 ≤ b.toNat ∧ b.toNat ≤ 0xDF then some ([], some ⟨b.toNat - 0xC0, 1, 0x80, 0xBF⟩)
  else if 0xE0 ≤ b.toNat ∧ b.toNat ≤ 0xEF then
    some ([], some ⟨b.toNat - 0xE0, 2, if b.toNat = 0xE0 then 0xA0 else 0x80,
      if b.toNat = 0xED then 0x9F else 0xBF⟩)
  else if 0xF0 ≤ b.toNat ∧ b.toNat ≤ 0xF4 then
    some ([], some ⟨b.toNat - 0xF0, 3, if b.toNat = 0xF0 then 0x90 else 0x80,
      if b.toNat = 0xF4 then 0x8F else 0xBF⟩)
  else none

def continueChar (u : Unfinished) (b : UInt8) : Option ByteRead :=
  if u.lower ≤ b.toNat ∧ b.toNat ≤ u.upper then
    if u.missing ≤ 1 then some ([Char.ofNat (64 * u.code + (b.toNat - 0x80))], none)
    else some ([], some ⟨64 * u.code + (b.toNat - 0x80), u.missing - 1, 0x80, 0xBF⟩)
  else none

def readByte : Option Unfinished → UInt8 → Option ByteRead
  | none, b => startChar b
  | some u, b => continueChar u b

/-- UTF-8, or nothing. -/
def decodeUtf8 : Option Unfinished → List UInt8 → Option Text
  | none, [] => some []
  | some _, [] => none
  | u, b :: bytes => (readByte u b).bind fun r ↦ (decodeUtf8 r.2 bytes).map (r.1 ++ ·)

def replacement : Char := Char.ofNat 0xFFFD

/-- After a byte that cannot be read. It may begin the next character. -/
def afterError : Option Unfinished → UInt8 → ByteRead
  | none, _ => ([replacement], none)
  | some _, b =>
    match startChar b with
    | some r => (replacement :: r.1, r.2)
    | none => ([replacement, replacement], none)

/-- UTF-8, with a replacement character for what cannot be read. -/
def decodeUtf8Lossy : Option Unfinished → List UInt8 → Text
  | none, [] => []
  | some _, [] => [replacement]
  | u, b :: bytes =>
    ((readByte u b).getD (afterError u b)).1 ++
      decodeUtf8Lossy ((readByte u b).getD (afterError u b)).2 bytes

def percentDecode (t : Text) : Option Text := (decodeBytes none t).bind (decodeUtf8 none)

/-- The path as a router sees it. -/
def decodedPath (url : Text) : Option Text := percentDecode (url.takeWhile fun c ↦ ¬ isPathEnd c)

/-! ## The query -/

def queryOf (url : Text) : Text :=
  (((cleaned url).takeWhile (· ≠ '#')).dropWhile (· ≠ '?')).drop 1

/-- The bytes of a form value, where `+` is a space and a `%` that encodes nothing is itself. The
first argument is what of a `%` has been read. -/
def formBytes : Text → Text → List UInt8
  | read, [] => read.flatMap String.utf8EncodeChar
  | [], c :: t =>
    if c = '%' then formBytes ['%'] t
    else if c = '+' then 0x20 :: formBytes [] t
    else String.utf8EncodeChar c ++ formBytes [] t
  | [_], c :: t =>
    if (hexValue c).isSome then formBytes ['%', c] t
    else if c = '%' then 0x25 :: formBytes ['%'] t
    else if c = '+' then 0x25 :: 0x20 :: formBytes [] t
    else 0x25 :: (String.utf8EncodeChar c ++ formBytes [] t)
  | _ :: high :: _, c :: t =>
    if (hexValue c).isSome then
      UInt8.ofNat (16 * (hexValue high).getD 0 + (hexValue c).getD 0) :: formBytes [] t
    else if c = '%' then 0x25 :: (String.utf8EncodeChar high ++ formBytes ['%'] t)
    else if c = '+' then 0x25 :: (String.utf8EncodeChar high ++ 0x20 :: formBytes [] t)
    else 0x25 :: (String.utf8EncodeChar high ++ String.utf8EncodeChar c ++ formBytes [] t)

def formDecode (t : Text) : Text := decodeUtf8Lossy none (formBytes [] t)

/-- `new URL(url, base).searchParams.get(name)`. -/
def searchParam (name url : Text) : Option Text :=
  (((queryOf url).splitOnP (· = '&')).find? fun field ↦
    field ≠ [] && formDecode (field.takeWhile (· ≠ '=')) = name).map fun field ↦
      formDecode ((field.dropWhile (· ≠ '=')).drop 1)

/-! ## Plain paths -/

def isPlainChar (c : Char) : Bool := ¬ isEncoded c && ¬ isSlash c && c ≠ '%'

structure PlainSegment (segment : Text) : Prop where
  plain : segment.all isPlainChar = true
  notSingle : isSingleDot segment = false
  notDouble : isDoubleDot segment = false

variable {c : Char}

theorem range_of_not_encoded (h : isEncoded c = false) :
    0x20 < c.toNat ∧ c.toNat ≤ 0x7E := by
  simp only [isEncoded, Bool.or_eq_false_iff, decide_eq_false_iff_not] at h
  omega

theorem isPathEnd_of_not_encoded (h : isEncoded c = false) : isPathEnd c = false := by
  rw [Bool.eq_false_iff]
  intro hend
  rcases Bool.or_eq_true_iff.mp hend with hend | hend
  · rw [of_decide_eq_true hend] at h
    exact absurd h (by decide)
  · rw [of_decide_eq_true hend] at h
    exact absurd h (by decide)

theorem isPlainChar_iff :
    isPlainChar c = true ↔ isEncoded c = false ∧ isSlash c = false ∧ c ≠ '%' := by
  simp [isPlainChar, and_assoc]

variable {segments : List Text}

theorem not_encoded_of_mem_serialize
    (h : ∀ segment ∈ segments, PlainSegment segment) (hc : c ∈ serialize segments) :
    isEncoded c = false ∧ c ≠ '%' := by
  obtain ⟨segment, hsegment, hmem⟩ := List.mem_flatMap.mp hc
  rcases List.mem_cons.mp hmem with rfl | hmem
  · decide
  · have hplain := isPlainChar_iff.mp (List.all_eq_true.mp (h segment hsegment).plain c hmem)
    exact ⟨hplain.1, hplain.2.2⟩

/-- A path ends where a query or a fragment begins. -/
def IsRest (rest : Text) : Prop := ∀ c ∈ rest.head?, isPathEnd c = true

theorem takeWhile_path {path rest : Text} (hpath : ∀ c ∈ path, isEncoded c = false)
    (hrest : IsRest rest) : ((path ++ rest).takeWhile fun c ↦ ¬ isPathEnd c) = path := by
  have hpos : ∀ c ∈ path, decide ¬ isPathEnd c = true := by
    intro c hc
    simp [isPathEnd_of_not_encoded (hpath c hc)]
  rw [List.takeWhile_append_of_pos hpos]
  cases rest with
  | nil => exact List.append_nil _
  | cons c rest =>
    have hend : isPathEnd c = true := hrest c rfl
    rw [List.takeWhile_cons_of_neg (by simp [hend]), List.append_nil]

/-- Blanks at the end are behind the last character that is none. -/
theorem trimEnd_append_cons {p : Char → Bool} (hc : p c = false) (front back : Text) :
    ((front ++ c :: back).reverse.dropWhile p).reverse =
      front ++ c :: (back.reverse.dropWhile p).reverse := by
  rw [List.reverse_append, List.reverse_cons, List.append_assoc, List.dropWhile_append]
  by_cases hall : (back.reverse.dropWhile p).isEmpty = true
  · rw [if_pos hall, List.isEmpty_iff.mp hall, List.singleton_append,
      List.dropWhile_cons_of_neg (by simp [hc])]
    simp
  · rw [if_neg hall]
    simp

theorem cleaned_path {path rest : Text} (hne : path ≠ []) (hpath : ∀ c ∈ path, isEncoded c = false)
    (hrest : IsRest rest) : ∃ rest', cleaned (path ++ rest) = path ++ rest' ∧ IsRest rest' := by
  have hblank : ∀ c ∈ path, isC0OrSpace c = false := by
    intro c hc
    have hrange := range_of_not_encoded (hpath c hc)
    rw [isC0OrSpace, decide_eq_false_iff_not]
    omega
  have htab : ∀ c ∈ path, decide ¬ isTabOrNewline c = true := by
    intro c hc
    have hrange := range_of_not_encoded (hpath c hc)
    simp [isTabOrNewline]
    omega
  have hstart : (path ++ rest).dropWhile isC0OrSpace = path ++ rest := by
    obtain ⟨c, path, rfl⟩ := List.exists_cons_of_ne_nil hne
    rw [List.cons_append, List.dropWhile_cons_of_neg (by simp [hblank c List.mem_cons_self])]
  have hend : ((path ++ rest).reverse.dropWhile isC0OrSpace).reverse =
      path ++ (rest.reverse.dropWhile isC0OrSpace).reverse := by
    obtain ⟨init, c, rfl⟩ := (List.eq_nil_or_concat path).resolve_left hne
    rw [List.concat_eq_append] at hblank ⊢
    have hc := hblank c (List.mem_append_right _ (List.mem_singleton.mpr rfl))
    rw [List.append_assoc, List.singleton_append, trimEnd_append_cons hc, List.append_assoc,
      List.singleton_append]
  refine ⟨((rest.reverse.dropWhile isC0OrSpace).reverse).filter fun c ↦ ¬ isTabOrNewline c, ?_, ?_⟩
  · rw [cleaned, hstart, hend, List.filter_append, List.filter_eq_self.mpr htab]
  · cases rest with
    | nil => nofun
    | cons c rest =>
      have hc : isPathEnd c = true := hrest c rfl
      have hkeep : isC0OrSpace c = false ∧ (decide ¬ isTabOrNewline c) = true := by
        rcases Bool.or_eq_true_iff.mp hc with heq | heq
        · rw [of_decide_eq_true heq]
          decide
        · rw [of_decide_eq_true heq]
          decide
      have htrim := trimEnd_append_cons hkeep.1 [] rest
      rw [List.nil_append, List.nil_append] at htrim
      rw [htrim, List.filter_cons, if_pos hkeep.2]
      intro d hd
      cases hd
      exact hc

theorem flatMap_encodeChar {segment : Text} (h : PlainSegment segment) :
    segment.flatMap encodeChar = segment := by
  have hchar : ∀ c ∈ segment, encodeChar c = [c] := by
    intro c hc
    have hplain := isPlainChar_iff.mp (List.all_eq_true.mp h.plain c hc)
    rw [encodeChar, hplain.1, if_neg Bool.false_ne_true]
  rw [List.flatMap_congr hchar, List.flatMap_singleton']

theorem resolve_plain {path segments : List Text} (h : ∀ segment ∈ segments, PlainSegment segment) :
    resolve path segments = path ++ segments := by
  induction segments generalizing path with
  | nil =>
    rw [resolve, List.append_nil]
  | cons segment segments ih =>
    have hsegment := h segment List.mem_cons_self
    have hdouble : ¬ isDoubleDot segment = true := by simp [hsegment.notDouble]
    have hsingle : ¬ isSingleDot segment = true := by simp [hsegment.notSingle]
    cases segments with
    | nil => rw [resolve, if_neg hdouble, if_neg hsingle, flatMap_encodeChar hsegment]
    | cons next segments =>
      rw [resolve, if_neg hdouble, if_neg hsingle, flatMap_encodeChar hsegment,
        ih fun s hs ↦ h s (List.mem_cons_of_mem _ hs), List.append_assoc, List.singleton_append]
      exact List.cons_ne_nil _ _

theorem splitOnP_serialize {segment : Text} (h : ∀ s ∈ segment :: segments, PlainSegment s) :
    (segment ++ serialize segments).splitOnP isSlash = segment :: segments := by
  have hsegment : ∀ c ∈ segment, isSlash c = false := fun c hc ↦
    (isPlainChar_iff.mp (List.all_eq_true.mp (h segment List.mem_cons_self).plain c hc)).2.1
  induction segments generalizing segment with
  | nil =>
    rw [serialize, List.flatMap_nil, List.append_nil]
    exact List.splitOnP_eq_singleton hsegment
  | cons next segments ih =>
    have hnext := fun s hs ↦ h s (List.mem_cons_of_mem _ hs)
    rw [serialize, List.flatMap_cons, List.cons_append,
      List.splitOnP_append_cons_of_forall_mem hsegment '/' (by decide)]
    exact congrArg _ (ih hnext fun c hc ↦
      (isPlainChar_iff.mp (List.all_eq_true.mp (hnext next List.mem_cons_self).plain c hc)).2.1)

theorem pathOf_plain {segment rest : Text}
    (h : ∀ s ∈ segment :: segments, PlainSegment s) (hrest : IsRest rest) :
    pathOf (segment ++ serialize segments ++ rest) = serialize (segment :: segments) := by
  have hchars : ∀ c ∈ segment ++ serialize segments, isEncoded c = false := fun c hc ↦
    (not_encoded_of_mem_serialize h (List.mem_cons_of_mem '/' hc)).1
  rw [pathOf, takeWhile_path hchars hrest, splitOnP_serialize h, resolve_plain h, List.nil_append]

/-- **The standard leaves a plain path as it is.** -/
theorem pathname_of_plain (foreign : Text → Option Text) {segment rest : Text}
    (h : ∀ s ∈ (c :: segment) :: segments, PlainSegment s) (hrest : IsRest rest) :
    pathname hostOk foreign (serialize ((c :: segment) :: segments) ++ rest) =
      some (serialize ((c :: segment) :: segments)) := by
  have hc : isSlash c = false := (isPlainChar_iff.mp
    (List.all_eq_true.mp (h _ List.mem_cons_self).plain c List.mem_cons_self)).2.1
  have hne : serialize ((c :: segment) :: segments) ≠ [] := List.cons_ne_nil _ _
  obtain ⟨rest', hcleaned, hrest'⟩ := cleaned_path hne
    (fun d hd ↦ (not_encoded_of_mem_serialize h hd).1) hrest
  have hshape : serialize ((c :: segment) :: segments) ++ rest' =
      '/' :: c :: (segment ++ serialize segments ++ rest') := rfl
  have hslash : isSlash '/' = true := by decide
  rw [pathname, hcleaned, hshape]
  change relativePath hostOk ('/' :: c :: (segment ++ serialize segments ++ rest')) = _
  rw [relativePath, if_pos hslash, hc, if_neg Bool.false_ne_true]
  exact congrArg some (pathOf_plain h hrest')

theorem decodeBytes_ascii {t : Text} (h : ∀ c ∈ t, isEncoded c = false ∧ c ≠ '%') :
    decodeBytes none t = some (t.map fun c ↦ UInt8.ofNat c.toNat) := by
  induction t with
  | nil => rfl
  | cons c t ih =>
    obtain ⟨hc, hpercent⟩ := h c List.mem_cons_self
    have hrange := range_of_not_encoded hc
    have hbytes : String.utf8EncodeChar c = [UInt8.ofNat c.toNat] := by
      have hle : c.val.toNat ≤ 0x7f := Nat.le_trans hrange.2 (by decide)
      rw [String.utf8EncodeChar, if_pos hle]
      rfl
    rw [decodeBytes, if_neg hpercent, ih fun d hd ↦ h d (List.mem_cons_of_mem c hd), hbytes]
    rfl

theorem decodeUtf8_ascii {t : Text} (h : ∀ c ∈ t, c.toNat ≤ 0x7E) :
    decodeUtf8 none (t.map fun c ↦ UInt8.ofNat c.toNat) = some t := by
  induction t with
  | nil => rfl
  | cons c t ih =>
    have hc := h c List.mem_cons_self
    have hbyte : (UInt8.ofNat c.toNat).toNat = c.toNat := by
      rw [UInt8.toNat_ofNat']
      exact Nat.mod_eq_of_lt (by omega)
    have hread : readByte none (UInt8.ofNat c.toNat) = some ([c], none) := by
      rw [readByte, startChar, hbyte, if_pos (by omega), Char.ofNat_toNat]
    rw [List.map_cons, decodeUtf8, hread, Option.bind_some,
      ih fun d hd ↦ h d (List.mem_cons_of_mem c hd)]
    rfl

/-- **Decoding leaves a plain path as it is.** -/
theorem decodedPath_of_plain {rest : Text}
    (h : ∀ s ∈ segments, PlainSegment s) (hrest : IsRest rest) :
    decodedPath (serialize segments ++ rest) = some (serialize segments) := by
  have hchars : ∀ c ∈ serialize segments, isEncoded c = false ∧ c ≠ '%' :=
    fun c hc ↦ not_encoded_of_mem_serialize h hc
  rw [decodedPath, takeWhile_path (fun c hc ↦ (hchars c hc).1) hrest, percentDecode,
    decodeBytes_ascii hchars, Option.bind_some]
  exact decodeUtf8_ascii fun c hc ↦ (range_of_not_encoded (hchars c hc).1).2

end UrlPath
