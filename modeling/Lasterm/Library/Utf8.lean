import Lasterm.Library.Occurrence
import Lasterm.Library.Scanner

/-!
# Texts and their bytes

A text as the bytes of its UTF-8 encoding, with places counted in bytes. A slice of a text exists
only between places where characters begin.

An ASCII character is found among the bytes where it is in the text: its byte occurs in the encoding
of no other character (`mem_utf8EncodeChar_iff`). So a program that looks for ASCII bytes sees the
text, as long as it stands where a character begins (`getElem?_bytes_iff`, `findIdx?_bytes`).
-/

namespace Utf8

def bytes (text : List Char) : List UInt8 := text.flatMap String.utf8EncodeChar

/-- The number of bytes. -/
def size (text : List Char) : ℕ := (bytes text).length

/-- The byte of an ASCII character. -/
def byte (c : Char) : UInt8 := UInt8.ofNat c.toNat

/-- The text from a place on. -/
def dropBytes : ℕ → List Char → Option (List Char)
  | 0, text => some text
  | _ + 1, [] => none
  | i + 1, c :: cs => if c.utf8Size ≤ i + 1 then dropBytes (i + 1 - c.utf8Size) cs else none

/-- The text up to a place. -/
def takeBytes : ℕ → List Char → Option (List Char)
  | 0, _ => some []
  | _ + 1, [] => none
  | i + 1, c :: cs =>
    if c.utf8Size ≤ i + 1 then (takeBytes (i + 1 - c.utf8Size) cs).map (c :: ·) else none

/-- The text between two places. -/
def slice (text : List Char) (start stop : ℕ) : Option (List Char) :=
  if start ≤ stop then (dropBytes start text).bind (takeBytes (stop - start)) else none

/-- The place of the first occurrence of a text in another. -/
def find (pattern : List Char) : List Char → Option ℕ
  | [] => if pattern = [] then some 0 else none
  | c :: cs => if pattern <+: c :: cs then some 0 else (find pattern cs).map (c.utf8Size + ·)

variable {text front back mid pattern : List Char} {c d : Char}

/-! ## Places -/

theorem size_append (front back : List Char) : size (front ++ back) = size front + size back := by
  rw [size, bytes, List.flatMap_append, List.length_append]
  rfl

theorem size_singleton (c : Char) : size [c] = c.utf8Size := by
  rw [size, bytes, List.flatMap_singleton, String.length_utf8EncodeChar]

theorem size_cons (c : Char) (cs : List Char) : size (c :: cs) = c.utf8Size + size cs := by
  rw [← size_singleton, ← size_append]
  rfl

theorem length_le_size (text : List Char) : text.length ≤ size text := by
  induction text with
  | nil => exact Nat.le_refl _
  | cons c cs ih =>
    have hpos := c.utf8Size_pos
    rw [size_cons, List.length_cons]
    omega

theorem exists_size_cons (c : Char) (cs : List Char) :
    ∃ n, size (c :: cs) = n + 1 ∧ c.utf8Size ≤ n + 1 ∧ n + 1 - c.utf8Size = size cs := by
  have hpos := c.utf8Size_pos
  refine ⟨size (c :: cs) - 1, ?_, ?_, ?_⟩ <;> rw [size_cons] <;> omega

/-- A text begins where the text in front of it ends. -/
theorem dropBytes_append (front back : List Char) :
    dropBytes (size front) (front ++ back) = some back := by
  induction front with
  | nil => exact dropBytes.eq_1 back
  | cons c cs ih =>
    obtain ⟨n, hsize, hle, hrest⟩ := exists_size_cons c cs
    rw [hsize, List.cons_append, dropBytes, if_pos hle, hrest, ih]

theorem takeBytes_append (front back : List Char) :
    takeBytes (size front) (front ++ back) = some front := by
  induction front with
  | nil => exact takeBytes.eq_1 _
  | cons c cs ih =>
    obtain ⟨n, hsize, hle, hrest⟩ := exists_size_cons c cs
    rw [hsize, List.cons_append, takeBytes, if_pos hle, hrest, ih, Option.map_some]

theorem slice_append (front mid back : List Char) :
    slice (front ++ (mid ++ back)) (size front) (size front + size mid) = some mid := by
  rw [slice, if_pos (Nat.le_add_right _ _), dropBytes_append, Option.bind_some,
    Nat.add_sub_cancel_left, takeBytes_append]

theorem find_of_firstOccurrence (h : FirstOccurrence {pattern} text front pattern back) :
    find pattern text = some (size front) := by
  induction text generalizing front with
  | nil =>
    obtain ⟨hfront, hrest⟩ := List.append_eq_nil_iff.mp h.eq.symm
    rw [find, if_pos (List.append_eq_nil_iff.mp hrest).1, hfront]
    rfl
  | cons c cs ih =>
    rw [find]
    split
    · rename_i hprefix
      obtain ⟨back', hback'⟩ := hprefix
      have hle := h.le pattern rfl [] back' hback'.symm
      rw [List.length_eq_zero_iff.mp (Nat.le_zero.mp hle)]
      rfl
    · rename_i hprefix
      cases front with
      | nil => exact absurd ⟨back, h.eq.symm⟩ hprefix
      | cons d front =>
        obtain rfl : c = d := List.head_eq_of_cons_eq h.eq
        rw [ih h.of_cons, size_cons]
        rfl

theorem find_eq_none (h : ¬pattern <:+: text) : find pattern text = none := by
  induction text with
  | nil =>
    rw [find, if_neg]
    rintro rfl
    exact h List.infix_rfl
  | cons c cs ih =>
    rw [find, if_neg fun hfront ↦ h hfront.isInfix,
      ih fun htail ↦ h (htail.trans (List.suffix_cons c cs).isInfix)]
    rfl

/-! ## ASCII -/

theorem utf8EncodeChar_of_ascii (hc : c.toNat < 0x80) : String.utf8EncodeChar c = [byte c] := by
  have hle : c.val.toNat ≤ 0x7f := Nat.le_of_lt_succ hc
  rw [String.utf8EncodeChar, if_pos hle]
  rfl

theorem byte_toNat (hd : d.toNat < 0x80) : (byte d).toNat = d.toNat := by
  rw [byte, UInt8.toNat_ofNat', Nat.mod_eq_of_lt (by omega)]

/-- The bytes of the other characters are no ASCII. -/
theorem le_of_mem_utf8EncodeChar {b : UInt8} (hc : 0x80 ≤ c.toNat)
    (hb : b ∈ String.utf8EncodeChar c) : 0x80 ≤ b.toNat := by
  have hlarge : ¬ c.val.toNat ≤ 0x7f := Nat.not_le_of_lt hc
  rw [String.utf8EncodeChar, if_neg hlarge] at hb
  split at hb
  · simp only [List.mem_cons, List.not_mem_nil, or_false] at hb
    rcases hb with rfl | rfl <;> rw [UInt8.toNat_ofNat'] <;> omega
  · split at hb
    · simp only [List.mem_cons, List.not_mem_nil, or_false] at hb
      rcases hb with rfl | rfl | rfl <;> rw [UInt8.toNat_ofNat'] <;> omega
    · simp only [List.mem_cons, List.not_mem_nil, or_false] at hb
      rcases hb with rfl | rfl | rfl | rfl <;> rw [UInt8.toNat_ofNat'] <;> omega

theorem mem_utf8EncodeChar_iff (hd : d.toNat < 0x80) :
    byte d ∈ String.utf8EncodeChar c ↔ c = d := by
  constructor
  · intro hmem
    rcases Nat.lt_or_ge c.toNat 0x80 with hc | hc
    · rw [utf8EncodeChar_of_ascii hc, List.mem_singleton] at hmem
      have hcode := congrArg UInt8.toNat hmem
      rw [byte_toNat hd, byte_toNat hc] at hcode
      exact (Char.toNat_inj.mp hcode).symm
    · have hle := le_of_mem_utf8EncodeChar hc hmem
      rw [byte_toNat hd] at hle
      omega
  · rintro rfl
    rw [utf8EncodeChar_of_ascii hd]
    exact List.mem_singleton_self _

/-- What a byte says where a character begins. -/
theorem getElem?_bytes_iff (hd : d.toNat < 0x80) :
    (bytes (front ++ back))[size front]? = some (byte d) ↔ back.head? = some d := by
  have hget : (bytes (front ++ back))[size front]? = (bytes back).head? := by
    rw [bytes, List.flatMap_append, size, bytes, List.getElem?_append_right (Nat.le_refl _),
      Nat.sub_self, List.head?_eq_getElem?, bytes]
  rw [hget]
  cases back with
  | nil => exact iff_of_false nofun nofun
  | cons c cs =>
    rw [bytes, List.flatMap_cons, List.head?_append_of_ne_nil _ String.utf8EncodeChar_ne_nil,
      List.head?_cons, Option.some.injEq, ← mem_utf8EncodeChar_iff hd]
    constructor
    · exact List.mem_of_mem_head?
    · intro hmem
      rw [(mem_utf8EncodeChar_iff hd).mp hmem, utf8EncodeChar_of_ascii hd]
      rfl

theorem findIdx?_bytes (hd : d.toNat < 0x80) (text : List Char) :
    (bytes text).findIdx? (· = byte d) = (splitAtFirst d text).map fun s ↦ size s.1 := by
  induction text with
  | nil => rfl
  | cons c cs ih =>
    rw [bytes, List.flatMap_cons, List.findIdx?_append, ← bytes, ih, splitAtFirst]
    by_cases hc : c = d
    · rw [if_pos hc, hc, utf8EncodeChar_of_ascii hd, List.findIdx?_cons, decide_eq_true rfl]
      rfl
    · have hnone : (String.utf8EncodeChar c).findIdx? (· = byte d) = none := by
        rw [List.findIdx?_eq_none_iff]
        intro b hb
        rw [decide_eq_false_iff_not]
        rintro rfl
        exact hc ((mem_utf8EncodeChar_iff hd).mp hb)
      rw [if_neg hc, hnone, Option.none_or, Option.map_map, Option.map_map,
        String.length_utf8EncodeChar]
      congr 1
      funext s
      exact (Nat.add_comm _ _).trans (size_cons c s.1).symm

end Utf8
