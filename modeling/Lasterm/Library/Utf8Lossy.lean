import Mathlib.Algebra.Order.Ring.Nat
import Lasterm.Library.Utf8

/-!
# Reading bytes as a text

Bytes need not be the encoding of a text. `fromUtf8Lossy` reads them all the same, from left to
right: what is the encoding of a character is that character, and `U+FFFD` stands for the rest, once
for every longest beginning of an encoding.

An ASCII byte begins a character wherever it is, and ends what is unfinished in front of it. So
ASCII words are in the text where they are in the bytes (`firstOccurrence_fromUtf8Lossy`).
-/

namespace Utf8

/-- `U+FFFD`. -/
def replacement : Char := Char.ofNat 0xfffd

/-- Whatever the next `n` bytes are, they make the code one of a character outside ASCII. -/
def Completes : ℕ → ℕ → Prop
  | 0, code => 0x80 ≤ code ∧ code.isValidChar
  | n + 1, code => ∀ b, 0x80 ≤ b → b ≤ 0xbf → Completes n (code * 64 + (b - 0x80))

/-- The beginning of an encoding: the bits of the code, the bounds of the next byte, and how many
bytes come after that. -/
structure Unfinished where
  code : ℕ
  lower : ℕ
  upper : ℕ
  owed : ℕ
  not_ascii : 0x80 ≤ lower
  completes : ∀ b, lower ≤ b → b ≤ upper → Completes owed (code * 64 + (b - 0x80))

theorem completes_of_bounds {n code : ℕ} (hlarge : 0x80 ≤ code * 64 ^ n)
    (hvalid : (code + 1) * 64 ^ n ≤ 0xd800 ∨
      0xe000 ≤ code * 64 ^ n ∧ (code + 1) * 64 ^ n ≤ 0x110000) : Completes n code := by
  induction n generalizing code with
  | zero =>
    rw [Nat.pow_zero, Nat.mul_one] at hlarge hvalid
    rw [Nat.mul_one] at hvalid
    refine ⟨hlarge, ?_⟩
    rw [Nat.isValidChar]
    omega
  | succ n ih =>
    intro b hlower hupper
    have hfrom : code * 64 ^ (n + 1) ≤ (code * 64 + (b - 0x80)) * 64 ^ n := by
      rw [Nat.pow_succ', ← Nat.mul_assoc]
      exact Nat.mul_le_mul_right _ (Nat.le_add_right _ _)
    have hto : (code * 64 + (b - 0x80) + 1) * 64 ^ n ≤ (code + 1) * 64 ^ (n + 1) := by
      rw [Nat.pow_succ', ← Nat.mul_assoc]
      exact Nat.mul_le_mul_right _ (by omega)
    exact ih (by omega) (by omega)

/-- What a byte that is not ASCII begins. -/
def lead (b : ℕ) : Option Unfinished :=
  if h : 0xc2 ≤ b ∧ b ≤ 0xdf then
    some ⟨b - 0xc0, 0x80, 0xbf, 0, by omega, fun x _ _ ↦ completes_of_bounds (by omega) (by omega)⟩
  else if b = 0xe0 then
    some ⟨0, 0xa0, 0xbf, 1, by omega, fun x _ _ ↦ completes_of_bounds (by omega) (by omega)⟩
  else if h : 0xe1 ≤ b ∧ b ≤ 0xec ∨ 0xee ≤ b ∧ b ≤ 0xef then
    some ⟨b - 0xe0, 0x80, 0xbf, 1, by omega, fun x _ _ ↦ completes_of_bounds (by omega) (by omega)⟩
  else if b = 0xed then
    some ⟨0xd, 0x80, 0x9f, 1, by omega, fun x _ _ ↦ completes_of_bounds (by omega) (by omega)⟩
  else if b = 0xf0 then
    some ⟨0, 0x90, 0xbf, 2, by omega, fun x _ _ ↦ completes_of_bounds (by omega) (by omega)⟩
  else if h : 0xf1 ≤ b ∧ b ≤ 0xf3 then
    some ⟨b - 0xf0, 0x80, 0xbf, 2, by omega, fun x _ _ ↦ completes_of_bounds (by omega) (by omega)⟩
  else if b = 0xf4 then
    some ⟨4, 0x80, 0x8f, 2, by omega, fun x _ _ ↦ completes_of_bounds (by omega) (by omega)⟩
  else none

/-- The next byte of an encoding: a character if it is the last. -/
def Unfinished.next (u : Unfinished) (b : ℕ) (h : u.lower ≤ b ∧ b ≤ u.upper) :
    List Char × Option Unfinished :=
  match howed : u.owed with
  | 0 => ([Char.ofNat (u.code * 64 + (b - 0x80))], none)
  | n + 1 =>
    ([], some ⟨u.code * 64 + (b - 0x80), 0x80, 0xbf, n, Nat.le_refl _, by
      have hcompletes := u.completes b h.1 h.2
      rwa [howed] at hcompletes⟩)

/-- A byte where a character begins. -/
def start (b : UInt8) : List Char × Option Unfinished :=
  if b.toNat < 0x80 then ([Char.ofNat b.toNat], none)
  else
    match lead b.toNat with
    | some u => ([], some u)
    | none => ([replacement], none)

def step : Option Unfinished → UInt8 → List Char × Option Unfinished
  | none, b => start b
  | some u, b =>
    if h : u.lower ≤ b.toNat ∧ b.toNat ≤ u.upper then u.next b.toNat h
    else (replacement :: (start b).1, (start b).2)

/-- What is unfinished stays so. -/
def flush : Option Unfinished → List Char
  | none => []
  | some _ => [replacement]

def decode : Option Unfinished → List UInt8 → List Char
  | state, [] => flush state
  | state, b :: bs => (step state b).1 ++ decode (step state b).2 bs

/-- `String::from_utf8_lossy`. -/
def fromUtf8Lossy (data : List UInt8) : List Char := decode none data

example : fromUtf8Lossy (bytes ['a', 'é', '€', '𝄞']) = ['a', 'é', '€', '𝄞'] := by decide

example : fromUtf8Lossy [0x41, 0xff, 0xe2, 0x82, 0x42, 0xed, 0xa0, 0xf0, 0x9f, 0x98] =
    ['A', replacement, replacement, 'B', replacement, replacement, replacement] := by decide

variable {state : Option Unfinished} {b : UInt8} {bs data front back : List UInt8}
  {c : Char} {w out pre post : List Char}

/-! ## One byte -/

theorem toNat_ofNat {n : ℕ} (h : n.isValidChar) : (Char.ofNat n).toNat = n := by
  rw [Char.ofNat, dif_pos h]
  rfl

theorem exists_byte (hb : b.toNat < 0x80) : ∃ c : Char, c.toNat < 0x80 ∧ byte c = b := by
  have hcode : (Char.ofNat b.toNat).toNat = b.toNat :=
    toNat_ofNat (Or.inl (Nat.lt_trans hb (by decide)))
  exact ⟨Char.ofNat b.toNat, hcode.trans_lt hb, by rw [byte, hcode, UInt8.ofNat_toNat]⟩

theorem step_ascii (hc : c.toNat < 0x80) (state : Option Unfinished) :
    step state (byte c) = (flush state ++ [c], none) := by
  have hstart : start (byte c) = ([c], none) := by
    rw [start, byte_toNat hc, if_pos hc, Char.ofNat_toNat]
  cases state with
  | none => exact hstart
  | some u =>
    have hout : ¬(u.lower ≤ (byte c).toNat ∧ (byte c).toNat ≤ u.upper) := by
      have hle := u.not_ascii
      rw [byte_toNat hc]
      omega
    rw [step, dif_neg hout, hstart]
    rfl

theorem le_of_mem_next {u : Unfinished} {n : ℕ} (h : u.lower ≤ n ∧ n ≤ u.upper)
    (hc : c ∈ (u.next n h).1) : 0x80 ≤ c.toNat := by
  have hcompletes := u.completes n h.1 h.2
  rw [Unfinished.next] at hc
  split at hc
  · rename_i howed
    rw [howed] at hcompletes
    rw [List.mem_singleton.mp hc, toNat_ofNat hcompletes.2]
    exact hcompletes.1
  · cases hc

theorem le_of_mem_start (hb : 0x80 ≤ b.toNat) (hc : c ∈ (start b).1) : 0x80 ≤ c.toNat := by
  rw [start, if_neg (Nat.not_lt_of_le hb)] at hc
  split at hc
  · cases hc
  · rw [List.mem_singleton.mp hc]
    decide

theorem le_of_mem_step (hb : 0x80 ≤ b.toNat) (hc : c ∈ (step state b).1) : 0x80 ≤ c.toNat := by
  cases state with
  | none => exact le_of_mem_start hb hc
  | some u =>
    rw [step] at hc
    split at hc
    · exact le_of_mem_next _ hc
    · rcases List.mem_cons.mp hc with rfl | hc
      · decide
      · exact le_of_mem_start hb hc

theorem le_of_mem_flush (hc : c ∈ flush state) : 0x80 ≤ c.toNat := by
  cases state with
  | none => cases hc
  | some u =>
    rw [List.mem_singleton.mp hc]
    decide

/-! ## Characters -/

theorem decode_append (hc : c.toNat < 0x80) (state : Option Unfinished) (front back : List UInt8) :
    decode state (front ++ byte c :: back) = decode state front ++ c :: decode none back := by
  induction front generalizing state with
  | nil =>
    change (step state (byte c)).1 ++ decode (step state (byte c)).2 back = _
    rw [step_ascii hc, List.append_assoc]
    rfl
  | cons b front ih => rw [List.cons_append, decode, ih, decode, List.append_assoc]

theorem decode_some_ne_nil (u : Unfinished) (data : List UInt8) : decode (some u) data ≠ [] := by
  induction data generalizing u with
  | nil => exact List.cons_ne_nil _ _
  | cons b bs ih =>
    rw [decode, step]
    split
    · rw [Unfinished.next]
      split
      · exact List.cons_ne_nil _ _
      · exact ih _
    · exact List.cons_ne_nil _ _

theorem eq_nil_of_decode (h : decode none data = []) : data = [] := by
  cases data with
  | nil => rfl
  | cons b bs =>
    exfalso
    rw [decode, step, start] at h
    split at h
    · cases h
    · split at h
      · exact decode_some_ne_nil _ _ h
      · cases h

/-- More bytes are no fewer characters. -/
theorem length_decode_le (state : Option Unfinished) (front back : List UInt8) :
    (decode state front).length ≤ (decode state (front ++ back)).length := by
  induction front generalizing state with
  | nil =>
    cases state with
    | none => exact Nat.zero_le _
    | some u => exact List.length_pos_iff.mpr (decode_some_ne_nil u back)
  | cons b front ih =>
    rw [List.cons_append, decode, decode, List.length_append, List.length_append]
    exact Nat.add_le_add_left (ih _) _

theorem exists_of_append_eq {rest : List Char} (hout : ∀ d ∈ out, 0x80 ≤ d.toNat)
    (hc : c.toNat < 0x80) (h : out ++ rest = pre ++ c :: post) :
    ∃ pre', pre = out ++ pre' ∧ rest = pre' ++ c :: post := by
  rcases List.append_eq_append_iff.mp h with ⟨mid, hpre, hrest⟩ | ⟨mid, hfront, hback⟩
  · exact ⟨mid, hpre, hrest⟩
  · cases mid with
    | nil => exact ⟨[], by rw [hfront, List.append_nil, List.append_nil], hback.symm⟩
    | cons d mid =>
      obtain rfl : c = d := List.head_eq_of_cons_eq hback
      have hle := hout c (hfront ▸ List.mem_append_right _ List.mem_cons_self)
      exact absurd hc (Nat.not_lt_of_le hle)

/-- An ASCII character of the text is a byte of its own. -/
theorem exists_of_decode (hc : c.toNat < 0x80) (h : decode state data = pre ++ c :: post) :
    ∃ front back, data = front ++ byte c :: back ∧ decode state front = pre ∧
      decode none back = post := by
  induction data generalizing state pre with
  | nil =>
    have hmem : c ∈ flush state := by
      rw [decode] at h
      rw [h]
      exact List.mem_append_right _ List.mem_cons_self
    exact absurd hc (Nat.not_lt_of_le (le_of_mem_flush hmem))
  | cons b bs ih =>
    rw [decode] at h
    rcases Nat.lt_or_ge b.toNat 0x80 with hb | hb
    · obtain ⟨d, hd, rfl⟩ := exists_byte hb
      rw [step_ascii hd, List.append_assoc, List.singleton_append] at h
      obtain ⟨pre', rfl, hrest⟩ := exists_of_append_eq (fun _ ↦ le_of_mem_flush) hc h
      cases pre' with
      | nil =>
        cases hrest
        exact ⟨[], bs, rfl, (List.append_nil _).symm, rfl⟩
      | cons d' pre' =>
        obtain ⟨rfl, htail⟩ := List.cons.inj hrest
        obtain ⟨front, back, rfl, rfl, hpost⟩ := ih htail
        exact ⟨byte d :: front, back, rfl, decode_append hd state [] front, hpost⟩
    · obtain ⟨pre', rfl, hrest⟩ := exists_of_append_eq (fun _ ↦ le_of_mem_step hb) hc h
      obtain ⟨front, back, rfl, rfl, hpost⟩ := ih hrest
      exact ⟨b :: front, back, rfl, rfl, hpost⟩

/-! ## Words -/

section Words

variable (hw : ∀ c ∈ w, c.toNat < 0x80)
include hw

theorem decode_word (back : List UInt8) :
    decode none (bytes w ++ back) = w ++ decode none back := by
  induction w with
  | nil => rfl
  | cons c cs ih =>
    have hc := hw c List.mem_cons_self
    rw [bytes, List.flatMap_cons, utf8EncodeChar_of_ascii hc, ← bytes, List.append_assoc,
      List.singleton_append, List.cons_append, ← ih fun d hd ↦ hw d (List.mem_cons_of_mem _ hd)]
    exact decode_append hc none [] _

theorem exists_of_decode_word (h : decode none data = w ++ post) :
    ∃ back, data = bytes w ++ back ∧ decode none back = post := by
  induction w generalizing data with
  | nil => exact ⟨data, rfl, h⟩
  | cons c cs ih =>
    have hc := hw c List.mem_cons_self
    have hhead : decode none data = [] ++ c :: (cs ++ post) := h
    obtain ⟨front, rest, rfl, hfront, hrest⟩ := exists_of_decode hc hhead
    obtain ⟨back, rfl, hback⟩ := ih (fun d hd ↦ hw d (List.mem_cons_of_mem _ hd)) hrest
    refine ⟨back, ?_, hback⟩
    rw [eq_nil_of_decode hfront, bytes, bytes, List.flatMap_cons, utf8EncodeChar_of_ascii hc]
    rfl

variable (hne : w ≠ [])
include hne

theorem fromUtf8Lossy_append (front back : List UInt8) :
    fromUtf8Lossy (front ++ (bytes w ++ back)) =
      fromUtf8Lossy front ++ (w ++ fromUtf8Lossy back) := by
  obtain ⟨c, cs, rfl⟩ := List.exists_cons_of_ne_nil hne
  have hc := hw c List.mem_cons_self
  rw [bytes, List.flatMap_cons, utf8EncodeChar_of_ascii hc, ← bytes, List.append_assoc,
    List.singleton_append, fromUtf8Lossy, decode_append hc,
    decode_word fun d hd ↦ hw d (List.mem_cons_of_mem _ hd)]
  rfl

theorem exists_of_fromUtf8Lossy (h : fromUtf8Lossy data = pre ++ (w ++ post)) :
    ∃ front back, data = front ++ (bytes w ++ back) ∧ fromUtf8Lossy front = pre ∧
      fromUtf8Lossy back = post := by
  obtain ⟨c, cs, rfl⟩ := List.exists_cons_of_ne_nil hne
  have hc := hw c List.mem_cons_self
  obtain ⟨front, rest, rfl, hfront, hrest⟩ := exists_of_decode hc h
  obtain ⟨back, rfl, hback⟩ :=
    exists_of_decode_word (fun d hd ↦ hw d (List.mem_cons_of_mem _ hd)) hrest
  refine ⟨front, back, ?_, hfront, hback⟩
  rw [bytes, bytes, List.flatMap_cons, utf8EncodeChar_of_ascii hc]
  rfl

/-- An ASCII word is in the text exactly if it is in the bytes. -/
theorem infix_fromUtf8Lossy_iff : w <:+: fromUtf8Lossy data ↔ bytes w <:+: data := by
  constructor
  · rintro ⟨pre, post, h⟩
    rw [List.append_assoc] at h
    obtain ⟨front, back, rfl, -, -⟩ := exists_of_fromUtf8Lossy hw hne h.symm
    exact ⟨front, back, List.append_assoc _ _ _⟩
  · rintro ⟨front, back, rfl⟩
    rw [List.append_assoc, fromUtf8Lossy_append hw hne]
    exact ⟨_, _, List.append_assoc _ _ _⟩

/-- **The first occurrence of an ASCII word in the text is the first in the bytes.** -/
theorem firstOccurrence_fromUtf8Lossy (h : FirstOccurrence {bytes w} data front (bytes w) back) :
    FirstOccurrence {w} (fromUtf8Lossy data) (fromUtf8Lossy front) w (fromUtf8Lossy back) := by
  refine ⟨rfl, ?_, ?_⟩
  · rw [h.eq, fromUtf8Lossy_append hw hne]
  · rintro _ rfl pre post heq
    obtain ⟨front', back', hdata, rfl, -⟩ := exists_of_fromUtf8Lossy hw hne heq
    obtain ⟨rest, rfl⟩ := h.prefix_front rfl hdata
    exact length_decode_le none front rest

end Words

end Utf8
