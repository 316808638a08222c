import Lasterm.Library.Utf8Lossy

/-!
# Bells and notifications in the output

`headless.rs`: what the mirror of a terminal looks for in the bytes that it processes, and does not
leave to its parser. A sequence begins with `ESC ]` and goes on to the first `BEL` or `ESC \` behind
that. A `BEL` that ends no sequence is a bell, and the text of the first sequence that begins with
`ESC ] 9 ;` is a notification.

`contains_bell` is right about every buffer (`containsBell_iff`). `extract_osc9` looks for a `BEL`
first, in all that is left of the buffer, and for `ESC \` only if there is none. So a notification
that ends with `ESC \` goes on to the next `BEL` (`followsGrammar_iff`).
-/

namespace Lasterm.Agent

open Utf8

/-! ## The scanners -/

/-- The loop of `contains_bell`, with `in_osc`. -/
def containsBellLoop : Bool → List UInt8 → Bool
  | _, [] => false
  | inOsc, b :: rest =>
    if b = 0x1b ∧ rest.head? = some 0x5d then containsBellLoop true rest
    else if inOsc = true ∧ b = 0x07 then containsBellLoop false rest
    else if b = 0x07 then true
    else if inOsc = true ∧ b = 0x1b ∧ rest.head? = some 0x5c then containsBellLoop false rest
    else containsBellLoop inOsc rest

def containsBell (data : List UInt8) : Bool := containsBellLoop false data

def esc : Char := Char.ofNat 0x1b

def bel : Char := Char.ofNat 0x07

/-- `ESC ] 9 ;`. -/
def osc9 : List Char := [esc, ']', '9', ';']

/-- `ESC \`. -/
def st : List Char := [esc, Char.ofNat 0x5c]

/-- Where the message ends in what remains of the text. -/
def messageEnd (remaining : List Char) : ℕ :=
  ((find [bel] remaining).or (find st remaining)).getD (size remaining)

/-- An empty message is none. -/
def message (msg : List Char) : Option (List Char) := if msg.isEmpty then none else some msg

/-- `none` is a panic, at a slice that does not begin and end with a character. -/
def extractOsc9 (data : List UInt8) : Option (Option (List Char)) :=
  let dataStr := fromUtf8Lossy data
  match find osc9 dataStr with
  | none => some none
  | some start => do
    let remaining ← dropBytes (start + 4) dataStr
    let msg ← takeBytes (messageEnd remaining) remaining
    return message msg

/-! ## The grammar -/

/-- What ends a sequence: `BEL`, or `ESC \`. -/
def terminators : Set (List UInt8) := {[0x07], [0x1b, 0x5c]}

/-- The `BEL` between `front` and `back` is the first terminator behind some `ESC ]`. -/
def EndsSequence (front back : List UInt8) : Prop :=
  ∃ before text, front = before ++ ([0x1b, 0x5d] ++ text) ∧
    FirstOccurrence terminators (text ++ ([0x07] ++ back)) text [0x07] back

/-- What the two scanners should find in a buffer. -/
structure FollowsGrammar (data : List UInt8) : Prop where
  notification : ∀ front rest text terminator back,
    FirstOccurrence {bytes osc9} data front (bytes osc9) rest →
    FirstOccurrence terminators rest text terminator back →
    extractOsc9 data = some (message (fromUtf8Lossy text))
  no_notification : ¬bytes osc9 <:+: data → extractOsc9 data = some none
  bell : containsBell data = true ↔
    ∃ front back, data = front ++ ([0x07] ++ back) ∧ ¬EndsSequence front back

/-- The first notification ends with `ESC \`, and a `BEL` comes later. -/
def BelBehindSt (data : List UInt8) : Prop :=
  ∃ front rest text back, FirstOccurrence {bytes osc9} data front (bytes osc9) rest ∧
    FirstOccurrence terminators rest text (bytes st) back ∧ 0x07 ∈ back

variable {data front rest text back before : List UInt8} {inOsc : Bool} {b : UInt8}

/-! ## Bells -/

/-- No terminator is in a text. -/
def Unterminated (text : List UInt8) : Prop := ∀ w ∈ terminators, ¬w <:+: text

/-- A sequence is open behind `front`. -/
def Opened (front : List UInt8) : Prop :=
  ∃ before text, front = before ++ ([0x1b, 0x5d] ++ text) ∧ Unterminated text

theorem unterminated_iff : Unterminated text ↔ ¬[0x07] <:+: text ∧ ¬[0x1b, 0x5c] <:+: text := by
  simp only [Unterminated, terminators, Set.mem_insert_iff, Set.mem_singleton_iff,
    forall_eq_or_imp, forall_eq]

theorem unterminated_nil : Unterminated [] := by
  rw [unterminated_iff]
  exact ⟨by decide, by decide⟩

theorem unterminated_cons : Unterminated (b :: text) ↔
    b ≠ 0x07 ∧ ¬(b = 0x1b ∧ text.head? = some 0x5c) ∧ Unterminated text := by
  have hst : [0x5c] <+: text ↔ text.head? = some 0x5c := by
    cases text with
    | nil => exact iff_of_false (by decide) (by rintro ⟨⟩)
    | cons c cs =>
      rw [List.cons_prefix_cons, List.head?_cons, Option.some.injEq, eq_comm]
      exact and_iff_left List.nil_prefix
  rw [unterminated_iff, unterminated_iff, List.infix_cons_iff, List.infix_cons_iff,
    List.cons_prefix_cons, List.cons_prefix_cons, hst, and_iff_left List.nil_prefix, not_or, not_or,
    eq_comm, @eq_comm _ _ b]
  tauto

/-- The `BEL` is the first terminator if there is none in front of it: `ESC \` does not end with
`BEL`. -/
theorem firstOccurrence_bel_iff :
    FirstOccurrence terminators (text ++ ([0x07] ++ back)) text [0x07] back ↔
      Unterminated text := by
  constructor
  · intro h w hw
    refine h.not_infix_front hw ?_
    rcases hw with rfl | rfl <;> decide
  · intro h
    rw [unterminated_iff, List.singleton_infix_iff] at h
    refine ⟨Set.mem_insert _ _, rfl, fun w hw front' back' heq ↦ ?_⟩
    rcases hw with rfl | rfl
    · exact (FirstOccurrence.singleton h.1 back).le _ rfl _ _ heq
    · by_contra hlt
      obtain ⟨c, y, rfl, htail⟩ := FirstOccurrence.exists_of_length_lt heq (Nat.lt_of_not_le hlt)
      obtain rfl : c = 0x1b := List.head_eq_of_cons_eq htail
      have hnext := List.tail_eq_of_cons_eq htail
      cases y with
      | nil => exact absurd (List.head_eq_of_cons_eq hnext) (by decide)
      | cons d y =>
        obtain rfl : d = 0x5c := List.head_eq_of_cons_eq hnext
        exact h.2 ⟨front', y, List.append_assoc _ _ _⟩

theorem endsSequence_iff : EndsSequence front back ↔ Opened front :=
  exists_congr fun _ ↦ exists_congr fun _ ↦ and_congr_right fun _ ↦ firstOccurrence_bel_iff

theorem opened_cons : Opened (b :: front) ↔
    (b = 0x1b ∧ ∃ text, front = 0x5d :: text ∧ Unterminated text) ∨ Opened front := by
  constructor
  · rintro ⟨before, text, heq, htext⟩
    cases before with
    | nil =>
      cases heq
      exact Or.inl ⟨rfl, text, rfl, htext⟩
    | cons c before =>
      cases heq
      exact Or.inr ⟨before, text, rfl, htext⟩
  · rintro (⟨rfl, text, rfl, htext⟩ | ⟨before, text, rfl, htext⟩)
    · exact ⟨[], text, rfl, htext⟩
    · exact ⟨b :: before, text, rfl, htext⟩

theorem not_opened_nil : ¬Opened [] := by
  rintro ⟨before, text, heq, -⟩
  cases before <;> cases heq

theorem unterminated_cons_of_ne (hbel : b ≠ 0x07) (hesc : b ≠ 0x1b) :
    Unterminated (b :: text) ↔ Unterminated text := by
  rw [unterminated_cons, and_iff_right hbel, and_iff_right fun h ↦ hesc h.1]

/-- What `in_osc` stands for behind `front`, where the loop began with `inOsc`. -/
def OpenAfter (inOsc : Bool) (front : List UInt8) : Prop :=
  inOsc = true ∧ Unterminated front ∨ Opened front

/-- `in_osc` after a byte that is no bell, with the byte behind it. -/
def nextInOsc (inOsc : Bool) (b : UInt8) (next : Option UInt8) : Bool :=
  if b = 0x1b ∧ next = some 0x5d then true
  else if b = 0x07 then false
  else if b = 0x1b ∧ next = some 0x5c then false
  else inOsc

theorem containsBellLoop_cons (inOsc : Bool) (b : UInt8) (rest : List UInt8) :
    containsBellLoop inOsc (b :: rest) = if b = 0x07 ∧ inOsc = false then true
      else containsBellLoop (nextInOsc inOsc b rest.head?) rest := by
  rw [containsBellLoop, nextInOsc]
  by_cases hbel : b = 0x07
  · subst hbel
    cases inOsc <;> rfl
  · have hring : ¬(b = 0x07 ∧ inOsc = false) := fun h ↦ hbel h.1
    have hend : ¬(inOsc = true ∧ b = 0x07) := fun h ↦ hbel h.2
    rw [if_neg hring, if_neg hend, if_neg hbel, if_neg hbel]
    by_cases hopen : b = 0x1b ∧ rest.head? = some 0x5d
    · rw [if_pos hopen, if_pos hopen]
    · rw [if_neg hopen, if_neg hopen]
      by_cases hclose : b = 0x1b ∧ rest.head? = some 0x5c
      · rw [if_pos hclose]
        cases inOsc with
        | false => rw [if_neg fun h ↦ Bool.false_ne_true h.1]
        | true => rw [if_pos ⟨rfl, hclose⟩]
      · rw [if_neg hclose, if_neg fun h ↦ hclose h.2]

/-- One byte of the loop, where a `BEL` comes behind `front`. -/
theorem openAfter_cons (inOsc : Bool) (b : UInt8) (front back : List UInt8) :
    OpenAfter inOsc (b :: front) ↔
      OpenAfter (nextInOsc inOsc b (front ++ 0x07 :: back).head?) front := by
  rw [OpenAfter, OpenAfter, opened_cons, unterminated_cons, nextInOsc]
  by_cases hbel : b = 0x07
  · subst hbel
    simp
  by_cases hesc : b = 0x1b
  · subst hesc
    cases front with
    | nil => simp [unterminated_nil, not_opened_nil]
    | cons c front =>
      by_cases hopen : c = 0x5d
      · subst hopen
        have htext : Unterminated (0x5d :: front) ↔ Unterminated front :=
          unterminated_cons_of_ne (by decide) (by decide)
        have habsorb : inOsc = true ∧ Unterminated front ∨
            Unterminated front ∨ Opened (0x5d :: front) ↔
              Unterminated front ∨ Opened (0x5d :: front) :=
          or_iff_right_of_imp fun h ↦ Or.inl h.2
        simpa [htext] using habsorb
      · by_cases hclose : c = 0x5c
        · subst hclose
          simp
        · simp [hopen, hclose]
  · simp [hbel, hesc]

theorem openAfter_nil : OpenAfter inOsc [] ↔ inOsc = true := by
  rw [OpenAfter, and_iff_left unterminated_nil]
  exact or_iff_left not_opened_nil

theorem containsBellLoop_iff (inOsc : Bool) (data : List UInt8) :
    containsBellLoop inOsc data = true ↔
      ∃ front back, data = front ++ 0x07 :: back ∧ ¬OpenAfter inOsc front := by
  induction data generalizing inOsc with
  | nil =>
    refine iff_of_false Bool.false_ne_true ?_
    rintro ⟨front, back, heq, -⟩
    cases front <;> cases heq
  | cons b rest ih =>
    have hrest : containsBellLoop (nextInOsc inOsc b rest.head?) rest = true ↔
        ∃ front back, rest = front ++ 0x07 :: back ∧ ¬OpenAfter inOsc (b :: front) := by
      rw [ih]
      constructor
      · rintro ⟨front, back, rfl, h⟩
        exact ⟨front, back, rfl, by rwa [openAfter_cons]⟩
      · rintro ⟨front, back, rfl, h⟩
        exact ⟨front, back, rfl, by rwa [openAfter_cons] at h⟩
    rw [containsBellLoop_cons]
    split
    · rename_i hring
      obtain ⟨rfl, hclosed⟩ := hring
      refine iff_of_true rfl ⟨[], rest, rfl, fun h ↦ ?_⟩
      exact absurd (openAfter_nil.mp h) (Bool.not_eq_true _ ▸ hclosed)
    · rename_i hring
      rw [hrest]
      constructor
      · rintro ⟨front, back, rfl, h⟩
        exact ⟨b :: front, back, rfl, h⟩
      · rintro ⟨front, back, heq, h⟩
        cases front with
        | nil =>
          cases heq
          rw [openAfter_nil, Bool.not_eq_true] at h
          exact absurd ⟨rfl, h⟩ hring
        | cons c front =>
          cases heq
          exact ⟨front, back, rfl, h⟩

/-- **A bell is a `BEL` that ends no sequence.** -/
theorem containsBell_iff (data : List UInt8) : containsBell data = true ↔
    ∃ front back, data = front ++ ([0x07] ++ back) ∧ ¬EndsSequence front back := by
  rw [containsBell, containsBellLoop_iff]
  refine exists_congr fun front ↦ exists_congr fun back ↦ and_congr_right fun _ ↦ not_congr ?_
  rw [endsSequence_iff, OpenAfter, or_iff_right fun h ↦ Bool.false_ne_true h.1]

/-! ## Notifications -/

theorem ascii_bel : ∀ c ∈ [bel], c.toNat < 0x80 := by simp [bel]

theorem ascii_osc9 : ∀ c ∈ osc9, c.toNat < 0x80 := by simp [osc9, esc]

theorem ascii_st : ∀ c ∈ st, c.toNat < 0x80 := by simp [st, esc]

theorem message_getD (msg : List Char) : (message msg).getD [] = msg := by
  cases msg <;> rfl

section

variable (h : FirstOccurrence {bytes osc9} data front (bytes osc9) rest)
include h

/-- The message, by the end that is found in what remains. -/
theorem extractOsc9_of_messageEnd {msg behind : List Char}
    (hrest : fromUtf8Lossy rest = msg ++ behind)
    (hend : messageEnd (fromUtf8Lossy rest) = size msg) :
    extractOsc9 data = some (message msg) := by
  have hfirst := firstOccurrence_fromUtf8Lossy ascii_osc9 (by decide) h
  have hstart : size (fromUtf8Lossy front) + 4 = size (fromUtf8Lossy front ++ osc9) := by
    rw [size_append]
    rfl
  rw [extractOsc9, find_of_firstOccurrence hfirst, hfirst.eq]
  dsimp only
  rw [hstart, ← List.append_assoc, dropBytes_append, Option.bind_eq_bind, Option.bind_some, hend,
    hrest, takeBytes_append]
  rfl

theorem extractOsc9_of_bel (hbel : FirstOccurrence {bytes [bel]} rest text (bytes [bel]) back) :
    extractOsc9 data = some (message (fromUtf8Lossy text)) := by
  have hfirst := firstOccurrence_fromUtf8Lossy ascii_bel (by decide) hbel
  refine extractOsc9_of_messageEnd h hfirst.eq ?_
  rw [messageEnd, find_of_firstOccurrence hfirst]
  rfl

theorem extractOsc9_of_st
    (hbel : ¬bytes [bel] <:+: rest) (hst : FirstOccurrence {bytes st} rest text (bytes st) back) :
    extractOsc9 data = some (message (fromUtf8Lossy text)) := by
  have hfirst := firstOccurrence_fromUtf8Lossy ascii_st (by decide) hst
  have hnone := find_eq_none (mt (infix_fromUtf8Lossy_iff ascii_bel (by decide)).mp hbel)
  refine extractOsc9_of_messageEnd h hfirst.eq ?_
  rw [messageEnd, hnone, find_of_firstOccurrence hfirst]
  rfl

/-- What is not terminated is a message to the end of the buffer. -/
theorem extractOsc9_of_unterminated (hrest : Unterminated rest) :
    extractOsc9 data = some (message (fromUtf8Lossy rest)) := by
  rw [unterminated_iff] at hrest
  have hbel : find [bel] (fromUtf8Lossy rest) = none :=
    find_eq_none (mt (infix_fromUtf8Lossy_iff ascii_bel (by decide)).mp hrest.1)
  have hst : find st (fromUtf8Lossy rest) = none :=
    find_eq_none (mt (infix_fromUtf8Lossy_iff ascii_st (by decide)).mp hrest.2)
  refine extractOsc9_of_messageEnd h (List.append_nil _).symm ?_
  rw [messageEnd, hbel, hst]
  rfl

end

theorem extractOsc9_of_not_infix (h : ¬bytes osc9 <:+: data) : extractOsc9 data = some none := by
  rw [extractOsc9,
    find_eq_none (mt (infix_fromUtf8Lossy_iff ascii_osc9 (by decide)).mp h)]

/-- No slice is off a boundary. The message is what stands behind the first introducer, up to the
first `BEL`; without one up to the first `ESC \`; without either all that is left. -/
theorem extractOsc9_spec (data : List UInt8) :
    ¬bytes osc9 <:+: data ∧ extractOsc9 data = some none ∨
      ∃ front rest text, FirstOccurrence {bytes osc9} data front (bytes osc9) rest ∧
        extractOsc9 data = some (message (fromUtf8Lossy text)) ∧
          ((∃ back, FirstOccurrence {bytes [bel]} rest text (bytes [bel]) back) ∨
            (¬bytes [bel] <:+: rest ∧
              ∃ back, FirstOccurrence {bytes st} rest text (bytes st) back) ∨
            (Unterminated rest ∧ text = rest)) := by
  by_cases hosc : bytes osc9 <:+: data
  swap
  · exact .inl ⟨hosc, extractOsc9_of_not_infix hosc⟩
  obtain ⟨front, rest, h⟩ := FirstOccurrence.exists_of_infix hosc
  refine .inr ⟨front, rest, ?_⟩
  by_cases hbel : bytes [bel] <:+: rest
  · obtain ⟨text, back, hfirst⟩ := FirstOccurrence.exists_of_infix hbel
    exact ⟨text, h, extractOsc9_of_bel h hfirst, .inl ⟨back, hfirst⟩⟩
  by_cases hst : bytes st <:+: rest
  · obtain ⟨text, back, hfirst⟩ := FirstOccurrence.exists_of_infix hst
    exact ⟨text, h, extractOsc9_of_st h hbel hfirst, .inr (.inl ⟨hbel, back, hfirst⟩)⟩
  · have hrest : Unterminated rest := unterminated_iff.mpr ⟨hbel, hst⟩
    exact ⟨rest, h, extractOsc9_of_unterminated h hrest, .inr (.inr ⟨hrest, rfl⟩)⟩

theorem message_inj {msg msg' : List Char} (h : message msg = message msg') : msg = msg' := by
  rw [← message_getD msg, h, message_getD]

/-- With a `BEL` behind its `ESC \`, the notification goes on. -/
theorem extractOsc9_ne (h : FirstOccurrence {bytes osc9} data front (bytes osc9) rest)
    (hst : FirstOccurrence terminators rest text (bytes st) back) (hbel : 0x07 ∈ back) :
    extractOsc9 data ≠ some (message (fromUtf8Lossy text)) := by
  intro hextract
  have hmem : [0x07] <:+: rest := by
    rw [hst.eq]
    exact ((List.singleton_infix_iff _ _).mpr hbel).trans
      ((List.suffix_append _ _).trans (List.suffix_append _ _)).isInfix
  obtain ⟨text', back', hfirst⟩ := FirstOccurrence.exists_of_infix hmem
  rw [extractOsc9_of_bel h hfirst] at hextract
  have htext := message_inj (Option.some.inj hextract)
  -- the first `BEL` is behind `ESC`, so that `ESC` is in the message
  obtain ⟨y, rfl⟩ := hst.prefix_front (Set.mem_insert _ _) hfirst.eq
  have hrest := hst.eq.symm.trans hfirst.eq
  rw [List.append_assoc, List.append_cancel_left_eq] at hrest
  cases y with
  | nil => exact absurd (List.head_eq_of_cons_eq hrest) (by decide)
  | cons c y =>
    obtain rfl : 0x1b = c := List.head_eq_of_cons_eq hrest
    have hlength := congrArg List.length htext
    rw [fromUtf8Lossy, show (0x1b : UInt8) = byte esc from rfl, decode_append (by decide),
      List.length_append] at hlength
    exact absurd hlength (Nat.ne_of_gt (Nat.lt_add_of_pos_right (Nat.succ_pos _)))

/-- **The two scanners follow the grammar exactly on the buffers whose first notification does not
end with `ESC \` in front of a `BEL`.** -/
theorem followsGrammar_iff (data : List UInt8) : FollowsGrammar data ↔ ¬BelBehindSt data := by
  constructor
  · rintro h ⟨front, rest, text, back, hosc, hst, hbel⟩
    exact extractOsc9_ne hosc hst hbel (h.notification _ _ _ _ _ hosc hst)
  · intro h
    refine ⟨fun front rest text terminator back hosc hterm ↦ ?_, extractOsc9_of_not_infix,
      containsBell_iff data⟩
    rcases hterm.mem with rfl | rfl
    · refine extractOsc9_of_bel hosc (hterm.mono ?_ rfl)
      exact Set.singleton_subset_iff.mpr (Set.mem_insert _ _)
    · refine extractOsc9_of_st hosc ?_ (hterm.mono ?_ rfl)
      · intro hbel
        refine h ⟨front, rest, text, back, hosc, hterm, ?_⟩
        have hfront := hterm.not_infix_front (Set.mem_insert _ _) (List.cons_ne_nil _ _)
        rw [List.singleton_infix_iff] at hfront
        rw [show bytes [bel] = [0x07] from rfl, List.singleton_infix_iff, hterm.eq,
          List.mem_append, List.mem_append, or_iff_right hfront] at hbel
        exact hbel.resolve_left (by decide)
      · exact Set.singleton_subset_iff.mpr (Set.mem_insert_of_mem _ rfl)

/-- `ESC ] 9 ; h i ESC \ BEL`: the notification is `hi`, and what is found is `hi ESC \`. -/
theorem not_followsGrammar : ¬FollowsGrammar
    [0x1b, 0x5d, 0x39, 0x3b, 0x68, 0x69, 0x1b, 0x5c, 0x07] := by
  intro h
  have hosc : FirstOccurrence {bytes osc9} [0x1b, 0x5d, 0x39, 0x3b, 0x68, 0x69, 0x1b, 0x5c, 0x07]
      [] (bytes osc9) [0x68, 0x69, 0x1b, 0x5c, 0x07] :=
    ⟨rfl, rfl, fun _ _ _ _ _ ↦ Nat.zero_le _⟩
  have hst : FirstOccurrence terminators [0x68, 0x69, 0x1b, 0x5c, 0x07] [0x68, 0x69]
      [0x1b, 0x5c] [0x07] := by
    refine ⟨Set.mem_insert_of_mem _ rfl, rfl, fun w hw front' back' heq ↦ ?_⟩
    rcases hw with rfl | rfl <;> rcases front' with _ | ⟨c, _ | ⟨d, front'⟩⟩ <;> simp at heq ⊢
  have hmessage := h.notification _ _ _ _ _ hosc hst
  revert hmessage
  decide

end Lasterm.Agent
