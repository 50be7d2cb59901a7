/-
**Every malformed text is shown where it is wrong.**

What is wrong with a text is at one of its tokens, at its end, or at the first character that cannot
be read.  None of these is behind that character, and all that comes before it is blanks and
lexemes, whose characters are one byte long.  So the byte at which a text is wrong is also the
number of characters before it, although the rest of the text may hold any characters, and the caret
of the full display stands under the character in question, or behind the window at the end of a
text.

The full display ends with two lines: white space is shown as spaces, so a line end inside the
window does not break it.

Main definitions:

* `Span.IsPlaceIn` — **where a text can be wrong**;
* `shownAs` — a character as the full display shows it;
* `PointsAt` — **two lines show a text around a character and point at it**.

Main results:

* `Scan.spanFromEnd_cases` — what is wrong is at a token or where reading ends;
* `Scan.utf8Size_of_mem_before` — all characters before that place are one byte long;
* `charIndex?_length` — characters of one byte are counted by bytes;
* `pointsAt_window` — the window and the caret line point at their character;
* `groupsOf_malformed` — **every malformed text is shown where it is wrong**.
-/

import Timetable.Proofs.Language
import Timetable.Proofs.TokenPlaces

set_option relaxedAutoImplicit false
set_option autoImplicit false

namespace Timetable

/-! ### Places where a text can be wrong -/

/-- **Where a text can be wrong.** -/
structure Span.IsPlaceIn (text : String) (span : Span) : Prop where
  /-- The place is a token, the end of the text, or the character that cannot be read. -/
  cases : (∃ t ∈ (Scan.ofText text).tokens, span = t.span) ∨
    ((Scan.ofText text).ending = .finished text.utf8ByteSize ∧
      span = ⟨text.utf8ByteSize, text.utf8ByteSize⟩) ∨
    ∃ (before : String) (c : Char) (after : String), text = before ++ String.singleton c ++ after ∧
      (Scan.ofText text).ending = .unreadable before.utf8ByteSize c after.toList ∧
        span = ⟨before.utf8ByteSize, (before ++ String.singleton c).utf8ByteSize⟩
  /-- It is not behind that character. -/
  start_le : ∀ offset c rest, (Scan.ofText text).ending = .unreadable offset c rest →
    span.start ≤ offset
  /-- All that comes before it is ASCII. -/
  ascii : ∃ before after : String, text = before ++ after ∧ before.utf8ByteSize = span.start ∧
    before.length = span.start ∧ ∀ c ∈ before.toList, c.toNat < 128

namespace Scan

/-- What is wrong is at a token or where reading ends. -/
theorem spanFromEnd_cases (s : Scan) (left : Nat) :
    s.spanFromEnd left = s.ending.span ∨ ∃ t ∈ s.tokens, s.spanFromEnd left = t.span := by
  unfold spanFromEnd
  by_cases hleft : left = 0
  · exact Or.inl (if_pos hleft)
  · rw [if_neg hleft]
    cases ht : s.tokens[s.tokens.length - left]? with
    | none => exact Or.inl rfl
    | some t => exact Or.inr ⟨t, List.mem_of_getElem? ht, rfl⟩

/-- The text up to the place where reading ends consists of characters of one byte. -/
theorem exists_before_ending (offset : Nat) (cs : List Char) :
    ∃ before rest, cs = before ++ rest ∧
      offset + byteCount before = (ofRest offset cs).ending.span.start ∧
        ∀ c ∈ before, c.utf8Size = 1 := by
  fun_induction ofRest offset cs with
  | case1 offset => exact ⟨[], [], rfl, rfl, List.forall_mem_nil _⟩
  | case2 offset c rest hblank ih =>
      obtain ⟨before, rest', rfl, hbytes, hone⟩ := ih
      have hc := utf8Size_of_isBlank hblank
      refine ⟨c :: before, rest', rfl, ?_, List.forall_mem_cons.2 ⟨hc, hone⟩⟩
      rw [byteCount_cons, hc, ← Nat.add_assoc, hbytes]
  | case3 offset c rest hblank l after hlexeme stop scan ih =>
      obtain ⟨htext, hstands⟩ := lexeme?_eq_some_iff.1 hlexeme
      obtain ⟨before, rest', rfl, hbytes, hone⟩ := ih
      refine ⟨l.spelling ++ before, rest', by rw [htext, List.append_assoc], ?_, ?_⟩
      · rw [byteCount_append, byteCount_spelling hstands.1, ← Nat.add_assoc]
        exact hbytes
      · exact List.forall_mem_append.2 ⟨fun d hd => Lexeme.utf8Size_of_mem hstands.1 hd, hone⟩
  | case4 offset c rest hblank hnone => exact ⟨[], c :: rest, rfl, rfl, List.forall_mem_nil _⟩

/-- **All characters before a place are one byte long**, if reading does not end before it. -/
theorem utf8Size_of_mem_before {offset : Nat} {before after : List Char}
    (h : offset + byteCount before ≤ (ofRest offset (before ++ after)).ending.span.start) :
    ∀ c ∈ before, c.utf8Size = 1 := by
  obtain ⟨short, rest, htext, hbytes, hone⟩ := exists_before_ending offset (before ++ after)
  rcases List.append_eq_append_iff.1 htext with ⟨part, rfl, -⟩ | ⟨part, rfl, -⟩
  · exact fun c hc => hone c (List.mem_append_left part hc)
  · -- nothing is left between the two places
    cases part with
    | nil => rwa [List.append_nil]
    | cons d part =>
        have hpos := d.utf8Size_pos
        rw [byteCount_append, byteCount_cons] at h
        omega

end Scan

/-- The characters of one byte are those of ASCII. -/
theorem utf8Size_eq_one_iff_toNat {c : Char} : c.utf8Size = 1 ↔ c.toNat < 128 := by
  rw [Char.utf8Size_eq_one_iff, UInt32.le_iff_toNat_le]
  exact Nat.lt_succ_iff.symm

section Place

variable {text : String}

/-- The text before a place up to which it has been read is ASCII. -/
theorem exists_ascii_before {before after : List Char} (htext : text.toList = before ++ after)
    (hle : byteCount before ≤ (Scan.ofText text).ending.span.start) :
    ∃ before' after' : String, text = before' ++ after' ∧
      before'.utf8ByteSize = byteCount before ∧ before'.length = byteCount before ∧
        ∀ c ∈ before'.toList, c.toNat < 128 := by
  have hle : 0 + byteCount before ≤ (Scan.ofRest 0 (before ++ after)).ending.span.start := by
    rw [Nat.zero_add, ← htext]
    exact hle
  have hone : ∀ c ∈ before, c.utf8Size = 1 := Scan.utf8Size_of_mem_before hle
  refine ⟨String.ofList before, String.ofList after, ?_, rfl, ?_, fun c hc => ?_⟩
  · rw [← String.ofList_append, ← htext, String.ofList_toList]
  · rw [String.length_ofList]
    exact (utf8ByteSize_ofList_of_forall hone).symm
  · rw [String.toList_ofList] at hc
    exact utf8Size_eq_one_iff_toNat.1 (hone c hc)

/-- A token is a place where a text can be wrong. -/
theorem isPlaceIn_of_mem {t : Token} (ht : t ∈ (Scan.ofText text).tokens) :
    t.span.IsPlaceIn text := by
  obtain ⟨before, after, htext, hspan, -⟩ := Scan.exists_of_mem ht
  obtain ⟨-, hlong, hstop⟩ := (Scan.offset_le_span 0 text.toList).2 t ht
  have hstart : t.span.start = byteCount before := by rw [hspan, Nat.zero_add]
  have hle : t.span.start ≤ (Scan.ofText text).ending.span.start :=
    Nat.le_trans (Nat.le_of_lt hlong) hstop
  refine ⟨Or.inl ⟨t, ht, rfl⟩, fun offset c rest hending => ?_, ?_⟩
  · rwa [hending] at hle
  · rw [List.append_assoc] at htext
    rw [hstart] at hle ⊢
    exact exists_ascii_before htext hle

/-- So is the place where reading ends. -/
theorem isPlaceIn_ending (text : String) : (Scan.ofText text).ending.span.IsPlaceIn text := by
  obtain hending | ⟨before, c, after, htext, hending, -⟩ := Scan.ending_ofText_cases text
  · have hstart : (Scan.ofText text).ending.span.start = byteCount text.toList := by
      rw [hending, byteCount_toList]
      rfl
    refine ⟨Or.inr (Or.inl ⟨hending, by rw [hending]; rfl⟩), ?_, ?_⟩
    · intro offset c rest hunreadable
      rw [hending] at hunreadable
      cases hunreadable
    · rw [hstart]
      exact exists_ascii_before (List.append_nil _).symm (Nat.le_of_eq hstart.symm)
  · have hstart : (Scan.ofText text).ending.span.start = byteCount before.toList := by
      rw [hending, byteCount_toList]
      rfl
    refine ⟨Or.inr (Or.inr ⟨before, c, after, htext, hending, ?_⟩), ?_, ?_⟩
    · rw [hending, String.utf8ByteSize_append, String.utf8ByteSize_singleton]
      rfl
    · intro offset d rest hunreadable
      rw [hunreadable]
      exact Nat.le_refl offset
    · have hchars : text.toList = before.toList ++ c :: after.toList := by
        rw [htext, Scan.toList_append_singleton_append]
      rw [hstart]
      exact exists_ascii_before hchars (Nat.le_of_eq hstart.symm)

theorem isPlaceIn_spanFromEnd (text : String) (left : Nat) :
    ((Scan.ofText text).spanFromEnd left).IsPlaceIn text := by
  obtain hspan | ⟨t, ht, hspan⟩ := (Scan.ofText text).spanFromEnd_cases left
  · rw [hspan]
    exact isPlaceIn_ending text
  · rw [hspan]
    exact isPlaceIn_of_mem ht

end Place

/-! ### Counting characters -/

/-- Characters of one byte are counted by bytes. -/
theorem charIndex?_length {before : List Char} (hone : ∀ c ∈ before, c.utf8Size = 1)
    (after : List Char) : charIndex? (before ++ after) before.length = some before.length := by
  induction before with
  | nil =>
      unfold charIndex?
      rfl
  | cons c before ih =>
      obtain ⟨hc, hone⟩ := List.forall_mem_cons.1 hone
      rw [List.cons_append, List.length_cons, charIndex?, hc, if_neg (by omega),
        Nat.add_sub_cancel, ih hone]
      rfl

/-- **The byte at which a text is wrong is the number of characters before it.** -/
theorem Span.IsPlaceIn.charIndex?_start {text : String} {span : Span} (h : span.IsPlaceIn text) :
    charIndex? text.toList span.start = some span.start := by
  obtain ⟨before, after, rfl, -, hlength, hascii⟩ := h.ascii
  have hone : ∀ c ∈ before.toList, c.utf8Size = 1 :=
    fun c hc => utf8Size_eq_one_iff_toNat.2 (hascii c hc)
  rw [String.toList_append, ← hlength, ← String.length_toList]
  exact charIndex?_length hone after.toList

/-! ### The window and the caret -/

/-- A character as the full display shows it: white space is shown as a space. -/
def shownAs (c : Char) : Char := if isWhiteSpace c then ' ' else c

/-- No white space is shown but spaces. -/
theorem eq_space_of_isWhiteSpace_shownAs {c : Char} (h : isWhiteSpace (shownAs c) = true) :
    shownAs c = ' ' := by
  unfold shownAs at h ⊢
  split
  · rfl
  · rename_i hc
    rw [if_neg hc] at h
    exact absurd h hc

/-- **Two lines show a text around a character and point at it.**  Behind a margin of two the first
shows up to 20 characters before the one in question and up to 30 from it on, and in the second a
caret stands below that one. -/
structure PointsAt (cs : List Char) (place : Nat) (shown caret : List Char) : Prop where
  /-- The margin is two spaces wide. -/
  margin : shown.take 2 = [' ', ' ']
  /-- Behind it as much of the text is shown as there is. -/
  length_eq : shown.length = 2 + (min (place + 30) cs.length - (place - 20))
  /-- Every character nearby is shown in its column. -/
  shown_at : ∀ i, place ≤ i + 20 → i < place + 30 →
    shown[2 + (i - (place - 20))]? = cs[i]?.map shownAs
  /-- There is no white space in the line but spaces, and no line end. -/
  spaces : ∀ c ∈ shown, isWhiteSpace c = true → c = ' '
  /-- The caret stands behind spaces. -/
  caret_eq : caret = List.replicate (2 + min place 20) ' ' ++ ['^']
  /-- It is below the character in question. -/
  above : shown[2 + min place 20]? = cs[place]?.map shownAs
  /-- At the end of the text it is one column behind the window. -/
  behind : place = cs.length → shown.length = 2 + min place 20

/-- **The window and the caret line point at their character.** -/
theorem pointsAt_window (cs : List Char) (place : Nat) :
    PointsAt cs place (' ' :: ' ' :: window cs place) (caretLine place) := by
  have hlength : (' ' :: ' ' :: window cs place).length =
      2 + (min (place + 30) cs.length - (place - 20)) := by
    simp only [window, contextBefore, contextAfter, List.length_cons, List.length_map,
      List.length_drop, List.length_take]
    omega
  have hshown (i : Nat) (hfirst : place ≤ i + 20) (hlast : i < place + 30) :
      (' ' :: ' ' :: window cs place)[2 + (i - (place - 20))]? = cs[i]?.map shownAs := by
    have hback : place - 20 + (i - (place - 20)) = i := by omega
    rw [Nat.add_comm 2, List.getElem?_cons_succ, List.getElem?_cons_succ]
    unfold window contextBefore contextAfter
    rw [List.getElem?_map, List.getElem?_drop, hback, List.getElem?_take_of_lt hlast]
    rfl
  have hcolumn : place - (place - 20) = min place 20 := by omega
  refine ⟨rfl, hlength, hshown, fun c hc hspace => ?_, ?_, ?_, fun hend => ?_⟩
  · rcases List.mem_cons.1 hc with rfl | hc
    · rfl
    · rcases List.mem_cons.1 hc with rfl | hc
      · rfl
      · obtain ⟨d, -, rfl⟩ := List.mem_map.1 hc
        exact eq_space_of_isWhiteSpace_shownAs hspace
  · unfold caretLine contextBefore
    rw [hcolumn, Nat.add_comm]
  · rw [← hcolumn]
    exact hshown place (by omega) (by omega)
  · rw [hlength]
    omega

/-- The full display of a malformed text ends with the window and the caret line. -/
theorem rich_malformed_getD (message input : String) (span : Span) :
    let place := (charIndex? input.toList span.start).getD input.toList.length
    (ScheduleError.malformed message span input).rich =
      "error: " ++ message ++ "\n" ++ String.ofList (' ' :: ' ' :: window input.toList place) ++
        "\n" ++ String.ofList (caretLine place) := by
  intro place
  have hmargin : "\n  " = "\n" ++ String.ofList [' ', ' '] := rfl
  have hline : String.ofList (' ' :: ' ' :: window input.toList place) =
      String.ofList [' ', ' '] ++ String.ofList (window input.toList place) := by
    rw [← String.ofList_append]
    rfl
  simp only [ScheduleError.rich, place, hmargin, hline, String.append_assoc]

theorem rich_malformed {message input : String} {span : Span} {place : Nat}
    (h : charIndex? input.toList span.start = some place) :
    (ScheduleError.malformed message span input).rich =
      "error: " ++ message ++ "\n" ++ String.ofList (' ' :: ' ' :: window input.toList place) ++
        "\n" ++ String.ofList (caretLine place) := by
  rw [rich_malformed_getD, h, Option.getD_some]

/-! ### Malformed texts -/

/-- **Every malformed text is shown where it is wrong.**  The error has the text, its place is one
of those where a text can be wrong, as many characters as bytes come before it, and the full display
ends with two lines that point at it. -/
theorem groupsOf_malformed {text message input : String} {span : Span}
    (h : groupsOf text = .error (.malformed message span input)) :
    input = text ∧ span.IsPlaceIn text ∧
      (ScheduleError.malformed message span input).index = charIndex? text.toList span.start ∧
        ∃ shown caret, PointsAt text.toList span.start shown caret ∧
          (ScheduleError.malformed message span input).rich =
            "error: " ++ message ++ "\n" ++ String.ofList shown ++ "\n" ++ String.ofList caret := by
  obtain ⟨fault, -, -, rfl, rfl, rfl⟩ := groupsOf_eq_malformed_iff_read.1 h
  have hplace := isPlaceIn_spanFromEnd input fault.left
  have hindex := hplace.charIndex?_start
  exact ⟨rfl, hplace, hindex.symm, _, _, pointsAt_window _ _, rich_malformed hindex⟩

/-- The interval is at fault.  There is a tab and a line end in the window, and behind the place
there are characters that are no lexemes. -/
theorem groupsOf_malformed_interval :
    let text := "{days(mon..fri)},\n\thours(8..<17)\tdom(!31%0)\nmin(*%7) é — ☃"
    let e : ScheduleError := .malformed "0 is not a valid interval" ⟨41, 42⟩ text
    groupsOf text = .error e ∧ e.rich = "error: 0 is not a valid interval\n" ++
        "  urs(8..<17) dom(!31%0) min(*%7) é — ☃\n" ++ "                      ^" ∧
      Span.IsPlaceIn text ⟨41, 42⟩ ∧ e.index = charIndex? text.toList 41 ∧
        ∃ shown caret, PointsAt text.toList 41 shown caret ∧
          e.rich = "error: " ++ "0 is not a valid interval" ++ "\n" ++ String.ofList shown ++
            "\n" ++ String.ofList caret := by
  intro text e
  have herror : groupsOf text = .error e := by decide +kernel
  exact ⟨herror, by decide +kernel, (groupsOf_malformed herror).2⟩

end Timetable
