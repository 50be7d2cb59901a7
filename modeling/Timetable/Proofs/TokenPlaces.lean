/-
**The tokens of a text account for all of it.**

Reading a text leaves nothing out but blanks.  Every token lies where its span says, spelled as a
lexeme of its sort, and what follows does not go on with it; the tokens come one behind the other;
and what no token covers, up to the place where reading ends, is blank.  That place is the end of
the text, or the first character that is neither blank nor the start of a lexeme.  Asked for one
token after another, a lexer yields these tokens, then the error at that character if there is one,
and from then on nothing.

Spans count bytes, so a place in the text is given by the bytes of all that comes before it.  They
fall between characters, as a text before a place is a text.

Main definitions:

* `Lexeme.StandsBefore`, `StartsLexeme` — a lexeme, or some lexeme, starts a text and may end where
  it does;
* `byteCount` — the bytes of a list of characters;
* `Scan.IsOutside` — no token covers a byte;
* `Scan.AccountsFor` — **what tokens and an ending have to do with their text**.

Main results:

* `lexeme?_eq_some_iff`, `lexeme?_eq_none_iff` — a text is read as the lexeme that it starts with,
  and cannot be read only if it starts with none;
* `Scan.exists_of_mem` — a token lies where its span says;
* `Scan.isBlank_of_isOutside` — what no token covers is blank;
* `Scan.accountsFor_ofText` — **the tokens of a text account for all of it**.
-/

import Mathlib.Data.List.TakeWhile
import Timetable.Proofs.Spelling
import Timetable.Token.Lexer

set_option relaxedAutoImplicit false
set_option autoImplicit false

namespace Timetable

/-! ### The lexeme a text starts with -/

/-- The lexeme is spelled like one of its sort, and what follows does not go on with it. -/
def Lexeme.StandsBefore (rest : List Char) (l : Lexeme) : Prop :=
  l.IsSpellable ∧ l.EndsBefore rest

theorem standsBefore_of_symbol? {cs rest : List Char} {l : Lexeme}
    (h : symbol? cs = some (l, rest)) : l.StandsBefore rest := by
  have htext := (symbol?_eq_some h).1
  cases l with
  | symbol s =>
      refine ⟨trivial, fun hs hlt => ?_⟩
      obtain ⟨ds, rfl⟩ : ∃ ds, rest = '<' :: ds := by
        cases rest with
        | nil => cases hlt
        | cons c ds => exact ⟨ds, by rw [Option.some.inj hlt]⟩
      -- the half-open mark would have been found instead
      have hmark : symbol? (Symbol.rangeHalfOpen.spelling ++ ds) =
          some (.symbol .rangeHalfOpen, ds) := symbol?_spelling nofun
      rw [htext, hs] at h
      have h : symbol? (Symbol.rangeHalfOpen.spelling ++ ds) = _ := h
      rw [hmark] at h
      cases h
  | word letters | integer n =>
      simp only [symbol?, Option.map_eq_some_iff, Prod.mk.injEq] at h
      obtain ⟨s, -, hs, -⟩ := h
      cases hs

theorem standsBefore_of_word? {cs rest : List Char} {l : Lexeme}
    (h : word? cs = some (l, rest)) : l.StandsBefore rest := by
  simp only [word?] at h
  split at h
  · rename_i hword
    cases h
    exact ⟨⟨hword.1, fun _ hc => List.mem_takeWhile_imp hc⟩, hword.2⟩
  · cases h

theorem standsBefore_of_digits? {negative : Bool} {cs rest : List Char} {l : Lexeme}
    (h : digits? negative cs = some (l, rest)) : l.StandsBefore rest := by
  simp only [digits?] at h
  split at h
  · rename_i hdigits
    cases h
    exact ⟨⟨hdigits.1, fun _ hc => List.mem_takeWhile_imp hc⟩, hdigits.2⟩
  · cases h

theorem standsBefore_of_lexeme? {cs rest : List Char} {l : Lexeme}
    (h : lexeme? cs = some (l, rest)) : l.StandsBefore rest := by
  simp only [lexeme?, Option.or_eq_some_iff] at h
  rcases h with h | ⟨-, h | ⟨-, h⟩⟩
  · exact standsBefore_of_symbol? h
  · exact standsBefore_of_word? h
  · unfold numeral? at h
    split at h
    · exact standsBefore_of_digits? h
    · exact standsBefore_of_digits? h

/-- **A text is read as the lexeme that it starts with.** -/
theorem lexeme?_eq_some_iff {cs rest : List Char} {l : Lexeme} :
    lexeme? cs = some (l, rest) ↔ cs = l.spelling ++ rest ∧ l.StandsBefore rest := by
  constructor
  · intro h
    exact ⟨(lexeme?_eq_some h).1, standsBefore_of_lexeme? h⟩
  · rintro ⟨rfl, hspellable, hends⟩
    exact lexeme?_spelling hspellable hends

/-- A text starts with one lexeme at most. -/
theorem Lexeme.StandsBefore.unique {l m : Lexeme} {rest rest' : List Char}
    (hl : l.StandsBefore rest) (hm : m.StandsBefore rest')
    (h : l.spelling ++ rest = m.spelling ++ rest') : l = m := by
  have hread : lexeme? (l.spelling ++ rest) = some (l, rest) := lexeme?_eq_some_iff.2 ⟨rfl, hl⟩
  rw [lexeme?_eq_some_iff.2 ⟨h, hm⟩] at hread
  cases hread
  rfl

/-- The text starts with a lexeme. -/
def StartsLexeme (cs : List Char) : Prop :=
  ∃ (l : Lexeme) (rest : List Char), cs = l.spelling ++ rest ∧ l.StandsBefore rest

theorem lexeme?_eq_none_iff {cs : List Char} : lexeme? cs = none ↔ ¬ StartsLexeme cs := by
  rw [Option.eq_none_iff_forall_ne_some]
  constructor
  · rintro h ⟨l, rest, hl⟩
    exact h (l, rest) (lexeme?_eq_some_iff.2 hl)
  · rintro h ⟨l, rest⟩ hread
    exact h ⟨l, rest, lexeme?_eq_some_iff.1 hread⟩

/-! ### Bytes -/

/-- The number of bytes of some characters. -/
def byteCount (cs : List Char) : Nat := (String.ofList cs).utf8ByteSize

@[simp] theorem byteCount_nil : byteCount [] = 0 := rfl

@[simp] theorem byteCount_append (cs ds : List Char) :
    byteCount (cs ++ ds) = byteCount cs + byteCount ds := by
  rw [byteCount, String.ofList_append, String.utf8ByteSize_append]
  rfl

@[simp] theorem byteCount_cons (c : Char) (cs : List Char) :
    byteCount (c :: cs) = c.utf8Size + byteCount cs := by
  rw [byteCount, String.ofList_cons, String.utf8ByteSize_append, String.utf8ByteSize_singleton]
  rfl

@[simp] theorem byteCount_toList (s : String) : byteCount s.toList = s.utf8ByteSize := by
  rw [byteCount, String.ofList_toList]

theorem utf8ByteSize_ofList_of_forall {cs : List Char} (h : ∀ c ∈ cs, c.utf8Size = 1) :
    (String.ofList cs).utf8ByteSize = cs.length := by
  induction cs with
  | nil => rfl
  | cons c cs ih =>
      have hrest := ih fun d hd => h d (List.mem_cons_of_mem c hd)
      rw [String.ofList_cons, String.utf8ByteSize_append, String.utf8ByteSize_singleton, hrest,
        h c (List.mem_cons_self ..), List.length_cons, Nat.add_comm]

theorem utf8Size_of_isAlphanum {c : Char} (h : c.isAlphanum = true) : c.utf8Size = 1 := by
  unfold Char.isAlphanum Char.isAlpha Char.isUpper Char.isLower Char.isDigit at h
  simp only [Bool.or_eq_true, Bool.and_eq_true, decide_eq_true_eq, UInt32.le_iff_toNat_le,
    ge_iff_le] at h
  rw [Char.utf8Size_eq_one_iff, UInt32.le_iff_toNat_le]
  have hlast : (127 : UInt32).toNat = 127 := rfl
  have hupper : 'Z'.val.toNat = 90 := rfl
  have hlower : 'z'.val.toNat = 122 := rfl
  have hdigit : '9'.val.toNat = 57 := rfl
  omega

/-- Every character of a lexeme is one byte long. -/
theorem Lexeme.utf8Size_of_mem {l : Lexeme} (h : l.IsSpellable) {c : Char} (hc : c ∈ l.spelling) :
    c.utf8Size = 1 := by
  cases l with
  | symbol s =>
      have hall : s.spelling.all (fun c => c.utf8Size = 1) = true := by cases s <;> rfl
      exact of_decide_eq_true (List.all_eq_true.1 hall c hc)
  | word letters =>
      exact utf8Size_of_isAlphanum (by simp [Char.isAlphanum, show c.isAlpha = true from h.2 c hc])
  | integer n =>
      rcases List.mem_append.1 hc with hsign | hdigit
      · split at hsign
        · rw [List.mem_singleton.1 hsign]
          rfl
        · cases hsign
      · exact utf8Size_of_isAlphanum (by simp [Char.isAlphanum, h.2 c hdigit])

theorem byteCount_spelling {l : Lexeme} (h : l.IsSpellable) :
    byteCount l.spelling = l.spelling.length :=
  utf8ByteSize_ofList_of_forall fun _ hc => Lexeme.utf8Size_of_mem h hc

theorem utf8Size_of_isBlank {c : Char} (h : isBlank c = true) : c.utf8Size = 1 := by
  simp only [isBlank, Bool.or_eq_true, decide_eq_true_eq] at h
  rcases h with ((rfl | rfl) | rfl) | rfl <;> rfl

namespace Scan

/-! ### Tokens one behind the other -/

/-- Tokens are not empty and lie between the start of the text and the place where reading ends. -/
theorem offset_le_span (offset : Nat) (cs : List Char) :
    offset ≤ (ofRest offset cs).ending.span.start ∧
      ∀ t ∈ (ofRest offset cs).tokens, offset ≤ t.span.start ∧ t.span.start < t.span.stop ∧
        t.span.stop ≤ (ofRest offset cs).ending.span.start := by
  fun_induction ofRest offset cs with
  | case1 offset => exact ⟨Nat.le_refl _, fun t ht => by cases ht⟩
  | case2 offset c rest hblank ih =>
      obtain ⟨hending, htokens⟩ := ih
      refine ⟨by omega, fun t ht => ?_⟩
      obtain ⟨hstart, hspan⟩ := htokens t ht
      exact ⟨by omega, hspan⟩
  | case3 offset c rest hblank l after hlexeme stop scan ih =>
      obtain ⟨hending, htokens⟩ := ih
      have hlong : 0 < l.spelling.length := List.length_pos_iff.2 (lexeme?_eq_some hlexeme).2
      refine ⟨Nat.le_trans (Nat.le_add_right ..) hending, fun t ht => ?_⟩
      rcases List.mem_cons.1 ht with rfl | ht
      · exact ⟨Nat.le_refl _, Nat.lt_add_of_pos_right hlong, hending⟩
      · obtain ⟨hstart, hspan⟩ := htokens t ht
        exact ⟨by omega, hspan⟩
  | case4 offset c rest hblank hnone => exact ⟨Nat.le_refl _, fun t ht => by cases ht⟩

/-- **A token ends before the next one starts.** -/
theorem pairwise_span (offset : Nat) (cs : List Char) :
    (ofRest offset cs).tokens.Pairwise fun t u => t.span.stop ≤ u.span.start := by
  fun_induction ofRest offset cs with
  | case1 offset => exact List.Pairwise.nil
  | case2 offset c rest hblank ih => exact ih
  | case3 offset c rest hblank l after hlexeme stop scan ih =>
      refine List.Pairwise.cons (fun t ht => ?_) ih
      exact ((offset_le_span stop after).2 t ht).1
  | case4 offset c rest hblank hnone => exact List.Pairwise.nil

/-! ### Tokens at their places -/

/-- **A token lies where its span says**, and what follows does not go on with it. -/
theorem exists_of_mem {offset : Nat} {cs : List Char} {t : Token}
    (h : t ∈ (ofRest offset cs).tokens) :
    ∃ before after, cs = before ++ t.lexeme.spelling ++ after ∧
      t.span = ⟨offset + byteCount before, offset + byteCount (before ++ t.lexeme.spelling)⟩ ∧
        t.lexeme.StandsBefore after := by
  fun_induction ofRest offset cs with
  | case1 offset => cases h
  | case2 offset c rest hblank ih =>
      obtain ⟨before, after, rfl, hspan, hlexeme⟩ := ih h
      refine ⟨c :: before, after, rfl, ?_, hlexeme⟩
      rw [hspan, List.cons_append, byteCount_cons, byteCount_cons, utf8Size_of_isBlank hblank,
        Nat.add_assoc, Nat.add_assoc]
  | case3 offset c rest hblank l after hlexeme stop scan ih =>
      obtain ⟨htext, hstands⟩ := lexeme?_eq_some_iff.1 hlexeme
      have hsize := byteCount_spelling hstands.1
      rcases List.mem_cons.1 h with rfl | h
      · refine ⟨[], after, htext, ?_, hstands⟩
        rw [List.nil_append, byteCount_nil, hsize]
        rfl
      · obtain ⟨before, after, rfl, hspan, hlexeme⟩ := ih h
        refine ⟨l.spelling ++ before, after, ?_, ?_, hlexeme⟩
        · rw [htext]
          simp only [List.append_assoc]
        · rw [hspan, List.append_assoc, byteCount_append l.spelling, byteCount_append l.spelling,
            hsize, ← Nat.add_assoc, ← Nat.add_assoc]
  | case4 offset c rest hblank hnone => cases h

theorem isSpellable_of_mem {offset : Nat} {cs : List Char} {t : Token}
    (h : t ∈ (ofRest offset cs).tokens) : t.lexeme.IsSpellable := by
  obtain ⟨_, _, -, -, hstands⟩ := exists_of_mem h
  exact hstands.1

/-! ### Between the tokens -/

/-- No token covers the byte. -/
def IsOutside (s : Scan) (byte : Nat) : Prop :=
  ∀ t ∈ s.tokens, ¬(t.span.start ≤ byte ∧ byte < t.span.stop)

/-- All tokens end before reading does. -/
theorem isOutside_ending (offset : Nat) (cs : List Char) :
    (ofRest offset cs).IsOutside (ofRest offset cs).ending.span.start := by
  intro t ht hcovers
  have hstop := ((offset_le_span offset cs).2 t ht).2.2
  omega

/-- **What no token covers is blank**, up to the place where reading ends. -/
theorem isBlank_of_isOutside (offset : Nat) (cs : List Char) :
    ∀ before c after, cs = before ++ c :: after →
      (ofRest offset cs).IsOutside (offset + byteCount before) →
        offset + byteCount before < (ofRest offset cs).ending.span.start → isBlank c = true := by
  fun_induction ofRest offset cs with
  | case1 offset => exact fun before c after h => by simp at h
  | case2 offset d rest hblank ih =>
      intro before c after h hout hend
      cases before with
      | nil =>
          obtain ⟨rfl, rfl⟩ := List.cons_eq_cons.1 h
          exact hblank
      | cons e before =>
          obtain ⟨rfl, hrest⟩ := List.cons_eq_cons.1 h
          have hbytes : offset + byteCount (d :: before) = offset + 1 + byteCount before := by
            rw [byteCount_cons, utf8Size_of_isBlank hblank, Nat.add_assoc]
          rw [hbytes] at hout hend
          exact ih before c after hrest hout hend
  | case3 offset d rest hblank l rest' hlexeme stop scan ih =>
      intro before c after h hout hend
      obtain ⟨htext, hstands⟩ := lexeme?_eq_some_iff.1 hlexeme
      have hsize := byteCount_spelling hstands.1
      rw [htext] at h
      rcases List.append_eq_append_iff.1 h with ⟨before', rfl, hrest⟩ | ⟨part, hpart, hrest⟩
      · -- the place is behind the lexeme
        have hbytes : offset + byteCount (l.spelling ++ before') = stop + byteCount before' := by
          rw [byteCount_append, hsize, ← Nat.add_assoc]
        rw [hbytes] at hout hend
        exact ih before' c after hrest (fun t ht => hout t (List.mem_cons_of_mem _ ht)) hend
      · cases part with
        | nil =>
            -- the place is directly behind the lexeme
            rw [List.append_nil] at hpart
            have hbytes : offset + byteCount before = stop + byteCount [] := by
              rw [← hpart, hsize]
              rfl
            rw [hbytes] at hout hend
            exact ih [] c after hrest.symm (fun t ht => hout t (List.mem_cons_of_mem _ ht)) hend
        | cons e part =>
            -- the place is inside the lexeme, which is a token
            have hinside : byteCount before < l.spelling.length := by
              have hpos := e.utf8Size_pos
              rw [← hsize, hpart, byteCount_append, byteCount_cons]
              omega
            exact absurd ⟨Nat.le_add_right .., Nat.add_lt_add_left hinside offset⟩
              (hout _ List.mem_cons_self)
  | case4 offset d rest hblank hnone =>
      exact fun before c after _ _ hend => absurd hend (by dsimp only [Ending.span]; omega)

/-! ### The end of reading -/

/-- **Reading ends at the end of the text or at a character that is neither blank nor the start of a
lexeme.** -/
theorem ending_cases (offset : Nat) (cs : List Char) :
    (ofRest offset cs).ending = .finished (offset + byteCount cs) ∨
      ∃ before c rest, cs = before ++ c :: rest ∧
        (ofRest offset cs).ending = .unreadable (offset + byteCount before) c rest ∧
          isBlank c = false ∧ ¬StartsLexeme (c :: rest) := by
  fun_induction ofRest offset cs with
  | case1 offset => exact Or.inl rfl
  | case2 offset c rest hblank ih =>
      have hbytes (ds : List Char) : offset + 1 + byteCount ds = offset + byteCount (c :: ds) := by
        rw [byteCount_cons, utf8Size_of_isBlank hblank, Nat.add_assoc]
      rcases ih with hending | ⟨before, d, rest', rfl, hending, hstop⟩
      · exact Or.inl (hbytes rest ▸ hending)
      · exact Or.inr ⟨c :: before, d, rest', rfl, hbytes before ▸ hending, hstop⟩
  | case3 offset c rest hblank l after hlexeme stop scan ih =>
      obtain ⟨htext, hstands⟩ := lexeme?_eq_some_iff.1 hlexeme
      have hbytes (ds : List Char) :
          stop + byteCount ds = offset + byteCount (l.spelling ++ ds) := by
        rw [byteCount_append, byteCount_spelling hstands.1, ← Nat.add_assoc]
      rw [htext]
      rcases ih with hending | ⟨before, d, rest', rfl, hending, hstop⟩
      · exact Or.inl (hbytes after ▸ hending)
      · refine Or.inr ⟨l.spelling ++ before, d, rest', ?_, hbytes before ▸ hending, hstop⟩
        rw [List.append_assoc]
  | case4 offset c rest hblank hnone =>
      exact Or.inr ⟨[], c, rest, rfl, rfl, by simpa using hblank, lexeme?_eq_none_iff.1 hnone⟩

/-! ### Texts -/

/-- **What tokens and an ending have to do with their text.** -/
structure AccountsFor (s : Scan) (text : String) : Prop where
  /-- A token ends before the next one starts. -/
  ordered : s.tokens.Pairwise fun t u => t.span.stop ≤ u.span.start
  /-- No token is empty, and all of them end before reading does. -/
  nonempty : ∀ t ∈ s.tokens, t.span.start < t.span.stop ∧ t.span.stop ≤ s.ending.span.start
  /-- A token is the text of its span, is spelled like its sort, what follows does not go on with
  it, and no other lexeme starts there. -/
  placed : ∀ t ∈ s.tokens, ∃ before after : String, text = before ++ t.lexeme.text ++ after ∧
    t.span = ⟨before.utf8ByteSize, (before ++ t.lexeme.text).utf8ByteSize⟩ ∧
      t.lexeme.StandsBefore after.toList ∧
        ∀ (l : Lexeme) (rest : String), t.lexeme.text ++ after = l.text ++ rest →
          l.StandsBefore rest.toList → l = t.lexeme
  /-- What no token covers is blank, up to the place where reading ends. -/
  blank : ∀ (before : String) (c : Char) (after : String),
    text = before ++ String.singleton c ++ after → s.IsOutside before.utf8ByteSize →
      before.utf8ByteSize < s.ending.span.start → isBlank c = true
  /-- Reading ends at the end of the text, or at one character that is not blank and starts no
  lexeme. -/
  ends : s.ending = .finished text.utf8ByteSize ∨ ∃ (before : String) (c : Char) (after : String),
    text = before ++ String.singleton c ++ after ∧
      s.ending = .unreadable before.utf8ByteSize c after.toList ∧
        s.ending.span = ⟨before.utf8ByteSize, (before ++ String.singleton c).utf8ByteSize⟩ ∧
          isBlank c = false ∧ ¬StartsLexeme (c :: after.toList)
  /-- It ends at a character exactly if somewhere outside the tokens there is one that is not blank
  and starts no lexeme. -/
  fails_iff : (∃ offset c rest, s.ending = .unreadable offset c rest) ↔
    ∃ (before : String) (c : Char) (after : String), text = before ++ String.singleton c ++ after ∧
      s.IsOutside before.utf8ByteSize ∧ isBlank c = false ∧ ¬StartsLexeme (c :: after.toList)
  /-- A lexer yields the tokens, then the error at that character if there is one, and from then on
  nothing, however often it is asked. -/
  yielded : ∀ n, (Lexer.ofText text).answer n = (s.answers text)[n]?

theorem toList_append_singleton_append (before after : String) (c : Char) :
    (before ++ String.singleton c ++ after).toList = before.toList ++ c :: after.toList := by
  simp

theorem eq_append_of_toList {text : String} {before part after : List Char}
    (h : text.toList = before ++ part ++ after) :
    text = String.ofList before ++ String.ofList part ++ String.ofList after := by
  rw [← String.ofList_append, ← String.ofList_append, ← h, String.ofList_toList]

theorem isBlank_ofText_of_isOutside {text before after : String} {c : Char}
    (h : text = before ++ String.singleton c ++ after)
    (hout : (ofText text).IsOutside before.utf8ByteSize)
    (hend : before.utf8ByteSize < (ofText text).ending.span.start) : isBlank c = true := by
  refine isBlank_of_isOutside 0 text.toList before.toList c after.toList ?_ ?_ ?_
  · rw [h, toList_append_singleton_append]
  · rwa [Nat.zero_add, byteCount_toList]
  · rwa [Nat.zero_add, byteCount_toList]

/-- Reading a text ends at its last byte, or at a character that is neither blank nor the start of a
lexeme. -/
theorem ending_ofText_cases (text : String) :
    (ofText text).ending = .finished text.utf8ByteSize ∨
      ∃ (before : String) (c : Char) (after : String),
        text = before ++ String.singleton c ++ after ∧
          (ofText text).ending = .unreadable before.utf8ByteSize c after.toList ∧
            isBlank c = false ∧ ¬StartsLexeme (c :: after.toList) := by
  rcases ending_cases 0 text.toList with hending | ⟨before, c, rest, htext, hending, hstop⟩
  · rw [Nat.zero_add, byteCount_toList] at hending
    exact Or.inl hending
  · refine Or.inr ⟨String.ofList before, c, String.ofList rest, ?_, ?_, ?_⟩
    · rw [String.singleton_eq_ofList]
      exact eq_append_of_toList (htext.trans (List.append_cons before c rest))
    · rw [Nat.zero_add] at hending
      rw [String.toList_ofList]
      exact hending
    · rwa [String.toList_ofList]

/-- **The tokens of a text account for all of it.**  They lie one behind the other where their spans
say, each is spelled like its sort and cannot be made longer, all else is blank up to the place
where reading ends, and that is the end of the text or the first character outside the tokens that
is not blank and starts no lexeme.  A lexer yields them one after the other, with the error behind
them, and then nothing. -/
theorem accountsFor_ofText (text : String) : (ofText text).AccountsFor text where
  ordered := pairwise_span 0 text.toList
  nonempty t ht := ((offset_le_span 0 text.toList).2 t ht).2
  placed t ht := by
    obtain ⟨before, after, htext, hspan, hstands⟩ := exists_of_mem ht
    refine ⟨String.ofList before, String.ofList after, eq_append_of_toList htext, ?_, ?_,
      fun l rest hsame hstands' => ?_⟩
    · rw [hspan, Nat.zero_add, Nat.zero_add, byteCount, byteCount, String.ofList_append]
      rfl
    · rwa [String.toList_ofList]
    · have hsame : t.lexeme.spelling ++ after = l.spelling ++ rest.toList := by
        simpa [Lexeme.text] using congrArg String.toList hsame
      exact hstands'.unique hstands hsame.symm
  blank _ _ _ := isBlank_ofText_of_isOutside
  ends := by
    rcases ending_ofText_cases text with hending | ⟨before, c, after, htext, hending, hstop⟩
    · exact Or.inl hending
    · refine Or.inr ⟨before, c, after, htext, hending, ?_, hstop⟩
      rw [hending, String.utf8ByteSize_append, String.utf8ByteSize_singleton]
      rfl
  fails_iff := by
    constructor
    · rintro ⟨offset, c, rest, hunreadable⟩
      rcases ending_ofText_cases text with hending | ⟨before, d, after, htext, hending, hstop⟩
      · rw [hending] at hunreadable
        cases hunreadable
      · have hstart : (ofText text).ending.span.start = before.utf8ByteSize := by rw [hending]; rfl
        exact ⟨before, d, after, htext, hstart ▸ isOutside_ending 0 text.toList, hstop⟩
    · rintro ⟨before, c, after, htext, hout, hblank, -⟩
      rcases ending_ofText_cases text with hending | ⟨before', d, after', -, hending, -⟩
      · -- reading comes to the end, so what no token covers is blank
        have hinside : before.utf8ByteSize < (ofText text).ending.span.start := by
          have hpos := c.utf8Size_pos
          rw [hending, htext, String.utf8ByteSize_append, String.utf8ByteSize_append,
            String.utf8ByteSize_singleton]
          dsimp only [Ending.span]
          omega
        rw [isBlank_ofText_of_isOutside htext hout hinside] at hblank
        cases hblank
      · exact ⟨_, _, _, hending⟩
  yielded := Lexer.answer_ofText text

end Scan

end Timetable
