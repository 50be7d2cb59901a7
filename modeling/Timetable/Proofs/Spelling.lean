/-
**Lexemes written out are read back.**

A lexeme is read back from its spelling if what follows does not go on with it: behind a word or a
number the text ends or goes on with something that is no letter, digit or underscore, and behind
two dots it does not go on with the mark that makes them half-open.

Written out one behind the other, lexemes are therefore read back if of each two neighbours one is a
symbol.  Such lists are closed under joining them with a symbol between, which is how larger texts
are put together from smaller ones.

Main definitions:

* `Lexeme.IsSpellable` — words have letters and numbers have digits;
* `Lexeme.EndsBefore` — what follows does not go on with the lexeme;
* `Readable` — spellable lexemes with a symbol among each two neighbours.

Main results:

* `lexeme?_spelling` — **a lexeme is read back from its spelling**;
* `Readable.join` — readable lists stay readable with a symbol between them;
* `Scan.ofRest_spell`, `Scan.ofText_spell` — **readable lexemes are read back from their text**,
  which is read to its end.
-/

import Mathlib.Data.List.Chain
import Timetable.Token.Scan

set_option relaxedAutoImplicit false
set_option autoImplicit false

namespace Timetable

/-! ### First characters -/

/-- The characters that symbols start with. -/
def Symbol.initials : List Char := Symbol.all.filterMap fun s => s.spelling.head?

theorem Symbol.exists_initial (s : Symbol) :
    ∃ c cs, s.spelling = c :: cs ∧ c ∈ Symbol.initials := by
  obtain ⟨c, cs, h⟩ := List.exists_cons_of_ne_nil s.spelling_ne_nil
  refine ⟨c, cs, h, List.mem_filterMap.2 ⟨s, s.mem_all, ?_⟩⟩
  rw [h, List.head?_cons]

/-- No symbol starts with a character that a word or a number contains, and none with a blank or
with the last character of the half-open mark. -/
theorem Symbol.initials_spec : ∀ c ∈ Symbol.initials,
    endsWord [c] = true ∧ isLetter c = false ∧ c.isDigit = false ∧ isBlank c = false ∧
      c ≠ '-' ∧ c ≠ '<' := by
  intro c hc
  obtain ⟨s, -, hs⟩ := List.mem_filterMap.1 hc
  cases s <;> cases hs <;> decide

theorem isBlank_of_isAlphanum {c : Char} (h : c.isAlphanum = true) : isBlank c = false := by
  rw [← Bool.not_eq_true]
  intro hblank
  simp only [isBlank, Bool.or_eq_true, decide_eq_true_eq] at hblank
  rcases hblank with ((rfl | rfl) | rfl) | rfl <;> exact absurd h (by decide)

/-- A word or a number that may end here has no letter or digit behind it. -/
theorem takeWhile_eq_nil_of_endsWord {p : Char → Bool} (hp : ∀ c, p c = true → c.isAlphanum = true)
    {rest : List Char} (h : endsWord rest = true) :
    rest.takeWhile p = [] ∧ rest.dropWhile p = rest := by
  cases rest with
  | nil => exact ⟨rfl, rfl⟩
  | cons c cs =>
      have hc : p c = false := by
        rw [← Bool.not_eq_true]
        intro hpc
        rw [endsWord, isAlphanumeric_of_isAlphanum (hp c hpc)] at h
        exact absurd h (by simp)
      rw [List.takeWhile_cons_of_neg (by simp [hc]), List.dropWhile_cons_of_neg (by simp [hc])]
      exact ⟨rfl, rfl⟩

/-! ### One lexeme -/

/-- The spelling of the lexeme is that of a lexeme of its sort. -/
def Lexeme.IsSpellable : Lexeme → Prop
  | .symbol _ => True
  | .word letters => letters ≠ [] ∧ ∀ c ∈ letters, isLetter c = true
  | .integer n => n.digits ≠ [] ∧ ∀ c ∈ n.digits, c.isDigit = true

/-- What follows does not go on with the lexeme. -/
def Lexeme.EndsBefore (rest : List Char) : Lexeme → Prop
  | .symbol s => s = .rangeInclusive → rest.head? ≠ some '<'
  | .word _ | .integer _ => endsWord rest = true

theorem symbol?_eq_none {c : Char} (h : c ∉ Symbol.initials) (cs : List Char) :
    symbol? (c :: cs) = none := by
  rw [symbol?, Option.map_eq_none_iff, List.find?_eq_none]
  intro s _ hspells
  obtain ⟨c', cs', hspelling, hc'⟩ := s.exists_initial
  rw [hspelling, List.isPrefixOf_iff_prefix, List.cons_prefix_cons] at hspells
  rw [hspells.1] at hc'
  exact h hc'

theorem symbol?_spelling {s : Symbol} {rest : List Char}
    (h : (Lexeme.symbol s).EndsBefore rest) :
    symbol? (s.spelling ++ rest) = some (.symbol s, rest) := by
  cases s with
  | rangeInclusive =>
      cases rest with
      | nil => rfl
      | cons c cs =>
          -- the half-open mark is tried before, and matches only if its last character follows
          have hc : c ≠ '<' := fun heq => h rfl (congrArg some heq)
          simp [symbol?, Symbol.all, Symbol.spelling, List.find?, hc.symm]
  | _ => rfl

theorem word?_spelling {letters rest : List Char} (h : (Lexeme.word letters).IsSpellable)
    (hrest : endsWord rest = true) : word? (letters ++ rest) = some (.word letters, rest) := by
  obtain ⟨hne, hletters⟩ := h
  obtain ⟨htake, hdrop⟩ := takeWhile_eq_nil_of_endsWord (p := isLetter)
    (fun c hc => by simp [Char.isAlphanum, show c.isAlpha = true from hc]) hrest
  rw [word?, List.takeWhile_append_of_pos hletters, List.dropWhile_append_of_pos hletters, htake,
    hdrop, List.append_nil]
  exact if_pos ⟨hne, hrest⟩

theorem digits?_spelling {n : Numeral} {rest : List Char} (h : (Lexeme.integer n).IsSpellable)
    (hrest : endsWord rest = true) :
    digits? n.negative (n.digits ++ rest) = some (.integer n, rest) := by
  obtain ⟨hne, hdigits⟩ := h
  obtain ⟨htake, hdrop⟩ := takeWhile_eq_nil_of_endsWord (p := Char.isDigit)
    (fun c hc => by simp [Char.isAlphanum, hc]) hrest
  rw [digits?, List.takeWhile_append_of_pos hdigits, List.dropWhile_append_of_pos hdigits, htake,
    hdrop, List.append_nil]
  exact if_pos ⟨hne, hrest⟩

/-- A character that is no letter starts no word. -/
theorem word?_eq_none {c : Char} (h : isLetter c = false) (cs : List Char) :
    word? (c :: cs) = none := by
  rw [word?, List.takeWhile_cons_of_neg (by simp [h])]
  exact if_neg fun hne => hne.1 rfl

theorem isLetter_of_isDigit {c : Char} (h : c.isDigit = true) : isLetter c = false := by
  rw [← Bool.not_eq_true]
  intro hletter
  have hletter : (decide (c.val ≥ 65 ∧ c.val ≤ 90) ||
      (decide (c.val ≥ 97) && decide (c.val ≤ 122))) = true := hletter
  simp only [Bool.or_eq_true, Bool.and_eq_true, decide_eq_true_eq, ge_iff_le,
    UInt32.le_iff_toNat_le, UInt32.reduceToNat] at hletter
  have hdigit : c.val.toNat ≤ 57 := (Char.isDigit_iff_toNat.1 h).2
  omega

/-- A number starts with its sign or with a digit. -/
theorem Numeral.exists_first {n : Numeral} (h : (Lexeme.integer n).IsSpellable) :
    ∃ c cs, n.spelling = c :: cs ∧ (c = '-' ∨ c.isDigit = true) := by
  obtain ⟨c, cs, hcs⟩ := List.exists_cons_of_ne_nil h.1
  rw [spelling]
  cases n.negative with
  | true => exact ⟨'-', n.digits, rfl, Or.inl rfl⟩
  | false => exact ⟨c, cs, hcs, Or.inr (h.2 c (hcs ▸ List.mem_cons_self ..))⟩

theorem numeral?_spelling {n : Numeral} {rest : List Char} (h : (Lexeme.integer n).IsSpellable)
    (hrest : endsWord rest = true) : numeral? (n.spelling ++ rest) = some (.integer n, rest) := by
  have hread := digits?_spelling h hrest
  rw [Numeral.spelling]
  cases hn : n.negative with
  | true =>
      rw [hn] at hread
      exact hread
  | false =>
      rw [hn] at hread
      obtain ⟨c, cs, hcs⟩ := List.exists_cons_of_ne_nil h.1
      have hc : c.isDigit = true := h.2 c (hcs ▸ List.mem_cons_self ..)
      rw [hcs] at hread ⊢
      refine Eq.trans ?_ hread
      -- a digit is no sign, so nothing is taken off
      unfold numeral?
      split
      · rename_i heq
        cases heq
        exact absurd hc (by decide)
      · rfl

/-- **A lexeme is read back from its spelling**, unless what follows goes on with it. -/
theorem lexeme?_spelling {l : Lexeme} (h : l.IsSpellable) {rest : List Char}
    (hrest : l.EndsBefore rest) : lexeme? (l.spelling ++ rest) = some (l, rest) := by
  unfold lexeme?
  cases l with
  | symbol s => rw [Lexeme.spelling, symbol?_spelling hrest, Option.some_or]
  | word letters =>
      obtain ⟨c, cs, rfl⟩ := List.exists_cons_of_ne_nil h.1
      have hc : c ∉ Symbol.initials := by
        intro hmem
        have hletter := h.2 c (List.mem_cons_self ..)
        rw [(Symbol.initials_spec c hmem).2.1] at hletter
        exact Bool.false_ne_true hletter
      rw [Lexeme.spelling, word?_spelling h hrest, List.cons_append, symbol?_eq_none hc,
        Option.none_or, Option.some_or]
  | integer n =>
      obtain ⟨c, cs, hcs, hfirst⟩ := Numeral.exists_first h
      have hc : c ∉ Symbol.initials := by
        intro hmem
        obtain ⟨-, -, hdigit, -, hminus, -⟩ := Symbol.initials_spec c hmem
        rcases hfirst with rfl | hfirst
        · exact hminus rfl
        · exact Bool.false_ne_true (hdigit.symm.trans hfirst)
      have hletter : isLetter c = false := by
        rcases hfirst with rfl | hfirst
        · decide
        · exact isLetter_of_isDigit hfirst
      rw [Lexeme.spelling, numeral?_spelling h hrest, hcs, List.cons_append, symbol?_eq_none hc,
        word?_eq_none hletter, Option.none_or, Option.none_or]

/-- No lexeme starts with a blank or with the last character of the half-open mark. -/
theorem Lexeme.exists_first {l : Lexeme} (h : l.IsSpellable) :
    ∃ c cs, l.spelling = c :: cs ∧ isBlank c = false ∧ c ≠ '<' := by
  cases l with
  | symbol s =>
      obtain ⟨c, cs, hcs, hc⟩ := s.exists_initial
      obtain ⟨-, -, -, hblank, -, hlt⟩ := Symbol.initials_spec c hc
      exact ⟨c, cs, hcs, hblank, hlt⟩
  | word letters =>
      obtain ⟨c, cs, rfl⟩ := List.exists_cons_of_ne_nil h.1
      have hc : c.isAlpha = true := h.2 c (List.mem_cons_self ..)
      refine ⟨c, cs, rfl, isBlank_of_isAlphanum (by simp [Char.isAlphanum, hc]), ?_⟩
      rintro rfl
      exact absurd hc (by decide)
  | integer n =>
      obtain ⟨c, cs, hcs, rfl | hc⟩ := Numeral.exists_first h
      · exact ⟨'-', cs, hcs, by decide, by decide⟩
      · refine ⟨c, cs, hcs, isBlank_of_isAlphanum (by simp [Char.isAlphanum, hc]), ?_⟩
        rintro rfl
        exact absurd hc (by decide)

/-! ### Lists of lexemes -/

/-- The lexeme is a symbol. -/
def Lexeme.IsSymbol (l : Lexeme) : Prop := ∃ s, l = .symbol s

/-- The lexemes are spellable and one of each two neighbours is a symbol. -/
def Readable (ls : List Lexeme) : Prop :=
  (∀ l ∈ ls, l.IsSpellable) ∧ ls.IsChain fun l m => l.IsSymbol ∨ m.IsSymbol

namespace Readable

theorem nil : Readable [] := ⟨nofun, List.IsChain.nil⟩

theorem singleton {l : Lexeme} (h : l.IsSpellable) : Readable [l] :=
  ⟨fun _ hm => List.mem_singleton.1 hm ▸ h, List.IsChain.singleton l⟩

/-- **Readable lists can be joined with a symbol between them.** -/
theorem join {ls ms : List Lexeme} (hls : Readable ls) (s : Symbol) (hms : Readable ms) :
    Readable (ls ++ .symbol s :: ms) := by
  constructor
  · intro l hl
    rcases List.mem_append.1 hl with hl | hl
    · exact hls.1 l hl
    · rcases List.mem_cons.1 hl with rfl | hl
      · trivial
      · exact hms.1 l hl
  · refine List.isChain_append.2 ⟨hls.2, List.isChain_cons.2 ⟨?_, hms.2⟩, ?_⟩
    · exact fun _ _ => Or.inl ⟨s, rfl⟩
    · intro l _ m hm
      cases hm
      exact Or.inr ⟨s, rfl⟩

theorem symbol_cons (s : Symbol) {ls : List Lexeme} (h : Readable ls) :
    Readable (.symbol s :: ls) :=
  join nil s h

theorem append_symbol {ls : List Lexeme} (h : Readable ls) (s : Symbol) :
    Readable (ls ++ [.symbol s]) :=
  join h s nil

theorem tail {l : Lexeme} {ls : List Lexeme} (h : Readable (l :: ls)) : Readable ls :=
  ⟨fun m hm => h.1 m (List.mem_cons_of_mem l hm), h.2.tail⟩

end Readable

/-! ### Texts of lexemes -/

namespace Scan

/-- Reading a text that starts with the spelling of a lexeme yields the lexeme and goes on behind
it. -/
theorem ofRest_spelling {l : Lexeme} (h : l.IsSpellable) {rest : List Char}
    (hrest : l.EndsBefore rest) (offset : Nat) :
    ∃ next token, token.lexeme = l ∧ ofRest offset (l.spelling ++ rest) =
      ⟨token :: (ofRest next rest).tokens, (ofRest next rest).ending⟩ := by
  have hlexeme := lexeme?_spelling h hrest
  obtain ⟨c, cs, hcs, hblank, -⟩ := Lexeme.exists_first h
  rw [hcs, List.cons_append] at hlexeme ⊢
  exact ⟨_, ⟨l, _⟩, rfl, ofRest_lexeme hblank hlexeme⟩

end Scan

theorem spell_cons (l : Lexeme) (ls : List Lexeme) :
    spell (l :: ls) = (if l = .symbol .comma then [',', ' '] else l.spelling) ++ spell ls :=
  List.flatMap_cons

/-- The text of readable lexemes does not start with the last character of the half-open mark. -/
theorem Readable.head?_spell_ne {ls : List Lexeme} (h : Readable ls) :
    (spell ls).head? ≠ some '<' := by
  cases ls with
  | nil => exact nofun
  | cons l ls =>
      obtain ⟨c, cs, hcs, -, hc⟩ := Lexeme.exists_first (h.1 l (List.mem_cons_self ..))
      rw [spell_cons]
      split
      · exact nofun
      · rw [hcs]
        exact fun heq => hc (Option.some.inj heq)

/-- A word or a number may end in front of the text of lexemes that start with a symbol. -/
theorem endsWord_spell {ls : List Lexeme} (h : ∀ l ∈ ls.head?, l.IsSymbol) :
    endsWord (spell ls) = true := by
  cases ls with
  | nil => rfl
  | cons l ls =>
      obtain ⟨s, rfl⟩ := h l rfl
      obtain ⟨c, cs, hcs, hc⟩ := s.exists_initial
      rw [spell_cons]
      split
      · exact (Symbol.initials_spec ',' (by decide)).1
      · rw [Lexeme.spelling, hcs]
        exact (Symbol.initials_spec c hc).1

/-- What follows in the text of readable lexemes does not go on with the first of them. -/
theorem Readable.endsBefore {l : Lexeme} {ls : List Lexeme} (h : Readable (l :: ls)) :
    l.EndsBefore (spell ls) := by
  have hnext := (List.isChain_cons.1 h.2).1
  cases l with
  | symbol s => exact fun _ => h.tail.head?_spell_ne
  | word letters =>
      refine endsWord_spell fun m hm => (hnext m hm).resolve_left ?_
      rintro ⟨s, hs⟩
      cases hs
  | integer n =>
      refine endsWord_spell fun m hm => (hnext m hm).resolve_left ?_
      rintro ⟨s, hs⟩
      cases hs

namespace Scan

/-- **Readable lexemes are read back from their text**, and nothing of it is left unread. -/
theorem ofRest_spell {ls : List Lexeme} (h : Readable ls) (offset : Nat) :
    (ofRest offset (spell ls)).lexemes = ls ∧
      (ofRest offset (spell ls)).ending.unread? = none := by
  induction ls generalizing offset with
  | nil =>
      rw [spell_nil, ofRest_nil]
      exact ⟨rfl, rfl⟩
  | cons l ls ih =>
      have hspellable := h.1 l (List.mem_cons_self ..)
      rw [spell_cons]
      by_cases hcomma : l = .symbol .comma
      · -- the space behind a comma is skipped
        subst hcomma
        have hspace : (Lexeme.symbol .comma).EndsBefore (' ' :: spell ls) := nofun
        obtain ⟨next, token, htoken, hread⟩ := ofRest_spelling hspellable hspace offset
        rw [ofRest_blank (by decide)] at hread
        obtain ⟨hlexemes, hending⟩ := ih h.tail (next + 1)
        refine ⟨?_, ?_⟩
        · exact (congrArg lexemes hread).trans (congrArg₂ List.cons htoken hlexemes)
        · exact (congrArg (·.ending.unread?) hread).trans hending
      · obtain ⟨next, token, htoken, hread⟩ := ofRest_spelling hspellable h.endsBefore offset
        obtain ⟨hlexemes, hending⟩ := ih h.tail next
        rw [if_neg hcomma, hread]
        exact ⟨congrArg₂ List.cons htoken hlexemes, hending⟩

theorem ofText_spell {ls : List Lexeme} (h : Readable ls) :
    (ofText (String.ofList (spell ls))).lexemes = ls ∧
      (ofText (String.ofList (spell ls))).ending.unread? = none := by
  rw [ofText, String.toList_ofList]
  exact ofRest_spell h 0

end Scan

end Timetable
