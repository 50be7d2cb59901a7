/-
**Reading a text as tokens.**

At each place that is not blank a symbol is tried first, the longer one where one begins with the
other, then a word, then a number.  A word or a number counts only if no letter, digit or underscore
follows it; if one does there is no token at all at that place, not a shorter one.  Reading stops at
the first character where no token starts.

Main definitions:

* `endsWord` — what may follow a word or a number;
* `symbol?`, `word?`, `numeral?`, `lexeme?` — the lexeme a text starts with, and what follows it;
* `Ending`, `Scan` — how a text ends, and its tokens with that ending;
* `Scan.ofText` — **the tokens of a text**.

Main results:

* `lexeme?_eq_some` — a text is the spelling of its first lexeme and the rest, and the spelling is
  not empty, so that reading ends;
* `Scan.ofRest_blank`, `Scan.ofRest_lexeme`, `Scan.ofRest_unreadable` — the three steps of reading.
-/

import Timetable.Text.Alphanumeric
import Timetable.Text.Blank
import Timetable.Token

set_option relaxedAutoImplicit false
set_option autoImplicit false

namespace Timetable

/-! ### The first lexeme of a text -/

/-- A letter from A to Z, in either case. -/
def isLetter (c : Char) : Bool := c.isAlpha

/-- A word or a number may end before this text. -/
def endsWord : List Char → Bool
  | [] => true
  | c :: _ => !(isAlphanumeric c || c = '_')

/-- The symbol a text starts with. -/
def symbol? (cs : List Char) : Option (Lexeme × List Char) :=
  (Symbol.all.find? fun s => s.spelling.isPrefixOf cs).map fun s =>
    (.symbol s, cs.drop s.spelling.length)

/-- The word a text starts with. -/
def word? (cs : List Char) : Option (Lexeme × List Char) :=
  let letters := cs.takeWhile isLetter
  let rest := cs.dropWhile isLetter
  if letters ≠ [] ∧ endsWord rest then some (.word letters, rest) else none

/-- The number a text starts with, its sign already taken off. -/
def digits? (negative : Bool) (cs : List Char) : Option (Lexeme × List Char) :=
  let digits := cs.takeWhile Char.isDigit
  let rest := cs.dropWhile Char.isDigit
  if digits ≠ [] ∧ endsWord rest then some (.integer ⟨negative, digits⟩, rest) else none

/-- The number a text starts with. -/
def numeral? : List Char → Option (Lexeme × List Char)
  | '-' :: cs => digits? true cs
  | cs => digits? false cs

/-- The lexeme a text starts with, and what follows it. -/
def lexeme? (cs : List Char) : Option (Lexeme × List Char) :=
  (symbol? cs).or ((word? cs).or (numeral? cs))

theorem symbol?_eq_some {cs rest : List Char} {l : Lexeme} (h : symbol? cs = some (l, rest)) :
    cs = l.spelling ++ rest ∧ l.spelling ≠ [] := by
  simp only [symbol?, Option.map_eq_some_iff, Prod.mk.injEq] at h
  obtain ⟨s, hs, rfl, rfl⟩ := h
  have hp : s.spelling.isPrefixOf cs = true :=
    List.find?_some (p := fun s : Symbol => s.spelling.isPrefixOf cs) hs
  have hp := List.isPrefixOf_iff_prefix.1 hp
  exact ⟨(List.prefix_iff_eq_append.1 hp).symm, s.spelling_ne_nil⟩

theorem word?_eq_some {cs rest : List Char} {l : Lexeme} (h : word? cs = some (l, rest)) :
    cs = l.spelling ++ rest ∧ l.spelling ≠ [] := by
  simp only [word?] at h
  split at h
  · rename_i hl
    simp only [Option.some.injEq, Prod.mk.injEq] at h
    obtain ⟨rfl, rfl⟩ := h
    exact ⟨(List.takeWhile_append_dropWhile ..).symm, hl.1⟩
  · cases h

theorem digits?_eq_some {negative : Bool} {cs rest : List Char} {l : Lexeme}
    (h : digits? negative cs = some (l, rest)) :
    (if negative then ['-'] else []) ++ cs = l.spelling ++ rest ∧ l.spelling ≠ [] := by
  simp only [digits?] at h
  split at h
  · rename_i hl
    simp only [Option.some.injEq, Prod.mk.injEq] at h
    obtain ⟨rfl, rfl⟩ := h
    simp only [Lexeme.spelling, Numeral.spelling, List.append_assoc,
      List.takeWhile_append_dropWhile, ne_eq, List.append_eq_nil_iff, not_and]
    exact ⟨trivial, fun _ => hl.1⟩
  · cases h

theorem numeral?_eq_some {cs rest : List Char} {l : Lexeme} (h : numeral? cs = some (l, rest)) :
    cs = l.spelling ++ rest ∧ l.spelling ≠ [] := by
  unfold numeral? at h
  split at h
  · simpa using digits?_eq_some h
  · simpa using digits?_eq_some h

/-- A text is the spelling of its first lexeme, which is not empty, and what follows. -/
theorem lexeme?_eq_some {cs rest : List Char} {l : Lexeme} (h : lexeme? cs = some (l, rest)) :
    cs = l.spelling ++ rest ∧ l.spelling ≠ [] := by
  simp only [lexeme?, Option.or_eq_some_iff] at h
  rcases h with h | ⟨-, h | ⟨-, h⟩⟩
  · exact symbol?_eq_some h
  · exact word?_eq_some h
  · exact numeral?_eq_some h

theorem length_lt_of_lexeme? {cs rest : List Char} {l : Lexeme}
    (h : lexeme? cs = some (l, rest)) : rest.length < cs.length := by
  obtain ⟨rfl, hne⟩ := lexeme?_eq_some h
  have := List.length_pos_iff.2 hne
  simp only [List.length_append]
  omega

/-! ### The tokens of a text -/

/-- How reading a text ends: at its last byte, or at a character where no token starts. -/
inductive Ending
  | finished (offset : Nat)
  | unreadable (offset : Nat) (c : Char) (rest : List Char)
  deriving DecidableEq

/-- The place where reading ends: the empty span behind the text, or the unreadable character. -/
def Ending.span : Ending → Span
  | finished offset => ⟨offset, offset⟩
  | unreadable offset c _ => ⟨offset, offset + c.utf8Size⟩

/-- What is left of the text where reading stops before its end. -/
def Ending.unread? : Ending → Option (List Char)
  | finished _ => none
  | unreadable _ c rest => some (c :: rest)

/-- The tokens of a text, and how reading it ends. -/
structure Scan where
  tokens : List Token
  ending : Ending

namespace Scan

/-- The tokens of the rest of a text that starts at an offset. -/
def ofRest (offset : Nat) (cs : List Char) : Scan :=
  match cs with
  | [] => ⟨[], .finished offset⟩
  | c :: rest =>
    if isBlank c then ofRest (offset + 1) rest
    else
      match _ : lexeme? (c :: rest) with
      | some (l, after) =>
        let stop := offset + l.spelling.length
        let scan := ofRest stop after
        ⟨⟨l, ⟨offset, stop⟩⟩ :: scan.tokens, scan.ending⟩
      | none => ⟨[], .unreadable offset c rest⟩
termination_by cs.length
decreasing_by
  · simp
  · exact length_lt_of_lexeme? ‹_›

@[simp] theorem ofRest_nil (offset : Nat) : ofRest offset [] = ⟨[], .finished offset⟩ := by
  rw [ofRest]

theorem ofRest_blank {offset : Nat} {c : Char} {rest : List Char} (h : isBlank c = true) :
    ofRest offset (c :: rest) = ofRest (offset + 1) rest := by
  rw [ofRest, if_pos h]

theorem ofRest_lexeme {offset : Nat} {c : Char} {rest after : List Char} {l : Lexeme}
    (hc : isBlank c = false) (h : lexeme? (c :: rest) = some (l, after)) :
    ofRest offset (c :: rest) =
      ⟨⟨l, ⟨offset, offset + l.spelling.length⟩⟩ ::
          (ofRest (offset + l.spelling.length) after).tokens,
        (ofRest (offset + l.spelling.length) after).ending⟩ := by
  rw [ofRest, if_neg (by simp [hc])]
  split
  · rename_i h'
    rw [h] at h'
    cases h'
    rfl
  · rename_i h'
    rw [h] at h'
    cases h'

theorem ofRest_unreadable {offset : Nat} {c : Char} {rest : List Char}
    (hc : isBlank c = false) (h : lexeme? (c :: rest) = none) :
    ofRest offset (c :: rest) = ⟨[], .unreadable offset c rest⟩ := by
  rw [ofRest, if_neg (by simp [hc])]
  split
  · rename_i h'
    rw [h] at h'
    cases h'
  · rfl

/-- **The tokens of a text.** -/
def ofText (text : String) : Scan := ofRest 0 text.toList

/-- The lexemes of the tokens. -/
def lexemes (s : Scan) : List Lexeme := s.tokens.map Token.lexeme

/-- The place of a token given by how many tokens there are from it on; no tokens from it on is the
place where reading ends. -/
def spanFromEnd (s : Scan) (left : Nat) : Span :=
  if left = 0 then s.ending.span
  else ((s.tokens[s.tokens.length - left]?).map Token.span).getD s.ending.span

end Scan

end Timetable
