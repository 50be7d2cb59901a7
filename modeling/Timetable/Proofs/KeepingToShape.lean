/-
**Reading keeps to the shape of a schedule.**

A reader looks at one lexeme and takes it or leaves it.  That this loses nothing is said of what may
still come.  Before a reader the rest of a text ought to be a word of some language, and behind it a
word of another, and the lexemes taken lead from the one to the other: they may be put in front of
the words of the second, and no other words that start like the rest are left over.  A reader that
meets a lexeme it does not expect stands where no word of the language goes on like that, while some
words go on with each of the sorts of lexeme that it names.

Both are kept when one reader goes on where another has led, so they are shown of each reader with
any words behind it, as long as these do not start like more of the same thing.

Main definitions:

* `Fillable` — the language has a word whose lexemes can be written;
* `LeadsTo` — what has been taken leads from one language to another;
* `Misfit` — **no word goes on like the text, and some go on as was expected**;
* `KeepsTo` — the outcome of reading keeps to a language.

Main results:

* `KeepsTo.bind`, `KeepsTo.take`, `KeepsTo.unexpectedAt`, `KeepsTo.narrow` — the steps of a reader;
* `keepsTo_readDate`, `keepsTo_readDialValue` — values keep to their shape;
* `keepsTo_readArgument` — arguments do.
-/

import Timetable.Proofs.Faults
import Timetable.Proofs.ReaderLanguage
import Timetable.Proofs.RoundTrip
import Timetable.Proofs.Shape

set_option relaxedAutoImplicit false
set_option autoImplicit false

namespace Timetable

variable {unread : Option (List Char)}

/-! ### Words that a language holds -/

/-- The language has a word of lexemes that are spelled like their sort. -/
def Fillable (L : Language Lexeme) : Prop := ∃ ls ∈ L, ∀ l ∈ ls, l.IsSpellable

namespace Fillable

variable {L M : Language Lexeme}

theorem mul (hL : Fillable L) (hM : Fillable M) : Fillable (L * M) := by
  obtain ⟨ls, hls, hspell⟩ := hL
  obtain ⟨ms, hms, hspell'⟩ := hM
  refine ⟨ls ++ ms, Language.append_mem_mul hls hms, fun l hl => ?_⟩
  rcases List.mem_append.1 hl with hl | hl
  · exact hspell l hl
  · exact hspell' l hl

theorem add_left (h : Fillable L) (M : Language Lexeme) : Fillable (L + M) := by
  obtain ⟨ls, hls, hspell⟩ := h
  exact ⟨ls, Or.inl hls, hspell⟩

theorem add_right (L : Language Lexeme) (h : Fillable M) : Fillable (L + M) := by
  obtain ⟨ls, hls, hspell⟩ := h
  exact ⟨ls, Or.inr hls, hspell⟩

theorem one : Fillable 1 := ⟨[], rfl, nofun⟩

theorem optional (L : Language Lexeme) : Fillable (1 + L) := one.add_left L

theorem listed (h : Fillable L) : Fillable (Shape.listed L) :=
  (h.mul (optional _)).mul ⟨[], Language.nil_mem_kstar _, nofun⟩

end Fillable

theorem fillable_symbol (s : Symbol) : Fillable (Shape.symbol s) :=
  ⟨_, rfl, fun l hl => by rw [List.mem_singleton.1 hl]; trivial⟩

theorem fillable_integer : Fillable Shape.integer :=
  ⟨_, ⟨_, rfl⟩, fun l hl => by rw [List.mem_singleton.1 hl]; exact isSpellable_integerLexeme 1⟩

theorem fillable_value (kind : Kind) : Fillable (Shape.value kind) := by
  cases kind with
  | dates =>
      exact ((fillable_integer.mul (fillable_symbol _)).mul fillable_integer).mul
        (Fillable.optional _)
  | dial d =>
      rw [Shape.value]
      split
      · exact fillable_integer.add_left _
      · exact fillable_integer

theorem fillable_argument (v : Language Lexeme) : Fillable (Shape.argument v) :=
  ((Fillable.optional _).mul ((fillable_symbol _).add_left _)).mul (Fillable.optional _)

theorem fillable_arguments (kind : Kind) : Fillable (Shape.arguments kind) :=
  ((fillable_symbol _).mul (fillable_argument _).listed).mul (fillable_symbol _)

theorem fillable_expression : Fillable Shape.expression := by
  obtain ⟨ls, hls, hspell⟩ := fillable_arguments .dates
  rw [← mul_one (Shape.arguments _)] at hls
  refine ⟨_, ?_, List.forall_mem_cons.2 ⟨isSpellable_name .dates, hspell⟩⟩
  rw [← mul_one Shape.expression, Shape.mem_expression_mul]
  exact ⟨_, _, Kind.named_name .dates, ls, hls, rfl⟩

/-! ### Outcomes that keep to a language -/

/-- What has been taken on the way from `ls` to `rest` leads from one language to another: behind it
the words of the second make words of the first, and no others do that start like `rest`. -/
def LeadsTo (R K : Language Lexeme) (ls rest : List Lexeme) : Prop :=
  ∃ taken, ls = taken ++ rest ∧ (∀ w ∈ K, taken ++ w ∈ R) ∧
    ∀ w, w.head? = rest.head? → taken ++ w ∈ R → w ∈ K

/-- **No word of the language goes on like this, and some go on as was expected.** -/
structure Misfit (unread : Option (List Char)) (R : Language Lexeme) (before after : List Lexeme)
    (found : Option Form) (expected : List Form) : Prop where
  /-- The lexeme found is the first behind the fitting ones, or none. -/
  found_eq : found = after.head?.map Lexeme.form
  /-- If there is none, the text has been read to its end. -/
  mayEnd : MayEnd unread after
  /-- No word goes on with the lexeme found. -/
  refused : ∀ w, w.head? = after.head? → before ++ w ∉ R
  /-- Something is expected. -/
  expected_ne : expected ≠ []
  /-- Some word goes on with a lexeme of each sort that is expected. -/
  offered : ∀ form ∈ expected, ∃ l more, l.form = form ∧ (∀ m ∈ l :: more, m.IsSpellable) ∧
    before ++ l :: more ∈ R

/-- **The outcome of reading keeps to a language.**  A value is left in front of the words that may
follow it, and a lexeme that was not expected is the first that does not fit. -/
structure KeepsTo (unread : Option (List Char)) {α : Type} (R : Language Lexeme)
    (K : α → Language Lexeme) (ls : List Lexeme) (x : Except Fault (α × List Lexeme)) : Prop where
  ok : ∀ {a rest}, MayEnd unread ls → x = .ok (a, rest) →
    MayEnd unread rest ∧ LeadsTo R (K a) ls rest
  unexpected : ∀ {found expected left}, MayEnd unread ls →
    x = .error ⟨.unexpected found expected, left⟩ →
      ∃ before after, ls = before ++ after ∧ left = after.length ∧
        Misfit unread R before after found expected

/-- The cause is that a lexeme stands where others are expected. -/
def Cause.IsUnexpected : Cause → Prop
  | .unexpected _ _ => True
  | _ => False

section KeepsTo

variable {α β : Type} {R : Language Lexeme} {K : α → Language Lexeme} {K' : β → Language Lexeme}
  {ls rest : List Lexeme}

theorem LeadsTo.refl (R : Language Lexeme) (ls : List Lexeme) : LeadsTo R R ls ls :=
  ⟨[], rfl, fun _ hw => hw, fun _ _ hw => hw⟩

theorem head?_append_congr {us vs : List Lexeme} (ts : List Lexeme) (h : us.head? = vs.head?) :
    (ts ++ us).head? = (ts ++ vs).head? := by
  cases ts with
  | nil => exact h
  | cons t ts => rfl

theorem LeadsTo.trans {L M : Language Lexeme} {ms : List Lexeme} (h : LeadsTo R L ls ms)
    (h' : LeadsTo L M ms rest) : LeadsTo R M ls rest := by
  obtain ⟨taken, rfl, hadd, hdrop⟩ := h
  obtain ⟨taken', rfl, hadd', hdrop'⟩ := h'
  refine ⟨taken ++ taken', by simp, fun w hw => ?_, fun w hhead hw => ?_⟩
  · rw [List.append_assoc]
    exact hadd _ (hadd' w hw)
  · rw [List.append_assoc] at hw
    exact hdrop' w hhead (hdrop _ (head?_append_congr taken' hhead) hw)

theorem Misfit.behind {L : Language Lexeme} {before after : List Lexeme} (taken : List Lexeme)
    {found : Option Form} {expected : List Form}
    (h : Misfit unread L before after found expected) (hadd : ∀ w ∈ L, taken ++ w ∈ R)
    (hdrop : ∀ w, w.head? = (before ++ after).head? → taken ++ w ∈ R → w ∈ L) :
    Misfit unread R (taken ++ before) after found expected where
  found_eq := h.found_eq
  mayEnd := h.mayEnd
  refused := by
    intro w hhead hw
    rw [List.append_assoc] at hw
    exact h.refused w hhead (hdrop _ (head?_append_congr before hhead) hw)
  expected_ne := h.expected_ne
  offered := by
    intro form hform
    obtain ⟨l, more, hl, hspell, hmem⟩ := h.offered form hform
    refine ⟨l, more, hl, hspell, ?_⟩
    rw [List.append_assoc]
    exact hadd _ hmem

namespace KeepsTo

theorem pure {a : α} (hR : R = K a) : KeepsTo unread R K ls (pure (a, ls)) where
  ok := by
    intro b rest hend h
    cases h
    rw [hR]
    exact ⟨hend, LeadsTo.refl _ _⟩
  unexpected := nofun

/-- **Going on from where a first outcome has led.** -/
theorem bind {x : Except Fault (α × List Lexeme)}
    {f : α × List Lexeme → Except Fault (β × List Lexeme)}
    (hx : KeepsTo unread R K ls x)
    (hf : ∀ a rest, x = .ok (a, rest) → KeepsTo unread (K a) K' rest (f (a, rest))) :
    KeepsTo unread R K' ls (x >>= f) := by
  cases x with
  | error fault =>
      constructor
      · intro b rest _ h
        cases h
      · intro found expected left hend h
        cases h
        exact hx.unexpected hend rfl
  | ok p =>
      obtain ⟨a, ms⟩ := p
      constructor
      · intro b rest hend h
        obtain ⟨hend', hleads⟩ := hx.ok hend rfl
        obtain ⟨hend'', hleads'⟩ := (hf a ms rfl).ok hend' h
        exact ⟨hend'', hleads.trans hleads'⟩
      · intro found expected left hend h
        obtain ⟨hend', taken, rfl, hadd, hdrop⟩ := hx.ok hend rfl
        obtain ⟨before, after, rfl, rfl, hmisfit⟩ := (hf a ms rfl).unexpected hend' h
        exact ⟨taken ++ before, after, by simp, rfl, hmisfit.behind taken hadd hdrop⟩

/-- A fault that misses no expected lexeme ends reading. -/
theorem fault {x : Fault} (h : ¬x.cause.IsUnexpected) : KeepsTo unread R K ls (.error x) where
  ok := nofun
  unexpected := by
    intro found expected left _ hx
    cases hx
    exact absurd trivial h

/-- A check between two steps takes nothing. -/
theorem check {γ : Type} {x : Except Fault γ} {f : γ → Except Fault (β × List Lexeme)}
    (hx : Avoids Cause.IsUnexpected x) (hf : ∀ c, KeepsTo unread R K' ls (f c)) :
    KeepsTo unread R K' ls (x >>= f) := by
  cases x with
  | error x => exact KeepsTo.fault (hx x rfl)
  | ok c => exact hf c

/-- **Taking the first lexeme**, behind which the words of another language make those of this. -/
theorem take {l : Lexeme} {L : Language Lexeme} {f : List Lexeme → Except Fault (β × List Lexeme)}
    (hR : ∀ w, l :: w ∈ R ↔ w ∈ L) (hf : KeepsTo unread L K' ls (f ls)) :
    KeepsTo unread R K' (l :: ls) (afterFirst unread (l :: ls) >>= f) := by
  have hleads : LeadsTo R L (l :: ls) ls := ⟨[l], rfl, fun w => (hR w).2, fun w _ => (hR w).1⟩
  cases hafter : afterFirst unread (l :: ls) with
  | error x => exact KeepsTo.fault (avoids_afterFirst (fun _ => id) _ x hafter)
  | ok ms =>
      obtain ⟨rfl, hend⟩ := afterFirst_cons_eq_ok_iff.1 hafter
      constructor
      · intro b rest _ h
        obtain ⟨hend', hleads'⟩ := hf.ok hend h
        exact ⟨hend', hleads.trans hleads'⟩
      · intro found expected left _ h
        obtain ⟨before, after, rfl, rfl, hmisfit⟩ := hf.unexpected hend h
        exact ⟨l :: before, after, rfl, rfl,
          hmisfit.behind [l] (fun w => (hR w).2) fun w _ => (hR w).1⟩

/-- **Missing an expected lexeme.** -/
theorem unexpectedAt {expected : List Form} (hne : expected ≠ [])
    (hrefused : ∀ w, w.head? = ls.head? → w ∉ R)
    (hoffered : ∀ form ∈ expected, ∃ l more, l.form = form ∧ (∀ m ∈ l :: more, m.IsSpellable) ∧
      l :: more ∈ R) : KeepsTo unread R K ls (unexpectedAt expected ls) where
  ok := nofun
  unexpected := by
    intro found expected' left hend h
    cases h
    exact ⟨[], ls, rfl, rfl, rfl, hend, hrefused, hne, hoffered⟩

/-- The first lexeme may tell that the words that follow are those of a smaller language. -/
theorem narrow {L : Language Lexeme} {x : Except Fault (α × List Lexeme)}
    (hadd : ∀ w ∈ L, w ∈ R) (hdrop : ∀ w, w.head? = ls.head? → w ∈ R → w ∈ L)
    (hx : KeepsTo unread L K ls x) : KeepsTo unread R K ls x where
  ok := by
    intro a rest hend h
    obtain ⟨hend', hleads⟩ := hx.ok hend h
    have hstay : LeadsTo R L ls ls := ⟨[], rfl, hadd, hdrop⟩
    exact ⟨hend', hstay.trans hleads⟩
  unexpected := by
    intro found expected left hend h
    obtain ⟨before, after, rfl, rfl, hmisfit⟩ := hx.unexpected hend h
    exact ⟨before, after, rfl, rfl, hmisfit.behind [] hadd hdrop⟩

end KeepsTo

end KeepsTo

/-! ### Single lexemes -/

section Single

variable {β : Type} {K L : Language Lexeme} {K' : β → Language Lexeme} {ls : List Lexeme}

theorem keepsTo_readSymbol {s : Symbol} (hK : Fillable K)
    {f : List Lexeme → Except Fault (β × List Lexeme)}
    (hf : ∀ rest, ls = .symbol s :: rest → KeepsTo unread K K' rest (f rest)) :
    KeepsTo unread (Shape.symbol s * K) K' ls (readSymbol unread s ls >>= f) := by
  unfold readSymbol
  split
  · rename_i hs
    obtain ⟨rest, rfl⟩ := List.head?_eq_some_iff.1 hs
    exact KeepsTo.take (fun w => Shape.cons_mem_symbol_mul) (hf rest rfl)
  · rename_i hs
    change KeepsTo unread _ K' ls (unexpectedAt [.symbol s] ls)
    refine KeepsTo.unexpectedAt (by simp) (fun w hhead hw => ?_) (fun form hform => ?_)
    · obtain ⟨rest, -, rfl⟩ := Shape.mem_symbol_mul.1 hw
      exact hs hhead.symm
    · obtain ⟨ms, hms, hspell⟩ := hK
      rw [List.mem_singleton.1 hform]
      exact ⟨.symbol s, ms, rfl, List.forall_mem_cons.2 ⟨trivial, hspell⟩,
        Shape.cons_mem_symbol_mul.2 hms⟩

theorem keepsTo_readNumeral (hK : Fillable K) :
    KeepsTo unread (Shape.integer * K) (fun _ => K) ls (readNumeral unread ls) := by
  unfold readNumeral
  split
  · exact KeepsTo.take (fun w => Shape.cons_mem_integer_mul) (KeepsTo.pure rfl)
  · rename_i hne
    refine KeepsTo.unexpectedAt (by simp) (fun w hhead hw => ?_) (fun form hform => ?_)
    · obtain ⟨n, rest, -, rfl⟩ := Shape.mem_integer_mul.1 hw
      obtain ⟨rest', rfl⟩ := List.head?_eq_some_iff.1 hhead.symm
      exact hne n rest' rfl
    · obtain ⟨ms, hms, hspell⟩ := hK
      rw [List.mem_singleton.1 hform]
      exact ⟨_, ms, rfl, List.forall_mem_cons.2 ⟨isSpellable_integerLexeme 1, hspell⟩,
        Shape.cons_mem_integer_mul.2 hms⟩

theorem keepsTo_readWord {R : Language Lexeme}
    (hwords : ∀ w ∈ R, ∃ letters rest, w = .word letters :: rest) (hR : Fillable R) :
    KeepsTo unread R (fun letters => {w | .word letters :: w ∈ R}) ls (readWord unread ls) := by
  unfold readWord
  split
  · exact KeepsTo.take (fun w => Iff.rfl) (KeepsTo.pure rfl)
  · rename_i hne
    refine KeepsTo.unexpectedAt (by simp) (fun w hhead hw => ?_) (fun form hform => ?_)
    · obtain ⟨letters, rest, rfl⟩ := hwords w hw
      obtain ⟨rest', rfl⟩ := List.head?_eq_some_iff.1 hhead.symm
      exact hne letters rest' rfl
    · obtain ⟨w, hw, hspell⟩ := hR
      obtain ⟨letters, rest, rfl⟩ := hwords w hw
      rw [List.mem_singleton.1 hform]
      exact ⟨_, rest, rfl, hspell, hw⟩

theorem keepsTo_readOptional {s : Symbol} (hL : ∀ w ∈ L, w.head? ≠ some (.symbol s)) :
    KeepsTo unread (Shape.symbol s * K + L) (fun taken => if taken then K else L) ls
      (readOptional unread s ls) := by
  unfold readOptional
  split
  · rename_i hs
    obtain ⟨rest, rfl⟩ := List.head?_eq_some_iff.1 hs
    refine KeepsTo.take (L := K) (fun w => ?_) (KeepsTo.pure rfl)
    rw [Language.mem_add, Shape.cons_mem_symbol_mul, or_iff_left fun hw => hL _ hw rfl]
  · rename_i hs
    refine KeepsTo.narrow (L := L) (fun w => Or.inr) (fun w hhead hw => ?_) (KeepsTo.pure rfl)
    rcases hw with hw | hw
    · obtain ⟨rest, -, rfl⟩ := Shape.mem_symbol_mul.1 hw
      exact absurd hhead.symm hs
    · exact hw

end Single

/-! ### Values -/

section Value

variable {K : Language Lexeme} {ls : List Lexeme}

theorem keepsTo_readInterval (hK : Fillable K) :
    KeepsTo unread (Shape.integer * K) (fun _ => K) ls (readInterval unread ls) := by
  refine (keepsTo_readNumeral hK).bind fun n rest _ => ?_
  refine KeepsTo.check (avoids_valueOf (fun _ => id) n ls) fun v => ?_
  split
  · exact KeepsTo.fault id
  · split
    · exact KeepsTo.fault id
    · exact KeepsTo.pure rfl

theorem keepsTo_readDate (hK : Fillable K) (hslash : ∀ w ∈ K, w.head? ≠ some (.symbol .slash)) :
    KeepsTo unread (Shape.date * K) (fun _ => K) ls (readDate unread ls) := by
  have hmore : Fillable (Shape.symbol .slash * (Shape.integer * K) + K) := hK.add_right _
  have hvalue (n : Numeral) (ls : List Lexeme) : Avoids Cause.IsUnexpected (valueOf n ls) :=
    avoids_valueOf (fun _ => id) n ls
  have hdate (year : Option Int) (month day : Int) :
      Avoids Cause.IsUnexpected (dateOf year month day ls) :=
    avoids_dateOf (fun _ => id) (fun _ => id) (fun _ _ => id) year month day ls
  rw [Shape.date, mul_assoc, mul_assoc, mul_assoc, Shape.optional_mul, mul_assoc]
  refine (keepsTo_readNumeral ((fillable_symbol _).mul (fillable_integer.mul hmore))).bind
    fun a ls₁ _ => ?_
  refine keepsTo_readSymbol (fillable_integer.mul hmore) fun ls₂ _ => ?_
  refine (keepsTo_readNumeral hmore).bind fun b ls₃ _ => ?_
  refine (keepsTo_readOptional hslash).bind fun more ls₄ _ => ?_
  cases more with
  | true =>
      refine (keepsTo_readNumeral hK).bind fun c rest _ => ?_
      refine KeepsTo.check (hvalue a ls) fun year => ?_
      refine KeepsTo.check (hvalue b ls₂) fun month => ?_
      refine KeepsTo.check (hvalue c ls₄) fun day => ?_
      exact KeepsTo.check (hdate (some year) month day) fun v => KeepsTo.pure rfl
  | false =>
      refine KeepsTo.check (hvalue a ls) fun month => ?_
      refine KeepsTo.check (hvalue b ls₂) fun day => ?_
      exact KeepsTo.check (hdate none month day) fun v => KeepsTo.pure rfl

/-- A number of a dial is one lexeme of the sorts that the dial takes. -/
theorem mem_value_dial_mul {d : Dial} :
    ls ∈ Shape.value (.dial d) * K ↔ ∃ l, ∃ rest ∈ K, l.form ∈ d.forms ∧ ls = l :: rest := by
  have hinteger {l : Lexeme} : l.form = .integer ↔ ∃ n, l = .integer n := by
    cases l <;> simp [Lexeme.form]
  have hword {l : Lexeme} : l.form = .word ↔ ∃ letters, l = .word letters := by
    cases l <;> simp [Lexeme.form]
  rw [Shape.value, Dial.forms]
  split
  · rw [add_mul, Language.mem_add, Shape.mem_integer_mul, Shape.mem_word_mul]
    simp only [List.mem_cons, List.not_mem_nil, or_false, hinteger, hword]
    constructor
    · rintro (⟨n, rest, hrest, rfl⟩ | ⟨letters, rest, hrest, rfl⟩)
      · exact ⟨_, rest, hrest, Or.inl ⟨n, rfl⟩, rfl⟩
      · exact ⟨_, rest, hrest, Or.inr ⟨letters, rfl⟩, rfl⟩
    · rintro ⟨_, rest, hrest, ⟨n, rfl⟩ | ⟨letters, rfl⟩, rfl⟩
      · exact Or.inl ⟨n, rest, hrest, rfl⟩
      · exact Or.inr ⟨letters, rest, hrest, rfl⟩
  · rw [Shape.mem_integer_mul]
    simp only [List.mem_singleton, hinteger]
    constructor
    · rintro ⟨n, rest, hrest, rfl⟩
      exact ⟨_, rest, hrest, ⟨n, rfl⟩, rfl⟩
    · rintro ⟨_, rest, hrest, ⟨n, rfl⟩, rfl⟩
      exact ⟨n, rest, hrest, rfl⟩

theorem cons_mem_value_dial_mul {d : Dial} {l : Lexeme} (h : l.form ∈ d.forms) :
    l :: ls ∈ Shape.value (.dial d) * K ↔ ls ∈ K := by
  rw [mem_value_dial_mul]
  constructor
  · rintro ⟨m, rest, hrest, -, heq⟩
    cases heq
    exact hrest
  · intro hls
    exact ⟨l, ls, hls, h, rfl⟩

theorem integer_mem_forms (d : Dial) : Form.integer ∈ d.forms := by
  unfold Dial.forms
  split <;> simp

theorem keepsTo_unexpected_dialValue {d : Dial} (hK : Fillable K)
    (hform : ∀ l ∈ ls.head?, l.form ∉ d.forms) :
    KeepsTo unread (Shape.value (.dial d) * K) (fun _ : Int => K) ls
      (unexpectedAt d.forms ls) := by
  obtain ⟨ms, hms, hspell⟩ := hK
  refine KeepsTo.unexpectedAt (List.ne_nil_of_mem (integer_mem_forms d)) ?_ ?_
  · intro w hhead hw
    obtain ⟨l, rest, -, hl, rfl⟩ := mem_value_dial_mul.1 hw
    exact hform l hhead.symm hl
  · intro form hmem
    obtain ⟨l, hl, hspells⟩ : ∃ l : Lexeme, l.form = form ∧ l.IsSpellable := by
      have hforms : form = .integer ∨ form = .word := by
        unfold Dial.forms at hmem
        split at hmem <;> simp_all
      rcases hforms with rfl | rfl
      · exact ⟨_, rfl, isSpellable_integerLexeme 1⟩
      · exact ⟨_, rfl, isSpellable_name .dates⟩
    exact ⟨l, ms, hl, List.forall_mem_cons.2 ⟨hspells, hspell⟩,
      (cons_mem_value_dial_mul (hl ▸ hmem)).2 hms⟩

theorem keepsTo_readDialValue (d : Dial) (hK : Fillable K) :
    KeepsTo unread (Shape.value (.dial d) * K) (fun _ => K) ls (readDialValue unread d ls) := by
  unfold readDialValue
  split
  · refine KeepsTo.take (fun w => cons_mem_value_dial_mul (integer_mem_forms d)) ?_
    refine KeepsTo.check (avoids_valueOf (fun _ => id) _ _) fun n => ?_
    split
    · exact KeepsTo.pure rfl
    · exact KeepsTo.fault id
  · split
    · rename_i hdial
      subst hdial
      refine KeepsTo.take (fun w => cons_mem_value_dial_mul (by simp [Lexeme.form, Dial.forms])) ?_
      split
      · exact KeepsTo.pure rfl
      · exact KeepsTo.fault id
    · rename_i hdial
      refine keepsTo_unexpected_dialValue hK fun l hl => ?_
      cases hl
      simp [Lexeme.form, Dial.forms, hdial]
  · rename_i hinteger hword
    refine keepsTo_unexpected_dialValue hK fun l hl => ?_
    obtain ⟨rest, rfl⟩ := List.head?_eq_some_iff.1 hl
    cases l with
    | symbol s => unfold Dial.forms; split <;> simp [Lexeme.form]
    | word letters => exact absurd rfl (hword letters rest)
    | integer n => exact absurd rfl (hinteger n rest)

end Value

/-! ### Arguments -/

/-- Reading values of a kind keeps to their shape, whatever follows but a slash. -/
structure KeepsToValues (unread : Option (List Char)) {α : Type} (readValue : Reader α)
    (endsFault? : α → α → Option Cause) (v : Language Lexeme) : Prop where
  /-- A value is read in front of anything but a slash, which would be more of a date. -/
  keeps : ∀ {K : Language Lexeme} {ls : List Lexeme}, Fillable K →
    (∀ w ∈ K, w.head? ≠ some (.symbol .slash)) →
      KeepsTo unread (v * K) (fun _ => K) ls (readValue ls)
  /-- Values do not start with a symbol. -/
  starts : Shape.StartsWith [] v
  /-- There are values. -/
  fillable : Fillable v
  /-- What can be wrong with the ends of a range is no lexeme. -/
  ends : ∀ {a b : α} {cause : Cause}, endsFault? a b = some cause → ¬cause.IsUnexpected

theorem keepsToValues_date :
    KeepsToValues unread (readDate unread) dateEndsFault? (Shape.value .dates) where
  keeps := fun hK hslash => keepsTo_readDate hK hslash
  starts := Shape.startsWith_value .dates
  fillable := fillable_value .dates
  ends := by
    intro a b cause h
    unfold dateEndsFault? at h
    split at h
    · cases h
      exact id
    · split at h
      · cases h
        exact id
      · cases h

theorem keepsToValues_dial (d : Dial) :
    KeepsToValues unread (readDialValue unread d) (fun _ _ => none) (Shape.value (.dial d)) where
  keeps := fun hK _ => keepsTo_readDialValue d hK
  starts := Shape.startsWith_value (.dial d)
  fillable := fillable_value (.dial d)
  ends := nofun

section Argument

variable {α : Type} [DecidableEq α] {readValue : Reader α} {endsFault? : α → α → Option Cause}
  {v K L : Language Lexeme} {ls : List Lexeme}

theorem keepsTo_readRangeMark (hL : ∀ w ∈ L, NotBefore [.rangeInclusive, .rangeHalfOpen] w) :
    KeepsTo unread (Shape.mark * K + L) (fun mark => if mark.isSome then K else L) ls
      (readRangeMark unread ls) := by
  have hmark (w : List Lexeme) : w ∈ Shape.mark * K + L ↔
      ((∃ rest ∈ K, w = .symbol .rangeInclusive :: rest) ∨
        ∃ rest ∈ K, w = .symbol .rangeHalfOpen :: rest) ∨ w ∈ L := by
    rw [Shape.mark, add_mul, Language.mem_add, Language.mem_add, Shape.mem_symbol_mul,
      Shape.mem_symbol_mul]
  unfold readRangeMark
  split
  · refine KeepsTo.take (L := K) (fun w => ?_) (KeepsTo.pure rfl)
    rw [hmark, or_iff_left fun hw => hL _ hw .rangeInclusive (by simp) rfl]
    simp
  · refine KeepsTo.take (L := K) (fun w => ?_) (KeepsTo.pure rfl)
    rw [hmark, or_iff_left fun hw => hL _ hw .rangeHalfOpen (by simp) rfl]
    simp
  · rename_i hinclusive hhalfOpen
    refine KeepsTo.narrow (L := L) (fun w => Or.inr) (fun w hhead hw => ?_) (KeepsTo.pure rfl)
    rcases (hmark w).1 hw with (⟨rest, -, rfl⟩ | ⟨rest, -, rfl⟩) | hw
    · obtain ⟨rest', rfl⟩ := List.head?_eq_some_iff.1 hhead.symm
      exact absurd rfl (hinclusive rest')
    · obtain ⟨rest', rfl⟩ := List.head?_eq_some_iff.1 hhead.symm
      exact absurd rfl (hhalfOpen rest')
    · exact hw

/-- A range mark is no slash. -/
theorem head?_ne_slash_of_mem_mark {w : List Lexeme} (hw : w ∈ Shape.mark * K) :
    w.head? ≠ some (.symbol .slash) := by
  rw [Shape.mark, add_mul, Language.mem_add, Shape.mem_symbol_mul, Shape.mem_symbol_mul] at hw
  rcases hw with ⟨rest, -, rfl⟩ | ⟨rest, -, rfl⟩ <;> simp

theorem keepsTo_readExtent (hv : KeepsToValues unread readValue endsFault? v) (hK : Fillable K)
    (hfollows : ∀ w ∈ K, NotBefore [.slash, .rangeInclusive, .rangeHalfOpen] w) :
    KeepsTo unread (v * ((1 + Shape.mark * v) * K)) (fun _ => K) ls
      (readExtent unread readValue endsFault? ls) := by
  have hslash (w : List Lexeme) (hw : w ∈ K) : w.head? ≠ some (.symbol .slash) :=
    hfollows w hw .slash (by simp)
  rw [Shape.optional_mul, mul_assoc]
  refine (hv.keeps (hK.add_right _) fun w hw => ?_).bind fun start ls₁ _ => ?_
  · rcases hw with hw | hw
    · exact head?_ne_slash_of_mem_mark hw
    · exact hslash w hw
  refine (keepsTo_readRangeMark fun w hw => (hfollows w hw).mono (by simp)).bind
    fun mark ls₂ _ => ?_
  cases mark with
  | none => exact KeepsTo.pure rfl
  | some halfOpen =>
      refine (hv.keeps hK hslash).bind fun stop rest _ => ?_
      dsimp only
      split
      · exact KeepsTo.fault id
      · split
        · rename_i hends
          exact KeepsTo.fault (hv.ends hends)
        · exact KeepsTo.pure rfl

theorem keepsTo_readWildcardOrExtent (hv : KeepsToValues unread readValue endsFault? v)
    (hK : Fillable K)
    (hfollows : ∀ w ∈ K, NotBefore [.slash, .rangeInclusive, .rangeHalfOpen] w) :
    KeepsTo unread (Shape.extent v * K) (fun _ => K) ls
      (readWildcardOrExtent unread readValue endsFault? ls) := by
  rw [Shape.extent, add_mul, mul_assoc v]
  refine (keepsTo_readOptional fun w hw => ?_).bind fun wildcard rest _ => ?_
  · exact (hv.starts.mul _ w hw).head?_ne List.not_mem_nil
  · cases wildcard with
    | true => exact KeepsTo.pure rfl
    | false => exact keepsTo_readExtent hv hK hfollows

theorem keepsTo_readOptionalInterval (hK : Fillable K)
    (hfollows : ∀ w ∈ K, w.head? ≠ some (.symbol .interval)) :
    KeepsTo unread ((1 + Shape.symbol .interval * Shape.integer) * K) (fun _ => K) ls
      (readOptionalInterval unread ls) := by
  rw [Shape.optional_mul, mul_assoc]
  refine (keepsTo_readOptional hfollows).bind fun marked ls₁ _ => ?_
  cases marked with
  | true => exact (keepsTo_readInterval hK).bind fun n rest _ => KeepsTo.pure rfl
  | false => exact KeepsTo.pure rfl

/-- **Reading an argument keeps to its shape.** -/
theorem keepsTo_readArgument (hv : KeepsToValues unread readValue endsFault? v) (hK : Fillable K)
    (hfollows : ∀ w ∈ K, NotBefore argumentMarks w) :
    KeepsTo unread (Shape.argument v * K) (fun _ => K) ls
      (readArgument unread readValue endsFault? ls) := by
  have hinterval (w : List Lexeme) (hw : w ∈ K) : w.head? ≠ some (.symbol .interval) :=
    hfollows w hw .interval (by simp [argumentMarks])
  -- an interval starts with its own mark, so it does not go on with the extent
  have hextent (w : List Lexeme) (hw : w ∈ (1 + Shape.symbol .interval * Shape.integer) * K) :
      NotBefore [.slash, .rangeInclusive, .rangeHalfOpen] w := by
    rw [Shape.optional_mul, mul_assoc, Language.mem_add, Shape.mem_symbol_mul] at hw
    rcases hw with ⟨rest, -, rfl⟩ | hw
    · simp [NotBefore]
    · exact (hfollows w hw).mono (by simp [argumentMarks])
  have hfill := (Fillable.optional (Shape.symbol .interval * Shape.integer)).mul hK
  rw [Shape.argument, mul_assoc, mul_assoc, Shape.optional_mul]
  refine (keepsTo_readOptional fun w hw => ?_).bind fun excluded ls₁ _ => ?_
  · exact ((Shape.startsWith_extent hv.starts).mul _ w hw).head?_ne (by simp)
  have hrest : (if excluded = true then
      Shape.extent v * ((1 + Shape.symbol .interval * Shape.integer) * K)
    else Shape.extent v * ((1 + Shape.symbol .interval * Shape.integer) * K)) =
      Shape.extent v * ((1 + Shape.symbol .interval * Shape.integer) * K) := ite_self _
  rw [hrest]
  refine (keepsTo_readWildcardOrExtent hv hfill hextent).bind fun extent ls₂ _ => ?_
  refine (keepsTo_readOptionalInterval hK hinterval).bind fun interval rest _ => ?_
  dsimp only
  split
  · exact KeepsTo.fault id
  · exact KeepsTo.pure rfl

end Argument

end Timetable
