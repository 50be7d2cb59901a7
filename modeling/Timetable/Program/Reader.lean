/-
**Reading a schedule from its lexemes.**

The grammar of a schedule is

    program    = item ([","] item)* [","]
    item       = group | expression
    group      = "{" expression ([","] expression)* [","] "}"
    expression = word "(" argument ([","] argument)* [","] ")"
    argument   = ["!"] ("*" | value [(".." | "..<") value]) ["%" integer]
    value      = integer | word | date
    date       = integer "/" integer ["/" integer]

with values of the sort that fits the kind of the expression.  One lexeme of look-ahead decides
every choice.

Main definitions:

* `readList` — one or more things, each with an optional comma behind it;
* `readArguments`, `readExpression`, `readBraced`, `readItem` — one reader for each rule;
* `Program.read` — **reading a whole schedule**.

Main results:

* `readList_eq` — a list is one thing and, unless it stops there, another list;
* `consumes_readExpression`, `consumes_readItem` — a reader that succeeds takes at least one lexeme,
  so that reading a list of things ends.
-/

import Timetable.Program.Reader.Argument

set_option relaxedAutoImplicit false
set_option autoImplicit false

namespace Timetable

variable (unread : Option (List Char))

/-! ### Lists -/

/-- Reads one or more things up to a place where the list stops, each with an optional comma behind
it. -/
def readList {α : Type} (read : Reader α) (consumes : Consumes read)
    (stops : List Lexeme → Bool) (ls : List Lexeme) : Except Fault (List α × List Lexeme) :=
  match _ : read ls with
  | .error fault => .error fault
  | .ok (a, ls₁) =>
    match _ : readOptional unread .comma ls₁ with
    | .error fault => .error fault
    | .ok (_, ls₂) =>
      if stops ls₂ then .ok ([a], ls₂)
      else
        match readList read consumes stops ls₂ with
        | .error fault => .error fault
        | .ok (as, rest) => .ok (a :: as, rest)
termination_by ls.length
decreasing_by
  exact Nat.lt_of_le_of_lt (readOptional_length unread ‹_›) (consumes ‹_›)

/-- A list is one thing with its comma and, unless it stops behind it, another list. -/
theorem readList_eq {α : Type} (read : Reader α) (consumes : Consumes read)
    (stops : List Lexeme → Bool) (ls : List Lexeme) :
    readList unread read consumes stops ls = (do
      let (a, ls₁) ← read ls
      let (_, ls₂) ← readOptional unread .comma ls₁
      if stops ls₂ then return ([a], ls₂)
      else do
        let (as, rest) ← readList unread read consumes stops ls₂
        return (a :: as, rest)) := by
  rw [readList]
  cases h₁ : read ls with
  | error fault => rfl
  | ok p =>
    obtain ⟨a, ls₁⟩ := p
    simp only [bind, Except.bind]
    cases h₂ : readOptional unread .comma ls₁ with
    | error fault => rfl
    | ok q =>
      obtain ⟨taken, ls₂⟩ := q
      by_cases hs : stops ls₂ = true
      · simp [hs, pure, Except.pure]
      · cases h₃ : readList unread read consumes stops ls₂ <;> simp [hs, h₃, pure, Except.pure]

theorem consumes_readList {α : Type} {read : Reader α} (consumes : Consumes read)
    {stops : List Lexeme → Bool} : Consumes (readList unread read consumes stops) := by
  intro ls as rest h
  fun_induction readList unread read consumes stops ls generalizing as rest with
  | case1 | case2 | case4 => cases h
  | case3 ls a ls₁ h₁ taken ls₂ h₂ =>
    cases h
    exact Nat.lt_of_le_of_lt (readOptional_length unread h₂) (consumes h₁)
  | case5 ls a ls₁ h₁ taken ls₂ h₂ _ as' rest' hr ih =>
    cases h
    have := ih hr
    have := readOptional_length unread h₂
    have := consumes h₁
    omega

/-- The given symbol comes next. -/
def startsWith (s : Symbol) (ls : List Lexeme) : Bool := ls.head? = some (.symbol s)

/-! ### Expressions and items -/

/-- Reads the arguments of an expression of a given kind, with the parentheses around them. -/
def readArguments (kind : Kind) (ls : List Lexeme) : Except Fault (Expression × List Lexeme) := do
  let ls₁ ← readSymbol unread .openParen ls
  match kind with
  | .dates =>
    let (as, ls₂) ← readList unread (readDateArgument unread) (consumes_readDateArgument unread)
      (startsWith .closeParen) ls₁
    return (.dates as, ← readSymbol unread .closeParen ls₂)
  | .dial d =>
    let (as, ls₂) ← readList unread (readDialArgument unread d) (consumes_readDialArgument unread d)
      (startsWith .closeParen) ls₁
    return (.dial d as, ← readSymbol unread .closeParen ls₂)

/-- Reads an expression. -/
def readExpression (ls : List Lexeme) : Except Fault (Expression × List Lexeme) := do
  let (name, ls₁) ← readWord unread ls
  match Kind.ofName? name with
  | none => faultAt (.unknownKind name) ls
  | some kind => readArguments unread kind ls₁

theorem consumes_readArguments (kind : Kind) : Consumes (readArguments unread kind) := by
  intro ls e rest h
  unfold readArguments at h
  simp only [bind_eq_ok] at h
  obtain ⟨ls₁, h₁, h⟩ := h
  rw [readSymbol_eq_ok unread h₁]
  split at h
  · simp only [bind_eq_ok, Prod.exists, pure_eq_ok, Prod.mk.injEq] at h
    obtain ⟨as, ls₂, h₂, ls₃, h₃, -, rfl⟩ := h
    have := consumes_readList unread _ h₂
    rw [readSymbol_eq_ok unread h₃] at this
    simp only [List.length_cons] at this ⊢
    omega
  · simp only [bind_eq_ok, Prod.exists, pure_eq_ok, Prod.mk.injEq] at h
    obtain ⟨as, ls₂, h₂, ls₃, h₃, -, rfl⟩ := h
    have := consumes_readList unread _ h₂
    rw [readSymbol_eq_ok unread h₃] at this
    simp only [List.length_cons] at this ⊢
    omega

theorem consumes_readExpression : Consumes (readExpression unread) := by
  intro ls e rest h
  unfold readExpression at h
  simp only [bind_eq_ok, Prod.exists] at h
  obtain ⟨name, ls₁, h₁, h⟩ := h
  rw [readWord_eq_ok unread h₁]
  split at h
  · simp at h
  · have := consumes_readArguments unread _ h
    simp only [List.length_cons]
    omega

/-- Reads the expressions of a group in braces, with the braces around them. -/
def readBraced (ls : List Lexeme) : Except Fault (List Expression × List Lexeme) := do
  let ls₁ ← readSymbol unread .openBrace ls
  if startsWith .closeBrace ls₁ then faultAt .noExpression ls₁
  else
    let (es, ls₂) ← readList unread (readExpression unread) (consumes_readExpression unread)
      (startsWith .closeBrace) ls₁
    return (es, ← readSymbol unread .closeBrace ls₂)

/-- Reads a group in braces or a loose expression. -/
def readItem (ls : List Lexeme) : Except Fault (Item × List Lexeme) :=
  match ls with
  | .symbol .openBrace :: _ => do
    let (es, rest) ← readBraced unread ls
    return (.braced es, rest)
  | .word _ :: _ => do
    let (e, rest) ← readExpression unread ls
    return (.loose e, rest)
  | _ => unexpectedAt [.symbol .openBrace, .word] ls

theorem consumes_readBraced : Consumes (readBraced unread) := by
  intro ls es rest h
  unfold readBraced at h
  simp only [bind_eq_ok] at h
  obtain ⟨ls₁, h₁, h⟩ := h
  rw [readSymbol_eq_ok unread h₁]
  split at h
  · simp at h
  · simp only [bind_eq_ok, Prod.exists, pure_eq_ok, Prod.mk.injEq] at h
    obtain ⟨es', ls₂, h₂, ls₃, h₃, -, rfl⟩ := h
    have := consumes_readList unread _ h₂
    rw [readSymbol_eq_ok unread h₃] at this
    simp only [List.length_cons] at this ⊢
    omega

theorem consumes_readItem : Consumes (readItem unread) := by
  intro ls i rest h
  unfold readItem at h
  split at h
  · simp only [bind_eq_ok, Prod.exists, pure_eq_ok, Prod.mk.injEq] at h
    obtain ⟨es, ls₁, h₁, -, rfl⟩ := h
    exact consumes_readBraced unread h₁
  · simp only [bind_eq_ok, Prod.exists, pure_eq_ok, Prod.mk.injEq] at h
    obtain ⟨e, ls₁, h₁, -, rfl⟩ := h
    exact consumes_readExpression unread h₁
  · simp at h

/-! ### Schedules -/

/-- **Reads a whole schedule** from the lexemes of a text and what is left of the text where it
cannot be read. -/
def Program.read (ls : List Lexeme) : Except Fault Program :=
  match ls, unread with
  | [], some text => faultAt (.unreadable text) []
  | [], none => faultAt .noExpression []
  | l :: rest, _ => do
    let (items, _) ← readList unread (readItem unread) (consumes_readItem unread) List.isEmpty
      (l :: rest)
    return items

end Timetable
