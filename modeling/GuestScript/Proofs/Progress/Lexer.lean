import GuestScript.Proofs.Progress.Loop
import GuestScript.Token.Lexer
import Mathlib.Data.String.Basic

/-!
# The loops of the lexer take characters

A lexer that is *roomy* knows a size that its text does not exceed, as every lexer does that starts at a text. Then the
bounds that its loops are given exceed what is left of the text. Every round of a loop that is followed by another one
takes a character (`Lexer.IsLoop.takes`), so the loops come to an end by themselves, and a larger size changes nothing.
-/

namespace GuestScript

open String (utf8Len)
open Stage

theorem ite_bind {ε σ α β : Type} {c : Prop} [Decidable c] (x y : EStateM ε σ α) (f : α → EStateM ε σ β) :
    (if c then x else y) >>= f = if c then x >>= f else y >>= f := by
  split <;> rfl

theorem length_le_utf8Len : ∀ l : List Char, l.length ≤ utf8Len l
  | [] => Nat.le_refl 0
  | c :: l => by
    have hc := c.utf8Size_pos
    have hl := length_le_utf8Len l
    simp only [List.length_cons, String.utf8Len_cons]
    omega

namespace Lexer

variable {α β : Type} {k : Nat} {before stage : Stage}

/-! ## 1. Sizes -/

/-- Whether the size that a lexer knows suffices for the rest of its text. -/
def Roomy (l : Lexer) : Prop :=
  l.offset + utf8Len l.rest ≤ l.size

/-- Lexers that differ in the sizes they know, which suffice for what is left. -/
structure SameText (l l' : Lexer) : Prop where
  eq : l' = { l with size := l'.size }
  roomy : l.Roomy
  roomy' : l'.Roomy

/-- Two lexers at the same place of a text, which know different sizes. -/
def sizes : Comparison LexError Lexer where
  Same := SameText
  left l := l.rest.length
  ended l := l.rest.isEmpty
  Pardons _ := False
  left_eq h := by rw [h.eq]

theorem roomy_ofText (source : String) : (ofText source).Roomy := by
  simp [Roomy, ofText, ← String.utf8ByteSize_ofList]

theorem SameText.refl {l : Lexer} (h : l.Roomy) : SameText l l :=
  ⟨rfl, h, h⟩

theorem Roomy.lt_fuel {l : Lexer} (h : l.Roomy) : l.rest.length < l.fuel := by
  have hle := length_le_utf8Len l.rest
  simp only [Roomy, fuel] at h ⊢
  omega

theorem SameText.next {l l' : Lexer} (h : SameText l l') : SameText l.next l'.next := by
  obtain ⟨heq, hroomy, hroomy'⟩ := h
  rw [heq] at hroomy' ⊢
  obtain ⟨rest, size, offset, line, column, tokenStart, tokenPosition⟩ := l
  cases rest with
  | nil => exact ⟨rfl, hroomy, hroomy'⟩
  | cons c rest =>
    simp only [Roomy, String.utf8Len_cons] at hroomy hroomy'
    refine ⟨rfl, ?_, ?_⟩ <;> simp only [Roomy, Lexer.next] <;> omega

theorem left_next_le (l : Lexer) : l.next.rest.length ≤ l.rest.length := by
  unfold next
  split <;> simp [*]

theorem left_next_lt {l : Lexer} (h : l.rest.isEmpty = false) : l.next.rest.length < l.rest.length := by
  unfold next
  split <;> simp_all

/-! ## 2. Steps -/

/-- What a reader changes in the same way in all lexers at a place. -/
theorem alike_change {f : Lexer → α × Lexer} {after : α → Stage}
    (hsame : ∀ l l', SameText l l' → (f l).1 = (f l').1 ∧ SameText (f l).2 (f l').2)
    (hfits : ∀ l, before.Fits sizes k l → (after (f l).1).Fits sizes k (f l).2) :
    Alike sizes k before after (fun l => .ok (f l).1 (f l).2) fun l => .ok (f l).1 (f l).2 := by
  intro l l' h hl
  obtain ⟨hresult, hafter⟩ := hsame l l' h
  dsimp only
  rw [← hresult]
  exact .ok hafter (hfits l hl)

theorem alike_fail {after : α → Stage} (message : String) : Alike sizes k before after (fail message) (fail message) := by
  intro l l' h hl
  have hposition : l'.position = l.position := by rw [h.eq]; rfl
  simp only [fail, hposition]
  exact .error h hl.le

theorem fail_bind (message : String) (f : α → Lex β) : (fail message : Lex α) >>= f = fail message :=
  rfl

theorem alike_peek : Alike sizes k before (fun c => before.ifSeen c.isSome) peek peek := by
  refine alike_change (f := fun l => (l.rest.head?, l)) (fun l l' h => ⟨by rw [h.eq], h⟩) fun l hl => ?_
  cases before with
  | fresh =>
    cases hrest : l.rest with
    | nil => simpa [ifSeen, hrest] using hl
    | cons c rest => exact ⟨hl, by simp [sizes, hrest]⟩
  | ready | moved => cases l.rest.head?.isSome <;> exact hl

theorem alike_peekSecond : Alike sizes k before (fun _ => before) peekSecond peekSecond :=
  alike_change (f := fun l => (l.rest.tail.head?, l)) (fun l l' h => ⟨by rw [h.eq], h⟩) fun _ hl => hl

theorem alike_advance : Alike sizes k fresh (fun c => fresh.ifTaken c.isSome) advance advance := by
  refine alike_change (f := fun l => (l.rest.head?, l.next)) (fun l l' h => ⟨by rw [h.eq], h.next⟩) fun l hl => ?_
  have hle : l.rest.length ≤ k := hl
  cases hrest : l.rest with
  | nil => exact Nat.le_trans (left_next_le l) hl
  | cons c rest => exact Nat.lt_of_lt_of_le (left_next_lt (by simp [hrest])) hl

/-- What follows a look at the next character may use that it is the next one. -/
theorem alike_ahead {after : β → Stage} {f : Option Char → Lex β}
    (h : ∀ l l', SameText l l' → before.Fits sizes k l → Agree sizes k after (f l.rest.head? l) (f l.rest.head? l')) :
    Alike sizes k before after (peek >>= f) (peek >>= f) := by
  intro l l' hsame hl
  have hrest : l'.rest = l.rest := by rw [hsame.eq]
  change Agree sizes k after (f l.rest.head? l) (f l'.rest.head? l')
  rw [hrest]
  exact h l l' hsame hl

/-- Where something is ahead, it is taken. -/
theorem alike_take : Alike sizes k ready (fun _ => moved) advance advance :=
  alike_change (f := fun l => (l.rest.head?, l.next)) (fun l l' h => ⟨by rw [h.eq], h.next⟩)
    fun _ hl => Nat.lt_of_lt_of_le (left_next_lt hl.2) hl.1

/-- Whether a reader does the same for all sizes, and never goes back. -/
def Steady (x : Lex α) : Prop :=
  ∀ k, Alike sizes k fresh (fun _ => fresh) x x

variable {x : Lex α}

theorem Steady.moved (h : Steady x) : Alike sizes k .moved (fun _ => .moved) x x :=
  Alike.later fun k' _ => h k'

theorem Steady.bind {f : α → Lex β} (hx : Steady x) (hf : ∀ a, Steady (f a)) : Steady (x >>= f) :=
  fun k => (hx k).bind fun a => hf a k

theorem steady_pure (a : α) : Steady (pure a) :=
  fun _ => alike_pure trivial

theorem steady_fail (message : String) : Steady (fail message : Lex α) :=
  fun _ => alike_fail message

theorem steady_ite {c : Prop} [Decidable c] {y : Lex α} (hx : Steady x) (hy : Steady y) :
    Steady (if c then x else y) := by
  split
  · exact hx
  · exact hy

theorem steady_peek : Steady peek :=
  fun _ => alike_peek.weaken (below_refl fresh) fun _ => trivial

theorem steady_peekSecond : Steady peekSecond :=
  fun _ => alike_peekSecond

theorem steady_advance : Steady advance :=
  fun _ => alike_advance.weaken trivial fun _ => trivial

theorem alike_eat (expected : Char) : Alike sizes k fresh (fun eaten => fresh.ifTaken eaten) (eat expected) (eat expected) := by
  intro l l' h hl
  have hhead : l'.rest = l.rest := by rw [h.eq]
  simp only [eat, hhead]
  split
  · rename_i hc
    refine .ok h.next (Nat.lt_of_lt_of_le (left_next_lt ?_) hl)
    cases hrest : l.rest with
    | nil => simp [hrest] at hc
    | cons _ _ => rfl
  · exact .ok h hl

theorem steady_eat (expected : Char) : Steady (eat expected) :=
  fun _ => (alike_eat expected).weaken trivial fun _ => trivial

theorem steady_newLine (c : Char) : Steady (newLine c) := by
  refine fun k => alike_change
    (f := fun l => ((), { (if c = '\r' && l.rest.head? = some '\n' then l.next else l) with line := _, column := 0 }))
    (fun l l' h => ⟨rfl, ?_⟩) fun l hl => ?_
  · have hrest : l'.rest = l.rest := by rw [h.eq]
    have hstep {l l' : Lexer} (h : SameText l l') :
        SameText { l with line := l.line + 1, column := 0 } { l' with line := l'.line + 1, column := 0 } := by
      obtain ⟨heq, hroomy, hroomy'⟩ := h
      refine ⟨?_, hroomy, hroomy'⟩
      rw [heq]
    rw [hrest]
    split
    · exact hstep h.next
    · exact hstep h
  · dsimp only [Fits, sizes] at hl ⊢
    split
    · exact Nat.le_trans (left_next_le l) hl
    · exact hl

/-! ## 3. Loops -/

theorem SameText.lt_fuel {l l' : Lexer} (h : SameText l l') : sizes.left l < l.fuel ∧ sizes.left l < l'.fuel :=
  ⟨h.roomy.lt_fuel, sizes.left_eq h ▸ h.roomy'.lt_fuel⟩

/-- **A loop whose rounds take** may have any bound that exceeds what is left. -/
theorem alike_fuelled {Carry Result : Type} (loop : Loop LexError Lexer Carry Result) {last : Result → Stage}
    (hround : ∀ k c, Alike sizes k fresh (afterRound last) (loop.round c) (loop.round c)) (c : Carry) :
    Alike sizes k fresh last (fuelled fun fuel => loop.run fuel c) (fuelled fun fuel => loop.run fuel c) :=
  fun _ _ h hl => Loop.alike_run (fun k' _ => hround k') h hl h.lt_fuel.1 h.lt_fuel.2

/-- The loop that passes over characters. -/
def skipLoop (p : Char → Bool) : Loop LexError Lexer Unit Unit where
  run bound _ l := .ok () (skipWhile p bound l)
  round _ := do
    match ← peek with
    | none => pure (.inr ())
    | some c =>
      if p c then
        let _ ← advance
        pure (.inl ())
      else pure (.inr ())
  unroll bound _ := by
    funext l
    simp only [skipWhile, Bind.bind, EStateM.bind, peek]
    cases l.rest with
    | nil => rfl
    | cons c rest =>
      dsimp only [List.head?]
      cases p c <;> rfl

/-- The loop over a block comment. -/
def commentLoop : Loop LexError Lexer Bool Bool where
  run := blockComment
  round broken := do
    match ← advance with
    | none => fail "Unterminated comment"
    | some '*' => if ← eat '/' then pure (.inr broken) else pure (.inl broken)
    | some c =>
      if isLineBreak c then
        newLine c
        pure (.inl true)
      else pure (.inl broken)
  unroll bound broken := by
    simp only [blockComment, bind_assoc]
    refine bind_congr fun c => ?_
    split <;> simp only [ite_bind, bind_assoc, pure_bind, fail_bind, Sum.elim_inl, Sum.elim_inr]

/-- The loop over the digits of an escape: how many there were, and their value. -/
def bracedLoop : Loop LexError Lexer (Nat × Nat) Nat where
  run bound c := bracedDigits bound c.1 c.2
  round := fun (count, value) => do
    match ← advance with
    | none => fail "Bad character escape sequence"
    | some c =>
      if c = '\x7d' && count > 0 then pure (.inr value)
      else
        match hexValue? c with
        | none => fail "Bad character escape sequence"
        | some d =>
          let value := value * 16 + d
          if value > 0x10FFFF then fail "Code point out of bounds" else pure (.inl (count + 1, value))
  unroll bound c := by
    simp only [bracedDigits, bind_assoc]
    refine bind_congr fun c => ?_
    cases c with
    | none => rfl
    | some c =>
      dsimp only
      cases hexValue? c <;> simp only [ite_bind, pure_bind, fail_bind, Sum.elim_inl, Sum.elim_inr]

/-- The loop over the characters of a string. -/
def stringLoop (quote : Char) : Loop LexError Lexer (List Char) String where
  run := stringChars quote
  round acc := do
    match ← advance with
    | none => fail "Unterminated string constant"
    | some c =>
      if c = quote then pure (.inr (String.ofList acc.reverse))
      else if c = '\n' || c = '\r' then fail "Unterminated string constant"
      else if c = '\\' then
        let cs ← escape
        pure (.inl (cs.reverse ++ acc))
      else pure (.inl (c :: acc))
  unroll bound acc := by
    simp only [stringChars, bind_assoc]
    refine bind_congr fun c => ?_
    cases c with
    | none => rfl
    | some c => simp only [ite_bind, bind_assoc, pure_bind, fail_bind, Sum.elim_inl, Sum.elim_inr]

/-- The loop over the characters of a template piece. -/
def templateLoop : Loop LexError Lexer (Option (List Char) × List Char) (Option String × String × Bool) where
  run bound c := templateChars bound c.1 c.2
  round := fun (cooked, raw) => do
    let done (last : Bool) : Option String × String × Bool :=
      (cooked.map (fun cs => String.ofList cs.reverse), String.ofList raw.reverse, last)
    match ← advance with
    | none => fail "Unterminated template"
    | some '`' => pure (.inr (done true))
    | some '\\' =>
      let (meaning, written) ← tryEscape
      let cooked :=
        match meaning, cooked with
        | some cs, some acc => some (cs.reverse ++ acc)
        | _, _ => none
      pure (.inl (cooked, written.reverse ++ '\\' :: raw))
    | some c =>
      if c = '$' && (← peek) == some '\x7b' then
        let _ ← advance
        pure (.inr (done false))
      else if isLineBreak c then
        newLine c
        let c := if c = '\r' then '\n' else c
        pure (.inl (cooked.map (c :: ·), c :: raw))
      else pure (.inl (cooked.map (c :: ·), c :: raw))
  unroll bound c := by
    obtain ⟨cooked, raw⟩ := c
    simp only [templateChars, bind_assoc]
    refine bind_congr fun c => ?_
    split
    case h_3 =>
      change _ = (tryEscape >>= _) >>= _
      rw [bind_assoc]
      rfl
    all_goals simp only [ite_bind, bind_assoc, pure_bind, fail_bind, Sum.elim_inl, Sum.elim_inr]

/-- The loop over decimal digits and the underscores between them. -/
def decimalLoop : Loop LexError Lexer (List Char × Bool) (List Char) where
  run bound c := decimalDigits bound c.1 c.2
  round := fun (acc, afterDigit) => do
    match ← peek with
    | none => pure (.inr acc)
    | some c =>
      if c.isDigit then
        let _ ← advance
        pure (.inl (c :: acc, true))
      else if c = '_' && afterDigit && (← peekSecond).any Char.isDigit then
        let _ ← advance
        pure (.inl (acc, false))
      else pure (.inr acc)
  unroll bound c := by
    obtain ⟨acc, afterDigit⟩ := c
    simp only [decimalDigits, bind_assoc]
    refine bind_congr fun c => ?_
    cases c with
    | none => rfl
    | some c => simp only [ite_bind, bind_assoc, pure_bind, Sum.elim_inl, Sum.elim_inr]

/-- The loop over the digits of a number in a radix. -/
def radixLoop (radix : Nat) : Loop LexError Lexer (Float × Bool × Bool) (Float × Bool) where
  run bound c := radixDigits radix bound c.1 c.2.1 c.2.2
  round := fun (value, any, afterDigit) => do
    match ← peek with
    | none => pure (.inr (value, any))
    | some c =>
      match digitValue? radix c with
      | some d =>
        let _ ← advance
        pure (.inl (value * Number.ofNat radix + Number.ofNat d, true, true))
      | none =>
        if c = '_' && afterDigit && ((← peekSecond).bind (digitValue? radix)).isSome then
          let _ ← advance
          pure (.inl (value, any, false))
        else pure (.inr (value, any))
  unroll bound c := by
    obtain ⟨value, any, afterDigit⟩ := c
    simp only [radixDigits, bind_assoc]
    refine bind_congr fun c => ?_
    cases c with
    | none => rfl
    | some c =>
      dsimp only
      cases digitValue? radix c <;>
        simp only [ite_bind, bind_assoc, pure_bind, Sum.elim_inl, Sum.elim_inr]

/-- The loop over plain digits. -/
def plainLoop : Loop LexError Lexer (List Char) (List Char) where
  run := plainDigits
  round acc := do
    match ← peek with
    | some c =>
      if c.isDigit then
        let _ ← advance
        pure (.inl (c :: acc))
      else pure (.inr acc)
    | none => pure (.inr acc)
  unroll bound acc := by
    simp only [plainDigits, bind_assoc]
    refine bind_congr fun c => ?_
    cases c with
    | none => rfl
    | some c => simp only [ite_bind, bind_assoc, pure_bind, Sum.elim_inl, Sum.elim_inr]

/-- The loop over the characters of a name. -/
def nameLoop : Loop LexError Lexer (Char × List Char × Bool) (String × Bool) where
  run bound c := nameChars bound c.1 c.2.1 c.2.2
  round := fun (c, acc, escaped) => do
    let (c', escaped) ←
      if c = '\\' then do
        let c' ← nameEscape acc.isEmpty
        pure (c', true)
      else pure (c, escaped)
    let acc := c' :: acc
    match ← peek with
    | some n =>
      if n = '\\' || Text.isIdentifierPart n then
        let _ ← advance
        pure (.inl (n, acc, escaped))
      else pure (.inr (String.ofList acc.reverse, escaped))
    | none => pure (.inr (String.ofList acc.reverse, escaped))
  unroll bound c := by
    obtain ⟨c, acc, escaped⟩ := c
    simp only [nameChars, ite_bind, bind_assoc, pure_bind]
    split
    · refine bind_congr fun c' => bind_congr fun n => ?_
      cases n <;> simp only [ite_bind, bind_assoc, pure_bind, Sum.elim_inl, Sum.elim_inr]
    · refine bind_congr fun n => ?_
      cases n <;> simp only [ite_bind, bind_assoc, pure_bind, Sum.elim_inl, Sum.elim_inr]

/-- The loop over the pattern of a regular expression. -/
def patternLoop : Loop LexError Lexer (Bool × List Char) String where
  run bound c := regexChars bound c.1 c.2
  round := fun (inClass, acc) => do
    match ← advance with
    | none => fail "Unterminated regular expression"
    | some c =>
      if isLineBreak c then fail "Unterminated regular expression"
      else if c = '/' && !inClass then pure (.inr (String.ofList acc.reverse))
      else if c = '\\' then
        match ← advance with
        | some d =>
          if isLineBreak d then fail "Unterminated regular expression"
          else pure (.inl (inClass, d :: c :: acc))
        | none => fail "Unterminated regular expression"
      else if c = '[' then pure (.inl (true, c :: acc))
      else if c = ']' then pure (.inl (false, c :: acc))
      else pure (.inl (inClass, c :: acc))
  unroll bound c := by
    obtain ⟨inClass, acc⟩ := c
    simp only [regexChars, bind_assoc]
    refine bind_congr fun c => ?_
    cases c with
    | none => rfl
    | some c =>
      simp only [ite_bind, bind_assoc, pure_bind, fail_bind, Sum.elim_inl, Sum.elim_inr]
      -- only the character after a backslash is read in a step of its own
      refine ite_congr rfl (fun _ => rfl) fun _ => ite_congr rfl (fun _ => rfl) fun _ => ?_
      refine ite_congr rfl (fun _ => bind_congr fun d => ?_) fun _ => rfl
      cases d <;> simp only [ite_bind, pure_bind, fail_bind, Sum.elim_inl]

/-- The loop over the flags of a regular expression. -/
def flagLoop : Loop LexError Lexer (List Char) String where
  run := regexFlags
  round acc := do
    match ← peek with
    | none => pure (.inr (String.ofList acc.reverse))
    | some c =>
      if Text.isIdentifierPart c then
        if "dgimsuyv".toList.contains c && !acc.contains c then
          let _ ← advance
          pure (.inl (c :: acc))
        else fail "Invalid regular expression flag"
      else pure (.inr (String.ofList acc.reverse))
  unroll bound acc := by
    simp only [regexFlags, bind_assoc]
    refine bind_congr fun c => ?_
    cases c with
    | none => rfl
    | some c => simp only [ite_bind, bind_assoc, pure_bind, fail_bind, Sum.elim_inl, Sum.elim_inr]

/-- The loop over the blanks and comments before a token. -/
def tokenSearch : Loop LexError Lexer Unit Token where
  run bound _ := tokenLoop bound
  round _ := do
    startToken
    let second ← peekSecond
    match ← peek with
    | none => pure (.inr .eof)
    | some c =>
      if isLineBreak c then
        let _ ← advance
        newLine c
        pure (.inr .newline)
      else if c = '/' && second == some '/' then
        skipLine
        pure (.inl ())
      else if c = '/' && second == some '*' then
        let _ ← advance
        let _ ← advance
        if ← fuelled (fun fuel => blockComment fuel false) then pure (.inr .newline) else pure (.inl ())
      else if c = '#' && second == some '!' && (← get).offset == 0 then
        skipLine
        pure (.inl ())
      else .inr <$> tokenFrom c
  unroll bound _ := by
    simp only [tokenLoop, bind_assoc]
    refine bind_congr fun _ => bind_congr fun second => bind_congr fun c => ?_
    cases c with
    | none => rfl
    | some c => simp only [ite_bind, bind_assoc, pure_bind, Sum.elim_inl, Sum.elim_inr, map_eq_pure_bind, bind_pure]

/-! ## 4. Rounds and readers -/

section

variable {last : Result → Stage}

/-- What is read by rounds that take never goes back. -/
theorem steady_fuelled {Carry Result : Type} (loop : Loop LexError Lexer Carry Result)
    (hround : ∀ k c, Alike sizes k fresh (afterRound fun _ => fresh) (loop.round c) (loop.round c)) (c : Carry) :
    Steady (fuelled fun fuel => loop.run fuel c) :=
  fun _ => alike_fuelled loop hround c

end

/-! ### Blanks and comments -/

theorem alike_skipRound (p : Char → Bool) (k : Nat) (c : Unit) :
    Alike sizes k fresh (afterRound fun _ => fresh) ((skipLoop p).round c) ((skipLoop p).round c) := by
  refine alike_peek.bind fun c => ?_
  cases c with
  | none => exact alike_pure trivial
  | some c => exact alike_ite (fun _ => alike_take.bind fun _ => alike_pure trivial) fun _ => alike_pure trivial

theorem steady_skip (p : Char → Bool) : Steady fun l => .ok () (skipWhile p l.fuel l) :=
  steady_fuelled (skipLoop p) (alike_skipRound p) ()

theorem steady_startToken : Steady startToken := by
  -- the token starts where the blanks end
  have hmark : Steady fun l => .ok () { l with tokenStart := l.offset, tokenPosition := l.position } := by
    refine fun k => alike_change (f := fun l => ((), { l with tokenStart := l.offset, tokenPosition := l.position }))
      (fun l l' h => ⟨rfl, ?_⟩) fun _ hl => hl
    obtain ⟨heq, hroomy, hroomy'⟩ := h
    refine ⟨?_, hroomy, hroomy'⟩
    rw [heq]
    rfl
  exact (steady_skip isBlank).bind fun _ => hmark

theorem alike_commentRound (k : Nat) (broken : Bool) :
    Alike sizes k fresh (afterRound fun _ => fresh) (commentLoop.round broken) (commentLoop.round broken) := by
  refine alike_advance.bind fun c => ?_
  split
  · exact alike_fail _
  · exact (steady_eat _).moved.bind fun _ => alike_ite (fun _ => alike_pure trivial) fun _ => alike_pure trivial
  · refine alike_ite (fun _ => ?_) fun _ => alike_pure trivial
    exact (steady_newLine _).moved.bind fun _ => alike_pure trivial

/-! ### Escapes -/

theorem steady_hexDigit : Steady hexDigit := by
  refine steady_advance.bind fun c => ?_
  split
  · exact steady_pure _
  · exact steady_fail _

theorem alike_bracedRound (k : Nat) (c : Nat × Nat) :
    Alike sizes k fresh (afterRound fun _ => fresh) (bracedLoop.round c) (bracedLoop.round c) := by
  refine alike_advance.bind fun c => ?_
  cases c with
  | none => exact alike_fail _
  | some c =>
    refine alike_ite (fun _ => alike_pure trivial) fun _ => ?_
    cases hexValue? c with
    | none => exact alike_fail _
    | some d => exact alike_ite (fun _ => alike_fail _) fun _ => alike_pure trivial

theorem steady_codePoint : Steady codePoint :=
  (steady_eat _).bind fun _ => steady_ite (steady_fuelled bracedLoop alike_bracedRound (0, 0)) <|
    steady_hexDigit.bind fun _ => steady_hexDigit.bind fun _ => steady_hexDigit.bind fun _ =>
      steady_hexDigit.bind fun _ => steady_pure _

theorem steady_unicodeEscape : Steady unicodeEscape := by
  refine steady_codePoint.bind fun code k l l' h hl => ?_
  have hrest : l'.rest = l.rest := by rw [h.eq]
  rw [hrest]
  generalize (if 0xD800 ≤ code ∧ code < 0xDC00 then lowSurrogate? l.rest else none) = low
  cases low with
  | none => exact .ok h hl
  | some low =>
    refine .ok h.next.next.next.next.next.next ?_
    have hle := left_next_le
    exact ((((((hle _).trans (hle _)).trans (hle _)).trans (hle _)).trans (hle _)).trans (hle l)).trans hl

theorem steady_octalEscape (first : Char) : Steady (octalEscape first) := by
  refine steady_peek.bind fun c => ?_
  dsimp only
  split
  · exact steady_pure _
  · refine steady_advance.bind fun _ => steady_ite (steady_peek.bind fun _ => ?_) (steady_pure _)
    split
    · exact steady_pure _
    · exact steady_advance.bind fun _ => steady_pure _

theorem steady_escape : Steady escape := by
  refine steady_advance.bind fun c => ?_
  split
  · exact steady_fail _
  · split
    case h_7 =>
      refine steady_advance.bind fun _ => steady_advance.bind fun _ => ?_
      dsimp only
      split
      · exact steady_pure _
      · exact steady_fail _
    case h_8 => exact steady_unicodeEscape
    case h_9 =>
      refine steady_ite ?_ <| steady_ite (steady_fail _) <|
        steady_ite ((steady_newLine _).bind fun _ => steady_pure _) (steady_pure _)
      exact steady_peek.bind fun _ => steady_ite (steady_pure _) (steady_octalEscape _)
    all_goals exact steady_pure _

/-! ### Strings and templates -/

theorem alike_stringRound (quote : Char) (k : Nat) (acc : List Char) :
    Alike sizes k fresh (afterRound fun _ => fresh) ((stringLoop quote).round acc) ((stringLoop quote).round acc) := by
  refine alike_advance.bind fun c => ?_
  cases c with
  | none => exact alike_fail _
  | some c =>
    refine alike_ite (fun _ => alike_pure trivial) fun _ => alike_ite (fun _ => alike_fail _) fun _ => ?_
    refine alike_ite (fun _ => ?_) fun _ => alike_pure trivial
    exact steady_escape.moved.bind fun _ => alike_pure trivial

/-- A fault in an escape of a template leaves all lexers where it was seen. -/
theorem steady_tryEscape : Steady tryEscape := by
  intro k l l' h hl
  have hrest : l'.rest = l.rest := by rw [h.eq]
  have hescape := steady_escape k l l' h hl
  unfold tryEscape
  simp only [hrest]
  generalize escape l = r, escape l' = r' at hescape
  cases hescape with
  | @ok cs m m' hsame hfits =>
    have hm : m'.rest = m.rest := by rw [hsame.eq]
    simp only [hm]
    exact .ok hsame hfits
  | @error e m m' hsame hle =>
    have hm : m'.rest = m.rest := by rw [hsame.eq]
    simp only [hm]
    exact .ok hsame hle
  | pardoned h => exact h.elim

theorem alike_templateRound (k : Nat) (c : Option (List Char) × List Char) :
    Alike sizes k fresh (afterRound fun _ => fresh) (templateLoop.round c) (templateLoop.round c) := by
  refine alike_advance.bind fun c => ?_
  split
  · exact alike_fail _
  · exact alike_pure trivial
  · exact steady_tryEscape.moved.bind fun _ => alike_pure trivial
  · refine steady_peek.moved.bind fun _ => alike_ite (fun _ => ?_) fun _ => alike_ite (fun _ => ?_) fun _ => ?_
    · exact steady_advance.moved.bind fun _ => alike_pure trivial
    · exact (steady_newLine _).moved.bind fun _ => alike_pure trivial
    · exact alike_pure trivial

theorem steady_templatePiece (place other : TemplatePlace) : Steady (templatePiece place other) :=
  (steady_fuelled templateLoop alike_templateRound (some [], [])).bind fun _ => steady_pure _

/-! ### Numbers and words -/

theorem alike_decimalRound (k : Nat) (c : List Char × Bool) :
    Alike sizes k fresh (afterRound fun _ => fresh) (decimalLoop.round c) (decimalLoop.round c) := by
  refine alike_peek.bind fun c => ?_
  cases c with
  | none => exact alike_pure trivial
  | some c =>
    refine alike_ite (fun _ => alike_take.bind fun _ => alike_pure trivial) fun _ => alike_peekSecond.bind fun _ => ?_
    exact alike_ite (fun _ => alike_take.bind fun _ => alike_pure trivial) fun _ => alike_pure trivial

theorem steady_moreDigits (acc : List Char) : Steady (moreDigits acc) :=
  steady_fuelled decimalLoop alike_decimalRound (acc, acc.head?.any Char.isDigit)

theorem steady_exponentPart (acc : List Char) : Steady (exponentPart acc) := by
  refine steady_peek.bind fun c => ?_
  have hdigits : ∀ acc : List Char, Steady (do
      let digits ← moreDigits acc
      if digits.length = acc.length then fail "Invalid number" else pure digits) := fun acc =>
    (steady_moreDigits acc).bind fun _ => steady_ite (steady_fail _) (steady_pure _)
  split
  · refine steady_ite (steady_advance.bind fun _ => steady_peek.bind fun s => ?_) (steady_pure _)
    split
    · exact steady_ite (steady_advance.bind fun _ => hdigits _) (hdigits _)
    · exact hdigits _
  · exact steady_pure _

theorem steady_checkAfterNumber (digitsToo : Bool) : Steady (checkAfterNumber digitsToo) := by
  refine steady_peek.bind fun c => ?_
  split
  · exact steady_pure _
  · exact steady_ite (steady_fail _) (steady_ite (steady_fail _) (steady_pure _))

theorem steady_decimalToken (acc : List Char) : Steady (decimalToken acc) := by
  refine (steady_checkAfterNumber _).bind fun _ => ?_
  split
  · exact steady_pure _
  · exact steady_fail _

theorem alike_radixRound (radix k : Nat) (c : Float × Bool × Bool) :
    Alike sizes k fresh (afterRound fun _ => fresh) ((radixLoop radix).round c) ((radixLoop radix).round c) := by
  refine alike_peek.bind fun c => ?_
  cases c with
  | none => exact alike_pure trivial
  | some c =>
    dsimp only
    cases digitValue? radix c with
    | some d => exact alike_take.bind fun _ => alike_pure trivial
    | none =>
      refine alike_peekSecond.bind fun _ => ?_
      exact alike_ite (fun _ => alike_take.bind fun _ => alike_pure trivial) fun _ => alike_pure trivial

theorem steady_radixNumber (radix : Nat) : Steady (radixNumber radix) :=
  (steady_fuelled (radixLoop radix) (alike_radixRound radix) (0.0, false, false)).bind fun _ =>
    steady_ite ((steady_checkAfterNumber _).bind fun _ => steady_pure _) (steady_fail _)

theorem alike_plainRound (k : Nat) (acc : List Char) :
    Alike sizes k fresh (afterRound fun _ => fresh) (plainLoop.round acc) (plainLoop.round acc) := by
  refine alike_peek.bind fun c => ?_
  cases c with
  | none => exact alike_pure trivial
  | some c => exact alike_ite (fun _ => alike_take.bind fun _ => alike_pure trivial) fun _ => alike_pure trivial

theorem steady_zeroNumber : Steady zeroNumber := by
  refine (steady_fuelled plainLoop alike_plainRound ['0']).bind fun acc => ?_
  have hrest : ∀ acc : List Char, Steady (do decimalToken (← exponentPart acc)) := fun acc =>
    (steady_exponentPart acc).bind fun _ => steady_decimalToken _
  refine steady_ite ((steady_checkAfterNumber _).bind fun _ => steady_pure _) (steady_peek.bind fun _ => ?_)
  exact steady_ite (steady_advance.bind fun _ => (steady_moreDigits _).bind fun _ => hrest _) (hrest _)

theorem steady_decimalNumber (first : Char) : Steady (decimalNumber first) := by
  have hrest : ∀ acc : List Char, Steady (do decimalToken (← exponentPart (← moreDigits acc))) := fun acc =>
    (steady_moreDigits acc).bind fun _ => (steady_exponentPart _).bind fun _ => steady_decimalToken _
  refine steady_ite (hrest _) ((steady_moreDigits _).bind fun acc => steady_peek.bind fun _ => ?_)
  exact steady_ite (steady_advance.bind fun _ => hrest _) (hrest _)

theorem steady_number (first : Char) : Steady (number first) := by
  refine steady_ite (steady_peek.bind fun c => ?_) (steady_decimalNumber _)
  split
  · exact steady_decimalNumber _
  · dsimp only
    split
    · exact steady_advance.bind fun _ => steady_radixNumber _
    · exact steady_ite steady_zeroNumber (steady_decimalNumber _)

theorem steady_nameEscape (isFirst : Bool) : Steady (nameEscape isFirst) :=
  (steady_eat _).bind fun _ => steady_ite
    (steady_codePoint.bind fun _ => steady_ite (steady_pure _) (steady_fail _)) (steady_fail _)

theorem alike_nameRound (k : Nat) (c : Char × List Char × Bool) :
    Alike sizes k fresh (afterRound fun _ => fresh) (nameLoop.round c) (nameLoop.round c) := by
  refine alike_ite (fun _ => (steady_nameEscape _ k).bind fun _ => (steady_pure _ k).bind fun _ => alike_peek.bind fun n => ?_)
    fun _ => (steady_pure _ k).bind fun _ => alike_peek.bind fun n => ?_
  all_goals
    cases n with
    | none => exact alike_pure trivial
    | some n => exact alike_ite (fun _ => alike_take.bind fun _ => alike_pure trivial) fun _ => alike_pure trivial

theorem steady_word (first : Char) : Steady (word first) := by
  have hname : Steady (fuelled fun fuel => nameLoop.run (fuel + 1) (first, [], false)) := fun k l l' h hl =>
    Loop.alike_run (fun k' _ => alike_nameRound k') h hl (Nat.lt_succ_of_lt h.lt_fuel.1) (Nat.lt_succ_of_lt h.lt_fuel.2)
  refine hname.bind fun name => ?_
  refine steady_ite (steady_ite (steady_fail _) (steady_pure _)) <| steady_ite (steady_pure _) <|
    steady_ite (steady_pure _) <| steady_ite (steady_pure _) ?_
  split <;> exact steady_pure _

/-! ### Regular expressions and punctuators -/

theorem alike_patternRound (k : Nat) (c : Bool × List Char) :
    Alike sizes k fresh (afterRound fun _ => fresh) (patternLoop.round c) (patternLoop.round c) := by
  refine alike_advance.bind fun c => ?_
  cases c with
  | none => exact alike_fail _
  | some c =>
    refine alike_ite (fun _ => alike_fail _) fun _ => alike_ite (fun _ => alike_pure trivial) fun _ => ?_
    refine alike_ite (fun _ => steady_advance.moved.bind fun d => ?_) fun _ =>
      alike_ite (fun _ => alike_pure trivial) fun _ => alike_ite (fun _ => alike_pure trivial) fun _ => alike_pure trivial
    cases d with
    | none => exact alike_fail _
    | some d => exact alike_ite (fun _ => alike_fail _) fun _ => alike_pure trivial

theorem alike_flagRound (k : Nat) (acc : List Char) :
    Alike sizes k fresh (afterRound fun _ => fresh) (flagLoop.round acc) (flagLoop.round acc) := by
  refine alike_peek.bind fun c => ?_
  cases c with
  | none => exact alike_pure trivial
  | some c =>
    refine alike_ite (fun _ => alike_ite (fun _ => ?_) fun _ => alike_fail _) fun _ => alike_pure trivial
    exact alike_take.bind fun _ => alike_pure trivial

theorem steady_regex (taken : String) : Steady (regex taken) :=
  (steady_fuelled patternLoop alike_patternRound (false, taken.toList.reverse)).bind fun _ =>
    (steady_fuelled flagLoop alike_flagRound []).bind fun _ => steady_pure _

theorem steady_withAssign (plain assigned : Punctuator) : Steady (withAssign plain assigned) :=
  (steady_eat _).bind fun _ => steady_ite (steady_pure _) (steady_pure _)

theorem steady_punctuator (first : Char) : Steady (punctuator first) := by
  have hjust : ∀ mark, Steady (pure (Token.punctuator mark)) := fun _ => steady_pure _
  fun_cases punctuator first
  case case12 =>
    refine steady_peek.bind fun _ => steady_peekSecond.bind fun _ => steady_ite ?_ (hjust _)
    exact steady_advance.bind fun _ => steady_advance.bind fun _ => hjust _
  case case13 =>
    refine (steady_eat _).bind fun _ => steady_ite (steady_withAssign _ _) ?_
    exact steady_peek.bind fun _ => steady_peekSecond.bind fun _ =>
      steady_ite (steady_advance.bind fun _ => hjust _) (hjust _)
  case case14 => exact (steady_eat _).bind fun _ => steady_ite (steady_withAssign _ _) (steady_withAssign _ _)
  case case15 =>
    refine (steady_eat _).bind fun _ => steady_ite ?_ (steady_withAssign _ _)
    exact (steady_eat _).bind fun _ => steady_ite (steady_withAssign _ _) (steady_withAssign _ _)
  case case16 =>
    refine (steady_eat _).bind fun _ => steady_ite (hjust _) ?_
    exact (steady_eat _).bind fun _ => steady_ite (steady_withAssign _ _) (hjust _)
  case case17 => exact (steady_eat _).bind fun _ => steady_ite (steady_withAssign _ _) (hjust _)
  case case18 | case19 => exact (steady_eat _).bind fun _ => steady_ite (hjust _) (steady_withAssign _ _)
  case case20 | case22 | case23 =>
    exact (steady_eat _).bind fun _ => steady_ite (steady_withAssign _ _) (steady_withAssign _ _)
  case case21 | case24 | case25 => exact steady_withAssign _ _
  case case26 =>
    intro k l l' h hl
    have hposition : l'.tokenPosition = l.tokenPosition := by rw [h.eq]
    simp only [hposition]
    exact .error h hl
  all_goals exact hjust _

/-! ### Tokens -/

/-- A token takes its first character. -/
theorem alike_tokenFrom (c : Char) : Alike sizes k ready (fun _ => moved) (tokenFrom c) (tokenFrom c) := by
  have hrest : Steady (do
      if c = '\'' || c = '"' then
        pure (.string (← fuelled (fun fuel => stringChars c fuel [])))
      else if c = '`' then templatePiece .whole .head
      else if c.isDigit then number c
      else if c = '.' && (← peek).any Char.isDigit then number c
      else if c = '\\' || Text.isIdentifierStart c then word c
      else punctuator c) := by
    refine steady_ite ?_ <| steady_ite (steady_templatePiece _ _) <| steady_ite (steady_number _) ?_
    · exact (steady_fuelled (stringLoop c) (alike_stringRound c) []).bind fun _ => steady_pure _
    · exact steady_peek.bind fun _ => steady_ite (steady_number _) <|
        steady_ite (steady_word _) (steady_punctuator _)
  exact alike_take.bind fun _ => hrest.moved

theorem left_skipWhile_le (p : Char → Bool) : ∀ (fuel : Nat) (l : Lexer),
    (skipWhile p fuel l).rest.length ≤ l.rest.length
  | 0, _ => Nat.le_refl _
  | fuel + 1, l => by
    unfold skipWhile
    split
    · split
      · exact (left_skipWhile_le p fuel _).trans (left_next_le l)
      · exact Nat.le_refl _
    · exact Nat.le_refl _

/-- Where the character ahead is one to pass over, it is passed over. -/
theorem left_skipWhile_lt {p : Char → Bool} {fuel : Nat} {l : Lexer} {c : Char} (hc : l.rest.head? = some c)
    (hp : p c = true) : (skipWhile p (fuel + 1) l).rest.length < l.rest.length := by
  cases hrest : l.rest with
  | nil => simp [hrest] at hc
  | cons d rest =>
    obtain rfl : d = c := by simpa [hrest] using hc
    simp only [skipWhile, hrest, hp, if_true]
    have hle := left_skipWhile_le p fuel l.next
    have hlt := left_next_lt (l := l) (by simp [hrest])
    simp only [hrest] at hlt
    omega

/-- How far a search has come when it has found a token: at the end of the text it has taken nothing. -/
def found (t : Token) : Stage :=
  fresh.ifTaken !t.isEof

/-- **A round of the search for a token takes a comment**, or ends with a token, which is the end of the text or takes
a character. -/
theorem alike_searchRound (k : Nat) (c : Unit) :
    Alike sizes k fresh (afterRound found) (tokenSearch.round c) (tokenSearch.round c) := by
  refine (steady_startToken k).bind fun _ => alike_peekSecond.bind fun second => alike_ahead fun l l' h hl => ?_
  cases hhead : l.rest.head? with
  | none => exact .ok h hl
  | some c =>
    have hready : ready.Fits sizes k l := by
      refine ⟨hl, ?_⟩
      cases hrest : l.rest with
      | nil => simp [hrest] at hhead
      | cons _ _ => simp [sizes, hrest]
    -- the rest of a line starts with its first character, which is no line break
    have hskip (hc : isLineBreak c = false) : Agree sizes k (afterRound found)
        ((skipLine >>= fun _ => pure (.inl ())) l) ((skipLine >>= fun _ => pure (.inl ())) l') := by
      have hline := steady_skip (fun c => !isLineBreak c) k l l' h hl
      cases hline with
      | ok hsame _ => exact .ok hsame (Nat.lt_of_lt_of_le (left_skipWhile_lt hhead (by simp [hc])) hl)
    dsimp only
    split
    · refine Alike.agree ?_ h hready
      exact alike_take.bind fun _ => (steady_newLine c).moved.bind fun _ => alike_pure trivial
    rename_i hc
    split
    · exact hskip (by simpa using hc)
    split
    · refine Alike.agree ?_ h hready
      refine alike_take.bind fun _ => steady_advance.moved.bind fun _ => ?_
      refine (steady_fuelled commentLoop alike_commentRound false).moved.bind fun _ => ?_
      exact alike_ite (fun _ => alike_pure trivial) fun _ => alike_pure trivial
    · have hoffset : l'.offset = l.offset := by rw [h.eq]
      simp only [get_bind_apply, hoffset]
      split
      · exact hskip (by simpa using hc)
      · refine Alike.agree ?_ h hready
        refine (alike_tokenFrom c).map fun t => ?_
        change (found t).Below moved
        unfold found
        cases t.isEof <;> trivial

/-- **A token takes a character** unless it is the end of the text. -/
theorem alike_token (k : Nat) : Alike sizes k fresh found token token :=
  alike_fuelled tokenSearch alike_searchRound ()

theorem steady_token : Steady token :=
  fun k => (alike_token k).weaken trivial fun _ => trivial

theorem steady_templateRest : Steady templateRest :=
  steady_templatePiece _ _

/-! ## 5. All loops of the lexer -/

/-- The loops of the lexer. -/
inductive IsLoop : {Carry Result : Type} → Loop LexError Lexer Carry Result → Prop where
  | skip (p : Char → Bool) : IsLoop (skipLoop p)
  | comment : IsLoop commentLoop
  | braced : IsLoop bracedLoop
  | string (quote : Char) : IsLoop (stringLoop quote)
  | template : IsLoop templateLoop
  | decimal : IsLoop decimalLoop
  | radix (radix : Nat) : IsLoop (radixLoop radix)
  | plain : IsLoop plainLoop
  | name : IsLoop nameLoop
  | pattern : IsLoop patternLoop
  | flag : IsLoop flagLoop
  | search : IsLoop tokenSearch

/-- **Every loop of the lexer takes a character in every round** that another one follows. -/
theorem IsLoop.takes {Carry Result : Type} {loop : Loop LexError Lexer Carry Result} (h : IsLoop loop) :
    loop.Takes sizes := by
  cases h with
  | skip p => exact Loop.takes_of_alike (alike_skipRound p)
  | comment => exact Loop.takes_of_alike alike_commentRound
  | braced => exact Loop.takes_of_alike alike_bracedRound
  | string quote => exact Loop.takes_of_alike (alike_stringRound quote)
  | template => exact Loop.takes_of_alike alike_templateRound
  | decimal => exact Loop.takes_of_alike alike_decimalRound
  | radix radix => exact Loop.takes_of_alike (alike_radixRound radix)
  | plain => exact Loop.takes_of_alike alike_plainRound
  | name => exact Loop.takes_of_alike alike_nameRound
  | pattern => exact Loop.takes_of_alike alike_patternRound
  | flag => exact Loop.takes_of_alike alike_flagRound
  | search => exact Loop.takes_of_alike alike_searchRound

end Lexer

end GuestScript
