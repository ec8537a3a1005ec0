import GuestScript.Json.Reader
import GuestScript.Json.Writer
import Mathlib.Data.List.TakeDrop

/-!
# Texts that are read as documents

What the reader of documents makes of a piece of text does not hang on what stands after it, as long as that starts
with a mark that ends a value. So the pieces of a text can be read one by one: quoted strings, numbers, and the items
and members between brackets.
-/

namespace GuestScript.Json

variable {c : Char} {tail rest : List Char} {k l : Cursor} {parts : List (String × List Char)}
  {members : List (String × Json)} (positive : Bool) (significand : Nat) (depth : Nat)

theorem bind_eq_ok {α β ε : Type} {x : Except ε α} {f : α → Except ε β} {b : β} (h : x >>= f = .ok b) :
    ∃ a, x = .ok a ∧ f a = .ok b := by
  cases x with
  | error e => cases h
  | ok a => exact ⟨a, rfl, h⟩

/-! ## 1. Blanks and delimiters -/

/-- Whether a text is at its end or goes on with a mark that ends a value. -/
def Delimited (tail : List Char) : Prop :=
  ∀ c rest, tail = c :: rest → c = ',' ∨ c = ']' ∨ c = '}'

theorem Delimited.nil : Delimited [] :=
  fun _ _ h => by cases h

theorem Delimited.cons (h : c = ',' ∨ c = ']' ∨ c = '}') (rest : List Char) : Delimited (c :: rest) :=
  fun _ _ heq => by
    cases heq
    exact h

/-- Whether a character is passed over between values. -/
def IsBlank (c : Char) : Prop :=
  c = ' ' ∨ c = '\t' ∨ c = '\r' ∨ c = '\n'

theorem Delimited.not_blank (h : Delimited tail) : ∀ c rest, tail = c :: rest → ¬ IsBlank c := by
  intro c rest heq hblank
  obtain rfl | rfl | rfl := h c rest heq <;> simp [IsBlank] at hblank

namespace Cursor

theorem go_eq_of_not_blank {cs : List Char} (h : ∀ c rest, cs = c :: rest → ¬ IsBlank c) (line column : Nat) :
    skipBlanks.go cs line column = { rest := cs, line := line, column := column } := by
  unfold skipBlanks.go
  split
  · exact absurd (by simp [IsBlank]) (h _ _ rfl)
  · exact absurd (by simp [IsBlank]) (h _ _ rfl)
  · exact absurd (by simp [IsBlank]) (h _ _ rfl)
  · exact absurd (by simp [IsBlank]) (h _ _ rfl)
  · rfl

/-- Where no blank stands nothing is passed over. -/
theorem skipBlanks_eq (h : ∀ c rest, k.rest = c :: rest → ¬ IsBlank c) : k.skipBlanks = k :=
  go_eq_of_not_blank h _ _

/-- What is left after blanks does not start with one. -/
theorem not_blank_go : ∀ (cs : List Char) (line column : Nat) (c : Char) (rest : List Char),
    (skipBlanks.go cs line column).rest = c :: rest → ¬ IsBlank c := by
  intro cs line column
  fun_induction skipBlanks.go cs line column with
  | case1 _ _ _ ih => exact ih
  | case2 _ _ _ ih => exact ih
  | case3 _ _ _ ih => exact ih
  | case4 _ _ _ ih => exact ih
  | case5 cs line column hspace htab hreturn hline =>
    rintro c rest rfl
    simp only [IsBlank, not_or]
    exact ⟨fun h => hspace rest (h ▸ rfl), fun h => htab rest (h ▸ rfl), fun h => hreturn rest (h ▸ rfl),
      fun h => hline rest (h ▸ rfl)⟩

theorem skipBlanks_skipBlanks (k : Cursor) : k.skipBlanks.skipBlanks = k.skipBlanks :=
  skipBlanks_eq (not_blank_go _ _ _)

/-- Blanks before what is left of a text are passed over whatever stands behind it. -/
theorem rest_go_append (htail : ∀ c rest, tail = c :: rest → ¬ IsBlank c) :
    ∀ (cs : List Char) (line column line' column' : Nat),
      (skipBlanks.go (cs ++ tail) line' column').rest = (skipBlanks.go cs line column).rest ++ tail := by
  intro cs line column
  fun_induction skipBlanks.go cs line column with
  | case1 _ _ _ ih => exact fun _ _ => ih _ _
  | case2 _ _ _ ih => exact fun _ _ => ih _ _
  | case3 _ _ _ ih => exact fun _ _ => ih _ _
  | case4 _ _ _ ih => exact fun _ _ => ih _ _
  | case5 cs line column hspace htab hreturn hline =>
    intro line' column'
    rw [go_eq_of_not_blank]
    intro c rest heq
    cases cs with
    | nil => exact htail c rest heq
    | cons d cs =>
      cases heq
      simp only [IsBlank, not_or]
      exact ⟨fun h => hspace cs (h ▸ rfl), fun h => htab cs (h ▸ rfl), fun h => hreturn cs (h ▸ rfl),
        fun h => hline cs (h ▸ rfl)⟩

end Cursor

/-! ## 2. Numbers -/

/-- Whether two cursors stand at the same text, but for what stands behind it for the second one. -/
def Cursor.Before (tail : List Char) (k l : Cursor) : Prop :=
  l.rest = k.rest ++ tail

/-- Whether a reader gives the same for a text whatever delimiter stands behind it. -/
def Local {α : Type} (read : Cursor → Except ReadError (α × Cursor)) : Prop :=
  ∀ {tail : List Char} {k k' l : Cursor} {a : α}, Delimited tail → Cursor.Before tail k l → read k = .ok (a, k') →
    ∃ l', read l = .ok (a, l') ∧ Cursor.Before tail k' l'

theorem Delimited.head_not_digit (h : Delimited tail) : tail.head?.any Char.isDigit = false := by
  cases tail with
  | nil => rfl
  | cons c rest => obtain rfl | rfl | rfl := h c rest rfl <;> rfl

theorem head_any_append (h : Delimited tail) (cs : List Char) :
    (cs ++ tail).head?.any Char.isDigit = cs.head?.any Char.isDigit := by
  cases cs with
  | nil => exact h.head_not_digit
  | cons c rest => rfl

theorem next_before (h : Cursor.Before tail k l) (hk : k.rest = c :: rest) : Cursor.Before tail k.next l.next := by
  unfold Cursor.Before at h ⊢
  rw [hk] at h
  unfold Cursor.next
  rw [h, hk]
  by_cases hc : c = '\n'
  · subst hc
    rfl
  · simp

theorem span_append (h : Delimited tail) (cs : List Char) :
    (cs ++ tail).span Char.isDigit = ((cs.span Char.isDigit).1, (cs.span Char.isDigit).2 ++ tail) := by
  induction cs with
  | nil =>
    cases tail with
    | nil => rfl
    | cons c rest => obtain rfl | rfl | rfl := h c rest rfl <;> rfl
  | cons c rest ih =>
    simp only [List.span_eq_takeWhile_dropWhile, List.cons_append, Prod.mk.injEq] at ih ⊢
    by_cases hc : c.isDigit
    · simp [hc, ih]
    · simp [hc]

theorem significandDigits_append (h : Delimited tail) (cs : List Char) (s n : Nat) :
    significandDigits (cs ++ tail) s n =
      ((significandDigits cs s n).1, (significandDigits cs s n).2.1, (significandDigits cs s n).2.2 ++ tail) := by
  fun_induction significandDigits cs s n with
  | case1 s n =>
    cases tail with
    | nil => rfl
    | cons c rest => obtain rfl | rfl | rfl := h c rest rfl <;> rfl
  | case2 c rest s n hc s' hs => simp [significandDigits, hc, hs, s']
  | case3 c rest s n hc s' hs ih => simpa [significandDigits, hc, hs, s'] using ih
  | case4 c rest s n hc => simp [significandDigits, hc]

theorem exponentDigits_append (h : Delimited tail) (cs : List Char) (limit e taken : Nat) :
    exponentDigits (cs ++ tail) limit e taken =
      ((exponentDigits cs limit e taken).1, (exponentDigits cs limit e taken).2.1 ++ tail,
        (exponentDigits cs limit e taken).2.2) := by
  fun_induction exponentDigits cs limit e taken with
  | case1 limit e taken =>
    cases tail with
    | nil => rfl
    | cons c rest => obtain rfl | rfl | rfl := h c rest rfl <;> rfl
  | case2 c rest limit e taken hc e' he => simp [exponentDigits, hc, he, e']
  | case3 c rest limit e taken hc e' he ih => simpa [exponentDigits, hc, he, e'] using ih
  | case4 c rest limit e taken hc => simp [exponentDigits, hc]

theorem skipDigits_before (htail : Delimited tail) (h : Cursor.Before tail k l) :
    Cursor.Before tail (skipDigits k) (skipDigits l) ∧
      ((skipDigits l).column : Int) - l.column = ((skipDigits k).column : Int) - k.column := by
  unfold Cursor.Before at h ⊢
  simp only [skipDigits, h, span_append htail]
  exact ⟨trivial, by omega⟩

theorem assemble_local (exponent : Int) : Local (assemble positive significand exponent) := by
  intro tail k k' l a _ hl hread
  unfold assemble at hread ⊢
  split at hread
  · cases hread
    exact ⟨l, rfl, hl⟩
  · cases hread

/-- The sign of an exponent is taken the same way whatever stands behind the text. -/
theorem exponentSign_before (hl : Cursor.Before tail k l) (hk : k.rest = c :: rest) :
    (exponentSign l).1 = (exponentSign k).1 ∧ Cursor.Before tail (exponentSign k).2 (exponentSign l).2 := by
  have hnext := next_before hl hk
  have hrest : l.rest = c :: (rest ++ tail) := by rw [hl, hk, List.cons_append]
  unfold exponentSign
  rw [hk, hrest]
  by_cases hplus : c = '+'
  · subst hplus
    exact ⟨rfl, hnext⟩
  by_cases hminus : c = '-'
  · subst hminus
    exact ⟨rfl, hnext⟩
  simpa [hplus, hminus] using hl

theorem exponentSign_nil (hk : k.rest = []) : exponentSign k = (true, k) := by
  unfold exponentSign
  rw [hk]

theorem readExponent_local (start : Int) : Local (readExponent positive significand start) := by
  intro tail k k' l a htail hl hread
  unfold readExponent at hread ⊢
  cases hmark : k.rest with
  | nil =>
    have hnext : k.next = k := by
      unfold Cursor.next
      rw [hmark]
    rw [hnext, exponentSign_nil hmark] at hread
    simp only [hmark] at hread
    cases hread
  | cons mark rest =>
    have hnext := next_before hl hmark
    cases hfirst : k.next.rest with
    | nil =>
      rw [exponentSign_nil hfirst] at hread
      simp only [hfirst] at hread
      cases hread
    | cons c r =>
      obtain ⟨hsign, hbefore⟩ := exponentSign_before hnext hfirst
      generalize exponentSign k.next = x at hread hsign hbefore
      generalize exponentSign l.next = y at hsign hbefore ⊢
      obtain ⟨sign, k⟩ := x
      obtain ⟨sign', l⟩ := y
      cases hsign
      simp only at hread hbefore ⊢
      cases hdigits : k.rest with
      | nil =>
        rw [hdigits] at hread
        cases hread
      | cons d rest =>
        have hrest : l.rest = d :: (rest ++ tail) := by rw [hbefore, hdigits, List.cons_append]
        rw [hdigits] at hread
        rw [hrest]
        simp only at hread ⊢
        split at hread
        · rename_i hd
          rw [if_pos hd, exponentDigits_append htail]
          simp only
          split at hread
          · exact assemble_local _ _ _ htail (by rfl) hread
          · split at hread
            · cases hread
            · rename_i hzero
              rw [if_neg hzero]
              cases hread
              exact ⟨_, rfl, (skipDigits_before htail (by rfl)).1⟩
        · cases hread

/-- A character that is no delimiter does not come ahead by what stands behind. -/
theorem ne_of_before (htail : Delimited tail) (hl : Cursor.Before tail k l) (hc : ¬ (c = ',' ∨ c = ']' ∨ c = '}'))
    (h : ∀ rest, k.rest ≠ c :: rest) (rest : List Char) :
    l.rest ≠ c :: rest := by
  intro heq
  rw [hl] at heq
  cases hk : k.rest with
  | nil =>
    rw [hk, List.nil_append] at heq
    exact hc (htail c rest heq)
  | cons d more =>
    rw [hk, List.cons_append] at heq
    cases heq
    exact h more hk

theorem readTail_local (exponent : Int) : Local (readTail positive significand exponent) := by
  intro tail k k' l a htail hl hread
  unfold readTail at hread
  split at hread
  · rename_i rest hk
    have hrest : l.rest = 'e' :: (rest ++ tail) := by rw [hl, hk, List.cons_append]
    rw [readTail, hrest]
    exact readExponent_local _ _ _ htail hl hread
  · rename_i rest hk
    have hrest : l.rest = 'E' :: (rest ++ tail) := by rw [hl, hk, List.cons_append]
    rw [readTail, hrest]
    exact readExponent_local _ _ _ htail hl hread
  · rename_i hlower hupper
    have hplain : readTail positive significand exponent l = assemble positive significand exponent l := by
      unfold readTail
      split
      · exact absurd ‹_› (ne_of_before htail hl (by decide) hlower _)
      · exact absurd ‹_› (ne_of_before htail hl (by decide) hupper _)
      · rfl
    rw [hplain]
    exact assemble_local _ _ _ htail hl hread

theorem readFraction_local (exponent : Int) (hk : k.rest = '.' :: rest) {k' : Cursor} {a : Numeral}
    (htail : Delimited tail) (hl : Cursor.Before tail k l)
    (hread : readFraction positive significand exponent k = .ok (a, k')) :
    ∃ l', readFraction positive significand exponent l = .ok (a, l') ∧ Cursor.Before tail k' l' := by
  have hnext := next_before hl hk
  unfold readFraction at hread ⊢
  simp only [show l.next.rest = k.next.rest ++ tail from hnext, significandDigits_append htail,
    head_any_append htail] at hread ⊢
  split at hread
  · rename_i hmore
    rw [if_pos hmore]
    exact readTail_local _ _ _ htail (skipDigits_before htail (by rfl)).1 hread
  · rename_i hmore
    rw [if_neg hmore]
    split at hread
    · cases hread
    · rename_i hsome
      rw [if_neg hsome]
      exact readTail_local _ _ _ htail (by rfl) hread

theorem readAfterInteger_local : Local (readAfterInteger positive significand) := by
  intro tail k k' l a htail hl hread
  unfold readAfterInteger at hread
  split at hread
  · rename_i rest hk
    have hrest : l.rest = '.' :: (rest ++ tail) := by rw [hl, hk, List.cons_append]
    rw [readAfterInteger, hrest]
    exact readFraction_local _ _ _ hk htail hl hread
  · rename_i rest hk
    have hrest : l.rest = 'e' :: (rest ++ tail) := by rw [hl, hk, List.cons_append]
    rw [readAfterInteger, hrest]
    exact readExponent_local _ _ _ htail hl hread
  · rename_i rest hk
    have hrest : l.rest = 'E' :: (rest ++ tail) := by rw [hl, hk, List.cons_append]
    rw [readAfterInteger, hrest]
    exact readExponent_local _ _ _ htail hl hread
  · rename_i hpoint hlower hupper
    unfold readAfterInteger
    split
    · exact absurd ‹_› (ne_of_before htail hl (by decide) hpoint _)
    · exact absurd ‹_› (ne_of_before htail hl (by decide) hlower _)
    · exact absurd ‹_› (ne_of_before htail hl (by decide) hupper _)
    · split at hread
      · cases hread
        exact ⟨l, by simp [*], hl⟩
      · split at hread <;>
        · cases hread
          exact ⟨l, by simp [*], hl⟩

theorem readLongInteger_local : Local (readLongInteger positive significand) := by
  intro tail k k' l a htail hl hread
  obtain ⟨hskip, hplaces⟩ := skipDigits_before htail hl
  unfold readLongInteger at hread ⊢
  simp only [hplaces] at hread ⊢
  split at hread
  · rename_i rest hk
    have hrest : (skipDigits l).rest = '.' :: (rest ++ tail) := by rw [hskip, hk, List.cons_append]
    rw [hrest]
    exact readFraction_local _ _ _ hk htail hskip hread
  · rename_i hpoint
    split
    · exact absurd ‹_› (ne_of_before htail hskip (by decide) hpoint _)
    · exact readTail_local _ _ _ htail hskip hread

/-- **Numbers are read alike in every place.** -/
theorem readNumber_local : Local (readNumber positive) := by
  intro tail k k' l a htail hl hread
  unfold readNumber at hread
  split at hread
  · cases hread
  · rename_i rest hk
    have hrest : l.rest = '0' :: (rest ++ tail) := by rw [hl, hk, List.cons_append]
    rw [readNumber, hrest]
    simp only [head_any_append htail]
    split at hread
    · cases hread
    · rename_i hzero
      rw [if_neg hzero]
      exact readAfterInteger_local _ _ htail (next_before hl hk) hread
  · rename_i c rest hzero hk
    have hrest : l.rest = c :: (rest ++ tail) := by rw [hl, hk, List.cons_append]
    unfold readNumber
    split
    · rename_i hnil
      rw [hrest] at hnil
      cases hnil
    · rename_i more hmore
      rw [hrest] at hmore
      cases hmore
      exact absurd rfl hzero
    · rename_i d more _ hmore
      rw [hrest] at hmore
      cases hmore
      split at hread
      · rename_i hc
        rw [if_pos hc, ← List.cons_append, significandDigits_append htail]
        simp only [head_any_append htail] at hread ⊢
        split at hread
        · rename_i hlong
          rw [if_pos hlong]
          exact readLongInteger_local _ _ htail (by rfl) hread
        · rename_i hlong
          rw [if_neg hlong]
          exact readAfterInteger_local _ _ htail (by rfl) hread
      · cases hread

/-! ## 3. Strings -/

theorem byteSize_pos (c : Char) : 0 < byteSize c := by
  unfold byteSize
  repeat' split
  all_goals decide

/-- A character of one byte that ends no line is one of the bytes that are taken. -/
theorem nextBytes_succ {n : Nat} (hk : k.rest = c :: rest) (hc : byteSize c = 1) (hline : c ≠ '\n') :
    ∃ k' : Cursor, k.nextBytes (n + 1) = k'.nextBytes n ∧ k'.rest = rest := by
  refine ⟨{ rest := rest, line := k.line, column := k.column + 1 }, ?_, rfl⟩
  rw [Cursor.nextBytes, hk]
  split
  · rename_i h
    cases h
  · rename_i h
    cases h
    exact absurd rfl hline
  · rename_i h
    cases h
    simp [hc]

theorem length_le_bytes (cs : List Char) (n : Nat) :
    n + cs.length ≤ cs.foldl (fun n c => n + byteSize c) n := by
  induction cs generalizing n with
  | nil => exact Nat.le_refl _
  | cons c rest ih =>
    have hc := byteSize_pos c
    have hrest := ih (n + byteSize c)
    simp only [List.length_cons, List.foldl_cons]
    omega

theorem hexDigits_control : ∀ n < 32, ∀ m ∈ [n / 16, n % 16],
    hexDigit? (hexChar m) = some m ∧ byteSize (hexChar m) = 1 ∧ hexChar m ≠ '\n' := by
  decide

/-- A control character that is written by its number is read back. -/
theorem hexEscape_control {n : Nat} (hn : n < 32)
    (hk : k.rest = '0' :: '0' :: hexChar (n / 16) :: hexChar (n % 16) :: rest) :
    ∃ k', hexEscape k = .ok (n, k') ∧ k'.rest = rest := by
  obtain ⟨hhigh, hhighSize, hhighLine⟩ := hexDigits_control n hn (n / 16) (by simp)
  obtain ⟨hlow, hlowSize, hlowLine⟩ := hexDigits_control n hn (n % 16) (by simp)
  obtain ⟨k₁, h₁, hk₁⟩ := nextBytes_succ (n := 3) hk (by decide) (by decide)
  obtain ⟨k₂, h₂, hk₂⟩ := nextBytes_succ (n := 2) hk₁ (by decide) (by decide)
  obtain ⟨k₃, h₃, hk₃⟩ := nextBytes_succ (n := 1) hk₂ hhighSize hhighLine
  obtain ⟨k₄, h₄, hk₄⟩ := nextBytes_succ (n := 0) hk₃ hlowSize hlowLine
  have hleft : ¬ k.bytesLeft < 4 := by
    have hlength := length_le_bytes k.rest 0
    rw [hk] at hlength
    simp only [List.length_cons] at hlength
    rw [Cursor.bytesLeft, hk]
    omega
  have hzero : hexDigit? '0' = some 0 := rfl
  have hvalue : ((0 * 16 + 0) * 16 + n / 16) * 16 + n % 16 = n := by omega
  refine ⟨k₄, ?_, hk₄⟩
  rw [hexEscape, if_neg hleft, hk]
  simp only [hzero, hhigh, hlow, hvalue, h₁, h₂, h₃, h₄, Cursor.nextBytes]

theorem rest_next (hk : k.rest = c :: rest) : k.next.rest = rest := by
  unfold Cursor.next
  rw [hk]
  by_cases hc : c = '\n'
  · subst hc
    rfl
  · simp

/-- Whether a character cannot stand for itself between quotes. -/
def NeedsEscape (c : Char) : Prop :=
  c = '"' ∨ c = '\\' ∨ c.toNat < 0x20

theorem escapeChar_plain (hc : ¬ NeedsEscape c) : escapeChar c = [c] := by
  simp only [NeedsEscape, not_or] at hc
  rw [escapeChar, if_neg hc.1, if_neg hc.2.1, if_neg hc.2.2]

/-- A character that is written as an escape is read back. -/
theorem readEscape_escapeChar (hc : NeedsEscape c) : ∃ mark, escapeChar c = '\\' :: mark ∧
    ∀ {k : Cursor} {rest : List Char}, k.rest = mark ++ rest → ∃ k', readEscape k = .ok (c, k') ∧ k'.rest = rest := by
  have hshort {mark d : Char} (h : ∀ k : Cursor, ∀ rest, k.rest = mark :: rest → readEscape k = .ok (d, k.next)) :
      ∀ {k : Cursor} {rest : List Char}, k.rest = [mark] ++ rest →
        ∃ k', readEscape k = .ok (d, k') ∧ k'.rest = rest :=
    fun {k rest} hk => ⟨k.next, h k rest hk, rest_next hk⟩
  unfold escapeChar
  split
  · rename_i hquote
    subst hquote
    exact ⟨['"'], rfl, hshort fun k rest hk => by rw [readEscape, hk]; rfl⟩
  split
  · rename_i hbackslash
    subst hbackslash
    exact ⟨['\\'], rfl, hshort fun k rest hk => by rw [readEscape, hk]; rfl⟩
  split
  · rename_i hcontrol
    have hchar : c = Char.ofNat c.toNat := (Char.ofNat_toNat c).symm
    split
    · rename_i h
      rw [h] at hchar
      subst hchar
      exact ⟨['b'], rfl, hshort fun k rest hk => by rw [readEscape, hk]; rfl⟩
    · rename_i h
      rw [h] at hchar
      subst hchar
      exact ⟨['t'], rfl, hshort fun k rest hk => by rw [readEscape, hk]; rfl⟩
    · rename_i h
      rw [h] at hchar
      subst hchar
      exact ⟨['n'], rfl, hshort fun k rest hk => by rw [readEscape, hk]; rfl⟩
    · rename_i h
      rw [h] at hchar
      subst hchar
      exact ⟨['f'], rfl, hshort fun k rest hk => by rw [readEscape, hk]; rfl⟩
    · rename_i h
      rw [h] at hchar
      subst hchar
      exact ⟨['r'], rfl, hshort fun k rest hk => by rw [readEscape, hk]; rfl⟩
    · refine ⟨_, rfl, fun {k rest} hk => ?_⟩
      obtain ⟨k', hread, hrest⟩ := hexEscape_control hcontrol (rest_next hk)
      refine ⟨k', ?_, hrest⟩
      have hlone : ¬ (0xDC00 ≤ c.toNat ∧ c.toNat ≤ 0xDFFF) := by omega
      have hplain : c.toNat < 0xD800 ∨ 0xDBFF < c.toNat := by omega
      rw [readEscape, hk]
      simp only [List.cons_append, unicodeEscape, hread, bind, Except.bind, if_neg hlone, if_pos hplain]
      rw [← hchar]
  · rename_i hquote hbackslash hcontrol
    exact absurd hc (by simp [NeedsEscape, *])

/-- What the characters of a string are written as is read back, one by one. -/
theorem stringChars_escaped : ∀ (cs : List Char) {fuel : Nat} (acc : List Char) {k : Cursor} {rest : List Char},
    cs.length < fuel → k.rest = cs.flatMap escapeChar ++ '"' :: rest →
    ∃ k', stringChars fuel acc k = .ok (acc.reverse ++ cs, k') ∧ k'.rest = rest
  | [], fuel + 1, acc, k, rest, _, hk => by
    rw [stringChars, show k.rest = '"' :: rest from hk, List.append_nil]
    exact ⟨k.next, rfl, rest_next hk⟩
  | c :: cs, fuel + 1, acc, k, rest, hfuel, hk => by
    have hfuel : cs.length < fuel := Nat.lt_of_succ_lt_succ hfuel
    rw [List.flatMap_cons, List.append_assoc] at hk
    have hacc : (c :: acc).reverse ++ cs = acc.reverse ++ c :: cs := by simp
    by_cases hc : NeedsEscape c
    · obtain ⟨mark, hmark, hread⟩ := readEscape_escapeChar hc
      rw [hmark, List.cons_append] at hk
      obtain ⟨k₁, hescape, hk₁⟩ := hread (rest_next hk)
      obtain ⟨k', hchars, hrest⟩ := stringChars_escaped cs (c :: acc) hfuel hk₁
      refine ⟨k', ?_, hrest⟩
      rw [stringChars, hk]
      simp only [hescape, bind, Except.bind]
      rw [hchars, hacc]
    · rw [escapeChar_plain hc, List.cons_append, List.nil_append] at hk
      obtain ⟨k', hchars, hrest⟩ := stringChars_escaped cs (c :: acc) hfuel (rest_next hk)
      refine ⟨k', ?_, hrest⟩
      simp only [NeedsEscape, not_or] at hc
      have hstep : stringChars (fuel + 1) acc k = stringChars fuel (c :: acc) k.next := by
        simp [stringChars, hk, hc.1, hc.2.1, hc.2.2]
      rw [hstep, hchars, hacc]

theorem length_le_escaped (cs : List Char) : cs.length ≤ (cs.flatMap escapeChar).length := by
  induction cs with
  | nil => exact Nat.le_refl _
  | cons c cs ih =>
    have hc : 0 < (escapeChar c).length := by
      unfold escapeChar
      repeat' split
      all_goals exact Nat.succ_pos _
    rw [List.flatMap_cons, List.length_append, List.length_cons]
    omega

/-- The text of a string, whether anything in it is escaped or not. -/
theorem toList_quote (s : String) : (quote s).toList = '"' :: (s.toList.flatMap escapeChar ++ ['"']) := by
  unfold quote
  split
  · simp
  · rename_i hplain
    have hall : ∀ cs : List Char, (∀ c ∈ cs, ¬ NeedsEscape c) → cs.flatMap escapeChar = cs := by
      intro cs
      induction cs with
      | nil => exact fun _ => rfl
      | cons c cs ih =>
        intro h
        rw [List.flatMap_cons, escapeChar_plain (h c (by simp)), ih fun d hd => h d (by simp [hd])]
        rfl
    have hchars : ∀ c ∈ s.toList, ¬ NeedsEscape c := by
      intro c hc hneeds
      refine hplain ?_
      rw [List.any_eq_true]
      exact ⟨c, hc, by simpa [NeedsEscape, or_assoc] using hneeds⟩
    simp [hall _ hchars]

/-- A quoted string is read back. -/
theorem readString_quote (s : String) (hk : k.rest = s.toList.flatMap escapeChar ++ '"' :: rest) :
    ∃ k', readString k = .ok (s, k') ∧ k'.rest = rest := by
  have hfuel : s.toList.length < k.rest.length + 1 := by
    have hlength := length_le_escaped s.toList
    rw [hk, List.length_append]
    omega
  obtain ⟨k', hchars, hrest⟩ := stringChars_escaped s.toList [] hfuel hk
  refine ⟨k', ?_, hrest⟩
  rw [readString, hchars]
  simp [bind, Except.bind]

/-! ## 4. Values -/

/-- What reads the values inside the arrays and objects of a value that nests at most `depth` deep. -/
def inner : Nat → Option (Read Json)
  | 0 => none
  | depth + 1 => some (readValue depth)

theorem readValue_eq (k : Cursor) : readValue depth k = readFrom (inner depth) k.skipBlanks := by
  cases depth <;> rfl

theorem readValue_skipBlanks (k : Cursor) : readValue depth k.skipBlanks = readValue depth k := by
  rw [readValue_eq, readValue_eq, Cursor.skipBlanks_skipBlanks]

/-- What is read as a value does not start with a mark that ends one. -/
theorem head_of_readFrom {item : Option (Read Json)} {r : Json × Cursor} (h : readFrom item k = .ok r) :
    ∃ c rest, k.rest = c :: rest ∧ ¬ (c = ',' ∨ c = ']' ∨ c = '}') := by
  unfold readFrom at h
  cases hk : k.rest with
  | nil =>
    rw [hk] at h
    cases h
  | cons c rest =>
    refine ⟨c, rest, rfl, ?_⟩
    rintro (rfl | rfl | rfl) <;>
    · rw [hk] at h
      cases h

/-- Whether a text is read as a document by what takes documents of some depth, with a delimiter or nothing behind
it. -/
def Reads (depth : Nat) (cs : List Char) (j : Json) : Prop :=
  ∀ (k : Cursor) (tail : List Char), k.rest = cs ++ tail → Delimited tail →
    ∃ k', readValue depth k = .ok (j, k') ∧ k'.skipBlanks.rest = tail

/-- A text is one document if nothing else stands in it. -/
theorem Reads.parse {text : String} {j : Json} (h : Reads depthLimit text.toList j) : Json.parse text = .ok j := by
  obtain ⟨k', hread, hrest⟩ := h ⟨text.toList, 1, 0⟩ [] (List.append_nil _).symm .nil
  rw [Json.parse, Json.read, hread]
  simp [bind, Except.bind, hrest]

/-- A value that starts with a mark is read from there. -/
theorem Reads.of_readFrom {depth : Nat} {cs : List Char} {j : Json} (hc : ¬ IsBlank c)
    (h : ∀ {k : Cursor} {tail : List Char}, k.rest = c :: (cs ++ tail) → ∃ k', readFrom (inner depth) k = .ok (j, k') ∧ k'.rest = tail)
    : Reads depth (c :: cs) j := by
  intro k tail hk htail
  have hstart : k.skipBlanks = k := by
    refine Cursor.skipBlanks_eq fun d r hd => ?_
    rw [hk] at hd
    cases hd
    exact hc
  obtain ⟨k', hread, hrest⟩ := h hk
  refine ⟨k', ?_, ?_⟩
  · rw [readValue_eq, hstart, hread]
  · rw [Cursor.skipBlanks_eq (hrest ▸ htail.not_blank), hrest]

theorem readWord_ok {value j : Json} : ∀ {ws : List Char} {k k' : Cursor}, readWord value ws k = .ok (j, k') → j = value
  | [], _, _, h => by
    cases h
    rfl
  | w :: ws, k, k', h => by
    rw [readWord] at h
    split at h
    · cases h
    · split at h
      · exact readWord_ok h
      · cases h

theorem readWord_append (value : Json) : ∀ (ws : List Char) {k : Cursor} {tail : List Char}, k.rest = ws ++ tail →
    ∃ k', readWord value ws k = .ok (value, k') ∧ k'.rest = tail
  | [], k, _, hk => ⟨k, rfl, hk⟩
  | w :: ws, k, tail, hk => by
    obtain ⟨k', hread, hrest⟩ := readWord_append value ws (rest_next hk)
    refine ⟨k', ?_, hrest⟩
    rw [readWord, hk]
    simpa using hread

theorem reads_null : Reads depth ['n', 'u', 'l', 'l'] .null := by
  refine Reads.of_readFrom (by simp [IsBlank]) fun {k tail} hk => ?_
  rw [readFrom.eq_def, hk]
  exact readWord_append .null ['u', 'l', 'l'] (rest_next hk)

theorem reads_true : Reads depth ['t', 'r', 'u', 'e'] (.bool true) := by
  refine Reads.of_readFrom (by simp [IsBlank]) fun {k tail} hk => ?_
  rw [readFrom.eq_def, hk]
  exact readWord_append (.bool true) ['r', 'u', 'e'] (rest_next hk)

theorem reads_false : Reads depth ['f', 'a', 'l', 's', 'e'] (.bool false) := by
  refine Reads.of_readFrom (by simp [IsBlank]) fun {k tail} hk => ?_
  rw [readFrom.eq_def, hk]
  exact readWord_append (.bool false) ['a', 'l', 's', 'e'] (rest_next hk)

theorem reads_string (s : String) : Reads depth (quote s).toList (.string s) := by
  rw [toList_quote]
  refine Reads.of_readFrom (by simp [IsBlank]) fun {k tail} hk => ?_
  rw [List.append_assoc] at hk
  obtain ⟨k', hread, hrest⟩ := readString_quote s (rest_next hk)
  refine ⟨k', ?_, hrest⟩
  rw [readFrom.eq_def, hk]
  simp only [hread, bind, Except.bind]

/-- A number is read alike with other values inside, and with a delimiter behind it. -/
theorem readFrom_number (htail : Delimited tail) {k' : Cursor} {n : Numeral} {item : Option (Read Json)}
    (hl : Cursor.Before tail k l) (hread : readFrom item k = .ok (.number n, k')) (item' : Option (Read Json)) :
    ∃ l', readFrom item' l = .ok (.number n, l') ∧ Cursor.Before tail k' l' := by
  unfold readFrom at hread
  split at hread
  · cases hread
  rename_i c rest hk
  have hrest : l.rest = c :: (rest ++ tail) := by rw [hl, hk, List.cons_append]
  split at hread
  · exact absurd (readWord_ok hread) (by simp)
  · exact absurd (readWord_ok hread) (by simp)
  · exact absurd (readWord_ok hread) (by simp)
  · obtain ⟨_, _, hread⟩ := bind_eq_ok hread
    cases hread
  · obtain ⟨⟨m, k₁⟩, hnumber, hread⟩ := bind_eq_ok hread
    cases hread
    obtain ⟨l', hnumber', hbefore⟩ := readNumber_local false htail (next_before hl hk) hnumber
    refine ⟨l', ?_, hbefore⟩
    rw [readFrom.eq_def, hrest]
    simp only [hnumber', bind, Except.bind]
  · split at hread
    · cases hread
    · obtain ⟨_, _, hread⟩ := bind_eq_ok hread
      cases hread
  · split at hread
    · cases hread
    · obtain ⟨_, _, hread⟩ := bind_eq_ok hread
      cases hread
  · split at hread
    · rename_i hdigit
      obtain ⟨⟨m, k₁⟩, hnumber, hread⟩ := bind_eq_ok hread
      cases hread
      obtain ⟨l', hnumber', hbefore⟩ := readNumber_local true htail hl hnumber
      refine ⟨l', ?_, hbefore⟩
      unfold readFrom
      rw [hrest]
      simp only
      split <;> first
        | contradiction
        | simp only [hnumber', bind, Except.bind]
    · cases hread

/-- A number that is read from a text of its own is read in every place. -/
theorem reads_number {text : String} {n : Numeral} (h : Json.parse text = .ok (.number n)) :
    Reads depth text.toList (.number n) := by
  rw [Json.parse, Json.read] at h
  cases hread : readValue depthLimit ⟨text.toList, 1, 0⟩ with
  | error e =>
    rw [hread] at h
    cases h
  | ok r =>
    obtain ⟨j, k₀⟩ := r
    rw [hread] at h
    simp only [bind, Except.bind] at h
    split at h
    · rename_i hend
      cases h
      intro k tail hk htail
      rw [readValue_eq] at hread
      have hbefore : Cursor.Before tail (Cursor.skipBlanks ⟨text.toList, 1, 0⟩) k.skipBlanks := by
        unfold Cursor.Before Cursor.skipBlanks
        rw [hk]
        exact Cursor.rest_go_append htail.not_blank _ _ _ _ _
      obtain ⟨k', hread', hrest⟩ := readFrom_number htail hbefore hread (inner depth)
      refine ⟨k', by rw [readValue_eq, hread'], ?_⟩
      rw [List.isEmpty_iff] at hend
      unfold Cursor.Before at hrest
      unfold Cursor.skipBlanks at hend ⊢
      rw [hrest, Cursor.rest_go_append htail.not_blank _ k₀.line k₀.column, hend, List.nil_append]
    · cases h

/-! ## 5. Arrays and objects -/

/-- The text of parts with commas between them: the first one, and each other one after its comma. -/
theorem intercalate_cons (text : List Char) (texts : List (List Char)) :
    [','].intercalate (text :: texts) = text ++ texts.flatMap (',' :: ·) := by
  induction texts generalizing text with
  | nil => simp
  | cons t ts ih =>
    rw [List.intercalate_cons_cons, ih, List.flatMap_cons]
    simp

theorem delimited_more (texts : List (List Char)) (hc : c = ']' ∨ c = '}') (tail : List Char) :
    Delimited (texts.flatMap (',' :: ·) ++ c :: tail) := by
  cases texts with
  | nil => exact .cons (.inr hc) tail
  | cons t ts => exact .cons (.inl rfl) _

theorem length_le_more (texts : List (List Char)) : texts.length ≤ (texts.flatMap (',' :: ·)).length := by
  induction texts with
  | nil => exact Nat.le_refl _
  | cons t ts ih =>
    simp only [List.flatMap_cons, List.length_append, List.length_cons]
    omega

variable {depth : Nat}

/-- A value is read where it stands, and from what stands there it is seen that it is a value. -/
theorem Reads.read {text : List Char} {j : Json} (h : Reads depth text j) (hk : k.rest = text ++ tail)
    (htail : Delimited tail) :
    ∃ c rest k', k.skipBlanks.rest = c :: rest ∧ ¬ (c = ',' ∨ c = ']' ∨ c = '}') ∧
      readValue depth k.skipBlanks = .ok (j, k') ∧ k'.skipBlanks.rest = tail := by
  obtain ⟨k', hread, hrest⟩ := h k tail hk htail
  have hfrom := hread
  rw [readValue_eq] at hfrom
  obtain ⟨c, rest, hc, hmark⟩ := head_of_readFrom hfrom
  exact ⟨c, rest, k', hc, hmark, by rw [readValue_skipBlanks, hread], hrest⟩

/-- The items after the first one are read one by one. -/
theorem readItems_more {texts : List (List Char)} {items : List Json} (h : List.Forall₂ (Reads depth) texts items) :
    ∀ {fuel : Nat} (acc : List Json) {k : Cursor} {tail : List Char}, texts.length < fuel →
      k.skipBlanks.rest = texts.flatMap (',' :: ·) ++ ']' :: tail →
      ∃ k', readItems (readValue depth) fuel false acc k = .ok (items.reverse ++ acc, k') ∧ k'.rest = tail := by
  induction h with
  | nil =>
    rintro (_ | fuel) acc k tail hfuel hk
    · cases hfuel
    refine ⟨k.skipBlanks.next, ?_, rest_next hk⟩
    rw [readItems, hk]
    rfl
  | @cons text j texts items hj _ ih =>
    rintro (_ | fuel) acc k tail hfuel hk
    · cases hfuel
    rw [List.flatMap_cons, List.append_assoc, List.cons_append] at hk
    obtain ⟨c, rest, k₁, hc, hmark, hread, hk₁⟩ := hj.read (rest_next hk) (delimited_more texts (.inl rfl) tail)
    obtain ⟨k', hmore, hrest⟩ := ih (j :: acc) (Nat.lt_of_succ_lt_succ hfuel) hk₁
    refine ⟨k', ?_, hrest⟩
    simp only [not_or] at hmark
    simp [readItems, hk, hc, hmark.2.1, hread, bind, Except.bind, hmore]

/-- An array is read if its items are. -/
theorem reads_array {texts : List (List Char)} {items : List Json} (h : List.Forall₂ (Reads depth) texts items) :
    Reads (depth + 1) ('[' :: ([','].intercalate texts ++ [']'])) (.array items) := by
  refine Reads.of_readFrom (by simp [IsBlank]) fun {k tail} hk => ?_
  rw [List.append_assoc] at hk
  have hnext := rest_next hk
  suffices hitems : ∃ k', readItems (readValue depth) (k.rest.length + 1) true [] k.next = .ok (items.reverse, k') ∧
      k'.rest = tail by
    obtain ⟨k', hitems, hrest⟩ := hitems
    rw [hk] at hitems
    refine ⟨k', ?_, hrest⟩
    rw [readFrom.eq_def, hk]
    simp only [inner, hitems, bind, Except.bind, List.reverse_reverse]
  cases h with
  | nil =>
    have hskip : k.next.skipBlanks = k.next := Cursor.skipBlanks_eq (hnext ▸ (Delimited.cons (by simp) tail).not_blank)
    refine ⟨k.next.next, ?_, rest_next hnext⟩
    rw [readItems, hskip, hnext]
    rfl
  | @cons text j texts items hj hrest =>
    rw [intercalate_cons, List.append_assoc] at hnext
    obtain ⟨c, rest, k₁, hc, hmark, hread, hk₁⟩ := hj.read hnext (delimited_more texts (.inl rfl) tail)
    have hfuel : texts.length < k.rest.length := by
      have hlength := length_le_more texts
      rw [hk, intercalate_cons]
      simp only [List.length_cons, List.length_append]
      omega
    obtain ⟨k', hmore, hrest⟩ := readItems_more hrest [j] hfuel hk₁
    refine ⟨k', ?_, hrest⟩
    simp only [not_or] at hmark
    simp [readItems, hc, hmark.2.1, hread, bind, Except.bind, hmore]

/-- The text of a member, from its name and the text of its value. -/
def memberText (part : String × List Char) : List Char :=
  (quote part.1).toList ++ ':' :: part.2

/-- Whether the text of a value is read as the value of a member. -/
def ReadsMember (depth : Nat) (part : String × List Char) (member : String × Json) : Prop :=
  part.1 = member.1 ∧ Reads depth part.2 member.2

/-- A member is read, name and value. -/
theorem ReadsMember.read {part : String × List Char} {member : String × Json} (h : ReadsMember depth part member)
    (hk : k.rest = memberText part ++ tail) (htail : Delimited tail) :
    ∃ k', readMember (readValue depth) k = .ok (member, k') ∧ k'.skipBlanks.rest = tail := by
  obtain ⟨name, text⟩ := part
  obtain ⟨name', j⟩ := member
  obtain ⟨rfl, hvalue⟩ : name = name' ∧ Reads depth text j := h
  simp only [memberText, toList_quote, List.cons_append, List.append_assoc, List.nil_append] at hk
  obtain ⟨k₁, hname, hk₁⟩ := readString_quote name (rest_next hk)
  have hskip : k₁.skipBlanks = k₁ := by
    refine Cursor.skipBlanks_eq fun c r hc => ?_
    rw [hk₁] at hc
    cases hc
    simp [IsBlank]
  obtain ⟨k', hread, hrest⟩ := hvalue _ _ (rest_next hk₁) htail
  refine ⟨k', ?_, hrest⟩
  simp [readMember, hname, hskip, hk₁, bind, Except.bind, hread]

/-- Add members one after the other. -/
def insertMembers (acc members : List (String × Json)) : List (String × Json) :=
  members.foldl (fun acc member => insertMember member.1 member.2 acc) acc

/-- The members after the first one are read one by one. -/
theorem readMembers_more (h : List.Forall₂ (ReadsMember depth) parts members) :
    ∀ {fuel : Nat} (acc : List (String × Json)) {k : Cursor} {tail : List Char}, parts.length < fuel →
      k.skipBlanks.rest = (parts.map memberText).flatMap (',' :: ·) ++ '}' :: tail →
      ∃ k', readMembers (readValue depth) fuel false acc k = .ok (insertMembers acc members, k') ∧ k'.rest = tail := by
  induction h with
  | nil =>
    rintro (_ | fuel) acc k tail hfuel hk
    · cases hfuel
    refine ⟨k.skipBlanks.next, ?_, rest_next hk⟩
    rw [readMembers, hk]
    rfl
  | @cons part member parts members hm _ ih =>
    rintro (_ | fuel) acc k tail hfuel hk
    · cases hfuel
    rw [List.map_cons, List.flatMap_cons, List.append_assoc, List.cons_append] at hk
    have hnext := rest_next hk
    obtain ⟨rest, hquote⟩ : ∃ rest, k.skipBlanks.next.rest = '"' :: rest := by
      rw [hnext, memberText, toList_quote]
      exact ⟨_, rfl⟩
    have hskip : k.skipBlanks.next.skipBlanks = k.skipBlanks.next := by
      refine Cursor.skipBlanks_eq fun c r hc => ?_
      rw [hquote] at hc
      cases hc
      simp [IsBlank]
    obtain ⟨k₁, hread, hk₁⟩ := hm.read hnext (delimited_more _ (.inr rfl) tail)
    obtain ⟨k', hmore, hrest⟩ := ih (insertMember member.1 member.2 acc) (Nat.lt_of_succ_lt_succ hfuel) hk₁
    refine ⟨k', ?_, hrest⟩
    simp [readMembers, hk, hskip, hquote, hread, bind, Except.bind, hmore, insertMembers]

/-- An object is read if its members are. -/
theorem reads_object (h : List.Forall₂ (ReadsMember depth) parts members) :
    Reads (depth + 1) ('{' :: ([','].intercalate (parts.map memberText) ++ ['}']))
      (.object (insertMembers [] members)) := by
  refine Reads.of_readFrom (by simp [IsBlank]) fun {k tail} hk => ?_
  rw [List.append_assoc] at hk
  have hnext := rest_next hk
  suffices hmembers : ∃ k', readMembers (readValue depth) (k.rest.length + 1) true [] k.next =
      .ok (insertMembers [] members, k') ∧ k'.rest = tail by
    obtain ⟨k', hmembers, hrest⟩ := hmembers
    rw [hk] at hmembers
    refine ⟨k', ?_, hrest⟩
    rw [readFrom.eq_def, hk]
    simp only [inner, hmembers, bind, Except.bind]
  cases h with
  | nil =>
    have hskip : k.next.skipBlanks = k.next := Cursor.skipBlanks_eq (hnext ▸ (Delimited.cons (by simp) tail).not_blank)
    refine ⟨k.next.next, ?_, rest_next hnext⟩
    rw [readMembers, hskip, hnext]
    rfl
  | @cons part member parts members hm hrest =>
    rw [List.map_cons, intercalate_cons, List.append_assoc] at hnext
    obtain ⟨rest, hquote⟩ : ∃ rest, k.next.rest = '"' :: rest := by
      rw [hnext, memberText, toList_quote]
      exact ⟨_, rfl⟩
    have hskip : k.next.skipBlanks = k.next := by
      refine Cursor.skipBlanks_eq fun c r hc => ?_
      rw [hquote] at hc
      cases hc
      simp [IsBlank]
    have hfuel : parts.length < k.rest.length := by
      have hlength := length_le_more (parts.map memberText)
      rw [hk, List.map_cons, intercalate_cons]
      simp only [List.length_cons, List.length_append, List.length_map] at hlength ⊢
      omega
    obtain ⟨k₁, hread, hk₁⟩ := hm.read hnext (delimited_more _ (.inr rfl) tail)
    obtain ⟨k', hmore, hrest⟩ := readMembers_more hrest (insertMember member.1 member.2 []) hfuel hk₁
    refine ⟨k', ?_, hrest⟩
    simp [readMembers, hskip, hquote, hread, bind, Except.bind, hmore, insertMembers]

end GuestScript.Json
