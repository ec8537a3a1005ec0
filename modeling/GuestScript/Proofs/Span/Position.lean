import GuestScript.Proofs.Span.Tiling
import Mathlib.Data.List.DropRight

/-!
# Lines and columns

The line of a lexer is one more than the number of line breaks that it has passed, where a carriage return and the line
feed after it are one, and its column is the number of characters since the last of them (`Lexer.place`). Readers count
line breaks where they meet them, in blanks, comments, escapes and templates. Two of them miss some: a string takes the
separators U+2028 and U+2029 as characters like any others, and an escape of a template that is not valid takes
whatever stands where its digits should. Behind any sequence of calls that met neither, line and column are right, for
the place reached and for the start of the token (`Lexer.positions_right`).
-/

namespace GuestScript

open String (utf8Len)

namespace Lexer

/-! ## 1. The place behind a text -/

/-- The number of line breaks of a text. A carriage return that a line feed follows is no line break of its own. -/
def breaks : List Char → Nat
  | [] => 0
  | c :: rest => breaks rest + if isLineBreak c && !(c = '\r' && rest.head? = some '\n') then 1 else 0

/-- The place behind a text: its line breaks and one more, and the characters since the last of them. -/
def place (before : List Char) : Position :=
  { line := .ofNat (breaks before + 1), column := .ofNat (before.rtakeWhile fun c => !isLineBreak c).length }

/-- Line breaks of two texts add up where none is cut in two. -/
theorem breaks_append {cs : List Char} : ∀ {before : List Char},
    (before.getLast? = some '\r' → cs.head? ≠ some '\n') → breaks (before ++ cs) = breaks before + breaks cs
  | [], _ => by simp [breaks]
  | [c], h => by
    have hcut : (c = '\r' && cs.head? = some '\n') = false := by simpa using h
    simp [breaks, hcut, Nat.add_comm]
  | c :: d :: before, h => by
    have ih : breaks (d :: before ++ cs) = breaks (d :: before) + breaks cs := breaks_append (by simpa using h)
    change breaks (d :: before ++ cs) + _ = breaks (d :: before) + _ + _
    rw [ih]
    exact Nat.add_right_comm _ _ _

theorem place_concat {before : List Char} {c : Char} (hc : isLineBreak c = false)
    (hcut : before.getLast? = some '\r' → some c ≠ some '\n') :
    place (before ++ [c]) = { place before with column := (place before).column + 1 } := by
  have hbreaks : breaks (before ++ [c]) = breaks before := by
    rw [breaks_append hcut]
    simp [breaks, hc]
  have hcolumn : (before ++ [c]).rtakeWhile (fun c => !isLineBreak c) = before.rtakeWhile (fun c => !isLineBreak c) ++ [c] :=
    List.rtakeWhile_concat_pos _ _ _ (by simp [hc])
  simp only [place, hbreaks, hcolumn, List.length_append, List.length_singleton, UInt32.ofNat_add]
  rfl

theorem place_of_break {before cs : List Char} {c : Char} (hc : isLineBreak c = true) (hone : breaks (cs ++ [c]) = 1)
    (hcut : before.getLast? = some '\r' → (cs ++ [c]).head? ≠ some '\n') :
    place (before ++ (cs ++ [c])) = { line := (place before).line + 1, column := 0 } := by
  have hcolumn : (before ++ (cs ++ [c])).rtakeWhile (fun c => !isLineBreak c) = [] := by
    rw [← List.append_assoc]
    exact List.rtakeWhile_concat_neg _ _ _ (by simp [hc])
  simp only [place, breaks_append hcut, hone, hcolumn, List.length_nil, UInt32.ofNat_add]
  rfl

/-! ## 2. Lexers whose position is right -/

/-- Whether the position of a lexer is the place behind what it has passed, which does not end within a line break, and
the position of its token is the place behind what stands before the token. -/
structure Right (source : String) (l : Lexer) : Prop where
  reached : ∃ before, source.toList = before ++ l.rest ∧ l.offset = utf8Len before ∧ l.position = place before ∧
    (before.getLast? = some '\r' → l.rest.head? ≠ some '\n')
  token : ∃ before after, source.toList = before ++ after ∧ l.tokenStart = utf8Len before ∧
    l.tokenPosition = place before

section

variable {source : String} {l l' : Lexer} {c : Char} {r : List Char}

theorem right_ofText (source : String) : Right source (ofText source) :=
  ⟨⟨[], rfl, rfl, rfl, nofun⟩, ⟨[], source.toList, rfl, rfl, rfl⟩⟩

theorem Right.next (h : Right source l) (hrest : l.rest = c :: r) (hc : isLineBreak c = false) :
    Right source l.next := by
  obtain ⟨⟨before, hsource, hoffset, hplace, hcut⟩, htoken⟩ := h
  have hnext : l.next = { l with rest := r, offset := l.offset + c.utf8Size, column := l.column + 1 } := by
    simp [Lexer.next, hrest]
  rw [hrest] at hsource hcut
  refine ⟨⟨before ++ [c], ?_, ?_, ?_, ?_⟩, hnext ▸ htoken⟩
  · simp [hnext, hsource]
  · simp [hnext, hoffset, String.utf8Len_append]
  · rw [place_concat hc hcut, ← hplace, hnext]
    rfl
  · intro hlast
    obtain rfl : c = '\r' := by simpa using hlast
    cases hc

/-- A line break that has been taken is counted, with the line feed of a carriage return. -/
theorem Right.newLine (h : Right source l) (hrest : l.rest = c :: r) (hc : isLineBreak c = true) {u : Unit}
    (hr : newLine c l.next = .ok u l') : Right source l' := by
  obtain ⟨⟨before, hsource, hoffset, hplace, hcut⟩, htoken⟩ := h
  have hline : l.line = (place before).line := congrArg Position.line hplace
  have hnext : l.next = { l with rest := r, offset := l.offset + c.utf8Size, column := l.column + 1 } := by
    simp [Lexer.next, hrest]
  rw [hrest] at hsource hcut
  simp only [Lexer.newLine, hnext] at hr
  split at hr
  · rename_i hfeed
    obtain ⟨rfl, hfirst⟩ : c = '\r' ∧ r.head? = some '\n' := by simpa using hfeed
    obtain ⟨r, rfl⟩ := List.head?_eq_some_iff.1 hfirst
    cases hr
    refine ⟨⟨before ++ (['\r'] ++ ['\n']), ?_, ?_, ?_, ?_⟩, htoken⟩
    · simpa [Lexer.next] using hsource
    · simp [Lexer.next, hoffset, String.utf8Len_append, Nat.add_assoc, Nat.add_comm '\n'.utf8Size]
    · rw [place_of_break (by decide) (by decide) (fun _ => by decide), ← hline]
      rfl
    · simp
  · rename_i hfeed
    cases hr
    refine ⟨⟨before ++ ([] ++ [c]), ?_, ?_, ?_, ?_⟩, htoken⟩
    · simp [hsource]
    · simp [hoffset, String.utf8Len_append]
    · rw [place_of_break hc (by simp [breaks, hc]) hcut, ← hline]
      rfl
    · intro hlast hfirst
      obtain rfl : c = '\r' := by simpa using hlast
      simp [hfirst] at hfeed

end

/-! ## 3. Readers that count -/

section

variable {α β : Type} {source : String} {P Q : Lexer → Prop} {T : α → Prop} {x y : Lex α} {c : Char}
  {f : Option Char → Lex α}

/-- Whether a reader gets from a kind of lexers to one whose position is right, when it gives a certain kind of answer. -/
def Lands (source : String) (P : Lexer → Prop) (T : α → Prop) (x : Lex α) : Prop :=
  ∀ l a l', P l → x l = .ok a l' → T a → Right source l'

/-- Whether a reader keeps the position right. -/
abbrev Keeps (source : String) (x : Lex α) : Prop :=
  Lands source (Right source) (fun _ => True) x

/-- Whether the position of a lexer is right and certain characters are next. -/
def Ahead (source : String) (cs : List Char) (l : Lexer) : Prop :=
  Right source l ∧ cs <+: l.rest

/-- Whether a lexer whose position was right has taken a character, and counted it as one within a line. -/
def Taken (source : String) (c : Char) (l : Lexer) : Prop :=
  ∃ l₀ r, Right source l₀ ∧ l₀.rest = c :: r ∧ l = l₀.next

theorem Lands.weaken (h : Lands source P T x) (hP : ∀ l, Q l → P l) : Lands source Q T x :=
  fun l a l' hl hr ht => h l a l' (hP l hl) hr ht

theorem Keeps.any (h : Keeps source x) : Lands source (Right source) T x :=
  fun l a l' hl hr _ => h l a l' hl hr trivial

theorem Lands.ahead {cs : List Char} (h : Lands source (Right source) T x) : Lands source (Ahead source cs) T x :=
  h.weaken fun _ => And.left

/-- A character within a line was counted right. -/
theorem Lands.taken (h : Lands source (Right source) T x) (hc : isLineBreak c = false) :
    Lands source (Taken source c) T x :=
  h.weaken fun _ ⟨_, _, hl, hrest, heq⟩ => heq ▸ hl.next hrest hc

theorem Lands.bind {S : β → Prop} {f : α → Lex β} (hx : Lands source P (fun _ => True) x)
    (hf : ∀ a, Lands source (Right source) S (f a)) : Lands source P S (x >>= f) := by
  intro l b l' hl h hb
  obtain ⟨a, l₁, ha, h⟩ := ok_of_bind h
  exact hf a l₁ b l' (hx l a l₁ hl ha trivial) h hb

theorem lands_pure (a : α) : Lands source (Right source) T (pure a) := by
  rintro l _ l' hl ⟨⟩ _
  exact hl

theorem lands_fail (message : String) : Lands source P T (fail message) := by
  rintro l a l' _ ⟨⟩

theorem lands_ite {p : Prop} [Decidable p] (hx : p → Lands source P T x) (hy : ¬ p → Lands source P T y) :
    Lands source P T (if p then x else y) := by
  split
  · exact hx ‹_›
  · exact hy ‹_›

theorem lands_fuelled {reader : Nat → Lex α} (h : ∀ fuel, Lands source P T (reader fuel)) :
    Lands source P T (fuelled reader) :=
  fun l => h l.fuel l

theorem lands_peek (hf : ∀ c, Lands source P T (f c)) : Lands source P T (peek >>= f) :=
  fun l => hf _ l

theorem lands_peekSecond (hf : ∀ c, Lands source P T (f c)) : Lands source P T (peekSecond >>= f) :=
  fun l => hf _ l

theorem keeps_peek (hnone : Lands source (Right source) T (f none))
    (hsome : ∀ c, Lands source (Ahead source [c]) T (f (some c))) : Lands source (Right source) T (peek >>= f) := by
  intro l a l' hl h
  change f l.rest.head? l = _ at h
  cases hrest : l.rest with
  | nil => exact hnone l a l' hl (by rwa [hrest] at h)
  | cons c r => exact hsome c l a l' ⟨hl, by simp [hrest]⟩ (by rwa [hrest] at h)

theorem keeps_advance (hnone : Lands source (Right source) T (f none))
    (hsome : ∀ c, Lands source (Taken source c) T (f (some c))) : Lands source (Right source) T (advance >>= f) := by
  intro l a l' hl h
  change f l.rest.head? l.next = _ at h
  cases hrest : l.rest with
  | nil => exact hnone l a l' hl (by simpa [next, hrest] using h)
  | cons c r => exact hsome c l.next a l' ⟨l, r, hl, hrest, rfl⟩ (by rwa [hrest] at h)

/-- The character that is taken is the one that was seen. -/
theorem ahead_advance (hf : Lands source (Taken source c) T (f (some c))) :
    Lands source (Ahead source [c]) T (advance >>= f) := by
  rintro l a l' ⟨hl, r, hrest⟩ h
  change f l.rest.head? l.next = _ at h
  rw [← hrest] at h
  exact hf l.next a l' ⟨l, r, hl, hrest.symm, rfl⟩ h

theorem ahead_advances {d : Char} {f : Lex α} (hc : isLineBreak c = false) (hd : isLineBreak d = false)
    (hf : Lands source (Right source) T f) :
    Lands source (Ahead source [c, d]) T (advance >>= fun _ => advance >>= fun _ => f) := by
  rintro l a l' ⟨hl, r, hrest⟩ h
  have hnext : l.next.rest = d :: r := by simp [next, ← hrest]
  exact hf _ a l' ((hl.next hrest.symm hc).next hnext hd) h

theorem taken_newLine (hc : isLineBreak c = true) : Lands source (Taken source c) (fun _ => True) (newLine c) := by
  rintro l a l' ⟨l₀, r, hl, hrest, rfl⟩ h _
  exact hl.newLine hrest hc h

theorem keeps_eat (hc : isLineBreak c = false) : Keeps source (eat c) := by
  intro l a l' hl h _
  unfold eat at h
  split at h
  · cases h
    obtain ⟨r, hrest⟩ := List.head?_eq_some_iff.1 ‹_›
    exact hl.next hrest hc
  · cases h
    exact hl

end

/-! ### Characters within a line -/

section

variable {c : Char}

theorem cases_of_isLineBreak (h : isLineBreak c = true) :
    c = '\n' ∨ c = '\r' ∨ c = Char.ofNat 0x2028 ∨ c = Char.ofNat 0x2029 := by
  simp only [isLineBreak, Bool.or_eq_true, decide_eq_true_eq] at h
  rcases h with ((h | h) | h) | h
  · exact .inl h
  · exact .inr (.inl h)
  · exact .inr (.inr (.inl (h ▸ (Char.ofNat_toNat c).symm)))
  · exact .inr (.inr (.inr (h ▸ (Char.ofNat_toNat c).symm)))

/-- A class of characters that the four line breaks are not of. -/
theorem not_break_of {p : Char → Prop} (hp : p c) (hfeed : ¬ p '\n') (hreturn : ¬ p '\r')
    (hline : ¬ p (Char.ofNat 0x2028)) (hparagraph : ¬ p (Char.ofNat 0x2029)) : isLineBreak c = false := by
  by_contra h
  rcases cases_of_isLineBreak (by simpa using h) with rfl | rfl | rfl | rfl
  · exact hfeed hp
  · exact hreturn hp
  · exact hline hp
  · exact hparagraph hp

theorem not_break_of_isBlank (h : isBlank c = true) : isLineBreak c = false :=
  not_break_of (p := (isBlank · = true)) h (by decide) (by decide) (by decide) (by decide)

theorem not_break_of_hexValue (h : (hexValue? c).isSome = true) : isLineBreak c = false :=
  not_break_of (p := fun c => (hexValue? c).isSome = true) h (by decide) (by decide) (by decide) (by decide)

theorem not_break_of_digitValue {radix d : Nat} (h : digitValue? radix c = some d) : isLineBreak c = false := by
  refine not_break_of_hexValue ?_
  unfold digitValue? at h
  split at h
  · simp [*]
  · cases h

theorem not_break_of_isDigit (h : c.isDigit = true) : isLineBreak c = false :=
  not_break_of (p := (Char.isDigit · = true)) h (by decide) (by decide) (by decide) (by decide)

theorem not_break_of_isIdentifierPart (h : Text.isIdentifierPart c = true) : isLineBreak c = false :=
  not_break_of (p := (Text.isIdentifierPart · = true)) h (by decide) (by decide) (by decide) (by decide)

end

section

variable {source : String} {l l' : Lexer}

/-! ### Blanks and comments -/

theorem Right.skipWhile {p : Char → Bool} (hp : ∀ c, p c = true → isLineBreak c = false) :
    ∀ {fuel : Nat} {l : Lexer}, Right source l → Right source (skipWhile p fuel l)
  | 0, _, hl => hl
  | fuel + 1, l, hl => by
    unfold Lexer.skipWhile
    split
    · rename_i c r hrest
      split
      · exact Right.skipWhile hp (hl.next hrest (hp c ‹_›))
      · exact hl
    · exact hl

theorem keeps_startToken : Keeps source startToken := by
  rintro l _ l' hl ⟨⟩ _
  obtain ⟨before, hsource, hoffset, hplace, hcut⟩ := (hl.skipWhile (fun _ => not_break_of_isBlank)).reached
  exact ⟨⟨before, hsource, hoffset, hplace, hcut⟩, ⟨before, _, hsource, hoffset, hplace⟩⟩

theorem keeps_skipLine : Keeps source skipLine := by
  rintro l _ l' hl ⟨⟩ _
  exact hl.skipWhile fun c hc => by simpa using hc

theorem keeps_blockComment : ∀ (fuel : Nat) (broken : Bool), Keeps source (blockComment fuel broken)
  | 0, _ => lands_fail _
  | fuel + 1, broken => by
    have ih := keeps_blockComment fuel
    refine keeps_advance (lands_fail _) fun c => ?_
    by_cases hstar : c = '*'
    · subst hstar
      exact Lands.taken ((keeps_eat rfl).bind fun _ => lands_ite (fun _ => lands_pure _) fun _ => ih _) rfl
    · split
      · contradiction
      · exact absurd (Option.some.inj ‹_›) hstar
      · rename_i hc
        cases hc
        exact lands_ite (fun hc => (taken_newLine hc).bind fun _ => ih _) fun hc => (ih _).taken (by simpa using hc)

/-! ### Escapes -/

theorem Right.hexDigit {c : Option Char} {d : Nat} (hl : Right source l) (h : advance l = .ok c l')
    (hd : c.bind hexValue? = some d) : Right source l' := by
  cases h
  cases hrest : l.rest with
  | nil => simp [hrest] at hd
  | cons c r => exact hl.next hrest (not_break_of_hexValue (by simp_all))

theorem keeps_hexDigit : Keeps source hexDigit := by
  intro l d l' hl h _
  obtain ⟨c, l₁, hadvance, h⟩ := ok_of_bind h
  cases hvalue : c.bind hexValue? with
  | none =>
    rw [hvalue] at h
    cases h
  | some d =>
    rw [hvalue] at h
    cases h
    exact hl.hexDigit hadvance hvalue

theorem keeps_bracedDigits : ∀ fuel count value : Nat, Keeps source (bracedDigits fuel count value)
  | 0, _, _ => lands_fail _
  | fuel + 1, count, value => by
    have ih := keeps_bracedDigits fuel
    refine keeps_advance (lands_fail _) fun c => lands_ite (fun hc => ?_) fun _ => ?_
    · obtain ⟨rfl, _⟩ : c = '\x7d' ∧ count > 0 := by simpa using hc
      exact (lands_pure _).taken rfl
    · split
      · exact lands_fail _
      · exact lands_ite (fun _ => lands_fail _) fun _ => (ih _ _).taken (not_break_of_hexValue (by simp [*]))

theorem keeps_codePoint : Keeps source codePoint :=
  (keeps_eat rfl).bind fun _ => lands_ite (fun _ => lands_fuelled fun fuel => keeps_bracedDigits fuel 0 0) fun _ =>
    keeps_hexDigit.bind fun _ => keeps_hexDigit.bind fun _ => keeps_hexDigit.bind fun _ =>
      keeps_hexDigit.bind fun _ => lands_pure _

/-- The second half of a surrogate pair holds no line break. -/
theorem Right.lowSurrogate {low : Nat} (hl : Right source l) (h : lowSurrogate? l.rest = some low) :
    Right source l.next.next.next.next.next.next := by
  unfold lowSurrogate? at h
  split at h
  · rename_i a b c d r hrest
    split at h
    · have hnext {l : Lexer} {e : Char} {r : List Char} (hl : Right source l) (hrest : l.rest = e :: r)
          (he : isLineBreak e = false) : Right source l.next ∧ l.next.rest = r :=
        ⟨hl.next hrest he, by simp [Lexer.next, hrest]⟩
      obtain ⟨hl, hrest⟩ := hnext hl hrest rfl
      obtain ⟨hl, hrest⟩ := hnext hl hrest rfl
      obtain ⟨hl, hrest⟩ := hnext hl hrest (not_break_of_hexValue (by simp [*]))
      obtain ⟨hl, hrest⟩ := hnext hl hrest (not_break_of_hexValue (by simp [*]))
      obtain ⟨hl, hrest⟩ := hnext hl hrest (not_break_of_hexValue (by simp [*]))
      exact hl.next hrest (not_break_of_hexValue (by simp [*]))
    · cases h
  · cases h

theorem keeps_unicodeEscape : Keeps source unicodeEscape := by
  refine keeps_codePoint.bind fun code l a l' hl h _ => ?_
  generalize hlow : (if 0xD800 ≤ code ∧ code < 0xDC00 then lowSurrogate? l.rest else none) = low at h
  cases low with
  | none =>
    cases h
    exact hl
  | some low =>
    cases h
    split at hlow
    · exact hl.lowSurrogate hlow
    · cases hlow

theorem keeps_octalEscape (first : Char) : Keeps source (octalEscape first) := by
  refine keeps_peek (lands_pure _) fun c => ?_
  dsimp only [Option.bind_some]
  split
  · exact (lands_pure _).ahead
  · refine ahead_advance (Lands.taken (lands_ite (fun _ => ?_) fun _ => lands_pure _) (not_break_of_digitValue ‹_›))
    refine keeps_peek (lands_pure _) fun c => ?_
    dsimp only [Option.bind_some]
    split
    · exact (lands_pure _).ahead
    · exact ahead_advance ((lands_pure _).taken (not_break_of_digitValue ‹_›))

theorem keeps_escape : Keeps source escape := by
  refine keeps_advance (lands_fail _) fun c => ?_
  dsimp only
  split
  case h_7 =>
    refine Lands.taken (fun l cs l' hl h _ => ?_) rfl
    obtain ⟨a, l₁, ha, h⟩ := ok_of_bind h
    obtain ⟨b, l₂, hb, h⟩ := ok_of_bind h
    cases hhigh : a.bind hexValue? with
    | none =>
      rw [hhigh] at h
      cases h
    | some high =>
      cases hlow : b.bind hexValue? with
      | none =>
        rw [hhigh, hlow] at h
        cases h
      | some low =>
        rw [hhigh, hlow] at h
        cases h
        exact (hl.hexDigit ha hhigh).hexDigit hb hlow
  case h_8 => exact keeps_unicodeEscape.taken rfl
  case h_9 =>
    refine lands_ite (fun hoctal => ?_) fun _ => lands_ite (fun _ => lands_fail _) fun _ =>
      lands_ite (fun hc => (taken_newLine hc).bind fun _ => lands_pure _) fun hc => (lands_pure _).taken (by simpa using hc)
    have hc : isLineBreak c = false :=
      not_break_of (p := fun c => '0' ≤ c ∧ c ≤ '7') hoctal (by decide) (by decide) (by decide) (by decide)
    refine Lands.taken ?_ hc
    exact keeps_peek (lands_ite (fun _ => lands_pure _) fun _ => keeps_octalEscape _) fun _ =>
      Lands.ahead (lands_ite (fun _ => lands_pure _) fun _ => keeps_octalEscape _)
  all_goals exact (lands_pure _).taken rfl

/-! ### Strings and templates -/

/-- Whether a text has none of the separators that are line breaks and yet may stand in a string. -/
def NoSeparator (s : String) : Prop :=
  ∀ c ∈ s.toList, c.toNat ≠ 0x2028 ∧ c.toNat ≠ 0x2029

/-- A string keeps the characters already read. -/
theorem stringChars_mem {quote : Char} : ∀ {fuel : Nat} {acc : List Char} {l l' : Lexer} {s : String},
    stringChars quote fuel acc l = .ok s l' → ∀ c ∈ acc, c ∈ s.toList
  | 0, _, _, _, _, h => by cases h
  | fuel + 1, acc, l, l', s, h => by
    obtain ⟨c, l₁, _, h⟩ := ok_of_bind h
    split at h
    · cases h
    · split at h
      · cases h
        simp
      · split at h
        · cases h
        · split at h
          · obtain ⟨cs, l₂, _, h⟩ := ok_of_bind h
            exact fun d hd => stringChars_mem h d (List.mem_append_right _ hd)
          · exact fun d hd => stringChars_mem h d (List.mem_cons_of_mem _ hd)

/-- **A string without separators** holds no line break but those of its escapes, which count them. -/
theorem lands_stringChars {quote : Char} (hquote : isLineBreak quote = false) : ∀ (fuel : Nat) (acc : List Char),
    Lands source (Right source) NoSeparator (stringChars quote fuel acc)
  | 0, _ => lands_fail _
  | fuel + 1, acc => by
    have ih := lands_stringChars hquote fuel
    refine keeps_advance (lands_fail _) fun c => ?_
    refine lands_ite (fun hc => (lands_pure _).taken (hc ▸ hquote)) fun _ => lands_ite (fun _ => lands_fail _) fun hline =>
      lands_ite (fun hc => Lands.taken (keeps_escape.bind fun _ => ih _) (hc ▸ rfl)) fun _ l s l' hl h hs => ?_
    obtain ⟨h₁, h₂⟩ := hs c (stringChars_mem h c List.mem_cons_self)
    have hc : isLineBreak c = false := by simp_all [isLineBreak]
    exact (ih _).taken hc l s l' hl h hs

/-- A piece of a template has no text to stand for once an escape of it was not valid. -/
theorem templateChars_none : ∀ {fuel : Nat} {raw : List Char} {l l' : Lexer} {piece : Option String × String × Bool},
    templateChars fuel none raw l = .ok piece l' → piece.1 = none
  | 0, _, _, _, _, h => by cases h
  | fuel + 1, raw, l, l', piece, h => by
    obtain ⟨c, l₁, _, h⟩ := ok_of_bind h
    split at h
    · cases h
    · cases h
      rfl
    · obtain ⟨⟨meaning, written⟩, l₂, _, h⟩ := ok_of_bind h
      cases meaning <;> exact templateChars_none h
    · obtain ⟨d, l₂, _, h⟩ := ok_of_bind h
      split at h
      · obtain ⟨_, l₃, _, h⟩ := ok_of_bind h
        cases h
        rfl
      · split at h
        · obtain ⟨_, l₃, _, h⟩ := ok_of_bind h
          exact templateChars_none h
        · exact templateChars_none h

/-- **A piece of a template whose escapes are all valid** counts each line break of its text. -/
theorem lands_templateChars : ∀ (fuel : Nat) (cooked : Option (List Char)) (raw : List Char),
    Lands source (Right source) (fun piece => piece.1 ≠ none) (templateChars fuel cooked raw)
  | 0, _, _ => lands_fail _
  | fuel + 1, cooked, raw => by
    have ih := lands_templateChars fuel
    refine keeps_advance (lands_fail _) fun c => ?_
    split
    · contradiction
    · rename_i hc
      cases hc
      exact (lands_pure _).taken rfl
    · rename_i hc
      cases hc
      refine Lands.taken (fun l piece l' hl h hpiece => ?_) rfl
      obtain ⟨⟨meaning, written⟩, l₁, htry, h⟩ := ok_of_bind h
      unfold tryEscape at htry
      cases hescape : escape l with
      | ok cs l₂ =>
        rw [hescape] at htry
        cases htry
        exact ih _ _ _ _ _ (keeps_escape _ _ _ hl hescape trivial) h hpiece
      | error e l₂ =>
        rw [hescape] at htry
        cases htry
        exact absurd (templateChars_none h) hpiece
    · rename_i d _ _ hc
      obtain rfl : c = d := Option.some.inj hc
      by_cases hc : isLineBreak c = true
      · refine lands_peek fun _ => lands_ite (fun hdollar => ?_) fun _ => lands_ite (fun _ => ?_) (absurd hc)
        · obtain ⟨rfl, _⟩ := (Bool.and_eq_true_iff.1 hdollar).imp_left of_decide_eq_true
          cases hc
        · exact (taken_newLine hc).bind fun _ => ih _ _
      · have hc : isLineBreak c = false := by simpa using hc
        refine Lands.taken (keeps_peek ?_ fun d => lands_ite (fun hbrace => ?_) fun _ => ?_) hc
        · exact lands_ite (fun h => by simp at h) fun _ => lands_ite (fun h => by simp [hc] at h) fun _ => ih _ _
        · obtain ⟨_, rfl⟩ : c = '$' ∧ d = '\x7b' := by simpa using hbrace
          exact ahead_advance ((lands_pure _).taken rfl)
        · exact (lands_ite (fun h => by simp [hc] at h) fun _ => ih _ _).ahead

/-! ### Numbers and words -/

theorem keeps_decimalDigits : ∀ (fuel : Nat) (acc : List Char) (afterDigit : Bool),
    Keeps source (decimalDigits fuel acc afterDigit)
  | 0, _, _ => lands_pure _
  | fuel + 1, acc, afterDigit => by
    have ih := keeps_decimalDigits fuel
    refine keeps_peek (lands_pure _) fun c => lands_ite (fun hc => ?_) fun _ => lands_peekSecond fun _ =>
      lands_ite (fun hc => ?_) fun _ => (lands_pure _).ahead
    · exact ahead_advance ((ih _ _).taken (not_break_of_isDigit hc))
    · obtain ⟨⟨rfl, _⟩, _⟩ : (c = '_' ∧ afterDigit = true) ∧ _ := by simpa only [Bool.and_eq_true, decide_eq_true_eq] using hc
      exact ahead_advance ((ih _ _).taken rfl)

theorem keeps_moreDigits (acc : List Char) : Keeps source (moreDigits acc) :=
  lands_fuelled fun fuel => keeps_decimalDigits fuel _ _

theorem keeps_exponentPart (acc : List Char) : Keeps source (exponentPart acc) := by
  have hdigits : ∀ acc : List Char, Keeps source (do
      let digits ← moreDigits acc
      if digits.length = acc.length then fail "Invalid number" else pure digits) := fun acc =>
    (keeps_moreDigits acc).bind fun _ => lands_ite (fun _ => lands_fail _) fun _ => lands_pure _
  refine keeps_peek (lands_pure _) fun c => lands_ite (fun hc => ahead_advance (Lands.taken ?_ ?_)) fun _ => (lands_pure _).ahead
  · refine keeps_peek (hdigits _) fun s => lands_ite (fun hs => ahead_advance ((hdigits _).taken ?_)) fun _ => (hdigits _).ahead
    exact not_break_of (p := fun s => (s = '+' || s = '-') = true) hs (by decide) (by decide) (by decide) (by decide)
  · exact not_break_of (p := fun c => (c = 'e' || c = 'E') = true) hc (by decide) (by decide) (by decide) (by decide)

theorem keeps_checkAfterNumber (digitsToo : Bool) : Keeps source (checkAfterNumber digitsToo) :=
  keeps_peek (lands_pure _) fun _ => lands_ite (fun _ => lands_fail _) fun _ => lands_ite (fun _ => lands_fail _) fun _ =>
    (lands_pure _).ahead

theorem keeps_decimalToken (acc : List Char) : Keeps source (decimalToken acc) := by
  refine (keeps_checkAfterNumber _).bind fun _ => ?_
  split
  · exact lands_pure _
  · exact lands_fail _

theorem keeps_radixDigits (radix : Nat) : ∀ (fuel : Nat) (value : Float) (any afterDigit : Bool),
    Keeps source (radixDigits radix fuel value any afterDigit)
  | 0, _, _, _ => lands_pure _
  | fuel + 1, value, any, afterDigit => by
    have ih := keeps_radixDigits radix fuel
    refine keeps_peek (lands_pure _) fun c => ?_
    dsimp only
    split
    · exact ahead_advance ((ih _ _ _).taken (not_break_of_digitValue ‹_›))
    · refine lands_peekSecond fun _ => lands_ite (fun hc => ?_) fun _ => (lands_pure _).ahead
      obtain ⟨⟨rfl, _⟩, _⟩ : (c = '_' ∧ afterDigit = true) ∧ _ := by
        simpa only [Bool.and_eq_true, decide_eq_true_eq] using hc
      exact ahead_advance ((ih _ _ _).taken rfl)

theorem keeps_radixNumber (radix : Nat) : Keeps source (radixNumber radix) :=
  Lands.bind (lands_fuelled fun fuel => keeps_radixDigits radix fuel _ _ _) fun _ =>
    lands_ite (fun _ => (keeps_checkAfterNumber _).bind fun _ => lands_pure _) fun _ => lands_fail _

theorem keeps_plainDigits : ∀ (fuel : Nat) (acc : List Char), Keeps source (plainDigits fuel acc)
  | 0, _ => lands_pure _
  | fuel + 1, _ =>
    keeps_peek (lands_pure _) fun _ => lands_ite
      (fun hc => ahead_advance ((keeps_plainDigits fuel _).taken (not_break_of_isDigit hc))) fun _ => (lands_pure _).ahead

theorem keeps_zeroNumber : Keeps source zeroNumber := by
  have hrest (acc : List Char) : Keeps source (do decimalToken (← exponentPart acc)) :=
    (keeps_exponentPart acc).bind fun _ => keeps_decimalToken _
  refine Lands.bind (lands_fuelled fun fuel => keeps_plainDigits fuel _) fun _ => lands_ite (fun _ => ?_) fun _ => ?_
  · exact (keeps_checkAfterNumber _).bind fun _ => lands_pure _
  · refine keeps_peek (lands_ite (fun h => by simp at h) fun _ => hrest _) fun c => lands_ite (fun hc => ?_) fun _ =>
      (hrest _).ahead
    obtain rfl : c = '.' := by simpa using hc
    exact ahead_advance (((keeps_moreDigits _).bind fun _ => hrest _).taken rfl)

theorem keeps_decimalNumber (first : Char) : Keeps source (decimalNumber first) := by
  have hrest (acc : List Char) : Keeps source (do decimalToken (← exponentPart (← moreDigits acc))) :=
    (keeps_moreDigits acc).bind fun _ => (keeps_exponentPart _).bind fun _ => keeps_decimalToken _
  refine lands_ite (fun _ => hrest _) fun _ => (keeps_moreDigits _).bind fun _ =>
    keeps_peek (lands_ite (fun h => by simp at h) fun _ => hrest _) fun c => lands_ite (fun hc => ?_) fun _ =>
      (hrest _).ahead
  obtain rfl : c = '.' := by simpa using hc
  exact ahead_advance ((hrest _).taken rfl)

theorem keeps_number (first : Char) : Keeps source (number first) := by
  refine lands_ite (fun _ => keeps_peek (keeps_decimalNumber _) fun c => ?_) fun _ => keeps_decimalNumber _
  dsimp only
  split
  · rename_i hradix
    refine ahead_advance ((keeps_radixNumber _).taken ?_)
    refine not_break_of (p := fun c => ¬ (if c = 'x' || c = 'X' then some 16 else if c = 'o' || c = 'O' then some 8
      else if c = 'b' || c = 'B' then some 2 else none) = (none : Option Nat)) ?_ (by decide) (by decide) (by decide) (by decide)
    exact fun hnone => Option.some_ne_none _ (hradix.symm.trans (by simpa using hnone))
  · exact (lands_ite (fun _ => keeps_zeroNumber) fun _ => keeps_decimalNumber _).ahead

theorem keeps_nameEscape (isFirst : Bool) : Keeps source (nameEscape isFirst) :=
  (keeps_eat rfl).bind fun _ => lands_ite
    (fun _ => keeps_codePoint.bind fun _ => lands_ite (fun _ => lands_pure _) fun _ => lands_fail _) fun _ => lands_fail _

theorem keeps_nameChars : ∀ (fuel : Nat) (c : Char) (acc : List Char) (escaped : Bool),
    Keeps source (nameChars fuel c acc escaped)
  | 0, _, _, _ => lands_pure _
  | fuel + 1, c, acc, escaped => by
    have ih := keeps_nameChars fuel
    have hnext {n : Char} (hn : (n = '\\' || Text.isIdentifierPart n) = true) : isLineBreak n = false := by
      simp only [Bool.or_eq_true, decide_eq_true_eq] at hn
      rcases hn with rfl | hn
      · rfl
      · exact not_break_of_isIdentifierPart hn
    refine lands_ite (fun _ => (keeps_nameEscape _).bind fun _ => (lands_pure _).bind fun _ => ?_) fun _ =>
      (lands_pure _).bind fun _ => ?_
    all_goals
      refine keeps_peek (lands_pure _) fun n => lands_ite (fun hn => ?_) fun _ => (lands_pure _).ahead
      exact ahead_advance ((ih _ _ _).taken (hnext hn))

theorem keeps_word (first : Char) : Keeps source (word first) := by
  refine Lands.bind (lands_fuelled fun fuel => keeps_nameChars _ _ _ _) fun name => ?_
  refine lands_ite (fun _ => lands_ite (fun _ => lands_fail _) fun _ => lands_pure _) fun _ =>
    lands_ite (fun _ => lands_pure _) fun _ => lands_ite (fun _ => lands_pure _) fun _ =>
      lands_ite (fun _ => lands_pure _) fun _ => ?_
  split <;> exact lands_pure _

/-! ### Regular expressions and punctuators -/

theorem keeps_regexChars : ∀ (fuel : Nat) (inClass : Bool) (acc : List Char), Keeps source (regexChars fuel inClass acc)
  | 0, _, _ => lands_fail _
  | fuel + 1, inClass, acc => by
    have ih := keeps_regexChars fuel
    refine keeps_advance (lands_fail _) fun c => lands_ite (fun _ => lands_fail _) fun hc => Lands.taken ?_ (by simpa using hc)
    refine lands_ite (fun _ => lands_pure _) fun _ => lands_ite (fun _ => ?_) fun _ => lands_ite (fun _ => ih _ _) fun _ =>
      lands_ite (fun _ => ih _ _) fun _ => ih _ _
    exact keeps_advance (lands_fail _) fun d => lands_ite (fun _ => lands_fail _) fun hd => (ih _ _).taken (by simpa using hd)

theorem keeps_regexFlags : ∀ (fuel : Nat) (acc : List Char), Keeps source (regexFlags fuel acc)
  | 0, _ => lands_pure _
  | fuel + 1, acc => by
    refine keeps_peek (lands_pure _) fun c => lands_ite (fun hc => lands_ite (fun _ => ?_) fun _ => lands_fail _) fun _ =>
      (lands_pure _).ahead
    exact ahead_advance ((keeps_regexFlags fuel _).taken (not_break_of_isIdentifierPart hc))

theorem keeps_regex (taken : String) : Keeps source (regex taken) :=
  Lands.bind (lands_fuelled fun fuel => keeps_regexChars fuel _ _) fun _ =>
    Lands.bind (lands_fuelled fun fuel => keeps_regexFlags fuel _) fun _ => lands_pure _

theorem keeps_punctuator (first : Char) : Keeps source (punctuator first) := by
  have hjust (mark : Punctuator) : Keeps source (pure (Token.punctuator mark)) := lands_pure _
  have hassign (plain assigned : Punctuator) : Keeps source (withAssign plain assigned) :=
    (keeps_eat rfl).bind fun _ => lands_ite (fun _ => hjust _) fun _ => hjust _
  have heat {c : Char} {x y : Lex Token} (hc : isLineBreak c = false) (hx : Keeps source x) (hy : Keeps source y) :
      Keeps source (do if ← eat c then x else y) :=
    (keeps_eat hc).bind fun _ => lands_ite (fun _ => hx) fun _ => hy
  fun_cases punctuator first
  case case12 =>
    -- both dots of an ellipsis are seen before they are taken
    intro l t l' hl h _
    change (if _ then _ else _ : Lex Token) l = _ at h
    split at h
    · obtain ⟨hfirst, hsecond⟩ := (Bool.and_eq_true_iff.1 ‹_›).imp eq_of_beq eq_of_beq
      obtain ⟨r, hrest⟩ := List.head?_eq_some_iff.1 hfirst
      rw [hrest] at hsecond
      obtain ⟨r, rfl⟩ := List.head?_eq_some_iff.1 hsecond
      exact ahead_advances rfl rfl (hjust _) l t l' ⟨hl, r, hrest.symm⟩ h trivial
    · cases h
      exact hl
  case case13 =>
    refine heat rfl (hassign _ _) (keeps_peek ?_ fun c => lands_peekSecond fun _ => lands_ite (fun hc => ?_) fun _ => ?_)
    · exact lands_peekSecond fun _ => lands_ite (fun h => by simp at h) fun _ => hjust _
    · obtain ⟨rfl, _⟩ : c = '.' ∧ _ := by simpa using hc
      exact ahead_advance ((hjust _).taken rfl)
    · exact (hjust _).ahead
  case case15 => exact heat rfl (heat rfl (hassign _ _) (hassign _ _)) (hassign _ _)
  case case16 => exact heat rfl (hjust _) (heat rfl (hassign _ _) (hjust _))
  case case17 => exact heat rfl (hassign _ _) (hjust _)
  case case18 | case19 => exact heat rfl (hjust _) (hassign _ _)
  case case14 | case20 | case22 | case23 => exact heat rfl (hassign _ _) (hassign _ _)
  case case21 | case24 | case25 => exact hassign _ _
  case case26 => exact fun _ _ _ _ h => by cases h
  all_goals exact hjust _

/-! ## 4. Tokens -/

/-- Whether a token is one of those whose line breaks are all counted: a string without separators, a piece of a
template whose escapes are all valid, or no string and no template. -/
def Counted : Token → Prop
  | .string s => NoSeparator s
  | .template _ cooked _ => cooked ≠ none
  | _ => True

theorem lands_templatePiece (last other : TemplatePlace) : Lands source (Right source) Counted (templatePiece last other) := by
  rintro l t l' hl h ht
  obtain ⟨⟨cooked, raw, isLast⟩, l₁, hchars, h⟩ := ok_of_bind h
  cases h
  exact lands_fuelled (fun fuel => lands_templateChars fuel _ _) _ _ _ hl hchars ht

theorem lands_tokenFrom {c : Char} (hc : isLineBreak c = false) :
    Lands source (Ahead source [c]) Counted (tokenFrom c) := by
  refine ahead_advance (Lands.taken (lands_ite (fun _ l t l' hl h ht => ?_) fun _ => lands_ite
    (fun _ => lands_templatePiece _ _) fun _ => lands_ite (fun _ => (keeps_number _).any) fun _ => ?_) hc)
  · obtain ⟨s, l₁, hchars, h⟩ := ok_of_bind h
    cases h
    exact lands_fuelled (fun fuel => lands_stringChars hc fuel _) _ _ _ hl hchars ht
  · exact lands_peek fun _ => lands_ite (fun _ => (keeps_number _).any) fun _ => lands_ite (fun _ => (keeps_word _).any)
      fun _ => (keeps_punctuator _).any

/-- **A token whose line breaks are all counted** leaves the position right, whatever comments stand before it. -/
theorem lands_tokenLoop : ∀ fuel : Nat, Lands source (Right source) Counted (tokenLoop fuel)
  | 0 => lands_pure _
  | fuel + 1 => by
    have ih := lands_tokenLoop fuel
    intro l t l' hl h ht
    obtain ⟨_, l₁, hstart, h⟩ := ok_of_bind h
    have hl₁ := keeps_startToken l _ l₁ hl hstart trivial
    rw [bind_of_ok (rfl : peekSecond l₁ = .ok l₁.rest.tail.head? l₁),
      bind_of_ok (rfl : peek l₁ = .ok l₁.rest.head? l₁)] at h
    cases hrest : l₁.rest with
    | nil =>
      rw [hrest] at h
      cases h
      exact hl₁
    | cons c r =>
      simp only [hrest, List.head?_cons, List.tail_cons] at h
      have hahead (l : Lexer) (hl : l = l₁) : Ahead source [c] l := hl ▸ ⟨hl₁, by simp [hrest]⟩
      refine (lands_ite (fun hc => ?_) fun hc => lands_ite (fun _ => ?_) fun _ => lands_ite (fun hopen => ?_) fun _ =>
        fun l => (lands_ite (fun _ => ?_) fun _ => ?_ : Lands source (· = l₁) Counted (ite _ _ _)) l : Lands source (· = l₁) Counted _) l₁ t l' rfl h ht
      · exact (ahead_advance ((taken_newLine hc).bind fun _ => lands_pure _)).weaken hahead
      · exact (keeps_skipLine.bind fun _ => ih).ahead.weaken hahead
      · obtain ⟨rfl, hsecond⟩ : c = '/' ∧ r.head? = some '*' := by simpa using hopen
        obtain ⟨r, rfl⟩ := List.head?_eq_some_iff.1 hsecond
        have hahead (l : Lexer) (hl : l = l₁) : Ahead source ['/', '*'] l := hl ▸ ⟨hl₁, r, hrest.symm⟩
        refine (ahead_advances rfl rfl ?_).weaken hahead
        exact Lands.bind (lands_fuelled fun fuel => keeps_blockComment fuel false) fun _ =>
          lands_ite (fun _ => lands_pure _) fun _ => ih
      · exact (keeps_skipLine.bind fun _ => ih).ahead.weaken hahead
      · exact (lands_tokenFrom (by simpa using hc)).weaken hahead

theorem lands_token : Lands source (Right source) Counted token :=
  lands_fuelled lands_tokenLoop

/-! ## 5. Calls of a lexer -/

/-- What a parser asks a lexer for. -/
inductive Call where
  | token
  /-- A regular expression after its slash and the characters of it already taken. -/
  | regex (taken : String)
  /-- A piece of a template after the brace that closes a substitution. -/
  | templateRest

def Call.read : Call → Lex Token
  | token => Lexer.token
  | regex taken => Lexer.regex taken
  | templateRest => Lexer.templateRest

/-- Tokens that are read by calls one after the other. -/
inductive Answers : Lexer → List Token → Lexer → Prop where
  | nil {l : Lexer} : Answers l [] l
  | cons {call : Call} {t : Token} {ts : List Token} {l l₁ l₂ : Lexer} (h : call.read l = .ok t l₁)
      (hmore : Answers l₁ ts l₂) : Answers l (t :: ts) l₂

theorem lands_read : ∀ call : Call, Lands source (Right source) Counted call.read
  | .token => lands_token
  | .regex taken => (keeps_regex taken).any
  | .templateRest => lands_templatePiece _ _

theorem Answers.right {ts : List Token} (h : Answers l ts l') : Right source l → (∀ t ∈ ts, Counted t) → Right source l' := by
  induction h with
  | nil => exact fun hl _ => hl
  | cons h _ ih =>
    intro hl hts
    exact ih (lands_read _ _ _ _ hl h (hts _ List.mem_cons_self)) fun t ht => hts t (List.mem_cons_of_mem _ ht)

/-- **Reported positions are right.** After any sequence of calls on any text, in which no string held a separator and no
template an escape that is not valid, the line of the lexer is one more than the number of line breaks in what it has
passed and its column the number of characters since the last of them, and the same holds at the start of its token. -/
theorem positions_right {ts : List Token} (source : String) (h : Answers (ofText source) ts l) (hts : ∀ t ∈ ts, Counted t) :
    Right source l :=
  h.right (right_ofText source) hts

theorem positions_right_continued : ∃ l,
    Answers (ofText "'a\\\nb' c") [.string "ab", .identifier "c"] l ∧ l.position = { line := 2, column := 4 } ∧
      Right "'a\\\nb' c" l := by
  have h : Answers (ofText "'a\\\nb' c") [.string "ab", .identifier "c"] _ :=
    @Answers.cons .token _ _ _ _ _ rfl (@Answers.cons .token _ _ _ _ _ rfl .nil)
  have hab : "ab".toList = ['a', 'b'] := rfl
  refine ⟨_, h, rfl, positions_right _ h ?_⟩
  simp only [Counted, NoSeparator, hab, List.forall_mem_cons, List.not_mem_nil, false_implies, implies_true, and_true]
  decide

end

end Lexer

end GuestScript
