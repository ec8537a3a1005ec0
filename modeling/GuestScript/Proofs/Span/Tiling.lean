import GuestScript.Proofs.Progress.Lexer
import GuestScript.Proofs.Span.Token
import Mathlib.Data.List.TakeWhile

/-!
# Tokens tile a text

Tokens are read one after the other until the end of the text or a fault. Each of them covers a part of the text that is
not empty, behind those before it, and what stands between two of them is a *filler*: blanks, comments that do not span
lines, and at the very start of a text a line that starts with `#!` (`Lexer.tokens_tile`). A comment that spans lines is
a token, as a line break is.
-/

namespace GuestScript

open String (utf8Len)
open Stage

namespace Lexer

/-! ## 1. What stands between tokens -/

/-- Whether characters, from an offset of a text on and with the rest of the text behind them, may stand between
tokens. -/
inductive Filler : Nat → List Char → List Char → Prop where
  | nil {offset : Nat} {after : List Char} : Filler offset [] after
  | blank {offset : Nat} {c : Char} {gap after : List Char} (hc : isBlank c = true)
      (hgap : Filler (offset + c.utf8Size) gap after) : Filler offset (c :: gap) after
  /-- A comment up to the end of its line. -/
  | line {offset : Nat} {body gap after : List Char} (hbody : ∀ c ∈ body, isLineBreak c = false)
      (hend : ∀ c ∈ (gap ++ after).head?, isLineBreak c = true)
      (hgap : Filler (offset + utf8Len ('/' :: '/' :: body)) gap after) :
      Filler offset ('/' :: '/' :: body ++ gap) after
  /-- A comment within a line, up to the first mark that ends it. -/
  | block {offset : Nat} {body gap after : List Char} (hbody : ∀ c ∈ body, isLineBreak c = false)
      (hclose : ¬ ['*', '/'] <:+: body) (hgap : Filler (offset + utf8Len ('/' :: '*' :: body ++ ['*', '/'])) gap after) :
      Filler offset ('/' :: '*' :: body ++ ['*', '/'] ++ gap) after
  /-- The first line of a text. -/
  | hashbang {body gap after : List Char} (hbody : ∀ c ∈ body, isLineBreak c = false)
      (hend : ∀ c ∈ (gap ++ after).head?, isLineBreak c = true)
      (hgap : Filler (utf8Len ('#' :: '!' :: body)) gap after) :
      Filler 0 ('#' :: '!' :: body ++ gap) after

theorem filler_blanks {cs : List Char} (h : ∀ c ∈ cs, isBlank c = true) : ∀ {offset : Nat} {gap after : List Char},
    Filler (offset + utf8Len cs) gap after → Filler offset (cs ++ gap) after := by
  induction cs with
  | nil => exact fun hgap => hgap
  | cons c cs ih =>
    intro offset gap after hgap
    refine .blank (h c List.mem_cons_self) (ih (fun d hd => h d (List.mem_cons_of_mem c hd)) ?_)
    rwa [String.utf8Len_cons, Nat.add_comm (utf8Len cs), ← Nat.add_assoc] at hgap

/-! ## 2. Blanks and comments -/

/-- With enough rounds, all that there is to pass over is passed over. -/
theorem skipWhile_eq (p : Char → Bool) : ∀ {fuel : Nat} {l : Lexer}, l.rest.length < fuel →
    (skipWhile p fuel l).rest = l.rest.dropWhile p ∧
      (skipWhile p fuel l).offset = l.offset + utf8Len (l.rest.takeWhile p)
  | fuel + 1, l, hfuel => by
    unfold skipWhile
    cases hrest : l.rest with
    | nil => simp [hrest]
    | cons c rest =>
      have hnext : l.next.rest = rest ∧ l.next.offset = l.offset + c.utf8Size := by simp [next, hrest]
      dsimp only
      by_cases hc : p c = true
      · have hfuel' : l.next.rest.length < fuel := by
          simp only [hnext, hrest, List.length_cons] at hfuel ⊢
          omega
        obtain ⟨h₁, h₂⟩ := skipWhile_eq p hfuel'
        rw [hnext.1] at h₁ h₂
        simp only [hc, if_true, h₁, h₂, hnext.2, List.dropWhile_cons, List.takeWhile_cons, String.utf8Len_cons]
        exact ⟨trivial, by omega⟩
      · simp [hc, hrest]

/-- A comment that has been seen to span lines does. -/
theorem blockComment_true : ∀ {fuel : Nat} {l l' : Lexer} {broken : Bool},
    blockComment fuel true l = .ok broken l' → broken = true
  | 0, _, _, _, h => by cases h
  | fuel + 1, l, l', broken, h => by
    obtain ⟨c, l₁, _, h⟩ := ok_of_bind h
    split at h
    · cases h
    · obtain ⟨eaten, l₂, _, h⟩ := ok_of_bind h
      split at h
      · cases h
        rfl
      · exact blockComment_true h
    · split at h
      · obtain ⟨_, l₂, _, h⟩ := ok_of_bind h
        exact blockComment_true h
      · exact blockComment_true h

/-- A mark that ends comments does not start at a character that is no star, or that no slash follows. -/
theorem not_closed_cons {d : Char} {body : List Char} (hbody : ¬ ['*', '/'] <:+: body)
    (hd : d = '*' → body.head? ≠ some '/') : ¬ ['*', '/'] <:+: d :: body := by
  rw [List.infix_cons_iff]
  rintro (⟨rest, hstart⟩ | hlater)
  · cases hstart
    exact hd rfl rfl
  · exact hbody hlater

/-- **A comment that does not span lines** ends at the first mark that ends comments. -/
theorem blockComment_false : ∀ {fuel : Nat} {l l' : Lexer}, blockComment fuel false l = .ok false l' →
    ∃ body, l.rest = body ++ ['*', '/'] ++ l'.rest ∧ (∀ c ∈ body, isLineBreak c = false) ∧ ¬ ['*', '/'] <:+: body
  | 0, _, _, h => by cases h
  | fuel + 1, l, l', hread => by
    obtain ⟨c, l₁, hadvance, h⟩ := ok_of_bind hread
    cases hrest : l.rest with
    | nil =>
      have htaken : advance l = .ok none l.next := by rw [advance, hrest]; rfl
      rw [htaken] at hadvance
      cases hadvance
      cases h
    | cons d rest =>
      have htaken : advance l = .ok (some d) l.next := by rw [advance, hrest]; rfl
      have hnext : l.next.rest = rest := by simp [next, hrest]
      rw [htaken] at hadvance
      cases hadvance
      -- the comment goes on behind this character, which neither ends it nor the line
      have hon (hd : isLineBreak d = false) (hopen : d = '*' → rest.head? ≠ some '/')
          (h : blockComment fuel false l.next = .ok false l') :
          ∃ body, d :: rest = body ++ ['*', '/'] ++ l'.rest ∧ (∀ c ∈ body, isLineBreak c = false) ∧
            ¬ ['*', '/'] <:+: body := by
        obtain ⟨body, hbody, hline, hclose⟩ := blockComment_false h
        rw [hnext] at hbody
        refine ⟨d :: body, by rw [hbody]; rfl, List.forall_mem_cons.2 ⟨hd, hline⟩, not_closed_cons hclose ?_⟩
        intro hstar hslash
        cases body with
        | nil => cases hslash
        | cons e body => exact hopen hstar (by rw [hbody]; exact hslash)
      by_cases hstar : d = '*'
      · subst hstar
        obtain ⟨eaten, l₂, heat, h⟩ := ok_of_bind h
        simp only [eat, hnext] at heat
        split at heat
        · cases heat
          cases h
          rename_i hslash
          refine ⟨[], ?_, List.forall_mem_nil _, by simp⟩
          cases rest with
          | nil => cases hslash
          | cons e rest =>
            cases hslash
            simp [next, hrest]
        · cases heat
          exact hon (by decide) (fun _ => ‹_›) h
      · generalize hc : some d = c at h
        split at h
        · cases hc
        · exact absurd (Option.some.inj hc) hstar
        · cases hc
          split at h
          · obtain ⟨_, l₂, _, h⟩ := ok_of_bind h
            cases blockComment_true h
          · rename_i hd
            exact hon (by simpa using hd) (fun h => absurd h hstar) h

/-! ## 3. Readers of tokens -/

/-- Whether a reader of tokens never says that the text is at its end. -/
def Genuine (x : Lex Token) : Prop :=
  ∀ l t l', x l = .ok t l' → t.isEof = false

section

variable {α : Type} {x y : Lex Token}

theorem genuine_bind {x : Lex α} {f : α → Lex Token} (hf : ∀ a, Genuine (f a)) : Genuine (x >>= f) := by
  intro l t l' h
  obtain ⟨a, l₁, _, h⟩ := ok_of_bind h
  exact hf a l₁ t l' h

theorem genuine_pure {t : Token} (h : t.isEof = false) : Genuine (pure t) := by
  intro l t' l' hr
  cases hr
  exact h

theorem genuine_fail (message : String) : Genuine (fail message) :=
  fun _ _ _ h => by cases h

theorem genuine_ite {c : Prop} [Decidable c] (hx : Genuine x) (hy : Genuine y) : Genuine (if c then x else y) := by
  split
  · exact hx
  · exact hy

theorem genuine_templatePiece (place other : TemplatePlace) : Genuine (templatePiece place other) :=
  genuine_bind fun _ => genuine_pure rfl

theorem genuine_decimalToken (acc : List Char) : Genuine (decimalToken acc) := by
  refine genuine_bind fun _ => ?_
  split
  · exact genuine_pure rfl
  · exact genuine_fail _

theorem genuine_number (first : Char) : Genuine (number first) := by
  have hrest (acc : List Char) : Genuine (do decimalToken (← exponentPart acc)) :=
    genuine_bind fun _ => genuine_decimalToken _
  have hmore (acc : List Char) : Genuine (do decimalToken (← exponentPart (← moreDigits acc))) :=
    genuine_bind fun _ => hrest _
  have hdecimal : Genuine (decimalNumber first) :=
    genuine_ite (hmore _) <| genuine_bind fun _ => genuine_bind fun _ =>
      genuine_ite (genuine_bind fun _ => hmore _) (hmore _)
  have hzero : Genuine zeroNumber :=
    genuine_bind fun _ => genuine_ite (genuine_bind fun _ => genuine_pure rfl) <| genuine_bind fun _ =>
      genuine_ite (genuine_bind fun _ => genuine_bind fun _ => hrest _) (hrest _)
  have hradix (radix : Nat) : Genuine (radixNumber radix) :=
    genuine_bind fun _ => genuine_ite (genuine_bind fun _ => genuine_pure rfl) (genuine_fail _)
  refine genuine_ite (genuine_bind fun c => ?_) hdecimal
  split
  · exact hdecimal
  · dsimp only
    split
    · exact genuine_bind fun _ => hradix _
    · exact genuine_ite hzero hdecimal

theorem genuine_word (first : Char) : Genuine (word first) := by
  refine genuine_bind fun name => genuine_ite (genuine_ite (genuine_fail _) (genuine_pure rfl)) <|
    genuine_ite (genuine_pure rfl) <| genuine_ite (genuine_pure rfl) <| genuine_ite (genuine_pure rfl) ?_
  split <;> exact genuine_pure rfl

theorem genuine_punctuator (first : Char) : Genuine (punctuator first) := by
  have hjust (mark : Punctuator) : Genuine (pure (.punctuator mark)) := genuine_pure rfl
  have hassign (plain assigned : Punctuator) : Genuine (withAssign plain assigned) :=
    genuine_bind fun _ => genuine_ite (hjust _) (hjust _)
  fun_cases punctuator first
  case case12 =>
    exact genuine_bind fun _ => genuine_bind fun _ =>
      genuine_ite (genuine_bind fun _ => genuine_bind fun _ => hjust _) (hjust _)
  case case13 =>
    refine genuine_bind fun _ => genuine_ite (hassign _ _) ?_
    exact genuine_bind fun _ => genuine_bind fun _ => genuine_ite (genuine_bind fun _ => hjust _) (hjust _)
  case case15 =>
    refine genuine_bind fun _ => genuine_ite ?_ (hassign _ _)
    exact genuine_bind fun _ => genuine_ite (hassign _ _) (hassign _ _)
  case case16 =>
    exact genuine_bind fun _ => genuine_ite (hjust _) (genuine_bind fun _ => genuine_ite (hassign _ _) (hjust _))
  case case17 => exact genuine_bind fun _ => genuine_ite (hassign _ _) (hjust _)
  case case18 | case19 => exact genuine_bind fun _ => genuine_ite (hjust _) (hassign _ _)
  case case14 | case20 | case22 | case23 => exact genuine_bind fun _ => genuine_ite (hassign _ _) (hassign _ _)
  case case21 | case24 | case25 => exact hassign _ _
  case case26 => exact fun _ _ _ h => by cases h
  all_goals exact hjust _

theorem genuine_tokenFrom (c : Char) : Genuine (tokenFrom c) := by
  refine genuine_bind fun _ => genuine_ite (genuine_bind fun _ => genuine_pure rfl) <|
    genuine_ite (genuine_templatePiece _ _) <| genuine_ite (genuine_number _) <| genuine_bind fun _ => ?_
  exact genuine_ite (genuine_number _) <| genuine_ite (genuine_word _) (genuine_punctuator _)

end

/-! ## 4. The search for a token -/

section

variable {l l₁ l₂ l' : Lexer}

/-- Whether all between two places may stand between tokens, in front of whatever else may. -/
def Gap (l l' : Lexer) : Prop :=
  ∃ gap, l.rest = gap ++ l'.rest ∧ l'.offset = l.offset + utf8Len gap ∧
    ∀ more after, l'.rest = more ++ after → Filler l'.offset more after → Filler l.offset (gap ++ more) after

theorem Gap.trans (h : Gap l l₁) (h' : Gap l₁ l₂) : Gap l l₂ := by
  obtain ⟨gap, hrest, hoffset, hfiller⟩ := h
  obtain ⟨gap', hrest', hoffset', hfiller'⟩ := h'
  refine ⟨gap ++ gap', ?_, ?_, fun more after hmore h => ?_⟩
  · rw [hrest, hrest', List.append_assoc]
  · rw [hoffset', hoffset, String.utf8Len_append, Nat.add_assoc]
  · rw [List.append_assoc]
    refine hfiller _ after ?_ (hfiller' more after hmore h)
    rw [hrest', hmore, List.append_assoc]

theorem bind_of_ok {α β : Type} {x : Lex α} {f : α → Lex β} {a : α} (h : x l = .ok a l₁) : (x >>= f) l = f a l₁ := by
  simp only [Bind.bind, EStateM.bind, h]

/-- A steady reader never goes back, and leaves no more than fits the size. -/
theorem Steady.agree {α : Type} {x : Lex α} {a : α} (hx : Steady x) (hl : l.Roomy) (h : x l = .ok a l') :
    l'.Roomy ∧ l'.rest.length ≤ l.rest.length := by
  have hagree := hx _ l l (.refl hl) (Nat.le_refl _)
  rw [h] at hagree
  cases hagree with
  | ok hsame hle => exact ⟨hsame.roomy, hle⟩

/-- A token starts behind the blanks before it. -/
theorem startToken_gap (hl : l.Roomy) : ∃ l₁, startToken l = .ok () l₁ ∧ Gap l l₁ ∧ l₁.tokenStart = l₁.offset ∧
    l₁.rest.length ≤ l.rest.length ∧ l₁.Roomy := by
  obtain ⟨hrest, hoffset⟩ := skipWhile_eq isBlank hl.lt_fuel
  refine ⟨_, rfl, ⟨l.rest.takeWhile isBlank, ?_, hoffset, fun more after _ h => ?_⟩, rfl, ?_, ?_⟩
  · exact (hrest ▸ List.takeWhile_append_dropWhile).symm
  · exact filler_blanks (fun c => List.mem_takeWhile_imp) (hoffset ▸ h)
  · exact left_skipWhile_le _ _ _
  · exact (steady_startToken.agree hl rfl).1

/-- A line that starts with two characters is passed over up to the line break that ends it. -/
theorem skipLine_eq {a b : Char} {r : List Char} (hl : l.Roomy) (hrest : l.rest = a :: b :: r)
    (ha : isLineBreak a = false) (hb : isLineBreak b = false) : ∃ l₁ body, skipLine l = .ok () l₁ ∧ l₁.Roomy ∧
      l.rest = a :: b :: body ++ l₁.rest ∧ l₁.offset = l.offset + utf8Len (a :: b :: body) ∧
        (∀ c ∈ body, isLineBreak c = false) ∧ ∀ c ∈ l₁.rest.head?, isLineBreak c = true := by
  obtain ⟨hbehind, hoffset⟩ := skipWhile_eq (fun c => !isLineBreak c) hl.lt_fuel
  have hline : l.rest.takeWhile (fun c => !isLineBreak c) = a :: b :: r.takeWhile (fun c => !isLineBreak c) := by
    simp [hrest, ha, hb]
  refine ⟨_, r.takeWhile (fun c => !isLineBreak c), rfl, ((steady_skip _).agree hl rfl).1, ?_, hline ▸ hoffset, fun c hc => ?_,
    fun c hc => ?_⟩
  · rw [← hline]
    exact (hbehind ▸ List.takeWhile_append_dropWhile).symm
  · simpa using List.mem_takeWhile_imp hc
  · have hhead := List.head?_dropWhile_not (fun c => !isLineBreak c) l.rest
    rw [← hbehind, hc] at hhead
    simpa using hhead

theorem steady_blockComment : Steady (fuelled fun fuel => blockComment fuel false) :=
  steady_fuelled commentLoop alike_commentRound false

/-- A comment that does not span lines may stand between tokens. -/
theorem blockComment_gap {r : List Char} (hrest : l.rest = '/' :: '*' :: r)
    (h : fuelled (fun fuel => blockComment fuel false) l.next.next = .ok false l') : Gap l l' := by
  obtain ⟨body, hbody, hline, hclose⟩ := blockComment_false h
  obtain ⟨taken, htaken, hoffset, _⟩ := (moves_fuelled fun fuel => moves_blockComment fuel false).passes h
  obtain rfl : body ++ ['*', '/'] = taken := List.append_cancel_right (hbody.symm.trans htaken)
  have hstart : l.next.next.rest = r ∧ l.next.next.offset = l.offset + utf8Len ['/', '*'] := by
    simp only [next, hrest, String.utf8Len_cons, String.utf8Len_nil]
    exact ⟨trivial, by omega⟩
  have hend : l'.offset = l.offset + utf8Len ('/' :: '*' :: body ++ ['*', '/']) := by
    rw [hoffset, hstart.2, Nat.add_assoc, ← String.utf8Len_append]
    rfl
  refine ⟨'/' :: '*' :: body ++ ['*', '/'], ?_, hend, fun more after _ h => ?_⟩
  · rw [hrest, ← hstart.1, hbody]
    rfl
  · exact .block hline hclose (hend ▸ h)

/-- What a search that starts at one place and ends at another one has gone over: what may stand between tokens, and
then the text of a token. -/
def Covers (l l' : Lexer) : Prop :=
  ∃ l₁, Gap l l₁ ∧ l₁.tokenStart = l₁.offset ∧ Passes l₁ l'

/-- How a search for a token may end. -/
inductive Search (l : Lexer) : EStateM.Result LexError Lexer Token → Prop where
  | ended {l' : Lexer} (h : Covers l l') (hrest : l'.rest = []) (hempty : l'.tokenStart = l'.offset) :
      Search l (.ok .eof l')
  | token {t : Token} {l' : Lexer} (ht : t.isEof = false) (h : Covers l l') (hlt : l'.tokenStart < l'.offset) :
      Search l (.ok t l')
  | fault {e : LexError} {l' : Lexer} (h : Covers l l') : Search l (.error e l')

theorem Search.behind {r : EStateM.Result LexError Lexer Token} (hgap : Gap l l₁) (h : Search l₁ r) : Search l r := by
  have hcovers {l'} (h : Covers l₁ l') : Covers l l' := by
    obtain ⟨l₂, hgap', h⟩ := h
    exact ⟨l₂, hgap.trans hgap', h⟩
  cases h with
  | ended h hrest hempty => exact .ended (hcovers h) hrest hempty
  | token ht h hlt => exact .token ht (hcovers h) hlt
  | fault h => exact .fault (hcovers h)

theorem search_ite {c : Prop} [Decidable c] {x y : Lex Token} (hx : c → Search l (x l₁)) (hy : ¬ c → Search l (y l₁)) :
    Search l ((if c then x else y) l₁) := by
  split
  · exact hx ‹_›
  · exact hy ‹_›

/-- Where a reader takes a character, the offset grows. -/
theorem Passes.offset_lt (h : Passes l l') (hlt : l'.rest.length < l.rest.length) : l.offset < l'.offset := by
  obtain ⟨taken, hrest, hoffset, _⟩ := h
  cases taken with
  | nil => simp [hrest] at hlt
  | cons c taken =>
    have hc := c.utf8Size_pos
    rw [hoffset, String.utf8Len_cons]
    omega

/-- A token that a reader finds where it starts, and of which it takes a character. -/
theorem search_of_takes {x : Lex Token} (hgap : Gap l l₁) (hstart : l₁.tokenStart = l₁.offset) (hl : l₁.Roomy)
    (hhead : l₁.rest ≠ []) (hmoves : Moves x) (hgenuine : Genuine x)
    (htakes : ∀ k, Alike sizes k ready (fun _ => moved) x x) : Search l (x l₁) := by
  have hpasses := hmoves l₁
  have hready : ready.Fits sizes l₁.rest.length l₁ := ⟨Nat.le_refl _, by simpa [sizes] using hhead⟩
  have htake := htakes _ l₁ l₁ (.refl hl) hready
  unfold after at hpasses
  cases hr : x l₁ with
  | ok t l' =>
    rw [hr] at hpasses htake
    cases htake with
    | ok _ hlt =>
      refine .token (hgenuine _ _ _ hr) ⟨l₁, hgap, hstart, hpasses⟩ ?_
      rw [hpasses.tokenStart_eq, hstart]
      exact hpasses.offset_lt hlt
  | error e l' =>
    rw [hr] at hpasses
    exact .fault ⟨l₁, hgap, hstart, hpasses⟩

/-- **The search for a token** goes over what may stand between tokens, and then over the text of a token, over a part of
it that is at fault, or over nothing where the text ends. -/
theorem tokenLoop_search : ∀ {fuel : Nat} {l : Lexer}, l.Roomy → l.rest.length < fuel → Search l (tokenLoop fuel l)
  | fuel + 1, l, hl, hfuel => by
    obtain ⟨l₁, hblanks, hgap, hstart, hle, hl₁⟩ := startToken_gap hl
    rw [tokenLoop, bind_of_ok hblanks, bind_of_ok (rfl : peekSecond l₁ = .ok l₁.rest.tail.head? l₁),
      bind_of_ok (rfl : peek l₁ = .ok l₁.rest.head? l₁)]
    -- behind a comment the search goes on with less left
    have hagain {l₂ : Lexer} (hcomment : Gap l₁ l₂) (hl₂ : l₂.Roomy) (hlt : l₂.rest.length < l₁.rest.length) :
        Search l (tokenLoop fuel l₂) :=
      (tokenLoop_search hl₂ (by omega)).behind (hgap.trans hcomment)
    -- a line that starts with two certain characters is passed over
    have hline {a b : Char} {r : List Char} (hrest : l₁.rest = a :: b :: r) (ha : isLineBreak a = false)
        (hb : isLineBreak b = false)
        (hfiller : ∀ {body more after : List Char}, (∀ c ∈ body, isLineBreak c = false) →
          (∀ c ∈ (more ++ after).head?, isLineBreak c = true) →
            Filler (l₁.offset + utf8Len (a :: b :: body)) more after →
              Filler l₁.offset (a :: b :: body ++ more) after) :
        Search l ((do skipLine; tokenLoop fuel) l₁) := by
      obtain ⟨l₂, body, hskip, hl₂, hcut, hoffset, hinside, hbreak⟩ := skipLine_eq hl₁ hrest ha hb
      rw [bind_of_ok hskip]
      refine hagain ⟨_, hcut, hoffset, fun more after hmore h => ?_⟩ hl₂ ?_
      · exact hfiller hinside (hmore ▸ hbreak) (hoffset ▸ h)
      · simp only [hcut, List.length_append, List.length_cons]
        omega
    cases hrest : l₁.rest with
    | nil => exact .ended ⟨l₁, hgap, hstart, .refl l₁⟩ hrest hstart
    | cons c r =>
      have hhead : l₁.rest ≠ [] := by simp [hrest]
      simp only [List.head?_cons, List.tail_cons]
      refine search_ite (fun _ => ?_) fun hc => search_ite (fun hslashes => ?_) fun _ =>
        search_ite (fun hopen => ?_) fun _ => ?_
      · exact search_of_takes hgap hstart hl₁ hhead
          (moves_advance.bind fun _ => (moves_newLine c).bind fun _ => moves_pure _)
          (genuine_bind fun _ => genuine_bind fun _ => genuine_pure rfl)
          fun k => alike_take.bind fun _ => (steady_newLine c).moved.bind fun _ => alike_pure trivial
      · obtain ⟨rfl, hsecond⟩ : c = '/' ∧ r.head? = some '/' := by simpa using hslashes
        obtain ⟨r, rfl⟩ := List.head?_eq_some_iff.1 hsecond
        exact hline hrest (by decide) (by decide) .line
      · obtain ⟨rfl, hsecond⟩ : c = '/' ∧ r.head? = some '*' := by simpa using hopen
        obtain ⟨r, rfl⟩ := List.head?_eq_some_iff.1 hsecond
        rw [bind_of_ok (rfl : advance l₁ = .ok l₁.rest.head? l₁.next),
          bind_of_ok (rfl : advance l₁.next = .ok l₁.next.rest.head? l₁.next.next)]
        have hopened : Passes l₁ l₁.next.next := (passes_next l₁).trans (passes_next l₁.next)
        have hshorter : l₁.next.next.rest.length < l₁.rest.length := by
          simp only [next, hrest, List.length_cons]
          omega
        have hroomy : l₁.next.next.Roomy := (steady_advance.agree (steady_advance.agree hl₁ rfl).1 rfl).1
        have hpasses := hopened.trans (moves_fuelled (fun fuel => moves_blockComment fuel false) l₁.next.next)
        unfold after at hpasses
        cases hr : fuelled (fun fuel => blockComment fuel false) l₁.next.next with
        | error e l₂ =>
          rw [hr] at hpasses
          simp only [Bind.bind, EStateM.bind, hr]
          exact .fault ⟨l₁, hgap, hstart, hpasses⟩
        | ok broken l₂ =>
          rw [hr] at hpasses
          rw [bind_of_ok hr]
          obtain ⟨hroomy, hle⟩ := steady_blockComment.agree hroomy hr
          have hlt := Nat.lt_of_le_of_lt hle hshorter
          cases broken with
          | true =>
            refine .token rfl ⟨l₁, hgap, hstart, hpasses⟩ ?_
            rw [hpasses.tokenStart_eq, hstart]
            exact hpasses.offset_lt hlt
          | false => exact hagain (blockComment_gap hrest hr) hroomy hlt
      · rw [get_bind_apply]
        refine search_ite (fun hhash => ?_) fun _ => ?_
        · obtain ⟨⟨rfl, hsecond⟩, hzero⟩ : (c = '#' ∧ r.head? = some '!') ∧ l₁.offset = 0 := by simpa using hhash
          obtain ⟨r, rfl⟩ := List.head?_eq_some_iff.1 hsecond
          refine hline hrest (by decide) (by decide) fun hbody hend hmore => ?_
          rw [hzero] at hmore ⊢
          exact .hashbang hbody hend (by simpa using hmore)
        · exact search_of_takes hgap hstart hl₁ hhead (moves_tokenFrom c) (genuine_tokenFrom c)
            fun _ => alike_tokenFrom c

/-- The search for the next token. -/
theorem token_search (hl : l.Roomy) : Search l (token l) :=
  tokenLoop_search hl hl.lt_fuel

end

/-! ## 5. Tokens one after the other -/

/-- Tokens that are read one after the other before the end of a text or a fault, given by where they start and where the
lexer is after them, and the lexer after all of them. -/
inductive Reads : Lexer → List (Nat × Nat) → Lexer → Prop where
  | nil {l : Lexer} : Reads l [] l
  | cons {t : Token} {l l₁ l₂ : Lexer} {spans : List (Nat × Nat)} (h : token l = .ok t l₁) (ht : t.isEof = false)
      (hmore : Reads l₁ spans l₂) : Reads l ((l₁.tokenStart, l₁.offset) :: spans) l₂

/-- Whether characters, from an offset of a text on, are covered by spans in order that are not empty and fillers around
them, up to characters that are left. -/
inductive Tiles : Nat → List Char → List (Nat × Nat) → List Char → Prop where
  | nil {offset : Nat} {gap left : List Char} (hgap : Filler offset gap left) : Tiles offset (gap ++ left) [] left
  | cons {offset : Nat} {gap text more left : List Char} {spans : List (Nat × Nat)}
      (hgap : Filler offset gap (text ++ more)) (htext : text ≠ [])
      (hmore : Tiles (offset + utf8Len (gap ++ text)) more spans left) :
      Tiles offset (gap ++ text ++ more) ((offset + utf8Len gap, offset + utf8Len (gap ++ text)) :: spans) left

section

variable {source : String} {l l' : Lexer} {spans : List (Nat × Nat)}

/-- **The spans of a tiling** lie on boundaries, are not empty, and follow each other. -/
theorem Tiles.ordered {offset : Nat} {cs left : List Char} (h : Tiles offset cs spans left) :
    ∀ {before : List Char}, source.toList = before ++ cs → offset = utf8Len before →
      (∀ span ∈ spans, Boundary source span.1 ∧ Boundary source span.2 ∧ span.1 < span.2 ∧ offset ≤ span.1) ∧
        spans.Pairwise fun a b => a.2 ≤ b.1 := by
  induction h with
  | nil _ => exact fun _ _ => ⟨nofun, .nil⟩
  | @cons offset gap text more left spans hgap htext _ ih =>
    intro before hsource hoffset
    obtain ⟨hspans, hpairs⟩ := ih (show source.toList = before ++ (gap ++ text) ++ more by simp [hsource])
      (by rw [hoffset, String.utf8Len_append before])
    have hstart : Boundary source (offset + utf8Len gap) :=
      boundary_iff.2 ⟨before ++ gap, text ++ more, by simp [hsource], by rw [hoffset, String.utf8Len_append before]⟩
    have hstop : Boundary source (offset + utf8Len (gap ++ text)) :=
      boundary_iff.2 ⟨before ++ (gap ++ text), more, by simp [hsource], by rw [hoffset, String.utf8Len_append before]⟩
    have hlt : utf8Len gap < utf8Len (gap ++ text) := by
      have hpos : utf8Len text ≠ 0 := fun h => htext (String.utf8Len_eq_zero.1 h)
      rw [String.utf8Len_append]
      omega
    refine ⟨List.forall_mem_cons.2 ⟨⟨hstart, hstop, by omega, by omega⟩, fun span hspan => ?_⟩,
      .cons (fun span hspan => (hspans span hspan).2.2.2) hpairs⟩
    obtain ⟨h₁, h₂, h₃, hle⟩ := hspans span hspan
    exact ⟨h₁, h₂, h₃, by omega⟩

theorem Covers.cut (h : Covers l l') : ∃ gap text, l.rest = gap ++ text ++ l'.rest ∧
    Filler l.offset gap (text ++ l'.rest) ∧ l'.tokenStart = l.offset + utf8Len gap ∧
      l'.offset = l.offset + utf8Len (gap ++ text) := by
  obtain ⟨l₁, ⟨gap, hrest, hoffset, hfiller⟩, hstart, text, htext, hend, htoken⟩ := h
  refine ⟨gap, text, ?_, ?_, ?_, ?_⟩
  · rw [hrest, htext, List.append_assoc]
  · simpa [htext] using hfiller [] l₁.rest rfl .nil
  · rw [htoken, hstart, hoffset]
  · rw [hend, hoffset, String.utf8Len_append, Nat.add_assoc]

/-- A token that is not the end of the text, and what is left behind it. -/
theorem token_tile {t : Token} (hl : l.Roomy) (h : token l = .ok t l') (ht : t.isEof = false) :
    l'.Roomy ∧ l'.rest.length < l.rest.length ∧ ∀ {spans left}, Tiles l'.offset l'.rest spans left →
      Tiles l.offset l.rest ((l'.tokenStart, l'.offset) :: spans) left := by
  have hsearch := token_search hl
  rw [h] at hsearch
  cases hsearch with
  | ended => cases ht
  | token _ hcovers hlt =>
    obtain ⟨gap, text, hrest, hfiller, hstart, hend⟩ := hcovers.cut
    have htext : text ≠ [] := by
      rintro rfl
      rw [List.append_nil] at hend
      omega
    refine ⟨(steady_token.agree hl h).1, ?_, fun htiles => ?_⟩
    · have hpos := List.length_pos_iff.2 htext
      simp only [hrest, List.length_append]
      omega
    · rw [hrest, hstart, hend]
      exact .cons hfiller htext (hend ▸ htiles)

/-- Tokens tile what is read until the first one that is at fault, or until the end of the text. -/
theorem Reads.tiles (h : Reads l spans l') : l.Roomy → l'.Roomy ∧ spans.length + l'.rest.length ≤ l.rest.length ∧
    ∀ {left}, Tiles l'.offset l'.rest [] left → Tiles l.offset l.rest spans left := by
  induction h with
  | nil => exact fun hl => ⟨hl, by simp, fun h => h⟩
  | cons h ht _ ih =>
    intro hl
    obtain ⟨hl₁, hlt, htile⟩ := token_tile hl h ht
    obtain ⟨hl₂, hle, htiles⟩ := ih hl₁
    exact ⟨hl₂, by simp only [List.length_cons]; omega, fun h => htile (htiles h)⟩

theorem Reads.at (h : Reads l spans l') : At source l → At source l' := by
  induction h with
  | nil => exact fun hl => hl
  | cons h _ _ ih => exact fun hl => ih (token_marked hl (Nat.zero_le _) h).at_source

/-- Reading tokens one after the other comes to an end. -/
theorem exists_reads (hl : l.Roomy) : ∃ spans l', Reads l spans l' ∧ ∀ t l'', token l' = .ok t l'' → t.isEof = true := by
  induction hn : l.rest.length using Nat.strongRecOn generalizing l with
  | ind n ih =>
    by_cases hlast : ∀ t l', token l = .ok t l' → t.isEof = true
    · exact ⟨[], l, .nil, hlast⟩
    · obtain ⟨t, l₁, h, ht⟩ : ∃ t l₁, token l = .ok t l₁ ∧ t.isEof = false := by
        simpa only [not_forall, exists_prop, Bool.not_eq_true] using hlast
      obtain ⟨hl₁, hlt, _⟩ := token_tile hl h ht
      obtain ⟨spans, l₂, hmore, hend⟩ := ih _ (hn ▸ hlt) hl₁ rfl
      exact ⟨_, l₂, .cons h ht hmore, hend⟩

/-- **Tokens tile a text.** Reading tokens one after the other comes to the end of the text or to a fault, after no more
tokens than the text has characters. All tokens before that cover a part of the text that is not empty and lies on
boundaries, each behind the ones before it, and nothing but fillers stands between them, before the end of the text, and
before the start of a token that is at fault. -/
theorem tokens_tile (source : String) :
    (∃ spans l, Reads (ofText source) spans l ∧ ∀ t l', token l = .ok t l' → t.isEof = true) ∧
    ∀ spans l, Reads (ofText source) spans l →
      spans.length ≤ source.length ∧
      (∀ span ∈ spans, Boundary source span.1 ∧ Boundary source span.2 ∧ span.1 < span.2) ∧
      spans.Pairwise (fun a b => a.2 ≤ b.1) ∧
      Tiles 0 source.toList spans l.rest ∧
      (∀ t l', token l = .ok t l' → t.isEof = true → Tiles 0 source.toList spans []) ∧
      ∀ e l', token l = .error e l' → ∃ before left, source.toList = before ++ left ∧ l'.tokenStart = utf8Len before ∧
        Tiles 0 source.toList spans left := by
  refine ⟨exists_reads (roomy_ofText source), fun spans l h => ?_⟩
  obtain ⟨hl, hle, htiles⟩ := h.tiles (roomy_ofText source)
  have hall : Tiles 0 source.toList spans l.rest := htiles (.nil .nil)
  obtain ⟨hspans, hpairs⟩ := hall.ordered (show source.toList = [] ++ source.toList from rfl) rfl
  have hsearch := token_search hl
  refine ⟨?_, fun span hspan => ?_, hpairs, hall, fun t l' hr ht => ?_, fun e l' hr => ?_⟩
  · exact Nat.le_trans (Nat.le_add_right _ _) hle
  · obtain ⟨h₁, h₂, h₃, _⟩ := hspans span hspan
    exact ⟨h₁, h₂, h₃⟩
  · rw [hr] at hsearch
    cases hsearch with
    | token hgenuine => cases ht.symm.trans hgenuine
    | ended hcovers hrest hempty =>
      obtain ⟨gap, text, hcut, hfiller, hstart, hend⟩ := hcovers.cut
      obtain rfl : text = [] := by
        rw [String.utf8Len_append] at hend
        exact String.utf8Len_eq_zero.1 (by omega)
      rw [hrest] at hcut hfiller
      refine htiles ?_
      rw [hcut, List.append_nil]
      exact .nil hfiller
  · rw [hr] at hsearch
    cases hsearch with
    | fault hcovers =>
      obtain ⟨gap, text, hcut, hfiller, hstart, hend⟩ := hcovers.cut
      obtain ⟨before, hbefore, hoffset⟩ : At source l := h.at (at_ofText source)
      refine ⟨before ++ gap, text ++ l'.rest, ?_, ?_, htiles ?_⟩
      · rw [hbefore, hcut, List.append_assoc, List.append_assoc]
      · rw [hstart, hoffset, String.utf8Len_append]
      · rw [hcut, List.append_assoc]
        exact .nil hfiller

end

end Lexer

end GuestScript
