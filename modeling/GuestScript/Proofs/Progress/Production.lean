import GuestScript.Proofs.Progress.Lexer
import GuestScript.Tree.Parser.State

/-!
# Tokens are taken

Two parsers are compared that are at the same place of a text (`Parser.rooms`). They may know different sizes of the
text, and where a comparison allows for it, the first one may be deeper than the second one, so that it may fail because
of its depth. What is left to read is what the lexer has left, and the token ahead, which is not taken yet.

A production of the grammar takes a token, or fails. It is put together from others, each of which is `Alike` in two
parsers if what it is put together from is.
-/

namespace GuestScript.Parser

open Stage

variable {α β : Type} {deeper : Prop} {k : Nat} {before : Stage} (mark : Punctuator) (word : Keyword)
  (message : String)

/-! ## 1. Parsers at the same place -/

/-- A parser with another size of the text, and another depth. -/
def placed (p : Parser) (size depth : Nat) : Parser :=
  { p with lexer := { p.lexer with size := size }, depth := depth }

/-- Whether two parsers are at the same place, the first one deeper than the second one if that is allowed. -/
structure SamePlace (deeper : Prop) (p q : Parser) : Prop where
  eq : q = p.placed q.lexer.size q.depth
  roomy : p.lexer.Roomy
  roomy' : q.lexer.Roomy
  depth : q.depth = p.depth ∨ deeper ∧ q.depth ≤ p.depth

/-- Whether a fault is that something nests too deep. -/
def IsNestingFault (e : ParseError) : Prop :=
  ∃ position, e = .of "Too many nested statements or expressions" position

/-- Two parsers at the same place of a text. -/
def rooms (deeper : Prop) : Comparison ParseError Parser where
  Same := SamePlace deeper
  left p := p.lexer.rest.length + if p.current.isEof then 0 else 1
  ended p := p.current.isEof
  Pardons e := deeper ∧ IsNestingFault e
  left_eq h := by rw [h.eq]; rfl

theorem SamePlace.lexer {p q : Parser} (h : SamePlace deeper p q) : Lexer.SameText p.lexer q.lexer :=
  ⟨congrArg Parser.lexer h.eq, h.roomy, h.roomy'⟩

theorem SamePlace.refl {p : Parser} (h : p.lexer.Roomy) : SamePlace deeper p p :=
  ⟨rfl, h, h, .inl rfl⟩

theorem SamePlace.depth_le {p q : Parser} (h : SamePlace deeper p q) : q.depth ≤ p.depth :=
  h.depth.elim Nat.le_of_eq And.right

theorem SamePlace.lt_fuel {p q : Parser} (h : SamePlace deeper p q) :
    (rooms deeper).left p < p.lexer.fuel + 1 ∧ (rooms deeper).left p < q.lexer.fuel + 1 := by
  have hp := h.lexer.lt_fuel
  simp only [rooms, Lexer.sizes] at hp ⊢
  split <;> omega

/-! ## 2. Steps -/

/-- **A look at the state** shows the same in both parsers, but for what they may differ in, and whether something is
ahead. -/
theorem alike_get {f g : Parser → Parse α} {after : α → Stage} (hg : ∀ p size depth, g (p.placed size depth) = g p)
    (h : ∀ p, Alike (rooms deeper) k (before.ifSeen !p.current.isEof) after (f p) (g p)) :
    Alike (rooms deeper) k before after (get >>= f) (get >>= g) := by
  intro p q hsame hp
  rw [get_bind_apply, get_bind_apply, hsame.eq, hg p, ← hsame.eq]
  refine h p p q hsame ?_
  cases before with
  | fresh =>
    cases hend : p.current.isEof with
    | true => exact hp
    | false => exact ⟨hp, hend⟩
  | ready | moved => cases p.current.isEof <;> exact hp

/-- The same where nothing hangs on whether something is ahead. -/
theorem alike_read {f g : Parser → Parse α} {after : α → Stage} (hg : ∀ p size depth, g (p.placed size depth) = g p)
    (h : ∀ p, Alike (rooms deeper) k before after (f p) (g p)) :
    Alike (rooms deeper) k before after (get >>= f) (get >>= g) :=
  alike_get hg fun p => (h p).weaken (below_ifSeen _ _) fun _ => below_refl _

theorem alike_look {f : Parser → α} (hf : ∀ p size depth, f (p.placed size depth) = f p) (seen : α → Bool)
    (hseen : ∀ p, seen (f p) = true → p.current.isEof = false) :
    Alike (rooms deeper) k before (fun a => before.ifSeen (seen a)) (do pure (f (← get))) (do pure (f (← get))) := by
  refine alike_get (fun p size depth => congrArg pure (hf p size depth)) fun p => alike_pure ?_
  cases hp : seen (f p) with
  | true =>
    rw [hseen p hp]
    exact below_refl _
  | false => cases before <;> trivial

/-- **A change** that has nothing to do with what the parsers may differ in. -/
theorem alike_modify {f : Parser → Parser} (hf : ∀ p size depth, f (p.placed size depth) = (f p).placed size depth)
    (hkeeps : ∀ p, (f p).lexer = p.lexer ∧ (f p).current = p.current ∧ (f p).depth = p.depth) :
    Alike (rooms deeper) k before (fun _ => before) (modify f : Parse Unit) (modify f) := by
  intro p q hsame hp
  obtain ⟨hlexer, hcurrent, hdepth⟩ := hkeeps p
  obtain ⟨hlexer', _, hdepth'⟩ := hkeeps q
  have hsame' : SamePlace deeper (f p) (f q) := by
    refine ⟨?_, hlexer ▸ hsame.roomy, hlexer' ▸ hsame.roomy', ?_⟩
    · rw [hlexer', hdepth', ← hf, ← hsame.eq]
    · rw [hdepth, hdepth']
      exact hsame.depth
  refine .ok hsame' ?_
  have hleft : (rooms deeper).left (f p) = (rooms deeper).left p := by simp only [rooms, hlexer, hcurrent]
  cases before with
  | fresh | moved =>
    unfold Fits at hp ⊢
    rwa [hleft]
  | ready =>
    refine ⟨hleft ▸ hp.1, ?_⟩
    simpa only [rooms, hcurrent] using hp.2

/-- What follows a change. -/
theorem alike_modifyThen {after : α → Stage} {x y : Parse α} {f : Parser → Parser}
    (hf : ∀ p size depth, f (p.placed size depth) = (f p).placed size depth)
    (hkeeps : ∀ p, (f p).lexer = p.lexer ∧ (f p).current = p.current ∧ (f p).depth = p.depth)
    (h : Alike (rooms deeper) k before after x y) :
    Alike (rooms deeper) k before after (do modify f; x) (do modify f; y) :=
  (alike_modify hf hkeeps).bind fun _ => h

section

variable {stage : Bool → Stage} {after : α → Stage} {x y : Parse Bool} {a a' b b' : Parse α}

theorem alike_if (hx : Alike (rooms deeper) k before stage x y)
    (ha : Alike (rooms deeper) k (stage true) after a a') (hb : Alike (rooms deeper) k (stage false) after b b') :
    Alike (rooms deeper) k before after (do if ← x then a else b) (do if ← y then a' else b') := by
  refine hx.bind fun c => ?_
  cases c with
  | true => exact ha
  | false => exact hb

end

theorem alike_at : Alike (rooms deeper) k before (fun b => before.ifSeen b) (at? mark) (at? mark) := by
  refine alike_look (f := fun p => p.current.isMark mark) (fun _ _ _ => rfl) id fun p h => ?_
  cases hp : p.current <;> simp_all [Token.isMark, Token.isEof]

/-- What is ahead need not matter. -/
theorem alike_atPlain : Alike (rooms deeper) k before (fun _ => before) (at? mark) (at? mark) :=
  (alike_at mark).weaken (below_refl _) (below_ifSeen _)

theorem at_bind_apply (f : Bool → Parse α) (p : Parser) : (at? mark >>= f) p = f (p.current.isMark mark) p :=
  rfl

theorem atWord_bind_apply (f : Bool → Parse α) (p : Parser) : (atWord? word >>= f) p = f (p.current.isWord word) p :=
  rfl

theorem alike_atWord : Alike (rooms deeper) k before (fun b => before.ifSeen b) (atWord? word) (atWord? word) := by
  refine alike_look (f := fun p => p.current.isWord word) (fun _ _ _ => rfl) id fun p h => ?_
  cases hp : p.current <;> simp_all [Token.isWord, Token.isEof]

/-- A word that is ahead after something has been taken. -/
theorem alike_ifWord {word : Keyword} {after : β → Stage} {x x' y y' : Parse α} {f g : α → Parse β}
    (hx : ∀ k' < k, Alike (rooms deeper) k' ready (fun _ => moved) x x')
    (hy : Alike (rooms deeper) k moved (fun _ => moved) y y') (hf : ∀ a, Alike (rooms deeper) k moved after (f a) (g a)) :
    Alike (rooms deeper) k moved after (do f (← if ← atWord? word then x else y))
      (do g (← if ← atWord? word then x' else y')) := by
  intro p q hsame hp
  rw [atWord_bind_apply, atWord_bind_apply, show q.current = p.current by rw [hsame.eq]; rfl]
  cases hword : p.current.isWord word with
  | true =>
    have hend : p.current.isEof = false := by
      cases hp : p.current <;> simp_all [Token.isWord, Token.isEof]
    have hmoved : Agree (rooms deeper) k (fun _ => moved) (x p) (x' q) :=
      (hx _ hp p q hsame ⟨Nat.le_refl _, hend⟩).mono (Nat.le_of_lt hp) fun _ _ h => Nat.lt_trans h hp
    exact hmoved.bind hf
  | false => exact (hy p q hsame hp).bind hf

theorem alike_ahead : Alike (rooms deeper) k before (fun t => before.ifSeen !t.isEof) ahead ahead :=
  alike_look (f := fun p => p.current) (fun _ _ _ => rfl) (fun t => !t.isEof) fun p h => by simpa using h

theorem alike_start : Alike (rooms deeper) k before (fun _ => before) start start :=
  alike_read (fun _ _ _ => rfl) fun _ => alike_pure (below_refl _)

theorem alike_finish (marker : Marker) (kind : Kind) :
    Alike (rooms deeper) k before (fun _ => before) (finish marker kind) (finish marker kind) :=
  alike_read (fun _ _ _ => rfl) fun _ => alike_pure (below_refl _)

theorem alike_some {after : Stage} {x y : Parse α} (h : Alike (rooms deeper) k before (fun _ => after) x y) :
    Alike (rooms deeper) k before (fun _ => after) (some <$> x) (some <$> y) :=
  h.map fun _ => below_refl _

theorem alike_sourceSlice (start stop : Nat) :
    Alike (rooms deeper) k before (fun _ => before) (sourceSlice start stop) (sourceSlice start stop) :=
  alike_read (fun _ _ _ => rfl) fun _ => alike_pure (below_refl _)

/-! ### Failing -/

section

variable {after : α → Stage}

theorem alike_failAt (position : Option Position) :
    Alike (rooms deeper) k before after (failAt message position) (failAt message position) :=
  alike_throw _

theorem alike_fail : Alike (rooms deeper) k before after (fail message) (fail message) :=
  alike_read (fun _ _ _ => rfl) fun _ => alike_failAt _ _

theorem alike_unexpected : Alike (rooms deeper) k before after unexpected unexpected := by
  refine alike_read (fun _ _ _ => rfl) fun p => ?_
  split <;> exact alike_fail _

/-! Nothing follows a fault. -/

theorem failAt_bind (position : Option Position) (f : β → Parse α) :
    failAt message position >>= f = failAt message position :=
  rfl

theorem fail_bind (f : β → Parse α) : fail message >>= f = fail message :=
  rfl

theorem unexpected_bind (f : β → Parse α) : unexpected >>= f = unexpected := by
  unfold unexpected
  rw [bind_assoc]
  refine bind_congr fun p => ?_
  split <;> rfl

theorem alike_failThen (f g : β → Parse α) :
    Alike (rooms deeper) k before after (fail message >>= f) (fail message >>= g) :=
  alike_fail message

theorem alike_unexpectedThen (f g : β → Parse α) :
    Alike (rooms deeper) k before after (unexpected >>= f) (unexpected >>= g) := by
  rw [unexpected_bind, unexpected_bind]
  exact alike_unexpected

theorem alike_unsupported (what : String) :
    Alike (rooms deeper) k before after (unsupported what) (unsupported what) :=
  alike_fail _

theorem alike_requireModern (what : String) :
    Alike (rooms deeper) k before (fun _ => before) (requireModern what) (requireModern what) :=
  alike_read (fun _ _ _ => rfl) fun _ => alike_ite (fun _ => alike_pure (below_refl _)) fun _ => alike_fail _

end

/-! ## 3. Tokens -/

/-- A reader of the lexer does in a parser what it does in a lexer. -/
theorem alike_lex {reader : Lex Token} {taken : Token → Bool}
    (h : ∀ k, Alike Lexer.sizes k fresh (fun t => fresh.ifTaken (taken t)) reader reader) :
    Alike (rooms deeper) k fresh (fun t => fresh.ifTaken (taken t)) (lex reader) (lex reader) := by
  intro p q hsame hp
  have hlex := h _ _ _ hsame.lexer (Nat.le_refl _)
  obtain ⟨size, depth, rfl⟩ : ∃ size depth, q = p.placed size depth := ⟨_, _, hsame.eq⟩
  unfold lex
  generalize hr : reader p.lexer = r, hr' : reader (p.placed size depth).lexer = r' at hlex
  cases hlex with
  | @ok t l l' hl hfits =>
    obtain ⟨hl, hroomy, hroomy'⟩ := hl
    refine .ok ⟨?_, hroomy, hroomy', hsame.depth⟩ ?_
    · dsimp only [placed]
      rw [hl]
    · have hp : p.lexer.rest.length + (if p.current.isEof then 0 else 1) ≤ k := hp
      cases ht : taken t with
      | true =>
        rw [ht] at hfits
        have hlt : l.rest.length < p.lexer.rest.length := hfits
        exact Nat.lt_of_lt_of_le (Nat.add_lt_add_right hlt _) hp
      | false =>
        rw [ht] at hfits
        have hle : l.rest.length ≤ p.lexer.rest.length := hfits
        exact Nat.le_trans (Nat.add_le_add_right hle _) hp
  | error _ _ => exact .error hsame hp
  | pardoned h => exact h.elim

/-- **A token that is read anew** takes the place of the one ahead. -/
theorem alike_rescan {reader : Lex Token} (h : Lexer.Steady reader) :
    Alike (rooms deeper) k ready (fun _ => fresh) (do rescan (← lex reader)) (do rescan (← lex reader)) := by
  intro p q hsame hp
  have hlex := h _ _ _ hsame.lexer (Nat.le_refl _)
  obtain ⟨size, depth, rfl⟩ : ∃ size depth, q = p.placed size depth := ⟨_, _, hsame.eq⟩
  simp only [Bind.bind, EStateM.bind, lex]
  generalize hr : reader p.lexer = r, hr' : reader (p.placed size depth).lexer = r' at hlex
  cases hlex with
  | @ok t l l' hl hle =>
    obtain ⟨hl, hroomy, hroomy'⟩ := hl
    generalize l'.size = size' at hl
    subst hl
    refine .ok ⟨rfl, hroomy, hroomy', hsame.depth⟩ ?_
    obtain ⟨hp, hend⟩ : p.lexer.rest.length + (if p.current.isEof then 0 else 1) ≤ k ∧ p.current.isEof = false := hp
    have hle : l.rest.length ≤ p.lexer.rest.length := hle
    rw [hend] at hp
    refine Nat.le_trans (Nat.add_le_add hle ?_) hp
    cases t.isEof <;> decide
  | error _ _ => exact .error hsame hp.1
  | pardoned h => exact h.elim

/-- The search for the next token that is no line break. -/
def tokenSearch : Loop ParseError Parser Bool (Token × Bool) where
  run := nextToken
  round broken := do
    let t ← lex Lexer.token
    if t.isNewline then pure (.inl true) else pure (.inr (t, broken))
  unroll bound broken := by
    simp only [nextToken, bind_assoc]
    refine bind_congr fun t => ?_
    simp only [ite_bind, pure_bind, Sum.elim_inl, Sum.elim_inr]

/-- How far a search for a token has come. -/
def foundToken (r : Token × Bool) : Stage :=
  Lexer.found r.1

theorem alike_tokenRound (k : Nat) (broken : Bool) :
    Alike (rooms deeper) k fresh (afterRound foundToken) (tokenSearch.round broken) (tokenSearch.round broken) := by
  refine (alike_lex Lexer.alike_token).bind fun t => ?_
  cases ht : t.isNewline with
  | true =>
    have hgenuine : t.isEof = false := by cases t <;> simp_all [Token.isNewline, Token.isEof]
    rw [hgenuine]
    exact alike_pure trivial
  | false => exact alike_pure (below_refl _)

/-- While a token is searched for, the one ahead stays. -/
theorem nextToken_current : ∀ {fuel : Nat} {broken : Bool} {p p' : Parser} {r : Token × Bool},
    nextToken fuel broken p = .ok r p' → p'.current = p.current
  | 0, _, _, _, _, h => by
    cases h
    rfl
  | fuel + 1, broken, p, p', r, h => by
    unfold nextToken lex at h
    simp only [Bind.bind, EStateM.bind] at h
    cases hr : Lexer.token p.lexer with
    | error e l =>
      rw [hr] at h
      cases h
    | ok t l =>
      rw [hr] at h
      dsimp only at h
      split at h
      · exact @nextToken_current _ _ { p with lexer := l } _ _ h
      · cases h
        rfl

/-- **Taking a token** takes the one that is ahead, unless nothing is. -/
theorem alike_advance : Alike (rooms deeper) k fresh (fun t => fresh.ifTaken !t.isEof) advance advance := by
  intro p q hsame hp
  have hsearch : Agree (rooms deeper) ((rooms deeper).left p) foundToken
      (nextToken (p.lexer.fuel + 1) false p) (nextToken (q.lexer.fuel + 1) false q) :=
    tokenSearch.alike_run (fun k _ => alike_tokenRound k) hsame (Nat.le_refl _) hsame.lt_fuel.1 hsame.lt_fuel.2
  unfold advance
  rw [get_bind_apply, get_bind_apply]
  simp only [Bind.bind, EStateM.bind]
  have hcurrent := @nextToken_current (p.lexer.fuel + 1) false p
  generalize nextToken (p.lexer.fuel + 1) false p = r, nextToken (q.lexer.fuel + 1) false q = r' at hsearch hcurrent
  cases hsearch with
  | @ok found p' q' hsame' hfits =>
    obtain ⟨next, broken⟩ := found
    have hcurrent : p'.current = p.current := hcurrent rfl
    obtain ⟨hq', hroomy, hroomy', hdepth⟩ := hsame'
    generalize q'.lexer.size = size, q'.depth = depth at hq'
    subst hq'
    refine .ok ⟨rfl, hroomy, hroomy', hdepth⟩ ?_
    -- the search has taken no more than what the new token ahead takes back
    have hp : p.lexer.rest.length + (if p.current.isEof then 0 else 1) ≤ k := hp
    have hnext : p'.lexer.rest.length + (if next.isEof then 0 else 1) ≤ p.lexer.rest.length := by
      cases hend : next.isEof <;> simp only [foundToken, Lexer.found, hend, hcurrent, Fits, ifTaken, rooms] at hfits <;>
        simp at hfits ⊢ <;> omega
    rw [hcurrent]
    cases hend : p.current.isEof with
    | true => exact Nat.le_trans hnext (Nat.le_trans (Nat.le_add_right _ _) hp)
    | false =>
      rw [hend] at hp
      exact Nat.lt_of_le_of_lt hnext hp
  | error hsame' hle => exact .error hsame' (Nat.le_trans hle hp)
  | pardoned h => exact .pardoned h

/-- What is taken is the token that was ahead. -/
theorem advance_current {p p' : Parser} {t : Token} (h : advance p = .ok t p') : t = p.current := by
  unfold advance at h
  rw [get_bind_apply] at h
  simp only [Bind.bind, EStateM.bind] at h
  cases hr : nextToken (p.lexer.fuel + 1) false p with
  | error e q =>
    rw [hr] at h
    cases h
  | ok r q =>
    rw [hr] at h
    cases h
    exact nextToken_current hr

/-- Where something is ahead, it is taken. -/
theorem alike_take : Alike (rooms deeper) k ready (fun _ => moved) advance advance := by
  intro p q hsame hp
  have h := alike_advance p q hsame hp.1
  generalize hr : advance p = r, advance q = r' at h
  cases h with
  | ok hsame' hfits =>
    refine .ok hsame' ?_
    have hend : p.current.isEof = false := hp.2
    rw [advance_current hr, hend] at hfits
    exact hfits
  | error hsame' hle => exact .error hsame' hle
  | pardoned h => exact .pardoned h

theorem alike_discard {after : Stage} {x y : Parse α} (h : Alike (rooms deeper) k before (fun _ => after) x y) :
    Alike (rooms deeper) k before (fun _ => after) (discard x) (discard y) :=
  h.bind fun _ => alike_pure (below_refl _)

theorem alike_takeMore : Alike (rooms deeper) k moved (fun _ => moved) (discard advance) (discard advance) :=
  alike_discard (Alike.later fun _ _ => alike_advance)

/-- What is known to be ahead is taken. -/
theorem alike_takeSeen :
    Alike (rooms deeper) k (before.ifSeen true) (fun _ => moved) (discard advance) (discard advance) := by
  cases before with
  | fresh | ready => exact alike_discard alike_take
  | moved => exact alike_takeMore

theorem alike_eat : Alike (rooms deeper) k before (fun _ => moved) (eat mark) (eat mark) :=
  alike_if (alike_at mark) alike_takeSeen alike_unexpected

theorem alike_eatWord : Alike (rooms deeper) k before (fun _ => moved) (eatWord word) (eatWord word) :=
  alike_if (alike_atWord word) alike_takeSeen alike_unexpected

theorem below_ifSeen_false (stage : Stage) : stage.Below (stage.ifSeen false) := by
  cases stage <;> trivial

theorem alike_eatIf : Alike (rooms deeper) k before (fun taken => before.ifTaken taken) (eatIf mark) (eatIf mark) :=
  alike_if (alike_at mark) (alike_takeSeen.bind fun _ => alike_pure trivial) (alike_pure (below_ifSeen_false _))

theorem alike_discardIf : Alike (rooms deeper) k moved (fun _ => moved) (discard (eatIf mark)) (discard (eatIf mark)) :=
  (alike_eatIf mark).bind fun taken => alike_pure (by cases taken <;> trivial)

theorem alike_eatIfWord :
    Alike (rooms deeper) k before (fun taken => before.ifTaken taken) (eatIfWord word) (eatIfWord word) :=
  alike_if (alike_atWord word) (alike_takeSeen.bind fun _ => alike_pure trivial) (alike_pure (below_ifSeen_false _))

theorem alike_eatSemicolon : Alike (rooms deeper) k moved (fun _ => moved) eatSemicolon eatSemicolon :=
  alike_if (alike_eatIf _) (alike_pure trivial) <| alike_read (fun _ _ _ => rfl) fun _ =>
    alike_ite (fun _ => alike_pure trivial) fun _ => alike_unexpected

theorem alike_notAt : Alike (rooms deeper) k before (fun _ => before) (notAt mark) (notAt mark) :=
  (alike_atPlain mark).bind fun _ => alike_return _

/-- The next piece of a template starts with the brace that is ahead. -/
theorem alike_continueTemplate {after : α → Stage} {x y : Parse α} (h : Alike (rooms deeper) k moved after x y) :
    Alike (rooms deeper) k moved after
      (do
        if ← at? .rightBrace then
          rescan (← lex Lexer.templateRest)
          x
        else unexpected)
      (do
        if ← at? .rightBrace then
          rescan (← lex Lexer.templateRest)
          y
        else unexpected) := by
  intro p q hsame hp
  rw [at_bind_apply, at_bind_apply, show q.current = p.current by rw [hsame.eq]; rfl]
  cases hbrace : p.current.isMark .rightBrace with
  | true =>
    have hend : p.current.isEof = false := by
      cases hp : p.current <;> simp_all [Token.isMark, Token.isEof]
    -- the piece takes no more than it gives back as the token ahead
    have hrescan := alike_rescan Lexer.steady_templateRest p q hsame ⟨Nat.le_refl _, hend⟩
    have hmoved : Agree (rooms deeper) k (fun _ => moved) _ _ :=
      hrescan.mono (Nat.le_of_lt hp) fun _ _ hle => Nat.lt_of_le_of_lt hle hp
    have hcut (z : Parse α) : (do rescan (← lex Lexer.templateRest); z) =
        (do rescan (← lex Lexer.templateRest)) >>= fun _ => z := by
      rw [bind_assoc]
    rw [if_pos rfl, if_pos rfl, hcut, hcut]
    exact hmoved.bind fun _ => h
  | false => exact Alike.agree alike_unexpected hsame hp

/-! ## 4. Context -/

section

variable {after : α → Stage} {x y : Parse α}

/-- A production one level deeper. -/
theorem alike_nested (h : Alike (rooms deeper) k before after x y) :
    Alike (rooms deeper) k before after (nested x) (nested y) := by
  intro p q hsame hp
  obtain ⟨hq, hroomy, hroomy', hdepth⟩ := hsame
  generalize q.lexer.size = size, q.depth = depth at hq
  subst hq
  change depth = p.depth ∨ deeper ∧ depth ≤ p.depth at hdepth
  unfold nested
  rw [get_bind_apply, get_bind_apply]
  by_cases hdeep : p.depth ≥ maxNesting
  · rw [if_pos hdeep]
    rcases hdepth with rfl | ⟨hdeeper, _⟩
    · rw [if_pos (show (p.placed size p.depth).depth ≥ maxNesting from hdeep)]
      exact Alike.agree (alike_fail _) ⟨rfl, hroomy, hroomy', .inl rfl⟩ hp
    · exact .pardoned ⟨hdeeper, _, rfl⟩
  · have hdeep' : ¬ depth ≥ maxNesting := by omega
    rw [if_neg hdeep, if_neg (show ¬ (p.placed size depth).depth ≥ maxNesting from hdeep')]
    have hx := h { p with depth := p.depth + 1 } { p.placed size depth with depth := depth + 1 }
      ⟨rfl, hroomy, hroomy', hdepth.imp (congrArg (· + 1)) fun h => ⟨h.1, Nat.succ_le_succ h.2⟩⟩ hp
    change Agree (rooms deeper) k after
      ((do let result ← x; modify fun p : Parser => { p with depth := p.depth - 1 }; pure result) { p with depth := p.depth + 1 })
      ((do let result ← y; modify fun p : Parser => { p with depth := p.depth - 1 }; pure result)
        { p.placed size depth with depth := depth + 1 })
    simp only [Bind.bind, EStateM.bind]
    generalize x { p with depth := p.depth + 1 } = r,
      y { p.placed size depth with depth := depth + 1 } = r' at hx
    cases hx with
    | @ok a s t hsame' hfits =>
      obtain ⟨ht, hs, ht', hdepth'⟩ := hsame'
      generalize t.lexer.size = size', t.depth = depth' at ht
      subst ht
      exact .ok ⟨rfl, hs, ht', hdepth'.imp (congrArg (· - 1)) fun h => ⟨h.1, Nat.sub_le_sub_right h.2 1⟩⟩ hfits
    | error hsame' hle => exact .error hsame' hle
    | pardoned h => exact .pardoned h

/-- What a production changes around another one. -/
theorem alike_between {f g : Parser → Parser} (h : Alike (rooms deeper) k before after x y)
    (hf : ∀ p size depth, f (p.placed size depth) = (f p).placed size depth)
    (hf' : ∀ p, (f p).lexer = p.lexer ∧ (f p).current = p.current ∧ (f p).depth = p.depth)
    (hg : ∀ p size depth, g (p.placed size depth) = (g p).placed size depth)
    (hg' : ∀ p, (g p).lexer = p.lexer ∧ (g p).current = p.current ∧ (g p).depth = p.depth) :
    Alike (rooms deeper) k before after (do modify f; let result ← x; modify g; pure result)
      (do modify f; let result ← y; modify g; pure result) :=
  (alike_modify hf hf').bind fun _ => h.bind fun _ => (alike_modify hg hg').bind fun _ => alike_pure (below_refl _)

theorem alike_withIn (h : Alike (rooms deeper) k before after x y) :
    Alike (rooms deeper) k before after (withIn x) (withIn y) :=
  alike_read (fun _ _ _ => rfl) fun _ =>
    alike_between h (fun _ _ _ => rfl) (fun _ => ⟨rfl, rfl, rfl⟩) (fun _ _ _ => rfl) fun _ => ⟨rfl, rfl, rfl⟩

theorem alike_inFunction (h : Alike (rooms deeper) k before after x y) :
    Alike (rooms deeper) k before after (inFunction x) (inFunction y) :=
  alike_read (fun _ _ _ => rfl) fun _ =>
    alike_between h (fun _ _ _ => rfl) (fun _ => ⟨rfl, rfl, rfl⟩) (fun _ _ _ => rfl) fun _ => ⟨rfl, rfl, rfl⟩

end

/-! ## 5. Loops -/

section

variable {Carry Result : Type} {A B : Loop ParseError Parser Carry Result} {last : Result → Stage} {c : Carry}
  {after : β → Stage} {f g : Result → Parse β}

/-- **A loop whose rounds take** is given a bound that exceeds what is left. -/
theorem alike_runLoop
    (hround : ∀ k' ≤ k, ∀ c, Alike (rooms deeper) k' fresh (afterRound last) (A.round c) (B.round c)) :
    Alike (rooms deeper) k fresh last (do A.run ((← get).lexer.fuel + 1) c) (do B.run ((← get).lexer.fuel + 1) c) :=
  fun _ _ hsame hp => Loop.alike_run hround hsame hp hsame.lt_fuel.1 hsame.lt_fuel.2

theorem alike_loop (hround : ∀ k' ≤ k, ∀ c, Alike (rooms deeper) k' fresh (afterRound last) (A.round c) (B.round c))
    (hf : ∀ r, Alike (rooms deeper) k (last r) after (f r) (g r)) :
    Alike (rooms deeper) k fresh after (do f (← A.run ((← get).lexer.fuel + 1) c))
      (do g (← B.run ((← get).lexer.fuel + 1) c)) :=
  (alike_runLoop hround).bind hf

/-- A loop after something has been taken. -/
theorem alike_laterLoop
    (hround : ∀ k' < k, ∀ c, Alike (rooms deeper) k' fresh (afterRound last) (A.round c) (B.round c))
    (hf : ∀ r, Alike (rooms deeper) k moved after (f r) (g r)) :
    Alike (rooms deeper) k moved after (do f (← A.run ((← get).lexer.fuel + 1) c))
      (do g (← B.run ((← get).lexer.fuel + 1) c)) :=
  (Alike.later fun _ hk => alike_runLoop fun _ hk' => hround _ (Nat.lt_of_le_of_lt hk' hk)).bind hf

end

/-- The loop that collects what a production adds. -/
def collecting (goesOn : Parse Bool) (production : List α → Parse (List α)) :
    Loop ParseError Parser (List α) (List α) where
  run := rounds goesOn production
  round acc := do
    if ← goesOn then pure (.inl (← production acc)) else pure (.inr acc)
  unroll bound acc := by
    simp only [rounds, bind_assoc]
    refine bind_congr fun b => ?_
    simp only [ite_bind, bind_assoc, pure_bind, Sum.elim_inl, Sum.elim_inr]

/-- **Every round of a collection takes a token** if what it adds does. -/
theorem alike_collectRound {goesOn : Parse Bool} {production production' : List α → Parse (List α)} {k : Nat}
    (hgoes : Alike (rooms deeper) k fresh (fun _ => fresh) goesOn goesOn)
    (h : ∀ acc, Alike (rooms deeper) k fresh (fun _ => moved) (production acc) (production' acc)) (acc : List α) :
    Alike (rooms deeper) k fresh (afterRound fun _ => fresh) ((collecting goesOn production).round acc)
      ((collecting goesOn production').round acc) :=
  alike_if hgoes ((h acc).bind fun _ => alike_pure trivial) (alike_pure trivial)

theorem alike_collect {goesOn : Parse Bool} {production production' : List α → Parse (List α)}
    (hgoes : ∀ k' < k, Alike (rooms deeper) k' fresh (fun _ => fresh) goesOn goesOn)
    (h : ∀ k' < k, ∀ acc, Alike (rooms deeper) k' fresh (fun _ => moved) (production acc) (production' acc)) :
    Alike (rooms deeper) k moved (fun _ => moved) (collect goesOn production) (collect goesOn production') :=
  alike_laterLoop (A := collecting goesOn production) (B := collecting goesOn production')
    (fun k' hk acc => alike_collectRound (hgoes k' hk) (h k' hk) acc) fun _ => alike_pure trivial

/-! ## 6. Names -/

theorem alike_identifierAhead :
    Alike (rooms deeper) k before (fun name => before.ifSeen name.isSome) identifierAhead identifierAhead := by
  refine alike_get (fun _ _ _ => rfl) fun p => ?_
  split
  · rename_i hcurrent
    rw [hcurrent]
    split <;> refine alike_pure ?_ <;> cases before <;> trivial
  · rename_i hcurrent
    rw [hcurrent]
    split <;> refine alike_pure ?_ <;> cases before <;> trivial
  · exact alike_pure (by cases before <;> trivial)

theorem alike_propertyNameAhead :
    Alike (rooms deeper) k before (fun name => before.ifSeen name.isSome) propertyNameAhead propertyNameAhead := by
  refine alike_get (fun _ _ _ => rfl) fun p => ?_
  split
  case h_5 => exact alike_pure (by cases before <;> trivial)
  all_goals
    rename_i hcurrent
    rw [hcurrent]
    exact alike_pure (below_refl _)

theorem alike_checkBinding (name : String) :
    Alike (rooms deeper) k before (fun _ => before) (checkBinding name) (checkBinding name) :=
  alike_read (fun _ _ _ => rfl) fun _ => alike_ite (fun _ => alike_fail _) fun _ => alike_pure (below_refl _)

theorem alike_identifier : Alike (rooms deeper) k before (fun _ => moved) identifier identifier := by
  refine alike_start.bind fun marker => alike_identifierAhead.bind fun name => ?_
  cases name with
  | none => exact alike_unexpected
  | some name => exact alike_takeSeen.bind fun _ => alike_finish _ _

theorem alike_bindingIdentifier :
    Alike (rooms deeper) k before (fun _ => moved) bindingIdentifier bindingIdentifier := by
  refine alike_identifier.bind fun id => ?_
  split
  · exact (alike_checkBinding _).bind fun _ => alike_pure trivial
  · exact alike_pure trivial

theorem alike_optionalLabel : Alike (rooms deeper) k moved (fun _ => moved) optionalLabel optionalLabel :=
  alike_read (fun _ _ _ => rfl) fun _ => alike_identifierAhead.bind fun _ =>
    alike_ite (fun _ => alike_identifier.bind fun _ => alike_pure trivial) fun _ => alike_pure trivial

theorem alike_literal (value : Json) :
    Alike (rooms deeper) k (before.ifSeen true) (fun _ => moved) (literal value) (literal value) :=
  alike_start.bind fun _ => alike_read (fun _ _ _ => rfl) fun _ => (alike_sourceSlice _ _).bind fun _ =>
    alike_takeSeen.bind fun _ => alike_finish _ _

/-! ## 7. Goals -/

/-- How far a production of a goal has come: only the operators after an operand may be missing. -/
def stageAfter : Goal → Stage
  | .binaryRest _ _ _ => fresh
  | _ => moved

/-- Where a goal is reached: its word is ahead of an expression that starts with `new`. -/
def stageBefore : Goal → Stage
  | .newExpression => ready
  | _ => fresh

/-- Whether the goals that are reached with less than a given amount left are alike. -/
def Reaches (deeper : Prop) (n : Nat) (r r' : Reach) : Prop :=
  ∀ k < n, ∀ goal, Alike (rooms deeper) k (stageBefore goal) (fun _ => stageAfter goal) (r goal) (r' goal)

variable {r r' : Reach} {n : Nat}

theorem Reaches.mono (h : Reaches deeper n r r') (hle : k ≤ n) : Reaches deeper k r r' :=
  fun k' hk => h k' (Nat.lt_of_lt_of_le hk hle)

/-- A goal that is reached after something has been taken. -/
theorem Reaches.goal {goal : Goal} (h : Reaches deeper k r r') (hgoal : stageBefore goal = fresh) :
    Alike (rooms deeper) k moved (fun _ => moved) (r goal) (r' goal) :=
  Alike.later fun k' hk => hgoal ▸ h k' hk goal

end GuestScript.Parser
