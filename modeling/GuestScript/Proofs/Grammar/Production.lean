import GuestScript.Proofs.Grammar.Place

/-!
# What productions give

A production is run at a depth, which is the same again after it. `Parser.Gives` says so together with what holds of
the results. Looking at tokens changes nothing, and reading them does not change the depth (`Parser.Keeps`); the one
production that does takes the change back (`Parser.gives_nested`): inside it, the depth is still one that fits.
-/

namespace GuestScript.Parser

variable (message : String) (position : Option Position)

/-! ## 1. Results of productions -/

/-- Whether a production leaves something of the parser as it is. -/
def Keeps {γ α : Type} (view : Parser → γ) (x : Parse α) : Prop :=
  ∀ p a p', x p = .ok a p' → view p' = view p

/-- Whether a production that is started at a depth ends at the same one, and everything that it gives has a
property. -/
def Gives {α : Type} (depth : Nat) (x : Parse α) (P : α → Prop) : Prop :=
  ∀ p a p', p.depth = depth → x p = .ok a p' → p'.depth = depth ∧ P a

variable {α β γ : Type} {view : Parser → γ} {depth : Nat} {P : α → Prop} {Q : β → Prop} {x y : Parse α} {f : α → Parse β}

/-- A result of two productions one after the other is a result of the second one. -/
theorem bind_ok {p p' : Parser} {b : β} (h : (x >>= f) p = .ok b p') : ∃ a p₁, x p = .ok a p₁ ∧ f a p₁ = .ok b p' := by
  simp only [bind, EStateM.bind] at h
  cases hr : x p with
  | ok a p₁ =>
    rw [hr] at h
    exact ⟨a, p₁, rfl, h⟩
  | error e p₁ =>
    rw [hr] at h
    cases h

theorem gives_pure {a : α} (ha : P a) : Gives depth (pure a) P := by
  intro p b p' hp h
  cases h
  exact ⟨hp, ha⟩

theorem Gives.bind (hx : Gives depth x P) (hf : ∀ a, P a → Gives depth (f a) Q) : Gives depth (x >>= f) Q := by
  intro p b p' hp h
  obtain ⟨a, p₁, ha, hb⟩ := bind_ok h
  obtain ⟨hp₁, hPa⟩ := hx p a p₁ hp ha
  exact hf a hPa p₁ b p' hp₁ hb

theorem Gives.mono {P' : α → Prop} (hx : Gives depth x P) (h : ∀ a, P a → P' a) : Gives depth x P' := by
  intro p a p' hp hr
  obtain ⟨hp', ha⟩ := hx p a p' hp hr
  exact ⟨hp', h a ha⟩

theorem Gives.map {f : α → β} (hx : Gives depth x P) (h : ∀ a, P a → Q (f a)) : Gives depth (f <$> x) Q :=
  hx.bind fun a ha => gives_pure (h a ha)

theorem gives_throw (e : ParseError) : Gives depth (throw e) P := by
  intro p a p' _ h
  cases h

theorem gives_ite {c : Prop} [Decidable c] (hx : c → Gives depth x P) (hy : ¬ c → Gives depth y P) :
    Gives depth (if c then x else y) P := by
  split
  · exact hx ‹_›
  · exact hy ‹_›

/-- A change that leaves the depth as it is. -/
theorem gives_modify {f : Parser → Parser} (hf : ∀ p, (f p).depth = p.depth) :
    Gives depth (modify f : Parse Unit) fun _ => True := by
  intro p a p' hp h
  cases h
  exact ⟨(hf p).trans hp, trivial⟩

/-! ### Productions that leave the depth as it is -/

theorem Keeps.gives (h : Keeps Parser.depth x) : Gives depth x fun _ => True :=
  fun p a p' hp hr => ⟨(h p a p' hr).trans hp, trivial⟩

/-- Nothing is said about the result of the first production. -/
theorem Keeps.then (hx : Keeps Parser.depth x) (hf : ∀ a, Gives depth (f a) Q) : Gives depth (x >>= f) Q :=
  hx.gives.bind fun a _ => hf a

theorem keeps_pure (a : α) : Keeps view (pure a) := by
  intro p b p' h
  cases h
  rfl

theorem Keeps.bind (hx : Keeps view x) (hf : ∀ a, Keeps view (f a)) : Keeps view (x >>= f) := by
  intro p b p' h
  obtain ⟨a, p₁, ha, hb⟩ := bind_ok h
  exact (hf a p₁ b p' hb).trans (hx p a p₁ ha)

theorem keeps_throw (e : ParseError) : Keeps view (throw e : Parse α) := by
  intro p a p' h
  cases h

theorem keeps_ite {c : Prop} [Decidable c] (hx : Keeps view x) (hy : Keeps view y) : Keeps view (if c then x else y) := by
  split
  · exact hx
  · exact hy

theorem keeps_get : Keeps view (get : Parse Parser) := by
  intro p a p' h
  cases h
  rfl

theorem keeps_modify {f : Parser → Parser} (hf : ∀ p, view (f p) = view p) : Keeps view (modify f : Parse Unit) := by
  intro p a p' h
  cases h
  exact hf p

/-! ## 2. Tokens -/

theorem keeps_lex (reader : Lex Token) : Keeps Parser.depth (lex reader) := by
  intro p t p' h
  unfold lex at h
  split at h
  · cases h
    rfl
  · cases h

theorem keeps_nextToken : ∀ (fuel : Nat) (broken : Bool), Keeps Parser.depth (nextToken fuel broken)
  | 0, _ => keeps_pure _
  | fuel + 1, _ => (keeps_lex _).bind fun _ => keeps_ite (keeps_nextToken fuel true) (keeps_pure _)

theorem keeps_advance : Keeps Parser.depth advance := by
  refine keeps_get.bind fun p => (keeps_nextToken _ _).bind fun next => ?_
  intro p t p' h
  cases h
  rfl

theorem keeps_rescan (token : Token) : Keeps Parser.depth (rescan token) :=
  keeps_modify fun _ => rfl

theorem keeps_ahead : Keeps view ahead :=
  keeps_get.bind fun _ => keeps_pure _

theorem keeps_at (mark : Punctuator) : Keeps view (at? mark) :=
  keeps_get.bind fun _ => keeps_pure _

theorem keeps_atWord (word : Keyword) : Keeps view (atWord? word) :=
  keeps_get.bind fun _ => keeps_pure _

theorem keeps_identifierAhead : Keeps view identifierAhead := by
  refine keeps_get.bind fun p => ?_
  split <;> exact keeps_pure _

theorem keeps_propertyNameAhead : Keeps view propertyNameAhead := by
  refine keeps_get.bind fun p => ?_
  split <;> exact keeps_pure _

theorem keeps_map {f : α → β} (h : Keeps view x) : Keeps view (f <$> x) :=
  h.bind fun a => keeps_pure (f a)

theorem keeps_discard (h : Keeps view x) : Keeps view (discard x) :=
  h.bind fun _ => keeps_pure ()

/-! ## 3. Failing -/

theorem gives_failAt : Gives depth (failAt message position) P :=
  gives_throw _

theorem keeps_failAt : Keeps view (failAt message position : Parse α) :=
  keeps_throw _

theorem gives_fail : Gives depth (fail message) P :=
  keeps_get.then fun _ => gives_failAt _ _

theorem keeps_fail : Keeps view (fail message : Parse α) :=
  keeps_get.bind fun _ => keeps_failAt _ _

theorem gives_unexpected : Gives depth unexpected P := by
  refine keeps_get.then fun p => ?_
  split
  · exact gives_fail _
  · exact gives_fail _

theorem keeps_unexpected : Keeps view (unexpected : Parse α) := by
  refine keeps_get.bind fun p => ?_
  split
  · exact keeps_fail _
  · exact keeps_fail _

theorem gives_unsupported (what : String) : Gives depth (unsupported what) P :=
  gives_fail _

theorem keeps_requireModern (what : String) : Keeps view (requireModern what) :=
  keeps_get.bind fun _ => keeps_ite (keeps_pure _) (keeps_fail _)

theorem keeps_eat (mark : Punctuator) : Keeps Parser.depth (eat mark) :=
  (keeps_at mark).bind fun _ => keeps_ite (keeps_discard keeps_advance) keeps_unexpected

theorem keeps_eatWord (word : Keyword) : Keeps Parser.depth (eatWord word) :=
  (keeps_atWord word).bind fun _ => keeps_ite (keeps_discard keeps_advance) keeps_unexpected

theorem keeps_eatIf (mark : Punctuator) : Keeps Parser.depth (eatIf mark) :=
  (keeps_at mark).bind fun _ => keeps_ite ((keeps_discard keeps_advance).bind fun _ => keeps_pure _) (keeps_pure _)

theorem keeps_eatIfWord (word : Keyword) : Keeps Parser.depth (eatIfWord word) :=
  (keeps_atWord word).bind fun _ => keeps_ite ((keeps_discard keeps_advance).bind fun _ => keeps_pure _) (keeps_pure _)

theorem keeps_eatSemicolon : Keeps Parser.depth eatSemicolon :=
  (keeps_eatIf _).bind fun _ => keeps_ite (keeps_pure _) <| keeps_get.bind fun _ =>
    keeps_ite (keeps_pure _) keeps_unexpected

/-! ## 4. Nodes and context -/

theorem keeps_start : Keeps view start :=
  keeps_get.bind fun _ => keeps_pure _

theorem keeps_finish (marker : Marker) (kind : Kind) : Keeps view (finish marker kind) :=
  keeps_get.bind fun _ => keeps_pure _

/-- A node that is closed has the kind that it is closed with. -/
theorem gives_finish {P : Node → Prop} (marker : Marker) {kind : Kind} (h : ∀ span, P (.mk kind span)) :
    Gives depth (finish marker kind) P :=
  keeps_get.then fun _ => gives_pure (h _)

theorem keeps_sourceSlice (start stop : Nat) : Keeps view (sourceSlice start stop) :=
  keeps_get.bind fun _ => keeps_pure _

/-- **One level deeper, the depth is still one that fits.** -/
theorem gives_nested (h : depth < maxNesting → Gives (depth + 1) x P) : Gives depth (nested x) P := by
  intro p a p' hp hr
  unfold nested at hr
  obtain ⟨q, q', hget, hr⟩ := bind_ok hr
  cases hget
  split at hr
  · exact (gives_fail _ p a p' hp hr)
  · rename_i hdepth
    obtain ⟨_, p₁, hmodify, hr⟩ := bind_ok hr
    cases hmodify
    obtain ⟨a', p₂, hx, hr⟩ := bind_ok hr
    obtain ⟨_, p₃, hmodify, hr⟩ := bind_ok hr
    cases hmodify
    cases hr
    rw [hp] at hdepth
    obtain ⟨hp₂, ha⟩ := h (Nat.lt_of_not_le hdepth) _ _ _ (congrArg (· + 1) hp) hx
    exact ⟨by simp [hp₂], ha⟩

/-- What a production changes around another one is not the depth. -/
theorem Gives.between {f g : Parser → Parser} (h : Gives depth x P) (hf : ∀ p, (f p).depth = p.depth)
    (hg : ∀ p, (g p).depth = p.depth) :
    Gives depth (do modify f; let result ← x; modify g; pure result) P :=
  (gives_modify hf).bind fun _ _ => h.bind fun _ ha => (gives_modify hg).bind fun _ _ => gives_pure ha

theorem gives_withIn (h : Gives depth x P) : Gives depth (withIn x) P := by
  refine keeps_get.then fun p => h.between ?_ ?_
  · exact fun _ => rfl
  · exact fun _ => rfl

theorem gives_inFunction (h : Gives depth x P) : Gives depth (inFunction x) P := by
  refine keeps_get.then fun p => h.between ?_ ?_
  · exact fun _ => rfl
  · exact fun _ => rfl

/-- What every round keeps of the list holds of what is collected. -/
theorem gives_rounds {I : List α → Prop} {goesOn : Parse Bool} {production : List α → Parse (List α)}
    (hgoes : Keeps Parser.depth goesOn) (h : ∀ acc, I acc → Gives depth (production acc) I) :
    ∀ (fuel : Nat) (acc : List α), I acc → Gives depth (rounds goesOn production fuel acc) I
  | 0, _, hacc => gives_pure hacc
  | fuel + 1, acc, hacc => hgoes.then fun _ => gives_ite
    (fun _ => (h acc hacc).bind fun acc' hacc' => gives_rounds hgoes h fuel acc' hacc') fun _ => gives_pure hacc

/-! ## 5. Names -/

theorem keeps_checkBinding (name : String) : Keeps view (checkBinding name) :=
  keeps_get.bind fun _ => keeps_ite (keeps_fail _) (keeps_pure _)

/-- An identifier is one. -/
theorem gives_identifier : Gives depth identifier fun n => ∃ name, n.kind = .identifier name := by
  refine keeps_start.then fun marker => keeps_identifierAhead.then fun name => ?_
  cases name with
  | none => exact gives_unexpected
  | some name => exact (keeps_discard keeps_advance).then fun _ => gives_finish marker fun _ => ⟨name, rfl⟩

theorem gives_bindingIdentifier : Gives depth bindingIdentifier fun n => ∃ name, n.kind = .identifier name := by
  refine gives_identifier.bind fun n hn => ?_
  split
  · exact (keeps_checkBinding _).then fun _ => gives_pure hn
  · exact gives_pure hn

theorem keeps_identifier : Keeps Parser.depth identifier := by
  refine keeps_start.bind fun marker => keeps_identifierAhead.bind fun name => ?_
  cases name with
  | none => exact keeps_unexpected
  | some name => exact (keeps_discard keeps_advance).bind fun _ => keeps_finish _ _

theorem keeps_bindingIdentifier : Keeps Parser.depth bindingIdentifier := by
  refine keeps_identifier.bind fun n => ?_
  split
  · exact (keeps_checkBinding _).bind fun _ => keeps_pure _
  · exact keeps_pure _

theorem keeps_optionalLabel : Keeps Parser.depth optionalLabel :=
  keeps_get.bind fun _ => keeps_identifierAhead.bind fun _ =>
    keeps_ite (keeps_map keeps_identifier) (keeps_pure _)

/-- A literal is one. -/
theorem gives_literal (value : Json) : Gives depth (literal value) fun n => ∃ raw, n.kind = .literal value raw none :=
  keeps_start.then fun marker => keeps_get.then fun _ => (keeps_sourceSlice _ _).then fun raw =>
    (keeps_discard keeps_advance).then fun _ => gives_finish marker fun _ => ⟨some raw, rfl⟩

end GuestScript.Parser
