import GuestScript.Proofs.Count
import GuestScript.Proofs.Mirror.Basic
import GuestScript.Proofs.Object.Write

/-!
# Actions that follow each other

An action *follows* another one along an embedding if it does on a mirror what the other one does. That is a property
of the two trees, shown function by function without running anything.

* `Update.Follows` lists the changes that mirrors can share. An object that is closed can only be written to if it
  keeps holding names, and keeps its constants. It is known of every change of an object whether it asks the object.
* `Eval.Follows` goes through two trees in step. What the parts give is moved along the embedding, and satisfies what
  is said about it. `Eval.FollowsAs` is the same where it may be known that the current scope is not clear.
* `Eval.Tracks` is the case where the result is within reach.

The last section has what follows for actions that are put together in the usual ways.
-/

namespace GuestScript

/-! ## 1. What actions hand on -/

instance : Carried Stop where
  Within e
    | .thrown v => Within e v
    | _ => True
  image e
    | .thrown v => .thrown (image e v)
    | s => s

instance : Carried Request where
  Within e
    | .call function receiver args => Within e function ∧ Within e receiver ∧ Within e args
    | .construct function args => Within e function ∧ Within e args
    | .initParent parent receiver args => Within e parent ∧ Within e receiver ∧ Within e args
    | .evalText code scope receiver => Within e code ∧ Within e scope ∧ Within e receiver
  image e
    | .call function receiver args => .call (image e function) (image e receiver) (image e args)
    | .construct function args => .construct (image e function) (image e args)
    | .initParent parent receiver args => .initParent (image e parent) (image e receiver) (image e args)
    | .evalText code scope receiver => .evalText (image e code) (image e scope) (image e receiver)

instance : Carried Frame where
  Within e
    | .scope scope => Within e scope
    | .receiver scope receiver | .program scope receiver => Within e scope ∧ Within e receiver
    | .target target => Within e target
    | .joining id => Within e id
  image e
    | .scope scope => .scope (image e scope)
    | .receiver scope receiver => .receiver (image e scope) (image e receiver)
    | .program scope receiver => .program (image e scope) (image e receiver)
    | .target target => .target (image e target)
    | .joining id => .joining (image e id)

section

variable {σ α : Type}

/-- What is said about the result of a round. -/
def Flow.Satisfies (S : σ → Prop) (P : α → Prop) : Flow σ α → Prop
  | .proceed next => S next
  | .leave a => P a

/-- Move the result of a round. -/
def Flow.map (k : σ → σ) (g : α → α) : Flow σ α → Flow σ α
  | .proceed next => .proceed (k next)
  | .leave a => .leave (g a)

/-- What is said about a result, or about the value that was thrown in its place. -/
def settledSatisfies (e : Embedding) (P : α → Prop) : Except Value α → Prop
  | .ok a => P a
  | .error v => Within e v

/-- Move a result, or the value that was thrown in its place. -/
def settledMap (e : Embedding) (g : α → α) : Except Value α → Except Value α
  | .ok a => .ok (g a)
  | .error v => .error (image e v)

instance [Carried σ] [Carried α] : Carried (Flow σ α) where
  Within e := Flow.Satisfies (Within e) (Within e)
  image e := Flow.map (image e) (image e)

instance [Carried α] : Carried (Except Value α) where
  Within e := settledSatisfies e (Within e)
  image e := settledMap e (image e)

end

/-! ## 2. Changes -/

/-- Changes that do the same on mirrors, with what is said about their results and how these are moved. -/
inductive Update.Follows (e : Embedding) :
    {α : Type} → (α → Prop) → (α → α) → Update α → Update α → Prop where
  | allocate {o : Object} (ho : Within e o) :
      Follows e e.Open e.object (.allocate o) (.allocate (image e o))
  | object {α : Type} {P : α → Prop} {g : α → α} {id : ObjectId} {f f' : Object → Object × α} (hid : e.Open id)
      (hw : Object.Written f)
      (hf : ∀ o, Within e o →
        Within e (f o).1 ∧ P (f o).2 ∧ f' (image e o) = (image e (f o).1, g (f o).2)) :
      Follows e P g (.object id f) (.object (e.object id) f')
  | link {o : ObjectId} (ho : e.Open o) {prototype : Option ObjectId} (hprototype : Within e prototype) :
      Follows e (fun _ => True) id (.link o prototype) (.link (e.object o) (image e prototype))
  | closedObject {α : Type} {P : α → Prop} {g : α → α} {id : ObjectId} {f f' : Object → Object × α}
      (hid : e.Closed id) (hw : Object.Written f)
      (hf : ∀ o, Within e o →
        Within e (f o).1 ∧ P (f o).2 ∧ f' (image e o) = (image e (f o).1, g (f o).2))
      (hnames : ∀ o : Object, o.HoldsNames →
        (f o).1.HoldsNames ∧
          ∀ name, e.Constant id name → (f o).1.own? (.string name) = o.own? (.string name)) :
      Follows e P g (.object id f) (.object (e.object id) f')
  | names {scope : ScopeId} {f f' : Object → Object} (hscope : e.Solid scope)
      (hf : ∀ o, Within e o → Within e (f o) ∧ f' (image e o) = image e (f o)) (hdeclares : Object.Declares f) :
      Follows e (fun _ => True) id (.names scope f) (.names (e.scope scope) f')
  | newScope {s : Scope} (hkind : s.kind.ownsNames = false) (hs : Within e s) :
      Follows e e.Solid e.scope (.newScope s) (.newScope (image e s))
  | newFrame {kind : ScopeKind} {parent : Option ScopeId} {lexical : List (String × LexicalRecord)}
      {held : Array (Key × Property)} (hkind : kind.ownsNames = true) (hparent : Within e parent)
      (hheld : Within e held) (hnames : ∀ entry ∈ held, entry.2.isAccessor = false) :
      Follows e e.Solid e.scope (.newFrame kind parent lexical held)
        (.newFrame kind (image e parent) lexical (image e held))
  | unlock {scope : ScopeId} (hscope : e.Solid scope) (name : String) :
      Follows e (fun _ => True) id (.unlock scope name) (.unlock (e.scope scope) name)
  | newSymbol (description : Option String) :
      Follows e (Within e) (image e) (.newSymbol description) (.newSymbol description)
  | global (name : String) {v : Value} (hv : Within e v) :
      Follows e (fun _ => True) id (.global name v) (.global name (image e v))
  | position (p : Position) : Follows e (fun _ => True) id (.position p) (.position p)
  | result {v : Value} (hv : Within e v) :
      Follows e (fun _ => True) id (.result v) (.result (image e v))

/-! ## 3. Actions -/

/-- Whether a round goes on. -/
def Flow.Proceeds {σ α : Type} : Flow σ α → Prop
  | .proceed _ => True
  | .leave _ => False

/-- Whether names can be bound in the current scope itself inside a frame, if that is so outside it or not. -/
def Frame.Solid (e : Embedding) (here : Bool) : Frame → Prop
  | .scope id | .receiver id _ | .program id _ => e.Solid id
  | .target _ | .joining _ => here = true

/-- Actions that do the same on mirrors, with what is said about their results and how these are moved. The flag says
whether it is known that names can be bound in the current scope itself. -/
inductive Eval.FollowsAs (e : Embedding) :
    Bool → {α : Type} → (α → Prop) → (α → α) → Eval α → Eval α → Prop where
  | done {here : Bool} {α : Type} {P : α → Prop} {g : α → α} {a : α} (ha : P a) :
      FollowsAs e here P g (.done a) (.done (g a))
  | andThen {here : Bool} {α β : Type} {P : α → Prop} {g : α → α} {Q : β → Prop} {h : β → β} {x x' : Eval α}
      {f f' : α → Eval β} (hx : FollowsAs e here P g x x') (hf : ∀ a, P a → FollowsAs e here Q h (f a) (f' (g a))) :
      FollowsAs e here Q h (.andThen x f) (.andThen x' f')
  | stop {here : Bool} {α : Type} {P : α → Prop} {g : α → α} {s : Stop} (hs : Within e s) :
      FollowsAs e here P g (.stop s) (.stop (image e s))
  | read {here : Bool} {α : Type} {P : α → Prop} {g : α → α} {f f' : State → α}
      (hf : ∀ s s', e.Mirrors s s' → P (f s) ∧ f' s' = g (f s)) :
      FollowsAs e here P g (.read f) (.read f')
  | current : FollowsAs e true e.Solid e.scope (.read fun s => s.scope) (.read fun s => s.scope)
  | update {here : Bool} {α : Type} {P : α → Prop} {g : α → α} {u u' : Update α} (hu : u.Follows e P g u') :
      FollowsAs e here P g (.update u) (.update u')
  | charge {here : Bool} : FollowsAs e here (fun _ => True) id .charge .charge
  | counted {here : Bool} : FollowsAs e here (fun _ => True) id .counted .counted
  | clock {here : Bool} : FollowsAs e here (fun _ => True) id .clock .clock
  | settle {here : Bool} {α : Type} {P : α → Prop} {g : α → α} {x x' : Eval α} (hx : FollowsAs e here P g x x') :
      FollowsAs e here (settledSatisfies e P) (settledMap e g) (.settle x) (.settle x')
  | within {here inner : Bool} {α : Type} {P : α → Prop} {g : α → α} {frame : Frame} {x x' : Eval α}
      (hframe : Within e frame) (hinner : inner = true → frame.Solid e here) (hx : FollowsAs e inner P g x x') :
      FollowsAs e here P g (.within frame x) (.within (image e frame) x')
  | nest {here : Bool} {α : Type} {P : α → Prop} {g : α → α} {name : String} {x x' refused refused' : Eval α}
      (hx : FollowsAs e here P g x x') (hr : FollowsAs e here P g refused refused') :
      FollowsAs e here P g (.nest name x refused) (.nest name x' refused')
  | loop {here : Bool} {σ α : Type} {S : σ → Prop} {k : σ → σ} {P : α → Prop} {g : α → α}
      {round round' : σ → Eval (Flow σ α)} {start : σ}
      (hround : ∀ s, S s → FollowsAs e here (Flow.Satisfies S P) (Flow.map k g) (round s) (round' (k s)))
      (hcounts : ∀ s, S s → (round s).Counts Flow.Proceeds) (hstart : S start) :
      FollowsAs e here P g (.loop round start) (.loop round' (k start))
  | ask {here : Bool} {request : Request} (hr : Within e request) :
      FollowsAs e here (Within e) (image e) (.ask request) (.ask (image e request))
  /-- What follows in any scope follows in one where names can be bound. -/
  | anywhere {α : Type} {P : α → Prop} {g : α → α} {x x' : Eval α} (hx : FollowsAs e false P g x x') :
      FollowsAs e true P g x x'

/-- Actions that do the same on mirrors, whatever the current scope is. -/
abbrev Eval.Follows (e : Embedding) {α : Type} (P : α → Prop) (g : α → α) (x x' : Eval α) : Prop :=
  x.FollowsAs e false P g x'

/-- Whether an action does on mirrors what another one does, with a result within reach. -/
abbrev Eval.Tracks {α : Type} [Carried α] (e : Embedding) (x x' : Eval α) : Prop :=
  x.Follows e (Within e) (image e) x'

/-- The same where it may be known that names can be bound in the current scope itself. -/
abbrev Eval.TracksAs {α : Type} [Carried α] (e : Embedding) (here : Bool) (x x' : Eval α) : Prop :=
  x.FollowsAs e here (Within e) (image e) x'

/-! ## 4. Putting actions together -/

namespace Eval

variable {α β : Type} {e : Embedding} {here : Bool} {P : α → Prop} {g : α → α} {Q : β → Prop} {h : β → β}
  {x x' : Eval α}

theorem Follows.as (hx : x.Follows e P g x') : x.FollowsAs e here P g x' := by
  cases here with
  | false => exact hx
  | true => exact .anywhere hx

theorem FollowsAs.bind {f f' : α → Eval β} (hx : x.FollowsAs e here P g x')
    (hf : ∀ a, P a → (f a).FollowsAs e here Q h (f' (g a))) : (x >>= f).FollowsAs e here Q h (x' >>= f') :=
  .andThen hx hf

theorem Follows.bind {f f' : α → Eval β} (hx : x.Follows e P g x')
    (hf : ∀ a, P a → (f a).FollowsAs e here Q h (f' (g a))) : (x >>= f).FollowsAs e here Q h (x' >>= f') :=
  hx.as.bind hf

theorem follows_pure {a a' : α} (ha : P a) (heq : a' = g a) : (pure a : Eval α).FollowsAs e here P g (pure a') := by
  rw [heq]
  exact .done ha

theorem Follows.map {f f' : α → β} (hx : x.Follows e P g x') (hf : ∀ a, P a → Q (f a) ∧ f' (g a) = h (f a)) :
    (f <$> x).Follows e Q h (f' <$> x') :=
  hx.bind fun a ha => follows_pure (hf a ha).1 (hf a ha).2

theorem Follows.discard {x x' : Eval α} (hx : x.Follows e P g x') :
    (discard x).Tracks e (discard x') :=
  hx.map fun _ _ => ⟨trivial, rfl⟩

/-- A choice that both actions make in the same way. -/
theorem Follows.ite {c c' : Prop} [Decidable c] [Decidable c'] {y y' : Eval α} (hc : c' ↔ c)
    (hx : c → x.FollowsAs e here P g x') (hy : ¬ c → y.FollowsAs e here P g y') :
    (if c then x else y).FollowsAs e here P g (if c' then x' else y') := by
  by_cases h : c
  · rw [if_pos h, if_pos (hc.mpr h)]
    exact hx h
  · rw [if_neg h, if_neg fun h' => h (hc.mp h')]
    exact hy h

theorem tracks_pure [Carried α] {a : α} (ha : Within e a) : (pure a : Eval α).Tracks e (pure (image e a)) :=
  .done ha

theorem tracks_loop {σ : Type} [Carried σ] [Carried α] {round round' : σ → Eval (Flow σ α)} {start start' : σ}
    (hstart : Within e start) (heq : start' = image e start)
    (hround : ∀ s, Within e s → (round s).Tracks e (round' (image e s)))
    (hcounts : ∀ s, Within e s → (round s).Counts Flow.Proceeds) :
    (loop round start : Eval α).Tracks e (loop round' start') := by
  rw [heq]
  exact .loop hround hcounts hstart

section Lists

variable {ι : Type} {f f' : ι → Eval β} {l : List ι}

/-- The same for every entry of a list, which is moved by any map. -/
theorem Follows.forM.{u} {ι : Type u} {f f' : ι → Eval PUnit} (k : ι → ι) : ∀ {l : List ι},
    (∀ a ∈ l, (f a).Tracks e (f' (k a))) → (l.forM f).Tracks e ((l.map k).forM f')
  | [], _ => .done trivial
  | a :: _, hl =>
    (hl a List.mem_cons_self).bind fun _ _ => Follows.forM k fun b hb => hl b (List.mem_cons_of_mem a hb)

theorem tracks_forM [Carried ι] {f f' : ι → Eval PUnit} (hl : Within e l)
    (hf : ∀ a, Within e a → (f a).Tracks e (f' (image e a))) : (l.forM f).Tracks e ((image e l).forM f') :=
  Follows.forM (image e) fun a ha => hf a (hl a ha)

/-- A list that is not moved. -/
theorem tracks_forM_same.{u} {ι : Type u} {f f' : ι → Eval PUnit} {l : List ι} (hf : ∀ a ∈ l, (f a).Tracks e (f' a)) :
    (l.forM f).Tracks e (l.forM f') := by
  have htracks : (l.forM f).Tracks e ((l.map id).forM f') := Follows.forM id hf
  rwa [List.map_id] at htracks

theorem Follows.foldlM [Carried β] {f f' : β → ι → Eval β} (k : ι → ι) : ∀ {l : List ι} {b : β},
    (∀ a ∈ l, ∀ b, Within e b → (f b a).Tracks e (f' (image e b) (k a))) → Within e b →
      (l.foldlM f b).Tracks e ((l.map k).foldlM f' (image e b))
  | [], _, _, hb => .done hb
  | a :: _, b, hl, hb =>
    (hl a List.mem_cons_self b hb).bind fun _ hc =>
      Follows.foldlM k (fun d hd => hl d (List.mem_cons_of_mem a hd)) hc

theorem tracks_foldlM [Carried ι] [Carried β] {f f' : β → ι → Eval β} {b b' : β} (hl : Within e l) (hb : Within e b)
    (heq : b' = image e b) (hf : ∀ b a, Within e b → Within e a → (f b a).Tracks e (f' (image e b) (image e a))) :
    (l.foldlM f b).Tracks e ((image e l).foldlM f' b') := by
  rw [heq]
  exact Follows.foldlM (image e) (fun a ha b hb => hf b a hb (hl a ha)) hb

theorem Follows.mapM_loop [Carried β] (k : ι → ι) : ∀ {l : List ι} (acc : List β),
    (∀ a ∈ l, (f a).Tracks e (f' (k a))) → Within e acc →
      (List.mapM.loop f l acc).Tracks e (List.mapM.loop f' (l.map k) (image e acc))
  | [], _, _, hacc => follows_pure (fun b hb => hacc b (List.mem_reverse.mp hb)) List.map_reverse.symm
  | a :: _, acc, hl, hacc =>
    (hl a List.mem_cons_self).bind fun b hb =>
      Follows.mapM_loop k (b :: acc) (fun d hd => hl d (List.mem_cons_of_mem a hd))
        (List.forall_mem_cons.mpr ⟨hb, hacc⟩)

theorem Follows.mapM [Carried β] (k : ι → ι) (hf : ∀ a ∈ l, (f a).Tracks e (f' (k a))) :
    (l.mapM f).Tracks e ((l.map k).mapM f') :=
  Follows.mapM_loop k [] hf nofun

theorem tracks_mapM [Carried ι] [Carried β] (hl : Within e l) (hf : ∀ a, Within e a → (f a).Tracks e (f' (image e a))) :
    (l.mapM f).Tracks e ((image e l).mapM f') :=
  Follows.mapM (image e) fun a ha => hf a (hl a ha)

theorem tracks_mapM_same [Carried β] (hf : ∀ a ∈ l, (f a).Tracks e (f' a)) : (l.mapM f).Tracks e (l.mapM f') := by
  have htracks : (l.mapM f).Tracks e ((l.map id).mapM f') := Follows.mapM id hf
  rwa [List.map_id] at htracks

end Lists

end Eval

end GuestScript
