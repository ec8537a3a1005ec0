import GuestScript.Proofs.Json.Parts
import GuestScript.Tree.Document

/-!
# Trees and documents

A tree that is written as a document and read back is the same tree. Reader and writer agree field by field: what
the writer leaves out is what the reader fills in, null stands for a part that is missing, and a spelling is read as
the operator that it was written for.
-/

namespace GuestScript

variable {j : Json} {r : FieldReader} {l : List Node}

/-! ## 1. Spellings -/

theorem BinaryOperator.ofText_text (operator : BinaryOperator) : .ofText operator.text = operator := by
  cases operator with
  | other word => exact dif_neg word.unknown
  | _ => rfl

theorem LogicalOperator.ofText_text (operator : LogicalOperator) : .ofText operator.text = operator := by
  cases operator with
  | other word => exact dif_neg word.unknown
  | _ => rfl

theorem UnaryOperator.ofText_text (operator : UnaryOperator) : .ofText operator.text = operator := by
  cases operator with
  | other word => exact dif_neg word.unknown
  | _ => rfl

theorem UpdateOperator.ofText_text (operator : UpdateOperator) : .ofText operator.text = operator := by
  cases operator with
  | other word => exact dif_neg word.unknown
  | _ => rfl

theorem AssignmentOperator.ofText_text (operator : AssignmentOperator) : .ofText operator.text = operator := by
  cases operator with
  | other word => exact dif_neg word.unknown
  | _ => rfl

theorem BinaryOperator.ofJson?_text (operator : BinaryOperator) :
    BinaryOperator.ofJson? (.string operator.text) = some operator :=
  congrArg some operator.ofText_text

theorem LogicalOperator.ofJson?_text (operator : LogicalOperator) :
    LogicalOperator.ofJson? (.string operator.text) = some operator :=
  congrArg some operator.ofText_text

theorem UnaryOperator.ofJson?_text (operator : UnaryOperator) :
    UnaryOperator.ofJson? (.string operator.text) = some operator :=
  congrArg some operator.ofText_text

theorem UpdateOperator.ofJson?_text (operator : UpdateOperator) :
    UpdateOperator.ofJson? (.string operator.text) = some operator :=
  congrArg some operator.ofText_text

theorem AssignmentOperator.ofJson?_text (operator : AssignmentOperator) :
    AssignmentOperator.ofJson? (.string operator.text) = some operator :=
  congrArg some operator.ofText_text

theorem VariableKind.ofJson?_text (kind : VariableKind) : VariableKind.ofJson? (.string kind.text) = some kind := by
  cases kind <;> rfl

theorem PropertyKind.ofJson?_text (kind : PropertyKind) : PropertyKind.ofJson? (.string kind.text) = some kind := by
  cases kind <;> rfl

theorem MethodKind.ofJson?_text (kind : MethodKind) : MethodKind.ofJson? (.string kind.text) = some kind := by
  cases kind <;> rfl

/-! ## 2. Places -/

theorem readWord32?_toNat (n : UInt32) : readWord32? (.number (.natural n.toNat)) = some n := by
  simp [readWord32?, n.toNat_lt_size]

theorem Position.ofJson?_toJson (p : Position) : Position.ofJson? p.toJson = some p := by
  simp [Position.ofJson?, Position.toJson, Fields.ofStructure, Fields.required, List.lookup_cons,
    readWord32?_toNat]

/-- The names of the fields that every node has. -/
def nodeNames : List String :=
  ["type", "start", "end", "loc"]

/-- Whether the names of the own fields of a node differ from each other and from those that every node has. -/
def ownNames : List String → Bool
  | [] => true
  | name :: rest => !nodeNames.contains name && !rest.contains name && ownNames rest

variable {fields : List (String × Json)} {name : String}

/-- A field that every node has is not among the own fields. -/
theorem lookup_eq_none_of_own (hown : ownNames (fields.map Prod.fst)) (h : name ∈ nodeNames) :
    fields.lookup name = none := by
  induction fields with
  | nil => rfl
  | cons e rest ih =>
    simp only [List.map_cons, ownNames, Bool.and_eq_true, Bool.not_eq_true', List.contains_eq_mem,
      decide_eq_false_iff_not] at hown
    have hne : (name == e.1) = false := beq_eq_false_iff_ne.2 fun heq => hown.1.1 (heq ▸ h)
    rw [List.lookup_cons, hne]
    exact ih hown.2

/-- An own field is found by its name, which no field that every node has bears. -/
theorem lookup_eq_some_of_own (hown : ownNames (fields.map Prod.fst)) (h : (name, j) ∈ fields) :
    name ∉ nodeNames ∧ fields.lookup name = some j := by
  induction fields with
  | nil => cases h
  | cons e rest ih =>
    simp only [List.map_cons, ownNames, Bool.and_eq_true, Bool.not_eq_true', List.contains_eq_mem,
      decide_eq_false_iff_not] at hown
    obtain ⟨⟨hfirst, hrest⟩, hown⟩ := hown
    cases h with
    | head => exact ⟨hfirst, List.lookup_cons_self⟩
    | tail _ h =>
      have hne : (name == e.1) = false :=
        beq_eq_false_iff_ne.2 fun heq => hrest (heq ▸ List.mem_map_of_mem h)
      rw [List.lookup_cons, hne]
      exact ih hown h

/-- The places of a written node are read back, whatever fields of its own stand before them. -/
theorem Span.ofJson?_object (span : Span) (h : ownNames (fields.map Prod.fst)) (name : Json) :
    Span.ofJson? (.object (("type", name) :: fields ++ span.toFields)) = some span := by
  obtain ⟨start, stop, loc⟩ := span
  have hstart : fields.lookup "start" = none := lookup_eq_none_of_own h (by simp [nodeNames])
  have hstop : fields.lookup "end" = none := lookup_eq_none_of_own h (by simp [nodeNames])
  have hloc : fields.lookup "loc" = none := lookup_eq_none_of_own h (by simp [nodeNames])
  cases loc with
  | none =>
    simp [Span.ofJson?, Span.toFields, Json.member?, List.lookup_append, List.lookup_cons, *, Json.natural?]
  | some ends =>
    simp [Span.ofJson?, Span.toFields, Json.member?, List.lookup_append, List.lookup_cons, *,
      Json.natural?, Json.orNull?, readLoc?, Fields.ofStructure, Fields.required, Position.ofJson?_toJson]

/-! ## 3. The parts of a node -/

/-- The nodes that stand directly in a kind of node. -/
def Kind.children : Kind → List Node
  | .program body | .blockStatement body | .classBody body => body
  | .arrayExpression elements | .arrayPattern elements => elements.filterMap id
  | .objectExpression properties | .objectPattern properties => properties
  | .expressionStatement e _ | .throwStatement e | .chainExpression e | .spreadElement e | .restElement e
  | .unaryExpression _ _ e | .updateExpression _ _ e => [e]
  | .returnStatement e | .breakStatement e | .continueStatement e => e.toList
  | .withStatement a b | .labeledStatement a b | .whileStatement a b | .doWhileStatement a b
  | .property a b _ _ _ _ | .binaryExpression _ a b | .assignmentExpression _ a b | .logicalExpression _ a b
  | .memberExpression a b _ _ | .taggedTemplateExpression a b | .methodDefinition a b _ _ _
  | .assignmentPattern a b => [a, b]
  | .forInStatement a b c | .conditionalExpression a b c => [a, b, c]
  | .ifStatement test consequent alternate => test :: consequent :: alternate.toList
  | .switchStatement discriminant cases => discriminant :: cases
  | .switchCase test consequent => test.toList ++ consequent
  | .tryStatement block handler finalizer => block :: handler.toList ++ finalizer.toList
  | .catchClause param body => param.toList ++ [body]
  | .forStatement init test update body => init.toList ++ test.toList ++ update.toList ++ [body]
  | .function _ id params body _ => id.toList ++ params ++ [body]
  | .variableDeclaration declarations _ => declarations
  | .variableDeclarator id init => id :: init.toList
  | .classLike _ id superClass body => id.toList ++ superClass.toList ++ [body]
  | .callExpression callee arguments _ | .newExpression callee arguments => callee :: arguments
  | .sequenceExpression expressions => expressions
  | .templateLiteral quasis expressions => quasis ++ expressions
  | .propertyDefinition key value _ _ => key :: value.toList
  | .emptyStatement | .debuggerStatement | .identifier _ | .literal _ _ _ | .thisExpression | .super
  | .templateElement _ _ _ | .unsupported _ => []

/-- Whether a tree has no node of a kind that the evaluator does not know. -/
inductive Node.Supported : Node → Prop where
  | mk {kind : Kind} {span : Span} (known : ∀ name, kind ≠ .unsupported name)
      (parts : ∀ n ∈ kind.children, n.Supported) : Supported (.mk kind span)

/-- Whether a node has a written form from which every reader that goes deep enough reads it back. -/
def Node.Readable (n : Node) : Prop :=
  ∃ members, n.toJson? = some (.object members) ∧
    ∀ depth, (Json.object members).nesting ≤ depth → Node.ofJsonWithin? depth (.object members) = some n

/-! ## 4. Fields -/

theorem bind_some {α β : Type} {x : Option α} {f : α → Option β} {a : α} {b : β} (hx : x = some a)
    (hf : f a = some b) : x >>= f = some b := by
  rw [hx]
  exact hf

theorem Json.nesting_le_of_lookup {members : List (String × Json)} {name : String} (h : members.lookup name = some j) :
    j.nesting ≤ nestingOfMembers members := by
  induction members with
  | nil => cases h
  | cons e rest ih =>
    obtain ⟨other, k⟩ := e
    rw [List.lookup_cons] at h
    rw [nestingOfMembers_cons]
    split at h
    · cases h
      exact Nat.le_max_left ..
    · exact Nat.le_trans (ih h) (Nat.le_max_right ..)

/-- Whether a reader sees the own fields of a node by their names, and goes deep enough for them. -/
structure FieldReader.Sees (r : FieldReader) (fields : List (String × Json)) : Prop where
  own : ownNames (fields.map Prod.fst)
  lookup : ∀ name, name ∉ nodeNames → r.fields.members.lookup name = fields.lookup name
  deep : ∃ depth, r.child = Node.ofJsonWithin? depth ∧ Json.nestingOfMembers fields ≤ depth

/-- An own field that stands in a node is seen, and whoever reads nodes in it goes deep enough. -/
theorem FieldReader.Sees.found (hr : r.Sees fields) (h : (name, j) ∈ fields) :
    r.fields.members.lookup name = some j ∧ ∃ depth, r.child = Node.ofJsonWithin? depth ∧ j.nesting ≤ depth := by
  obtain ⟨hname, hlookup⟩ := lookup_eq_some_of_own hr.own h
  obtain ⟨depth, hchild, hdepth⟩ := hr.deep
  exact ⟨(hr.lookup name hname).trans hlookup, depth, hchild,
    Nat.le_trans (Json.nesting_le_of_lookup hlookup) hdepth⟩

theorem FieldReader.Sees.value {α : Type} {read : Json → Option α} {a : α} (hr : r.Sees fields) (h : (name, j) ∈ fields)
    (hread : read j = some a) : r.fields.value name read = some a := by
  rw [Fields.value, Fields.required, (hr.found h).1]
  exact hread

theorem FieldReader.Sees.flag {b : Bool} (hr : r.Sees fields) (h : (name, .bool b) ∈ fields) :
    r.fields.flag name = some b :=
  hr.value h rfl

theorem FieldReader.Sees.flagOr {b default : Bool} (hr : r.Sees fields) (h : (name, .bool b) ∈ fields) :
    r.fields.flagOr name default = some b := by
  rw [Fields.flagOr, (hr.found h).1]
  rfl

/-- A sort of field: how what it holds is written, and how it is read by its name. -/
structure Slot (α : Type) where
  write : α → Option Json
  read : FieldReader → String → Option α

namespace Slot

/-- Whether what a field holds has a written form that is read back. -/
def Holds {α : Type} (s : Slot α) (a : α) : Prop :=
  ∃ j, s.write a = some j ∧ ∀ {r : FieldReader} {fields : List (String × Json)} {name : String}, r.Sees fields →
    (name, j) ∈ fields → s.read r name = some a

/-- A node that must be there. -/
def node : Slot Node where
  write := Node.toJson?
  read := FieldReader.node

/-- A node that may be missing. -/
def option : Slot (Option Node) where
  write := optionToJson?
  read := FieldReader.node?

/-- A list of nodes. -/
def nodes : Slot (List Node) where
  write l := (nodesToJson? l).map .array
  read := FieldReader.nodes

/-- A list of nodes that may be left out. -/
def nodesOr : Slot (List Node) where
  write l := (nodesToJson? l).map .array
  read := FieldReader.nodesOr

/-- A list of nodes with holes. -/
def elements : Slot (List (Option Node)) where
  write l := (elementsToJson? l).map .array
  read := FieldReader.elements

/-- A value that has a spelling. -/
def spelling {α : Type} (text : α → String) (read : Json → Option α) : Slot α where
  write a := some (.string (text a))
  read r name := r.fields.value name read

/-- A truth value that must be there. -/
def flag : Slot Bool where
  write b := some (.bool b)
  read r name := r.fields.flag name

/-- A truth value with a default. -/
def flagOr (default : Bool) : Slot Bool where
  write b := some (.bool b)
  read r name := r.fields.flagOr name default

theorem holds_node {n : Node} (h : n.Readable) : node.Holds n := by
  obtain ⟨members, hwrite, hread⟩ := h
  refine ⟨.object members, hwrite, fun {r fields name} hr hmem => ?_⟩
  obtain ⟨hlookup, depth, hchild, hdepth⟩ := hr.found hmem
  change r.node name = _
  rw [FieldReader.node, Fields.required, hlookup, hchild]
  exact hread depth hdepth

theorem option_written {o : Option Node} (h : ∀ n, o = some n → n.Readable) : ∃ j, optionToJson? o = some j ∧
    ∀ depth, j.nesting ≤ depth → j.orNull? (Node.ofJsonWithin? depth) = some o := by
  cases o with
  | none => exact ⟨.null, by rw [optionToJson?], fun _ _ => rfl⟩
  | some n =>
    obtain ⟨members, hwrite, hread⟩ := h n rfl
    exact ⟨.object members, by rw [optionToJson?, hwrite], fun depth hdepth =>
      congrArg (Option.map some) (hread depth hdepth)⟩

theorem holds_option {o : Option Node} (h : ∀ n, o = some n → n.Readable) : option.Holds o := by
  obtain ⟨j, hwrite, hread⟩ := option_written h
  refine ⟨j, hwrite, fun {r fields name} hr hmem => ?_⟩
  obtain ⟨hlookup, depth, hchild, hdepth⟩ := hr.found hmem
  change r.node? name = _
  rw [FieldReader.node?, Fields.optional, hlookup, hchild]
  exact hread depth hdepth

theorem nodes_written (h : ∀ n ∈ l, n.Readable) : ∃ items, nodesToJson? l = some items ∧
    ∀ depth, Json.nestingOfItems items ≤ depth → items.mapM (Node.ofJsonWithin? depth) = some l := by
  induction l with
  | nil => exact ⟨[], by rw [nodesToJson?], fun _ _ => rfl⟩
  | cons n rest ih =>
    obtain ⟨members, hwrite, hread⟩ := h n List.mem_cons_self
    obtain ⟨items, hwrites, hreads⟩ := ih fun m hm => h m (List.mem_cons_of_mem n hm)
    refine ⟨.object members :: items, by simp [nodesToJson?, hwrite, hwrites], fun depth hdepth => ?_⟩
    rw [Json.nestingOfItems_cons] at hdepth
    simp [hread depth (by omega), hreads depth (by omega)]

theorem holds_nodes (h : ∀ n ∈ l, n.Readable) : nodes.Holds l := by
  obtain ⟨items, hwrite, hread⟩ := nodes_written h
  refine ⟨.array items, congrArg (Option.map Json.array) hwrite, fun {r fields name} hr hmem => ?_⟩
  obtain ⟨hlookup, depth, hchild, hdepth⟩ := hr.found hmem
  rw [Json.nesting_array] at hdepth
  change r.nodes name = _
  rw [FieldReader.nodes, Fields.required, hlookup, hchild]
  exact hread depth (by omega)

theorem holds_nodesOr (h : ∀ n ∈ l, n.Readable) : nodesOr.Holds l := by
  obtain ⟨j, hwrite, hread⟩ := holds_nodes h
  refine ⟨j, hwrite, fun {r fields name} hr hmem => ?_⟩
  change r.nodesOr name = _
  rw [FieldReader.nodesOr, (hr.found hmem).1]
  exact hread hr hmem

theorem elements_written {l : List (Option Node)} (h : ∀ n, some n ∈ l → n.Readable) :
    ∃ items, elementsToJson? l = some items ∧ ∀ depth, Json.nestingOfItems items ≤ depth →
      items.mapM (fun j => j.orNull? (Node.ofJsonWithin? depth)) = some l := by
  induction l with
  | nil => exact ⟨[], by rw [elementsToJson?], fun _ _ => rfl⟩
  | cons o rest ih =>
    obtain ⟨j, hwrite, hread⟩ := option_written (o := o) fun n hn => h n (hn ▸ List.mem_cons_self)
    obtain ⟨items, hwrites, hreads⟩ := ih fun n hn => h n (List.mem_cons_of_mem o hn)
    refine ⟨j :: items, by simp [elementsToJson?, hwrite, hwrites], fun depth hdepth => ?_⟩
    rw [Json.nestingOfItems_cons] at hdepth
    simp [hread depth (by omega), hreads depth (by omega)]

theorem holds_elements {l : List (Option Node)} (h : ∀ n, some n ∈ l → n.Readable) : elements.Holds l := by
  obtain ⟨items, hwrite, hread⟩ := elements_written h
  refine ⟨.array items, congrArg (Option.map Json.array) hwrite, fun {r fields name} hr hmem => ?_⟩
  obtain ⟨hlookup, depth, hchild, hdepth⟩ := hr.found hmem
  rw [Json.nesting_array] at hdepth
  change r.elements name = _
  rw [FieldReader.elements, Fields.required, hlookup, hchild]
  exact hread depth (by omega)

theorem holds_spelling {α : Type} {text : α → String} {read : Json → Option α} {a : α}
    (h : read (.string (text a)) = some a) : (spelling text read).Holds a :=
  ⟨_, rfl, fun hr hmem => hr.value hmem h⟩

theorem holds_flag (b : Bool) : flag.Holds b :=
  ⟨_, rfl, fun hr hmem => hr.flag hmem⟩

theorem holds_flagOr (default b : Bool) : (flagOr default).Holds b :=
  ⟨_, rfl, fun hr hmem => hr.flagOr hmem⟩

end Slot

/-! ## 5. The kinds of nodes -/

/-- Whether a kind has written fields from which every reader that sees them reads it back. -/
def Kind.Readable (kind : Kind) : Prop :=
  ∃ fields, kind.toFields? = some fields ∧ ownNames (fields.map Prod.fst) ∧
    ∀ r : FieldReader, r.Sees fields → r.kind kind.typeName = some kind

namespace Kind

section Shapes

variable {α β γ : Type} {s : Slot α} {t : Slot β} {u : Slot γ} {a : α} {b : β} {c : γ}

/-- A kind with one field is read back when the field is. -/
theorem readable_one {build : α → Kind} (m : String) (hwrite : (build a).toFields? = do pure [(m, ← s.write a)])
    (hread : ∀ r : FieldReader, r.kind (build a).typeName = do pure (build (← s.read r m)))
    (hnames : ownNames [m]) (ha : s.Holds a) : (build a).Readable := by
  obtain ⟨ja, wa, ra⟩ := ha
  refine ⟨[(m, ja)], by rw [hwrite, wa]; rfl, hnames, fun r hr => ?_⟩
  rw [hread]
  exact bind_some (ra hr (by simp)) rfl

/-- A kind with two fields is read back when both are. -/
theorem readable_two {build : α → β → Kind} (m n : String)
    (hwrite : (build a b).toFields? = do pure [(m, ← s.write a), (n, ← t.write b)])
    (hread : ∀ r : FieldReader, r.kind (build a b).typeName = do pure (build (← s.read r m) (← t.read r n)))
    (hnames : ownNames [m, n]) (ha : s.Holds a) (hb : t.Holds b) : (build a b).Readable := by
  obtain ⟨ja, wa, ra⟩ := ha
  obtain ⟨jb, wb, rb⟩ := hb
  refine ⟨[(m, ja), (n, jb)], by rw [hwrite, wa, wb]; rfl, hnames, fun r hr => ?_⟩
  rw [hread]
  exact bind_some (ra hr (by simp)) (bind_some (rb hr (by simp)) rfl)

/-- A kind with three fields is read back when all of them are. -/
theorem readable_three {build : α → β → γ → Kind} (m n o : String)
    (hwrite : (build a b c).toFields? = do pure [(m, ← s.write a), (n, ← t.write b), (o, ← u.write c)])
    (hread : ∀ r : FieldReader, r.kind (build a b c).typeName = do
      pure (build (← s.read r m) (← t.read r n) (← u.read r o)))
    (hnames : ownNames [m, n, o]) (ha : s.Holds a) (hb : t.Holds b) (hc : u.Holds c) : (build a b c).Readable := by
  obtain ⟨ja, wa, ra⟩ := ha
  obtain ⟨jb, wb, rb⟩ := hb
  obtain ⟨jc, wc, rc⟩ := hc
  refine ⟨[(m, ja), (n, jb), (o, jc)], by rw [hwrite, wa, wb, wc]; rfl, hnames, fun r hr => ?_⟩
  rw [hread]
  exact bind_some (ra hr (by simp)) (bind_some (rb hr (by simp)) (bind_some (rc hr (by simp)) rfl))

end Shapes

/-- The kinds of nodes are read back from what is written, given that the nodes in them are. -/
theorem readable {kind : Kind} (known : ∀ name, kind ≠ .unsupported name) (h : ∀ n ∈ kind.children, n.Readable) :
    kind.Readable := by
  have hnode (n : Node) (hn : n ∈ kind.children) : Slot.node.Holds n := Slot.holds_node (h n hn)
  have hoption (o : Option Node) (ho : ∀ n, o = some n → n ∈ kind.children) : Slot.option.Holds o :=
    Slot.holds_option fun n hn => h n (ho n hn)
  have hnodes (l : List Node) (hl : ∀ n ∈ l, n ∈ kind.children) : Slot.nodes.Holds l :=
    Slot.holds_nodes fun n hn => h n (hl n hn)
  have hnodesOr (l : List Node) (hl : ∀ n ∈ l, n ∈ kind.children) : Slot.nodesOr.Holds l :=
    Slot.holds_nodesOr fun n hn => h n (hl n hn)
  have helements (l : List (Option Node)) (hl : ∀ n, some n ∈ l → n ∈ kind.children) : Slot.elements.Holds l :=
    Slot.holds_elements fun n hn => h n (hl n hn)
  have hname (name : String) : (Slot.spelling id Json.string?).Holds name := Slot.holds_spelling rfl
  cases kind with
  | program body =>
    exact readable_one "body" rfl (fun _ => rfl) rfl (hnodes body fun _ hn => by simp [children.eq_def, hn])
  | expressionStatement expression directive =>
    obtain ⟨_, we, re⟩ := hnode expression (by simp [children.eq_def])
    cases directive with
    | none =>
      refine ⟨_, bind_some we rfl, rfl, fun r hr => bind_some (re hr (by simp)) (bind_some ?_ rfl)⟩
      rw [Fields.defaulted, hr.lookup "directive" (by simp [nodeNames])]
      rfl
    | some directive =>
      refine ⟨_, bind_some we rfl, rfl, fun r hr => bind_some (re hr (by simp)) (bind_some ?_ rfl)⟩
      rw [Fields.defaulted, hr.lookup "directive" (by simp [nodeNames])]
      rfl
  | blockStatement body =>
    exact readable_one "body" rfl (fun _ => rfl) rfl (hnodes body fun _ hn => by simp [children.eq_def, hn])
  | emptyStatement =>
    exact ⟨[], rfl, rfl, fun _ _ => rfl⟩
  | debuggerStatement =>
    exact ⟨[], rfl, rfl, fun _ _ => rfl⟩
  | withStatement object body =>
    exact readable_two "object" "body" rfl (fun _ => rfl) rfl (hnode object (by simp [children.eq_def]))
      (hnode body (by simp [children.eq_def]))
  | returnStatement argument =>
    exact readable_one "argument" rfl (fun _ => rfl) rfl (hoption argument fun _ hn => by simp [children.eq_def, hn])
  | labeledStatement label body =>
    exact readable_two "label" "body" rfl (fun _ => rfl) rfl (hnode label (by simp [children.eq_def]))
      (hnode body (by simp [children.eq_def]))
  | breakStatement label =>
    exact readable_one "label" rfl (fun _ => rfl) rfl (hoption label fun _ hn => by simp [children.eq_def, hn])
  | continueStatement label =>
    exact readable_one "label" rfl (fun _ => rfl) rfl (hoption label fun _ hn => by simp [children.eq_def, hn])
  | ifStatement test consequent alternate =>
    exact readable_three "test" "consequent" "alternate" rfl (fun _ => rfl) rfl
      (hnode test (by simp [children.eq_def])) (hnode consequent (by simp [children.eq_def]))
      (hoption alternate fun _ hn => by simp [children.eq_def, hn])
  | switchStatement discriminant cases =>
    exact readable_two "discriminant" "cases" rfl (fun _ => rfl) rfl (hnode discriminant (by simp [children.eq_def]))
      (hnodes cases fun _ hn => by simp [children.eq_def, hn])
  | switchCase test consequent =>
    exact readable_two "test" "consequent" rfl (fun _ => rfl) rfl
      (hoption test fun _ hn => by simp [children.eq_def, hn]) (hnodes consequent fun _ hn => by simp [children.eq_def, hn])
  | throwStatement argument =>
    exact readable_one "argument" rfl (fun _ => rfl) rfl (hnode argument (by simp [children.eq_def]))
  | tryStatement block handler finalizer =>
    exact readable_three "block" "handler" "finalizer" rfl (fun _ => rfl) rfl (hnode block (by simp [children.eq_def]))
      (hoption handler fun _ hn => by simp [children.eq_def, hn])
      (hoption finalizer fun _ hn => by simp [children.eq_def, hn])
  | catchClause param body =>
    exact readable_two "param" "body" rfl (fun _ => rfl) rfl (hoption param fun _ hn => by simp [children.eq_def, hn])
      (hnode body (by simp [children.eq_def]))
  | whileStatement test body =>
    exact readable_two "test" "body" rfl (fun _ => rfl) rfl (hnode test (by simp [children.eq_def]))
      (hnode body (by simp [children.eq_def]))
  | doWhileStatement body test =>
    exact readable_two "body" "test" rfl (fun _ => rfl) rfl (hnode body (by simp [children.eq_def]))
      (hnode test (by simp [children.eq_def]))
  | forStatement init test update body =>
    obtain ⟨_, winit, rinit⟩ := hoption init fun _ hn => by simp [children.eq_def, hn]
    obtain ⟨_, wtest, rtest⟩ := hoption test fun _ hn => by simp [children.eq_def, hn]
    obtain ⟨_, wupdate, rupdate⟩ := hoption update fun _ hn => by simp [children.eq_def, hn]
    obtain ⟨_, wbody, rbody⟩ := hnode body (by simp [children.eq_def])
    exact ⟨_, bind_some winit (bind_some wtest (bind_some wupdate (bind_some wbody rfl))), rfl, fun _ hr =>
      bind_some (rinit hr (by simp)) <| bind_some (rtest hr (by simp)) <| bind_some (rupdate hr (by simp)) <|
      bind_some (rbody hr (by simp)) <| rfl⟩
  | forInStatement left right body =>
    exact readable_three "left" "right" "body" rfl (fun _ => rfl) rfl (hnode left (by simp [children.eq_def]))
      (hnode right (by simp [children.eq_def])) (hnode body (by simp [children.eq_def]))
  | function form id params body flags =>
    obtain ⟨_, wid, rid⟩ := hoption id fun _ hn => by simp [children.eq_def, hn]
    obtain ⟨_, wparams, rparams⟩ := hnodes params fun _ hn => by simp [children.eq_def, hn]
    obtain ⟨_, wbody, rbody⟩ := hnode body (by simp [children.eq_def])
    cases form <;>
      exact ⟨_, bind_some wid (bind_some wparams (bind_some wbody rfl)), rfl, fun _ hr =>
        bind_some (rid hr (by simp)) <| bind_some (rparams hr (by simp)) <| bind_some (rbody hr (by simp)) <|
        bind_some (hr.flagOr (by simp)) <| bind_some (hr.flagOr (by simp)) <| bind_some (hr.flagOr (by simp)) <| rfl⟩
  | variableDeclaration declarations kind =>
    exact readable_two "declarations" "kind" rfl (fun _ => rfl) rfl
      (hnodes declarations fun _ hn => by simp [children.eq_def, hn])
      (Slot.holds_spelling (VariableKind.ofJson?_text kind))
  | variableDeclarator id init =>
    exact readable_two "id" "init" rfl (fun _ => rfl) rfl (hnode id (by simp [children.eq_def]))
      (hoption init fun _ hn => by simp [children.eq_def, hn])
  | classLike form id superClass body =>
    cases form <;>
      exact readable_three "id" "superClass" "body" rfl (fun _ => rfl) rfl
        (hoption id fun _ hn => by simp [children.eq_def, hn]) (hoption superClass fun _ hn => by simp [children.eq_def, hn])
        (hnode body (by simp [children.eq_def]))
  | identifier name =>
    exact readable_one "name" rfl (fun _ => rfl) rfl (hname name)
  | literal value raw regex =>
    refine ⟨_, rfl, by cases raw <;> cases regex <;> rfl, fun r hr => ?_⟩
    have hvalue := hr.lookup "value" (by simp [nodeNames])
    have hraw := hr.lookup "raw" (by simp [nodeNames])
    have hregex := hr.lookup "regex" (by simp [nodeNames])
    refine bind_some (a := raw) ?_ (bind_some (a := regex) ?_ ?_)
    · rw [Fields.defaulted, hraw]
      cases raw <;> cases regex <;> rfl
    · rw [Fields.defaulted, hregex]
      cases raw <;> cases regex <;> rfl
    · rw [hvalue]
      rfl
  | thisExpression =>
    exact ⟨[], rfl, rfl, fun _ _ => rfl⟩
  | super =>
    exact ⟨[], rfl, rfl, fun _ _ => rfl⟩
  | arrayExpression elements =>
    exact readable_one "elements" rfl (fun _ => rfl) rfl
      (helements elements fun _ hn => by simpa [children] using hn)
  | objectExpression properties =>
    exact readable_one "properties" rfl (fun _ => rfl) rfl
      (hnodes properties fun _ hn => by simp [children.eq_def, hn])
  | property key value kind method shorthand computed =>
    obtain ⟨_, wkey, rkey⟩ := hnode key (by simp [children.eq_def])
    obtain ⟨_, wvalue, rvalue⟩ := hnode value (by simp [children.eq_def])
    exact ⟨_, bind_some wkey (bind_some wvalue rfl), rfl, fun _ hr =>
      bind_some (rkey hr (by simp)) <| bind_some (rvalue hr (by simp)) <|
      bind_some (hr.value (by simp) (PropertyKind.ofJson?_text kind)) <| bind_some (hr.flagOr (by simp)) <|
      bind_some (hr.flagOr (by simp)) <| bind_some (hr.flagOr (by simp)) <| rfl⟩
  | unaryExpression operator isPrefix argument =>
    exact readable_three "operator" "prefix" "argument" rfl (fun _ => rfl) rfl
      (Slot.holds_spelling (UnaryOperator.ofJson?_text operator)) (Slot.holds_flagOr _ isPrefix)
      (hnode argument (by simp [children.eq_def]))
  | updateExpression operator isPrefix argument =>
    exact readable_three "operator" "prefix" "argument" rfl (fun _ => rfl) rfl
      (Slot.holds_spelling (UpdateOperator.ofJson?_text operator)) (Slot.holds_flag isPrefix)
      (hnode argument (by simp [children.eq_def]))
  | binaryExpression operator left right =>
    exact readable_three "operator" "left" "right" rfl (fun _ => rfl) rfl
      (Slot.holds_spelling (BinaryOperator.ofJson?_text operator)) (hnode left (by simp [children.eq_def]))
      (hnode right (by simp [children.eq_def]))
  | assignmentExpression operator left right =>
    exact readable_three "operator" "left" "right" rfl (fun _ => rfl) rfl
      (Slot.holds_spelling (AssignmentOperator.ofJson?_text operator)) (hnode left (by simp [children.eq_def]))
      (hnode right (by simp [children.eq_def]))
  | logicalExpression operator left right =>
    exact readable_three "operator" "left" "right" rfl (fun _ => rfl) rfl
      (Slot.holds_spelling (LogicalOperator.ofJson?_text operator)) (hnode left (by simp [children.eq_def]))
      (hnode right (by simp [children.eq_def]))
  | memberExpression object property computed optional =>
    obtain ⟨_, wobject, robject⟩ := hnode object (by simp [children.eq_def])
    obtain ⟨_, wproperty, rproperty⟩ := hnode property (by simp [children.eq_def])
    exact ⟨_, bind_some wobject (bind_some wproperty rfl), rfl, fun _ hr =>
      bind_some (robject hr (by simp)) <| bind_some (rproperty hr (by simp)) <| bind_some (hr.flag (by simp)) <|
      bind_some (hr.flagOr (by simp)) <| rfl⟩
  | chainExpression expression =>
    exact readable_one "expression" rfl (fun _ => rfl) rfl (hnode expression (by simp [children.eq_def]))
  | conditionalExpression test consequent alternate =>
    exact readable_three "test" "consequent" "alternate" rfl (fun _ => rfl) rfl
      (hnode test (by simp [children.eq_def])) (hnode consequent (by simp [children.eq_def]))
      (hnode alternate (by simp [children.eq_def]))
  | callExpression callee arguments optional =>
    exact readable_three "callee" "arguments" "optional" rfl (fun _ => rfl) rfl
      (hnode callee (by simp [children.eq_def])) (hnodes arguments fun _ hn => by simp [children.eq_def, hn])
      (Slot.holds_flagOr _ optional)
  | newExpression callee arguments =>
    exact readable_two "callee" "arguments" rfl (fun _ => rfl) rfl (hnode callee (by simp [children.eq_def]))
      (hnodesOr arguments fun _ hn => by simp [children.eq_def, hn])
  | sequenceExpression expressions =>
    exact readable_one "expressions" rfl (fun _ => rfl) rfl
      (hnodes expressions fun _ hn => by simp [children.eq_def, hn])
  | spreadElement argument =>
    exact readable_one "argument" rfl (fun _ => rfl) rfl (hnode argument (by simp [children.eq_def]))
  | templateLiteral quasis expressions =>
    exact readable_two "quasis" "expressions" rfl (fun _ => rfl) rfl
      (hnodes quasis fun _ hn => by simp [children.eq_def, hn]) (hnodes expressions fun _ hn => by simp [children.eq_def, hn])
  | templateElement raw cooked tail =>
    cases cooked <;>
      exact ⟨_, rfl, rfl, fun r hr => bind_some (hr.found List.mem_cons_self).1
        (bind_some rfl (bind_some (hr.flag (by simp)) rfl))⟩
  | taggedTemplateExpression tag quasi =>
    exact readable_two "tag" "quasi" rfl (fun _ => rfl) rfl (hnode tag (by simp [children.eq_def]))
      (hnode quasi (by simp [children.eq_def]))
  | classBody body =>
    exact readable_one "body" rfl (fun _ => rfl) rfl (hnodes body fun _ hn => by simp [children.eq_def, hn])
  | methodDefinition key value kind computed isStatic =>
    obtain ⟨_, wkey, rkey⟩ := hnode key (by simp [children.eq_def])
    obtain ⟨_, wvalue, rvalue⟩ := hnode value (by simp [children.eq_def])
    exact ⟨_, bind_some wkey (bind_some wvalue rfl), rfl, fun _ hr =>
      bind_some (rkey hr (by simp)) <| bind_some (rvalue hr (by simp)) <|
      bind_some (hr.value (by simp) (MethodKind.ofJson?_text kind)) <| bind_some (hr.flagOr (by simp)) <|
      bind_some (hr.flagOr (by simp)) <| rfl⟩
  | propertyDefinition key value computed isStatic =>
    obtain ⟨_, wkey, rkey⟩ := hnode key (by simp [children.eq_def])
    obtain ⟨_, wvalue, rvalue⟩ := hoption value fun _ hn => by simp [children.eq_def, hn]
    exact ⟨_, bind_some wkey (bind_some wvalue rfl), rfl, fun _ hr =>
      bind_some (rkey hr (by simp)) <| bind_some (rvalue hr (by simp)) <| bind_some (hr.flagOr (by simp)) <|
      bind_some (hr.flagOr (by simp)) <| rfl⟩
  | objectPattern properties =>
    exact readable_one "properties" rfl (fun _ => rfl) rfl
      (hnodes properties fun _ hn => by simp [children.eq_def, hn])
  | arrayPattern elements =>
    exact readable_one "elements" rfl (fun _ => rfl) rfl
      (helements elements fun _ hn => by simpa [children] using hn)
  | restElement argument =>
    exact readable_one "argument" rfl (fun _ => rfl) rfl (hnode argument (by simp [children.eq_def]))
  | assignmentPattern left right =>
    exact readable_two "left" "right" rfl (fun _ => rfl) rfl (hnode left (by simp [children.eq_def]))
      (hnode right (by simp [children.eq_def]))
  | unsupported name =>
    exact absurd rfl (known name)

end Kind

/-! ## 6. Whole trees -/

/-- A reader of the written form of a node sees the own fields of the node. -/
theorem FieldReader.sees {depth : Nat} (hown : ownNames (fields.map Prod.fst))
    (hdepth : Json.nestingOfMembers fields ≤ depth) (name : Json) (span : Span) :
    ({ fields := { members := ("type", name) :: fields ++ span.toFields, byPlace := false }
       child := Node.ofJsonWithin? depth } : FieldReader).Sees fields where
  own := hown
  lookup other hother := by
    simp only [nodeNames, List.mem_cons, List.not_mem_nil, or_false, not_or, ← beq_eq_false_iff_ne] at hother
    obtain ⟨htype, hstart, hstop, hloc⟩ := hother
    obtain ⟨start, stop, loc⟩ := span
    cases loc <;> simp [Span.toFields, List.lookup_append, List.lookup_cons, List.lookup_nil, *]
  deep := ⟨depth, rfl, hdepth⟩

theorem Node.readable {kind : Kind} (h : kind.Readable) (span : Span) : (Node.mk kind span).Readable := by
  obtain ⟨fields, hwrite, hown, hread⟩ := h
  refine ⟨_, by rw [Node.toJson?, hwrite]; rfl, fun depth hdepth => ?_⟩
  rw [Json.nesting_object, List.cons_append, Json.nestingOfMembers_cons, Json.nestingOfMembers_append] at hdepth
  cases depth with
  | zero => omega
  | succ depth =>
    exact bind_some (Span.ofJson?_object span hown _)
      (bind_some rfl (bind_some (hread _ (FieldReader.sees hown (by omega) _ span)) rfl))

/-- A tree without unsupported nodes has a written form, from which the same tree is read. Reading goes at most as
deep as the document nests, so every text of the form that can be read at all gives the tree back. -/
theorem Node.ofJson_toJson (n : Node) (h : n.Supported) :
    ∃ j, n.toJson? = some j ∧ (∀ depth, j.nesting ≤ depth → Node.ofJsonWithin? depth j = some n) ∧
      (j.nesting < 128 →
        Node.ofJson? j = some n ∧ ∀ text, Json.parse text = .ok j → Node.ofText? text = some n) := by
  have hreadable : n.Readable := by
    induction h with
    | mk known _ ih => exact Node.readable (Kind.readable known ih) _
  obtain ⟨members, hwrite, hread⟩ := hreadable
  refine ⟨.object members, hwrite, hread, fun hnesting => ?_⟩
  have hjson : Node.ofJson? (.object members) = some n := hread _ (Nat.le_of_lt hnesting)
  exact ⟨hjson, fun text htext => by rw [Node.ofText?, htext]; exact hjson⟩

/-- The tree of a sum that was built without places. -/
def Node.sum : Node :=
  let span : Span := { start := 0, stop := 0, loc := none }
  .mk (.binaryExpression .add (.mk (.identifier "x") span)
    (.mk (.literal (.number (.natural 1)) (some "1") none) span)) span

theorem Node.sum_supported : Node.sum.Supported := by
  refine .mk (fun _ h => by cases h) fun n hn => ?_
  simp only [Kind.children.eq_def, List.mem_cons, List.not_mem_nil, or_false] at hn
  obtain rfl | rfl := hn
  · exact .mk (fun _ h => by cases h) fun _ hn => by cases hn
  · exact .mk (fun _ h => by cases h) fun _ hn => by cases hn

theorem Node.ofJson_toJson_sum : Node.sum.Supported ∧
    ∃ j, Node.sum.toJson? = some j ∧
      (∀ depth, j.nesting ≤ depth → Node.ofJsonWithin? depth j = some Node.sum) ∧
      (j.nesting < 128 →
        Node.ofJson? j = some Node.sum ∧ ∀ text, Json.parse text = .ok j → Node.ofText? text = some Node.sum) :=
  ⟨Node.sum_supported, Node.ofJson_toJson Node.sum Node.sum_supported⟩

end GuestScript
