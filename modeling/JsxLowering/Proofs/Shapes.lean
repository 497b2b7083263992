import JsxLowering.Proofs.Parameters
import JsxLowering.Source.Target

/-!
# Shapes of whole trees

The facts on scopes ask that statements, patterns and functions have the parts that their forms call
for. `Node.IsShaped` says so of one node and `Tree.IsShaped` of all nodes of a tree, those in markup
among them. The nodes around an element are nodes of its program, so they are shaped in a shaped
program.

Turning an expression into a pattern keeps a tree shaped, and what is bound is then a pattern.
-/

namespace JsxLowering

/-! ## The nodes of a tree -/

mutual

/-- The nodes of a tree, those in its markup among them. -/
def Tree.nodes : Tree → List Node
  | .leaf _ => []
  | .node form children => ⟨form, children⟩ :: Tree.nodesIn children
  | .markup value => value.nodes

def Tree.nodesIn : List Tree → List Node
  | [] => []
  | tree :: rest => tree.nodes ++ Tree.nodesIn rest

def Markup.nodes : Markup → List Node
  | .element _ _ attributes children => Attribute.nodesIn attributes ++ Child.nodesIn children
  | .fragment _ children => Child.nodesIn children

def Attribute.nodes : Attribute → List Node
  | .flag _ => []
  | .text _ _ => []
  | .container _ value => value.nodes
  | .markup _ value => value.nodes
  | .spread argument => argument.nodes

def Attribute.nodesIn : List Attribute → List Node
  | [] => []
  | first :: rest => first.nodes ++ Attribute.nodesIn rest

def Child.nodes : Child → List Node
  | .text _ => []
  | .empty => []
  | .container value => value.nodes
  | .markup value => value.nodes
  | .spread argument => argument.nodes

def Child.nodesIn : List Child → List Node
  | [] => []
  | first :: rest => first.nodes ++ Child.nodesIn rest

end

theorem Tree.nodesIn_eq (trees : List Tree) : Tree.nodesIn trees = trees.flatMap Tree.nodes := by
  induction trees with
  | nil => rfl
  | cons first rest ih => rw [Tree.nodesIn, ih, List.flatMap_cons]

theorem Attribute.nodesIn_eq (attributes : List Attribute) :
    Attribute.nodesIn attributes = attributes.flatMap Attribute.nodes := by
  induction attributes with
  | nil => rfl
  | cons first rest ih => rw [Attribute.nodesIn, ih, List.flatMap_cons]

theorem Child.nodesIn_eq (children : List Child) :
    Child.nodesIn children = children.flatMap Child.nodes := by
  induction children with
  | nil => rfl
  | cons first rest ih => rw [Child.nodesIn, ih, List.flatMap_cons]

section
variable {P : Node → Prop}

mutual

/-- What holds of the nodes of a tree and of those around it holds of all nodes around an element of
the tree. -/
theorem Tree.forall_around : (tree : Tree) → (around : List Node) → (∀ node ∈ tree.nodes, P node) →
    (∀ node ∈ around, P node) → ∀ p ∈ tree.placed around, ∀ node ∈ p.around, P node
  | .leaf _, _, _, _ => List.forall_mem_nil _
  | .node form children, around, h, outer => by
    have ⟨own, inner⟩ := List.forall_mem_cons.mp h
    have within := List.forall_mem_cons.mpr ⟨own, outer⟩
    exact Tree.forall_around_in children (⟨form, children⟩ :: around) inner within
  | .markup value, around, h, outer => Markup.forall_around value around h outer

/-- The same for a list of trees. -/
theorem Tree.forall_around_in : (trees : List Tree) → (around : List Node) →
    (∀ node ∈ Tree.nodesIn trees, P node) → (∀ node ∈ around, P node) →
    ∀ p ∈ Tree.placedIn around trees, ∀ node ∈ p.around, P node
  | [], _, _, _ => List.forall_mem_nil _
  | tree :: rest, around, h, outer => by
    have ⟨first, others⟩ := List.forall_mem_append.mp h
    exact List.forall_mem_append.mpr ⟨Tree.forall_around tree around first outer,
      Tree.forall_around_in rest around others outer⟩

/-- Markup is no node, so an element in it has the same nodes around it. -/
theorem Markup.forall_around : (m : Markup) → (around : List Node) → (∀ node ∈ m.nodes, P node) →
    (∀ node ∈ around, P node) → ∀ p ∈ m.placed around, ∀ node ∈ p.around, P node
  | .element start tag attributes children, around, h, outer => by
    have ⟨first, others⟩ := List.forall_mem_append.mp h
    have below := Child.forall_around_in children around others outer
    -- the element itself stands at the place of the markup
    exact List.forall_mem_append.mpr ⟨Attribute.forall_around_in attributes around first outer,
      List.forall_mem_cons.mpr ⟨outer, below⟩⟩
  | .fragment _ children, around, h, outer => Child.forall_around_in children around h outer

theorem Attribute.forall_around : (item : Attribute) → (around : List Node) →
    (∀ node ∈ item.nodes, P node) → (∀ node ∈ around, P node) →
    ∀ p ∈ item.placed around, ∀ node ∈ p.around, P node
  | .flag _, _, _, _ => List.forall_mem_nil _
  | .text _ _, _, _, _ => List.forall_mem_nil _
  | .container _ value, around, h, outer => Tree.forall_around value around h outer
  | .markup _ value, around, h, outer => Markup.forall_around value around h outer
  | .spread argument, around, h, outer => Tree.forall_around argument around h outer

theorem Attribute.forall_around_in : (items : List Attribute) → (around : List Node) →
    (∀ node ∈ Attribute.nodesIn items, P node) → (∀ node ∈ around, P node) →
    ∀ p ∈ Attribute.placedIn around items, ∀ node ∈ p.around, P node
  | [], _, _, _ => List.forall_mem_nil _
  | item :: rest, around, h, outer => by
    have ⟨first, others⟩ := List.forall_mem_append.mp h
    exact List.forall_mem_append.mpr ⟨Attribute.forall_around item around first outer,
      Attribute.forall_around_in rest around others outer⟩

theorem Child.forall_around : (item : Child) → (around : List Node) →
    (∀ node ∈ item.nodes, P node) → (∀ node ∈ around, P node) →
    ∀ p ∈ item.placed around, ∀ node ∈ p.around, P node
  | .text _, _, _, _ => List.forall_mem_nil _
  | .empty, _, _, _ => List.forall_mem_nil _
  | .container value, around, h, outer => Tree.forall_around value around h outer
  | .markup value, around, h, outer => Markup.forall_around value around h outer
  | .spread argument, around, h, outer => Tree.forall_around argument around h outer

theorem Child.forall_around_in : (items : List Child) → (around : List Node) →
    (∀ node ∈ Child.nodesIn items, P node) → (∀ node ∈ around, P node) →
    ∀ p ∈ Child.placedIn around items, ∀ node ∈ p.around, P node
  | [], _, _, _ => List.forall_mem_nil _
  | item :: rest, around, h, outer => by
    have ⟨first, others⟩ := List.forall_mem_append.mp h
    exact List.forall_mem_append.mpr ⟨Child.forall_around item around first outer,
      Child.forall_around_in rest around others outer⟩

end

end

/-! ## Shaped nodes -/

/-- Whether a node of this form is a function or an arrow function. -/
def Form.isFunction : Form → Bool
  | .function .. | .arrow .. => true
  | _ => false

/-- Whether a node of this form is a property of an object literal that is its own key. -/
def Form.isOwnKey : Form → Bool
  | .shorthand | .defaulted => true
  | _ => false

/-- A node has the parts that its form calls for. -/
structure Node.IsShaped (node : Node) : Prop where
  /-- What stands in its statement list are statements. -/
  statements : ∀ statement ∈ node.statements, statement.IsStatement
  /-- What the body of a function holds are statements. -/
  body : node.form = .body → ∀ statement ∈ node.children, statement.IsStatement
  /-- A function has its parameters and perhaps a name. -/
  function : node.form.isFunction → node.IsFunction
  /-- A property that is its own key starts with a name. -/
  key : node.form.isOwnKey → ∃ name rest, node.children = .identifier name :: rest

/-- Whether nothing is asked of a node of this form. -/
def Form.isFree : Form → Bool
  | .program _ | .block | .function .. | .arrow .. | .body | .switchCase | .staticBlock
  | .shorthand | .defaulted => false
  | _ => true

/-- Whether nothing is asked of a node of this form, and it contributes no names to a scope. -/
def Form.isSimple (form : Form) : Bool := form.isFree && !form.contributes

section
variable {form : Form} {children : List Tree}

theorem Form.isFunction_of_isFree (h : form.isFree) : form.isFunction = false := by
  unfold Form.isFunction
  split
  · cases h
  · cases h
  · rfl

theorem Form.isOwnKey_of_isFree (h : form.isFree) : form.isOwnKey = false := by
  unfold Form.isOwnKey
  split
  · cases h
  · cases h
  · rfl

theorem Form.isFunction_of_holds (h : form.holdsStatements) : form.isFunction = false := by
  unfold Form.isFunction
  split
  · cases h
  · cases h
  · rfl

theorem Form.isOwnKey_of_holds (h : form.holdsStatements) : form.isOwnKey = false := by
  unfold Form.isOwnKey
  split
  · cases h
  · cases h
  · rfl

/-- Of a node that is no function, no body of one and not its own key, only the statements in its
list are asked. -/
theorem Node.isShaped_of_statements (hb : form ≠ .body) (hf : form.isFunction = false)
    (hk : form.isOwnKey = false)
    (h : ∀ statement ∈ Node.statements ⟨form, children⟩, statement.IsStatement) :
    Node.IsShaped ⟨form, children⟩ := by
  refine ⟨h, fun body => absurd body hb, fun function => ?_, fun key => ?_⟩
  · rw [hf] at function
    cases function
  · rw [hk] at key
    cases key

/-- A node of a free form holds no statement list of its own. -/
theorem Node.isShaped_of_isFree (h : form.isFree) : Node.IsShaped ⟨form, children⟩ := by
  have noBody : form ≠ .body := by
    rintro rfl
    cases h
  refine Node.isShaped_of_statements noBody (Form.isFunction_of_isFree h)
    (Form.isOwnKey_of_isFree h) ?_
  unfold Node.statements
  split
  case h_7 => exact List.forall_mem_nil _
  all_goals
    next heq =>
    cases heq
    cases h

end

/-! ## Shaped trees -/

/-- Every node of a list is shaped. -/
def AreShaped (nodes : List Node) : Prop := ∀ node ∈ nodes, node.IsShaped

/-- Every node of a tree is shaped. -/
def Tree.IsShaped (tree : Tree) : Prop := AreShaped tree.nodes

section
variable {form : Form} {children trees : List Tree}

@[simp] theorem areShaped_nil : AreShaped [] := List.forall_mem_nil _

/-- A list of nodes is checked part by part. -/
@[simp] theorem areShaped_append {nodes more : List Node} :
    AreShaped (nodes ++ more) ↔ AreShaped nodes ∧ AreShaped more := List.forall_mem_append

/-- The nodes of several trees are shaped if each of the trees is. -/
@[simp] theorem Tree.areShaped_nodesIn :
    AreShaped (Tree.nodesIn trees) ↔ ∀ tree ∈ trees, tree.IsShaped := by
  rw [Tree.nodesIn_eq]
  simp only [AreShaped, List.mem_flatMap, Tree.IsShaped]
  grind

/-- The nodes in a tag are those of its attributes. -/
@[simp] theorem Attribute.areShaped_nodesIn {attributes : List Attribute} :
    AreShaped (Attribute.nodesIn attributes) ↔ ∀ item ∈ attributes, AreShaped item.nodes := by
  rw [Attribute.nodesIn_eq]
  simp only [AreShaped, List.mem_flatMap]
  grind

/-- The nodes in markup are those of its children. -/
@[simp] theorem Child.areShaped_nodesIn {items : List Child} :
    AreShaped (Child.nodesIn items) ↔ ∀ item ∈ items, AreShaped item.nodes := by
  rw [Child.nodesIn_eq]
  simp only [AreShaped, List.mem_flatMap]
  grind

@[simp] theorem Tree.isShaped_leaf {leaf : Leaf} : (Tree.leaf leaf).IsShaped := areShaped_nil

/-- A tree is shaped if its root is and its parts are. -/
theorem Tree.isShaped_node :
    (Tree.node form children).IsShaped
      ↔ Node.IsShaped ⟨form, children⟩ ∧ ∀ child ∈ children, child.IsShaped := by
  rw [← Tree.areShaped_nodesIn]
  exact List.forall_mem_cons

/-- Of a node of a free form only the parts are asked. -/
theorem Tree.isShaped_of_isFree (hf : form.isFree) (h : ∀ child ∈ children, child.IsShaped) :
    (Tree.node form children).IsShaped :=
  Tree.isShaped_node.mpr ⟨Node.isShaped_of_isFree hf, h⟩

end

/-- A tree is of a kind, and every node in it is shaped. -/
structure Shaped (kind : Tree → Prop) (tree : Tree) : Prop where
  is : kind tree
  shaped : tree.IsShaped

namespace Shaped

variable {kind other : Tree → Prop} {tree : Tree} {form : Form} {children : List Tree}

/-- What a tree is may be said less exactly; that its nodes are shaped stays. -/
theorem imp (h : Shaped kind tree) (hk : kind tree → other tree) : Shaped other tree :=
  ⟨hk h.is, h.shaped⟩

theorem leaf {leaf : Leaf} : Shaped Tree.IsInert (.leaf leaf) := ⟨.leaf, Tree.isShaped_leaf⟩

/-- A node of a simple form is inert, and shaped if its parts are. -/
theorem node (hf : form.isSimple) (h : ∀ child ∈ children, child.IsShaped) :
    Shaped Tree.IsInert (.node form children) := by
  unfold Form.isSimple at hf
  rw [Bool.and_eq_true, Bool.not_eq_true'] at hf
  exact ⟨.node hf.2, Tree.isShaped_of_isFree hf.1 h⟩

end Shaped

/-! ## Statements that hold statements -/

section
variable {form : Form} {children : List Tree}

/-- What is inert is a statement that declares nothing. -/
theorem Tree.IsInert.isStatement {tree : Tree} (h : tree.IsInert) : tree.IsStatement :=
  .declaration (.inert h)

/-- A clause that is a statement holds statements. -/
theorem Tree.IsStatement.of_mem_clauseStatements {clause statement : Tree} (h : clause.IsStatement)
    (hm : statement ∈ clause.clauseStatements) : statement.IsStatement := by
  unfold Tree.clauseStatements at hm
  split at hm
  · cases h with
    | compound _ _ parts => exact parts statement hm
    | declaration h =>
      cases h with
      | inert h =>
        cases h with
        | node h => cases h
  · cases hm

/-- A block holds its statements, and a switch those of its clauses. -/
theorem Node.isShaped_of_holds (hf : form.holdsStatements)
    (parts : ∀ part ∈ form.substatements children, part.IsStatement) :
    Node.IsShaped ⟨form, children⟩ := by
  have noBody : form ≠ .body := by
    rintro rfl
    cases hf
  refine Node.isShaped_of_statements noBody (Form.isFunction_of_holds hf)
    (Form.isOwnKey_of_holds hf) ?_
  unfold Node.statements
  split
  case h_2 heq =>
    cases heq
    exact parts
  case h_5 heq =>
    cases heq
    intro statement hm
    obtain ⟨clause, hc, hs⟩ := List.mem_flatMap.mp hm
    exact (parts clause hc).of_mem_clauseStatements hs
  case h_7 => exact List.forall_mem_nil _
  all_goals
    next heq =>
    cases heq
    cases hf

/-- A node whose form holds statements is a statement if its parts in places of statements are, and
the others are inert. -/
theorem Shaped.compound (hf : form.holdsStatements)
    (others : ∀ child ∈ children,
      child ∈ form.substatements children ∨ Shaped Tree.IsInert child)
    (parts : ∀ part ∈ form.substatements children, Shaped Tree.IsStatement part) :
    Shaped Tree.IsStatement (.node form children) := by
  have own : Node.IsShaped ⟨form, children⟩ :=
    Node.isShaped_of_holds hf fun part hm => (parts part hm).is
  refine ⟨.compound hf (fun child hm => (others child hm).imp_right Shaped.is)
    fun part hm => (parts part hm).is, Tree.isShaped_node.mpr ⟨own, fun child hm => ?_⟩⟩
  rcases others child hm with h | h
  · exact (parts child h).shaped
  · exact h.shaped

end

/-! ## Expressions turned into patterns -/

/-- A pattern contributes nothing where it stands; the declarator around it does. -/
theorem Tree.IsPattern.isInert {tree : Tree} (h : tree.IsPattern) : tree.IsInert := by
  cases h with
  | absent => exact .leaf
  | identifier => exact .leaf
  | object => exact .node rfl
  | property => exact .node rfl
  | array => exact .node rfl
  | withDefault => exact .node rfl
  | rest => exact .node rfl
  | typed => exact .node rfl

/-- A tree is one that an expression may be turned into: shaped, and a pattern unless it is only
assigned to. -/
structure Tree.IsTarget (assigned : Bool) (target : Tree) : Prop where
  shaped : target.IsShaped
  pattern : assigned = false → target.IsPattern

/-- A target that is inert if the expression it was is inert. -/
structure Tree.IsTargetOf (assigned : Bool) (tree target : Tree) : Prop
    extends Tree.IsTarget assigned target where
  inert : tree.IsInert → target.IsInert

section
variable {assigned : Bool} {tree target : Tree} {form : Form} {children targets : List Tree}

/-- A node of a simple form is a target if its parts are shaped and it is a pattern where names are
bound. -/
theorem Tree.IsTargetOf.node (hf : form.isSimple) (h : ∀ child ∈ children, child.IsShaped)
    (pattern : assigned = false → (Tree.node form children).IsPattern) :
    IsTargetOf assigned tree (.node form children) :=
  have simple := Shaped.node hf h
  ⟨⟨simple.shaped, pattern⟩, fun _ => simple.is⟩

/-- An array of targets is assigned to, or is an array pattern. -/
theorem Tree.isTargetOf_arrayOf? (h : ∀ target ∈ targets, target.IsTarget assigned)
    (ht : arrayOf? assigned targets = some target) : IsTargetOf assigned tree target := by
  unfold arrayOf? at ht
  split at ht
  · cases ht
  · cases ht
    cases assigned with
    | true => exact .node rfl (fun target hm => (h target hm).shaped) nofun
    | false =>
      exact .node rfl (fun target hm => (h target hm).shaped)
        fun _ => .array fun target hm => (h target hm).pattern rfl

/-- An object of targets is assigned to, or is an object pattern. -/
theorem Tree.isTargetOf_objectOf? (h : ∀ target ∈ targets, target.IsTarget assigned)
    (ht : objectOf? assigned targets = some target) : IsTargetOf assigned tree target := by
  unfold objectOf? at ht
  split at ht
  · cases ht
  · cases ht
    cases assigned with
    | true => exact .node rfl (fun target hm => (h target hm).shaped) nofun
    | false =>
      exact .node rfl (fun target hm => (h target hm).shaped)
        fun _ => .object fun target hm => (h target hm).pattern rfl

/-- A property binds what the target after its key binds. -/
theorem Tree.IsTarget.property {short computed : Bool} {key : Tree} (hk : key.IsShaped)
    (h : target.IsTarget assigned) :
    IsTargetOf assigned tree (.node (.patternProperty short computed) [key, target]) :=
  .node rfl (by simp [hk, h.shaped]) fun names => .property (h.pattern names)

mutual

/-- An expression of shaped nodes is turned into a pattern of shaped nodes. -/
theorem Tree.isTargetOf_asTarget? (tree : Tree) (shaped : tree.IsShaped) (target : Tree)
    (ht : tree.asTarget? assigned = some target) : IsTargetOf assigned tree target := by
  unfold Tree.asTarget? at ht
  split at ht
  case h_1 elements | h_2 elements =>
    obtain ⟨targets, he, ht⟩ := Option.bind_eq_some_iff.mp ht
    have inner := (Tree.isShaped_node.mp shaped).2
    exact isTargetOf_arrayOf? (Tree.isTarget_of_asTargets? elements inner targets he) ht
  case h_3 properties | h_4 properties =>
    obtain ⟨targets, he, ht⟩ := Option.bind_eq_some_iff.mp ht
    have inner := (Tree.isShaped_node.mp shaped).2
    exact isTargetOf_objectOf? (Tree.isTarget_of_asTargets? properties inner targets he) ht
  case h_5 bound value | h_6 bound value =>
    obtain ⟨found, hb, rfl⟩ := Option.map_eq_some_iff.mp ht
    obtain ⟨hs, hv⟩ := List.forall_mem_cons.mp (Tree.isShaped_node.mp shaped).2
    have inner := Tree.isTargetOf_asTarget? bound hs found hb
    exact .node rfl (List.forall_mem_cons.mpr ⟨inner.shaped, hv⟩)
      fun names => .withDefault (inner.pattern names)
  case h_7 argument | h_8 argument =>
    obtain ⟨found, ha, rfl⟩ := Option.map_eq_some_iff.mp ht
    have hs := List.forall_mem_singleton.mp (Tree.isShaped_node.mp shaped).2
    have inner := Tree.isTargetOf_asTarget? argument hs found ha
    exact .node rfl (List.forall_mem_singleton.mpr inner.shaped)
      fun names => .rest (inner.pattern names)
  case h_9 key value | h_10 key value =>
    obtain ⟨found, hv, rfl⟩ := Option.map_eq_some_iff.mp ht
    obtain ⟨hk, hs⟩ := List.forall_mem_cons.mp (Tree.isShaped_node.mp shaped).2
    have inner := Tree.isTargetOf_asTarget? value (List.forall_mem_singleton.mp hs) found hv
    split
    · exact inner.toIsTarget.property hk
    · exact inner.toIsTarget.property hk
  case h_11 name =>
    -- a property that is its own key starts with a name
    obtain ⟨own, hc⟩ := Tree.isShaped_node.mp shaped
    obtain ⟨text, rest, heq⟩ := own.key rfl
    cases heq
    cases ht
    exact .node rfl (by simp) fun _ => .property .identifier
  case h_12 name value =>
    obtain ⟨own, hc⟩ := Tree.isShaped_node.mp shaped
    obtain ⟨text, rest, heq⟩ := own.key rfl
    cases heq
    cases ht
    refine .node rfl ?_ fun _ => .property (.withDefault .identifier)
    have bound : Tree.IsShaped (.node .defaultPattern [.identifier text, value]) :=
      Tree.isShaped_of_isFree rfl hc
    exact List.forall_mem_cons.mpr ⟨Tree.isShaped_leaf, List.forall_mem_singleton.mpr bound⟩
  case h_13 =>
    cases ht
    exact ⟨⟨shaped, fun _ => .absent⟩, id⟩
  case h_14 =>
    cases ht
    exact ⟨⟨shaped, fun _ => .identifier⟩, id⟩
  case h_15 =>
    split at ht
    · next allowed =>
      cases ht
      -- only what is assigned to may be no pattern
      refine ⟨⟨shaped, fun names => ?_⟩, id⟩
      rw [names] at allowed
      cases allowed
    · cases ht
termination_by sizeOf tree
decreasing_by
  all_goals
    subst_vars
    simp only [Tree.node.sizeOf_spec, List.cons.sizeOf_spec, List.nil.sizeOf_spec]
    omega

/-- The same for the parts of an array or an object. -/
theorem Tree.isTarget_of_asTargets? (trees : List Tree) (shaped : ∀ tree ∈ trees, tree.IsShaped)
    (targets : List Tree) (ht : asTargets? assigned trees = some targets) :
    ∀ target ∈ targets, target.IsTarget assigned := by
  unfold asTargets? at ht
  split at ht
  case h_1 =>
    cases ht
    exact List.forall_mem_nil _
  case h_2 first rest =>
    obtain ⟨found, hf, ht⟩ := Option.bind_eq_some_iff.mp ht
    obtain ⟨others, ho, ht⟩ := Option.bind_eq_some_iff.mp ht
    cases ht
    obtain ⟨hs, hr⟩ := List.forall_mem_cons.mp shaped
    exact List.forall_mem_cons.mpr ⟨(Tree.isTargetOf_asTarget? first hs found hf).toIsTarget,
      Tree.isTarget_of_asTargets? rest hr others ho⟩
termination_by sizeOf trees
decreasing_by
  all_goals
    subst_vars
    simp only [List.cons.sizeOf_spec]
    omega

end

/-- A target that is assigned to is inert. -/
theorem Shaped.asTarget? (h : Shaped Tree.IsInert tree)
    (ht : tree.asTarget? assigned = some target) : Shaped Tree.IsInert target :=
  have found := Tree.isTargetOf_asTarget? tree h.shaped target ht
  ⟨found.inert h.is, found.shaped⟩

/-- Expressions that are turned into parameters are patterns. -/
theorem shaped_of_asTargets? (h : ∀ child ∈ children, child.IsShaped)
    (ht : Tree.asTargets? false children = some targets) :
    ∀ target ∈ targets, Shaped Tree.IsPattern target := by
  intro target hm
  have found := Tree.isTarget_of_asTargets? children h targets ht target hm
  exact ⟨found.pattern rfl, found.shaped⟩

end

end JsxLowering
