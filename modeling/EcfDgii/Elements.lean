import EcfDgii.Markup

/-!
Documents as trees.

The tokens of a text are gathered into a tree of elements and characters, every
tag having to match.  An `Outline` says what a document is meant to hold:
elements with one value each, and elements of elements.  `Writes` relates a text
to the outlines that a reader finds in it; it goes with concatenation and with
nesting, so a document that is put together from pieces is read piece by piece.
`Stands` says which nodes the lines of a document stand for, space included;
`readSpaced_block` reads a whole document back as such nodes.
-/

set_option autoImplicit false

namespace EcfDgii.Elements

open EcfDgii.Markup

/-! ## Trees -/

/-- A character of data, or an element. -/
inductive Node
  | char (c : Char)
  | element (name : List Char) (children : List Node)

mutual

def Node.tokens : Node → List Token
  | .char c => [.char c]
  | .element name children => .opens name :: (tokensOf children ++ [.closes name])

def tokensOf : List Node → List Token
  | [] => []
  | node :: nodes => node.tokens ++ tokensOf nodes

end

/-- Gather tokens: what is complete at this level, and the elements still open
with what came before each of them. -/
def gather : List Token → List Node → List (List Char × List Node) → Option (List Node)
  | [], done, [] => some done
  | [], _, _ :: _ => none
  | .char c :: rest, done, stack => gather rest (done ++ [.char c]) stack
  | .opens name :: rest, done, stack => gather rest [] ((name, done) :: stack)
  | .closes _ :: _, _, [] => none
  | .closes name :: rest, done, (top, before) :: stack =>
    if name = top then gather rest (before ++ [.element top done]) stack else none

/-- The text behind `?>`. -/
def afterDeclaration : List Char → List Char
  | '?' :: '>' :: rest => rest
  | _ :: rest => afterDeclaration rest
  | [] => []

/-- The text behind the XML declaration, if it begins with one. -/
def undeclared : List Char → List Char
  | '<' :: '?' :: rest => afterDeclaration rest
  | text => text

/-- A document: a declaration or none, and one element. -/
def readDocument (entity : List Char → Option (List Char)) (text : List Char) : Option Node :=
  match (read entity (undeclared text)).bind fun tokens => gather tokens [] [] with
  | some [.element name children] => some (.element name children)
  | _ => none

mutual

theorem gather_node (node : Node) (rest : List Token) (done : List Node)
    (stack : List (List Char × List Node)) :
    gather (node.tokens ++ rest) done stack = gather rest (done ++ [node]) stack := by
  cases node with
  | char c => rfl
  | element name children =>
    rw [Node.tokens, List.cons_append, List.append_assoc, gather, gather_tokensOf children,
      List.nil_append, List.singleton_append, gather, if_pos rfl]

theorem gather_tokensOf (nodes : List Node) (rest : List Token) (done : List Node)
    (stack : List (List Char × List Node)) :
    gather (tokensOf nodes ++ rest) done stack = gather rest (done ++ nodes) stack := by
  cases nodes with
  | nil => rw [tokensOf, List.nil_append, List.append_nil]
  | cons node nodes =>
    rw [tokensOf, List.append_assoc, gather_node node, gather_tokensOf nodes, List.append_assoc,
      List.singleton_append]

end

theorem tokensOf_append (first second : List Node) :
    tokensOf (first ++ second) = tokensOf first ++ tokensOf second := by
  induction first with
  | nil => rfl
  | cons node nodes ih => rw [List.cons_append, tokensOf, ih, tokensOf, List.append_assoc]

theorem tokensOf_chars (cs : List Char) : tokensOf (cs.map .char) = cs.map .char := by
  induction cs with
  | nil => rfl
  | cons c cs ih => rw [List.map_cons, List.map_cons, tokensOf, ih, Node.tokens, List.singleton_append]

/-! ## Outlines -/

/-- What is meant: an element with a value, or one with elements in it. -/
inductive Outline (α : Type)
  | leaf (name : String) (content : α)
  | group (name : String) (parts : List (Outline α))

section

variable {α : Type}

mutual

/-- The values of an outline, in order. -/
def Outline.contents : Outline α → List α
  | .leaf _ content => [content]
  | .group _ parts => contentsOf parts

def contentsOf : List (Outline α) → List α
  | [] => []
  | part :: parts => part.contents ++ contentsOf parts

end

def Outline.name : Outline α → String
  | .leaf name _ => name
  | .group name _ => name

variable (render : α → List Char)

mutual

/-- The element of an outline whose values are written. -/
def Outline.node : Outline α → Node
  | .leaf name content => .element name.toList ((render content).map .char)
  | .group name parts => .element name.toList (nodesOf parts)

def nodesOf : List (Outline α) → List Node
  | [] => []
  | part :: parts => part.node :: nodesOf parts

end

theorem nodesOf_append (first second : List (Outline α)) :
    nodesOf render (first ++ second) = nodesOf render first ++ nodesOf render second := by
  induction first with
  | nil => rfl
  | cons part parts ih => rw [List.cons_append, nodesOf, ih, nodesOf, List.cons_append]

variable {render}

theorem chars_inj {cs ds : List Char} : cs.map Node.char = ds.map Node.char ↔ cs = ds :=
  List.map_inj_right fun _ _ same => Node.char.inj same

mutual

/-- The element of an outline shows how each value is written. -/
theorem node_inj {other : α → List Char} (part : Outline α) :
    part.node render = part.node other ↔
      ∀ content ∈ part.contents, render content = other content := by
  cases part with
  | leaf name content =>
    simp only [Outline.node, Node.element.injEq, true_and, chars_inj, Outline.contents,
      List.mem_singleton, forall_eq]
  | group name parts =>
    simp only [Outline.node, Node.element.injEq, true_and, Outline.contents]
    exact nodesOf_inj parts

theorem nodesOf_inj {other : α → List Char} (parts : List (Outline α)) :
    nodesOf render parts = nodesOf other parts ↔
      ∀ content ∈ contentsOf parts, render content = other content := by
  cases parts with
  | nil => simp [nodesOf, contentsOf]
  | cons part parts =>
    rw [nodesOf, nodesOf, List.cons.injEq, node_inj part, nodesOf_inj parts, contentsOf,
      List.forall_mem_append]

end

/-! ## Looking up -/

def Node.children : Node → List Node
  | .char _ => []
  | .element _ children => children

/-- The characters that stand in an element. -/
def Node.text (node : Node) : List Char := node.children.filterMap fun
  | .char c => some c
  | .element _ _ => none

def Node.isNamed (name : String) : Node → Bool
  | .char _ => false
  | .element own _ => own = name.toList

/-- The first element of a name in an element. -/
def Node.child (node : Node) (name : String) : Option Node :=
  node.children.find? (Node.isNamed name)

/-- The first part of a name. -/
def Outline.part : Outline α → String → Option (Outline α)
  | .leaf _ _, _ => none
  | .group _ parts, name => parts.find? fun part => part.name = name

theorem isNamed_node (name : String) (part : Outline α) :
    (part.node render).isNamed name = decide (part.name = name) := by
  cases part <;> exact decide_eq_decide.mpr String.toList_inj

theorem find_nodesOf (name : String) (parts : List (Outline α)) :
    (nodesOf render parts).find? (Node.isNamed name) =
      (parts.find? fun part => part.name = name).map (Outline.node render) := by
  induction parts with
  | nil => rfl
  | cons part parts ih =>
    rw [nodesOf, List.find?_cons, List.find?_cons, isNamed_node]
    cases decide (part.name = name)
    · exact ih
    · rfl

theorem child_node (part : Outline α) (name : String) :
    (part.node render).child name = (part.part name).map (Outline.node render) := by
  cases part with
  | leaf own content =>
    have none : (((render content).map Node.char).find? (Node.isNamed name)) = none := by
      rw [List.find?_eq_none]
      intro node member
      obtain ⟨c, -, rfl⟩ := List.mem_map.mp member
      exact Bool.false_ne_true
    exact none
  | group own parts => exact find_nodesOf name parts

theorem text_leaf (name : String) (content : α) :
    ((Outline.leaf name content).node render).text = render content := by
  simp only [Outline.node, Node.text, Node.children, List.filterMap_map]
  exact List.filterMap_some

/-! ## Reading what was written -/

variable (entity : List Char → Option (List Char))

/-- A text in which a reader sees some tokens, wherever it stands. -/
def Sees (text : List Char) (tokens : List Token) : Prop :=
  ∀ (seen : List Token) (brackets : ℕ), ∃ brackets',
    run entity ⟨seen, .data brackets⟩ text = some ⟨seen ++ tokens, .data brackets'⟩

variable {entity}

theorem Sees.nil : Sees entity [] [] := by
  intro seen brackets
  exact ⟨brackets, by rw [run_nil, List.append_nil]⟩

theorem Sees.append {first second : List Char} {left right : List Token}
    (before : Sees entity first left) (after : Sees entity second right) :
    Sees entity (first ++ second) (left ++ right) := by
  intro seen brackets
  obtain ⟨middle, leftRead⟩ := before seen brackets
  obtain ⟨last, rightRead⟩ := after (seen ++ left) middle
  exact ⟨last, by rw [run_append, leftRead, Option.bind_some, rightRead, List.append_assoc]⟩

theorem Sees.flatMap {β : Type} {items : List β} {text : β → List Char} {tokens : β → List Token}
    (each : ∀ item ∈ items, Sees entity (text item) (tokens item)) :
    Sees entity (items.flatMap text) (items.flatMap tokens) := by
  induction items with
  | nil => exact .nil
  | cons item items ih =>
    rw [List.flatMap_cons, List.flatMap_cons]
    exact (each item List.mem_cons_self).append
      (ih fun later member => each later (List.mem_cons_of_mem item member))

/-- A character that stands for itself. -/
theorem Sees.char {c : Char} (less : c ≠ '<') (amp : c ≠ '&') (greater : c ≠ '>') :
    Sees entity [c] [.char c] := by
  intro seen brackets
  exact ⟨if c = ']' then brackets + 1 else 0, by simp [run, step, less, amp, greater]⟩

theorem Sees.reference {name cs : List Char} (known : entity name = some cs)
    (inside : ∀ c ∈ name, c ≠ ';' ∧ c ≠ '<' ∧ c ≠ '&') :
    Sees entity ('&' :: (name ++ [';'])) (cs.map .char) := by
  intro seen brackets
  exact ⟨0, run_reference seen brackets name [] known inside⟩

theorem Sees.element {name : String} (named : isName name.toList = true) {text : List Char}
    {tokens : List Token} (sees : Sees entity text tokens) :
    Sees entity (openTag name ++ (text ++ closeTag name))
      (.opens name.toList :: (tokens ++ [.closes name.toList])) := by
  have opens : Sees entity (openTag name) [.opens name.toList] := by
    intro seen brackets
    have tag : run entity _ _ = _ := run_openTag named seen brackets []
    rw [List.append_nil] at tag
    exact ⟨0, tag⟩
  have closes : Sees entity (closeTag name) [.closes name.toList] := by
    intro seen brackets
    have tag : run entity _ _ = _ := run_closeTag named seen brackets []
    rw [List.append_nil] at tag
    exact ⟨0, tag⟩
  exact opens.append (sees.append closes)

variable (render entity)

/-- A text in which a reader finds some elements. -/
def Writes (text : List Char) (parts : List (Outline α)) : Prop :=
  Sees entity text (tokensOf (nodesOf render parts))

variable {render entity}

theorem Writes.nil : Writes render entity [] [] := Sees.nil

theorem Writes.append {first second : List Char} {left right : List (Outline α)}
    (before : Writes render entity first left) (after : Writes render entity second right) :
    Writes render entity (first ++ second) (left ++ right) := by
  rw [Writes, nodesOf_append, tokensOf_append]
  exact Sees.append before after

theorem Writes.flatMap {β : Type} {items : List β} {text : β → List Char}
    {parts : β → List (Outline α)}
    (each : ∀ item ∈ items, Writes render entity (text item) (parts item)) :
    Writes render entity (items.flatMap text) (items.flatMap parts) := by
  induction items with
  | nil => exact .nil
  | cons item items ih =>
    rw [List.flatMap_cons, List.flatMap_cons]
    exact (each item List.mem_cons_self).append
      (ih fun later member => each later (List.mem_cons_of_mem item member))

theorem Writes.leaf {name : String} (named : isName name.toList = true) {content : α}
    {text : List Char} (sees : Sees entity text ((render content).map .char)) :
    Writes render entity (openTag name ++ (text ++ closeTag name)) [.leaf name content] := by
  rw [← tokensOf_chars] at sees
  rw [Writes, nodesOf, nodesOf, tokensOf, tokensOf, List.append_nil, Outline.node, Node.tokens]
  exact sees.element named

theorem Writes.group {name : String} (named : isName name.toList = true) {text : List Char}
    {parts : List (Outline α)} (writes : Writes render entity text parts) :
    Writes render entity (openTag name ++ (text ++ closeTag name)) [.group name parts] := by
  rw [Writes, nodesOf, nodesOf, tokensOf, tokensOf, List.append_nil, Outline.node, Node.tokens]
  exact Sees.element named writes

/-- **A document that was written is read back.** -/
theorem readDocument_of_writes {text : List Char} {name : String} {parts : List (Outline α)}
    (writes : Writes render entity (undeclared text) [.group name parts]) :
    readDocument entity text = some ((Outline.group name parts).node render) := by
  obtain ⟨brackets, whole⟩ := writes [] 0
  have gathered := gather_tokensOf (nodesOf render [.group name parts]) [] [] []
  rw [List.append_nil] at gathered
  rw [readDocument, Markup.read, whole]
  simp only [List.nil_append, Option.bind_some, gathered]
  rfl

end

/-! ## Space between elements -/

/-- White space. -/
def Node.isSpace : Node → Bool
  | .char c => c = ' ' || c = '\t' || c = '\n' || c = '\r'
  | .element _ _ => false

/-- A document with space around its element. -/
def readSpaced (entity : List Char → Option (List Char)) (text : List Char) : Option Node :=
  match ((read entity (undeclared text)).bind fun tokens => gather tokens [] []).map
    (List.filter fun node => !node.isSpace) with
  | some [.element name children] => some (.element name children)
  | _ => none

section

variable (entity : List Char → Option (List Char))

/-- A text in which a reader finds some nodes. -/
def Holds (text : List Char) (nodes : List Node) : Prop := Sees entity text (tokensOf nodes)

variable {entity}

theorem Holds.append {first second : List Char} {left right : List Node}
    (before : Holds entity first left) (after : Holds entity second right) :
    Holds entity (first ++ second) (left ++ right) := by
  rw [Holds, tokensOf_append]
  exact Sees.append before after

/-- Data is read as what its references and characters stand for. -/
theorem Holds.data {text cs : List Char} (sees : Sees entity text (cs.map .char)) :
    Holds entity text (cs.map .char) := by
  rw [Holds, tokensOf_chars]
  exact sees

/-- Characters that stand for themselves. -/
theorem Sees.plain {cs : List Char} (plain : ∀ c ∈ cs, c ≠ '<' ∧ c ≠ '&' ∧ c ≠ '>') :
    Sees entity cs (cs.map .char) := by
  have each : Sees entity (cs.flatMap fun c => [c]) (cs.flatMap fun c => [.char c]) :=
    Sees.flatMap fun c member => .char (plain c member).1 (plain c member).2.1 (plain c member).2.2
  rwa [List.flatMap_singleton', ← List.map_eq_flatMap] at each

theorem Holds.element {name : String} (named : isName name.toList = true) {text : List Char}
    {children : List Node} (holds : Holds entity text children) :
    Holds entity (openTag name ++ (text ++ closeTag name)) [.element name.toList children] := by
  rw [Holds, tokensOf, tokensOf, List.append_nil, Node.tokens]
  exact Sees.element named holds

/-- A document is read back when all but one of its nodes are space. -/
theorem readSpaced_of_holds {text : List Char} {nodes children : List Node} {name : List Char}
    (holds : Holds entity (undeclared text) nodes)
    (alone : nodes.filter (fun node => !node.isSpace) = [.element name children]) :
    readSpaced entity text = some (.element name children) := by
  obtain ⟨brackets, whole⟩ := holds [] 0
  have gathered := gather_tokensOf nodes [] [] []
  rw [List.append_nil] at gathered
  rw [readSpaced, Markup.read, whole]
  simp only [List.nil_append, Option.bind_some, gathered, gather, Option.map_some, alone]

/-- Data in front of elements is passed over by a search for one. -/
theorem find_skips_data (cs : List Char) (nodes : List Node) (name : String) :
    (cs.map Node.char ++ nodes).find? (Node.isNamed name) = nodes.find? (Node.isNamed name) := by
  induction cs with
  | nil => rfl
  | cons c cs ih => exact ih

theorem text_data (name cs : List Char) : (Node.element name (cs.map .char)).text = cs := by
  rw [Node.text, Node.children, List.filterMap_map]
  exact List.filterMap_some

end

/-! ## Lines as nodes -/

section

variable (kept : List Char → List Char)

/-- Lines that stand for some nodes. -/
def Stands (lines : List Line) (nodes : List Node) : Prop := tokens kept lines = tokensOf nodes

variable {kept}

theorem Stands.nil : Stands kept [] [] := rfl

theorem Stands.append {first second : List Line} {left right : List Node}
    (before : Stands kept first left) (after : Stands kept second right) :
    Stands kept (first ++ second) (left ++ right) := by
  rw [Stands, tokens_append, tokensOf_append, before, after]

/-- The nodes around and of an element on lines of its own. -/
def ownLine (indent : ℕ) (name : String) (children : List Node) : List Node :=
  (blanks indent).map .char ++ [.element name.toList children, .char '\n']

theorem stands_element (indent : ℕ) (name : String) (content : Content) :
    Stands kept [.element indent name content]
      (ownLine indent name ((content.meant kept).map .char)) := by
  rw [Stands, ownLine, tokensOf_append, tokensOf_chars]
  simp only [tokens_cons, tokens_nil, Line.tokens, tokensOf, Node.tokens, tokensOf_chars,
    List.append_nil, List.append_assoc, List.cons_append, List.nil_append]

theorem Stands.block {inner : List Line} {nodes : List Node} (stands : Stands kept inner nodes)
    (indent : ℕ) (name : String) :
    Stands kept (block indent name inner)
      (ownLine indent name (.char '\n' :: (nodes ++ (blanks indent).map .char))) := by
  rw [Stands, ownLine, tokensOf_append, tokensOf_chars, Markup.block]
  simp only [tokens_cons, tokens_append, tokens_nil, Line.tokens, tokensOf, Node.tokens,
    tokensOf_append, tokensOf_chars, stands.symm, List.append_nil, List.append_assoc,
    List.cons_append, List.nil_append]

/-- Lines in which every element is closed stand for nodes. -/
theorem exists_stands (kept : List Char → List Char) {lines : List Line} (nested : Nested lines) :
    ∃ nodes, Stands kept lines nodes := by
  induction nested with
  | nil => exact ⟨[], .nil⟩
  | element indent content named => exact ⟨_, stands_element indent _ content⟩
  | block indent named _ ih => exact ⟨_, ih.choose_spec.block indent _⟩
  | append _ _ left right => exact ⟨_, left.choose_spec.append right.choose_spec⟩

/-- A search passes over the line of another element. -/
theorem find_ownLine_other {own name : String} (other : own ≠ name) (indent : ℕ)
    (children rest : List Node) :
    (ownLine indent own children ++ rest).find? (Node.isNamed name) =
      rest.find? (Node.isNamed name) := by
  have passed : Node.isNamed name (.element own.toList children) = false :=
    decide_eq_false fun same => other (String.toList_inj.mp same)
  rw [ownLine, List.append_assoc, find_skips_data, List.cons_append, List.cons_append,
    List.nil_append, List.find?_cons_of_neg (by simp [passed]),
    List.find?_cons_of_neg (by simp [Node.isNamed])]

theorem find_ownLine (indent : ℕ) (name : String) (children rest : List Node) :
    (ownLine indent name children ++ rest).find? (Node.isNamed name) =
      some (.element name.toList children) := by
  rw [ownLine, List.append_assoc, find_skips_data, List.cons_append]
  exact List.find?_cons_of_pos (by simp [Node.isNamed])

variable {entity : List Char → Option (List Char)} {escape : List Char → List Char}

/-- Lines that hold no markup of their own are read as what they stand for. -/
theorem holds_text (reads : ∀ cs, Reads entity (escape cs) (kept cs)) {lines : List Line}
    (named : ∀ line ∈ lines, isName line.name.toList = true) (plain : PlainLines lines)
    {nodes : List Node} (stands : Stands kept lines nodes) :
    Holds entity ('\n' :: Markup.text escape lines) (.char '\n' :: nodes) := by
  intro seen brackets
  refine ⟨0, ?_⟩
  rw [run_newline, run_text reads named plain, tokensOf, Node.tokens, ← stands, List.append_assoc,
    List.singleton_append]

/-- A document of one block is read as its element. -/
theorem readSpaced_block (reads : ∀ cs, Reads entity (escape cs) (kept cs)) {name : String}
    {inner : List Line} (named : ∀ line ∈ block 0 name inner, isName line.name.toList = true)
    (plain : PlainLines (block 0 name inner)) {nodes : List Node} (stands : Stands kept inner nodes)
    {written : List Char}
    (text : undeclared written = '\n' :: Markup.text escape (block 0 name inner)) :
    readSpaced entity written = some (.element name.toList (.char '\n' :: (nodes ++ []))) :=
  readSpaced_of_holds (text ▸ holds_text reads named plain (stands.block 0 name)) rfl

end

end EcfDgii.Elements
