import CleanSvg.Text.CaseFold
import CleanSvg.Text.Lowercase

/-!
# Trees of elements

An element has a name, attributes and content.  Content is a sequence of texts
and elements in document order, and it is one recursive type: what follows a
node is content again, and so is what stands inside an element.  Hence one
recursion over content visits a whole tree.
-/

namespace CleanSvg

/-- An attribute, its name as it was written. -/
structure Attribute where
  name : Text
  value : Text
deriving DecidableEq, Repr

/-- What stands between a start tag and its end tag, in document order. -/
inductive Content
  /-- Nothing more. -/
  | empty
  /-- A text and what comes after it. -/
  | text (characters : Text) (after : Content)
  /-- An element and what comes after it. -/
  | element (name : Text) (attributes : List Attribute) (inner after : Content)
deriving DecidableEq, Repr

/-- An element, its name as it was written. -/
structure Element where
  name : Text
  attributes : List Attribute
  content : Content
deriving DecidableEq, Repr

/-- One member of content. -/
inductive Node
  | text (characters : Text)
  | element (element : Element)
deriving DecidableEq, Repr

namespace Content

def cons : Node → Content → Content
  | .text characters, after => .text characters after
  | .element child, after => .element child.name child.attributes child.content after

/-- The members of content, in order. -/
def nodes : Content → List Node
  | .empty => []
  | .text characters after => .text characters :: after.nodes
  | .element name attributes inner after => .element ⟨name, attributes, inner⟩ :: after.nodes

def ofNodes (nodes : List Node) : Content :=
  nodes.foldr cons .empty

@[simp] theorem nodes_cons (node : Node) (after : Content) :
    (cons node after).nodes = node :: after.nodes := by
  cases node <;> rfl

@[simp] theorem nodes_ofNodes (members : List Node) : (ofNodes members).nodes = members := by
  induction members with
  | nil => rfl
  | cons node members induction =>
      show (cons node (ofNodes members)).nodes = _
      rw [nodes_cons, induction]

@[simp] theorem ofNodes_nodes (content : Content) : ofNodes content.nodes = content := by
  induction content with
  | empty => rfl
  | text characters after induction =>
      show Content.text characters (ofNodes after.nodes) = _
      rw [induction]
  | element name attributes inner after _ induction =>
      show Content.element name attributes inner (ofNodes after.nodes) = _
      rw [induction]

def append : Content → Content → Content
  | .empty, last => last
  | .text characters after, last => .text characters (after.append last)
  | .element name attributes inner after, last =>
      .element name attributes inner (after.append last)

instance : Append Content where
  append := append

@[simp] theorem nodes_append (first last : Content) :
    (first ++ last).nodes = first.nodes ++ last.nodes := by
  induction first with
  | empty => rfl
  | text characters after induction =>
      exact congrArg (Node.text characters :: ·) induction
  | element name attributes inner after _ induction =>
      exact congrArg (Node.element ⟨name, attributes, inner⟩ :: ·) induction

/-- Puts the members of content before `last`, the last member first. -/
def reverseOnto : Content → Content → Content
  | .empty, last => last
  | .text characters after, last => after.reverseOnto (.text characters last)
  | .element name attributes inner after, last =>
      after.reverseOnto (.element name attributes inner last)

def reverse (content : Content) : Content :=
  content.reverseOnto .empty

theorem nodes_reverseOnto (content last : Content) :
    (content.reverseOnto last).nodes = content.nodes.reverse ++ last.nodes := by
  induction content generalizing last with
  | empty => rfl
  | text characters after induction => simp [reverseOnto, nodes, induction]
  | element name attributes inner after _ induction => simp [reverseOnto, nodes, induction]

@[simp] theorem nodes_reverse (content : Content) :
    content.reverse.nodes = content.nodes.reverse := by
  simp [reverse, nodes_reverseOnto, nodes]

/-- The text of content and of everything inside its elements. -/
def textContent : Content → Text
  | .empty => []
  | .text characters after => characters ++ after.textContent
  | .element _ _ inner after => inner.textContent ++ after.textContent

/-- The elements among the members of content. -/
def elements : Content → List Element
  | .empty => []
  | .text _ after => after.elements
  | .element name attributes inner after => ⟨name, attributes, inner⟩ :: after.elements

/-- Content that is a single text, or nothing at all when the text is empty. -/
def ofText : Text → Content
  | [] => .empty
  | character :: characters => .text (character :: characters) .empty

end Content

namespace Element

/-- An element with a name and nothing else. -/
def named (name : Text) : Element :=
  ⟨name, [], .empty⟩

/-- The name in lower case, by which an element is judged. -/
def tag (element : Element) : Text :=
  Text.lowercase element.name

/-- The value of the first attribute of a name, the case of ASCII letters aside. -/
def attribute? (element : Element) (name : Text) : Option Text :=
  (element.attributes.find? fun candidate =>
    Text.equalsIgnoringAsciiCase candidate.name name).map Attribute.value

/-- The text of everything inside an element. -/
def textContent (element : Element) : Text :=
  element.content.textContent

def childElements (element : Element) : List Element :=
  element.content.elements

/-- Replaces everything inside an element by a text. -/
def setText (element : Element) (text : Text) : Element :=
  { element with content := .ofText text }

end Element

end CleanSvg
