import CleanSvg.Markup.Reader

/-!
# Building a tree from events

The builder keeps the elements that are still open, the innermost first, and
the root once it is complete.  What is complete is attached to the innermost
open element; outside the root only white space may stand, and only one element.
-/

namespace CleanSvg

/-- An element that is still open; its content is in reverse order. -/
structure OpenElement where
  name : Text
  attributes : List Attribute
  behind : Content
deriving DecidableEq, Repr

/-- The element when nothing more comes inside. -/
def OpenElement.finish (element : OpenElement) : Element :=
  ⟨element.name, element.attributes, element.behind.reverse⟩

/-- Adds a node inside an open element, after the others. -/
def OpenElement.push (element : OpenElement) (node : Node) : OpenElement :=
  { element with behind := Content.cons node element.behind }

/-- A tree on the way. -/
structure Builder where
  opened : List OpenElement
  root : Option Element
deriving DecidableEq, Repr

namespace Builder

def start : Builder :=
  ⟨[], none⟩

def attach (builder : Builder) (element : Element) : Except ParseError Builder :=
  match builder.opened, builder.root with
  | parent :: outer, root => .ok ⟨parent.push (.element element) :: outer, root⟩
  | [], some _ => .error .multipleRoots
  | [], none => .ok ⟨[], some element⟩

def attachText (builder : Builder) (characters : Text) : Except ParseError Builder :=
  match builder.opened with
  | parent :: outer => .ok ⟨parent.push (.text characters) :: outer, builder.root⟩
  | [] => if Text.allBlank characters then .ok builder else .error .textOutsideRoot

def openElement (builder : Builder) (inside : Text) : Except ParseError Builder :=
  if builder.opened.isEmpty ∧ builder.root.isSome then .error .multipleRoots
  else do
    let element ← Tag.element inside
    .ok ⟨⟨element.name, element.attributes, .empty⟩ :: builder.opened, builder.root⟩

def closeElement (builder : Builder) : Except ParseError Builder :=
  match builder.opened with
  | [] => .error .unexpectedEnd
  | innermost :: outer => attach ⟨outer, builder.root⟩ innermost.finish

/-- Takes one event in. -/
def step (builder : Builder) : Event → Except ParseError Builder
  | .startTag inside => builder.openElement inside
  | .emptyTag inside => do builder.attach (← Tag.element inside)
  | .endTag _ => builder.closeElement
  | .text written => do
      builder.attachText (← (Reference.unescape written).mapError .malformedReference)
  | .characterData characters => builder.attachText characters
  | .passedOver => .ok builder

/-- The tree, once the text has come to its end. -/
def finish (builder : Builder) : Except ParseError Element :=
  match builder.opened, builder.root with
  | innermost :: _, _ => .error (.unclosed innermost.name)
  | [], some root => .ok root
  | [], none => .error .noRoot

/-- Builds on with the events that a reader still meets. -/
def run (builder : Builder) (reader : Reader) : Except ParseError Element :=
  match _ : reader.next? with
  | .error cause => .error (.malformedMarkup cause)
  | .ok none => builder.finish
  | .ok (some (event, after)) => do
      let next ← builder.step event
      run next after
termination_by reader.ahead.length
decreasing_by
  rename_i read
  exact Reader.next?_length read

end Builder

/-- The root element of a text of markup. -/
def Element.parse (text : Text) : Except ParseError Element :=
  Builder.start.run (Reader.ofText text)

end CleanSvg
