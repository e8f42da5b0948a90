import TriggerGraph.Markup.Entity

/-!
# Trees of markup

An element keeps the raw contents of its opening tag, so that attributes survive, and whether it was
written with an empty tag.  Character data is kept escaped.
-/

namespace TriggerGraph.Markup

/-- The opening tag of an element. -/
structure Tag where
  /-- The name. -/
  name : String
  /-- The raw contents of the tag: the name, then the attributes. -/
  start : String
  /-- Whether the tag also closed the element. -/
  empty : Bool
  deriving DecidableEq

/-- A node of a tree. -/
inductive Node where
  | element (tag : Tag) (children : List Node)
  | text (raw : String)
  | cdata (raw : String)
  | comment (raw : String)

mutual

/-- Nodes can be compared. -/
def Node.decEq : (first second : Node) → Decidable (first = second)
  | .element tag children, .element tag' children' =>
      have := decEqAll children children'
      decidable_of_iff (tag = tag' ∧ children = children') (by rw [Node.element.injEq])
  | .text raw, .text raw' => decidable_of_iff (raw = raw') (by rw [Node.text.injEq])
  | .cdata raw, .cdata raw' => decidable_of_iff (raw = raw') (by rw [Node.cdata.injEq])
  | .comment raw, .comment raw' => decidable_of_iff (raw = raw') (by rw [Node.comment.injEq])
  | .element _ _, .text _ | .element _ _, .cdata _ | .element _ _, .comment _
  | .text _, .element _ _ | .text _, .cdata _ | .text _, .comment _
  | .cdata _, .element _ _ | .cdata _, .text _ | .cdata _, .comment _
  | .comment _, .element _ _ | .comment _, .text _ | .comment _, .cdata _ => .isFalse nofun

/-- Rows of nodes can be compared. -/
def Node.decEqAll : (first second : List Node) → Decidable (first = second)
  | [], [] => .isTrue rfl
  | node :: nodes, node' :: nodes' =>
      have := decEq node node'
      have := decEqAll nodes nodes'
      decidable_of_iff (node = node' ∧ nodes = nodes') (by rw [List.cons.injEq])
  | [], _ :: _ | _ :: _, [] => .isFalse nofun

end

instance : DecidableEq Node := Node.decEq

/-- An element by itself. -/
structure Element where
  /-- Its opening tag. -/
  tag : Tag
  /-- What it holds. -/
  children : List Node
  deriving DecidableEq

/-- A node that is an element. -/
def Node.toElement? : Node → Option Element
  | element tag children => some ⟨tag, children⟩
  | _ => none

namespace Element

/-- An element as a node. -/
def toNode (element : Element) : Node := .element element.tag element.children

/-- The name of an element. -/
def name (element : Element) : String := element.tag.name

/-- An element without attributes and contents. -/
def ofName (name : String) : Element := ⟨⟨name, name, false⟩, []⟩

/-- The text that a list of nodes holds at its own level. -/
def textOf : List Node → Except EntityFault String
  | [] => .ok ""
  | .text raw :: rest => do
      let first ← unescape raw
      return first ++ (← textOf rest)
  | .cdata raw :: rest => do return raw ++ (← textOf rest)
  | _ :: rest => textOf rest

/-- The text that an element holds at its own level. -/
def text (element : Element) : Except EntityFault String := textOf element.children

/-- The element with other children; it is no longer written with an empty tag. -/
def withChildren (element : Element) (children : List Node) : Element :=
  ⟨{ element.tag with empty := false }, children⟩

/-- Replace everything an element holds by a text. -/
def setText (element : Element) (text : String) : Element :=
  element.withChildren [.text (escape text)]

/-- An element that holds a text. -/
def ofText (name text : String) : Element := (ofName name).setText text

end Element

mutual

/-- A node as it is written, in front of what follows it. -/
def Node.write : Node → (after : List Char) → List Char
  | .element tag children, after =>
      if tag.empty && children.isEmpty then '<' :: (tag.start.toList ++ '/' :: '>' :: after)
      else
        '<' :: (tag.start.toList ++
          '>' :: writeAll children ('<' :: '/' :: (tag.name.toList ++ '>' :: after)))
  | .text raw, after => raw.toList ++ after
  | .cdata raw, after => "<![CDATA[".toList ++ (raw.toList ++ ("]]>".toList ++ after))
  | .comment raw, after => "<!--".toList ++ (raw.toList ++ ("-->".toList ++ after))

/-- Nodes one after the other, in front of what follows them. -/
def writeAll : List Node → (after : List Char) → List Char
  | [], after => after
  | node :: rest, after => node.write (writeAll rest after)

end

end TriggerGraph.Markup
