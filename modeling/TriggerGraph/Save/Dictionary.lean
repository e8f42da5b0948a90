import TriggerGraph.Markup.Document

/-!
# Dictionaries and level entries

A save document keeps its data in dictionaries: elements in which keys `<k>` and values take turns.
A level is a dictionary `<d>` with a value for its name.
-/

namespace TriggerGraph.Markup

namespace Element

/-- The children that are elements, with their positions. -/
def elements (element : Element) : List (Nat × Element) :=
  element.children.zipIdx.filterMap fun (node, index) => node.toElement?.map fun e => (index, e)

/-- Whether an element is the given key. -/
def isKey (key : String) (element : Element) : Bool :=
  element.name == "k" &&
    match element.text with
    | .ok text => text == key
    | .error _ => false

/-- The position of the element behind the first occurrence of a key. -/
def positionAfter (key : String) : List (Nat × Element) → Option Nat
  | [] => none
  | (_, element) :: rest =>
      if element.isKey key then rest.head?.map (·.1) else positionAfter key rest

/-- The position of the value of a key. -/
def valueIndex? (element : Element) (key : String) : Option Nat :=
  positionAfter key element.elements

/-- The value of a key. -/
def value? (element : Element) (key : String) : Option Element :=
  (element.valueIndex? key).bind fun index => (element.children[index]?).bind Node.toElement?

/-- Append an element to the children. -/
def append (element child : Element) : Element :=
  element.withChildren (element.children ++ [child.toNode])

/-- Replace the text in the value of a key, or append the key with a new value. -/
def setString (element : Element) (key text : String) : Element :=
  match element.valueIndex? key with
  | some index =>
      { element with
        children := element.children.modify index fun node =>
          match node with
          | .element tag children => (Element.setText ⟨tag, children⟩ text).toNode
          | node => node }
  | none => (element.append (.ofText "k" key)).append (.ofText "s" text)

/-- The key of a level's name. -/
def levelNameKey : String := "k2"

/-- The key of a level's payload. -/
def levelPayloadKey : String := "k4"

/-- Whether an element is a level. -/
def isLevel (element : Element) : Bool :=
  element.name == "d" && (element.value? levelNameKey).isSome

/-- The name of a level; a name that cannot be read counts as empty. -/
def levelName (element : Element) : String :=
  match element.value? levelNameKey with
  | none => ""
  | some value =>
      match value.text with
      | .ok text => text
      | .error _ => ""

end Element

namespace Document

mutual

/-- The paths from a node to the outermost levels in it. -/
def levelsIn : Node → List (List Nat)
  | .element tag children =>
      if Element.isLevel ⟨tag, children⟩ then [[]] else levelsFrom 0 children
  | _ => []

/-- The paths to the outermost levels in a row of nodes, the first of which has the given position.
-/
def levelsFrom (index : Nat) : List Node → List (List Nat)
  | [] => []
  | node :: rest => (levelsIn node).map (index :: ·) ++ levelsFrom (index + 1) rest

end

/-- The paths to all levels that lie in no other level, in order. -/
def levels (document : Document) : List (List Nat) := levelsFrom 0 document.nodes

end Document
end TriggerGraph.Markup
