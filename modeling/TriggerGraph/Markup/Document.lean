import TriggerGraph.Markup.Node
import TriggerGraph.Markup.Piece
import TriggerGraph.Text.Utf8

/-!
# Documents

A document is a row of nodes, perhaps behind a declaration.  Reading puts the pieces of a text
together; writing gives every part back as it was read, except that document types and instructions
are lost.
-/

namespace TriggerGraph.Markup

/-- A document. -/
structure Document where
  /-- The version in the declaration, if there is a declaration. -/
  version : Option String
  /-- The nodes at the top level. -/
  nodes : List Node
  deriving DecidableEq

/-- Why a text is not a document. -/
inductive ParseError where
  | fault (cause : Fault)
  | neverClosed (name : String)
  deriving DecidableEq

/-- A document being read. -/
structure Builder where
  /-- The version read last. -/
  version : Option String
  /-- The open elements, the innermost first, each with the nodes before it. -/
  opened : List (Tag × List Node)
  /-- The nodes of the innermost open element, the latest first. -/
  nodes : List Node

namespace Builder

/-- Nothing has been read. -/
def start : Builder := ⟨none, [], []⟩

/-- Add a node in front of the earlier ones; character data joins character data. -/
def push (node : Node) (nodes : List Node) : List Node :=
  match node, nodes with
  | .text next, .text previous :: rest => .text (previous ++ next) :: rest
  | node, nodes => node :: nodes

/-- Add a node to the innermost open element. -/
def add (builder : Builder) (node : Node) : Builder :=
  { builder with nodes := push node builder.nodes }

/-- The tag with the given contents. -/
def tagOf (start : List Char) (empty : Bool) : Tag :=
  ⟨String.ofList (start.takeWhile fun c => !isSpace c), String.ofList start, empty⟩

/-- Close the innermost open element, which must have the given name. -/
def close (builder : Builder) (name : String) : Except Fault Builder :=
  match builder.opened with
  | [] => .error (.unmatchedEnd name)
  | (tag, before) :: opened =>
      if tag.name = name then
        .ok { builder with opened, nodes := push (.element tag builder.nodes.reverse) before }
      else .error (.mismatchedEnd tag.name name)

/-- Take up one piece. -/
def step (builder : Builder) : Piece → Except Fault Builder
  | .text raw => .ok (builder.add (.text (String.ofList raw)))
  | .opening start =>
      .ok { builder with
        opened := (tagOf start false, builder.nodes) :: builder.opened
        nodes := [] }
  | .empty start => .ok (builder.add (.element (tagOf start true) []))
  | .closing name => builder.close (String.ofList name)
  | .cdata raw => .ok (builder.add (.cdata (String.ofList raw)))
  | .comment raw => .ok (builder.add (.comment (String.ofList raw)))
  | .declaration version => .ok { builder with version := some (String.ofList version) }
  | .ignored => .ok builder
  | .fault cause => .error cause

/-- Take up pieces one after the other. -/
def steps (builder : Builder) : List Piece → Except Fault Builder
  | [] => .ok builder
  | piece :: rest =>
      match builder.step piece with
      | .error cause => .error cause
      | .ok builder => builder.steps rest

end Builder

namespace Document

/-- Read a document. -/
def parse (text : String) : Except ParseError Document :=
  match Builder.start.steps (scan (dropMark text.toList)) with
  | .error cause => .error (.fault cause)
  | .ok builder =>
      match builder.opened with
      | (tag, _) :: _ => .error (.neverClosed tag.name)
      | [] => .ok ⟨builder.version, builder.nodes.reverse⟩

/-- The declaration as it is written. -/
def declaration (version : Option String) : List Char :=
  match version with
  | some version => "<?xml version=\"".toList ++ version.toList ++ "\"?>".toList
  | none => []

/-- A document as it is written. -/
def write (document : Document) : String :=
  String.ofList (declaration document.version ++ writeAll document.nodes [])

/-! ## Paths -/

/-- The element at a path of child numbers. -/
def elementIn : List Node → List Nat → Option Element
  | _, [] => none
  | nodes, index :: path =>
      match (nodes[index]?).bind Node.toElement? with
      | none => none
      | some element =>
          match path with
          | [] => some element
          | _ :: _ => elementIn element.children path

/-- Change the element at a path; a path that leads to no element changes nothing. -/
def updateIn (f : Element → Element) : List Nat → List Node → List Node
  | [], nodes => nodes
  | index :: path, nodes =>
      nodes.modify index fun node =>
        match node with
        | .element tag children =>
            match path with
            | [] => (f ⟨tag, children⟩).toNode
            | _ :: _ => .element tag (updateIn f path children)
        | node => node

/-- The element at a path. -/
def element? (document : Document) (path : List Nat) : Option Element :=
  elementIn document.nodes path

/-- The document with the element at a path changed. -/
def update (document : Document) (path : List Nat) (f : Element → Element) : Document :=
  { document with nodes := updateIn f path document.nodes }

end Document
end TriggerGraph.Markup
