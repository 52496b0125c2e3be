import DateRules.Yaml.Schema
import DateRules.Yaml.Symbol

/-!
# Nodes of a document

A document is a graph of nodes: scalars, sequences and mappings, each with a tag.
The nodes of a `Graph` are numbered, and a node holds its parts by their
numbers. An alias stands for the node with its anchor, which may be a node that
the alias is a part of. Each anchor is used once.

`Document.ofSymbols` puts the graph together from the symbols of a text that
holds at most one document. A fault of the text counts only when all symbols
before it are used up, so that a fault of the nodes before it comes first.

The functions that call each other take a bound on the number of calls that are
left.
-/

namespace DateRules

namespace Yaml

open Text (Codes)

/-- The number of a node. -/
abbrev NodeId := Nat

/-- What a node holds. -/
inductive Content where
  | scalar (text : Codes)
  | sequence (items : List NodeId)
  | mapping (entries : List (NodeId × NodeId))

/-- A part of a document. -/
structure Node where
  tag : Tag
  content : Content

/-- The node that stands where nothing is written. -/
def Node.empty : Node := ⟨.null, .scalar []⟩

/-- Nodes by their numbers. -/
abbrev Graph := Array Node

namespace Graph

/-- The node with a number. -/
def node (g : Graph) (id : NodeId) : Node := g[id]?.getD Node.empty

def tag (g : Graph) (id : NodeId) : Tag := (g.node id).tag

/-- The entries of a mapping. -/
def entries (g : Graph) (id : NodeId) : List (NodeId × NodeId) :=
  match (g.node id).content with
  | .mapping entries => entries
  | _ => []

/-- The graph with other content of a node. -/
def setContent (g : Graph) (id : NodeId) (content : Content) : Graph :=
  g.modify id fun node => { node with content := content }

/-- The graph with another tag of a node. -/
def setTag (g : Graph) (id : NodeId) (tag : Tag) : Graph :=
  g.modify id fun node => { node with tag := tag }

end Graph

/-- A graph and the node that is the whole document. -/
structure Document where
  graph : Graph
  root : NodeId

/-- What the handles of tags stand for. -/
abbrev Handles := List (String × String)

/-- The handles that need no directive. -/
def defaultHandles : Handles := [("!", "!"), ("!!", tagDomain)]

/-! ## Reading nodes -/

/-- What is known while nodes are read: the symbols that are left, the fault
after them, the handles of tags, the nodes so far and their anchors. -/
structure Draft where
  symbols : List Symbol
  fault : Option Fault
  handles : Handles
  anchors : List (String × NodeId)
  graph : Graph

/-- A step of reading nodes. -/
abbrev NodeReader (α : Type) := StateT Draft (Except Fault) α

/-- The next symbol, or none at the end of the text. -/
def peekSymbol : NodeReader (Option Symbol) := do
  let draft ← get
  match draft.symbols, draft.fault with
  | symbol :: _, _ => return some symbol
  | [], some fault => throw fault
  | [], none => return none

/-- Leaves out the next symbol. -/
def skipSymbol : NodeReader Unit :=
  modify fun draft => { draft with symbols := draft.symbols.drop 1 }

/-- Adds a node, under its anchor if it has one. -/
def addNode (anchor : Option String) (node : Node) : NodeReader NodeId := do
  let draft ← get
  let id := draft.graph.size
  match anchor with
  | none =>
      set { draft with graph := draft.graph.push node }
      return id
  | some name =>
      if draft.anchors.any (·.1 == name) then
        throw .malformed
      else
        set { draft with
          graph := draft.graph.push node
          anchors := (name, id) :: draft.anchors }
        return id

/-- Gives a node its content, and the node's number. -/
def completeNode (id : NodeId) (content : Content) : NodeReader NodeId := do
  modify fun draft => { draft with graph := draft.graph.setContent id content }
  return id

/-- The node with an anchor. -/
def aliasedNode (name : String) : NodeReader NodeId := do
  let draft ← get
  match draft.anchors.find? (·.1 == name) with
  | some (_, id) => return id
  | none => throw .malformed

/-- An anchor, if it is next. -/
def takeAnchor : NodeReader (Option String) := do
  match ← peekSymbol with
  | some (.anchor name) =>
      skipSymbol
      return some name
  | _ => return none

/-- A tag as written, if it is next: its handle, if it has one, and the rest. -/
def takeTag : NodeReader (Option (Option String × String)) := do
  match ← peekSymbol with
  | some (.tag handle suffix) =>
      skipSymbol
      return some (handle, suffix)
  | _ => return none

/-- What a node says about its tag. -/
inductive TagChoice where
  /-- Nothing. -/
  | unsaid
  /-- The tag that its form gives. -/
  | byForm
  | given (tag : Tag)

/-- What a tag as written says. Its handle must be known. -/
def tagChoice : Option (Option String × String) → NodeReader TagChoice
  | none => return .unsaid
  | some (none, suffix) => return if suffix == "!" then .byForm else .given (.ofText suffix)
  | some (some handle, suffix) => do
      match (← get).handles.find? (·.1 == handle) with
      | some entry => return .given (.ofText (entry.2 ++ suffix))
      | none => throw .malformed

/-- The anchor and the tag before a node. -/
structure Properties where
  anchor : Option String
  choice : TagChoice
  /-- Whether neither is there. -/
  absent : Bool

/-- The anchor and the tag before a node, in any order. -/
def takeProperties : NodeReader Properties := do
  match ← takeAnchor with
  | some name => do
      let tag ← takeTag
      return ⟨some name, ← tagChoice tag, false⟩
  | none => do
      match ← takeTag with
      | some tag => do
          let anchor ← takeAnchor
          return ⟨anchor, ← tagChoice (some tag), false⟩
      | none => return ⟨none, .unsaid, true⟩

/-- The tag of a scalar. A quoted scalar is text, unless its form is asked for. -/
def scalarTag (choice : TagChoice) (plain : Bool) (text : Codes) : Tag :=
  match choice with
  | .given tag => tag
  | .byForm => .ofPlain text
  | .unsaid => if plain then .ofPlain text else .str

/-- The tag of a sequence or a mapping. -/
def collectionTag (choice : TagChoice) (usual : Tag) : Tag :=
  match choice with
  | .given tag => tag
  | _ => usual

/-- Adds a sequence or a mapping without parts. -/
def addCollection (properties : Properties) (usual : Tag) (content : Content) :
    NodeReader NodeId :=
  addNode properties.anchor ⟨collectionTag properties.choice usual, content⟩

/-- Adds a scalar. -/
def addScalar (properties : Properties) (plain : Bool) (text : Codes) : NodeReader NodeId :=
  addNode properties.anchor ⟨scalarTag properties.choice plain text, .scalar text⟩

/-- Adds the scalar that stands where an anchor or a tag has no node. -/
def addMissing (properties : Properties) : NodeReader NodeId :=
  if properties.absent then throw .malformed else addScalar properties true []

/-- Whether the next symbol is one of some symbols. -/
def nextIsOf (symbols : List Symbol) : NodeReader Bool := do
  match ← peekSymbol with
  | some symbol => return symbols.contains symbol
  | none => return false

/-- Takes a symbol if it is next, and tells whether it was. -/
def takeSymbol (symbol : Symbol) : NodeReader Bool := do
  if ← nextIsOf [symbol] then
    skipSymbol
    return true
  else
    return false

mutual

/-- Reads a node. Blocks may begin only where `inBlock` says so, and a list at
the indent of its key only where `unindented` says so. -/
def readNode (inBlock unindented : Bool) : Nat → NodeReader NodeId
  | 0 => throw .malformed
  | left + 1 => do
      match ← peekSymbol with
      | some (.alias name) =>
          skipSymbol
          aliasedNode name
      | _ =>
          let properties ← takeProperties
          let next ← peekSymbol
          match next with
          | some (.scalar text plain) =>
              skipSymbol
              addScalar properties plain text
          | some .flowSequenceStart =>
              skipSymbol
              let id ← addCollection properties .seq (.sequence [])
              let items ← readFlowItems [] left
              completeNode id (.sequence items)
          | some .flowMappingStart =>
              skipSymbol
              let id ← addCollection properties .map (.mapping [])
              let entries ← readFlowEntries [] left
              completeNode id (.mapping entries)
          | some .blockEntry =>
              if unindented then
                let id ← addCollection properties .seq (.sequence [])
                let items ← readUnindentedItems [] left
                completeNode id (.sequence items)
              else
                addMissing properties
          | some .blockSequenceStart =>
              if inBlock then
                skipSymbol
                let id ← addCollection properties .seq (.sequence [])
                let items ← readBlockItems [] left
                completeNode id (.sequence items)
              else
                addMissing properties
          | some .blockMappingStart =>
              if inBlock then
                skipSymbol
                let id ← addCollection properties .map (.mapping [])
                let entries ← readBlockEntries [] left
                completeNode id (.mapping entries)
              else
                addMissing properties
          | _ => addMissing properties

/-- Reads a node, or nothing before one of the given symbols. -/
def readOptional (inBlock unindented : Bool) (enders : List Symbol) : Nat → NodeReader NodeId
  | 0 => throw .malformed
  | left + 1 => do
      if ← nextIsOf enders then addNode none .empty
      else readNode inBlock unindented left

/-- Reads the node after a symbol, or nothing before one of the given symbols or
where that symbol is not there. -/
def readAfter (symbol : Symbol) (inBlock unindented : Bool) (enders : List Symbol) :
    Nat → NodeReader NodeId
  | 0 => throw .malformed
  | left + 1 => do
      if ← takeSymbol symbol then readOptional inBlock unindented enders left
      else addNode none .empty

/-- Reads the items of an indented list up to its end, where `done` holds those
before, the last one first. -/
def readBlockItems (done : List NodeId) : Nat → NodeReader (List NodeId)
  | 0 => throw .malformed
  | left + 1 => do
      if ← takeSymbol .blockEntry then
        let item ← readOptional true false [.blockEntry, .blockEnd] left
        readBlockItems (item :: done) left
      else if ← takeSymbol .blockEnd then
        return done.reverse
      else
        throw .malformed

/-- Reads the items of a list that has the indent of its key. -/
def readUnindentedItems (done : List NodeId) : Nat → NodeReader (List NodeId)
  | 0 => throw .malformed
  | left + 1 => do
      if ← takeSymbol .blockEntry then
        let item ← readOptional true false [.blockEntry, .key, .value, .blockEnd] left
        readUnindentedItems (item :: done) left
      else
        return done.reverse

/-- Reads the entries of an indented mapping up to its end. -/
def readBlockEntries (done : List (NodeId × NodeId)) :
    Nat → NodeReader (List (NodeId × NodeId))
  | 0 => throw .malformed
  | left + 1 => do
      if ← takeSymbol .key then
        let key ← readOptional true true [.key, .value, .blockEnd] left
        let value ← readAfter .value true true [.key, .value, .blockEnd] left
        readBlockEntries ((key, value) :: done) left
      else if ← takeSymbol .blockEnd then
        return done.reverse
      else
        throw .malformed

/-- Reads the items of a list in brackets up to its end. After the first item a
comma comes before each further one. -/
def readFlowItems (done : List NodeId) : Nat → NodeReader (List NodeId)
  | 0 => throw .malformed
  | left + 1 => do
      if ← takeSymbol .flowSequenceEnd then
        return done.reverse
      else if done.isEmpty then
        let item ← readFlowItem left
        readFlowItems (item :: done) left
      else if ← takeSymbol .flowEntry then
        if ← takeSymbol .flowSequenceEnd then
          return done.reverse
        else
          let item ← readFlowItem left
          readFlowItems (item :: done) left
      else
        throw .malformed

/-- Reads an item of a list in brackets. A key begins a mapping of one entry. -/
def readFlowItem : Nat → NodeReader NodeId
  | 0 => throw .malformed
  | left + 1 => do
      if ← takeSymbol .key then
        let id ← addNode none ⟨.map, .mapping []⟩
        let key ← readOptional false false [.value, .flowEntry, .flowSequenceEnd] left
        let value ← readAfter .value false false [.flowEntry, .flowSequenceEnd] left
        completeNode id (.mapping [(key, value)])
      else
        readNode false false left

/-- Reads the entries of a mapping in braces up to its end. After the first
entry a comma comes before each further one. -/
def readFlowEntries (done : List (NodeId × NodeId)) :
    Nat → NodeReader (List (NodeId × NodeId))
  | 0 => throw .malformed
  | left + 1 => do
      if ← takeSymbol .flowMappingEnd then
        return done.reverse
      else if done.isEmpty then
        let entry ← readFlowEntry left
        readFlowEntries (entry :: done) left
      else if ← takeSymbol .flowEntry then
        if ← takeSymbol .flowMappingEnd then
          return done.reverse
        else
          let entry ← readFlowEntry left
          readFlowEntries (entry :: done) left
      else
        throw .malformed

/-- Reads an entry of a mapping in braces. An entry without the symbol of a key
has no value. -/
def readFlowEntry : Nat → NodeReader (NodeId × NodeId)
  | 0 => throw .malformed
  | left + 1 => do
      if ← takeSymbol .key then
        let key ← readOptional false false [.value, .flowEntry, .flowMappingEnd] left
        let value ← readAfter .value false false [.flowEntry, .flowMappingEnd] left
        return (key, value)
      else
        let key ← readNode false false left
        let value ← addNode none .empty
        return (key, value)

end

/-- Reads the directives of a document, with what is given before. There is at
most one version, and it must be 1; a handle is given once. The default handles
stand for themselves unless they are given. -/
def readDirectives (versionGiven : Bool) (given : Handles) : Nat → NodeReader Unit
  | 0 => throw .malformed
  | left + 1 => do
      match ← peekSymbol with
      | some (.version major) =>
          skipSymbol
          if versionGiven || major != 1 then throw .malformed
          readDirectives true given left
      | some (.handle name meaning) =>
          skipSymbol
          if given.any (·.1 == name) then throw .malformed
          readDirectives versionGiven ((name, meaning) :: given) left
      | some .directive =>
          skipSymbol
          readDirectives versionGiven given left
      | _ => modify fun draft => { draft with handles := given ++ defaultHandles }

/-- Whether a symbol begins a document or is a directive before one. -/
def Symbol.opensDocument : Symbol → Bool
  | .documentStart | .version _ | .handle _ _ | .directive => true
  | _ => false

/-- Reads the root of a document after its separator. -/
def readContent (left : Nat) : NodeReader NodeId := do
  match ← peekSymbol with
  | none => addNode none .empty
  | some symbol =>
      if symbol.opensDocument || symbol == .documentEnd then addNode none .empty
      else readNode true false left

/-- Reads the end of the text, before which only ends of documents are left. Of
a second document only the directives are read, since their faults come first. -/
def readEnd (calls : Nat) : Nat → NodeReader Unit
  | 0 => throw .malformed
  | left + 1 => do
      match ← peekSymbol with
      | none => return ()
      | some .documentEnd =>
          skipSymbol
          readEnd calls left
      | some _ =>
          readDirectives false [] calls
          throw .malformed

/-- Reads the root of the single document of a text, or nothing if there is
none. -/
def readRoot (calls : Nat) : NodeReader (Option NodeId) := do
  match ← peekSymbol with
  | none => return none
  | some symbol =>
      let root ←
        if symbol.opensDocument then do
          readDirectives false [] calls
          if ← takeSymbol .documentStart then readContent calls else throw .malformed
        else
          readNode true false calls
      readEnd calls calls
      return some root

/-- The document that the symbols of a text make up, or none if there is none. -/
def Document.ofSymbols (stream : SymbolStream) : Except Fault (Option Document) := do
  let draft : Draft :=
    { symbols := stream.symbols
      fault := stream.fault
      handles := defaultHandles
      anchors := []
      graph := #[] }
  let (root, draft) ← (readRoot (4 * stream.symbols.length + 4)).run draft
  return root.map fun root => ⟨draft.graph, root⟩

end Yaml

end DateRules
