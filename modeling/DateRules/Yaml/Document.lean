import DateRules.Yaml.Merge

/-!
# Values of documents

`Document.value` gives the value that a document holds, and `readDocument` the
value of a whole text.

Every node makes one object. The objects of sequences and mappings are made
empty and filled later, in the order in which they were made; so a document may
be a part of itself, and the fault nearest to the root comes first. A value is
the tree that an object unfolds to. An object that is a part of itself unfolds
without end, and is cut off where nothing looks.
-/

namespace DateRules

namespace Yaml

open Text (Codes)

/-- What a node makes. The parts of it are given by their nodes. -/
inductive Object where
  | scalar (value : Value)
  | list (items : List NodeId)
  | pairs (items : List (NodeId × NodeId))
  | map (entries : List (NodeId × NodeId))
  | set (members : List NodeId)

/-- The objects that are made, and the nodes whose objects are not filled yet, the
last one first. The graph has at most `merges` entries with merge keys. -/
structure Workshop where
  graph : Graph
  merges : Nat
  objects : Array (Option Object)
  waiting : List NodeId

namespace Workshop

/-- The object of a node, if it is made. -/
def object? (w : Workshop) (id : NodeId) : Option Object := (w.objects[id]?).join

/-- Puts the object of a node. -/
def put (w : Workshop) (id : NodeId) (object : Object) : Workshop :=
  { w with objects := w.objects.setIfInBounds id (some object) }

/-- Puts an object that is to be filled. -/
def begin (w : Workshop) (id : NodeId) (object : Object) : Workshop :=
  { w.put id object with waiting := id :: w.waiting }

end Workshop

/-- The text that a node has as a scalar: its own, or the one under the key that
stands for a mapping. A path of such keys that is longer than the number of
nodes has no end. -/
def Graph.scalarText (g : Graph) (id : NodeId) : Nat → Except Fault Codes
  | 0 => .error .endless
  | nodes + 1 =>
      match (g.node id).content with
      | .scalar text => .ok text
      | .sequence _ => .error .malformed
      | .mapping entries =>
          match entries.find? fun entry => g.tag entry.1 == .value with
          | some (_, source) => g.scalarText source nodes
          | none => .error .malformed

/-- The date that a node writes. A text that stands for a mapping is none. -/
def timeOf (node : Node) (text : Codes) : Except Fault Value :=
  match node.content with
  | .mapping _ => .error .noTimeText
  | _ => time text

/-- The value of a node with a tag for scalars. -/
def scalarValue (node : Node) (text : Codes) : Except Fault Value :=
  match node.tag with
  | .str => .ok (.ofCodes text)
  | .int => (integer text).map .int
  | .float => (real text).map .float
  | .bool => (truth text).map .bool
  | .null => .ok .null
  | .timestamp => timeOf node text
  | .binary => (binary text).map .bytes
  | _ => .error .malformed

/-- Whether a tag is one for scalars. -/
def Tag.isScalar : Tag → Bool
  | .str | .int | .float | .bool | .null | .timestamp | .binary => true
  | _ => false

namespace Workshop

/-- Makes the object of a node, unless it is made already. -/
def make (w : Workshop) (id : NodeId) : Except Fault Workshop :=
  if (w.object? id).isSome then .ok w
  else
    match w.graph.tag id with
    | .seq => .ok (w.begin id (.list []))
    | .pairs => .ok (w.begin id (.pairs []))
    | .map => .ok (w.begin id (.map []))
    | .set => .ok (w.begin id (.set []))
    | tag =>
        if tag.isScalar then do
          let text ← w.graph.scalarText id (w.graph.size + 1)
          let value ← scalarValue (w.graph.node id) text
          .ok (w.put id (.scalar value))
        else
          .error .malformed

/-- Whether a node is the word for no number. -/
def isNoNumber (w : Workshop) (id : NodeId) : Bool :=
  w.graph.tag id == .float &&
    match w.graph.scalarText id (w.graph.size + 1) with
    | .ok text => isNoNumberWord text
    | .error _ => false

/-- Whether two nodes are the same key. -/
def sameKey (w : Workshop) (a b : NodeId) : Bool :=
  a == b ||
    match w.object? a, w.object? b with
    | some (.scalar x), some (.scalar y) => x.sameKey y || (w.isNoNumber a && w.isNoNumber b)
    | _, _ => false

/-- Entries with one more: a key that is there already keeps its place and takes
the new value. -/
def putEntry (w : Workshop) (entries : List (NodeId × NodeId)) (key value : NodeId) :
    List (NodeId × NodeId) :=
  if entries.any fun entry => w.sameKey entry.1 key then
    entries.map fun entry => if w.sameKey entry.1 key then (entry.1, value) else entry
  else
    entries ++ [(key, value)]

/-- Makes a key, which must be a scalar. -/
def makeKey (w : Workshop) (id : NodeId) : Except Fault Workshop := do
  let w ← w.make id
  match w.object? id with
  | some (.scalar _) => .ok w
  | _ => .error .malformed

/-- Makes the keys and the values of a mapping, into which others are merged
first. Of two values with one key the last counts. -/
def makeEntries (w : Workshop) (id : NodeId) :
    Except Fault (Workshop × List (NodeId × NodeId)) :=
  match (w.graph.node id).content with
  | .mapping _ => do
      let graph := w.graph
      let w := { w with graph := #[] }
      let graph ← graph.merge id w.merges
      let entries := graph.entries id
      let w ← entries.foldlM
        (fun (w : Workshop) entry => do (← w.makeKey entry.1).make entry.2)
        { w with graph := graph }
      .ok (w, entries.foldl (fun done entry => w.putEntry done entry.1 entry.2) [])
  | _ => .error .malformed

/-- Makes the single entry of each item of a list of mappings. -/
def makePairs (w : Workshop) (done : List (NodeId × NodeId)) :
    List NodeId → Except Fault (Workshop × List (NodeId × NodeId))
  | [] => .ok (w, done.reverse)
  | item :: items =>
      match (w.graph.node item).content with
      | .mapping [(key, value)] =>
          match w.make key with
          | .error fault => .error fault
          | .ok w =>
              match w.make value with
              | .error fault => .error fault
              | .ok w => makePairs w ((key, value) :: done) items
      | _ => .error .malformed

/-- Fills the object of a node. -/
def fill (w : Workshop) (id : NodeId) : Except Fault Workshop :=
  let node := w.graph.node id
  match node.tag, node.content with
  | .seq, .sequence items => do
      let w ← items.foldlM make w
      .ok (w.put id (.list items))
  | .pairs, .sequence items => do
      let (w, pairs) ← w.makePairs [] items
      .ok (w.put id (.pairs pairs))
  | .map, _ => do
      let (w, entries) ← w.makeEntries id
      .ok (w.put id (.map entries))
  | .set, _ => do
      let (w, entries) ← w.makeEntries id
      .ok (w.put id (.set (entries.map (·.1))))
  | _, _ => .error .malformed

/-- Fills all objects that are made, and those that are made by that. Each round
makes objects of nodes that had none. -/
def fillAll (w : Workshop) : Nat → Except Fault Workshop
  | 0 => .ok w
  | rounds + 1 =>
      if w.waiting.isEmpty then .ok w
      else
        match w.waiting.reverse.foldlM fill { w with waiting := [] } with
        | .ok w => w.fillAll rounds
        | .error fault => .error fault

end Workshop

/-! ## Unfolding objects -/

/-- Values of nodes, as far as they are known. -/
abbrev KnownValues := Array (Option Value)

/-- The value of a node, if it is known. -/
def knownValue? (known : KnownValues) (id : NodeId) : Option Value := (known[id]?).join

/-- The values of two nodes, if they are known. -/
def knownPair? (known : KnownValues) (pair : NodeId × NodeId) : Option (Value × Value) :=
  match knownValue? known pair.1, knownValue? known pair.2 with
  | some first, some second => some (first, second)
  | _, _ => none

/-- The value of an object, if those of its parts are known. -/
def Object.value? (known : KnownValues) : Object → Option Value
  | .scalar value => some value
  | .list items => (items.mapM (knownValue? known)).map .list
  | .pairs items =>
      (items.mapM (knownPair? known)).map fun pairs =>
        .list (pairs.map fun pair => .list [pair.1, pair.2])
  | .map entries => (entries.mapM (knownPair? known)).map .map
  | .set members => (members.mapM (knownValue? known)).map .set

/-- The value of an object without its parts. -/
def Object.bare : Object → Value
  | .scalar value => value
  | .list _ | .pairs _ => .list []
  | .map _ => .map []
  | .set _ => .set []

/-- The known values with those of further nodes whose parts are known. Parts
mostly have greater numbers, so these come first. -/
def settle (objects : Array (Option Object)) (known : KnownValues) : KnownValues :=
  (List.range objects.size).foldr
    (fun id known =>
      match knownValue? known id, (objects[id]?).join with
      | none, some object => known.setIfInBounds id (object.value? known)
      | _, _ => known)
    known

/-- The number of nodes whose values are known. -/
def knownCount (known : KnownValues) : Nat := (known.filter Option.isSome).size

/-- The values of all nodes that are no part of themselves and have no such
part. -/
def settleAll (objects : Array (Option Object)) (known : KnownValues) : Nat → KnownValues
  | 0 => known
  | rounds + 1 =>
      let more := settle objects known
      if knownCount more == knownCount known then known else settleAll objects more rounds

/-- The values of all nodes, in which objects without end are cut off at a
depth. -/
def unfold (objects : Array (Option Object)) (known : KnownValues) : Nat → KnownValues
  | 0 =>
      objects.mapIdx fun id object =>
        match knownValue? known id with
        | some value => some value
        | none => object.map Object.bare
  | depth + 1 =>
      let parts := unfold objects known depth
      objects.mapIdx fun id object =>
        match knownValue? known id with
        | some value => some value
        | none => object.bind fun object => object.value? parts

/-- The depth to which objects without end are unfolded. Nothing looks deeper: a
rule set holds rules in a list, and their fields are of interest only by kind. -/
def unfoldDepth : Nat := 4

/-- The value that a document holds. -/
def Document.value (d : Document) : Except Fault Value := do
  let start : Workshop :=
    { graph := d.graph
      merges := d.graph.mergeCount
      objects := Array.replicate d.graph.size none
      waiting := [] }
  let w ← start.make d.root
  let w ← w.fillAll (d.graph.size + 1)
  let known := settleAll w.objects (Array.replicate w.objects.size none) (w.objects.size + 1)
  match knownValue? known d.root with
  | some value => .ok value
  | none =>
      .ok ((knownValue? (unfold w.objects known unfoldDepth) d.root).getD .null)

/-- The value of a text that holds one document, and null for one that holds
none. -/
def readDocument (text : String) : Except Fault Value := do
  match ← Document.ofSymbols (symbolsOf text.toList) with
  | none => .ok .null
  | some document => document.value

end Yaml

end DateRules
