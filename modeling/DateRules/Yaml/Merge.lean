import DateRules.Yaml.Node

/-!
# Merge keys

A mapping may take over the entries of others by a merge key. `Graph.merge` puts
the entries of the others before those of the mapping, whose own prevail. The
mappings that are taken over are merged first, once and for all; one that is
being merged already is taken as it is at that time.

A key that stands for the mapping is ordinary text once the mapping has been
merged.
-/

namespace DateRules

namespace Yaml

namespace Graph

/-- Whether the key of an entry is a merge key. -/
def isMergeEntry (g : Graph) (entry : NodeId × NodeId) : Bool := g.tag entry.1 == .merge

/-- The number of entries with merge keys in the whole graph. -/
def mergeCount (g : Graph) : Nat :=
  (List.range g.size).foldl
    (fun count id => count + ((g.entries id).filter g.isMergeEntry).length) 0

/-- The graph in which the keys of some entries are text if they stood for
mappings. -/
def settleKeys (g : Graph) (entries : List (NodeId × NodeId)) : Graph :=
  entries.foldl
    (fun g entry => if g.tag entry.1 == .value then g.setTag entry.1 .str else g) g

/-- The graph with further entries at the front of a mapping. -/
def prependEntries (g : Graph) (id : NodeId) (entries : List (NodeId × NodeId)) : Graph :=
  if entries.isEmpty then g else g.setContent id (.mapping (entries ++ g.entries id))

/-- Goes through the entries of a mapping from a position on, where `taken` holds
the entries that are taken over so far. An entry with a merge key is removed and
the entries of its mapping, or of the mappings in its sequence, are taken over;
of a sequence the first mapping prevails.

The bound is more than the number of entries with merge keys, of which each call
inside removes one. -/
def mergeFrom (id : NodeId) (position : Nat) (taken : List (NodeId × NodeId)) (g : Graph) :
    Nat → Except Fault Graph
  | 0 => .ok g
  | merges + 1 =>
      let entries := g.entries id
      let passed := (entries.drop position).takeWhile fun entry => !g.isMergeEntry entry
      let found := position + passed.length
      let g := g.settleKeys passed
      match entries.drop found with
      | [] => .ok (g.prependEntries id taken)
      | (_, source) :: after =>
          let g := g.setContent id (.mapping (entries.take found ++ after))
          match (g.node source).content with
          | .mapping _ => do
              let g ← mergeFrom source 0 [] g merges
              mergeFrom id found (taken ++ g.entries source) g merges
          | .sequence items => do
              let (g, lists) ← items.foldlM
                (fun (state : Graph × List (List (NodeId × NodeId))) item =>
                  match (state.1.node item).content with
                  | .mapping _ => do
                      let g ← mergeFrom item 0 [] state.1 merges
                      .ok (g, g.entries item :: state.2)
                  | _ => .error .malformed)
                (g, [])
              mergeFrom id found (taken ++ lists.flatten) g merges
          | .scalar _ => .error .malformed

/-- Merges into a mapping what its merge keys say, in a graph with at most
`merges` entries with merge keys. -/
def merge (g : Graph) (id : NodeId) (merges : Nat) : Except Fault Graph :=
  mergeFrom id 0 [] g (merges + 1)

end Graph

end Yaml

end DateRules
