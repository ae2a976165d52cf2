import PropValidators.Yaml.Node
/-!
The value that a YAML text stands for. A mapping takes over the entries of those merged into it;
its own come last and count. Of several scalars that cannot be read, one nearest to the root is
blamed, the first of these.
-/
namespace PropValidators.Yaml

/-- A value. Numbers, timestamps and octets are kept as they are written. A collection that stands
in itself is shown as `enclosing` there. -/
inductive Value where
  | null
  | bool (value : Bool)
  | string (value : Text)
  | other (tag : Tag) (text : Text)
  | list (items : List Value)
  | mapping (entries : List (Value × Value))
  | set (entries : List (Value × Value))
  | enclosing

namespace Tag

def isScalar : Tag → Bool
  | null | bool | int | float | string | binary | timestamp => true
  | _ => false

def isMapping : Tag → Bool
  | mapping | set => true
  | _ => false

def isPairs : Tag → Bool
  | orderedMap | pairs => true
  | _ => false

def isCollection (t : Tag) : Bool := t.isMapping || t.isPairs || t = sequence

end Tag

namespace Node

def tag? : Node → Option Tag
  | scalar tag _ | sequence tag _ | mapping tag _ => some tag
  | enclosing => none

/-! ### Merging -/

/-- A key of a mapping, where `=` is a string as any other. -/
def asKey : Node → Node
  | scalar .value text => scalar .string text
  | node => node

mutual

/-- The same tree with every mapping merged that is read as one. A mapping that asks for what cannot
be merged is shown as a node that is not what its type says. -/
def resolveMerges : Node → Node
  | scalar tag text => scalar tag text
  | sequence tag items => sequence tag (resolveItems items)
  | mapping tag entries =>
    if tag.isMapping then
      match mergedEntries entries with
      | some (merged, own) => mapping tag (merged ++ own)
      | none => sequence tag []
    else if tag.isScalar then mapping tag entries
    else mapping tag (resolveEntries entries)
  | enclosing => enclosing

def resolveItems : List Node → List Node
  | [] => []
  | item :: items => resolveMerges item :: resolveItems items

def resolveEntries : List (Node × Node) → List (Node × Node)
  | [] => []
  | (key, value) :: entries =>
    (resolveMerges key, resolveMerges value) :: resolveEntries entries

/-- The entries taken over from others and the own entries of a mapping. -/
def mergedEntries : List (Node × Node) → Option (List (Node × Node) × List (Node × Node))
  | [] => some ([], [])
  | (key, value) :: entries => do
    if key.tag? = some .merge then
      let here ← mergeSource value
      let (merged, own) ← mergedEntries entries
      return (here ++ merged, own)
    else
      let (merged, own) ← mergedEntries entries
      return (merged, (asKey (resolveMerges key), resolveMerges value) :: own)

def mergeSource : Node → Option (List (Node × Node))
  | mapping _ entries => do
    let (merged, own) ← mergedEntries entries
    return merged ++ own
  | sequence _ items => mergeSources items
  | enclosing => some []
  | scalar .. => none

/-- The entries that several mappings give, those of the first last. -/
def mergeSources : List Node → Option (List (Node × Node))
  | [] => some []
  | mapping _ entries :: items => do
    let (merged, own) ← mergedEntries entries
    let later ← mergeSources items
    return later ++ merged ++ own
  | enclosing :: items => mergeSources items
  | _ => none

end

/-! ### Failures -/

mutual

/-- The text of a node that is read as a scalar: a mapping has that of its key `=`. -/
def scalarText? : Node → Option Text
  | scalar _ text => some text
  | mapping _ entries => entriesText? entries
  | _ => none

def entriesText? : List (Node × Node) → Option Text
  | [] => none
  | (key, value) :: entries =>
    if key.tag? = some .value then scalarText? value else entriesText? entries

end

/-- Whether a node stands for a collection, which cannot be a key. -/
def isCollection (node : Node) : Bool := node.tag?.all Tag.isCollection

mutual

/-- The failures in a node with their distance from the root, in the order of the text. The parts of
a collection are one step further away than the collection itself. -/
def failures (distance : Nat) : Node → List (Nat × Failure)
  | enclosing => []
  | scalar tag text =>
    if tag.isScalar then (Scalar.failure? tag text).toList.map (distance, ·)
    else if tag.isCollection then [(distance + 1, .malformed)]
    else [(distance, .malformed)]
  | sequence tag items =>
    if tag = .sequence then itemFailures (distance + 1) items
    else if tag.isPairs then pairFailures (distance + 1) items
    else if tag.isMapping then [(distance + 1, .malformed)]
    else [(distance, .malformed)]
  | mapping tag entries =>
    if tag.isMapping then entryFailures (distance + 1) entries
    else if tag.isCollection then [(distance + 1, .malformed)]
    else
      match entriesText? entries with
      | some text =>
        if tag = .timestamp then [(distance, .brokenOff .timestampOfMapping)]
        else (Scalar.failure? tag text).toList.map (distance, ·)
      | none => [(distance, .malformed)]

def itemFailures (distance : Nat) : List Node → List (Nat × Failure)
  | [] => []
  | item :: items => failures distance item ++ itemFailures distance items

def entryFailures (distance : Nat) : List (Node × Node) → List (Nat × Failure)
  | [] => []
  | (key, value) :: entries =>
    failures distance key ++ (if key.isCollection then [(distance, .malformed)] else []) ++
      failures distance value ++ entryFailures distance entries

def pairFailures (distance : Nat) : List Node → List (Nat × Failure)
  | [] => []
  | mapping _ [(key, value)] :: items =>
    failures distance key ++ failures distance value ++ pairFailures distance items
  | _ => [(distance, .malformed)]

end

/-- The failure of the least distance, the first of these. -/
def nearest : List (Nat × Failure) → Option (Nat × Failure)
  | [] => none
  | (distance, failure) :: others =>
    match nearest others with
    | some (d, f) => if d < distance then some (d, f) else some (distance, failure)
    | none => some (distance, failure)

end Node

namespace Value

def ofScalar (tag : Tag) (text : Text) : Value :=
  match tag with
  | .null => null
  | .bool => bool ((Scalar.truthValue? text).getD false)
  | .string => string text
  | _ => other tag text

mutual

def ofNode : Node → Value
  | .scalar tag text => ofScalar tag text
  | .sequence _ items => list (ofItems items)
  | .mapping tag entries =>
    if tag = .set then set (ofEntries entries)
    else if tag = .mapping then mapping (ofEntries entries)
    else ofScalar tag ((Node.entriesText? entries).getD [])
  | .enclosing => enclosing

def ofItems : List Node → List Value
  | [] => []
  | item :: items => ofNode item :: ofItems items

def ofEntries : List (Node × Node) → List (Value × Value)
  | [] => []
  | (key, value) :: entries => (ofNode key, ofNode value) :: ofEntries entries

end

/-- The value that a text stands for, null if it holds no document. -/
def read (text : String) : Except Failure Value := do
  match ← Node.ofTokens (Token.ofChars text.toList) with
  | none => return null
  | some node =>
    let node := node.resolveMerges
    match Node.nearest (node.failures 0) with
    | some (_, failure) => throw failure
    | none => return ofNode node

end Value

end PropValidators.Yaml
