import PropValidators.Yaml.Scalar
import PropValidators.Yaml.Token.Lexer
/-!
The tree of a YAML text: scalars, sequences and mappings with their types, aliases replaced by what
they stand for.
-/
namespace PropValidators.Yaml

/-- A node. An alias to a collection that it stands in itself is `enclosing`. -/
inductive Node where
  | scalar (tag : Tag) (text : Text)
  | sequence (tag : Tag) (items : List Node)
  | mapping (tag : Tag) (entries : List (Node × Node))
  | enclosing

namespace Node

/-- What stands where nothing is written. -/
def empty : Node := scalar .null []

/-- What is left of the tokens, with the nodes that have names and the tag handles of the
document. -/
structure Reading where
  tokens : List Token
  anchors : List (String × Node)
  handles : List (String × String)

abbrev Reader := StateT Reading (Except Failure)

namespace Reader

def peek : Reader Token := return ((← get).tokens.head?).getD .streamEnd

def advance : Reader Unit := modify fun r => { r with tokens := r.tokens.tail }

/-- Fails at a token that cannot stand there, with its own failure if it has one. -/
def unexpected {α : Type} : Reader α := do
  match ← peek with
  | .broken failure => throw failure
  | _ => throw .malformed

def name (anchor : Option String) (node : Node) : Reader Unit :=
  match anchor with
  | some a => modify fun r => { r with anchors := (a, node) :: r.anchors }
  | none => pure ()

def anchor : Reader (Option String) := do
  match ← peek with
  | .anchor a =>
    advance
    return some a
  | _ => return none

/-- Fails at an anchor that has been given before; what stands after it is looked at first. -/
def requireNew (anchor : Option String) : Reader Unit := do
  match anchor with
  | some a => if ((← get).anchors.lookup a).isSome then unexpected
  | none => return ()

def fullTag : Reader (Option String) := do
  match ← peek with
  | .tag none whole =>
    advance
    return some whole
  | .tag (some handle) suffix =>
    advance
    match (← get).handles.lookup handle with
    | some replacement => return some (replacement ++ suffix)
    | none => unexpected
  | _ => return none

/-- The anchor and the tag of a node in either order. -/
def properties : Reader (Option String × Option String) := do
  match ← anchor with
  | some a => return (some a, ← fullTag)
  | none =>
    match ← fullTag with
    | some t => return (← anchor, some t)
    | none => return (none, none)

/-- The type of a collection or of a scalar that says its type, else the given one. -/
def tagOr (tag : Option String) (default : Tag) : Tag :=
  match tag with
  | some t => if t = "!" then default else .ofUri t
  | none => default

/-- The type of a scalar: by its tag, else by its form if it is plain or its tag says so. -/
def scalarTag (tag : Option String) (text : Text) (plain : Bool) : Tag :=
  match tag with
  | some t => if t = "!" then Scalar.tagOf text else .ofUri t
  | none => if plain then Scalar.tagOf text else .string

/-- Whether a token ends a part of a block mapping that may be left out. -/
def endsBlockPart : Token → Bool
  | .key | .value | .blockEnd => true
  | _ => false

def endsBlockItem : Token → Bool
  | .blockEntry | .blockEnd => true
  | _ => false

def endsFlowPart : Token → Bool
  | .flowEntry | .flowSequenceEnd | .flowMappingEnd => true
  | _ => false

mutual

/-- A node. In a block it may be a block collection, and after a key of a block mapping also a
sequence that is not indented. -/
def node : (fuel : Nat) → (block unindented : Bool) → Reader Node
  | 0, _, _ => unexpected
  | fuel + 1, block, unindented => do
    match ← peek with
    | .reference a =>
      advance
      match (← get).anchors.lookup a with
      | some node => return node
      | none => throw .malformed
    | _ =>
      let (a, tag) ← properties
      requireNew a
      let collection (read : Reader Node) : Reader Node := do
        name a .enclosing
        let node ← read
        name a node
        return node
      match ← peek with
      | .blockEntry =>
        if unindented then
          collection do return .sequence (tagOr tag .sequence) (← unindentedItems fuel)
        else bare a tag
      | .scalar text plain =>
        advance
        let node := Node.scalar (scalarTag tag text plain) text
        name a node
        return node
      | .flowSequenceStart =>
        advance
        collection do return .sequence (tagOr tag .sequence) (← flowItems fuel true)
      | .flowMappingStart =>
        advance
        collection do return .mapping (tagOr tag .mapping) (← flowEntries fuel true)
      | .blockSequenceStart =>
        if block then
          advance
          collection do return .sequence (tagOr tag .sequence) (← blockItems fuel)
        else bare a tag
      | .blockMappingStart =>
        if block then
          advance
          collection do return .mapping (tagOr tag .mapping) (← blockEntries fuel)
        else bare a tag
      | _ => bare a tag

/-- A node of which nothing but an anchor or a tag is written. -/
def bare (anchor tag : Option String) : Reader Node :=
  if anchor.isSome || tag.isSome then do
    let node := Node.scalar (scalarTag tag [] true) []
    name anchor node
    return node
  else unexpected

def blockItems : (fuel : Nat) → Reader (List Node)
  | 0 => unexpected
  | fuel + 1 => do
    match ← peek with
    | .blockEntry =>
      advance
      let item ← if endsBlockItem (← peek) then pure empty else node fuel true false
      return item :: (← blockItems fuel)
    | .blockEnd =>
      advance
      return []
    | _ => unexpected

/-- The items of a sequence that is not indented. -/
def unindentedItems : (fuel : Nat) → Reader (List Node)
  | 0 => unexpected
  | fuel + 1 => do
    match ← peek with
    | .blockEntry =>
      advance
      let next ← peek
      let item ←
        if endsBlockItem next || endsBlockPart next then pure empty else node fuel true false
      return item :: (← unindentedItems fuel)
    | _ => return []

def blockEntries : (fuel : Nat) → Reader (List (Node × Node))
  | 0 => unexpected
  | fuel + 1 => do
    match ← peek with
    | .key =>
      advance
      let key ← if endsBlockPart (← peek) then pure empty else node fuel true true
      let value ← blockValue fuel
      return (key, value) :: (← blockEntries fuel)
    | .blockEnd =>
      advance
      return []
    | _ => unexpected

/-- The value of an entry of a block mapping, which may be left out. -/
def blockValue : (fuel : Nat) → Reader Node
  | 0 => unexpected
  | fuel + 1 => do
    match ← peek with
    | .value =>
      advance
      if endsBlockPart (← peek) then return empty else node fuel true true
    | _ => return empty

/-- A key between brackets after its indicator, and its value; both may be left out. -/
def flowEntry : (fuel : Nat) → Reader (Node × Node)
  | 0 => unexpected
  | fuel + 1 => do
    let key ←
      match ← peek with
      | .value => pure empty
      | next => if endsFlowPart next then pure empty else node fuel false false
    match ← peek with
    | .value =>
      advance
      if endsFlowPart (← peek) then return (key, empty) else return (key, ← node fuel false false)
    | _ => return (key, empty)

def flowItems : (fuel : Nat) → (first : Bool) → Reader (List Node)
  | 0, _ => unexpected
  | fuel + 1, first => do
    match ← peek with
    | .flowSequenceEnd =>
      advance
      return []
    | _ =>
      if !first then comma
      match ← peek with
      | .key =>
        advance
        let entry ← flowEntry fuel
        return .mapping .mapping [entry] :: (← flowItems fuel false)
      | .flowSequenceEnd =>
        advance
        return []
      | _ =>
        let item ← node fuel false false
        return item :: (← flowItems fuel false)

def flowEntries : (fuel : Nat) → (first : Bool) → Reader (List (Node × Node))
  | 0, _ => unexpected
  | fuel + 1, first => do
    match ← peek with
    | .flowMappingEnd =>
      advance
      return []
    | _ =>
      if !first then comma
      match ← peek with
      | .key =>
        advance
        let entry ← flowEntry fuel
        return entry :: (← flowEntries fuel false)
      | .flowMappingEnd =>
        advance
        return []
      | _ =>
        let key ← node fuel false false
        return (key, empty) :: (← flowEntries fuel false)

def comma : Reader Unit := do
  match ← peek with
  | .flowEntry => advance
  | _ => unexpected

end

def standardHandles : List (String × String) := [("!", "!"), ("!!", "tag:yaml.org,2002:")]

/-- The directives of a document: one version of the first series at most, and tag handles. -/
def directives : (fuel : Nat) → (versioned : Bool) → (handles : List (String × String)) →
    Reader (List (String × String))
  | 0, _, _ => unexpected
  | fuel + 1, versioned, handles => do
    match ← peek with
    | .directive (.version major _) =>
      advance
      if versioned || major ≠ 1 then throw .malformed else directives fuel true handles
    | .directive (.tagHandle handle replacement) =>
      advance
      if (handles.lookup handle).isSome then throw .malformed
      else directives fuel versioned (handles ++ [(handle, replacement)])
    | .directive .unknown =>
      advance
      directives fuel versioned handles
    | _ => return handles

def explicitDocument (fuel : Nat) : Reader Node := do
  let own ← directives fuel false []
  match ← peek with
  | .documentStart =>
    advance
    modify fun r => { r with handles := own ++ standardHandles }
    match ← peek with
    | .directive _ | .documentStart | .documentEnd | .streamEnd => return empty
    | _ => node fuel true false
  | _ => unexpected

def close : (fuel : Nat) → Reader Unit
  | 0 => unexpected
  | fuel + 1 => do
    match ← peek with
    | .documentEnd =>
      advance
      close fuel
    | .streamEnd => return ()
    | _ => unexpected

/-- The only document of a text, none if there is none. -/
def document (fuel : Nat) : Reader (Option Node) := do
  match ← peek with
  | .streamEnd => return none
  | next =>
    let root ←
      match next with
      | .directive _ | .documentStart => explicitDocument fuel
      | _ => node fuel true false
    close fuel
    return some root

end Reader

/-- The tree that tokens stand for, none if they are those of no document. -/
def ofTokens (tokens : List Token) : Except Failure (Option Node) :=
  ((Reader.document (3 * tokens.length + 3)).run
    ⟨tokens, [], Reader.standardHandles⟩).map Prod.fst

end Node

end PropValidators.Yaml
