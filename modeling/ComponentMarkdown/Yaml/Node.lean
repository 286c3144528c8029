/-
Nodes: what a YAML text describes, as scalars, sequences and mappings.

An alias stays an alias until the whole document is read: it names a place,
and what stands there is settled by the last anchor that was given it. An
anchor's place is the number of different names before it, so a name given
anew may come to share its place with the next new name.
-/
import ComponentMarkdown.Yaml.TokenStream

namespace ComponentMarkdown.Yaml

/-- A value of a YAML text. -/
inductive Node where
  /-- A scalar, and whether it was written plain. -/
  | scalar (text : Text) (plain : Bool)
  | sequence (items : List Node)
  | mapping (pairs : List (Node × Node))
  /-- What stands at a place. -/
  | alias (place : Nat)

/-- What stands where nothing is written. -/
def Node.nothing : Node := .scalar [] true

/-- A node with an anchor. -/
structure Anchored where
  /-- The place that aliases name. -/
  place : Nat
  /-- How many tokens were left at the anchor. -/
  left : Nat
  node : Node

/-- A document: its root, and its nodes with anchors. -/
structure Document where
  root : Node
  anchored : List Anchored

namespace Document

/-- The later of two nodes with anchors. -/
def later : Option Anchored → Anchored → Option Anchored
  | none, a => some a
  | some best, a => if a.left < best.left then some a else some best

/-- The node at a place: the one whose anchor is the last of the place. -/
def at? (d : Document) (place : Nat) : Option Node :=
  ((d.anchored.filter (·.place == place)).foldl later none).map (·.node)

/-- A node, or what it is an alias of. -/
def follow? (d : Document) : Node → Option Node
  | .alias place => d.at? place
  | n => some n

/-- The text of a scalar, whatever it looks like. -/
def text? (d : Document) (n : Node) : Option Text :=
  match d.follow? n with
  | some (.scalar t _) => some t
  | _ => none

/-- The texts of a sequence of scalars. Nothing written is no texts. -/
def texts? (d : Document) (n : Node) : Option (List Text) :=
  match d.follow? n with
  | some (.sequence items) => items.mapM d.text?
  | some (.scalar [] true) => some []
  | _ => none

end Document

-- ============================================================= reading

/-- What is known between two nodes. -/
structure Reader where
  tokens : List Token
  /-- The tag handles that may be used. -/
  handles : List Text
  /-- The anchors named so far, each name once, with its latest place. -/
  anchors : List (Text × Nat)
  /-- The nodes with anchors that are read to their end. -/
  nodes : List Anchored

/-- A step of reading, which may fail. -/
abbrev Reading (α : Type) := StateT Reader Option α

namespace Reading

/-- The next token, left where it is. -/
def peek : Reading (Option Token) := do return (← get).tokens.head?

/-- Passes over the next token. -/
def skip : Reading Unit := modify fun r => { r with tokens := r.tokens.tail }

/-- Whether the next token is one of some. -/
def nextIn (ts : List Token) : Reading Bool := do
  match ← peek with
  | some t => return ts.contains t
  | none => return false

/-- Passes over the next token if it is the given one. -/
def accept (t : Token) : Reading Bool := do
  if ← nextIn [t] then
    skip
    return true
  else return false

/-- Passes over the comma before an entry of a flow collection, which the
first entry does not have. -/
def separator (first : Bool) : Reading Bool :=
  if first then return true else accept .flowEntry

/-- Names an anchor; makes a node the one that is anchored here. -/
def nameAnchor (name : Text) : Reading (Node → Anchored) := do
  let r ← get
  let place := r.anchors.length
  modify fun r =>
    { r with anchors := (name, place) :: r.anchors.filter (·.1 != name) }
  return fun node => ⟨place, r.tokens.length, node⟩

/-- The alias of a name that an anchor gave. -/
def resolve (name : Text) : Reading Node := do
  match (← get).anchors.lookup name with
  | some place => return .alias place
  | none => failure

/-- Checks that a tag handle may be used. -/
def checkHandle (handle : Text) : Reading Unit := do
  if handle.isEmpty || (← get).handles.contains handle then return ()
  else failure

/-- The anchor and the tag before a node, in either order: what anchors the
node, and whether there is either. -/
def properties : Reading (Option (Node → Anchored) × Bool) := do
  match ← peek with
  | some (.anchor name) =>
    skip
    let anchor ← nameAnchor name
    match ← peek with
    | some (.tag handle) =>
      skip
      checkHandle handle
      return (some anchor, true)
    | _ => return (some anchor, true)
  | some (.tag handle) =>
    skip
    match ← peek with
    | some (.anchor name) =>
      skip
      let anchor ← nameAnchor name
      checkHandle handle
      return (some anchor, true)
    | _ =>
      checkHandle handle
      return (none, true)
  | _ => return (none, false)

mutual

/-- Reads a node. A block may start there or not; an indentless sequence is
one whose hyphens stand below their key. The first argument bounds the
depth of reading, here and below. -/
def node : Nat → Bool → Bool → Reading Node
  | 0, _, _ => failure
  | n + 1, block, indentless => do
    match ← peek with
    | some (.alias name) =>
      skip
      resolve name
    | _ =>
      let (anchor?, marked) ← properties
      let result ← content n block indentless marked
      match anchor? with
      | some anchor =>
        modify fun r => { r with nodes := anchor result :: r.nodes }
      | none => pure ()
      return result

/-- Reads what follows the properties of a node. -/
def content : Nat → Bool → Bool → Bool → Reading Node
  | 0, _, _, _ => failure
  | n + 1, block, indentless, marked => do
    match ← peek with
    | some (.scalar t plain) =>
      skip
      return .scalar t plain
    | some .flowSequenceStart =>
      skip
      return .sequence (← flowSequence n true)
    | some .flowMappingStart =>
      skip
      return .mapping (← flowMapping n true)
    | some .blockEntry =>
      if indentless then return .sequence (← indentlessSequence n)
      else if marked then return .nothing
      else failure
    | some .blockSequenceStart =>
      if block then
        skip
        return .sequence (← blockSequence n)
      else if marked then return .nothing
      else failure
    | some .blockMappingStart =>
      if block then
        skip
        return .mapping (← blockMapping n)
      else if marked then return .nothing
      else failure
    | _ => if marked then return .nothing else failure

/-- Reads a node, or nothing where one of the given tokens follows. -/
def nodeUnless : Nat → List Token → Bool → Bool → Reading Node
  | 0, _, _, _ => failure
  | n + 1, ends, block, indentless => do
    if ← nextIn ends then return .nothing else node n block indentless

/-- Reads the entries of a block sequence and its end. -/
def blockSequence : Nat → Reading (List Node)
  | 0 => failure
  | n + 1 => do
    if ← accept .blockEntry then
      let item ← nodeUnless n [.blockEntry, .blockEnd] true false
      return item :: (← blockSequence n)
    else if ← accept .blockEnd then return []
    else failure

/-- Reads the entries of a sequence without a block of its own. -/
def indentlessSequence : Nat → Reading (List Node)
  | 0 => failure
  | n + 1 => do
    if ← accept .blockEntry then
      let item ←
        nodeUnless n [.blockEntry, .key, .value, .blockEnd] true false
      return item :: (← indentlessSequence n)
    else return []

/-- Reads the pairs of a block mapping and its end. -/
def blockMapping : Nat → Reading (List (Node × Node))
  | 0 => failure
  | n + 1 => do
    let ends : List Token := [.key, .value, .blockEnd]
    if ← accept .key then
      let key ← nodeUnless n ends true true
      let value ←
        if ← accept .value then nodeUnless n ends true true
        else pure .nothing
      return (key, value) :: (← blockMapping n)
    else if ← accept .blockEnd then return []
    else failure

/-- Reads the entries of a flow sequence and its end. -/
def flowSequence : Nat → Bool → Reading (List Node)
  | 0, _ => failure
  | n + 1, first => do
    if ← accept .flowSequenceEnd then return []
    else if ← separator first then
      let ends : List Token := [.flowEntry, .flowSequenceEnd]
      if ← accept .key then
        let key ← nodeUnless n (.value :: ends) false false
        let value ←
          if ← accept .value then nodeUnless n ends false false
          else pure .nothing
        return .mapping [(key, value)] :: (← flowSequence n false)
      else if ← accept .flowSequenceEnd then return []
      else
        let item ← node n false false
        return item :: (← flowSequence n false)
    else failure

/-- Reads the pairs of a flow mapping and its end. -/
def flowMapping : Nat → Bool → Reading (List (Node × Node))
  | 0, _ => failure
  | n + 1, first => do
    if ← accept .flowMappingEnd then return []
    else if ← separator first then
      let ends : List Token := [.flowEntry, .flowMappingEnd]
      if ← accept .key then
        let key ← nodeUnless n (.value :: ends) false false
        let value ←
          if ← accept .value then nodeUnless n ends false false
          else pure .nothing
        return (key, value) :: (← flowMapping n false)
      else if ← accept .flowMappingEnd then return []
      else
        let key ← node n false false
        return (key, .nothing) :: (← flowMapping n false)
    else failure

end

-- =========================================================== documents

/-- The directives before a document, each of its kind only once. The first
argument bounds their number. -/
def directives : Nat → Bool → Reading Unit
  | 0, _ => failure
  | n + 1, versioned => do
    match ← peek with
    | some (.directive (.version major minor)) =>
      skip
      if versioned || major != 1 || !(minor == 1 || minor == 2) then failure
      else directives n true
    | some (.directive (.tagHandle handle)) =>
      skip
      if (← get).handles.contains handle then failure
      else
        modify fun r => { r with handles := handle :: r.handles }
        directives n versioned
    | _ => return ()

/-- Passes over the marks that end a document. The first argument bounds
their number. -/
def documentEnds : Nat → Reading Unit
  | 0 => failure
  | n + 1 => do
    if ← accept .documentEnd then documentEnds n else return ()

/-- Whether the next token starts what may come before a document. -/
def atDirective : Reading Bool := do
  match ← peek with
  | some (.directive _) => return true
  | _ => return false

/-- The root of the only document of a text. -/
def document (bound : Nat) : Reading Node := do
  if (← get).tokens.isEmpty then return .nothing
  else
    let explicit := (← atDirective) || (← nextIn [.documentStart])
    let root ←
      if explicit then
        let declared := (← get).handles
        modify fun r => { r with handles := [] }
        directives bound false
        modify fun r =>
          { r with handles := r.handles ++ declared }
        if ← accept .documentStart then
          if (← atDirective) || (← nextIn [.documentStart, .documentEnd])
              || (← get).tokens.isEmpty then
            pure .nothing
          else node bound true false
        else failure
      else node bound true false
    documentEnds bound
    if (← get).tokens.isEmpty then return root else failure

end Reading

/-- The document of a YAML text that holds one. A text without any counts as
one with nothing in it. -/
def document? (s : Text) : Option Document :=
  (tokens? s).bind fun tokens =>
    ((Reading.document (4 * (tokens.length + 1))).run
      ⟨tokens, [['!'], ['!', '!']], [], []⟩).map fun (root, r) =>
        ⟨root, r.nodes⟩

end ComponentMarkdown.Yaml
